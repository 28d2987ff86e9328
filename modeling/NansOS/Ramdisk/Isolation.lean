import NansOS.Ramdisk.Extents

/-! Owns isolation between files of the RAM disk: when the extents of two files
are disjoint, and that a write then leaves every other file readable as before.
A file that grows claims more blocks than it reserves, so its tail may lie
above the bump pointer; the next allocation for another file lands in that
tail. Disjointness therefore lasts exactly as long as every growing write finds
all other files below the bump pointer. -/

namespace NansOS.Ramdisk

open NansOS.Foundation
open NansOS.Kernel

/-- The extents of distinct files with blocks are disjoint. -/
def DisjointExtents (disk : RamDisk) : Prop :=
  ∀ first second, first ≠ second →
    (disk.files first).Occupies → (disk.files second).Occupies →
      (disk.files first).past ≤ (disk.files second).blockStart.toNat ∨
        (disk.files second).past ≤ (disk.files first).blockStart.toNat

/-- A write that grows a file finds every other file below the bump pointer. -/
def NeighboursBelow (disk : RamDisk) : Call → Prop
  | .write name offset size _ => ∀ index, disk.Grows name offset size index →
      ∀ other, other ≠ index → (disk.files other).Occupies →
        (disk.files other).past ≤ disk.freeBlockStart.toNat
  | _ => True

/-- A successful write changes no read of another file. -/
def IsolatedWrite (disk : RamDisk) : Call → Prop
  | .write name offset size buffer =>
      ∀ returned, (disk.ramdiskWrite name offset size buffer).1 = .ok returned →
        ∀ other, other ≠ name → ∀ readOffset readSize : UInt64,
          readOffset.toNat + readSize.toNat < 2 ^ 64 →
            ((disk.ramdiskWrite name offset size buffer).2.ramdiskRead other
              readOffset readSize).1 = (disk.ramdiskRead other readOffset readSize).1
  | _ => True

instance (disk : RamDisk) (call : Call) : Decidable (NeighboursBelow disk call) :=
  match call with
  | .createFile .. => isTrue trivial
  | .deleteFile .. => isTrue trivial
  | .read .. => isTrue trivial
  | .write name offset size _ =>
      inferInstanceAs (Decidable (∀ index, disk.Grows name offset size index →
        ∀ other, other ≠ index → (disk.files other).Occupies → _ ≤ _))

/-! ### Extents along a call -/

/-- Dropping files and keeping the extents of the rest keeps them disjoint. -/
theorem DisjointExtents.of_kept {disk other : RamDisk} (disjoint : DisjointExtents disk)
    (kept : ∀ index, (other.files index).Occupies → (disk.files index).Occupies ∧
      (other.files index).blockStart = (disk.files index).blockStart ∧
      (other.files index).blockCount = (disk.files index).blockCount) :
    DisjointExtents other := by
  intro first second different firstOccupies secondOccupies
  obtain ⟨firstBefore, firstStart, firstCount⟩ := kept first firstOccupies
  obtain ⟨secondBefore, secondStart, secondCount⟩ := kept second secondOccupies
  have before := disjoint first second different firstBefore secondBefore
  simp only [RamDiskFile.past, firstStart, firstCount, secondStart, secondCount] at before ⊢
  exact before

theorem DisjointExtents.setFile {disk : RamDisk} (disjoint : DisjointExtents disk)
    {index : Fin ramdiskMaxFiles} {file : RamDiskFile}
    (kept : file.Occupies → (disk.files index).Occupies ∧
      file.blockStart = (disk.files index).blockStart ∧
      file.blockCount = (disk.files index).blockCount) :
    DisjointExtents (disk.setFile index file) := by
  apply disjoint.of_kept
  intro other occupies
  by_cases same : other = index
  · subst same
    rw [RamDisk.setFile_same] at occupies ⊢
    exact kept occupies
  · rw [RamDisk.setFile_of_ne disk same] at occupies ⊢
    exact ⟨occupies, rfl, rfl⟩

theorem DisjointExtents.storeBuffer {disk : RamDisk} (disjoint : DisjointExtents disk)
    (index : Fin ramdiskMaxFiles) (offset size : UInt64) (buffer : Memory) :
    DisjointExtents (disk.storeBuffer index offset size buffer) := by
  apply disjoint.of_kept
  intro other occupies
  obtain ⟨used, -, start, count⟩ := disk.storeBuffer_extent index offset size buffer other
  rw [RamDiskFile.Occupies, used, count] at occupies
  exact ⟨occupies, start, count⟩

section Step

variable {limit : Nat} {disk : RamDisk} {name : CString} {index : Fin ramdiskMaxFiles}
variable {offset size : UInt64} {buffer : Memory}

/-- Growth keeps the extents disjoint exactly when no other file reaches above
the bump pointer, where the claimed blocks start. -/
theorem grown_disjoint_iff (placed : Placed limit disk) (disjoint : DisjointExtents disk)
    (used : (disk.files index).inUse = true) {required : UInt32}
    (needs : required > (disk.files index).blockCount) :
    DisjointExtents (disk.grown index required) ↔
      ∀ other, other ≠ index → (disk.files other).Occupies →
        (disk.files other).past ≤ disk.freeBlockStart.toNat := by
  have positive : 0 < required.toNat := by
    have more := UInt32.lt_iff_toNat_lt.mp needs
    omega
  have claimed : ((disk.grown index required).files index).Occupies := by
    rw [RamDisk.grown_same]
    exact ⟨used, positive⟩
  constructor
  · intro after other different occupies
    have apart := after other index different (by
      rw [RamDisk.grown_of_ne different]
      exact occupies) claimed
    rw [RamDisk.grown_of_ne different, RamDisk.grown_same] at apart
    have begins := placed.starts other occupies
    rcases apart with below | above
    · exact below
    · change disk.freeBlockStart.toNat + required.toNat ≤ _ at above
      omega
  · intro below first second different firstOccupies secondOccupies
    by_cases firstGrown : first = index
    · subst firstGrown
      rw [RamDisk.grown_of_ne different.symm] at secondOccupies ⊢
      right
      rw [RamDisk.grown_same]
      exact below second different.symm secondOccupies
    · rw [RamDisk.grown_of_ne firstGrown] at firstOccupies ⊢
      by_cases secondGrown : second = index
      · subst secondGrown
        left
        rw [RamDisk.grown_same]
        exact below first different firstOccupies
      · rw [RamDisk.grown_of_ne secondGrown] at secondOccupies ⊢
        exact disjoint first second different firstOccupies secondOccupies

/-- Storing the buffer decides nothing about extents. -/
theorem storeBuffer_disjoint_iff :
    DisjointExtents (disk.storeBuffer index offset size buffer) ↔ DisjointExtents disk := by
  refine ⟨fun after => after.of_kept fun other occupies => ?_,
    fun disjoint => disjoint.storeBuffer index offset size buffer⟩
  obtain ⟨used, -, start, count⟩ := disk.storeBuffer_extent index offset size buffer other
  rw [RamDiskFile.Occupies, used, count, start]
  exact ⟨occupies, rfl, rfl⟩

theorem DisjointExtents.createFile (disjoint : DisjointExtents disk) (flags : UInt32) :
    DisjointExtents (disk.ramdiskCreateFile name flags).2 := by
  unfold RamDisk.ramdiskCreateFile
  split_ifs
  · exact disjoint
  · exact disjoint
  · split
    · exact disjoint
    · apply disjoint.setFile
      intro occupies
      exact absurd occupies.2 (by simp)

theorem DisjointExtents.deleteFile (disjoint : DisjointExtents disk) :
    DisjointExtents (disk.ramdiskDeleteFile name).2 := by
  unfold RamDisk.ramdiskDeleteFile
  split
  · exact disjoint
  · apply DisjointExtents.setFile
    · exact disjoint
    · intro occupies
      exact absurd occupies.2 (by simp [RamDiskFile.zero])

theorem DisjointExtents.read (disjoint : DisjointExtents disk) :
    DisjointExtents (disk.call (.read name offset size)) := by
  unfold RamDisk.call RamDisk.ramdiskRead
  dsimp only
  split
  · exact disjoint
  · split_ifs
    · exact disjoint
    · exact disjoint.setFile fun occupies => ⟨occupies, rfl, rfl⟩

/-- Only a write that grows its file can make extents overlap. -/
theorem write_disjoint_iff (placed : Placed limit disk) (disjoint : DisjointExtents disk) :
    DisjointExtents (disk.ramdiskWrite name offset size buffer).2 ↔
      NeighboursBelow disk (.write name offset size buffer) := by
  change _ ↔ ∀ index, disk.Grows name offset size index → _
  rcases disk.write_cases name offset size buffer with ⟨error, failed⟩ | ⟨index, stays⟩ |
      ⟨index, grows⟩
  · refine iff_of_true (by rw [failed]; exact disjoint) fun index grows => ?_
    rw [RamDisk.write_of_grows grows] at failed
    simp at failed
  · refine iff_of_true ?_ fun other grows => ?_
    · rw [RamDisk.write_of_stays stays]
      exact storeBuffer_disjoint_iff.mpr disjoint
    · have same : index = other := Option.some.inj (stays.1.symm.trans grows.1)
      subst same
      exact absurd grows.2.1 (UInt32.not_lt.mpr stays.2)
  · rw [RamDisk.write_of_grows grows, storeBuffer_disjoint_iff,
      grown_disjoint_iff placed disjoint (RamDisk.inUse_of_find grows.1).1 grows.2.1]
    constructor
    · intro below other otherGrows
      have same : index = other := Option.some.inj (grows.1.symm.trans otherGrows.1)
      subst same
      exact below
    · intro every
      exact every index grows

theorem call_disjoint_iff (placed : Placed limit disk) (disjoint : DisjointExtents disk)
    (call : Call) : DisjointExtents (disk.call call) ↔ NeighboursBelow disk call := by
  cases call with
  | createFile name flags => exact iff_of_true (disjoint.createFile flags) trivial
  | deleteFile name => exact iff_of_true disjoint.deleteFile trivial
  | read name offset size => exact iff_of_true disjoint.read trivial
  | write name offset size buffer => exact write_disjoint_iff placed disjoint

/-! ### Bytes of other files -/

/-- The bytes a stored buffer changes lie in the blocks of its file. -/
theorem storeBuffer_eqOn (disk : RamDisk) (index : Fin ramdiskMaxFiles) (buffer : Memory)
    (small : offset.toNat + size.toNat < 2 ^ 31)
    (bound : (disk.files index).past ≤ 2 ^ 23)
    (room : offset.toNat + size.toNat ≤ 512 * (disk.files index).blockCount.toNat) :
    Set.EqOn (disk.storeBuffer index offset size buffer).data disk.data
      (Set.Ico (512 * (disk.files index).blockStart.toNat)
        (512 * (disk.files index).past))ᶜ := by
  intro target outside
  have outside : ¬ (512 * (disk.files index).blockStart.toNat ≤ target ∧
    target < 512 * ((disk.files index).blockStart.toNat +
      (disk.files index).blockCount.toNat)) := outside
  have bound : (disk.files index).blockStart.toNat + (disk.files index).blockCount.toNat ≤
    2 ^ 23 := bound
  rw [RamDisk.storeBuffer_data, RamDisk.storeSpan_start small]
  by_cases hasBlocks : (disk.files index).blockCount.toNat = 0
  · rw [if_neg (by omega)]
  · rw [byteOffset_toNat (by omega), if_neg (by omega)]

theorem grown_eqOn (placed : Placed limit disk) (bound : limit ≤ 2 ^ 23)
    (used : (disk.files index).inUse = true) {required : UInt32}
    (needs : required > (disk.files index).blockCount)
    (room : disk.freeBlockStart.toNat + required.toNat ≤ limit) :
    Set.EqOn (disk.grown index required).data disk.data
      (Set.Ico (512 * disk.freeBlockStart.toNat)
        (512 * (disk.freeBlockStart.toNat + required.toNat)))ᶜ := by
  have fits := placed.fits index used
  have more := UInt32.lt_iff_toNat_lt.mp needs
  unfold RamDisk.grown
  dsimp only
  split_ifs
  · refine (memcpy_eqOn disk.data _ _ _).mono fun target outside => ?_
    rw [byteOffset_toNat (by omega)]
    simp only [Set.mem_compl_iff, Set.mem_Ico] at outside ⊢
    omega
  · exact fun _ _ => rfl

/-- The bytes a read delivers lie in the blocks of its file. -/
theorem readSpan_within (placed : Placed limit disk) (bound : limit ≤ 2 ^ 23)
    (used : (disk.files index).inUse = true)
    (before : offset.toNat < (disk.files index).size.toNat)
    (exact : offset.toNat + size.toNat < 2 ^ 64) :
    512 * (disk.files index).blockStart.toNat ≤
        (readSpan (disk.files index) offset size).start ∧
      (readSpan (disk.files index) offset size).start +
          (readSpan (disk.files index) offset size).length ≤
        512 * (disk.files index).past := by
  have within : (disk.files index).blockStart.toNat + (disk.files index).blockCount.toNat ≤
    limit := placed.within index used
  have fits := placed.fits index used
  rw [readSpan_start before, readSpan_length before exact, byteOffset_toNat (by omega),
    RamDiskFile.past]
  omega

end Step

/-- No byte lies in the blocks of two files with disjoint extents. -/
theorem DisjointExtents.not_mem_other {disk : RamDisk} (disjoint : DisjointExtents disk)
    {first second : Fin ramdiskMaxFiles} (different : first ≠ second)
    (firstUsed : (disk.files first).inUse = true) (secondUsed : (disk.files second).inUse = true)
    {target : Nat}
    (inFirst : target ∈ Set.Ico (512 * (disk.files first).blockStart.toNat)
      (512 * (disk.files first).past)) :
    target ∉ Set.Ico (512 * (disk.files second).blockStart.toNat)
      (512 * (disk.files second).past) := by
  intro inSecond
  obtain ⟨firstStarts, firstEnds⟩ := Set.mem_Ico.mp inFirst
  obtain ⟨secondStarts, secondEnds⟩ := Set.mem_Ico.mp inSecond
  have firstOccupies : (disk.files first).Occupies := by
    refine ⟨firstUsed, ?_⟩
    rw [RamDiskFile.past] at firstEnds
    omega
  have secondOccupies : (disk.files second).Occupies := by
    refine ⟨secondUsed, ?_⟩
    rw [RamDiskFile.past] at secondEnds
    omega
  have extents := disjoint first second different firstOccupies secondOccupies
  omega

section Others

variable {limit : Nat} {disk : RamDisk} {name other : CString} {index : Fin ramdiskMaxFiles}
variable {offset size readOffset readSize : UInt64}

/-- A disk that differs from `disk` only in entry `index` and in bytes of its
blocks reads every other file as `disk` does. -/
theorem read_of_other {after : RamDisk} (placed : Placed limit disk)
    (bound : limit ≤ 2 ^ 23) (disjoint : DisjointExtents after)
    (named : (disk.files index).name = name) (used : (disk.files index).inUse = true)
    (sameName : ∀ entry, (after.files entry).inUse = (disk.files entry).inUse ∧
      (after.files entry).name = (disk.files entry).name)
    (sameFiles : ∀ entry, entry ≠ index → after.files entry = disk.files entry)
    (sameBytes : Set.EqOn after.data disk.data
      (Set.Ico (512 * (after.files index).blockStart.toNat)
        (512 * (after.files index).past))ᶜ)
    (different : other ≠ name) (exact : offset.toNat + size.toNat < 2 ^ 64) :
    (after.ramdiskRead other offset size).1 = (disk.ramdiskRead other offset size).1 := by
  unfold RamDisk.ramdiskRead
  rw [RamDisk.findFileByName_congr sameName]
  cases found : disk.findFileByName other with
  | none => rfl
  | some entry =>
      obtain ⟨entryUsed, entryNamed⟩ := RamDisk.inUse_of_find found
      have apart : entry ≠ index := by
        intro equal
        apply different
        rw [← entryNamed, ← named, equal]
      simp only [sameFiles entry apart]
      split_ifs with ended
      · rfl
      · have before := lt_size_iff.mp ended
        have span := readSpan_within placed bound entryUsed before exact
        have same : after.data.bytes (readSpan (disk.files entry) offset size).start
            (readSpan (disk.files entry) offset size).length =
            disk.data.bytes (readSpan (disk.files entry) offset size).start
              (readSpan (disk.files entry) offset size).length := by
          apply Memory.bytes_congr
          intro target inside
          apply sameBytes
          obtain ⟨starts, ends⟩ := Set.mem_Ico.mp inside
          apply disjoint.not_mem_other apart
          · rw [(sameName entry).1]
            exact entryUsed
          · rw [(sameName index).1]
            exact used
          · rw [sameFiles entry apart]
            exact Set.mem_Ico.mpr ⟨by omega, by omega⟩
        simp only [same]

/-- A write that stays in its blocks is isolated. -/
theorem isolated_of_stays (placed : Placed limit disk) (bound : limit ≤ 2 ^ 23)
    (small : offset.toNat + size.toNat < 2 ^ 31) (stays : disk.Stays name offset size index)
    (buffer : Memory) (disjoint : DisjointExtents (disk.ramdiskWrite name offset size buffer).2)
    (different : other ≠ name) (exact : readOffset.toNat + readSize.toNat < 2 ^ 64) :
    ((disk.ramdiskWrite name offset size buffer).2.ramdiskRead other readOffset readSize).1 =
      (disk.ramdiskRead other readOffset readSize).1 := by
  obtain ⟨used, named⟩ := RamDisk.inUse_of_find stays.1
  have required := requiredBlocks_eq (small.trans (by decide))
  have enough := UInt32.le_iff_toNat_le.mp stays.2
  rw [RamDisk.write_of_stays stays] at disjoint ⊢
  refine read_of_other placed bound disjoint named used
    (fun entry => ⟨(disk.storeBuffer_extent index offset size buffer entry).1,
      (disk.storeBuffer_extent index offset size buffer entry).2.1⟩)
    (fun entry apart => RamDisk.storeBuffer_of_ne apart) ?_ different exact
  have bytes := storeBuffer_eqOn disk index buffer small
    ((placed.within index used).trans bound) (by omega)
  rw [RamDiskFile.past, (disk.storeBuffer_extent index offset size buffer index).2.2.1,
    (disk.storeBuffer_extent index offset size buffer index).2.2.2]
  exact bytes

/-- So is a write that grows its file, if it leaves the extents disjoint. -/
theorem isolated_of_grows (placed : Placed limit disk) (bound : limit ≤ 2 ^ 23)
    (small : offset.toNat + size.toNat < 2 ^ 31) (grows : disk.Grows name offset size index)
    (claim : disk.freeBlockStart.toNat + (requiredBlocks offset size).toNat ≤ limit)
    (buffer : Memory) (disjoint : DisjointExtents (disk.ramdiskWrite name offset size buffer).2)
    (different : other ≠ name) (exact : readOffset.toNat + readSize.toNat < 2 ^ 64) :
    ((disk.ramdiskWrite name offset size buffer).2.ramdiskRead other readOffset readSize).1 =
      (disk.ramdiskRead other readOffset readSize).1 := by
  obtain ⟨used, named⟩ := RamDisk.inUse_of_find grows.1
  have required := requiredBlocks_eq (small.trans (by decide))
  rw [RamDisk.write_of_grows grows] at disjoint ⊢
  refine read_of_other placed bound disjoint named used (fun entry => ?_)
    (fun entry apart => ?_) ?_ different exact
  · by_cases same : entry = index
    · subst same
      rw [RamDisk.storeBuffer_same, RamDisk.grown_same]
      exact ⟨rfl, rfl⟩
    · rw [RamDisk.storeBuffer_of_ne same, RamDisk.grown_of_ne same]
      exact ⟨rfl, rfl⟩
  · rw [RamDisk.storeBuffer_of_ne apart, RamDisk.grown_of_ne apart]
  · rw [RamDiskFile.past, (RamDisk.storeBuffer_extent _ _ _ _ _ index).2.2.1,
      (RamDisk.storeBuffer_extent _ _ _ _ _ index).2.2.2, RamDisk.grown_same]
    have moved := grown_eqOn placed bound used grows.2.1 claim
    have stored := storeBuffer_eqOn (disk.grown index (requiredBlocks offset size)) index
      buffer small (by
        rw [RamDisk.grown_same]
        exact claim.trans bound) (by
        rw [RamDisk.grown_same]
        change offset.toNat + size.toNat ≤ 512 * (requiredBlocks offset size).toNat
        omega)
    rw [RamDisk.grown_same] at stored
    exact stored.trans moved

/-- Once the extents after a write are disjoint, the write is isolated. -/
theorem isolated_of_disjoint {call : Call}
    (placed : Placed limit disk) (bound : limit ≤ 2 ^ 23) (small : call.WriteSmall)
    (room : GrowsWithin limit disk call) (disjoint : DisjointExtents (disk.call call)) :
    IsolatedWrite disk call := by
  cases call with
  | createFile name flags => trivial
  | deleteFile name => trivial
  | read name offset size => trivial
  | write name offset size buffer =>
      intro returned success other different readOffset readSize exact
      rcases disk.write_cases name offset size buffer with ⟨error, failed⟩ | ⟨index, stays⟩ |
          ⟨index, grows⟩
      · rw [failed] at success
        cases success
      · exact isolated_of_stays placed bound small stays buffer disjoint different exact
      · exact isolated_of_grows placed bound small grows (room index grows) buffer disjoint
          different exact

end Others

/-! ### Isolation over runs -/

/-- While block addresses fit in 32 bits, a run keeps all extents disjoint and
every write isolated exactly when each growing write finds the other files
below the bump pointer. -/
theorem isolation_iff (memory : Memory) (calls : List Call)
    (small : ∀ call ∈ calls, call.WriteSmall)
    (addressed : Along RamDisk.call (GrowsWithin (2 ^ 23)) (ramdiskCreate memory) calls) :
    (Throughout RamDisk.call DisjointExtents (ramdiskCreate memory) calls ∧
        Along RamDisk.call IsolatedWrite (ramdiskCreate memory) calls) ↔
      Along RamDisk.call NeighboursBelow (ramdiskCreate memory) calls := by
  have starts : DisjointExtents (ramdiskCreate memory) := fun first _ _ occupies => by
    simp [ramdiskCreate, RamDiskFile.zero, RamDiskFile.Occupies] at occupies
  rw [throughout_iff, and_iff_right starts, ← along_and_iff]
  refine along_iff
    (fun disk => Placed (2 ^ 23) disk ∧ DisjointExtents disk)
    (fun disk call => call.WriteSmall ∧ GrowsWithin (2 ^ 23) disk call)
    ?_ ?_ ⟨Placed.create memory, starts⟩ ((along_of_forall small).and addressed)
  · rintro disk call ⟨placed, disjoint⟩ ⟨callSmall, room⟩ below
    exact ⟨placed.call le_rfl callSmall room,
      (call_disjoint_iff placed disjoint call).mpr below⟩
  · rintro disk call ⟨placed, disjoint⟩ ⟨callSmall, room⟩
    rw [call_disjoint_iff placed disjoint call]
    refine and_iff_left_of_imp fun below => ?_
    exact isolated_of_disjoint placed le_rfl callSmall room
      ((call_disjoint_iff placed disjoint call).mpr below)

/-- A file grows from one block to two, then another file gets its first. -/
def overclaimCalls : List Call :=
  [.createFile fileA 0, .createFile fileB 0,
    .write fileA 0 1 (fun _ => 1), .write fileA 512 1 (fun _ => 1),
    .write fileB 0 1 (fun _ => 2)]

/-- The second file is placed in the tail the first one claimed, and its byte
replaces one of the first file's. -/
theorem overclaim_shares_block :
    (∀ call ∈ overclaimCalls, call.WriteSmall) ∧
      ¬ Throughout RamDisk.call DisjointExtents (ramdiskCreate fun _ => 0) overclaimCalls ∧
      ((run RamDisk.call (ramdiskCreate fun _ => 0) (overclaimCalls.take 4)).ramdiskRead
        fileA 512 1).1 = .ok (1, [1]) ∧
      ((run RamDisk.call (ramdiskCreate fun _ => 0) overclaimCalls).ramdiskRead
        fileA 512 1).1 = .ok (1, [2]) := by
  refine ⟨by decide, fun holds => ?_, by decide +kernel, by decide +kernel⟩
  have final := throughout_iff_leading.mp holds overclaimCalls List.prefix_rfl
  exact absurd (final 0 1 (by decide) (by decide) (by decide)) (by decide)

/-- Two files that each take their blocks at once. -/
def separateCalls : List Call :=
  [.createFile fileA 0, .createFile fileB 0,
    .write fileA 0 600 (fun _ => 1), .write fileB 0 1 (fun _ => 2),
    .write fileA 600 100 (fun _ => 3)]

theorem separateCalls_isolated :
    Along RamDisk.call IsolatedWrite (ramdiskCreate fun _ => 0) separateCalls :=
  ((isolation_iff (fun _ => 0) separateCalls (by decide) (by decide)).mpr (by decide)).2

end NansOS.Ramdisk
