import NansOS.Ramdisk.Effects

/-! Owns where files lie on the RAM disk. `Placed limit` is the invariant of
every run whose growing writes claim blocks below `limit`; one lemma per
operation keeps it. From it follows exactly when a run stays on the disk: a
growing write must find room for all the blocks it claims above the bump
pointer, not only for the blocks it lacks, because neither `grown` nor
`ramdiskDeleteFile` keeps `freeBlocks` and `freeBlockStart` in step. -/

namespace NansOS.Ramdisk

open NansOS.Foundation
open NansOS.Kernel

/-- The block after the last block of a file. -/
def RamDiskFile.past (file : RamDiskFile) : Nat :=
  file.blockStart.toNat + file.blockCount.toNat

/-- The file is in use and has blocks. -/
def RamDiskFile.Occupies (file : RamDiskFile) : Prop :=
  file.inUse = true ∧ 0 < file.blockCount.toNat

instance (file : RamDiskFile) : Decidable file.Occupies :=
  inferInstanceAs (Decidable (_ ∧ _))

/-- Writes end below `2^31`, so that no length is cut. -/
def Call.WriteSmall : Call → Prop
  | .write _ offset size _ => offset.toNat + size.toNat < 2 ^ 31
  | _ => True

/-- A write that grows a file claims blocks below `limit`. -/
def GrowsWithin (limit : Nat) (disk : RamDisk) : Call → Prop
  | .write name offset size _ => ∀ index, disk.Grows name offset size index →
      disk.freeBlockStart.toNat + (requiredBlocks offset size).toNat ≤ limit
  | _ => True

instance (call : Call) : Decidable call.WriteSmall :=
  match call with
  | .createFile .. => isTrue trivial
  | .deleteFile .. => isTrue trivial
  | .read .. => isTrue trivial
  | .write _ _ _ _ => inferInstanceAs (Decidable (_ < _))

instance (limit : Nat) (disk : RamDisk) (call : Call) :
    Decidable (GrowsWithin limit disk call) :=
  match call with
  | .createFile .. => isTrue trivial
  | .deleteFile .. => isTrue trivial
  | .read .. => isTrue trivial
  | .write name offset size _ =>
      inferInstanceAs (Decidable (∀ index, disk.Grows name offset size index → _ ≤ limit))

/-- Every file in use lies below `limit` and starts below the bump pointer, and
its blocks hold its bytes. -/
structure Placed (limit : Nat) (disk : RamDisk) : Prop where
  pointer : disk.freeBlockStart.toNat ≤ limit
  starts : ∀ index, (disk.files index).Occupies →
    (disk.files index).blockStart.toNat < disk.freeBlockStart.toNat
  within : ∀ index, (disk.files index).inUse = true → (disk.files index).past ≤ limit
  fits : ∀ index, (disk.files index).inUse = true →
    (disk.files index).size.toNat ≤ 512 * (disk.files index).blockCount.toNat

namespace Placed

variable {limit : Nat} {disk : RamDisk} {name : CString} {index : Fin ramdiskMaxFiles}
variable {offset size : UInt64} {buffer : Memory}

theorem create (memory : Memory) : Placed limit (ramdiskCreate memory) where
  pointer := by simp [ramdiskCreate]
  starts := fun _ occupies => by simp [ramdiskCreate, RamDiskFile.zero,
    RamDiskFile.Occupies] at occupies
  within := fun _ used => by simp [ramdiskCreate, RamDiskFile.zero] at used
  fits := fun _ used => by simp [ramdiskCreate, RamDiskFile.zero] at used

/-- Overwriting an entry keeps the invariant when the new entry satisfies it. -/
theorem setFile (placed : Placed limit disk) {file : RamDiskFile}
    (starts : file.Occupies → file.blockStart.toNat < disk.freeBlockStart.toNat)
    (within : file.inUse = true → file.past ≤ limit)
    (fits : file.inUse = true → file.size.toNat ≤ 512 * file.blockCount.toNat) :
    Placed limit (disk.setFile index file) where
  pointer := placed.pointer
  starts := fun other occupies => by
    by_cases same : other = index
    · subst same
      rw [RamDisk.setFile_same] at occupies ⊢
      exact starts occupies
    · rw [RamDisk.setFile_of_ne disk same] at occupies ⊢
      exact placed.starts other occupies
  within := fun other used => by
    by_cases same : other = index
    · subst same
      rw [RamDisk.setFile_same] at used ⊢
      exact within used
    · rw [RamDisk.setFile_of_ne disk same] at used ⊢
      exact placed.within other used
  fits := fun other used => by
    by_cases same : other = index
    · subst same
      rw [RamDisk.setFile_same] at used ⊢
      exact fits used
    · rw [RamDisk.setFile_of_ne disk same] at used ⊢
      exact placed.fits other used

theorem createFile (placed : Placed limit disk) (flags : UInt32) :
    Placed limit (disk.ramdiskCreateFile name flags).2 := by
  unfold RamDisk.ramdiskCreateFile
  split
  · exact placed
  · split
    · exact placed
    · split
      · exact placed
      · apply placed.setFile <;> simp [RamDiskFile.Occupies, RamDiskFile.past]

theorem deleteFile (placed : Placed limit disk) :
    Placed limit (disk.ramdiskDeleteFile name).2 := by
  unfold RamDisk.ramdiskDeleteFile
  split
  · exact placed
  · next index _ =>
      have freed : Placed limit { disk with
          freeBlocks := disk.freeBlocks + (disk.files index).blockCount } :=
        ⟨placed.pointer, placed.starts, placed.within, placed.fits⟩
      apply freed.setFile <;> simp [RamDiskFile.zero, RamDiskFile.Occupies]

theorem read (placed : Placed limit disk) :
    Placed limit (disk.ramdiskRead name offset size).2 := by
  unfold RamDisk.ramdiskRead
  split
  · exact placed
  · next index _ =>
      dsimp only
      split
      · exact placed
      · exact placed.setFile (placed.starts index) (placed.within index) (placed.fits index)

/-- A buffer that ends inside the blocks of its file keeps the invariant. -/
theorem storeBuffer (placed : Placed limit disk)
    (small : offset.toNat + size.toNat < 2 ^ 31)
    (inside : offset.toNat + size.toNat ≤ 512 * (disk.files index).blockCount.toNat) :
    Placed limit (disk.storeBuffer index offset size buffer) := by
  have extent := disk.storeBuffer_extent index offset size buffer
  refine ⟨placed.pointer, fun other occupies => ?_, fun other used => ?_, fun other used => ?_⟩
  · obtain ⟨used, -, start, count⟩ := extent other
    rw [RamDiskFile.Occupies, used, count] at occupies
    rw [start]
    exact placed.starts other occupies
  · obtain ⟨sameUse, -, start, count⟩ := extent other
    rw [sameUse] at used
    rw [RamDiskFile.past, start, count]
    exact placed.within other used
  · obtain ⟨sameUse, -, -, count⟩ := extent other
    rw [sameUse] at used
    rw [count]
    by_cases same : other = index
    · subst same
      rw [RamDisk.storeBuffer_size small]
      exact max_le (placed.fits other used) inside
    · rw [RamDisk.storeBuffer_of_ne same]
      exact placed.fits other used

/-- Growth keeps the invariant when the claimed blocks end below `limit`. -/
theorem grown (placed : Placed limit disk) {required : UInt32} (bound : limit ≤ 2 ^ 23)
    (needs : required > (disk.files index).blockCount)
    (room : disk.freeBlockStart.toNat + required.toNat ≤ limit) :
    Placed limit (disk.grown index required) := by
  have pointer := RamDisk.grown_freeBlockStart needs room bound
  have more := UInt32.lt_iff_toNat_lt.mp needs
  refine ⟨by omega, fun other occupies => ?_, fun other used => ?_, fun other used => ?_⟩
  · by_cases same : other = index
    · subst same
      rw [RamDisk.grown_same, pointer]
      change disk.freeBlockStart.toNat < _
      omega
    · rw [RamDisk.grown_of_ne same] at occupies ⊢
      have before := placed.starts other occupies
      omega
  · by_cases same : other = index
    · subst same
      rw [RamDisk.grown_same]
      exact room
    · rw [RamDisk.grown_of_ne same] at used ⊢
      exact placed.within other used
  · by_cases same : other = index
    · subst same
      rw [RamDisk.grown_same] at used ⊢
      have before := placed.fits other used
      change (disk.files other).size.toNat ≤ 512 * required.toNat
      omega
    · rw [RamDisk.grown_of_ne same] at used ⊢
      exact placed.fits other used

theorem write (placed : Placed limit disk) (bound : limit ≤ 2 ^ 23)
    (small : offset.toNat + size.toNat < 2 ^ 31)
    (room : GrowsWithin limit disk (.write name offset size buffer)) :
    Placed limit (disk.ramdiskWrite name offset size buffer).2 := by
  have required := requiredBlocks_eq (small.trans (by decide))
  rcases disk.write_cases name offset size buffer with ⟨error, failed⟩ | ⟨index, stays⟩ |
      ⟨index, grows⟩
  · rw [failed]
    exact placed
  · rw [RamDisk.write_of_stays stays]
    have enough := UInt32.le_iff_toNat_le.mp stays.2
    exact placed.storeBuffer small (by omega)
  · rw [RamDisk.write_of_grows grows]
    apply (placed.grown bound grows.2.1 (room index grows)).storeBuffer small
    rw [RamDisk.grown_same]
    change offset.toNat + size.toNat ≤ 512 * (requiredBlocks offset size).toNat
    omega

/-- Every call of an admitted run keeps the invariant. -/
theorem call (placed : Placed limit disk) (bound : limit ≤ 2 ^ 23) {call : Call}
    (small : call.WriteSmall) (room : GrowsWithin limit disk call) :
    Placed limit (disk.call call) := by
  cases call with
  | createFile name flags => exact placed.createFile flags
  | deleteFile name => exact placed.deleteFile
  | read name offset size => exact placed.read
  | write name offset size buffer => exact placed.write bound small room

end Placed

/-! ### Staying on the disk -/

/-- Every file in use lies on the disk, and its blocks hold its bytes. -/
def OnDisk (disk : RamDisk) : Prop :=
  ∀ index, (disk.files index).inUse = true →
    (disk.files index).past ≤ disk.totalBlocks.toNat ∧
      (disk.files index).size.toNat ≤ 512 * (disk.files index).blockCount.toNat

/-- No byte of the range lies outside the allocation of `data`. -/
def Span.Inside (span : Span) : Prop :=
  span.length = 0 ∨ span.start + span.length ≤ ramdiskSize

/-- The source and the destination of the copy that moves a growing file. -/
def RamDisk.relocationSpans (disk : RamDisk) (index : Fin ramdiskMaxFiles) : List Span :=
  if (disk.files index).blockCount > 0 then
    [⟨(byteOffset (disk.files index).blockStart).toNat, (disk.files index).size.toNat⟩,
      ⟨(byteOffset disk.freeBlockStart).toNat, (disk.files index).size.toNat⟩]
  else []

/-- The ranges of `data` that a call reads or writes. -/
def RamDisk.accesses (disk : RamDisk) : Call → List Span
  | .read name offset size =>
      match disk.findFileByName name with
      | none => []
      | some index =>
          if offset ≥ (disk.files index).size.toUInt64 then []
          else [readSpan (disk.files index) offset size]
  | .write name offset size _ =>
      match disk.findFileByName name with
      | none => []
      | some index =>
          if requiredBlocks offset size > (disk.files index).blockCount then
            match disk.growFile index (requiredBlocks offset size) with
            | (.error _, _) => []
            | (.ok (), grown) =>
                disk.relocationSpans index ++ [storeSpan (grown.files index) offset size]
          else [storeSpan (disk.files index) offset size]
  | _ => []

/-- A read that starts before the end of its file does not wrap around the
64-bit sum of its offset and size. -/
def ReadsWithoutWrap (disk : RamDisk) : Call → Prop
  | .read name offset size => ∀ index, disk.findFileByName name = some index →
      offset.toNat < (disk.files index).size.toNat → offset.toNat + size.toNat < 2 ^ 64
  | _ => True

instance (disk : RamDisk) (call : Call) : Decidable (ReadsWithoutWrap disk call) :=
  match call with
  | .createFile .. => isTrue trivial
  | .deleteFile .. => isTrue trivial
  | .read name offset _ =>
      inferInstanceAs (Decidable (∀ index, disk.findFileByName name = some index →
        offset.toNat < (disk.files index).size.toNat → _ < 2 ^ 64))
  | .write .. => isTrue trivial

theorem call_totalBlocks (disk : RamDisk) (call : Call) :
    (disk.call call).totalBlocks = disk.totalBlocks := by
  cases call with
  | createFile name flags =>
      simp only [RamDisk.call, RamDisk.ramdiskCreateFile]
      split_ifs
      · rfl
      · rfl
      · split <;> rfl
  | deleteFile name =>
      simp only [RamDisk.call, RamDisk.ramdiskDeleteFile]
      split <;> rfl
  | read name offset size =>
      simp only [RamDisk.call, RamDisk.ramdiskRead]
      split
      · rfl
      · split_ifs <;> rfl
  | write name offset size buffer =>
      simp only [RamDisk.call]
      rcases disk.write_cases name offset size buffer with ⟨error, failed⟩ | ⟨index, stays⟩ |
          ⟨index, grows⟩
      · rw [failed]
      · rw [RamDisk.write_of_stays stays]
        rfl
      · rw [RamDisk.write_of_grows grows]
        rfl

section Accesses

variable {disk : RamDisk} {name : CString} {index : Fin ramdiskMaxFiles}
variable {offset size : UInt64} {buffer : Memory} {limit : Nat}

theorem readSpan_start {file : RamDiskFile} (before : offset.toNat < file.size.toNat) :
    (readSpan file offset size).start =
      (byteOffset file.blockStart).toNat + offset.toNat := by
  have startBound := (byteOffset file.blockStart).toNat_lt
  have sizeBound := file.size.toNat_lt
  simp only [readSpan, UInt64.toNat_add, UInt32.toNat_toUInt64]
  omega

theorem readSpan_length {file : RamDiskFile} (before : offset.toNat < file.size.toNat)
    (exact : offset.toNat + size.toNat < 2 ^ 64) :
    (readSpan file offset size).length = min size.toNat (file.size.toNat - offset.toNat) := by
  have sum : (offset + size).toNat = offset.toNat + size.toNat := by
    rw [UInt64.toNat_add, Nat.mod_eq_of_lt exact]
  have rest : (file.size.toUInt64 - offset).toNat = file.size.toNat - offset.toNat := by
    rw [UInt64.toNat_sub_of_le _ _ (UInt64.le_iff_toNat_le.mpr (by
      rw [UInt32.toNat_toUInt64]
      omega)), UInt32.toNat_toUInt64]
  simp only [readSpan, GT.gt, UInt64.lt_iff_toNat_lt, UInt32.toNat_toUInt64, sum, rest]
  split_ifs <;> omega

/-- A read that wraps copies the whole requested size. -/
theorem readSpan_length_of_wrap (file : RamDiskFile) (before : offset.toNat < file.size.toNat)
    (wraps : 2 ^ 64 ≤ offset.toNat + size.toNat) :
    (readSpan file offset size).length = size.toNat := by
  have offsetBound := offset.toNat_lt
  have sizeBound := size.toNat_lt
  have sum : (offset + size).toNat = offset.toNat + size.toNat - 2 ^ 64 := by
    rw [UInt64.toNat_add]
    omega
  simp only [readSpan, GT.gt, UInt64.lt_iff_toNat_lt, UInt32.toNat_toUInt64, sum]
  rw [if_neg (by omega)]

theorem lt_size_iff {file : RamDiskFile} :
    ¬ offset ≥ file.size.toUInt64 ↔ offset.toNat < file.size.toNat := by
  rw [ge_iff_le, UInt64.not_le, UInt64.lt_iff_toNat_lt, UInt32.toNat_toUInt64]

theorem read_inside (placed : Placed limit disk) (bound : limit ≤ 2048)
    (found : disk.findFileByName name = some index)
    (before : offset.toNat < (disk.files index).size.toNat)
    (exact : offset.toNat + size.toNat < 2 ^ 64) :
    (readSpan (disk.files index) offset size).Inside := by
  obtain ⟨used, -⟩ := RamDisk.inUse_of_find found
  have within : (disk.files index).blockStart.toNat + (disk.files index).blockCount.toNat ≤
    limit := placed.within index used
  have fits := placed.fits index used
  right
  rw [readSpan_start before, readSpan_length before exact, byteOffset_toNat (by omega)]
  simp only [ramdiskSize]
  omega

theorem store_inside {file : RamDiskFile} (small : offset.toNat + size.toNat < 2 ^ 31)
    (bound : file.past ≤ 2048)
    (room : offset.toNat + size.toNat ≤ 512 * file.blockCount.toNat) :
    (storeSpan file offset size).Inside := by
  have ends : file.blockStart.toNat + file.blockCount.toNat ≤ 2048 := bound
  right
  rw [RamDisk.storeSpan_start small, byteOffset_toNat (by omega)]
  change 512 * file.blockStart.toNat + offset.toNat + size.toNat ≤ 1048576
  omega

theorem relocation_inside (placed : Placed limit disk) (bound : limit ≤ 2048)
    (grows : disk.Grows name offset size index)
    (room : disk.freeBlockStart.toNat + (requiredBlocks offset size).toNat ≤ limit) :
    ∀ span ∈ disk.relocationSpans index, span.Inside := by
  obtain ⟨used, -⟩ := RamDisk.inUse_of_find grows.1
  have within : (disk.files index).blockStart.toNat + (disk.files index).blockCount.toNat ≤
    limit := placed.within index used
  have fits := placed.fits index used
  have more := UInt32.lt_iff_toNat_lt.mp grows.2.1
  intro span member
  unfold RamDisk.relocationSpans at member
  split_ifs at member with hasBlocks
  · simp only [List.mem_cons, List.not_mem_nil, or_false] at member
    rcases member with rfl | rfl
    · right
      change (byteOffset _).toNat + (disk.files index).size.toNat ≤ 1048576
      rw [byteOffset_toNat (by omega)]
      omega
    · right
      change (byteOffset _).toNat + (disk.files index).size.toNat ≤ 1048576
      rw [byteOffset_toNat (by omega)]
      omega
  · simp at member

/-- The ranges a write accesses, by outcome. -/
theorem mem_accesses_write {span : Span}
    (member : span ∈ disk.accesses (.write name offset size buffer)) :
    (∃ index, disk.Stays name offset size index ∧
        span = storeSpan (disk.files index) offset size) ∨
      ∃ index, disk.Grows name offset size index ∧
        (span ∈ disk.relocationSpans index ∨
          span = storeSpan ((disk.grown index (requiredBlocks offset size)).files index)
            offset size) := by
  unfold RamDisk.accesses at member
  cases found : disk.findFileByName name with
  | none => simp [found] at member
  | some index =>
      simp only [found, RamDisk.growFile_eq] at member
      by_cases needs : requiredBlocks offset size > (disk.files index).blockCount
      · by_cases full : requiredBlocks offset size - (disk.files index).blockCount >
            disk.freeBlocks
        · simp [if_pos needs, if_pos full] at member
        · rw [if_pos needs, if_neg full] at member
          right
          refine ⟨index, ⟨found, needs, UInt32.not_lt.mp full⟩, ?_⟩
          simpa using member
      · rw [if_neg needs] at member
        left
        exact ⟨index, ⟨found, UInt32.not_lt.mp needs⟩, List.mem_singleton.mp member⟩

/-- A call of small writes above the bump pointer copies inside `data`, unless it
is a read that wraps. -/
theorem accesses_inside {call : Call} (placed : Placed 2048 disk) (small : call.WriteSmall)
    (room : GrowsWithin 2048 disk call) (exact : ReadsWithoutWrap disk call) :
    ∀ span ∈ disk.accesses call, span.Inside := by
  intro span member
  cases call with
  | createFile name flags => simp [RamDisk.accesses] at member
  | deleteFile name => simp [RamDisk.accesses] at member
  | read name offset size =>
      simp only [RamDisk.accesses] at member
      split at member
      · simp at member
      · next index found =>
          split_ifs at member with ended
          · simp at member
          · rw [List.mem_singleton.mp member]
            have before := lt_size_iff.mp ended
            exact read_inside placed le_rfl found before (exact index found before)
  | write name offset size buffer =>
      have small : offset.toNat + size.toNat < 2 ^ 31 := small
      have required := requiredBlocks_eq (small.trans (by decide))
      rcases mem_accesses_write member with ⟨index, stays, rfl⟩ |
          ⟨index, grows, moved | rfl⟩
      · have enough := UInt32.le_iff_toNat_le.mp stays.2
        exact store_inside small
          (placed.within index (RamDisk.inUse_of_find stays.1).1) (by omega)
      · exact relocation_inside placed le_rfl grows (room index grows) span moved
      · rw [RamDisk.grown_same]
        refine store_inside small (room index grows) ?_
        change offset.toNat + size.toNat ≤ 512 * (requiredBlocks offset size).toNat
        omega

/-- A read that wraps leaves `data`. -/
theorem readsWithoutWrap_of_inside {call : Call} (placed : Placed 2048 disk)
    (inside : ∀ span ∈ disk.accesses call, span.Inside) : ReadsWithoutWrap disk call := by
  cases call with
  | createFile name flags => exact trivial
  | deleteFile name => exact trivial
  | read name offset size =>
      intro index found before
      by_contra wraps
      have used := (RamDisk.inUse_of_find found).1
      have fits := placed.fits index used
      have within : (disk.files index).blockStart.toNat +
        (disk.files index).blockCount.toNat ≤ 2048 := placed.within index used
      have accessed := inside (readSpan (disk.files index) offset size) (by
        simp [RamDisk.accesses, found, lt_size_iff.mpr before])
      have length := readSpan_length_of_wrap (disk.files index) before (not_lt.mp wraps)
      rcases accessed with empty | ends
      · omega
      · simp only [length, ramdiskSize] at ends
        omega
  | write name offset size buffer => exact trivial

/-- A growing write claims the blocks at the bump pointer, so they have room
where the file is on the disk after it. -/
theorem growsWithin_of_onDisk {call : Call} (onDisk : OnDisk (disk.call call)) :
    GrowsWithin disk.totalBlocks.toNat disk call := by
  cases call with
  | createFile name flags => exact trivial
  | deleteFile name => exact trivial
  | read name offset size => exact trivial
  | write name offset size buffer =>
      intro index grows
      have used := (RamDisk.inUse_of_find grows.1).1
      have extent := (disk.grown index (requiredBlocks offset size)).storeBuffer_extent
        index offset size buffer index
      rw [RamDisk.grown_same] at extent
      have after := onDisk index
      simp only [RamDisk.call, RamDisk.write_of_grows grows, RamDiskFile.past] at after
      rw [extent.1, extent.2.2.1, extent.2.2.2] at after
      exact (after used).1

end Accesses

/-- A call leaves the files on the disk and stays inside `data` exactly when a
growing write has room above the bump pointer and a read does not wrap. -/
theorem call_onDisk_iff {disk : RamDisk} {call : Call} (placed : Placed 2048 disk)
    (total : disk.totalBlocks.toNat = 2048) (small : call.WriteSmall) :
    (OnDisk (disk.call call) ∧ ∀ span ∈ disk.accesses call, span.Inside) ↔
      GrowsWithin disk.totalBlocks.toNat disk call ∧ ReadsWithoutWrap disk call := by
  constructor
  · rintro ⟨onDisk, inside⟩
    exact ⟨growsWithin_of_onDisk onDisk, readsWithoutWrap_of_inside placed inside⟩
  · rintro ⟨room, exact⟩
    rw [total] at room
    have after := placed.call (by norm_num) small room
    refine ⟨fun index used => ⟨?_, after.fits index used⟩,
      accesses_inside placed small room exact⟩
    rw [call_totalBlocks, total]
    exact after.within index used

/-- A run keeps every file on the disk and every copy inside `data` exactly
when each growing write fits above the bump pointer and no read wraps. -/
theorem stays_on_disk_iff (memory : Memory) (calls : List Call)
    (small : ∀ call ∈ calls, call.WriteSmall) :
    (Throughout RamDisk.call OnDisk (ramdiskCreate memory) calls ∧
        Along RamDisk.call (fun disk call => ∀ span ∈ disk.accesses call, span.Inside)
          (ramdiskCreate memory) calls) ↔
      Along RamDisk.call
        (fun disk call =>
          GrowsWithin disk.totalBlocks.toNat disk call ∧ ReadsWithoutWrap disk call)
        (ramdiskCreate memory) calls := by
  have starts : OnDisk (ramdiskCreate memory) := fun index used => by
    simp [ramdiskCreate, RamDiskFile.zero] at used
  rw [throughout_iff, and_iff_right starts, ← along_and_iff]
  refine along_iff (fun disk => Placed 2048 disk ∧ disk.totalBlocks.toNat = 2048)
    (fun _ call => call.WriteSmall) ?_ ?_ ⟨Placed.create memory, rfl⟩
    (along_of_forall small)
  · rintro disk call ⟨placed, total⟩ callSmall ⟨room, -⟩
    rw [total] at room
    refine ⟨placed.call (by norm_num) callSmall room, ?_⟩
    rw [call_totalBlocks, total]
  · rintro disk call ⟨placed, total⟩ callSmall
    exact call_onDisk_iff placed total callSmall

/-- Fill the disk with one file, delete it, and write one byte to another. -/
def reuseCalls : List Call :=
  [.createFile fileA 0, .write fileA 1048575 1 (fun _ => 0),
    .deleteFile fileA, .createFile fileB 0,
    .write fileB 0 1 (fun _ => 0)]

/-- The space a deletion returned is handed out past the end of the disk. -/
theorem reuse_leaves_disk :
    (∀ call ∈ reuseCalls, call.WriteSmall) ∧
      ¬ Throughout RamDisk.call OnDisk (ramdiskCreate fun _ => 0) reuseCalls := by
  refine ⟨by decide, fun holds => ?_⟩
  have final := (throughout_iff_leading.mp holds reuseCalls List.prefix_rfl) 0 (by decide)
  exact absurd final.1 (by decide)

/-- One file, written over two blocks and read back in part. -/
def fittingCalls : List Call :=
  [.createFile fileA 0, .write fileA 0 700 (fun _ => 7),
    .read fileA 100 700]

theorem fittingCalls_stay_on_disk :
    Throughout RamDisk.call OnDisk (ramdiskCreate fun _ => 0) fittingCalls :=
  ((stays_on_disk_iff (fun _ => 0) fittingCalls (by decide)).mpr (by decide)).1

end NansOS.Ramdisk
