import NansOS.Ramdisk.Extents

/-! Owns the RAM disk at the limits of its arguments, over any disk: what a read
delivers and a write reserves for all 64-bit offsets and sizes, and the error
exits. The clamp of a read compares the file size with a sum that may wrap, and
then copies the whole requested size; a write computes its blocks from the same
sum and cuts them to 32 bits. -/

namespace NansOS.Ramdisk

open NansOS.Foundation
open NansOS.Kernel

/-! ### Reads -/

/-- The bytes of a file from `offset` on that a read of this size can deliver. -/
def RamDiskFile.available (file : RamDiskFile) (offset size : UInt64) : Nat :=
  min size.toNat (file.size.toNat - offset.toNat)

/-- The extent of the file lies on the disk and its blocks hold its bytes. -/
def RamDiskFile.Stored (file : RamDiskFile) : Prop :=
  ramdiskBlockSize * file.past ≤ ramdiskSize ∧
    file.size.toNat ≤ ramdiskBlockSize * file.blockCount.toNat

instance (file : RamDiskFile) : Decidable file.Stored := inferInstanceAs (Decidable (_ ∧ _))

/-- A read delivers what is available, returns how much that is, and touches no
other byte of the disk. -/
structure ReadsAvailable (disk : RamDisk) (name : CString) (offset size : UInt64)
    (file : RamDiskFile) : Prop where
  delivers : (disk.ramdiskRead name offset size).1 =
    .ok (file.available offset size,
      disk.data.bytes (ramdiskBlockSize * file.blockStart.toNat + offset.toNat)
        (file.available offset size))
  touches : ∀ span ∈ disk.accesses (.read name offset size),
    span.start = ramdiskBlockSize * file.blockStart.toNat + offset.toNat ∧
      span.length = file.available offset size
  keeps : (disk.ramdiskRead name offset size).2.data = disk.data

section Read

variable {disk : RamDisk} {name : CString} {index : Fin ramdiskMaxFiles}
variable {offset size : UInt64}

theorem ramdiskRead_data : (disk.ramdiskRead name offset size).2.data = disk.data := by
  unfold RamDisk.ramdiskRead
  split
  · rfl
  · dsimp only
    split_ifs <;> rfl

/-- A read at or behind the end of the file. -/
theorem read_behind (found : disk.findFileByName name = some index)
    (behind : (disk.files index).size.toNat ≤ offset.toNat) :
    ReadsAvailable disk name offset size (disk.files index) := by
  have ended : offset ≥ (disk.files index).size.toUInt64 := by
    rw [ge_iff_le, UInt64.le_iff_toNat_le, UInt32.toNat_toUInt64]
    exact behind
  have none : (disk.files index).available offset size = 0 := by
    rw [RamDiskFile.available, Nat.sub_eq_zero_of_le behind, Nat.min_zero]
  constructor
  · rw [none]
    simp [RamDisk.ramdiskRead, found, ended, Memory.bytes]
  · simp [RamDisk.accesses, found, ended]
  · exact ramdiskRead_data

theorem read_before (size : UInt64) (found : disk.findFileByName name = some index)
    (before : offset.toNat < (disk.files index).size.toNat) :
    (disk.ramdiskRead name offset size).1 =
        .ok (intOfCount (UInt64.ofNat (readSpan (disk.files index) offset size).length),
          disk.data.bytes (readSpan (disk.files index) offset size).start
            (readSpan (disk.files index) offset size).length) ∧
      disk.accesses (.read name offset size) = [readSpan (disk.files index) offset size] := by
  have more := lt_size_iff.mpr before
  simp only [RamDisk.ramdiskRead, RamDisk.accesses, found, if_neg more, and_self]

/-- A wrapped sum delivers more than is available. -/
theorem ReadsAvailable.unwrapped
    (reads : ReadsAvailable disk name offset size (disk.files index))
    (found : disk.findFileByName name = some index)
    (before : offset.toNat < (disk.files index).size.toNat) :
    offset.toNat + size.toNat < 2 ^ 64 := by
  have spans := (read_before size found before).2
  by_contra wraps
  have length := (reads.touches _ (by rw [spans]; exact List.mem_singleton.mpr rfl)).2
  rw [readSpan_length_of_wrap _ before (by omega), RamDiskFile.available] at length
  have bound := (disk.files index).size.toNat_lt
  omega

/-- For every file that is stored on the disk, and every offset and size, a read
delivers what is available exactly when it starts at or behind the end of the
file or the sum of its offset and size does not wrap. -/
theorem readsAvailable_iff (found : disk.findFileByName name = some index)
    (stored : (disk.files index).Stored) :
    ReadsAvailable disk name offset size (disk.files index) ↔
      (offset.toNat < (disk.files index).size.toNat → offset.toNat + size.toNat < 2 ^ 64) := by
  obtain ⟨onDisk, fits⟩ := stored
  rw [RamDiskFile.past] at onDisk
  simp only [ramdiskBlockSize, ramdiskSize] at onDisk fits
  by_cases before : offset.toNat < (disk.files index).size.toNat
  · obtain ⟨result, spans⟩ := read_before size found before
    have start : (readSpan (disk.files index) offset size).start =
        ramdiskBlockSize * (disk.files index).blockStart.toNat + offset.toNat := by
      rw [readSpan_start before, byteOffset_toNat (by omega)]
    constructor
    · exact fun reads _ => reads.unwrapped found before
    · intro exact
      have length : (readSpan (disk.files index) offset size).length =
          (disk.files index).available offset size :=
        readSpan_length before (exact before)
      have small : (disk.files index).available offset size < 2 ^ 31 := by
        unfold RamDiskFile.available
        omega
      have count : (UInt64.ofNat ((disk.files index).available offset size)).toNat =
          (disk.files index).available offset size := by
        rw [UInt64.toNat_ofNat']
        omega
      constructor
      · rw [result, start, length, intOfCount_of_small (by omega), count]
      · intro span member
        rw [spans, List.mem_singleton] at member
        rw [member]
        exact ⟨start, length⟩
      · exact ramdiskRead_data
  · refine iff_of_true (read_behind found (Nat.le_of_not_lt before)) fun below => ?_
    exact absurd below before

end Read

/-- A file `a` of two bytes. -/
def twoBytes : RamDisk :=
  run RamDisk.call (ramdiskCreate fun _ => 0)
    [.createFile fileA 0, .write fileA 0 2 fun _ => 1]

/-- A read of the two bytes from the second on. -/
theorem twoBytes_reads : ReadsAvailable twoBytes fileA 1 5 (twoBytes.files 0) :=
  (readsAvailable_iff (show twoBytes.findFileByName fileA = some 0 by decide +kernel)
    (by decide +kernel)).mpr (by decide +kernel)

/-- A read of 2^64 - 1 bytes from the second on. -/
theorem twoBytes_reads_past_end :
    (twoBytes.files 0).inUse = true ∧ (twoBytes.files 0).Stored ∧
      ¬ ReadsAvailable twoBytes fileA 1 0xFFFFFFFFFFFFFFFF (twoBytes.files 0) := by
  refine ⟨by decide +kernel, by decide +kernel, fun reads => ?_⟩
  have found : twoBytes.findFileByName fileA = some 0 := by decide +kernel
  exact absurd (reads.unwrapped found (by decide +kernel)) (by decide)

/-! ### Writes -/

/-- After a write the file has blocks for what was written and a size that
counts it, and the number of bytes was returned. -/
structure WriteReserves (disk : RamDisk) (name : CString) (offset size : UInt64)
    (buffer : Memory) (index : Fin ramdiskMaxFiles) (returned : Int) : Prop where
  blocks : offset.toNat + size.toNat ≤ ramdiskBlockSize *
    ((disk.ramdiskWrite name offset size buffer).2.files index).blockCount.toNat
  counted : offset.toNat + size.toNat ≤
    ((disk.ramdiskWrite name offset size buffer).2.files index).size.toNat
  whole : returned = size.toNat

section Write

variable {disk : RamDisk} {name : CString} {index : Fin ramdiskMaxFiles}
variable {offset size : UInt64} {buffer : Memory}

theorem intOfCount_eq_iff (count : UInt64) :
    intOfCount count = count.toNat ↔ count.toNat < 2 ^ 31 := by
  constructor
  · intro same
    unfold intOfCount at same
    rw [Int.bmod_def] at same
    split_ifs at same
    · omega
    · omega
  · exact intOfCount_of_small

/-- What a stored buffer leaves as the size, in range. -/
theorem storeBuffer_counts (below : offset.toNat + size.toNat < 2 ^ 32) :
    offset.toNat + size.toNat ≤
      ((disk.storeBuffer index offset size buffer).files index).size.toNat := by
  have sum : (offset + size).toNat = offset.toNat + size.toNat := by
    rw [UInt64.toNat_add]
    omega
  rw [RamDisk.storeBuffer_same]
  dsimp only
  split_ifs with beyond
  · rw [UInt64.toNat_toUInt32, sum]
    omega
  · have within := UInt64.le_iff_toNat_le.mp (UInt64.not_lt.mp beyond)
    rwa [UInt32.toNat_toUInt64, sum] at within

/-- A successful write leaves the file with the blocks it required, and the
count cut to an `int` is returned. -/
theorem write_ok {returned : Int} (found : disk.findFileByName name = some index)
    (success : (disk.ramdiskWrite name offset size buffer).1 = .ok returned) :
    returned = intOfCount size ∧
      ∃ before : RamDisk, (disk.ramdiskWrite name offset size buffer).2 =
          before.storeBuffer index offset size buffer ∧
        (requiredBlocks offset size).toNat ≤ (before.files index).blockCount.toNat := by
  rcases disk.write_cases name offset size buffer with ⟨error, failed⟩ | ⟨other, stays⟩ |
      ⟨other, grows⟩
  · rw [failed] at success
    cases success
  · obtain rfl := Option.some.inj (stays.1.symm.trans found)
    rw [RamDisk.write_of_stays stays] at success ⊢
    exact ⟨(Except.ok.inj success).symm, disk, rfl, UInt32.le_iff_toNat_le.mp stays.2⟩
  · obtain rfl := Option.some.inj (grows.1.symm.trans found)
    rw [RamDisk.write_of_grows grows] at success ⊢
    refine ⟨(Except.ok.inj success).symm, _, rfl, ?_⟩
    rw [RamDisk.grown_same]

/-- Sizes are counted in 32 bits and returned in an `int`. -/
theorem WriteReserves.within {returned : Int}
    (reserves : WriteReserves disk name offset size buffer index returned)
    (count : returned = intOfCount size) :
    offset.toNat + size.toNat < 2 ^ 32 ∧ size.toNat < 2 ^ 31 := by
  obtain ⟨_, counted, whole⟩ := reserves
  have bound := ((disk.ramdiskWrite name offset size buffer).2.files index).size.toNat_lt
  exact ⟨counted.trans_lt bound, (intOfCount_eq_iff size).mp (count ▸ whole)⟩

/-- For every disk, file, offset and size, a successful write reserves what it
writes exactly when the sum of offset and size fits into 32 bits and the size
into an `int`. -/
theorem writeReserves_iff {returned : Int} (found : disk.findFileByName name = some index)
    (success : (disk.ramdiskWrite name offset size buffer).1 = .ok returned) :
    WriteReserves disk name offset size buffer index returned ↔
      offset.toNat + size.toNat < 2 ^ 32 ∧ size.toNat < 2 ^ 31 := by
  obtain ⟨count, before, left, enough⟩ := write_ok found success
  constructor
  · exact fun reserves => reserves.within count
  · rintro ⟨below, small⟩
    rw [requiredBlocks_eq (by omega)] at enough
    refine ⟨?_, ?_, count.trans ((intOfCount_eq_iff size).mpr small)⟩
    · rw [left, (before.storeBuffer_extent index offset size buffer index).2.2.2]
      simp only [ramdiskBlockSize]
      omega
    · rw [left]
      exact storeBuffer_counts below

end Write

/-- A write behind the two bytes, into the same block. -/
theorem twoBytes_write :
    WriteReserves twoBytes fileA 2 5 (fun _ => 3) 0 5 :=
  (writeReserves_iff (show twoBytes.findFileByName fileA = some 0 by decide +kernel)
    (by decide +kernel)).mpr (by decide +kernel)

/-- One byte at offset 2^64 - 1: the sum is 0 and needs no block. -/
theorem twoBytes_write_wraps :
    (twoBytes.ramdiskWrite fileA 0xFFFFFFFFFFFFFFFF 1 fun _ => 3).1 = .ok 1 ∧
      ¬ WriteReserves twoBytes fileA 0xFFFFFFFFFFFFFFFF 1 (fun _ => 3) 0 1 := by
  have success : (twoBytes.ramdiskWrite fileA 0xFFFFFFFFFFFFFFFF 1 fun _ => 3).1 = .ok 1 := by
    decide +kernel
  refine ⟨success, fun reserves => ?_⟩
  exact absurd (reserves.within (by decide)) (by decide)

/-! ### Error exits -/

/-- The call leaves through an error exit. -/
def RamDisk.Fails (disk : RamDisk) : Call → Prop
  | .createFile name flags => ∃ error, (disk.ramdiskCreateFile name flags).1 = .error error
  | .deleteFile name => ∃ error, (disk.ramdiskDeleteFile name).1 = .error error
  | .read name offset size => ∃ error, (disk.ramdiskRead name offset size).1 = .error error
  | .write name offset size buffer =>
      ∃ error, (disk.ramdiskWrite name offset size buffer).1 = .error error

/-- Failures change nothing, and a write of which the end fits into 40 bits fails
exactly when the file is missing or the blocks it has and the free ones are too
few. -/
structure FailsCleanly (disk : RamDisk) : Prop where
  unchanged : ∀ call, disk.Fails call →
    (disk.call call).data = disk.data ∧ (disk.call call).files = disk.files ∧
      (disk.call call).freeBlocks = disk.freeBlocks ∧
      (disk.call call).freeBlockStart = disk.freeBlockStart
  full : ∀ name offset size buffer, offset.toNat + size.toNat < 2 ^ 40 →
    (disk.Fails (.write name offset size buffer) ↔
      disk.findFileByName name = none ∨
        ∃ index, disk.findFileByName name = some index ∧
          (disk.files index).blockCount.toNat + disk.freeBlocks.toNat <
            (offset.toNat + size.toNat + 511) / 512)

/-- An operation that fails leaves the disk as it was. -/
theorem call_of_fails {disk : RamDisk} {call : Call} (fails : disk.Fails call) :
    disk.call call = disk := by
  cases call with
  | createFile name flags =>
      obtain ⟨error, failed⟩ := fails
      unfold RamDisk.ramdiskCreateFile at failed
      unfold RamDisk.call RamDisk.ramdiskCreateFile
      dsimp only at failed ⊢
      split_ifs at failed ⊢
      · rfl
      · rfl
      · cases free : disk.findFreeFile with
        | none => rfl
        | some index => simp [free] at failed
  | deleteFile name =>
      obtain ⟨error, failed⟩ := fails
      change (disk.ramdiskDeleteFile name).2 = disk
      cases found : disk.findFileByName name with
      | none => simp only [RamDisk.ramdiskDeleteFile, found]
      | some index =>
          simp only [RamDisk.ramdiskDeleteFile, found] at failed
          cases failed
  | read name offset size =>
      obtain ⟨error, failed⟩ := fails
      change (disk.ramdiskRead name offset size).2 = disk
      cases found : disk.findFileByName name with
      | none => simp only [RamDisk.ramdiskRead, found]
      | some index =>
          simp only [RamDisk.ramdiskRead, found] at failed
          split_ifs at failed
  | write name offset size buffer =>
      obtain ⟨error, failed⟩ := fails
      change (disk.ramdiskWrite name offset size buffer).2 = disk
      rcases disk.write_cases name offset size buffer with ⟨other, result⟩ | ⟨index, stays⟩ |
          ⟨index, grows⟩
      · rw [result]
      · rw [RamDisk.write_of_stays stays] at failed
        cases failed
      · rw [RamDisk.write_of_grows grows] at failed
        cases failed

theorem write_fails_iff (disk : RamDisk) (name : CString) (offset size : UInt64)
    (buffer : Memory) (below : offset.toNat + size.toNat < 2 ^ 40) :
    disk.Fails (.write name offset size buffer) ↔
      disk.findFileByName name = none ∨
        ∃ index, disk.findFileByName name = some index ∧
          (disk.files index).blockCount.toNat + disk.freeBlocks.toNat <
            (offset.toNat + size.toNat + 511) / 512 := by
  have required := requiredBlocks_eq below
  cases found : disk.findFileByName name with
  | none =>
      refine iff_of_true ⟨.notFound, ?_⟩ (.inl rfl)
      simp [RamDisk.ramdiskWrite, found]
  | some index =>
      simp only [reduceCtorEq, Option.some.injEq, exists_eq_left', false_or, ← required]
      by_cases needs : requiredBlocks offset size > (disk.files index).blockCount
      · have more := UInt32.lt_iff_toNat_lt.mp needs
        have missing : (requiredBlocks offset size - (disk.files index).blockCount).toNat =
            (requiredBlocks offset size).toNat - (disk.files index).blockCount.toNat :=
          UInt32.toNat_sub_of_le _ _ (UInt32.le_of_lt needs)
        by_cases full : requiredBlocks offset size - (disk.files index).blockCount >
            disk.freeBlocks
        · have few := UInt32.lt_iff_toNat_lt.mp full
          refine iff_of_true ⟨.noSpace, ?_⟩ (by omega)
          simp only [RamDisk.ramdiskWrite, found, if_pos needs, RamDisk.growFile_eq, if_pos full]
        · have room := UInt32.le_iff_toNat_le.mp (UInt32.not_lt.mp full)
          have grows : disk.Grows name offset size index :=
            ⟨found, needs, UInt32.not_lt.mp full⟩
          refine iff_of_false ?_ (by omega)
          rintro ⟨error, failed⟩
          rw [RamDisk.write_of_grows grows] at failed
          cases failed
      · have fits := UInt32.le_iff_toNat_le.mp (UInt32.not_lt.mp needs)
        have stays : disk.Stays name offset size index := ⟨found, UInt32.not_lt.mp needs⟩
        refine iff_of_false ?_ (by omega)
        rintro ⟨error, failed⟩
        rw [RamDisk.write_of_stays stays] at failed
        cases failed

/-- The error exits of all four operations, on every disk. -/
theorem fails_cleanly (disk : RamDisk) : FailsCleanly disk where
  unchanged := by
    intro call fails
    rw [call_of_fails fails]
    exact ⟨rfl, rfl, rfl, rfl⟩
  full := write_fails_iff disk

end NansOS.Ramdisk
