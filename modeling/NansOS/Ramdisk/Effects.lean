import NansOS.Ramdisk.Disk

/-! Owns what one RAM disk operation can do: the inversion of `ramdiskWrite`
into its three outcomes, the entry each operation touches, the bytes a write
may change, and the integer values of the 32- and 64-bit expressions in the
range `offset + size < 2^31`. Later modules reason from these facts and do not
unfold the operations again. -/

namespace NansOS.Ramdisk

open NansOS.Foundation
open NansOS.Kernel

/-! ### Machine arithmetic -/

/-- `required_blocks` is the rounded-up quotient while the sum fits into 40 bits. -/
theorem requiredBlocks_eq {offset size : UInt64} (below : offset.toNat + size.toNat < 2 ^ 40) :
    (requiredBlocks offset size).toNat = (offset.toNat + size.toNat + 511) / 512 := by
  simp only [requiredBlocks, UInt64.toNat_toUInt32, UInt64.toNat_div, UInt64.toNat_sub,
    UInt64.toNat_add, UInt64.toNat_ofNat', UInt64.reduceToNat, ramdiskBlockSize,
    Nat.reducePow, Nat.reduceMod]
  omega

theorem sum_toNat {offset size : UInt64} (small : offset.toNat + size.toNat < 2 ^ 31) :
    (offset + size).toNat = offset.toNat + size.toNat := by
  rw [UInt64.toNat_add]
  omega

theorem byteOffset_toNat {block : UInt32} (small : block.toNat < 2 ^ 23) :
    (byteOffset block).toNat = 512 * block.toNat := by
  simp only [byteOffset, UInt32.toNat_mul, UInt32.toNat_ofNat', ramdiskBlockSize,
    Nat.reducePow, Nat.reduceMod]
  omega

theorem intOfCount_of_small {count : UInt64} (small : count.toNat < 2 ^ 31) :
    intOfCount count = count.toNat := by
  unfold intOfCount
  rw [Int.bmod_def]
  omega

/-- The entry of a file just created. -/
def newFile (name : CString) (flags : UInt32) : RamDiskFile :=
  { RamDiskFile.zero with
    name := name
    flags := flags
    inUse := true }

namespace RamDisk

variable (disk : RamDisk)

/-! ### Entries -/

@[simp] theorem setFile_data (index : Fin ramdiskMaxFiles) (file : RamDiskFile) :
    (disk.setFile index file).data = disk.data := rfl

@[simp] theorem setFile_freeBlockStart (index : Fin ramdiskMaxFiles) (file : RamDiskFile) :
    (disk.setFile index file).freeBlockStart = disk.freeBlockStart := rfl

@[simp] theorem setFile_totalBlocks (index : Fin ramdiskMaxFiles) (file : RamDiskFile) :
    (disk.setFile index file).totalBlocks = disk.totalBlocks := rfl

@[simp] theorem setFile_same (index : Fin ramdiskMaxFiles) (file : RamDiskFile) :
    (disk.setFile index file).files index = file := by
  simp [setFile]

@[simp] theorem setFile_of_ne {index other : Fin ramdiskMaxFiles} (different : other ≠ index)
    (file : RamDiskFile) : (disk.setFile index file).files other = disk.files other := by
  simp [setFile, different]

variable {disk} {name : CString} {index : Fin ramdiskMaxFiles}

theorem inUse_of_find (found : disk.findFileByName name = some index) :
    (disk.files index).inUse = true ∧ (disk.files index).name = name := by
  have chosen := List.find?_some found
  simpa using chosen

theorem free_of_findFree (found : disk.findFreeFile = some index) :
    (disk.files index).inUse = false := by
  have chosen := List.find?_some found
  simpa using chosen

/-- A lookup depends only on which entries are in use under which name. -/
theorem findFileByName_congr {other : RamDisk}
    (same : ∀ index, (other.files index).inUse = (disk.files index).inUse ∧
      (other.files index).name = (disk.files index).name) (name : CString) :
    other.findFileByName name = disk.findFileByName name := by
  unfold findFileByName
  congr 1
  funext index
  rw [(same index).1, (same index).2]

/-! ### Outcomes of a deletion and of a read -/

theorem delete_of_missing (missing : disk.findFileByName name = none) :
    disk.ramdiskDeleteFile name = (.error .notFound, disk) := by
  simp only [ramdiskDeleteFile, missing]

theorem delete_of_found (found : disk.findFileByName name = some index) :
    disk.ramdiskDeleteFile name = (.ok 0,
      { disk with freeBlocks := disk.freeBlocks + (disk.files index).blockCount }.setFile index
        RamDiskFile.zero) := by
  simp only [ramdiskDeleteFile, found]

theorem read_of_missing (missing : disk.findFileByName name = none) (offset size : UInt64) :
    disk.ramdiskRead name offset size = (.error .notFound, disk) := by
  simp only [ramdiskRead, missing]

theorem read_of_found (found : disk.findFileByName name = some index) (offset size : UInt64) :
    disk.ramdiskRead name offset size =
      if offset ≥ (disk.files index).size.toUInt64 then (.ok (0, []), disk)
      else
        (.ok (intOfCount (UInt64.ofNat (readSpan (disk.files index) offset size).length),
          disk.data.bytes (readSpan (disk.files index) offset size).start
            (readSpan (disk.files index) offset size).length),
          disk.setFile index { disk.files index with accessTime := 0 }) := by
  simp only [ramdiskRead, found]

/-! ### Outcomes of a write -/

/-- The disk after a successful `growFile`. -/
def grown (disk : RamDisk) (index : Fin ramdiskMaxFiles) (required : UInt32) : RamDisk :=
  { disk with
    data :=
      if (disk.files index).blockCount > 0 then
        memcpy disk.data (byteOffset disk.freeBlockStart).toNat
          (byteOffset (disk.files index).blockStart).toNat (disk.files index).size.toNat
      else disk.data
    freeBlockStart := disk.freeBlockStart + (required - (disk.files index).blockCount)
    freeBlocks := disk.freeBlocks - (required - (disk.files index).blockCount)
    files := Function.update disk.files index
      { disk.files index with blockStart := disk.freeBlockStart, blockCount := required } }

/-- The call takes the growth branch for entry `index` and gets its blocks. -/
def Grows (disk : RamDisk) (name : CString) (offset size : UInt64)
    (index : Fin ramdiskMaxFiles) : Prop :=
  disk.findFileByName name = some index ∧
    requiredBlocks offset size > (disk.files index).blockCount ∧
    requiredBlocks offset size - (disk.files index).blockCount ≤ disk.freeBlocks

/-- The call finds entry `index`, whose blocks suffice. -/
def Stays (disk : RamDisk) (name : CString) (offset size : UInt64)
    (index : Fin ramdiskMaxFiles) : Prop :=
  disk.findFileByName name = some index ∧
    requiredBlocks offset size ≤ (disk.files index).blockCount

instance (disk : RamDisk) (name : CString) (offset size : UInt64)
    (index : Fin ramdiskMaxFiles) : Decidable (disk.Grows name offset size index) :=
  inferInstanceAs (Decidable (_ ∧ _))

theorem growFile_eq (index : Fin ramdiskMaxFiles) (required : UInt32) :
    disk.growFile index required =
      if required - (disk.files index).blockCount > disk.freeBlocks then
        (.error .noSpace, disk)
      else (.ok (), disk.grown index required) := by
  unfold growFile allocateBlocks
  by_cases full : required - (disk.files index).blockCount > disk.freeBlocks
  · simp only [if_pos full]
  · simp only [if_neg full]
    rfl

variable {offset size : UInt64} {buffer : Memory}

theorem write_of_missing (missing : disk.findFileByName name = none) :
    disk.ramdiskWrite name offset size buffer = (.error .notFound, disk) := by
  simp only [ramdiskWrite, missing]

theorem write_of_full (found : disk.findFileByName name = some index)
    (needs : requiredBlocks offset size > (disk.files index).blockCount)
    (full : requiredBlocks offset size - (disk.files index).blockCount > disk.freeBlocks) :
    disk.ramdiskWrite name offset size buffer = (.error .noSpace, disk) := by
  simp only [ramdiskWrite, found, if_pos needs, growFile_eq, if_pos full]

theorem write_of_stays (stays : disk.Stays name offset size index) :
    disk.ramdiskWrite name offset size buffer =
      (.ok (intOfCount size), disk.storeBuffer index offset size buffer) := by
  unfold ramdiskWrite
  rw [stays.1]
  simp only [if_neg (UInt32.not_lt.mpr stays.2)]

theorem write_of_grows (grows : disk.Grows name offset size index) :
    disk.ramdiskWrite name offset size buffer =
      (.ok (intOfCount size),
        (disk.grown index (requiredBlocks offset size)).storeBuffer index offset size buffer) := by
  unfold ramdiskWrite
  rw [grows.1]
  simp only [if_pos grows.2.1, growFile_eq, if_neg (UInt32.not_lt.mpr grows.2.2)]

/-- A write fails and changes nothing, stays in its blocks, or grows. -/
theorem write_cases (disk : RamDisk) (name : CString) (offset size : UInt64) (buffer : Memory) :
    (∃ error, disk.ramdiskWrite name offset size buffer = (.error error, disk)) ∨
      (∃ index, disk.Stays name offset size index) ∨
      ∃ index, disk.Grows name offset size index := by
  cases found : disk.findFileByName name with
  | none =>
      left
      exact ⟨.notFound, write_of_missing found⟩
  | some index =>
      by_cases needs : requiredBlocks offset size > (disk.files index).blockCount
      · by_cases full : requiredBlocks offset size - (disk.files index).blockCount >
            disk.freeBlocks
        · left
          exact ⟨.noSpace, write_of_full found needs full⟩
        · right
          right
          exact ⟨index, found, needs, UInt32.not_lt.mp full⟩
      · right
        left
        exact ⟨index, found, UInt32.not_lt.mp needs⟩

/-! ### Stored bytes -/

theorem storeBuffer_of_ne {other : Fin ramdiskMaxFiles} (different : other ≠ index) :
    (disk.storeBuffer index offset size buffer).files other = disk.files other := by
  simp [storeBuffer, different]

theorem storeBuffer_same :
    (disk.storeBuffer index offset size buffer).files index =
      { disk.files index with
        size :=
          if offset + size > (disk.files index).size.toUInt64 then (offset + size).toUInt32
          else (disk.files index).size
        modifyTime := 0
        accessTime := 0 } := by
  simp [storeBuffer]

@[simp] theorem storeBuffer_freeBlockStart :
    (disk.storeBuffer index offset size buffer).freeBlockStart = disk.freeBlockStart := rfl

@[simp] theorem storeBuffer_totalBlocks :
    (disk.storeBuffer index offset size buffer).totalBlocks = disk.totalBlocks := rfl

theorem storeBuffer_data (target : Nat) :
    (disk.storeBuffer index offset size buffer).data target =
      if (storeSpan (disk.files index) offset size).start ≤ target ∧
          target < (storeSpan (disk.files index) offset size).start + size.toNat then
        buffer (target - (storeSpan (disk.files index) offset size).start)
      else disk.data target :=
  memcpyFrom_apply disk.data _ buffer size.toNat target

/-- Storing a buffer moves no file. -/
theorem storeBuffer_extent (disk : RamDisk) (index : Fin ramdiskMaxFiles)
    (offset size : UInt64) (buffer : Memory) (other : Fin ramdiskMaxFiles) :
    ((disk.storeBuffer index offset size buffer).files other).inUse = (disk.files other).inUse ∧
      ((disk.storeBuffer index offset size buffer).files other).name = (disk.files other).name ∧
      ((disk.storeBuffer index offset size buffer).files other).blockStart =
        (disk.files other).blockStart ∧
      ((disk.storeBuffer index offset size buffer).files other).blockCount =
        (disk.files other).blockCount := by
  by_cases same : other = index
  · subst same
    rw [storeBuffer_same]
    exact ⟨rfl, rfl, rfl, rfl⟩
  · rw [storeBuffer_of_ne same]
    exact ⟨rfl, rfl, rfl, rfl⟩

/-- The recorded size after a write, in integers. -/
theorem storeBuffer_size (small : offset.toNat + size.toNat < 2 ^ 31) :
    ((disk.storeBuffer index offset size buffer).files index).size.toNat =
      max (disk.files index).size.toNat (offset.toNat + size.toNat) := by
  have sum := sum_toNat small
  rw [storeBuffer_same]
  by_cases beyond : offset + size > (disk.files index).size.toUInt64
  · have larger : (disk.files index).size.toNat < offset.toNat + size.toNat := by
      have := UInt64.lt_iff_toNat_lt.mp beyond
      rw [UInt32.toNat_toUInt64, sum] at this
      exact this
    simp only [if_pos beyond, UInt64.toNat_toUInt32, sum]
    omega
  · have smaller : offset.toNat + size.toNat ≤ (disk.files index).size.toNat := by
      have := UInt64.le_iff_toNat_le.mp (UInt64.not_lt.mp beyond)
      rw [UInt32.toNat_toUInt64, sum] at this
      exact this
    simp only [if_neg beyond]
    omega

theorem storeSpan_start {file : RamDiskFile} (small : offset.toNat + size.toNat < 2 ^ 31) :
    (storeSpan file offset size).start = (byteOffset file.blockStart).toNat + offset.toNat := by
  have bound := (byteOffset file.blockStart).toNat_lt
  simp only [storeSpan, UInt64.toNat_add, UInt32.toNat_toUInt64]
  omega

@[simp] theorem grown_same (required : UInt32) :
    (disk.grown index required).files index =
      { disk.files index with
        blockStart := disk.freeBlockStart
        blockCount := required } := by
  simp [grown]

@[simp] theorem grown_of_ne {other : Fin ramdiskMaxFiles} (different : other ≠ index)
    (required : UInt32) : (disk.grown index required).files other = disk.files other := by
  simp [grown, different]

@[simp] theorem grown_totalBlocks (required : UInt32) :
    (disk.grown index required).totalBlocks = disk.totalBlocks := rfl

/-- The bump pointer advances by the missing blocks only. -/
theorem grown_freeBlockStart {required : UInt32} {limit : Nat}
    (needs : required > (disk.files index).blockCount)
    (within : disk.freeBlockStart.toNat + required.toNat ≤ limit) (small : limit ≤ 2 ^ 23) :
    (disk.grown index required).freeBlockStart.toNat =
      disk.freeBlockStart.toNat + (required.toNat - (disk.files index).blockCount.toNat) := by
  have more := UInt32.lt_iff_toNat_lt.mp needs
  simp only [grown, UInt32.toNat_add,
    UInt32.toNat_sub_of_le _ _ (UInt32.le_of_lt needs)]
  omega

end RamDisk

end NansOS.Ramdisk
