import NansOS.Foundation.Stores
import NansOS.Ramdisk.Effects

/-! Owns the RAM disk as it lies in memory: `struct FileSystem`, `struct RamDisk` with
its file table and counters, the blocks at `ramdisk->data` and the buffers of callers,
all in one address space. The operations load and store fields where the structs have
them, and their copies go where the pointers lead, whatever is there. As long as no copy
hits the struct or the pointer to it, the table in memory goes the way of the table of
`Ramdisk.Disk`, whose blocks are apart from it. -/

namespace NansOS.Ramdisk

open NansOS.Foundation
open NansOS.Kernel

/-- The range has no byte in common with `count` bytes from `start` on. -/
def Span.Misses (span : Span) (start count : Nat) : Prop :=
  span.length = 0 ∨ span.start + span.length ≤ start ∨ start + count ≤ span.start

instance (span : Span) (start count : Nat) : Decidable (span.Misses start count) :=
  inferInstanceAs (Decidable (_ ∨ _))

namespace Resident

/-! ### Fields -/

/-- `sizeof(struct FileSystem)`; `flags` is at 32 and `device` at 40. -/
abbrev fileSystemBytes : Nat := 56

/-- `sizeof(struct RamDisk)`: `data` at 0, `files` from 8 on, `free_block_start` at
5128, `total_blocks` at 5132 and `free_blocks` at 5136. -/
abbrev ramDiskBytes : Nat := 5144

/-- `sizeof(struct RamDiskFile)`: `name` at 0, `flags` at 32, `size` at 36,
`block_start` at 40, `block_count` at 44, the times from 48 on and `in_use` at 72. -/
abbrev ramDiskFileBytes : Nat := 80

/-- `fs->device`. -/
def deviceOf (memory : Memory) (fs : Nat) : Nat := (memory.read64 (fs + 40)).toNat

/-- `&ramdisk->files[index]`. -/
def fileAddress (ramdisk : Nat) (index : Fin ramdiskMaxFiles) : Nat :=
  ramdisk + 8 + ramDiskFileBytes * index

/-- `ramdisk->data + (block * RAMDISK_BLOCK_SIZE) + offset`. -/
def byteAddress (memory : Memory) (ramdisk : Nat) (block : UInt32) (offset : UInt64) : Nat :=
  (memory.read64 ramdisk + (byteOffset block).toUInt64 + offset).toNat

/-! ### Operations -/

/-- `ramdisk_create`, when its three allocations succeed, without `fs->ops`. -/
def ramdiskCreate (memory : Memory) (fs : Nat) (ramdisk data : UInt64) : Memory :=
  let memory := memory.write64 ramdisk.toNat data
  let memory := memset memory data.toNat 0 ramdiskSize
  let memory := memset memory (ramdisk.toNat + 8) 0 (ramDiskFileBytes * ramdiskMaxFiles)
  let memory := memory.write32 (ramdisk.toNat + 5132)
    (UInt32.ofNat (ramdiskSize / ramdiskBlockSize))
  let memory := memory.write32 (ramdisk.toNat + 5136) (memory.read32 (ramdisk.toNat + 5132))
  let memory := memory.write32 (ramdisk.toNat + 5128) 0
  let memory := applied memory (placed fs [114, 97, 109, 100, 105, 115, 107, 0])
  let memory := memory.write32 (fs + 32) 0
  memory.write64 (fs + 40) ramdisk

/-- `strcmp` of a string in memory with a caller's string. -/
def strcmpName (memory : Memory) : Nat → List UInt8 → Int
  | address, [] => (memory address).toNat - 0
  | address, byte :: rest =>
      if memory address = byte then strcmpName memory (address + 1) rest
      else ((memory address).toNat : Int) - byte.toNat

/-- `file->in_use`, as a condition. -/
def inUse (memory : Memory) (file : Nat) : Bool := memory.read32 (file + 72) ≠ 0

/-- `find_free_file`. -/
def findFreeFile (memory : Memory) (ramdisk : Nat) : Option (Fin ramdiskMaxFiles) :=
  (List.finRange ramdiskMaxFiles).find? fun index => !inUse memory (fileAddress ramdisk index)

/-- `find_file_by_name`. -/
def findFileByName (memory : Memory) (ramdisk : Nat) (name : CString) :
    Option (Fin ramdiskMaxFiles) :=
  (List.finRange ramdiskMaxFiles).find? fun index =>
    inUse memory (fileAddress ramdisk index) &&
      decide (strcmpName memory (fileAddress ramdisk index) name.bytes = 0)

/-- `allocate_blocks`: `*start`, and the memory behind it. -/
def allocateBlocks (memory : Memory) (ramdisk : Nat) (count : UInt32) :
    Option (UInt32 × Memory) :=
  if count > memory.read32 (ramdisk + 5136) then
    none
  else
    let start := memory.read32 (ramdisk + 5128)
    let memory := memory.write32 (ramdisk + 5128) (memory.read32 (ramdisk + 5128) + count)
    some (start, memory.write32 (ramdisk + 5136) (memory.read32 (ramdisk + 5136) - count))

/-- The entry that `ramdisk_create_file` fills. -/
def fillFile (memory : Memory) (file : Nat) (name : CString) (flags : UInt32) : Memory :=
  let memory := applied memory (placed file (name.bytes ++ [0]))
  let memory := memory.write32 (file + 32) flags
  let memory := memory.write32 (file + 36) 0
  let memory := memory.write32 (file + 40) 0
  let memory := memory.write32 (file + 44) 0
  let memory := memory.write64 (file + 48) 0
  let memory := memory.write64 (file + 56) (memory.read64 (file + 48))
  let memory := memory.write64 (file + 64) (memory.read64 (file + 48))
  memory.write32 (file + 72) 1

/-- `ramdisk_create_file`. -/
def ramdiskCreateFile (memory : Memory) (fs : Nat) (name : CString) (flags : UInt32) :
    Except DiskError Int × Memory :=
  let ramdisk := deviceOf memory fs
  if strlen name ≥ ramdiskMaxNameLen then
    (.error .nameTooLong, memory)
  else if (findFileByName memory ramdisk name).isSome then
    (.error .alreadyExists, memory)
  else
    (findFreeFile memory ramdisk).elim (.error .tooManyFiles, memory) fun index =>
      (.ok 0, fillFile memory (fileAddress ramdisk index) name flags)

/-- `ramdisk_delete_file`. -/
def ramdiskDeleteFile (memory : Memory) (fs : Nat) (name : CString) :
    Except DiskError Int × Memory :=
  let ramdisk := deviceOf memory fs
  (findFileByName memory ramdisk name).elim (.error .notFound, memory) fun index =>
    let file := fileAddress ramdisk index
    let memory := memory.write32 (ramdisk + 5136)
      (memory.read32 (ramdisk + 5136) + memory.read32 (file + 44))
    (.ok 0, memset memory file 0 ramDiskFileBytes)

/-- `read_size` of `ramdisk_read`. -/
def readSize (memory : Memory) (file : Nat) (offset size : UInt64) : UInt64 :=
  if offset + size > (memory.read32 (file + 36)).toUInt64 then
    (memory.read32 (file + 36)).toUInt64 - offset
  else size

/-- `ramdisk_read` into a caller's buffer. -/
def ramdiskRead (memory : Memory) (fs : Nat) (name : CString) (offset size : UInt64)
    (buffer : Nat) : Except DiskError Int × Memory :=
  let ramdisk := deviceOf memory fs
  (findFileByName memory ramdisk name).elim (.error .notFound, memory) fun index =>
    let file := fileAddress ramdisk index
    if offset ≥ (memory.read32 (file + 36)).toUInt64 then
      (.ok 0, memory)
    else
      let length := readSize memory file offset size
      let src := byteAddress memory ramdisk (memory.read32 (file + 40)) offset
      (.ok (intOfCount length), (memcpy memory buffer src length.toNat).write64 (file + 64) 0)

/-- The copy of a file to new blocks, and the entry that then claims them. -/
def moveFile (memory : Memory) (ramdisk : Nat) (index : Fin ramdiskMaxFiles)
    (newStart required : UInt32) : Memory :=
  let file := fileAddress ramdisk index
  let memory :=
    if memory.read32 (file + 44) > 0 then
      memcpy memory (byteAddress memory ramdisk newStart 0)
        (byteAddress memory ramdisk (memory.read32 (file + 40)) 0)
        (memory.read32 (file + 36)).toNat
    else memory
  (memory.write32 (file + 40) newStart).write32 (file + 44) required

/-- The branch of `ramdisk_write` taken when the file needs more blocks. -/
def growFile (memory : Memory) (ramdisk : Nat) (index : Fin ramdiskMaxFiles)
    (required : UInt32) : Option Memory :=
  let blockCount := memory.read32 (fileAddress ramdisk index + 44)
  (allocateBlocks memory ramdisk (required - blockCount)).map fun allocated =>
    moveFile allocated.2 ramdisk index allocated.1 required

/-- What `ramdisk_write` does to the entry at last: raise the size, set the times. -/
def stamp (memory : Memory) (file : Nat) (offset size : UInt64) : Memory :=
  let memory :=
    if offset + size > (memory.read32 (file + 36)).toUInt64 then
      memory.write32 (file + 36) (offset + size).toUInt32
    else memory
  let memory := memory.write64 (file + 56) 0
  memory.write64 (file + 64) (memory.read64 (file + 56))

/-- The rest of `ramdisk_write`: store the buffer, bring the entry up to date. -/
def storeBuffer (memory : Memory) (ramdisk : Nat) (index : Fin ramdiskMaxFiles)
    (offset size : UInt64) (buffer : Nat) : Memory :=
  let file := fileAddress ramdisk index
  let dest := byteAddress memory ramdisk (memory.read32 (file + 40)) offset
  stamp (memcpy memory dest buffer size.toNat) file offset size

/-- `ramdisk_write` from a caller's buffer. -/
def ramdiskWrite (memory : Memory) (fs : Nat) (name : CString) (offset size : UInt64)
    (buffer : Nat) : Except DiskError Int × Memory :=
  let ramdisk := deviceOf memory fs
  (findFileByName memory ramdisk name).elim (.error .notFound, memory) fun index =>
    let required := requiredBlocks offset size
    if required > memory.read32 (fileAddress ramdisk index + 44) then
      (growFile memory ramdisk index required).elim (.error .noSpace, memory) fun grown =>
        (.ok (intOfCount size), storeBuffer grown ramdisk index offset size buffer)
    else (.ok (intOfCount size), storeBuffer memory ramdisk index offset size buffer)

/-! ### Runs -/

/-- A call into the RAM disk, or a byte that the rest of the kernel stores. -/
inductive Request where
  | createFile (name : CString) (flags : UInt32)
  | deleteFile (name : CString)
  | read (name : CString) (offset size : UInt64) (buffer : Nat)
  | write (name : CString) (offset size : UInt64) (buffer : Nat)
  | store (address : Nat) (byte : UInt8)

/-- The memory after one request to the RAM disk of a `struct FileSystem`. -/
def step (fs : Nat) (memory : Memory) : Request → Memory
  | .createFile name flags => (ramdiskCreateFile memory fs name flags).2
  | .deleteFile name => (ramdiskDeleteFile memory fs name).2
  | .read name offset size buffer => (ramdiskRead memory fs name offset size buffer).2
  | .write name offset size buffer => (ramdiskWrite memory fs name offset size buffer).2
  | .store address byte => Function.update memory address byte

/-- Where `ramdisk_write` copies the contents of a file that grows. -/
def moveSpan (memory : Memory) (ramdisk : Nat) (index : Fin ramdiskMaxFiles) : Span where
  start := byteAddress memory ramdisk (memory.read32 (ramdisk + 5128)) 0
  length :=
    if memory.read32 (fileAddress ramdisk index + 44) > 0 then
      (memory.read32 (fileAddress ramdisk index + 36)).toNat
    else 0

/-- Where `ramdisk_write` copies the contents of an entry and the buffer. -/
def writeSpans (memory : Memory) (ramdisk : Nat) (index : Fin ramdiskMaxFiles)
    (offset size : UInt64) : List Span :=
  let blockCount := memory.read32 (fileAddress ramdisk index + 44)
  if requiredBlocks offset size > blockCount then
    if requiredBlocks offset size - blockCount > memory.read32 (ramdisk + 5136) then []
    else
      [moveSpan memory ramdisk index,
        ⟨byteAddress memory ramdisk (memory.read32 (ramdisk + 5128)) offset, size.toNat⟩]
  else
    [⟨byteAddress memory ramdisk (memory.read32 (fileAddress ramdisk index + 40)) offset,
      size.toNat⟩]

/-- The ranges that the copies of a request store to. -/
def copies (fs : Nat) (memory : Memory) : Request → List Span
  | .read name offset size buffer =>
      (findFileByName memory (deviceOf memory fs) name).elim [] fun index =>
        let file := fileAddress (deviceOf memory fs) index
        if offset ≥ (memory.read32 (file + 36)).toUInt64 then []
        else [⟨buffer, (readSize memory file offset size).toNat⟩]
  | .write name offset size _ =>
      (findFileByName memory (deviceOf memory fs) name).elim [] fun index =>
        writeSpans memory (deviceOf memory fs) index offset size
  | .store address _ => [⟨address, 1⟩]
  | .createFile .. => []
  | .deleteFile .. => []

/-- The range ends in the address space, and misses `struct RamDisk` and the pointer to
it. -/
def Clear (fs ramdisk : Nat) (span : Span) : Prop :=
  span.start + span.length ≤ 2 ^ 64 ∧ span.Misses (fs + 40) 8 ∧
    span.Misses ramdisk ramDiskBytes

instance (fs ramdisk : Nat) (span : Span) : Decidable (Clear fs ramdisk span) :=
  inferInstanceAs (Decidable (_ ∧ _))

/-- No copy of the request hits the struct. -/
def Spares (fs : Nat) (memory : Memory) (request : Request) : Prop :=
  ∀ span ∈ copies fs memory request, Clear fs (deviceOf memory fs) span

instance (fs : Nat) (memory : Memory) (request : Request) :
    Decidable (Spares fs memory request) :=
  inferInstanceAs (Decidable (∀ span ∈ copies fs memory request, _))

/-- The blocks that `malloc` returned for `struct FileSystem` and `struct RamDisk` have
no byte in common. -/
def Separate (fs ramdisk : Nat) : Prop :=
  fs + fileSystemBytes ≤ ramdisk ∨ ramdisk + ramDiskBytes ≤ fs

instance (fs ramdisk : Nat) : Decidable (Separate fs ramdisk) :=
  inferInstanceAs (Decidable (_ ∨ _))

/-! ### The table in memory -/

/-- The entry that stands at an address. -/
def fileIn (memory : Memory) (file : Nat) : RamDiskFile where
  name := CString.ofBytes (memory.bytes file ramdiskMaxNameLen)
  flags := memory.read32 (file + 32)
  size := memory.read32 (file + 36)
  blockStart := memory.read32 (file + 40)
  blockCount := memory.read32 (file + 44)
  createTime := memory.read64 (file + 48)
  modifyTime := memory.read64 (file + 56)
  accessTime := memory.read64 (file + 64)
  inUse := inUse memory file

/-- The disk that stands at an address. -/
def diskIn (memory : Memory) (ramdisk : Nat) : RamDisk where
  data := fun position => memory ((memory.read64 ramdisk).toNat + position)
  files := fun index => fileIn memory (fileAddress ramdisk index)
  freeBlockStart := memory.read32 (ramdisk + 5128)
  totalBlocks := memory.read32 (ramdisk + 5132)
  freeBlocks := memory.read32 (ramdisk + 5136)

@[simp] theorem fileIn_blockCount (memory : Memory) (file : Nat) :
    (fileIn memory file).blockCount = memory.read32 (file + 44) := rfl

@[simp] theorem diskIn_files (memory : Memory) (ramdisk : Nat) (index : Fin ramdiskMaxFiles) :
    (diskIn memory ramdisk).files index = fileIn memory (fileAddress ramdisk index) := rfl

@[simp] theorem diskIn_freeBlockStart (memory : Memory) (ramdisk : Nat) :
    (diskIn memory ramdisk).freeBlockStart = memory.read32 (ramdisk + 5128) := rfl

@[simp] theorem diskIn_freeBlocks (memory : Memory) (ramdisk : Nat) :
    (diskIn memory ramdisk).freeBlocks = memory.read32 (ramdisk + 5136) := rfl

/-- Two disks with the same file table and counters. -/
structure SameTable (disk other : RamDisk) : Prop where
  files : other.files = disk.files
  freeBlockStart : other.freeBlockStart = disk.freeBlockStart
  totalBlocks : other.totalBlocks = disk.totalBlocks
  freeBlocks : other.freeBlocks = disk.freeBlocks

/-! ### Frames -/

section Frames

variable {memory changed : Memory} {ramdisk file : Nat} {index : Fin ramdiskMaxFiles}

theorem fileIn_congr (agree : Set.EqOn changed memory (Set.Ico file (file + 80))) :
    fileIn changed file = fileIn memory file := by
  have word : ∀ offset, offset + 4 ≤ 80 →
      changed.read32 (file + offset) = memory.read32 (file + offset) := fun offset _ =>
    Memory.read32_congr (agree.mono (Set.Ico_subset_Ico (by omega) (by omega)))
  have long : ∀ offset, offset + 8 ≤ 80 →
      changed.read64 (file + offset) = memory.read64 (file + offset) := fun offset _ =>
    Memory.read64_congr (agree.mono (Set.Ico_subset_Ico (by omega) (by omega)))
  have name : changed.bytes file ramdiskMaxNameLen = memory.bytes file ramdiskMaxNameLen :=
    Memory.bytes_congr (agree.mono
      (Set.Ico_subset_Ico le_rfl (Nat.add_le_add_left (by decide) file)))
  rw [fileIn, fileIn, inUse, inUse, name, word 32 (by decide), word 36 (by decide),
    word 40 (by decide), word 44 (by decide), word 72 (by decide), long 48 (by decide),
    long 56 (by decide), long 64 (by decide)]

/-- Every entry lies inside the struct, between `data` and the counters. -/
theorem fileAddress_inside (ramdisk : Nat) (index : Fin ramdiskMaxFiles) :
    ramdisk + 8 ≤ fileAddress ramdisk index ∧
      fileAddress ramdisk index + 80 ≤ ramdisk + 5128 := by
  have below : index.val < 64 := index.isLt
  simp only [fileAddress, ramDiskFileBytes]
  omega

theorem fileAddress_apart (ramdisk : Nat) {other : Fin ramdiskMaxFiles}
    (different : other ≠ index) :
    fileAddress ramdisk other + 80 ≤ fileAddress ramdisk index ∨
      fileAddress ramdisk index + 80 ≤ fileAddress ramdisk other := by
  have values : other.val ≠ index.val := fun same => different (Fin.ext same)
  simp only [fileAddress, ramDiskFileBytes]
  omega

/-- Nothing changes for the table unless a byte of the struct does. -/
theorem sameTable_of_eqOn
    (agree : Set.EqOn changed memory (Set.Ico ramdisk (ramdisk + 5144))) :
    SameTable (diskIn memory ramdisk) (diskIn changed ramdisk) where
  files := by
    funext index
    have inside := fileAddress_inside ramdisk index
    exact fileIn_congr (agree.mono (Set.Ico_subset_Ico (by omega) (by omega)))
  freeBlockStart :=
    Memory.read32_congr (agree.mono (Set.Ico_subset_Ico (by omega) (by omega)))
  totalBlocks := Memory.read32_congr (agree.mono (Set.Ico_subset_Ico (by omega) (by omega)))
  freeBlocks := Memory.read32_congr (agree.mono (Set.Ico_subset_Ico (by omega) (by omega)))

/-- Stores into an entry replace it, and nothing else of the table. -/
theorem sameTable_setFile
    (agree : Set.EqOn changed memory (Set.Ico (fileAddress ramdisk index)
      (fileAddress ramdisk index + 80))ᶜ) :
    SameTable ((diskIn memory ramdisk).setFile index
      (fileIn changed (fileAddress ramdisk index))) (diskIn changed ramdisk) := by
  have inside := fileAddress_inside ramdisk index
  have counter : ∀ offset, 5128 ≤ offset →
      changed.read32 (ramdisk + offset) = memory.read32 (ramdisk + offset) := fun offset _ =>
    Memory.read32_congr (agree.mono (Ico_subset_compl_Ico (.inl (by omega))))
  refine ⟨?_, counter 5128 le_rfl, counter 5132 (by decide), counter 5136 (by decide)⟩
  funext other
  by_cases same : other = index
  · rw [same, RamDisk.setFile_same]
    rfl
  · rw [RamDisk.setFile_of_ne _ same]
    have apart := fileAddress_apart ramdisk same
    exact fileIn_congr (agree.mono (Ico_subset_compl_Ico apart.symm))

end Frames

/-! ### Lookups -/

section Lookups

variable {memory : Memory} {ramdisk address count : Nat} {bytes : List UInt8}

theorem strcmpName_eq_zero_iff (nonzero : 0 ∉ bytes) :
    strcmpName memory address bytes = 0 ↔ Spells memory address bytes := by
  induction bytes generalizing address with
  | nil =>
      rw [strcmpName, Spells, ← UInt8.toNat_inj]
      simp
  | cons byte rest inductionHypothesis =>
      have later : 0 ∉ rest := fun member => nonzero (List.mem_cons_of_mem _ member)
      rw [strcmpName, Spells]
      by_cases same : memory address = byte
      · rw [if_pos same, inductionHypothesis later]
        simp [same]
      · have differ : (memory address).toNat ≠ byte.toNat := fun values =>
          same (UInt8.toNat_inj.mp values)
        rw [if_neg same]
        constructor
        · intro zero
          omega
        · intro spells
          exact absurd spells.1 same

/-- An array with a NUL spells what stands before it. -/
theorem spells_takeWhile
    (ends : ((memory.bytes address count).takeWhile fun byte => decide (byte ≠ 0)).length <
      count) :
    Spells memory address
      ((memory.bytes address count).takeWhile fun byte => decide (byte ≠ 0)) := by
  induction count generalizing address with
  | zero => exact absurd ends (Nat.not_lt_zero _)
  | succ count inductionHypothesis =>
      rw [Memory.bytes_cons] at ends ⊢
      by_cases zero : memory address = 0
      · rw [List.takeWhile_cons_of_neg (by simp [zero])]
        exact zero
      · rw [List.takeWhile_cons_of_pos (by simp [zero])] at ends ⊢
        exact ⟨rfl, inductionHypothesis (Nat.lt_of_succ_lt_succ ends)⟩

/-- An array holds the string that it spells. -/
theorem takeWhile_spells (spells : Spells memory address bytes) (nonzero : 0 ∉ bytes)
    (short : bytes.length < count) :
    ((memory.bytes address count).takeWhile fun byte => decide (byte ≠ 0)) = bytes := by
  induction bytes generalizing address count with
  | nil =>
      obtain ⟨count, rfl⟩ := Nat.exists_eq_add_one.mpr short
      have zero : memory address = 0 := spells
      rw [Memory.bytes_cons, List.takeWhile_cons_of_neg (by simp [zero])]
  | cons byte rest inductionHypothesis =>
      obtain ⟨count, rfl⟩ := Nat.exists_eq_add_one.mpr (Nat.zero_lt_of_lt short)
      have present : byte ≠ 0 := fun zero => nonzero (by simp [zero])
      rw [Memory.bytes_cons, spells.1, List.takeWhile_cons_of_pos (by simp [present]),
        inductionHypothesis spells.2 (fun member => nonzero (List.mem_cons_of_mem _ member))
          (Nat.lt_of_succ_lt_succ short)]

theorem fileIn_name {name : CString} {file : Nat} (spells : Spells memory file name.bytes)
    (short : strlen name < ramdiskMaxNameLen) : (fileIn memory file).name = name := by
  have same := takeWhile_spells spells name.terminated short
  cases name
  simp only [fileIn, CString.ofBytes, CString.mk.injEq]
  exact same

/-- Every name in use ends inside its array. -/
def NamesEnd (disk : RamDisk) : Prop :=
  ∀ index, (disk.files index).inUse = true →
    strlen (disk.files index).name < ramdiskMaxNameLen

theorem strcmpName_iff {file : Nat} (ends : strlen (fileIn memory file).name < ramdiskMaxNameLen)
    (name : CString) :
    strcmpName memory file name.bytes = 0 ↔ strcmp (fileIn memory file).name name = 0 := by
  have spelled : Spells memory file (fileIn memory file).name.bytes := spells_takeWhile ends
  rw [strcmpName_eq_zero_iff name.terminated, strcmp_eq_zero_iff]
  constructor
  · intro spells
    have same := spelled.unique spells (fileIn memory file).name.terminated name.terminated
    cases name
    exact CString.mk.injEq .. |>.mpr same
  · intro same
    rwa [same] at spelled

/-- The search in memory finds what the search in the table finds. -/
theorem findFileByName_eq (ends : NamesEnd (diskIn memory ramdisk)) (name : CString) :
    findFileByName memory ramdisk name = (diskIn memory ramdisk).findFileByName name := by
  unfold findFileByName RamDisk.findFileByName
  congr 1
  funext index
  change ((fileIn memory (fileAddress ramdisk index)).inUse &&
    decide (strcmpName memory (fileAddress ramdisk index) name.bytes = 0)) = _
  cases used : (fileIn memory (fileAddress ramdisk index)).inUse with
  | false => simp [diskIn, used]
  | true =>
      have compared := strcmpName_iff (ends index used) name
      simp only [diskIn, used, Bool.true_and]
      exact decide_eq_decide.mpr compared

theorem findFreeFile_eq (memory : Memory) (ramdisk : Nat) :
    findFreeFile memory ramdisk = (diskIn memory ramdisk).findFreeFile := rfl

end Lookups

/-! ### Stores into the struct -/

section Stores

variable {memory : Memory} {ramdisk file : Nat} {name : CString}

theorem SameTable.trans {first second third : RamDisk} (left : SameTable first second)
    (right : SameTable second third) : SameTable first third where
  files := right.files.trans left.files
  freeBlockStart := right.freeBlockStart.trans left.freeBlockStart
  totalBlocks := right.totalBlocks.trans left.totalBlocks
  freeBlocks := right.freeBlocks.trans left.freeBlocks

theorem SameTable.refl (disk : RamDisk) : SameTable disk disk := ⟨rfl, rfl, rfl, rfl⟩

theorem SameTable.setFile {disk other : RamDisk} (same : SameTable disk other)
    (index : Fin ramdiskMaxFiles) (file : RamDiskFile) :
    SameTable (disk.setFile index file) (other.setFile index file) where
  files := by
    rw [RamDisk.setFile, RamDisk.setFile, same.files]
  freeBlockStart := same.freeBlockStart
  totalBlocks := same.totalBlocks
  freeBlocks := same.freeBlocks

/-- A counter lies behind all entries. -/
theorem fileIn_counter (index : Fin ramdiskMaxFiles) {counter : Nat} (behind : 5128 ≤ counter)
    (value : UInt32) :
    fileIn (memory.write32 (ramdisk + counter) value) (fileAddress ramdisk index) =
      fileIn memory (fileAddress ramdisk index) := by
  have inside := fileAddress_inside ramdisk index
  exact fileIn_congr ((Memory.write32_eqOn memory _ value).mono
    (Ico_subset_compl_Ico (.inr (by omega))))

theorem sameTable_freeBlockStart (memory : Memory) (ramdisk : Nat) (value : UInt32) :
    SameTable { diskIn memory ramdisk with freeBlockStart := value }
      (diskIn (memory.write32 (ramdisk + 5128) value) ramdisk) where
  files := funext fun index => fileIn_counter index le_rfl value
  freeBlockStart := Memory.read32_write32_same _ _ _
  totalBlocks := Memory.read32_write32_disjoint _ _ (by omega)
  freeBlocks := Memory.read32_write32_disjoint _ _ (by omega)

theorem sameTable_freeBlocks (memory : Memory) (ramdisk : Nat) (value : UInt32) :
    SameTable { diskIn memory ramdisk with freeBlocks := value }
      (diskIn (memory.write32 (ramdisk + 5136) value) ramdisk) where
  files := funext fun index => fileIn_counter index (by decide) value
  freeBlockStart := Memory.read32_write32_disjoint _ _ (by omega)
  totalBlocks := Memory.read32_write32_disjoint _ _ (by omega)
  freeBlocks := Memory.read32_write32_same _ _ _

theorem fileIn_zero (zero : ∀ target ∈ Set.Ico file (file + 80), memory target = 0) :
    fileIn memory file = RamDiskFile.zero := by
  have word : ∀ offset, offset + 4 ≤ 80 → memory.read32 (file + offset) = 0 := fun offset _ => by
    rw [Memory.read32, Memory.load_of_zero fun target within =>
      zero target (Set.Ico_subset_Ico (by omega) (by omega) within)]
    rfl
  have long : ∀ offset, offset + 8 ≤ 80 → memory.read64 (file + offset) = 0 := fun offset _ =>
    Memory.read64_of_zero fun target within =>
      zero target (Set.Ico_subset_Ico (by omega) (by omega) within)
  have name : (fileIn memory file).name = CString.empty := by
    apply fileIn_name
    · exact zero file ⟨le_rfl, by omega⟩
    · exact (by decide : 0 < 32)
  have named : CString.ofBytes (memory.bytes file ramdiskMaxNameLen) = CString.empty := name
  rw [fileIn, inUse, named, word 32 (by decide), word 36 (by decide), word 40 (by decide),
    word 44 (by decide), word 72 (by decide), long 48 (by decide), long 56 (by decide),
    long 64 (by decide)]
  rfl

/-- Behind the name, `fillFile` only stores fields. -/
theorem fillFile_name (memory : Memory) (file : Nat) (name : CString) (flags : UInt32) :
    Set.EqOn (fillFile memory file name flags)
      (applied memory (placed file (name.bytes ++ [0]))) (Set.Ico (file + 32) (file + 80))ᶜ := by
  intro target outside
  simp only [Set.mem_compl_iff, Set.mem_Ico] at outside
  simp only [fillFile, Memory.write32, Memory.write64, Memory.store]
  rw [if_neg (by omega), if_neg (by omega), if_neg (by omega), if_neg (by omega),
    if_neg (by omega), if_neg (by omega), if_neg (by omega), if_neg (by omega)]

theorem fillFile_eqOn (short : strlen name < ramdiskMaxNameLen) (flags : UInt32) :
    Set.EqOn (fillFile memory file name flags) memory (Set.Ico file (file + 80))ᶜ := by
  have short : name.bytes.length < 32 := short
  intro target outside
  simp only [Set.mem_compl_iff, Set.mem_Ico] at outside
  have fields : target ∈ (Set.Ico (file + 32) (file + 80))ᶜ := by
    simp only [Set.mem_compl_iff, Set.mem_Ico]
    omega
  rw [fillFile_name memory file name flags fields]
  apply applied_placed_eqOn
  simp only [Set.mem_compl_iff, Set.mem_Ico, List.length_append, List.length_singleton]
  omega

theorem fileIn_fillFile (short : strlen name < ramdiskMaxNameLen) (flags : UInt32) :
    fileIn (fillFile memory file name flags) file = newFile name flags := by
  have spelled : Spells (fillFile memory file name flags) file name.bytes := by
    have below : name.bytes.length < 32 := short
    exact (spells_placed memory file name.bytes).congr
      ((fillFile_name memory file name flags).mono (Ico_subset_compl_Ico (.inr (by omega))))
  have named := fileIn_name spelled short
  have fields : fileIn (fillFile memory file name flags) file =
      { newFile name flags with name := (fileIn (fillFile memory file name flags) file).name } := by
    simp (disch := omega) only [fileIn, inUse, newFile, RamDiskFile.zero, fillFile,
      Memory.read32_write32_same, Memory.read32_write32_disjoint, Memory.read64_write64_same,
      Memory.read64_write64_disjoint, Memory.read64_write32_disjoint,
      Memory.read32_write64_disjoint]
    rfl
  rw [fields, named]
  rfl

end Stores

end Resident

end NansOS.Ramdisk
