import NansOS.Ramdisk.Resident

/-! Owns what one request does to the RAM disk in memory when none of its copies hits the
struct: the table goes the way of the table of a disk whose blocks are elsewhere, and the
two pointers stay. An invariant of that table so holds in every state of a run of such
requests from `ramdiskCreate` on. -/

namespace NansOS.Ramdisk.Resident

open NansOS.Foundation
open NansOS.Kernel

/-! ### One call -/

/-- The table of a disk stands in memory, and the two pointers to the struct and to the
blocks. -/
structure Holds (fs ramdisk : Nat) (data : UInt64) (memory : Memory) (disk : RamDisk) :
    Prop where
  table : SameTable disk (diskIn memory ramdisk)
  device : deviceOf memory fs = ramdisk
  data : memory.read64 ramdisk = data

section Calls

variable {memory changed : Memory} {fs ramdisk : Nat} {data : UInt64} {disk other : RamDisk}
variable {index : Fin ramdiskMaxFiles} {name : CString} {offset size : UInt64}

theorem deviceOf_congr (agree : Set.EqOn changed memory (Set.Ico (fs + 40) (fs + 48))) :
    deviceOf changed fs = deviceOf memory fs :=
  congrArg UInt64.toNat (Memory.read64_congr agree)

theorem Holds.file (holds : Holds fs ramdisk data memory disk) (index : Fin ramdiskMaxFiles) :
    fileIn memory (fileAddress ramdisk index) = disk.files index :=
  congrFun holds.table.files index

theorem Holds.congr (holds : Holds fs ramdisk data memory disk) (same : SameTable other disk) :
    Holds fs ramdisk data memory other :=
  ⟨same.trans holds.table, holds.device, holds.data⟩

/-- What stores elsewhere changes nothing. -/
theorem Holds.elsewhere (holds : Holds fs ramdisk data memory disk)
    (device : Set.EqOn changed memory (Set.Ico (fs + 40) (fs + 48)))
    (struct : Set.EqOn changed memory (Set.Ico ramdisk (ramdisk + 5144))) :
    Holds fs ramdisk data changed disk where
  table := holds.table.trans (sameTable_of_eqOn struct)
  device := (deviceOf_congr device).trans holds.device
  data := (Memory.read64_congr
    (struct.mono (Set.Ico_subset_Ico le_rfl (by omega)))).trans holds.data

/-- A range that misses another one has no byte of it. -/
theorem Misses.eqOn {span : Span} {start count : Nat} (misses : span.Misses start count)
    (agree : Set.EqOn changed memory (Set.Ico span.start (span.start + span.length))ᶜ) :
    Set.EqOn changed memory (Set.Ico start (start + count)) := by
  refine agree.mono fun target within => ?_
  simp only [Set.mem_compl_iff, Set.mem_Ico] at within ⊢
  unfold Span.Misses at misses
  omega

theorem Holds.stored (holds : Holds fs ramdisk data memory disk) {span : Span}
    (clear : Clear fs ramdisk span)
    (agree : Set.EqOn changed memory (Set.Ico span.start (span.start + span.length))ᶜ) :
    Holds fs ramdisk data changed disk :=
  holds.elsewhere (Misses.eqOn clear.2.1 agree) (Misses.eqOn clear.2.2 agree)

/-- Stores into the struct do not reach the pointer to it. -/
theorem Separate.device (separate : Separate fs ramdisk)
    (agree : Set.EqOn changed memory (Set.Ico ramdisk (ramdisk + 5144))ᶜ) :
    Set.EqOn changed memory (Set.Ico (fs + 40) (fs + 48)) := by
  simp only [Separate, fileSystemBytes, ramDiskBytes] at separate
  exact agree.mono (Ico_subset_compl_Ico (by omega))

theorem Holds.setFile (holds : Holds fs ramdisk data memory disk)
    (separate : Separate fs ramdisk)
    (agree : Set.EqOn changed memory (Set.Ico (fileAddress ramdisk index)
      (fileAddress ramdisk index + 80))ᶜ) {file : RamDiskFile}
    (entry : fileIn changed (fileAddress ramdisk index) = file) :
    Holds fs ramdisk data changed (disk.setFile index file) := by
  have inside := fileAddress_inside ramdisk index
  have struct : Set.EqOn changed memory (Set.Ico ramdisk (ramdisk + 5144))ᶜ :=
    agree.mono (Set.compl_subset_compl.mpr (Set.Ico_subset_Ico (by omega) (by omega)))
  have pointer : Set.EqOn changed memory (Set.Ico ramdisk (ramdisk + 8)) :=
    agree.mono (Ico_subset_compl_Ico (.inr (by omega)))
  rw [← entry]
  exact ⟨(holds.table.setFile index _).trans (sameTable_setFile agree),
    (deviceOf_congr (separate.device struct)).trans holds.device,
    (Memory.read64_congr pointer).trans holds.data⟩

/-- A store to a counter. -/
theorem Holds.counter (holds : Holds fs ramdisk data memory disk)
    (separate : Separate fs ramdisk) {counter : Nat} (behind : 5128 ≤ counter)
    (inside : counter ≤ 5136) (value : UInt32)
    (table : SameTable other (diskIn (memory.write32 (ramdisk + counter) value) ramdisk)) :
    Holds fs ramdisk data (memory.write32 (ramdisk + counter) value) other where
  table := table
  device := by
    have struct : Set.EqOn (memory.write32 (ramdisk + counter) value) memory
        (Set.Ico ramdisk (ramdisk + 5144))ᶜ :=
      (Memory.write32_eqOn memory _ value).mono
        (Set.compl_subset_compl.mpr (Set.Ico_subset_Ico (by omega) (by omega)))
    exact (deviceOf_congr (separate.device struct)).trans holds.device
  data := (Memory.read64_write32_disjoint memory value (by omega)).trans holds.data

theorem Holds.freeBlockStart (holds : Holds fs ramdisk data memory disk)
    (separate : Separate fs ramdisk) (value : UInt32) :
    Holds fs ramdisk data (memory.write32 (ramdisk + 5128) value)
      { disk with freeBlockStart := value } := by
  refine holds.counter separate le_rfl (by decide) value
    (SameTable.trans ?_ (sameTable_freeBlockStart memory ramdisk value))
  exact ⟨holds.table.files, rfl, holds.table.totalBlocks, holds.table.freeBlocks⟩

theorem Holds.freeBlocks (holds : Holds fs ramdisk data memory disk)
    (separate : Separate fs ramdisk) (value : UInt32) :
    Holds fs ramdisk data (memory.write32 (ramdisk + 5136) value)
      { disk with freeBlocks := value } := by
  refine holds.counter separate (by decide) le_rfl value
    (SameTable.trans ?_ (sameTable_freeBlocks memory ramdisk value))
  exact ⟨holds.table.files, holds.table.freeBlockStart, holds.table.totalBlocks, rfl⟩

/-- Storing the access time. -/
theorem fileIn_accessTime (memory : Memory) (file : Nat) (value : UInt64) :
    fileIn (memory.write64 (file + 64) value) file =
      { fileIn memory file with accessTime := value } := by
  have name : (memory.write64 (file + 64) value).bytes file ramdiskMaxNameLen =
      memory.bytes file ramdiskMaxNameLen :=
    Memory.bytes_congr ((Memory.write64_eqOn memory _ value).mono
      (Ico_subset_compl_Ico (.inr (Nat.add_le_add_left (by decide) file))))
  simp (disch := omega) only [fileIn, inUse, name, Memory.read64_write64_same,
    Memory.read64_write64_disjoint, Memory.read32_write64_disjoint]

/-- Moving an entry to other blocks. -/
theorem fileIn_moved (memory : Memory) (file : Nat) (start count : UInt32) :
    fileIn ((memory.write32 (file + 40) start).write32 (file + 44) count) file =
      { fileIn memory file with blockStart := start, blockCount := count } := by
  have name : ((memory.write32 (file + 40) start).write32 (file + 44) count).bytes file
      ramdiskMaxNameLen = memory.bytes file ramdiskMaxNameLen := by
    rw [Memory.bytes_congr ((Memory.write32_eqOn _ (file + 44) count).mono
        (Ico_subset_compl_Ico (.inr (Nat.add_le_add_left (by decide) file)))),
      Memory.bytes_congr ((Memory.write32_eqOn memory (file + 40) start).mono
        (Ico_subset_compl_Ico (.inr (Nat.add_le_add_left (by decide) file))))]
  simp (disch := omega) only [fileIn, inUse, name, Memory.read32_write32_same,
    Memory.read32_write32_disjoint, Memory.read64_write32_disjoint]

theorem stamp_eqOn (memory : Memory) (file : Nat) (offset size : UInt64) :
    Set.EqOn (stamp memory file offset size) memory (Set.Ico (file + 36) (file + 72))ᶜ := by
  intro target outside
  simp only [Set.mem_compl_iff, Set.mem_Ico] at outside
  simp only [stamp, Memory.write64, Memory.store]
  rw [if_neg (by omega), if_neg (by omega)]
  split_ifs
  · exact Memory.write32_eqOn memory _ _ (by simp only [Set.mem_compl_iff, Set.mem_Ico]; omega)
  · rfl

theorem fileIn_stamp {memory : Memory} {file : Nat} {entry : RamDiskFile}
    (stands : fileIn memory file = entry) (offset size : UInt64) :
    fileIn (stamp memory file offset size) file =
      { entry with
        size :=
          if offset + size > entry.size.toUInt64 then (offset + size).toUInt32 else entry.size
        modifyTime := 0
        accessTime := 0 } := by
  have name : (stamp memory file offset size).bytes file ramdiskMaxNameLen =
      memory.bytes file ramdiskMaxNameLen :=
    Memory.bytes_congr ((stamp_eqOn memory file offset size).mono
      (Ico_subset_compl_Ico (.inr (Nat.add_le_add_left (by decide) file))))
  have recorded : memory.read32 (file + 36) = entry.size := congrArg RamDiskFile.size stands
  rw [← recorded, ← stands]
  by_cases beyond : offset + size > (memory.read32 (file + 36)).toUInt64
  · simp only [fileIn, name, if_pos beyond]
    simp (disch := omega) only [inUse, stamp, if_pos beyond, Memory.read32_write32_same,
      Memory.read32_write32_disjoint, Memory.read64_write64_same, Memory.read64_write64_disjoint,
      Memory.read64_write32_disjoint, Memory.read32_write64_disjoint]
  · simp only [fileIn, name, if_neg beyond]
    simp (disch := omega) only [inUse, stamp, if_neg beyond, Memory.read64_write64_same,
      Memory.read64_write64_disjoint, Memory.read32_write64_disjoint]

/-- A copy that spares the struct, and the fields behind it. -/
theorem Holds.storeBuffer (holds : Holds fs ramdisk data memory disk)
    (separate : Separate fs ramdisk)
    (clear : Clear fs ramdisk
      ⟨byteAddress memory ramdisk (memory.read32 (fileAddress ramdisk index + 40)) offset,
        size.toNat⟩) (buffer : Nat) (source : Memory) :
    Holds fs ramdisk data (storeBuffer memory ramdisk index offset size buffer)
      (disk.storeBuffer index offset size source) := by
  have copied := holds.stored clear (memcpy_eqOn memory _ buffer size.toNat)
  have entry := fileIn_stamp (copied.file index) offset size
  refine (copied.setFile separate ?_ entry).congr ⟨rfl, rfl, rfl, rfl⟩
  exact (stamp_eqOn _ _ offset size).mono
    (Set.compl_subset_compl.mpr (Set.Ico_subset_Ico (by omega) (by omega)))

/-- What a request leaves: a result, and the table in memory. -/
structure Follows {Result : Type} (fs ramdisk : Nat) (data : UInt64)
    (outcome : Result × Memory) (expected : Result × RamDisk) : Prop where
  result : outcome.1 = expected.1
  holds : Holds fs ramdisk data outcome.2 expected.2

/-- The state between two calls. -/
structure Intact (fs ramdisk : Nat) (memory : Memory) : Prop where
  device : deviceOf memory fs = ramdisk
  ends : NamesEnd (diskIn memory ramdisk)

theorem Intact.holds (intact : Intact fs ramdisk memory) :
    Holds fs ramdisk (memory.read64 ramdisk) memory (diskIn memory ramdisk) :=
  ⟨.refl _, intact.device, rfl⟩

variable (separate : Separate fs ramdisk) (intact : Intact fs ramdisk memory)
include separate intact

theorem createFile_follows (name : CString) (flags : UInt32) :
    Follows fs ramdisk (memory.read64 ramdisk) (ramdiskCreateFile memory fs name flags)
      ((diskIn memory ramdisk).ramdiskCreateFile name flags) := by
  simp only [ramdiskCreateFile, RamDisk.ramdiskCreateFile, intact.device,
    findFileByName_eq intact.ends]
  by_cases long : strlen name ≥ ramdiskMaxNameLen
  · simp only [if_pos long]
    exact ⟨rfl, intact.holds⟩
  · simp only [if_neg long]
    have short := Nat.not_le.mp long
    by_cases present : ((diskIn memory ramdisk).findFileByName name).isSome = true
    · simp only [if_pos present]
      exact ⟨rfl, intact.holds⟩
    · simp only [if_neg present]
      rw [findFreeFile_eq]
      cases (diskIn memory ramdisk).findFreeFile with
      | none => exact ⟨rfl, intact.holds⟩
      | some index =>
          exact ⟨rfl, intact.holds.setFile separate (fillFile_eqOn short flags)
            (fileIn_fillFile short flags)⟩

theorem deleteFile_follows (name : CString) :
    Follows fs ramdisk (memory.read64 ramdisk) (ramdiskDeleteFile memory fs name)
      ((diskIn memory ramdisk).ramdiskDeleteFile name) := by
  rw [ramdiskDeleteFile, intact.device]
  dsimp only
  rw [findFileByName_eq intact.ends]
  cases found : (diskIn memory ramdisk).findFileByName name with
  | none =>
      rw [RamDisk.delete_of_missing found]
      exact ⟨rfl, intact.holds⟩
  | some index =>
      rw [RamDisk.delete_of_found found]
      have freed := intact.holds.freeBlocks separate
        (memory.read32 (ramdisk + 5136) + memory.read32 (fileAddress ramdisk index + 44))
      have cleared : ∀ memory : Memory,
          fileIn (memset memory (fileAddress ramdisk index) 0 ramDiskFileBytes)
            (fileAddress ramdisk index) = RamDiskFile.zero := fun memory =>
        fileIn_zero fun target within => by
          rw [memset_apply]
          exact if_pos within
      exact ⟨rfl, freed.setFile separate (memset_eqOn _ _ _ _) (cleared _)⟩

omit separate in
theorem spared_read (found : (diskIn memory ramdisk).findFileByName name = some index)
    (inside : ¬ offset ≥ (memory.read32 (fileAddress ramdisk index + 36)).toUInt64)
    {buffer : Nat} (spares : Spares fs memory (.read name offset size buffer)) :
    Clear fs ramdisk
      ⟨buffer, (readSize memory (fileAddress ramdisk index) offset size).toNat⟩ := by
  rw [Spares, copies, intact.device, findFileByName_eq intact.ends, found] at spares
  rw [Option.elim_some] at spares
  rw [if_neg inside] at spares
  exact spares _ (List.mem_singleton_self _)

/-- A read stores to the buffer, and the access time. -/
theorem read_holds {buffer : Nat} (spares : Spares fs memory (.read name offset size buffer)) :
    Holds fs ramdisk (memory.read64 ramdisk) (ramdiskRead memory fs name offset size buffer).2
      ((diskIn memory ramdisk).ramdiskRead name offset size).2 := by
  rw [ramdiskRead, intact.device]
  dsimp only
  rw [findFileByName_eq intact.ends]
  cases found : (diskIn memory ramdisk).findFileByName name with
  | none =>
      rw [RamDisk.read_of_missing found]
      exact intact.holds
  | some index =>
      have size_eq : ((diskIn memory ramdisk).files index).size =
          memory.read32 (fileAddress ramdisk index + 36) := rfl
      rw [RamDisk.read_of_found found, Option.elim_some, size_eq]
      by_cases ended : offset ≥ (memory.read32 (fileAddress ramdisk index + 36)).toUInt64
      · rw [if_pos ended, if_pos ended]
        exact intact.holds
      · rw [if_neg ended, if_neg ended]
        have copied := intact.holds.stored (spared_read intact found ended spares)
          (memcpy_eqOn memory buffer (byteAddress memory ramdisk
            (memory.read32 (fileAddress ramdisk index + 40)) offset) _)
        have entry := fileIn_accessTime (memcpy memory buffer (byteAddress memory ramdisk
            (memory.read32 (fileAddress ramdisk index + 40)) offset)
              (readSize memory (fileAddress ramdisk index) offset size).toNat)
                (fileAddress ramdisk index) 0
        rw [copied.file index] at entry
        refine copied.setFile separate ?_ entry
        exact (Memory.write64_eqOn _ _ 0).mono (Set.compl_subset_compl.mpr
          (Set.Ico_subset_Ico (by omega) (by omega)))

omit separate intact in
/-- Byte addresses go with the pointer to the blocks. -/
theorem byteAddress_congr (same : changed.read64 ramdisk = memory.read64 ramdisk)
    (block : UInt32) (offset : UInt64) :
    byteAddress changed ramdisk block offset = byteAddress memory ramdisk block offset := by
  rw [byteAddress, byteAddress, same]

omit intact in
/-- A file moves to new blocks, when its copy spares the struct. -/
theorem Holds.moveFile (holds : Holds fs ramdisk data memory disk)
    (index : Fin ramdiskMaxFiles) (newStart required : UInt32)
    (clear : Clear fs ramdisk
      ⟨byteAddress memory ramdisk newStart 0,
        if memory.read32 (fileAddress ramdisk index + 44) > 0 then
          (memory.read32 (fileAddress ramdisk index + 36)).toNat
        else 0⟩) :
    Holds fs ramdisk data (moveFile memory ramdisk index newStart required)
      (disk.setFile index
        { disk.files index with blockStart := newStart, blockCount := required }) := by
  have moved : ∀ memory : Memory, Holds fs ramdisk data memory disk →
      Holds fs ramdisk data
        ((memory.write32 (fileAddress ramdisk index + 40) newStart).write32
          (fileAddress ramdisk index + 44) required)
        (disk.setFile index
          { disk.files index with blockStart := newStart, blockCount := required }) := by
    intro memory holds
    have entry := fileIn_moved memory (fileAddress ramdisk index) newStart required
    rw [holds.file index] at entry
    refine holds.setFile separate (fun target outside => ?_) entry
    simp only [Set.mem_compl_iff, Set.mem_Ico] at outside
    simp only [Memory.write32, Memory.store]
    rw [if_neg (by omega), if_neg (by omega)]
  unfold Resident.moveFile
  by_cases full : memory.read32 (fileAddress ramdisk index + 44) > 0
  · rw [if_pos full] at clear
    simp only [if_pos full]
    exact moved _ (holds.stored clear (memcpy_eqOn memory _ _ _))
  · simp only [if_neg full]
    exact moved memory holds

omit intact in
theorem Holds.allocateBlocks (holds : Holds fs ramdisk data memory disk) {count : UInt32}
    (room : ¬ count > memory.read32 (ramdisk + 5136)) :
    ∃ allocated,
      allocateBlocks memory ramdisk count = some (memory.read32 (ramdisk + 5128), allocated) ∧
        Holds fs ramdisk data allocated
          { disk with
            freeBlockStart := disk.freeBlockStart + count
            freeBlocks := disk.freeBlocks - count } := by
  have start : memory.read32 (ramdisk + 5128) = disk.freeBlockStart := holds.table.freeBlockStart
  have free : memory.read32 (ramdisk + 5136) = disk.freeBlocks := holds.table.freeBlocks
  have apart : (memory.write32 (ramdisk + 5128)
      (memory.read32 (ramdisk + 5128) + count)).read32 (ramdisk + 5136) = disk.freeBlocks :=
    (Memory.read32_write32_disjoint _ _ (by omega)).trans free
  have first := holds.freeBlockStart separate (memory.read32 (ramdisk + 5128) + count)
  have second := first.freeBlocks separate (disk.freeBlocks - count)
  rw [Resident.allocateBlocks, if_neg room]
  dsimp only
  rw [apart]
  refine ⟨_, rfl, ?_⟩
  rw [start] at second ⊢
  exact second

theorem growFile_of_room {required : UInt32}
    (room : ¬ required - memory.read32 (fileAddress ramdisk index + 44) >
      memory.read32 (ramdisk + 5136))
    (clear : Clear fs ramdisk (moveSpan memory ramdisk index)) :
    ∃ grown, growFile memory ramdisk index required = some grown ∧
      Holds fs ramdisk (memory.read64 ramdisk) grown
        ((diskIn memory ramdisk).grown index required) := by
  obtain ⟨allocated, succeeded, holds⟩ := intact.holds.allocateBlocks separate room
  rw [growFile, succeeded]
  refine ⟨_, rfl, ?_⟩
  -- Taking blocks leaves the entry and the pointer to the blocks alone.
  have entry := holds.file index
  have blockCount : allocated.read32 (fileAddress ramdisk index + 44) =
      memory.read32 (fileAddress ramdisk index + 44) := congrArg RamDiskFile.blockCount entry
  have recorded : allocated.read32 (fileAddress ramdisk index + 36) =
      memory.read32 (fileAddress ramdisk index + 36) := congrArg RamDiskFile.size entry
  have moved := holds.moveFile separate index (memory.read32 (ramdisk + 5128)) required
  rw [blockCount, recorded, byteAddress_congr holds.data] at moved
  exact (moved clear).congr ⟨rfl, rfl, rfl, rfl⟩

omit separate in
theorem spared_write (found : (diskIn memory ramdisk).findFileByName name = some index)
    {buffer : Nat} (spares : Spares fs memory (.write name offset size buffer)) {span : Span}
    (copied : span ∈ writeSpans memory ramdisk index offset size) : Clear fs ramdisk span := by
  rw [Spares, copies, intact.device, findFileByName_eq intact.ends, found] at spares
  rw [Option.elim_some] at spares
  exact spares span copied

/-- A write goes to the blocks that the table gives it, and then to the entry. -/
theorem write_follows {buffer : Nat} (spares : Spares fs memory (.write name offset size buffer))
    (source : Memory) :
    Follows fs ramdisk (memory.read64 ramdisk) (ramdiskWrite memory fs name offset size buffer)
      ((diskIn memory ramdisk).ramdiskWrite name offset size source) := by
  rw [ramdiskWrite, intact.device]
  dsimp only
  rw [findFileByName_eq intact.ends]
  cases found : (diskIn memory ramdisk).findFileByName name with
  | none =>
      rw [RamDisk.write_of_missing found]
      exact ⟨rfl, intact.holds⟩
  | some index =>
      have spared : ∀ span ∈ writeSpans memory ramdisk index offset size, Clear fs ramdisk span :=
        fun _ => spared_write intact found spares
      rw [Option.elim_some]
      by_cases needs : requiredBlocks offset size >
          memory.read32 (fileAddress ramdisk index + 44)
      · rw [if_pos needs]
        by_cases full : requiredBlocks offset size -
            memory.read32 (fileAddress ramdisk index + 44) > memory.read32 (ramdisk + 5136)
        · rw [RamDisk.write_of_full found needs full, growFile, Resident.allocateBlocks,
            if_pos full]
          exact ⟨rfl, intact.holds⟩
        · rw [writeSpans, if_pos needs, if_neg full] at spared
          obtain ⟨grown, succeeded, holds⟩ := growFile_of_room separate intact full
            (spared _ (List.mem_cons_self ..))
          have start : grown.read32 (fileAddress ramdisk index + 40) =
              memory.read32 (ramdisk + 5128) := by
            have entry := congrArg RamDiskFile.blockStart (holds.file index)
            rwa [RamDisk.grown_same] at entry
          rw [succeeded, RamDisk.write_of_grows ⟨found, needs, UInt32.not_lt.mp full⟩]
          refine ⟨rfl, holds.storeBuffer separate ?_ buffer source⟩
          rw [start, byteAddress_congr holds.data]
          exact spared _ (List.mem_cons_of_mem _ (List.mem_singleton_self _))
      · rw [writeSpans, if_neg needs] at spared
        rw [if_neg needs, RamDisk.write_of_stays ⟨found, UInt32.not_lt.mp needs⟩]
        exact ⟨rfl, intact.holds.storeBuffer separate (spared _ (List.mem_singleton_self _))
          buffer source⟩

end Calls

/-! ### Whole runs -/

section Runs

variable {memory : Memory} {fs ramdisk : Nat} {disk other : RamDisk} {request : Request}

/-- What a request does to the table; what is stored in the blocks is not part of it. -/
def after (disk : RamDisk) : Request → RamDisk
  | .createFile name flags => disk.call (.createFile name flags)
  | .deleteFile name => disk.call (.deleteFile name)
  | .read name offset size _ => disk.call (.read name offset size)
  | .write name offset size _ => disk.call (.write name offset size disk.data)
  | .store .. => disk

theorem NamesEnd.replace (ends : NamesEnd disk) {index : Fin ramdiskMaxFiles}
    {file : RamDiskFile} (files : other.files = Function.update disk.files index file)
    (short : file.inUse = true → strlen file.name < ramdiskMaxNameLen) : NamesEnd other := by
  intro entry used
  rw [files] at used ⊢
  by_cases same : entry = index
  · subst same
    rw [Function.update_self] at used ⊢
    exact short used
  · rw [Function.update_of_ne same] at used ⊢
    exact ends entry used

theorem NamesEnd.call (ends : NamesEnd disk) (call : Call) : NamesEnd (disk.call call) := by
  cases call with
  | createFile name flags =>
      unfold RamDisk.call RamDisk.ramdiskCreateFile
      dsimp only
      split
      · exact ends
      · next short =>
          split
          · exact ends
          · split
            · exact ends
            · exact ends.replace rfl fun _ => Nat.not_le.mp short
  | deleteFile name =>
      rw [RamDisk.call]
      cases found : disk.findFileByName name with
      | none =>
          rw [RamDisk.delete_of_missing found]
          exact ends
      | some index =>
          rw [RamDisk.delete_of_found found]
          exact ends.replace rfl nofun
  | read name offset size =>
      rw [RamDisk.call]
      cases found : disk.findFileByName name with
      | none =>
          rw [RamDisk.read_of_missing found]
          exact ends
      | some index =>
          rw [RamDisk.read_of_found found]
          split_ifs
          · exact ends
          · exact ends.replace rfl (ends index)
  | write name offset size buffer =>
      rw [RamDisk.call]
      rcases disk.write_cases name offset size buffer with
        ⟨error, failed⟩ | ⟨index, stays⟩ | ⟨index, grows⟩
      · rw [failed]
        exact ends
      · rw [RamDisk.write_of_stays stays]
        exact ends.replace rfl (ends index)
      · rw [RamDisk.write_of_grows grows]
        have moved : NamesEnd (disk.grown index (requiredBlocks offset size)) :=
          ends.replace rfl (ends index)
        exact moved.replace rfl (moved index)

/-- A property of the table that every call keeps. -/
structure TableInvariant (invariant : RamDisk → Prop) : Prop where
  congr : ∀ {disk other}, SameTable disk other → invariant disk → invariant other
  create : ∀ memory, invariant (Ramdisk.ramdiskCreate memory)
  call : ∀ {disk}, invariant disk → ∀ call, invariant (disk.call call)

theorem TableInvariant.after {invariant : RamDisk → Prop} (kept : TableInvariant invariant)
    (here : invariant disk) (request : Request) : invariant (after disk request) := by
  cases request with
  | createFile name flags => exact kept.call here (.createFile name flags)
  | deleteFile name => exact kept.call here (.deleteFile name)
  | read name offset size buffer => exact kept.call here (.read name offset size)
  | write name offset size buffer => exact kept.call here (.write name offset size disk.data)
  | store address byte => exact here

theorem namesEnd_invariant : TableInvariant NamesEnd where
  congr := fun same ends index used => by
    rw [same.files] at used ⊢
    exact ends index used
  create := fun _ _ used => absurd used nofun
  call := NamesEnd.call

theorem Intact.of_holds {data : UInt64} (holds : Holds fs ramdisk data memory disk)
    (ends : NamesEnd disk) : Intact fs ramdisk memory :=
  ⟨holds.device, namesEnd_invariant.congr holds.table ends⟩

/-- One request that spares the struct changes the table as it changes that of a disk whose
blocks are elsewhere. -/
theorem Intact.step_holds (separate : Separate fs ramdisk) (intact : Intact fs ramdisk memory)
    (spares : Spares fs memory request) :
    Holds fs ramdisk (memory.read64 ramdisk) (step fs memory request)
      (after (diskIn memory ramdisk) request) := by
  cases request with
  | createFile name flags =>
      rw [Resident.step, Resident.after, RamDisk.call]
      exact (createFile_follows separate intact name flags).holds
  | deleteFile name =>
      rw [Resident.step, Resident.after, RamDisk.call]
      exact (deleteFile_follows separate intact name).holds
  | read name offset size buffer =>
      rw [Resident.step, Resident.after, RamDisk.call]
      exact read_holds separate intact spares
  | write name offset size buffer =>
      rw [Resident.step, Resident.after, RamDisk.call]
      exact (write_follows separate intact spares _).holds
  | store address byte =>
      have clear := spares _ (List.mem_singleton_self _)
      rw [intact.device] at clear
      refine intact.holds.stored clear fun target outside => ?_
      have apart : target ≠ address := fun same => outside ⟨same.ge, same.le.trans_lt (by simp)⟩
      exact Function.update_of_ne apart byte memory

theorem Intact.step (separate : Separate fs ramdisk) (intact : Intact fs ramdisk memory)
    (spares : Spares fs memory request) : Intact fs ramdisk (step fs memory request) :=
  .of_holds (intact.step_holds separate spares) (namesEnd_invariant.after intact.ends request)

/-- Filling `struct FileSystem` leaves the struct alone. -/
theorem ramdiskCreate_eqOn (memory : Memory) {ramdisk : UInt64} (data : UInt64)
    (separate : Separate fs ramdisk.toNat) :
    ∃ cleared : Memory,
      Set.EqOn (ramdiskCreate memory fs ramdisk data)
        (((cleared.write32 (ramdisk.toNat + 5132) 2048).write32 (ramdisk.toNat + 5136)
          2048).write32 (ramdisk.toNat + 5128) 0)
        (Set.Ico ramdisk.toNat (ramdisk.toNat + 5144)) ∧
      ∀ target ∈ Set.Ico (ramdisk.toNat + 8) (ramdisk.toNat + 5128), cleared target = 0 := by
  refine ⟨memset (memset (memory.write64 ramdisk.toNat data) data.toNat 0 ramdiskSize)
    (ramdisk.toNat + 8) 0 (ramDiskFileBytes * ramdiskMaxFiles), ?_, fun target within => ?_⟩
  · have total : UInt32.ofNat (ramdiskSize / ramdiskBlockSize) = 2048 := by decide
    intro target within
    simp only [Separate, fileSystemBytes, ramDiskBytes] at separate
    simp only [Set.mem_Ico] at within
    rw [ramdiskCreate]
    simp only [total, Memory.read32_write32_same]
    rw [Memory.write64_eqOn _ _ _ (by simp only [Set.mem_compl_iff, Set.mem_Ico]; omega),
      Memory.write32_eqOn _ _ _ (by simp only [Set.mem_compl_iff, Set.mem_Ico]; omega)]
    apply applied_placed_eqOn
    simp only [Set.mem_compl_iff, Set.mem_Ico, List.length_cons, List.length_nil]
    omega
  · rw [memset_apply]
    exact if_pos within

/-- The struct that `ramdiskCreate` fills. -/
theorem create_holds (memory : Memory) {ramdisk : UInt64} (data : UInt64)
    (separate : Separate fs ramdisk.toNat) :
    Holds fs ramdisk.toNat ((ramdiskCreate memory fs ramdisk data).read64 ramdisk.toNat)
      (ramdiskCreate memory fs ramdisk data) (Ramdisk.ramdiskCreate memory) := by
  obtain ⟨cleared, same, zero⟩ := ramdiskCreate_eqOn memory data separate
  refine ⟨SameTable.trans ?_ (sameTable_of_eqOn same), ?_, rfl⟩
  · refine ⟨funext fun index => ?_, Memory.read32_write32_same _ _ _, ?_, ?_⟩
    · have inside := fileAddress_inside ramdisk.toNat index
      rw [diskIn_files, fileIn_counter index le_rfl, fileIn_counter index (by decide),
        fileIn_counter index (by decide)]
      exact fileIn_zero fun target within =>
        zero target (Set.Ico_subset_Ico (by omega) (by omega) within)
    · simp (disch := omega) only [diskIn, Memory.read32_write32_same,
        Memory.read32_write32_disjoint]
      rfl
    · simp (disch := omega) only [diskIn, Memory.read32_write32_same,
        Memory.read32_write32_disjoint]
      rfl
  · rw [deviceOf, ramdiskCreate, Memory.read64_write64_same]

theorem Intact.create (memory : Memory) {ramdisk : UInt64} (data : UInt64)
    (separate : Separate fs ramdisk.toNat) :
    Intact fs ramdisk.toNat (ramdiskCreate memory fs ramdisk data) :=
  .of_holds (create_holds memory data separate) (namesEnd_invariant.create memory)

/-- A table in memory that satisfies an invariant. -/
structure Sound (fs ramdisk : Nat) (invariant : RamDisk → Prop) (memory : Memory) : Prop where
  intact : Intact fs ramdisk memory
  table : invariant (diskIn memory ramdisk)

section Rules

variable {invariant : RamDisk → Prop} (kept : TableInvariant invariant)
include kept

theorem TableInvariant.sound_create (memory : Memory) {ramdisk : UInt64} (data : UInt64)
    (separate : Separate fs ramdisk.toNat) :
    Sound fs ramdisk.toNat invariant (ramdiskCreate memory fs ramdisk data) :=
  ⟨.create memory data separate,
    kept.congr (create_holds memory data separate).table (kept.create memory)⟩

theorem TableInvariant.sound_step (separate : Separate fs ramdisk)
    (sound : Sound fs ramdisk invariant memory) (spares : Spares fs memory request) :
    Sound fs ramdisk invariant (Resident.step fs memory request) :=
  ⟨sound.intact.step separate spares,
    kept.congr (sound.intact.step_holds separate spares).table (kept.after sound.table request)⟩

/-- The invariant holds before every request of a run that spares the struct. -/
theorem TableInvariant.along (memory : Memory) {ramdisk : UInt64} (data : UInt64)
    (separate : Separate fs ramdisk.toNat) {requests : List Request}
    (spares : Along (Resident.step fs) (Spares fs) (ramdiskCreate memory fs ramdisk data)
      requests) :
    Along (Resident.step fs)
      (fun memory request => Sound fs ramdisk.toNat invariant memory ∧ Spares fs memory request)
      (ramdiskCreate memory fs ramdisk data) requests :=
  along_of_invariant (fun _ _ sound spares => kept.sound_step separate sound spares)
    (fun _ _ sound spares => ⟨sound, spares⟩) (kept.sound_create memory data separate) spares

/-- What follows from the invariant holds in every state of such a run. -/
theorem TableInvariant.throughout (memory : Memory) {ramdisk : UInt64} (data : UInt64)
    (separate : Separate fs ramdisk.toNat) {property : Memory → Prop}
    (concludes : ∀ memory, Sound fs ramdisk.toNat invariant memory → property memory)
    {requests : List Request}
    (spares : Along (Resident.step fs) (Spares fs) (ramdiskCreate memory fs ramdisk data)
      requests) :
    Throughout (Resident.step fs) property (ramdiskCreate memory fs ramdisk data) requests :=
  throughout_iff.mpr ⟨concludes _ (kept.sound_create memory data separate),
    (kept.along memory data separate spares).imp fun _ _ before =>
      concludes _ (kept.sound_step separate before.1 before.2)⟩

end Rules

end Runs

/-! ### A layout -/

/-- A disk just created in a memory of ones, with `struct FileSystem` at `0x400018` and
`struct RamDisk` at `0x401018`, as `malloc` places them. The struct ends at `0x402430`. -/
def freshDisk (data : UInt64) : Memory :=
  ramdiskCreate (fun _ => 1) 0x400018 0x401018 data

/-- A file that is written, grows, is read and deleted. -/
def sparingRequests : List Request :=
  [.createFile fileA 0, .write fileA 0 8 0x600000, .write fileA 512 8 0x600000,
    .read fileA 512 8 0x600010, .deleteFile fileA]

/-- With the blocks behind the struct, no copy of that run hits it. -/
theorem sparingRequests_spare :
    Along (step 0x400018) (Spares 0x400018) (freshDisk 0x402448) sparingRequests := by
  simp only [freshDisk, ramdiskCreate, memset_eq]
  decide +kernel

end NansOS.Ramdisk.Resident
