import NansOS.Vfs.Table
import NansOS.Ramdisk.Contents

/-! Owns the RAM disk as a driver behind the descriptor table: the nodes that
`ramdiskFindFile` makes, the hooks of `ramdisk_ops`, and the two places that
record the size of a file. A node is a snapshot of the file at the time it is
made; no hook writes to it afterwards. -/

namespace NansOS.Vfs

open NansOS.Foundation
open NansOS.Kernel
open NansOS.Ramdisk

/-! ### The driver -/

/-- The RAM disk and the nodes that point into it, by address. -/
structure RamdiskState where
  disk : RamDisk
  nodes : UInt64 → FSNode

/-- The node that `ramdisk_find_file` fills for a file. The permissions are
`FS_PERM_READ | FS_PERM_WRITE`. -/
def nodeOf (file : RamDiskFile) : FSNode where
  name := file.name
  flags := file.flags
  permissions := 4 ||| 2
  uid := 0
  gid := 0
  size := file.size.toUInt64
  inode := 0
  atime := file.accessTime
  mtime := file.modifyTime
  ctime := file.createTime

/-- `ramdisk_find_file`. `allocated` is what `malloc` returns for the node. -/
def ramdiskFindFile (state : RamdiskState) (name : CString) (allocated : UInt64) :
    Option UInt64 × RamdiskState :=
  match state.disk.findFileByName name with
  | none => (none, state)
  | some index =>
      if allocated = 0 then (none, state)
      else
        (some allocated, { state with
          nodes := Function.update state.nodes allocated (nodeOf (state.disk.files index)) })

/-- `ramdisk_read` as a hook. -/
def readNode (state : RamdiskState) (node offset size : UInt64) :
    (Int × List UInt8) × RamdiskState :=
  let (result, disk) := state.disk.ramdiskRead (state.nodes node).name offset size
  (match result with
    | .ok delivered => delivered
    | .error _ => (-1, []),
    { state with disk := disk })

/-- `ramdisk_write` as a hook. -/
def writeNode (state : RamdiskState) (node offset size : UInt64) (buffer : Memory) :
    Int × RamdiskState :=
  let (result, disk) := state.disk.ramdiskWrite (state.nodes node).name offset size buffer
  (match result with
    | .ok count => count
    | .error _ => -1,
    { state with disk := disk })

/-- `ramdisk_ops`. -/
def ramdiskOps : FSOperations UInt64 RamdiskState where
  readHook := some readNode
  writeHook := some writeNode
  openHook := none
  closeHook := none

/-- The RAM disk behind the descriptor table, for any path lookup. -/
def ramdiskDrivers (lookup : RamdiskState → CString → Option UInt64 × RamdiskState) :
    Drivers UInt64 RamdiskState where
  lookup := lookup
  node := RamdiskState.nodes
  operations := fun _ _ => some ramdiskOps

variable {lookup : RamdiskState → CString → Option UInt64 × RamdiskState}
variable {vfs : State UInt64 RamdiskState} {fd : Fin maxFd} {node : UInt64}
variable {index : Fin ramdiskMaxFiles}

/-- The descriptor is open on a node that names an entry of the file table. -/
structure Follows (vfs : State UInt64 RamdiskState) (fd : Fin maxFd) (node : UInt64)
    (index : Fin ramdiskMaxFiles) : Prop where
  held : (vfs.fdTable fd).node = some node
  found : vfs.drivers.disk.findFileByName (vfs.drivers.nodes node).name = some index

theorem Follows.slot (follows : Follows vfs fd node index) :
    vfs.openSlot fd.val = some (fd, node) :=
  State.openSlot_eq_some_iff.mpr ⟨rfl, follows.held⟩

/-- The entry of the file table that a descriptor follows. -/
def fileAt (vfs : State UInt64 RamdiskState) (index : Fin ramdiskMaxFiles) : RamDiskFile :=
  vfs.drivers.disk.files index

/-! ### One call on a RAM disk descriptor -/

theorem findFileByName_setFile {disk : RamDisk} {file : RamDiskFile}
    (inUse : file.inUse = (disk.files index).inUse) (name : file.name = (disk.files index).name)
    (sought : CString) :
    (disk.setFile index file).findFileByName sought = disk.findFileByName sought := by
  apply RamDisk.findFileByName_congr
  intro other
  by_cases same : other = index
  · subst same
    rw [RamDisk.setFile_same]
    exact ⟨inUse, name⟩
  · rw [RamDisk.setFile_of_ne _ same]
    exact ⟨rfl, rfl⟩

theorem ramdiskRead_entry {disk : RamDisk} {name : CString}
    (found : disk.findFileByName name = some index) (offset size : UInt64) :
    (∀ sought, (disk.ramdiskRead name offset size).2.findFileByName sought =
        disk.findFileByName sought) ∧
      (disk.ramdiskRead name offset size).2.data = disk.data ∧
      ((disk.ramdiskRead name offset size).2.files index).size = (disk.files index).size ∧
      ((disk.ramdiskRead name offset size).2.files index).blockStart =
        (disk.files index).blockStart := by
  rw [RamDisk.read_of_found found]
  by_cases beyond : offset ≥ (disk.files index).size.toUInt64
  · rw [if_pos beyond]
    exact ⟨fun _ => rfl, rfl, rfl, rfl⟩
  · rw [if_neg beyond]
    refine ⟨findFileByName_setFile rfl rfl, RamDisk.setFile_data _ _ _, ?_, ?_⟩
    · simp
    · simp

/-- A write that succeeds records the end of the buffer when that lies behind
the recorded size. -/
theorem ramdiskWrite_entry {disk : RamDisk} {name : CString}
    (found : disk.findFileByName name = some index) {offset size : UInt64} {buffer : Memory}
    {count : Int} (success : (disk.ramdiskWrite name offset size buffer).1 = .ok count) :
    (∀ sought, (disk.ramdiskWrite name offset size buffer).2.findFileByName sought =
        disk.findFileByName sought) ∧
      ((disk.ramdiskWrite name offset size buffer).2.files index).size =
        if offset + size > (disk.files index).size.toUInt64 then (offset + size).toUInt32
        else (disk.files index).size := by
  rcases disk.write_cases name offset size buffer with ⟨error, failed⟩ | ⟨other, stays⟩ |
    ⟨other, grows⟩
  · rw [failed] at success
    cases success
  · obtain rfl : index = other := Option.some.inj (found.symm.trans stays.1)
    rw [RamDisk.write_of_stays stays]
    refine ⟨fun _ => findFileByName_storeBuffer, ?_⟩
    rw [RamDisk.storeBuffer_same]
  · obtain rfl : index = other := Option.some.inj (found.symm.trans grows.1)
    rw [RamDisk.write_of_grows grows]
    refine ⟨fun sought => findFileByName_storeBuffer.trans (findFileByName_grown _), ?_⟩
    rw [RamDisk.storeBuffer_same, RamDisk.grown_same]

theorem vfsRead_follows (follows : Follows vfs fd node index) (size : UInt64) :
    vfsRead (ramdiskDrivers lookup) vfs fd.val size =
      ((readNode vfs.drivers node (vfs.fdTable fd).offset size).1,
        advance { vfs with
            drivers := (readNode vfs.drivers node (vfs.fdTable fd).offset size).2 }
          fd (readNode vfs.drivers node (vfs.fdTable fd).offset size).1.1) := by
  simp only [vfsRead, follows.slot]
  rfl

theorem vfsWrite_follows (follows : Follows vfs fd node index) (buffer : Memory)
    (size : UInt64) :
    vfsWrite (ramdiskDrivers lookup) vfs fd.val buffer size =
      ((writeNode vfs.drivers node (vfs.fdTable fd).offset size buffer).1,
        advance { vfs with
            drivers := (writeNode vfs.drivers node (vfs.fdTable fd).offset size buffer).2 }
          fd (writeNode vfs.drivers node (vfs.fdTable fd).offset size buffer).1) := by
  simp only [vfsWrite, follows.slot]
  rfl

@[simp] theorem advance_drivers {Node σ : Type} (vfs : State Node σ) (index : Fin maxFd)
    (bytes : Int) : (advance vfs index bytes).drivers = vfs.drivers := by
  unfold advance
  split
  · rfl
  · rfl

@[simp] theorem advance_node {Node σ : Type} (vfs : State Node σ) (index : Fin maxFd)
    (bytes : Int) (other : Fin maxFd) :
    ((advance vfs index bytes).fdTable other).node = (vfs.fdTable other).node := by
  unfold advance
  by_cases positive : bytes > 0
  · rw [if_pos positive]
    by_cases same : other = index
    · subst same
      rw [State.setFd_same]
    · rw [State.setFd_of_ne _ same]
  · rw [if_neg positive]

theorem readNode_disk (state : RamdiskState) (node offset size : UInt64) :
    (readNode state node offset size).2 =
      { state with
        disk := (state.disk.ramdiskRead (state.nodes node).name offset size).2 } := rfl

theorem writeNode_disk (state : RamdiskState) (node offset size : UInt64) (buffer : Memory) :
    (writeNode state node offset size buffer).2 =
      { state with
        disk := (state.disk.ramdiskWrite (state.nodes node).name offset size buffer).2 } :=
  rfl

/-- A write that returns a count went through. -/
theorem writeNode_success {state : RamdiskState} {node offset size : UInt64} {buffer : Memory}
    (success : 0 ≤ (writeNode state node offset size buffer).1) :
    ∃ count, (state.disk.ramdiskWrite (state.nodes node).name offset size buffer).1 =
      .ok count := by
  simp only [writeNode] at success
  cases written : (state.disk.ramdiskWrite (state.nodes node).name offset size buffer).1 with
  | ok count => exact ⟨count, rfl⟩
  | error error =>
      rw [written] at success
      have negative : (0 : Int) ≤ -1 := success
      omega

/-- A seek moves the offset at most. -/
theorem vfsSeek_keeps {Node σ : Type} (environment : Drivers Node σ) (vfs : State Node σ)
    (descriptor : Int) (offset : Int64) (whence : Int) :
    (vfsSeek environment vfs descriptor offset whence).2.drivers = vfs.drivers ∧
      ∀ other, ((vfsSeek environment vfs descriptor offset whence).2.fdTable other).node =
        (vfs.fdTable other).node := by
  cases slot : vfs.openSlot descriptor with
  | none => simp [vfsSeek, slot]
  | some found =>
      obtain ⟨index, node⟩ := found
      simp only [vfsSeek, slot]
      cases seekTarget (vfs.fdTable index).offset (environment.node vfs.drivers node).size
          offset whence with
      | none => simp
      | some target =>
          by_cases outside : target < 0 ∨
              target.toUInt64 > (environment.node vfs.drivers node).size
          · simp [outside]
          · simp only [if_neg outside]
            refine ⟨rfl, fun other => ?_⟩
            by_cases same : other = index
            · subst same
              rw [State.setFd_same]
            · rw [State.setFd_of_ne _ same]

/-! ### Sizes -/

/-- Seeking to the end returns the size of the file, and every position up to
it can be sought. -/
def SizesAgree (lookup : RamdiskState → CString → Option UInt64 × RamdiskState)
    (fd : Fin maxFd) (index : Fin ramdiskMaxFiles) (vfs : State UInt64 RamdiskState) : Prop :=
  (vfsSeek (ramdiskDrivers lookup) vfs fd.val 0 seekEnd).1 = (fileAt vfs index).size.toNat ∧
    ∀ position : Int64, 0 ≤ position.toInt →
      position.toInt ≤ (fileAt vfs index).size.toNat →
        0 ≤ (vfsSeek (ramdiskDrivers lookup) vfs fd.val position seekSet).1

/-- The call is a successful read, write or seek on the descriptor. -/
def SucceedsOn (lookup : RamdiskState → CString → Option UInt64 × RamdiskState)
    (fd : Fin maxFd) (vfs : State UInt64 RamdiskState) (next : Call) : Prop :=
  (match next with
    | .openFile _ _ | .close _ => False
    | .read other _ | .write other _ _ | .seek other _ _ => other = fd.val) ∧
  0 ≤ (call (ramdiskDrivers lookup) vfs next).1

/-- A write ends at or before the recorded size, or at a position whose low 32
bits are that size. -/
def KeepsSize (fd : Fin maxFd) (index : Fin ramdiskMaxFiles)
    (vfs : State UInt64 RamdiskState) : Call → Prop
  | .write _ _ size =>
      (vfs.fdTable fd).offset + size ≤ (fileAt vfs index).size.toUInt64 ∨
        ((vfs.fdTable fd).offset + size).toUInt32 = (fileAt vfs index).size
  | _ => True

/-- The snapshot in the node records the current size. -/
def SnapshotCurrent (node : UInt64) (index : Fin ramdiskMaxFiles)
    (vfs : State UInt64 RamdiskState) : Prop :=
  (vfs.drivers.nodes node).size = (fileAt vfs index).size.toUInt64

/-- What a seek to `target` returns, given the size in the node. -/
def seekResult (size : UInt64) (target : Int64) : Int :=
  if target < 0 ∨ target.toUInt64 > size then -1 else target.toInt

variable (lookup) in
/-- A seek from a chosen target. -/
theorem vfsSeek_result (follows : Follows vfs fd node index) {offset target : Int64}
    {whence : Int}
    (chosen : seekTarget (vfs.fdTable fd).offset (vfs.drivers.nodes node).size offset whence =
      some target) :
    (vfsSeek (ramdiskDrivers lookup) vfs fd.val offset whence).1 =
      seekResult (vfs.drivers.nodes node).size target := by
  have size : ((ramdiskDrivers lookup).node vfs.drivers node).size =
      (vfs.drivers.nodes node).size := rfl
  simp only [vfsSeek, follows.slot, size, chosen, seekResult]
  split
  · rfl
  · rfl

theorem sizesAgree_iff (follows : Follows vfs fd node index) :
    SizesAgree lookup fd index vfs ↔ SnapshotCurrent node index vfs := by
  have bound := (fileAt vfs index).size.toNat_lt
  have ending := vfsSeek_result lookup follows
    (show seekTarget (vfs.fdTable fd).offset (vfs.drivers.nodes node).size 0 seekEnd =
      some ((vfs.drivers.nodes node).size.toInt64 + 0) from rfl)
  rw [Int64.add_zero] at ending
  constructor
  · rintro ⟨agrees, _⟩
    rw [ending, seekResult] at agrees
    by_cases outside : (vfs.drivers.nodes node).size.toInt64 < 0 ∨
        (vfs.drivers.nodes node).size.toInt64.toUInt64 > (vfs.drivers.nodes node).size
    · rw [if_pos outside] at agrees
      omega
    · rw [if_neg outside] at agrees
      have word := ofInt_toInt (vfs.drivers.nodes node).size.toInt64
      rw [agrees, UInt64.toUInt64_toInt64] at word
      rw [SnapshotCurrent, ← word]
      apply UInt64.toNat_inj.mp
      simp only [UInt64.ofInt, UInt64.toNat_ofNat', UInt32.toNat_toUInt64]
      omega
  · intro current
    have size : (vfs.drivers.nodes node).size.toNat = (fileAt vfs index).size.toNat := by
      rw [current, UInt32.toNat_toUInt64]
    have result : ∀ target : Int64, 0 ≤ target.toInt →
        target.toInt ≤ (fileAt vfs index).size.toNat →
        seekResult (vfs.drivers.nodes node).size target = target.toInt := by
      intro target nonnegative within
      have word := congrArg UInt64.toNat (ofInt_toInt target)
      simp only [UInt64.ofInt, UInt64.toNat_ofNat'] at word
      rw [seekResult, if_neg]
      rw [Int64.lt_iff_toInt_lt, Int64.toInt_zero, gt_iff_lt, UInt64.lt_iff_toNat_lt, size]
      omega
    constructor
    · have whole := toInt_toInt64 (show (vfs.drivers.nodes node).size.toNat < 2 ^ 63 by omega)
      rw [ending, result _ (by omega) (by omega), whole, size]
    · intro position nonnegative within
      rw [vfsSeek_result _ follows rfl, result position nonnegative within]
      exact nonnegative

/-- What one successful call does to the entry of the file and to the node. -/
theorem SucceedsOn.effect {next : Call} (follows : Follows vfs fd node index)
    (succeeds : SucceedsOn lookup fd vfs next) :
    Follows (after (ramdiskDrivers lookup) vfs next) fd node index ∧
      (after (ramdiskDrivers lookup) vfs next).drivers.nodes = vfs.drivers.nodes ∧
      ((fileAt (after (ramdiskDrivers lookup) vfs next) index).size = (fileAt vfs index).size ↔
        KeepsSize fd index vfs next) := by
  obtain ⟨here, success⟩ := succeeds
  cases next with
  | openFile path flags => exact here.elim
  | close other => exact here.elim
  | read other size =>
      have here : other = fd.val := here
      subst here
      obtain ⟨names, _, sameSize, _⟩ :=
        ramdiskRead_entry follows.found (vfs.fdTable fd).offset size
      simp only [after, call, vfsRead_follows follows, readNode_disk]
      refine ⟨⟨by simpa using follows.held, ?_⟩, by simp, ?_⟩
      · simpa [names] using follows.found
      · simpa [fileAt, KeepsSize] using sameSize
  | write other buffer size =>
      have here : other = fd.val := here
      subst here
      simp only [call, vfsWrite_follows follows] at success
      obtain ⟨count, written⟩ := writeNode_success success
      obtain ⟨names, newSize⟩ := ramdiskWrite_entry follows.found written
      simp only [after, call, vfsWrite_follows follows, writeNode_disk]
      refine ⟨⟨by simpa using follows.held, ?_⟩, by simp, ?_⟩
      · simpa [names] using follows.found
      · simp only [fileAt, advance_drivers, newSize, KeepsSize]
        by_cases beyond : (vfs.fdTable fd).offset + size >
            (vfs.drivers.disk.files index).size.toUInt64
        · rw [if_pos beyond]
          exact (or_iff_right (UInt64.not_le.mpr beyond)).symm
        · rw [if_neg beyond]
          exact iff_of_true rfl (Or.inl (UInt64.not_lt.mp beyond))
  | seek other offset whence =>
      obtain ⟨drivers, held⟩ := vfsSeek_keeps (ramdiskDrivers lookup) vfs other offset whence
      simp only [after, call, fileAt, drivers]
      refine ⟨⟨?_, ?_⟩, trivial, ?_⟩
      · rw [held]
        exact follows.held
      · rw [drivers]
        exact follows.found
      · simp [KeepsSize]

/-- A node that was just made names its file and records the current size. -/
theorem snapshot_current {before : RamdiskState} {name : CString} {allocated : UInt64}
    (made : ramdiskFindFile before name allocated = (some node, vfs.drivers))
    (held : (vfs.fdTable fd).node = some node)
    (found : before.disk.findFileByName name = some index) :
    Follows vfs fd node index ∧ SnapshotCurrent node index vfs := by
  simp only [ramdiskFindFile, found] at made
  by_cases null : allocated = 0
  · rw [if_pos null] at made
    cases (Prod.mk.inj made).1
  · rw [if_neg null] at made
    obtain ⟨address, drivers⟩ := Prod.mk.inj made
    obtain rfl : allocated = node := Option.some.inj address
    have contents : vfs.drivers.nodes allocated = nodeOf (before.disk.files index) := by
      rw [← drivers]
      exact Function.update_self _ _ _
    refine ⟨⟨held, ?_⟩, ?_⟩
    · rw [contents, nodeOf, (RamDisk.inUse_of_find found).2, ← drivers]
      exact found
    · rw [SnapshotCurrent, contents, fileAt, ← drivers]
      rfl

/-- Over every run of successful calls on a descriptor whose node was just
made, the two sizes agree in every state exactly when no write moves the end of
the file. -/
theorem sizes_agree_iff {before : RamdiskState} {name : CString} {allocated : UInt64}
    (made : ramdiskFindFile before name allocated = (some node, vfs.drivers))
    (held : (vfs.fdTable fd).node = some node)
    (found : before.disk.findFileByName name = some index) {calls : List Call}
    (succeeds : Along (after (ramdiskDrivers lookup)) (SucceedsOn lookup fd) vfs calls) :
    Throughout (after (ramdiskDrivers lookup)) (SizesAgree lookup fd index) vfs calls ↔
      Along (after (ramdiskDrivers lookup)) (KeepsSize fd index) vfs calls := by
  obtain ⟨follows, current⟩ := snapshot_current made held found
  rw [throughout_iff, sizesAgree_iff follows, and_iff_right current]
  apply along_iff (fun vfs => Follows vfs fd node index ∧ SnapshotCurrent node index vfs)
    (SucceedsOn lookup fd) _ _ ⟨follows, current⟩ succeeds
  · rintro vfs next ⟨follows, current⟩ succeeds keeps
    obtain ⟨next, nodes, size⟩ := succeeds.effect follows
    refine ⟨next, ?_⟩
    rw [SnapshotCurrent, nodes, size.mpr keeps]
    exact current
  · rintro vfs next ⟨follows, current⟩ succeeds
    obtain ⟨next, nodes, size⟩ := succeeds.effect follows
    rw [sizesAgree_iff next, ← size, SnapshotCurrent, nodes]
    constructor
    · intro agrees
      have words := current.symm.trans agrees
      exact UInt32.toNat_inj.mp (congrArg UInt64.toNat words).symm
    · intro same
      rw [same]
      exact current

instance (lookup : RamdiskState → CString → Option UInt64 × RamdiskState) (fd : Fin maxFd)
    (vfs : State UInt64 RamdiskState) (next : Call) :
    Decidable (SucceedsOn lookup fd vfs next) := by
  unfold SucceedsOn
  cases next <;> infer_instance

/-- The file `a` of a disk, holding one byte. -/
def oneByteDisk : RamdiskState where
  disk := (((ramdiskCreate fun _ => 0).ramdiskCreateFile fileA 0).2.ramdiskWrite
    fileA 0 1 fun _ => 65).2
  nodes := fun _ => nodeOf RamDiskFile.zero

/-- The descriptor table after `a` has been opened. -/
def openedOneByte : State UInt64 RamdiskState :=
  (vfsOpen (ramdiskDrivers fun state path => ramdiskFindFile state path 4096)
    (vfsInit oneByteDisk) fileA 0).2

theorem rewriting_keeps_sizes :
    Throughout (after (ramdiskDrivers fun state path => ramdiskFindFile state path 4096))
        (SizesAgree (fun state path => ramdiskFindFile state path 4096) 0 0) openedOneByte
        [.write 0 (fun _ => 66) 1, .seek 0 0 seekSet, .read 0 4] ↔
      Along (after (ramdiskDrivers fun state path => ramdiskFindFile state path 4096))
        (KeepsSize 0 0) openedOneByte
        [.write 0 (fun _ => 66) 1, .seek 0 0 seekSet, .read 0 4] :=
  have made : ramdiskFindFile oneByteDisk fileA 4096 =
      (some 4096, openedOneByte.drivers) := rfl
  sizes_agree_iff made rfl (by decide +kernel) (by decide +kernel)

/-- Two bytes written through the descriptor leave its end where it was. -/
theorem growing_write_disagrees :
    SucceedsOn (fun state path => ramdiskFindFile state path 4096) 0 openedOneByte
        (.write 0 (fun _ => 66) 2) ∧
      ¬ SizesAgree (fun state path => ramdiskFindFile state path 4096) 0 0
        (after (ramdiskDrivers fun state path => ramdiskFindFile state path 4096) openedOneByte
          (.write 0 (fun _ => 66) 2)) := by
  refine ⟨by decide +kernel, ?_⟩
  rintro ⟨ending, _⟩
  exact absurd ending (by decide +kernel)

end NansOS.Vfs
