import NansOS.Vfs.OpenFiles
import NansOS.Vfs.RamdiskNodes
import NansOS.Vfs.Refinement

/-! Owns the refinement of open files by the descriptor table over the RAM disk:
`vfs_open`, `vfs_close`, `vfs_read`, `vfs_write` and `vfs_seek` on nodes that
`ramdisk_find_file` makes, mixed with calls on the disk itself. The nodes, the
lookup by name at every call and the blocks on the disk are invisible as long as
the calls on the disk that these make are orderly. -/

namespace NansOS.Vfs

open NansOS.Foundation
open NansOS.Kernel
open NansOS.Ramdisk

/-! ### Calls -/

/-- The RAM disk behind the descriptor table, with `ramdisk_find_file` as the
lookup. -/
def diskDrivers (allocated : UInt64) : Drivers UInt64 RamdiskState :=
  ramdiskDrivers fun state name => ramdiskFindFile state name allocated

/-- The state that a call leaves. -/
def perform (vfs : State UInt64 RamdiskState) : FileCall → State UInt64 RamdiskState
  | .disk call => { vfs with
      drivers := { vfs.drivers with disk := vfs.drivers.disk.call call } }
  | .descriptor allocated request => (call (diskDrivers allocated) vfs request).2

/-- What a call answers; a read also delivers bytes. -/
def reply (vfs : State UInt64 RamdiskState) : FileCall → Answer
  | .disk call => answer vfs.drivers.disk call
  | .descriptor allocated (.read fd size) => .ok (vfsRead (diskDrivers allocated) vfs fd size).1
  | .descriptor allocated request => .ok ((call (diskDrivers allocated) vfs request).1, [])

/-- The open file of a descriptor. -/
def openFileOf (vfs : State UInt64 RamdiskState) (slot : Fin maxFd) (node : UInt64) : OpenFile where
  name := (vfs.drivers.nodes node).name
  position := (vfs.fdTable slot).offset.toNat
  sizeSeen := (vfs.drivers.nodes node).size.toNat

/-- The files that a state stands for. -/
def filesOf (vfs : State UInt64 RamdiskState) : Files where
  store := storeOf vfs.drivers.disk
  opened := fun slot => (vfs.fdTable slot).node.map (openFileOf vfs slot)

/-- The call on the disk that a call makes. -/
def diskCall (vfs : State UInt64 RamdiskState) : FileCall → Option Ramdisk.Call
  | .disk call => some call
  | .descriptor _ (.read fd size) => (vfs.openSlot fd).map fun (slot, node) =>
      .read (vfs.drivers.nodes node).name (vfs.fdTable slot).offset size
  | .descriptor _ (.write fd buffer size) => (vfs.openSlot fd).map fun (slot, node) =>
      .write (vfs.drivers.nodes node).name (vfs.fdTable slot).offset size buffer
  | .descriptor _ (.openFile _ _) => none
  | .descriptor _ (.close _) => none
  | .descriptor _ (.seek _ _ _) => none

/-- For the node of a file that is opened, `malloc` returns an address that no
descriptor holds. -/
def NodeFresh (vfs : State UInt64 RamdiskState) : FileCall → Prop
  | .descriptor allocated (.openFile _ _) =>
      allocated ≠ 0 ∧ ∀ slot, (vfs.fdTable slot).node ≠ some allocated
  | _ => True

/-- The disk does its work, and so does the allocator. -/
structure Admitted (vfs : State UInt64 RamdiskState) (request : FileCall) : Prop where
  orderly : ∀ made ∈ diskCall vfs request, Orderly vfs.drivers.disk made
  fresh : NodeFresh vfs request

/-- Positions and sizes are far from wrapping. -/
def OpenFile.Bounded (file : OpenFile) : Prop :=
  file.position < 2 ^ 62 ∧ file.sizeSeen < 2 ^ 32

/-- What holds between admitted calls. -/
structure Sound (vfs : State UInt64 RamdiskState) : Prop where
  sane : Sane vfs.drivers.disk
  bounded : ∀ slot, ∀ file ∈ (filesOf vfs).opened slot, file.Bounded

/-! ### The files of a changed state -/

section States

variable {vfs : State UInt64 RamdiskState} {slot : Fin maxFd} {node : UInt64}

theorem filesOf_held (held : (vfs.fdTable slot).node = some node) :
    (filesOf vfs).opened slot = some (openFileOf vfs slot node) := by
  simp only [filesOf, held, Option.map_some]

theorem filesOf_none_iff : (filesOf vfs).opened slot = none ↔ (vfs.fdTable slot).node = none :=
  Option.map_eq_none_iff

theorem closed_of_openSlot {fd : Int} (missing : vfs.openSlot fd = none) :
    (filesOf vfs).Closed fd := fun slot same =>
  filesOf_none_iff.mpr (State.openSlot_eq_none_iff.mp missing slot same)

variable (vfs slot) in
/-- A descriptor that is overwritten. -/
theorem filesOf_setFd (entry : FileDescriptor UInt64) :
    filesOf (vfs.setFd slot entry) =
      (filesOf vfs).setOpen slot (entry.node.map fun node =>
        { openFileOf vfs slot node with position := entry.offset.toNat }) := by
  have opened : (filesOf (vfs.setFd slot entry)).opened = Function.update (filesOf vfs).opened slot
      (entry.node.map fun node =>
        { openFileOf vfs slot node with position := entry.offset.toNat }) := by
    funext other
    by_cases same : other = slot
    · subst same
      rw [Function.update_self, filesOf]
      dsimp only
      rw [State.setFd_same]
      cases entry.node with
      | none => rfl
      | some node => simp only [Option.map_some, openFileOf, State.setFd_same, State.setFd_drivers]
    · rw [Function.update_of_ne same, filesOf, filesOf]
      dsimp only
      rw [State.setFd_of_ne _ same]
      cases (vfs.fdTable other).node with
      | none => rfl
      | some node =>
          simp only [Option.map_some, openFileOf, State.setFd_of_ne _ same, State.setFd_drivers]
  rw [Files.setOpen, ← opened]
  rfl

variable (vfs) in
/-- A position that is moved on by a count. -/
theorem filesOf_advance (held : (vfs.fdTable slot).node = some node) {count : Nat}
    (small : (vfs.fdTable slot).offset.toNat + count < 2 ^ 64) :
    filesOf (advance vfs slot count) =
      (filesOf vfs).setOpen slot (some ((openFileOf vfs slot node).moved count)) := by
  by_cases moves : (count : Int) > 0
  · have place : ((vfs.fdTable slot).offset + UInt64.ofInt count).toNat =
        (vfs.fdTable slot).offset.toNat + count := by
      rw [UInt64.toNat_add, UInt64.ofInt, UInt64.toNat_ofNat']
      omega
    rw [advance, if_pos moves, filesOf_setFd]
    simp only [held, Option.map_some, place]
    rfl
  · have zero : count = 0 := by omega
    have same : some ((openFileOf vfs slot node).moved 0) = (filesOf vfs).opened slot := by
      rw [filesOf_held held]
      rfl
    rw [advance, if_neg moves, zero, same, Files.setOpen, Function.update_eq_self]

/-- A call that returns -1 moves nothing. -/
theorem advance_refused : advance vfs slot (-1) = vfs := by
  rw [advance, if_neg (by decide)]

end States

/-! ### One call at a time -/

section Steps

variable {vfs : State UInt64 RamdiskState} {slot : Fin maxFd} {node : UInt64}
variable {allocated : UInt64}

theorem bounded_setOpen {files : Files} {entry : Option OpenFile}
    (bounded : ∀ slot, ∀ file ∈ files.opened slot, file.Bounded)
    (new : ∀ file ∈ entry, file.Bounded) :
    ∀ other, ∀ file ∈ (files.setOpen slot entry).opened other, file.Bounded := by
  intro other file member
  change file ∈ Function.update files.opened slot entry other at member
  by_cases same : other = slot
  · rw [same, Function.update_self] at member
    exact new file member
  · rw [Function.update_of_ne same] at member
    exact bounded other file member

/-- No file is longer than a 32-bit size. -/
theorem contents_bound {disk : RamDisk} {name : CString} {entry : StoredFile}
    (present : storeOf disk name = some entry) : entry.contents.length < 2 ^ 32 := by
  cases found : disk.findFileByName name with
  | none =>
      rw [storeOf_none_iff.mpr found] at present
      cases present
  | some index =>
      rw [storeOf_found found] at present
      rw [← Option.some.inj present, Memory.bytes_length]
      exact (disk.files index).size.toNat_lt

/-- A call on the disk. -/
theorem simulates_disk (sound : Sound vfs) {made : Ramdisk.Call}
    (admitted : Admitted vfs (.disk made)) :
    Operates (filesOf vfs) (.disk made) (reply vfs (.disk made))
        (filesOf (perform vfs (.disk made))) ∧
      Sound (perform vfs (.disk made)) := by
  have orderly := admitted.orderly made rfl
  exact ⟨.onDisk (sound.sane.serves orderly), sound.sane.call orderly, sound.bounded⟩

/-- Nothing is open under the number of a call on a descriptor. -/
theorem simulates_missing (sound : Sound vfs) {request : Vfs.Call} {fd : Int}
    (on : request.on = some fd) (missing : vfs.openSlot fd = none) :
    Operates (filesOf vfs) (.descriptor allocated request)
        (reply vfs (.descriptor allocated request))
        (filesOf (perform vfs (.descriptor allocated request))) ∧
      Sound (perform vfs (.descriptor allocated request)) := by
  have closed := closed_of_openSlot missing
  cases request with
  | openFile path flags => cases on
  | close other =>
      cases on
      simp only [perform, reply, call, vfsClose, missing]
      exact ⟨.notOpen allocated rfl closed, sound⟩
  | read other size =>
      cases on
      simp only [perform, reply, call, vfsRead, missing]
      exact ⟨.notOpen allocated rfl closed, sound⟩
  | write other buffer size =>
      cases on
      simp only [perform, reply, call, vfsWrite, missing]
      exact ⟨.notOpen allocated rfl closed, sound⟩
  | seek other offset whence =>
      cases on
      simp only [perform, reply, call, vfsSeek, missing]
      exact ⟨.notOpen allocated rfl closed, sound⟩

theorem simulates_close (sound : Sound vfs) (held : (vfs.fdTable slot).node = some node) :
    Operates (filesOf vfs) (.descriptor allocated (.close slot.val))
        (reply vfs (.descriptor allocated (.close slot.val)))
        (filesOf (perform vfs (.descriptor allocated (.close slot.val)))) ∧
      Sound (perform vfs (.descriptor allocated (.close slot.val))) := by
  have opened := State.openSlot_eq_some_iff.mpr ⟨rfl, held⟩
  have closed : vfsClose (diskDrivers allocated) vfs slot.val =
      (0, vfs.setFd slot FileDescriptor.zero) := by
    simp only [vfsClose, opened, diskDrivers, ramdiskDrivers, ramdiskOps, Option.bind_some]
  have files : filesOf (vfs.setFd slot FileDescriptor.zero) = (filesOf vfs).setOpen slot none :=
    filesOf_setFd _ _ _
  have taken : (filesOf vfs).opened slot ≠ none := by
    rw [ne_eq, filesOf_none_iff, held]
    exact Option.some_ne_none node
  simp only [perform, reply, call, closed]
  rw [files]
  refine ⟨.close allocated taken, sound.sane, ?_⟩
  rw [files]
  apply bounded_setOpen sound.bounded
  intro file member
  cases member

/-- What the hooks return for an answer of the disk. -/
def passedOn : Answer → Int × List UInt8
  | .ok given => given
  | .error _ => (-1, [])

/-- A read at the position of an open file. -/
theorem simulates_read (sound : Sound vfs) (held : (vfs.fdTable slot).node = some node)
    {size : UInt64} (admitted : Admitted vfs (.descriptor allocated (.read slot.val size))) :
    Operates (filesOf vfs) (.descriptor allocated (.read slot.val size))
        (reply vfs (.descriptor allocated (.read slot.val size)))
        (filesOf (perform vfs (.descriptor allocated (.read slot.val size)))) ∧
      Sound (perform vfs (.descriptor allocated (.read slot.val size))) := by
  have opened := State.openSlot_eq_some_iff.mpr ⟨rfl, held⟩
  have orderly := admitted.orderly _ (by rw [diskCall, opened]; rfl)
  have served := sound.sane.serves orderly
  have sane := sound.sane.call orderly
  have file := filesOf_held held
  have near := (sound.bounded slot _ file).1
  have far := (sound.bounded slot _ file).2
  let after : State UInt64 RamdiskState := { vfs with
    drivers := (readNode vfs.drivers node (vfs.fdTable slot).offset size).2 }
  have files : filesOf after = filesOf vfs := by
    have store : storeOf after.drivers.disk = storeOf vfs.drivers.disk := storeOf_read _ _ _ _
    rw [filesOf, store]
    rfl
  have whole : vfsRead (diskDrivers allocated) vfs slot.val size =
      (passedOn (answer vfs.drivers.disk
          (.read (vfs.drivers.nodes node).name (vfs.fdTable slot).offset size)),
        advance after slot (passedOn (answer vfs.drivers.disk
          (.read (vfs.drivers.nodes node).name (vfs.fdTable slot).offset size))).1) := by
    simp only [vfsRead, opened]
    rfl
  simp only [perform, reply, call, whole]
  generalize answer vfs.drivers.disk (.read (vfs.drivers.nodes node).name
    (vfs.fdTable slot).offset size) = given at served
  generalize storeOf (vfs.drivers.disk.call (.read (vfs.drivers.nodes node).name
    (vfs.fdTable slot).offset size)) = left at served
  cases served with
  | @delivered _ entry present =>
      have long := contents_bound present
      have short :
          ((openFileOf vfs slot node).ahead entry size).length ≤ entry.contents.length := by
        rw [OpenFile.ahead, List.length_take, List.length_drop]
        omega
      have inside : ((openFileOf vfs slot node).ahead entry size).length ≠ 0 →
          (openFileOf vfs slot node).position +
            ((openFileOf vfs slot node).ahead entry size).length ≤ entry.contents.length := by
        rw [OpenFile.ahead, List.length_take, List.length_drop]
        omega
      change (vfs.fdTable slot).offset.toNat < 2 ^ 62 at near
      have sum : (vfs.fdTable slot).offset.toNat +
          ((openFileOf vfs slot node).ahead entry size).length < 2 ^ 64 := by
        omega
      have moved : filesOf (advance after slot
          (((openFileOf vfs slot node).ahead entry size).length : Nat)) =
            (filesOf after).setOpen slot (some ((openFileOf after slot node).moved
              ((openFileOf vfs slot node).ahead entry size).length)) :=
        filesOf_advance after held sum
      rw [files] at moved
      change Operates _ _ _ (filesOf (advance after slot
        (((openFileOf vfs slot node).ahead entry size).length : Nat))) ∧
          Sound (advance after slot (((openFileOf vfs slot node).ahead entry size).length : Nat))
      rw [moved]
      refine ⟨.read allocated size file present, ?_, ?_⟩
      · rw [advance_drivers]
        exact sane
      · rw [moved]
        apply bounded_setOpen sound.bounded
        intro other member
        cases member
        refine ⟨?_, far⟩
        change (vfs.fdTable slot).offset.toNat + _ < 2 ^ 62
        change _ ≠ 0 → (vfs.fdTable slot).offset.toNat + _ ≤ _ at inside
        omega
  | readMissing absent =>
      change Operates _ _ refused (filesOf (advance after slot (-1))) ∧
        Sound (advance after slot (-1))
      rw [advance_refused, files]
      exact ⟨.readGone allocated size file absent, sane, fun other entry member =>
        sound.bounded other entry (by rwa [files] at member)⟩

theorem writeNode_answer (state : RamdiskState) (offset size : UInt64) (buffer : Memory) :
    (writeNode state node offset size buffer).1 =
      (passedOn (answer state.disk (.write (state.nodes node).name offset size buffer))).1 := by
  simp only [writeNode, answer]
  cases (state.disk.ramdiskWrite (state.nodes node).name offset size buffer).1 with
  | ok count => rfl
  | error error => rfl

/-- A write at the position of an open file. -/
theorem simulates_write (sound : Sound vfs) (held : (vfs.fdTable slot).node = some node)
    {buffer : Memory} {size : UInt64}
    (admitted : Admitted vfs (.descriptor allocated (.write slot.val buffer size))) :
    Operates (filesOf vfs) (.descriptor allocated (.write slot.val buffer size))
        (reply vfs (.descriptor allocated (.write slot.val buffer size)))
        (filesOf (perform vfs (.descriptor allocated (.write slot.val buffer size)))) ∧
      Sound (perform vfs (.descriptor allocated (.write slot.val buffer size))) := by
  have opened := State.openSlot_eq_some_iff.mpr ⟨rfl, held⟩
  have orderly := admitted.orderly _ (by rw [diskCall, opened]; rfl)
  have served := sound.sane.serves orderly
  have sane := sound.sane.call orderly
  have file := filesOf_held held
  have far := (sound.bounded slot _ file).2
  have small : (vfs.fdTable slot).offset.toNat + size.toNat < 2 ^ 31 := orderly.small
  let after : State UInt64 RamdiskState := { vfs with
    drivers := (writeNode vfs.drivers node (vfs.fdTable slot).offset size buffer).2 }
  have files : filesOf after = { filesOf vfs with
      store := storeOf (vfs.drivers.disk.call
        (.write (vfs.drivers.nodes node).name (vfs.fdTable slot).offset size buffer)) } := rfl
  have whole : vfsWrite (diskDrivers allocated) vfs slot.val buffer size =
      ((passedOn (answer vfs.drivers.disk
          (.write (vfs.drivers.nodes node).name (vfs.fdTable slot).offset size buffer))).1,
        advance after slot (passedOn (answer vfs.drivers.disk
          (.write (vfs.drivers.nodes node).name (vfs.fdTable slot).offset size buffer))).1) := by
    rw [← writeNode_answer]
    simp only [vfsWrite, opened]
    rfl
  simp only [perform, reply, call, whole]
  generalize answer vfs.drivers.disk (.write (vfs.drivers.nodes node).name
    (vfs.fdTable slot).offset size buffer) = given at served
  generalize storeOf (vfs.drivers.disk.call (.write (vfs.drivers.nodes node).name
    (vfs.fdTable slot).offset size buffer)) = left at served files
  cases served with
  | @written _ entry _ _ _ present joins =>
      have sum : (vfs.fdTable slot).offset.toNat + size.toNat < 2 ^ 64 := by omega
      have moved : filesOf (advance after slot (size.toNat : Nat)) =
          (filesOf after).setOpen slot (some ((openFileOf after slot node).moved size.toNat)) :=
        filesOf_advance after held sum
      rw [files] at moved
      change Operates _ _ _ (filesOf (advance after slot (size.toNat : Nat))) ∧
        Sound (advance after slot (size.toNat : Nat))
      rw [moved]
      refine ⟨.write allocated buffer size file present joins, ?_, ?_⟩
      · rw [advance_drivers]
        exact sane
      · rw [moved]
        apply bounded_setOpen sound.bounded
        intro other member
        cases member
        refine ⟨?_, far⟩
        change (vfs.fdTable slot).offset.toNat + size.toNat < 2 ^ 62
        omega
  | noSpace _ present beyond =>
      change Operates _ _ refused (filesOf (advance after slot (-1))) ∧
        Sound (advance after slot (-1))
      rw [advance_refused, files]
      exact ⟨.noSpace allocated buffer file present beyond, sane, fun other entry member =>
        sound.bounded other entry (by rwa [files] at member)⟩
  | writeMissing absent =>
      change Operates _ _ refused (filesOf (advance after slot (-1))) ∧
        Sound (advance after slot (-1))
      rw [advance_refused, files]
      exact ⟨.writeGone allocated buffer size file absent, sane, fun other entry member =>
        sound.bounded other entry (by rwa [files] at member)⟩

/-- A seek by the size in the node. -/
theorem simulates_seek (sound : Sound vfs) (held : (vfs.fdTable slot).node = some node)
    (offset : Int64) (whence : Int) :
    Operates (filesOf vfs) (.descriptor allocated (.seek slot.val offset whence))
        (reply vfs (.descriptor allocated (.seek slot.val offset whence)))
        (filesOf (perform vfs (.descriptor allocated (.seek slot.val offset whence)))) ∧
      Sound (perform vfs (.descriptor allocated (.seek slot.val offset whence))) := by
  have opened := State.openSlot_eq_some_iff.mpr ⟨rfl, held⟩
  have file := filesOf_held held
  have near : (vfs.fdTable slot).offset.toNat < 2 ^ 62 := (sound.bounded slot _ file).1
  have far : (vfs.drivers.nodes node).size.toNat < 2 ^ 32 := (sound.bounded slot _ file).2
  have aim : (openFileOf vfs slot node).aim offset whence =
      seekGoal (vfs.fdTable slot).offset (vfs.drivers.nodes node).size offset whence := rfl
  have size : ((diskDrivers allocated).node vfs.drivers node).size =
      (vfs.drivers.nodes node).size := rfl
  simp only [perform, reply, call, vfsSeek, opened, size]
  cases seekTarget_stands (show (vfs.fdTable slot).offset.toNat < 2 ^ 63 by omega)
    (show (vfs.drivers.nodes node).size.toNat < 2 ^ 63 by omega) offset whence with
  | inl neither =>
      rw [neither.1]
      refine ⟨.seekRefused allocated file ?_, sound⟩
      rw [aim, neither.2]
      intro target member
      cases member
  | inr both =>
      obtain ⟨target, exact, chosen, goal, stands⟩ := both
      have rejected := stands.rejected_iff
        (show (vfs.drivers.nodes node).size.toNat < 2 ^ 63 by omega)
      rw [chosen]
      dsimp only
      by_cases inside : 0 ≤ exact ∧ exact ≤ (vfs.drivers.nodes node).size.toNat
      · have value : target.toInt = exact := stands.toInt_eq inside.1 (by omega)
        have place : target.toUInt64.toNat = exact.toNat := by
          rw [← ofInt_toInt, value, UInt64.ofInt, UInt64.toNat_ofNat']
          omega
        have moved : filesOf (vfs.setFd slot { vfs.fdTable slot with
            offset := target.toUInt64 }) = (filesOf vfs).setOpen slot
              (some { openFileOf vfs slot node with position := exact.toNat }) := by
          rw [filesOf_setFd, held, Option.map_some, place]
        rw [if_neg fun out => rejected.mp out inside]
        rw [moved, value]
        refine ⟨.seek allocated file (aim.trans goal) inside, sound.sane, ?_⟩
        rw [moved]
        apply bounded_setOpen sound.bounded
        intro other member
        cases member
        refine ⟨?_, far⟩
        change exact.toNat < 2 ^ 62
        omega
      · rw [if_pos (rejected.mpr inside)]
        refine ⟨.seekRefused allocated file ?_, sound⟩
        rw [aim, goal]
        intro other member
        cases member
        exact inside

/-- Opening: the node of the file is new, so that every open file keeps its own. -/
theorem simulates_open (sound : Sound vfs) {name : CString} {flags : UInt32}
    (admitted : Admitted vfs (.descriptor allocated (.openFile name flags))) :
    Operates (filesOf vfs) (.descriptor allocated (.openFile name flags))
        (reply vfs (.descriptor allocated (.openFile name flags)))
        (filesOf (perform vfs (.descriptor allocated (.openFile name flags)))) ∧
      Sound (perform vfs (.descriptor allocated (.openFile name flags))) := by
  have ⟨nonnull, unheld⟩ : allocated ≠ 0 ∧ ∀ slot, (vfs.fdTable slot).node ≠ some allocated :=
    admitted.fresh
  simp only [perform, reply, call]
  cases found : vfs.drivers.disk.findFileByName name with
  | none =>
      have lookup : (diskDrivers allocated).lookup vfs.drivers name = (none, vfs.drivers) := by
        simp only [diskDrivers, ramdiskDrivers, ramdiskFindFile, found]
      rw [vfsOpen_missing lookup]
      exact ⟨.openMissing allocated flags (storeOf_none_iff.mpr found), sound⟩
  | some index =>
      let drivers : RamdiskState := { vfs.drivers with
        nodes := Function.update vfs.drivers.nodes allocated
          (nodeOf (vfs.drivers.disk.files index)) }
      have lookup : (diskDrivers allocated).lookup vfs.drivers name =
          (some allocated, drivers) := by
        simp only [diskDrivers, ramdiskDrivers, ramdiskFindFile, found, if_neg nonnull]
        rfl
      -- No open file looks at the new node.
      have files : filesOf { vfs with drivers := drivers } = filesOf vfs := by
        have opened : (filesOf { vfs with drivers := drivers }).opened = (filesOf vfs).opened := by
          funext slot
          simp only [filesOf]
          cases held : (vfs.fdTable slot).node with
          | none => rfl
          | some node =>
              have different : node ≠ allocated := by
                rintro rfl
                exact unheld slot held
              simp only [Option.map_some, openFileOf, drivers, Function.update_of_ne different]
        exact congrArg (Files.mk (storeOf vfs.drivers.disk)) opened
      cases free : vfs.findFreeFd with
      | none =>
          have full : ∀ slot, (filesOf vfs).opened slot ≠ none := fun slot =>
            mt filesOf_none_iff.mp (State.findFreeFd_eq_none_iff.mp free slot)
          rw [vfsOpen_full lookup free]
          dsimp only
          rw [files]
          refine ⟨.openFull name allocated flags full, sound.sane, ?_⟩
          rw [files]
          exact sound.bounded
      | some slot =>
          obtain ⟨empty, lower⟩ := State.findFreeFd_eq_some_iff.mp free
          have present := storeOf_found found
          have named : (vfs.drivers.disk.files index).name = name := (RamDisk.inUse_of_find found).2
          have plain : ((diskDrivers allocated).operations drivers allocated).bind
              FSOperations.openHook = none := rfl
          have moved : filesOf { vfs with
                fdTable := filled vfs slot allocated flags
                drivers := drivers } =
              (filesOf vfs).setOpen slot
                (some ⟨name, 0, (vfs.drivers.disk.files index).size.toNat⟩) := by
            have entry : { openFileOf { vfs with drivers := drivers } slot allocated with
                position := (0 : UInt64).toNat } =
                  (⟨name, 0, (vfs.drivers.disk.files index).size.toNat⟩ : OpenFile) := by
              simp only [openFileOf, drivers, Function.update_self, nodeOf, named,
                UInt32.toNat_toUInt64, UInt64.toNat_zero]
            rw [← files, ← entry]
            exact filesOf_setFd { vfs with drivers := drivers } slot
              { node := some allocated, offset := 0, flags := flags, refcount := 1 }
          rw [vfsOpen_plain lookup free plain]
          dsimp only
          rw [moved]
          constructor
          · have opens := Operates.opened allocated flags present (filesOf_none_iff.mpr empty)
              fun other below => mt filesOf_none_iff.mp (lower other below)
            rw [Memory.bytes_length] at opens
            exact opens
          · refine ⟨sound.sane, ?_⟩
            rw [moved]
            apply bounded_setOpen sound.bounded
            intro other member
            cases member
            exact ⟨Nat.two_pow_pos 62, (vfs.drivers.disk.files index).size.toNat_lt⟩

/-- Each admitted call is one the files allow, with the same answer. -/
theorem Sound.step (sound : Sound vfs) {request : FileCall} (admitted : Admitted vfs request) :
    Operates (filesOf vfs) request (reply vfs request) (filesOf (perform vfs request)) ∧
      Sound (perform vfs request) := by
  cases request with
  | disk made => exact simulates_disk sound admitted
  | descriptor allocated request =>
      cases on : request.on with
      | none =>
          cases request with
          | openFile name flags => exact simulates_open sound admitted
          | close _ => cases on
          | read _ _ => cases on
          | write _ _ _ => cases on
          | seek _ _ _ => cases on
      | some fd =>
          cases opened : vfs.openSlot fd with
          | none => exact simulates_missing sound on opened
          | some place =>
              have ⟨same, held⟩ := State.openSlot_eq_some_iff.mp opened
              subst same
              cases request with
              | openFile name flags => cases on
              | close other =>
                  cases on
                  exact simulates_close sound held
              | read other size =>
                  cases on
                  exact simulates_read sound held admitted
              | write other buffer size =>
                  cases on
                  exact simulates_write sound held admitted
              | seek other offset whence =>
                  cases on
                  exact simulates_seek sound held offset whence

end Steps

/-! ### Runs -/

/-- A fresh disk, and no descriptor open. -/
def freshFiles (memory : Memory) (nodes : UInt64 → FSNode) : State UInt64 RamdiskState :=
  vfsInit ⟨ramdiskCreate memory, nodes⟩

theorem filesOf_fresh (memory : Memory) (nodes : UInt64 → FSNode) :
    filesOf (freshFiles memory nodes) = ⟨fun _ => none, fun _ => none⟩ :=
  congrArg (fun store => Files.mk store fun _ => none) (storeOf_create memory)

theorem Sound.fresh (memory : Memory) (nodes : UInt64 → FSNode) :
    Sound (freshFiles memory nodes) where
  sane := Sane.create memory
  bounded := by
    intro slot file member
    rw [filesOf_fresh] at member
    cases member

/-- Over every admitted run from a fresh disk with no descriptor open, what the
calls answer is a transcript of open files over an empty store. -/
theorem descriptors_refine_files (memory : Memory) (nodes : UInt64 → FSNode)
    (calls : List FileCall) (admitted : Along perform Admitted (freshFiles memory nodes) calls) :
    Allows Operates ⟨fun _ => none, fun _ => none⟩
      (transcript perform reply (freshFiles memory nodes) calls)
      (filesOf (run perform (freshFiles memory nodes) calls)) := by
  rw [← filesOf_fresh memory nodes]
  apply allows_of_simulation filesOf Sound Admitted
  · exact fun _ _ sound fits => (sound.step fits).2
  · exact fun _ _ sound fits => (sound.step fits).1
  · exact Sound.fresh memory nodes
  · exact admitted

/-! ### Writing in pieces and reading in pieces -/

section Pieces

variable {vfs : State UInt64 RamdiskState} {slot : Fin maxFd} {name : CString}
variable {calls : List FileCall}

/-- A write on the descriptor that is accepted, or a bystander. -/
def WritesOn (slot : Fin maxFd) (name : CString) (vfs : State UInt64 RamdiskState)
    (request : FileCall) : Prop :=
  (filesOf vfs).Bystander slot name request ∨
    ∃ allocated buffer size, request = .descriptor allocated (.write slot.val buffer size) ∧
      reply vfs request ≠ refused

/-- A read on the descriptor, or a bystander. -/
def ReadsOn (slot : Fin maxFd) (name : CString) (vfs : State UInt64 RamdiskState)
    (request : FileCall) : Prop :=
  (filesOf vfs).Bystander slot name request ∨
    ∃ allocated size, request = .descriptor allocated (.read slot.val size)

theorem Sound.run (sound : Sound vfs) (admitted : Along perform Admitted vfs calls) :
    Sound (run perform vfs calls) :=
  run_invariant Admitted Sound (fun _ _ sound fits => (sound.step fits).2) sound admitted

/-- The pieces line up behind what has been written. -/
theorem stands_writing (data old : List UInt8) (sound : Sound vfs)
    (stands : (filesOf vfs).Stands slot name data.length (data ++ old.drop data.length))
    (admitted : Along perform Admitted vfs calls)
    (writes : Along perform (WritesOn slot name) vfs calls) :
    (filesOf (run perform vfs calls)).Stands slot name
      (data ++ calls.flatMap (FileCall.writtenBy slot)).length
      ((data ++ calls.flatMap (FileCall.writtenBy slot)) ++
        old.drop (data ++ calls.flatMap (FileCall.writtenBy slot)).length) := by
  induction calls generalizing vfs data with
  | nil =>
      rw [List.flatMap_nil, List.append_nil]
      exact stands
  | cons request rest inductionHypothesis =>
      have ⟨operates, next⟩ := sound.step admitted.1
      rw [run_cons, List.flatMap_cons, ← List.append_assoc]
      apply inductionHypothesis _ next _ admitted.2 writes.2
      cases writes.1 with
      | inl spared =>
          rw [spared.written, List.append_nil]
          exact stands.bystander operates spared
      | inr writing =>
          obtain ⟨allocated, buffer, size, rfl, accepted⟩ := writing
          have written := stands.write operates accepted
          have piece : FileCall.writtenBy slot
              (.descriptor allocated (.write slot.val buffer size)) = buffer.bytes 0 size.toNat :=
            if_pos rfl
          rw [overlay_behind] at written
          rw [piece, List.length_append, Memory.bytes_length]
          rw [List.length_append, Memory.bytes_length] at written
          exact written

/-- The pieces that are delivered line up from the position on. -/
theorem delivered_reading {position : Nat} {contents : List UInt8} (sound : Sound vfs)
    (stands : (filesOf vfs).Stands slot name position contents)
    (admitted : Along perform Admitted vfs calls)
    (reads : Along perform (ReadsOn slot name) vfs calls) :
    (transcript perform reply vfs calls).flatMap (deliveredFrom slot) =
      (contents.drop position).take (calls.map (FileCall.askedOf slot)).sum := by
  induction calls generalizing vfs position with
  | nil => rfl
  | cons request rest inductionHypothesis =>
      obtain ⟨operates, next⟩ := sound.step admitted.1
      rw [transcript, List.flatMap_cons, List.map_cons, List.sum_cons]
      cases reads.1 with
      | inl spared =>
          obtain ⟨asked, delivered⟩ := spared.asked (reply vfs request)
          have later :=
            inductionHypothesis next (stands.bystander operates spared) admitted.2 reads.2
          rw [asked, delivered, List.nil_append, Nat.zero_add, later]
      | inr reading =>
          obtain ⟨allocated, size, rfl⟩ := reading
          obtain ⟨answered, moved⟩ := stands.read operates
          have later := inductionHypothesis next moved admitted.2 reads.2
          have piece : deliveredFrom slot (.descriptor allocated (.read slot.val size),
              reply vfs (.descriptor allocated (.read slot.val size))) =
                (contents.drop position).take size.toNat := by
            rw [answered]
            exact if_pos rfl
          have asked : FileCall.askedOf slot (.descriptor allocated (.read slot.val size)) =
              size.toNat := if_pos rfl
          rw [piece, asked, later, ← List.drop_drop, take_take_behind]

/-- What is written through a descriptor in pieces is read back through it in
pieces: in every admitted run from a fresh disk, behind a descriptor freshly opened
on a file, with accepted writes on it, a seek to the start and reads on it, in
between anything that leaves the descriptor and its file alone. -/
theorem pieces_read_back (memory : Memory) (nodes : UInt64 → FSNode)
    (before writing reading : List FileCall) (allocated : UInt64)
    (admitted : Along perform Admitted (freshFiles memory nodes)
      (before ++ (writing ++ (.descriptor allocated (.seek slot.val 0 seekSet) :: reading))))
    {old : List UInt8}
    (fresh : (filesOf (run perform (freshFiles memory nodes) before)).Stands slot name 0 old)
    (writes : Along perform (WritesOn slot name) (run perform (freshFiles memory nodes) before)
      writing)
    (reads : Along perform (ReadsOn slot name)
      (run perform (freshFiles memory nodes)
        (before ++ (writing ++ [.descriptor allocated (.seek slot.val 0 seekSet)]))) reading) :
    let written := writing.flatMap (FileCall.writtenBy slot)
    (transcript perform reply
        (run perform (freshFiles memory nodes)
          (before ++ (writing ++ [.descriptor allocated (.seek slot.val 0 seekSet)])))
        reading).flatMap (deliveredFrom slot) =
      (written ++ old.drop written.length).take (reading.map (FileCall.askedOf slot)).sum := by
  have ⟨first, later⟩ := along_append.mp admitted
  have ⟨second, rewinding⟩ := along_append.mp later
  have sound := (Sound.fresh memory nodes).run first
  have stands := stands_writing [] old sound fresh second writes
  have behind := sound.run second
  have ⟨operates, next⟩ := behind.step rewinding.1
  have start := stands.rewind operates
  rw [run_append, run_append] at reads ⊢
  exact delivered_reading next start rewinding.2 reads

end Pieces

/-! ### Two descriptors -/

instance (disk : RamDisk) (request : Ramdisk.Call) : Decidable (CopySurvives disk request) :=
  match request with
  | .createFile .. => isTrue trivial
  | .deleteFile .. => isTrue trivial
  | .read .. => isTrue trivial
  | .write name offset size _ => inferInstanceAs (Decidable (∀ index,
      disk.Grows name offset size index → offset.toNat ≤ (disk.files index).size.toNat →
        offset.toNat + size.toNat < 2 ^ 31 → ∀ position < (disk.files index).size.toNat,
          (position < offset.toNat ∨ offset.toNat + size.toNat ≤ position) →
            disk.data (disk.movedFrom index position) =
              disk.data ((byteOffset (disk.files index).blockStart).toNat + position)))

instance (disk : RamDisk) (request : Ramdisk.Call) : Decidable (Orderly disk request) :=
  decidable_of_iff
    (request.WriteSmall ∧ ReadsWithoutWrap disk request ∧ JoinsFile disk request ∧
      GrowsWithin 2048 disk request ∧ NeighboursBelow disk request ∧ CopySurvives disk request)
    ⟨fun ⟨small, unwrapped, joins, room, above, survives⟩ =>
      ⟨small, unwrapped, joins, room, above, survives⟩,
      fun orderly => ⟨orderly.small, orderly.unwrapped, orderly.joins, orderly.room, orderly.above,
        orderly.survives⟩⟩

instance (vfs : State UInt64 RamdiskState) (request : FileCall) :
    Decidable (NodeFresh vfs request) :=
  match request with
  | .disk _ => isTrue trivial
  | .descriptor _ (.openFile _ _) => inferInstanceAs (Decidable (_ ∧ _))
  | .descriptor _ (.close _) => isTrue trivial
  | .descriptor _ (.read _ _) => isTrue trivial
  | .descriptor _ (.write _ _ _) => isTrue trivial
  | .descriptor _ (.seek _ _ _) => isTrue trivial

instance (vfs : State UInt64 RamdiskState) (request : FileCall) :
    Decidable (Admitted vfs request) :=
  decidable_of_iff
    ((∀ made ∈ diskCall vfs request, Orderly vfs.drivers.disk made) ∧ NodeFresh vfs request)
    ⟨fun ⟨orderly, fresh⟩ => ⟨orderly, fresh⟩, fun admitted => ⟨admitted.orderly, admitted.fresh⟩⟩

deriving instance DecidableEq for OpenFile
deriving instance DecidableEq for StoredFile

/-- Two files, each open. -/
def twoOpened : List FileCall :=
  [.disk (.createFile fileA 0), .disk (.createFile fileB 0),
    .descriptor 4096 (.openFile fileA 2), .descriptor 8192 (.openFile fileB 2)]

/-- Five bytes for the first in two pieces, with a byte for the second in between. -/
def interleavedWrites : List FileCall :=
  [.descriptor 0 (.write 0 (fun position => UInt8.ofNat (position + 1)) 3),
    .descriptor 0 (.write 1 (fun _ => 9) 1),
    .descriptor 0 (.write 0 (fun position => UInt8.ofNat (position + 4)) 2)]

/-- Two reads of four bytes of the first, with a close of the second in between. -/
def interleavedReads : List FileCall :=
  [.descriptor 0 (.read 0 4), .descriptor 0 (.close 1), .descriptor 0 (.read 0 4)]

/-- The nodes hold nothing. -/
def noNodes : UInt64 → FSNode := fun _ => ⟨CString.empty, 0, 0, 0, 0, 0, 0, 0, 0, 0⟩

theorem interleavedCalls_admitted :
    Along perform Admitted (freshFiles (fun _ => 0) noNodes)
      (twoOpened ++
        (interleavedWrites ++ (.descriptor 0 (.seek 0 0 seekSet) :: interleavedReads))) := by
  decide +kernel

theorem interleavedCalls_refine :
    Allows Operates ⟨fun _ => none, fun _ => none⟩
      (transcript perform reply (freshFiles (fun _ => 0) noNodes) (twoOpened ++
        (interleavedWrites ++ (.descriptor 0 (.seek 0 0 seekSet) :: interleavedReads))))
      (filesOf (run perform (freshFiles (fun _ => 0) noNodes) (twoOpened ++
        (interleavedWrites ++ (.descriptor 0 (.seek 0 0 seekSet) :: interleavedReads))))) :=
  descriptors_refine_files _ _ _ interleavedCalls_admitted

theorem interleavedCalls_read_back :
    (transcript perform reply
        (run perform (freshFiles (fun _ => 0) noNodes)
          (twoOpened ++ (interleavedWrites ++ [.descriptor 0 (.seek 0 0 seekSet)])))
        interleavedReads).flatMap (deliveredFrom 0) = [1, 2, 3, 4, 5] := by
  have stands : (filesOf (run perform (freshFiles (fun _ => 0) noNodes) twoOpened)).Stands 0 fileA
      0 [] := by
    exact ⟨⟨0, by decide +kernel⟩, ⟨0, by decide +kernel⟩⟩
  have writes : Along perform (WritesOn 0 fileA)
      (run perform (freshFiles (fun _ => 0) noNodes) twoOpened) interleavedWrites :=
    ⟨.inr ⟨_, _, _, rfl, by decide +kernel⟩, .inl (by decide +kernel),
      .inr ⟨_, _, _, rfl, by decide +kernel⟩, trivial⟩
  have reads : Along perform (ReadsOn 0 fileA)
      (run perform (freshFiles (fun _ => 0) noNodes)
        (twoOpened ++ (interleavedWrites ++ [.descriptor 0 (.seek 0 0 seekSet)])))
      interleavedReads :=
    ⟨.inr ⟨_, _, rfl⟩, .inl (by decide +kernel), .inr ⟨_, _, rfl⟩, trivial⟩
  exact (pieces_read_back _ _ _ _ _ _ interleavedCalls_admitted stands writes reads).trans
    (by decide +kernel)

end NansOS.Vfs
