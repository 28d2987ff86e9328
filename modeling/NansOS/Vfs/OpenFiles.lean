import NansOS.Vfs.Seek
import NansOS.Vfs.Store

/-! Owns what descriptors on a disk are for: open files, each a name with a
position, over a store of byte strings. A descriptor follows the name of its
file, not the file: it reads nothing once the file is deleted, and the new file
once the name is taken again. Seeking goes by the size that the file had when it
was opened. `Operates` is the specification, one rule for each way a call can
end. -/

namespace NansOS.Vfs

open NansOS.Foundation
open NansOS.Kernel
open NansOS.Ramdisk

/-- An open file: its name, the position, and its size when it was opened. -/
structure OpenFile where
  name : CString
  position : Nat
  sizeSeen : Nat

/-- The files by name, and the open files by descriptor. -/
structure Files where
  store : Store
  opened : Fin maxFd → Option OpenFile

/-- A call on the disk itself, or one on a descriptor; `allocated` is what `malloc`
returns for the node, where the call needs one. -/
inductive FileCall where
  | disk (call : Ramdisk.Call)
  | descriptor (allocated : UInt64) (call : Vfs.Call)

/-- The descriptor that a call is on. -/
def Call.on : Call → Option Int
  | .openFile _ _ => none
  | .close fd => some fd
  | .read fd _ => some fd
  | .write fd _ _ => some fd
  | .seek fd _ _ => some fd

namespace Files

/-- Nothing is open under this number. -/
def Closed (files : Files) (fd : Int) : Prop :=
  ∀ slot : Fin maxFd, fd = slot.val → files.opened slot = none

/-- Overwrite one entry. -/
def setOpen (files : Files) (slot : Fin maxFd) (entry : Option OpenFile) : Files :=
  { files with opened := Function.update files.opened slot entry }

/-- Overwrite one file. -/
def setFile (files : Files) (name : CString) (file : StoredFile) : Files :=
  { files with store := Function.update files.store name (some file) }

end Files

/-- The target of a seek. -/
def OpenFile.aim (file : OpenFile) (offset : Int64) (whence : Int) : Option Int :=
  if whence = seekSet then some offset.toInt
  else if whence = seekCur then some (file.position + offset.toInt)
  else if whence = seekEnd then some (file.sizeSeen + offset.toInt)
  else none

/-- A target that can be sought: it lies within the size seen when the file was
opened. -/
def OpenFile.Reaches (file : OpenFile) (target : Int) : Prop :=
  0 ≤ target ∧ target ≤ file.sizeSeen

/-- The bytes that a read of this size gets. -/
def OpenFile.ahead (file : OpenFile) (entry : StoredFile) (size : UInt64) : List UInt8 :=
  (entry.contents.drop file.position).take size.toNat

/-- The position further on. -/
def OpenFile.moved (file : OpenFile) (count : Nat) : OpenFile :=
  { file with position := file.position + count }

/-- The call is refused with -1. -/
def refused : Answer := .ok (-1, [])

/-- One call on files, its answer, and the files after it. -/
inductive Operates (files : Files) : FileCall → Answer → Files → Prop
  | onDisk {call : Ramdisk.Call} {answer : Answer} {store : Store}
      (serves : Serves files.store call answer store) :
      Operates files (.disk call) answer { files with store := store }
  | opened {name : CString} {file : StoredFile} {slot : Fin maxFd} (allocated : UInt64)
      (flags : UInt32) (present : files.store name = some file)
      (free : files.opened slot = none) (lowest : ∀ lower < slot, files.opened lower ≠ none) :
      Operates files (.descriptor allocated (.openFile name flags)) (.ok (slot.val, []))
        (files.setOpen slot (some ⟨name, 0, file.contents.length⟩))
  | openMissing {name : CString} (allocated : UInt64) (flags : UInt32)
      (absent : files.store name = none) :
      Operates files (.descriptor allocated (.openFile name flags)) refused files
  | openFull (name : CString) (allocated : UInt64) (flags : UInt32)
      (full : ∀ slot, files.opened slot ≠ none) :
      Operates files (.descriptor allocated (.openFile name flags)) refused files
  | notOpen {call : Vfs.Call} {fd : Int} (allocated : UInt64) (on : call.on = some fd)
      (closed : files.Closed fd) :
      Operates files (.descriptor allocated call) refused files
  | close {slot : Fin maxFd} (allocated : UInt64) (held : files.opened slot ≠ none) :
      Operates files (.descriptor allocated (.close slot.val)) (.ok (0, []))
        (files.setOpen slot none)
  | read {slot : Fin maxFd} {file : OpenFile} {entry : StoredFile} (allocated size : UInt64)
      (held : files.opened slot = some file) (present : files.store file.name = some entry) :
      Operates files (.descriptor allocated (.read slot.val size))
        (.ok ((file.ahead entry size).length, file.ahead entry size))
        (files.setOpen slot (some (file.moved (file.ahead entry size).length)))
  | readGone {slot : Fin maxFd} {file : OpenFile} (allocated size : UInt64)
      (held : files.opened slot = some file) (absent : files.store file.name = none) :
      Operates files (.descriptor allocated (.read slot.val size)) refused files
  | write {slot : Fin maxFd} {file : OpenFile} {entry : StoredFile} (allocated : UInt64)
      (buffer : Memory) (size : UInt64) (held : files.opened slot = some file)
      (present : files.store file.name = some entry)
      (joins : file.position ≤ entry.contents.length) :
      Operates files (.descriptor allocated (.write slot.val buffer size)) (.ok (size.toNat, []))
        ((files.setFile file.name { entry with
            contents := overlay entry.contents file.position (buffer.bytes 0 size.toNat) }).setOpen
          slot (some (file.moved size.toNat)))
  | noSpace {slot : Fin maxFd} {file : OpenFile} {entry : StoredFile} {size : UInt64}
      (allocated : UInt64) (buffer : Memory) (held : files.opened slot = some file)
      (present : files.store file.name = some entry)
      (beyond : entry.contents.length < file.position + size.toNat) :
      Operates files (.descriptor allocated (.write slot.val buffer size)) refused files
  | writeGone {slot : Fin maxFd} {file : OpenFile} (allocated : UInt64) (buffer : Memory)
      (size : UInt64) (held : files.opened slot = some file)
      (absent : files.store file.name = none) :
      Operates files (.descriptor allocated (.write slot.val buffer size)) refused files
  | seek {slot : Fin maxFd} {file : OpenFile} {offset : Int64} {whence target : Int}
      (allocated : UInt64) (held : files.opened slot = some file)
      (aimed : file.aim offset whence = some target) (reaches : file.Reaches target) :
      Operates files (.descriptor allocated (.seek slot.val offset whence)) (.ok (target, []))
        (files.setOpen slot (some { file with position := target.toNat }))
  | seekRefused {slot : Fin maxFd} {file : OpenFile} {offset : Int64} {whence : Int}
      (allocated : UInt64) (held : files.opened slot = some file)
      (missed : ∀ target ∈ file.aim offset whence, ¬ file.Reaches target) :
      Operates files (.descriptor allocated (.seek slot.val offset whence)) refused files

/-! ### One descriptor among others -/

/-- The descriptor is at this position of the file with this name, which has these
contents. -/
structure Files.Stands (files : Files) (slot : Fin maxFd) (name : CString) (position : Nat)
    (contents : List UInt8) : Prop where
  held : ∃ seen, files.opened slot = some ⟨name, position, seen⟩
  present : ∃ flags, files.store name = some ⟨flags, contents⟩

/-- The call is not on this descriptor, and neither deletes the file with this name
nor writes to it. -/
def Files.Bystander (files : Files) (slot : Fin maxFd) (name : CString) : FileCall → Prop
  | .disk (.createFile _ _) => True
  | .disk (.deleteFile other) => other ≠ name
  | .disk (.read _ _ _) => True
  | .disk (.write other _ _ _) => other ≠ name
  | .descriptor _ (.openFile _ _) => True
  | .descriptor _ (.close fd) => fd ≠ slot.val
  | .descriptor _ (.read fd _) => fd ≠ slot.val
  | .descriptor _ (.seek fd _ _) => fd ≠ slot.val
  | .descriptor _ (.write fd _ _) => fd ≠ slot.val ∧
      ∀ other : Fin maxFd, fd = other.val → ∀ file ∈ files.opened other, file.name ≠ name

instance (files : Files) (slot : Fin maxFd) (name : CString) (call : FileCall) :
    Decidable (files.Bystander slot name call) :=
  match call with
  | .disk (.createFile _ _) => isTrue trivial
  | .disk (.deleteFile _) => inferInstanceAs (Decidable (_ ≠ _))
  | .disk (.read _ _ _) => isTrue trivial
  | .disk (.write _ _ _ _) => inferInstanceAs (Decidable (_ ≠ _))
  | .descriptor _ (.openFile _ _) => isTrue trivial
  | .descriptor _ (.close _) => inferInstanceAs (Decidable (_ ≠ _))
  | .descriptor _ (.read _ _) => inferInstanceAs (Decidable (_ ≠ _))
  | .descriptor _ (.seek _ _ _) => inferInstanceAs (Decidable (_ ≠ _))
  | .descriptor _ (.write fd _ _) => inferInstanceAs (Decidable (fd ≠ slot.val ∧
      ∀ other : Fin maxFd, fd = other.val → ∀ file ∈ files.opened other, file.name ≠ name))

/-- What a call writes through the descriptor, if it is accepted. -/
def FileCall.writtenBy (slot : Fin maxFd) : FileCall → List UInt8
  | .descriptor _ (.write fd buffer size) => if fd = slot.val then buffer.bytes 0 size.toNat else []
  | _ => []

/-- How many bytes a call asks of the descriptor. -/
def FileCall.askedOf (slot : Fin maxFd) : FileCall → Nat
  | .descriptor _ (.read fd size) => if fd = slot.val then size.toNat else 0
  | _ => 0

/-- The bytes that an answer delivers from the descriptor. -/
def deliveredFrom (slot : Fin maxFd) : FileCall × Answer → List UInt8
  | (.descriptor _ (.read fd _), .ok (_, bytes)) => if fd = slot.val then bytes else []
  | _ => []

section Stands

variable {files after : Files} {slot other : Fin maxFd} {name : CString} {position : Nat}
variable {contents : List UInt8} {answer : Answer} {allocated : UInt64}

theorem Files.Stands.setOpen (stands : files.Stands slot name position contents)
    (different : other ≠ slot) (entry : Option OpenFile) :
    (files.setOpen other entry).Stands slot name position contents where
  held := by
    have ⟨seen, held⟩ := stands.held
    refine ⟨seen, ?_⟩
    rw [← held]
    exact Function.update_of_ne different.symm _ _
  present := stands.present

theorem Files.Stands.setFile (stands : files.Stands slot name position contents)
    {written : CString} (different : written ≠ name) (file : StoredFile) :
    (files.setFile written file).Stands slot name position contents where
  held := stands.held
  present := by
    have ⟨flags, present⟩ := stands.present
    exact ⟨flags, (Function.update_of_ne different.symm _ files.store).trans present⟩

/-- The store is served a call that spares the file. -/
theorem Files.Stands.served (stands : files.Stands slot name position contents)
    {made : Ramdisk.Call} {store : Store} (serves : Serves files.store made answer store)
    (spared : files.Bystander slot name (.disk made)) :
    Files.Stands { files with store := store } slot name position contents := by
  have ⟨flags, present⟩ := stands.present
  refine ⟨stands.held, flags, ?_⟩
  cases serves with
  | @created made flags short absent room =>
      have different : name ≠ made := by
        rintro rfl
        rw [absent] at present
        cases present
      exact (Function.update_of_ne different _ _).trans present
  | deleted taken => exact (Function.update_of_ne (Ne.symm spared) _ _).trans present
  | written size buffer found joins =>
      exact (Function.update_of_ne (Ne.symm spared) _ _).trans present
  | nameTooLong => exact present
  | alreadyExists => exact present
  | tooManyFiles => exact present
  | deleteMissing => exact present
  | delivered => exact present
  | readMissing => exact present
  | noSpace => exact present
  | writeMissing => exact present

/-- Bystanders leave the descriptor and its file as they are. -/
theorem Files.Stands.bystander (stands : files.Stands slot name position contents)
    {call : FileCall} (operates : Operates files call answer after)
    (spared : files.Bystander slot name call) : after.Stands slot name position contents := by
  cases operates with
  | onDisk serves => exact stands.served serves spared
  | @opened _ _ free _ _ _ empty =>
      have ⟨_, held⟩ := stands.held
      apply stands.setOpen
      rintro rfl
      rw [empty] at held
      cases held
  | close => exact stands.setOpen (fun same => spared (by rw [same])) _
  | read => exact stands.setOpen (fun same => spared (by rw [same])) _
  | seek => exact stands.setOpen (fun same => spared (by rw [same])) _
  | write _ _ _ held =>
      have elsewhere := spared.2 _ rfl _ held
      exact (stands.setFile elsewhere _).setOpen (fun same => spared.1 (by rw [same])) _
  | openMissing => exact stands
  | openFull => exact stands
  | notOpen => exact stands
  | readGone => exact stands
  | noSpace => exact stands
  | writeGone => exact stands
  | seekRefused => exact stands

/-- A write that is not refused. -/
theorem Files.Stands.write (stands : files.Stands slot name position contents)
    {buffer : Memory} {size : UInt64}
    (operates : Operates files (.descriptor allocated (.write slot.val buffer size)) answer after)
    (accepted : answer ≠ refused) :
    after.Stands slot name (position + size.toNat)
      (overlay contents position (buffer.bytes 0 size.toNat)) := by
  have ⟨seen, held⟩ := stands.held
  have ⟨flags, present⟩ := stands.present
  generalize place : (slot.val : Int) = fd at operates
  cases operates with
  | notOpen _ on closed =>
      cases on
      rw [closed slot place.symm] at held
      cases held
  | @write same file entry _ _ _ opened found joins =>
      have same : slot = same := Fin.ext (Int.ofNat.inj place)
      subst same
      rw [held] at opened
      cases opened
      rw [present] at found
      cases found
      refine ⟨⟨seen, Function.update_self ..⟩, flags, Function.update_self ..⟩
  | noSpace => exact absurd rfl accepted
  | writeGone => exact absurd rfl accepted

/-- A read delivers what comes next. -/
theorem Files.Stands.read (stands : files.Stands slot name position contents) {size : UInt64}
    (operates : Operates files (.descriptor allocated (.read slot.val size)) answer after) :
    answer = .ok (((contents.drop position).take size.toNat).length,
        (contents.drop position).take size.toNat) ∧
      after.Stands slot name
        (position + ((contents.drop position).take size.toNat).length) contents := by
  have ⟨seen, held⟩ := stands.held
  have ⟨flags, present⟩ := stands.present
  generalize place : (slot.val : Int) = fd at operates
  cases operates with
  | notOpen _ on closed =>
      cases on
      rw [closed slot place.symm] at held
      cases held
  | @read same file entry _ _ opened found =>
      have same : slot = same := Fin.ext (Int.ofNat.inj place)
      subst same
      rw [held] at opened
      cases opened
      rw [present] at found
      cases found
      exact ⟨rfl, ⟨seen, Function.update_self ..⟩, flags, present⟩
  | @readGone same file _ _ opened absent =>
      have same : slot = same := Fin.ext (Int.ofNat.inj place)
      subst same
      rw [held] at opened
      cases opened
      rw [present] at absent
      cases absent

/-- The start of the file can always be sought. -/
theorem Files.Stands.rewind (stands : files.Stands slot name position contents)
    (operates : Operates files (.descriptor allocated (.seek slot.val 0 seekSet)) answer after) :
    after.Stands slot name 0 contents := by
  have ⟨seen, held⟩ := stands.held
  generalize place : (slot.val : Int) = fd at operates
  cases operates with
  | notOpen _ on closed =>
      cases on
      rw [closed slot place.symm] at held
      cases held
  | @seek same file _ _ target _ opened aimed reaches =>
      have same : slot = same := Fin.ext (Int.ofNat.inj place)
      subst same
      rw [held] at opened
      cases opened
      cases aimed
      exact ⟨⟨seen, Function.update_self ..⟩, stands.present⟩
  | @seekRefused same file _ _ _ opened missed =>
      have same : slot = same := Fin.ext (Int.ofNat.inj place)
      subst same
      rw [held] at opened
      cases opened
      exact absurd ⟨le_rfl, Int.natCast_nonneg seen⟩ (missed 0 rfl)

theorem Files.Bystander.written {call : FileCall} (spared : files.Bystander slot name call) :
    call.writtenBy slot = [] := by
  cases call with
  | disk made => rfl
  | descriptor allocated request =>
      cases request with
      | write fd buffer size => exact if_neg spared.1
      | openFile _ _ => rfl
      | close _ => rfl
      | read _ _ => rfl
      | seek _ _ _ => rfl

theorem Files.Bystander.asked {call : FileCall} (spared : files.Bystander slot name call)
    (answer : Answer) : call.askedOf slot = 0 ∧ deliveredFrom slot (call, answer) = [] := by
  cases call with
  | disk made => exact ⟨rfl, rfl⟩
  | descriptor allocated request =>
      cases request with
      | read fd size =>
          refine ⟨if_neg spared, ?_⟩
          cases answer with
          | ok delivered => exact if_neg spared
          | error error => rfl
      | openFile _ _ => exact ⟨rfl, rfl⟩
      | close _ => exact ⟨rfl, rfl⟩
      | write _ _ _ => exact ⟨rfl, rfl⟩
      | seek _ _ _ => exact ⟨rfl, rfl⟩

/-- A piece of a list and the piece behind it. -/
theorem take_take_behind (list : List UInt8) (first second : Nat) :
    list.take first ++ (list.drop (list.take first).length).take second =
      list.take (first + second) := by
  have behind : list.drop (list.take first).length = list.drop first := by
    rw [List.length_take]
    by_cases within : first ≤ list.length
    · rw [min_eq_left within]
    · rw [min_eq_right (by omega), List.drop_length, List.drop_of_length_le (by omega)]
  rw [behind, List.take_add]

/-- Writing on where the last write ended. -/
theorem overlay_behind (data old bytes : List UInt8) :
    overlay (data ++ old.drop data.length) data.length bytes =
      (data ++ bytes) ++ old.drop (data ++ bytes).length := by
  rw [overlay, List.take_left, List.drop_append, List.drop_of_length_le (by omega),
    List.nil_append, Nat.add_sub_cancel_left, List.drop_drop, List.length_append]

end Stands

end NansOS.Vfs
