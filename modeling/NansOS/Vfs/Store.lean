import NansOS.Foundation.Refinement
import NansOS.Ramdisk.Contents
import Mathlib.Data.Set.Card

/-! Owns what the RAM disk is for, without blocks: a store that maps names to
flags and byte strings. `Serves` is its specification, one rule for each way a
call can end; it leaves open only whether a write that reaches past the end of
its file finds space. From the rules follows that bytes written stay until they
are written over or their file is deleted. -/

namespace NansOS.Vfs

open NansOS.Foundation
open NansOS.Kernel
open NansOS.Ramdisk

/-- A file without its place on the disk. -/
structure StoredFile where
  flags : UInt32
  contents : List UInt8

/-- The files by name. -/
abbrev Store := CString → Option StoredFile

/-- The names that are taken. -/
def Store.names (store : Store) : Set CString := {name | store name ≠ none}

/-- What a call answers: the error it prints, or the returned `int` with the
bytes placed in the caller's buffer. -/
abbrev Answer := Except DiskError (Int × List UInt8)

/-- One call on the store, its answer, and the store after it. -/
inductive Serves (store : Store) : Ramdisk.Call → Answer → Store → Prop
  | created {name : CString} (flags : UInt32) (short : strlen name < ramdiskMaxNameLen)
      (absent : store name = none) (room : store.names.encard < ramdiskMaxFiles) :
      Serves store (.createFile name flags) (.ok (0, []))
        (Function.update store name (some ⟨flags, []⟩))
  | nameTooLong {name : CString} (flags : UInt32) (long : ramdiskMaxNameLen ≤ strlen name) :
      Serves store (.createFile name flags) (.error .nameTooLong) store
  | alreadyExists {name : CString} (flags : UInt32) (short : strlen name < ramdiskMaxNameLen)
      (present : store name ≠ none) :
      Serves store (.createFile name flags) (.error .alreadyExists) store
  | tooManyFiles {name : CString} (flags : UInt32) (short : strlen name < ramdiskMaxNameLen)
      (absent : store name = none) (full : ramdiskMaxFiles ≤ store.names.encard) :
      Serves store (.createFile name flags) (.error .tooManyFiles) store
  | deleted {name : CString} (present : store name ≠ none) :
      Serves store (.deleteFile name) (.ok (0, [])) (Function.update store name none)
  | deleteMissing {name : CString} (absent : store name = none) :
      Serves store (.deleteFile name) (.error .notFound) store
  | delivered {name : CString} {file : StoredFile} (present : store name = some file)
      (offset size : UInt64) :
      Serves store (.read name offset size)
        (.ok (((file.contents.drop offset.toNat).take size.toNat).length,
          (file.contents.drop offset.toNat).take size.toNat)) store
  | readMissing {name : CString} (absent : store name = none) (offset size : UInt64) :
      Serves store (.read name offset size) (.error .notFound) store
  | written {name : CString} {file : StoredFile} {offset : UInt64} (size : UInt64)
      (buffer : Memory) (present : store name = some file)
      (joins : offset.toNat ≤ file.contents.length) :
      Serves store (.write name offset size buffer) (.ok (size.toNat, []))
        (Function.update store name
          (some { file with
            contents := overlay file.contents offset.toNat (buffer.bytes 0 size.toNat) }))
  | noSpace {name : CString} {file : StoredFile} {offset size : UInt64} (buffer : Memory)
      (present : store name = some file)
      (beyond : file.contents.length < offset.toNat + size.toNat) :
      Serves store (.write name offset size buffer) (.error .noSpace) store
  | writeMissing {name : CString} (absent : store name = none) (offset size : UInt64)
      (buffer : Memory) :
      Serves store (.write name offset size buffer) (.error .notFound) store

/-! ### Bytes that stay -/

/-- The file has these bytes at `offset`. -/
def Store.Keeps (store : Store) (name : CString) (offset : Nat) (bytes : List UInt8) : Prop :=
  ∃ file, store name = some file ∧ offset + bytes.length ≤ file.contents.length ∧
    (file.contents.drop offset).take bytes.length = bytes

/-- The call neither deletes the file nor writes to these bytes of it. -/
def Spares (name : CString) (offset length : Nat) : Ramdisk.Call → Prop
  | .deleteFile other => other ≠ name
  | .write other start size _ => other = name →
      start.toNat + size.toNat ≤ offset ∨ offset + length ≤ start.toNat
  | _ => True

instance (name : CString) (offset length : Nat) (call : Ramdisk.Call) :
    Decidable (Spares name offset length call) :=
  match call with
  | .createFile .. => isTrue trivial
  | .deleteFile .. => inferInstanceAs (Decidable (_ ≠ _))
  | .read .. => isTrue trivial
  | .write .. => inferInstanceAs (Decidable (_ = _ → _ ∨ _))

section Overlay

variable {contents bytes : List UInt8} {offset start length : Nat}

theorem overlay_length (joins : start ≤ contents.length) :
    (overlay contents start bytes).length = max contents.length (start + bytes.length) := by
  simp only [overlay, List.length_append, List.length_take, List.length_drop]
  omega

/-- The bytes written are where they were written. -/
theorem overlay_inside (joins : start ≤ contents.length) :
    ((overlay contents start bytes).drop start).take bytes.length = bytes := by
  have prefixLength : (contents.take start).length = start := by
    rw [List.length_take]
    omega
  rw [overlay, List.append_assoc, List.drop_append_of_le_length (by omega),
    List.drop_of_length_le (by omega), List.nil_append, List.take_left]

/-- Bytes that are not written stay where they are. -/
theorem overlay_outside (joins : start ≤ contents.length)
    (apart : start + bytes.length ≤ offset ∨ offset + length ≤ start) :
    ((overlay contents start bytes).drop offset).take length =
      (contents.drop offset).take length := by
  apply List.ext_getElem?
  intro position
  rw [List.getElem?_take, List.getElem?_take]
  by_cases within : position < length
  · rw [if_pos within, if_pos within, List.getElem?_drop, List.getElem?_drop, overlay]
    rcases apart with before | after
    · rw [List.getElem?_append_right (by
        rw [List.length_append, List.length_take]
        omega), List.getElem?_drop]
      congr 1
      rw [List.length_append, List.length_take]
      omega
    · rw [List.append_assoc, List.getElem?_append_left (by
        rw [List.length_take]
        omega), List.getElem?_take, if_pos (by omega)]
  · rw [if_neg within, if_neg within]

end Overlay

section Steps

variable {store after : Store} {call : Ramdisk.Call} {answer : Answer}
variable {name : CString} {offset size : UInt64} {buffer : Memory} {bytes : List UInt8}

/-- A served call keeps the bytes that it spares. -/
theorem Serves.keeps {position : Nat} (serves : Serves store call answer after)
    (kept : store.Keeps name position bytes) (spares : Spares name position bytes.length call) :
    after.Keeps name position bytes := by
  obtain ⟨file, present, inside, reads⟩ := kept
  cases serves with
  | @created other flags short absent room =>
      have different : name ≠ other := by
        intro same
        rw [same, absent] at present
        cases present
      exact ⟨file, by rw [Function.update_of_ne different, present], inside, reads⟩
  | @deleted other taken =>
      have different : name ≠ other := fun same => spares same.symm
      exact ⟨file, by rw [Function.update_of_ne different, present], inside, reads⟩
  | @written other target start count data found joins =>
      by_cases same : other = name
      · subst same
        have target_eq : target = file := Option.some.inj (found.symm.trans present)
        subst target_eq
        have apart := spares rfl
        rw [← Memory.bytes_length data 0 count.toNat] at apart
        refine ⟨_, Function.update_self .., ?_, ?_⟩
        · rw [overlay_length joins]
          omega
        · rw [overlay_outside joins apart, reads]
      · exact ⟨file, by rw [Function.update_of_ne (Ne.symm same), present], inside, reads⟩
  | nameTooLong => exact ⟨file, present, inside, reads⟩
  | alreadyExists => exact ⟨file, present, inside, reads⟩
  | tooManyFiles => exact ⟨file, present, inside, reads⟩
  | deleteMissing => exact ⟨file, present, inside, reads⟩
  | delivered => exact ⟨file, present, inside, reads⟩
  | readMissing => exact ⟨file, present, inside, reads⟩
  | noSpace => exact ⟨file, present, inside, reads⟩
  | writeMissing => exact ⟨file, present, inside, reads⟩

/-- A write that is answered with success leaves its bytes in the file. -/
theorem Serves.keeps_written {returned : Int × List UInt8}
    (serves : Serves store (.write name offset size buffer) (.ok returned) after) :
    after.Keeps name offset.toNat (buffer.bytes 0 size.toNat) := by
  cases serves with
  | written _ _ present joins =>
      refine ⟨_, Function.update_self .., ?_, overlay_inside joins⟩
      rw [overlay_length joins]
      omega

/-- A read of kept bytes delivers them. -/
theorem Serves.reads_kept (serves : Serves store (.read name offset size) answer after)
    (kept : store.Keeps name offset.toNat bytes) (whole : bytes.length = size.toNat) :
    answer = .ok (size.toNat, bytes) := by
  obtain ⟨file, present, inside, reads⟩ := kept
  cases serves with
  | @delivered other found same =>
      have same : found = file := Option.some.inj (same.symm.trans present)
      rw [same, ← whole, reads]
  | readMissing absent =>
      rw [absent] at present
      cases present

end Steps

/-- A successful write is read back after any behaviour that spares its bytes. -/
theorem reads_back {first last : Store} {name : CString} {offset size : UInt64}
    {buffer : Memory} {returned : Int × List UInt8} {answer : Answer}
    {events : List (Ramdisk.Call × Answer)}
    (allowed : Allows Serves first
      ((.write name offset size buffer, .ok returned) :: (events ++
        [(.read name offset size, answer)])) last)
    (spared : ∀ event ∈ events, Spares name offset.toNat size.toNat event.1) :
    answer = .ok (size.toNat, buffer.bytes 0 size.toNat) := by
  have length := Memory.bytes_length buffer 0 size.toNat
  cases allowed with
  | cons written later =>
      have ⟨middle, between, last⟩ := later.split
      have kept : middle.Keeps name offset.toNat (buffer.bytes 0 size.toNat) :=
        between.invariant
          (fun _ _ _ _ keeps spares serves => serves.keeps keeps (by rw [length]; exact spares))
          written.keeps_written spared
      cases last with
      | cons read _ => exact read.reads_kept kept length

end NansOS.Vfs
