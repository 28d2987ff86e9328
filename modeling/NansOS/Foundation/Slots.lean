import Mathlib.Data.List.Infix
import Mathlib.Logic.Function.Basic

/-! Owns arrays used as lists: an array of slots of which the first `count` are
in use, the search for a value among them, and the loop that closes the gap at
an index by moving every later slot down by one. Each operation on the array is
read as the list operation it performs. -/

namespace NansOS.Foundation

universe u

variable {Value : Type u}

/-- The values in the first `count` slots. -/
def slotList (slots : Nat → Value) (count : Nat) : List Value := (List.range count).map slots

/-- Slots `start + 1` to `count - 1`, each moved down by one, in order. -/
def shiftDown (slots : Nat → Value) (start count : Nat) : Nat → Value :=
  (List.range' start (count - 1 - start)).foldl
    (fun slots index => Function.update slots index (slots (index + 1))) slots

@[simp] theorem slotList_zero (slots : Nat → Value) : slotList slots 0 = [] := rfl

@[simp] theorem slotList_length (slots : Nat → Value) (count : Nat) :
    (slotList slots count).length = count := by
  simp [slotList]

@[simp] theorem slotList_getElem (slots : Nat → Value) (count index : Nat)
    (bound : index < (slotList slots count).length) :
    (slotList slots count)[index] = slots index := by
  simp [slotList]

theorem slotList_succ (slots : Nat → Value) (count : Nat) :
    slotList slots (count + 1) = slotList slots count ++ [slots count] := by
  simp [slotList, List.range_succ]

theorem slotList_congr {left right : Nat → Value} {count : Nat}
    (same : ∀ index < count, left index = right index) :
    slotList left count = slotList right count := by
  apply List.map_congr_left
  intro index member
  exact same index (List.mem_range.mp member)

theorem mem_slotList {slots : Nat → Value} {count : Nat} {value : Value} :
    value ∈ slotList slots count ↔ ∃ index < count, slots index = value := by
  simp [slotList]

/-- A value stored behind the slots in use extends the list. -/
theorem slotList_update (slots : Nat → Value) (count : Nat) (value : Value) :
    slotList (Function.update slots count value) (count + 1) = slotList slots count ++ [value] := by
  rw [slotList_succ, Function.update_self]
  congr 1
  apply slotList_congr
  intro index below
  exact Function.update_of_ne (by omega) _ _

theorem slotList_update_of_le (slots : Nat → Value) {count index : Nat} (beyond : count ≤ index)
    (value : Value) :
    slotList (Function.update slots index value) count = slotList slots count := by
  apply slotList_congr
  intro other below
  exact Function.update_of_ne (by omega) _ _

/-! ### Closing a gap -/

/-- The loop after its first `steps` iterations. -/
private theorem shift_steps (slots : Nat → Value) (start steps index : Nat) :
    (List.range' start steps).foldl
        (fun slots index => Function.update slots index (slots (index + 1))) slots index =
      if start ≤ index ∧ index < start + steps then slots (index + 1) else slots index := by
  induction steps generalizing index with
  | zero =>
      rw [if_neg (by omega)]
      rfl
  | succ steps inductionHypothesis =>
      rw [List.range'_1_concat, List.foldl_append, List.foldl_cons, List.foldl_nil]
      by_cases last : index = start + steps
      · subst last
        rw [Function.update_self, inductionHypothesis, if_neg (by omega), if_pos (by omega)]
      · rw [Function.update_of_ne last, inductionHypothesis]
        by_cases within : start ≤ index ∧ index < start + steps
        · rw [if_pos within, if_pos (by omega)]
        · rw [if_neg within, if_neg (by omega)]

theorem shiftDown_apply (slots : Nat → Value) (start count index : Nat) :
    shiftDown slots start count index =
      if start ≤ index ∧ index + 1 < count then slots (index + 1) else slots index := by
  rw [shiftDown, shift_steps]
  by_cases within : start ≤ index ∧ index + 1 < count
  · rw [if_pos within, if_pos (by omega)]
  · rw [if_neg within, if_neg (by omega)]

/-- Closing the gap at an index removes that index from the list. -/
theorem slotList_shiftDown (slots : Nat → Value) {start count : Nat} (inside : start < count) :
    slotList (shiftDown slots start count) (count - 1) =
      (slotList slots count).eraseIdx start := by
  apply List.ext_getElem
  · rw [List.length_eraseIdx_of_lt (by simpa using inside)]
    simp
  · intro index leftBound rightBound
    have below : index < count - 1 := by simpa using leftBound
    rw [slotList_getElem, shiftDown_apply, List.getElem_eraseIdx]
    by_cases before : index < start
    · rw [if_neg (by omega), dif_pos before, slotList_getElem]
    · rw [if_pos (by omega), dif_neg before, slotList_getElem]

/-! ### Searching -/

section Search

variable [DecidableEq Value]

/-- The first of the slots in use that holds `value`. -/
def findSlot (slots : Nat → Value) (count : Nat) (value : Value) : Option Nat :=
  (List.range count).find? fun index => slots index = value

theorem findSlot_none {slots : Nat → Value} {count : Nat} {value : Value}
    (missing : findSlot slots count value = none) : value ∉ slotList slots count := by
  rw [mem_slotList]
  rintro ⟨index, below, rfl⟩
  have unequal := List.find?_eq_none.mp missing index (List.mem_range.mpr below)
  simp at unequal

theorem findSlot_some {slots : Nat → Value} {count index : Nat} {value : Value}
    (found : findSlot slots count value = some index) :
    index < count ∧ slots index = value ∧
      (slotList slots count).eraseIdx index = (slotList slots count).erase value := by
  obtain ⟨holds, position, bound, rfl, earlier⟩ := List.find?_eq_some_iff_getElem.mp found
  have below : position < count := by simpa using bound
  simp only [List.getElem_range, decide_eq_true_eq] at holds ⊢
  refine ⟨below, holds, Eq.symm (List.erase_eq_eraseIdx_of_idxOf ?_)⟩
  apply (List.findIdx_eq (by simpa using below)).mpr
  refine ⟨by simpa using holds, fun other before => ?_⟩
  have unequal := earlier other before
  simpa using unequal

/-- A value in a slot is found. -/
theorem findSlot_listed {slots : Nat → Value} {count : Nat} {value : Value}
    (member : value ∈ slotList slots count) :
    ∃ index < count, findSlot slots count value = some index ∧
      (slotList slots count).eraseIdx index = (slotList slots count).erase value := by
  cases found : findSlot slots count value with
  | none => exact absurd member (findSlot_none found)
  | some index =>
      obtain ⟨below, -, erased⟩ := findSlot_some found
      exact ⟨index, below, rfl, erased⟩

end Search

end NansOS.Foundation
