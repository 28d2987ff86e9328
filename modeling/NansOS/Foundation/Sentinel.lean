import NansOS.Foundation.Halting
import Mathlib.Logic.Function.Basic
import Mathlib.Order.Interval.Set.Basic

/-! Owns the loop that copies cells upward from a source to a target in one store,
until it has copied a sentinel. Where the target starts behind the start of the
source and not behind its sentinel, the sentinel is overwritten before it is read
and the loop never ends; everywhere else it ends and has moved what was there. It
owns no program. -/

namespace NansOS.Foundation

universe u

variable {Value : Type u} [DecidableEq Value]

/-- The store, and how many cells have been copied. -/
structure Copying (Value : Type u) where
  store : Nat → Value
  index : Nat

/-- Copy the next cell; stop behind the sentinel. -/
def copyPass (sentinel : Value) (target source : Nat) (copying : Copying Value) :
    Except (Nat → Value) (Copying Value) :=
  let value := copying.store (source + copying.index)
  let written := Function.update copying.store (target + copying.index) value
  if value = sentinel then .error written else .ok ⟨written, copying.index + 1⟩

/-- The store with `count` cells moved from a source to a target at once. -/
def shifted (store : Nat → Value) (target source count : Nat) : Nat → Value := fun cell =>
  if target ≤ cell ∧ cell < target + count then store (source + (cell - target)) else store cell

section Shifted

variable {store : Nat → Value} {target source count cell : Nat}

omit [DecidableEq Value] in
theorem shifted_zero : shifted store target source 0 = store := by
  funext cell
  exact if_neg fun inside => by omega

omit [DecidableEq Value] in
theorem shifted_inside {index : Nat} (below : index < count) :
    shifted store target source count (target + index) = store (source + index) := by
  rw [shifted, if_pos ⟨Nat.le_add_right _ _, by omega⟩, Nat.add_sub_cancel_left]

omit [DecidableEq Value] in
theorem shifted_outside (outside : cell < target ∨ target + count ≤ cell) :
    shifted store target source count cell = store cell :=
  if_neg fun inside => by omega

omit [DecidableEq Value] in
theorem shifted_eqOn :
    Set.EqOn (shifted store target source count) store (Set.Ico target (target + count))ᶜ :=
  fun _ outside => if_neg outside

omit [DecidableEq Value] in
theorem shifted_succ :
    Function.update (shifted store target source count) (target + count) (store (source + count)) =
      shifted store target source (count + 1) := by
  funext cell
  by_cases here : cell = target + count
  · rw [here, Function.update_self, shifted_inside (Nat.lt_succ_self count)]
  · rw [Function.update_of_ne here]
    by_cases inside : target ≤ cell ∧ cell < target + count
    · rw [shifted, shifted, if_pos inside, if_pos ⟨inside.1, by omega⟩]
    · rw [shifted, shifted, if_neg inside, if_neg fun wider => by omega]

end Shifted

section Loop

variable {store : Nat → Value} {sentinel : Value} {target source length : Nat}

/-- The cells of the source up to its first sentinel. -/
structure EndsAt (store : Nat → Value) (sentinel : Value) (source length : Nat) : Prop where
  front : ∀ index < length, store (source + index) ≠ sentinel
  last : store (source + length) = sentinel

/-- No cell of the source is overwritten before it is read. -/
def ReadBeforeWritten (target source length : Nat) : Prop :=
  target ≤ source ∨ source + length < target

instance (target source length : Nat) : Decidable (ReadBeforeWritten target source length) :=
  inferInstanceAs (Decidable (_ ∨ _))

omit [DecidableEq Value] in
/-- What is still to be read is what was there. -/
theorem ReadBeforeWritten.unread (apart : ReadBeforeWritten target source length) {index : Nat}
    (within : index ≤ length) :
    shifted store target source index (source + index) = store (source + index) := by
  apply shifted_outside
  cases apart with
  | inl down => exact .inr (by omega)
  | inr up => exact .inl (by omega)

variable (store sentinel) in
theorem copyPass_shifted (apart : ReadBeforeWritten target source length) {index : Nat}
    (within : index ≤ length) :
    copyPass sentinel target source ⟨shifted store target source index, index⟩ =
      if store (source + index) = sentinel then .error (shifted store target source (index + 1))
      else .ok ⟨shifted store target source (index + 1), index + 1⟩ := by
  simp only [copyPass, apart.unread within, shifted_succ]

/-- The loop ends, with the source moved. -/
theorem copy_stops (ends : EndsAt store sentinel source length)
    (apart : ReadBeforeWritten target source length) :
    StopsWith (copyPass sentinel target source) ⟨store, 0⟩
      (shifted store target source (length + 1)) := by
  have fromIndex : ∀ rest index, index + rest = length →
      StopsWith (copyPass sentinel target source) ⟨shifted store target source index, index⟩
        (shifted store target source (length + 1)) := by
    intro rest
    induction rest with
    | zero =>
        intro index here
        have here : index = length := here
        subst here
        have pass := copyPass_shifted store sentinel apart le_rfl
        rw [if_pos ends.last] at pass
        rw [stopsWith_of_error pass]
    | succ rest inductionHypothesis =>
        intro index here
        have pass := copyPass_shifted store sentinel apart (show index ≤ length by omega)
        rw [if_neg (ends.front index (by omega))] at pass
        rw [stopsWith_of_ok pass]
        exact inductionHypothesis (index + 1) (by omega)
  have whole := fromIndex length 0 (Nat.zero_add length)
  rwa [shifted_zero] at whole

/-- Between the cell to be read and the cell to be written there is no sentinel. -/
def NoneBetween (sentinel : Value) (target source : Nat) (copying : Copying Value) : Prop :=
  ∀ cell, source + copying.index ≤ cell → cell < target + copying.index →
    copying.store cell ≠ sentinel

/-- The next cell is no sentinel, and neither is its copy. -/
theorem NoneBetween.pass {copying : Copying Value} (up : source < target)
    (none : NoneBetween sentinel target source copying) :
    ∃ next, copyPass sentinel target source copying = .ok next ∧
      NoneBetween sentinel target source next := by
  have unended := none (source + copying.index) le_rfl (by omega)
  refine ⟨_, if_neg unended, ?_⟩
  intro cell above below
  dsimp only at above below ⊢
  by_cases here : cell = target + copying.index
  · rw [here, Function.update_self]
    exact unended
  · rw [Function.update_of_ne here]
    exact none cell (by omega) (by omega)

/-- Where the copy runs into its own source, the loop never ends. -/
theorem copy_never (ends : EndsAt store sentinel source length)
    (runsInto : ¬ ReadBeforeWritten target source length) (result : Nat → Value) :
    ¬ StopsWith (copyPass sentinel target source) ⟨store, 0⟩ result := by
  have ⟨up, inside⟩ := not_or.mp runsInto
  have start : NoneBetween sentinel target source ⟨store, 0⟩ := by
    intro cell above below
    have unended := ends.front (cell - source) (by dsimp only at above below; omega)
    rwa [show source + (cell - source) = cell by dsimp only at above; omega] at unended
  intro stopped
  apply StopsWith.keeps (NoneBetween sentinel target source) (fun _ => False) _ _ stopped start
  · intro copying next goesOn none
    have ⟨following, passes, kept⟩ := none.pass (Nat.lt_of_not_le up)
    rw [goesOn] at passes
    cases passes
    exact kept
  · intro copying halt halts none
    have ⟨following, passes, _⟩ := none.pass (Nat.lt_of_not_le up)
    rw [halts] at passes
    cases passes

/-- The loop ends exactly when the source is read before it is written. -/
theorem copy_stops_iff (ends : EndsAt store sentinel source length) :
    (∃ result, StopsWith (copyPass sentinel target source) ⟨store, 0⟩ result) ↔
      ReadBeforeWritten target source length := by
  constructor
  · intro stops
    have ⟨result, stopped⟩ := stops
    by_contra runsInto
    exact copy_never ends runsInto result stopped
  · exact fun apart => ⟨_, copy_stops ends apart⟩

/-- It ends in one way. -/
theorem copy_result (ends : EndsAt store sentinel source length) {result : Nat → Value}
    (stopped : StopsWith (copyPass sentinel target source) ⟨store, 0⟩ result) :
    result = shifted store target source (length + 1) := by
  have apart := (copy_stops_iff ends).mp ⟨result, stopped⟩
  exact stopped.unique (copy_stops ends apart)

end Loop

end NansOS.Foundation
