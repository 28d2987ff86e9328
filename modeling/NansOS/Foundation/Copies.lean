import NansOS.Foundation.Memory

/-! Owns copies of single cells made one after the other in one store. A copy
reads what the copies before it left, so a list of copies is in general no
simultaneous assignment. It is one when no copy reads a cell that an earlier one
wrote and no two write one cell. It owns no program. -/

namespace NansOS.Foundation

universe u v

/-- A copy of one cell to another. -/
structure Copy (Address : Type u) where
  target : Address
  source : Address

variable {Address : Type u} {Value : Type v} [DecidableEq Address]

/-- The store after a list of copies, its first made first. -/
def copied (store : Address → Value) : List (Copy Address) → Address → Value
  | [] => store
  | copy :: rest => copied (Function.update store copy.target (store copy.source)) rest

/-- No copy reads a cell that an earlier one wrote. -/
def ReadsFirst (copies : List (Copy Address)) : Prop :=
  copies.Pairwise fun earlier later => later.source ≠ earlier.target

/-- No two copies write one cell. -/
def WritesOnce (copies : List (Copy Address)) : Prop :=
  copies.Pairwise fun earlier later => later.target ≠ earlier.target

variable {store : Address → Value} {copies : List (Copy Address)}

theorem copied_append (store : Address → Value) (front back : List (Copy Address)) :
    copied store (front ++ back) = copied (copied store front) back := by
  induction front generalizing store with
  | nil => rfl
  | cons copy rest inductionHypothesis =>
      rw [List.cons_append, copied, inductionHypothesis]
      rfl

/-- A cell that no copy writes is kept. -/
theorem copied_kept {cell : Address} (unwritten : ∀ copy ∈ copies, copy.target ≠ cell) :
    copied store copies cell = store cell := by
  induction copies generalizing store with
  | nil => rfl
  | cons copy rest inductionHypothesis =>
      have here : cell ≠ copy.target := (unwritten copy List.mem_cons_self).symm
      have later : ∀ copy ∈ rest, copy.target ≠ cell := fun copy member =>
        unwritten copy (List.mem_cons_of_mem _ member)
      rw [copied, inductionHypothesis later, Function.update_of_ne here]

/-- In such an order every target gets what its source held before the first copy. -/
theorem copied_target (readsFirst : ReadsFirst copies) (writesOnce : WritesOnce copies)
    {copy : Copy Address} (member : copy ∈ copies) :
    copied store copies copy.target = store copy.source := by
  induction copies generalizing store with
  | nil => cases member
  | cons first rest inductionHypothesis =>
      obtain ⟨unread, readsFirst⟩ := List.pairwise_cons.mp readsFirst
      obtain ⟨unwritten, writesOnce⟩ := List.pairwise_cons.mp writesOnce
      rcases List.mem_cons.mp member with rfl | later
      · rw [copied, copied_kept unwritten, Function.update_self]
      · -- The source is still to be read, so the first copy has not touched it.
        have kept := Function.update_of_ne (unread copy later) (store first.source) store
        rw [copied, inductionHypothesis readsFirst writesOnce later, kept]

end NansOS.Foundation
