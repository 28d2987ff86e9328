import Mathlib.Data.List.Perm.Basic
import Mathlib.Data.List.Nodup

/-! Owns the books of a program that gets memory from an allocator: which addresses
it holds after a list of events, whether each access and each release was of an
address that it held then, and whether the allocator handed out addresses that were
free. It owns no program. -/

namespace NansOS.Foundation

universe u

/-- What a program does with memory. -/
inductive MemoryEvent (Address : Type u) where
  | allocate (address : Address)
  | access (address : Address)
  | release (address : Address)
deriving DecidableEq

section Books

variable {Address : Type u} [DecidableEq Address]

/-- The addresses that are held after the events. -/
def settle : List Address → List (MemoryEvent Address) → List Address
  | live, [] => live
  | live, .allocate address :: rest => settle (address :: live) rest
  | live, .access _ :: rest => settle live rest
  | live, .release address :: rest => settle (live.erase address) rest

/-- Only addresses that are held are accessed and released. -/
def Clean : List Address → List (MemoryEvent Address) → Prop
  | _, [] => True
  | live, .allocate address :: rest => Clean (address :: live) rest
  | live, .access address :: rest => address ∈ live ∧ Clean live rest
  | live, .release address :: rest => address ∈ live ∧ Clean (live.erase address) rest

/-- The allocator hands out addresses that are not held. -/
def Fresh : List Address → List (MemoryEvent Address) → Prop
  | _, [] => True
  | live, .allocate address :: rest => address ∉ live ∧ Fresh (address :: live) rest
  | live, .access _ :: rest => Fresh live rest
  | live, .release address :: rest => Fresh (live.erase address) rest

variable {live other : List Address} {first second events : List (MemoryEvent Address)}

instance cleanDecidable : ∀ (live : List Address) (events : List (MemoryEvent Address)),
    Decidable (Clean live events)
  | _, [] => isTrue trivial
  | live, .allocate address :: rest => cleanDecidable (address :: live) rest
  | live, .access _ :: rest =>
      have := cleanDecidable live rest
      inferInstanceAs (Decidable (_ ∧ _))
  | live, .release address :: rest =>
      have := cleanDecidable (live.erase address) rest
      inferInstanceAs (Decidable (_ ∧ _))

instance freshDecidable : ∀ (live : List Address) (events : List (MemoryEvent Address)),
    Decidable (Fresh live events)
  | _, [] => isTrue trivial
  | live, .allocate address :: rest =>
      have := freshDecidable (address :: live) rest
      inferInstanceAs (Decidable (_ ∧ _))
  | live, .access _ :: rest => freshDecidable live rest
  | live, .release address :: rest => freshDecidable (live.erase address) rest

@[simp] theorem settle_append (live : List Address) :
    settle live (first ++ second) = settle (settle live first) second := by
  induction first generalizing live with
  | nil => rfl
  | cons event rest inductionHypothesis => cases event <;> exact inductionHypothesis _

theorem clean_append (live : List Address) :
    Clean live (first ++ second) ↔ Clean live first ∧ Clean (settle live first) second := by
  induction first generalizing live with
  | nil => exact (iff_of_eq (true_and _)).symm
  | cons event rest inductionHypothesis =>
      cases event with
      | allocate address => exact inductionHypothesis _
      | access address =>
          exact (and_congr_right fun _ => inductionHypothesis _).trans and_assoc.symm
      | release address =>
          exact (and_congr_right fun _ => inductionHypothesis _).trans and_assoc.symm

theorem fresh_append (live : List Address) :
    Fresh live (first ++ second) ↔ Fresh live first ∧ Fresh (settle live first) second := by
  induction first generalizing live with
  | nil => exact (iff_of_eq (true_and _)).symm
  | cons event rest inductionHypothesis =>
      cases event with
      | allocate address =>
          exact (and_congr_right fun _ => inductionHypothesis _).trans and_assoc.symm
      | access address => exact inductionHypothesis _
      | release address => exact inductionHypothesis _

/-! ### Accesses -/

@[simp] theorem settle_accesses (live addresses : List Address) :
    settle live (addresses.map .access) = live := by
  induction addresses with
  | nil => rfl
  | cons address rest inductionHypothesis => exact inductionHypothesis

theorem clean_accesses {addresses : List Address} (held : ∀ address ∈ addresses, address ∈ live) :
    Clean live (addresses.map .access) := by
  induction addresses with
  | nil => trivial
  | cons address rest inductionHypothesis =>
      exact ⟨held address List.mem_cons_self,
        inductionHypothesis fun other member => held other (List.mem_cons_of_mem _ member)⟩

end Books

end NansOS.Foundation
