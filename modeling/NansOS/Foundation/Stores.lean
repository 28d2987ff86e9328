import NansOS.Foundation.Memory
import Mathlib.Data.List.Basic

/-! Owns logs of byte stores: addresses and bytes in the order in which they are
stored, the byte last stored at an address, the memory they leave, and the log of
a block stored from one address on. It owns no program. -/

namespace NansOS.Foundation

/-- A byte and the address it is stored at. -/
abbrev Store := Nat × UInt8

/-- The byte last stored at an address. -/
def lastAt (stores : List Store) (address : Nat) : Option UInt8 :=
  (stores.reverse.find? fun store => store.1 = address).map Prod.snd

/-- The memory behind a log of stores. -/
def applied (memory : Memory) (stores : List Store) : Memory := fun address =>
  (lastAt stores address).getD (memory address)

/-- The stores of a block of bytes, from an address on. -/
def placed (address : Nat) : List UInt8 → List Store
  | [] => []
  | byte :: rest => (address, byte) :: placed (address + 1) rest

variable {address target : Nat} {bytes : List UInt8}

@[simp] theorem placed_nil (address : Nat) : placed address [] = [] := rfl

theorem placed_append (address : Nat) (front back : List UInt8) :
    placed address (front ++ back) =
      placed address front ++ placed (address + front.length) back := by
  induction front generalizing address with
  | nil => rfl
  | cons byte rest inductionHypothesis =>
      rw [List.cons_append, placed, inductionHypothesis, List.length_cons, placed,
        List.cons_append, Nat.add_assoc, Nat.add_comm 1]

theorem placed_singleton (address : Nat) (byte : UInt8) :
    placed address [byte] = [(address, byte)] :=
  rfl

/-- The addresses of a block. -/
theorem forall_mem_placed (property : Nat → Prop) :
    (∀ store ∈ placed address bytes, property store.1) ↔
      ∀ index < bytes.length, property (address + index) := by
  induction bytes generalizing address with
  | nil => simp
  | cons byte rest inductionHypothesis =>
      rw [placed, List.forall_mem_cons, inductionHypothesis, List.length_cons]
      constructor
      · rintro ⟨first, later⟩ index below
        cases index with
        | zero => exact first
        | succ index =>
            have shifted := later index (by omega)
            rwa [Nat.add_assoc, Nat.add_comm 1] at shifted
      · intro every
        refine ⟨every 0 (by omega), fun index below => ?_⟩
        have shifted := every (index + 1) (by omega)
        rwa [Nat.add_comm index, ← Nat.add_assoc] at shifted

theorem lastAt_append (front back : List Store) (target : Nat) :
    lastAt (front ++ back) target = (lastAt back target).or (lastAt front target) := by
  unfold lastAt
  rw [List.reverse_append, List.find?_append, Option.map_or]

/-- What a block leaves at each address. -/
theorem lastAt_placed (address : Nat) (bytes : List UInt8) (target : Nat) :
    lastAt (placed address bytes) target =
      if address ≤ target then bytes[target - address]? else none := by
  induction bytes generalizing address with
  | nil => simp [lastAt]
  | cons byte rest inductionHypothesis =>
      have first : lastAt [(address, byte)] target =
          if address = target then some byte else none := by
        by_cases here : address = target <;> simp [lastAt, here]
      rw [placed, ← List.singleton_append, lastAt_append, inductionHypothesis, first]
      rcases Nat.lt_trichotomy target address with before | here | behind
      · rw [if_neg (by omega), if_neg (by omega), if_neg (by omega)]
        rfl
      · subst here
        rw [if_neg (by omega), if_pos rfl, if_pos (Nat.le_refl _), Nat.sub_self]
        rfl
      · have index : target - address = (target - (address + 1)) + 1 := by omega
        rw [if_pos (by omega), if_neg (by omega), if_pos (by omega), index,
          List.getElem?_cons_succ, Option.or_none]

/-! ### The memory behind a log -/

/-- A block stands where it was stored. -/
theorem applied_placed (memory : Memory) (address : Nat) {index : Nat}
    (below : index < bytes.length) :
    applied memory (placed address bytes) (address + index) = bytes[index] := by
  rw [applied, lastAt_placed, if_pos (Nat.le_add_right address index), Nat.add_sub_cancel_left,
    List.getElem?_eq_getElem below, Option.getD_some]

/-- A block changes nothing beside it. -/
theorem applied_placed_eqOn (memory : Memory) (address : Nat) (bytes : List UInt8) :
    Set.EqOn (applied memory (placed address bytes)) memory
      (Set.Ico address (address + bytes.length))ᶜ := by
  intro target outside
  have outside : ¬ (address ≤ target ∧ target < address + bytes.length) := outside
  rw [applied, lastAt_placed]
  split_ifs with behind
  · rw [List.getElem?_eq_none (by omega)]
    rfl
  · rfl

end NansOS.Foundation
