import Mathlib.Data.Vector.Defs

/-! Owns fixed arrays filled from the front and emptied from the back, with the
index of the first cell that is not in use. Such an array is a stack of bounded
height: a list that grows and shrinks at its end. It owns no program. -/

namespace NansOS.Foundation

universe u

/-- An array and the number of its cells in use. -/
structure Scratch (Value : Type u) (capacity : Nat) where
  cells : Vector Value capacity
  used : Nat
  inside : used ≤ capacity

namespace Scratch

variable {Value : Type u} {capacity : Nat} (scratch : Scratch Value capacity)

/-- Store behind the cells in use. -/
def push (value : Value) (room : scratch.used < capacity) : Scratch Value capacity where
  cells := scratch.cells.set scratch.used value
  used := scratch.used + 1
  inside := room

/-- The last cell in use. -/
def top (some : 0 < scratch.used) : Value :=
  scratch.cells.get
    ⟨scratch.used - 1, Nat.lt_of_lt_of_le (Nat.sub_one_lt_of_lt some) scratch.inside⟩

/-- Give up the last cell in use. -/
def pop : Scratch Value capacity where
  cells := scratch.cells
  used := scratch.used - 1
  inside := Nat.le_trans (Nat.sub_le _ _) scratch.inside

/-- The values in use, in the order in which they were stored. -/
def values : List Value := scratch.cells.toList.take scratch.used

theorem values_length : scratch.values.length = scratch.used := by
  rw [values, List.length_take, Vector.length_toList]
  exact Nat.min_eq_left scratch.inside

theorem values_push (value : Value) (room : scratch.used < capacity) :
    (scratch.push value room).values = scratch.values ++ [value] := by
  have below : scratch.used < (scratch.cells.toList.set scratch.used value).length := by
    rw [List.length_set, Vector.length_toList]
    exact room
  rw [values, push, Vector.toList_set, List.take_add_one, List.getElem?_eq_getElem below,
    List.getElem_set_self, List.take_set_of_le (Nat.le_refl _)]
  rfl

theorem values_pop (some : 0 < scratch.used) :
    scratch.pop.values ++ [scratch.top some] = scratch.values := by
  have inside := scratch.inside
  have below : scratch.used - 1 < scratch.cells.toList.length := by
    rw [Vector.length_toList]
    omega
  have whole := List.take_append_getElem below
  rw [Nat.sub_add_cancel some] at whole
  exact whole

end Scratch

end NansOS.Foundation
