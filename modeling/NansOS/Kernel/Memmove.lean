import NansOS.Foundation.Copies
import NansOS.Kernel.StringOps

/-! Owns `memmove` of `string.c`. Its two loops copy the same bytes in opposite
orders, and the comparison of the pointers picks the order in which no byte is
overwritten before it is read, whatever the distance of the ranges. -/

namespace NansOS.Kernel

open NansOS.Foundation

/-- The descending loop of `memmove`, with `i` iterations left. -/
def memmoveDown (memory : Memory) (dest src : Nat) : Nat → Memory
  | 0 => memory
  | i + 1 => memmoveDown (Function.update memory (dest + i) (memory (src + i))) dest src i

/-- `memmove`: the pointer it returns and the memory it leaves. The ascending
loop is written as that of `memcpy` is. -/
def memmove (memory : Memory) (dest src n : Nat) : Nat × Memory :=
  if dest < src then (dest, memcpy memory dest src n)
  else (dest, memmoveDown memory dest src n)

/-- Every byte of the destination holds what the source held before, and no
other byte has changed. -/
structure IsMoved (before after : Memory) (dest src n : Nat) : Prop where
  moved : ∀ i < n, after (dest + i) = before (src + i)
  kept : Set.EqOn after before (Set.Ico dest (dest + n))ᶜ

/-! ### Both loops as lists of copies -/

/-- The copy of the byte at an index. -/
def byteCopy (dest src i : Nat) : Copy Nat := ⟨dest + i, src + i⟩

/-- The copies of the ascending loop. -/
def upward (dest src n : Nat) : List (Copy Nat) := (List.range n).map (byteCopy dest src)

variable {memory : Memory} {dest src n : Nat}

theorem upward_succ (dest src n : Nat) :
    upward dest src (n + 1) = upward dest src n ++ [byteCopy dest src n] := by
  rw [upward, List.range_succ, List.map_append]
  rfl

theorem mem_upward {copy : Copy Nat} :
    copy ∈ upward dest src n ↔ ∃ i < n, byteCopy dest src i = copy := by
  simp only [upward, List.mem_map, List.mem_range]

theorem memcpy_eq_copied (memory : Memory) (dest src n : Nat) :
    memcpy memory dest src n = copied memory (upward dest src n) := by
  induction n with
  | zero => rfl
  | succ n inductionHypothesis =>
      rw [memcpy, inductionHypothesis, upward_succ, copied_append]
      rfl

theorem memmoveDown_eq_copied (memory : Memory) (dest src n : Nat) :
    memmoveDown memory dest src n = copied memory (upward dest src n).reverse := by
  induction n generalizing memory with
  | zero => rfl
  | succ n inductionHypothesis =>
      rw [memmoveDown, inductionHypothesis, upward_succ, List.reverse_append]
      rfl

/-! ### The order that each loop keeps -/

/-- Upwards an earlier copy has the lower index. -/
theorem pairwise_upward {relation : Copy Nat → Copy Nat → Prop}
    (every : ∀ later < n, ∀ earlier < later,
      relation (byteCopy dest src earlier) (byteCopy dest src later)) :
    (upward dest src n).Pairwise relation := by
  apply List.pairwise_map.mpr
  apply List.pairwise_iff_getElem.mpr
  intro earlier later _ below before
  simpa using every later (by simpa using below) earlier before

theorem upward_writesOnce : WritesOnce (upward dest src n) := by
  apply pairwise_upward
  intro later _ earlier before
  change dest + later ≠ dest + earlier
  omega

theorem downward_writesOnce : WritesOnce (upward dest src n).reverse := by
  apply List.pairwise_reverse.mpr
  exact upward_writesOnce.imp Ne.symm

/-- Towards a lower address, upwards: what is still to be read lies above what is
written. -/
theorem upward_readsFirst (down : dest ≤ src) : ReadsFirst (upward dest src n) := by
  apply pairwise_upward
  intro later _ earlier before
  change src + later ≠ dest + earlier
  omega

/-- Towards a higher address, downwards: it lies below. -/
theorem downward_readsFirst (up : src ≤ dest) : ReadsFirst (upward dest src n).reverse := by
  apply List.pairwise_reverse.mpr
  apply pairwise_upward
  intro earlier _ later after
  change src + later ≠ dest + earlier
  omega

/-- Copies of the bytes of a range, in an order that reads each before it is
written, move it. -/
theorem isMoved_of_order {copies : List (Copy Nat)} (same : ∀ copy, copy ∈ copies ↔
      copy ∈ upward dest src n)
    (readsFirst : ReadsFirst copies) (writesOnce : WritesOnce copies) :
    IsMoved memory (copied memory copies) dest src n where
  moved := by
    intro i below
    have member : byteCopy dest src i ∈ copies := (same _).mpr (mem_upward.mpr ⟨i, below, rfl⟩)
    exact copied_target readsFirst writesOnce member
  kept := by
    intro cell outside
    apply copied_kept
    intro copy member inside
    obtain ⟨i, below, rfl⟩ := mem_upward.mp ((same copy).mp member)
    have within : dest ≤ cell ∧ cell < dest + n := by
      rw [← inside]
      exact ⟨Nat.le_add_right dest i, Nat.add_lt_add_left below dest⟩
    exact outside within

/-- `memmove` moves every range, overlapping or not. -/
theorem memmove_isMoved (memory : Memory) (dest src n : Nat) :
    (memmove memory dest src n).1 = dest ∧
      IsMoved memory (memmove memory dest src n).2 dest src n := by
  unfold memmove
  split_ifs with down
  · refine ⟨rfl, ?_⟩
    rw [memcpy_eq_copied]
    exact isMoved_of_order (fun _ => Iff.rfl) (upward_readsFirst (by omega)) upward_writesOnce
  · refine ⟨rfl, ?_⟩
    rw [memmoveDown_eq_copied]
    exact isMoved_of_order (fun _ => List.mem_reverse) (downward_readsFirst (by omega))
      downward_writesOnce

/-- One byte up and one byte down, over an overlap. -/
example :
    let memory : Memory := fun address => UInt8.ofNat address
    (memmove memory 11 10 3).2.bytes 10 5 = [10, 10, 11, 12, 14] ∧
      (memmove memory 10 11 3).2.bytes 10 5 = [11, 12, 13, 13, 14] := by
  decide

end NansOS.Kernel
