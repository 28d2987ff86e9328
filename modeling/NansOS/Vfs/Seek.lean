import NansOS.Vfs.Table

/-! Owns the arithmetic of `vfs_seek`. The two sums wrap around 2^64; below 2^63
both for the word that is added to and for the size, a sum that wraps reads as a
negative target and is rejected, so that the offset is the sum of the integers or
stays as it is. -/

namespace NansOS.Vfs

open NansOS.Foundation
open NansOS.Kernel

variable {Node σ : Type} {environment : Drivers Node σ} {vfs : State Node σ}

/-- The target of a seek in unbounded integers. -/
def seekGoal (current size : UInt64) (offset : Int64) (whence : Int) : Option Int :=
  if whence = seekSet then some offset.toInt
  else if whence = seekCur then some (current.toNat + offset.toInt)
  else if whence = seekEnd then some (size.toNat + offset.toInt)
  else none

/-- A target that stands for an integer in the range of a word plus an offset. -/
structure Stands (target : Int64) (exact : Int) : Prop where
  value : target.toInt = exact.bmod (2 ^ 64)
  low : -2 ^ 63 ≤ exact
  high : exact < 2 ^ 64

theorem Stands.of_offset (offset : Int64) : Stands offset offset.toInt := by
  have low := offset.le_toInt
  have high := offset.toInt_lt
  refine ⟨?_, low, by omega⟩
  rw [Int.bmod_def]
  omega

theorem Stands.of_sum {base : UInt64} (small : base.toNat < 2 ^ 63) (offset : Int64) :
    Stands (base.toInt64 + offset) (base.toNat + offset.toInt) := by
  have low := offset.le_toInt
  have high := offset.toInt_lt
  refine ⟨?_, by omega, by omega⟩
  rw [Int64.toInt_add, toInt_toInt64 small]

/-- The check of `vfs_seek` passes exactly the targets within the file, none of
which has wrapped. -/
theorem Stands.rejected_iff {target : Int64} {exact : Int} (stands : Stands target exact)
    {size : UInt64} (small : size.toNat < 2 ^ 63) :
    (target < 0 ∨ target.toUInt64 > size) ↔ ¬ (0 ≤ exact ∧ exact ≤ size.toNat) := by
  obtain ⟨value, low, high⟩ := stands
  rw [Int.bmod_def] at value
  have word := congrArg UInt64.toNat (ofInt_toInt target)
  rw [UInt64.ofInt, UInt64.toNat_ofNat'] at word
  rw [Int64.lt_iff_toInt_lt, Int64.toInt_zero, gt_iff_lt, UInt64.lt_iff_toNat_lt, ← word]
  omega

theorem Stands.toInt_eq {target : Int64} {exact : Int} (stands : Stands target exact)
    (nonnegative : 0 ≤ exact) (below : exact < 2 ^ 63) : target.toInt = exact := by
  rw [stands.value, Int.bmod_def]
  omega

theorem seekTarget_stands {current size : UInt64} (currentSmall : current.toNat < 2 ^ 63)
    (sizeSmall : size.toNat < 2 ^ 63) (offset : Int64) (whence : Int) :
    seekTarget current size offset whence = none ∧ seekGoal current size offset whence = none ∨
      ∃ target exact, seekTarget current size offset whence = some target ∧
        seekGoal current size offset whence = some exact ∧ Stands target exact := by
  unfold seekTarget seekGoal
  by_cases set : whence = seekSet
  · rw [if_pos set, if_pos set]
    exact .inr ⟨_, _, rfl, rfl, Stands.of_offset offset⟩
  by_cases cur : whence = seekCur
  · rw [if_neg set, if_neg set, if_pos cur, if_pos cur]
    exact .inr ⟨_, _, rfl, rfl, Stands.of_sum currentSmall offset⟩
  by_cases last : whence = seekEnd
  · rw [if_neg set, if_neg set, if_neg cur, if_neg cur, if_pos last, if_pos last]
    exact .inr ⟨_, _, rfl, rfl, Stands.of_sum sizeSmall offset⟩
  · rw [if_neg set, if_neg set, if_neg cur, if_neg cur, if_neg last, if_neg last]
    exact .inl ⟨rfl, rfl⟩

variable (environment) in
/-- Below 2^63, a seek on an open descriptor sets the offset to the target and
returns it if the target lies within the file, and otherwise returns -1 and
changes nothing. -/
theorem vfsSeek_exact {fd : Int} {index : Fin maxFd} {node : Node}
    (opened : vfs.openSlot fd = some (index, node))
    (currentSmall : (vfs.fdTable index).offset.toNat < 2 ^ 63)
    (sizeSmall : (environment.node vfs.drivers node).size.toNat < 2 ^ 63) (offset : Int64)
    (whence : Int) :
    vfsSeek environment vfs fd offset whence =
      match seekGoal (vfs.fdTable index).offset (environment.node vfs.drivers node).size offset
        whence with
      | none => (-1, vfs)
      | some target =>
          if 0 ≤ target ∧ target ≤ (environment.node vfs.drivers node).size.toNat then
            (target, vfs.setFd index { vfs.fdTable index with offset := UInt64.ofInt target })
          else (-1, vfs) := by
  simp only [vfsSeek, opened]
  rcases seekTarget_stands currentSmall sizeSmall offset whence with
    ⟨first, second⟩ | ⟨target, exact, first, second, stands⟩
  · rw [first, second]
  · rw [first, second]
    have rejected := stands.rejected_iff sizeSmall
    by_cases inside : 0 ≤ exact ∧ exact ≤ (environment.node vfs.drivers node).size.toNat
    · have same : target.toInt = exact := stands.toInt_eq inside.1 (by omega)
      subst same
      simp only [if_neg (fun out => rejected.mp out inside), if_pos inside, ofInt_toInt]
    · simp only [if_pos (rejected.mpr inside), if_neg inside]

/-- One file of ten bytes, without hooks. -/
def tenBytes : Drivers Unit Unit where
  lookup := fun drivers _ => (some (), drivers)
  node := fun _ _ => ⟨CString.empty, 0, 0, 0, 0, 10, 0, 0, 0, 0⟩
  operations := fun _ _ => none

/-- Descriptor 0, open at offset 3. -/
def atThree : State Unit Unit :=
  (vfsInit ()).setFd 0 { node := some (), offset := 3, flags := 0, refcount := 1 }

theorem tenBytes_seek_back :
    vfsSeek tenBytes atThree 0 (-1) seekCur =
      (2, atThree.setFd 0 { node := some (), offset := 2, flags := 0, refcount := 1 }) := by
  have opened : atThree.openSlot 0 = some (0, ()) := by decide
  have entry : atThree.fdTable 0 = { node := some (), offset := 3, flags := 0, refcount := 1 } := by
    decide
  rw [vfsSeek_exact tenBytes opened (by decide) (by decide), entry]
  rfl

end NansOS.Vfs
