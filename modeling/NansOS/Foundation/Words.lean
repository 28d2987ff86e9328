import Mathlib.Data.Nat.Bitwise

/-! Owns masks of 64-bit words: a word split into the bits under a mask and the
bits above it, and the low twelve bits as the case where the mask is a page
offset. A word whose masked bits are clear, or-ed with a word inside the mask,
gives both parts back. -/

namespace NansOS.Foundation.Words

variable {word field mask bits : UInt64}

/-! ### Masks -/

theorem or_and_distrib (left right mask : UInt64) :
    (left ||| right) &&& mask = (left &&& mask) ||| (right &&& mask) := by
  apply UInt64.toBitVec_inj.mp
  ext position below
  simp [Bool.and_or_distrib_right]

/-- What a conjunction shows under a mask depends on what its parts show. -/
theorem and_congr_mask {left left' right right' : UInt64}
    (lefts : left &&& mask = left' &&& mask) (rights : right &&& mask = right' &&& mask) :
    (left &&& right) &&& mask = (left' &&& right') &&& mask := by
  calc (left &&& right) &&& mask
      = left &&& (right' &&& mask) := by rw [UInt64.and_assoc, rights]
    _ = right' &&& (left &&& mask) := by
        rw [← UInt64.and_assoc, UInt64.and_comm left, UInt64.and_assoc]
    _ = (left' &&& right') &&& mask := by
        rw [lefts, ← UInt64.and_assoc, UInt64.and_comm right']

/-- A single bit is clear or set. -/
theorem and_bit_cases {bit : UInt64} {position : Nat} (single : bit.toNat = 2 ^ position)
    (word : UInt64) : word &&& bit = 0 ∨ word &&& bit = bit := by
  have shown : (word &&& bit).toNat = (word.toNat.testBit position).toNat * 2 ^ position := by
    rw [UInt64.toNat_and, single, Nat.and_two_pow]
  cases set : word.toNat.testBit position with
  | false => exact .inl (UInt64.toNat_inj.mp (by simp [shown, set]))
  | true => exact .inr (UInt64.toNat_inj.mp (by simp [shown, set, single]))

theorem and_bit_eq_iff {bit left right : UInt64} {position : Nat}
    (single : bit.toNat = 2 ^ position) :
    left &&& bit = right &&& bit ↔ (left &&& bit ≠ 0 ↔ right &&& bit ≠ 0) := by
  have nonzero : bit ≠ 0 := fun zero => by
    rw [zero, UInt64.toNat_zero] at single
    exact absurd single.symm (Nat.two_pow_pos position).ne'
  rcases and_bit_cases single left with first | first <;>
    rcases and_bit_cases single right with second | second <;>
      simp [first, second, nonzero, nonzero.symm]

/-- A bit is set in a conjunction when it is set in both parts. -/
theorem and_and_bit {bit left right : UInt64} {position : Nat}
    (single : bit.toNat = 2 ^ position) :
    (left &&& right) &&& bit ≠ 0 ↔ left &&& bit ≠ 0 ∧ right &&& bit ≠ 0 := by
  rw [UInt64.and_assoc]
  rcases and_bit_cases single right with second | second
  · simp [second]
  · rw [second]
    have nonzero : bit ≠ 0 := fun zero => by
      rw [zero, UInt64.toNat_zero] at single
      exact absurd single.symm (Nat.two_pow_pos position).ne'
    simp [nonzero]

/-- Clear under a mask, hence under every part of it. -/
theorem and_eq_zero_of_mask (clear : word &&& mask = 0) (part : mask &&& bits = bits) :
    word &&& bits = 0 := by
  rw [← part, ← UInt64.and_assoc, clear, UInt64.zero_and]

theorem and_not_eq_self (clear : word &&& mask = 0) : word &&& ~~~mask = word := by
  have split : word = (word &&& mask) ||| (word &&& ~~~mask) := by
    apply UInt64.toBitVec_inj.mp
    ext position below
    simp [← Bool.and_or_distrib_left]
  rw [clear, UInt64.zero_or] at split
  exact split.symm

theorem and_not_eq_zero (inside : word &&& mask = word) : word &&& ~~~mask = 0 := by
  rw [← inside, UInt64.and_assoc, UInt64.and_not_self, UInt64.and_zero]

/-- The part above the mask survives or-ing a field into it. -/
theorem or_and_not (clear : word &&& mask = 0) (inside : field &&& mask = field) :
    (word ||| field) &&& ~~~mask = word := by
  rw [or_and_distrib, and_not_eq_self clear, and_not_eq_zero inside, UInt64.or_zero]

/-- Bits under the mask come from the field. -/
theorem or_and_of_clear (clear : word &&& mask = 0) (part : mask &&& bits = bits) :
    (word ||| field) &&& bits = field &&& bits := by
  rw [or_and_distrib, and_eq_zero_of_mask clear part, UInt64.zero_or]

/-! ### Low bits -/

theorem and_mask_toNat (width : Nat) (shape : mask.toNat = 2 ^ width - 1) :
    (word &&& mask).toNat = word.toNat % 2 ^ width := by
  rw [UInt64.toNat_and, shape]
  exact Nat.and_two_pow_sub_one_eq_mod word.toNat width

theorem and_mask_eq_zero_iff (width : Nat) (shape : mask.toNat = 2 ^ width - 1) :
    word &&& mask = 0 ↔ word.toNat % 2 ^ width = 0 := by
  rw [← and_mask_toNat width shape, ← UInt64.toNat_inj, UInt64.toNat_zero]

theorem and_low_toNat (word : UInt64) : (word &&& 0xFFF).toNat = word.toNat % 4096 :=
  and_mask_toNat 12 rfl

theorem low_clear_iff : word &&& 0xFFF = 0 ↔ word.toNat % 4096 = 0 :=
  and_mask_eq_zero_iff 12 rfl

theorem low_inside (small : word.toNat < 4096) : word &&& 0xFFF = word := by
  apply UInt64.toNat_inj.mp
  rw [and_low_toNat, Nat.mod_eq_of_lt small]

theorem and_not_low_aligned (word : UInt64) : (word &&& ~~~0xFFF).toNat % 4096 = 0 := by
  rw [← low_clear_iff, UInt64.and_assoc, UInt64.not_and_self, UInt64.and_zero]

theorem shift_toNat {shift : UInt64} (small : shift.toNat < 64) :
    (word >>> shift).toNat = word.toNat / 2 ^ shift.toNat := by
  rw [UInt64.toNat_shiftRight, Nat.mod_eq_of_lt small, Nat.shiftRight_eq_div_pow]

/-- Nine bits of a word from `shift` on. -/
theorem nine_bits_toNat {shift : UInt64} (small : shift.toNat < 64) :
    ((word >>> shift) &&& 0x1FF).toNat = word.toNat / 2 ^ shift.toNat % 512 := by
  rw [← shift_toNat small]
  exact and_mask_toNat 9 rfl

/-- A mask that starts at bit `width`. -/
theorem and_shifted_mask (number width mask : Nat) :
    number &&& 2 ^ width * mask = 2 ^ width * (number / 2 ^ width &&& mask) := by
  have parts : 2 ^ width * (number / 2 ^ width) ||| number % 2 ^ width = number := by
    rw [← Nat.two_pow_add_eq_or_of_lt (Nat.mod_lt _ (Nat.two_pow_pos width))]
    exact Nat.div_add_mod number (2 ^ width)
  have high : 2 ^ width * (number / 2 ^ width) &&& 2 ^ width * mask =
      2 ^ width * (number / 2 ^ width &&& mask) := by
    rw [Nat.mul_comm, Nat.mul_comm (2 ^ width) mask, ← Nat.shiftLeft_eq, ← Nat.shiftLeft_eq,
      ← Nat.shiftLeft_and_distrib, Nat.shiftLeft_eq, Nat.mul_comm]
  have low : number % 2 ^ width &&& 2 ^ width * mask = 0 := by
    apply Nat.eq_of_testBit_eq
    intro position
    rw [Nat.testBit_and, Nat.testBit_mod_two_pow, Nat.testBit_two_pow_mul, Nat.zero_testBit]
    by_cases below : position < width
    · simp [Nat.not_le.mpr below]
    · simp [below]
  calc number &&& 2 ^ width * mask
      = (2 ^ width * (number / 2 ^ width) ||| number % 2 ^ width) &&& 2 ^ width * mask := by
        rw [parts]
    _ = 2 ^ width * (number / 2 ^ width &&& mask) := by
        rw [Nat.and_or_distrib_right, high, low, Nat.or_zero]

/-- The nine bits from bit 12 on, left in place. -/
theorem page_bits_toNat (word : UInt64) :
    (word &&& 0x1FF000).toNat = 4096 * (word.toNat / 4096 % 512) := by
  rw [UInt64.toNat_and, ← Nat.and_two_pow_sub_one_eq_mod (word.toNat / 4096) 9]
  exact and_shifted_mask word.toNat 12 511

/-- A word with its low three bits cleared. -/
theorem and_not_seven_toNat (word : UInt64) :
    (word &&& ~~~7).toNat = 8 * (word.toNat / 8) := by
  have bound := word.toNat_lt
  have whole : word.toNat / 8 &&& 2 ^ 61 - 1 = word.toNat / 8 := by
    rw [Nat.and_two_pow_sub_one_eq_mod]
    omega
  rw [UInt64.toNat_and, ← whole]
  exact and_shifted_mask word.toNat 3 (2 ^ 61 - 1)

end NansOS.Foundation.Words
