import Mathlib.Data.Nat.Digits.Lemmas

/-! Owns the loop that finds the digits of a number from the lowest on: divide
by the base until nothing is left, and store a digit every time round, so that
zero has one digit too. The loop is bounded; a bound that the number fits in is
never reached, and then the digits are those of the number. -/

namespace NansOS.Foundation

/-- At most `limit` digits of `number`, the lowest first. -/
def digitLoop (base : Nat) : Nat → Nat → List Nat
  | 0, _ => []
  | limit + 1, number =>
      number % base :: if number / base = 0 then [] else digitLoop base limit (number / base)

variable {base limit number : Nat}

theorem digitLoop_small (below : number < base) : digitLoop base (limit + 1) number = [number] := by
  rw [digitLoop, Nat.div_eq_of_lt below, Nat.mod_eq_of_lt below, if_pos rfl]

theorem digitLoop_lt (positive : 0 < base) :
    ∀ digit ∈ digitLoop base limit number, digit < base := by
  induction limit generalizing number with
  | zero => exact nofun
  | succ limit inductionHypothesis =>
      intro digit member
      rw [digitLoop] at member
      by_cases last : number / base = 0
      · rw [if_pos last, List.mem_singleton] at member
        rw [member]
        exact Nat.mod_lt _ positive
      · rw [if_neg last, List.mem_cons] at member
        rcases member with rfl | later
        · exact Nat.mod_lt _ positive
        · exact inductionHypothesis digit later

/-- With a bound the number fits in, the loop finds its digits. -/
theorem digitLoop_eq_digits (large : 1 < base) (positive : 0 < number)
    (fits : number < base ^ limit) : digitLoop base limit number = Nat.digits base number := by
  induction limit generalizing number with
  | zero => simp only [Nat.pow_zero, Nat.lt_one_iff] at fits; omega
  | succ limit inductionHypothesis =>
      rw [digitLoop, Nat.digits_eq_cons_digits_div large (Nat.pos_iff_ne_zero.mp positive)]
      by_cases last : number / base = 0
      · rw [if_pos last, last, Nat.digits_zero]
      · have smaller : number / base < base ^ limit := by
          rw [Nat.div_lt_iff_lt_mul (by omega), ← Nat.pow_succ]
          exact fits
        rw [if_neg last, inductionHypothesis (Nat.pos_of_ne_zero last) smaller]

/-- Two bounds the number fits in give the same digits. -/
theorem digitLoop_limit {other : Nat} (large : 1 < base) (fits : number < base ^ (limit + 1))
    (otherFits : number < base ^ (other + 1)) :
    digitLoop base (limit + 1) number = digitLoop base (other + 1) number := by
  rcases Nat.eq_zero_or_pos number with rfl | positive
  · rw [digitLoop_small (by omega), digitLoop_small (by omega)]
  · rw [digitLoop_eq_digits large positive fits, digitLoop_eq_digits large positive otherFits]

/-! ### Numerals -/

/-- The digits of a number, the highest first, without leading zeros; zero has
one digit. -/
def numeral (base number : Nat) : List Nat :=
  if number = 0 then [0] else (Nat.digits base number).reverse

/-- The number that digits spell, the highest first. -/
def readNumeral (base : Nat) (digits : List Nat) : Nat :=
  digits.foldl (fun number digit => number * base + digit) 0

theorem numeral_ne_nil (base number : Nat) : numeral base number ≠ [] := by
  unfold numeral
  split_ifs with zero
  · exact List.cons_ne_nil _ _
  · rw [Ne, List.reverse_eq_nil_iff, Nat.digits_eq_nil_iff_eq_zero]
    exact zero

theorem numeral_lt (large : 1 < base) : ∀ digit ∈ numeral base number, digit < base := by
  intro digit member
  unfold numeral at member
  split_ifs at member with zero
  · rw [List.mem_singleton.mp member]
    omega
  · exact Nat.digits_lt_base large (List.mem_reverse.mp member)

theorem readNumeral_numeral (base number : Nat) :
    readNumeral base (numeral base number) = number := by
  unfold numeral readNumeral
  split_ifs with zero
  · simp [zero]
  · have horner : ∀ digits : List Nat,
        digits.foldr (fun digit number => number * base + digit) 0 = Nat.ofDigits base digits := by
      intro digits
      induction digits with
      | nil => rfl
      | cons digit rest inductionHypothesis =>
          rw [List.foldr_cons, inductionHypothesis, Nat.ofDigits_cons, Nat.mul_comm, Nat.add_comm]
    rw [List.foldl_reverse, horner, Nat.ofDigits_digits]

/-- A loop with a bound the number fits in finds its numeral, lowest digit first. -/
theorem digitLoop_reverse (large : 1 < base) (fits : number < base ^ (limit + 1)) :
    (digitLoop base (limit + 1) number).reverse = numeral base number := by
  unfold numeral
  split_ifs with zero
  · rw [zero, digitLoop_small (by omega)]
    rfl
  · rw [digitLoop_eq_digits large (Nat.pos_of_ne_zero zero) fits]

/-- A numeral has no leading zero. -/
theorem numeral_head? (positive : number ≠ 0) : (numeral base number).head? ≠ some 0 := by
  rw [numeral, if_neg positive, List.head?_reverse]
  have nonempty := Nat.digits_ne_nil_iff_ne_zero (b := base).mpr positive
  rw [List.getLast?_eq_some_getLast nonempty, Ne, Option.some.injEq]
  exact Nat.getLast_digit_ne_zero base positive

/-! ### Digits of a fixed width -/

/-- The lowest `count` digits of a number, the lowest first. -/
def lowDigits (base : Nat) : Nat → Nat → List Nat
  | 0, _ => []
  | count + 1, number => number % base :: lowDigits base count (number / base)

theorem lowDigits_length (base count number : Nat) :
    (lowDigits base count number).length = count := by
  induction count generalizing number with
  | zero => rfl
  | succ count inductionHypothesis => rw [lowDigits, List.length_cons, inductionHypothesis]

theorem lowDigits_zero (base count : Nat) : lowDigits base count 0 = List.replicate count 0 := by
  induction count with
  | zero => rfl
  | succ count inductionHypothesis =>
      rw [lowDigits, Nat.zero_mod, Nat.zero_div, inductionHypothesis, List.replicate_succ]

theorem lowDigits_lt (positive : 0 < base) {count : Nat} :
    ∀ digit ∈ lowDigits base count number, digit < base := by
  induction count generalizing number with
  | zero => exact nofun
  | succ count inductionHypothesis =>
      intro digit member
      rcases List.mem_cons.mp member with rfl | later
      · exact Nat.mod_lt _ positive
      · exact inductionHypothesis digit later

/-- Padding the digits of a number with zeros gives those of a fixed width. -/
theorem digitLoop_padded (large : 1 < base) {count : Nat} (enough : count ≤ limit)
    (fits : number < base ^ (count + 1)) :
    digitLoop base (limit + 1) number ++
        List.replicate (count + 1 - (digitLoop base (limit + 1) number).length) 0 =
      lowDigits base (count + 1) number := by
  induction count generalizing limit number with
  | zero =>
      rw [Nat.zero_add, Nat.pow_one] at fits
      rw [digitLoop_small fits, lowDigits, Nat.mod_eq_of_lt fits]
      rfl
  | succ count inductionHypothesis =>
      obtain ⟨limit, rfl⟩ := Nat.exists_eq_add_one.mpr (Nat.zero_lt_of_lt enough)
      rw [digitLoop, lowDigits]
      by_cases last : number / base = 0
      · rw [if_pos last, last, lowDigits_zero]
        rfl
      · have smaller : number / base < base ^ (count + 1) := by
          rw [Nat.div_lt_iff_lt_mul (by omega), ← Nat.pow_succ]
          exact fits
        rw [if_neg last, ← inductionHypothesis (Nat.le_of_succ_le_succ enough) smaller,
          List.length_cons, Nat.add_sub_add_right]
        rfl

/-- A number that fits in a width is spelled by its digits of that width. -/
theorem readNumeral_lowDigits {count : Nat} (fits : number < base ^ count) :
    readNumeral base (lowDigits base count number).reverse = number := by
  induction count generalizing number with
  | zero => exact (Nat.lt_one_iff.mp fits).symm
  | succ count inductionHypothesis =>
      have smaller : number / base < base ^ count := by
        apply Nat.div_lt_of_lt_mul
        rwa [Nat.mul_comm, ← Nat.pow_succ]
      have high := inductionHypothesis smaller
      rw [readNumeral] at high
      rw [readNumeral, lowDigits, List.reverse_cons, List.foldl_append, high]
      exact Nat.div_add_mod' number base

end NansOS.Foundation
