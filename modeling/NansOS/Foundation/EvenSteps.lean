import Mathlib.Tactic.Ring

/-! Owns an accumulator that spreads `minor` carries over `major` steps: a step
takes `minor` off what is left, and where less than that is left it carries,
adding `major` first. It owns no program. -/

namespace NansOS.Foundation.EvenSteps

variable (major minor : Nat)

/-- What is left behind one step. -/
def nextRest (rest : Nat) : Nat :=
  if rest < minor then rest + major - minor else rest - minor

/-- What is left after a number of steps. -/
def restAfter (start : Nat) : Nat → Nat
  | 0 => start
  | count + 1 => nextRest major minor (restAfter start count)

/-- How many of the first `count` steps carry. -/
def carriesAfter (start : Nat) : Nat → Nat
  | 0 => 0
  | count + 1 =>
      if restAfter major minor start count < minor then carriesAfter start count + 1
      else carriesAfter start count

variable {major minor start : Nat}

theorem nextRest_lt (minor : Nat) {rest : Nat} (below : rest < major) :
    nextRest major minor rest < major := by
  unfold nextRest
  split_ifs <;> omega

theorem restAfter_lt (minor : Nat) (below : start < major) (count : Nat) :
    restAfter major minor start count < major := by
  induction count with
  | zero => exact below
  | succ count inductionHypothesis => exact nextRest_lt minor inductionHypothesis

/-- What was taken off and what is left is what was there and what was added. -/
theorem restAfter_add (bound : minor ≤ major) (start count : Nat) :
    restAfter major minor start count + count * minor =
      start + carriesAfter major minor start count * major := by
  induction count with
  | zero => simp [restAfter, carriesAfter]
  | succ count inductionHypothesis =>
      simp only [restAfter, carriesAfter, nextRest, Nat.succ_mul]
      split_ifs with carry
      · rw [Nat.succ_mul]
        omega
      · omega

theorem carriesAfter_le_minor (bound : minor ≤ major) (below : start < major) {count : Nat}
    (within : count ≤ major) : carriesAfter major minor start count ≤ minor := by
  have balance := restAfter_add bound start count
  have rest := restAfter_lt minor below count
  have taken : count * minor ≤ major * minor := Nat.mul_le_mul_right minor within
  have product : carriesAfter major minor start count * major < (minor + 1) * major := by
    calc carriesAfter major minor start count * major
        ≤ restAfter major minor start count + count * minor := by omega
      _ < major + major * minor := by omega
      _ = (minor + 1) * major := by ring
  exact Nat.le_of_lt_succ (Nat.lt_of_mul_lt_mul_right product)

/-- After `major` steps every carry has happened. -/
theorem carriesAfter_major (bound : minor ≤ major) (below : start < major) :
    carriesAfter major minor start major = minor := by
  have atMost := carriesAfter_le_minor bound below le_rfl
  have balance := restAfter_add bound start major
  have product : minor * major < (carriesAfter major minor start major + 1) * major := by
    calc minor * major
        ≤ restAfter major minor start major + major * minor := by
          rw [Nat.mul_comm minor]
          omega
      _ = start + carriesAfter major minor start major * major := balance
      _ < major + carriesAfter major minor start major * major := by omega
      _ = (carriesAfter major minor start major + 1) * major := by ring
  have atLeast := Nat.le_of_lt_succ (Nat.lt_of_mul_lt_mul_right product)
  exact Nat.le_antisymm atMost atLeast

end NansOS.Foundation.EvenSteps
