import Mathlib.Data.List.Infix

/-! Owns bounded polling of a stream of values: what one poll looks at before it
sees a ready value or reaches its limit, where it leaves the stream, and a number
of polls of one stream in a row. -/

namespace NansOS.Foundation

universe u

variable {Value : Type u}

/-- The stream behind its first `count` values. -/
def advance (stream : Nat → Value) (count : Nat) : Nat → Value :=
  fun index => stream (count + index)

@[simp] theorem advance_zero (stream : Nat → Value) : advance stream 0 = stream := by
  funext index
  rw [advance, Nat.zero_add]

theorem advance_advance (stream : Nat → Value) (first second : Nat) :
    advance (advance stream first) second = advance stream (first + second) := by
  funext index
  rw [advance, advance, advance, Nat.add_assoc]

variable (ready : Value → Bool)

/-- The values that a poll looks at: up to the first ready one, and at most `limit`. -/
def polled : Nat → (Nat → Value) → List Value
  | 0, _ => []
  | limit + 1, stream =>
      stream 0 :: if ready (stream 0) then [] else polled limit (advance stream 1)

/-- The poll sees a ready value. -/
def InTime (limit : Nat) (stream : Nat → Value) : Prop :=
  ∃ value ∈ polled ready limit stream, ready value

instance (limit : Nat) (stream : Nat → Value) : Decidable (InTime ready limit stream) :=
  List.decidableBEx _ _

/-- The stream behind a poll. -/
def behind (limit : Nat) (stream : Nat → Value) : Nat → Value :=
  advance stream (polled ready limit stream).length

/-- What `count` polls in a row look at, and the stream behind them; `none` if
one of them sees no ready value. -/
def polls (limit : Nat) : Nat → (Nat → Value) → Option (List (List Value) × (Nat → Value))
  | 0, stream => some ([], stream)
  | count + 1, stream =>
      if InTime ready limit stream then
        (polls limit count (behind ready limit stream)).map fun later =>
          (polled ready limit stream :: later.1, later.2)
      else none

variable {ready} {limit : Nat} {stream : Nat → Value}

theorem polled_of_ready (holds : ready (stream 0)) :
    polled ready (limit + 1) stream = [stream 0] := by
  rw [polled, if_pos holds]

theorem polled_of_not_ready (fails : ¬ ready (stream 0)) :
    polled ready (limit + 1) stream = stream 0 :: polled ready limit (advance stream 1) := by
  rw [polled, if_neg fails]

theorem inTime_of_ready (holds : ready (stream 0)) : InTime ready (limit + 1) stream :=
  ⟨stream 0, by simp [polled], holds⟩

theorem inTime_of_not_ready (fails : ¬ ready (stream 0)) :
    InTime ready (limit + 1) stream ↔ InTime ready limit (advance stream 1) := by
  simp [InTime, polled_of_not_ready fails, fails]

theorem behind_of_ready (holds : ready (stream 0)) :
    behind ready (limit + 1) stream = advance stream 1 := by
  rw [behind, polled_of_ready holds]
  rfl

theorem behind_of_not_ready (fails : ¬ ready (stream 0)) :
    behind ready (limit + 1) stream = behind ready limit (advance stream 1) := by
  rw [behind, polled_of_not_ready fails, behind, advance_advance, List.length_cons, Nat.add_comm]

theorem polls_succ (inTime : InTime ready limit stream) (count : Nat) :
    polls ready limit (count + 1) stream =
      (polls ready limit count (behind ready limit stream)).map fun later =>
        (polled ready limit stream :: later.1, later.2) :=
  if_pos inTime

theorem polls_late (late : ¬ InTime ready limit stream) (count : Nat) :
    polls ready limit (count + 1) stream = none :=
  if_neg late

/-- Each of the polls has its part of the values. -/
theorem length_of_polls {count : Nat} {pieces : List (List Value)} {rest : Nat → Value}
    (inTime : polls ready limit count stream = some (pieces, rest)) : pieces.length = count := by
  induction count generalizing stream pieces with
  | zero =>
      cases inTime
      rfl
  | succ count inductionHypothesis =>
      by_cases once : InTime ready limit stream
      · rw [polls_succ once, Option.map_eq_some_iff] at inTime
        obtain ⟨⟨later, last⟩, found, same⟩ := inTime
        cases same
        rw [List.length_cons, inductionHypothesis found]
      · rw [polls_late once] at inTime
        cases inTime

end NansOS.Foundation
