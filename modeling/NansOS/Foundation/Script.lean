import NansOS.Foundation.Run
import Mathlib.Data.List.Forall2

/-! Owns systems that wait for a script: a list of tests, of which the next one
selects the inputs the system reacts to and all other inputs are ignored. What
such a system has reacted to is the greedy match of the script in its input, and
the greedy match is complete exactly when the input contains any match. -/

namespace NansOS.Foundation

universe u v w

variable {Input : Type u} {State : Type v}

/-- The greedy match: for each test in turn, the first input accepted after the
one before. -/
def greedyMatch : List (Input → Bool) → List Input → List Input
  | [], _ => []
  | _, [] => []
  | test :: later, input :: rest =>
      if test input then input :: greedyMatch later rest else greedyMatch (test :: later) rest

/-- What comes after the greedy match, once it is complete. -/
def remaining : List (Input → Bool) → List Input → Option (List Input)
  | [], inputs => some inputs
  | _ :: _, [] => none
  | test :: later, input :: rest =>
      if test input then remaining later rest else remaining (test :: later) rest

/-- The list passes the script, test by test. -/
def Passes (script : List (Input → Bool)) (inputs : List Input) : Prop :=
  List.Forall₂ (fun test input => test input = true) script inputs

section Matches

variable {test : Input → Bool} {script : List (Input → Bool)} {input : Input}
variable {inputs : List Input}

@[simp] theorem greedyMatch_nil : greedyMatch [] inputs = [] := by
  cases inputs <;> rfl

@[simp] theorem greedyMatch_none (script : List (Input → Bool)) :
    greedyMatch script [] = [] := by
  cases script <;> rfl

theorem greedyMatch_accepts (accepts : test input = true) :
    greedyMatch (test :: script) (input :: inputs) = input :: greedyMatch script inputs := by
  rw [greedyMatch, if_pos accepts]

theorem greedyMatch_ignores (ignores : test input ≠ true) :
    greedyMatch (test :: script) (input :: inputs) = greedyMatch (test :: script) inputs := by
  rw [greedyMatch, if_neg ignores]

theorem greedyMatch_sublist (script : List (Input → Bool)) (inputs : List Input) :
    (greedyMatch script inputs).Sublist inputs := by
  induction inputs generalizing script with
  | nil => simp
  | cons input rest inductionHypothesis =>
      cases script with
      | nil => simp
      | cons test later =>
          by_cases accepts : test input = true
          · rw [greedyMatch_accepts accepts]
            exact (inductionHypothesis later).cons_cons input
          · rw [greedyMatch_ignores accepts]
            exact (inductionHypothesis (test :: later)).cons input

/-- The greedy match passes as much of the script as it has inputs for. -/
theorem greedyMatch_passes (script : List (Input → Bool)) (inputs : List Input) :
    Passes (script.take (greedyMatch script inputs).length) (greedyMatch script inputs) := by
  induction inputs generalizing script with
  | nil => simp [Passes]
  | cons input rest inductionHypothesis =>
      cases script with
      | nil => simp [Passes]
      | cons test later =>
          by_cases accepts : test input = true
          · rw [greedyMatch_accepts accepts, List.length_cons, List.take_succ_cons]
            exact List.Forall₂.cons accepts (inductionHypothesis later)
          · rw [greedyMatch_ignores accepts]
            exact inductionHypothesis (test :: later)

theorem greedyMatch_length_le (script : List (Input → Bool)) (inputs : List Input) :
    (greedyMatch script inputs).length ≤ script.length := by
  have lengths := (greedyMatch_passes script inputs).length_eq
  rw [List.length_take] at lengths
  omega

/-- Any match in the input leaves the greedy match complete. -/
theorem greedyMatch_length_of_passes {chosen : List Input} (passes : Passes script chosen)
    (inside : chosen.Sublist inputs) : (greedyMatch script inputs).length = script.length := by
  induction inputs generalizing script chosen with
  | nil =>
      rw [List.sublist_nil.mp inside] at passes
      rw [List.forall₂_nil_right_iff.mp passes]
      rfl
  | cons input rest inductionHypothesis =>
      cases passes with
      | nil => simp
      | @cons test first later others accepts passes =>
          by_cases here : test input = true
          · -- Whether or not the match starts here, its tail lies further on.
            have onward : others.Sublist rest := by
              cases inside with
              | cons _ inside => exact (List.sublist_cons_self first others).trans inside
              | cons_cons _ inside => exact inside
            rw [greedyMatch_accepts here, List.length_cons, List.length_cons,
              inductionHypothesis passes onward]
          · rw [greedyMatch_ignores here]
            apply inductionHypothesis (List.Forall₂.cons accepts passes)
            cases inside with
            | cons _ inside => exact inside
            | cons_cons _ inside => exact absurd accepts here

/-- The greedy match is complete exactly when some match lies in the input. -/
theorem greedyMatch_complete_iff :
    (greedyMatch script inputs).length = script.length ↔
      ∃ chosen, chosen.Sublist inputs ∧ Passes script chosen := by
  constructor
  · intro complete
    have passes := greedyMatch_passes script inputs
    rw [complete, List.take_length] at passes
    exact ⟨_, greedyMatch_sublist script inputs, passes⟩
  · rintro ⟨chosen, inside, passes⟩
    exact greedyMatch_length_of_passes passes inside

end Matches

/-! ### Systems that follow a script -/

/-- In a state that waits for a script, the system ignores what the next test
rejects, moves on with what it accepts, and ends up ignoring everything. -/
structure Follows (step : State → Input → State)
    (waits : List (Input → Bool) → State → Prop) : Prop where
  ignores : ∀ {test later state input}, waits (test :: later) state → test input ≠ true →
    step state input = state
  advances : ∀ {test later state input}, waits (test :: later) state → test input = true →
    waits later (step state input)
  rests : ∀ {state} input, waits [] state → step state input = state

section Runs

variable {step : State → Input → State} {waits : List (Input → Bool) → State → Prop}
variable {script : List (Input → Bool)} {state : State}

/-- Everything that happens is due to the greedy match. -/
theorem Follows.run_eq (follows : Follows step waits) (waiting : waits script state)
    (inputs : List Input) :
    run step state inputs = run step state (greedyMatch script inputs) ∧
      waits (script.drop (greedyMatch script inputs).length) (run step state inputs) := by
  induction inputs generalizing script state with
  | nil => simpa using waiting
  | cons input rest inductionHypothesis =>
      cases script with
      | nil =>
          have later := inductionHypothesis waiting
          simp only [greedyMatch_nil] at later ⊢
          rw [run_cons, follows.rests input waiting]
          exact later
      | cons test later =>
          by_cases accepts : test input = true
          · rw [greedyMatch_accepts accepts, run_cons, run_cons, List.length_cons,
              List.drop_succ_cons]
            exact inductionHypothesis (follows.advances waiting accepts)
          · rw [greedyMatch_ignores accepts, run_cons, follows.ignores waiting accepts]
            exact inductionHypothesis waiting

/-- The script is done with exactly when the greedy match is complete. -/
theorem greedyMatch_drop_isEmpty (script : List (Input → Bool)) (inputs : List Input) :
    (script.drop (greedyMatch script inputs).length).isEmpty = true ↔
      (greedyMatch script inputs).length = script.length := by
  have short := greedyMatch_length_le script inputs
  rw [List.isEmpty_iff, List.drop_eq_nil_iff]
  omega

theorem Follows.run_rests (follows : Follows step waits) (waiting : waits [] state)
    (inputs : List Input) : run step state inputs = state := by
  rw [(follows.run_eq waiting inputs).1, greedyMatch_nil, run_nil]

end Runs

/-! ### Handing over -/

/-- A system that is done at some point, and another one that begins then and gets
all further inputs. -/
def handOver {Other : Type w} (step : State → Input → State) (done : State → Bool)
    (start : Other → Other) (react : Other → Input → Other) (both : State × Other) (input : Input) :
    State × Other :=
  if done both.1 = true then (both.1, react both.2 input)
  else (step both.1 input, if done (step both.1 input) = true then start both.2 else both.2)

section HandOver

variable {Other : Type w} {step : State → Input → State} {done : State → Bool}
variable {start : Other → Other} {react : Other → Input → Other}
variable {waits : List (Input → Bool) → State → Prop} {script : List (Input → Bool)}
variable {state : State}

/-- After the first system is done it rests, and the second one gets every input. -/
theorem run_handOver_done (finished : done state = true) (other : Other) (inputs : List Input) :
    run (handOver step done start react) (state, other) inputs =
      (state, run react other inputs) := by
  induction inputs generalizing other with
  | nil => rfl
  | cons input rest inductionHypothesis =>
      rw [run_cons, handOver, if_pos finished, inductionHypothesis, run_cons]

/-- A system that follows a script hands over what remains behind the greedy match. -/
theorem Follows.run_handOver (follows : Follows step waits)
    (done_iff : ∀ {script state}, waits script state → done state = script.isEmpty)
    {test : Input → Bool} (waiting : waits (test :: script) state) (other : Other)
    (inputs : List Input) :
    run (handOver step done start react) (state, other) inputs =
      (run step state inputs,
        (remaining (test :: script) inputs).elim other fun rest =>
          run react (start other) rest) := by
  induction inputs generalizing test script state with
  | nil => rfl
  | cons input rest inductionHypothesis =>
      have unfinished : ¬ done state = true := by
        rw [done_iff waiting]
        exact nofun
      rw [run_cons, run_cons, handOver, if_neg unfinished, remaining]
      dsimp only
      by_cases accepts : test input = true
      · have next := follows.advances waiting accepts
        rw [if_pos accepts]
        cases script with
        | nil =>
            have finished : done (step state input) = true := done_iff next
            rw [if_pos finished, run_handOver_done finished, follows.run_rests next, remaining,
              Option.elim_some]
        | cons following later =>
            have unfinished : ¬ done (step state input) = true := by
              rw [done_iff next]
              exact nofun
            rw [if_neg unfinished]
            exact inductionHypothesis next
      · have same := follows.ignores waiting accepts
        rw [if_neg accepts, same, if_neg unfinished]
        exact inductionHypothesis waiting

end HandOver

end NansOS.Foundation
