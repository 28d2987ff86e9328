import Mathlib.Data.List.Infix

/-! Owns runs of a deterministic system: a total step function applied to a
list of actions, a condition checked before every step, and a property of
every state passed through. The invariant rule and the exactness rule below
are the only inductions over runs that a client of this module needs. -/

namespace NansOS.Foundation

universe u v

variable {State : Type u} {Action : Type v}

/-- The state after a list of actions. -/
def run (step : State → Action → State) (state : State) (actions : List Action) : State :=
  actions.foldl step state

/-- `condition` holds of every action and of the state it is taken in. -/
def Along (step : State → Action → State) (condition : State → Action → Prop) :
    State → List Action → Prop
  | _, [] => True
  | state, action :: rest =>
      condition state action ∧ Along step condition (step state action) rest

/-- `property` holds of every state the run passes through, both ends included. -/
def Throughout (step : State → Action → State) (property : State → Prop) :
    State → List Action → Prop
  | state, [] => property state
  | state, action :: rest =>
      property state ∧ Throughout step property (step state action) rest

section Rules

variable {step : State → Action → State}

instance alongDecidable (condition : State → Action → Prop)
    [∀ state action, Decidable (condition state action)] :
    ∀ (state : State) (actions : List Action), Decidable (Along step condition state actions)
  | _, [] => isTrue True.intro
  | state, action :: rest =>
      have := alongDecidable condition (step state action) rest
      inferInstanceAs (Decidable (_ ∧ _))

@[simp] theorem run_nil (state : State) : run step state [] = state := rfl

@[simp] theorem run_cons (state : State) (action : Action) (rest : List Action) :
    run step state (action :: rest) = run step (step state action) rest := rfl

theorem run_append (state : State) (first second : List Action) :
    run step state (first ++ second) = run step (run step state first) second :=
  List.foldl_append

/-- Actions that do nothing can be left out of a run. -/
theorem run_filter (selects : Action → Bool)
    (ignored : ∀ state action, selects action = false → step state action = state)
    (state : State) (actions : List Action) :
    run step state (actions.filter selects) = run step state actions := by
  induction actions generalizing state with
  | nil => rfl
  | cons action rest inductionHypothesis =>
      cases selected : selects action with
      | true => rw [List.filter_cons_of_pos selected, run_cons, run_cons, inductionHypothesis]
      | false =>
          rw [List.filter_cons_of_neg (by simp [selected]), run_cons, ignored state action selected,
            inductionHypothesis]

theorem along_append {condition : State → Action → Prop} {state : State}
    {first second : List Action} :
    Along step condition state (first ++ second) ↔
      Along step condition state first ∧
        Along step condition (run step state first) second := by
  induction first generalizing state with
  | nil => simp [Along]
  | cons action rest inductionHypothesis =>
      simp only [List.cons_append, Along, run_cons, inductionHypothesis, and_assoc]

theorem Along.imp {condition weaker : State → Action → Prop}
    (implies : ∀ state action, condition state action → weaker state action)
    {state : State} {actions : List Action} (holds : Along step condition state actions) :
    Along step weaker state actions := by
  induction actions generalizing state with
  | nil => trivial
  | cons action rest inductionHypothesis =>
      exact ⟨implies state action holds.1, inductionHypothesis holds.2⟩

theorem Along.and {first second : State → Action → Prop} {state : State}
    {actions : List Action} (left : Along step first state actions)
    (right : Along step second state actions) :
    Along step (fun state action => first state action ∧ second state action)
      state actions := by
  induction actions generalizing state with
  | nil => trivial
  | cons action rest inductionHypothesis =>
      exact ⟨⟨left.1, right.1⟩, inductionHypothesis left.2 right.2⟩

/-- A condition on actions alone holds along a run of such actions. -/
theorem along_of_forall {condition : Action → Prop} {state : State} {actions : List Action}
    (every : ∀ action ∈ actions, condition action) :
    Along step (fun _ action => condition action) state actions := by
  induction actions generalizing state with
  | nil => trivial
  | cons action rest inductionHypothesis =>
      exact ⟨every action (by simp),
        inductionHypothesis fun other member => every other (by simp [member])⟩

/-- The invariant rule: what every admitted step preserves holds at the end
of every admitted run. -/
theorem run_invariant (condition : State → Action → Prop) (invariant : State → Prop)
    (preserved : ∀ state action, invariant state → condition state action →
      invariant (step state action))
    {state : State} {actions : List Action} (initial : invariant state)
    (admitted : Along step condition state actions) :
    invariant (run step state actions) := by
  induction actions generalizing state with
  | nil => exact initial
  | cons action rest inductionHypothesis =>
      exact inductionHypothesis (preserved state action initial admitted.1) admitted.2

/-- What holds of every admitted step from an invariant state holds along
every admitted run. -/
theorem along_of_invariant {condition conclusion : State → Action → Prop}
    {invariant : State → Prop}
    (preserved : ∀ state action, invariant state → condition state action →
      invariant (step state action))
    (concludes : ∀ state action, invariant state → condition state action →
      conclusion state action)
    {state : State} {actions : List Action} (initial : invariant state)
    (admitted : Along step condition state actions) :
    Along step conclusion state actions := by
  induction actions generalizing state with
  | nil => trivial
  | cons action rest inductionHypothesis =>
      exact ⟨concludes state action initial admitted.1,
        inductionHypothesis (preserved state action initial admitted.1) admitted.2⟩

/-- The exactness rule. If an admitted step from an invariant state is good
exactly when `exactly` holds before it, and such steps keep the invariant, then
an admitted run consists of good steps exactly when `exactly` holds at every
step. -/
theorem along_iff (invariant : State → Prop) (admits : State → Action → Prop)
    {good exactly : State → Action → Prop}
    (preserved : ∀ state action, invariant state → admits state action →
      exactly state action → invariant (step state action))
    (stepwise : ∀ state action, invariant state → admits state action →
      (good state action ↔ exactly state action))
    {state : State} {actions : List Action} (initial : invariant state)
    (admitted : Along step admits state actions) :
    Along step good state actions ↔ Along step exactly state actions := by
  induction actions generalizing state with
  | nil => exact Iff.rfl
  | cons action rest inductionHypothesis =>
      have once := stepwise state action initial admitted.1
      constructor
      · rintro ⟨here, later⟩
        have kept := preserved state action initial admitted.1 (once.mp here)
        exact ⟨once.mp here, (inductionHypothesis kept admitted.2).mp later⟩
      · rintro ⟨here, later⟩
        have kept := preserved state action initial admitted.1 here
        exact ⟨once.mpr here, (inductionHypothesis kept admitted.2).mpr later⟩

theorem throughout_iff_leading {property : State → Prop} {state : State}
    {actions : List Action} :
    Throughout step property state actions ↔
      ∀ first, first <+: actions → property (run step state first) := by
  induction actions generalizing state with
  | nil => simp [Throughout]
  | cons action rest inductionHypothesis =>
      constructor
      · rintro ⟨here, later⟩ first leading
        cases first with
        | nil => exact here
        | cons head tail =>
            obtain ⟨rfl, shorter⟩ := List.cons_prefix_cons.mp leading
            exact inductionHypothesis.mp later tail shorter
      · intro every
        refine ⟨every [] List.nil_prefix, inductionHypothesis.mpr fun first leading => ?_⟩
        exact every (action :: first) (List.cons_prefix_cons.mpr ⟨rfl, leading⟩)

/-- A property holds throughout a run when it holds at the start and after
every step. -/
theorem throughout_iff {property : State → Prop} {state : State} {actions : List Action} :
    Throughout step property state actions ↔
      property state ∧
        Along step (fun state action => property (step state action)) state actions := by
  induction actions generalizing state with
  | nil => simp [Throughout, Along]
  | cons action rest inductionHypothesis =>
      simp only [Throughout, Along, inductionHypothesis]

theorem along_and_iff {first second : State → Action → Prop} {state : State}
    {actions : List Action} :
    Along step (fun state action => first state action ∧ second state action) state actions ↔
      Along step first state actions ∧ Along step second state actions := by
  constructor
  · intro both
    exact ⟨both.imp fun _ _ pair => pair.1, both.imp fun _ _ pair => pair.2⟩
  · rintro ⟨left, right⟩
    exact left.and right

end Rules

end NansOS.Foundation
