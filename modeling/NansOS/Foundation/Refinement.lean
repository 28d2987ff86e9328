import NansOS.Foundation.Run

/-! Owns refinement of a specification by a deterministic system that replies to
every action. A specification is a relation: it may leave open which of several
replies comes. The simulation rule is the only induction over runs that connects
the two; what holds of every behaviour of the specification then holds of the
system's transcripts. -/

namespace NansOS.Foundation

universe u v w x

variable {State : Type u} {Action : Type v} {Reply : Type w} {Abstract : Type x}

/-- The actions of a run with the replies they get. -/
def transcript (step : State → Action → State) (reply : State → Action → Reply) :
    State → List Action → List (Action × Reply)
  | _, [] => []
  | state, action :: rest =>
      (action, reply state action) :: transcript step reply (step state action) rest

/-- The specification leads from one state to another through these actions and
replies. -/
inductive Allows (specification : Abstract → Action → Reply → Abstract → Prop) :
    Abstract → List (Action × Reply) → Abstract → Prop
  | nil (store : Abstract) : Allows specification store [] store
  | cons {first second last : Abstract} {action : Action} {reply : Reply}
      {rest : List (Action × Reply)} (here : specification first action reply second)
      (later : Allows specification second rest last) :
      Allows specification first ((action, reply) :: rest) last

section Rules

variable {step : State → Action → State} {reply : State → Action → Reply}
variable {specification : Abstract → Action → Reply → Abstract → Prop}

theorem transcript_append (state : State) (first second : List Action) :
    transcript step reply state (first ++ second) =
      transcript step reply state first ++ transcript step reply (run step state first) second := by
  induction first generalizing state with
  | nil => rfl
  | cons action rest inductionHypothesis =>
      rw [List.cons_append, transcript, inductionHypothesis, transcript, run_cons, List.cons_append]

/-- Every event of a transcript is an action of its run. -/
theorem mem_of_mem_transcript {state : State} {actions : List Action} {event : Action × Reply}
    (member : event ∈ transcript step reply state actions) : event.1 ∈ actions := by
  induction actions generalizing state with
  | nil => cases member
  | cons action rest inductionHypothesis =>
      rcases List.mem_cons.mp member with here | later
      · rw [here]
        exact List.mem_cons_self
      · exact List.mem_cons_of_mem _ (inductionHypothesis later)

/-- The simulation rule. If each admitted step from an invariant state is a step
of the specification between the abstractions, with the same reply, then the
transcript of each admitted run is one the specification allows. -/
theorem allows_of_simulation (abstraction : State → Abstract) (invariant : State → Prop)
    (admits : State → Action → Prop)
    (preserved : ∀ state action, invariant state → admits state action →
      invariant (step state action))
    (simulates : ∀ state action, invariant state → admits state action →
      specification (abstraction state) action (reply state action)
        (abstraction (step state action)))
    {state : State} {actions : List Action} (initial : invariant state)
    (admitted : Along step admits state actions) :
    Allows specification (abstraction state) (transcript step reply state actions)
      (abstraction (run step state actions)) := by
  induction actions generalizing state with
  | nil => exact .nil _
  | cons action rest inductionHypothesis =>
      have here := simulates state action initial admitted.1
      have kept := preserved state action initial admitted.1
      exact .cons here (inductionHypothesis kept admitted.2)

/-- The invariant rule of the specification: what each step with an admitted
event keeps holds at the end of a behaviour with admitted events. -/
theorem Allows.invariant {property : Abstract → Prop} {admits : Action × Reply → Prop}
    (kept : ∀ first action reply second, property first → admits (action, reply) →
      specification first action reply second → property second)
    {first last : Abstract} {events : List (Action × Reply)}
    (allowed : Allows specification first events last) (initial : property first)
    (admitted : ∀ event ∈ events, admits event) : property last := by
  induction allowed with
  | nil => exact initial
  | cons here later inductionHypothesis =>
      have second := kept _ _ _ _ initial (admitted _ List.mem_cons_self) here
      exact inductionHypothesis second fun event member =>
        admitted event (List.mem_cons_of_mem _ member)

/-- A behaviour splits where its events do. -/
theorem Allows.split {first last : Abstract} {events more : List (Action × Reply)}
    (allowed : Allows specification first (events ++ more) last) :
    ∃ middle, Allows specification first events middle ∧
      Allows specification middle more last := by
  induction events generalizing first with
  | nil => exact ⟨first, .nil first, allowed⟩
  | cons event rest inductionHypothesis =>
      cases allowed with
      | cons here later =>
          have ⟨middle, before, after⟩ := inductionHypothesis later
          exact ⟨middle, .cons here before, after⟩

end Rules

end NansOS.Foundation
