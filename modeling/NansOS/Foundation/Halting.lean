import Mathlib.Data.Nat.Basic

/-! Owns loops that may stop: the body of a loop either goes on with a new state
or halts with a result. `StopsWith` and `Reaches` are decided one pass at a time,
so that an induction over what a loop reads needs no count of its passes. It owns
no program. -/

namespace NansOS.Foundation

universe u v

variable {State : Type u} {Halt : Type v}

/-- The state after a number of passes, or how the loop halted within them. -/
def passes (body : State → Except Halt State) : Nat → State → Except Halt State
  | 0, state => .ok state
  | count + 1, state => (body state).bind (passes body count)

/-- The loop halts with this result. -/
def StopsWith (body : State → Except Halt State) (state : State) (halt : Halt) : Prop :=
  ∃ count, passes body count state = .error halt

/-- The loop is in the later state at the head of one of its passes. -/
def Reaches (body : State → Except Halt State) (state later : State) : Prop :=
  ∃ count, passes body count state = .ok later

variable {body : State → Except Halt State} {state next later : State} {halt : Halt}

theorem passes_succ_of_ok (goesOn : body state = .ok next) (count : Nat) :
    passes body (count + 1) state = passes body count next := by
  rw [passes, goesOn]
  rfl

theorem passes_succ_of_error (halts : body state = .error halt) (count : Nat) :
    passes body (count + 1) state = .error halt := by
  rw [passes, halts]
  rfl

theorem stopsWith_of_ok (goesOn : body state = .ok next) :
    StopsWith body state halt ↔ StopsWith body next halt := by
  constructor
  · rintro ⟨count, stopped⟩
    cases count with
    | zero => cases stopped
    | succ count => exact ⟨count, (passes_succ_of_ok goesOn count).symm.trans stopped⟩
  · rintro ⟨count, stopped⟩
    exact ⟨count + 1, (passes_succ_of_ok goesOn count).trans stopped⟩

theorem stopsWith_of_error {result : Halt} (halts : body state = .error result) :
    StopsWith body state halt ↔ halt = result := by
  constructor
  · rintro ⟨count, stopped⟩
    cases count with
    | zero => cases stopped
    | succ count =>
        rw [passes_succ_of_error halts] at stopped
        exact (Except.error.inj stopped).symm
  · rintro rfl
    exact ⟨1, passes_succ_of_error halts 0⟩

theorem Reaches.refl (state : State) : Reaches body state state := ⟨0, rfl⟩

theorem reaches_of_ok (goesOn : body state = .ok next) :
    Reaches body state later ↔ later = state ∨ Reaches body next later := by
  constructor
  · rintro ⟨count, reached⟩
    cases count with
    | zero => exact .inl (Except.ok.inj reached).symm
    | succ count => exact .inr ⟨count, (passes_succ_of_ok goesOn count).symm.trans reached⟩
  · rintro (rfl | ⟨count, reached⟩)
    · exact .refl _
    · exact ⟨count + 1, (passes_succ_of_ok goesOn count).trans reached⟩

theorem reaches_of_error (halts : body state = .error halt) :
    Reaches body state later ↔ later = state := by
  constructor
  · rintro ⟨count, reached⟩
    cases count with
    | zero => exact (Except.ok.inj reached).symm
    | succ count =>
        rw [passes_succ_of_error halts] at reached
        cases reached
  · rintro rfl
    exact .refl _

/-- Two states that the loop reaches from one state lie on one run. -/
theorem Reaches.total {left right : State} (first : Reaches body state left)
    (second : Reaches body state right) : Reaches body left right ∨ Reaches body right left := by
  obtain ⟨count, first⟩ := first
  induction count generalizing state with
  | zero => exact .inl (Except.ok.inj first ▸ second)
  | succ count inductionHypothesis =>
      cases outcome : body state with
      | error halt =>
          rw [passes_succ_of_error outcome] at first
          cases first
      | ok next =>
          rw [passes_succ_of_ok outcome] at first
          rcases (reaches_of_ok outcome).mp second with rfl | later
          · exact .inr ((reaches_of_ok outcome).mpr (.inr ⟨count, first⟩))
          · exact inductionHypothesis later first

/-- How a loop halts is how it halts from any state on its way. -/
theorem Reaches.stopsWith (reached : Reaches body state later) :
    StopsWith body state halt ↔ StopsWith body later halt := by
  obtain ⟨count, reached⟩ := reached
  induction count generalizing state with
  | zero => rw [Except.ok.inj reached]
  | succ count inductionHypothesis =>
      cases outcome : body state with
      | error other =>
          rw [passes_succ_of_error outcome] at reached
          cases reached
      | ok next =>
          rw [passes_succ_of_ok outcome] at reached
          rw [stopsWith_of_ok outcome]
          exact inductionHypothesis reached

/-- What every pass keeps holds of every state the loop reaches. -/
theorem Reaches.keeps (property : State → Prop)
    (pass : ∀ state next, body state = .ok next → property state → property next)
    (reached : Reaches body state later) (start : property state) : property later := by
  obtain ⟨count, reached⟩ := reached
  induction count generalizing state with
  | zero => exact Except.ok.inj reached ▸ start
  | succ count inductionHypothesis =>
      cases outcome : body state with
      | error halt =>
          rw [passes_succ_of_error outcome] at reached
          cases reached
      | ok next =>
          rw [passes_succ_of_ok outcome] at reached
          exact inductionHypothesis (pass state next outcome start) reached

/-- What every pass keeps, and the last one hands on, holds of how the loop halts. -/
theorem StopsWith.keeps (property : State → Prop) (result : Halt → Prop)
    (pass : ∀ state next, body state = .ok next → property state → property next)
    (last : ∀ state halt, body state = .error halt → property state → result halt)
    (stopped : StopsWith body state halt) (start : property state) : result halt := by
  obtain ⟨count, stopped⟩ := stopped
  induction count generalizing state with
  | zero => cases stopped
  | succ count inductionHypothesis =>
      cases outcome : body state with
      | error other =>
          rw [passes_succ_of_error outcome] at stopped
          exact Except.error.inj stopped ▸ last state other outcome start
      | ok next =>
          rw [passes_succ_of_ok outcome] at stopped
          exact inductionHypothesis (pass state next outcome start) stopped

/-- A loop halts in one way only. -/
theorem StopsWith.unique {other : Halt} (first : StopsWith body state halt)
    (second : StopsWith body state other) : halt = other := by
  refine StopsWith.keeps (fun later => StopsWith body later other) (fun result => result = other)
    ?_ ?_ first second
  · exact fun state next goesOn stops => (stopsWith_of_ok goesOn).mp stops
  · exact fun state result halts stops => ((stopsWith_of_error halts).mp stops).symm

section Views

universe w

variable {Other : Type w} {viewed : Other → Except Halt Other} {view : State → Other}

theorem passes_view (commutes : ∀ state, viewed (view state) = (body state).map view)
    (count : Nat) (state : State) :
    passes viewed count (view state) = (passes body count state).map view := by
  induction count generalizing state with
  | zero => rfl
  | succ count inductionHypothesis =>
      rw [passes, passes, commutes]
      cases body state with
      | error halt => rfl
      | ok next => exact inductionHypothesis next

/-- A loop that does the same under a view of its states halts in the same way. -/
theorem stopsWith_view (commutes : ∀ state, viewed (view state) = (body state).map view) :
    StopsWith viewed (view state) halt ↔ StopsWith body state halt := by
  constructor
  · intro stops
    have ⟨count, stopped⟩ := stops
    refine ⟨count, ?_⟩
    rw [passes_view commutes] at stopped
    cases outcome : passes body count state with
    | error other =>
        rw [outcome] at stopped
        cases stopped
        rfl
    | ok next =>
        rw [outcome] at stopped
        cases stopped
  · intro stops
    have ⟨count, stopped⟩ := stops
    refine ⟨count, ?_⟩
    rw [passes_view commutes, stopped]
    rfl

end Views

end NansOS.Foundation
