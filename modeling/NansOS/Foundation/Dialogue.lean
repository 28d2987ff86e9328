import NansOS.Foundation.Run

/-! Owns programs that talk to their surroundings: a dialogue makes a request,
gets a reply and goes on with it, and gives up in a loop that is not over within
the passes allowed for it. A monitor says what the surroundings may reply and
what an onlooker remembers of the exchanges. `Ensures` is decided along the
program, so that a fact about every conversation needs no induction over logs;
`converse_ensures` carries it to the log of a conversation with any world that
replies as the monitor allows. It owns no program. -/

namespace NansOS.Foundation

/-- A request with the reply to it. -/
structure Exchange (Request : Type) (Reply : Request → Type) where
  request : Request
  reply : Reply request

/-- A program that talks to its surroundings. -/
inductive Dialogue (Request : Type) (Reply : Request → Type) (Result : Type) where
  | done (result : Result)
  | ask (request : Request) (next : Reply request → Dialogue Request Reply Result)
  | unfinished

namespace Dialogue

variable {Request : Type} {Reply : Request → Type} {Result Final State World : Type}

/-- One program, and another one that goes on with its result. -/
def bind : Dialogue Request Reply Result → (Result → Dialogue Request Reply Final) →
    Dialogue Request Reply Final
  | done result, later => later result
  | ask request next, later => ask request fun reply => bind (next reply) later
  | unfinished, _ => unfinished

instance : Monad (Dialogue Request Reply) where
  pure := done
  bind := bind

theorem bind_done (program : Dialogue Request Reply Result) : program.bind done = program := by
  induction program with
  | done result => rfl
  | ask request next inductionHypothesis =>
      exact congrArg (ask request) (funext inductionHypothesis)
  | unfinished => rfl

instance : LawfulMonad (Dialogue Request Reply) := LawfulMonad.mk' _
  (fun program => bind_done program)
  (fun _ _ => rfl)
  (fun program first second => by
    induction program with
    | done result => rfl
    | ask request next inductionHypothesis =>
        exact congrArg (ask request) (funext inductionHypothesis)
    | unfinished => rfl)

/-- A single request. -/
def request (request : Request) : Dialogue Request Reply (Reply request) := ask request done

/-! ### Conversations -/

/-- What a program and a world have said to each other, and where they are then.
There is no result if the program has given up. -/
structure Conversation (Request : Type) (Reply : Request → Type) (World Result : Type) where
  log : List (Exchange Request Reply)
  world : World
  result : Option Result

/-- The conversation of a program with a world that answers it. -/
def converse (answer : (request : Request) → World → Reply request × World) :
    Dialogue Request Reply Result → World → Conversation Request Reply World Result
  | done result, world =>
      { log := []
        world := world
        result := some result }
  | unfinished, world =>
      { log := []
        world := world
        result := none }
  | ask request next, world =>
      let (reply, world) := answer request world
      let later := converse answer (next reply) world
      { later with log := ⟨request, reply⟩ :: later.log }

variable {answer : (request : Request) → World → Reply request × World}

/-- What a program comes to against a world, and the world behind it. -/
def outcome (answer : (request : Request) → World → Reply request × World)
    (program : Dialogue Request Reply Result) (world : World) : Option (Result × World) :=
  (program.converse answer world).result.map fun result =>
    (result, (program.converse answer world).world)

theorem outcome_bind (program : Dialogue Request Reply Result)
    (later : Result → Dialogue Request Reply Final) (world : World) :
    (program >>= later).outcome answer world =
      (program.outcome answer world).bind fun ended => (later ended.1).outcome answer ended.2 := by
  induction program generalizing world with
  | done result => rfl
  | unfinished => rfl
  | ask request next inductionHypothesis => exact inductionHypothesis _ _

end Dialogue

/-! ### Monitors -/

/-- An onlooker with its expectations of the surroundings. -/
structure Monitor (Request : Type) (Reply : Request → Type) (State : Type) where
  allows : State → (request : Request) → Reply request → Prop
  note : State → Exchange Request Reply → State
  safe : State → Prop

/-- The world replies as the monitor allows, from states that the monitor takes
for the world's. -/
structure Monitor.Respects {Request : Type} {Reply : Request → Type} {State World : Type}
    (monitor : Monitor Request Reply State)
    (answer : (request : Request) → World → Reply request × World)
    (sees : World → State → Prop) : Prop where
  allowed : ∀ {world state}, sees world state → ∀ request,
    monitor.allows state request (answer request world).1
  seen : ∀ {world state}, sees world state → ∀ request,
    sees (answer request world).2 (monitor.note state ⟨request, (answer request world).1⟩)

namespace Dialogue

variable {Request : Type} {Reply : Request → Type} {Result Final State World : Type}
variable (monitor : Monitor Request Reply State)

/-- Whatever it is told, the program keeps the monitor safe, and leaves a result
and a state as promised. -/
def Ensures (promise : Option Result → State → Prop) :
    Dialogue Request Reply Result → State → Prop
  | done result, state => monitor.safe state ∧ promise (some result) state
  | unfinished, state => monitor.safe state ∧ promise none state
  | ask request next, state =>
      monitor.safe state ∧ ∀ reply, monitor.allows state request reply →
        Ensures promise (next reply) (monitor.note state ⟨request, reply⟩)

variable {monitor} {promise stronger : Option Result → State → Prop}
variable {promised : Option Final → State → Prop} {state : State}

theorem Ensures.safe {program : Dialogue Request Reply Result}
    (ensures : program.Ensures monitor promise state) : monitor.safe state := by
  cases program with
  | done result => exact ensures.1
  | ask request next => exact ensures.1
  | unfinished => exact ensures.1

theorem Ensures.imp {program : Dialogue Request Reply Result}
    (ensures : program.Ensures monitor stronger state)
    (weaker : ∀ result state, stronger result state → promise result state) :
    program.Ensures monitor promise state := by
  induction program generalizing state with
  | done result => exact ⟨ensures.1, weaker _ _ ensures.2⟩
  | unfinished => exact ⟨ensures.1, weaker _ _ ensures.2⟩
  | ask request next inductionHypothesis =>
      exact ⟨ensures.1, fun reply allowed =>
        inductionHypothesis reply (ensures.2 reply allowed)⟩

/-- What the first program promises is where the second one starts. -/
theorem ensures_bind {program : Dialogue Request Reply Result}
    {later : Result → Dialogue Request Reply Final}
    (first : program.Ensures monitor
      (fun result state => match result with
        | some result => (later result).Ensures monitor promised state
        | none => promised none state) state) :
    (program >>= later).Ensures monitor promised state := by
  induction program generalizing state with
  | done result => exact first.2
  | unfinished => exact first
  | ask request next inductionHypothesis =>
      exact ⟨first.1, fun reply allowed => inductionHypothesis reply (first.2 reply allowed)⟩

/-- Two programs in a row, where the first one always comes to its end in a state
that the second one starts from. -/
theorem Ensures.followed {program : Dialogue Request Reply Result}
    {later : Result → Dialogue Request Reply Final}
    (first : program.Ensures monitor stronger state)
    (onward : ∀ result state, stronger (some result) state →
      (later result).Ensures monitor promised state)
    (givenUp : ∀ state, stronger none state → promised none state) :
    (program >>= later).Ensures monitor promised state := by
  apply ensures_bind
  apply first.imp
  intro result state holds
  cases result with
  | some result => exact onward result state holds
  | none => exact givenUp state holds

/-- In a conversation with a world that the monitor takes for granted, the monitor
is safe all along, and the promise holds at its end. -/
theorem converse_ensures {program : Dialogue Request Reply Result}
    {answer : (request : Request) → World → Reply request × World}
    {sees : World → State → Prop} (respects : monitor.Respects answer sees)
    (ensures : program.Ensures monitor promise state) (world : World) (seen : sees world state) :
    Throughout monitor.note monitor.safe state (program.converse answer world).log ∧
      promise (program.converse answer world).result
        (run monitor.note state (program.converse answer world).log) ∧
      sees (program.converse answer world).world
        (run monitor.note state (program.converse answer world).log) := by
  induction program generalizing state world with
  | done result => exact ⟨ensures.1, ensures.2, seen⟩
  | unfinished => exact ⟨ensures.1, ensures.2, seen⟩
  | ask request next inductionHypothesis =>
      have later := ensures.2 _ (respects.allowed seen request)
      obtain ⟨safely, promised, last⟩ :=
        inductionHypothesis _ later _ (respects.seen seen request)
      exact ⟨⟨ensures.1, safely⟩, promised, last⟩

/-! ### Requests of a program -/

/-- Every request that the program can make has a property. -/
def Requests (property : Request → Prop) : Dialogue Request Reply Result → Prop
  | done _ => True
  | unfinished => True
  | ask request next => property request ∧ ∀ reply, Requests property (next reply)

variable {property : Request → Prop}

theorem Requests.bind {program : Dialogue Request Reply Result}
    {later : Result → Dialogue Request Reply Final} (first : program.Requests property)
    (onward : ∀ result, (later result).Requests property) :
    (program >>= later).Requests property := by
  induction program with
  | done result => exact onward result
  | unfinished => trivial
  | ask request next inductionHypothesis =>
      exact ⟨first.1, fun reply => inductionHypothesis reply (first.2 reply)⟩

theorem Requests.imp {weaker : Request → Prop} {program : Dialogue Request Reply Result}
    (requests : program.Requests property)
    (weakens : ∀ request, property request → weaker request) : program.Requests weaker := by
  induction program with
  | done result => trivial
  | unfinished => trivial
  | ask request next inductionHypothesis =>
      exact ⟨weakens request requests.1, fun reply => inductionHypothesis reply (requests.2 reply)⟩

/-- What all requests of a program leave of the world, the program leaves. -/
theorem Requests.leaves {Seen : Type} {answer : (request : Request) → World → Reply request × World}
    {program : Dialogue Request Reply Result} (requests : program.Requests property)
    (sight : World → Seen)
    (left : ∀ request world, property request → sight (answer request world).2 = sight world)
    (world : World) : sight (program.converse answer world).world = sight world := by
  induction program generalizing world with
  | done result => rfl
  | unfinished => rfl
  | ask request next inductionHypothesis =>
      exact (inductionHypothesis _ (requests.2 _) _).trans (left request world requests.1)

/-- What all requests of a program keep, the program keeps. -/
theorem Requests.ensures {program : Dialogue Request Reply Result}
    (requests : program.Requests property) {invariant : State → Prop}
    (kept : ∀ state request reply, invariant state → property request →
      monitor.allows state request reply → invariant (monitor.note state ⟨request, reply⟩))
    (safe : ∀ state, invariant state → monitor.safe state) (holds : invariant state) :
    program.Ensures monitor (fun _ state => invariant state) state := by
  induction program generalizing state with
  | done result => exact ⟨safe state holds, holds⟩
  | unfinished => exact ⟨safe state holds, holds⟩
  | ask request next inductionHypothesis =>
      exact ⟨safe state holds, fun reply allowed =>
        inductionHypothesis reply (requests.2 reply) (kept _ _ _ holds requests.1 allowed)⟩

end Dialogue

end NansOS.Foundation
