import NansOS.Interrupts.Handlers
import NansOS.Foundation.Run

/-! Owns the end-of-interrupt discipline over nested handlers. Interrupt
requests and CPU exceptions may arrive at any point of any handler; a chip
delivers a request only above everything it has in service. A handler of a
request then always retires its own lines. A handler of an exception has none,
but most of them send a command all the same, which retires whatever is in
service at the time. -/

namespace NansOS.Interrupts

open NansOS.Foundation
open NansOS.Keyboard
open NansOS.Mouse

/-! ### Nested handlers -/

/-- What interrupts the processor: a request, or one of the exceptions of
vectors 0 to 31. -/
inductive Source where
  | request (irq : Fin 16)
  | exception (vector : Fin 32)
deriving DecidableEq

/-- The vector taken. -/
def Source.vector : Source → Nat
  | request irq => 32 + irq
  | exception vector => vector

/-- The lines taken into service, which the handler is to retire. -/
def Source.lines : Source → List PicLine
  | request irq => linesOf irq
  | exception _ => []

/-- A handler that has been entered: the commands it still sends, and the lines
its own commands have cleared, in order. -/
structure Frame where
  source : Source
  pending : List Chip
  cleared : List PicLine
deriving DecidableEq

/-- The lines in service, and the handlers entered, the innermost first. -/
structure System where
  service : PicLine → Bool
  stack : List Frame

/-- Nothing in service and no handler entered. -/
def System.idle : System where
  service := fun _ => false
  stack := []

/-- What happens next: an interrupt, the next command of the innermost handler,
or its return. -/
inductive Action where
  | interrupt (source : Source) (activation : Activation)
  | proceed
  | leave

/-- The handler of a source, just entered. -/
def enter (source : Source) (activation : Activation) : Frame where
  source := source
  pending := ((idtInit source.vector).eois activation).flatMap picSendEoi
  cleared := []

/-- The handler has sent all its commands and is one that returns. -/
def Frame.Returns (frame : Frame) : Prop :=
  frame.pending = [] ∧ (idtInit frame.source.vector).halts = false

/-- The chips deliver the source: a request waits while one of its lines has
lines of equal or higher priority in service. -/
def Delivers (service : PicLine → Bool) (source : Source) : Prop :=
  ∀ line ∈ source.lines, Admits service line

instance (frame : Frame) : Decidable frame.Returns := inferInstanceAs (Decidable (_ ∧ _))

instance (service : PicLine → Bool) (line : PicLine) : Decidable (Admits service line) :=
  Nat.decidableForallFin _

instance (service : PicLine → Bool) (source : Source) : Decidable (Delivers service source) :=
  List.decidableBAll _ source.lines

/-- The line that a command to the chip retires. -/
def retiredBy (service : PicLine → Bool) (chip : Chip) : List PicLine :=
  ((highestLevel service chip).map fun level => ⟨chip, level⟩).toList

/-- One step. What cannot happen changes nothing. -/
def System.step (system : System) : Action → System
  | .interrupt source activation =>
      if Delivers system.service source then
        { service := raiseLines system.service source.lines
          stack := enter source activation :: system.stack }
      else system
  | .proceed =>
      match system.stack with
      | ⟨source, chip :: pending, cleared⟩ :: rest =>
          { service := retireHighest system.service chip
            stack := ⟨source, pending, cleared ++ retiredBy system.service chip⟩ :: rest }
      | _ => system
  | .leave =>
      match system.stack with
      | frame :: rest => if frame.Returns then { system with stack := rest } else system
      | [] => system

/-- A handler that returns has cleared exactly the lines it is to retire: its
own and the cascade's for a request, none for an exception. -/
def ClearsOwn (system : System) : Action → Prop
  | .leave => ∀ frame rest, system.stack = frame :: rest → frame.Returns →
      frame.cleared = frame.source.lines
  | _ => True

/-- The handler of an exception sends a command only to a chip with nothing in
service. -/
def Spares (system : System) : Action → Prop
  | .proceed =>
      match system.stack with
      | ⟨.exception _, chip :: _, _⟩ :: _ => highestLevel system.service chip = none
      | _ => True
  | _ => True

/-- Only handlers that never return are still entered. -/
def Finished (system : System) : Prop :=
  ∀ frame ∈ system.stack, (idtInit frame.source.vector).halts = true

/-! ### The lines still owed -/

/-- The lines a handler has still to retire. -/
def Frame.owed (frame : Frame) : List PicLine :=
  frame.source.lines.drop frame.cleared.length

/-- The handler has cleared the first of its lines, and the commands of a
request's handler are those for the rest. -/
structure Frame.Faithful (frame : Frame) : Prop where
  parts : frame.cleared ++ frame.owed = frame.source.lines
  commands : ∀ irq, frame.source = .request irq →
    frame.pending = frame.owed.map ServiceLine.group

/-- In service are the lines still owed, the innermost handler's first. -/
structure Nested (system : System) : Prop where
  owed : Owed system.service (system.stack.flatMap Frame.owed)
  frames : ∀ frame ∈ system.stack, frame.Faithful

theorem nested_idle : Nested System.idle where
  owed := ⟨fun _ => by simp [System.idle], List.Pairwise.nil⟩
  frames := nofun

theorem linesOf_apart : ∀ irq, (linesOf irq).Pairwise ServiceLine.Before := by
  intro irq
  unfold linesOf
  split_ifs <;> simp [ServiceLine.Before]

theorem enter_faithful (source : Source) (activation : Activation) :
    (enter source activation).Faithful where
  parts := rfl
  commands := by
    rintro irq rfl
    change ((idtInit (32 + irq)).eois activation).flatMap picSendEoi = _
    rw [(idtInit_irq irq activation).1, List.flatMap_singleton, picSendEoi_eq]
    rfl

/-- A handler that has sent all its commands owes nothing, and has cleared its
own lines. -/
theorem Frame.Faithful.settled {frame : Frame} (faithful : frame.Faithful)
    (sent : frame.pending = []) : frame.owed = [] ∧ frame.cleared = frame.source.lines := by
  have settled : frame.owed = [] := by
    cases kind : frame.source with
    | request irq =>
        have commands := faithful.commands irq kind
        rw [sent] at commands
        exact List.map_eq_nil_iff.mp commands.symm
    | exception vector => simp [Frame.owed, kind, Source.lines]
  have parts := faithful.parts
  rw [settled, List.append_nil] at parts
  exact ⟨settled, parts⟩

/-! ### One step -/

section Step

variable {system : System}

theorem Nested.interrupt (nested : Nested system) (source : Source) (activation : Activation) :
    Nested (system.step (.interrupt source activation)) := by
  simp only [System.step]
  by_cases delivers : Delivers system.service source
  · rw [if_pos delivers]
    refine ⟨?_, List.forall_mem_cons.mpr ⟨enter_faithful source activation, nested.frames⟩⟩
    have apart : source.lines.Pairwise ServiceLine.Before := by
      cases source with
      | request irq => exact linesOf_apart irq
      | exception vector => exact List.Pairwise.nil
    exact nested.owed.raiseLines apart delivers
  · rw [if_neg delivers]
    exact nested

/-- A command that finds nothing in service leaves an exception's handler as it
was. -/
theorem Nested.proceed_exception {vector : Fin 32} {chip : Chip} {pending : List Chip}
    {cleared : List PicLine} {service : PicLine → Bool} {rest : List Frame}
    (nested : Nested ⟨service, ⟨.exception vector, chip :: pending, cleared⟩ :: rest⟩)
    (idle : highestLevel service chip = none) :
    Nested (System.step ⟨service, ⟨.exception vector, chip :: pending, cleared⟩ :: rest⟩
      .proceed) := by
  obtain ⟨faithful, others⟩ := List.forall_mem_cons.mp nested.frames
  have owed := nested.owed
  simp only [System.step, retireHighest_of_idle idle, retiredBy, idle, Option.map_none,
    Option.toList_none, List.append_nil]
  refine ⟨owed, List.forall_mem_cons.mpr ⟨⟨faithful.parts, nofun⟩, others⟩⟩

/-- The next command of a request's handler retires the line it owes first. -/
theorem Nested.proceed_request {irq : Fin 16} {chip : Chip} {pending : List Chip}
    {cleared : List PicLine} {service : PicLine → Bool} {rest : List Frame}
    (nested : Nested ⟨service, ⟨.request irq, chip :: pending, cleared⟩ :: rest⟩) :
    Nested (System.step ⟨service, ⟨.request irq, chip :: pending, cleared⟩ :: rest⟩
      .proceed) := by
  obtain ⟨faithful, others⟩ := List.forall_mem_cons.mp nested.frames
  have commands := faithful.commands irq rfl
  have owed := nested.owed
  rw [List.flatMap_cons] at owed
  cases lines : Frame.owed ⟨.request irq, chip :: pending, cleared⟩ with
  | nil => rw [lines] at commands; cases commands
  | cons line more =>
      rw [lines, List.map_cons] at commands
      obtain ⟨rfl, rfl⟩ := List.cons.inj commands
      rw [lines, List.cons_append] at owed
      have retired : retiredBy service line.group = [line] := by
        simp [retiredBy, owed.highestLevel]
      have parts : cleared ++ line :: more = linesOf irq := by
        rw [← lines]
        exact faithful.parts
      have later : Frame.owed ⟨.request irq, more.map ServiceLine.group, cleared ++ [line]⟩ =
          more := by
        simp [Frame.owed, Source.lines, ← parts]
      simp only [System.step, retired]
      refine ⟨?_, List.forall_mem_cons.mpr ⟨⟨?_, ?_⟩, others⟩⟩
      · rw [List.flatMap_cons, later]
        exact owed.retireHighest
      · rw [later, List.append_assoc]
        exact parts
      · intro _ _
        rw [later]

theorem Nested.proceed (nested : Nested system) (spares : Spares system .proceed) :
    Nested (system.step .proceed) := by
  obtain ⟨service, stack⟩ := system
  cases stack with
  | nil => exact nested
  | cons frame rest =>
      obtain ⟨source, pending, cleared⟩ := frame
      cases pending with
      | nil => exact nested
      | cons chip pending =>
          cases source with
          | exception vector => exact nested.proceed_exception spares
          | request irq => exact nested.proceed_request

/-- A handler only returns once it owes nothing. -/
theorem Nested.leave (nested : Nested system) :
    Nested (system.step .leave) ∧ ClearsOwn system .leave := by
  obtain ⟨service, stack⟩ := system
  cases stack with
  | nil => exact ⟨nested, nofun⟩
  | cons frame rest =>
      obtain ⟨faithful, others⟩ := List.forall_mem_cons.mp nested.frames
      by_cases returns : frame.Returns
      · obtain ⟨settled, clears⟩ := faithful.settled returns.1
        have owed := nested.owed
        simp only [List.flatMap_cons, settled, List.nil_append] at owed
        constructor
        · simp only [System.step, if_pos returns]
          exact ⟨owed, others⟩
        · intro top below same _
          obtain rfl : frame = top := (List.cons.inj same).1
          exact clears
      · constructor
        · simp only [System.step, if_neg returns]
          exact nested
        · intro top below same again
          obtain rfl : frame = top := (List.cons.inj same).1
          exact absurd again returns

end Step

/-! ### The converse -/

/-- An exception's handler that has cleared nothing. -/
def Clean (frame : Frame) : Prop :=
  ∀ vector, frame.source = .exception vector → frame.cleared = []

/-- Clean handlers after a step that respects the discipline were clean before
it, and the step spared what was in service. -/
theorem clean_before {system : System} {action : Action} (clears : ClearsOwn system action)
    (clean : ∀ frame ∈ (system.step action).stack, Clean frame) :
    Spares system action ∧ ∀ frame ∈ system.stack, Clean frame := by
  obtain ⟨service, stack⟩ := system
  cases action with
  | interrupt source activation =>
      refine ⟨trivial, fun frame member => clean frame ?_⟩
      simp only [System.step]
      split_ifs
      · exact List.mem_cons_of_mem _ member
      · exact member
  | proceed =>
      cases stack with
      | nil => exact ⟨trivial, nofun⟩
      | cons frame rest =>
          obtain ⟨source, pending, cleared⟩ := frame
          cases pending with
          | nil => exact ⟨by cases source <;> trivial, clean⟩
          | cons chip pending =>
              obtain ⟨top, others⟩ := List.forall_mem_cons.mp clean
              cases source with
              | request irq => exact ⟨trivial, List.forall_mem_cons.mpr ⟨nofun, others⟩⟩
              | exception vector =>
                  obtain ⟨before, retired⟩ := List.append_eq_nil_iff.mp (top vector rfl)
                  refine ⟨?_, List.forall_mem_cons.mpr ⟨fun _ _ => before, others⟩⟩
                  change highestLevel service chip = none
                  simpa [retiredBy] using retired
  | leave =>
      refine ⟨trivial, ?_⟩
      cases stack with
      | nil => exact nofun
      | cons frame rest =>
          by_cases returns : frame.Returns
          · simp only [System.step, if_pos returns] at clean
            refine List.forall_mem_cons.mpr ⟨fun vector kind => ?_, clean⟩
            rw [clears frame rest rfl returns, kind]
            rfl
          · simp only [System.step, if_neg returns] at clean
            exact clean

theorem spares_of_clean {system : System} {actions : List Action}
    (clears : Along System.step ClearsOwn system actions)
    (clean : ∀ frame ∈ (run System.step system actions).stack, Clean frame) :
    Along System.step Spares system actions ∧ ∀ frame ∈ system.stack, Clean frame := by
  induction actions generalizing system with
  | nil => exact ⟨trivial, clean⟩
  | cons action rest inductionHypothesis =>
      obtain ⟨later, after⟩ := inductionHypothesis clears.2 clean
      obtain ⟨here, before⟩ := clean_before clears.1 after
      exact ⟨⟨here, later⟩, before⟩

/-- Handlers that never return send no commands. -/
theorem eois_of_halts (vector : Nat) (activation : Activation) :
    (idtInit vector).halts = true → (idtInit vector).eois activation = [] := by
  unfold idtInit
  split
  all_goals first
    | exact fun _ => rfl
    | exact nofun

/-- Handlers that never return have nothing to send and have cleared nothing. -/
def Silent (frame : Frame) : Prop :=
  (idtInit frame.source.vector).halts = true → frame.pending = [] ∧ frame.cleared = []

theorem silent_step {system : System} (silent : ∀ frame ∈ system.stack, Silent frame)
    (action : Action) : ∀ frame ∈ (system.step action).stack, Silent frame := by
  obtain ⟨service, stack⟩ := system
  cases action with
  | interrupt source activation =>
      simp only [System.step]
      split_ifs
      · refine List.forall_mem_cons.mpr ⟨fun halts => ⟨?_, rfl⟩, silent⟩
        simp only [enter, eois_of_halts source.vector activation halts, List.flatMap_nil]
      · exact silent
  | proceed =>
      cases stack with
      | nil => exact silent
      | cons frame rest =>
          obtain ⟨source, pending, cleared⟩ := frame
          cases pending with
          | nil => exact silent
          | cons chip pending =>
              obtain ⟨top, others⟩ := List.forall_mem_cons.mp silent
              exact List.forall_mem_cons.mpr ⟨fun halts => absurd (top halts).1 nofun, others⟩
  | leave =>
      cases stack with
      | nil => exact silent
      | cons frame rest =>
          simp only [System.step]
          split_ifs
          · exact (List.forall_mem_cons.mp silent).2
          · exact silent

/-- Over every sequence of nested interrupts, commands and returns: if exception
handlers spare what is in service, each handler that returns has cleared exactly
its own lines; and when all handlers that can return have, it is only so then. -/
theorem eoi_discipline (actions : List Action) :
    (Along System.step Spares System.idle actions →
        Along System.step ClearsOwn System.idle actions) ∧
      (Finished (run System.step System.idle actions) →
        Along System.step ClearsOwn System.idle actions →
          Along System.step Spares System.idle actions) := by
  constructor
  · intro spared
    apply along_of_invariant _ _ nested_idle spared
    · intro system action nested spares
      cases action with
      | interrupt source activation => exact nested.interrupt source activation
      | proceed => exact nested.proceed spares
      | leave => exact nested.leave.1
    · intro system action nested spares
      cases action with
      | interrupt source activation => trivial
      | proceed => trivial
      | leave => exact nested.leave.2
  · intro finished clears
    have silent : ∀ frame ∈ (run System.step System.idle actions).stack, Silent frame :=
      run_invariant (fun _ _ => True)
        (fun system : System => ∀ frame ∈ system.stack, Silent frame)
        (fun _ action silent _ => silent_step silent action) (fun _ member => nomatch member)
        (along_of_forall fun _ _ => trivial)
    exact (spares_of_clean clears fun frame member _ _ =>
      (silent frame member (finished frame member)).2).1

/-- What the drivers find when nothing is attached. -/
def quietActivation : Activation where
  tickCount := 0
  timerCallback := false
  keyboardCallbacks := ⟨false, false, false⟩
  controller := ⟨fun _ => 0, 0⟩
  keyboard := KeyboardState.zero
  mouseCallback := false
  mouseStatus := 0
  mouseData := 0
  mouse := MouseDriver.initial

/-- The timer interrupts the mouse handler between its two commands; a breakpoint
comes when all is done. -/
def timerInMouse : List Action :=
  [.interrupt (.request 12) quietActivation, .proceed,
    .interrupt (.request 0) quietActivation, .proceed, .leave, .proceed, .leave,
    .interrupt (.exception 3) quietActivation, .proceed, .leave]

theorem timerInMouse_clears : Along System.step ClearsOwn System.idle timerInMouse :=
  (eoi_discipline timerInMouse).1
    ⟨trivial, trivial, trivial, trivial, trivial, trivial, trivial, trivial, rfl, trivial, trivial⟩

/-- A breakpoint in the handler of the first serial port retires line 4. -/
theorem breakpoint_clears_com1 :
    ¬ ∀ actions, Along System.step ClearsOwn System.idle actions := by
  intro always
  have clears := (always [.interrupt (.request 4) quietActivation,
    .interrupt (.exception 3) quietActivation, .proceed, .leave]).2.2.2.1
  have cleared := clears ⟨.exception 3, [], [⟨.master, 4⟩]⟩ _ rfl ⟨rfl, rfl⟩
  exact absurd cleared nofun

end NansOS.Interrupts
