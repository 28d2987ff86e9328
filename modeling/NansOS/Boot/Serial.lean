import NansOS.Boot.Ports
import NansOS.Foundation.Writers
import Mathlib.Data.List.Forall2

/-! Owns the serial line while handlers interrupt each other and the code they have
interrupted, all of them in the middle of `serial_write_string`. A chip is the
transmitter with its queue; the innermost call makes one port access at a time, and
the chip sends a byte at any moment. Each call is a writer of the shared queue, so
that the queue of the chip bounds how deep the calls may be nested. -/

namespace NansOS.Boot

open NansOS.Foundation

/-! ### The chip -/

/-- The registers of a serial chip, and the bytes that wait in its transmitter. -/
structure Uart where
  interruptEnable : UInt8
  divisorLow : UInt8
  divisorHigh : UInt8
  fifoEnabled : Bool
  lineControl : UInt8
  modemControl : UInt8
  transmitter : List UInt8

/-- The chip with what has gone out of it, and what it had no room for. -/
structure Wire where
  uart : Uart
  sent : List UInt8
  lost : List UInt8

namespace Uart

/-- The bytes that the transmitter has room for. -/
def capacity (uart : Uart) : Nat := if uart.fifoEnabled then 16 else 1

/-- `SERIAL_LC_DLAB` is set, so that the first two registers are the divisor. -/
def latched (uart : Uart) : Bool := uart.lineControl &&& 0x80 ≠ 0

/-- The line status. What does not concern the transmitter is `others`. -/
def lineStatus (uart : Uart) (others : UInt8) : UInt8 :=
  (others &&& ~~~ 0x20) ||| if uart.transmitter.isEmpty then 0x20 else 0

end Uart

namespace Wire

/-- The chip sends a byte. -/
def transmit (wire : Wire) : Wire :=
  match wire.uart.transmitter with
  | [] => wire
  | value :: rest =>
      { wire with
        uart := { wire.uart with transmitter := rest }
        sent := wire.sent ++ [value] }

/-- A byte for the transmitter. -/
def put (value : UInt8) (wire : Wire) : Wire :=
  if wire.uart.transmitter.length < wire.uart.capacity then
    { wire with
      uart := { wire.uart with transmitter := wire.uart.transmitter ++ [value] } }
  else { wire with lost := wire.lost ++ [value] }

/-- A write to the chip at `port`. -/
def write (port written : UInt16) (value : UInt8) (wire : Wire) : Wire :=
  if written = port then
    if wire.uart.latched then { wire with uart := { wire.uart with divisorLow := value } }
    else wire.put value
  else if written = port + 1 then
    if wire.uart.latched then { wire with uart := { wire.uart with divisorHigh := value } }
    else { wire with uart := { wire.uart with interruptEnable := value } }
  else if written = port + 2 then
    { wire with
      uart := { wire.uart with
        fifoEnabled := value &&& 0x01 ≠ 0
        transmitter := if value &&& 0x04 ≠ 0 then [] else wire.uart.transmitter } }
  else if written = port + 3 then { wire with uart := { wire.uart with lineControl := value } }
  else if written = port + 4 then { wire with uart := { wire.uart with modemControl := value } }
  else wire

/-- What the chip answers; `others` is what any other source has to tell. -/
def answers (port : UInt16) (others : UInt8) :
    (request : Request) → Wire → Reply request × Wire
  | .byteIn read, wire => (if read = port + 5 then wire.uart.lineStatus others else others, wire)
  | .byteOut written value, wire => ((), wire.write port written value)
  | .cli, wire => ((), wire)
  | .sti, wire => ((), wire)
  | .lidt, wire => ((), wire)

end Wire

/-! ### Calls that interrupt each other -/

/-- The wire, and what the calls have still to do, the innermost first. -/
structure Talk where
  wire : Wire
  calls : List (Driver Unit)

/-- What happens next: the chip sends a byte, a new call interrupts the others, or the
innermost one makes its next port access or returns. -/
inductive TalkAction where
  | transmit
  | call (passes : Nat) (message : List UInt8)
  | resume (others : UInt8)

/-- The message of the call that the action starts. -/
@[simp] def TalkAction.message? : TalkAction → Option (List UInt8)
  | .transmit => none
  | .call _ message => some message
  | .resume _ => none

/-- The messages of all calls that the actions start. -/
def messages (actions : List TalkAction) : List (List UInt8) :=
  actions.filterMap TalkAction.message?

namespace Talk

/-- The number of bytes that have gone out or wait in the transmitter. -/
def place (talk : Talk) : Nat :=
  talk.wire.sent.length + talk.wire.uart.transmitter.length

/-- The innermost call goes on. -/
def resume (port : UInt16) (others : UInt8) (talk : Talk) : Talk :=
  match talk.calls with
  | [] => talk
  | .done () :: outer => { talk with calls := outer }
  | .ask request next :: outer =>
      { wire := (talk.wire.answers port others request).2
        calls := next (talk.wire.answers port others request).1 :: outer }
  | .unfinished :: _ => talk

def step (port : UInt16) (talk : Talk) : TalkAction → Talk
  | .transmit => { talk with wire := talk.wire.transmit }
  | .call passes message =>
      { talk with calls := serialWriteString passes port message :: talk.calls }
  | .resume others => talk.resume port others

/-- The messages of a run, each with the number of bytes handed to the chip when its call
interrupts the others. -/
def placements (port : UInt16) : Talk → List TalkAction → List (Nat × List UInt8)
  | _, [] => []
  | talk, action :: rest =>
      (action.message?.map (talk.place, ·)).toList ++ placements port (talk.step port action) rest

/-- No more calls are nested than `depth`. -/
def Shallow (depth : Nat) (talk : Talk) : Prop := talk.calls.length ≤ depth

/-- After `serial_init`, with no call. -/
def initialized (port baud : UInt16) (uart : Uart) (others : UInt8) : Talk where
  wire := ((serialInit port baud).converse (Wire.answers port others)
    { uart := uart
      sent := []
      lost := [] }).world
  calls := []

end Talk

/-! ### Calls are writers -/

/-- What a call has still to do is what a writer has, and no loop of it gives up within
`least` passes. -/
inductive Writes (port : UInt16) (least : Nat) : Driver Unit → Writer UInt8 → Prop where
  | ended : Writes port least (pure ()) (.looking [])
  | looking {passes left : Nat} (enough : least ≤ passes) (enoughLeft : least ≤ left)
      (c : UInt8) (text : List UInt8) :
      Writes port least
        (serialWrite port c left >>= fun _ => serialWriteString passes port text)
        (.looking (c :: text))
  | writing {passes : Nat} (enough : least ≤ passes) (c : UInt8) (text : List UInt8) :
      Writes port least
        (portByteOut port c >>= fun _ => serialWriteString passes port text)
        (.writing c text)

/-- The wire is ready, and holds what the line holds, whoever writes to it. -/
structure Carries (wire : Wire) (line : Line UInt8) : Prop where
  fifo : wire.uart.fifoEnabled = true
  unlatched : wire.uart.latched = false
  queue : wire.uart.transmitter = line.queue
  sent : wire.sent = line.sent
  lost : wire.lost = line.lost

/-- The calls are the writers of the line. -/
structure Speaks (port : UInt16) (least : Nat) (talk : Talk) (line : Line UInt8) : Prop where
  carries : Carries talk.wire line
  calls : List.Forall₂ (Writes port least) talk.calls line.stack

/-- The action of the line. -/
def TalkAction.lineAction : TalkAction → LineAction UInt8
  | .transmit => .transmit
  | .call _ message => .interrupt message
  | .resume _ => .proceed

/-- The innermost call has given up. -/
def Talk.GaveUp (talk : Talk) : Prop := talk.calls.head? = some .unfinished

variable {port : UInt16} {least : Nat} {talk : Talk} {line : Line UInt8}

theorem Writes.weaken {fewer : Nat} {call : Driver Unit} {writer : Writer UInt8}
    (writes : Writes port least call writer) (weaker : fewer ≤ least) :
    Writes port fewer call writer := by
  cases writes with
  | ended => exact .ended
  | looking enough enoughLeft c text =>
      exact .looking (Nat.le_trans weaker enough) (Nat.le_trans weaker enoughLeft) c text
  | writing enough c text => exact .writing (Nat.le_trans weaker enough) c text

theorem writes_message (passes : Nat) (enough : least ≤ passes) (message : List UInt8) :
    Writes port least (serialWriteString passes port message) (.looking message) := by
  cases message with
  | nil => exact .ended
  | cons c text => exact .looking enough enough c text

/-- The bit that `serial_transmit_empty` tests. -/
theorem lineStatus_empty (uart : Uart) (others : UInt8) :
    uart.lineStatus others &&& 0x20 = if uart.transmitter.isEmpty then 0x20 else 0 := by
  have split (flag : UInt8) : ((others &&& ~~~ 0x20) ||| flag) &&& 0x20 = flag &&& 0x20 := by
    apply UInt8.toBitVec_inj.mp
    have unrelated : (others.toBitVec &&& ~~~ 0x20#8) &&& 0x20#8 = 0#8 := by
      rw [BitVec.and_assoc]
      exact BitVec.and_zero
    change (others.toBitVec &&& ~~~ 0x20#8 ||| flag.toBitVec) &&& 0x20#8 = flag.toBitVec &&& 0x20#8
    rw [BitVec.and_or_distrib_right, unrelated, BitVec.zero_or]
  rw [Uart.lineStatus, split]
  cases uart.transmitter.isEmpty <;> rfl

theorem Carries.stack {wire : Wire} (carries : Carries wire line) (stack : List (Writer UInt8)) :
    Carries wire { line with stack := stack } :=
  ⟨carries.fifo, carries.unlatched, carries.queue, carries.sent, carries.lost⟩

theorem Carries.transmit {wire : Wire} (carries : Carries wire line) :
    Carries wire.transmit line.transmit := by
  rw [Wire.transmit, Line.transmit, carries.queue]
  cases line.queue with
  | nil => exact carries
  | cons value rest =>
      exact ⟨carries.fifo, carries.unlatched, rfl, congrArg (· ++ [value]) carries.sent,
        carries.lost⟩

theorem Carries.put {wire : Wire} (carries : Carries wire line) (c : UInt8) :
    Carries (wire.put c) (line.put 16 c) := by
  have room : wire.uart.capacity = 16 := if_pos carries.fifo
  rw [Wire.put, Line.put, room, carries.queue]
  split
  · exact ⟨carries.fifo, carries.unlatched, rfl, carries.sent, carries.lost⟩
  · exact ⟨carries.fifo, carries.unlatched, carries.queue, carries.sent,
      congrArg (· ++ [c]) carries.lost⟩

/-- With the divisor out of the way, a byte for the port is one for the transmitter. -/
theorem Carries.write {wire : Wire} (carries : Carries wire line) (c : UInt8) :
    wire.write port port c = wire.put c := by
  rw [Wire.write, if_pos rfl, carries.unlatched]
  rfl

theorem serialWrite_bind (c : UInt8) (left : Nat) (later : Driver Unit) :
    (serialWrite port c (left + 1) >>= fun _ => later) =
      Dialogue.ask (Request.byteIn (port + 5)) fun status =>
        if status &&& 0x20 = 0 then serialWrite port c left >>= fun _ => later
        else portByteOut port c >>= fun _ => later := by
  change Dialogue.ask (Request.byteIn (port + 5)) (fun status =>
    (if status &&& 0x20 = 0 then serialWrite port c left else portByteOut port c) >>=
      fun _ => later) = _
  congr 1
  funext status
  split <;> rfl

theorem Speaks.weaken {fewer : Nat} (speaks : Speaks port least talk line)
    (weaker : fewer ≤ least) : Speaks port fewer talk line :=
  { speaks with calls := speaks.calls.imp fun _ _ writes => writes.weaken weaker }

/-- The answer to a writer that looks for room. -/
theorem Carries.look {wire : Wire} (carries : Carries wire line) (others : UInt8) :
    wire.uart.lineStatus others &&& 0x20 = 0 ↔ line.queue.isEmpty = false := by
  rw [lineStatus_empty, carries.queue]
  cases line.queue.isEmpty <;> decide

/-- A call that has not given up does what its writer does, with one pass less. -/
theorem Speaks.resume (speaks : Speaks port least talk line) (going : ¬ talk.GaveUp)
    (others : UInt8) : Speaks port (least - 1) (talk.resume port others) (line.proceed 16) := by
  obtain ⟨wire, calls⟩ := talk
  obtain ⟨queue, sent, lost, stack⟩ := line
  obtain ⟨carries, pairs⟩ := speaks
  cases pairs with
  | nil => exact ⟨carries, .nil⟩
  | @cons call writer calls writers writes outer =>
      have weaker := outer.imp fun _ _ writes => writes.weaken (Nat.sub_le least 1)
      cases writes with
      | ended => exact ⟨carries.stack _, weaker⟩
      | @looking passes left enough enoughLeft c text =>
          cases left with
          | zero => exact absurd rfl going
          | succ left =>
              rw [serialWrite_bind]
              simp only [Talk.resume, Wire.answers, if_true]
              by_cases busy : wire.uart.lineStatus others &&& 0x20 = 0
              · have full := (carries.look others).mp busy
                simp only [Line.proceed, full, if_pos busy]
                exact ⟨carries, .cons (.looking (by omega) (by omega) c text) weaker⟩
              · have empty : queue.isEmpty = true :=
                  Bool.of_not_eq_false fun full => busy ((carries.look others).mpr full)
                simp only [Line.proceed, empty, if_neg busy]
                exact ⟨carries.stack _, .cons (.writing (by omega) c text) weaker⟩
      | @writing passes enough c text =>
          have put := (carries.put c).stack (.looking text :: writers)
          rw [← carries.write] at put
          exact ⟨put, .cons (writes_message passes (by omega) text) weaker⟩

/-- A call that has given up does nothing. -/
theorem resume_gaveUp (gaveUp : talk.GaveUp) (others : UInt8) :
    talk.resume port others = talk := by
  obtain ⟨wire, calls⟩ := talk
  obtain ⟨call, outer, rfl⟩ : ∃ call outer, calls = call :: outer :=
    List.exists_cons_of_ne_nil fun none => by subst none; exact nomatch gaveUp
  obtain rfl : call = .unfinished := Option.some.inj gaveUp
  rfl

/-- Calls are nested as deep as writers are. -/
theorem Speaks.depth (speaks : Speaks port least talk line) :
    talk.calls.length = line.stack.length :=
  speaks.calls.length_eq

/-- The simulation: what the talk does, the line does, unless it is up to a call that
has given up. -/
theorem Speaks.step (speaks : Speaks port least talk line) (action : TalkAction)
    (going : action.lineAction = .proceed → ¬ talk.GaveUp)
    (enough : ∀ passes message, action = .call passes message → least - 1 ≤ passes) :
    Speaks port (least - 1) (talk.step port action) (line.step 16 action.lineAction) := by
  have weaker := speaks.weaken (Nat.sub_le least 1)
  cases action with
  | transmit =>
      have same : line.transmit.stack = line.stack := by
        rw [Line.transmit]
        split <;> rfl
      refine ⟨speaks.carries.transmit, ?_⟩
      change List.Forall₂ _ talk.calls line.transmit.stack
      rw [same]
      exact weaker.calls
  | call passes message =>
      exact ⟨weaker.carries.stack _,
        .cons (writes_message passes (enough passes message rfl) message) weaker.calls⟩
  | resume others => exact speaks.resume (going rfl) others

/-! ### Nothing is lost -/

/-- The calls are writers that have room, and their line holds the messages, each at its
place. -/
structure Sound (port : UInt16) (placed : List (Nat × List UInt8)) (talk : Talk)
    (line : Line UInt8) : Prop where
  speaks : Speaks port 0 talk line
  roomy : line.Roomy 16
  stream : line.stream = putTogether placed

theorem Speaks.place (speaks : Speaks port least talk line) : talk.place = line.place := by
  rw [Talk.place, Line.place, speaks.carries.sent, speaks.carries.queue]

theorem Sound.step {placed : List (Nat × List UInt8)} (sound : Sound port placed talk line)
    (shallow : talk.Shallow 16) (action : TalkAction) :
    ∃ later, Sound port (placed ++ (action.message?.map (talk.place, ·)).toList)
      (talk.step port action) later := by
  by_cases stuck : action.lineAction = .proceed ∧ talk.GaveUp
  · obtain ⟨proceeds, gaveUp⟩ := stuck
    obtain ⟨others, rfl⟩ : ∃ others, action = .resume others := by
      cases action with
      | transmit => exact nomatch proceeds
      | call passes message => exact nomatch proceeds
      | resume others => exact ⟨others, rfl⟩
    refine ⟨line, ?_⟩
    rw [Talk.step, resume_gaveUp gaveUp, TalkAction.message?, Option.map_none, Option.toList_none,
      List.append_nil]
    exact sound
  · have same : action.message? = action.lineAction.text? := by cases action <;> rfl
    refine ⟨line.step 16 action.lineAction, ?_⟩
    exact
      { speaks := sound.speaks.step action (fun proceeds gaveUp => stuck ⟨proceeds, gaveUp⟩)
          fun _ _ _ => Nat.zero_le _
        roomy := sound.roomy.step (Nat.le_trans (Nat.le_of_eq sound.speaks.depth.symm) shallow) _
        stream := by
          rw [Line.stream_step sound.roomy, sound.stream, putTogether_append, same,
            sound.speaks.place] }

theorem Sound.run {placed : List (Nat × List UInt8)} (sound : Sound port placed talk line)
    {actions : List TalkAction}
    (shallow : Throughout (Talk.step port) (Talk.Shallow 16) talk actions) :
    ∃ later, Sound port (placed ++ talk.placements port actions)
      (run (Talk.step port) talk actions) later := by
  induction actions generalizing talk line placed with
  | nil => exact ⟨line, by simpa [Talk.placements] using sound⟩
  | cons action rest inductionHypothesis =>
      obtain ⟨later, once⟩ := sound.step shallow.1 action
      rw [Talk.placements, ← List.append_assoc]
      exact inductionHypothesis once shallow.2

theorem messages_cons (action : TalkAction) (rest : List TalkAction) :
    messages (action :: rest) = action.message?.toList ++ messages rest := by
  cases action <;> rfl

/-- The places go with the messages, in the order of their calls. -/
theorem placements_messages (talk : Talk) (actions : List TalkAction) :
    (talk.placements port actions).map Prod.snd = messages actions := by
  induction actions generalizing talk with
  | nil => rfl
  | cons action rest inductionHypothesis =>
      rw [Talk.placements, List.map_append, inductionHypothesis, messages_cons]
      cases action <;> rfl

/-! ### The bound is exact -/

theorem Speaks.going (speaks : Speaks port (least + 1) talk line) : ¬ talk.GaveUp := by
  obtain ⟨wire, calls⟩ := talk
  obtain ⟨queue, sent, lost, stack⟩ := line
  obtain ⟨carries, pairs⟩ := speaks
  intro gaveUp
  cases pairs with
  | nil => exact nomatch gaveUp
  | cons writes outer =>
      cases writes with
      | ended => exact nomatch gaveUp
      | @looking passes left enough enoughLeft c text =>
          cases left with
          | zero => exact absurd enoughLeft (Nat.not_succ_le_zero _)
          | succ left =>
              rw [serialWrite_bind] at gaveUp
              exact nomatch gaveUp
      | writing enough c text => exact nomatch gaveUp

/-- Calls with `passes` passes that do what writers do. -/
def talkAction (passes : Nat) : LineAction UInt8 → TalkAction
  | .transmit => .transmit
  | .interrupt text => .call passes text
  | .proceed => .resume 0

theorem Speaks.lift {passes : Nat} (enough : least ≤ passes)
    (speaks : Speaks port (least + 1) talk line) (action : LineAction UInt8) :
    Speaks port least (talk.step port (talkAction passes action)) (line.step 16 action) := by
  have same : (talkAction passes action).lineAction = action := by cases action <;> rfl
  have once := speaks.step (talkAction passes action) (fun _ => speaks.going) (by
    intro others message called
    cases action with
    | interrupt text =>
        obtain ⟨rfl, rfl⟩ := TalkAction.call.inj called
        exact enough
    | transmit => exact nomatch called
    | proceed => exact nomatch called)
  rw [same] at once
  exact once

/-- Calls that never give up do all that writers do, nested as deep. -/
theorem Speaks.run {passes depth : Nat} {actions : List (LineAction UInt8)}
    (enough : actions.length ≤ passes) (speaks : Speaks port actions.length talk line)
    (shallow : Throughout (Line.step 16) (Line.Shallow depth) line actions) :
    Throughout (Talk.step port) (Talk.Shallow depth) talk (actions.map (talkAction passes)) ∧
      Speaks port 0 (run (Talk.step port) talk (actions.map (talkAction passes)))
        (run (Line.step 16) line actions) := by
  induction actions generalizing talk line with
  | nil => exact ⟨Nat.le_trans (Nat.le_of_eq speaks.depth) shallow, speaks⟩
  | cons action rest inductionHypothesis =>
      have shorter : rest.length ≤ passes := Nat.le_of_succ_le enough
      obtain ⟨nested, later⟩ := inductionHypothesis shorter (speaks.lift shorter action) shallow.2
      exact ⟨⟨Nat.le_trans (Nat.le_of_eq speaks.depth) shallow.1, nested⟩, later⟩

/-! ### The line of the kernel -/

variable (wire : Wire) (value : UInt8)

theorem write_divisorLow (latched : wire.uart.latched = true) :
    wire.write port (port + 0) value =
      { wire with uart := { wire.uart with divisorLow := value } } := by
  rw [Wire.write, UInt16.add_zero, if_pos rfl, if_pos latched]

theorem write_divisorHigh :
    wire.write port (port + 1) value =
      if wire.uart.latched then { wire with uart := { wire.uart with divisorHigh := value } }
      else { wire with uart := { wire.uart with interruptEnable := value } } := by
  simp [Wire.write]

theorem write_fifoControl :
    wire.write port (port + 2) value =
      { wire with
        uart := { wire.uart with
          fifoEnabled := value &&& 0x01 ≠ 0
          transmitter := if value &&& 0x04 ≠ 0 then [] else wire.uart.transmitter } } := by
  simp [Wire.write]

theorem write_lineControl :
    wire.write port (port + 3) value =
      { wire with uart := { wire.uart with lineControl := value } } := by
  simp [Wire.write]

theorem write_modemControl :
    wire.write port (port + 4) value =
      { wire with uart := { wire.uart with modemControl := value } } := by
  simp [Wire.write]

/-- `serial_init` leaves an empty queue of sixteen bytes. -/
theorem initialized_speaks (baud : UInt16) (uart : Uart) (others : UInt8) (least : Nat) :
    Speaks port least (Talk.initialized port baud uart others) Line.idle := by
  let found : Wire := { uart := uart, sent := [], lost := [] }
  let latched := (found.write port (port + 1) 0).write port (port + 3) 0x80
  let divided := (latched.write port (port + 0) (baud &&& 0xFF).toUInt8).write port (port + 1)
    ((baud >>> 8) &&& 0xFF).toUInt8
  let ready := ((divided.write port (port + 3) 0x03).write port (port + 2) 0xC7).write port
    (port + 4) 0x0B
  have latch : latched = { found with uart := latched.uart } ∧ latched.uart.latched = true := by
    simp only [latched, write_lineControl, write_divisorHigh]
    constructor
    · split <;> rfl
    · simp [Uart.latched]
  have divide : divided = { latched with uart := divided.uart } := by
    simp only [divided, write_divisorLow _ _ latch.2, write_divisorHigh]
    split <;> rfl
  refine ⟨?_, .nil⟩
  change Carries ready Line.idle
  simp only [ready, write_modemControl, write_fifoControl, write_lineControl]
  rw [divide, latch.1]
  have free : (0x03 : UInt8) &&& 0x80 = 0 := by decide
  exact ⟨rfl, by simp [Uart.latched, free], rfl, rfl, rfl⟩

/-- However deep calls of `serial_write_string` interrupt each other after
`serial_init`, and whenever the chip sends a byte in between: up to sixteen of them
nothing is lost, and what goes out is each message put whole into the stream, behind
the bytes that the chip had been handed when its call interrupted the others.
Seventeen can lose a byte. -/
theorem serial_line_nesting (port baud : UInt16) (uart : Uart) (others : UInt8) :
    (∀ actions : List TalkAction,
      Throughout (Talk.step port) (Talk.Shallow 16) (.initialized port baud uart others) actions →
        let talk := run (Talk.step port) (.initialized port baud uart others) actions
        talk.wire.lost = [] ∧
          ∃ waiting, (talk.calls = [] → waiting = []) ∧
            Merged (messages actions)
              (talk.wire.sent ++ talk.wire.uart.transmitter ++ waiting) ∧
            talk.wire.sent ++ talk.wire.uart.transmitter ++ waiting =
              putTogether ((Talk.initialized port baud uart others).placements port actions)) ∧
      ∃ actions : List TalkAction,
        Throughout (Talk.step port) (Talk.Shallow 17) (.initialized port baud uart others) actions ∧
          (run (Talk.step port) (.initialized port baud uart others) actions).wire.lost ≠ [] := by
  constructor
  · intro actions shallow
    have initially : Sound port [] (.initialized port baud uart others) Line.idle :=
      { speaks := initialized_speaks baud uart others 0
        roomy := Line.roomy_idle 16
        stream := rfl }
    obtain ⟨line, sound⟩ := initially.run shallow
    have carries := sound.speaks.carries
    have together := sound.stream
    rw [List.nil_append] at together
    refine ⟨carries.lost.trans sound.roomy.lossless, line.stack.flatMap Writer.pending, ?_, ?_, ?_⟩
    · intro ended
      have depth := sound.speaks.depth
      rw [ended] at depth
      rw [List.eq_nil_of_length_eq_zero depth.symm, List.flatMap_nil]
    · rw [carries.sent, carries.queue, ← placements_messages]
      have merged := merged_putTogether
        ((Talk.initialized port baud uart others).placements port actions)
      rwa [← together] at merged
    · rw [carries.sent, carries.queue]
      exact together
  · let crowd := Line.crowd (0x21 : UInt8) 17
    have shallow : Throughout (Line.step 16) (Line.Shallow 17) Line.idle crowd :=
      Line.shallow_run (by rw [Line.startedTexts_crowd]; exact Nat.le_refl 17)
    have speaks : Speaks port crowd.length (.initialized port baud uart others) Line.idle :=
      initialized_speaks baud uart others crowd.length
    obtain ⟨nested, later⟩ := speaks.run (Nat.le_refl crowd.length) shallow
    refine ⟨_, nested, ?_⟩
    rw [later.carries.lost]
    exact Line.crowd_loses 16 0x21

end NansOS.Boot
