import NansOS.Mouse.Handler

/-! Owns what a sequence of mouse interrupts comes to: the bytes that are from
the mouse, cut into packets of three with resynchronization in between, each of
which updates the mouse state and calls the callback once. -/

namespace NansOS.Mouse

open NansOS.Foundation

/-! ### Sequences of interrupts -/

/-- What the ports give to `mouse_handler` in one interrupt. -/
structure MouseInterrupt where
  status : UInt8
  data : UInt8

/-- The status has bit 5 set. -/
def MouseInterrupt.fromMouse (interrupt : MouseInterrupt) : Bool := interrupt.status &&& 0x20 ≠ 0

/-- The driver, and the states that the callback was called with. -/
structure Session where
  mouse : MouseDriver
  callbacks : List MouseState
deriving DecidableEq

/-- At boot. -/
def Session.initial : Session where
  mouse := MouseDriver.initial
  callbacks := []

/-- The argument of a callback. -/
def MouseCall.callbackState : MouseCall → Option MouseState
  | .mouseCallback state => some state
  | .sendEoi _ => none

@[simp] theorem callbackState_mouseCallback (state : MouseState) :
    (MouseCall.mouseCallback state).callbackState = some state := rfl

@[simp] theorem callbackState_sendEoi (irq : UInt8) :
    (MouseCall.sendEoi irq).callbackState = none := rfl

def Session.interrupt (callback : Bool) (session : Session) (interrupt : MouseInterrupt) :
    Session :=
  let (calls, after) := mouseHandler callback interrupt.status interrupt.data session.mouse
  { mouse := after
    callbacks := session.callbacks ++ calls.filterMap MouseCall.callbackState }

/-! ### Packets -/

/-- The three bytes of a packet. -/
structure Packet where
  first : UInt8
  x : UInt8
  y : UInt8
deriving DecidableEq

/-- The packets of a stream, and the bytes behind the last of them. Bytes with
bit 3 clear are skipped where a packet may start. -/
def frames : List UInt8 → List Packet × List UInt8
  | [] => ([], [])
  | byte :: rest =>
      if byte &&& 0x08 = 0 then frames rest
      else
        match rest with
        | x :: y :: rest => (⟨byte, x, y⟩ :: (frames rest).1, (frames rest).2)
        | rest => ([], byte :: rest)

theorem frames_skipped {byte : UInt8} (unsynchronized : byte &&& 0x08 = 0) (rest : List UInt8) :
    frames (byte :: rest) = frames rest := by
  rw [frames.eq_def]
  simp only [if_pos unsynchronized]

theorem frames_packet {byte : UInt8} (synchronized : byte &&& 0x08 ≠ 0) (x y : UInt8)
    (rest : List UInt8) :
    frames (byte :: x :: y :: rest) = (⟨byte, x, y⟩ :: (frames rest).1, (frames rest).2) := by
  rw [frames.eq_def]
  simp only [if_neg synchronized]

theorem frames_short {byte : UInt8} (synchronized : byte &&& 0x08 ≠ 0) {rest : List UInt8}
    (short : rest.length < 2) : frames (byte :: rest) = ([], byte :: rest) := by
  rw [frames.eq_def]
  match rest, short with
  | [], _ => simp only [if_neg synchronized]
  | [_], _ => simp only [if_neg synchronized]

/-- The fields that a complete packet leaves in `packet`. -/
def Packet.fields (packet : Packet) : MousePacket where
  buttons := packet.first
  xMovement := movementOf packet.x
  yMovement := movementOf packet.y

/-- The mouse states behind each of some packets. -/
def statesBehind (state : MouseState) (packets : List Packet) : List MouseState :=
  (packets.scanl (fun state packet => applyPacket packet.fields state) state).tail

/-- The driver holds the bytes of an incomplete packet. -/
structure Pending (bytes : List UInt8) (mouse : MouseDriver) : Prop where
  cycle : mouse.cycle.toNat = bytes.length
  first : ∀ byte, bytes[0]? = some byte → mouse.packet.buttons = byte
  second : ∀ byte, bytes[1]? = some byte → mouse.packet.xMovement = movementOf byte

/-- The position is on a screen of 1024 by 768, and no bit but the three of the
buttons is set. -/
structure OnDesktop (state : MouseState) : Prop where
  x : state.xPos.toNat ≤ 1023
  y : state.yPos.toNat ≤ 767
  buttons : state.buttons.toNat ≤ 7

/-! ### The handler -/

theorem interrupt_foreign (callback : Bool) (session : Session) (interrupt : MouseInterrupt)
    (foreign : interrupt.fromMouse = false) : session.interrupt callback interrupt = session := by
  have clear : interrupt.status &&& 0x20 = 0 := by
    simpa [MouseInterrupt.fromMouse] using foreign
  simp [Session.interrupt, mouseHandler, clear, List.filterMap_cons]

/-- A byte from the mouse. -/
def Session.take (callback : Bool) (session : Session) (data : UInt8) : Session where
  mouse := (takeByte callback data session.mouse).2
  callbacks := session.callbacks ++
    (takeByte callback data session.mouse).1.filterMap MouseCall.callbackState

theorem interrupt_mouse (callback : Bool) (session : Session) (interrupt : MouseInterrupt)
    (own : interrupt.fromMouse = true) :
    session.interrupt callback interrupt = session.take callback interrupt.data := by
  have set : interrupt.status &&& 0x20 ≠ 0 := by
    simpa [MouseInterrupt.fromMouse] using own
  simp [Session.interrupt, Session.take, mouseHandler, set]

/-- The bytes from the mouse decide what a run comes to. -/
theorem run_interrupts (callback : Bool) (session : Session) (interrupts : List MouseInterrupt) :
    run (Session.interrupt callback) session interrupts =
      run (Session.take callback) session
        ((interrupts.filter MouseInterrupt.fromMouse).map MouseInterrupt.data) := by
  rw [← run_filter MouseInterrupt.fromMouse (interrupt_foreign callback) session interrupts]
  have own : ∀ interrupt ∈ interrupts.filter MouseInterrupt.fromMouse,
      interrupt.fromMouse = true := fun _ member => List.of_mem_filter member
  generalize interrupts.filter MouseInterrupt.fromMouse = mine at own
  induction mine generalizing session with
  | nil => rfl
  | cons interrupt rest inductionHypothesis =>
      rw [List.map_cons, run_cons, run_cons,
        interrupt_mouse callback session interrupt (own interrupt List.mem_cons_self),
        inductionHypothesis _ fun other member => own other (List.mem_cons_of_mem _ member)]

section Bytes

variable (callback : Bool) {session : Session}

theorem take_skipped (waiting : session.mouse.cycle = 0) {byte : UInt8}
    (unsynchronized : byte &&& 0x08 = 0) : session.take callback byte = session := by
  simp [Session.take, takeByte, waiting, unsynchronized]

theorem take_first (waiting : session.mouse.cycle = 0) {first : UInt8}
    (synchronized : first &&& 0x08 ≠ 0) :
    session.take callback first =
      { session with mouse := { session.mouse with packet.buttons := first, cycle := 1 } } := by
  simp [Session.take, takeByte, waiting, synchronized]

theorem take_second (waiting : session.mouse.cycle = 1) (x : UInt8) :
    session.take callback x =
      { session with
        mouse := { session.mouse with packet.xMovement := movementOf x, cycle := 2 } } := by
  simp [Session.take, takeByte, waiting]

/-- The session behind a packet. -/
def Session.complete (session : Session) (packet : Packet) : Session where
  mouse :=
    { state := applyPacket packet.fields session.mouse.state
      cycle := 0
      packet := packet.fields }
  callbacks := session.callbacks ++
    if callback then [applyPacket packet.fields session.mouse.state] else []

/-- The three bytes of a packet. -/
theorem take_packet (waiting : session.mouse.cycle = 0) (packet : Packet)
    (synchronized : packet.first &&& 0x08 ≠ 0) :
    run (Session.take callback) session [packet.first, packet.x, packet.y] =
      session.complete callback packet := by
  rw [run_cons, take_first callback waiting synchronized, run_cons, take_second callback rfl,
    run_cons, run_nil]
  cases callback with
  | false => simp [Session.take, takeByte, Packet.fields, Session.complete]
  | true => simp [Session.take, takeByte, Packet.fields, Session.complete]

/-- What some bytes make of a driver that waits for a packet. -/
structure Framed (callback : Bool) (bytes : List UInt8) (before after : Session) : Prop where
  state : after.mouse.state =
    (frames bytes).1.foldl (fun state packet => applyPacket packet.fields state)
      before.mouse.state
  callbacks : after.callbacks = before.callbacks ++
    if callback then statesBehind before.mouse.state (frames bytes).1 else []
  pending : Pending (frames bytes).2 after.mouse

theorem statesBehind_cons (state : MouseState) (packet : Packet) (packets : List Packet) :
    statesBehind state (packet :: packets) =
      applyPacket packet.fields state ::
        statesBehind (applyPacket packet.fields state) packets := by
  cases packets with
  | nil => simp [statesBehind]
  | cons next rest => simp [statesBehind]

theorem framed_skipped {byte : UInt8} {rest : List UInt8} {after : Session}
    (unsynchronized : byte &&& 0x08 = 0) (later : Framed callback rest session after) :
    Framed callback (byte :: rest) session after where
  state := by rw [frames_skipped unsynchronized, later.state]
  callbacks := by rw [frames_skipped unsynchronized, later.callbacks]
  pending := by
    rw [frames_skipped unsynchronized]
    exact later.pending

theorem framed_packet {byte x y : UInt8} {rest : List UInt8} {after : Session}
    (synchronized : byte &&& 0x08 ≠ 0)
    (later : Framed callback rest (session.complete callback ⟨byte, x, y⟩) after) :
    Framed callback (byte :: x :: y :: rest) session after where
  state := by
    rw [frames_packet synchronized, later.state]
    rfl
  callbacks := by
    rw [frames_packet synchronized, later.callbacks, statesBehind_cons]
    cases callback with
    | false => simp [Session.complete]
    | true => simp [Session.complete]
  pending := by
    rw [frames_packet synchronized]
    exact later.pending

/-- Up to two bytes of a packet are held, and nothing else happens. -/
theorem framed_short {byte : UInt8} {rest : List UInt8} {after : Session}
    (synchronized : byte &&& 0x08 ≠ 0) (short : rest.length < 2)
    (state : after.mouse.state = session.mouse.state)
    (callbacks : after.callbacks = session.callbacks)
    (pending : Pending (byte :: rest) after.mouse) :
    Framed callback (byte :: rest) session after where
  state := by
    rw [frames_short synchronized short, state]
    rfl
  callbacks := by
    rw [frames_short synchronized short, callbacks]
    simp [statesBehind]
  pending := by
    rw [frames_short synchronized short]
    exact pending

/-- The induction is on the framing: a skipped byte, a whole packet, or the one
or two bytes of a packet that goes on behind the end. -/
theorem run_take_framed (waiting : session.mouse.cycle = 0) (bytes : List UInt8) :
    Framed callback bytes session (run (Session.take callback) session bytes) := by
  induction bytes using frames.induct generalizing session with
  | case1 =>
      exact
        { state := by simp [frames]
          callbacks := by simp [frames, statesBehind]
          pending :=
            { cycle := by simp [frames, waiting]
              first := by simp [frames]
              second := by simp [frames] } }
  | case2 byte rest unsynchronized inductionHypothesis =>
      rw [run_cons, take_skipped callback waiting unsynchronized]
      exact framed_skipped callback unsynchronized (inductionHypothesis waiting)
  | case3 byte synchronized x y rest inductionHypothesis =>
      have splits : run (Session.take callback) session (byte :: x :: y :: rest) =
          run (Session.take callback)
            (run (Session.take callback) session [byte, x, y]) rest :=
        run_append session [byte, x, y] rest
      rw [splits, take_packet callback waiting ⟨byte, x, y⟩ synchronized]
      exact framed_packet callback synchronized (inductionHypothesis rfl)
  | case4 byte synchronized rest long =>
      match rest, long with
      | [], _ =>
          rw [run_cons, take_first callback waiting synchronized, run_nil]
          refine framed_short callback synchronized (by simp) rfl rfl ?_
          exact
            { cycle := rfl
              first := by simp
              second := by simp }
      | [x], _ =>
          rw [run_cons, take_first callback waiting synchronized, run_cons,
            take_second callback rfl, run_nil]
          refine framed_short callback synchronized (by simp) rfl rfl ?_
          exact
            { cycle := rfl
              first := by simp
              second := by simp }
      | x :: y :: rest, long => exact absurd rfl (long x y rest)

end Bytes

/-! ### Positions -/

theorem toNat_clamp (limit : Int) (positive : 0 ≤ limit) (fits : limit < 65536) (value : Int) :
    ((clamp limit value).toNat : Int) = max 0 (min limit value) := by
  unfold clamp
  rw [UInt16.toNat_ofNat']
  grind

theorem applyPacket_onDesktop (packet : MousePacket) (state : MouseState) :
    OnDesktop (applyPacket packet state) where
  x := by
    have clamped := toNat_clamp 1023 (by decide) (by decide)
      (state.xPos.toNat + packet.xMovement.toInt)
    simp only [applyPacket]
    omega
  y := by
    have clamped := toNat_clamp 767 (by decide) (by decide)
      (state.yPos.toNat - packet.yMovement.toInt)
    simp only [applyPacket]
    omega
  buttons := by
    simp only [applyPacket, UInt8.toNat_and]
    exact Nat.and_le_right

theorem initial_onDesktop : OnDesktop Session.initial.mouse.state where
  x := by decide
  y := by decide
  buttons := by decide

theorem take_onDesktop (callback : Bool) {session : Session}
    (holds : OnDesktop session.mouse.state) (data : UInt8) :
    OnDesktop (session.take callback data).mouse.state := by
  simp only [Session.take, takeByte]
  split
  · split
    · exact holds
    · exact holds
  · split
    · exact holds
    · split
      · exact applyPacket_onDesktop _ _
      · exact holds

theorem interrupt_onDesktop (callback : Bool) {session : Session}
    (holds : OnDesktop session.mouse.state) (interrupt : MouseInterrupt) :
    OnDesktop (session.interrupt callback interrupt).mouse.state := by
  cases own : interrupt.fromMouse with
  | false =>
      rw [interrupt_foreign callback session interrupt own]
      exact holds
  | true =>
      rw [interrupt_mouse callback session interrupt own]
      exact take_onDesktop callback holds interrupt.data

/-! ### The main result -/

/-- Interrupts that are not from the mouse can be left out, the bytes of the
others are framed, and the position is on the desktop all the time. -/
theorem mouse_framing (callback : Bool) (interrupts : List MouseInterrupt) :
    (∀ session, run (Session.interrupt callback) session
        (interrupts.filter MouseInterrupt.fromMouse) =
      run (Session.interrupt callback) session interrupts) ∧
    Framed callback ((interrupts.filter MouseInterrupt.fromMouse).map MouseInterrupt.data)
      Session.initial (run (Session.interrupt callback) Session.initial interrupts) ∧
    Throughout (Session.interrupt callback) (fun session : Session => OnDesktop session.mouse.state)
      Session.initial interrupts := by
  refine ⟨fun session => ?_, ?_, ?_⟩
  · exact run_filter MouseInterrupt.fromMouse (interrupt_foreign callback) session interrupts
  · rw [run_interrupts]
    exact run_take_framed callback rfl _
  · rw [throughout_iff_leading]
    intro first _
    exact run_invariant (fun _ _ => True) (fun session : Session => OnDesktop session.mouse.state)
      (fun _ interrupt holds _ => interrupt_onDesktop callback holds interrupt)
      initial_onDesktop (along_of_forall fun _ _ => trivial)

end NansOS.Mouse
