import NansOS.Mouse.Packets

/-! Owns the movement in a packet: the numbers of nine bits that a mouse sends,
whose signs are in the first byte, and when the handler, which takes the sign
from the byte of the movement, moves the pointer by them. -/

namespace NansOS.Mouse

open NansOS.Foundation

/-! ### Reports of the mouse -/

/-- The interrupts of a packet without overflow. -/
structure Report where
  first : MouseInterrupt
  x : MouseInterrupt
  y : MouseInterrupt
  fromMouse : first.fromMouse ∧ x.fromMouse ∧ y.fromMouse
  synchronized : first.data &&& 0x08 ≠ 0
  inRange : first.data &&& 0xC0 = 0

def Report.packet (report : Report) : Packet where
  first := report.first.data
  x := report.x.data
  y := report.y.data

/-- The handler on the three interrupts of a report. -/
def Session.report (callback : Bool) (session : Session) (report : Report) : Session :=
  run (Session.interrupt callback) session [report.first, report.x, report.y]

/-- A driver that waits for a packet. -/
def Session.idle (state : MouseState) (packet : MousePacket) : Session where
  mouse :=
    { state := state
      cycle := 0
      packet := packet }
  callbacks := []

/-- A number of nine bits: `sign` is the mask of its sign bit in the first byte. -/
def Packet.signed (packet : Packet) (sign byte : UInt8) : Int :=
  byte.toNat - if packet.first &&& sign = 0 then 0 else 256

/-- The horizontal movement. -/
def Packet.dx (packet : Packet) : Int := packet.signed 0x10 packet.x

/-- The vertical movement, upwards. -/
def Packet.dy (packet : Packet) : Int := packet.signed 0x20 packet.y

/-- The pointer moved by what the packet says, as far as the screen goes. -/
structure MovedBy (packet : Packet) (before after : MouseState) : Prop where
  x : (after.xPos.toNat : Int) = max 0 (min 1023 (before.xPos.toNat + packet.dx))
  y : (after.yPos.toNat : Int) = max 0 (min 767 (before.yPos.toNat - packet.dy))

/-- The sign bit equals the highest bit of the byte. -/
def Packet.SignAgrees (packet : Packet) (sign byte : UInt8) : Prop :=
  packet.first &&& sign = 0 ↔ byte.toNat < 128

/-- Both signs agree with the bytes, or the pointer is stopped by the same edge
of the screen for either sign. -/
structure ReadAlike (packet : Packet) (before : MouseState) : Prop where
  x : packet.SignAgrees 0x10 packet.x ∨ before.xPos.toNat + packet.x.toNat = 0 ∨
    1279 ≤ before.xPos.toNat + packet.x.toNat
  y : packet.SignAgrees 0x20 packet.y ∨ 767 + packet.y.toNat ≤ before.yPos.toNat

/-! ### One report -/

theorem toInt_movementOf (byte : UInt8) :
    (movementOf byte).toInt = byte.toNat - if byte.toNat < 128 then 0 else 256 := by
  unfold movementOf
  rw [Int8.toInt_toInt16]
  show byte.toBitVec.toInt = _
  rw [BitVec.toInt_eq_toNat_cond]
  have bound := byte.toNat_lt
  show (if 2 * byte.toNat < 2 ^ 8 then (byte.toNat : Int) else byte.toNat - (2 ^ 8 : Nat)) = _
  grind

theorem report_mouse (callback : Bool) {session : Session} (waiting : session.mouse.cycle = 0)
    (report : Report) :
    (session.report callback report).mouse =
      { state := applyPacket report.packet.fields session.mouse.state
        cycle := 0
        packet := report.packet.fields } := by
  unfold Session.report
  rw [run_interrupts]
  have mine : ([report.first, report.x, report.y].filter MouseInterrupt.fromMouse).map
      MouseInterrupt.data = [report.packet.first, report.packet.x, report.packet.y] := by
    simp [report.fromMouse, Report.packet]
  rw [mine, take_packet callback waiting report.packet report.synchronized]
  rfl

theorem movedBy_iff (packet : Packet) (before : MouseState) :
    MovedBy packet before (applyPacket packet.fields before) ↔ ReadAlike packet before := by
  have xBound := packet.x.toNat_lt
  have yBound := packet.y.toNat_lt
  have horizontal : ((applyPacket packet.fields before).xPos.toNat : Int) =
        max 0 (min 1023 (before.xPos.toNat + packet.dx)) ↔
      packet.SignAgrees 0x10 packet.x ∨ before.xPos.toNat + packet.x.toNat = 0 ∨
        1279 ≤ before.xPos.toNat + packet.x.toNat := by
    simp only [applyPacket, Packet.fields, Packet.dx, Packet.signed, Packet.SignAgrees,
      toNat_clamp 1023 (by decide) (by decide), toInt_movementOf]
    grind
  have vertical : ((applyPacket packet.fields before).yPos.toNat : Int) =
        max 0 (min 767 (before.yPos.toNat - packet.dy)) ↔
      packet.SignAgrees 0x20 packet.y ∨ 767 + packet.y.toNat ≤ before.yPos.toNat := by
    simp only [applyPacket, Packet.fields, Packet.dy, Packet.signed, Packet.SignAgrees,
      toNat_clamp 767 (by decide) (by decide), toInt_movementOf]
    grind
  constructor
  · intro moved
    exact ⟨horizontal.mp moved.x, vertical.mp moved.y⟩
  · intro alike
    exact ⟨horizontal.mpr alike.x, vertical.mpr alike.y⟩

/-! ### Streams of reports -/

/-- In every stream of reports the pointer moves as each of them says exactly
when each is read alike with its own sign bits. -/
theorem reports_move_iff (callback : Bool) (state : MouseState) (packet : MousePacket)
    (reports : List Report) :
    Along (Session.report callback)
        (fun session report => MovedBy report.packet session.mouse.state
          (session.report callback report).mouse.state)
        (Session.idle state packet) reports ↔
      Along (Session.report callback)
        (fun session report => ReadAlike report.packet session.mouse.state)
        (Session.idle state packet) reports := by
  apply along_iff (fun session : Session => session.mouse.cycle = 0) (fun _ _ => True)
  · intro session report waiting _ _
    rw [report_mouse callback waiting report]
  · intro session report waiting _
    rw [report_mouse callback waiting report]
    exact movedBy_iff report.packet session.mouse.state
  · rfl
  · exact along_of_forall fun _ _ => trivial

/-- 200 to the right from the middle of the screen, the sign bits clear: the
pointer goes to the left. -/
theorem fast_report_moves_back :
    ¬ ∀ (callback : Bool) (state : MouseState) (packet : MousePacket) (reports : List Report),
      Along (Session.report callback)
        (fun session report => MovedBy report.packet session.mouse.state
          (session.report callback report).mouse.state)
        (Session.idle state packet) reports := by
  intro every
  let fast : Report :=
    { first := ⟨0x21, 0x08⟩
      x := ⟨0x21, 200⟩
      y := ⟨0x21, 0⟩
      fromMouse := by decide
      synchronized := by decide
      inRange := by decide }
  have moved := (every false MouseDriver.initial.state MouseDriver.initial.packet [fast]).1.x
  exact absurd moved (by decide)

end NansOS.Mouse
