import NansOS.Foundation.Run

/-! Owns `mouse_handler`: the packet it assembles from three bytes, the position
it keeps, and what it does in order during one interrupt. Sums of a position and
a movement stay far inside 32 bits, so they are integers here. Debug output is
left out. -/

namespace NansOS.Mouse

/-- `MOUSE_IRQ`. -/
abbrev mouseIrq : UInt8 := 12

/-- `struct MouseState`, without the field `scroll` that nothing writes. -/
structure MouseState where
  xPos : UInt16
  yPos : UInt16
  buttons : UInt8
deriving DecidableEq

/-- `struct MousePacket`, without the field `z_movement` that nothing uses. -/
structure MousePacket where
  buttons : UInt8
  xMovement : Int16
  yMovement : Int16
deriving DecidableEq

/-- `mouse_state`, and the variables `cycle` and `packet` of the handler. -/
structure MouseDriver where
  state : MouseState
  cycle : UInt8
  packet : MousePacket
deriving DecidableEq

/-- The variables at boot. -/
def MouseDriver.initial : MouseDriver where
  state :=
    { xPos := 512
      yPos := 384
      buttons := 0 }
  cycle := 0
  packet :=
    { buttons := 0
      xMovement := 0
      yMovement := 0 }

/-- What the handler does besides updating its variables. -/
inductive MouseCall where
  | mouseCallback (state : MouseState)
  | sendEoi (irq : UInt8)
deriving DecidableEq

/-- `(int8_t)data`, widened. -/
def movementOf (data : UInt8) : Int16 := data.toInt8.toInt16

/-- `(value < 0) ? 0 : (value > limit) ? limit : value`, stored in 16 bits. -/
def clamp (limit value : Int) : UInt16 :=
  UInt16.ofNat (if value < 0 then 0 else if value > limit then limit else value).toNat

/-- The mouse state after a complete packet. -/
def applyPacket (packet : MousePacket) (state : MouseState) : MouseState where
  xPos := clamp 1023 (state.xPos.toNat + packet.xMovement.toInt)
  yPos := clamp 767 (state.yPos.toNat - packet.yMovement.toInt)
  buttons := packet.buttons &&& 0x07

/-- The `switch (cycle)` on a byte of data. -/
def takeByte (callback : Bool) (data : UInt8) (mouse : MouseDriver) :
    List MouseCall × MouseDriver :=
  if mouse.cycle = 0 then
    if data &&& 0x08 ≠ 0 then
      ([], { mouse with packet.buttons := data, cycle := 1 })
    else ([], mouse)
  else if mouse.cycle = 1 then
    ([], { mouse with packet.xMovement := movementOf data, cycle := 2 })
  else if mouse.cycle = 2 then
    let packet := { mouse.packet with yMovement := movementOf data }
    let state := applyPacket packet mouse.state
    (if callback then [.mouseCallback state] else [],
      { state := state
        cycle := 0
        packet := packet })
  else ([], mouse)

/-- `mouse_handler`: the status and the data byte are what the ports give. -/
def mouseHandler (callback : Bool) (status data : UInt8) (mouse : MouseDriver) :
    List MouseCall × MouseDriver :=
  if status &&& 0x20 = 0 then ([.sendEoi mouseIrq], mouse)
  else
    let (calls, after) := takeByte callback data mouse
    (calls ++ [.sendEoi mouseIrq], after)

end NansOS.Mouse
