import NansOS.Foundation.Dialogue

/-! Owns what drivers ask of the processor, one request at a time: port bytes, the
interrupt flag and the descriptor table. The drivers of the serial line, the
interrupt controllers, the timer and the clock are programs over these requests,
against any answers; with ports attached, each says what the function does to a bus
or a chip. A loop that waits without a limit gives up after `passes` passes, so that
what holds for every number of them holds of the loop. -/

namespace NansOS.Boot

open NansOS.Foundation

/-! ### Requests -/

/-- An instruction that reaches beyond memory. -/
inductive Request where
  | byteIn (port : UInt16)
  | byteOut (port : UInt16) (value : UInt8)
  | cli
  | sti
  | lidt
deriving DecidableEq

/-- Only a read has something to tell. -/
abbrev Reply : Request → Type
  | .byteIn _ => UInt8
  | _ => Unit

/-- A driver function. -/
abbrev Driver : Type → Type := Dialogue Request Reply

def portByteIn (port : UInt16) : Driver UInt8 := .request (Request.byteIn port)

def portByteOut (port : UInt16) (value : UInt8) : Driver Unit :=
  .request (Request.byteOut port value)

def asmCli : Driver Unit := .request Request.cli

def asmSti : Driver Unit := .request Request.sti

/-- `port_io_wait`. -/
def portIoWait : Driver Unit := portByteOut 0x80 0

/-- The bytes of a text in the source. -/
def textBytes (text : String) : List UInt8 := text.toUTF8.toList

/-- `port_byte_in` and `port_byte_out` on what is attached to the ports. -/
structure Ports (Attached : Type) where
  byteIn : UInt16 → Attached → UInt8 × Attached
  byteOut : UInt16 → UInt8 → Attached → Attached

/-- Ports as a world that answers. -/
def Ports.answers {Attached : Type} (ports : Ports Attached) :
    (request : Request) → Attached → Reply request × Attached
  | .byteIn port, attached => ports.byteIn port attached
  | .byteOut port value, attached => ((), ports.byteOut port value attached)
  | .cli, attached => ((), attached)
  | .sti, attached => ((), attached)
  | .lidt, attached => ((), attached)

/-! ### The serial line -/

/-- `COM1_PORT`. -/
abbrev com1Port : UInt16 := 0x3F8

/-- `SERIAL_BAUD_115200`, the divisor that it stands for. -/
abbrev serialBaud115200 : UInt16 := 1

/-- `serial_init`. -/
def serialInit (port baud : UInt16) : Driver Unit := do
  portByteOut (port + 1) 0x00
  portByteOut (port + 3) 0x80
  portByteOut (port + 0) (baud &&& 0xFF).toUInt8
  portByteOut (port + 1) ((baud >>> 8) &&& 0xFF).toUInt8
  portByteOut (port + 3) 0x03
  portByteOut (port + 2) 0xC7
  portByteOut (port + 4) 0x0B

/-- `serial_transmit_empty`. -/
def serialTransmitEmpty (port : UInt16) : Driver UInt8 := do
  let status ← portByteIn (port + 5)
  pure (status &&& 0x20)

/-- `serial_write`, whose loop waits for the line. -/
def serialWrite (port : UInt16) (c : UInt8) : (passes : Nat) → Driver Unit
  | 0 => .unfinished
  | passes + 1 => do
      let empty ← serialTransmitEmpty port
      if empty = 0 then serialWrite port c passes else portByteOut port c

/-- `serial_write_string`. -/
def serialWriteString (passes : Nat) (port : UInt16) : List UInt8 → Driver Unit
  | [] => pure ()
  | c :: text => do
      serialWrite port c passes
      serialWriteString passes port text

section Requests

variable {property : Request → Prop} {port : UInt16} (looks : property (.byteIn (port + 5)))
variable (writes : ∀ c, property (.byteOut port c))
include looks writes

/-- A call of `serial_write` looks at the line status and writes to the line. -/
theorem requests_serialWrite (c : UInt8) (passes : Nat) :
    (serialWrite port c passes).Requests property := by
  induction passes with
  | zero => trivial
  | succ passes inductionHypothesis =>
      refine ⟨looks, fun status => ?_⟩
      change (if status &&& 0x20 = 0 then serialWrite port c passes
        else portByteOut port c).Requests property
      split
      · exact inductionHypothesis
      · exact ⟨writes c, fun _ => trivial⟩

theorem requests_serialWriteString (passes : Nat) (text : List UInt8) :
    (serialWriteString passes port text).Requests property := by
  induction text with
  | nil => trivial
  | cons c text inductionHypothesis =>
      exact (requests_serialWrite looks writes c passes).bind fun _ => inductionHypothesis

end Requests

/-! ### The interrupt controllers -/

abbrev pic1Command : UInt16 := 0x20
abbrev pic1Data : UInt16 := 0x21
abbrev pic2Command : UInt16 := 0xA0
abbrev pic2Data : UInt16 := 0xA1

/-- `ICW1_INIT`. -/
abbrev icw1Init : UInt8 := 0x10

/-- `ICW1_ICW4`. -/
abbrev icw1Icw4 : UInt8 := 0x01

/-- `ICW4_8086`. -/
abbrev icw4Mode8086 : UInt8 := 0x01

/-- One `port_byte_out` with the delay that follows it. -/
def portByteOutSlowly (port : UInt16) (value : UInt8) : Driver Unit := do
  portByteOut port value
  portIoWait

/-- `pic_init`. The masks that it reads first are not used. -/
def picInit : Driver Unit := do
  let _mask1 ← portByteIn pic1Data
  let _mask2 ← portByteIn pic2Data
  portByteOutSlowly pic1Command (icw1Init ||| icw1Icw4)
  portByteOutSlowly pic2Command (icw1Init ||| icw1Icw4)
  portByteOutSlowly pic1Data 0x20
  portByteOutSlowly pic2Data 0x28
  portByteOutSlowly pic1Data 4
  portByteOutSlowly pic2Data 2
  portByteOutSlowly pic1Data icw4Mode8086
  portByteOutSlowly pic2Data icw4Mode8086
  portByteOutSlowly pic1Data 0xF8
  portByteOutSlowly pic2Data 0xFF

/-- The port of a line's mask, and the bit of the line in it. -/
def maskBit (irq : UInt8) : UInt16 × UInt32 :=
  if irq < 8 then (pic1Data, 1 <<< irq.toUInt32) else (pic2Data, 1 <<< (irq - 8).toUInt32)

/-- `pic_clear_mask`. -/
def picClearMask (irq : UInt8) : Driver Unit := do
  let value ← portByteIn (maskBit irq).1
  portByteOut (maskBit irq).1 (value.toUInt32 &&& ~~~ (maskBit irq).2).toUInt8

/-! ### The timer -/

abbrev pitChannel0 : UInt16 := 0x40
abbrev pitCommand : UInt16 := 0x43

abbrev pitChannel0Select : UInt8 := 0x00
abbrev pitLobyteHibyte : UInt8 := 0x30
abbrev pitSquareWave : UInt8 := 0x06
abbrev pitBinaryMode : UInt8 := 0x00

abbrev pitFrequency : UInt32 := 1193180

/-- `PIT_DEFAULT_HZ`. -/
abbrev pitDefaultHz : UInt32 := 100

/-- `PIT_IRQ`. -/
abbrev pitIrq : UInt8 := 0

/-- `pit_set_frequency`. The processor divides by `hz` first: at 0 that is a divide
error, from which the call does not go on. -/
def pitSetFrequency (hz : UInt32) : Driver Unit :=
  if hz = 0 then .unfinished
  else do
    let divisor := pitFrequency / hz
    portByteOut pitCommand
      (pitChannel0Select ||| pitLobyteHibyte ||| pitSquareWave ||| pitBinaryMode)
    portByteOut pitChannel0 (divisor &&& 0xFF).toUInt8
    portByteOut pitChannel0 ((divisor >>> 8) &&& 0xFF).toUInt8

/-- `pit_init`. -/
def pitInit (passes : Nat) (frequency : UInt32) : Driver Unit := do
  pitSetFrequency frequency
  picClearMask pitIrq
  serialWriteString passes com1Port (textBytes "[PIT] Timer initialized\n")

/-! ### The clock -/

abbrev rtcIndexPort : UInt16 := 0x70
abbrev rtcDataPort : UInt16 := 0x71

abbrev rtcSeconds : UInt8 := 0x00
abbrev rtcMinutes : UInt8 := 0x02
abbrev rtcHours : UInt8 := 0x04
abbrev rtcWeekday : UInt8 := 0x06
abbrev rtcDay : UInt8 := 0x07
abbrev rtcMonth : UInt8 := 0x08
abbrev rtcYear : UInt8 := 0x09
abbrev rtcStatusA : UInt8 := 0x0A
abbrev rtcStatusB : UInt8 := 0x0B
abbrev rtcStatusC : UInt8 := 0x0C

/-- `RTC_IRQ`. -/
abbrev rtcIrq : UInt8 := 8

/-- `struct RTCTime`. -/
@[ext]
structure RTCTime where
  second : UInt8
  minute : UInt8
  hour : UInt8
  day : UInt8
  month : UInt8
  year : UInt16
  weekday : UInt8
deriving DecidableEq

/-- `rtc_bcd_to_bin`. -/
def rtcBcdToBin (bcd : UInt8) : UInt8 := ((bcd &&& 0xF0) >>> 4) * 10 + (bcd &&& 0x0F)

/-- `rtc_read_register`. -/
def rtcReadRegister (reg : UInt8) : Driver UInt8 := do
  portByteOut rtcIndexPort reg
  portByteIn rtcDataPort

/-- `rtc_write_register`. -/
def rtcWriteRegister (reg value : UInt8) : Driver Unit := do
  portByteOut rtcIndexPort reg
  portByteOut rtcDataPort value

/-- `rtc_update_in_progress`. -/
def rtcUpdateInProgress : Driver UInt8 := do
  let status ← rtcReadRegister rtcStatusA
  pure (status &&& 0x80)

/-- `while (rtc_update_in_progress());` -/
def rtcAwait : (passes : Nat) → Driver Unit
  | 0 => .unfinished
  | passes + 1 => do
      let updating ← rtcUpdateInProgress
      if updating ≠ 0 then rtcAwait passes else pure ()

/-- The reads of `rtc_read_time` behind its wait. -/
def rtcReadFields : Driver RTCTime := do
  let second ← rtcReadRegister rtcSeconds
  let minute ← rtcReadRegister rtcMinutes
  let hour ← rtcReadRegister rtcHours
  let day ← rtcReadRegister rtcDay
  let month ← rtcReadRegister rtcMonth
  let year ← rtcReadRegister rtcYear
  let weekday ← rtcReadRegister rtcWeekday
  pure
    { second := rtcBcdToBin second
      minute := rtcBcdToBin minute
      hour := rtcBcdToBin hour
      day := rtcBcdToBin day
      month := rtcBcdToBin month
      year := (rtcBcdToBin year).toUInt16 + 2000
      weekday := rtcBcdToBin weekday }

/-- `rtc_read_time`. -/
def rtcReadTime (passes : Nat) : Driver RTCTime := do
  rtcAwait passes
  rtcReadFields

/-- `rtc_init`. What it comes to is `current_time`. -/
def rtcInit (passes : Nat) : Driver RTCTime := do
  let status ← rtcReadRegister rtcStatusB
  rtcWriteRegister rtcStatusB (status ||| 0x02 ||| 0x04)
  picClearMask rtcIrq
  rtcReadTime passes

/-- `rtc_enable_interrupt`. -/
def rtcEnableInterrupt : Driver Unit := do
  let status ← rtcReadRegister rtcStatusB
  rtcWriteRegister rtcStatusB (status ||| 0x40)
  let _pending ← rtcReadRegister rtcStatusC

end NansOS.Boot
