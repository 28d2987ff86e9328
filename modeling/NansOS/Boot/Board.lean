import NansOS.Boot.Controller
import NansOS.Interrupts.Descriptors

/-! Owns the boot of the kernel as one driver: `kernel_main` up to its loop, with
`init_system` inside, against two 8259 controllers and anything else at the other
ports. From the first moment at which interrupts are enabled the controllers are
initialized and the descriptor table is loaded, so that every request goes to its
own handler. It does not own what an interrupt does while booting goes on. -/

namespace NansOS.Boot

open NansOS.Foundation
open NansOS.Interrupts (gateAt idtInitMemory interruptGate)

/-! ### The controllers -/

/-- What a write to the data port of a chip is. -/
inductive PicStep where
  | vectors
  | cascade
  | mode
  | operating
deriving DecidableEq

/-- An 8259. -/
structure Pic where
  step : PicStep
  base : UInt8
  link : UInt8
  mode : UInt8
  mask : UInt8
  single : Bool
  needsMode : Bool

namespace Pic

/-- A write to the command port: bit 4 starts the initialization, and anything else
concerns the requests only. -/
def command (pic : Pic) (value : UInt8) : Pic :=
  if value &&& 0x10 = 0 then pic
  else
    { pic with
      step := .vectors
      mode := 0
      mask := 0
      single := decide (value &&& 0x02 ≠ 0)
      needsMode := decide (value &&& 0x01 ≠ 0) }

/-- The step behind the cascade. -/
def lastStep (pic : Pic) : PicStep := if pic.needsMode then .mode else .operating

/-- A write to the data port. -/
def data (pic : Pic) (value : UInt8) : Pic :=
  match pic.step with
  | .vectors =>
      { pic with
        base := value &&& 0xF8
        step := if pic.single then pic.lastStep else .cascade }
  | .cascade =>
      { pic with
        link := value
        step := pic.lastStep }
  | .mode =>
      { pic with
        mode := value
        step := .operating }
  | .operating => { pic with mask := value }

/-- The chip is in operation, in 8086 mode, with these vectors and this link. -/
structure Serves (pic : Pic) (base link : UInt8) : Prop where
  step : pic.step = .operating
  base : pic.base = base
  link : pic.link = link
  mode : pic.mode = 0x01

/-- In operation a write to the data port sets the mask. -/
theorem Serves.data {pic : Pic} {base link : UInt8} (serves : pic.Serves base link)
    (value : UInt8) : pic.data value = { pic with mask := value } := by
  rw [Pic.data, serves.step]

theorem Serves.masked {pic : Pic} {base link : UInt8} (serves : pic.Serves base link)
    (mask : UInt8) : Serves { pic with mask := mask } base link where
  step := serves.step
  base := serves.base
  link := serves.link
  mode := serves.mode

end Pic

/-- The processor's interrupt flag, the chips, and whether the table register is
loaded. -/
structure Board where
  interrupts : Bool
  master : Pic
  slave : Pic
  table : Bool

namespace Board

def write (board : Board) (port : UInt16) (value : UInt8) : Board :=
  if port = pic1Command then { board with master := board.master.command value }
  else if port = pic2Command then { board with slave := board.slave.command value }
  else if port = pic1Data then { board with master := board.master.data value }
  else if port = pic2Data then { board with slave := board.slave.data value }
  else board

def note (board : Board) : Exchange Request Reply → Board
  | ⟨.byteIn _, _⟩ => board
  | ⟨.byteOut port value, _⟩ => board.write port value
  | ⟨.cli, _⟩ => { board with interrupts := false }
  | ⟨.sti, _⟩ => { board with interrupts := true }
  | ⟨.lidt, _⟩ => { board with table := true }

/-- The data ports of the chips read as their masks. -/
def allows (board : Board) : (request : Request) → Reply request → Prop
  | .byteIn port, value =>
      (port = pic1Data → value = board.master.mask) ∧ (port = pic2Data → value = board.slave.mask)
  | _, _ => True

/-- Requests can be delivered: both chips are initialized and cascaded, and the
table register is loaded. -/
structure Ready (board : Board) : Prop where
  master : board.master.Serves 0x20 4
  slave : board.slave.Serves 0x28 2
  table : board.table = true

def monitor : Monitor Request Reply Board where
  allows := allows
  note := note
  safe := fun board => board.interrupts = true → board.Ready

/-- The vector that the chips give for a request. -/
def vector (board : Board) (irq : Fin 16) : UInt8 :=
  if irq.val < 8 then board.master.base + UInt8.ofNat irq
  else board.slave.base + UInt8.ofNat (irq.val - 8)

end Board

/-- The chips, with anything else at the other ports. -/
def attached {World : Type} (answer : (request : Request) → World → Reply request × World) :
    (request : Request) → Board × World → Reply request × (Board × World)
  | .byteIn port, (board, world) =>
      let (value, world) := answer (.byteIn port) world
      (if port = pic1Data then board.master.mask
        else if port = pic2Data then board.slave.mask
        else value, (board, world))
  | .byteOut port value, (board, world) =>
      ((), (board.note ⟨.byteOut port value, ()⟩, (answer (.byteOut port value) world).2))
  | .cli, (board, world) => ((), (board.note ⟨.cli, ()⟩, (answer .cli world).2))
  | .sti, (board, world) => ((), (board.note ⟨.sti, ()⟩, (answer .sti world).2))
  | .lidt, (board, world) => ((), (board.note ⟨.lidt, ()⟩, (answer .lidt world).2))

theorem attached_respects {World : Type}
    (answer : (request : Request) → World → Reply request × World) :
    Board.monitor.Respects (attached answer) (fun world board => world.1 = board) where
  allowed := by
    rintro ⟨board, world⟩ _ rfl request
    cases request with
    | byteIn port =>
        constructor
        · rintro rfl
          rfl
        · rintro rfl
          rfl
    | byteOut port value => trivial
    | cli => trivial
    | sti => trivial
    | lidt => trivial
  seen := by
    rintro ⟨board, world⟩ _ rfl request
    cases request with
    | byteIn port => rfl
    | byteOut port value => rfl
    | cli => rfl
    | sti => rfl
    | lidt => rfl

/-! ### The boot -/

/-- `debug_print`, to the serial line. -/
def debugPrint (passes : Nat) (message : String) : Driver Unit := do
  say passes "[DEBUG] "
  say passes message

/-- A step of `init_system` between its two messages. -/
def announced (passes : Nat) (before : String) (step : Driver Unit) (after : String) :
    Driver Unit := do
  debugPrint passes before
  step
  debugPrint passes after

/-- `idt_init`, whose entries are in memory. -/
def idtInit (passes : Nat) : Driver Unit := do
  .request Request.lidt
  say passes "IDT initialized\n"

/-- `idt_enable_interrupts`. -/
def idtEnableInterrupts (passes : Nat) : Driver Unit := do
  asmSti
  say passes "Interrupts enabled\n"

/-- `rtc_init` and `rtc_enable_interrupt`, in `init_system`. -/
def rtcStart (passes : Nat) : Driver Unit := do
  let _current ← rtcInit passes
  rtcEnableInterrupt

/-- `init_system`, without the steps that touch memory only. -/
def initSystem (passes : Nat) : Driver Unit := do
  debugPrint passes "Starting system initialization...\n"
  announced passes "Initializing memory management...\n" (pure ())
    "Memory management initialized\n"
  announced passes "Initializing system information...\n" (pure ())
    "System information initialized\n"
  announced passes "Initializing IDT...\n" (idtInit passes) "IDT initialized\n"
  announced passes "Initializing PIC...\n" picInit "PIC initialized\n"
  announced passes "Initializing PIT...\n" (pitInit passes pitDefaultHz) "PIT initialized\n"
  announced passes "Initializing serial port...\n" (serialInit com1Port serialBaud115200)
    "Serial port initialized\n"
  announced passes "Initializing RTC...\n" (rtcStart passes) "RTC initialized\n"
  announced passes "Initializing keyboard...\n" (keyboardInit passes)
    "Keyboard initialization complete\n"
  announced passes "Initializing mouse...\n" (mouseInit passes) "Mouse initialization complete\n"
  announced passes "Enabling interrupts...\n" (idtEnableInterrupts passes) "Interrupts enabled\n"
  debugPrint passes "System initialization complete!\n"
  say passes "NansOS initialized and ready!\n"

/-- `kernel_main` up to its loop. -/
def kernelMain (passes : Nat) : Driver Unit := do
  asmCli
  serialInit com1Port serialBaud115200
  say passes "Serial port initialized\n"
  say passes "Kernel started\n"
  initSystem passes
  say passes "Entering main kernel loop\n"

end NansOS.Boot
