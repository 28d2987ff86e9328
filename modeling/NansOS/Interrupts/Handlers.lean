import NansOS.Foundation.InService
import NansOS.Keyboard.Handler
import NansOS.Mouse.Handler

/-! Owns the interrupt handlers of `isr.c` and the table `idt_init` installs
them in: for every vector, the end-of-interrupt commands its handler sends in
order, and whether it returns. The three handlers that call a driver send what
the driver sends. The text is the first one a handler writes, to the serial line
or, for a page fault, to the screen. -/

namespace NansOS.Interrupts

open NansOS.Foundation
open NansOS.Keyboard
open NansOS.Mouse

/-! ### The interrupt controllers -/

/-- The two 8259 chips. -/
inductive Chip where
  | master
  | slave
deriving DecidableEq

/-- An interrupt line of a chip. -/
abbrev PicLine : Type := ServiceLine Chip 8

/-- The commands `PIC_EOI` that `pic_send_eoi` writes, by the chip written to. -/
def picSendEoi (irq : UInt8) : List Chip :=
  (if irq ≥ 8 then [.slave] else []) ++ [.master]

/-! ### Handlers -/

/-- What the drivers hold and read when their handlers run. -/
structure Activation where
  tickCount : UInt64
  timerCallback : Bool
  keyboardCallbacks : Callbacks
  controller : Controller
  keyboard : KeyboardState
  mouseCallback : Bool
  mouseStatus : UInt8
  mouseData : UInt8
  mouse : MouseDriver

/-- What the timer handler does besides counting. -/
inductive TimerCall where
  | heartbeat
  | timerCallback
  | sendEoi (irq : UInt8)
deriving DecidableEq

/-- `pit_handler`. `PIT_DEFAULT_HZ` is 100 and `PIT_IRQ` is 0. -/
def pitHandler (callback : Bool) (tickCount : UInt64) : List TimerCall × UInt64 :=
  let ticks := tickCount + 1
  ((if ticks % 100 = 0 then [.heartbeat] else []) ++
    (if callback then [.timerCallback] else []) ++ [.sendEoi 0], ticks)

/-- The interrupt a timer call acknowledges. -/
def TimerCall.irq : TimerCall → Option UInt8
  | sendEoi irq => some irq
  | _ => none

/-- The interrupt a call of the keyboard handler acknowledges. -/
def keyboardIrq : HandlerCall → Option UInt8
  | .sendEoi irq => some irq
  | _ => none

/-- The interrupt a call of the mouse handler acknowledges. -/
def mouseCallIrq : MouseCall → Option UInt8
  | .sendEoi irq => some irq
  | _ => none

/-- A handler: its text, the arguments of its calls of `pic_send_eoi`, and whether it
ends in `for(;;) { asm_hlt(); }`. -/
structure Isr where
  log : String
  eois : Activation → List UInt8
  halts : Bool

/-- A handler that calls `pic_send_eoi` once and returns. -/
def Isr.acknowledging (log : String) (irq : UInt8) : Isr where
  log := log
  eois := fun _ => [irq]
  halts := false

/-- A handler that never returns. -/
def Isr.halting (log : String) : Isr where
  log := log
  eois := fun _ => []
  halts := true

/-- `isr_default_handler`. -/
def isrDefaultHandler : Isr where
  log := "Unhandled interrupt\n"
  eois := fun _ => [0, 8]
  halts := false

/-- `isr_divide_by_zero`. -/
def isrDivideByZero : Isr := Isr.halting "Divide by zero exception\n"

/-- `isr_debug`. -/
def isrDebug : Isr := Isr.acknowledging "Debug exception\n" 0

/-- `isr_nmi`. -/
def isrNmi : Isr := Isr.acknowledging "NMI interrupt\n" 0

/-- `isr_breakpoint`. -/
def isrBreakpoint : Isr := Isr.acknowledging "Breakpoint exception\n" 0

/-- `isr_overflow`. -/
def isrOverflow : Isr := Isr.acknowledging "Overflow exception\n" 0

/-- `isr_bound_range`. -/
def isrBoundRange : Isr := Isr.acknowledging "Bound range exceeded\n" 0

/-- `isr_invalid_opcode`. -/
def isrInvalidOpcode : Isr := Isr.halting "Invalid opcode\n"

/-- `isr_device_not_available`. -/
def isrDeviceNotAvailable : Isr := Isr.acknowledging "Device not available\n" 0

/-- `isr_double_fault`. -/
def isrDoubleFault : Isr := Isr.halting "Double fault\n"

/-- `isr_invalid_tss`. -/
def isrInvalidTss : Isr := Isr.acknowledging "Invalid TSS\n" 0

/-- `isr_segment_not_present`. -/
def isrSegmentNotPresent : Isr := Isr.acknowledging "Segment not present\n" 0

/-- `isr_stack_segment`. -/
def isrStackSegment : Isr := Isr.acknowledging "Stack segment fault\n" 0

/-- `isr_general_protection`. -/
def isrGeneralProtection : Isr := Isr.halting "General protection fault\n"

/-- `isr_page_fault_handler`. -/
def isrPageFaultHandler : Isr := Isr.halting "Page Fault! Address: "

/-- `isr_fpu_fault`. -/
def isrFpuFault : Isr := Isr.acknowledging "FPU fault\n" 0

/-- `isr_alignment_check`. -/
def isrAlignmentCheck : Isr := Isr.acknowledging "Alignment check fault\n" 0

/-- `isr_machine_check`. -/
def isrMachineCheck : Isr := Isr.halting "Machine check fault\n"

/-- `isr_simd_exception`. -/
def isrSimdException : Isr := Isr.acknowledging "SIMD exception\n" 0

/-- `isr_virtualization_exception`. -/
def isrVirtualizationException : Isr := Isr.acknowledging "Virtualization exception\n" 0

/-- `isr_timer`. -/
def isrTimer : Isr where
  log := ""
  eois := fun activation =>
    (pitHandler activation.timerCallback activation.tickCount).1.filterMap TimerCall.irq
  halts := false

/-- `isr_keyboard`. -/
def isrKeyboard : Isr where
  log := ""
  eois := fun activation =>
    (keyboardHandler activation.keyboardCallbacks activation.controller
      activation.keyboard).1.filterMap keyboardIrq
  halts := false

/-- `isr_cascade`. -/
def isrCascade : Isr := Isr.acknowledging "" 2

/-- `isr_com2`. -/
def isrCom2 : Isr := Isr.acknowledging "COM2 interrupt\n" 3

/-- `isr_com1`. -/
def isrCom1 : Isr := Isr.acknowledging "COM1 interrupt\n" 4

/-- `isr_lpt2`. -/
def isrLpt2 : Isr := Isr.acknowledging "LPT2 interrupt\n" 5

/-- `isr_floppy`. -/
def isrFloppy : Isr := Isr.acknowledging "Floppy interrupt\n" 6

/-- `isr_lpt1`. -/
def isrLpt1 : Isr := Isr.acknowledging "LPT1 interrupt\n" 7

/-- `isr_rtc`. -/
def isrRtc : Isr := Isr.acknowledging "RTC interrupt\n" 8

/-- `isr_irq9`. -/
def isrIrq9 : Isr := Isr.acknowledging "IRQ9 interrupt\n" 9

/-- `isr_irq10`. -/
def isrIrq10 : Isr := Isr.acknowledging "IRQ10 interrupt\n" 10

/-- `isr_irq11`. -/
def isrIrq11 : Isr := Isr.acknowledging "IRQ11 interrupt\n" 11

/-- `isr_mouse`. -/
def isrMouse : Isr where
  log := "[ISR] Mouse interrupt handled\n"
  eois := fun activation =>
    (mouseHandler activation.mouseCallback activation.mouseStatus activation.mouseData
      activation.mouse).1.filterMap mouseCallIrq
  halts := false

/-- `isr_coproc`. -/
def isrCoproc : Isr := Isr.acknowledging "Coprocessor interrupt\n" 13

/-- `isr_primary_ata`. -/
def isrPrimaryAta : Isr := Isr.acknowledging "Primary ATA interrupt\n" 14

/-- `isr_secondary_ata`. -/
def isrSecondaryAta : Isr := Isr.acknowledging "Secondary ATA interrupt\n" 15

/-- The table that `idt_init` sets up. -/
def idtInit : Nat → Isr
  | 0 => isrDivideByZero
  | 1 => isrDebug
  | 2 => isrNmi
  | 3 => isrBreakpoint
  | 4 => isrOverflow
  | 5 => isrBoundRange
  | 6 => isrInvalidOpcode
  | 7 => isrDeviceNotAvailable
  | 8 => isrDoubleFault
  | 10 => isrInvalidTss
  | 11 => isrSegmentNotPresent
  | 12 => isrStackSegment
  | 13 => isrGeneralProtection
  | 14 => isrPageFaultHandler
  | 16 => isrFpuFault
  | 17 => isrAlignmentCheck
  | 18 => isrMachineCheck
  | 19 => isrSimdException
  | 20 => isrVirtualizationException
  | 32 => isrTimer
  | 33 => isrKeyboard
  | 34 => isrCascade
  | 35 => isrCom2
  | 36 => isrCom1
  | 37 => isrLpt2
  | 38 => isrFloppy
  | 39 => isrLpt1
  | 40 => isrRtc
  | 41 => isrIrq9
  | 42 => isrIrq10
  | 43 => isrIrq11
  | 44 => isrMouse
  | 45 => isrCoproc
  | 46 => isrPrimaryAta
  | 47 => isrSecondaryAta
  | _ => isrDefaultHandler

/-! ### What interrupt requests are acknowledged by -/

/-- The lines an interrupt request takes into service, in the order in which its
handler is to retire them. The slave is cascaded through line 2 of the master. -/
def linesOf (irq : Fin 16) : List PicLine :=
  if below : irq.val < 8 then [⟨.master, ⟨irq.val, below⟩⟩]
  else [⟨.slave, ⟨irq.val - 8, by omega⟩⟩, ⟨.master, 2⟩]

theorem pitHandler_eois (callback : Bool) (tickCount : UInt64) :
    (pitHandler callback tickCount).1.filterMap TimerCall.irq = [0] := by
  unfold pitHandler
  by_cases second : (tickCount + 1) % 100 = 0 <;> cases callback <;>
    simp only [second, if_true, if_false, Bool.false_eq_true] <;> rfl

theorem keyboardHandler_eois (callbacks : Callbacks) (controller : Controller)
    (state : KeyboardState) :
    (keyboardHandler callbacks controller state).1.filterMap keyboardIrq = [1] := by
  unfold keyboardHandler
  cases delivered controller with
  | none => rfl
  | some scancode =>
      simp only [dispatch]
      split_ifs <;> rfl

theorem mouseHandler_eois (callback : Bool) (status data : UInt8) (mouse : MouseDriver) :
    (mouseHandler callback status data mouse).1.filterMap mouseCallIrq = [12] := by
  unfold mouseHandler takeByte
  split_ifs <;> rfl

/-- The handler of an interrupt request calls `pic_send_eoi` once, for that
request, whatever its driver reads, and returns. -/
theorem idtInit_irq : ∀ (irq : Fin 16) (activation : Activation),
    (idtInit (32 + irq)).eois activation = [UInt8.ofNat irq] ∧
      (idtInit (32 + irq)).halts = false
  | 0, _ => ⟨pitHandler_eois _ _, rfl⟩
  | 1, _ => ⟨keyboardHandler_eois _ _ _, rfl⟩
  | 12, _ => ⟨mouseHandler_eois _ _ _ _, rfl⟩
  | 2, _ => ⟨rfl, rfl⟩
  | 3, _ => ⟨rfl, rfl⟩
  | 4, _ => ⟨rfl, rfl⟩
  | 5, _ => ⟨rfl, rfl⟩
  | 6, _ => ⟨rfl, rfl⟩
  | 7, _ => ⟨rfl, rfl⟩
  | 8, _ => ⟨rfl, rfl⟩
  | 9, _ => ⟨rfl, rfl⟩
  | 10, _ => ⟨rfl, rfl⟩
  | 11, _ => ⟨rfl, rfl⟩
  | 13, _ => ⟨rfl, rfl⟩
  | 14, _ => ⟨rfl, rfl⟩
  | 15, _ => ⟨rfl, rfl⟩
  | ⟨number + 16, bound⟩, _ => absurd bound (by omega)

/-- One `pic_send_eoi` commands the chips of its lines, in order. -/
theorem picSendEoi_eq : ∀ irq : Fin 16,
    picSendEoi (UInt8.ofNat irq) = (linesOf irq).map ServiceLine.group := by
  decide

end NansOS.Interrupts
