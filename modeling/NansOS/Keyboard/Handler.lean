import NansOS.Keyboard.Keymap

/-! Owns `keyboard_handler`: what one interrupt reads from the controller, the
callbacks it makes in order, and the keyboard state it leaves. The prefix flag
is consumed before the character is looked up, so a key behind the prefix types
the character of the plain key with the same code. Debug output is left out. -/

namespace NansOS.Keyboard

open NansOS.Foundation
open NansOS.Kernel

/-! ### One interrupt -/

/-- What the ports give during one interrupt: the status at each read, and the
data byte. -/
structure Controller where
  status : Nat → UInt8
  data : UInt8

/-- The callbacks that are registered. -/
structure Callbacks where
  scancode : Bool
  char : Bool
  special : Bool

/-- What the handler does besides updating its state. -/
inductive HandlerCall where
  | sendEoi (irq : UInt8)
  | scancodeCallback (scancode : UInt8)
  | specialCallback (event : SpecialKeyEvent)
  | charCallback (c : UInt8)
deriving DecidableEq

/-- The loop of `keyboard_read_scan_code` from the given read of the status on:
the rest of its timeout. -/
def pollLoop (status : Nat → UInt8) : Nat → Nat → Nat
  | 0, _ => 0
  | timeout + 1, poll =>
      if status poll &&& 1 ≠ 0 then timeout + 1 else pollLoop status timeout (poll + 1)

/-- `keyboard_read_scan_code`, after the handler's own read of the status. -/
def keyboardReadScanCode (controller : Controller) : UInt8 :=
  if pollLoop controller.status 10000 1 = 0 then 0 else controller.data

/-- The scancode an interrupt delivers, if there is data to read. -/
def delivered (controller : Controller) : Option UInt8 :=
  if controller.status 0 &&& 1 = 0 then none else some (keyboardReadScanCode controller)

/-- The callbacks for one scancode, after the state is updated. -/
def dispatch (callbacks : Callbacks) (scancode : UInt8) (state : KeyboardState) :
    List HandlerCall :=
  (if callbacks.scancode then [.scancodeCallback scancode] else []) ++
    if isSpecialKey scancode then
      if callbacks.special then [.specialCallback (handleSpecialKey scancode state)] else []
    else if callbacks.char then
      let c := scancodeToAscii scancode state
      if c ≠ 0 then [.charCallback c] else []
    else []

/-- `keyboard_handler`. `KEYBOARD_IRQ` is 1. -/
def keyboardHandler (callbacks : Callbacks) (controller : Controller) (state : KeyboardState) :
    List HandlerCall × KeyboardState :=
  match delivered controller with
  | none => ([.sendEoi 1], state)
  | some scancode =>
      let updated := updateKeyboardState scancode state
      (dispatch callbacks scancode updated ++ [.sendEoi 1], updated)

/-! ### Interrupts in sequence -/

/-- The keyboard state, and the scancode before the next one. -/
structure Observed where
  state : KeyboardState
  previous : Option UInt8

/-- Before the first interrupt. -/
def Observed.initial : Observed where
  state := KeyboardState.zero
  previous := none

/-- One interrupt, with the callbacks registered at the time. -/
structure Interrupt where
  callbacks : Callbacks
  controller : Controller

/-- The observation after one interrupt. -/
def Observed.interrupt (observed : Observed) (interrupt : Interrupt) : Observed where
  state := (keyboardHandler interrupt.callbacks interrupt.controller observed.state).2
  previous := (delivered interrupt.controller).or observed.previous

/-- A scancode behind the prefix makes no character callback, and any other make
code is interpreted with the prefix flag clear. -/
def PrefixRespected (observed : Observed) (interrupt : Interrupt) : Prop :=
  ∀ scancode, delivered interrupt.controller = some scancode →
    (observed.previous = some keyExtended → ∀ c, .charCallback c ∉
      (keyboardHandler interrupt.callbacks interrupt.controller observed.state).1) ∧
    (observed.previous ≠ some keyExtended → scancode ≠ keyExtended →
      isReleased scancode = false → observed.state.extended = false ∧
        (updateKeyboardState scancode observed.state).extended = false)

/-- The plain key with this make code types a character. -/
def TypesPlain (scancode : UInt8) : Prop :=
  isReleased scancode = false ∧ isSpecialKey scancode = false ∧
    asciiLowercase.getD (keyOf scancode).toNat 0 ≠ 0

/-- Behind the prefix comes no code of a plain key that types, unless nobody
listens to characters. -/
def PrefixHarmless (observed : Observed) (interrupt : Interrupt) : Prop :=
  observed.previous = some keyExtended → interrupt.callbacks.char = true →
    ∀ scancode, delivered interrupt.controller = some scancode → ¬ TypesPlain scancode

/-! ### Characters -/

private theorem tables_alike : ∀ key < 58,
    asciiUppercase.getD key 0 = 0 ↔ asciiLowercase.getD key 0 = 0 := by
  decide

private theorem ctrl_code_ne_zero {base : UInt8} (low : ascii 'a' ≤ base)
    (high : base ≤ ascii 'z') : base - ascii 'a' + 1 ≠ 0 := by
  have above : 97 ≤ base.toNat := UInt8.le_iff_toNat_le.mp low
  have below : base.toNat ≤ 122 := UInt8.le_iff_toNat_le.mp high
  intro zero
  have value := congrArg UInt8.toNat zero
  rw [UInt8.toNat_add, UInt8.toNat_sub_of_le _ _ low] at value
  change (base.toNat - 97 + 1) % 256 = 0 at value
  omega

/-- With the prefix flag clear a make code is a character exactly when its entry
in the lower-case table is one. -/
theorem scancodeToAscii_eq_zero_iff {scancode : UInt8} {state : KeyboardState}
    (clear : state.extended = false) :
    scancodeToAscii scancode state = 0 ↔
      isReleased scancode = true ∨ asciiLowercase.getD (keyOf scancode).toNat 0 = 0 := by
  unfold scancodeToAscii
  rw [clear, Bool.or_false]
  cases released : isReleased scancode with
  | true => simp
  | false =>
      simp only [Bool.false_eq_true, if_false, false_or]
      by_cases beyond : (keyOf scancode).toNat ≥ asciiLowercase.length
      · simp [beyond]
      · have inside : (keyOf scancode).toNat < 58 := Nat.not_le.mp beyond
        rw [if_neg beyond]
        split_ifs with control upper
        · apply iff_of_false
          · exact ctrl_code_ne_zero control.2.1 control.2.2
          · intro zero
            rw [zero] at control
            exact absurd control.2.1 (by decide)
        · exact tables_alike _ inside
        · exact Iff.rfl

/-! ### One interrupt and the prefix -/

section Step

variable {observed : Observed}

/-- The prefix flag says what came before. -/
def FlagCurrent (observed : Observed) : Prop :=
  observed.state.extended = decide (observed.previous = some keyExtended)

theorem FlagCurrent.interrupt (current : FlagCurrent observed) (interrupt : Interrupt) :
    FlagCurrent (observed.interrupt interrupt) := by
  unfold FlagCurrent Observed.interrupt keyboardHandler
  cases arrives : delivered interrupt.controller with
  | none => exact current
  | some scancode => simp [updateKeyboardState_extended]

/-- When the character callback is called. -/
theorem charCallback_iff (observed : Observed) {interrupt : Interrupt} {scancode : UInt8}
    (arrives : delivered interrupt.controller = some scancode)
    (marker : scancode ≠ keyExtended) :
    (∃ c, .charCallback c ∈
        (keyboardHandler interrupt.callbacks interrupt.controller observed.state).1) ↔
      interrupt.callbacks.char = true ∧ TypesPlain scancode := by
  have clear : (updateKeyboardState scancode observed.state).extended = false := by
    simp [updateKeyboardState_extended, marker]
  have types : TypesPlain scancode ↔ isSpecialKey scancode = false ∧
      scancodeToAscii scancode (updateKeyboardState scancode observed.state) ≠ 0 := by
    rw [Ne, scancodeToAscii_eq_zero_iff clear, TypesPlain]
    simp only [not_or, Bool.not_eq_true]
    exact and_left_comm
  rw [types]
  simp only [keyboardHandler, arrives, dispatch, List.mem_append, List.mem_singleton]
  cases special : isSpecialKey scancode <;> cases listens : interrupt.callbacks.char <;>
    cases interrupt.callbacks.scancode <;> cases interrupt.callbacks.special <;> simp

/-- Nothing is called back for the prefix itself. -/
theorem not_charCallback_prefix {interrupt : Interrupt}
    (arrives : delivered interrupt.controller = some keyExtended) (c : UInt8) :
    .charCallback c ∉
      (keyboardHandler interrupt.callbacks interrupt.controller observed.state).1 := by
  have silent : ∀ state, scancodeToAscii keyExtended state = 0 := fun _ => rfl
  simp only [keyboardHandler, arrives, dispatch, silent, List.mem_append, List.mem_singleton]
  cases interrupt.callbacks.scancode <;> simp [show isSpecialKey keyExtended = false by decide]

/-- In one interrupt the prefix is respected exactly when no plain code that
types follows it. -/
theorem prefixRespected_iff (current : FlagCurrent observed) (interrupt : Interrupt) :
    PrefixRespected observed interrupt ↔ PrefixHarmless observed interrupt := by
  unfold PrefixRespected PrefixHarmless
  cases arrives : delivered interrupt.controller with
  | none => simp
  | some scancode =>
      by_cases marker : scancode = keyExtended
      · subst marker
        apply iff_of_true
        · rintro other same
          obtain rfl : keyExtended = other := Option.some.inj same
          exact ⟨fun _ => not_charCallback_prefix arrives, fun _ differs => absurd rfl differs⟩
        · rintro - - other same types
          obtain rfl : keyExtended = other := Option.some.inj same
          exact absurd types.1 (by decide)
      · have called := charCallback_iff observed arrives marker
        have plain : observed.previous ≠ some keyExtended → scancode ≠ keyExtended →
            isReleased scancode = false → observed.state.extended = false ∧
              (updateKeyboardState scancode observed.state).extended = false := by
          intro unprefixed _ _
          rw [current, updateKeyboardState_extended]
          simp [unprefixed, marker]
        simp only [Option.some.injEq, forall_eq', and_iff_left plain]
        apply imp_congr_right
        intro _
        rw [← not_exists, called, not_and]

end Step

/-- Over every sequence of interrupts from boot, with any callbacks registered,
the prefix is respected throughout exactly when behind it no code of a typing
plain key arrives while characters are listened to. -/
theorem prefix_respected_iff (interrupts : List Interrupt) :
    Along Observed.interrupt PrefixRespected Observed.initial interrupts ↔
      Along Observed.interrupt PrefixHarmless Observed.initial interrupts :=
  along_iff FlagCurrent (fun _ _ => True)
    (fun _ interrupt current _ _ => FlagCurrent.interrupt current interrupt)
    (fun _ interrupt current _ => prefixRespected_iff current interrupt)
    rfl (along_of_forall fun _ _ => trivial)

/-- The keypad's Enter, `E0 1C`, types a line end. -/
theorem keypad_enter_types :
    ¬ ∀ interrupts, Along Observed.interrupt PrefixRespected Observed.initial interrupts := by
  intro respected
  have holds := respected
    [⟨⟨false, true, false⟩, ⟨fun _ => 1, 0xE0⟩⟩, ⟨⟨false, true, false⟩, ⟨fun _ => 1, 0x1C⟩⟩]
  have silent := (holds.2.1 0x1C rfl).1 rfl 10
  exact silent (by decide)

end NansOS.Keyboard
