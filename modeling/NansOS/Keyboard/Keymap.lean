import NansOS.Foundation.Run
import NansOS.Kernel.Format

/-! Owns the scancode decoding of `keymap.c`: the modifier state, the two tables
of the US layout, and the three functions that read a scancode. One-bit fields
are Booleans. Codes are those of scancode set 1, in which a break code is the
make code with its top bit set. -/

namespace NansOS.Keyboard

open NansOS.Kernel

/-! ### Codes -/

/-- `KEY_RELEASED`. -/
abbrev keyReleased : UInt8 := 0x80

/-- `KEY_EXTENDED`. -/
abbrev keyExtended : UInt8 := 0xE0

/-- `KEY_ESCAPE`. -/
abbrev keyEscape : UInt8 := 0x01

/-- `KEY_LCTRL`, and `KEY_RCTRL` after the prefix. -/
abbrev keyCtrl : UInt8 := 0x1D

/-- `KEY_LSHIFT`. -/
abbrev keyLshift : UInt8 := 0x2A

/-- `KEY_RSHIFT`. -/
abbrev keyRshift : UInt8 := 0x36

/-- `KEY_LALT`, and `KEY_RALT` after the prefix. -/
abbrev keyAlt : UInt8 := 0x38

/-- `KEY_CAPSLOCK`. -/
abbrev keyCapslock : UInt8 := 0x3A

/-- `KEY_F1`. -/
abbrev keyF1 : UInt8 := 0x3B

/-- `KEY_F12`. -/
abbrev keyF12 : UInt8 := 0x58

/-- `KEY_NUMLOCK`. -/
abbrev keyNumlock : UInt8 := 0x45

/-- `KEY_SCROLLLOCK`. -/
abbrev keyScrolllock : UInt8 := 0x46

/-- `KEY_HOME`. -/
abbrev keyHome : UInt8 := 0x47

/-- `KEY_DELETE`. -/
abbrev keyDelete : UInt8 := 0x53

/-- `scancode & ~KEY_RELEASED`. -/
def keyOf (scancode : UInt8) : UInt8 := scancode &&& ~~~keyReleased

/-- `scancode & KEY_RELEASED`, as a condition. -/
def isReleased (scancode : UInt8) : Bool := scancode &&& keyReleased ≠ 0

/-- `ascii_lowercase`. -/
def asciiLowercase : List UInt8 :=
  [0, 0] ++ ['1', '2', '3', '4', '5', '6', '7', '8', '9', '0', '-', '='].map ascii ++
  [8, 9] ++ ['q', 'w', 'e', 'r', 't', 'y', 'u', 'i', 'o', 'p', '[', ']'].map ascii ++
  [10, 0] ++ ['a', 's', 'd', 'f', 'g', 'h', 'j', 'k', 'l', ';'].map ascii ++
  [39, 96, 0, 92] ++ ['z', 'x', 'c', 'v', 'b', 'n', 'm', ',', '.', '/'].map ascii ++
  [0, ascii '*', 0, ascii ' ']

/-- `ascii_uppercase`. -/
def asciiUppercase : List UInt8 :=
  [0, 0] ++ ['!', '@', '#', '$', '%', '^', '&', '*', '(', ')', '_', '+'].map ascii ++
  [8, 9] ++ ['Q', 'W', 'E', 'R', 'T', 'Y', 'U', 'I', 'O', 'P', '{', '}'].map ascii ++
  [10, 0] ++ ['A', 'S', 'D', 'F', 'G', 'H', 'J', 'K', 'L', ':'].map ascii ++
  [34, 126, 0, 124] ++ ['Z', 'X', 'C', 'V', 'B', 'N', 'M', '<', '>', '?'].map ascii ++
  [0, ascii '*', 0, ascii ' ']

/-! ### State -/

/-- `struct KeyboardState`. -/
structure KeyboardState where
  shiftPressed : Bool
  ctrlPressed : Bool
  altPressed : Bool
  capsLock : Bool
  numLock : Bool
  scrollLock : Bool
  extended : Bool
deriving DecidableEq

/-- The all-zero state. -/
def KeyboardState.zero : KeyboardState where
  shiftPressed := false
  ctrlPressed := false
  altPressed := false
  capsLock := false
  numLock := false
  scrollLock := false
  extended := false

/-- `struct SpecialKeyEvent`. -/
structure SpecialKeyEvent where
  keyCode : UInt8
  isPressed : Bool
  state : KeyboardState
deriving DecidableEq

/-! ### Decoding -/

/-- `is_special_key`. -/
def isSpecialKey (scancode : UInt8) : Bool :=
  let key := keyOf scancode
  (keyF1 ≤ key && key ≤ keyF12) || (keyHome ≤ key && key ≤ keyDelete) || key = keyEscape

/-- The event that `handle_special_key` fills. The callback of `keymap.c` itself
is never set. -/
def handleSpecialKey (scancode : UInt8) (state : KeyboardState) : SpecialKeyEvent where
  keyCode := keyOf scancode
  isPressed := !isReleased scancode
  state := state

/-- The `switch` on a key after the prefix. -/
def updateExtended (key : UInt8) (released : Bool) (state : KeyboardState) : KeyboardState :=
  if key = keyCtrl then { state with ctrlPressed := !released }
  else if key = keyAlt then { state with altPressed := !released }
  else state

/-- The `switch` on a key without the prefix. -/
def updatePlain (key : UInt8) (released : Bool) (state : KeyboardState) : KeyboardState :=
  if key = keyLshift ∨ key = keyRshift then { state with shiftPressed := !released }
  else if key = keyCtrl then { state with ctrlPressed := !released }
  else if key = keyAlt then { state with altPressed := !released }
  else if key = keyCapslock then
    if released then state else { state with capsLock := !state.capsLock }
  else if key = keyNumlock then
    if released then state else { state with numLock := !state.numLock }
  else if key = keyScrolllock then
    if released then state else { state with scrollLock := !state.scrollLock }
  else state

/-- `update_keyboard_state`. -/
def updateKeyboardState (scancode : UInt8) (state : KeyboardState) : KeyboardState :=
  if scancode = keyExtended then { state with extended := true }
  else if state.extended then
    { updateExtended (keyOf scancode) (isReleased scancode) state with extended := false }
  else updatePlain (keyOf scancode) (isReleased scancode) state

/-- `scancode_to_ascii`. -/
def scancodeToAscii (scancode : UInt8) (state : KeyboardState) : UInt8 :=
  let key := keyOf scancode
  if isReleased scancode || state.extended then 0
  else if key.toNat ≥ asciiLowercase.length then 0
  else
    let base := asciiLowercase.getD key.toNat 0
    if (state.ctrlPressed ∧ 0x1E ≤ key ∧ key ≤ 0x39) ∧ ascii 'a' ≤ base ∧ base ≤ ascii 'z' then
      base - ascii 'a' + 1
    else if (state.shiftPressed || state.capsLock) && !(state.shiftPressed && state.capsLock) then
      asciiUppercase.getD key.toNat 0
    else base

/-! ### What one scancode does to the prefix flag -/

@[simp] theorem updateExtended_extended (key : UInt8) (released : Bool) (state : KeyboardState) :
    (updateExtended key released state).extended = state.extended := by
  unfold updateExtended
  split_ifs <;> rfl

@[simp] theorem updatePlain_extended (key : UInt8) (released : Bool) (state : KeyboardState) :
    (updatePlain key released state).extended = state.extended := by
  unfold updatePlain
  split_ifs <;> rfl

/-- The flag is set after the prefix and only then. -/
theorem updateKeyboardState_extended (scancode : UInt8) (state : KeyboardState) :
    (updateKeyboardState scancode state).extended = decide (scancode = keyExtended) := by
  unfold updateKeyboardState
  by_cases marker : scancode = keyExtended
  · simp [marker]
  · cases prefixed : state.extended <;> simp [marker, prefixed]

end NansOS.Keyboard
