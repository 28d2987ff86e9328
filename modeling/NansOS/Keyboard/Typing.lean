import NansOS.Keyboard.Handler
import NansOS.Keyboard.Modifiers

/-! Owns the round trip of a text through the keyboard: the strokes that type it, the
scancodes of the strokes, and the characters that the interrupts deliver. Every
character of the two tables can be typed; with Caps Lock on, the shift key gets back
the characters that stand in the lower-case table. -/

namespace NansOS.Keyboard

open NansOS.Foundation
open NansOS.Kernel

/-! ### Characters of a stream -/

/-- The characters among the calls of the handler. -/
def charsOf (calls : List HandlerCall) : List UInt8 :=
  calls.filterMap fun
    | .charCallback c => some c
    | _ => none

/-- The keyboard state, and the text delivered so far. -/
structure Typist where
  state : KeyboardState
  text : List UInt8

namespace Typist

/-- One interrupt. -/
def interrupt (typist : Typist) (interrupt : Interrupt) : Typist :=
  let (calls, state) := keyboardHandler interrupt.callbacks interrupt.controller typist.state
  { state := state
    text := typist.text ++ charsOf calls }

/-- One scancode, while characters are listened to. -/
def scancode (typist : Typist) (scancode : UInt8) : Typist :=
  let state := feed typist.state scancode
  { state := state
    text := typist.text ++
      if isSpecialKey scancode = false ∧ scancodeToAscii scancode state ≠ 0 then
        [scancodeToAscii scancode state]
      else [] }

end Typist

theorem charsOf_append (first second : List HandlerCall) :
    charsOf (first ++ second) = charsOf first ++ charsOf second :=
  List.filterMap_append

/-- The characters of an interrupt depend only on the scancode it delivers. -/
theorem interrupt_eq (typist : Typist) {interrupt : Interrupt}
    (listens : interrupt.callbacks.char = true) :
    typist.interrupt interrupt =
      (delivered interrupt.controller).elim typist typist.scancode := by
  unfold Typist.interrupt keyboardHandler
  cases delivered interrupt.controller with
  | none => simp [charsOf]
  | some scancode =>
      have ends : charsOf [.sendEoi 1] = [] := rfl
      have reported : charsOf
          (if interrupt.callbacks.scancode then [.scancodeCallback scancode] else []) = [] := by
        split <;> rfl
      simp only [Option.elim_some, Typist.scancode, dispatch, charsOf_append, ends, reported,
        List.append_nil, List.nil_append, listens, if_true, feed, Typist.mk.injEq, true_and]
      congr 1
      cases isSpecialKey scancode with
      | true =>
          simp only [if_true, Bool.true_eq_false, false_and, if_false]
          split <;> rfl
      | false =>
          simp only [Bool.false_eq_true, if_false, true_and]
          split <;> rfl

/-- The scancodes that interrupts deliver. -/
def deliveredBy (interrupts : List Interrupt) : List UInt8 :=
  interrupts.filterMap fun interrupt => delivered interrupt.controller

/-- Interrupts without data, and the states of the controller, do not matter. -/
theorem run_interrupts (typist : Typist) (interrupts : List Interrupt)
    (listens : ∀ interrupt ∈ interrupts, interrupt.callbacks.char = true) :
    run Typist.interrupt typist interrupts =
      run Typist.scancode typist (deliveredBy interrupts) := by
  induction interrupts generalizing typist with
  | nil => rfl
  | cons interrupt rest inductionHypothesis =>
      have later := fun typist => inductionHypothesis typist fun other member =>
        listens other (List.mem_cons_of_mem _ member)
      rw [run_cons, interrupt_eq typist (listens interrupt List.mem_cons_self), later]
      cases arrives : delivered interrupt.controller with
      | none => simp [deliveredBy, arrives]
      | some scancode => simp [deliveredBy, arrives]

/-! ### Strokes -/

/-- The keys of the two tables. -/
abbrev tableKeys : Nat := 58

/-- The key at an index of the tables. -/
def keyAt (index : Fin tableKeys) : PhysicalKey where
  extended := false
  code := UInt8.ofNat index
  valid := by
    revert index
    decide

/-- The first place of a character in a table. -/
def placeIn (table : List UInt8) (c : UInt8) : Option (Fin tableKeys) :=
  (List.finRange tableKeys).find? fun index => table.getD index 0 = c

/-- A key goes down and up. -/
def press (key : PhysicalKey) : List KeyEvent := [⟨key, false⟩, ⟨key, true⟩]

/-- A key goes down and up while the left shift key is held. -/
def pressShifted (key : PhysicalKey) : List KeyEvent :=
  ⟨leftKey .shift, false⟩ :: press key ++ [⟨leftKey .shift, true⟩]

/-- The strokes for a character, with Caps Lock on or off. -/
def strokes (capsLock : Bool) (c : UInt8) : List KeyEvent :=
  match placeIn asciiLowercase c with
  | some index => if capsLock then pressShifted (keyAt index) else press (keyAt index)
  | none =>
      match placeIn asciiUppercase c with
      | some index => if capsLock then press (keyAt index) else pressShifted (keyAt index)
      | none => []

/-- A character of the tables. -/
def Typable (c : UInt8) : Prop := c ≠ 0 ∧ (c ∈ asciiLowercase ∨ c ∈ asciiUppercase)

instance (c : UInt8) : Decidable (Typable c) := inferInstanceAs (Decidable (_ ∧ _))

/-- No modifier that changes characters is held, and no prefix is pending. -/
structure Neutral (state : KeyboardState) : Prop where
  shift : state.shiftPressed = false
  ctrl : state.ctrlPressed = false
  clear : state.extended = false

/-- The state with the shift flag set or cleared. -/
def KeyboardState.setShift (state : KeyboardState) (held : Bool) : KeyboardState :=
  { state with shiftPressed := held }

section Strokes

variable {state : KeyboardState} {text : List UInt8} {index : Fin tableKeys}

private theorem key_codes : ∀ index : Fin tableKeys, asciiLowercase.getD index 0 ≠ 0 →
    isSpecialKey (keyAt index).code = false ∧ asciiUppercase.getD index 0 ≠ 0 ∧
      (keyAt index).code.toNat = index ∧
      (keyAt index).code ∉ [keyLshift, keyRshift, keyCtrl, keyAlt, keyCapslock, keyNumlock,
        keyScrolllock] := by
  decide

/-- Keys with a character are no modifiers. -/
theorem feed_typing (typed : asciiLowercase.getD index 0 ≠ 0) (clear : state.extended = false)
    (released : Bool) :
    feed state (KeyEvent.scancode ⟨keyAt index, released⟩) = state := by
  have ⟨key, released, marker⟩ := scancode_parts ⟨keyAt index, released⟩
  have plain := (key_codes index typed).2.2.2
  simp only [List.mem_cons, List.not_mem_nil, or_false, not_or] at plain
  simp [feed, updateKeyboardState, marker, clear, key, updatePlain, plain]

/-- The character of a key, with its flags as they are. -/
theorem ascii_typing (typed : asciiLowercase.getD index 0 ≠ 0)
    (ctrl : state.ctrlPressed = false) (clear : state.extended = false) :
    scancodeToAscii (keyAt index).code state =
      if state.shiftPressed = state.capsLock then asciiLowercase.getD index 0
      else asciiUppercase.getD index 0 := by
  have ⟨key, released, _⟩ := scancode_parts ⟨keyAt index, false⟩
  have number := (key_codes index typed).2.2.1
  have inside : ¬ (index : Nat) ≥ asciiLowercase.length := Nat.not_le.mpr index.isLt
  change keyOf (keyAt index).code = (keyAt index).code at key
  change isReleased (keyAt index).code = false at released
  simp only [scancodeToAscii, key, released, clear, number, ctrl, if_neg inside, Bool.or_self,
    Bool.false_eq_true, false_and, if_false]
  cases state.shiftPressed <;> cases state.capsLock <;> rfl

/-- A key types the character of the table that shift and Caps Lock select. -/
theorem run_press (typed : asciiLowercase.getD index 0 ≠ 0)
    (ctrl : state.ctrlPressed = false) (clear : state.extended = false) :
    run Typist.scancode ⟨state, text⟩ (streamOf (press (keyAt index))) =
      ⟨state, text ++
        [if state.shiftPressed = state.capsLock then asciiLowercase.getD index 0
        else asciiUppercase.getD index 0]⟩ := by
  have stream : streamOf (press (keyAt index)) =
      [(keyAt index).code, KeyEvent.scancode ⟨keyAt index, true⟩] := rfl
  have ⟨special, upper, _, _⟩ := key_codes index typed
  have down : feed state (keyAt index).code = state := feed_typing typed clear false
  have up := feed_typing typed clear true
  have shown := ascii_typing typed ctrl clear
  have nonzero : scancodeToAscii (keyAt index).code state ≠ 0 := by
    rw [shown]
    split
    · exact typed
    · exact upper
  have none : scancodeToAscii (KeyEvent.scancode ⟨keyAt index, true⟩) state = 0 := by
    rw [scancodeToAscii_eq_zero_iff clear]
    exact Or.inl (scancode_parts ⟨keyAt index, true⟩).2.1
  rw [stream, run_cons, run_cons, run_nil, Typist.scancode, Typist.scancode]
  dsimp only
  rw [down, up, if_pos ⟨special, nonzero⟩, none, if_neg fun both => both.2 rfl,
    List.append_nil, shown]

/-- The shift key changes its flag and types nothing. -/
theorem scancode_shift (clear : state.extended = false) (released : Bool) :
    Typist.scancode ⟨state, text⟩ (KeyEvent.scancode ⟨leftKey .shift, released⟩) =
      ⟨state.setShift (!released), text⟩ := by
  have parts := scancode_parts ⟨leftKey .shift, released⟩
  have after : feed state (KeyEvent.scancode ⟨leftKey .shift, released⟩) =
      state.setShift (!released) := by
    rw [feed, updateKeyboardState, if_neg parts.2.2,
      if_neg (by rw [clear]; exact Bool.false_ne_true), parts.1,
      parts.2.1]
    exact if_pos (Or.inl rfl)
  have none : scancodeToAscii (KeyEvent.scancode ⟨leftKey .shift, released⟩)
      (state.setShift (!released)) = 0 := by
    have stillClear : (state.setShift (!released)).extended = false := clear
    rw [scancodeToAscii_eq_zero_iff stillClear, parts.1]
    exact Or.inr rfl
  rw [Typist.scancode, after, if_neg fun both => both.2 none, List.append_nil]

/-- With the shift key held the other table is selected. -/
theorem run_pressShifted (typed : asciiLowercase.getD index 0 ≠ 0) (neutral : Neutral state) :
    run Typist.scancode ⟨state, text⟩ (streamOf (pressShifted (keyAt index))) =
      ⟨state, text ++
        [if state.capsLock then asciiLowercase.getD index 0 else asciiUppercase.getD index 0]⟩ := by
  have stream : streamOf (pressShifted (keyAt index)) =
      [KeyEvent.scancode ⟨leftKey .shift, false⟩] ++
        (streamOf (press (keyAt index)) ++ [KeyEvent.scancode ⟨leftKey .shift, true⟩]) := rfl
  have stillCtrl : (state.setShift true).ctrlPressed = false := neutral.ctrl
  have stillClear : (state.setShift true).extended = false := neutral.clear
  have restored : (state.setShift true).setShift false = state := by
    rw [← neutral.shift]
    rfl
  have selects : (if (state.setShift true).shiftPressed = (state.setShift true).capsLock then
      asciiLowercase.getD index 0 else asciiUppercase.getD index 0) =
        if state.capsLock then asciiLowercase.getD index 0 else asciiUppercase.getD index 0 := by
    cases capsLock : state.capsLock <;> simp [KeyboardState.setShift, capsLock]
  rw [stream, run_append, run_cons, run_nil, scancode_shift neutral.clear, Bool.not_false,
    run_append, run_press typed stillCtrl stillClear, selects, run_cons, run_nil,
    scancode_shift stillClear, Bool.not_true, restored]

theorem placeIn_some {table : List UInt8} {c : UInt8} (found : placeIn table c = some index) :
    table.getD index 0 = c := by
  simpa using List.find?_some found

theorem placeIn_of_mem {table : List UInt8} (length : table.length = tableKeys) {c : UInt8}
    (member : c ∈ table) : ∃ index, placeIn table c = some index := by
  obtain ⟨index, below, same⟩ := List.mem_iff_getElem.mp member
  apply Option.isSome_iff_exists.mp
  rw [placeIn, List.find?_isSome]
  refine ⟨⟨index, by omega⟩, List.mem_finRange _, ?_⟩
  rw [decide_eq_true_eq, List.getD_eq_getElem?_getD, List.getElem?_eq_getElem below]
  exact same

private theorem typed_of_upper : ∀ index : Fin tableKeys, asciiUppercase.getD index 0 ≠ 0 →
    asciiLowercase.getD index 0 ≠ 0 := by
  decide

/-- The strokes for a character type it. -/
theorem run_strokes (neutral : Neutral state) {c : UInt8} (typable : Typable c) :
    run Typist.scancode ⟨state, text⟩ (streamOf (strokes state.capsLock c)) =
      ⟨state, text ++ [c]⟩ := by
  have ⟨nonzero, member⟩ := typable
  unfold strokes
  cases lower : placeIn asciiLowercase c with
  | some index =>
      have shown := placeIn_some lower
      have typed : asciiLowercase.getD index 0 ≠ 0 := by rwa [shown]
      dsimp only
      cases capsLock : state.capsLock with
      | true => rw [if_pos rfl, run_pressShifted typed neutral, capsLock, if_pos rfl, shown]
      | false =>
          rw [if_neg nofun, run_press typed neutral.ctrl neutral.clear, capsLock, neutral.shift,
            if_pos rfl, shown]
  | none =>
      have upperMember : c ∈ asciiUppercase := by
        refine member.resolve_left fun inLower => ?_
        have ⟨index, found⟩ := placeIn_of_mem rfl inLower
        rw [lower] at found
        cases found
      have ⟨index, upper⟩ := placeIn_of_mem rfl upperMember
      have shown := placeIn_some upper
      have typed := typed_of_upper index (by rwa [shown])
      rw [upper]
      dsimp only
      cases capsLock : state.capsLock with
      | true =>
          rw [if_pos rfl, run_press typed neutral.ctrl neutral.clear, capsLock, neutral.shift,
            if_neg nofun, shown]
      | false => rw [if_neg nofun, run_pressShifted typed neutral, capsLock, if_neg nofun, shown]

end Strokes

/-- The strokes for a text, one character after the other. -/
def strokesFor (capsLock : Bool) (text : List UInt8) : List KeyEvent :=
  text.flatMap (strokes capsLock)

theorem run_strokesFor {state : KeyboardState} (neutral : Neutral state) (before : List UInt8)
    {text : List UInt8} (typable : ∀ c ∈ text, Typable c) :
    run Typist.scancode ⟨state, before⟩ (streamOf (strokesFor state.capsLock text)) =
      ⟨state, before ++ text⟩ := by
  induction text generalizing before with
  | nil => simp [strokesFor, streamOf]
  | cons c rest inductionHypothesis =>
      have split : streamOf (strokesFor state.capsLock (c :: rest)) =
          streamOf (strokes state.capsLock c) ++ streamOf (strokesFor state.capsLock rest) :=
        List.flatMap_append
      have later := inductionHypothesis (before ++ [c]) fun other member =>
        typable other (List.mem_cons_of_mem _ member)
      rw [split, run_append, run_strokes neutral (typable c List.mem_cons_self), later,
        List.append_assoc, List.singleton_append]

/-- Every text over the characters of the tables is typed by its strokes, on a keyboard
with no Shift, no Ctrl and no prefix pending: however the interrupts that deliver their
scancodes are mixed with interrupts without data, and whatever else is listened to, the
characters called back are the text, and the keyboard is left as it was. -/
theorem typing_round_trip (interrupts : List Interrupt)
    (listens : ∀ interrupt ∈ interrupts, interrupt.callbacks.char = true) (state : KeyboardState)
    (neutral : Neutral state) (text : List UInt8) (typable : ∀ c ∈ text, Typable c)
    (typed : deliveredBy interrupts = streamOf (strokesFor state.capsLock text)) :
    run Typist.interrupt ⟨state, []⟩ interrupts = ⟨state, text⟩ := by
  rw [run_interrupts ⟨state, []⟩ interrupts listens, typed]
  exact run_strokesFor neutral [] typable

/-- The characters from the space to the tilde can be typed. -/
example : ∀ c ∈ (List.range 95).map fun position => UInt8.ofNat (32 + position), Typable c := by
  decide +kernel

/-- Every listener is registered, and the byte is there at once. -/
def quickInterrupt (scancode : UInt8) : Interrupt := ⟨⟨true, true, true⟩, ⟨fun _ => 1, scancode⟩⟩

/-- An interrupt without data. -/
def idleInterrupt : Interrupt := ⟨⟨true, true, true⟩, ⟨fun _ => 0, 0⟩⟩

theorem hello_typed :
    run Typist.interrupt ⟨KeyboardState.zero, []⟩
        (idleInterrupt :: (streamOf (strokesFor false [72, 105, 33])).map quickInterrupt) =
      ⟨KeyboardState.zero, [72, 105, 33]⟩ :=
  typing_round_trip _ (by decide) KeyboardState.zero ⟨rfl, rfl, rfl⟩ [72, 105, 33]
    (by decide +kernel) (by decide +kernel)

end NansOS.Keyboard
