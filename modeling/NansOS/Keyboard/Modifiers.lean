import NansOS.Keyboard.Keymap

/-! Owns the modifier flags against the keys that are really down. Two keys
share each flag, so a flag says only whether the last event of either key was a
press: it goes wrong exactly when one key of a pair is released while the other
is held. -/

namespace NansOS.Keyboard

open NansOS.Foundation

/-! ### Keys and events -/

/-- A physical key: its code, and whether it is sent after the prefix. The break
code of a key with code `0x60` would be the prefix itself. -/
structure PhysicalKey where
  extended : Bool
  code : UInt8
  valid : code < 0x80 ∧ code ≠ 0x60
deriving DecidableEq

/-- A key goes down or up. -/
structure KeyEvent where
  key : PhysicalKey
  released : Bool
deriving DecidableEq

/-- The byte that carries the key code. -/
def KeyEvent.scancode (event : KeyEvent) : UInt8 :=
  if event.released then event.key.code ||| keyReleased else event.key.code

/-- The scancodes of an event. -/
def KeyEvent.bytes (event : KeyEvent) : List UInt8 :=
  if event.key.extended then [keyExtended, event.scancode] else [event.scancode]

/-- One event on the record of the keys that are down. -/
def recordEvent (down : PhysicalKey → Bool) (event : KeyEvent) : PhysicalKey → Bool :=
  Function.update down event.key (!event.released)

/-- The keys that are down after the events, none being down before. -/
def keysDown (events : List KeyEvent) : PhysicalKey → Bool :=
  run recordEvent (fun _ => false) events

/-- Every event changes its key: presses and releases of each key alternate,
beginning with a press. -/
def Alternating (events : List KeyEvent) : Prop :=
  Along recordEvent (fun down event => down event.key = event.released) (fun _ => false) events

/-- One scancode on the keyboard state. -/
def feed (state : KeyboardState) (scancode : UInt8) : KeyboardState :=
  updateKeyboardState scancode state

/-! ### Modifiers -/

/-- The three modifiers. -/
inductive Modifier where
  | shift
  | ctrl
  | alt
deriving DecidableEq

/-- The left key of a modifier. -/
def leftKey : Modifier → PhysicalKey
  | .shift => ⟨false, keyLshift, by decide⟩
  | .ctrl => ⟨false, keyCtrl, by decide⟩
  | .alt => ⟨false, keyAlt, by decide⟩

/-- The right key of a modifier. -/
def rightKey : Modifier → PhysicalKey
  | .shift => ⟨false, keyRshift, by decide⟩
  | .ctrl => ⟨true, keyCtrl, by decide⟩
  | .alt => ⟨true, keyAlt, by decide⟩

/-- The flag of a modifier. -/
def flag (state : KeyboardState) : Modifier → Bool
  | .shift => state.shiftPressed
  | .ctrl => state.ctrlPressed
  | .alt => state.altPressed

/-- The key is one of the two of the modifier. -/
def Serves (modifier : Modifier) (key : PhysicalKey) : Prop :=
  key = leftKey modifier ∨ key = rightKey modifier

instance (modifier : Modifier) (key : PhysicalKey) : Decidable (Serves modifier key) :=
  inferInstanceAs (Decidable (_ ∨ _))

/-- Every flag says whether a key of its modifier is down. -/
def FlagsRight (state : KeyboardState) (down : PhysicalKey → Bool) : Prop :=
  ∀ modifier, flag state modifier = true ↔
    down (leftKey modifier) = true ∨ down (rightKey modifier) = true

/-- The last event of the modifier, if there is one. -/
def lastEvent (modifier : Modifier) (events : List KeyEvent) : Option KeyEvent :=
  (events.filter fun event => Serves modifier event.key).getLast?

/-- The last thing that happened to the two keys of the modifier was that one was
released, while the other is down. -/
def ReleasedBesideHeld (modifier : Modifier) (events : List KeyEvent) : Prop :=
  ∃ event, lastEvent modifier events = some event ∧ event.released = true ∧
    ∃ other, Serves modifier other ∧ other ≠ event.key ∧ keysDown events other = true

/-! ### One event -/

section Event

variable {state : KeyboardState}

private theorem code_cases : ∀ code < 128, code ≠ 0x60 →
    keyOf (UInt8.ofNat code) = UInt8.ofNat code ∧
      keyOf (UInt8.ofNat code ||| keyReleased) = UInt8.ofNat code ∧
      isReleased (UInt8.ofNat code) = false ∧
      isReleased (UInt8.ofNat code ||| keyReleased) = true ∧
      UInt8.ofNat code ≠ keyExtended ∧ UInt8.ofNat code ||| keyReleased ≠ keyExtended := by
  decide +kernel

/-- A key code is read back from its scancode. -/
theorem scancode_parts (event : KeyEvent) :
    keyOf event.scancode = event.key.code ∧ isReleased event.scancode = event.released ∧
      event.scancode ≠ keyExtended := by
  have small : event.key.code.toNat < 128 := UInt8.lt_iff_toNat_lt.mp event.key.valid.1
  have notPrefix : event.key.code.toNat ≠ 0x60 := fun same =>
    event.key.valid.2 (UInt8.toNat_inj.mp same)
  have parts := code_cases event.key.code.toNat small notPrefix
  rw [UInt8.ofNat_toNat] at parts
  unfold KeyEvent.scancode
  cases event.released with
  | false => exact ⟨parts.1, parts.2.2.1, parts.2.2.2.2.1⟩
  | true => exact ⟨parts.2.1, parts.2.2.2.1, parts.2.2.2.2.2⟩

/-- The state after all scancodes of an event. -/
theorem feed_event (clear : state.extended = false) (event : KeyEvent) :
    run feed state event.bytes =
      if event.key.extended then
        { updateExtended event.key.code event.released { state with extended := true } with
          extended := false }
      else updatePlain event.key.code event.released state := by
  obtain ⟨code, released, different⟩ := scancode_parts event
  unfold KeyEvent.bytes
  cases prefixed : event.key.extended with
  | false => simp [feed, updateKeyboardState, different, clear, code, released]
  | true => simp [feed, updateKeyboardState, different, code, released]

theorem feed_event_extended (clear : state.extended = false) (event : KeyEvent) :
    (run feed state event.bytes).extended = false := by
  rw [feed_event clear]
  split_ifs
  · rfl
  · rw [updatePlain_extended, clear]

/-- Which flag a key without the prefix sets. -/
theorem updatePlain_flag (key : PhysicalKey) (plain : key.extended = false) (released : Bool)
    (modifier : Modifier) :
    flag (updatePlain key.code released state) modifier =
      if Serves modifier key then !released else flag state modifier := by
  obtain ⟨extended, code, valid⟩ := key
  subst plain
  cases modifier <;>
    simp only [Serves, leftKey, rightKey, PhysicalKey.mk.injEq, true_and, Bool.false_eq_true,
      false_and, or_false, updatePlain, flag] <;>
    grind

/-- Which flag a key after the prefix sets. -/
theorem updateExtended_flag (key : PhysicalKey) (prefixed : key.extended = true)
    (released : Bool) (modifier : Modifier) :
    flag (updateExtended key.code released state) modifier =
      if Serves modifier key then !released else flag state modifier := by
  obtain ⟨extended, code, valid⟩ := key
  subst prefixed
  cases modifier <;>
    simp only [Serves, leftKey, rightKey, PhysicalKey.mk.injEq, true_and, Bool.true_eq_false,
      false_and, false_or, or_self, updateExtended, flag] <;>
    grind

/-- An event sets the flag its key serves and no other. -/
theorem feed_event_flag (clear : state.extended = false) (event : KeyEvent)
    (modifier : Modifier) :
    flag (run feed state event.bytes) modifier =
      if Serves modifier event.key then !event.released else flag state modifier := by
  have unmarked : ∀ (state : KeyboardState) (extended : Bool),
      flag { state with extended := extended } modifier = flag state modifier := by
    intro state extended
    cases modifier <;> rfl
  rw [feed_event clear]
  cases prefixed : event.key.extended with
  | false => exact updatePlain_flag event.key prefixed event.released modifier
  | true =>
      rw [if_pos rfl, unmarked, updateExtended_flag event.key prefixed, unmarked]

end Event

/-! ### Streams of events -/

/-- The scancodes of a stream of events. -/
def streamOf (events : List KeyEvent) : List UInt8 := events.flatMap KeyEvent.bytes

/-- The same, possibly with the prefix of one more event. -/
def brokenOff (events : List KeyEvent) (broken : Bool) : List UInt8 :=
  streamOf events ++ if broken then [keyExtended] else []

theorem feed_streamOf_append (events : List KeyEvent) (event : KeyEvent) :
    run feed KeyboardState.zero (streamOf (events ++ [event])) =
      run feed (run feed KeyboardState.zero (streamOf events)) event.bytes := by
  simp [streamOf, run_append]

theorem feed_streamOf_extended (events : List KeyEvent) :
    (run feed KeyboardState.zero (streamOf events)).extended = false := by
  induction events using List.reverseRecOn with
  | nil => rfl
  | append_singleton events event inductionHypothesis =>
      rw [feed_streamOf_append]
      exact feed_event_extended inductionHypothesis event

theorem lastEvent_append (modifier : Modifier) (events : List KeyEvent) (event : KeyEvent) :
    lastEvent modifier (events ++ [event]) =
      if Serves modifier event.key then some event else lastEvent modifier events := by
  unfold lastEvent
  rw [List.filter_append]
  by_cases serves : Serves modifier event.key
  · simp [serves]
  · simp [serves]

theorem keysDown_append (events : List KeyEvent) (event : KeyEvent) :
    keysDown (events ++ [event]) =
      Function.update (keysDown events) event.key (!event.released) :=
  run_append _ _ _

/-- A flag repeats the last event of its two keys. -/
theorem flag_of_lastEvent (modifier : Modifier) (events : List KeyEvent) :
    flag (run feed KeyboardState.zero (streamOf events)) modifier =
      match lastEvent modifier events with
      | none => false
      | some event => !event.released := by
  induction events using List.reverseRecOn with
  | nil => cases modifier <;> rfl
  | append_singleton events event inductionHypothesis =>
      rw [feed_streamOf_append, feed_event_flag (feed_streamOf_extended events) event,
        lastEvent_append]
      by_cases serves : Serves modifier event.key
      · simp only [if_pos serves]
      · simp only [if_neg serves, inductionHypothesis]

/-- The record agrees with the last event of a modifier, and without one both
keys are up. -/
theorem keysDown_lastEvent (modifier : Modifier) (events : List KeyEvent) :
    match lastEvent modifier events with
    | none => ∀ key, Serves modifier key → keysDown events key = false
    | some event => Serves modifier event.key ∧ keysDown events event.key = !event.released := by
  induction events using List.reverseRecOn with
  | nil => exact fun _ _ => rfl
  | append_singleton events event inductionHypothesis =>
      rw [lastEvent_append, keysDown_append]
      by_cases serves : Serves modifier event.key
      · rw [if_pos serves]
        exact ⟨serves, Function.update_self ..⟩
      · have apart : ∀ key, Serves modifier key → key ≠ event.key := fun key keyServes same =>
          serves (same ▸ keyServes)
        rw [if_neg serves]
        cases last : lastEvent modifier events with
        | none =>
            rw [last] at inductionHypothesis
            intro key keyServes
            rw [Function.update_of_ne (apart key keyServes)]
            exact inductionHypothesis key keyServes
        | some earlier =>
            rw [last] at inductionHypothesis
            refine ⟨inductionHypothesis.1, ?_⟩
            rw [Function.update_of_ne (apart _ inductionHypothesis.1)]
            exact inductionHypothesis.2

/-- One flag is right exactly when no key of its pair was released beside the
other one held. -/
theorem flag_right_iff (modifier : Modifier) (events : List KeyEvent) :
    (flag (run feed KeyboardState.zero (streamOf events)) modifier = true ↔
      keysDown events (leftKey modifier) = true ∨ keysDown events (rightKey modifier) = true) ↔
      ¬ ReleasedBesideHeld modifier events := by
  have record := keysDown_lastEvent modifier events
  rw [flag_of_lastEvent]
  cases last : lastEvent modifier events with
  | none =>
      rw [last] at record
      have left := record _ (Or.inl rfl)
      have right := record _ (Or.inr rfl)
      simp [left, right, ReleasedBesideHeld, last]
  | some event =>
      rw [last] at record
      obtain ⟨serves, position⟩ := record
      have pair : keysDown events (leftKey modifier) = true ∨
            keysDown events (rightKey modifier) = true ↔
          ∃ key, Serves modifier key ∧ keysDown events key = true := by
        simp [Serves]
      rw [pair]
      cases released : event.released with
      | false =>
          -- The key just pressed is down, and the flag is set.
          rw [released] at position
          apply iff_of_true
          · exact iff_of_true (by simp [released]) ⟨event.key, serves, position⟩
          · rintro ⟨other, same, up, -⟩
            obtain rfl : event = other := Option.some.inj (last.symm.trans same)
            exact absurd (released.symm.trans up) nofun
      | true =>
          -- The flag is clear, so the pair must be up.
          rw [released] at position
          have beside : ReleasedBesideHeld modifier events ↔
              ∃ key, Serves modifier key ∧ keysDown events key = true := by
            constructor
            · rintro ⟨-, -, -, other, otherServes, -, down⟩
              exact ⟨other, otherServes, down⟩
            · rintro ⟨key, keyServes, down⟩
              refine ⟨event, last, released, key, keyServes, ?_, down⟩
              rintro rfl
              exact absurd (position.symm.trans down) nofun
          rw [beside]
          simp [released]

/-- After any stream of events, complete or broken off behind a prefix, all
flags are right exactly when no modifier key was released last beside the other
key of its pair held down. -/
theorem flags_right_iff (events : List KeyEvent) (broken : Bool) :
    FlagsRight (run feed KeyboardState.zero (brokenOff events broken)) (keysDown events) ↔
      ∀ modifier, ¬ ReleasedBesideHeld modifier events := by
  have untouched : ∀ modifier,
      flag (run feed KeyboardState.zero (brokenOff events broken)) modifier =
        flag (run feed KeyboardState.zero (streamOf events)) modifier := by
    intro modifier
    rw [brokenOff, run_append]
    cases broken with
    | false => rfl
    | true => cases modifier <;> rfl
  apply forall_congr'
  intro modifier
  rw [untouched]
  exact flag_right_iff modifier events

/-- With both shift keys held, releasing the right one clears the flag. -/
theorem shift_released_beside_held :
    ¬ ∀ events broken, Alternating events →
      FlagsRight (run feed KeyboardState.zero (brokenOff events broken)) (keysDown events) := by
  intro always
  have tracked := always [⟨leftKey .shift, false⟩, ⟨rightKey .shift, false⟩,
    ⟨rightKey .shift, true⟩] false ⟨rfl, rfl, rfl, trivial⟩ .shift
  exact absurd (tracked.mpr (Or.inl (by decide))) (by decide)

end NansOS.Keyboard
