import NansOS.Foundation.Script
import NansOS.Kernel.Format

/-! Owns the setup wizard of `main.c`: the characters that `keyboard_char` feeds
to it from boot until `setup_complete` is set, and the configuration it leaves.
What the wizard prints is left out, and so is the window system, which gets the
characters afterwards and cannot reach the wizard's variables. -/

namespace NansOS.Kernel

open NansOS.Foundation

/-! ### Data model -/

/-- `enum SetupState`. -/
inductive SetupState where
  | welcome
  | language
  | display
  | keyboard
  | storage
  | timezone
  | confirm
  | complete
deriving DecidableEq

/-- `struct SystemConfig`, without the field `color_depth` that nothing uses. -/
structure SystemConfig where
  language : CString
  screenWidth : Int
  screenHeight : Int
  keyboardLayout : Int
  timezone : Int
  storageMode : Int
deriving DecidableEq

/-- The variables `current_setup_state`, `system_config` and `setup_complete`. -/
structure Setup where
  state : SetupState
  config : SystemConfig
  setupComplete : Bool
deriving DecidableEq

/-- The variables at boot. -/
def bootSetup : Setup where
  state := .welcome
  config :=
    { language := CString.empty
      screenWidth := 0
      screenHeight := 0
      keyboardLayout := 0
      timezone := 0
      storageMode := 0 }
  setupComplete := false

/-- `"English"`. -/
def english : CString := ⟨['E', 'n', 'g', 'l', 'i', 's', 'h'].map ascii, by decide⟩

/-- `"Spanish"`. -/
def spanish : CString := ⟨['S', 'p', 'a', 'n', 'i', 's', 'h'].map ascii, by decide⟩

/-- `"French"`. -/
def french : CString := ⟨['F', 'r', 'e', 'n', 'c', 'h'].map ascii, by decide⟩

/-- `"German"`. -/
def german : CString := ⟨['G', 'e', 'r', 'm', 'a', 'n'].map ascii, by decide⟩

/-! ### The wizard -/

/-- `run_setup_wizard`. -/
def runSetupWizard (setup : Setup) : Setup :=
  match setup.state with
  | .complete => { setup with setupComplete := true }
  | _ => setup

/-- The inner `switch (c)` of the display step. -/
def setResolution (config : SystemConfig) (c : UInt8) : SystemConfig :=
  if c = ascii '1' then { config with screenWidth := 800, screenHeight := 600 }
  else if c = ascii '2' then { config with screenWidth := 1024, screenHeight := 768 }
  else if c = ascii '3' then { config with screenWidth := 1280, screenHeight := 720 }
  else if c = ascii '4' then { config with screenWidth := 1920, screenHeight := 1080 }
  else config

/-- `c - '1'`. -/
def choiceOf (c : UInt8) : Int := (c.toNat : Int) - (ascii '1').toNat

/-- The `switch (current_setup_state)` of `handle_setup_input`. -/
def takeChoice (setup : Setup) (c : UInt8) : Setup :=
  match setup.state with
  | .welcome => setup
  | .confirm => setup
  | .complete => setup
  | .language =>
      { setup with
        config.language :=
          if c = ascii '1' then english
          else if c = ascii '2' then spanish
          else if c = ascii '3' then french
          else german
        state := .display }
  | .display => { setup with config := setResolution setup.config c, state := .keyboard }
  | .keyboard => { setup with config.keyboardLayout := choiceOf c, state := .storage }
  | .storage => { setup with config.storageMode := choiceOf c, state := .timezone }
  | .timezone => { setup with config.timezone := choiceOf c, state := .confirm }

/-- `c == '\n' || c == '\r'`. -/
def isEnter (c : UInt8) : Bool := c = ascii '\n' || c = ascii '\r'

/-- `c >= '1' && c <= '4'`. -/
def isChoice (c : UInt8) : Bool := ascii '1' ≤ c && c ≤ ascii '4'

/-- `handle_setup_input`. -/
def handleSetupInput (setup : Setup) (c : UInt8) : Setup :=
  if isEnter c = true ∧ setup.state = .welcome then
    runSetupWizard { setup with state := .language }
  else if isEnter c = true ∧ setup.state = .confirm then
    runSetupWizard { setup with state := .complete }
  else if isChoice c = true then
    runSetupWizard (takeChoice setup c)
  else setup

/-- `keyboard_char`. -/
def keyboardChar (setup : Setup) (c : UInt8) : Setup :=
  if setup.setupComplete then setup else handleSetupInput setup c

/-! ### The script -/

/-- What the wizard still waits for in each of its states. -/
def scriptFrom : SetupState → List (UInt8 → Bool)
  | .welcome => [isEnter, isChoice, isChoice, isChoice, isChoice, isChoice, isEnter]
  | .language => [isChoice, isChoice, isChoice, isChoice, isChoice, isEnter]
  | .display => [isChoice, isChoice, isChoice, isChoice, isEnter]
  | .keyboard => [isChoice, isChoice, isChoice, isEnter]
  | .storage => [isChoice, isChoice, isEnter]
  | .timezone => [isChoice, isEnter]
  | .confirm => [isEnter]
  | .complete => []

/-- The wizard waits for a script, and has set `setup_complete` when nothing is
left of it. -/
def Waits (script : List (UInt8 → Bool)) (setup : Setup) : Prop :=
  script = scriptFrom setup.state ∧ setup.setupComplete = script.isEmpty

/-- One character while the wizard still waits. -/
theorem keyboardChar_of_waiting {setup : Setup} {test : UInt8 → Bool}
    {later : List (UInt8 → Bool)} (waits : Waits (test :: later) setup) (c : UInt8) :
    keyboardChar setup c = handleSetupInput setup c := by
  rw [keyboardChar, waits.2, if_neg nofun]

theorem setup_follows : Follows keyboardChar Waits where
  ignores := by
    intro test later setup c waits rejected
    rw [keyboardChar_of_waiting waits]
    obtain ⟨state, config, setupComplete⟩ := setup
    obtain ⟨script, -⟩ := waits
    cases state <;> cases script <;>
      simp [handleSetupInput, takeChoice, runSetupWizard, rejected]
  advances := by
    intro test later setup c waits accepted
    rw [keyboardChar_of_waiting waits]
    obtain ⟨state, config, setupComplete⟩ := setup
    obtain ⟨script, flag⟩ := waits
    cases state <;> cases script <;>
      simp [Waits, scriptFrom, handleSetupInput, takeChoice, runSetupWizard, accepted] <;>
      exact flag
  rests := by
    intro setup c waits
    rw [keyboardChar, waits.2]
    rfl

/-! ### The configuration -/

/-- The languages offered, in order. -/
def languages : List CString := [english, spanish, french, german]

/-- The resolutions offered, in order. -/
def resolutions : List (Int × Int) := [(800, 600), (1024, 768), (1280, 720), (1920, 1080)]

/-- The digit that selects a choice, choices being numbered from 0. -/
def choiceDigit (choice : Fin 4) : UInt8 := ascii '1' + UInt8.ofNat choice

/-- The configuration that five choices stand for. -/
structure Encodes (config : SystemConfig) (language display keyboard storage timezone : Fin 4) :
    Prop where
  language : config.language = languages[language]
  resolution : (config.screenWidth, config.screenHeight) = resolutions[display]
  keyboard : config.keyboardLayout = keyboard.val
  storage : config.storageMode = storage.val
  timezone : config.timezone = timezone.val

theorem choiceDigit_of_isChoice {c : UInt8} (choice : isChoice c = true) :
    ∃ number, c = choiceDigit number := by
  simp only [isChoice, Bool.and_eq_true, decide_eq_true_eq] at choice
  have low : 49 ≤ c.toNat := UInt8.le_iff_toNat_le.mp choice.1
  have high : c.toNat ≤ 52 := UInt8.le_iff_toNat_le.mp choice.2
  refine ⟨⟨c.toNat - 49, by omega⟩, UInt8.toNat_inj.mp ?_⟩
  change c.toNat = (49 + (c.toNat - 49) % 256) % 256
  omega

section Steps

variable (config : SystemConfig)

theorem keyboardChar_welcome {c : UInt8} (enter : isEnter c = true) :
    keyboardChar ⟨.welcome, config, false⟩ c = ⟨.language, config, false⟩ := by
  simp [keyboardChar, handleSetupInput, runSetupWizard, enter]

theorem keyboardChar_language : ∀ choice : Fin 4,
    keyboardChar ⟨.language, config, false⟩ (choiceDigit choice) =
      ⟨.display, { config with language := languages[choice] }, false⟩
  | 0 => rfl
  | 1 => rfl
  | 2 => rfl
  | 3 => rfl

theorem keyboardChar_display : ∀ choice : Fin 4,
    keyboardChar ⟨.display, config, false⟩ (choiceDigit choice) =
      ⟨.keyboard, { config with
        screenWidth := resolutions[choice].1
        screenHeight := resolutions[choice].2 }, false⟩
  | 0 => rfl
  | 1 => rfl
  | 2 => rfl
  | 3 => rfl

theorem keyboardChar_keyboard : ∀ choice : Fin 4,
    keyboardChar ⟨.keyboard, config, false⟩ (choiceDigit choice) =
      ⟨.storage, { config with keyboardLayout := choice.val }, false⟩
  | 0 => rfl
  | 1 => rfl
  | 2 => rfl
  | 3 => rfl

theorem keyboardChar_storage : ∀ choice : Fin 4,
    keyboardChar ⟨.storage, config, false⟩ (choiceDigit choice) =
      ⟨.timezone, { config with storageMode := choice.val }, false⟩
  | 0 => rfl
  | 1 => rfl
  | 2 => rfl
  | 3 => rfl

theorem keyboardChar_timezone : ∀ choice : Fin 4,
    keyboardChar ⟨.timezone, config, false⟩ (choiceDigit choice) =
      ⟨.confirm, { config with timezone := choice.val }, false⟩
  | 0 => rfl
  | 1 => rfl
  | 2 => rfl
  | 3 => rfl

theorem keyboardChar_confirm {c : UInt8} (enter : isEnter c = true) :
    keyboardChar ⟨.confirm, config, false⟩ c = ⟨.complete, config, true⟩ := by
  simp [keyboardChar, handleSetupInput, runSetupWizard, enter]

end Steps

/-- The wizard run on a match alone. -/
theorem run_of_match {first last : UInt8} (enter : isEnter first = true)
    (confirm : isEnter last = true) (language display keyboard storage timezone : Fin 4) :
    Encodes (run keyboardChar bootSetup [first, choiceDigit language, choiceDigit display,
      choiceDigit keyboard, choiceDigit storage, choiceDigit timezone, last]).config
      language display keyboard storage timezone := by
  simp only [run_cons, run_nil, bootSetup, keyboardChar_welcome _ enter, keyboardChar_language,
    keyboardChar_display, keyboardChar_keyboard, keyboardChar_storage, keyboardChar_timezone,
    keyboardChar_confirm _ confirm]
  exact ⟨rfl, rfl, rfl, rfl, rfl⟩

/-- The script of the whole wizard. -/
def setupScript : List (UInt8 → Bool) := scriptFrom .welcome

/-- A match of the script is two line ends around five digits. -/
theorem passes_setupScript {chosen : List UInt8} (passes : Passes setupScript chosen) :
    ∃ first last language display keyboard storage timezone,
      isEnter first = true ∧ isEnter last = true ∧
      chosen = [first, choiceDigit language, choiceDigit display, choiceDigit keyboard,
        choiceDigit storage, choiceDigit timezone, last] := by
  simp only [Passes, setupScript, scriptFrom, List.forall₂_cons_left_iff,
    List.forall₂_nil_left_iff] at passes
  obtain ⟨first, _, enter, ⟨c₁, _, choice₁, ⟨c₂, _, choice₂, ⟨c₃, _, choice₃, ⟨c₄, _, choice₄,
    ⟨c₅, _, choice₅, ⟨last, _, confirm, rfl, rfl⟩, rfl⟩, rfl⟩, rfl⟩, rfl⟩, rfl⟩, rfl⟩ := passes
  obtain ⟨language, rfl⟩ := choiceDigit_of_isChoice choice₁
  obtain ⟨display, rfl⟩ := choiceDigit_of_isChoice choice₂
  obtain ⟨keyboard, rfl⟩ := choiceDigit_of_isChoice choice₃
  obtain ⟨storage, rfl⟩ := choiceDigit_of_isChoice choice₄
  obtain ⟨timezone, rfl⟩ := choiceDigit_of_isChoice choice₅
  exact ⟨first, last, language, display, keyboard, storage, timezone, enter, confirm, rfl⟩

/-- The wizard after an input from boot. -/
def setupAfter (input : List UInt8) : Setup := run keyboardChar bootSetup input

/-- For every input from boot: the wizard is complete exactly when some match
of the script lies in the input; the configuration is then the one the greedy
match encodes; and no further input changes anything. -/
theorem setup_accepts_script (input : List UInt8) :
    ((setupAfter input).setupComplete = true ↔
        ∃ chosen, chosen.Sublist input ∧ Passes setupScript chosen) ∧
      ((setupAfter input).setupComplete = true →
        ∃ first last language display keyboard storage timezone,
          greedyMatch setupScript input = [first, choiceDigit language, choiceDigit display,
            choiceDigit keyboard, choiceDigit storage, choiceDigit timezone, last] ∧
          Encodes (setupAfter input).config language display keyboard storage timezone) ∧
      ((setupAfter input).setupComplete = true →
        ∀ more, setupAfter (input ++ more) = setupAfter input) := by
  have waiting : Waits setupScript bootSetup := ⟨rfl, rfl⟩
  obtain ⟨same, waits⟩ := setup_follows.run_eq waiting input
  have complete_iff : (setupAfter input).setupComplete = true ↔
      (greedyMatch setupScript input).length = setupScript.length := by
    rw [← greedyMatch_drop_isEmpty, ← waits.2]
    rfl
  refine ⟨complete_iff.trans greedyMatch_complete_iff, fun complete => ?_,
    fun complete more => ?_⟩
  · have passes := greedyMatch_passes setupScript input
    rw [complete_iff.mp complete, List.take_length] at passes
    obtain ⟨first, last, language, display, keyboard, storage, timezone, enter, confirm, chosen⟩ :=
      passes_setupScript passes
    refine ⟨first, last, language, display, keyboard, storage, timezone, chosen, ?_⟩
    rw [setupAfter, same, chosen]
    exact run_of_match enter confirm language display keyboard storage timezone
  · have nothingLeft : setupScript.drop (greedyMatch setupScript input).length = [] := by
      rw [complete_iff.mp complete, List.drop_length]
    rw [nothingLeft] at waits
    rw [setupAfter, run_append]
    exact setup_follows.run_rests waits more

end NansOS.Kernel
