import NansOS.Kernel.Truncation

/-! Owns where the formatters stop reading a format. Both advance the cursor over
a `%`, `vsprintf` also over a width digit, before they look for the NUL again;
they stay inside the format exactly when no directive is cut off by its end, or
when the buffer of `vsnprintf` is full before. -/

namespace NansOS.Kernel

open NansOS.Foundation

/-- The argument that a conversion of `vsprintf` takes. -/
def vsprintfDemand (conversion : UInt8) : List ArgumentKind :=
  if conversion = ascii 's' then [.string]
  else if conversion ∈ [ascii 'd', ascii 'i', ascii 'x', ascii 'X', ascii 'u', ascii 'c'] then
    [.word]
  else []

/-- The arguments that the directives of a format take from `vsprintf`. -/
def vsprintfDemands : List UInt8 → List ArgumentKind
  | [] => []
  | byte :: format =>
      if byte ≠ ascii '%' then vsprintfDemands format
      else
        match format with
        | [] => []
        | next :: format =>
            if ascii '0' ≤ next ∧ next ≤ ascii '9' then
              match format with
              | [] => []
              | conversion :: format => vsprintfDemand conversion ++ vsprintfDemands format
            else vsprintfDemand next ++ vsprintfDemands format

/-- Every `%`, and every width digit behind it, is followed by another character. -/
def WidthComplete : List UInt8 → Prop
  | [] => True
  | byte :: format =>
      if byte ≠ ascii '%' then WidthComplete format
      else
        match format with
        | [] => False
        | next :: format =>
            if ascii '0' ≤ next ∧ next ≤ ascii '9' then
              match format with
              | [] => False
              | _ :: format => WidthComplete format
            else WidthComplete format

/-- The formatter returns, having read no byte of the format behind the bound. -/
def ReadsInside (stops : FormatHalt → Prop) (bound : Nat) : Prop :=
  ∃ last, stops (.finished last) ∧ ∀ address ∈ last.reads, address ≤ bound

theorem vsprintfConversion_of_matches {conversion : UInt8} {demands : List ArgumentKind}
    {args : List Argument} (suits : Matches (vsprintfDemand conversion ++ demands) args)
    (width : Nat) :
    ∃ text rest, vsprintfConversion conversion width args = .ok (text, rest) ∧
      Matches demands rest := by
  by_cases string : conversion = ascii 's'
  · subst string
    obtain ⟨value, rest, rfl, later⟩ := Matches.string suits
    exact ⟨_, rest, rfl, later⟩
  unfold vsprintfDemand at suits
  rw [if_neg string] at suits
  by_cases word : conversion ∈ [ascii 'd', ascii 'i', ascii 'x', ascii 'X', ascii 'u', ascii 'c']
  · rw [if_pos word] at suits
    obtain ⟨value, rest, rfl, later⟩ := Matches.word suits
    simp only [List.mem_cons, List.not_mem_nil, or_false] at word
    rcases word with rfl | rfl | rfl | rfl | rfl | rfl <;> exact ⟨_, rest, rfl, later⟩
  · rw [if_neg word] at suits
    simp only [List.mem_cons, List.not_mem_nil, or_false, not_or] at word
    obtain ⟨notD, notI, notX, notUpperX, notU, notC⟩ := word
    unfold vsprintfConversion
    rw [if_neg (not_or.mpr ⟨notD, notI⟩), if_neg (not_or.mpr ⟨notX, notUpperX⟩), if_neg notU,
      if_neg string, if_neg notC]
    split_ifs
    · exact ⟨_, args, rfl, suits⟩
    · exact ⟨_, args, rfl, suits⟩

section Directives

variable {byte digit conversion : UInt8} {format : List UInt8}

theorem vsprintfDemands_literal (plain : byte ≠ ascii '%') :
    vsprintfDemands (byte :: format) = vsprintfDemands format := by
  rw [vsprintfDemands.eq_def]
  exact if_pos plain

theorem vsprintfDemands_bare (bare : ¬ (ascii '0' ≤ conversion ∧ conversion ≤ ascii '9')) :
    vsprintfDemands (ascii '%' :: conversion :: format) =
      vsprintfDemand conversion ++ vsprintfDemands format := by
  rw [vsprintfDemands.eq_def]
  exact (if_neg (not_not.mpr rfl)).trans (if_neg bare)

theorem vsprintfDemands_wide (isDigit : ascii '0' ≤ digit ∧ digit ≤ ascii '9') :
    vsprintfDemands (ascii '%' :: digit :: conversion :: format) =
      vsprintfDemand conversion ++ vsprintfDemands format := by
  rw [vsprintfDemands.eq_def]
  exact (if_neg (not_not.mpr rfl)).trans (if_pos isDigit)

theorem widthComplete_literal (plain : byte ≠ ascii '%') :
    WidthComplete (byte :: format) ↔ WidthComplete format := by
  rw [WidthComplete.eq_def]
  exact iff_of_eq (if_pos plain)

theorem widthComplete_bare (bare : ¬ (ascii '0' ≤ conversion ∧ conversion ≤ ascii '9')) :
    WidthComplete (ascii '%' :: conversion :: format) ↔ WidthComplete format := by
  rw [WidthComplete.eq_def]
  exact iff_of_eq ((if_neg (not_not.mpr rfl)).trans (if_neg bare))

theorem widthComplete_wide (isDigit : ascii '0' ≤ digit ∧ digit ≤ ascii '9') :
    WidthComplete (ascii '%' :: digit :: conversion :: format) ↔ WidthComplete format := by
  rw [WidthComplete.eq_def]
  exact iff_of_eq ((if_neg (not_not.mpr rfl)).trans (if_pos isDigit))

theorem not_widthComplete_percent : ¬ WidthComplete [ascii '%'] := by
  rw [WidthComplete.eq_def]
  exact fun complete => (if_neg (not_not.mpr rfl)).mp complete

theorem not_widthComplete_digit (isDigit : ascii '0' ≤ digit ∧ digit ≤ ascii '9') :
    ¬ WidthComplete [ascii '%', digit] := by
  rw [WidthComplete.eq_def]
  exact fun complete => ((if_neg (not_not.mpr rfl)).trans (if_pos isDigit)).mp complete

end Directives

/-- With matching arguments `vsprintf` has a text for the formats without a
directive cut off, and reads behind the end of the others. -/
theorem vsprintfText_of_matches {bytes : List UInt8} {args : List Argument}
    (suits : Matches (vsprintfDemands bytes) args) :
    (WidthComplete bytes → ∃ text, vsprintfText bytes args = .ok text) ∧
      (¬ WidthComplete bytes → vsprintfText bytes args = .error .pastFormat) := by
  induction bytes, args using vsprintfText.induct with
  | case1 args => exact ⟨fun _ => ⟨[], rfl⟩, fun incomplete => absurd trivial incomplete⟩
  | case2 byte format args plain inductionHypothesis =>
      rw [vsprintfDemands_literal plain] at suits
      obtain ⟨whole, cut⟩ := inductionHypothesis suits
      rw [widthComplete_literal plain, vsprintfText_literal plain]
      refine ⟨fun complete => ?_, fun incomplete => ?_⟩
      · obtain ⟨text, produced⟩ := whole complete
        exact ⟨byte :: text, by rw [produced]; rfl⟩
      · rw [cut incomplete]
        rfl
  | case3 byte args percent =>
      obtain rfl := not_not.mp percent
      exact ⟨fun complete => absurd complete not_widthComplete_percent,
        fun _ => vsprintfText_percent args⟩
  | case4 byte args percent digit isDigit =>
      obtain rfl := not_not.mp percent
      exact ⟨fun complete => absurd complete (not_widthComplete_digit isDigit),
        fun _ => vsprintfText_percent_digit isDigit args⟩
  | case5 byte args percent digit isDigit conversion format inductionHypothesis =>
      obtain rfl := not_not.mp percent
      rw [vsprintfDemands_wide isDigit] at suits
      obtain ⟨text, left, converted, later⟩ :=
        vsprintfConversion_of_matches suits (digit - ascii '0').toNat
      obtain ⟨whole, cut⟩ := inductionHypothesis left later
      rw [widthComplete_wide isDigit, vsprintfText_width isDigit, converted]
      refine ⟨fun complete => ?_, fun incomplete => ?_⟩
      · obtain ⟨back, produced⟩ := whole complete
        exact ⟨text ++ back, congrArg (Except.map (text ++ ·)) produced⟩
      · exact congrArg (Except.map (text ++ ·)) (cut incomplete)
  | case6 byte args percent conversion format bare inductionHypothesis =>
      obtain rfl := not_not.mp percent
      rw [vsprintfDemands_bare bare] at suits
      obtain ⟨text, left, converted, later⟩ := vsprintfConversion_of_matches suits 0
      obtain ⟨whole, cut⟩ := inductionHypothesis left later
      rw [widthComplete_bare bare, vsprintfText_directive bare, converted]
      refine ⟨fun complete => ?_, fun incomplete => ?_⟩
      · obtain ⟨back, produced⟩ := whole complete
        exact ⟨text ++ back, congrArg (Except.map (text ++ ·)) produced⟩
      · exact congrArg (Except.map (text ++ ·)) (cut incomplete)

section Bounds

variable {memory : Memory} {format : Nat} {string : CString} {args : List Argument}

/-- Of the three ways in which a loop renders a text, one stays inside the
format. -/
theorem readsInside_iff_of_renders {body : Formatter → Except FormatHalt Formatter}
    {str bound : Nat} {outcome : Except FormatError (List UInt8)}
    (renders : Renders body (.enter format str args) bound outcome) :
    ReadsInside (StopsWith body (.enter format str args)) bound ↔
      ∃ text, outcome = .ok text := by
  cases outcome with
  | ok text =>
      refine iff_of_true ?_ ⟨text, rfl⟩
      obtain ⟨last, stops, -, -, reads⟩ := renders
      refine ⟨last, stops, fun address member => ?_⟩
      exact (reads address member).resolve_left List.not_mem_nil
  | error error =>
      refine iff_of_false ?_ (by rintro ⟨text, same⟩; cases same)
      rintro ⟨last, stops, reads⟩
      cases error with
      | pastFormat =>
          have behind := reads (bound + 1) (renders last stops)
          omega
      | wrongArgument => cases stops.unique renders

theorem vsprintf_readsInside_iff (spells : Spells memory format string.bytes)
    (suits : Matches (vsprintfDemands string.bytes) args) (str : Nat) :
    ReadsInside (VsprintfStops memory format str args) (format + string.bytes.length) ↔
      WidthComplete string.bytes := by
  obtain ⟨whole, cut⟩ := vsprintfText_of_matches suits
  refine (readsInside_iff_of_renders (vsprintf_enter_renders spells args str)).trans ⟨?_, whole⟩
  rintro ⟨text, produced⟩
  by_contra incomplete
  rw [cut incomplete] at produced
  cases produced

theorem vsnprintf_readsInside_iff (spells : Spells memory format string.bytes)
    (suits : Matches (vsnprintfDemands string.bytes) args) (str size : Nat) :
    ReadsInside (VsnprintfStops memory format str size args) (format + string.bytes.length) ↔
      Complete string.bytes ∨ size ≤ (unlimitedText string.bytes args).length + 1 := by
  by_cases empty : size = 0
  · refine iff_of_true ⟨.enter format str args, ?_, nofun⟩ (.inr (by omega))
    rw [VsnprintfStops, if_pos empty]
  have positive : 1 ≤ size := by omega
  have loop : VsnprintfStops memory format str size args =
      StopsWith (vsnprintfPass memory (str + size - 1)) (.enter format str args) := by
    funext halt
    exact if_neg empty
  obtain ⟨cuts, overruns⟩ := vsnprintfText_eq suits (size - 1)
  rw [loop, readsInside_iff_of_renders (vsnprintf_enter_renders spells args str positive)]
  constructor
  · rintro ⟨text, produced⟩
    by_contra neither
    obtain ⟨incomplete, large⟩ := not_or.mp neither
    rw [overruns incomplete (by omega)] at produced
    cases produced
  · intro fine
    exact ⟨_, cuts (fine.imp_right fun within => by omega)⟩

end Bounds

end NansOS.Kernel
