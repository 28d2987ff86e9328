import NansOS.Kernel.FormatReads
import Mathlib.Data.List.Induction

/-! Owns how `vsprintf` reads directives. It takes at most one width digit: a
second digit is taken for the conversion, which stores a `?` and no argument, and
what follows it is literal text or, behind a `%`, a directive of its own. A format
is a list of pieces, literals and directives with the arguments meant for them,
and the loop stands at the end of every piece with that piece rendered and its
argument gone exactly when no directive has two digits. -/

namespace NansOS.Kernel

open NansOS.Foundation

/-! ### Formats in pieces -/

/-- A conversion of `vsprintf` that takes a word. -/
inductive WordConversion where
  | d
  | i
  | u
  | x
  | upperX
  | c
deriving DecidableEq

/-- The letter of the conversion. -/
def WordConversion.letter : WordConversion → UInt8
  | d => ascii 'd'
  | i => ascii 'i'
  | u => ascii 'u'
  | x => ascii 'x'
  | upperX => ascii 'X'
  | c => ascii 'c'

/-- A literal character, or a directive with its digits and its argument. -/
inductive Piece where
  | literal (byte : UInt8) (plain : byte ≠ 0 ∧ byte ≠ ascii '%')
  | word (digits : List (Fin 10)) (conversion : WordConversion) (value : UInt32)
  | string (digits : List (Fin 10)) (value : CString)
  | percent (digits : List (Fin 10))

namespace Piece

/-- The width digits of a piece. -/
def digits : Piece → List (Fin 10)
  | literal .. => []
  | word digits .. => digits
  | string digits _ => digits
  | percent digits => digits

/-- The character of a width digit. -/
def digitChar (digit : Fin 10) : UInt8 := ascii '0' + UInt8.ofNat digit

/-- The width that digits spell. -/
def width (digits : List (Fin 10)) : Nat := Nat.ofDigits 10 (digits.reverse.map Fin.val)

/-- How the piece is written in a format. -/
def spelling : Piece → List UInt8
  | literal byte _ => [byte]
  | word digits conversion _ => ascii '%' :: (digits.map digitChar ++ [conversion.letter])
  | string digits _ => ascii '%' :: (digits.map digitChar ++ [ascii 's'])
  | percent digits => ascii '%' :: (digits.map digitChar ++ [ascii '%'])

/-- The argument of the piece, if it takes one. -/
def arguments : Piece → List Argument
  | literal .. => []
  | word _ _ value => [.word value]
  | string _ value => [.string value]
  | percent _ => []

/-- The piece as it is to be stored. -/
def rendered : Piece → List UInt8
  | literal byte _ => [byte]
  | word digits .d value => printNum value.toInt32.toInt64.toUInt64 10 (width digits) (ascii ' ')
  | word digits .i value => printNum value.toInt32.toInt64.toUInt64 10 (width digits) (ascii ' ')
  | word digits .u value => printNum value.toUInt64 10 (width digits) (ascii ' ')
  | word digits .x value => printNum value.toUInt64 16 (width digits) (ascii '0')
  | word digits .upperX value => printNum value.toUInt64 16 (width digits) (ascii '0')
  | word _ .c value => [value.toUInt8]
  | string _ value => value.bytes
  | percent _ => [ascii '%']

end Piece

/-- The format that pieces make. -/
def spelled (pieces : List Piece) : List UInt8 := pieces.flatMap Piece.spelling

/-- The arguments that belong to pieces. -/
def supplied (pieces : List Piece) : List Argument := pieces.flatMap Piece.arguments

/-- In front of every piece, and at the end, the loop of `vsprintf` stands there
with the pieces before it rendered and the arguments of the others left. -/
def RendersPieces (memory : Memory) (format str : Nat) (pieces : List Piece)
    (more : List Argument) : Prop :=
  ∀ front back, pieces = front ++ back →
    ∃ formatter, Reaches (vsprintfPass memory)
        (.enter format str (supplied pieces ++ more)) formatter ∧
      formatter.format = format + (spelled front).length ∧
      formatter.args = supplied back ++ more ∧
      formatter.stores = placed str (front.flatMap Piece.rendered)

/-! ### One piece -/

section Pieces

variable {memory : Memory} {formatter : Formatter} {tail : List UInt8} {later : List Argument}

theorem digitChar_isDigit (digit : Fin 10) :
    ascii '0' ≤ Piece.digitChar digit ∧ Piece.digitChar digit ≤ ascii '9' := by
  revert digit
  decide

theorem digitChar_value (digit : Fin 10) :
    (Piece.digitChar digit - ascii '0').toNat = Piece.width [digit] := by
  revert digit
  decide

/-- The conversion of a directive renders its argument. -/
theorem conversion_rendered (conversion : WordConversion) (digits : List (Fin 10))
    (value : UInt32) (later : List Argument) :
    vsprintfConversion conversion.letter (Piece.width digits) (.word value :: later) =
      .ok ((Piece.word digits conversion value).rendered, later) := by
  cases conversion <;> rfl

/-- A directive with at most one digit is one pass. -/
theorem directive_pass {letter : UInt8} {digits : List (Fin 10)} {text : List UInt8}
    (short : digits.length ≤ 1)
    (bare : ¬ (ascii '0' ≤ letter ∧ letter ≤ ascii '9'))
    (spells : Spells memory formatter.format
      (ascii '%' :: (digits.map Piece.digitChar ++ [letter]) ++ tail))
    (converted :
      vsprintfConversion letter (Piece.width digits) formatter.args = .ok (text, later)) :
    ∃ next, vsprintfPass memory formatter = .ok next ∧
      next.format = formatter.format + (digits.length + 2) ∧ next.args = later ∧
      next.str = formatter.str + text.length ∧
      next.stores = formatter.stores ++ placed formatter.str text := by
  cases digits with
  | nil =>
      obtain ⟨percent, atLetter, -⟩ := spells
      rw [← atLetter] at bare converted
      exact ⟨_, vsprintfPass_bare percent bare converted, rfl, rfl, rfl, rfl⟩
  | cons digit more =>
      obtain rfl : more = [] := List.eq_nil_of_length_eq_zero (by
        rw [List.length_cons] at short
        omega)
      obtain ⟨percent, atDigit, atLetter, -⟩ := spells
      have isDigit := digitChar_isDigit digit
      rw [← digitChar_value, ← atDigit, ← atLetter] at converted
      rw [← atDigit] at isDigit
      exact ⟨_, vsprintfPass_wide percent isDigit converted, rfl, rfl, rfl, rfl⟩

theorem letter_not_digit (conversion : WordConversion) :
    ¬ (ascii '0' ≤ conversion.letter ∧ conversion.letter ≤ ascii '9') := by
  revert conversion
  intro conversion
  cases conversion <;> decide

theorem directive_length (digits : List (Fin 10)) (letter : UInt8) :
    (ascii '%' :: (digits.map Piece.digitChar ++ [letter])).length = digits.length + 2 := by
  simp

/-- A piece with at most one digit is one pass, which renders it and takes its
argument. -/
theorem piece_pass (piece : Piece) (short : piece.digits.length ≤ 1)
    (spells : Spells memory formatter.format (piece.spelling ++ tail))
    (args : formatter.args = piece.arguments ++ later) :
    ∃ next, vsprintfPass memory formatter = .ok next ∧
      next.format = formatter.format + piece.spelling.length ∧ next.args = later ∧
      next.str = formatter.str + piece.rendered.length ∧
      next.stores = formatter.stores ++ placed formatter.str piece.rendered := by
  cases piece with
  | literal byte plain =>
      obtain ⟨atByte, -⟩ := spells
      have nonzero : memory formatter.format ≠ 0 := fun zero => plain.1 (atByte.symm.trans zero)
      have notPercent : memory formatter.format ≠ ascii '%' := fun percent =>
        plain.2 (atByte.symm.trans percent)
      have goesOn := vsprintfPass_literal nonzero notPercent
      rw [atByte] at goesOn
      exact ⟨_, goesOn, rfl, args, rfl, rfl⟩
  | word digits conversion value =>
      have converted := conversion_rendered conversion digits value later
      rw [Piece.spelling, directive_length]
      exact directive_pass short (letter_not_digit conversion) spells (args ▸ converted)
  | string digits value =>
      have converted : vsprintfConversion (ascii 's') (Piece.width digits)
          (.string value :: later) = .ok (value.bytes, later) := rfl
      rw [Piece.spelling, directive_length]
      exact directive_pass short (by decide) spells (args ▸ converted)
  | percent digits =>
      have converted : vsprintfConversion (ascii '%') (Piece.width digits) later =
          .ok ([ascii '%'], later) := rfl
      rw [Piece.spelling, directive_length]
      exact directive_pass short (by decide) spells (args ▸ converted)

end Pieces

/-! ### Formats with short widths -/

section Runs

variable {memory : Memory} {format str : Nat} {pieces front back : List Piece}
variable {more : List Argument}

@[simp] theorem spelled_append (front back : List Piece) :
    spelled (front ++ back) = spelled front ++ spelled back := List.flatMap_append

@[simp] theorem spelled_cons (piece : Piece) (rest : List Piece) :
    spelled (piece :: rest) = piece.spelling ++ spelled rest := List.flatMap_cons

@[simp] theorem supplied_append (front back : List Piece) :
    supplied (front ++ back) = supplied front ++ supplied back := List.flatMap_append

@[simp] theorem supplied_cons (piece : Piece) (rest : List Piece) :
    supplied (piece :: rest) = piece.arguments ++ supplied rest := List.flatMap_cons

/-- Behind pieces with at most one digit the loop stands at their end. -/
theorem reaches_of_short (front : List Piece) (short : ∀ piece ∈ front, piece.digits.length ≤ 1)
    {tail : List UInt8} {later : List Argument} :
    ∀ formatter : Formatter, Spells memory formatter.format (spelled front ++ tail) →
      formatter.args = supplied front ++ later →
      ∃ last, Reaches (vsprintfPass memory) formatter last ∧
        last.format = formatter.format + (spelled front).length ∧ last.args = later ∧
        last.stores =
          formatter.stores ++ placed formatter.str (front.flatMap Piece.rendered) := by
  induction front with
  | nil =>
      intro formatter spells args
      exact ⟨formatter, .refl _, rfl, args, by simp⟩
  | cons piece rest inductionHypothesis =>
      intro formatter spells args
      rw [spelled_cons, List.append_assoc] at spells
      rw [supplied_cons, List.append_assoc] at args
      obtain ⟨next, goesOn, nextFormat, nextArgs, nextStr, nextStores⟩ :=
        piece_pass piece (short piece List.mem_cons_self) spells args
      have onward := spells.drop
      rw [← nextFormat] at onward
      obtain ⟨last, reached, lastFormat, lastArgs, lastStores⟩ :=
        inductionHypothesis (fun piece member => short piece (List.mem_cons_of_mem _ member))
          next onward nextArgs
      refine ⟨last, (reaches_of_ok goesOn).mpr (.inr reached), ?_, lastArgs, ?_⟩
      · rw [lastFormat, nextFormat, spelled_cons, List.length_append, Nat.add_assoc]
      · rw [lastStores, nextStores, nextStr, List.flatMap_cons, placed_append, List.append_assoc]

theorem rendersPieces_of_short (spells : Spells memory format (spelled pieces))
    (short : ∀ piece ∈ pieces, piece.digits.length ≤ 1) :
    RendersPieces memory format str pieces more := by
  rintro front back rfl
  rw [spelled_append] at spells
  have args : (Formatter.enter format str (supplied (front ++ back) ++ more)).args =
      supplied front ++ (supplied back ++ more) := by
    simp [Formatter.enter]
  exact reaches_of_short front (fun piece member => short piece (List.mem_append_left _ member))
    _ spells args

end Runs

/-! ### Directives with two digits -/

section Cursor

variable {memory : Memory} {formatter next last : Formatter}

theorem vsprintfSwitch_format {width : Nat}
    (goesOn : vsprintfSwitch memory width formatter = .ok next) :
    next.format = formatter.format + 1 := by
  rw [vsprintfSwitch_eq] at goesOn
  split at goesOn
  · cases goesOn
  · exact Except.ok.inj goesOn ▸ rfl

/-- A pass over a directive moves the cursor by two at least. -/
theorem vsprintfPass_percent_format (percent : memory formatter.format = ascii '%')
    (goesOn : vsprintfPass memory formatter = .ok next) :
    formatter.format + 2 ≤ next.format := by
  by_cases digit : ascii '0' ≤ memory (formatter.format + 1) ∧
      memory (formatter.format + 1) ≤ ascii '9'
  · rw [vsprintfPass_width percent digit] at goesOn
    rw [vsprintfSwitch_format goesOn]
    exact Nat.le_succ _
  · rw [vsprintfPass_directive percent digit] at goesOn
    rw [vsprintfSwitch_format goesOn]
    exact le_rfl

theorem vsprintfPass_format (goesOn : vsprintfPass memory formatter = .ok next) :
    formatter.format < next.format := by
  by_cases nul : memory formatter.format = 0
  · rw [vsprintfPass_nul nul] at goesOn
    cases goesOn
  by_cases plain : memory formatter.format ≠ ascii '%'
  · rw [vsprintfPass_literal nul plain] at goesOn
    exact Except.ok.inj goesOn ▸ Nat.lt_succ_self _
  · have further := vsprintfPass_percent_format (not_not.mp plain) goesOn
    omega

theorem reaches_format_le (reached : Reaches (vsprintfPass memory) formatter last) :
    formatter.format ≤ last.format :=
  reached.keeps (fun later => formatter.format ≤ later.format)
    (fun _ _ goesOn before => before.trans (vsprintfPass_format goesOn).le) le_rfl

/-- The loop stands at an address of the format once at most. -/
theorem eq_of_reaches_of_format (reached : Reaches (vsprintfPass memory) formatter last)
    (same : last.format = formatter.format) : last = formatter := by
  cases outcome : vsprintfPass memory formatter with
  | error halt => exact (reaches_of_error outcome).mp reached
  | ok next =>
      rcases (reaches_of_ok outcome).mp reached with here | later
      · exact here
      · have further := reaches_format_le later
        have moved := vsprintfPass_format outcome
        omega

/-- The loop crosses literal text character by character and takes no argument. -/
theorem reaches_over_literals {literals tail : List UInt8}
    (plain : ∀ byte ∈ literals, byte ≠ 0 ∧ byte ≠ ascii '%') :
    ∀ formatter : Formatter, Spells memory formatter.format (literals ++ tail) →
      Reaches (vsprintfPass memory) formatter last →
      formatter.format + literals.length ≤ last.format →
      ∃ middle, middle.format = formatter.format + literals.length ∧
        middle.args = formatter.args ∧ Reaches (vsprintfPass memory) middle last := by
  induction literals with
  | nil => exact fun formatter _ reached _ => ⟨formatter, rfl, rfl, reached⟩
  | cons byte rest inductionHypothesis =>
      intro formatter spells reached behind
      obtain ⟨atByte, spells⟩ := spells
      rw [List.length_cons] at behind
      have first := plain byte List.mem_cons_self
      rw [← atByte] at first
      have goesOn := vsprintfPass_literal first.1 first.2
      rcases (reaches_of_ok goesOn).mp reached with rfl | later
      · omega
      · obtain ⟨middle, middleFormat, middleArgs, onward⟩ := inductionHypothesis
          (fun byte member => plain byte (List.mem_cons_of_mem _ member)) _ spells later
          (by change formatter.format + 1 + rest.length ≤ last.format; omega)
        refine ⟨middle, ?_, middleArgs, onward⟩
        rw [middleFormat, List.length_cons]
        change formatter.format + 1 + rest.length = _
        omega

theorem conversion_digit (digit : Fin 10) (width : Nat) (args : List Argument) :
    vsprintfConversion (Piece.digitChar digit) width args = .ok ([ascii '?'], args) := by
  have noLetter : ∀ digit : Fin 10, ∀ letter ∈ [ascii 'd', ascii 'i', ascii 'x', ascii 'X',
      ascii 'u', ascii 's', ascii 'c', ascii '%'], Piece.digitChar digit ≠ letter := by
    decide +kernel
  have noLetter := noLetter digit
  simp only [List.forall_mem_cons] at noLetter
  obtain ⟨d, i, x, upperX, u, s, c, percent, -⟩ := noLetter
  unfold vsprintfConversion
  rw [if_neg (not_or.mpr ⟨d, i⟩), if_neg (not_or.mpr ⟨x, upperX⟩), if_neg u, if_neg s, if_neg c,
    if_neg percent]

/-- A loop that comes to stand at the next character has crossed no `%` and taken
no argument. -/
theorem args_of_next_character (nonzero : memory formatter.format ≠ 0)
    (reached : Reaches (vsprintfPass memory) formatter last)
    (behind : last.format = formatter.format + 1) :
    last.args = formatter.args ∧ memory formatter.format ≠ ascii '%' := by
  cases outcome : vsprintfPass memory formatter with
  | error halt =>
      rw [reaches_of_error outcome] at reached
      rw [reached] at behind
      omega
  | ok next =>
      rcases (reaches_of_ok outcome).mp reached with same | onward
      · rw [same] at behind
        omega
      have literal : memory formatter.format ≠ ascii '%' := by
        intro percent
        have further := vsprintfPass_percent_format percent outcome
        have before := reaches_format_le onward
        omega
      rw [vsprintfPass_literal nonzero literal] at outcome
      obtain rfl := Except.ok.inj outcome
      rw [eq_of_reaches_of_format onward behind]
      exact ⟨rfl, literal⟩

/-- Behind a directive with two digits the loop stands, if at all, without having
taken an argument, and not if the directive is a `%`. -/
theorem reaches_behind_wide {letter : UInt8} {digits : List (Fin 10)} {tail : List UInt8}
    (wide : 2 ≤ digits.length)
    (spells : Spells memory formatter.format
      (ascii '%' :: (digits.map Piece.digitChar ++ [letter]) ++ tail))
    (nonzero : letter ≠ 0) (reached : Reaches (vsprintfPass memory) formatter last)
    (behind : last.format = formatter.format + (digits.length + 2)) :
    last.args = formatter.args ∧ letter ≠ ascii '%' := by
  obtain ⟨first, second, rest, rfl⟩ : ∃ first second rest, digits = first :: second :: rest := by
    match digits, wide with
    | first :: second :: rest, _ => exact ⟨first, second, rest, rfl⟩
  simp only [List.length_cons] at behind
  obtain ⟨percent, atFirst, atSecond, spells⟩ := spells
  -- The second digit is the conversion.
  have isDigit := digitChar_isDigit first
  rw [← atFirst] at isDigit
  have converted := conversion_digit second
    (memory (formatter.format + 1) - ascii '0').toNat formatter.args
  rw [← atSecond] at converted
  have goesOn := vsprintfPass_wide percent isDigit converted
  rcases (reaches_of_ok goesOn).mp reached with rfl | later
  · omega
  have digitsPlain : ∀ digit : Fin 10,
      Piece.digitChar digit ≠ 0 ∧ Piece.digitChar digit ≠ ascii '%' := by decide
  have plain : ∀ byte ∈ rest.map Piece.digitChar, byte ≠ 0 ∧ byte ≠ ascii '%' := by
    intro byte member
    obtain ⟨digit, -, rfl⟩ := List.mem_map.mp member
    exact digitsPlain digit
  have onward : Spells memory (formatter.format + 1 + 1 + 1)
      (rest.map Piece.digitChar ++ ([letter] ++ tail)) := by
    rw [← List.append_assoc]
    exact spells
  obtain ⟨middle, middleFormat, middleArgs, reached⟩ := reaches_over_literals plain _ onward later
    (by
      change formatter.format + 1 + 1 + 1 + (rest.map Piece.digitChar).length ≤ last.format
      rw [List.length_map]
      omega)
  have atLetter : memory middle.format = letter := by
    rw [middleFormat]
    exact onward.drop.1
  have remaining : last.format = middle.format + 1 := by
    rw [middleFormat, List.length_map]
    change last.format = formatter.format + 1 + 1 + 1 + rest.length + 1
    omega
  obtain ⟨kept, literal⟩ := args_of_next_character (atLetter.symm ▸ nonzero) reached remaining
  rw [atLetter] at literal
  exact ⟨kept.trans middleArgs, literal⟩

end Cursor

section Runs

variable {memory : Memory} {format str : Nat} {pieces : List Piece} {more : List Argument}

/-- A piece with two digits or more takes an argument, which is still there
behind it, or is a `%` that the loop jumps over the end of. -/
theorem wide_piece_not_consumed {formatter last : Formatter} (piece : Piece)
    (wide : 2 ≤ piece.digits.length) {tail : List UInt8} {later : List Argument}
    (spells : Spells memory formatter.format (piece.spelling ++ tail))
    (args : formatter.args = piece.arguments ++ later)
    (reached : Reaches (vsprintfPass memory) formatter last)
    (behind : last.format = formatter.format + piece.spelling.length) :
    last.args ≠ later := by
  cases piece with
  | literal byte plain => exact absurd wide (by simp [Piece.digits])
  | word digits conversion value =>
      rw [Piece.spelling, directive_length] at behind
      have nonzero : conversion.letter ≠ 0 := by cases conversion <;> decide
      have kept := (reaches_behind_wide wide spells nonzero reached behind).1
      rw [kept, args]
      exact List.cons_ne_self _ _
  | string digits value =>
      rw [Piece.spelling, directive_length] at behind
      have kept := (reaches_behind_wide wide spells (by decide) reached behind).1
      rw [kept, args]
      exact List.cons_ne_self _ _
  | percent digits =>
      rw [Piece.spelling, directive_length] at behind
      exact absurd rfl (reaches_behind_wide wide spells (by decide) reached behind).2

/-- Behind short pieces the next one is short too. -/
theorem short_step {front back : List Piece} {piece : Piece}
    (spells : Spells memory format (spelled (front ++ piece :: back)))
    (renders : RendersPieces memory format str (front ++ piece :: back) more)
    (short : ∀ before ∈ front, before.digits.length ≤ 1) : piece.digits.length ≤ 1 := by
  by_contra long
  have wide : 2 ≤ piece.digits.length := by omega
  rw [spelled_append, spelled_cons] at spells
  have args : (Formatter.enter format str (supplied (front ++ piece :: back) ++ more)).args =
      supplied front ++ (piece.arguments ++ (supplied back ++ more)) := by
    simp [Formatter.enter]
  obtain ⟨here, reachedHere, hereFormat, hereArgs, -⟩ :=
    reaches_of_short front short _ spells args
  obtain ⟨there, reachedThere, thereFormat, thereArgs, -⟩ :=
    renders (front ++ [piece]) back (by simp)
  have behind : there.format = here.format + piece.spelling.length := by
    rw [thereFormat, hereFormat, spelled_append, List.length_append, Nat.add_assoc]
    simp [Formatter.enter, spelled]
  have onward : Reaches (vsprintfPass memory) here there := by
    rcases reachedHere.total reachedThere with later | earlier
    · exact later
    · have before := reaches_format_le earlier
      have nonempty : 0 < piece.spelling.length := by cases piece <;> simp [Piece.spelling]
      omega
  have atPiece := spells.drop
  change Spells memory (format + (spelled front).length) _ at atPiece
  rw [← show here.format = format + (spelled front).length from hereFormat] at atPiece
  exact wide_piece_not_consumed piece wide atPiece hereArgs onward behind thereArgs

theorem short_of_rendersPieces (spells : Spells memory format (spelled pieces))
    (renders : RendersPieces memory format str pieces more) :
    ∀ piece ∈ pieces, piece.digits.length ≤ 1 := by
  have prefixes : ∀ front back, pieces = front ++ back →
      ∀ piece ∈ front, piece.digits.length ≤ 1 := by
    intro front
    induction front using List.reverseRecOn with
    | nil => exact fun _ _ => nofun
    | append_singleton front last inductionHypothesis =>
        intro back split
        rw [List.append_assoc, List.singleton_append] at split
        have earlier := inductionHypothesis (last :: back) split
        subst split
        intro piece member
        rcases List.mem_append.mp member with before | same
        · exact earlier piece before
        · rw [List.mem_singleton.mp same]
          exact short_step spells renders earlier
  exact prefixes pieces [] (List.append_nil pieces).symm

/-- Every directive consumes and renders its argument, and every literal is
stored, exactly when no directive has two width digits. -/
theorem rendersPieces_iff (spells : Spells memory format (spelled pieces)) (str : Nat)
    (more : List Argument) :
    RendersPieces memory format str pieces more ↔ ∀ piece ∈ pieces, piece.digits.length ≤ 1 :=
  ⟨short_of_rendersPieces spells, rendersPieces_of_short spells⟩

end Runs

/-- A memory that holds the format of some pieces. -/
theorem spells_pieces (pieces : List Piece) (noNul : 0 ∉ spelled pieces) :
    Spells (memoryOf ⟨spelled pieces, noNul⟩) 0 (spelled pieces) :=
  spells_memoryOf ⟨spelled pieces, noNul⟩

theorem rendersPieces_iff_byte :
    RendersPieces (memoryOf ⟨spelled [.literal 58 (by decide), .word [2] .x 0xAB], by decide⟩) 0 0
        [.literal 58 (by decide), .word [2] .x 0xAB] [] ↔
      ∀ piece ∈ [Piece.literal 58 (by decide), .word [2] .x 0xAB], piece.digits.length ≤ 1 :=
  rendersPieces_iff (spells_pieces _ (by decide)) 0 []

/-- `%02x` leaves its argument. -/
theorem two_digits_leave_argument :
    ¬ ∀ (memory : Memory) (format str : Nat) (pieces : List Piece) (more : List Argument),
      Spells memory format (spelled pieces) → RendersPieces memory format str pieces more := by
  intro always
  have spells := spells_pieces [.word [0, 2] .x 0xAB] (by decide)
  have short := short_of_rendersPieces spells (always _ 0 0 _ [] spells)
  exact absurd (short _ List.mem_cons_self) (by decide)

end NansOS.Kernel
