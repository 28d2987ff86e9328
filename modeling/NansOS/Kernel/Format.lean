import NansOS.Foundation.Numerals
import NansOS.Kernel.StringOps

/-! Owns the two formatters of `string.c`, `vsprintf` and `vsnprintf`, and the
digit loops they share nothing of. A formatter is a function from the format and
its arguments to the text it stores, in order, from `str` on; every store of the
source goes through `*str++`. Signed arithmetic wraps, and an `int` is passed in
the same 32 bits as an `unsigned int`. -/

namespace NansOS.Kernel

open NansOS.Foundation

/-- The code of an ASCII character. -/
def ascii (char : Char) : UInt8 := char.toUInt8

/-- One value of a `va_list`. -/
inductive Argument where
  | word (value : UInt32)
  | string (value : CString)
deriving DecidableEq

/-- What the language leaves undefined: reading the format beyond its
terminator, and a `va_arg` with no value left or with one of another type. -/
inductive FormatError where
  | pastFormat
  | wrongArgument
deriving DecidableEq

/-- `va_arg(args, int)` and `va_arg(args, unsigned int)`. -/
def vaWord : List Argument → Except FormatError (UInt32 × List Argument)
  | .word value :: rest => .ok (value, rest)
  | _ => .error .wrongArgument

/-- `va_arg(args, const char*)`. -/
def vaString : List Argument → Except FormatError (CString × List Argument)
  | .string value :: rest => .ok (value, rest)
  | _ => .error .wrongArgument

/-- What a formatter leaves: the bytes it stores from `str` on, the NUL
included, and the `int` it returns. -/
structure Formatted where
  stored : List UInt8
  returned : Int
deriving DecidableEq

/-- A text with its terminator, and `str - str_start` as an `int`. -/
def Formatted.ofText (text : List UInt8) : Formatted where
  stored := text ++ [0]
  returned := (text.length : Int).bmod (2 ^ 32)

/-! ### `vsprintf` -/

/-- The table `digits` of `print_num`. -/
def digits : List Char :=
  ['0', '1', '2', '3', '4', '5', '6', '7', '8', '9', 'A', 'B', 'C', 'D', 'E', 'F']

/-- `digits[digit]`. -/
def upperDigit (digit : Nat) : UInt8 := ascii (digits.getD digit '0')

/-- The `do … while (num)` loop of `print_num`: the bytes it leaves in `tmp`. A
64-bit number in base 2 or more has at most 64 digits. -/
def numberLoop (base : UInt64) : Nat → UInt64 → List UInt8
  | 0, _ => []
  | limit + 1, num =>
      upperDigit (num % base).toNat ::
        if num / base = 0 then [] else numberLoop base limit (num / base)

/-- `print_num`: the bytes it stores through `*str`. -/
def printNum (num base : UInt64) (width : Nat) (padChar : UInt8) : List UInt8 :=
  let tmp := numberLoop base 64 num
  (tmp ++ List.replicate (width - tmp.length) padChar).reverse

/-- The `switch` of `vsprintf`: the text stored and the arguments left. -/
def vsprintfConversion (conversion : UInt8) (width : Nat) (args : List Argument) :
    Except FormatError (List UInt8 × List Argument) :=
  if conversion = ascii 'd' ∨ conversion = ascii 'i' then
    (vaWord args).map fun (value, rest) =>
      (printNum value.toInt32.toInt64.toUInt64 10 width (ascii ' '), rest)
  else if conversion = ascii 'x' ∨ conversion = ascii 'X' then
    (vaWord args).map fun (value, rest) => (printNum value.toUInt64 16 width (ascii '0'), rest)
  else if conversion = ascii 'u' then
    (vaWord args).map fun (value, rest) => (printNum value.toUInt64 10 width (ascii ' '), rest)
  else if conversion = ascii 's' then
    (vaString args).map fun (value, rest) => (value.bytes, rest)
  else if conversion = ascii 'c' then
    (vaWord args).map fun (value, rest) => ([value.toUInt8], rest)
  else if conversion = ascii '%' then
    .ok ([ascii '%'], args)
  else
    .ok ([ascii '?'], args)

/-- The loop of `vsprintf`: the text it stores for the rest of the format. -/
def vsprintfText : List UInt8 → List Argument → Except FormatError (List UInt8)
  | [], _ => .ok []
  | byte :: format, args =>
      if byte ≠ ascii '%' then
        (vsprintfText format args).map (byte :: ·)
      else
        match format with
        | [] => .error .pastFormat
        | next :: format =>
            if ascii '0' ≤ next ∧ next ≤ ascii '9' then
              match format with
              | [] => .error .pastFormat
              | conversion :: format =>
                  (vsprintfConversion conversion (next - ascii '0').toNat args).bind
                    fun (text, rest) => (vsprintfText format rest).map (text ++ ·)
            else
              (vsprintfConversion next 0 args).bind
                fun (text, rest) => (vsprintfText format rest).map (text ++ ·)

/-- `vsprintf`. -/
def vsprintf (format : CString) (args : List Argument) : Except FormatError Formatted :=
  (vsprintfText format.bytes args).map Formatted.ofText

/-! ### `vsnprintf` -/

/-- The loop of `%d` over a number that is not negative, or whose negation wrapped. -/
def decimalLoop : Nat → Int32 → List UInt8
  | 0, _ => []
  | limit + 1, num =>
      (48 + num % 10).toInt8.toUInt8 ::
        if num / 10 = 0 then [] else decimalLoop limit (num / 10)

/-- The text of `%d` in `vsnprintf`. -/
def signedText (num : Int32) : List UInt8 :=
  if num < 0 then ascii '-' :: (decimalLoop 31 (-num)).reverse
  else (decimalLoop 31 num).reverse

/-- The character of a digit in `%x` of `vsnprintf`. -/
def lowerDigit (digit : Nat) : UInt8 :=
  if digit < 10 then ascii '0' + UInt8.ofNat digit else ascii 'a' + UInt8.ofNat (digit - 10)

/-- The loop of `%x`. -/
def hexLoop : Nat → UInt32 → List UInt8
  | 0, _ => []
  | limit + 1, num =>
      lowerDigit (num &&& 0xF).toNat ::
        if num >>> 4 = 0 then [] else hexLoop limit (num >>> 4)

/-- The `switch` of `vsnprintf` with `room` bytes left before `end`. Each copy
stops at `end`, so what is stored is as much of the text as fits. -/
def vsnprintfConversion (conversion : UInt8) (room : Nat) (args : List Argument) :
    Except FormatError (List UInt8 × List Argument) :=
  if conversion = ascii 's' then
    (vaString args).map fun (value, rest) => (value.bytes.take room, rest)
  else if conversion = ascii 'd' then
    (vaWord args).map fun (value, rest) => ((signedText value.toInt32).take room, rest)
  else if conversion = ascii 'x' then
    (vaWord args).map fun (value, rest) => ((hexLoop 31 value).reverse.take room, rest)
  else
    .ok ([conversion].take room, args)

/-- The loop of `vsnprintf` with `room` bytes left before `end`. -/
def vsnprintfText (room : Nat) : List UInt8 → List Argument → Except FormatError (List UInt8)
  | [], _ => .ok []
  | byte :: format, args =>
      if room = 0 then
        .ok []
      else if byte ≠ ascii '%' then
        (vsnprintfText (room - 1) format args).map (byte :: ·)
      else
        match format with
        | [] => .error .pastFormat
        | conversion :: format =>
            (vsnprintfConversion conversion room args).bind fun (text, rest) =>
              (vsnprintfText (room - text.length) format rest).map (text ++ ·)

/-- `vsnprintf`. -/
def vsnprintf (size : UInt64) (format : CString) (args : List Argument) :
    Except FormatError Formatted :=
  if size = 0 then .ok ⟨[], 0⟩
  else (vsnprintfText (size.toNat - 1) format.bytes args).map Formatted.ofText

/-! ### Reading the format -/

theorem prepend_eq_ok_iff {result : Except FormatError (List UInt8)} {front text : List UInt8} :
    result.map (front ++ ·) = .ok text ↔ ∃ back, result = .ok back ∧ front ++ back = text := by
  cases result with
  | error error => simp [Except.map]
  | ok back => simp [Except.map]

theorem vaWord_error {args : List Argument} {error : FormatError}
    (fails : vaWord args = .error error) : error = .wrongArgument := by
  unfold vaWord at fails
  split at fails
  · cases fails
  · exact (Except.error.inj fails).symm

theorem vaString_error {args : List Argument} {error : FormatError}
    (fails : vaString args = .error error) : error = .wrongArgument := by
  unfold vaString at fails
  split at fails
  · cases fails
  · exact (Except.error.inj fails).symm

theorem map_eq_error {α β : Type} {result : Except FormatError α} {change : α → β}
    {error : FormatError} (fails : result.map change = .error error) : result = .error error := by
  cases result with
  | error other => exact congrArg Except.error (Except.error.inj fails)
  | ok value => cases fails

/-- A conversion fails only for want of its argument. -/
theorem vsprintfConversion_error {conversion : UInt8} {width : Nat} {args : List Argument}
    {error : FormatError} (fails : vsprintfConversion conversion width args = .error error) :
    error = .wrongArgument := by
  unfold vsprintfConversion at fails
  split_ifs at fails
  · exact vaWord_error (map_eq_error fails)
  · exact vaWord_error (map_eq_error fails)
  · exact vaWord_error (map_eq_error fails)
  · exact vaString_error (map_eq_error fails)
  · exact vaWord_error (map_eq_error fails)

theorem vsnprintfText_percent {room : Nat} (space : room ≠ 0) (args : List Argument) :
    vsnprintfText room [ascii '%'] args = .error .pastFormat := by
  rw [vsnprintfText.eq_def]
  dsimp only
  rw [if_neg space, if_neg (not_not.mpr rfl)]

theorem map_eq_ok {α β : Type} {result : Except FormatError α} {change : α → β} {value : β}
    (gives : result.map change = .ok value) : ∃ before, change before = value := by
  cases result with
  | error error => cases gives
  | ok before => exact ⟨before, Except.ok.inj gives⟩

/-- A conversion stores no more than there is room for. -/
theorem vsnprintfConversion_length {conversion : UInt8} {room : Nat} {args rest : List Argument}
    {text : List UInt8} (converted : vsnprintfConversion conversion room args = .ok (text, rest)) :
    text.length ≤ room := by
  have taken : ∀ whole : List UInt8, (whole.take room).length ≤ room := fun whole => by
    rw [List.length_take]
    exact Nat.min_le_left _ _
  unfold vsnprintfConversion at converted
  split_ifs at converted
  · obtain ⟨_, same⟩ := map_eq_ok converted
    exact (Prod.mk.inj same).1 ▸ taken _
  · obtain ⟨_, same⟩ := map_eq_ok converted
    exact (Prod.mk.inj same).1 ▸ taken _
  · obtain ⟨_, same⟩ := map_eq_ok converted
    exact (Prod.mk.inj same).1 ▸ taken _
  · exact (Prod.mk.inj (Except.ok.inj converted)).1 ▸ taken _

@[inherit_doc vsprintfConversion_error]
theorem vsnprintfConversion_error {conversion : UInt8} {room : Nat} {args : List Argument}
    {error : FormatError} (fails : vsnprintfConversion conversion room args = .error error) :
    error = .wrongArgument := by
  unfold vsnprintfConversion at fails
  split_ifs at fails
  · exact vaString_error (map_eq_error fails)
  · exact vaWord_error (map_eq_error fails)
  · exact vaWord_error (map_eq_error fails)

section Directives

variable {byte conversion : UInt8} {room : Nat}

theorem vsprintfText_literal (plain : byte ≠ ascii '%') (format : List UInt8)
    (args : List Argument) :
    vsprintfText (byte :: format) args = (vsprintfText format args).map (byte :: ·) := by
  rw [vsprintfText.eq_def]
  dsimp only
  rw [if_pos plain]

/-- A directive without a width. -/
theorem vsprintfText_directive (bare : ¬ (ascii '0' ≤ conversion ∧ conversion ≤ ascii '9'))
    (format : List UInt8) (args : List Argument) :
    vsprintfText (ascii '%' :: conversion :: format) args =
      (vsprintfConversion conversion 0 args).bind
        fun (text, rest) => (vsprintfText format rest).map (text ++ ·) := by
  rw [vsprintfText.eq_def]
  dsimp only
  rw [if_neg (not_not.mpr rfl), if_neg bare]

/-- A directive with a width digit. -/
theorem vsprintfText_width {digit : UInt8} (isDigit : ascii '0' ≤ digit ∧ digit ≤ ascii '9')
    (conversion : UInt8) (format : List UInt8) (args : List Argument) :
    vsprintfText (ascii '%' :: digit :: conversion :: format) args =
      (vsprintfConversion conversion (digit - ascii '0').toNat args).bind
        fun (text, rest) => (vsprintfText format rest).map (text ++ ·) := by
  rw [vsprintfText.eq_def]
  dsimp only
  rw [if_neg (not_not.mpr rfl), if_pos isDigit]

theorem vsprintfText_percent (args : List Argument) :
    vsprintfText [ascii '%'] args = .error .pastFormat := by
  rw [vsprintfText.eq_def]
  rfl

theorem vsprintfText_percent_digit {digit : UInt8}
    (isDigit : ascii '0' ≤ digit ∧ digit ≤ ascii '9') (args : List Argument) :
    vsprintfText [ascii '%', digit] args = .error .pastFormat := by
  rw [vsprintfText.eq_def]
  dsimp only
  rw [if_neg (not_not.mpr rfl), if_pos isDigit]

@[simp] theorem vsnprintfText_full (format : List UInt8) (args : List Argument) :
    vsnprintfText 0 format args = .ok [] := by
  rw [vsnprintfText.eq_def]
  cases format with
  | nil => rfl
  | cons byte format => rfl

theorem vsnprintfText_literal (space : room ≠ 0) (plain : byte ≠ ascii '%')
    (format : List UInt8) (args : List Argument) :
    vsnprintfText room (byte :: format) args =
      (vsnprintfText (room - 1) format args).map (byte :: ·) := by
  rw [vsnprintfText.eq_def]
  dsimp only
  rw [if_neg space, if_pos plain]

theorem vsnprintfText_directive (space : room ≠ 0) (conversion : UInt8) (format : List UInt8)
    (args : List Argument) :
    vsnprintfText room (ascii '%' :: conversion :: format) args =
      (vsnprintfConversion conversion room args).bind fun (text, rest) =>
        (vsnprintfText (room - text.length) format rest).map (text ++ ·) := by
  rw [vsnprintfText.eq_def]
  dsimp only
  rw [if_neg space, if_neg (not_not.mpr rfl)]

end Directives

/-! ### Digits -/

theorem numberLoop_eq (base : UInt64) (limit : Nat) (num : UInt64) :
    numberLoop base limit num =
      (digitLoop base.toNat limit num.toNat).map upperDigit := by
  induction limit generalizing num with
  | zero => rfl
  | succ limit inductionHypothesis =>
      have last : num / base = 0 ↔ num.toNat / base.toNat = 0 := by
        rw [← UInt64.toNat_inj, UInt64.toNat_div]
        rfl
      simp only [numberLoop, digitLoop, List.map_cons, UInt64.toNat_mod, last]
      by_cases done : num.toNat / base.toNat = 0
      · rw [if_pos done, if_pos done, List.map_nil]
      · rw [if_neg done, if_neg done, inductionHypothesis, UInt64.toNat_div]

/-- The text of `print_num`: the numeral, padded on the left. -/
theorem printNum_padded {base : UInt64} (large : 1 < base.toNat) (num : UInt64) (width : Nat)
    (padChar : UInt8) :
    printNum num base width padChar =
      List.replicate (width - (numeral base.toNat num.toNat).length) padChar ++
        (numeral base.toNat num.toNat).map upperDigit := by
  have fits : num.toNat < base.toNat ^ (63 + 1) :=
    Nat.lt_of_lt_of_le num.toNat_lt (Nat.pow_le_pow_left large 64)
  have digits : (numberLoop base 64 num).reverse =
      (numeral base.toNat num.toNat).map upperDigit := by
    rw [numberLoop_eq, ← List.map_reverse, digitLoop_reverse large fits]
  have count : (numberLoop base 64 num).length = (numeral base.toNat num.toNat).length := by
    rw [← List.length_reverse, digits, List.length_map]
  rw [printNum, List.reverse_append, List.reverse_replicate, digits, count]

theorem hexLoop_eq (limit : Nat) (num : UInt32) :
    hexLoop limit num = (digitLoop 16 limit num.toNat).map lowerDigit := by
  induction limit generalizing num with
  | zero => rfl
  | succ limit inductionHypothesis =>
      have digit : (num &&& 0xF).toNat = num.toNat % 16 := by
        rw [UInt32.toNat_and]
        exact Nat.and_two_pow_sub_one_eq_mod num.toNat 4
      have shifted : (num >>> 4).toNat = num.toNat / 16 := by
        rw [UInt32.toNat_shiftRight]
        exact Nat.shiftRight_eq_div_pow num.toNat 4
      have last : num >>> 4 = 0 ↔ num.toNat / 16 = 0 := by
        rw [← UInt32.toNat_inj, shifted]
        rfl
      simp only [hexLoop, digitLoop, List.map_cons, digit, last]
      by_cases done : num.toNat / 16 = 0
      · rw [if_pos done, if_pos done, List.map_nil]
      · rw [if_neg done, if_neg done, inductionHypothesis, shifted]

theorem decimal_digit : ∀ digit < 10,
    (48 + Int32.ofNat digit).toInt8.toUInt8 = upperDigit digit := by
  decide

/-- On a number that is not negative the loop of `%d` stores its digits. -/
theorem decimalLoop_eq (limit : Nat) (num : Int32) (nonnegative : 0 ≤ num.toInt) :
    decimalLoop limit num = (digitLoop 10 limit num.toInt.toNat).map upperDigit := by
  induction limit generalizing num with
  | zero => rfl
  | succ limit inductionHypothesis =>
      have quotient : (num / 10).toInt = num.toInt / 10 := by
        rw [Int32.toInt_div_of_ne_right _ _ (by decide)]
        exact Int.tdiv_eq_ediv_of_nonneg nonnegative
      have remainder : (num % 10).toInt = num.toInt % 10 := by
        rw [Int32.toInt_mod]
        exact Int.tmod_eq_emod_of_nonneg nonnegative
      have last : num / 10 = 0 ↔ num.toInt.toNat / 10 = 0 := by
        rw [← Int32.toInt_inj, quotient]
        change num.toInt / 10 = 0 ↔ _
        omega
      have character : (48 + num % 10).toInt8.toUInt8 = upperDigit (num.toInt.toNat % 10) := by
        have below : num.toInt.toNat % 10 < 10 := Nat.mod_lt _ (by omega)
        have value : num % 10 = Int32.ofNat (num.toInt.toNat % 10) := by
          rw [← Int32.toInt_inj, remainder, Int32.toInt_ofNat_of_lt (by omega)]
          omega
        rw [value]
        exact decimal_digit _ below
      simp only [decimalLoop, digitLoop, List.map_cons, character, last]
      by_cases done : num.toInt.toNat / 10 = 0
      · rw [if_pos done, if_pos done, List.map_nil]
      · rw [if_neg done, if_neg done, inductionHypothesis _ (by omega), quotient]
        congr 3
        omega

end NansOS.Kernel
