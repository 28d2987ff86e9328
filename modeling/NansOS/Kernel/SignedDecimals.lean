import NansOS.Kernel.Directives

/-! Owns the decimal numerals of signed integers: their canonical text, reading
it back, and how far the two formatters get there. `vsprintf` passes an `int` to
`print_num` as a 64-bit unsigned number and so renders no negative number;
`vsnprintf` negates first, and fails for the one `int` that has no negation. -/

namespace NansOS.Kernel

open NansOS.Foundation

/-! ### Canonical decimals -/

/-- The character of a decimal digit. -/
def decimalChar (digit : Nat) : UInt8 := ascii '0' + UInt8.ofNat digit

/-- A decimal numeral without a sign. -/
def unsignedDecimal (number : Nat) : List UInt8 := (numeral 10 number).map decimalChar

/-- The canonical decimal: a minus for a negative number, and no leading zeros. -/
def canonicalDecimal (number : Int) : List UInt8 :=
  if number < 0 then ascii '-' :: unsignedDecimal number.natAbs
  else unsignedDecimal number.natAbs

/-- The character is a decimal digit. -/
def IsDecimalDigit (char : UInt8) : Prop := ascii '0' ≤ char ∧ char ≤ ascii '9'

instance (char : UInt8) : Decidable (IsDecimalDigit char) := inferInstanceAs (Decidable (_ ∧ _))

/-- The number that a text of digits spells. -/
def readUnsigned (text : List UInt8) : Option Nat :=
  if 0 < text.length ∧ text.all (fun char => decide (IsDecimalDigit char)) = true then
    some (readNumeral 10 (text.map fun char => (char - ascii '0').toNat))
  else none

/-- The number that a decimal spells, with a minus or without. -/
def readDecimal : List UInt8 → Option Int
  | [] => none
  | char :: rest =>
      if char = ascii '-' then (readUnsigned rest).map fun number : Nat => -(number : Int)
      else (readUnsigned (char :: rest)).map fun number : Nat => (number : Int)

theorem decimalChar_facts : ∀ digit < 10,
    IsDecimalDigit (decimalChar digit) ∧ (decimalChar digit - ascii '0').toNat = digit ∧
      decimalChar digit ≠ ascii '-' ∧ decimalChar digit ≠ ascii ' ' ∧
      upperDigit digit = decimalChar digit := by
  decide

theorem mem_unsignedDecimal {number : Nat} {char : UInt8} (member : char ∈ unsignedDecimal number) :
    ∃ digit < 10, char = decimalChar digit := by
  obtain ⟨digit, inside, rfl⟩ := List.mem_map.mp member
  exact ⟨digit, numeral_lt (by decide) digit inside, rfl⟩

theorem unsignedDecimal_ne_nil (number : Nat) : unsignedDecimal number ≠ [] := by
  rw [unsignedDecimal, Ne, List.map_eq_nil_iff]
  exact numeral_ne_nil 10 number

/-- Reading a numeral back. -/
theorem readUnsigned_unsignedDecimal (number : Nat) :
    readUnsigned (unsignedDecimal number) = some number := by
  have digits : (unsignedDecimal number).all (fun char => decide (IsDecimalDigit char)) = true := by
    rw [List.all_eq_true]
    intro char member
    obtain ⟨digit, below, rfl⟩ := mem_unsignedDecimal member
    exact decide_eq_true (decimalChar_facts digit below).1
  have values : (unsignedDecimal number).map (fun char => (char - ascii '0').toNat) =
      numeral 10 number := by
    rw [unsignedDecimal, List.map_map]
    refine (List.map_congr_left fun digit member => ?_).trans (List.map_id _)
    exact (decimalChar_facts digit (numeral_lt (by decide) digit member)).2.1
  rw [readUnsigned, if_pos ⟨List.length_pos_of_ne_nil (unsignedDecimal_ne_nil number), digits⟩,
    values, readNumeral_numeral]

/-- Reading a canonical decimal back. -/
theorem readDecimal_canonicalDecimal (number : Int) :
    readDecimal (canonicalDecimal number) = some number := by
  unfold canonicalDecimal
  split_ifs with negative
  · rw [readDecimal, if_pos rfl, readUnsigned_unsignedDecimal, Option.map_some]
    exact congrArg some (by omega)
  · cases text : unsignedDecimal number.natAbs with
    | nil => exact absurd text (unsignedDecimal_ne_nil _)
    | cons char rest =>
        obtain ⟨digit, below, rfl⟩ := mem_unsignedDecimal (text ▸ List.mem_cons_self)
        rw [readDecimal, if_neg (decimalChar_facts digit below).2.2.1, ← text,
          readUnsigned_unsignedDecimal, Option.map_some]
        exact congrArg some (by omega)

/-! ### `vsprintf` -/

/-- Blanks and the canonical decimal, in a field of the width at least, that read
back give the number. -/
structure IsSignedField (number : Int) (width : Nat) (text : List UInt8) : Prop where
  canonical : text.dropWhile (· = ascii ' ') = canonicalDecimal number
  wide : width ≤ text.length
  readBack : readDecimal (text.dropWhile (· = ascii ' ')) = some number

theorem map_upperDigit_numeral (number : Nat) :
    (numeral 10 number).map upperDigit = unsignedDecimal number := by
  refine List.map_congr_left fun digit member => ?_
  exact (decimalChar_facts digit (numeral_lt (by decide) digit member)).2.2.2.2

/-- A digit loop with a bound that the number fits in spells its numeral. -/
theorem digitLoop_decimal {limit number : Nat} (fits : number < 10 ^ (limit + 1)) :
    ((digitLoop 10 (limit + 1) number).map upperDigit).reverse = unsignedDecimal number := by
  rw [← List.map_reverse, digitLoop_reverse (by decide) fits, map_upperDigit_numeral]

theorem printNum_decimal (num : UInt64) (width : Nat) :
    printNum num 10 width (ascii ' ') =
      List.replicate (width - (unsignedDecimal num.toNat).length) (ascii ' ') ++
        unsignedDecimal num.toNat := by
  have large : 1 < (10 : UInt64).toNat := by decide
  have padded := printNum_padded large num width (ascii ' ')
  rw [← map_upperDigit_numeral, List.length_map]
  exact padded

theorem dropWhile_blanks (count number : Nat) :
    (List.replicate count (ascii ' ') ++ unsignedDecimal number).dropWhile (· = ascii ' ') =
      unsignedDecimal number := by
  induction count with
  | zero =>
      rw [List.replicate_zero, List.nil_append, List.dropWhile_eq_self_iff]
      intro nonempty blank
      obtain ⟨digit, below, same⟩ := mem_unsignedDecimal (List.getElem_mem nonempty)
      rw [same] at blank
      exact (decimalChar_facts digit below).2.2.2.1 (of_decide_eq_true blank)
  | succ count inductionHypothesis =>
      rw [List.replicate_succ, List.cons_append, List.dropWhile_cons, if_pos (by decide)]
      exact inductionHypothesis

/-- The field of `%d` holds the signed decimal exactly for the numbers that are
not negative. -/
theorem isSignedField_iff (number : Int32) (width : Nat) :
    IsSignedField number.toInt width
        (printNum number.toInt64.toUInt64 10 width (ascii ' ')) ↔ 0 ≤ number := by
  rw [printNum_decimal]
  constructor
  · intro field
    by_contra negative
    have below : number.toInt < 0 := Int32.lt_iff_toInt_lt.mp (Int32.not_le.mp negative)
    have text := field.canonical
    rw [dropWhile_blanks, canonicalDecimal, if_pos below] at text
    obtain ⟨digit, small, same⟩ := mem_unsignedDecimal (text ▸ List.mem_cons_self)
    exact (decimalChar_facts digit small).2.2.1 same.symm
  · intro nonnegative
    have positive : 0 ≤ number.toInt := Int32.le_iff_toInt_le.mp nonnegative
    have widened : number.toInt64.toUInt64.toNat = number.toInt.natAbs := by
      rw [Int64.toNat_toUInt64_of_le (Int64.le_iff_toInt_le.mpr (by simpa using positive))]
      exact (congrArg Int.toNat number.toInt_toInt64).trans (by omega)
    have canonical : unsignedDecimal number.toInt.natAbs = canonicalDecimal number.toInt := by
      rw [canonicalDecimal, if_neg (by omega)]
    rw [widened]
    refine ⟨?_, ?_, ?_⟩
    · rw [dropWhile_blanks, canonical]
    · rw [List.length_append, List.length_replicate]
      omega
    · rw [dropWhile_blanks, canonical, readDecimal_canonicalDecimal]

/-- The text that `vsprintf` emits for a directive and its argument, whatever
follows them. -/
def VsprintfEmits (piece : Piece) (text : List UInt8) : Prop :=
  ∀ format args, vsprintfText (piece.spelling ++ format) (piece.arguments ++ args) =
    (vsprintfText format args).map (text ++ ·)

theorem VsprintfEmits.unique {piece : Piece} {text other : List UInt8}
    (first : VsprintfEmits piece text) (second : VsprintfEmits piece other) : text = other := by
  have same := (first [] []).symm.trans (second [] [])
  simpa [vsprintfText, Except.map] using same

/-- A directive with at most one digit. -/
theorem vsprintfEmits_signed {digits : List (Fin 10)} (short : digits.length ≤ 1)
    {conversion : WordConversion} (signed : conversion = .d ∨ conversion = .i)
    (number : Int32) :
    VsprintfEmits (.word digits conversion number.toUInt32)
      (printNum number.toInt64.toUInt64 10 (Piece.width digits) (ascii ' ')) := by
  intro format args
  have converted : vsprintfConversion conversion.letter (Piece.width digits)
      (.word number.toUInt32 :: args) =
        .ok (printNum number.toInt64.toUInt64 10 (Piece.width digits) (ascii ' '), args) := by
    rcases signed with rfl | rfl <;> rfl
  cases digits with
  | nil =>
      change vsprintfText (ascii '%' :: conversion.letter :: format)
        (.word number.toUInt32 :: args) = _
      rw [vsprintfText_directive (letter_not_digit conversion)]
      exact congrArg (Except.bind · _) converted
  | cons digit more =>
      obtain rfl : more = [] := List.eq_nil_of_length_eq_zero (by
        rw [List.length_cons] at short
        omega)
      change vsprintfText (ascii '%' :: Piece.digitChar digit :: conversion.letter :: format)
        (.word number.toUInt32 :: args) = _
      rw [vsprintfText_width (digitChar_isDigit digit), digitChar_value]
      exact congrArg (Except.bind · _) converted

/-- For every width of at most one digit, `%d` and `%i` emit the signed decimal
exactly of the numbers that are not negative. -/
theorem vsprintf_signed_iff {digits : List (Fin 10)} (short : digits.length ≤ 1)
    {conversion : WordConversion} (signed : conversion = .d ∨ conversion = .i)
    (number : Int32) :
    ∃ text, VsprintfEmits (.word digits conversion number.toUInt32) text ∧
      (IsSignedField number.toInt (Piece.width digits) text ↔ 0 ≤ number) :=
  ⟨_, vsprintfEmits_signed short signed number, isSignedField_iff number _⟩

theorem vsprintf_signed_iff_width :
    ∃ text, VsprintfEmits (.word [5] .d (Int32.ofNat 42).toUInt32) text ∧
      (IsSignedField (Int32.ofNat 42).toInt (Piece.width [5]) text ↔ 0 ≤ Int32.ofNat 42) :=
  vsprintf_signed_iff (by decide) (.inl rfl) (Int32.ofNat 42)

/-- `%d` of -1 is `18446744073709551615`. -/
theorem minus_one_is_not_signed :
    ¬ ∀ (digits : List (Fin 10)) (conversion : WordConversion) (number : Int32),
      digits.length ≤ 1 → (conversion = .d ∨ conversion = .i) →
      ∃ text, VsprintfEmits (.word digits conversion number.toUInt32) text ∧
        IsSignedField number.toInt (Piece.width digits) text := by
  intro always
  obtain ⟨text, emits, field⟩ := always [] .d (-1) (by decide) (.inl rfl)
  rw [emits.unique (vsprintfEmits_signed (by decide) (.inl rfl) (-1)), isSignedField_iff] at field
  exact absurd field (by decide)

/-! ### `vsnprintf` -/

/-- The canonical decimal, a minus at most and digits, that read back gives the
number. -/
structure IsSignedDecimal (number : Int) (text : List UInt8) : Prop where
  canonical : text = canonicalDecimal number
  characters : ∃ sign digits, text = sign ++ digits ∧ (sign = [] ∨ sign = [ascii '-']) ∧
    ∀ char ∈ digits, IsDecimalDigit char
  readBack : readDecimal text = some number

theorem isSignedDecimal_canonicalDecimal (number : Int) :
    IsSignedDecimal number (canonicalDecimal number) := by
  have digits : ∀ char ∈ unsignedDecimal number.natAbs, IsDecimalDigit char := by
    intro char member
    obtain ⟨digit, below, rfl⟩ := mem_unsignedDecimal member
    exact (decimalChar_facts digit below).1
  refine ⟨rfl, ?_, readDecimal_canonicalDecimal number⟩
  unfold canonicalDecimal
  split_ifs with negative
  · exact ⟨[ascii '-'], _, rfl, .inr rfl, digits⟩
  · exact ⟨[], _, rfl, .inl rfl, digits⟩

/-- The loop of `%d` on a number that is not negative. -/
theorem decimalLoop_decimal {number : Int32} (nonnegative : 0 ≤ number.toInt) :
    (decimalLoop 31 number).reverse = unsignedDecimal number.toInt.natAbs := by
  have bound := number.toInt_lt
  have same : number.toInt.toNat = number.toInt.natAbs := by omega
  rw [decimalLoop_eq _ _ nonnegative, same]
  exact digitLoop_decimal (by omega)

/-- Negation goes wrong for the least number only. -/
theorem signedText_iff (number : Int32) :
    IsSignedDecimal number.toInt (signedText number) ↔ number ≠ Int32.minValue := by
  constructor
  · rintro decimal rfl
    -- The remainders are negative, and the first digit stored is 40, a bracket.
    have bracket : (40 : UInt8) ∈ signedText Int32.minValue := by decide
    obtain ⟨sign, digits, text, signs, allDigits⟩ := decimal.characters
    rw [text] at bracket
    rcases List.mem_append.mp bracket with inSign | inDigits
    · rcases signs with rfl | rfl
      · cases inSign
      · exact absurd (List.mem_singleton.mp inSign) (by decide)
    · exact absurd (allDigits 40 inDigits) (by decide)
  · intro hasNegation
    have text : signedText number = canonicalDecimal number.toInt := by
      unfold signedText canonicalDecimal
      by_cases negative : number < 0
      · have below : number.toInt < 0 := Int32.lt_iff_toInt_lt.mp negative
        have least : number.toInt ≠ -2 ^ 31 := fun same =>
          hasNegation (Int32.toInt_inj.mp (same.trans Int32.toInt_minValue.symm))
        have bound := number.le_toInt
        have negated : (-number).toInt = -number.toInt := by
          rw [Int32.toInt_neg, Int.bmod_def]
          omega
        rw [if_pos negative, if_pos below, decimalLoop_decimal (by omega), negated,
          Int.natAbs_neg]
      · have positive : 0 ≤ number.toInt := Int32.le_iff_toInt_le.mp (Int32.not_lt.mp negative)
        rw [if_neg negative, if_neg (by omega), decimalLoop_decimal positive]
    rw [text]
    exact isSignedDecimal_canonicalDecimal number.toInt

/-- The text that `vsnprintf` emits for `%d` and its argument in a buffer with
room for it, whatever follows. -/
def VsnprintfEmits (number : Int32) (text : List UInt8) : Prop :=
  ∀ room format args, text.length ≤ room →
    vsnprintfText room (ascii '%' :: ascii 'd' :: format) (.word number.toUInt32 :: args) =
      (vsnprintfText (room - text.length) format args).map (text ++ ·)

theorem vsnprintfEmits_signedText (number : Int32) : VsnprintfEmits number (signedText number) := by
  intro room format args fits
  have nonempty : 0 < (signedText number).length := by
    unfold signedText
    split_ifs
    · exact Nat.succ_pos _
    · simp [decimalLoop]
  have converted : vsnprintfConversion (ascii 'd') room (.word number.toUInt32 :: args) =
      .ok (signedText number, args) := by
    have whole : (signedText number).take room = signedText number :=
      List.take_of_length_le fits
    change Except.ok ((signedText number).take room, args) = _
    rw [whole]
  rw [vsnprintfText_directive (by omega), converted]
  rfl

theorem VsnprintfEmits.unique {number : Int32} {text other : List UInt8}
    (first : VsnprintfEmits number text) (second : VsnprintfEmits number other) :
    text = other := by
  have left := first (text.length + other.length) [] [] (by omega)
  have right := second (text.length + other.length) [] [] (by omega)
  have same := left.symm.trans right
  simpa [vsnprintfText, Except.map] using same

/-- In every buffer with room for it, `%d` emits the signed decimal exactly of the
numbers that have a negation. -/
theorem vsnprintf_signed_iff (number : Int32) :
    ∃ text, VsnprintfEmits number text ∧
      (IsSignedDecimal number.toInt text ↔ number ≠ Int32.minValue) :=
  ⟨signedText number, vsnprintfEmits_signedText number, signedText_iff number⟩

/-- `%d` of -2147483648 has characters below `0`. -/
theorem least_number_is_not_signed :
    ¬ ∀ number : Int32, ∃ text, VsnprintfEmits number text ∧
      IsSignedDecimal number.toInt text := by
  intro always
  obtain ⟨text, emits, decimal⟩ := always Int32.minValue
  rw [emits.unique (vsnprintfEmits_signedText _), signedText_iff] at decimal
  exact decimal rfl

end NansOS.Kernel
