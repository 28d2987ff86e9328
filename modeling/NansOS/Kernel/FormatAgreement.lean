import NansOS.Kernel.Format

/-! Owns the comparison of the two formatters on formats without widths. They
are meant to be interchangeable and are not: `vsprintf` widens a negative `int`
to 64 bits without a sign and writes hexadecimal letters in upper case, while
`vsnprintf` knows neither `%c` nor `%u`, stores the letter instead and leaves the
argument for the next conversion. The outputs are compared item by item, an item
being a literal character or a conversion with the argument meant for it. -/

namespace NansOS.Kernel

open NansOS.Foundation

/-! ### Formats and their arguments -/

/-- A literal character, or a conversion with its argument. -/
inductive Item where
  | literal (byte : UInt8) (plain : byte ≠ 0 ∧ byte ≠ ascii '%')
  | string (value : CString)
  | char (value : UInt32)
  | signed (value : Int32)
  | unsigned (value : UInt32)
  | hex (value : UInt32)
  | percent

namespace Item

/-- How an item is written in the format. -/
def spelling : Item → List UInt8
  | literal byte _ => [byte]
  | string _ => [ascii '%', ascii 's']
  | char _ => [ascii '%', ascii 'c']
  | signed _ => [ascii '%', ascii 'd']
  | unsigned _ => [ascii '%', ascii 'u']
  | hex _ => [ascii '%', ascii 'x']
  | percent => [ascii '%', ascii '%']

/-- The argument a conversion takes, if it takes one. -/
def arguments : Item → List Argument
  | literal .. => []
  | string value => [.string value]
  | char value => [.word value]
  | signed value => [.word value.toUInt32]
  | unsigned value => [.word value]
  | hex value => [.word value]
  | percent => []

/-- The two formatters render the item alike. -/
def Alike : Item → Prop
  | char value => value.toUInt8 = ascii 'c'
  | signed value => 0 ≤ value
  | unsigned _ => False
  | hex value => ∀ digit ∈ Nat.digits 16 value.toNat, digit < 10
  | _ => True

/-- `vsnprintf` takes an argument for the item. -/
def Reads : Item → Prop
  | string _ | signed _ | hex _ => True
  | _ => False

/-- The item is a `%c`. -/
def IsChar : Item → Prop
  | char _ => True
  | _ => False

instance : DecidablePred Alike
  | literal .. => inferInstanceAs (Decidable True)
  | string _ => inferInstanceAs (Decidable True)
  | char value => inferInstanceAs (Decidable (value.toUInt8 = ascii 'c'))
  | signed value => inferInstanceAs (Decidable (0 ≤ value))
  | unsigned _ => inferInstanceAs (Decidable False)
  | hex value => List.decidableBAll _ (Nat.digits 16 value.toNat)
  | percent => inferInstanceAs (Decidable True)

instance : DecidablePred IsChar
  | literal .. => inferInstanceAs (Decidable False)
  | string _ => inferInstanceAs (Decidable False)
  | char _ => inferInstanceAs (Decidable True)
  | signed _ => inferInstanceAs (Decidable False)
  | unsigned _ => inferInstanceAs (Decidable False)
  | hex _ => inferInstanceAs (Decidable False)
  | percent => inferInstanceAs (Decidable False)

instance : DecidablePred Reads
  | literal .. => inferInstanceAs (Decidable False)
  | string _ => inferInstanceAs (Decidable True)
  | char _ => inferInstanceAs (Decidable False)
  | signed _ => inferInstanceAs (Decidable True)
  | unsigned _ => inferInstanceAs (Decidable False)
  | hex _ => inferInstanceAs (Decidable True)
  | percent => inferInstanceAs (Decidable False)

theorem spelling_terminated (item : Item) : 0 ∉ item.spelling := by
  cases item with
  | literal byte plain => simpa [spelling] using Ne.symm plain.1
  | _ =>
      dsimp only [spelling]
      decide

end Item

/-- The format string made of the items. -/
def formatOf (items : List Item) : CString where
  bytes := items.flatMap Item.spelling
  terminated := by
    simp only [List.mem_flatMap, not_exists, not_and]
    exact fun item _ => item.spelling_terminated

/-- The arguments that match the format. -/
def argumentsOf (items : List Item) : List Argument := items.flatMap Item.arguments

/-- Some conversion of `vsnprintf` comes after a `%c`, whose argument is still
waiting. -/
def ReadsLate : List Item → Prop
  | [] => False
  | item :: rest => (item.IsChar ∧ ∃ later ∈ rest, later.Reads) ∨ ReadsLate rest

instance readsLateDecidable : DecidablePred ReadsLate
  | [] => inferInstanceAs (Decidable False)
  | item :: rest =>
      have := readsLateDecidable rest
      have : Decidable (∃ later ∈ rest, later.Reads) := List.decidableBEx _ rest
      inferInstanceAs (Decidable ((item.IsChar ∧ ∃ later ∈ rest, later.Reads) ∨ ReadsLate rest))

/-- The size exceeds the length of the text `vsprintf` produces. -/
def Fits (items : List Item) (size : UInt64) : Prop :=
  ∃ formatted, vsprintf (formatOf items) (argumentsOf items) = .ok formatted ∧
    formatted.stored.length ≤ size.toNat

/-- Both formatters store the same bytes and return the same number. -/
def SameOutput (items : List Item) (size : UInt64) : Prop :=
  vsnprintf size (formatOf items) (argumentsOf items) =
    vsprintf (formatOf items) (argumentsOf items)

instance (items : List Item) (size : UInt64) : Decidable (SameOutput items size) :=
  inferInstanceAs (Decidable (_ = _))

/-! ### Texts of one item -/

namespace Item

/-- What `vsprintf` stores for the item. -/
def text : Item → List UInt8
  | literal byte _ => [byte]
  | string value => value.bytes
  | char value => [value.toUInt8]
  | signed value => printNum value.toInt64.toUInt64 10 0 (ascii ' ')
  | unsigned value => printNum value.toUInt64 10 0 (ascii ' ')
  | hex value => printNum value.toUInt64 16 0 (ascii '0')
  | percent => [ascii '%']

/-- What `vsnprintf` stores for the item when it takes the argument meant for
it and there is room. -/
def boundedText : Item → List UInt8
  | literal byte _ => [byte]
  | string value => value.bytes
  | char _ => [ascii 'c']
  | signed value => signedText value
  | unsigned _ => [ascii 'u']
  | hex value => (hexLoop 31 value).reverse
  | percent => [ascii '%']

/-- The arguments `vsnprintf` takes for the item. -/
def taken : Item → List Argument
  | char _ => []
  | unsigned _ => []
  | item => item.arguments

/-- One item of `vsprintf`. -/
theorem vsprintfText_spelling (item : Item) (format : List UInt8) (args : List Argument) :
    vsprintfText (item.spelling ++ format) (item.arguments ++ args) =
      (vsprintfText format args).map (item.text ++ ·) := by
  cases item with
  | literal byte plain => exact vsprintfText_literal plain.2 format args
  | _ => exact vsprintfText_directive (by decide) format _

/-- One item of `vsnprintf`. -/
theorem vsnprintfText_spelling (item : Item) {room : Nat} (space : room ≠ 0)
    (format : List UInt8) (args : List Argument) :
    vsnprintfText room (item.spelling ++ format) (item.taken ++ args) =
      (vsnprintfText (room - (item.boundedText.take room).length) format args).map
        (item.boundedText.take room ++ ·) := by
  cases item with
  | literal byte plain =>
      have whole : [byte].take room = [byte] := List.take_of_length_le (by simp; omega)
      simp only [boundedText, whole]
      exact vsnprintfText_literal space plain.2 format args
  | _ => exact vsnprintfText_directive space _ format _

/-! ### Where the texts part -/

theorem printNum_zero_width (num base : UInt64) (padChar : UInt8) :
    printNum num base 0 padChar = ((digitLoop base.toNat 64 num.toNat).map upperDigit).reverse := by
  simp [printNum, numberLoop_eq]

/-- A decimal numeral begins with a decimal digit. -/
theorem decimal_head (num : UInt64) (padChar : UInt8) :
    ∃ digit < 10, ∃ rest, printNum num 10 0 padChar = upperDigit digit :: rest := by
  rw [printNum_zero_width]
  cases shape : ((digitLoop 10 64 num.toNat).map upperDigit).reverse with
  | nil => simp [digitLoop] at shape
  | cons head rest =>
      have member : head ∈ ((digitLoop 10 64 num.toNat).map upperDigit).reverse := by
        rw [shape]
        exact List.mem_cons_self
      obtain ⟨digit, found, rfl⟩ := List.mem_map.mp (List.mem_reverse.mp member)
      exact ⟨digit, digitLoop_lt (by decide) digit found, rest, shape⟩

theorem decimal_ne_letter : ∀ digit < 10,
    upperDigit digit ≠ ascii '-' ∧ upperDigit digit ≠ ascii 'u' := by
  decide

theorem upper_eq_lower_iff : ∀ digit < 16, (upperDigit digit = lowerDigit digit ↔ digit < 10) := by
  decide

/-- Both loops for `%x` find the same digits. -/
theorem hex_texts (value : UInt32) :
    (hex value).boundedText = ((digitLoop 16 31 value.toNat).map lowerDigit).reverse ∧
      (hex value).text = ((digitLoop 16 31 value.toNat).map upperDigit).reverse := by
  have bound := value.toNat_lt
  have limits : digitLoop 16 64 value.toNat = digitLoop 16 31 value.toNat :=
    digitLoop_limit (by decide) (by omega) (by omega)
  constructor
  · rw [boundedText, hexLoop_eq]
  · rw [text, printNum_zero_width, UInt32.toNat_toUInt64, ← limits]
    rfl

/-- The two hexadecimal numerals are the same exactly without letters. -/
theorem hex_text_eq_iff (value : UInt32) :
    (hex value).boundedText = (hex value).text ↔ (hex value).Alike := by
  have digits : (∀ digit ∈ digitLoop 16 31 value.toNat, digit < 10) ↔ (hex value).Alike := by
    rcases Nat.eq_zero_or_pos value.toNat with zero | positive
    · simp [Alike, zero, digitLoop]
    · have bound := value.toNat_lt
      rw [digitLoop_eq_digits (by decide) positive (by omega)]
      rfl
  rw [(hex_texts value).1, (hex_texts value).2, List.reverse_inj, List.map_inj_left, ← digits]
  apply forall₂_congr
  intro digit member
  rw [eq_comm]
  exact upper_eq_lower_iff digit (digitLoop_lt (by decide) digit member)

theorem hex_text_length (value : UInt32) :
    (hex value).boundedText.length = (hex value).text.length := by
  rw [(hex_texts value).1, (hex_texts value).2]
  simp

theorem signed_text_eq {value : Int32} (nonnegative : 0 ≤ value) :
    (signed value).boundedText = (signed value).text := by
  have positive : 0 ≤ value.toInt := Int32.le_iff_toInt_le.mp nonnegative
  have bound := value.toInt_lt
  have widened : value.toInt64.toUInt64.toNat = value.toInt.toNat := by
    rw [Int64.toNat_toUInt64_of_le (Int64.le_iff_toInt_le.mpr (by simpa using positive))]
    exact congrArg Int.toNat value.toInt_toInt64
  have limits : digitLoop 10 31 value.toInt.toNat = digitLoop 10 64 value.toInt.toNat :=
    digitLoop_limit (by decide) (by omega) (by omega)
  rw [boundedText, signedText, if_neg (Int32.not_lt.mpr nonnegative), decimalLoop_eq _ _ positive,
    text, printNum_zero_width, widened, limits]
  rfl

/-- An item rendered alike is stored alike. -/
theorem boundedText_of_alike {item : Item} (alike : item.Alike) : item.boundedText = item.text := by
  cases item with
  | char value => exact congrArg (fun byte => [byte]) (Eq.symm alike)
  | signed value => exact signed_text_eq alike
  | unsigned value => exact alike.elim
  | hex value => exact (hex_text_eq_iff value).mpr alike
  | _ => rfl

/-- An item that is not rendered alike makes the outputs differ at once. -/
theorem texts_part {item : Item} (different : ¬ item.Alike) {room : Nat} (space : room ≠ 0)
    (fits : item.text.length ≤ room) (bounded plain : List UInt8) :
    item.boundedText.take room ++ bounded ≠ item.text ++ plain := by
  obtain ⟨room, rfl⟩ := Nat.exists_eq_succ_of_ne_zero space
  intro same
  cases item with
  | char value =>
      have heads : ascii 'c' = value.toUInt8 := (List.cons.inj same).1
      exact different heads.symm
  | signed value =>
      have negative : value < 0 := Int32.not_le.mp different
      obtain ⟨digit, below, rest, numeral⟩ := decimal_head value.toInt64.toUInt64 (ascii ' ')
      simp only [boundedText, text, signedText, if_pos negative, numeral] at same
      have heads : ascii '-' = upperDigit digit := (List.cons.inj same).1
      exact (decimal_ne_letter digit below).1 heads.symm
  | unsigned value =>
      obtain ⟨digit, below, rest, numeral⟩ := decimal_head value.toUInt64 (ascii ' ')
      simp only [boundedText, text, numeral] at same
      have heads : ascii 'u' = upperDigit digit := (List.cons.inj same).1
      exact (decimal_ne_letter digit below).2 heads.symm
  | hex value =>
      have length := hex_text_length value
      rw [List.take_of_length_le (by omega)] at same
      exact different ((hex_text_eq_iff value).mp (List.append_inj same length).1)
  | _ => exact different trivial

theorem alike_of_text_nil {item : Item} (empty : item.text = []) : item.Alike := by
  cases item with
  | char value => cases empty
  | signed value =>
      obtain ⟨digit, -, rest, numeral⟩ := decimal_head value.toInt64.toUInt64 (ascii ' ')
      exact absurd (numeral.symm.trans empty) nofun
  | unsigned value =>
      obtain ⟨digit, -, rest, numeral⟩ := decimal_head value.toUInt64 (ascii ' ')
      exact absurd (numeral.symm.trans empty) nofun
  | hex value =>
      rw [(hex_texts value).2] at empty
      simp [digitLoop] at empty
  | _ => trivial

end Item

/-! ### Whole formats -/

/-- The arguments at hand are those meant for the items, or `vsnprintf` takes
none of them. -/
def Supplied (args : List Argument) (items : List Item) : Prop :=
  args = argumentsOf items ∨ ∀ item ∈ items, ¬ item.Reads

theorem vsprintfText_items (items : List Item) :
    vsprintfText (formatOf items).bytes (argumentsOf items) = .ok (items.flatMap Item.text) := by
  induction items with
  | nil => rfl
  | cons item rest inductionHypothesis =>
      have once := item.vsprintfText_spelling (formatOf rest).bytes (argumentsOf rest)
      rw [inductionHypothesis] at once
      exact once

/-- Unless a conversion reads late, the arguments stay with their items. -/
theorem Supplied.cons {args : List Argument} {item : Item} {rest : List Item}
    (supplied : Supplied args (item :: rest)) (timely : ¬ ReadsLate (item :: rest)) :
    ∃ left, args = item.taken ++ left ∧ (item.Alike → Supplied left rest) := by
  have silent : item.IsChar → ∀ later ∈ rest, ¬ later.Reads := fun isChar later member reads =>
    timely (Or.inl ⟨isChar, later, member, reads⟩)
  cases supplied with
  | inl matched =>
      cases item with
      | char value => exact ⟨args, rfl, fun _ => Or.inr (silent trivial)⟩
      | unsigned value => exact ⟨args, rfl, fun alike => alike.elim⟩
      | _ => exact ⟨argumentsOf rest, matched, fun _ => Or.inl rfl⟩
  | inr none =>
      have later : ∀ item ∈ rest, ¬ item.Reads := fun item member =>
        none item (List.mem_cons_of_mem _ member)
      have quiet := none item List.mem_cons_self
      cases item with
      | string value => exact absurd trivial quiet
      | signed value => exact absurd trivial quiet
      | hex value => exact absurd trivial quiet
      | _ => exact ⟨args, rfl, fun _ => Or.inr later⟩

theorem ofText_eq_ok_iff {result : Except FormatError (List UInt8)} {text : List UInt8} :
    result.map Formatted.ofText = .ok (Formatted.ofText text) ↔ result = .ok text := by
  cases result with
  | error error => simp [Except.map]
  | ok stored =>
      simp only [Except.map, Formatted.ofText, Except.ok.injEq, Formatted.mk.injEq,
        List.append_cancel_right_eq]
      exact ⟨And.left, fun same => ⟨same, by rw [same]⟩⟩

/-- With enough room and no conversion reading late, `vsnprintf` stores the text
of `vsprintf` exactly when every item is rendered alike. -/
theorem vsnprintfText_eq_iff (items : List Item) {args : List Argument} {room : Nat}
    (supplied : Supplied args items) (timely : ¬ ReadsLate items)
    (fits : (items.flatMap Item.text).length ≤ room) :
    vsnprintfText room (formatOf items).bytes args = .ok (items.flatMap Item.text) ↔
      ∀ item ∈ items, item.Alike := by
  induction items generalizing args room with
  | nil => exact iff_of_true rfl nofun
  | cons item rest inductionHypothesis =>
      by_cases full : room = 0
      · -- The text is empty, and only empty strings have no text.
        subst full
        have empty := List.length_eq_zero_iff.mp (Nat.le_zero.mp fits)
        rw [vsnprintfText_full, empty]
        exact iff_of_true rfl fun item member =>
          Item.alike_of_text_nil (List.flatMap_eq_nil_iff.mp empty item member)
      · obtain ⟨left, rfl, later⟩ := supplied.cons timely
        have format : (formatOf (item :: rest)).bytes = item.spelling ++ (formatOf rest).bytes :=
          List.flatMap_cons
        rw [List.flatMap_cons, List.length_append] at fits
        rw [List.forall_mem_cons, List.flatMap_cons, format,
          item.vsnprintfText_spelling full, prepend_eq_ok_iff]
        by_cases alike : item.Alike
        · have whole : item.boundedText.take room = item.text := by
            rw [Item.boundedText_of_alike alike]
            exact List.take_of_length_le (by omega)
          have enough : (rest.flatMap Item.text).length ≤ room - item.text.length := by omega
          have onward := inductionHypothesis (later alike) (fun late => timely (Or.inr late))
            enough
          simp only [whole, List.append_cancel_left_eq, exists_eq_right, onward, alike, true_and]
        · apply iff_of_false
          · intro holds
            obtain ⟨back, -, same⟩ := holds
            exact Item.texts_part alike full (by omega) back _ same
          · exact fun both => alike both.1

-- A conversion that reads late can still print the same text by accident.
example : SameOutput [.char 99, .signed 9, .signed 99] 8 := by decide

end NansOS.Kernel
