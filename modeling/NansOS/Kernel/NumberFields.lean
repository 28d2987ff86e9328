import NansOS.Foundation.Halting
import NansOS.Foundation.Scratch
import NansOS.Foundation.Stores
import NansOS.Kernel.Format

/-! Owns the three loops of `print_num` on the scratch buffer `tmp`, of 65 bytes,
and on the pointer `*str`: that they stop inside the buffer with the text of
`printNum` stored, and that this text is the numeral of the number, padded on the
left. -/

namespace NansOS.Kernel

open NansOS.Foundation

/-! ### The loops -/

/-- Which of its loops `print_num` is in. -/
inductive PrintPhase where
  | convert
  | pad
  | reverse
deriving DecidableEq

/-- The locals of `print_num`, `tmp` with its index `i`, and `*str` with the stores
made through it. -/
structure NumPrinter where
  phase : PrintPhase
  num : UInt64
  tmp : Scratch UInt8 65
  str : Nat
  stores : List Store

/-- How `print_num` ends: it returns, or it stores behind the end of `tmp`. -/
inductive PrintHalt where
  | finished (last : NumPrinter)
  | outside

namespace NumPrinter

/-- `print_num` before its loops, over whatever `tmp` holds. -/
def enter (num : UInt64) (cells : Vector UInt8 65) (str : Nat) : NumPrinter :=
  ⟨.convert, num, ⟨cells, 0, Nat.zero_le 65⟩, str, []⟩

/-- `tmp[i++] = byte`. -/
def push (printer : NumPrinter) (byte : UInt8) : Except PrintHalt NumPrinter :=
  if room : printer.tmp.used < 65 then .ok { printer with tmp := printer.tmp.push byte room }
  else .error .outside

/-- `*(*str)++ = byte`. -/
def put (printer : NumPrinter) (byte : UInt8) : NumPrinter :=
  { printer with
    str := printer.str + 1
    stores := printer.stores ++ [(printer.str, byte)] }

end NumPrinter

/-- One pass of the loop that `print_num` is in, or the step to its next loop. The
first loop tests `num` behind its body. -/
def printNumPass (base : UInt64) (width : Nat) (padChar : UInt8) (printer : NumPrinter) :
    Except PrintHalt NumPrinter :=
  match printer.phase with
  | .convert =>
      (printer.push (upperDigit (printer.num % base).toNat)).map fun pushed =>
        { pushed with
          num := printer.num / base
          phase := if printer.num / base = 0 then .pad else .convert }
  | .pad =>
      if printer.tmp.used < width then printer.push padChar
      else .ok { printer with phase := .reverse }
  | .reverse =>
      if some : 0 < printer.tmp.used then
        .ok ({ printer with tmp := printer.tmp.pop }.put (printer.tmp.top some))
      else .error (.finished printer)

/-- `print_num` returns, and has stored this text from `*str` on and moved `*str`
behind it. -/
def PrintNumStores (num base : UInt64) (width : Nat) (padChar : UInt8) (cells : Vector UInt8 65)
    (str : Nat) (text : List UInt8) : Prop :=
  ∃ last, StopsWith (printNumPass base width padChar) (.enter num cells str) (.finished last) ∧
    last.str = str + text.length ∧ last.stores = placed str text

/-! ### What each loop does -/

namespace NumPrinter

/-- The state of a printer, with `tmp` as the list of its bytes in use. -/
structure At (printer : NumPrinter) (phase : PrintPhase) (num : UInt64) (bytes : List UInt8)
    (str : Nat) (stores : List Store) : Prop where
  phase : printer.phase = phase
  num : printer.num = num
  bytes : printer.tmp.values = bytes
  str : printer.str = str
  stores : printer.stores = stores

end NumPrinter

section Passes

variable {printer : NumPrinter} {phase : PrintPhase} {num : UInt64} {bytes : List UInt8}
variable {str : Nat} {stores : List Store} (base : UInt64) (width : Nat) (padChar : UInt8)

theorem NumPrinter.At.used (here : printer.At phase num bytes str stores) :
    printer.tmp.used = bytes.length := by
  rw [← here.bytes, Scratch.values_length]

theorem NumPrinter.At.push (here : printer.At phase num bytes str stores)
    (room : bytes.length < 65) (byte : UInt8) :
    ∃ pushed, printer.push byte = .ok pushed ∧
      pushed.At phase num (bytes ++ [byte]) str stores := by
  have below : printer.tmp.used < 65 := here.used ▸ room
  have values : (printer.tmp.push byte below).values = bytes ++ [byte] := by
    rw [Scratch.values_push, here.bytes]
  exact ⟨_, dif_pos below, here.phase, here.num, values, here.str, here.stores⟩

/-- One digit is stored and taken off the number. -/
theorem convert_pass (here : printer.At .convert num bytes str stores)
    (room : bytes.length < 65) :
    ∃ next, printNumPass base width padChar printer = .ok next ∧
      next.At (if num / base = 0 then .pad else .convert) (num / base)
        (bytes ++ [upperDigit (num % base).toNat]) str stores := by
  obtain ⟨pushed, goesOn, after⟩ := here.push room (upperDigit (num % base).toNat)
  have pass : printNumPass base width padChar printer = .ok { pushed with
      num := num / base
      phase := if num / base = 0 then .pad else .convert } := by
    rw [printNumPass, here.phase, here.num]
    dsimp only
    rw [goesOn]
    rfl
  exact ⟨_, pass, rfl, rfl, after.bytes, after.str, after.stores⟩

/-- The last pass of the first loop. -/
theorem convert_last (here : printer.At .convert num bytes str stores)
    (room : bytes.length < 65) (last : num / base = 0) (limit : Nat) :
    ∃ later, Reaches (printNumPass base width padChar) printer later ∧
      later.At .pad 0 (bytes ++ numberLoop base (limit + 1) num) str stores := by
  obtain ⟨next, goesOn, after⟩ := convert_pass base width padChar here room
  rw [if_pos last, last] at after
  rw [numberLoop, if_pos last]
  exact ⟨next, (reaches_of_ok goesOn).mpr (.inr (.refl next)), after⟩

/-- The first loop stores the digits of the number. -/
theorem convert_reaches {limit : Nat}
    (here : printer.At .convert num bytes str stores)
    (fits : num.toNat < base.toNat ^ (limit + 1)) (room : bytes.length + (limit + 1) ≤ 65) :
    ∃ later, Reaches (printNumPass base width padChar) printer later ∧
      later.At .pad 0 (bytes ++ numberLoop base (limit + 1) num) str stores := by
  have quotient : (num / base).toNat = num.toNat / base.toNat := UInt64.toNat_div num base
  induction limit generalizing printer num bytes with
  | zero =>
      have last : num / base = 0 := by
        apply UInt64.toNat_inj.mp
        rw [quotient]
        exact Nat.div_eq_of_lt (by rwa [Nat.zero_add, Nat.pow_one] at fits)
      exact convert_last base width padChar here (by omega) last 0
  | succ limit inductionHypothesis =>
      by_cases last : num / base = 0
      · exact convert_last base width padChar here (by omega) last (limit + 1)
      · obtain ⟨next, goesOn, after⟩ :=
          convert_pass base width padChar here (by omega)
        rw [if_neg last] at after
        have smaller : (num / base).toNat < base.toNat ^ (limit + 1) := by
          rw [quotient]
          apply Nat.div_lt_of_lt_mul
          rwa [Nat.mul_comm, ← Nat.pow_succ]
        have shorter : (bytes ++ [upperDigit (num % base).toNat]).length + (limit + 1) ≤ 65 := by
          rw [List.length_append, List.length_singleton]
          omega
        obtain ⟨later, reached, converted⟩ :=
          inductionHypothesis after smaller shorter (UInt64.toNat_div _ _)
        refine ⟨later, (reaches_of_ok goesOn).mpr (.inr reached), ?_⟩
        rw [List.append_assoc, List.singleton_append] at converted
        rwa [numberLoop, if_neg last]

/-- The second loop fills the field. -/
theorem pad_reaches {count : Nat} (here : printer.At .pad num bytes str stores)
    (missing : width - bytes.length = count) (narrow : width ≤ 65) :
    ∃ later, Reaches (printNumPass base width padChar) printer later ∧
      later.At .reverse num (bytes ++ List.replicate count padChar) str stores := by
  induction count generalizing printer bytes with
  | zero =>
      have full : ¬ printer.tmp.used < width := by
        rw [here.used]
        omega
      have pass : printNumPass base width padChar printer =
          .ok { printer with phase := .reverse } := by
        rw [printNumPass, here.phase]
        exact if_neg full
      refine ⟨_, (reaches_of_ok pass).mpr (.inr (.refl _)), rfl, here.num, ?_, here.str,
        here.stores⟩
      rw [List.replicate_zero, List.append_nil]
      exact here.bytes
  | succ count inductionHypothesis =>
      have room : printer.tmp.used < width := by
        rw [here.used]
        omega
      obtain ⟨pushed, goesOn, after⟩ := here.push (by omega) padChar
      have pass : printNumPass base width padChar printer = .ok pushed := by
        rw [printNumPass, here.phase]
        exact (if_pos room).trans goesOn
      have fewer : width - (bytes ++ [padChar]).length = count := by
        rw [List.length_append, List.length_singleton]
        omega
      obtain ⟨later, reached, filled⟩ := inductionHypothesis after fewer
      refine ⟨later, (reaches_of_ok pass).mpr (.inr reached), ?_⟩
      rwa [List.append_assoc, List.singleton_append, ← List.replicate_succ] at filled

/-- The last loop stores what is in use from its end on. -/
theorem reverse_stops {text : List UInt8} (here : printer.At .reverse num text.reverse str stores) :
    ∃ last, StopsWith (printNumPass base width padChar) printer (.finished last) ∧
      last.str = str + text.length ∧ last.stores = stores ++ placed str text := by
  induction text generalizing printer str stores with
  | nil =>
      have empty : ¬ 0 < printer.tmp.used := by
        rw [here.used]
        exact Nat.lt_irrefl 0
      have pass : printNumPass base width padChar printer = .error (.finished printer) := by
        rw [printNumPass, here.phase]
        exact dif_neg empty
      refine ⟨printer, (stopsWith_of_error pass).mpr rfl, here.str, ?_⟩
      rw [placed_nil, List.append_nil]
      exact here.stores
  | cons byte rest inductionHypothesis =>
      have some : 0 < printer.tmp.used := by
        rw [here.used]
        simp
      have pass : printNumPass base width padChar printer =
          .ok ({ printer with tmp := printer.tmp.pop }.put (printer.tmp.top some)) := by
        rw [printNumPass, here.phase]
        exact dif_pos some
      have parts : printer.tmp.pop.values ++ [printer.tmp.top some] = rest.reverse ++ [byte] := by
        rw [Scratch.values_pop, here.bytes, List.reverse_cons]
      obtain ⟨values, top⟩ := List.append_inj' parts rfl
      have top : printer.tmp.top some = byte := List.singleton_inj.mp top
      have next : ({ printer with tmp := printer.tmp.pop }.put (printer.tmp.top some)).At
          .reverse num rest.reverse (str + 1) (stores ++ [(str, byte)]) := by
        refine ⟨here.phase, here.num, values, congrArg (· + 1) here.str, ?_⟩
        rw [top]
        change printer.stores ++ [(printer.str, byte)] = _
        rw [here.stores, here.str]
      obtain ⟨last, stops, behind, stored⟩ := inductionHypothesis next
      refine ⟨last, (stopsWith_of_ok pass).mpr stops, ?_, ?_⟩
      · rw [behind, List.length_cons]
        omega
      · rw [stored, List.append_assoc]
        rfl

/-- In a base above 1, with a field that the scratch buffer holds, `print_num` stops
with its text stored. -/
theorem printNum_stores (large : 1 < base.toNat) (narrow : width ≤ 65)
    (cells : Vector UInt8 65) (num : UInt64) (str : Nat) :
    PrintNumStores num base width padChar cells str (printNum num base width padChar) := by
  have fits : num.toNat < base.toNat ^ (63 + 1) :=
    Nat.lt_of_lt_of_le num.toNat_lt (Nat.pow_le_pow_left large 64)
  have start : (NumPrinter.enter num cells str).At .convert num [] str [] :=
    ⟨rfl, rfl, rfl, rfl, rfl⟩
  obtain ⟨converted, first, atPad⟩ :=
    convert_reaches base width padChar start fits (by decide)
  obtain ⟨padded, second, atReverse⟩ :=
    pad_reaches base width padChar atPad rfl narrow
  rw [List.nil_append] at atReverse
  have text : printNum num base width padChar = (numberLoop base 64 num ++
      List.replicate (width - (numberLoop base 64 num).length) padChar).reverse := rfl
  rw [← List.reverse_reverse (numberLoop base (63 + 1) num ++ _), ← text] at atReverse
  obtain ⟨last, stops, behind, stored⟩ := reverse_stops base width padChar atReverse
  exact ⟨last, first.stopsWith.mpr (second.stopsWith.mpr stops), behind, stored⟩

end Passes

/-! ### The field of a number -/

/-- A text is the numeral of a number in a base: it spells the number in digits of
the base, without leading zeros, and zero as one digit. -/
structure IsNumeral (base number : Nat) (text : List UInt8) : Prop where
  spells : ∃ values, text = values.map upperDigit ∧ (∀ value ∈ values, value < base) ∧
    readNumeral base values = number
  zero : number = 0 → text = [ascii '0']
  leading : number ≠ 0 → text.head? ≠ some (ascii '0')

/-- The numeral of a number, padded on the left to the width of the field and no
further. -/
def IsNumberField (base number width : Nat) (padChar : UInt8) (text : List UInt8) : Prop :=
  ∃ digits, IsNumeral base number digits ∧
    text = List.replicate (width - digits.length) padChar ++ digits ∧
    text.length = max width digits.length

theorem upperDigit_eq_zero : ∀ digit < 16, upperDigit digit = ascii '0' → digit = 0 := by
  decide

theorem isNumeral_numeral {base : Nat} (large : 1 < base) (small : base ≤ 16) (number : Nat) :
    IsNumeral base number ((numeral base number).map upperDigit) where
  spells := ⟨_, rfl, numeral_lt large, readNumeral_numeral base number⟩
  zero := by
    rintro rfl
    rfl
  leading := by
    intro positive starts
    rw [List.head?_map, Option.map_eq_some_iff] at starts
    obtain ⟨digit, head, shown⟩ := starts
    have below : digit < base := numeral_lt large digit (List.mem_of_mem_head? head)
    have zero : digit = 0 := upperDigit_eq_zero digit (by omega) shown
    exact numeral_head? positive (zero ▸ head)

/-- The text of `print_num` is the field of its number. -/
theorem printNum_isNumberField {base : UInt64} (large : 1 < base.toNat)
    (small : base.toNat ≤ 16) (num : UInt64) (width : Nat) (padChar : UInt8) :
    IsNumberField base.toNat num.toNat width padChar (printNum num base width padChar) := by
  have text := printNum_padded large num width padChar
  refine ⟨_, isNumeral_numeral large small num.toNat, ?_, ?_⟩
  · rw [List.length_map]
    exact text
  · rw [text, List.length_append, List.length_replicate, List.length_map]
    omega

end NansOS.Kernel
