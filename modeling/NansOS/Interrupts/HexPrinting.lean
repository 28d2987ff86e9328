import NansOS.Foundation.Words
import NansOS.Kernel.NumberFields
import NansOS.Print.Console

/-! Owns `print_hex` of `isr.c`: its loop over the buffer `hex_str` from the last
digit to the first, and the string it prints. Its digits have a fixed width, those
of `print_num` a padded one, and for a field of 16 the texts are the same. -/

namespace NansOS.Interrupts

open NansOS.Foundation
open NansOS.Kernel
open NansOS.Print

/-! ### `print_hex` -/

/-- `digit < 10 ? '0' + digit : 'A' + (digit - 10)`. -/
def hexCharacter (digit : Nat) : UInt8 :=
  if digit < 10 then ascii '0' + UInt8.ofNat digit else ascii 'A' + UInt8.ofNat (digit - 10)

/-- The loop of `print_hex`, with the indices below `count` left to store, the
highest first. -/
def hexStrLoop : Nat → UInt64 → Memory → Memory
  | 0, _, hexStr => hexStr
  | i + 1, num, hexStr =>
      hexStrLoop i (num >>> 4) (Function.update hexStr i (hexCharacter (num &&& 0xF).toNat))

/-- `hex_str` with its terminator, over whatever it held. -/
def hexStr (before : Memory) (num : UInt64) : Memory :=
  Function.update (hexStrLoop 16 num before) 16 0

/-- The string `0x`. -/
def hexMarker : CString := ⟨[ascii '0', ascii 'x'], by decide⟩

/-- `print_hex`. -/
def printHex (console : Console) (before : Memory) (num : UInt64) : Option Console :=
  (stringAt (hexStr before num) 0).map (console.printStr hexMarker).printStr

/-! ### Its digits -/

theorem hexCharacter_eq : ∀ digit < 16, hexCharacter digit = upperDigit digit := by
  decide

theorem hexCharacter_ne_zero : ∀ digit < 16, hexCharacter digit ≠ 0 := by
  decide

/-- The loop stores below `count` and nowhere else. -/
theorem hexStrLoop_apply {count target : Nat} (above : count ≤ target) (num : UInt64)
    (before : Memory) : hexStrLoop count num before target = before target := by
  induction count generalizing num before with
  | zero => rfl
  | succ i inductionHypothesis =>
      rw [hexStrLoop, inductionHypothesis (by omega), Function.update_of_ne (by omega)]

/-- The digits of the number stand below `count`, the lowest last. -/
theorem hexStrLoop_bytes (count : Nat) (num : UInt64) (before : Memory) :
    (hexStrLoop count num before).bytes 0 count =
      (lowDigits 16 count num.toNat).reverse.map hexCharacter := by
  induction count generalizing num before with
  | zero => rfl
  | succ i inductionHypothesis =>
      have digit : (num &&& 0xF).toNat = num.toNat % 16 := Words.and_mask_toNat 4 rfl
      have shifted : (num >>> 4).toNat = num.toNat / 16 := Words.shift_toNat (by decide)
      rw [hexStrLoop, Memory.bytes_succ, Nat.zero_add, inductionHypothesis,
        hexStrLoop_apply le_rfl, Function.update_self, shifted, digit, lowDigits,
        List.reverse_cons, List.map_append]
      rfl

/-- The sixteen digits of a number. -/
def hexDigits (num : UInt64) : CString where
  bytes := (lowDigits 16 16 num.toNat).reverse.map hexCharacter
  terminated := by
    intro member
    obtain ⟨digit, inside, zero⟩ := List.mem_map.mp member
    have below : digit < 16 := lowDigits_lt (by decide) digit (List.mem_reverse.mp inside)
    exact hexCharacter_ne_zero digit below zero

theorem hexDigits_bytes (num : UInt64) :
    (hexDigits num).bytes = (lowDigits 16 16 num.toNat).reverse.map hexCharacter := rfl

theorem hexDigits_length (num : UInt64) : (hexDigits num).bytes.length = 16 := by
  rw [hexDigits_bytes, List.length_map, List.length_reverse, lowDigits_length]

/-- The string in the buffer is that of the digits. -/
theorem stringAt_hexStr (before : Memory) (num : UInt64) :
    stringAt (hexStr before num) 0 = some (hexDigits num) := by
  have spells : Spells (hexStr before num) 0 (hexDigits num).bytes := by
    rw [spells_iff, hexDigits_length]
    refine ⟨?_, Function.update_self _ _ _⟩
    rw [hexDigits_bytes, ← hexStrLoop_bytes 16 num before]
    apply Memory.bytes_congr
    intro target inside
    exact Function.update_of_ne (Nat.ne_of_lt inside.2) _ _
  apply stringAt_spells spells
  rw [strlen, hexDigits_length]
  unfold scanLimit
  decide

/-! ### Reading the digits back -/

/-- The value of a hexadecimal digit. -/
def hexValue (char : UInt8) : Option Nat :=
  if ascii '0' ≤ char ∧ char ≤ ascii '9' then some (char - ascii '0').toNat
  else if ascii 'A' ≤ char ∧ char ≤ ascii 'F' then some ((char - ascii 'A').toNat + 10)
  else none

/-- The number that a text of hexadecimal digits spells. -/
def readHex (text : List UInt8) : Option Nat := (text.mapM hexValue).map (readNumeral 16)

theorem hexValue_hexCharacter : ∀ digit < 16, hexValue (hexCharacter digit) = some digit := by
  decide

theorem mapM_hexValue {digits : List Nat} (small : ∀ digit ∈ digits, digit < 16) :
    (digits.map hexCharacter).mapM hexValue = some digits := by
  induction digits with
  | nil => rfl
  | cons digit rest inductionHypothesis =>
      have first := hexValue_hexCharacter digit (small digit List.mem_cons_self)
      have later := inductionHypothesis fun other member =>
        small other (List.mem_cons_of_mem digit member)
      rw [List.map_cons, List.mapM_cons, first, later]
      rfl

theorem readHex_hexDigits (num : UInt64) : readHex (hexDigits num).bytes = some num.toNat := by
  have small : ∀ digit ∈ (lowDigits 16 16 num.toNat).reverse, digit < 16 := fun digit member =>
    lowDigits_lt (by decide) digit (List.mem_reverse.mp member)
  have fits : num.toNat < 16 ^ 16 := num.toNat_lt
  rw [readHex, hexDigits_bytes, mapM_hexValue small, Option.map_some, readNumeral_lowDigits fits]

/-! ### `print_num` prints the same digits -/

/-- A field of sixteen padded with zeros is the number in sixteen digits. -/
theorem printNum_hex (num : UInt64) : printNum num 16 16 (ascii '0') = (hexDigits num).bytes := by
  have fits : num.toNat < 16 ^ (15 + 1) := num.toNat_lt
  have padded : digitLoop 16 (63 + 1) num.toNat ++
      List.replicate (15 + 1 - (digitLoop 16 (63 + 1) num.toNat).length) 0 =
        lowDigits 16 (15 + 1) num.toNat := digitLoop_padded (by decide) (by decide) fits
  have zero : ascii '0' = upperDigit 0 := by decide
  have sixteen : (16 : UInt64).toNat = 16 := rfl
  rw [printNum, numberLoop_eq, List.length_map, zero, sixteen, ← List.map_replicate,
    ← List.map_append, padded, ← List.map_reverse, hexDigits_bytes]
  apply List.map_congr_left
  intro digit member
  exact (hexCharacter_eq digit (lowDigits_lt (by decide) digit (List.mem_reverse.mp member))).symm

/-- `print_num` stores the padded numeral of every number and stays inside its
buffer, and `print_hex` prints what it stores for a field of sixteen. -/
theorem number_rendering :
    (∀ (num base : UInt64) (width : Nat) (padChar : UInt8) (cells : Vector UInt8 65) (str : Nat),
      base = 10 ∨ base = 16 → width ≤ 64 →
        ∃ text, PrintNumStores num base width padChar cells str text ∧
          IsNumberField base.toNat num.toNat width padChar text) ∧
    ∀ (num : UInt64) (console : Console) (before : Memory), ∃ digits : CString,
      stringAt (hexStr before num) 0 = some digits ∧
      printHex console before num = some ((console.printStr hexMarker).printStr digits) ∧
      digits.bytes.length = 16 ∧
      (∀ cells str, PrintNumStores num 16 16 (ascii '0') cells str digits.bytes) ∧
      readHex digits.bytes = some num.toNat := by
  constructor
  · intro num base width padChar cells str bases narrow
    have range : 1 < base.toNat ∧ base.toNat ≤ 16 := by
      rcases bases with rfl | rfl <;> decide
    exact ⟨_, printNum_stores base width padChar range.1 (by omega) cells num str,
      printNum_isNumberField range.1 range.2 num width padChar⟩
  · intro num console before
    have buffer := stringAt_hexStr before num
    refine ⟨hexDigits num, buffer, ?_, hexDigits_length num, ?_, readHex_hexDigits num⟩
    · rw [printHex, buffer, Option.map_some]
    · intro cells str
      rw [← printNum_hex]
      exact printNum_stores 16 16 (ascii '0') (by decide) (by decide) cells num str

end NansOS.Interrupts
