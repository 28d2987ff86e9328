import NansOS.Kernel.FormatStores

/-! Owns what a buffer of limited size holds after `vsnprintf`. The text without
the limit is `unlimitedText`; a call stores the prefix of it that fits and a NUL,
and returns the length of that prefix, not of the text. -/

namespace NansOS.Kernel

open NansOS.Foundation

/-! ### Matching arguments -/

/-- The two types of argument. -/
inductive ArgumentKind where
  | word
  | string
deriving DecidableEq

/-- The type of an argument. -/
def Argument.kind : Argument → ArgumentKind
  | .word _ => .word
  | .string _ => .string

/-- The arguments are of the types demanded, in this order, with more behind them
perhaps. -/
def Matches (demands : List ArgumentKind) (args : List Argument) : Prop :=
  demands <+: args.map Argument.kind

instance (demands : List ArgumentKind) (args : List Argument) : Decidable (Matches demands args) :=
  inferInstanceAs (Decidable (demands <+: args.map Argument.kind))

theorem Matches.word {demands : List ArgumentKind} {args : List Argument}
    (suits : Matches (.word :: demands) args) :
    ∃ value rest, args = .word value :: rest ∧ Matches demands rest := by
  cases args with
  | nil => simp [Matches] at suits
  | cons arg rest =>
      obtain ⟨kind, later⟩ := List.cons_prefix_cons.mp suits
      cases arg with
      | word value => exact ⟨value, rest, rfl, later⟩
      | string value => cases kind

theorem Matches.string {demands : List ArgumentKind} {args : List Argument}
    (suits : Matches (.string :: demands) args) :
    ∃ value rest, args = .string value :: rest ∧ Matches demands rest := by
  cases args with
  | nil => simp [Matches] at suits
  | cons arg rest =>
      obtain ⟨kind, later⟩ := List.cons_prefix_cons.mp suits
      cases arg with
      | word value => cases kind
      | string value => exact ⟨value, rest, rfl, later⟩

/-! ### The text without a limit -/

/-- The argument that a conversion of `vsnprintf` takes. -/
def vsnprintfDemand (conversion : UInt8) : List ArgumentKind :=
  if conversion = ascii 's' then [.string]
  else if conversion = ascii 'd' ∨ conversion = ascii 'x' then [.word]
  else []

/-- The arguments that the directives of a format take from `vsnprintf`. -/
def vsnprintfDemands : List UInt8 → List ArgumentKind
  | [] => []
  | byte :: format =>
      if byte ≠ ascii '%' then vsnprintfDemands format
      else
        match format with
        | [] => []
        | conversion :: format => vsnprintfDemand conversion ++ vsnprintfDemands format

/-- Every `%` that begins a directive is followed by another character. -/
def Complete : List UInt8 → Prop
  | [] => True
  | byte :: format =>
      if byte ≠ ascii '%' then Complete format
      else
        match format with
        | [] => False
        | _ :: format => Complete format

/-- What a conversion of `vsnprintf` renders, and the arguments it leaves. -/
def rendering (conversion : UInt8) (args : List Argument) :
    Except FormatError (List UInt8 × List Argument) :=
  if conversion = ascii 's' then
    (vaString args).map fun (value, rest) => (value.bytes, rest)
  else if conversion = ascii 'd' then
    (vaWord args).map fun (value, rest) => (signedText value.toInt32, rest)
  else if conversion = ascii 'x' then
    (vaWord args).map fun (value, rest) => ((hexLoop 31 value).reverse, rest)
  else .ok ([conversion], args)

/-- The text of a format whose arguments match, up to a `%` at its end. -/
def unlimitedText : List UInt8 → List Argument → List UInt8
  | [], _ => []
  | byte :: format, args =>
      if byte ≠ ascii '%' then byte :: unlimitedText format args
      else
        match format with
        | [] => []
        | conversion :: format =>
            match rendering conversion args with
            | .error _ => []
            | .ok (text, rest) => text ++ unlimitedText format rest

theorem vsnprintfConversion_eq (conversion : UInt8) (room : Nat) (args : List Argument) :
    vsnprintfConversion conversion room args =
      (rendering conversion args).map fun (text, rest) => (text.take room, rest) := by
  unfold vsnprintfConversion rendering
  split_ifs
  · cases vaString args <;> rfl
  · cases vaWord args <;> rfl
  · cases vaWord args <;> rfl
  · rfl

/-- With matching arguments a conversion renders something and leaves the rest
matching. -/
theorem rendering_of_matches {conversion : UInt8} {demands : List ArgumentKind}
    {args : List Argument} (suits : Matches (vsnprintfDemand conversion ++ demands) args) :
    ∃ text rest, rendering conversion args = .ok (text, rest) ∧ Matches demands rest := by
  unfold vsnprintfDemand at suits
  unfold rendering
  by_cases string : conversion = ascii 's'
  · rw [if_pos string] at suits ⊢
    obtain ⟨value, rest, rfl, later⟩ := Matches.string suits
    exact ⟨_, rest, rfl, later⟩
  rw [if_neg string] at suits ⊢
  by_cases decimal : conversion = ascii 'd'
  · rw [if_pos (.inl decimal)] at suits
    rw [if_pos decimal]
    obtain ⟨value, rest, rfl, later⟩ := Matches.word suits
    exact ⟨_, rest, rfl, later⟩
  rw [if_neg decimal]
  by_cases hexadecimal : conversion = ascii 'x'
  · rw [if_pos (.inr hexadecimal)] at suits
    rw [if_pos hexadecimal]
    obtain ⟨value, rest, rfl, later⟩ := Matches.word suits
    exact ⟨_, rest, rfl, later⟩
  · rw [if_neg (not_or.mpr ⟨decimal, hexadecimal⟩)] at suits
    rw [if_neg hexadecimal]
    exact ⟨_, args, rfl, suits⟩

section Directives

variable {byte conversion : UInt8} {format : List UInt8}

theorem vsnprintfDemands_literal (plain : byte ≠ ascii '%') :
    vsnprintfDemands (byte :: format) = vsnprintfDemands format := by
  rw [vsnprintfDemands.eq_def]
  exact if_pos plain

theorem vsnprintfDemands_directive :
    vsnprintfDemands (ascii '%' :: conversion :: format) =
      vsnprintfDemand conversion ++ vsnprintfDemands format := by
  rw [vsnprintfDemands.eq_def]
  exact if_neg (not_not.mpr rfl)

theorem complete_literal (plain : byte ≠ ascii '%') :
    Complete (byte :: format) ↔ Complete format := by
  rw [Complete.eq_def]
  exact iff_of_eq (if_pos plain)

theorem complete_directive : Complete (ascii '%' :: conversion :: format) ↔ Complete format := by
  rw [Complete.eq_def]
  exact iff_of_eq (if_neg (not_not.mpr rfl))

theorem not_complete_percent : ¬ Complete [ascii '%'] := by
  rw [Complete.eq_def]
  exact fun complete => (if_neg (not_not.mpr rfl)).mp complete

instance completeDecidable : DecidablePred Complete
  | [] => isTrue trivial
  | byte :: format =>
      if plain : byte ≠ ascii '%' then
        have := completeDecidable format
        decidable_of_iff _ (complete_literal plain).symm
      else
        match format with
        | [] => isFalse ((not_not.mp plain) ▸ not_complete_percent)
        | _ :: format =>
            have := completeDecidable format
            decidable_of_iff (Complete format) ((not_not.mp plain) ▸ complete_directive.symm)

theorem unlimitedText_literal (plain : byte ≠ ascii '%') (args : List Argument) :
    unlimitedText (byte :: format) args = byte :: unlimitedText format args := by
  rw [unlimitedText.eq_def]
  exact if_pos plain

theorem unlimitedText_directive {args rest : List Argument} {text : List UInt8}
    (rendered : rendering conversion args = .ok (text, rest)) :
    unlimitedText (ascii '%' :: conversion :: format) args =
      text ++ unlimitedText format rest := by
  rw [unlimitedText.eq_def]
  dsimp only
  rw [if_neg (not_not.mpr rfl), rendered]

end Directives

/-- The limit cuts the text, and a `%` at the end is reached only when the text
in front of it leaves room. -/
theorem vsnprintfText_eq {bytes : List UInt8} {args : List Argument}
    (suits : Matches (vsnprintfDemands bytes) args) (room : Nat) :
    ((Complete bytes ∨ room ≤ (unlimitedText bytes args).length) →
        vsnprintfText room bytes args = .ok ((unlimitedText bytes args).take room)) ∧
      (¬ Complete bytes → (unlimitedText bytes args).length < room →
        vsnprintfText room bytes args = .error .pastFormat) := by
  induction room, bytes, args using vsnprintfText.induct with
  | case1 room args =>
      refine ⟨fun _ => ?_, fun incomplete => absurd trivial incomplete⟩
      exact congrArg Except.ok (List.take_nil (i := room)).symm
  | case2 byte format args =>
      exact ⟨fun _ => vsnprintfText_full _ _, fun _ less => absurd less (Nat.not_lt_zero _)⟩
  | case3 room byte format args space plain inductionHypothesis =>
      rw [vsnprintfDemands_literal plain] at suits
      obtain ⟨cut, overrun⟩ := inductionHypothesis suits
      rw [complete_literal plain, unlimitedText_literal plain,
        vsnprintfText_literal space plain, List.length_cons]
      obtain ⟨room, rfl⟩ := Nat.exists_eq_succ_of_ne_zero space
      refine ⟨fun fine => ?_, fun incomplete more => ?_⟩
      · rw [cut (fine.imp_right fun within => by omega)]
        rfl
      · rw [overrun incomplete (by omega)]
        rfl
  | case4 room byte args space percent =>
      obtain rfl := not_not.mp percent
      refine ⟨fun fine => ?_, fun _ _ => vsnprintfText_percent space args⟩
      have empty : (unlimitedText [ascii '%'] args).length = 0 := rfl
      rcases fine with complete | within
      · exact absurd complete not_complete_percent
      · omega
  | case5 room byte args space percent conversion format inductionHypothesis =>
      obtain rfl := not_not.mp percent
      rw [vsnprintfDemands_directive] at suits
      obtain ⟨text, left, rendered, later⟩ := rendering_of_matches suits
      obtain ⟨cut, overrun⟩ := inductionHypothesis (text.take room) left later
      have remaining : room - (text.take room).length = room - text.length := by
        rw [List.length_take]
        omega
      have once : vsnprintfText room (ascii '%' :: conversion :: format) args =
          (vsnprintfText (room - text.length) format left).map (text.take room ++ ·) := by
        rw [vsnprintfText_directive space, vsnprintfConversion_eq, rendered, ← remaining]
        rfl
      rw [remaining] at cut overrun
      rw [complete_directive, unlimitedText_directive rendered, once, List.length_append]
      refine ⟨fun fine => ?_, fun incomplete more => ?_⟩
      · rw [cut (fine.imp_right fun within => by omega), List.take_append]
        rfl
      · rw [overrun incomplete (by omega)]
        rfl

/-! ### Buffers -/

/-- `vsnprintf` returns, having stored these bytes from `str` on. -/
def VsnprintfLeaves (memory : Memory) (format str size : Nat) (args : List Argument)
    (bytes : List UInt8) : Prop :=
  ∃ last, VsnprintfStops memory format str size args (.finished last) ∧
    last.stores = placed str bytes

/-- Stores that stay in a buffer of `size` bytes and leave the prefix of a text
that fits there, with a NUL behind it. -/
structure HoldsPrefix (stores : List Store) (str size : Nat) (text : List UInt8) : Prop where
  inside : ∀ store ∈ stores, str ≤ store.1 ∧ store.1 < str + size
  terminator : lastAt stores (str + min (size - 1) text.length) = some 0
  characters : ∀ index < min (size - 1) text.length,
    lastAt stores (str + index) = text[index]?

/-- What `vsnprintf` returns is the length of the text, so that it is `size` or
more exactly when the text was cut. -/
def ReportsTruncation (memory : Memory) (format str size : Nat) (args : List Argument)
    (text : List UInt8) : Prop :=
  ∃ last, VsnprintfStops memory format str size args (.finished last) ∧
    last.returned str = text.length ∧
    ((size : Int) ≤ last.returned str ↔ size - 1 < text.length)

section Buffers

variable {memory : Memory} {format : Nat} {string : CString} {args : List Argument}

theorem vsnprintf_stops (spells : Spells memory format string.bytes)
    (complete : Complete string.bytes) (suits : Matches (vsnprintfDemands string.bytes) args)
    (str : Nat) {size : Nat} (positive : 1 ≤ size) :
    ∃ last, VsnprintfStops memory format str size args (.finished last) ∧
      last.str = str + min (size - 1) (unlimitedText string.bytes args).length ∧
      last.stores = placed str ((unlimitedText string.bytes args).take (size - 1) ++ [0]) := by
  have cut : vsnprintfText (size - 1) string.bytes args =
      .ok ((unlimitedText string.bytes args).take (size - 1)) :=
    (vsnprintfText_eq suits (size - 1)).1 (.inl complete)
  have renders := vsnprintf_enter_renders spells args str positive
  rw [cut] at renders
  obtain ⟨last, stops, lastStr, stores, -⟩ := renders
  refine ⟨last, ?_, ?_, stores⟩
  · rw [VsnprintfStops, if_neg (by omega)]
    exact stops
  · rw [lastStr, List.length_take]
    rfl

/-- A buffer that is large enough receives the whole text. -/
theorem vsnprintf_leaves (spells : Spells memory format string.bytes)
    (complete : Complete string.bytes) (suits : Matches (vsnprintfDemands string.bytes) args)
    (str : Nat) {size : Nat} (large : (unlimitedText string.bytes args).length < size) :
    VsnprintfLeaves memory format str size args (unlimitedText string.bytes args ++ [0]) := by
  have positive : 1 ≤ size := by omega
  obtain ⟨last, stops, -, stores⟩ := vsnprintf_stops spells complete suits str positive
  have whole : (unlimitedText string.bytes args).take (size - 1) =
      unlimitedText string.bytes args := List.take_of_length_le (by omega)
  exact ⟨last, stops, whole ▸ stores⟩

theorem vsnprintf_returns (spells : Spells memory format string.bytes)
    (complete : Complete string.bytes) (suits : Matches (vsnprintfDemands string.bytes) args)
    {str size : Nat} (positive : 1 ≤ size) {last : Formatter}
    (stops : VsnprintfStops memory format str size args (.finished last)) :
    last.returned str =
      ((min (size - 1) (unlimitedText string.bytes args).length : Nat) : Int).bmod (2 ^ 32) := by
  obtain ⟨other, otherStops, otherStr, -⟩ := vsnprintf_stops spells complete suits str positive
  rw [VsnprintfStops, if_neg (by omega)] at stops otherStops
  have same : last = other := FormatHalt.finished.inj (stops.unique otherStops)
  rw [same, Formatter.returned, otherStr, Nat.cast_add, add_sub_cancel_left]

theorem holdsPrefix_placed (str : Nat) {size : Nat} (positive : 1 ≤ size) (text : List UInt8) :
    HoldsPrefix (placed str (text.take (size - 1) ++ [0])) str size text := by
  have length : (text.take (size - 1)).length = min (size - 1) text.length := List.length_take
  constructor
  · apply (forall_mem_placed fun address => str ≤ address ∧ address < str + size).mpr
    intro index below
    rw [List.length_append, List.length_singleton, length] at below
    omega
  · rw [lastAt_placed, if_pos (by omega), Nat.add_sub_cancel_left, ← length,
      List.getElem?_concat_length]
  · intro index below
    rw [lastAt_placed, if_pos (by omega), Nat.add_sub_cancel_left,
      List.getElem?_append_left (by omega), List.getElem?_take_of_lt (by omega)]

theorem bmod_eq_length_iff {size length : Nat} (positive : 1 ≤ size) :
    ((min (size - 1) length : Nat) : Int).bmod (2 ^ 32) = length ↔
      length < size ∧ length < 2 ^ 31 := by
  rw [Int.bmod_def]
  split_ifs <;> omega

theorem reportsTruncation_iff (spells : Spells memory format string.bytes)
    (complete : Complete string.bytes) (suits : Matches (vsnprintfDemands string.bytes) args)
    (str : Nat) {size : Nat} (positive : 1 ≤ size) :
    ReportsTruncation memory format str size args (unlimitedText string.bytes args) ↔
      (unlimitedText string.bytes args).length < size ∧
        (unlimitedText string.bytes args).length < 2 ^ 31 := by
  constructor
  · rintro ⟨last, stops, whole, -⟩
    rw [vsnprintf_returns spells complete suits positive stops] at whole
    exact (bmod_eq_length_iff positive).mp whole
  · intro fits
    obtain ⟨last, stops, -⟩ := vsnprintf_stops spells complete suits str positive
    have whole : last.returned str = (unlimitedText string.bytes args).length :=
      (vsnprintf_returns spells complete suits positive stops).trans
        ((bmod_eq_length_iff positive).mpr fits)
    refine ⟨last, stops, whole, ?_⟩
    rw [whole]
    omega

/-- `Long string %s`. -/
def longFormat : CString :=
  .ofBytes [76, 111, 110, 103, 32, 115, 116, 114, 105, 110, 103, 32, 37, 115]

end Buffers

end NansOS.Kernel
