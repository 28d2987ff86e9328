import NansOS.Foundation.Halting
import NansOS.Foundation.Stores
import NansOS.Kernel.Format

/-! Owns the loops of `vsprintf` and `vsnprintf` with their two cursors: which
bytes of the format are read, in memory that goes on behind the NUL, and which
bytes are stored at which address, each store of `vsnprintf` behind its own test
of `str < end`. The texts of `vsprintfText` and `vsnprintfText` are what these
loops store. -/

namespace NansOS.Kernel

open NansOS.Foundation

/-! ### Cursors -/

/-- The locals of a formatter, the addresses it has read in the format and the
stores it has made. -/
structure Formatter where
  format : Nat
  args : List Argument
  str : Nat
  reads : List Nat
  stores : List Store
deriving DecidableEq

/-- How a formatter ends: it returns, or `va_arg` finds no value of its type. -/
inductive FormatHalt where
  | finished (last : Formatter)
  | wrongArgument
deriving DecidableEq

namespace Formatter

/-- A formatter before its loop. -/
def enter (format str : Nat) (args : List Argument) : Formatter := ⟨format, args, str, [], []⟩

/-- Read `*format`. -/
def read (formatter : Formatter) : Formatter :=
  { formatter with reads := formatter.reads ++ [formatter.format] }

/-- `format++`. -/
def next (formatter : Formatter) : Formatter := { formatter with format := formatter.format + 1 }

/-- `*str++ = byte`. -/
def put (formatter : Formatter) (byte : UInt8) : Formatter :=
  { formatter with
    str := formatter.str + 1
    stores := formatter.stores ++ [(formatter.str, byte)] }

/-- `*str = '\0'`. -/
def terminate (formatter : Formatter) : Formatter :=
  { formatter with stores := formatter.stores ++ [(formatter.str, 0)] }

/-- `*str++` for each byte. -/
def copy (formatter : Formatter) : List UInt8 → Formatter
  | [] => formatter
  | byte :: rest => (formatter.put byte).copy rest

/-- `if (str < end) *str++ = byte`. -/
def putBelow (limit : Nat) (formatter : Formatter) (byte : UInt8) : Formatter :=
  if formatter.str < limit then formatter.put byte else formatter

/-- `while (… && str < end) *str++ = …`. -/
def copyBelow (limit : Nat) (formatter : Formatter) : List UInt8 → Formatter
  | [] => formatter
  | byte :: rest =>
      if formatter.str < limit then (formatter.put byte).copyBelow limit rest else formatter

/-- The formatter behind a block of stores and with other arguments left. -/
def stored (formatter : Formatter) (text : List UInt8) (args : List Argument) : Formatter :=
  { formatter with
    args := args
    str := formatter.str + text.length
    stores := formatter.stores ++ placed formatter.str text }

variable (formatter : Formatter)

theorem put_eq (byte : UInt8) : formatter.put byte = formatter.stored [byte] formatter.args := rfl

theorem stored_nil : formatter.stored [] formatter.args = formatter := by
  simp [stored]

theorem stored_stored (front back : List UInt8) (middle args : List Argument) :
    (formatter.stored front middle).stored back args = formatter.stored (front ++ back) args := by
  simp only [stored, List.length_append, placed_append, Nat.add_assoc, List.append_assoc]

theorem copy_eq (text : List UInt8) :
    formatter.copy text = formatter.stored text formatter.args := by
  induction text generalizing formatter with
  | nil => exact formatter.stored_nil.symm
  | cons byte rest inductionHypothesis =>
      rw [copy, inductionHypothesis, put_eq, stored_stored]
      rfl

variable {formatter}

/-- A bounded copy stores as much as there is room for. -/
theorem copyBelow_eq {limit room : Nat} (bound : formatter.str + room = limit)
    (text : List UInt8) :
    formatter.copyBelow limit text = formatter.stored (text.take room) formatter.args := by
  induction text generalizing formatter room with
  | nil =>
      rw [List.take_nil]
      exact formatter.stored_nil.symm
  | cons byte rest inductionHypothesis =>
      cases room with
      | zero =>
          rw [copyBelow, if_neg (by omega), List.take_zero]
          exact formatter.stored_nil.symm
      | succ room =>
          have smaller : (formatter.put byte).str + room = limit := by
            change formatter.str + 1 + room = limit
            omega
          rw [copyBelow, if_pos (by omega), inductionHypothesis smaller, put_eq, stored_stored]
          rfl

theorem copyBelow_full {limit : Nat} (full : ¬ formatter.str < limit) (text : List UInt8) :
    formatter.copyBelow limit text = formatter := by
  cases text with
  | nil => rfl
  | cons byte rest => rw [copyBelow, if_neg full]

theorem putBelow_eq {limit room : Nat} (bound : formatter.str + room = limit) (byte : UInt8) :
    formatter.putBelow limit byte = formatter.stored ([byte].take room) formatter.args :=
  copyBelow_eq bound [byte]

end Formatter

/-! ### The loops -/

/-- The `switch` of `vsprintf`, on `*format++`. -/
def vsprintfSwitch (memory : Memory) (width : Nat) (formatter : Formatter) :
    Except FormatHalt Formatter :=
  match vsprintfConversion (memory formatter.format) width formatter.args with
  | .error _ => .error .wrongArgument
  | .ok (text, rest) => .ok { formatter.read.next.copy text with args := rest }

/-- One pass of the loop of `vsprintf`; where the loop ends, the NUL is stored. -/
def vsprintfPass (memory : Memory) (formatter : Formatter) : Except FormatHalt Formatter :=
  let c := memory formatter.format
  let behind := formatter.read.next
  if c = 0 then .error (.finished behind.terminate)
  else if c ≠ ascii '%' then .ok (behind.put c)
  else
    let digit := memory behind.format
    if ascii '0' ≤ digit ∧ digit ≤ ascii '9' then
      vsprintfSwitch memory (digit - ascii '0').toNat behind.read.next
    else vsprintfSwitch memory 0 behind.read

/-- The `switch` of `vsnprintf`. -/
def vsnprintfSwitch (conversion : UInt8) (limit : Nat) (formatter : Formatter) :
    Except FormatHalt Formatter :=
  if conversion = ascii 's' then
    match vaString formatter.args with
    | .error _ => .error .wrongArgument
    | .ok (value, rest) => .ok ({ formatter with args := rest }.copyBelow limit value.bytes)
  else if conversion = ascii 'd' then
    match vaWord formatter.args with
    | .error _ => .error .wrongArgument
    | .ok (value, rest) =>
        let num := value.toInt32
        let taken := { formatter with args := rest }
        if num < 0 then
          .ok ((taken.putBelow limit (ascii '-')).copyBelow limit (decimalLoop 31 (-num)).reverse)
        else .ok (taken.copyBelow limit (decimalLoop 31 num).reverse)
  else if conversion = ascii 'x' then
    match vaWord formatter.args with
    | .error _ => .error .wrongArgument
    | .ok (value, rest) =>
        .ok ({ formatter with args := rest }.copyBelow limit (hexLoop 31 value).reverse)
  else .ok (formatter.putBelow limit conversion)

/-- One pass of the loop of `vsnprintf`, whose test reads `*format` first; where
the loop ends, the NUL is stored. -/
def vsnprintfPass (memory : Memory) (limit : Nat) (formatter : Formatter) :
    Except FormatHalt Formatter :=
  let c := memory formatter.format
  let looked := formatter.read
  if c = 0 ∨ ¬ looked.str < limit then .error (.finished looked.terminate)
  else if c ≠ ascii '%' then .ok (looked.put c).next
  else
    let conversion := looked.next.read
    (vsnprintfSwitch (memory conversion.format) limit conversion).map Formatter.next

/-- `vsprintf` halts so, storing from `str` on. -/
def VsprintfStops (memory : Memory) (format str : Nat) (args : List Argument)
    (halt : FormatHalt) : Prop :=
  StopsWith (vsprintfPass memory) (.enter format str args) halt

/-- `vsnprintf` halts so, for a buffer of `size` bytes at `str`. -/
def VsnprintfStops (memory : Memory) (format str size : Nat) (args : List Argument)
    (halt : FormatHalt) : Prop :=
  if size = 0 then halt = .finished (.enter format str args)
  else StopsWith (vsnprintfPass memory (str + size - 1)) (.enter format str args) halt

/-- `str - start`, as an `int`. -/
def Formatter.returned (last : Formatter) (start : Nat) : Int :=
  ((last.str : Int) - start).bmod (2 ^ 32)

/-- A memory that holds a string at address 0 and is zero behind it. -/
def memoryOf (string : CString) : Memory := fun address => string.bytes.getD address 0

theorem spells_memoryOf (string : CString) : Spells (memoryOf string) 0 string.bytes := by
  rw [spells_iff, Nat.zero_add]
  constructor
  · apply List.ext_getElem (Memory.bytes_length _ _ _)
    intro index _ below
    simp [Memory.bytes, memoryOf, below]
  · simp [memoryOf]

/-! ### One pass -/

section Passes

variable {memory : Memory} {formatter : Formatter} {limit room : Nat}

theorem vsprintfSwitch_eq (memory : Memory) (width : Nat) (formatter : Formatter) :
    vsprintfSwitch memory width formatter =
      match vsprintfConversion (memory formatter.format) width formatter.args with
      | .error _ => .error .wrongArgument
      | .ok (text, rest) => .ok (formatter.read.next.stored text rest) := by
  unfold vsprintfSwitch
  cases vsprintfConversion (memory formatter.format) width formatter.args with
  | error error => rfl
  | ok result =>
      dsimp only
      rw [Formatter.copy_eq]
      rfl

theorem vsprintfSwitch_ok {width : Nat} {text : List UInt8} {rest : List Argument}
    (converted : vsprintfConversion (memory formatter.format) width formatter.args =
      .ok (text, rest)) :
    vsprintfSwitch memory width formatter = .ok (formatter.read.next.stored text rest) := by
  rw [vsprintfSwitch_eq, converted]

theorem vsprintfSwitch_error {width : Nat} {error : FormatError}
    (fails : vsprintfConversion (memory formatter.format) width formatter.args = .error error) :
    vsprintfSwitch memory width formatter = .error .wrongArgument := by
  rw [vsprintfSwitch_eq, fails]

/-- With `room` bytes left the tests of the `switch` store what fits. -/
theorem vsnprintfSwitch_eq (bound : formatter.str + room = limit) (conversion : UInt8) :
    vsnprintfSwitch conversion limit formatter =
      match vsnprintfConversion conversion room formatter.args with
      | .error _ => .error .wrongArgument
      | .ok (text, rest) => .ok (formatter.stored text rest) := by
  have copied : ∀ (text : List UInt8) (rest : List Argument),
      { formatter with args := rest }.copyBelow limit text =
        formatter.stored (text.take room) rest := by
    intro text rest
    have within : ({ formatter with args := rest } : Formatter).str + room = limit := bound
    exact Formatter.copyBelow_eq within text
  unfold vsnprintfSwitch vsnprintfConversion
  split_ifs with string decimal hexadecimal
  · cases vaString formatter.args with
    | error error => rfl
    | ok taken => exact congrArg Except.ok (copied taken.1.bytes taken.2)
  · cases vaWord formatter.args with
    | error error => rfl
    | ok taken =>
        obtain ⟨value, rest⟩ := taken
        dsimp only [Except.map]
        unfold signedText
        split_ifs with negative
        · -- The sign is one more byte in front of the digits.
          have signed := copied (ascii '-' :: (decimalLoop 31 (-value.toInt32)).reverse) rest
          rw [Formatter.copyBelow] at signed
          rw [Formatter.putBelow, ← signed]
          split_ifs with space
          · rfl
          · exact congrArg Except.ok (Formatter.copyBelow_full space _)
        · exact congrArg Except.ok (copied _ rest)
  · cases vaWord formatter.args with
    | error error => rfl
    | ok taken => exact congrArg Except.ok (copied _ taken.2)
  · exact congrArg Except.ok (Formatter.putBelow_eq bound conversion)

theorem vsprintfPass_nul (nul : memory formatter.format = 0) :
    vsprintfPass memory formatter = .error (.finished formatter.read.next.terminate) := by
  unfold vsprintfPass
  dsimp only
  rw [if_pos nul]

theorem vsprintfPass_literal (some : memory formatter.format ≠ 0)
    (plain : memory formatter.format ≠ ascii '%') :
    vsprintfPass memory formatter =
      .ok (formatter.read.next.stored [memory formatter.format] formatter.args) := by
  unfold vsprintfPass
  dsimp only
  rw [if_neg some, if_pos plain]
  rfl

/-- A directive without a width. -/
theorem vsprintfPass_directive (percent : memory formatter.format = ascii '%')
    (bare : ¬ (ascii '0' ≤ memory (formatter.format + 1) ∧
      memory (formatter.format + 1) ≤ ascii '9')) :
    vsprintfPass memory formatter = vsprintfSwitch memory 0 formatter.read.next.read := by
  have some : ascii '%' ≠ 0 := by decide
  unfold vsprintfPass
  dsimp only
  rw [percent, if_neg some, if_neg (not_not.mpr rfl)]
  exact if_neg bare

/-- A directive with a width digit. -/
theorem vsprintfPass_width (percent : memory formatter.format = ascii '%')
    (digit : ascii '0' ≤ memory (formatter.format + 1) ∧
      memory (formatter.format + 1) ≤ ascii '9') :
    vsprintfPass memory formatter =
      vsprintfSwitch memory (memory (formatter.format + 1) - ascii '0').toNat
        formatter.read.next.read.next := by
  have some : ascii '%' ≠ 0 := by decide
  unfold vsprintfPass
  dsimp only
  rw [percent, if_neg some, if_neg (not_not.mpr rfl)]
  exact if_pos digit

section Converted

variable {text : List UInt8} {rest : List Argument}

theorem vsprintfPass_bare (percent : memory formatter.format = ascii '%')
    (bare : ¬ (ascii '0' ≤ memory (formatter.format + 1) ∧
      memory (formatter.format + 1) ≤ ascii '9'))
    (converted : vsprintfConversion (memory (formatter.format + 1)) 0 formatter.args =
      .ok (text, rest)) :
    vsprintfPass memory formatter =
      .ok (formatter.read.next.read.read.next.stored text rest) := by
  rw [vsprintfPass_directive percent bare]
  exact vsprintfSwitch_ok converted

theorem vsprintfPass_wide (percent : memory formatter.format = ascii '%')
    (digit : ascii '0' ≤ memory (formatter.format + 1) ∧
      memory (formatter.format + 1) ≤ ascii '9')
    (converted : vsprintfConversion (memory (formatter.format + 1 + 1))
      (memory (formatter.format + 1) - ascii '0').toNat formatter.args = .ok (text, rest)) :
    vsprintfPass memory formatter =
      .ok (formatter.read.next.read.next.read.next.stored text rest) := by
  rw [vsprintfPass_width percent digit]
  exact vsprintfSwitch_ok converted

end Converted

theorem vsnprintfPass_end (ends : memory formatter.format = 0 ∨ ¬ formatter.str < limit) :
    vsnprintfPass memory limit formatter = .error (.finished formatter.read.terminate) := by
  unfold vsnprintfPass
  dsimp only
  exact if_pos ends

theorem vsnprintfPass_literal (some : memory formatter.format ≠ 0)
    (space : formatter.str < limit) (plain : memory formatter.format ≠ ascii '%') :
    vsnprintfPass memory limit formatter =
      .ok (formatter.read.next.stored [memory formatter.format] formatter.args) := by
  have goesOn : ¬ (memory formatter.format = 0 ∨ ¬ formatter.str < limit) := by
    rintro (nul | full)
    · exact some nul
    · exact full space
  unfold vsnprintfPass
  dsimp only
  exact (if_neg goesOn).trans (if_pos plain)

theorem vsnprintfPass_directive (percent : memory formatter.format = ascii '%')
    (space : formatter.str < limit) :
    vsnprintfPass memory limit formatter =
      (vsnprintfSwitch (memory (formatter.format + 1)) limit formatter.read.next.read).map
        Formatter.next := by
  have goesOn : ¬ (ascii '%' = 0 ∨ ¬ formatter.str < limit) := by
    rintro (nul | full)
    · exact absurd nul (by decide)
    · exact full space
  unfold vsnprintfPass
  dsimp only
  rw [percent]
  exact (if_neg goesOn).trans (if_neg (not_not.mpr rfl))

theorem vsnprintfPass_converted {text : List UInt8} {rest : List Argument}
    (percent : memory formatter.format = ascii '%') (space : room ≠ 0)
    (bound : formatter.str + room = limit)
    (converted : vsnprintfConversion (memory (formatter.format + 1)) room formatter.args =
      .ok (text, rest)) :
    vsnprintfPass memory limit formatter =
      .ok (formatter.read.next.read.stored text rest).next := by
  have within : formatter.read.next.read.str + room = limit := bound
  have switched : vsnprintfConversion (memory (formatter.format + 1)) room
      formatter.read.next.read.args = .ok (text, rest) := converted
  rw [vsnprintfPass_directive percent (by omega), vsnprintfSwitch_eq within, switched]
  rfl

theorem vsnprintfPass_error {error : FormatError}
    (percent : memory formatter.format = ascii '%') (space : room ≠ 0)
    (bound : formatter.str + room = limit)
    (fails : vsnprintfConversion (memory (formatter.format + 1)) room formatter.args =
      .error error) :
    vsnprintfPass memory limit formatter = .error .wrongArgument := by
  have within : formatter.read.next.read.str + room = limit := bound
  have switched : vsnprintfConversion (memory (formatter.format + 1)) room
      formatter.read.next.read.args = .error error := fails
  rw [vsnprintfPass_directive percent (by omega), vsnprintfSwitch_eq within, switched]
  rfl

end Passes

/-! ### Whole formats -/

section Runs

variable {memory : Memory} {body : Formatter → Except FormatHalt Formatter}
variable {formatter next : Formatter} {front back : List UInt8} {args : List Argument}
variable {bound limit : Nat}

/-- The loop ends, has stored the text and a NUL, and has read the format up to
an address. -/
def Finishes (body : Formatter → Except FormatHalt Formatter) (formatter : Formatter)
    (text : List UInt8) (bound : Nat) : Prop :=
  ∃ last, StopsWith body formatter (.finished last) ∧
    last.str = formatter.str + text.length ∧
    last.stores = formatter.stores ++ placed formatter.str (text ++ [0]) ∧
    ∀ address ∈ last.reads, address ∈ formatter.reads ∨ address ≤ bound

/-- If the loop ends, it has read the format behind an address. -/
def Overruns (body : Formatter → Except FormatHalt Formatter) (formatter : Formatter)
    (bound : Nat) : Prop :=
  ∀ last, StopsWith body formatter (.finished last) → bound + 1 ∈ last.reads

theorem finishes_of_end (ends : body formatter = .error (.finished next))
    (str : next.str = formatter.str)
    (stores : next.stores = formatter.stores ++ [(formatter.str, 0)])
    (reads : ∀ address ∈ next.reads, address ∈ formatter.reads ∨ address ≤ bound) :
    Finishes body formatter [] bound :=
  ⟨next, (stopsWith_of_error ends).mpr rfl, str, stores, reads⟩

theorem Finishes.pass (goesOn : body formatter = .ok next)
    (str : next.str = formatter.str + front.length)
    (stores : next.stores = formatter.stores ++ placed formatter.str front)
    (reads : ∀ address ∈ next.reads, address ∈ formatter.reads ∨ address ≤ bound)
    (rest : Finishes body next back bound) : Finishes body formatter (front ++ back) bound := by
  obtain ⟨last, stops, lastStr, lastStores, lastReads⟩ := rest
  refine ⟨last, (stopsWith_of_ok goesOn).mpr stops, ?_, ?_, ?_⟩
  · rw [lastStr, str, List.length_append, Nat.add_assoc]
  · rw [lastStores, stores, str, List.append_assoc, ← placed_append, List.append_assoc]
  · intro address member
    rcases lastReads address member with before | inside
    · exact reads address before
    · exact .inr inside

theorem Overruns.pass (goesOn : body formatter = .ok next) (rest : Overruns body next bound) :
    Overruns body formatter bound :=
  fun last stops => rest last ((stopsWith_of_ok goesOn).mp stops)

/-- The loop does what a text says: it stores the text, or overruns where the
text reads behind its format, or stops where an argument is missing. -/
def Renders (body : Formatter → Except FormatHalt Formatter) (formatter : Formatter)
    (bound : Nat) : Except FormatError (List UInt8) → Prop
  | .ok text => Finishes body formatter text bound
  | .error .pastFormat => Overruns body formatter bound
  | .error .wrongArgument => StopsWith body formatter .wrongArgument

theorem Renders.pass {outcome : Except FormatError (List UInt8)} (front : List UInt8)
    (goesOn : body formatter = .ok next) (str : next.str = formatter.str + front.length)
    (stores : next.stores = formatter.stores ++ placed formatter.str front)
    (reads : ∀ address ∈ next.reads, address ∈ formatter.reads ∨ address ≤ bound)
    (rest : Renders body next bound outcome) :
    Renders body formatter bound (outcome.map (front ++ ·)) := by
  cases outcome with
  | ok back => exact Finishes.pass goesOn str stores reads rest
  | error error =>
      cases error with
      | pastFormat => exact Overruns.pass goesOn rest
      | wrongArgument => exact (stopsWith_of_ok goesOn).mpr rest

/-- A conversion finds its argument, and the rest follows, or the loop stops. -/
theorem Renders.conversion {converted : Except FormatError (List UInt8 × List Argument)}
    (later : List UInt8 → List Argument → Except FormatError (List UInt8))
    (fails : ∀ error, converted = .error error →
      error = .wrongArgument ∧ body formatter = .error .wrongArgument)
    (gives : ∀ front rest, converted = .ok (front, rest) →
      Renders body formatter bound ((later front rest).map (front ++ ·))) :
    Renders body formatter bound
      (converted.bind fun (front, rest) => (later front rest).map (front ++ ·)) := by
  cases converted with
  | ok pair => exact gives pair.1 pair.2 rfl
  | error error =>
      obtain ⟨rfl, stops⟩ := fails error rfl
      exact (stopsWith_of_error stops).mpr rfl

/-- Every pass reads where the format cursor stands, and forgets no read. -/
def Reading (body : Formatter → Except FormatHalt Formatter) : Prop :=
  ∀ formatter,
    (∀ next, body formatter = .ok next → formatter.reads ++ [formatter.format] ⊆ next.reads) ∧
    (∀ last, body formatter = .error (.finished last) →
      formatter.reads ++ [formatter.format] ⊆ last.reads)

theorem Reading.overruns (reading : Reading body) (behind : formatter.format = bound + 1) :
    Overruns body formatter bound := by
  intro last stops
  rw [← behind]
  have here : formatter.format ∈ formatter.reads ++ [formatter.format] := by simp
  cases outcome : body formatter with
  | error halt =>
      rw [stopsWith_of_error outcome] at stops
      subst stops
      exact (reading formatter).2 last outcome here
  | ok next =>
      refine StopsWith.keeps (fun later => formatter.format ∈ later.reads)
        (fun halt => ∀ last, halt = .finished last → formatter.format ∈ last.reads)
        ?_ ?_ ((stopsWith_of_ok outcome).mp stops) ((reading formatter).1 next outcome here)
        last rfl
      · intro state later goesOn member
        exact (reading state).1 later goesOn (List.mem_append_left _ member)
      · rintro state _ ends member last rfl
        exact (reading state).2 last ends (List.mem_append_left _ member)

end Runs

section Switches

variable {memory : Memory} {formatter next : Formatter} {width limit : Nat} {conversion : UInt8}

theorem vsprintfSwitch_reads (goesOn : vsprintfSwitch memory width formatter = .ok next) :
    next.reads = formatter.reads ++ [formatter.format] := by
  rw [vsprintfSwitch_eq] at goesOn
  split at goesOn
  · cases goesOn
  · exact Except.ok.inj goesOn ▸ rfl

theorem vsprintfSwitch_halts {halt : FormatHalt}
    (halts : vsprintfSwitch memory width formatter = .error halt) : halt = .wrongArgument := by
  rw [vsprintfSwitch_eq] at halts
  split at halts
  · exact (Except.error.inj halts).symm
  · cases halts

theorem vsnprintfSwitch_reads (space : formatter.str < limit)
    (goesOn : vsnprintfSwitch conversion limit formatter = .ok next) :
    next.reads = formatter.reads := by
  have bound : formatter.str + (limit - formatter.str) = limit := by omega
  rw [vsnprintfSwitch_eq bound] at goesOn
  split at goesOn
  · cases goesOn
  · exact Except.ok.inj goesOn ▸ rfl

theorem vsnprintfSwitch_halts {halt : FormatHalt} (space : formatter.str < limit)
    (halts : vsnprintfSwitch conversion limit formatter = .error halt) :
    halt = .wrongArgument := by
  have bound : formatter.str + (limit - formatter.str) = limit := by omega
  rw [vsnprintfSwitch_eq bound] at halts
  split at halts
  · exact (Except.error.inj halts).symm
  · cases halts

theorem vsprintfPass_reading (memory : Memory) : Reading (vsprintfPass memory) := by
  intro formatter
  by_cases nul : memory formatter.format = 0
  · rw [vsprintfPass_nul nul]
    refine ⟨nofun, fun last ends => ?_⟩
    cases ends
    exact List.Subset.refl _
  by_cases plain : memory formatter.format ≠ ascii '%'
  · rw [vsprintfPass_literal nul plain]
    refine ⟨fun next goesOn => ?_, nofun⟩
    exact Except.ok.inj goesOn ▸ List.Subset.refl _
  have percent := not_not.mp plain
  by_cases digit : ascii '0' ≤ memory (formatter.format + 1) ∧
      memory (formatter.format + 1) ≤ ascii '9'
  · rw [vsprintfPass_width percent digit]
    refine ⟨fun next goesOn => ?_, fun last ends => nomatch vsprintfSwitch_halts ends⟩
    rw [vsprintfSwitch_reads goesOn]
    exact fun address member => List.mem_append_left _ (List.mem_append_left _ member)
  · rw [vsprintfPass_directive percent digit]
    refine ⟨fun next goesOn => ?_, fun last ends => nomatch vsprintfSwitch_halts ends⟩
    rw [vsprintfSwitch_reads goesOn]
    exact fun address member => List.mem_append_left _ (List.mem_append_left _ member)

theorem vsnprintfPass_reading (memory : Memory) (limit : Nat) :
    Reading (vsnprintfPass memory limit) := by
  intro formatter
  by_cases ends : memory formatter.format = 0 ∨ ¬ formatter.str < limit
  · rw [vsnprintfPass_end ends]
    refine ⟨nofun, fun last ends => ?_⟩
    cases ends
    exact List.Subset.refl _
  have nonzero := (not_or.mp ends).1
  have space := not_not.mp (not_or.mp ends).2
  by_cases plain : memory formatter.format ≠ ascii '%'
  · rw [vsnprintfPass_literal nonzero space plain]
    refine ⟨fun next goesOn => ?_, nofun⟩
    exact Except.ok.inj goesOn ▸ List.Subset.refl _
  have room : formatter.read.next.read.str < limit := space
  rw [vsnprintfPass_directive (not_not.mp plain) space]
  cases outcome : vsnprintfSwitch (memory (formatter.format + 1)) limit
      formatter.read.next.read with
  | error halt =>
      refine ⟨nofun, fun last ends => ?_⟩
      have finished : halt = .finished last := Except.error.inj ends
      rw [vsnprintfSwitch_halts room outcome] at finished
      cases finished
  | ok next =>
      refine ⟨fun later goesOn => ?_, nofun⟩
      have same : next.next = later := Except.ok.inj goesOn
      rw [← same, Formatter.next, vsnprintfSwitch_reads room outcome]
      exact List.subset_append_left _ _

end Switches

/-! ### The texts are what the loops store -/

section Overruns

variable {memory : Memory} {formatter : Formatter} {bound : Nat}

theorem vsprintfConversion_nul (width : Nat) (args : List Argument) :
    vsprintfConversion 0 width args = .ok ([ascii '?'], args) := rfl

/-- Behind a `%` the NUL is taken for the conversion. -/
theorem vsprintf_overruns_percent (percent : memory formatter.format = ascii '%')
    (nul : memory (formatter.format + 1) = 0) (length : formatter.format + 1 = bound) :
    Overruns (vsprintfPass memory) formatter bound := by
  have bare : ¬ (ascii '0' ≤ memory (formatter.format + 1) ∧
      memory (formatter.format + 1) ≤ ascii '9') := by
    rw [nul]
    decide
  have converted := vsprintfConversion_nul 0 formatter.args
  rw [← nul] at converted
  refine Overruns.pass (vsprintfPass_bare percent bare converted)
    ((vsprintfPass_reading memory).overruns ?_)
  rw [← length]
  rfl

/-- So it is behind a width digit. -/
theorem vsprintf_overruns_digit (percent : memory formatter.format = ascii '%')
    (digit : ascii '0' ≤ memory (formatter.format + 1) ∧
      memory (formatter.format + 1) ≤ ascii '9')
    (nul : memory (formatter.format + 1 + 1) = 0) (length : formatter.format + 1 + 1 = bound) :
    Overruns (vsprintfPass memory) formatter bound := by
  have converted := vsprintfConversion_nul (memory (formatter.format + 1) - ascii '0').toNat
    formatter.args
  rw [← nul] at converted
  refine Overruns.pass (vsprintfPass_wide percent digit converted)
    ((vsprintfPass_reading memory).overruns ?_)
  rw [← length]
  rfl

/-- In `vsnprintf` the NUL is taken for the conversion as well, and stored. -/
theorem vsnprintf_overruns_percent {room limit : Nat}
    (percent : memory formatter.format = ascii '%') (space : room ≠ 0)
    (fits : formatter.str + room = limit) (nul : memory (formatter.format + 1) = 0)
    (length : formatter.format + 1 = bound) :
    Overruns (vsnprintfPass memory limit) formatter bound := by
  have converted : vsnprintfConversion 0 room formatter.args =
      .ok ([0].take room, formatter.args) := rfl
  rw [← nul] at converted
  refine Overruns.pass (vsnprintfPass_converted percent space fits converted)
    ((vsnprintfPass_reading memory limit).overruns ?_)
  rw [← length]
  rfl

end Overruns

/-- A pass that comes to the `switch`, and the rest of the format behind it. -/
theorem Renders.switched {memory : Memory} {formatter behind : Formatter} {bound width : Nat}
    {format : List UInt8}
    (pass : vsprintfPass memory formatter = vsprintfSwitch memory width behind)
    (str : behind.str = formatter.str) (stores : behind.stores = formatter.stores)
    (reads : ∀ address ∈ behind.read.reads, address ∈ formatter.reads ∨ address ≤ bound)
    (rest : ∀ front left, Renders (vsprintfPass memory) (behind.read.next.stored front left) bound
      (vsprintfText format left)) :
    Renders (vsprintfPass memory) formatter bound
      ((vsprintfConversion (memory behind.format) width behind.args).bind
        fun (text, left) => (vsprintfText format left).map (text ++ ·)) := by
  refine Renders.conversion (fun _ left => vsprintfText format left) ?_ ?_
  · intro error fails
    exact ⟨vsprintfConversion_error fails, pass.trans (vsprintfSwitch_error fails)⟩
  · intro front left converted
    have goesOn := pass.trans (vsprintfSwitch_ok converted)
    refine Renders.pass front goesOn (congrArg (· + front.length) str) ?_ reads (rest front left)
    change behind.stores ++ placed behind.str front = _
    rw [stores, str]

/-- The loop of `vsprintf` does what `vsprintfText` says, and reads up to the
NUL. -/
theorem vsprintf_renders (memory : Memory) (bytes : List UInt8) (args : List Argument) :
    ∀ (formatter : Formatter) (bound : Nat), formatter.args = args →
      Spells memory formatter.format bytes → 0 ∉ bytes →
      formatter.format + bytes.length = bound →
      Renders (vsprintfPass memory) formatter bound (vsprintfText bytes args) := by
  induction bytes, args using vsprintfText.induct with
  | case1 args =>
      intro formatter bound same spells noNul length
      refine finishes_of_end (vsprintfPass_nul spells) rfl rfl ?_
      grind [Formatter.terminate, Formatter.read, Formatter.next]
  | case2 byte format args plain inductionHypothesis =>
      intro formatter bound same spells noNul length
      obtain ⟨rfl, spells⟩ := spells
      rw [List.length_cons] at length
      have nonzero : memory formatter.format ≠ 0 := fun zero => noNul (by simp [zero])
      rw [vsprintfText_literal plain]
      refine Renders.pass [memory formatter.format] (vsprintfPass_literal nonzero plain) rfl rfl
        ?_ ?_
      · grind [Formatter.stored, Formatter.read, Formatter.next]
      · refine inductionHypothesis _ bound same spells
          (fun member => noNul (List.mem_cons_of_mem _ member)) ?_
        change formatter.format + 1 + format.length = bound
        omega
  | case3 byte args percent =>
      intro formatter bound same spells noNul length
      obtain rfl := not_not.mp percent
      rw [vsprintfText_percent]
      exact vsprintf_overruns_percent spells.1 spells.2 length
  | case4 byte args percent digit isDigit =>
      intro formatter bound same spells noNul length
      obtain rfl := not_not.mp percent
      obtain ⟨percent, rfl, nul⟩ := spells
      rw [vsprintfText_percent_digit isDigit]
      exact vsprintf_overruns_digit percent isDigit nul length
  | case5 byte args percent digit isDigit conversion format inductionHypothesis =>
      intro formatter bound same spells noNul length
      obtain rfl := not_not.mp percent
      obtain ⟨percent, rfl, rfl, spells⟩ := spells
      simp only [List.length_cons] at length
      subst same
      rw [vsprintfText_width isDigit]
      refine Renders.switched (vsprintfPass_width percent isDigit) rfl rfl ?_ fun front left => ?_
      · grind [Formatter.read, Formatter.next]
      · refine inductionHypothesis left _ bound rfl spells
          (fun member => noNul (by simp [member])) ?_
        change formatter.format + 1 + 1 + 1 + format.length = bound
        omega
  | case6 byte args percent conversion format bare inductionHypothesis =>
      intro formatter bound same spells noNul length
      obtain rfl := not_not.mp percent
      obtain ⟨percent, rfl, spells⟩ := spells
      simp only [List.length_cons] at length
      subst same
      rw [vsprintfText_directive bare]
      refine Renders.switched (vsprintfPass_directive percent bare) rfl rfl ?_ fun front left => ?_
      · grind [Formatter.read, Formatter.next]
      · refine inductionHypothesis left _ bound rfl spells
          (fun member => noNul (by simp [member])) ?_
        change formatter.format + 1 + 1 + format.length = bound
        omega

/-- The loop of `vsnprintf` does what `vsnprintfText` says, and reads no further
than the NUL. -/
theorem vsnprintf_renders (memory : Memory) {limit : Nat} (room : Nat) (bytes : List UInt8)
    (args : List Argument) :
    ∀ (formatter : Formatter) (bound : Nat), formatter.args = args →
      formatter.str + room = limit → Spells memory formatter.format bytes → 0 ∉ bytes →
      formatter.format + bytes.length = bound →
      Renders (vsnprintfPass memory limit) formatter bound (vsnprintfText room bytes args) := by
  induction room, bytes, args using vsnprintfText.induct with
  | case1 room args =>
      intro formatter bound same fits spells noNul length
      refine finishes_of_end (vsnprintfPass_end (.inl spells)) rfl rfl ?_
      grind [Formatter.terminate, Formatter.read]
  | case2 byte format args =>
      intro formatter bound same fits spells noNul length
      rw [vsnprintfText_full]
      refine finishes_of_end (vsnprintfPass_end (.inr (by omega))) rfl rfl ?_
      grind [Formatter.terminate, Formatter.read]
  | case3 room byte format args space plain inductionHypothesis =>
      intro formatter bound same fits spells noNul length
      obtain ⟨rfl, spells⟩ := spells
      rw [List.length_cons] at length
      have nonzero : memory formatter.format ≠ 0 := fun zero => noNul (by simp [zero])
      rw [vsnprintfText_literal space plain]
      refine Renders.pass [memory formatter.format]
        (vsnprintfPass_literal nonzero (by omega) plain) rfl rfl ?_ ?_
      · grind [Formatter.stored, Formatter.read, Formatter.next]
      · refine inductionHypothesis _ bound same ?_ spells
          (fun member => noNul (List.mem_cons_of_mem _ member)) ?_
        · change formatter.str + 1 + (room - 1) = limit
          omega
        · change formatter.format + 1 + format.length = bound
          omega
  | case4 room byte args space percent =>
      intro formatter bound same fits spells noNul length
      obtain rfl := not_not.mp percent
      rw [vsnprintfText_percent space]
      exact vsnprintf_overruns_percent spells.1 space fits spells.2 length
  | case5 room byte args space percent conversion format inductionHypothesis =>
      intro formatter bound same fits spells noNul length
      obtain rfl := not_not.mp percent
      obtain ⟨percent, rfl, spells⟩ := spells
      simp only [List.length_cons] at length
      subst same
      rw [vsnprintfText_directive space]
      refine Renders.conversion
        (fun front left => vsnprintfText (room - front.length) format left) ?_ ?_
      · intro error fails
        exact ⟨vsnprintfConversion_error fails, vsnprintfPass_error percent space fits fails⟩
      · intro front left converted
        have stored := vsnprintfConversion_length converted
        refine Renders.pass front (vsnprintfPass_converted percent space fits converted) rfl rfl
          ?_ ?_
        · grind [Formatter.stored, Formatter.read, Formatter.next]
        · refine inductionHypothesis front left _ bound rfl ?_ spells
            (fun member => noNul (by simp [member])) ?_
          · change formatter.str + front.length + (room - front.length) = limit
            omega
          · change formatter.format + 1 + 1 + format.length = bound
            omega

section Enter

variable {memory : Memory} {format : Nat} {string : CString}

/-- `vsprintf` on a format in memory. -/
theorem vsprintf_enter_renders (spells : Spells memory format string.bytes)
    (args : List Argument) (str : Nat) :
    Renders (vsprintfPass memory) (.enter format str args) (format + string.bytes.length)
      (vsprintfText string.bytes args) :=
  vsprintf_renders memory string.bytes args _ _ rfl spells string.terminated rfl

/-- `vsnprintf` on a format in memory. -/
theorem vsnprintf_enter_renders (spells : Spells memory format string.bytes)
    (args : List Argument) (str : Nat) {size : Nat} (positive : 1 ≤ size) :
    Renders (vsnprintfPass memory (str + size - 1)) (.enter format str args)
      (format + string.bytes.length) (vsnprintfText (size - 1) string.bytes args) := by
  have limit : (Formatter.enter format str args).str + (size - 1) = str + size - 1 := by
    change str + (size - 1) = str + size - 1
    omega
  exact vsnprintf_renders memory (size - 1) string.bytes args _ _ rfl limit spells
    string.terminated rfl

end Enter

end NansOS.Kernel
