import NansOS.Storage.Status

/-! Owns the data of a transfer: the words that a drive with a data register of 16
bits gives and takes, against the two bytes from two ports that `port_word_in` and
`port_word_out` make of a word. -/

namespace NansOS.Storage

open NansOS.Foundation

/-! ### The data register -/

/-- A drive: the words it supplies, what its error register and its other ports
answer, and what the upper lines carry when a byte is written to the data port. -/
structure AtaDrive where
  words : Nat → UInt16
  errors : Nat → UInt8
  others : UInt16 → Nat → UInt8
  upper : Nat → UInt8

/-- Every access to the data port gives a whole word, of which a byte is read. -/
def AtaDrive.input (base : UInt16) (drive : AtaDrive) : UInt16 → Nat → UInt8 :=
  fun port index =>
    if port = base then (drive.words index).toUInt8
    else if port = base + 1 then drive.errors index
    else drive.others port index

/-- A word of two bytes. -/
def wordOf (low high : UInt8) : UInt16 := low.toUInt16 ||| (high.toUInt16 <<< 8)

/-- Every access to the data port takes a whole word, of which a byte is written. -/
def AtaDrive.received (base : UInt16) (drive : AtaDrive) (calls : List PortCall) : List UInt16 :=
  (writtenTo base calls).mapIdx fun index low => wordOf low (drive.upper index)

/-- The buffer holds the drive's words where sectors were read, and what it held elsewhere. -/
def HoldsWords (drive : AtaDrive) (sectors : UInt8) (before after : Nat → UInt16) : Prop :=
  ∀ index, after index =
    if index < 256 * sectors.toNat then drive.words index else before index

/-- A read that returns 0 has filled the buffer with the drive's words. -/
def ReadsIntact (dev : IDEDevice) (lba : UInt64) (sectors : UInt8) (buffer : Nat → UInt16)
    (drive : AtaDrive) : Prop :=
  let (result, after, _) :=
    ideReadSectors (some dev) lba sectors (some buffer) (Bus.idle (drive.input dev.base))
  result = 0 → ∃ words, after = some words ∧ HoldsWords drive sectors buffer words

/-- A write that returns 0 has made the drive receive the words of the buffer. -/
def WritesIntact (dev : IDEDevice) (lba : UInt64) (sectors : UInt8) (buffer : Nat → UInt16)
    (drive : AtaDrive) : Prop :=
  let (result, bus) :=
    ideWriteSectors (some dev) lba sectors (some buffer) (Bus.idle (drive.input dev.base))
  result = 0 →
    drive.received dev.base bus.log = (List.range (256 * sectors.toNat)).map buffer

/-- The transfer of no sector, or one for which the drive does not get ready. -/
def GivesUp (sectors : UInt8) (status : Nat → UInt8) : Prop :=
  sectors = 0 ∨ waits (sectors.toNat + 1) status = none

theorem toNat_wordOf (low high : UInt8) :
    (wordOf low high).toNat = low.toNat + 256 * high.toNat := by
  have lowBound := low.toNat_lt
  have highBound := high.toNat_lt
  rw [wordOf, UInt16.toNat_or, UInt16.toNat_shiftLeft, UInt8.toNat_toUInt16, UInt8.toNat_toUInt16]
  show low.toNat ||| high.toNat <<< 8 % 2 ^ 16 = _
  rw [Nat.shiftLeft_eq, Nat.mod_eq_of_lt (by omega), Nat.or_comm, ← Nat.shiftLeft_eq,
    ← Nat.shiftLeft_add_eq_or_of_lt (by omega), Nat.shiftLeft_eq]
  omega

/-- The lower byte of a word is completed by its upper byte only. -/
theorem wordOf_eq_iff (word : UInt16) (high : UInt8) :
    wordOf word.toUInt8 high = word ↔ high = (word >>> 8).toUInt8 := by
  have bound := word.toNat_lt
  have upper : (word >>> 8).toUInt8.toNat = word.toNat / 256 := by
    rw [UInt16.toNat_toUInt8, UInt16.toNat_shiftRight]
    show word.toNat >>> 8 % 256 = _
    rw [Nat.shiftRight_eq_div_pow]
    omega
  rw [← UInt16.toNat_inj, ← UInt8.toNat_inj, toNat_wordOf, upper, UInt16.toNat_toUInt8]
  omega

/-! ### Reading -/

/-- The word that the bytes of two ports make. -/
def wordAt (base : UInt16) (input : UInt16 → Nat → UInt8) (index : Nat) : UInt16 :=
  wordOf (input base index) (input (base + 1) index)

/-- `count` words of the stream have been read between the buses. -/
structure Supplies (base : UInt16) (count : Nat) (before after : Bus) : Prop where
  low : after.input base = advance (before.input base) count
  high : after.input (base + 1) = advance (before.input (base + 1)) count

theorem Supplies.wordAt {base : UInt16} {count : Nat} {before after : Bus}
    (supplies : Supplies base count before after) (index : Nat) :
    wordAt base after.input index = Storage.wordAt base before.input (count + index) := by
  rw [Storage.wordAt, supplies.low, supplies.high]
  rfl

theorem Supplies.trans {base : UInt16} {first second third : Bus} {count more : Nat}
    (supplies : Supplies base count first second) (later : Supplies base more second third) :
    Supplies base (count + more) first third where
  low := by rw [later.low, supplies.low, advance_advance]
  high := by rw [later.high, supplies.high, advance_advance]

theorem supplies_of_input {base : UInt16} {before after : Bus} (same : after.input = before.input) :
    Supplies base 0 before after where
  low := by rw [same, advance_zero]
  high := by rw [same, advance_zero]

theorem supplies_await (base : UInt16) (bus : Bus) : Supplies base 0 bus (bus.await base) where
  low := by
    rw [advance_zero]
    exact Function.update_of_ne (base_ne_status base) _ _
  high := by
    rw [advance_zero]
    exact Function.update_of_ne (port_ne base (by decide)) _ _

theorem portWordIn_spec (base : UInt16) (bus : Bus) :
    (bus.portWordIn base).1 = wordAt base bus.input 0 ∧
      Supplies base 1 bus (bus.portWordIn base).2 := by
  constructor
  · simp [Bus.portWordIn, Bus.asmInb, wordAt, wordOf]
  · exact
      { low := by simp [Bus.portWordIn, Bus.asmInb]
        high := by simp [Bus.portWordIn, Bus.asmInb] }

/-- What the buffer holds when `count` words have been read to `offset`. -/
def Filled (base : UInt16) (offset count : Nat) (input : UInt16 → Nat → UInt8)
    (before after : Nat → UInt16) : Prop :=
  ∀ index, after index =
    if offset ≤ index ∧ index < offset + count then wordAt base input (index - offset)
    else before index

theorem filled_zero (base : UInt16) (offset : Nat) (input : UInt16 → Nat → UInt8)
    (buffer : Nat → UInt16) : Filled base offset 0 input buffer buffer := by
  intro index
  rw [if_neg (by omega)]

/-- Words read behind others. -/
theorem Filled.trans {base : UInt16} {offset count more : Nat} {first second : Bus}
    {before between after : Nat → UInt16}
    (filled : Filled base offset count first.input before between)
    (supplies : Supplies base count first second)
    (later : Filled base (offset + count) more second.input between after) :
    Filled base offset (count + more) first.input before after := by
  intro index
  rw [later index]
  by_cases behind : offset + count ≤ index ∧ index < offset + count + more
  · rw [if_pos behind, if_pos (by omega), supplies.wordAt]
    congr 1
    omega
  · rw [if_neg behind, filled index]
    by_cases inside : offset ≤ index ∧ index < offset + count
    · rw [if_pos inside, if_pos (by omega)]
    · rw [if_neg inside, if_neg (by omega)]

theorem filled_update (base : UInt16) (offset : Nat) (input : UInt16 → Nat → UInt8)
    (buffer : Nat → UInt16) :
    Filled base offset 1 input buffer (Function.update buffer offset (wordAt base input 0)) := by
  intro index
  by_cases same : index = offset
  · rw [same, Function.update_self, if_pos (by omega), Nat.sub_self]
  · rw [Function.update_of_ne same, if_neg (by omega)]

/-- The loop over the first words of a sector. -/
theorem readLoop_spec (base : UInt16) (offset count : Nat) (buffer : Nat → UInt16) (bus : Bus) :
    let read := (List.range count).foldl
      (fun (state : (Nat → UInt16) × Bus) word =>
        let (value, bus) := Bus.portWordIn base state.2
        (Function.update state.1 (offset + word) value, bus)) (buffer, bus)
    Filled base offset count bus.input buffer read.1 ∧ Supplies base count bus read.2 := by
  induction count with
  | zero => exact ⟨filled_zero base offset bus.input buffer, supplies_of_input rfl⟩
  | succ count inductionHypothesis =>
      rw [List.range_succ, List.foldl_append, List.foldl_cons, List.foldl_nil]
      obtain ⟨filled, supplied⟩ := inductionHypothesis
      generalize (List.range count).foldl _ (buffer, bus) = earlier at filled supplied
      obtain ⟨value, once⟩ := portWordIn_spec base earlier.2
      refine ⟨filled.trans supplied ?_, supplied.trans once⟩
      dsimp only
      rw [value]
      exact filled_update base (offset + count) earlier.2.input earlier.1

theorem readSector_spec (base : UInt16) (offset : Nat) (buffer : Nat → UInt16) (bus : Bus) :
    Filled base offset 256 bus.input buffer (readSector base offset buffer bus).1 ∧
      Supplies base 256 bus (readSector base offset buffer bus).2 :=
  readLoop_spec base offset 256 buffer bus

theorem readSectors_filled (base : UInt16) (remaining offset : Nat) (buffer : Nat → UInt16)
    (bus : Bus) (returns : (readSectors base remaining offset buffer bus).result = 0) :
    Filled base offset (256 * remaining) bus.input buffer
      (readSectors base remaining offset buffer bus).buffer := by
  induction remaining generalizing offset buffer bus with
  | zero => exact filled_zero base offset bus.input buffer
  | succ remaining inductionHypothesis =>
      by_cases ready : GetsReady (bus.input (base + 7))
      · rw [readSectors_ready ready] at returns ⊢
        have awaited := supplies_await base bus
        obtain ⟨sector, supplied⟩ := readSector_spec base offset buffer (bus.await base)
        have first : Filled base offset (0 + 256) bus.input buffer _ :=
          (filled_zero base offset bus.input buffer).trans awaited sector
        have whole := first.trans (awaited.trans supplied) (inductionHypothesis _ _ _ returns)
        rwa [Nat.zero_add, Nat.add_comm, ← Nat.mul_succ] at whole
      · rw [readSectors_late ready] at returns
        exact absurd returns minusOne_ne_zero

theorem sendCommand_input (extended plain : UInt8) (dev : IDEDevice) (lba : UInt64)
    (sectors : UInt8) (bus : Bus) :
    (sendCommand extended plain dev lba sectors bus).input = bus.input := by
  rw [sendCommand]
  generalize commandBytes extended plain dev lba sectors = registers
  induction registers generalizing bus with
  | nil => rfl
  | cons register registers inductionHypothesis => exact inductionHypothesis _

section Transfers

variable {dev : IDEDevice} {lba : UInt64} {sectors : UInt8} {buffer : Nat → UInt16} {bus : Bus}

theorem supplies_start (extended plain : UInt8) (dev : IDEDevice) (lba : UInt64) (sectors : UInt8)
    (bus : Bus) :
    Supplies dev.base 0 bus (sendCommand extended plain dev lba sectors
      ((ideSelectDrive dev bus).await dev.base)) := by
  have selected : Supplies dev.base 0 bus (ideSelectDrive dev bus) := supplies_of_input rfl
  have awaited := selected.trans (supplies_await dev.base (ideSelectDrive dev bus))
  exact awaited.trans (supplies_of_input (sendCommand_input ..))

/-- A transfer returns 0 exactly when it does not give up. -/
theorem zero_iff_not_givesUp {status : Nat → UInt8} {result : Int32}
    (empty : sectors = 0 → result = -1)
    (late : sectors ≠ 0 → waits (sectors.toNat + 1) status = none → result = -1)
    (inTime : sectors ≠ 0 → ∀ pieces rest,
      waits (sectors.toNat + 1) status = some (pieces, rest) → result = 0) :
    result = 0 ↔ ¬ GivesUp sectors status := by
  rw [GivesUp]
  by_cases none : sectors = 0
  · rw [empty none]
    exact iff_of_false minusOne_ne_zero fun goesOn => goesOn (Or.inl none)
  · cases found : waits (sectors.toNat + 1) status with
    | none =>
        rw [late none found]
        exact iff_of_false minusOne_ne_zero fun goesOn => goesOn (Or.inr rfl)
    | some outcome => exact iff_of_true (inTime none _ _ found) (by simp [none])

theorem ideReadSectors_zero_iff :
    (ideReadSectors (some dev) lba sectors (some buffer) bus).1 = 0 ↔
      ¬ GivesUp sectors (bus.input (dev.base + 7)) := by
  apply zero_iff_not_givesUp
  · intro none
    rw [ideReadSectors, if_pos none]
  · exact ideReadSectors_fails
  · intro someSectors _ _ found
    exact (ideReadSectors_succeeds dev lba buffer bus someSectors found).1

theorem ideReadSectors_filled
    (returns : (ideReadSectors (some dev) lba sectors (some buffer) bus).1 = 0) :
    ∃ after, (ideReadSectors (some dev) lba sectors (some buffer) bus).2.1 = some after ∧
      Filled dev.base 0 (256 * sectors.toNat) bus.input buffer after := by
  have goesOn := ideReadSectors_zero_iff.mp returns
  have someSectors : sectors ≠ 0 := fun none => goesOn (Or.inl none)
  by_cases ready : GetsReady (bus.input (dev.base + 7))
  · rw [ideReadSectors_ready someSectors ready] at returns ⊢
    have filled := (filled_zero dev.base 0 bus.input buffer).trans
      (supplies_start ideCmdReadPioExt ideCmdReadPio dev lba sectors bus)
      (readSectors_filled dev.base sectors.toNat 0 buffer _ returns)
    rw [Nat.zero_add] at filled
    exact ⟨_, rfl, filled⟩
  · rw [ideReadSectors_late someSectors ready] at returns
    exact absurd returns minusOne_ne_zero

theorem readsIntact_iff (dev : IDEDevice) (lba : UInt64) (sectors : UInt8)
    (buffer : Nat → UInt16) (drive : AtaDrive) :
    ReadsIntact dev lba sectors buffer drive ↔
      GivesUp sectors (drive.input dev.base (dev.base + 7)) ∨
        ∀ index < 256 * sectors.toNat, drive.errors index = (drive.words index >>> 8).toUInt8 := by
  have word : ∀ index, wordAt dev.base (Bus.idle (drive.input dev.base)).input index =
      wordOf (drive.words index).toUInt8 (drive.errors index) := by
    intro index
    simp [wordAt, Bus.idle, AtaDrive.input]
  unfold ReadsIntact
  dsimp only
  rw [ideReadSectors_zero_iff]
  by_cases givesUp : GivesUp sectors (drive.input dev.base (dev.base + 7))
  · exact iff_of_true (fun goesOn => absurd givesUp goesOn) (Or.inl givesUp)
  · have returns : (ideReadSectors (some dev) lba sectors (some buffer)
        (Bus.idle (drive.input dev.base))).1 = 0 := ideReadSectors_zero_iff.mpr givesUp
    obtain ⟨after, left, filled⟩ := ideReadSectors_filled returns
    rw [left, or_iff_right givesUp]
    constructor
    · intro intact index inside
      obtain ⟨words, same, holds⟩ := intact givesUp
      cases same
      have held := holds index
      rw [filled index, if_pos (by omega), if_pos inside, word, Nat.sub_zero] at held
      exact (wordOf_eq_iff _ _).mp held
    · intro agree _
      refine ⟨after, rfl, fun index => ?_⟩
      rw [filled index]
      by_cases inside : index < 256 * sectors.toNat
      · rw [if_pos (by omega), if_pos inside, word, Nat.sub_zero]
        exact (wordOf_eq_iff _ _).mpr (agree index inside)
      · rw [if_neg (by omega), if_neg inside]

end Transfers

/-! ### Writing -/

section Writing

variable {base : UInt16}

theorem written_ioWait (apart : base ≠ 0x80) : writtenTo base [.ioWait] = [] := by
  simp [writtenTo, PortCall.writes, apart.symm]

theorem written_waitCalls (apart : base ≠ 0x80) (other : UInt16) (seen : List UInt8) :
    writtenTo base (waitCalls other seen) = [] := by
  induction seen with
  | nil => rfl
  | cons status seen inductionHypothesis =>
      rw [waitCalls, List.flatMap_cons, writtenTo_append]
      rw [waitCalls] at inductionHypothesis
      rw [inductionHypothesis, List.append_nil]
      by_cases ready : driveReady status = true
      · rw [if_pos ready]
        rfl
      · rw [if_neg ready]
        exact written_ioWait apart

theorem written_await (apart : base ≠ 0x80) (bus : Bus) :
    writtenTo base (bus.await base).log = writtenTo base bus.log := by
  rw [await_log, writtenTo_append, written_waitCalls apart, List.append_nil]

theorem written_wordOut (base value : UInt16) :
    writtenTo base [.wordOut base value] = [value.toUInt8] := by
  simp [writtenTo, PortCall.writes]

/-- The lower bytes of `count` words of a buffer. -/
def lowBytes (buffer : Nat → UInt16) (offset count : Nat) : List UInt8 :=
  (List.range count).map fun index => (buffer (offset + index)).toUInt8

theorem lowBytes_add (buffer : Nat → UInt16) (offset count more : Nat) :
    lowBytes buffer offset (count + more) =
      lowBytes buffer offset count ++ lowBytes buffer (offset + count) more := by
  simp [lowBytes, List.range_add, Nat.add_assoc, Function.comp_def]

theorem written_writeSector (base : UInt16) (offset : Nat) (buffer : Nat → UInt16) (bus : Bus) :
    writtenTo base (writeSector base offset buffer bus).log =
      writtenTo base bus.log ++ lowBytes buffer offset 256 := by
  rw [writeSector]
  generalize 256 = count
  induction count with
  | zero => simp [lowBytes]
  | succ count inductionHypothesis =>
      rw [List.range_succ, List.foldl_append, List.foldl_cons, List.foldl_nil, Bus.portWordOut,
        Bus.record_log, writtenTo_append, inductionHypothesis, written_wordOut, lowBytes_add,
        List.append_assoc]
      rfl

theorem written_flush (apart : base ≠ 0x80) (bus : Bus) :
    writtenTo base ((bus.portByteOut (base + 7) ideCmdCacheFlush).await base).log =
      writtenTo base bus.log := by
  rw [written_await apart, Bus.portByteOut, Bus.record_log, writtenTo_append,
    writtenTo_other (base_ne_status base).symm, List.append_nil]

theorem written_writeSectors (apart : base ≠ 0x80) (remaining offset : Nat)
    (buffer : Nat → UInt16) (bus : Bus)
    (returns : (writeSectors base remaining offset buffer bus).1 = 0) :
    writtenTo base (writeSectors base remaining offset buffer bus).2.log =
      writtenTo base bus.log ++ lowBytes buffer offset (256 * remaining) := by
  induction remaining generalizing offset bus with
  | zero => simp [writeSectors, lowBytes]
  | succ remaining inductionHypothesis =>
      by_cases ready : GetsReady (bus.input (base + 7))
      · rw [writeSectors_ready ready] at returns ⊢
        rw [inductionHypothesis _ _ returns, Nat.mul_succ, Nat.add_comm (256 * remaining),
          lowBytes_add, ← List.append_assoc]
        congr 1
        by_cases last : remaining = 0
        · rw [if_pos last, written_flush apart, written_writeSector, written_await apart]
        · rw [if_neg last, written_writeSector, written_await apart]
      · rw [writeSectors_late ready] at returns
        exact absurd returns minusOne_ne_zero

end Writing

section Transfers

variable {dev : IDEDevice} {lba : UInt64} {sectors : UInt8} {buffer : Nat → UInt16} {bus : Bus}

theorem written_commandCalls (extended plain : UInt8) (dev : IDEDevice) (lba : UInt64)
    (sectors : UInt8) : writtenTo dev.base (commandCalls extended plain dev lba sectors) = [] := by
  have offsets : ∀ register ∈ commandBytes extended plain dev lba sectors, register.1 ≠ 0 := by
    unfold commandBytes
    split
    · simp
    · simp
  rw [commandCalls]
  generalize commandBytes extended plain dev lba sectors = registers at offsets
  induction registers with
  | nil => rfl
  | cons register registers inductionHypothesis =>
      have apart : dev.base + register.1 ≠ dev.base := by
        simpa using offsets register List.mem_cons_self
      have rest := inductionHypothesis fun other member =>
        offsets other (List.mem_cons_of_mem _ member)
      rw [List.map_cons, writtenTo_cons, rest, writtenTo_other apart]
      rfl

/-- What `startCalls` writes to the data port. -/
theorem written_startCalls (extended plain : UInt8) (dev : IDEDevice) (lba : UInt64)
    (sectors : UInt8) (status : Nat → UInt8) :
    writtenTo dev.base (startCalls extended plain dev lba sectors status) = [] ↔
      dev.base ≠ 0x80 := by
  have select : ∀ value, writtenTo dev.base [.byteOut (dev.base + 6) value] = [] :=
    fun value => writtenTo_other (by simp) value
  rw [startCalls, writtenTo_append, writtenTo_append, written_commandCalls, List.append_nil,
    writtenTo_cons, select, List.nil_append]
  constructor
  · intro none delay
    have first := (List.append_eq_nil_iff.mp none).1
    rw [delay] at first
    exact absurd first (by decide)
  · intro apart
    rw [written_ioWait apart, written_waitCalls apart]
    rfl

theorem ideWriteSectors_zero_iff :
    (ideWriteSectors (some dev) lba sectors (some buffer) bus).1 = 0 ↔
      ¬ GivesUp sectors (bus.input (dev.base + 7)) := by
  apply zero_iff_not_givesUp
  · intro none
    rw [ideWriteSectors, if_pos none]
  · exact ideWriteSectors_fails
  · intro someSectors _ _ found
    exact (ideWriteSectors_succeeds dev lba buffer bus someSectors found).1

theorem ideWriteSectors_written (apart : dev.base ≠ 0x80)
    (returns : (ideWriteSectors (some dev) lba sectors (some buffer) bus).1 = 0) :
    writtenTo dev.base (ideWriteSectors (some dev) lba sectors (some buffer) bus).2.log =
      writtenTo dev.base bus.log ++ lowBytes buffer 0 (256 * sectors.toNat) := by
  have someSectors : sectors ≠ 0 := fun none => ideWriteSectors_zero_iff.mp returns (Or.inl none)
  by_cases ready : GetsReady (bus.input (dev.base + 7))
  · rw [ideWriteSectors_ready someSectors ready] at returns ⊢
    rw [written_writeSectors apart _ _ _ _ returns, (start_spec _ _ dev lba sectors bus).1,
      writtenTo_append, (written_startCalls ..).mpr apart, List.append_nil]
  · rw [ideWriteSectors_late someSectors ready] at returns
    exact absurd returns minusOne_ne_zero

/-- The sectors of a write alone fill what the drive may receive. -/
theorem length_written_sectors {base : UInt16} {pieces : List (List UInt8)} {calls : List PortCall}
    (made : Sectors base (.wordOut base) pieces calls) :
    256 * pieces.length ≤ (writtenTo base calls).length := by
  have word : ∀ values : List UInt16,
      values.length ≤ (writtenTo base (values.map (.wordOut base))).length := by
    intro values
    induction values with
    | nil => exact Nat.zero_le _
    | cons value values inductionHypothesis =>
        rw [List.map_cons, writtenTo_cons, written_wordOut]
        simpa using inductionHypothesis
  induction made with
  | nil => exact Nat.zero_le _
  | cons words later inductionHypothesis =>
      obtain ⟨values, length, rfl⟩ := words
      have sector := word values
      simp only [writtenTo_append, List.length_append, List.length_cons]
      omega

/-- With the data register at the port of the delay, the drive receives more than
the words of the buffer. -/
theorem ideWriteSectors_delayed (lba : UInt64) (buffer : Nat → UInt16) (bus : Bus)
    (delay : dev.base = 0x80)
    (goesOn : ¬ GivesUp sectors (bus.input (dev.base + 7))) :
    256 * sectors.toNat <
      (writtenTo dev.base
        (ideWriteSectors (some dev) lba sectors (some buffer) bus).2.log).length := by
  rw [GivesUp, not_or] at goesOn
  obtain ⟨⟨pieces, rest⟩, inTime⟩ := Option.ne_none_iff_exists'.mp goesOn.2
  obtain ⟨_, calls, made, log⟩ := ideWriteSectors_succeeds dev lba buffer bus goesOn.1 inTime
  have start : writtenTo dev.base (startCalls ideCmdWritePioExt ideCmdWritePio dev lba sectors
      (bus.input (dev.base + 7))) ≠ [] :=
    fun none => (written_startCalls ..).mp none delay
  have positive := List.length_pos_iff.mpr start
  have filled := length_written_sectors made
  have count := length_of_polls inTime
  rw [List.length_tail, count] at filled
  rw [log]
  simp only [writtenTo_append, List.length_append]
  omega

theorem received_lowBytes (drive : AtaDrive) (buffer : Nat → UInt16) (count : Nat) :
    ((lowBytes buffer 0 count).mapIdx fun index low => wordOf low (drive.upper index)) =
        (List.range count).map buffer ↔
      ∀ index < count, drive.upper index = (buffer index >>> 8).toUInt8 := by
  have words : ((lowBytes buffer 0 count).mapIdx fun index low => wordOf low (drive.upper index)) =
      (List.range count).map fun index => wordOf (buffer index).toUInt8 (drive.upper index) := by
    apply List.ext_getElem
    · simp [lowBytes]
    · intro index inside outside
      simp [lowBytes]
  rw [words, List.map_inj_left]
  simp only [List.mem_range, wordOf_eq_iff]

theorem writesIntact_iff (dev : IDEDevice) (lba : UInt64) (sectors : UInt8)
    (buffer : Nat → UInt16) (drive : AtaDrive) :
    WritesIntact dev lba sectors buffer drive ↔
      GivesUp sectors (drive.input dev.base (dev.base + 7)) ∨
        dev.base ≠ 0x80 ∧
          ∀ index < 256 * sectors.toNat, drive.upper index = (buffer index >>> 8).toUInt8 := by
  unfold WritesIntact
  dsimp only
  rw [ideWriteSectors_zero_iff, Bus.idle_input]
  by_cases givesUp : GivesUp sectors (drive.input dev.base (dev.base + 7))
  · exact iff_of_true (fun goesOn => absurd givesUp goesOn) (Or.inl givesUp)
  · rw [or_iff_right givesUp, forall_prop_of_true givesUp, AtaDrive.received]
    by_cases delay : dev.base = 0x80
    · refine iff_of_false (fun intact => ?_) fun apart => apart.1 delay
      have lengths := congrArg List.length intact
      have more := ideWriteSectors_delayed lba buffer (Bus.idle (drive.input dev.base)) delay
        givesUp
      rw [List.length_mapIdx, List.length_map, List.length_range] at lengths
      omega
    · have returns : (ideWriteSectors (some dev) lba sectors (some buffer)
          (Bus.idle (drive.input dev.base))).1 = 0 := ideWriteSectors_zero_iff.mpr givesUp
      have written := ideWriteSectors_written delay returns
      rw [written, Bus.idle_log, writtenTo_nil, List.nil_append, received_lowBytes]
      exact (and_iff_right delay).symm

end Transfers

/-- For every drive and every stream, the words of a read arrive exactly when the
error register happens to show their upper bytes, and those of a write when the
upper lines happen to carry them. -/
theorem words_intact_iff (dev : IDEDevice) (lba : UInt64) (sectors : UInt8)
    (buffer : Nat → UInt16) (drive : AtaDrive) :
    (ReadsIntact dev lba sectors buffer drive ↔
      GivesUp sectors (drive.input dev.base (dev.base + 7)) ∨
        ∀ index < 256 * sectors.toNat, drive.errors index = (drive.words index >>> 8).toUInt8) ∧
    (WritesIntact dev lba sectors buffer drive ↔
      GivesUp sectors (drive.input dev.base (dev.base + 7)) ∨
        dev.base ≠ 0x80 ∧
          ∀ index < 256 * sectors.toNat, drive.upper index = (buffer index >>> 8).toUInt8) :=
  ⟨readsIntact_iff dev lba sectors buffer drive, writesIntact_iff dev lba sectors buffer drive⟩

/-- A sector of words 0x1234 from a drive without errors is read as 0x0034. -/
theorem upper_bytes_lost :
    ¬ ∀ (dev : IDEDevice) (lba : UInt64) (sectors : UInt8) (buffer : Nat → UInt16)
        (drive : AtaDrive), ReadsIntact dev lba sectors buffer drive := by
  intro always
  let primary : IDEDevice := ⟨0x1F0, 0, 0⟩
  let drive : AtaDrive :=
    { words := fun _ => 0x1234
      errors := fun _ => 0
      others := fun _ _ => 0x50
      upper := fun _ => 0 }
  have inTime := waits_const (by decide : driveReady 0x50) 2
  have goesOn : ¬ GivesUp 1 (drive.input primary.base (primary.base + 7)) := by
    intro givesUp
    cases givesUp with
    | inl none => exact absurd none (by decide)
    | inr late =>
        have same : drive.input primary.base (primary.base + 7) = fun _ => 0x50 := rfl
        rw [same, show (1 : UInt8).toNat + 1 = 2 from rfl, inTime] at late
        cases late
  have clear := (readsIntact_iff primary 0 1 (fun _ => 0) drive).mp
    (always primary 0 1 (fun _ => 0) drive)
  cases clear with
  | inl givesUp => exact goesOn givesUp
  | inr agree => exact absurd (agree 0 (by decide)) (by decide)

end NansOS.Storage
