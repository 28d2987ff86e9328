import NansOS.Foundation.Run
import NansOS.Storage.Ide

/-! Owns what a transfer that returns 0 says about the status bytes of the drive.
A monitor follows the port calls: it keeps the statuses shown since the last
command or word, and sees which sector the next word belongs to. -/

namespace NansOS.Storage

open NansOS.Foundation

/-! ### The monitor -/

/-- `BSY` clear, `DRQ` set and `ERR` clear. -/
def RequestsData (status : UInt8) : Prop :=
  status &&& ideSrBsy = 0 ∧ status &&& ideSrDrq ≠ 0 ∧ status &&& ideSrErr = 0

instance (status : UInt8) : Decidable (RequestsData status) :=
  inferInstanceAs (Decidable (_ ∧ _ ∧ _))

/-- `BSY`, `ERR` and `DWF` clear. -/
def EndsWell (status : UInt8) : Prop :=
  status &&& ideSrBsy = 0 ∧ status &&& ideSrErr = 0 ∧ status &&& ideSrDwf = 0

instance (status : UInt8) : Decidable (EndsWell status) :=
  inferInstanceAs (Decidable (_ ∧ _ ∧ _))

/-- The words transferred, the last command, and the statuses shown since the
last word or command. -/
structure Monitor where
  words : Nat
  command : Option UInt8
  shown : List UInt8

namespace Monitor

def initial : Monitor where
  words := 0
  command := none
  shown := []

def step (base : UInt16) (monitor : Monitor) : PortCall → Monitor
  | .byteIn port value =>
      if port = base + 7 then { monitor with shown := monitor.shown ++ [value] } else monitor
  | .byteOut port value =>
      if port = base + 7 then
        { monitor with
          command := some value
          shown := [] }
      else monitor
  | .wordIn _ _ | .wordOut _ _ =>
      { monitor with
        words := monitor.words + 1
        shown := [] }
  | .ioWait => monitor

/-- The drive has asked for the data of the sector that the word is the first of. -/
def Asked (monitor : Monitor) : PortCall → Prop
  | .wordIn _ _ | .wordOut _ _ =>
      monitor.words % 256 = 0 → ∃ status ∈ monitor.shown, RequestsData status
  | _ => True

end Monitor

/-- Before the words of each sector the drive has shown, since the command or the
sector before it, that it asks for data. -/
structure SectorsAsked (base : UInt16) (log : List PortCall) : Prop where
  asked : Along (Monitor.step base) Monitor.Asked Monitor.initial log

/-- The last command is a cache flush, and the last status since ends it well. -/
structure FlushEndsWell (base : UInt16) (log : List PortCall) : Prop where
  flush : (run (Monitor.step base) Monitor.initial log).command = some ideCmdCacheFlush
  ends : ∃ status, (run (Monitor.step base) Monitor.initial log).shown.getLast? = some status ∧
    EndsWell status

/-! ### The sequence of statuses -/

/-- Cut the statuses behind each that is ready, into one piece for the wait before
the command and one for each sector. If no piece is longer than a wait, each
piece for a sector holds a status that asks for data. -/
def AsksEach (sectors : UInt8) (status : Nat → UInt8) : Prop :=
  ∀ pieces rest, waits (sectors.toNat + 1) status = some (pieces, rest) →
    ∀ piece ∈ pieces.tail, ∃ status ∈ piece, RequestsData status

/-- And what follows the pieces, up to the first ready status or the end of a
wait, ends well. -/
def FlushesWell (sectors : UInt8) (status : Nat → UInt8) : Prop :=
  ∀ pieces rest, waits (sectors.toNat + 1) status = some (pieces, rest) →
    ∃ status, (waited rest).getLast? = some status ∧ EndsWell status

/-! ### The calls of the driver -/

variable {base : UInt16}

/-- The monitor behind a wait. -/
theorem run_waitCalls (monitor : Monitor) (seen : List UInt8) :
    run (Monitor.step base) monitor (waitCalls base seen) =
      { monitor with shown := monitor.shown ++ seen } := by
  induction seen generalizing monitor with
  | nil => simp [waitCalls]
  | cons status seen inductionHypothesis =>
      have split : waitCalls base (status :: seen) =
          (.byteIn (base + 7) status :: if driveReady status then [] else [.ioWait]) ++
            waitCalls base seen := List.flatMap_cons
      have first : run (Monitor.step base) monitor
          (.byteIn (base + 7) status :: if driveReady status then [] else [.ioWait]) =
            { monitor with shown := monitor.shown ++ [status] } := by
        cases driveReady status <;> simp [Monitor.step]
      rw [split, run_append, first, inductionHypothesis]
      simp

/-- Calls that transfer no word need no request. -/
theorem asked_of_no_word {calls : List PortCall} (none : ∀ call ∈ calls, ∀ monitor,
    Monitor.Asked monitor call) (monitor : Monitor) :
    Along (Monitor.step base) Monitor.Asked monitor calls :=
  (along_of_forall none).imp fun monitor _ asked => asked monitor

theorem asked_waitCalls (monitor : Monitor) (seen : List UInt8) :
    Along (Monitor.step base) Monitor.Asked monitor (waitCalls base seen) := by
  apply asked_of_no_word
  intro call member monitor
  rcases mem_waitCalls member with ⟨status, rfl⟩ | rfl
  · trivial
  · trivial

/-- The calls before the first sector: the command clears what was shown. -/
theorem monitor_start (extended plain : UInt8) (dev : IDEDevice) (lba : UInt64) (sectors : UInt8)
    (status : Nat → UInt8) :
    Along (Monitor.step dev.base) Monitor.Asked Monitor.initial
        (startCalls extended plain dev lba sectors status) ∧
      (run (Monitor.step dev.base) Monitor.initial
        (startCalls extended plain dev lba sectors status)).words = 0 ∧
      (run (Monitor.step dev.base) Monitor.initial
        (startCalls extended plain dev lba sectors status)).shown = [] := by
  have command : ∀ monitor : Monitor,
      (run (Monitor.step dev.base) monitor
          (commandCalls extended plain dev lba sectors)).words = monitor.words ∧
        (run (Monitor.step dev.base) monitor
          (commandCalls extended plain dev lba sectors)).shown = [] := by
    intro monitor
    rw [commandCalls, commandBytes]
    by_cases large : dev.useLba48 ≠ 0
    · rw [if_pos large]
      simp [Monitor.step]
    · rw [if_neg large]
      simp [Monitor.step]
  rw [startCalls, along_append, along_append, run_append _ _ (commandCalls ..)]
  refine ⟨⟨⟨⟨trivial, trivial, trivial⟩, asked_waitCalls _ _⟩, ?_⟩, ?_, (command _).2⟩
  · apply asked_of_no_word
    intro call member monitor
    obtain ⟨register, _, rfl⟩ := List.mem_map.mp member
    trivial
  · rw [(command _).1, run_append, run_waitCalls]
    simp [Monitor.step, Monitor.initial]

/-! ### The words of a sector -/

/-- A call for one word of data. -/
structure WordCall (word : UInt16 → PortCall) : Prop where
  step : ∀ base (monitor : Monitor) value, monitor.step base (word value) =
    { monitor with
      words := monitor.words + 1
      shown := [] }
  asked : ∀ (monitor : Monitor) value, monitor.Asked (word value) ↔
    (monitor.words % 256 = 0 → ∃ status ∈ monitor.shown, RequestsData status)

theorem wordCall_in (port : UInt16) : WordCall (.wordIn port) :=
  ⟨fun _ _ _ => rfl, fun _ _ => Iff.rfl⟩

theorem wordCall_out (port : UInt16) : WordCall (.wordOut port) :=
  ⟨fun _ _ _ => rfl, fun _ _ => Iff.rfl⟩

variable {word : UInt16 → PortCall}

theorem run_words (wordCall : WordCall word) (monitor : Monitor) (value : UInt16)
    (values : List UInt16) :
    run (Monitor.step base) monitor ((value :: values).map word) =
      { monitor with
        words := monitor.words + (values.length + 1)
        shown := [] } := by
  induction values generalizing monitor value with
  | nil => exact wordCall.step base monitor value
  | cons next values inductionHypothesis =>
      rw [List.map_cons, run_cons, inductionHypothesis, wordCall.step]
      simp only [List.length_cons, Monitor.mk.injEq, and_self, and_true]
      omega

/-- Within a sector no word needs a request. -/
theorem asked_within (wordCall : WordCall word) (values : List UInt16) (monitor : Monitor)
    (inside : 0 < monitor.words % 256) (fits : monitor.words % 256 + values.length ≤ 256) :
    Along (Monitor.step base) Monitor.Asked monitor (values.map word) := by
  induction values generalizing monitor with
  | nil => trivial
  | cons value values inductionHypothesis =>
      rw [List.length_cons] at fits
      refine ⟨(wordCall.asked monitor value).mpr fun first => absurd first (by omega), ?_⟩
      rw [wordCall.step]
      cases values with
      | nil => trivial
      | cons next values =>
          rw [List.length_cons] at fits
          apply inductionHypothesis
          · show 0 < (monitor.words + 1) % 256
            omega
          · show (monitor.words + 1) % 256 + (next :: values).length ≤ 256
            rw [List.length_cons]
            omega

/-- A sector needs one request before its first word. -/
theorem monitor_sector (base : UInt16) (wordCall : WordCall word) {calls : List PortCall}
    (words : Words word 256 calls) (monitor : Monitor) (aligned : monitor.words % 256 = 0) :
    (Along (Monitor.step base) Monitor.Asked monitor calls ↔
        ∃ status ∈ monitor.shown, RequestsData status) ∧
      run (Monitor.step base) monitor calls =
        { monitor with
          words := monitor.words + 256
          shown := [] } := by
  obtain ⟨values, length, rfl⟩ := words
  cases values with
  | nil => cases length
  | cons value values =>
      rw [List.length_cons] at length
      have rest : Along (Monitor.step base) Monitor.Asked (monitor.step base (word value))
          (values.map word) := by
        rw [wordCall.step]
        apply asked_within wordCall
        · show 0 < (monitor.words + 1) % 256
          omega
        · show (monitor.words + 1) % 256 + values.length ≤ 256
          omega
      constructor
      · constructor
        · rintro ⟨asked, _⟩
          exact (wordCall.asked monitor value).mp asked aligned
        · intro requested
          exact ⟨(wordCall.asked monitor value).mpr fun _ => requested, rest⟩
      · rw [run_words wordCall, length]

/-- Several sectors need a request in each of their waits. -/
theorem monitor_sectors (wordCall : WordCall word) {pieces : List (List UInt8)}
    {calls : List PortCall} (sectors : Sectors base word pieces calls) {monitor : Monitor}
    (aligned : monitor.words % 256 = 0) (fresh : monitor.shown = []) :
    Along (Monitor.step base) Monitor.Asked monitor calls ↔
      ∀ piece ∈ pieces, ∃ status ∈ piece, RequestsData status := by
  induction sectors generalizing monitor with
  | nil => exact iff_of_true trivial nofun
  | @cons seen pieces sector calls words later inductionHypothesis =>
      have waitedOn : run (Monitor.step base) monitor (waitCalls base seen) =
          { monitor with shown := seen } := by
        rw [run_waitCalls, fresh, List.nil_append]
      obtain ⟨asked, after⟩ :=
        monitor_sector base wordCall words { monitor with shown := seen } aligned
      rw [along_append, along_append, run_append, waitedOn, after, asked, List.forall_mem_cons,
        inductionHypothesis (by show (monitor.words + 256) % 256 = 0; omega) rfl]
      exact and_congr_left fun _ => and_iff_right (asked_waitCalls _ _)

/-! ### A transfer -/

theorem minusOne_ne_zero : (-1 : Int32) ≠ 0 := by decide

theorem asksEach_of_late {sectors : UInt8} {status : Nat → UInt8}
    (late : waits (sectors.toNat + 1) status = none) : AsksEach sectors status := by
  intro pieces rest inTime
  rw [late] at inTime
  cases inTime

theorem asksEach_iff {sectors : UInt8} {status rest : Nat → UInt8} {pieces : List (List UInt8)}
    (inTime : waits (sectors.toNat + 1) status = some (pieces, rest)) :
    AsksEach sectors status ↔
      ∀ piece ∈ pieces.tail, ∃ status ∈ piece, RequestsData status := by
  constructor
  · intro asks
    exact asks pieces rest inTime
  · intro asks other later same
    rw [inTime] at same
    cases same
    exact asks

theorem flushesWell_of_late {sectors : UInt8} {status : Nat → UInt8}
    (late : waits (sectors.toNat + 1) status = none) : FlushesWell sectors status := by
  intro pieces rest inTime
  rw [late] at inTime
  cases inTime

theorem flushesWell_iff {sectors : UInt8} {status rest : Nat → UInt8}
    {pieces : List (List UInt8)}
    (inTime : waits (sectors.toNat + 1) status = some (pieces, rest)) :
    FlushesWell sectors status ↔
      ∃ status, (waited rest).getLast? = some status ∧ EndsWell status := by
  constructor
  · intro flushes
    exact flushes pieces rest inTime
  · intro flushes other later same
    rw [inTime] at same
    cases same
    exact flushes

section Transfers

variable {extended plain : UInt8} {dev : IDEDevice} {lba : UInt64} {sectors : UInt8}
  {status rest : Nat → UInt8} {pieces : List (List UInt8)} {calls : List PortCall}

/-- The monitor over the calls up to the last sector. -/
theorem sectorsAsked_iff (wordCall : WordCall word) (made : Sectors dev.base word pieces calls) :
    Along (Monitor.step dev.base) Monitor.Asked Monitor.initial
        (startCalls extended plain dev lba sectors status ++ calls) ↔
      ∀ piece ∈ pieces, ∃ status ∈ piece, RequestsData status := by
  obtain ⟨asked, words, shown⟩ := monitor_start extended plain dev lba sectors status
  rw [along_append, monitor_sectors wordCall made (by rw [words]) shown]
  exact and_iff_right asked

/-- A flush and its wait, after any calls. -/
theorem monitor_flush (base : UInt16) (monitor : Monitor) (seen : List UInt8) :
    Along (Monitor.step base) Monitor.Asked monitor
        (.byteOut (base + 7) ideCmdCacheFlush :: waitCalls base seen) ∧
      (run (Monitor.step base) monitor
        (.byteOut (base + 7) ideCmdCacheFlush :: waitCalls base seen)).command =
          some ideCmdCacheFlush ∧
      (run (Monitor.step base) monitor
        (.byteOut (base + 7) ideCmdCacheFlush :: waitCalls base seen)).shown = seen := by
  rw [run_cons, run_waitCalls]
  refine ⟨⟨trivial, asked_waitCalls _ _⟩, ?_, ?_⟩
  · simp [Monitor.step]
  · simp [Monitor.step]

theorem read_status_iff (dev : IDEDevice) (lba : UInt64) (sectors : UInt8)
    (buffer : Nat → UInt16) (input : UInt16 → Nat → UInt8) :
    ((ideReadSectors (some dev) lba sectors (some buffer) (Bus.idle input)).1 = 0 →
        SectorsAsked dev.base
          (ideReadSectors (some dev) lba sectors (some buffer) (Bus.idle input)).2.2.log) ↔
      sectors = 0 ∨ AsksEach sectors (input (dev.base + 7)) := by
  by_cases someSectors : sectors = 0
  · refine iff_of_true (fun result => ?_) (Or.inl someSectors)
    rw [ideReadSectors, if_pos someSectors] at result
    exact absurd result minusOne_ne_zero
  · rw [or_iff_right someSectors]
    cases found : waits (sectors.toNat + 1) (input (dev.base + 7)) with
    | none =>
        refine iff_of_true (fun result => ?_) (asksEach_of_late found)
        rw [ideReadSectors_fails someSectors found] at result
        exact absurd result minusOne_ne_zero
    | some outcome =>
        obtain ⟨pieces, rest⟩ := outcome
        obtain ⟨result, calls, made, log⟩ :=
          ideReadSectors_succeeds dev lba buffer (Bus.idle input) someSectors found
        have asked : SectorsAsked dev.base
            (ideReadSectors (some dev) lba sectors (some buffer) (Bus.idle input)).2.2.log ↔
              AsksEach sectors (input (dev.base + 7)) := by
          rw [asksEach_iff found, ← sectorsAsked_iff (wordCall_in dev.base) made, log]
          exact ⟨SectorsAsked.asked, SectorsAsked.mk⟩
        rw [result, asked]
        exact forall_prop_of_true rfl

theorem write_status_iff (dev : IDEDevice) (lba : UInt64) (sectors : UInt8)
    (buffer : Nat → UInt16) (input : UInt16 → Nat → UInt8) :
    ((ideWriteSectors (some dev) lba sectors (some buffer) (Bus.idle input)).1 = 0 →
        SectorsAsked dev.base
            (ideWriteSectors (some dev) lba sectors (some buffer) (Bus.idle input)).2.log ∧
          FlushEndsWell dev.base
            (ideWriteSectors (some dev) lba sectors (some buffer) (Bus.idle input)).2.log) ↔
      sectors = 0 ∨ AsksEach sectors (input (dev.base + 7)) ∧
        FlushesWell sectors (input (dev.base + 7)) := by
  by_cases someSectors : sectors = 0
  · refine iff_of_true (fun result => ?_) (Or.inl someSectors)
    rw [ideWriteSectors, if_pos someSectors] at result
    exact absurd result minusOne_ne_zero
  · rw [or_iff_right someSectors]
    cases found : waits (sectors.toNat + 1) (input (dev.base + 7)) with
    | none =>
        refine iff_of_true (fun result => ?_) ⟨asksEach_of_late found, flushesWell_of_late found⟩
        rw [ideWriteSectors_fails someSectors found] at result
        exact absurd result minusOne_ne_zero
    | some outcome =>
        obtain ⟨pieces, rest⟩ := outcome
        obtain ⟨result, calls, made, log⟩ :=
          ideWriteSectors_succeeds dev lba buffer (Bus.idle input) someSectors found
        have flushed := fun monitor => monitor_flush dev.base monitor (waited rest)
        have asked : SectorsAsked dev.base
            (ideWriteSectors (some dev) lba sectors (some buffer) (Bus.idle input)).2.log ↔
              AsksEach sectors (input (dev.base + 7)) := by
          rw [asksEach_iff found, ← sectorsAsked_iff (wordCall_out dev.base) made, log]
          constructor
          · rintro ⟨asked⟩
            exact (along_append.mp asked).1
          · intro asked
            exact ⟨along_append.mpr ⟨asked, (flushed _).1⟩⟩
        have ends : FlushEndsWell dev.base
            (ideWriteSectors (some dev) lba sectors (some buffer) (Bus.idle input)).2.log ↔
              FlushesWell sectors (input (dev.base + 7)) := by
          rw [flushesWell_iff found, log]
          constructor
          · rintro ⟨_, ends⟩
            rwa [run_append, (flushed _).2.2] at ends
          · intro ends
            constructor
            · rw [run_append, (flushed _).2.1]
            · rwa [run_append, (flushed _).2.2]
        rw [result, asked, ends]
        exact forall_prop_of_true rfl

/-- For every sequence of status bytes, a read that returns 0 had a request for
each sector, and a write also a flush that ended well, exactly when the pieces of
the sequence say so; the driver itself looks at `BSY` and `DRDY` only. -/
theorem status_honoured_iff (dev : IDEDevice) (lba : UInt64) (sectors : UInt8)
    (buffer : Nat → UInt16) (input : UInt16 → Nat → UInt8) :
    (((ideReadSectors (some dev) lba sectors (some buffer) (Bus.idle input)).1 = 0 →
        SectorsAsked dev.base
          (ideReadSectors (some dev) lba sectors (some buffer) (Bus.idle input)).2.2.log) ↔
      sectors = 0 ∨ AsksEach sectors (input (dev.base + 7))) ∧
    (((ideWriteSectors (some dev) lba sectors (some buffer) (Bus.idle input)).1 = 0 →
        SectorsAsked dev.base
            (ideWriteSectors (some dev) lba sectors (some buffer) (Bus.idle input)).2.log ∧
          FlushEndsWell dev.base
            (ideWriteSectors (some dev) lba sectors (some buffer) (Bus.idle input)).2.log) ↔
      sectors = 0 ∨ AsksEach sectors (input (dev.base + 7)) ∧
        FlushesWell sectors (input (dev.base + 7))) :=
  ⟨read_status_iff dev lba sectors buffer input, write_status_iff dev lba sectors buffer input⟩

end Transfers

/-! ### A drive that always shows one status -/

theorem waits_const {status : UInt8} (ready : driveReady status) (count : Nat) :
    waits count (fun _ => status) = some (List.replicate count [status], fun _ => status) := by
  induction count with
  | zero => rfl
  | succ count inductionHypothesis =>
      have seen : polled driveReady 99999 (fun _ => status) = [status] := polled_of_ready ready
      have same : behind driveReady 99999 (fun _ => status) = fun _ => status :=
        behind_of_ready ready
      have inTime : GetsReady fun _ => status := inTime_of_ready ready
      rw [waits] at inductionHypothesis ⊢
      rw [polls_succ inTime, same, inductionHypothesis, seen]
      rfl

/-- A drive that reports an error and offers no data is read with success. -/
theorem error_read_succeeds :
    ¬ ∀ (dev : IDEDevice) (lba : UInt64) (sectors : UInt8) (buffer : Nat → UInt16)
        (input : UInt16 → Nat → UInt8),
        (ideReadSectors (some dev) lba sectors (some buffer) (Bus.idle input)).1 = 0 →
          SectorsAsked dev.base
            (ideReadSectors (some dev) lba sectors (some buffer) (Bus.idle input)).2.2.log := by
  intro always
  let primary : IDEDevice := ⟨0x1F0, 0, 0⟩
  have inTime := waits_const (by decide : driveReady 0x41) 2
  obtain none | asks := (read_status_iff primary 0 1 (fun _ => 0) fun _ _ => 0x41).mp
    (always primary 0 1 (fun _ => 0) fun _ _ => 0x41)
  · exact absurd none (by decide)
  · obtain ⟨status, member, asked⟩ := asks _ _ inTime [0x41] (by simp)
    obtain rfl := List.mem_singleton.mp member
    exact absurd asked (by decide)

end NansOS.Storage
