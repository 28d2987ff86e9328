import NansOS.Foundation.Polling
import Mathlib.Logic.Function.Basic

/-! Owns the transfers of the IDE driver: `ide_wait_ready`, `ide_select_drive`,
`ide_read_sectors` and `ide_write_sectors` over the calls of `port.h`, against a
drive that may answer every read of a port with any byte. Each function leaves
its port calls in a log, in order. -/

namespace NansOS.Storage

open NansOS.Foundation

/-! ### Ports -/

/-- A call of `port.h`, with the value read or written. -/
inductive PortCall where
  | byteIn (port : UInt16) (value : UInt8)
  | byteOut (port : UInt16) (value : UInt8)
  | wordIn (port value : UInt16)
  | wordOut (port value : UInt16)
  | ioWait
deriving DecidableEq

/-- The bytes that a call puts on the bus, with their ports. -/
def PortCall.writes : PortCall → List (UInt16 × UInt8)
  | .byteIn _ _ | .wordIn _ _ => []
  | .byteOut port value => [(port, value)]
  | .wordOut port value => [(port, value.toUInt8), (port + 1, (value >>> 8).toUInt8)]
  | .ioWait => [(0x80, 0)]

/-- The bytes that some calls write to a port. -/
def writtenTo (port : UInt16) (calls : List PortCall) : List UInt8 :=
  ((calls.flatMap PortCall.writes).filter fun write => write.1 = port).map Prod.snd

/-- The bytes that each port still answers with, and the calls made so far. -/
structure Bus where
  input : UInt16 → Nat → UInt8
  log : List PortCall

namespace Bus

/-- Nothing has been called yet. -/
def idle (input : UInt16 → Nat → UInt8) : Bus where
  input := input
  log := []

def asmInb (port : UInt16) (bus : Bus) : UInt8 × Bus :=
  (bus.input port 0,
    { bus with input := Function.update bus.input port (advance (bus.input port) 1) })

def record (call : PortCall) (bus : Bus) : Bus := { bus with log := bus.log ++ [call] }

def portByteIn (port : UInt16) (bus : Bus) : UInt8 × Bus :=
  let (value, bus) := bus.asmInb port
  (value, bus.record (.byteIn port value))

def portByteOut (port : UInt16) (value : UInt8) (bus : Bus) : Bus :=
  bus.record (.byteOut port value)

/-- The two bytes come from two ports. -/
def portWordIn (port : UInt16) (bus : Bus) : UInt16 × Bus :=
  let (low, bus) := bus.asmInb port
  let (high, bus) := bus.asmInb (port + 1)
  let value := low.toUInt16 ||| (high.toUInt16 <<< 8)
  (value, bus.record (.wordIn port value))

def portWordOut (port value : UInt16) (bus : Bus) : Bus := bus.record (.wordOut port value)

def portIoWait (bus : Bus) : Bus := bus.record .ioWait

end Bus

/-! ### The driver -/

/-- `struct IDEDevice`, without the ports that no transfer uses and what only
`ide_identify` stores. -/
structure IDEDevice where
  base : UInt16
  slave : UInt8
  useLba48 : UInt8
deriving DecidableEq

abbrev ideSrErr : UInt8 := 0x01
abbrev ideSrDrq : UInt8 := 0x08
abbrev ideSrDwf : UInt8 := 0x20
abbrev ideSrDrdy : UInt8 := 0x40
abbrev ideSrBsy : UInt8 := 0x80

abbrev ideCmdReadPio : UInt8 := 0x20
abbrev ideCmdReadPioExt : UInt8 := 0x24
abbrev ideCmdWritePio : UInt8 := 0x30
abbrev ideCmdWritePioExt : UInt8 := 0x34
abbrev ideCmdCacheFlush : UInt8 := 0xE7

/-- The status that ends a wait: `BSY` clear and `DRDY` set. -/
def driveReady (status : UInt8) : Bool := status &&& ideSrBsy = 0 ∧ status &&& ideSrDrdy ≠ 0

/-- `while (--timeout > 0)`, from a value of `timeout`. -/
def ideWaitReadyFrom (base : UInt16) : Nat → Bus → Int32 × Bus
  | 0, bus => (-1, bus)
  | timeout + 1, bus =>
      if timeout > 0 then
        let (status, bus) := bus.portByteIn (base + 7)
        if driveReady status then (0, bus) else ideWaitReadyFrom base timeout bus.portIoWait
      else (-1, bus)

def ideWaitReady (base : UInt16) (bus : Bus) : Int32 × Bus := ideWaitReadyFrom base 100000 bus

def ideSelectDrive (dev : IDEDevice) (bus : Bus) : Bus :=
  (bus.portByteOut (dev.base + 6)
    ((0xA0 : UInt32) ||| (dev.slave.toUInt32 <<< 4)).toUInt8).portIoWait

/-- The register writes of a transfer in order, as offsets from `base` with
their values. The last one is the command, which is `extended` in LBA48 mode and
`plain` in LBA28 mode. -/
def commandBytes (extended plain : UInt8) (dev : IDEDevice) (lba : UInt64) (sectors : UInt8) :
    List (UInt16 × UInt8) :=
  if dev.useLba48 ≠ 0 then
    [(2, sectors), (3, lba.toUInt8), (4, (lba >>> 8).toUInt8), (5, (lba >>> 16).toUInt8),
      (2, (lba >>> 24).toUInt8), (3, (lba >>> 32).toUInt8), (4, (lba >>> 40).toUInt8),
      (7, extended)]
  else
    [(2, sectors), (3, lba.toUInt8), (4, (lba >>> 8).toUInt8), (5, (lba >>> 16).toUInt8),
      (6, ((0xE0 : UInt64) ||| (dev.slave.toUInt64 <<< 4) ||| ((lba >>> 24) &&& 0x0F)).toUInt8),
      (7, plain)]

def sendCommand (extended plain : UInt8) (dev : IDEDevice) (lba : UInt64) (sectors : UInt8)
    (bus : Bus) : Bus :=
  (commandBytes extended plain dev lba sectors).foldl
    (fun bus register => bus.portByteOut (dev.base + register.1) register.2) bus

/-- What a transfer returns and leaves: the buffer as words from its start. -/
structure Transfer where
  result : Int32
  buffer : Nat → UInt16
  bus : Bus

/-- `buf[j] = port_word_in(dev->base)` for one sector at `offset`. -/
def readSector (base : UInt16) (offset : Nat) (buffer : Nat → UInt16) (bus : Bus) :
    (Nat → UInt16) × Bus :=
  (List.range 256).foldl
    (fun (buffer, bus) word =>
      let (value, bus) := Bus.portWordIn base bus
      (Function.update buffer (offset + word) value, bus))
    (buffer, bus)

/-- The loop over the sectors that remain. -/
def readSectors (base : UInt16) : (remaining offset : Nat) → (Nat → UInt16) → Bus → Transfer
  | 0, _, buffer, bus =>
      { result := 0
        buffer := buffer
        bus := bus }
  | remaining + 1, offset, buffer, bus =>
      let (ready, bus) := ideWaitReady base bus
      if ready < 0 then
        { result := -1
          buffer := buffer
          bus := bus }
      else
        let (buffer, bus) := readSector base offset buffer bus
        readSectors base remaining (offset + 256) buffer bus

/-- `port_word_out(dev->base, buf[j])` for one sector at `offset`. -/
def writeSector (base : UInt16) (offset : Nat) (buffer : Nat → UInt16) (bus : Bus) : Bus :=
  (List.range 256).foldl (fun bus word => bus.portWordOut base (buffer (offset + word))) bus

/-- The loop over the sectors that remain; the last one is followed by a cache
flush whose outcome is dropped. -/
def writeSectors (base : UInt16) :
    (remaining offset : Nat) → (Nat → UInt16) → Bus → Int32 × Bus
  | 0, _, _, bus => (0, bus)
  | remaining + 1, offset, buffer, bus =>
      let (ready, bus) := ideWaitReady base bus
      if ready < 0 then (-1, bus)
      else
        let bus := writeSector base offset buffer bus
        let bus :=
          if remaining = 0 then
            (ideWaitReady base (bus.portByteOut (base + 7) ideCmdCacheFlush)).2
          else bus
        writeSectors base remaining (offset + 256) buffer bus

/-- `NULL` is `none`. -/
def ideReadSectors (dev : Option IDEDevice) (lba : UInt64) (sectors : UInt8)
    (buffer : Option (Nat → UInt16)) (bus : Bus) : Int32 × Option (Nat → UInt16) × Bus :=
  match dev, buffer with
  | some dev, some words =>
      if sectors = 0 then (-1, buffer, bus)
      else
        let (ready, bus) := ideWaitReady dev.base (ideSelectDrive dev bus)
        if ready < 0 then (-1, buffer, bus)
        else
          let bus := sendCommand ideCmdReadPioExt ideCmdReadPio dev lba sectors bus
          let transfer := readSectors dev.base sectors.toNat 0 words bus
          (transfer.result, some transfer.buffer, transfer.bus)
  | _, _ => (-1, buffer, bus)

def ideWriteSectors (dev : Option IDEDevice) (lba : UInt64) (sectors : UInt8)
    (buffer : Option (Nat → UInt16)) (bus : Bus) : Int32 × Bus :=
  match dev, buffer with
  | some dev, some words =>
      if sectors = 0 then (-1, bus)
      else
        let (ready, bus) := ideWaitReady dev.base (ideSelectDrive dev bus)
        if ready < 0 then (-1, bus)
        else
          let bus := sendCommand ideCmdWritePioExt ideCmdWritePio dev lba sectors bus
          writeSectors dev.base sectors.toNat 0 words bus
  | _, _ => (-1, bus)

/-! ### What the functions leave in the log -/

@[simp] theorem writtenTo_nil (port : UInt16) : writtenTo port [] = [] := rfl

theorem writtenTo_append (port : UInt16) (first second : List PortCall) :
    writtenTo port (first ++ second) = writtenTo port first ++ writtenTo port second := by
  simp [writtenTo]

theorem writtenTo_cons (port : UInt16) (call : PortCall) (calls : List PortCall) :
    writtenTo port (call :: calls) = writtenTo port [call] ++ writtenTo port calls :=
  writtenTo_append port [call] calls

theorem writtenTo_byteIn (port other : UInt16) (value : UInt8) :
    writtenTo port [.byteIn other value] = [] := rfl

theorem writtenTo_byteOut (port : UInt16) (value : UInt8) :
    writtenTo port [.byteOut port value] = [value] := by
  simp [writtenTo, PortCall.writes]

theorem writtenTo_other {port other : UInt16} (apart : other ≠ port) (value : UInt8) :
    writtenTo port [.byteOut other value] = [] := by
  simp [writtenTo, PortCall.writes, apart]

namespace Bus

variable {bus : Bus}

@[simp] theorem idle_input (input : UInt16 → Nat → UInt8) : (idle input).input = input := rfl

@[simp] theorem idle_log (input : UInt16 → Nat → UInt8) : (idle input).log = [] := rfl

@[simp] theorem record_input (call : PortCall) : (bus.record call).input = bus.input := rfl

@[simp] theorem record_log (call : PortCall) : (bus.record call).log = bus.log ++ [call] := rfl

end Bus

/-- The calls of a wait that saw these statuses. -/
def waitCalls (base : UInt16) (seen : List UInt8) : List PortCall :=
  seen.flatMap fun status =>
    .byteIn (base + 7) status :: if driveReady status then [] else [.ioWait]

/-- A wait reads the status and pauses, and nothing else. -/
theorem mem_waitCalls {base : UInt16} {seen : List UInt8} {call : PortCall}
    (member : call ∈ waitCalls base seen) :
    (∃ status, call = .byteIn (base + 7) status) ∨ call = .ioWait := by
  obtain ⟨status, _, either⟩ := List.mem_flatMap.mp member
  rcases List.mem_cons.mp either with rfl | waiting
  · exact .inl ⟨status, rfl⟩
  · by_cases ready : driveReady status = true
    · rw [if_pos ready] at waiting
      cases waiting
    · rw [if_neg ready] at waiting
      exact .inr (List.mem_singleton.mp waiting)

/-- The statuses that a wait looks at. -/
abbrev waited (status : Nat → UInt8) : List UInt8 := polled driveReady 99999 status

/-- The drive gets ready before a wait gives up. -/
abbrev GetsReady (status : Nat → UInt8) : Prop := InTime driveReady 99999 status

/-- The bus behind the polls of one wait. -/
def Bus.poll (timeout : Nat) (base : UInt16) (bus : Bus) : Bus where
  input := Function.update bus.input (base + 7)
    (behind driveReady timeout (bus.input (base + 7)))
  log := bus.log ++ waitCalls base (polled driveReady timeout (bus.input (base + 7)))

theorem waitReadyFrom_spec (base : UInt16) (timeout : Nat) (bus : Bus) :
    ideWaitReadyFrom base (timeout + 1) bus =
      (if InTime driveReady timeout (bus.input (base + 7)) then 0 else -1,
        bus.poll timeout base) := by
  induction timeout generalizing bus with
  | zero =>
      have same : behind driveReady 0 (bus.input (base + 7)) = bus.input (base + 7) :=
        advance_zero _
      rw [Bus.poll, same, Function.update_eq_self]
      simp [ideWaitReadyFrom, InTime, polled, waitCalls]
  | succ timeout inductionHypothesis =>
      rw [ideWaitReadyFrom, if_pos (Nat.succ_pos _)]
      dsimp only [Bus.portByteIn, Bus.asmInb]
      by_cases holds : driveReady (bus.input (base + 7) 0) = true
      · rw [if_pos holds, if_pos (inTime_of_ready holds), Bus.poll, behind_of_ready holds,
          polled_of_ready holds]
        simp [waitCalls, holds, Bus.record]
      · rw [if_neg holds, inductionHypothesis]
        simp only [Bus.poll, Bus.portIoWait, Bus.record_input, Function.update_self,
          Bus.record_log, Function.update_idem, polled_of_not_ready holds,
          behind_of_not_ready holds, inTime_of_not_ready holds]
        simp [waitCalls, holds]

/-- The bus behind a wait. -/
abbrev Bus.await (base : UInt16) (bus : Bus) : Bus := bus.poll 99999 base

theorem waitReady_spec (base : UInt16) (bus : Bus) :
    ideWaitReady base bus =
      (if GetsReady (bus.input (base + 7)) then 0 else -1, bus.await base) :=
  waitReadyFrom_spec base 99999 bus

theorem await_log (base : UInt16) (bus : Bus) :
    (bus.await base).log = bus.log ++ waitCalls base (waited (bus.input (base + 7))) := rfl

theorem await_status (base : UInt16) (bus : Bus) :
    (bus.await base).input (base + 7) = behind driveReady 99999 (bus.input (base + 7)) :=
  Function.update_self _ _ _

/-! ### One sector -/

theorem port_ne (base : UInt16) {first second : UInt16} (different : first ≠ second) :
    base + first ≠ base + second :=
  fun same => different (UInt16.add_right_inj base |>.mp same)

theorem base_ne_status (base : UInt16) : base ≠ base + 7 := by
  simp

/-- Bus `after` has made the calls `calls` since bus `before`, reading no status. -/
structure Makes (base : UInt16) (before after : Bus) (calls : List PortCall) : Prop where
  log : after.log = before.log ++ calls
  status : after.input (base + 7) = before.input (base + 7)

theorem Makes.trans {base : UInt16} {first second third : Bus} {calls later : List PortCall}
    (makes : Makes base first second calls) (next : Makes base second third later) :
    Makes base first third (calls ++ later) where
  log := by rw [next.log, makes.log, List.append_assoc]
  status := next.status.trans makes.status

theorem makes_record (base : UInt16) (bus : Bus) (call : PortCall) :
    Makes base bus (bus.record call) [call] := ⟨rfl, rfl⟩

theorem makes_wordIn (base : UInt16) (bus : Bus) :
    Makes base bus (bus.portWordIn base).2 [.wordIn base (bus.portWordIn base).1] where
  log := rfl
  status := by
    have first := (base_ne_status base).symm
    have second : base + 7 ≠ base + 1 := port_ne base (by decide)
    simp [Bus.portWordIn, Bus.asmInb, first, second]

/-- `count` calls for words, all of one kind. -/
def Words (word : UInt16 → PortCall) (count : Nat) (calls : List PortCall) : Prop :=
  ∃ values : List UInt16, values.length = count ∧ calls = values.map word

theorem readWords (base : UInt16) (offset : Nat) (words : List Nat) (buffer : Nat → UInt16)
    (bus : Bus) :
    ∃ calls, Words (.wordIn base) words.length calls ∧
      Makes base bus (words.foldl
        (fun (buffer, bus) word =>
          let (value, bus) := Bus.portWordIn base bus
          (Function.update buffer (offset + word) value, bus))
        (buffer, bus)).2 calls := by
  induction words generalizing buffer bus with
  | nil => exact ⟨[], ⟨[], rfl, rfl⟩, by simp, rfl⟩
  | cons word words inductionHypothesis =>
      obtain ⟨_, ⟨values, length, rfl⟩, makes⟩ := inductionHypothesis
        (Function.update buffer (offset + word) (bus.portWordIn base).1) (bus.portWordIn base).2
      exact ⟨_, ⟨(bus.portWordIn base).1 :: values, by simp [length], rfl⟩,
        (makes_wordIn base bus).trans makes⟩

theorem readSector_makes (base : UInt16) (offset : Nat) (buffer : Nat → UInt16) (bus : Bus) :
    ∃ calls, Words (.wordIn base) 256 calls ∧
      Makes base bus (readSector base offset buffer bus).2 calls := by
  have made := readWords base offset (List.range 256) buffer bus
  rwa [List.length_range] at made

theorem writeSector_makes (base : UInt16) (offset : Nat) (buffer : Nat → UInt16) (bus : Bus) :
    ∃ calls, Words (.wordOut base) 256 calls ∧
      Makes base bus (writeSector base offset buffer bus) calls := by
  have made : ∀ (words : List Nat) (bus : Bus),
      Makes base bus
        (words.foldl (fun bus word => bus.portWordOut base (buffer (offset + word))) bus)
        (words.map fun word => .wordOut base (buffer (offset + word))) := by
    intro words
    induction words with
    | nil => exact fun bus => ⟨by simp, rfl⟩
    | cons word words inductionHypothesis =>
        exact fun bus => (makes_record base bus _).trans (inductionHypothesis _)
  refine ⟨_, ⟨(List.range 256).map fun word => buffer (offset + word), by simp, ?_⟩,
    made (List.range 256) bus⟩
  rw [List.map_map]
  rfl

/-! ### All sectors -/

/-- The calls for a number of sectors: before each of them a wait that saw the
given statuses. -/
inductive Sectors (base : UInt16) (word : UInt16 → PortCall) :
    List (List UInt8) → List PortCall → Prop where
  | nil : Sectors base word [] []
  | cons {seen : List UInt8} {waits : List (List UInt8)} {sector calls : List PortCall}
      (words : Words word 256 sector) (later : Sectors base word waits calls) :
      Sectors base word (seen :: waits) (waitCalls base seen ++ sector ++ calls)

/-- Several waits in a row, each of which gives up after 99999 statuses. -/
abbrev waits (count : Nat) (status : Nat → UInt8) : Option (List (List UInt8) × (Nat → UInt8)) :=
  polls driveReady 99999 count status

theorem waits_succ_eq_some {count : Nat} {status rest : Nat → UInt8} {seen : List (List UInt8)}
    (inTime : waits (count + 1) status = some (seen, rest)) :
    GetsReady status ∧
      ∃ later, waits count (behind driveReady 99999 status) = some (later, rest) ∧
        seen = waited status :: later := by
  by_cases ready : GetsReady status
  · rw [waits, polls_succ ready, Option.map_eq_some_iff] at inTime
    obtain ⟨⟨later, last⟩, found, same⟩ := inTime
    cases same
    exact ⟨ready, later, found, rfl⟩
  · rw [waits, polls_late ready] at inTime
    cases inTime

theorem waits_succ_eq_none {count : Nat} {status : Nat → UInt8} (ready : GetsReady status)
    (late : waits (count + 1) status = none) :
    waits count (behind driveReady 99999 status) = none := by
  rw [waits, polls_succ ready] at late
  exact Option.map_eq_none_iff.mp late

theorem readSectors_ready {base : UInt16} {remaining offset : Nat} {buffer : Nat → UInt16}
    {bus : Bus} (ready : GetsReady (bus.input (base + 7))) :
    readSectors base (remaining + 1) offset buffer bus =
      readSectors base remaining (offset + 256) (readSector base offset buffer (bus.await base)).1
        (readSector base offset buffer (bus.await base)).2 := by
  rw [readSectors, waitReady_spec, if_pos ready]
  dsimp only
  rw [if_neg (by decide)]

theorem readSectors_late {base : UInt16} {remaining offset : Nat} {buffer : Nat → UInt16}
    {bus : Bus} (late : ¬ GetsReady (bus.input (base + 7))) :
    readSectors base (remaining + 1) offset buffer bus =
      { result := -1
        buffer := buffer
        bus := bus.await base } := by
  rw [readSectors, waitReady_spec, if_neg late]
  dsimp only
  rw [if_pos (by decide)]

theorem readSectors_fails (base : UInt16) (remaining offset : Nat) (buffer : Nat → UInt16)
    (bus : Bus) (late : waits remaining (bus.input (base + 7)) = none) :
    (readSectors base remaining offset buffer bus).result = -1 := by
  induction remaining generalizing offset buffer bus with
  | zero => cases late
  | succ remaining inductionHypothesis =>
      by_cases ready : GetsReady (bus.input (base + 7))
      · obtain ⟨_, _, makes⟩ := readSector_makes base offset buffer (bus.await base)
        rw [readSectors_ready ready]
        apply inductionHypothesis
        rw [makes.status, await_status]
        exact waits_succ_eq_none ready late
      · rw [readSectors_late ready]

theorem readSectors_succeeds (base : UInt16) (remaining offset : Nat) (buffer : Nat → UInt16)
    (bus : Bus) {seen : List (List UInt8)} {rest : Nat → UInt8}
    (inTime : waits remaining (bus.input (base + 7)) = some (seen, rest)) :
    (readSectors base remaining offset buffer bus).result = 0 ∧
      ∃ calls, Sectors base (.wordIn base) seen calls ∧
        (readSectors base remaining offset buffer bus).bus.log = bus.log ++ calls := by
  induction remaining generalizing offset buffer bus seen with
  | zero =>
      cases inTime
      exact ⟨rfl, [], .nil, by simp [readSectors]⟩
  | succ remaining inductionHypothesis =>
      obtain ⟨ready, later, found, rfl⟩ := waits_succ_eq_some inTime
      obtain ⟨sector, words, makes⟩ := readSector_makes base offset buffer (bus.await base)
      rw [readSectors_ready ready]
      rw [← await_status, ← makes.status] at found
      obtain ⟨result, calls, sectors, log⟩ := inductionHypothesis (offset + 256) _ _ found
      refine ⟨result, _, .cons words sectors, ?_⟩
      rw [log, makes.log, await_log]
      simp only [List.append_assoc]

theorem writeSectors_ready {base : UInt16} {remaining offset : Nat} {buffer : Nat → UInt16}
    {bus : Bus} (ready : GetsReady (bus.input (base + 7))) :
    writeSectors base (remaining + 1) offset buffer bus =
      writeSectors base remaining (offset + 256) buffer
        (if remaining = 0 then
          ((writeSector base offset buffer (bus.await base)).portByteOut
            (base + 7) ideCmdCacheFlush).await base
        else writeSector base offset buffer (bus.await base)) := by
  rw [writeSectors, waitReady_spec, if_pos ready]
  dsimp only
  rw [if_neg (by decide), waitReady_spec]

theorem writeSectors_late {base : UInt16} {remaining offset : Nat} {buffer : Nat → UInt16}
    {bus : Bus} (late : ¬ GetsReady (bus.input (base + 7))) :
    writeSectors base (remaining + 1) offset buffer bus = (-1, bus.await base) := by
  rw [writeSectors, waitReady_spec, if_neg late]
  dsimp only
  rw [if_pos (by decide)]

theorem writeSectors_fails (base : UInt16) (remaining offset : Nat) (buffer : Nat → UInt16)
    (bus : Bus) (late : waits remaining (bus.input (base + 7)) = none) :
    (writeSectors base remaining offset buffer bus).1 = -1 := by
  induction remaining generalizing offset bus with
  | zero => cases late
  | succ remaining inductionHypothesis =>
      by_cases ready : GetsReady (bus.input (base + 7))
      · obtain ⟨_, _, makes⟩ := writeSector_makes base offset buffer (bus.await base)
        have later := waits_succ_eq_none ready late
        cases remaining with
        | zero => cases later
        | succ remaining =>
            rw [writeSectors_ready ready, if_neg (Nat.succ_ne_zero _)]
            apply inductionHypothesis
            rw [makes.status, await_status]
            exact later
      · rw [writeSectors_late ready]

/-- The loop ends with the flush command and a wait. -/
theorem writeSectors_succeeds (base : UInt16) (remaining offset : Nat) (buffer : Nat → UInt16)
    (bus : Bus) {seen : List (List UInt8)} {rest : Nat → UInt8}
    (inTime : waits (remaining + 1) (bus.input (base + 7)) = some (seen, rest)) :
    (writeSectors base (remaining + 1) offset buffer bus).1 = 0 ∧
      ∃ calls, Sectors base (.wordOut base) seen calls ∧
        (writeSectors base (remaining + 1) offset buffer bus).2.log =
          bus.log ++ calls ++
            .byteOut (base + 7) ideCmdCacheFlush :: waitCalls base (waited rest) := by
  induction remaining generalizing offset bus seen with
  | zero =>
      obtain ⟨ready, later, found, rfl⟩ := waits_succ_eq_some inTime
      cases found
      obtain ⟨sector, words, makes⟩ := writeSector_makes base offset buffer (bus.await base)
      rw [writeSectors_ready ready, if_pos rfl]
      refine ⟨rfl, _, .cons words .nil, ?_⟩
      rw [writeSectors, await_log, Bus.portByteOut, Bus.record_log, Bus.record_input,
        makes.status, makes.log, await_status, await_log]
      simp only [List.append_assoc, List.append_nil, List.singleton_append]
  | succ remaining inductionHypothesis =>
      obtain ⟨ready, later, found, rfl⟩ := waits_succ_eq_some inTime
      obtain ⟨sector, words, makes⟩ := writeSector_makes base offset buffer (bus.await base)
      rw [writeSectors_ready ready, if_neg (Nat.succ_ne_zero _)]
      rw [← await_status, ← makes.status] at found
      obtain ⟨result, calls, sectors, log⟩ := inductionHypothesis (offset + 256) _ found
      refine ⟨result, _, .cons words sectors, ?_⟩
      rw [log, makes.log, await_log]
      simp only [List.append_assoc]

/-! ### The transfers -/

section Transfers

variable {dev : IDEDevice} {lba : UInt64} {sectors : UInt8} {buffer : Nat → UInt16} {bus : Bus}

theorem ideReadSectors_ready (someSectors : sectors ≠ 0)
    (ready : GetsReady (bus.input (dev.base + 7))) :
    ideReadSectors (some dev) lba sectors (some buffer) bus =
      let transfer := readSectors dev.base sectors.toNat 0 buffer
        (sendCommand ideCmdReadPioExt ideCmdReadPio dev lba sectors
          ((ideSelectDrive dev bus).await dev.base))
      (transfer.result, some transfer.buffer, transfer.bus) := by
  have selected : GetsReady ((ideSelectDrive dev bus).input (dev.base + 7)) := ready
  rw [ideReadSectors, if_neg someSectors, waitReady_spec, if_pos selected]
  dsimp only
  rw [if_neg (by decide)]

theorem ideReadSectors_late (someSectors : sectors ≠ 0)
    (late : ¬ GetsReady (bus.input (dev.base + 7))) :
    ideReadSectors (some dev) lba sectors (some buffer) bus =
      (-1, some buffer, (ideSelectDrive dev bus).await dev.base) := by
  have selected : ¬ GetsReady ((ideSelectDrive dev bus).input (dev.base + 7)) := late
  rw [ideReadSectors, if_neg someSectors, waitReady_spec, if_neg selected]
  dsimp only
  rw [if_pos (by decide)]

theorem ideWriteSectors_ready (someSectors : sectors ≠ 0)
    (ready : GetsReady (bus.input (dev.base + 7))) :
    ideWriteSectors (some dev) lba sectors (some buffer) bus =
      writeSectors dev.base sectors.toNat 0 buffer
        (sendCommand ideCmdWritePioExt ideCmdWritePio dev lba sectors
          ((ideSelectDrive dev bus).await dev.base)) := by
  have selected : GetsReady ((ideSelectDrive dev bus).input (dev.base + 7)) := ready
  rw [ideWriteSectors, if_neg someSectors, waitReady_spec, if_pos selected]
  dsimp only
  rw [if_neg (by decide)]

theorem ideWriteSectors_late (someSectors : sectors ≠ 0)
    (late : ¬ GetsReady (bus.input (dev.base + 7))) :
    ideWriteSectors (some dev) lba sectors (some buffer) bus =
      (-1, (ideSelectDrive dev bus).await dev.base) := by
  have selected : ¬ GetsReady ((ideSelectDrive dev bus).input (dev.base + 7)) := late
  rw [ideWriteSectors, if_neg someSectors, waitReady_spec, if_neg selected]
  dsimp only
  rw [if_pos (by decide)]

/-- The calls of `sendCommand`. -/
def commandCalls (extended plain : UInt8) (dev : IDEDevice) (lba : UInt64) (sectors : UInt8) :
    List PortCall :=
  (commandBytes extended plain dev lba sectors).map fun register =>
    .byteOut (dev.base + register.1) register.2

theorem sendCommand_makes (extended plain : UInt8) (dev : IDEDevice) (lba : UInt64)
    (sectors : UInt8) (bus : Bus) :
    Makes dev.base bus (sendCommand extended plain dev lba sectors bus)
      (commandCalls extended plain dev lba sectors) := by
  rw [sendCommand, commandCalls]
  generalize commandBytes extended plain dev lba sectors = registers
  induction registers generalizing bus with
  | nil => exact ⟨by simp, rfl⟩
  | cons register registers inductionHypothesis =>
      exact (makes_record dev.base bus _).trans (inductionHypothesis _)

/-- The calls before the first sector, for a drive that gets ready. -/
def startCalls (extended plain : UInt8) (dev : IDEDevice) (lba : UInt64) (sectors : UInt8)
    (status : Nat → UInt8) : List PortCall :=
  [.byteOut (dev.base + 6) ((0xA0 : UInt32) ||| (dev.slave.toUInt32 <<< 4)).toUInt8, .ioWait] ++
    waitCalls dev.base (waited status) ++ commandCalls extended plain dev lba sectors

theorem start_spec (extended plain : UInt8) (dev : IDEDevice) (lba : UInt64) (sectors : UInt8)
    (bus : Bus) :
    let started := sendCommand extended plain dev lba sectors
      ((ideSelectDrive dev bus).await dev.base)
    started.log = bus.log ++ startCalls extended plain dev lba sectors
        (bus.input (dev.base + 7)) ∧
      started.input (dev.base + 7) =
        behind driveReady 99999 (bus.input (dev.base + 7)) := by
  intro started
  have selected : Makes dev.base bus (ideSelectDrive dev bus) _ :=
    (makes_record dev.base bus _).trans (makes_record dev.base _ .ioWait)
  have sent := sendCommand_makes extended plain dev lba sectors
    ((ideSelectDrive dev bus).await dev.base)
  constructor
  · rw [sent.log, await_log, selected.log, selected.status, startCalls]
    simp only [List.append_assoc, List.singleton_append]
  · rw [sent.status, await_status, selected.status]

theorem ideReadSectors_fails (someSectors : sectors ≠ 0)
    (late : waits (sectors.toNat + 1) (bus.input (dev.base + 7)) = none) :
    (ideReadSectors (some dev) lba sectors (some buffer) bus).1 = -1 := by
  by_cases ready : GetsReady (bus.input (dev.base + 7))
  · rw [ideReadSectors_ready someSectors ready]
    apply readSectors_fails
    rw [(start_spec _ _ dev lba sectors bus).2]
    exact waits_succ_eq_none ready late
  · rw [ideReadSectors_late someSectors ready]

/-- A read whose waits all see a ready drive. -/
theorem ideReadSectors_succeeds (dev : IDEDevice) (lba : UInt64) (buffer : Nat → UInt16)
    (bus : Bus) (someSectors : sectors ≠ 0) {pieces : List (List UInt8)} {rest : Nat → UInt8}
    (inTime : waits (sectors.toNat + 1) (bus.input (dev.base + 7)) = some (pieces, rest)) :
    (ideReadSectors (some dev) lba sectors (some buffer) bus).1 = 0 ∧
      ∃ calls, Sectors dev.base (.wordIn dev.base) pieces.tail calls ∧
        (ideReadSectors (some dev) lba sectors (some buffer) bus).2.2.log =
          bus.log ++ startCalls ideCmdReadPioExt ideCmdReadPio dev lba sectors
            (bus.input (dev.base + 7)) ++ calls := by
  obtain ⟨ready, later, found, rfl⟩ := waits_succ_eq_some inTime
  obtain ⟨log, status⟩ := start_spec ideCmdReadPioExt ideCmdReadPio dev lba sectors bus
  rw [← status] at found
  rw [ideReadSectors_ready someSectors ready, ← log]
  exact readSectors_succeeds dev.base sectors.toNat 0 buffer _ found

theorem ideWriteSectors_fails (someSectors : sectors ≠ 0)
    (late : waits (sectors.toNat + 1) (bus.input (dev.base + 7)) = none) :
    (ideWriteSectors (some dev) lba sectors (some buffer) bus).1 = -1 := by
  by_cases ready : GetsReady (bus.input (dev.base + 7))
  · rw [ideWriteSectors_ready someSectors ready]
    apply writeSectors_fails
    rw [(start_spec _ _ dev lba sectors bus).2]
    exact waits_succ_eq_none ready late
  · rw [ideWriteSectors_late someSectors ready]

/-- A write whose waits, the last one apart, all see a ready drive. -/
theorem ideWriteSectors_succeeds (dev : IDEDevice) (lba : UInt64) (buffer : Nat → UInt16)
    (bus : Bus) (someSectors : sectors ≠ 0) {pieces : List (List UInt8)} {rest : Nat → UInt8}
    (inTime : waits (sectors.toNat + 1) (bus.input (dev.base + 7)) = some (pieces, rest)) :
    (ideWriteSectors (some dev) lba sectors (some buffer) bus).1 = 0 ∧
      ∃ calls, Sectors dev.base (.wordOut dev.base) pieces.tail calls ∧
        (ideWriteSectors (some dev) lba sectors (some buffer) bus).2.log =
          bus.log ++ startCalls ideCmdWritePioExt ideCmdWritePio dev lba sectors
            (bus.input (dev.base + 7)) ++ calls ++
              .byteOut (dev.base + 7) ideCmdCacheFlush :: waitCalls dev.base (waited rest) := by
  obtain ⟨ready, later, found, rfl⟩ := waits_succ_eq_some inTime
  obtain ⟨log, status⟩ := start_spec ideCmdWritePioExt ideCmdWritePio dev lba sectors bus
  have positive : sectors.toNat ≠ 0 := fun zero => someSectors (UInt8.toNat_inj.mp zero)
  obtain ⟨fewer, count⟩ := Nat.exists_eq_succ_of_ne_zero positive
  rw [← status] at found
  rw [ideWriteSectors_ready someSectors ready, ← log]
  rw [count] at found ⊢
  exact writeSectors_succeeds dev.base fewer 0 buffer _ found

end Transfers

end NansOS.Storage
