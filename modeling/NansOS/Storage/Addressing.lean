import NansOS.Foundation.Run
import NansOS.Foundation.Words
import NansOS.Storage.Ide
import Mathlib.Algebra.GroupWithZero.Nat

/-! Owns the address that a drive makes of the register writes of a transfer.
The drive keeps the last two bytes written to its sector count and its three
address registers; a 28-bit command takes the last byte of each and the low half
of the drive register, a 48-bit command takes both bytes of each. -/

namespace NansOS.Storage

open NansOS.Foundation

/-! ### The drive -/

/-- A register that keeps the last two bytes written to it. -/
structure TwoDeep where
  last : UInt8
  previous : UInt8
deriving DecidableEq

def TwoDeep.push (register : TwoDeep) (value : UInt8) : TwoDeep where
  last := value
  previous := register.last

/-- The registers that a command reads. -/
structure Drive where
  count : TwoDeep
  low : TwoDeep
  mid : TwoDeep
  high : TwoDeep
  device : UInt8
deriving DecidableEq

/-- How a command reads the registers. -/
inductive Mode where
  | lba28
  | lba48
deriving DecidableEq

/-- The commands that transfer sectors. -/
def transferMode (command : UInt8) : Option Mode :=
  if command = ideCmdReadPio ∨ command = ideCmdWritePio then some .lba28
  else if command = ideCmdReadPioExt ∨ command = ideCmdWritePioExt then some .lba48
  else none

/-- One byte written to a port, for a drive with its registers from `base` on. -/
def Drive.write (base : UInt16) (drive : Drive) (write : UInt16 × UInt8) : Drive :=
  if write.1 = base + 2 then { drive with count := drive.count.push write.2 }
  else if write.1 = base + 3 then { drive with low := drive.low.push write.2 }
  else if write.1 = base + 4 then { drive with mid := drive.mid.push write.2 }
  else if write.1 = base + 5 then { drive with high := drive.high.push write.2 }
  else if write.1 = base + 6 then { drive with device := write.2 }
  else drive

/-- The first sector that a command addresses. -/
def Drive.address (drive : Drive) : Mode → Nat
  | .lba28 =>
      drive.low.last.toNat + 2 ^ 8 * drive.mid.last.toNat + 2 ^ 16 * drive.high.last.toNat +
        2 ^ 24 * (drive.device.toNat % 16)
  | .lba48 =>
      drive.low.last.toNat + 2 ^ 8 * drive.mid.last.toNat + 2 ^ 16 * drive.high.last.toNat +
        2 ^ 24 * drive.low.previous.toNat + 2 ^ 32 * drive.mid.previous.toNat +
        2 ^ 40 * drive.high.previous.toNat

/-- The number of sectors that a command asks for. -/
def Drive.sectors (drive : Drive) : Mode → Nat
  | .lba28 => drive.count.last.toNat
  | .lba48 => drive.count.last.toNat + 2 ^ 8 * drive.count.previous.toNat

/-- If the write starts a transfer, the registers give this address and count. -/
def StartsAt (base : UInt16) (lba : UInt64) (sectors : UInt8) (drive : Drive)
    (write : UInt16 × UInt8) : Prop :=
  write.1 = base + 7 → ∀ mode, transferMode write.2 = some mode →
    drive.address mode = lba.toNat ∧ drive.sectors mode = sectors.toNat

/-- Every transfer that the port calls start on the drive has this address and
count. -/
structure Addressed (base : UInt16) (lba : UInt64) (sectors : UInt8) (drive : Drive)
    (log : List PortCall) : Prop where
  starts : Along (Drive.write base) (StartsAt base lba sectors) drive
    (log.flatMap PortCall.writes)

theorem addressed_iff {base : UInt16} {lba : UInt64} {sectors : UInt8} {drive : Drive}
    {log : List PortCall} :
    Addressed base lba sectors drive log ↔
      Along (Drive.write base) (StartsAt base lba sectors) drive
        (log.flatMap PortCall.writes) :=
  ⟨Addressed.starts, Addressed.mk⟩

/-! ### One write -/

section Registers

variable (base : UInt16) (drive : Drive) (value : UInt8)

theorem write_count :
    drive.write base (base + 2, value) = { drive with count := drive.count.push value } := by
  simp [Drive.write]

theorem write_low :
    drive.write base (base + 3, value) = { drive with low := drive.low.push value } := by
  simp [Drive.write]

theorem write_mid :
    drive.write base (base + 4, value) = { drive with mid := drive.mid.push value } := by
  simp [Drive.write]

theorem write_high :
    drive.write base (base + 5, value) = { drive with high := drive.high.push value } := by
  simp [Drive.write]

theorem write_device :
    drive.write base (base + 6, value) = { drive with device := value } := by
  simp [Drive.write]

end Registers

/-! ### Writes that start no transfer -/

def Quiet (base : UInt16) (write : UInt16 × UInt8) : Prop :=
  write.1 = base + 7 → transferMode write.2 = none

/-- Between two buses no transfer is started. -/
def QuietSince (base : UInt16) (before after : Bus) : Prop :=
  ∃ calls, after.log = before.log ++ calls ∧
    ∀ write ∈ calls.flatMap PortCall.writes, Quiet base write

variable {base : UInt16} {first second third : Bus}

theorem QuietSince.trans (quiet : QuietSince base first second)
    (later : QuietSince base second third) : QuietSince base first third := by
  obtain ⟨calls, log, quiet⟩ := quiet
  obtain ⟨more, longer, silent⟩ := later
  refine ⟨calls ++ more, by rw [longer, log, List.append_assoc], ?_⟩
  intro write member
  rw [List.flatMap_append] at member
  exact (List.mem_append.mp member).elim (quiet write) (silent write)

theorem quiet_of_port {write : UInt16 × UInt8} (other : write.1 ≠ base + 7) : Quiet base write :=
  fun same => absurd same other

theorem quietSince_record (bus : Bus) {call : PortCall}
    (quiet : ∀ write ∈ call.writes, Quiet base write) :
    QuietSince base bus (bus.record call) :=
  ⟨[call], rfl, by simpa using quiet⟩

theorem quiet_ioWait : ∀ write ∈ PortCall.ioWait.writes, Quiet base write := by
  intro write member
  obtain rfl := List.mem_singleton.mp member
  exact fun _ => by decide

theorem quietSince_await (bus : Bus) : QuietSince base bus (bus.await base) := by
  refine ⟨_, await_log base bus, ?_⟩
  intro write member
  obtain ⟨call, called, written⟩ := List.mem_flatMap.mp member
  rcases mem_waitCalls called with ⟨status, rfl⟩ | rfl
  · cases written
  · exact quiet_ioWait write written

/-- Calls for words at `base` touch the two lowest ports only. -/
theorem quietSince_words {word : UInt16 → PortCall} {count : Nat} {calls : List PortCall}
    (words : Words word count calls) (makes : Makes base first second calls)
    (quiet : ∀ value, ∀ write ∈ (word value).writes, Quiet base write) :
    QuietSince base first second := by
  refine ⟨calls, makes.log, ?_⟩
  intro write member
  obtain ⟨values, _, rfl⟩ := words
  obtain ⟨call, called, written⟩ := List.mem_flatMap.mp member
  obtain ⟨value, _, rfl⟩ := List.mem_map.mp called
  exact quiet value write written

theorem quiet_wordOut (value : UInt16) :
    ∀ write ∈ (PortCall.wordOut base value).writes, Quiet base write := by
  intro write member
  rcases List.mem_cons.mp member with rfl | member
  · exact quiet_of_port (base_ne_status base)
  · obtain rfl := List.mem_singleton.mp member
    exact quiet_of_port (port_ne base (by decide))

theorem quietSince_flush (base : UInt16) (bus : Bus) :
    QuietSince base bus (bus.portByteOut (base + 7) ideCmdCacheFlush) := by
  apply quietSince_record
  intro write member
  obtain rfl := List.mem_singleton.mp member
  exact fun _ => (by decide : transferMode ideCmdCacheFlush = none)

theorem quietSince_readSectors (remaining offset : Nat) (buffer : Nat → UInt16) (bus : Bus) :
    QuietSince base bus (readSectors base remaining offset buffer bus).bus := by
  induction remaining generalizing offset buffer bus with
  | zero => exact ⟨[], by simp [readSectors], by simp⟩
  | succ remaining inductionHypothesis =>
      by_cases ready : GetsReady (bus.input (base + 7))
      · rw [readSectors_ready ready]
        obtain ⟨calls, words, makes⟩ := readSector_makes base offset buffer (bus.await base)
        have sector := quietSince_words words makes fun _ _ member =>
          absurd member List.not_mem_nil
        exact ((quietSince_await bus).trans sector).trans (inductionHypothesis _ _ _)
      · rw [readSectors_late ready]
        exact quietSince_await bus

theorem quietSince_writeSectors (remaining offset : Nat) (buffer : Nat → UInt16) (bus : Bus) :
    QuietSince base bus (writeSectors base remaining offset buffer bus).2 := by
  induction remaining generalizing offset bus with
  | zero => exact ⟨[], by simp [writeSectors], by simp⟩
  | succ remaining inductionHypothesis =>
      by_cases ready : GetsReady (bus.input (base + 7))
      · rw [writeSectors_ready ready]
        obtain ⟨calls, words, makes⟩ := writeSector_makes base offset buffer (bus.await base)
        have sector := (quietSince_await bus).trans (quietSince_words words makes quiet_wordOut)
        by_cases last : remaining = 0
        · rw [if_pos last]
          have flush := quietSince_flush base (writeSector base offset buffer (bus.await base))
          exact ((sector.trans flush).trans (quietSince_await _)).trans (inductionHypothesis _ _)
        · rw [if_neg last]
          exact sector.trans (inductionHypothesis _ _)
      · rw [writeSectors_late ready]
        exact quietSince_await bus

theorem quietSince_select (dev : IDEDevice) (bus : Bus) :
    QuietSince dev.base bus (ideSelectDrive dev bus) := by
  refine QuietSince.trans (quietSince_record bus ?_) (quietSince_record _ quiet_ioWait)
  intro write member
  obtain rfl := List.mem_singleton.mp member
  exact quiet_of_port (port_ne dev.base (by decide))

/-! ### The command -/

/-- What `sendCommand` puts on the bus. -/
def commandWrites (extended plain : UInt8) (dev : IDEDevice) (lba : UInt64) (sectors : UInt8) :
    List (UInt16 × UInt8) :=
  (commandBytes extended plain dev lba sectors).map fun register =>
    (dev.base + register.1, register.2)

theorem commandCalls_writes (extended plain : UInt8) (dev : IDEDevice) (lba : UInt64)
    (sectors : UInt8) :
    (commandCalls extended plain dev lba sectors).flatMap PortCall.writes =
      commandWrites extended plain dev lba sectors := by
  rw [commandCalls, commandWrites, List.flatMap_map, List.map_eq_flatMap]
  rfl

/-- The low half of the drive register in LBA28 mode. -/
theorem device_low (slave : UInt8) (lba : UInt64) :
    ((0xE0 : UInt64) ||| (slave.toUInt64 <<< 4) ||| ((lba >>> 24) &&& 0x0F)).toUInt8.toNat % 16 =
      lba.toNat / 2 ^ 24 % 16 := by
  have fixed : UInt64.toNat 0xE0 % 2 ^ 4 = 0 := rfl
  have shifted : slave.toUInt64.toNat <<< (UInt64.toNat 4 % 64) % 2 ^ 64 % 2 ^ 4 = 0 := by
    rw [Nat.mod_mod_of_dvd _ (by decide), Nat.shiftLeft_eq]
    exact Nat.mul_mod_left _ _
  have masked : lba.toNat >>> (UInt64.toNat 24 % 64) &&& UInt64.toNat 0x0F =
      lba.toNat / 2 ^ 24 % 2 ^ 4 := by
    rw [Nat.shiftRight_eq_div_pow]
    exact Nat.and_two_pow_sub_one_eq_mod _ 4
  rw [UInt64.toNat_toUInt8, UInt64.toNat_or, UInt64.toNat_or, UInt64.toNat_and,
    UInt64.toNat_shiftLeft, UInt64.toNat_shiftRight, Nat.mod_mod_of_dvd _ (by decide),
    show 16 = 2 ^ 4 from rfl, Nat.or_mod_two_pow, Nat.or_mod_two_pow, fixed, shifted, masked,
    Nat.mod_mod]
  simp

theorem byte_of (lba shift : UInt64) (small : shift.toNat < 64) :
    (lba >>> shift).toUInt8.toNat = lba.toNat / 2 ^ shift.toNat % 256 := by
  rw [UInt64.toNat_toUInt8, Words.shift_toNat small]

/-- A write to another port starts nothing. -/
theorem startsAt_other {offset : UInt16} (other : offset ≠ 7) (lba : UInt64) (sectors : UInt8)
    (drive : Drive) (value : UInt8) : StartsAt base lba sectors drive (base + offset, value) :=
  fun same => absurd ((UInt16.add_right_inj base).mp same) other

/-- The command byte is read with the registers as they are. -/
theorem startsAt_command {command : UInt8} {mode : Mode}
    (transfers : transferMode command = some mode) (lba : UInt64) (sectors : UInt8)
    (drive : Drive) :
    StartsAt base lba sectors drive (base + 7, command) ↔
      drive.address mode = lba.toNat ∧ drive.sectors mode = sectors.toNat := by
  constructor
  · intro starts
    exact starts rfl mode transfers
  · intro right _ other same
    rw [transfers] at same
    cases same
    exact right

variable {extended plain : UInt8} {dev : IDEDevice} {lba : UInt64} {sectors : UInt8}

/-- In LBA28 mode the registers hold the address and the count. -/
theorem plain_starts (drive : Drive) (transfers : transferMode plain = some .lba28)
    (small : dev.useLba48 = 0) (inRange : lba.toNat < 2 ^ 28) :
    Along (Drive.write dev.base) (StartsAt dev.base lba sectors) drive
      (commandWrites extended plain dev lba sectors) := by
  rw [commandWrites, commandBytes, if_neg (by simpa using small)]
  simp only [List.map_cons, List.map_nil]
  refine ⟨startsAt_other (by decide) _ _ _ _, startsAt_other (by decide) _ _ _ _,
    startsAt_other (by decide) _ _ _ _, startsAt_other (by decide) _ _ _ _,
    startsAt_other (by decide) _ _ _ _, (startsAt_command transfers _ _ _).mpr ?_, trivial⟩
  simp only [write_count, write_low, write_mid, write_high, write_device, TwoDeep.push,
    Drive.address, Drive.sectors]
  have mid := byte_of lba 8 (by decide)
  have high := byte_of lba 16 (by decide)
  rw [device_low, mid, high, UInt64.toNat_toUInt8]
  refine ⟨?_, trivial⟩
  show lba.toNat % 256 + 2 ^ 8 * (lba.toNat / 2 ^ 8 % 256) +
    2 ^ 16 * (lba.toNat / 2 ^ 16 % 256) + 2 ^ 24 * (lba.toNat / 2 ^ 24 % 16) = lba.toNat
  omega

/-- In LBA48 mode the first byte of the count is read as its high half. -/
theorem extended_starts (drive : Drive) (transfers : transferMode extended = some .lba48)
    (large : dev.useLba48 ≠ 0) (someSectors : sectors ≠ 0) :
    ¬ Along (Drive.write dev.base) (StartsAt dev.base lba sectors) drive
      (commandWrites extended plain dev lba sectors) := by
  rw [commandWrites, commandBytes, if_pos large]
  simp only [List.map_cons, List.map_nil, Along, write_count, write_low, write_mid, write_high]
  rintro ⟨_, _, _, _, _, _, _, starts, _⟩
  have count := ((startsAt_command transfers _ _ _).mp starts).2
  have positive : sectors.toNat ≠ 0 := fun zero => someSectors (UInt8.toNat_inj.mp zero)
  simp only [TwoDeep.push, Drive.sectors] at count
  omega

/-! ### A transfer -/

theorem along_quiet {writes : List (UInt16 × UInt8)} (quiet : ∀ write ∈ writes, Quiet base write)
    (lba : UInt64) (sectors : UInt8) (drive : Drive) :
    Along (Drive.write base) (StartsAt base lba sectors) drive writes := by
  apply (along_of_forall quiet).imp
  intro drive write silent same mode transfers
  rw [silent same] at transfers
  cases transfers

theorem addressed_quiet {input : UInt16 → Nat → UInt8} {bus : Bus}
    (quiet : QuietSince base (Bus.idle input) bus) (drive : Drive) :
    Addressed base lba sectors drive bus.log := by
  obtain ⟨calls, log, silent⟩ := quiet
  rw [addressed_iff, log]
  exact along_quiet silent lba sectors drive

/-- The command decides whether a transfer starts where it should. -/
theorem addressed_command {input : UInt16 → Nat → UInt8} {before after : Bus}
    (first : transferMode extended = some .lba48) (second : transferMode plain = some .lba28)
    (someSectors : sectors ≠ 0)
    (inRange : lba.toNat < if dev.useLba48 = 0 then 2 ^ 28 else 2 ^ 48)
    (quiet : QuietSince dev.base (Bus.idle input) before)
    (later : QuietSince dev.base (sendCommand extended plain dev lba sectors before) after)
    (drive : Drive) :
    Addressed dev.base lba sectors drive after.log ↔ dev.useLba48 = 0 := by
  obtain ⟨calls, log, silent⟩ := quiet
  have sent := (sendCommand_makes extended plain dev lba sectors before).log
  obtain ⟨rest, ends, still⟩ := later
  rw [addressed_iff, ends, sent, log, List.flatMap_append, List.flatMap_append,
    commandCalls_writes, along_append, along_append]
  constructor
  · rintro ⟨⟨_, starts⟩, _⟩
    by_contra large
    exact extended_starts _ first large someSectors starts
  · intro small
    rw [if_pos small] at inRange
    exact ⟨⟨along_quiet silent lba sectors drive, plain_starts _ second small inRange⟩,
      along_quiet still lba sectors _⟩

theorem quietSince_start (dev : IDEDevice) (bus : Bus) :
    QuietSince dev.base bus ((ideSelectDrive dev bus).await dev.base) :=
  (quietSince_select dev bus).trans (quietSince_await _)

theorem read_addressed_iff (dev : IDEDevice) (buffer : Nat → UInt16)
    (input : UInt16 → Nat → UInt8) (drive : Drive) (someSectors : sectors ≠ 0)
    (inRange : lba.toNat < if dev.useLba48 = 0 then 2 ^ 28 else 2 ^ 48) :
    Addressed dev.base lba sectors drive
        (ideReadSectors (some dev) lba sectors (some buffer) (Bus.idle input)).2.2.log ↔
      dev.useLba48 = 0 ∨ ¬ GetsReady (input (dev.base + 7)) := by
  by_cases ready : GetsReady (input (dev.base + 7))
  · rw [ideReadSectors_ready someSectors ready]
    exact (addressed_command rfl rfl someSectors inRange (quietSince_start dev _)
      (quietSince_readSectors _ _ _ _) drive).trans (or_iff_left (not_not.mpr ready)).symm
  · rw [ideReadSectors_late someSectors ready]
    exact iff_of_true (addressed_quiet (quietSince_start dev _) drive) (Or.inr ready)

theorem write_addressed_iff (dev : IDEDevice) (buffer : Nat → UInt16)
    (input : UInt16 → Nat → UInt8) (drive : Drive) (someSectors : sectors ≠ 0)
    (inRange : lba.toNat < if dev.useLba48 = 0 then 2 ^ 28 else 2 ^ 48) :
    Addressed dev.base lba sectors drive
        (ideWriteSectors (some dev) lba sectors (some buffer) (Bus.idle input)).2.log ↔
      dev.useLba48 = 0 ∨ ¬ GetsReady (input (dev.base + 7)) := by
  by_cases ready : GetsReady (input (dev.base + 7))
  · rw [ideWriteSectors_ready someSectors ready]
    exact (addressed_command rfl rfl someSectors inRange (quietSince_start dev _)
      (quietSince_writeSectors _ _ _ _) drive).trans (or_iff_left (not_not.mpr ready)).symm
  · rw [ideWriteSectors_late someSectors ready]
    exact iff_of_true (addressed_quiet (quietSince_start dev _) drive) (Or.inr ready)

/-- Whatever the drive answers and held before, its registers give the address
and the count of the transfer exactly in LBA28 mode, or when the drive does not
get ready and no command is sent. -/
theorem address_decodes_iff (dev : IDEDevice) (lba : UInt64) (sectors : UInt8)
    (buffer : Nat → UInt16) (input : UInt16 → Nat → UInt8) (drive : Drive)
    (someSectors : sectors ≠ 0)
    (inRange : lba.toNat < if dev.useLba48 = 0 then 2 ^ 28 else 2 ^ 48) :
    (Addressed dev.base lba sectors drive
        (ideReadSectors (some dev) lba sectors (some buffer) (Bus.idle input)).2.2.log ↔
      dev.useLba48 = 0 ∨ ¬ GetsReady (input (dev.base + 7))) ∧
    (Addressed dev.base lba sectors drive
        (ideWriteSectors (some dev) lba sectors (some buffer) (Bus.idle input)).2.log ↔
      dev.useLba48 = 0 ∨ ¬ GetsReady (input (dev.base + 7))) :=
  ⟨read_addressed_iff dev buffer input drive someSectors inRange,
    write_addressed_iff dev buffer input drive someSectors inRange⟩

/-- The first drive of the first controller. -/
def primaryMaster (useLba48 : UInt8) : IDEDevice where
  base := 0x1F0
  slave := 0
  useLba48 := useLba48

/-- The registers after a reset. -/
def Drive.zero : Drive := ⟨⟨0, 0⟩, ⟨0, 0⟩, ⟨0, 0⟩, ⟨0, 0⟩, 0⟩

/-- The last 28-bit address, seven sectors, a drive that is ready at once. -/
theorem lastAddress_decodes :
    (7 : UInt8) ≠ 0 ∧ (0xFFFFFFF : UInt64).toNat < 2 ^ 28 ∧
      Addressed (primaryMaster 0).base 0xFFFFFFF 7 Drive.zero
        (ideReadSectors (some (primaryMaster 0)) 0xFFFFFFF 7 (some fun _ => 0)
          (Bus.idle fun _ _ => 0x48)).2.2.log :=
  ⟨by decide, by decide,
    (address_decodes_iff (primaryMaster 0) 0xFFFFFFF 7 (fun _ => 0) (fun _ _ => 0x48) Drive.zero
      (by decide) (by decide)).1.mpr (Or.inl rfl)⟩

/-- One sector at address 0 in LBA48 mode is read as 256 sectors. -/
theorem extended_count_wrong :
    ¬ ∀ (dev : IDEDevice) (lba : UInt64) (sectors : UInt8) (drive : Drive)
        (input : UInt16 → Nat → UInt8), sectors ≠ 0 →
        (lba.toNat < if dev.useLba48 = 0 then 2 ^ 28 else 2 ^ 48) →
        Addressed dev.base lba sectors drive
          (ideReadSectors (some dev) lba sectors (some fun _ => 0) (Bus.idle input)).2.2.log := by
  intro always
  have decodes := always (primaryMaster 1) 0 1 Drive.zero (fun _ _ => 0x40) (by decide) (by decide)
  have ready : GetsReady fun _ => (0x40 : UInt8) := inTime_of_ready (by decide)
  obtain small | late :=
    (read_addressed_iff (primaryMaster 1) _ _ Drive.zero (by decide) (by decide)).mp decodes
  · exact absurd small (by decide)
  · exact late ready

end NansOS.Storage
