import NansOS.Storage.Addressing
import NansOS.Storage.Identify

/-! Owns the devices that `ide_init_device` sets up, and the calls of their
operations: the functions behind `read_sectors` and `write_sectors` take the
storage device for an IDE device and the low byte of the count. -/

namespace NansOS.Storage

open NansOS.Foundation

/-! ### Devices and their operations -/

/-- The hooks of `struct StorageDeviceOps` that transfer sectors. A device is given
to them by the bytes at its address. -/
structure SectorOps where
  readSectors : (Nat → UInt8) → UInt64 → UInt32 → Option (Nat → UInt16) → Bus →
    Int32 × Option (Nat → UInt16) × Bus
  writeSectors : (Nat → UInt8) → UInt64 → UInt32 → Option (Nat → UInt16) → Bus → Int32 × Bus

/-- What `struct StorageDevice` holds of an IDE device. It starts with the bytes of
`info.name`. -/
structure IdeStorageDevice where
  name : Nat → UInt8
  type : UInt32
  flags : UInt32
  sectorSize : UInt32
  maxTransfer : UInt32
  ops : SectorOps
  privateData : IdentifiedDevice

/-- The fields of `struct IDEDevice` in the bytes at an address. -/
def ideDeviceAt (bytes : Nat → UInt8) : IDEDevice where
  base := wordOf (bytes 0) (bytes 1)
  slave := bytes 6
  useLba48 := bytes 7

/-- `ide_ops`: a count of 32 bits arrives in a parameter of 8. -/
def ideOps : SectorOps where
  readSectors := fun dev lba count buffer bus =>
    ideReadSectors (some (ideDeviceAt dev)) lba count.toUInt8 buffer bus
  writeSectors := fun dev lba count buffer bus =>
    ideWriteSectors (some (ideDeviceAt dev)) lba count.toUInt8 buffer bus

/-- `strcpy` over the bytes at an address. -/
def strcpy (bytes : Nat → UInt8) (text : List UInt8) : Nat → UInt8 :=
  fun index => (text ++ [0]).getD index (bytes index)

/-- `"ide0"`. -/
abbrev ide0 : List UInt8 := [0x69, 0x64, 0x65, 0x30]

/-- `"ide1"`. -/
abbrev ide1 : List UInt8 := [0x69, 0x64, 0x65, 0x31]

abbrev storageTypeIde : UInt32 := 1

/-- The two structures come from `malloc` with what they hold, or do not come. Serial
output is left out. -/
def ideInitDevice (base : UInt16) (slave : UInt8) (memory : Option (Nat → UInt8))
    (fresh : Option IdentifiedDevice) (bus : Bus) : Option IdeStorageDevice × Bus :=
  match memory, fresh with
  | some memory, some fresh =>
      let ideDev := { fresh with
        base := base
        slave := slave
        useLba48 := 0 }
      let (result, ideDev, bus) := ideIdentify ideDev bus
      if result ≠ 0 then (none, bus)
      else
        (some
          { name := strcpy memory (if slave ≠ 0 then ide1 else ide0)
            type := storageTypeIde
            flags := 0
            sectorSize := 512
            maxTransfer := 256
            ops := ideOps
            privateData := ideDev }, bus)
  | _, _ => (none, bus)

/-- A device that `ide_init_device` has returned. -/
structure InitializedDevice where
  device : IdeStorageDevice
  made : ∃ base slave memory fresh bus,
    (ideInitDevice base slave memory fresh bus).1 = some device

/-- A call for a word at the data port. -/
def PortCall.atData (base : UInt16) : PortCall → Bool
  | .wordIn port _ | .wordOut port _ => port = base
  | .byteIn _ _ | .byteOut _ _ | .ioWait => false

/-- What a call with a count of sectors returned and did to a device: a return of 0
has moved that many sectors, and no count up to `max_transfer` is turned down
before the first access of a port. -/
structure CountKept (dev : IdeStorageDevice) (count : UInt32) (result : Int32)
    (calls : List PortCall) : Prop where
  moved : result = 0 → calls.countP (PortCall.atData dev.privateData.base) = 256 * count.toNat
  accepted : 1 ≤ count.toNat → count.toNat ≤ dev.maxTransfer.toNat →
    ¬ (result = -1 ∧ calls = [])

/-- The port that the first letters of the name, `id`, make. -/
abbrev namePort : UInt16 := 0x6469

/-- 256 is not asked for, and either the ports at 0x6469 do not get ready, or the
device is there and the count fits a byte. -/
def KeepsCount (dev : IdeStorageDevice) (count : UInt32) (input : UInt16 → Nat → UInt8) : Prop :=
  count.toNat ≠ 256 ∧
    (GivesUp count.toUInt8 (input (namePort + 7)) ∨
      dev.privateData.base = namePort ∧ count.toNat < 256)

/-! ### Devices that have been set up -/

theorem made_fields (initialized : InitializedDevice) :
    (ideDeviceAt initialized.device.name).base = namePort ∧
      initialized.device.maxTransfer = 256 ∧ initialized.device.ops = ideOps := by
  obtain ⟨device, base, slave, memory, fresh, bus, made⟩ := initialized
  dsimp only
  unfold ideInitDevice at made
  split at made
  · dsimp only at made
    split at made
    · cases made
    · rw [Option.some.injEq] at made
      rw [← made]
      refine ⟨?_, rfl, rfl⟩
      by_cases second : slave ≠ 0
      · simp [ideDeviceAt, strcpy, second]
        decide
      · simp [ideDeviceAt, strcpy, second]
        decide
  · cases made

/-- A drive that offers its data is set up. -/
theorem ideInitDevice_returns (base : UInt16) (slave : UInt8) (memory : Nat → UInt8)
    (fresh : IdentifiedDevice) {bus : Bus}
    (offers : OffersData 99999 (bus.input (base + idePrimaryStatus))) :
    ∃ device, (ideInitDevice base slave (some memory) (some fresh) bus).1 = some device := by
  have identified : (ideIdentify { fresh with
      base := base
      slave := slave
      useLba48 := 0 } bus).1 = 0 := ideIdentify_zero_iff.mpr offers
  rw [ideInitDevice]
  dsimp only
  rw [if_neg (by rw [identified]; simp)]
  exact ⟨_, rfl⟩

/-! ### Words at the data port -/

theorem countP_of_no_word {calls : List PortCall} (base : UInt16)
    (none : ∀ call ∈ calls, call.atData base = false) :
    calls.countP (PortCall.atData base) = 0 :=
  List.countP_eq_zero.mpr fun call member => by simp [none call member]

theorem countP_waitCalls (base other : UInt16) (seen : List UInt8) :
    (waitCalls other seen).countP (PortCall.atData base) = 0 := by
  apply countP_of_no_word
  intro call member
  obtain ⟨status, _, either⟩ := List.mem_flatMap.mp member
  cases List.mem_cons.mp either with
  | inl same => rw [same]; rfl
  | inr waiting =>
      by_cases ready : driveReady status = true
      · rw [if_pos ready] at waiting
        cases waiting
      · rw [if_neg ready, List.mem_singleton] at waiting
        rw [waiting]
        rfl

theorem countP_startCalls (base : UInt16) (extended plain : UInt8) (dev : IDEDevice)
    (lba : UInt64) (sectors : UInt8) (status : Nat → UInt8) :
    (startCalls extended plain dev lba sectors status).countP (PortCall.atData base) = 0 := by
  have command :
      (commandCalls extended plain dev lba sectors).countP (PortCall.atData base) = 0 := by
    apply countP_of_no_word
    intro call member
    obtain ⟨register, _, same⟩ := List.mem_map.mp member
    rw [← same]
    rfl
  rw [startCalls, List.countP_append, List.countP_append, countP_waitCalls, command]
  rfl

/-- A call for a word at a port. -/
def WordAtPort (port : UInt16) (word : UInt16 → PortCall) : Prop :=
  ∀ base value, (word value).atData base = decide (port = base)

theorem countP_sectors (base : UInt16) {port : UInt16} {word : UInt16 → PortCall}
    (atPort : WordAtPort port word) {pieces : List (List UInt8)} {calls : List PortCall}
    (made : Sectors port word pieces calls) :
    calls.countP (PortCall.atData base) = if port = base then 256 * pieces.length else 0 := by
  induction made with
  | nil => simp
  | @cons seen pieces sector calls words later inductionHypothesis =>
      obtain ⟨values, length, rfl⟩ := words
      have sector : (values.map word).countP (PortCall.atData base) =
          if port = base then 256 else 0 := by
        rw [List.countP_map]
        by_cases same : port = base
        · rw [if_pos same, ← length, List.countP_eq_length]
          intro value _
          simp [atPort base value, same]
        · rw [if_neg same, List.countP_eq_zero]
          intro value _
          simp [atPort base value, same]
      rw [List.countP_append, List.countP_append, countP_waitCalls, sector, inductionHypothesis,
        List.length_cons]
      by_cases same : port = base
      · simp only [if_pos same]
        omega
      · simp only [if_neg same]

/-! ### Calls that are not turned down -/

section Calls

variable {dev : IDEDevice} {lba : UInt64} {sectors : UInt8} {buffer : Nat → UInt16}
  {input : UInt16 → Nat → UInt8}

theorem log_ne_nil {before after : Bus} {base : UInt16} (accessed : before.log ≠ [])
    (later : QuietSince base before after) : after.log ≠ [] := by
  obtain ⟨calls, log, _⟩ := later
  rw [log]
  exact List.append_ne_nil_of_left_ne_nil accessed calls

theorem select_log_ne_nil (dev : IDEDevice) (bus : Bus) : (ideSelectDrive dev bus).log ≠ [] := by
  simp [ideSelectDrive, Bus.portByteOut, Bus.portIoWait]

theorem started_log_ne_nil (extended plain : UInt8) (dev : IDEDevice) (lba : UInt64)
    (sectors : UInt8) (bus : Bus) :
    (sendCommand extended plain dev lba sectors
      ((ideSelectDrive dev bus).await dev.base)).log ≠ [] := by
  rw [(start_spec extended plain dev lba sectors bus).1]
  simp [startCalls]

/-- Only a transfer of no sector ends before the first access. -/
theorem turned_down_iff {result : Int32} {calls : List PortCall}
    (empty : sectors = 0 → result = -1 ∧ calls = []) (accessed : sectors ≠ 0 → calls ≠ []) :
    result = -1 ∧ calls = [] ↔ sectors = 0 := by
  constructor
  · intro down
    by_contra someSectors
    exact accessed someSectors down.2
  · exact empty

theorem read_turned_down_iff :
    ((ideReadSectors (some dev) lba sectors (some buffer) (Bus.idle input)).1 = -1 ∧
        (ideReadSectors (some dev) lba sectors (some buffer) (Bus.idle input)).2.2.log = []) ↔
      sectors = 0 := by
  apply turned_down_iff
  · intro none
    rw [ideReadSectors, if_pos none]
    exact ⟨rfl, rfl⟩
  · intro someSectors
    by_cases ready : GetsReady (input (dev.base + 7))
    · rw [ideReadSectors_ready someSectors ready]
      exact log_ne_nil (started_log_ne_nil _ _ dev lba sectors _) (quietSince_readSectors _ _ _ _)
    · rw [ideReadSectors_late someSectors ready]
      exact log_ne_nil (select_log_ne_nil dev _) (quietSince_await _)

theorem write_turned_down_iff :
    ((ideWriteSectors (some dev) lba sectors (some buffer) (Bus.idle input)).1 = -1 ∧
        (ideWriteSectors (some dev) lba sectors (some buffer) (Bus.idle input)).2.log = []) ↔
      sectors = 0 := by
  apply turned_down_iff
  · intro none
    rw [ideWriteSectors, if_pos none]
    exact ⟨rfl, rfl⟩
  · intro someSectors
    by_cases ready : GetsReady (input (dev.base + 7))
    · rw [ideWriteSectors_ready someSectors ready]
      exact log_ne_nil (started_log_ne_nil _ _ dev lba sectors _) (quietSince_writeSectors _ _ _ _)
    · rw [ideWriteSectors_late someSectors ready]
      exact log_ne_nil (select_log_ne_nil dev _) (quietSince_await _)

/-- The waits of a transfer that does not give up. -/
theorem waits_of_goesOn {status : Nat → UInt8} (goesOn : ¬ GivesUp sectors status) :
    sectors ≠ 0 ∧ ∃ pieces rest, waits (sectors.toNat + 1) status = some (pieces, rest) ∧
      pieces.tail.length = sectors.toNat := by
  rw [GivesUp, not_or] at goesOn
  obtain ⟨⟨pieces, rest⟩, inTime⟩ := Option.ne_none_iff_exists'.mp goesOn.2
  refine ⟨goesOn.1, pieces, rest, inTime, ?_⟩
  rw [List.length_tail, length_of_polls inTime, Nat.add_sub_cancel]

theorem read_moves (base : UInt16)
    (returns : (ideReadSectors (some dev) lba sectors (some buffer) (Bus.idle input)).1 = 0) :
    (ideReadSectors (some dev) lba sectors (some buffer) (Bus.idle input)).2.2.log.countP
        (PortCall.atData base) =
      if dev.base = base then 256 * sectors.toNat else 0 := by
  obtain ⟨someSectors, pieces, rest, inTime, count⟩ :=
    waits_of_goesOn (ideReadSectors_zero_iff.mp returns)
  obtain ⟨_, calls, made, log⟩ :=
    ideReadSectors_succeeds dev lba buffer (Bus.idle input) someSectors inTime
  have sectors := countP_sectors base (fun _ _ => rfl) made
  rw [log, List.countP_append, List.countP_append, countP_startCalls, sectors, count]
  simp

theorem write_moves (base : UInt16)
    (returns : (ideWriteSectors (some dev) lba sectors (some buffer) (Bus.idle input)).1 = 0) :
    (ideWriteSectors (some dev) lba sectors (some buffer) (Bus.idle input)).2.log.countP
        (PortCall.atData base) =
      if dev.base = base then 256 * sectors.toNat else 0 := by
  obtain ⟨someSectors, pieces, rest, inTime, count⟩ :=
    waits_of_goesOn (ideWriteSectors_zero_iff.mp returns)
  obtain ⟨_, calls, made, log⟩ :=
    ideWriteSectors_succeeds dev lba buffer (Bus.idle input) someSectors inTime
  have sectors := countP_sectors base (fun _ _ => rfl) made
  have flush := countP_waitCalls base dev.base (waited rest)
  rw [log, List.countP_append, List.countP_append, List.countP_append, List.countP_cons,
    countP_startCalls, sectors, count, flush]
  simp [PortCall.atData]

end Calls

/-! ### The calls of the operations -/

/-- One argument for both operations, from what each of them returns and accesses. -/
theorem countKept_iff (initialized : InitializedDevice) (count : UInt32)
    (input : UInt16 → Nat → UInt8) {result : Int32} {calls : List PortCall}
    (zero : result = 0 ↔ ¬ GivesUp count.toUInt8 (input (namePort + 7)))
    (moves : result = 0 →
      calls.countP (PortCall.atData initialized.device.privateData.base) =
        if namePort = initialized.device.privateData.base then 256 * count.toUInt8.toNat else 0)
    (down : result = -1 ∧ calls = [] ↔ count.toUInt8 = 0) :
    CountKept initialized.device count result calls ↔
      KeepsCount initialized.device count input := by
  have low : count.toUInt8.toNat = count.toNat % 256 := UInt32.toNat_toUInt8 count
  have none : count.toUInt8 = 0 ↔ count.toNat % 256 = 0 := by
    rw [← UInt8.toNat_inj, low]
    rfl
  have most : initialized.device.maxTransfer.toNat = 256 := by
    rw [(made_fields initialized).2.1]
    rfl
  have accepted : (1 ≤ count.toNat → count.toNat ≤ initialized.device.maxTransfer.toNat →
      ¬ (result = -1 ∧ calls = [])) ↔ count.toNat ≠ 256 := by
    rw [down, none, most]
    omega
  have moved : (result = 0 →
      calls.countP (PortCall.atData initialized.device.privateData.base) = 256 * count.toNat) ↔
      GivesUp count.toUInt8 (input (namePort + 7)) ∨
        initialized.device.privateData.base = namePort ∧ count.toNat < 256 := by
    by_cases givesUp : GivesUp count.toUInt8 (input (namePort + 7))
    · exact iff_of_true (fun success => absurd givesUp (zero.mp success)) (Or.inl givesUp)
    · have success := zero.mpr givesUp
      have positive : count.toNat % 256 ≠ 0 := fun empty => givesUp (Or.inl (none.mpr empty))
      rw [forall_prop_of_true success, or_iff_right givesUp, moves success, low]
      by_cases there : namePort = initialized.device.privateData.base
      · rw [if_pos there]
        constructor
        · intro same
          exact ⟨there.symm, by omega⟩
        · intro fits
          omega
      · rw [if_neg there]
        constructor
        · intro same
          omega
        · intro fits
          exact absurd fits.1.symm there
  rw [KeepsCount, ← accepted, ← moved]
  exact ⟨fun kept => ⟨kept.accepted, kept.moved⟩, fun kept => ⟨kept.2, kept.1⟩⟩

/-- For every device that `ide_init_device` returns, every address, every count and
whatever the ports answer, the count of sectors survives the call of an operation
exactly when it is not 256 and the ports that the name stands for do not get ready,
or are the device's own and the count fits a byte. -/
theorem counts_survive_iff (initialized : InitializedDevice) (lba : UInt64) (count : UInt32)
    (buffer : Nat → UInt16) (input : UInt16 → Nat → UInt8) :
    (CountKept initialized.device count
        (initialized.device.ops.readSectors initialized.device.name lba count (some buffer)
          (Bus.idle input)).1
        (initialized.device.ops.readSectors initialized.device.name lba count (some buffer)
          (Bus.idle input)).2.2.log ↔
      KeepsCount initialized.device count input) ∧
    (CountKept initialized.device count
        (initialized.device.ops.writeSectors initialized.device.name lba count (some buffer)
          (Bus.idle input)).1
        (initialized.device.ops.writeSectors initialized.device.name lba count (some buffer)
          (Bus.idle input)).2.log ↔
      KeepsCount initialized.device count input) := by
  obtain ⟨base, _, ops⟩ := made_fields initialized
  rw [ops]
  constructor
  · apply countKept_iff
    · rw [← base]
      exact ideReadSectors_zero_iff
    · rw [← base]
      exact read_moves _
    · exact read_turned_down_iff
  · apply countKept_iff
    · rw [← base]
      exact ideWriteSectors_zero_iff
    · rw [← base]
      exact write_moves _
    · exact write_turned_down_iff

/-- 256 sectors, the most that a device says it can transfer, are none. -/
theorem full_transfer_turned_down :
    ¬ ∀ (initialized : InitializedDevice) (lba : UInt64) (count : UInt32)
        (buffer : Nat → UInt16) (input : UInt16 → Nat → UInt8),
        CountKept initialized.device count
          (initialized.device.ops.readSectors initialized.device.name lba count (some buffer)
            (Bus.idle input)).1
          (initialized.device.ops.readSectors initialized.device.name lba count (some buffer)
            (Bus.idle input)).2.2.log := by
  intro always
  have offers : OffersData 99999 ((Bus.idle fun _ _ => 0x08).input (0x1F0 + idePrimaryStatus)) :=
    offersData_const (by decide) (by decide)
  obtain ⟨device, made⟩ := ideInitDevice_returns 0x1F0 0 (fun _ => 0) unidentified offers
  let initialized : InitializedDevice := ⟨device, _, _, _, _, _, made⟩
  obtain ⟨_, most, ops⟩ := made_fields initialized
  have kept := always initialized 0 256 (fun _ => 0) fun _ _ => 0x08
  rw [ops] at kept
  apply kept.accepted (by decide) (by rw [most])
  exact read_turned_down_iff.mpr (by decide)

end NansOS.Storage
