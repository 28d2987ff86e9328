import NansOS.Storage.Words
import Mathlib.Data.Nat.Digits.Defs

/-! Owns `ide_identify`: the ports it writes its command to, the wait for the
data, and the words of the block that it takes the fields of the device from. The
texts of the model and the serial number end in local variables and are left out. -/

namespace NansOS.Storage

open NansOS.Foundation

/-! ### The function -/

/-- `struct IDEDevice` with what `ide_identify` stores. -/
structure IdentifiedDevice extends IDEDevice where
  signature : UInt16
  capabilities : UInt16
  commandsets : UInt32
  size : UInt32
deriving DecidableEq

abbrev idePrimarySeccount : UInt16 := 0x1F2
abbrev idePrimaryLbaLow : UInt16 := 0x1F3
abbrev idePrimaryLbaMid : UInt16 := 0x1F4
abbrev idePrimaryLbaHigh : UInt16 := 0x1F5
abbrev idePrimaryStatus : UInt16 := 0x1F7
abbrev idePrimaryCommand : UInt16 := 0x1F7

abbrev ideCmdIdentify : UInt8 := 0xEC

abbrev ideIdentDevicetype : Nat := 0
abbrev ideIdentCapabilities : Nat := 98
abbrev ideIdentMaxLba : Nat := 120
abbrev ideIdentCommandsets : Nat := 164
abbrev ideIdentMaxLbaExt : Nat := 200

/-- The status has `ERR` or `DRQ` set. -/
def answers (status : UInt8) : Bool := status &&& ideSrErr ≠ 0 ∨ status &&& ideSrDrq ≠ 0

/-- The loop for data or an error, from a value of `timeout`: 0 is data. -/
def identifyWaitFrom (base : UInt16) : Nat → Bus → Int32 × Bus
  | 0, bus => (-1, bus)
  | timeout + 1, bus =>
      if timeout > 0 then
        let (status, bus) := bus.portByteIn (base + idePrimaryStatus)
        if status &&& ideSrErr ≠ 0 then (-1, bus)
        else if status &&& ideSrDrq ≠ 0 then (0, bus)
        else identifyWaitFrom base timeout bus
      else (-1, bus)

/-- `*(uint32_t*)&identify_data[index]`. -/
def dwordAt (identifyData : Nat → UInt16) (index : Nat) : UInt32 :=
  (identifyData index).toUInt32 ||| ((identifyData (index + 1)).toUInt32 <<< 16)

/-- The fields from the data. -/
def decodeIdentity (identifyData : Nat → UInt16) (dev : IdentifiedDevice) : IdentifiedDevice :=
  let commandsets := dwordAt identifyData ideIdentCommandsets
  let dev :=
    { dev with
      signature := identifyData ideIdentDevicetype
      capabilities := identifyData ideIdentCapabilities
      commandsets := commandsets }
  if commandsets &&& ((1 : UInt32) <<< 26) ≠ 0 then
    { dev with
      size := dwordAt identifyData ideIdentMaxLbaExt
      useLba48 := 1 }
  else
    { dev with
      size := dwordAt identifyData ideIdentMaxLba
      useLba48 := 0 }

/-- The select and the command of `ide_identify`. -/
def sendIdentify (dev : IdentifiedDevice) (bus : Bus) : Bus :=
  let bus := ideSelectDrive dev.toIDEDevice bus
  let bus := bus.portByteOut (dev.base + idePrimarySeccount) 0
  let bus := bus.portByteOut (dev.base + idePrimaryLbaLow) 0
  let bus := bus.portByteOut (dev.base + idePrimaryLbaMid) 0
  let bus := bus.portByteOut (dev.base + idePrimaryLbaHigh) 0
  bus.portByteOut (dev.base + idePrimaryCommand) ideCmdIdentify

/-- The loop over the words of the block is that over the words of a sector. -/
def ideIdentify (dev : IdentifiedDevice) (bus : Bus) : Int32 × IdentifiedDevice × Bus :=
  let (ready, bus) := identifyWaitFrom dev.base 100000 (sendIdentify dev bus)
  if ready < 0 then (-1, dev, bus)
  else
    let (identifyData, bus) := readSector dev.base 0 (fun _ => 0) bus
    (0, decodeIdentity identifyData dev, bus)

/-! ### The layout of the block -/

/-- The number in some words of a block, the lowest first. -/
def blockValue (block : Nat → UInt16) (first count : Nat) : Nat :=
  Nat.ofDigits 65536 ((List.range count).map fun word => (block (first + word)).toNat)

/-- Bit 26 of the command sets: addresses of 48 bits. -/
def extendedAddresses (block : Nat → UInt16) : Bool := (blockValue block 82 2).testBit 26

/-- The fields have the values that the block encodes. -/
structure Encodes (block : Nat → UInt16) (dev : IdentifiedDevice) : Prop where
  commandsets : dev.commandsets.toNat = blockValue block 82 2
  useLba48 : dev.useLba48 ≠ 0 ↔ extendedAddresses block
  size : dev.size.toNat =
    if extendedAddresses block then blockValue block 100 4 else blockValue block 60 2

/-- The ports that a call accesses. -/
def PortCall.ports : PortCall → List UInt16
  | .byteIn port _ | .byteOut port _ => [port]
  | .wordIn port _ | .wordOut port _ => [port, port + 1]
  | .ioWait => [0x80]

/-- A port of the drive, or that of the delay. -/
def OwnPort (base port : UInt16) : Prop :=
  port = 0x80 ∨ ∃ offset : UInt16, offset < 8 ∧ port = base + offset

/-- The data port gives the words of a block. -/
def Presents (base : UInt16) (block : Nat → UInt16) (input : UInt16 → Nat → UInt8) : Prop :=
  ∀ word < 256, input base word = (block word).toUInt8

/-- A successful `ide_identify` keeps to the drive's ports and decodes the block. -/
def IdentifiesRight (dev : IdentifiedDevice) (input : UInt16 → Nat → UInt8) : Prop :=
  ∀ block, Presents dev.base block input → (ideIdentify dev (Bus.idle input)).1 = 0 →
    (∀ port ∈ (ideIdentify dev (Bus.idle input)).2.2.log.flatMap PortCall.ports,
      OwnPort dev.base port) ∧
    Encodes block (ideIdentify dev (Bus.idle input)).2.1

/-- The first status with `ERR` or `DRQ` within the wait has `DRQ` only. -/
def OffersData (timeout : Nat) (status : Nat → UInt8) : Prop :=
  ∃ seen ∈ polled answers timeout status, seen &&& ideSrErr = 0 ∧ seen &&& ideSrDrq ≠ 0

instance (timeout : Nat) (status : Nat → UInt8) : Decidable (OffersData timeout status) :=
  List.decidableBEx _ _

/-! ### The wait -/

/-- The bus behind the polls of the wait. -/
def Bus.pollAnswer (timeout : Nat) (base : UInt16) (bus : Bus) : Bus where
  input := Function.update bus.input (base + idePrimaryStatus)
    (behind answers timeout (bus.input (base + idePrimaryStatus)))
  log := bus.log ++ (polled answers timeout (bus.input (base + idePrimaryStatus))).map
    (.byteIn (base + idePrimaryStatus))

theorem identifyWaitFrom_spec (base : UInt16) (timeout : Nat) (bus : Bus) :
    identifyWaitFrom base (timeout + 1) bus =
      (if OffersData timeout (bus.input (base + idePrimaryStatus)) then 0 else -1,
        bus.pollAnswer timeout base) := by
  induction timeout generalizing bus with
  | zero =>
      have same : behind answers 0 (bus.input (base + idePrimaryStatus)) =
          bus.input (base + idePrimaryStatus) := advance_zero _
      rw [Bus.pollAnswer, same, Function.update_eq_self]
      simp [identifyWaitFrom, OffersData, polled]
  | succ timeout inductionHypothesis =>
      rw [identifyWaitFrom, if_pos (Nat.succ_pos _)]
      dsimp only [Bus.portByteIn, Bus.asmInb]
      by_cases failed : bus.input (base + idePrimaryStatus) 0 &&& ideSrErr = 0
      · by_cases requested : bus.input (base + idePrimaryStatus) 0 &&& ideSrDrq = 0
        · have silent : ¬ answers (bus.input (base + idePrimaryStatus) 0) = true := by
            simp [answers, failed, requested]
          rw [if_neg (by simp [failed]), if_neg (by simp [requested]), inductionHypothesis]
          simp only [Bus.pollAnswer, Bus.record_input, Function.update_self, Bus.record_log,
            Function.update_idem, polled_of_not_ready silent, behind_of_not_ready silent]
          simp [OffersData, polled_of_not_ready silent, requested]
        · have answered : answers (bus.input (base + idePrimaryStatus) 0) = true := by
            simp [answers, requested]
          rw [if_neg (by simp [failed]), if_pos requested, Bus.pollAnswer, behind_of_ready answered,
            polled_of_ready answered]
          simp [OffersData, polled_of_ready answered, failed, requested, Bus.record]
      · have answered : answers (bus.input (base + idePrimaryStatus) 0) = true := by
          simp [answers, failed]
        rw [if_pos failed, Bus.pollAnswer, behind_of_ready answered, polled_of_ready answered]
        simp [OffersData, polled_of_ready answered, failed, Bus.record]

/-! ### What a call leaves -/

section Calls

variable {dev : IdentifiedDevice} {bus : Bus}

theorem sendIdentify_input (dev : IdentifiedDevice) (bus : Bus) :
    (sendIdentify dev bus).input = bus.input := rfl

theorem supplies_pollAnswer (base : UInt16) (timeout : Nat) (bus : Bus) :
    Supplies base 0 bus (bus.pollAnswer timeout base) where
  low := by
    have apart : base ≠ base + idePrimaryStatus := by
      rw [ne_eq, UInt16.left_eq_add]
      decide
    rw [advance_zero, Bus.pollAnswer]
    dsimp only
    rw [Function.update_of_ne apart]
  high := by
    have apart : base + 1 ≠ base + idePrimaryStatus := port_ne base (by decide)
    rw [advance_zero, Bus.pollAnswer]
    dsimp only
    rw [Function.update_of_ne apart]

theorem ideIdentify_ready (offers : OffersData 99999 (bus.input (dev.base + idePrimaryStatus))) :
    ideIdentify dev bus =
      let (identifyData, after) :=
        readSector dev.base 0 (fun _ => 0) ((sendIdentify dev bus).pollAnswer 99999 dev.base)
      (0, decodeIdentity identifyData dev, after) := by
  rw [ideIdentify, identifyWaitFrom_spec, sendIdentify_input, if_pos offers]
  dsimp only
  rw [if_neg (by decide)]

theorem ideIdentify_late (late : ¬ OffersData 99999 (bus.input (dev.base + idePrimaryStatus))) :
    (ideIdentify dev bus).1 = -1 := by
  rw [ideIdentify, identifyWaitFrom_spec, sendIdentify_input, if_neg late]
  dsimp only
  rw [if_pos (by decide)]

theorem ideIdentify_zero_iff :
    (ideIdentify dev bus).1 = 0 ↔
      OffersData 99999 (bus.input (dev.base + idePrimaryStatus)) := by
  by_cases offers : OffersData 99999 (bus.input (dev.base + idePrimaryStatus))
  · rw [ideIdentify_ready offers]
    exact iff_of_true rfl offers
  · rw [ideIdentify_late offers]
    exact iff_of_false minusOne_ne_zero offers

/-- The fields come from the words that the two ports at the start of the drive's
range make. -/
theorem ideIdentify_fields (returns : (ideIdentify dev bus).1 = 0) :
    ∃ identifyData : Nat → UInt16,
      (∀ index < 256, identifyData index = wordAt dev.base bus.input index) ∧
      (ideIdentify dev bus).2.1 = decodeIdentity identifyData dev := by
  rw [ideIdentify_ready (ideIdentify_zero_iff.mp returns)]
  refine ⟨_, fun index inside => ?_, rfl⟩
  rw [(readSector_spec dev.base 0 (fun _ => 0) _).1 index, if_pos (by omega),
    (supplies_pollAnswer dev.base 99999 (sendIdentify dev bus)).wordAt, sendIdentify_input]
  congr 1
  omega

/-- The registers of the command are addressed as if the drive's range started at 0. -/
theorem ideIdentify_accesses (returns : (ideIdentify dev bus).1 = 0) {port : UInt16}
    (command : port = dev.base + idePrimarySeccount ∨ port = dev.base + idePrimaryLbaLow) :
    port ∈ (ideIdentify dev bus).2.2.log.flatMap PortCall.ports := by
  obtain ⟨calls, _, makes⟩ := readSector_makes dev.base 0 (fun _ => 0)
    ((sendIdentify dev bus).pollAnswer 99999 dev.base)
  have sent : PortCall.byteOut port 0 ∈ (sendIdentify dev bus).log := by
    cases command with
    | inl seccount => simp [sendIdentify, Bus.portByteOut, seccount]
    | inr lbaLow => simp [sendIdentify, Bus.portByteOut, lbaLow]
  rw [ideIdentify_ready (ideIdentify_zero_iff.mp returns)]
  apply List.mem_flatMap.mpr
  refine ⟨.byteOut port 0, ?_, by simp [PortCall.ports]⟩
  dsimp only
  rw [makes.log, Bus.pollAnswer]
  exact List.mem_append_left _ (List.mem_append_left _ sent)

theorem not_ownPort {base offset : UInt16} (outside : 8 ≤ offset) (delay : base + offset ≠ 0x80) :
    ¬ OwnPort base (base + offset) := by
  intro own
  cases own with
  | inl same => exact delay same
  | inr within =>
      obtain ⟨inside, small, same⟩ := within
      rw [UInt16.add_right_inj] at same
      rw [same] at outside
      exact absurd small (UInt16.not_lt.mpr outside)

theorem ideIdentify_leaves (returns : (ideIdentify dev bus).1 = 0) :
    ∃ port ∈ (ideIdentify dev bus).2.2.log.flatMap PortCall.ports, ¬ OwnPort dev.base port := by
  by_cases delay : dev.base + idePrimarySeccount = 0x80
  · refine ⟨_, ideIdentify_accesses returns (Or.inr rfl), not_ownPort (by decide) ?_⟩
    rw [← delay]
    exact port_ne dev.base (by decide)
  · exact ⟨_, ideIdentify_accesses returns (Or.inl rfl), not_ownPort (by decide) delay⟩

end Calls

/-- `ide_identify` does what it should exactly when it fails: every success has
accessed ports that are not the drive's. -/
theorem identifiesRight_iff (dev : IdentifiedDevice) (input : UInt16 → Nat → UInt8) :
    IdentifiesRight dev input ↔ ¬ OffersData 99999 (input (dev.base + idePrimaryStatus)) := by
  have returns : (ideIdentify dev (Bus.idle input)).1 = 0 ↔
      OffersData 99999 (input (dev.base + idePrimaryStatus)) := ideIdentify_zero_iff
  constructor
  · intro right offers
    have presented : Presents dev.base (fun word => (input dev.base word).toUInt16) input := by
      intro word _
      simp
    obtain ⟨port, accessed, foreign⟩ := ideIdentify_leaves (returns.mpr offers)
    exact foreign ((right _ presented (returns.mpr offers)).1 port accessed)
  · intro late block _ success
    exact absurd (returns.mp success) late

theorem offersData_const {status : UInt8} (failed : status &&& ideSrErr = 0)
    (requested : status &&& ideSrDrq ≠ 0) : OffersData 99999 fun _ => status := by
  have seen : polled answers 99999 (fun _ => status) = [status] :=
    polled_of_ready (by simp [answers, requested])
  rw [OffersData, seen]
  exact ⟨status, List.mem_singleton_self _, failed, requested⟩

/-- A device at 0x1F0 that has not been identified. -/
def unidentified : IdentifiedDevice where
  base := 0x1F0
  slave := 0
  useLba48 := 0
  signature := 0
  capabilities := 0
  commandsets := 0
  size := 0

/-- A drive at 0x1F0 whose status shows `DRQ`. -/
theorem primary_identify_leaves :
    ¬ ∀ (dev : IdentifiedDevice) (input : UInt16 → Nat → UInt8), IdentifiesRight dev input := by
  intro always
  have returns : (ideIdentify unidentified (Bus.idle fun _ _ => 0x08)).1 = 0 :=
    ideIdentify_zero_iff.mpr (offersData_const (by decide) (by decide))
  obtain ⟨port, accessed, foreign⟩ := ideIdentify_leaves returns
  exact foreign ((always unidentified _ (fun _ => 0x08) (fun _ _ => rfl) returns).1 port accessed)

end NansOS.Storage
