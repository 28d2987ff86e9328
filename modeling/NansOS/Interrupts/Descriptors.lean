import NansOS.Foundation.Memory
import NansOS.Foundation.Words
import NansOS.Interrupts.Handlers

/-! Owns the interrupt descriptor table as bytes: what `idt_set_entry` stores, what
the processor reads through the table register, and that the bytes `idt_init`
leaves are the table of handlers. The address of a handler is whatever the linker
gives it. -/

namespace NansOS.Interrupts

open NansOS.Foundation

/-! ### Entries -/

/-- The size of `struct IDTEntry`, which is packed. -/
abbrev entrySize : Nat := 16

/-- `IDT_ENTRIES`. -/
abbrev idtEntries : Nat := 256

/-- `idt_set_entry`, with the table at `idt`. -/
def idtSetEntry (memory : Memory) (idt : Nat) (vector : UInt8) (isr : UInt64) (flags : UInt8) :
    Memory :=
  let entry := idt + entrySize * vector.toNat
  let memory := memory.store entry 2 (isr &&& 0xFFFF).toNat
  let memory := memory.store (entry + 2) 2 0x08
  let memory := memory.store (entry + 4) 1 0
  let memory := memory.store (entry + 5) 1 flags.toNat
  let memory := memory.store (entry + 6) 2 ((isr >>> 16) &&& 0xFFFF).toNat
  let memory := memory.store (entry + 8) 4 ((isr >>> 32) &&& 0xFFFFFFFF).toNat
  memory.store (entry + 12) 4 0

/-- What the processor takes from an entry. -/
@[ext]
structure Gate where
  offset : Nat
  selector : Nat
  stackTable : Nat
  attributes : Nat
deriving DecidableEq

/-- The gate of a vector, in the table at `idt`. -/
def gateAt (memory : Memory) (idt vector : Nat) : Gate where
  offset := memory.load (idt + entrySize * vector) 2 +
    memory.load (idt + entrySize * vector + 6) 2 * 2 ^ 16 +
    memory.load (idt + entrySize * vector + 8) 4 * 2 ^ 32
  selector := memory.load (idt + entrySize * vector + 2) 2
  stackTable := memory.load (idt + entrySize * vector + 4) 1
  attributes := memory.load (idt + entrySize * vector + 5) 1

/-- The attributes of a present interrupt gate for ring 0. -/
abbrev idtInterruptGate : UInt8 := 0x8E

/-- The gate to a handler that interrupts nothing else: in the kernel's code
segment, on the same stack, with interrupts off. -/
def interruptGate (isr : UInt64) : Gate where
  offset := isr.toNat
  selector := 0x08
  stackTable := 0
  attributes := 0x8E

/-- Everything outside one entry. -/
theorem idtSetEntry_eqOn (memory : Memory) (idt : Nat) (vector : UInt8) (isr : UInt64)
    (flags : UInt8) :
    Set.EqOn (idtSetEntry memory idt vector isr flags) memory
      (Set.Ico (idt + entrySize * vector.toNat) (idt + entrySize * vector.toNat + entrySize))ᶜ := by
  intro target outside
  have outside : ¬ (idt + 16 * vector.toNat ≤ target ∧ target < idt + 16 * vector.toNat + 16) :=
    outside
  simp only [idtSetEntry, entrySize, Memory.store]
  repeat rw [if_neg (by omega)]

/-- The parts that an address is split into. -/
structure AddressParts (isr : UInt64) : Prop where
  low : (isr &&& 0xFFFF).toNat = isr.toNat % 256 ^ 2
  middle : ((isr >>> 16) &&& 0xFFFF).toNat = isr.toNat / 256 ^ 2 % 256 ^ 2
  high : ((isr >>> 32) &&& 0xFFFFFFFF).toNat = isr.toNat / 256 ^ 4 % 256 ^ 4

theorem addressParts (isr : UInt64) : AddressParts isr where
  low := Words.and_mask_toNat 16 rfl
  middle := by
    rw [Words.and_mask_toNat 16 rfl, Words.shift_toNat (by decide)]
    rfl
  high := by
    rw [Words.and_mask_toNat 32 rfl, Words.shift_toNat (by decide)]
    rfl

/-- What has been set is what the processor takes. -/
theorem gateAt_idtSetEntry_same (memory : Memory) (idt : Nat) (vector : UInt8) (isr : UInt64) :
    gateAt (idtSetEntry memory idt vector isr idtInterruptGate) idt vector.toNat =
      interruptGate isr := by
  have bound := isr.toNat_lt
  have whole : isr.toNat % 256 ^ 2 + isr.toNat / 256 ^ 2 % 256 ^ 2 * 2 ^ 16 +
      isr.toNat / 256 ^ 4 % 256 ^ 4 * 2 ^ 32 = isr.toNat := by
    omega
  simp (disch := omega) only [gateAt, interruptGate, idtSetEntry, Memory.load_store_disjoint,
    Memory.load_store_same, (addressParts isr).low, (addressParts isr).middle,
    (addressParts isr).high, Nat.mod_mod, whole]
  rfl

/-- The other entries are as they were. -/
theorem gateAt_idtSetEntry_other (memory : Memory) (idt : Nat) {vector : UInt8} (isr : UInt64)
    (flags : UInt8) {other : Nat} (apart : other ≠ vector.toNat) :
    gateAt (idtSetEntry memory idt vector isr flags) idt other = gateAt memory idt other := by
  have same : ∀ offset width, offset + width ≤ 16 →
      (idtSetEntry memory idt vector isr flags).load (idt + entrySize * other + offset) width =
        memory.load (idt + entrySize * other + offset) width := by
    intro offset width inside
    apply Memory.load_congr
    apply (idtSetEntry_eqOn memory idt vector isr flags).mono
    rintro target ⟨lower, upper⟩ ⟨first, last⟩
    simp only [entrySize] at lower upper first last
    omega
  have head := same 0 2 (by decide)
  rw [Nat.add_zero] at head
  simp only [gateAt, head, same 6 2 (by decide), same 8 4 (by decide), same 2 2 (by decide),
    same 4 1 (by decide), same 5 1 (by decide)]

/-! ### The table -/

/-- The entries that `idt_init` sets behind its loop, in order. -/
def idtHandlers : List (UInt8 × Isr) :=
  [(0, isrDivideByZero), (1, isrDebug), (2, isrNmi), (3, isrBreakpoint), (4, isrOverflow),
    (5, isrBoundRange), (6, isrInvalidOpcode), (7, isrDeviceNotAvailable), (8, isrDoubleFault),
    (10, isrInvalidTss), (11, isrSegmentNotPresent), (12, isrStackSegment),
    (13, isrGeneralProtection), (14, isrPageFaultHandler), (16, isrFpuFault),
    (17, isrAlignmentCheck), (18, isrMachineCheck), (19, isrSimdException),
    (20, isrVirtualizationException), (32, isrTimer), (33, isrKeyboard), (34, isrCascade),
    (35, isrCom2), (36, isrCom1), (37, isrLpt2), (38, isrFloppy), (39, isrLpt1), (40, isrRtc),
    (41, isrIrq9), (42, isrIrq10), (43, isrIrq11), (44, isrMouse), (45, isrCoproc),
    (46, isrPrimaryAta), (47, isrSecondaryAta)]

/-- All entries that `idt_init` sets, in order. -/
def idtSettings : List (UInt8 × Isr) :=
  (List.range idtEntries).map (fun i => (UInt8.ofNat i, isrDefaultHandler)) ++ idtHandlers

/-- The entries set one after the other; `symbol` gives the address of each
handler. -/
def setEntries (symbol : Isr → UInt64) (idt : Nat) (memory : Memory)
    (settings : List (UInt8 × Isr)) : Memory :=
  settings.foldl
    (fun memory setting =>
      idtSetEntry memory idt setting.1 (symbol setting.2) idtInterruptGate) memory

/-- The memory that `idt_init` leaves. -/
def idtInitMemory (symbol : Isr → UInt64) (idt : Nat) (memory : Memory) : Memory :=
  setEntries symbol idt memory idtSettings

/-- The handler that the last setting of a vector names. -/
def lastSetting (settings : List (UInt8 × Isr)) (vector : Nat) : Option Isr :=
  (settings.reverse.find? fun setting => setting.1.toNat = vector).map Prod.snd

variable {symbol : Isr → UInt64} {idt : Nat} {memory : Memory} {settings : List (UInt8 × Isr)}

theorem lastSetting_concat (setting : UInt8 × Isr) (vector : Nat) :
    lastSetting (settings ++ [setting]) vector =
      if setting.1.toNat = vector then some setting.2 else lastSetting settings vector := by
  rw [lastSetting, List.reverse_append]
  by_cases same : setting.1.toNat = vector
  · simp [same]
  · simp [same, lastSetting]

/-- The last setting of a vector decides its gate. -/
theorem gateAt_setEntries (vector : Nat) :
    gateAt (setEntries symbol idt memory settings) idt vector =
      match lastSetting settings vector with
      | some isr => interruptGate (symbol isr)
      | none => gateAt memory idt vector := by
  induction settings using List.reverseRecOn with
  | nil => rfl
  | append_singleton settings setting inductionHypothesis =>
      rw [lastSetting_concat, setEntries, List.foldl_append]
      change gateAt (idtSetEntry (setEntries symbol idt memory settings) idt setting.1
        (symbol setting.2) idtInterruptGate) idt vector = _
      by_cases same : setting.1.toNat = vector
      · rw [if_pos same, ← same, gateAt_idtSetEntry_same]
      · rw [if_neg same, gateAt_idtSetEntry_other _ _ _ _ (Ne.symm same)]
        exact inductionHypothesis

/-- Only the table is written. -/
theorem setEntries_eqOn :
    Set.EqOn (setEntries symbol idt memory settings) memory
      (Set.Ico idt (idt + entrySize * idtEntries))ᶜ := by
  induction settings using List.reverseRecOn with
  | nil => exact fun _ _ => rfl
  | append_singleton settings setting inductionHypothesis =>
      intro target outside
      have bound := setting.1.toNat_lt
      rw [setEntries, List.foldl_append]
      refine (idtSetEntry_eqOn _ idt setting.1 _ _ ?_).trans (inductionHypothesis outside)
      rintro ⟨lower, upper⟩
      apply outside
      simp only [entrySize, idtEntries, Set.mem_Ico] at lower upper ⊢
      omega

/-! ### The handlers -/

/-- Each setting behind the loop is in the table of handlers. -/
theorem idtInit_of_mem : ∀ setting ∈ idtHandlers, idtInit setting.1.toNat = setting.2 := by
  simp only [idtHandlers, List.forall_mem_cons, List.not_mem_nil, false_implies, implies_true,
    and_true]
  exact ⟨rfl, rfl, rfl, rfl, rfl, rfl, rfl, rfl, rfl, rfl, rfl, rfl, rfl, rfl, rfl, rfl, rfl, rfl,
    rfl, rfl, rfl, rfl, rfl, rfl, rfl, rfl, rfl, rfl, rfl, rfl, rfl, rfl, rfl, rfl, rfl⟩

/-- A vector that none of them names has the default handler. -/
theorem idtInit_of_not_mem {vector : Nat}
    (unnamed : ∀ setting ∈ idtHandlers, setting.1.toNat ≠ vector) :
    idtInit vector = isrDefaultHandler := by
  simp only [idtHandlers, List.forall_mem_cons, List.not_mem_nil, false_implies, implies_true,
    and_true] at unnamed
  unfold idtInit
  split
  all_goals first | rfl | (exfalso; revert unnamed; decide)

theorem lastSetting_idtSettings {vector : Nat} (bound : vector < idtEntries) :
    lastSetting idtSettings vector = some (idtInit vector) := by
  rw [lastSetting, idtSettings, List.reverse_append, List.find?_append]
  cases named : idtHandlers.reverse.find? fun setting => setting.1.toNat = vector with
  | some setting =>
      have same : setting.1.toNat = vector := by simpa using List.find?_some named
      have member := List.mem_reverse.mp (List.mem_of_find?_eq_some named)
      rw [← same, idtInit_of_mem setting member]
      rfl
  | none =>
      have unnamed : ∀ setting ∈ idtHandlers, setting.1.toNat ≠ vector := by
        intro setting member
        simpa using List.find?_eq_none.mp named setting (List.mem_reverse.mpr member)
      rw [idtInit_of_not_mem unnamed, Option.none_or]
      cases looped : ((List.range idtEntries).map
          (fun i => (UInt8.ofNat i, isrDefaultHandler))).reverse.find?
            fun setting => setting.1.toNat = vector with
      | some setting =>
          have member := List.mem_reverse.mp (List.mem_of_find?_eq_some looped)
          obtain ⟨index, -, rfl⟩ := List.mem_map.mp member
          rfl
      | none =>
          have absent := List.find?_eq_none.mp looped (UInt8.ofNat vector, isrDefaultHandler)
            (List.mem_reverse.mpr (List.mem_map.mpr ⟨vector, List.mem_range.mpr bound, rfl⟩))
          exact absurd absent (by simpa using Nat.mod_eq_of_lt bound)

theorem gateAt_idtInitMemory (symbol : Isr → UInt64) (idt : Nat) (memory : Memory) :
    ∀ vector < idtEntries, gateAt (idtInitMemory symbol idt memory) idt vector =
      interruptGate (symbol (idtInit vector)) := by
  intro vector bound
  rw [idtInitMemory, gateAt_setEntries, lastSetting_idtSettings bound]

/-- The bytes that `idt_init` leaves are the table of handlers: whatever was in
memory, every vector leads through a present interrupt gate to the handler of
`idtInit`, and nothing is written outside the table. -/
theorem idt_init_gates (symbol : Isr → UInt64) (idt : Nat) (memory : Memory) :
    (∀ vector < idtEntries, gateAt (idtInitMemory symbol idt memory) idt vector =
      interruptGate (symbol (idtInit vector))) ∧
    Set.EqOn (idtInitMemory symbol idt memory) memory
      (Set.Ico idt (idt + entrySize * idtEntries))ᶜ := by
  constructor
  · exact gateAt_idtInitMemory symbol idt memory
  · exact setEntries_eqOn

end NansOS.Interrupts
