import Mathlib.Data.Set.Function
import Mathlib.Tactic.Ring
import Mathlib.Tactic.NormNum

/-! Owns byte-addressed memory: single bytes, little-endian words of any
width, and the 32- and 64-bit words a C program loads and stores. Every frame
fact is an agreement (`Set.EqOn`) between two memories on a set of addresses:
a store agrees with the old memory off its footprint, and a load depends only
on its footprint. It owns no program. -/

namespace NansOS.Foundation

/-- Memory, indexed by byte address. -/
abbrev Memory := Nat → UInt8

/-- Ranges of addresses lie apart when one ends before the other starts. -/
theorem Ico_subset_compl_Ico {start stop first last : Nat} (apart : stop ≤ first ∨ last ≤ start) :
    Set.Ico first last ⊆ (Set.Ico start stop)ᶜ := by
  intro target within inside
  have bounds := Set.mem_Ico.mp within
  have others := Set.mem_Ico.mp inside
  omega

namespace Memory

/-- The `count` bytes from `address` on, as a list. -/
def bytes (memory : Memory) (address count : Nat) : List UInt8 :=
  (List.range count).map fun index => memory (address + index)

@[simp] theorem bytes_length (memory : Memory) (address count : Nat) :
    (memory.bytes address count).length = count := by
  simp [bytes]

theorem bytes_congr {left right : Memory} {address count : Nat}
    (agree : Set.EqOn left right (Set.Ico address (address + count))) :
    left.bytes address count = right.bytes address count := by
  refine List.map_congr_left fun index member => ?_
  have below := List.mem_range.mp member
  exact agree ⟨by omega, by omega⟩

theorem bytes_succ (memory : Memory) (address count : Nat) :
    memory.bytes address (count + 1) =
      memory.bytes address count ++ [memory (address + count)] := by
  simp [bytes, List.range_succ]

theorem bytes_cons (memory : Memory) (address count : Nat) :
    memory.bytes address (count + 1) = memory address :: memory.bytes (address + 1) count := by
  simp [bytes, List.range_succ_eq_map, Nat.add_assoc, Nat.add_comm 1]

/-! ### Little-endian words -/

/-- The little-endian value of the `width` bytes at `address`. -/
def load (memory : Memory) (address : Nat) : Nat → Nat
  | 0 => 0
  | width + 1 =>
      memory.load address width + 256 ^ width * (memory (address + width)).toNat

/-- Store the low `width` bytes of `value` at `address`, low byte first. -/
def store (memory : Memory) (address width value : Nat) : Memory := fun target =>
  if address ≤ target ∧ target < address + width then
    UInt8.ofNat (value / 256 ^ (target - address))
  else memory target

theorem load_congr {left right : Memory} {address width : Nat}
    (agree : Set.EqOn left right (Set.Ico address (address + width))) :
    left.load address width = right.load address width := by
  induction width with
  | zero => rfl
  | succ width inductionHypothesis =>
      have inner : Set.EqOn left right (Set.Ico address (address + width)) :=
        agree.mono (Set.Ico_subset_Ico_right (by omega))
      have last : left (address + width) = right (address + width) :=
        agree (Set.mem_Ico.mpr ⟨by omega, by omega⟩)
      simp only [load]
      rw [inductionHypothesis inner, last]

theorem store_eqOn (memory : Memory) (address width value : Nat) :
    Set.EqOn (memory.store address width value) memory
      (Set.Ico address (address + width))ᶜ := by
  intro target outside
  have outside : ¬ (address ≤ target ∧ target < address + width) := outside
  simp only [store, if_neg outside]

theorem load_store_same (memory : Memory) (address width value : Nat) :
    (memory.store address width value).load address width = value % 256 ^ width := by
  have leading : ∀ count, count ≤ width →
      (memory.store address width value).load address count = value % 256 ^ count := by
    intro count
    induction count with
    | zero => simp [load, Nat.mod_one]
    | succ count inductionHypothesis =>
        intro bound
        have inside : address ≤ address + count ∧ address + count < address + width := by
          omega
        simp only [load, inductionHypothesis (by omega), store, if_pos inside,
          Nat.add_sub_cancel_left, UInt8.toNat_ofNat', Nat.reducePow]
        rw [pow_succ, Nat.mod_mul]
  exact leading width le_rfl

theorem load_store_disjoint (memory : Memory) {address width value other otherWidth : Nat}
    (apart : other + otherWidth ≤ address ∨ address + width ≤ other) :
    (memory.store address width value).load other otherWidth =
      memory.load other otherWidth := by
  apply load_congr
  refine (store_eqOn memory address width value).mono fun target ⟨lower, upper⟩ => ?_
  simp only [Set.mem_compl_iff, Set.mem_Ico, not_and, not_lt]
  omega

/-! ### 32- and 64-bit words -/

/-- The 32-bit word at `address`. -/
def read32 (memory : Memory) (address : Nat) : UInt32 :=
  UInt32.ofNat (memory.load address 4)

/-- The 64-bit word at `address`. -/
def read64 (memory : Memory) (address : Nat) : UInt64 :=
  UInt64.ofNat (memory.load address 8)

/-- Store a 32-bit word. -/
def write32 (memory : Memory) (address : Nat) (value : UInt32) : Memory :=
  memory.store address 4 value.toNat

/-- Store a 64-bit word. -/
def write64 (memory : Memory) (address : Nat) (value : UInt64) : Memory :=
  memory.store address 8 value.toNat

theorem read32_congr {left right : Memory} {address : Nat}
    (agree : Set.EqOn left right (Set.Ico address (address + 4))) :
    left.read32 address = right.read32 address := by
  simp only [read32, load_congr agree]

theorem read64_congr {left right : Memory} {address : Nat}
    (agree : Set.EqOn left right (Set.Ico address (address + 8))) :
    left.read64 address = right.read64 address := by
  simp only [read64, load_congr agree]

theorem write32_eqOn (memory : Memory) (address : Nat) (value : UInt32) :
    Set.EqOn (memory.write32 address value) memory (Set.Ico address (address + 4))ᶜ :=
  store_eqOn memory address 4 value.toNat

theorem write64_eqOn (memory : Memory) (address : Nat) (value : UInt64) :
    Set.EqOn (memory.write64 address value) memory (Set.Ico address (address + 8))ᶜ :=
  store_eqOn memory address 8 value.toNat

@[simp] theorem read32_write32_same (memory : Memory) (address : Nat) (value : UInt32) :
    (memory.write32 address value).read32 address = value := by
  have small : value.toNat < 256 ^ 4 := value.toNat_lt
  simp only [read32, write32, load_store_same, Nat.mod_eq_of_lt small, UInt32.ofNat_toNat]

@[simp] theorem read64_write64_same (memory : Memory) (address : Nat) (value : UInt64) :
    (memory.write64 address value).read64 address = value := by
  have small : value.toNat < 256 ^ 8 := value.toNat_lt
  simp only [read64, write64, load_store_same, Nat.mod_eq_of_lt small, UInt64.ofNat_toNat]

theorem read64_write64_disjoint (memory : Memory) {address other : Nat} (value : UInt64)
    (apart : other + 8 ≤ address ∨ address + 8 ≤ other) :
    (memory.write64 address value).read64 other = memory.read64 other := by
  simp only [read64, write64, load_store_disjoint memory apart]

theorem read64_write32_disjoint (memory : Memory) {address other : Nat} (value : UInt32)
    (apart : other + 8 ≤ address ∨ address + 4 ≤ other) :
    (memory.write32 address value).read64 other = memory.read64 other := by
  simp only [read64, write32, load_store_disjoint memory apart]

theorem read32_write64_disjoint (memory : Memory) {address other : Nat} (value : UInt64)
    (apart : other + 4 ≤ address ∨ address + 8 ≤ other) :
    (memory.write64 address value).read32 other = memory.read32 other := by
  simp only [read32, write64, load_store_disjoint memory apart]

theorem read32_write32_disjoint (memory : Memory) {address other : Nat} (value : UInt32)
    (apart : other + 4 ≤ address ∨ address + 4 ≤ other) :
    (memory.write32 address value).read32 other = memory.read32 other := by
  simp only [read32, write32, load_store_disjoint memory apart]

theorem load_add (memory : Memory) (address low high : Nat) :
    memory.load address (low + high) =
      memory.load address low + memory.load (address + low) high * 256 ^ low := by
  induction high with
  | zero => simp [load]
  | succ high inductionHypothesis =>
      rw [← Nat.add_assoc, load, inductionHypothesis, load, pow_add, Nat.add_assoc address]
      ring

/-- A zeroed word reads as zero. -/
theorem load_of_zero {memory : Memory} {address width : Nat}
    (zero : ∀ target ∈ Set.Ico address (address + width), memory target = 0) :
    memory.load address width = 0 := by
  induction width with
  | zero => rfl
  | succ width inductionHypothesis =>
      have inner := inductionHypothesis fun target ⟨lower, upper⟩ =>
        zero target ⟨lower, by omega⟩
      have last := zero (address + width) ⟨by omega, by omega⟩
      simp [load, inner, last]

theorem read64_of_zero {memory : Memory} {address : Nat}
    (zero : ∀ target ∈ Set.Ico address (address + 8), memory target = 0) :
    memory.read64 address = 0 := by
  simp [read64, load_of_zero zero]

theorem load_lt (memory : Memory) (address width : Nat) :
    memory.load address width < 256 ^ width := by
  induction width with
  | zero => exact Nat.one_pos
  | succ width inductionHypothesis =>
      have last : (memory (address + width)).toNat < 256 :=
        (memory (address + width)).toNat_lt
      calc memory.load address (width + 1)
          < 256 ^ width + 256 ^ width * (memory (address + width)).toNat :=
            Nat.add_lt_add_right inductionHypothesis _
        _ = 256 ^ width * ((memory (address + width)).toNat + 1) := by ring
        _ ≤ 256 ^ width * 256 := Nat.mul_le_mul_left _ last
        _ = 256 ^ (width + 1) := (pow_succ 256 width).symm

/-- The bytes of a word that reads as zero are zero. -/
theorem zero_of_load {memory : Memory} {address width : Nat}
    (zero : memory.load address width = 0) :
    ∀ target ∈ Set.Ico address (address + width), memory target = 0 := by
  induction width with
  | zero =>
      intro target inside
      have within := Set.mem_Ico.mp inside
      omega
  | succ width inductionHypothesis =>
      rw [load, Nat.add_eq_zero_iff, Nat.mul_eq_zero] at zero
      obtain ⟨inner, last⟩ := zero
      have last := last.resolve_left (pow_ne_zero width (by decide))
      intro target inside
      have within := Set.mem_Ico.mp inside
      rcases Nat.lt_or_ge target (address + width) with below | above
      · exact inductionHypothesis inner target ⟨within.1, below⟩
      · have here : target = address + width := by omega
        rw [here]
        exact UInt8.toNat_inj.mp last

theorem zero_of_read64 {memory : Memory} {address : Nat} (zero : memory.read64 address = 0) :
    ∀ target ∈ Set.Ico address (address + 8), memory target = 0 := by
  apply zero_of_load
  have small : memory.load address 8 < 2 ^ 64 := memory.load_lt address 8
  have value := congrArg UInt64.toNat zero
  rwa [read64, UInt64.toNat_ofNat', Nat.mod_eq_of_lt small] at value

/-- A 32-bit word stored over a zeroed 64-bit one. -/
theorem read64_write32_same (memory : Memory) (address : Nat) (value : UInt32)
    (zero : ∀ target ∈ Set.Ico (address + 4) (address + 8), memory target = 0) :
    (memory.write32 address value).read64 address = value.toUInt64 := by
  have low : (memory.write32 address value).load address 4 = value.toNat := by
    rw [write32, load_store_same]
    exact Nat.mod_eq_of_lt value.toNat_lt
  have high : (memory.write32 address value).load (address + 4) 4 = 0 := by
    rw [write32, load_store_disjoint memory (by omega)]
    exact load_of_zero zero
  apply UInt64.toNat_inj.mp
  have small := value.toNat_lt
  rw [read64, load_add _ _ 4 4, low, high, UInt64.toNat_ofNat', UInt32.toNat_toUInt64]
  omega

end Memory

end NansOS.Foundation
