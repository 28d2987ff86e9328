import NansOS.Mmu.Mapping

/-! Owns the tables that the boot loader hands to the kernel: `BootTables` says
what they hold, `bootMachine_tables` that `setUpPageTables` leaves this in
zeroed memory, and the lemmas below it how a walk of them ends. The tables map
the low 2 GiB to themselves with huge pages and nothing else. -/

namespace NansOS.Mmu

open NansOS.Foundation
open NansOS.Foundation.Words
open NansOS.Kernel

/-- The huge entry for the two megabytes at `index` of gigabyte `half`. -/
def hugeEntry (half : Nat) (index : Fin 512) : UInt64 :=
  UInt64.ofNat (2 ^ 30 * half + 2 ^ 21 * index.val) ||| 0x83

/-- The boot tables in memory: the root in CR3, one page directory pointer
table, two page directories of huge entries, and no page taken yet. -/
structure BootTables (machine : Machine) (l4 l3 l2 l22 : UInt64) : Prop where
  root : machine.cr3 = l4
  aligned : ∀ table ∈ [l4, l3, l2, l22], table.toNat % 4096 = 0
  below : ∀ table ∈ [l4, l3, l2, l22], table.toNat < 0x400000
  distinct : [l4, l3, l2, l22].Nodup
  pml4 : ∀ index, store machine l4 index = if index = 0 then l3 ||| 3 else 0
  pdp : ∀ index, store machine l3 index =
    if index = 0 then l2 ||| 3 else if index = 1 then l22 ||| 3 else 0
  pd : ∀ index, store machine l2 index = hugeEntry 0 index
  pdSecond : ∀ index, store machine l22 index = hugeEntry 1 index
  fresh : machine.nextFreePage = 0x400000

/-! ### Huge entries -/

section Huge

variable {half : Nat} (one : half ≤ 1) (index : Fin 512)

include one

private theorem base_toNat :
    (UInt64.ofNat (2 ^ 30 * half + 2 ^ 21 * index.val)).toNat =
      2 ^ 30 * half + 2 ^ 21 * index.val := by
  have bound := index.isLt
  rw [UInt64.toNat_ofNat']
  omega

private theorem base_clear :
    UInt64.ofNat (2 ^ 30 * half + 2 ^ 21 * index.val) &&& 0x1FFFFF = 0 := by
  rw [and_mask_eq_zero_iff 21 rfl, base_toNat one index]
  omega

theorem hugeEntry_present : hugeEntry half index &&& pagePresent ≠ 0 := by
  rw [hugeEntry, or_and_of_clear (base_clear one index) (by decide)]
  decide

theorem hugeEntry_huge : hugeEntry half index &&& pageHuge ≠ 0 := by
  rw [hugeEntry, or_and_of_clear (base_clear one index) (by decide)]
  decide

/-- The frame that a huge entry gives a page inside it. -/
theorem hugeEntry_frame (virt : UInt64) :
    (hugeEntry half index &&& ~~~0x1FFFFF) ||| (virt &&& 0x1FF000) =
      UInt64.ofNat (2 ^ 30 * half + 2 ^ 21 * index.val + 4096 * (slot 12 virt).val) := by
  have bound := index.isLt
  have inside : 4096 * (virt.toNat / 4096 % 512) < 2 ^ 21 := by omega
  apply UInt64.toNat_inj.mp
  rw [hugeEntry, or_and_not (base_clear one index) (by decide), UInt64.toNat_or,
    page_bits_toNat, base_toNat one index, UInt64.toNat_ofNat']
  rw [show 2 ^ 30 * half + 2 ^ 21 * index.val = 2 ^ 21 * (2 ^ 9 * half + index.val) by ring,
    ← Nat.two_pow_add_eq_or_of_lt inside]
  simp only [slot]
  omega

theorem linkedTable_hugeEntry : linkedTable 2 (hugeEntry half index) = none := by
  simp [linkedTable, hugeEntry_huge one index]

end Huge

/-- The boot loader's links are present and writable, and not huge. -/
theorem linkedTable_link {table : UInt64} (aligned : table.toNat % 4096 = 0) {depth : Nat}
    (upper : depth < 3) : linkedTable depth (table ||| 3) = some table := by
  have present : (table ||| 3) &&& pagePresent ≠ 0 := by
    rw [or_and_flag aligned (by decide)]
    decide
  have plain : (table ||| 3) &&& pageHuge = 0 := by
    rw [or_and_flag aligned (by decide)]
    decide
  rw [linkedTable, if_pos ⟨upper, present, by simp [plain]⟩, tableOf_or aligned (by decide)]

/-! ### Walks of the boot tables -/

namespace BootTables

variable {machine : Machine} {l4 l3 l2 l22 : UInt64}
variable (boot : BootTables machine l4 l3 l2 l22)

include boot

/-- The four tables and their paths. -/
theorem tableAt_cases {path : Path} {table : UInt64} (reached : tableAt machine path = some table) :
    (path = [] ∧ table = l4) ∨ (path = [0] ∧ table = l3) ∨
      (path = [0, 0] ∧ table = l2) ∨ (path = [1, 0] ∧ table = l22) := by
  induction path generalizing table with
  | nil =>
      rw [tableAt_nil, boot.root] at reached
      exact .inl ⟨rfl, (Option.some.inj reached).symm⟩
  | cons index path inductionHypothesis =>
      rw [tableAt_cons] at reached
      cases above : tableAt machine path with
      | none =>
          rw [valueAt_of_missing above, linkedTable_zero] at reached
          cases reached
      | some node =>
          rw [valueAt_cons above] at reached
          rcases inductionHypothesis above with
            ⟨rfl, rfl⟩ | ⟨rfl, rfl⟩ | ⟨rfl, rfl⟩ | ⟨rfl, rfl⟩
          · rw [boot.pml4] at reached
            split_ifs at reached with zero
            · rw [linkedTable_link (boot.aligned l3 (by simp)) (by simp)] at reached
              exact .inr (.inl ⟨by rw [zero], (Option.some.inj reached).symm⟩)
            · simp at reached
          · rw [boot.pdp] at reached
            split_ifs at reached with zero one
            · rw [linkedTable_link (boot.aligned l2 (by simp)) (by simp)] at reached
              exact .inr (.inr (.inl ⟨by rw [zero], (Option.some.inj reached).symm⟩))
            · rw [linkedTable_link (boot.aligned l22 (by simp)) (by simp)] at reached
              exact .inr (.inr (.inr ⟨by rw [one], (Option.some.inj reached).symm⟩))
            · simp at reached
          · rw [boot.pd] at reached
            exact absurd (reached.symm.trans (linkedTable_hugeEntry (by omega) index)) (by simp)
          · rw [boot.pdSecond] at reached
            exact absurd (reached.symm.trans (linkedTable_hugeEntry (by omega) index)) (by simp)

theorem tree : TableTree machine := by
  have member : ∀ path table, tableAt machine path = some table → table ∈ [l4, l3, l2, l22] := by
    intro path table reached
    rcases boot.tableAt_cases reached with ⟨-, rfl⟩ | ⟨-, rfl⟩ | ⟨-, rfl⟩ | ⟨-, rfl⟩ <;> simp
  have distinct := boot.distinct
  simp only [List.nodup_cons, List.mem_cons, List.not_mem_nil, or_false, not_or] at distinct
  refine ⟨?_, ?_, ?_, ?_⟩
  · intro left right node atLeft atRight
    rcases boot.tableAt_cases atLeft with ⟨rfl, one⟩ | ⟨rfl, one⟩ | ⟨rfl, one⟩ | ⟨rfl, one⟩ <;>
      rcases boot.tableAt_cases atRight with ⟨rfl, two⟩ | ⟨rfl, two⟩ | ⟨rfl, two⟩ | ⟨rfl, two⟩ <;>
        simp_all
  · intro path table reached
    exact boot.aligned table (member path table reached)
  · intro path table reached
    have aligned := boot.aligned table (member path table reached)
    have below := boot.below table (member path table reached)
    rw [boot.fresh]
    change _ ≤ 0x400000
    omega
  · rw [boot.fresh]
    decide

/-- A path of two indices reaches a table exactly in the low 2 GiB. -/
theorem lowPage_of_reached {virt table : UInt64}
    (reached : tableAt machine (pdpPath virt) = some table) : LowPage virt := by
  rw [lowPage_iff]
  rcases boot.tableAt_cases reached with ⟨path, -⟩ | ⟨path, -⟩ | ⟨path, -⟩ | ⟨path, -⟩ <;>
    simp [pdpPath, pml4Path] at path
  · exact ⟨path.2, .inl path.1⟩
  · exact ⟨path.2, .inr path.1⟩

theorem tableAt_pdp : tableAt machine [0] = some l3 := by
  have root : tableAt machine [] = some l4 := by
    rw [tableAt_nil, boot.root]
  rw [tableAt_cons, valueAt_cons root, boot.pml4, if_pos rfl,
    linkedTable_link (boot.aligned l3 (by simp)) (by simp)]

/-- The page directory entry of a low page is its huge entry. -/
theorem low_value {virt : UInt64} (low : LowPage virt) :
    valueAt machine (pdPath virt) = hugeEntry (slot 30 virt).val (slot 21 virt) := by
  obtain ⟨first, second⟩ := lowPage_iff.mp low
  unfold pdPath pdpPath pml4Path
  rw [first]
  rcases second with zero | one
  · have reached : tableAt machine [0, 0] = some l2 := by
      rw [tableAt_cons, valueAt_cons boot.tableAt_pdp, boot.pdp, if_pos rfl,
        linkedTable_link (boot.aligned l2 (by simp)) (by simp)]
    rw [zero, valueAt_cons reached, boot.pd]
    rfl
  · have reached : tableAt machine [1, 0] = some l22 := by
      rw [tableAt_cons, valueAt_cons boot.tableAt_pdp, boot.pdp, if_neg (by decide), if_pos rfl,
        linkedTable_link (boot.aligned l22 (by simp)) (by simp)]
    rw [one, valueAt_cons reached, boot.pdSecond]
    rfl

/-- Every entry that is not zero is present. -/
theorem present_of_nonzero {path : Path} (nonzero : valueAt machine path ≠ 0) :
    valueAt machine path &&& pagePresent ≠ 0 := by
  have link : ∀ table ∈ [l4, l3, l2, l22], (table ||| 3) &&& pagePresent ≠ 0 := by
    intro table member
    rw [or_and_flag (boot.aligned table member) (by decide)]
    decide
  cases path with
  | nil => exact absurd rfl nonzero
  | cons index path =>
      cases above : tableAt machine path with
      | none => exact absurd (valueAt_of_missing above index) nonzero
      | some node =>
          rw [valueAt_cons above] at nonzero ⊢
          rcases boot.tableAt_cases above with ⟨-, rfl⟩ | ⟨-, rfl⟩ | ⟨-, rfl⟩ | ⟨-, rfl⟩
          · rw [boot.pml4] at nonzero ⊢
            split_ifs at nonzero ⊢
            · exact link l3 (by simp)
            · exact absurd rfl nonzero
          · rw [boot.pdp] at nonzero ⊢
            split_ifs at nonzero ⊢
            · exact link l2 (by simp)
            · exact link l22 (by simp)
            · exact absurd rfl nonzero
          · rw [boot.pd]
            exact hugeEntry_present (by omega) index
          · rw [boot.pdSecond]
            exact hugeEntry_present (by omega) index

/-- Page directories exist only for the low 2 GiB. -/
theorem lowPage_of_value {virt : UInt64} (nonzero : valueAt machine (pdPath virt) ≠ 0) :
    LowPage virt := by
  cases reached : tableAt machine (pdpPath virt) with
  | none => exact absurd (valueAt_of_missing reached _) nonzero
  | some table => exact boot.lowPage_of_reached reached

/-- No other page is mapped. -/
theorem translate_high {virt : UInt64} (high : ¬ LowPage virt) : translate machine virt = none := by
  rw [translate_eq_walk, walk]
  by_cases first : valueAt machine (pml4Path virt) &&& pagePresent = 0
  · rw [if_pos first]
  · rw [if_neg first, if_pos]
    by_contra present
    exact high (boot.lowPage_of_reached (tableAt_pdpPath present))

end BootTables

/-! ### Setting the tables up -/

/-- A page of zeros. -/
def ZeroPage (memory : Memory) (page : Nat) : Prop :=
  ∀ target ∈ Set.Ico page (page + 4096), memory target = 0

theorem ZeroPage.of_eqOn {memory changed : Memory} {page : Nat} (zero : ZeroPage memory page)
    (agree : Set.EqOn changed memory (Set.Ico page (page + 4096))) : ZeroPage changed page :=
  fun target inside => (agree inside).trans (zero target inside)

section Loop

variable (memory : Memory) (table base : UInt32)

theorem mapP2Table_eqOn (count : Nat) :
    Set.EqOn (mapP2Table memory table base count) memory
      (Set.Ico table.toNat (table.toNat + 8 * count))ᶜ := by
  induction count with
  | zero => exact fun _ _ => rfl
  | succ count inductionHypothesis =>
      intro target outside
      have outside : ¬ (table.toNat ≤ target ∧ target < table.toNat + 8 * (count + 1)) := outside
      have written : target ∈ (Set.Ico (table.toNat + 8 * count)
          (table.toNat + 8 * count + 4))ᶜ := by
        simp only [Set.mem_compl_iff, Set.mem_Ico]
        omega
      have earlier : target ∈ (Set.Ico table.toNat (table.toNat + 8 * count))ᶜ := by
        simp only [Set.mem_compl_iff, Set.mem_Ico]
        omega
      rw [mapP2Table, Memory.write32_eqOn _ _ _ written, inductionHypothesis earlier]

/-- The loop leaves the huge entries it was asked for. -/
theorem mapP2Table_entry (zero : ZeroPage memory table.toNat) {count index : Nat}
    (room : count ≤ 512) (below : index < count) :
    (mapP2Table memory table base count).read64 (table.toNat + 8 * index) =
      ((0x200000 * UInt32.ofNat index + base) ||| 0b10000011).toUInt64 := by
  induction count with
  | zero => omega
  | succ count inductionHypothesis =>
      rw [mapP2Table]
      by_cases last : index = count
      · rw [last, Memory.read64_write32_same]
        intro target inside
        have inside := Set.mem_Ico.mp inside
        rw [mapP2Table_eqOn memory table base count]
        · exact zero target (Set.mem_Ico.mpr ⟨by omega, by omega⟩)
        · simp only [Set.mem_compl_iff, Set.mem_Ico]
          omega
      · rw [Memory.read64_write32_disjoint _ _ (by omega)]
        exact inductionHypothesis (by omega) (by omega)

end Loop

/-- The 32-bit arithmetic of the loops does not wrap. -/
theorem toUInt64_hugeEntry (half : Nat) (one : half ≤ 1) {base : UInt32}
    (start : base.toNat = 2 ^ 30 * half) (index : Fin 512) :
    ((0x200000 * UInt32.ofNat index.val + base) ||| 0b10000011).toUInt64 =
      hugeEntry half index := by
  have bound := index.isLt
  apply UInt64.toNat_inj.mp
  rw [hugeEntry, UInt64.toNat_or, base_toNat one index, UInt32.toNat_toUInt64, UInt32.toNat_or]
  congr 1
  rw [UInt32.toNat_add, UInt32.toNat_mul, UInt32.toNat_ofNat', start]
  simp only [UInt32.reduceToNat]
  omega

theorem toUInt64_link (table : UInt32) : (table ||| 0b11).toUInt64 = table.toUInt64 ||| 3 := by
  rw [UInt32.toUInt64_or]
  rfl

section SetUp

variable {memory : Memory} {l4 l3 l2 l22 : UInt32}
variable (aligned : ∀ table ∈ [l4, l3, l2, l22], table.toNat % 4096 = 0)
variable (distinct : [l4, l3, l2, l22].Nodup)
variable (zero : ∀ table ∈ [l4, l3, l2, l22], ZeroPage memory table.toNat)

include aligned distinct in
/-- Different tables lie a page apart. -/
private theorem pages_apart :
    (l4.toNat + 4096 ≤ l3.toNat ∨ l3.toNat + 4096 ≤ l4.toNat) ∧
    (l4.toNat + 4096 ≤ l2.toNat ∨ l2.toNat + 4096 ≤ l4.toNat) ∧
    (l4.toNat + 4096 ≤ l22.toNat ∨ l22.toNat + 4096 ≤ l4.toNat) ∧
    (l3.toNat + 4096 ≤ l2.toNat ∨ l2.toNat + 4096 ≤ l3.toNat) ∧
    (l3.toNat + 4096 ≤ l22.toNat ∨ l22.toNat + 4096 ≤ l3.toNat) ∧
    (l2.toNat + 4096 ≤ l22.toNat ∨ l22.toNat + 4096 ≤ l2.toNat) := by
  simp only [List.mem_cons, List.not_mem_nil, or_false, forall_eq_or_imp, forall_eq] at aligned
  simp only [List.nodup_cons, List.mem_cons, List.not_mem_nil, or_false, not_or,
    ← UInt32.toNat_inj] at distinct
  omega

/-- The memory after the three links, before the loops. -/
def withLinks (memory : Memory) (l4 l3 l2 l22 : UInt32) : Memory :=
  ((memory.write32 l4.toNat (l3 ||| 0b11)).write32 l3.toNat (l2 ||| 0b11)).write32
    (l3.toNat + 8) (l22 ||| 0b11)

/-- The links touch only their own two tables. -/
theorem withLinks_eqOn {page : Nat}
    (apartL4 : page + 4096 ≤ l4.toNat ∨ l4.toNat + 4096 ≤ page)
    (apartL3 : page + 4096 ≤ l3.toNat ∨ l3.toNat + 4096 ≤ page) :
    Set.EqOn (withLinks memory l4 l3 l2 l22) memory (Set.Ico page (page + 4096)) := by
  intro target inside
  have inside := Set.mem_Ico.mp inside
  unfold withLinks
  rw [Memory.write32_eqOn, Memory.write32_eqOn, Memory.write32_eqOn]
  all_goals
    simp only [Set.mem_compl_iff, Set.mem_Ico]
    omega

/-- A loop touches only its own table. -/
theorem mapP2Table_eqOn_page (memory : Memory) (base : UInt32) {table : UInt32} {page : Nat}
    (apart : page + 4096 ≤ table.toNat ∨ table.toNat + 4096 ≤ page) :
    Set.EqOn (mapP2Table memory table base 512) memory (Set.Ico page (page + 4096)) := by
  intro target inside
  have inside := Set.mem_Ico.mp inside
  rw [mapP2Table_eqOn]
  simp only [Set.mem_compl_iff, Set.mem_Ico]
  omega

/-- An entry of a page, in memories that agree on the page. -/
theorem read64_entry_congr {left right : Memory} {page : Nat}
    (agree : Set.EqOn left right (Set.Ico page (page + 4096))) (index : Fin 512) :
    left.read64 (page + 8 * index.val) = right.read64 (page + 8 * index.val) := by
  have bound := index.isLt
  exact Memory.read64_congr (agree.mono (Set.Ico_subset_Ico (by omega) (by omega)))

theorem ZeroPage.read64 {memory : Memory} {page : Nat} (zero : ZeroPage memory page)
    (index : Fin 512) : memory.read64 (page + 8 * index.val) = 0 := by
  have bound := index.isLt
  refine Memory.read64_of_zero fun target inside => zero target ?_
  have inside := Set.mem_Ico.mp inside
  exact Set.mem_Ico.mpr ⟨by omega, by omega⟩

theorem ZeroPage.high {memory : Memory} {page : Nat} (zero : ZeroPage memory page)
    (index : Fin 512) : ∀ target ∈ Set.Ico (page + 8 * index.val + 4) (page + 8 * index.val + 8),
      memory target = 0 := by
  have bound := index.isLt
  intro target inside
  have inside := Set.mem_Ico.mp inside
  exact zero target (Set.mem_Ico.mpr ⟨by omega, by omega⟩)

theorem withLinks_pml4 (apart : l4.toNat + 4096 ≤ l3.toNat ∨ l3.toNat + 4096 ≤ l4.toNat)
    (zero : ZeroPage memory l4.toNat) (index : Fin 512) :
    (withLinks memory l4 l3 l2 l22).read64 (l4.toNat + 8 * index.val) =
      if index = 0 then l3.toUInt64 ||| 3 else 0 := by
  have bound := index.isLt
  rw [withLinks, Memory.read64_write32_disjoint _ _ (by omega),
    Memory.read64_write32_disjoint _ _ (by omega)]
  by_cases first : index.val = 0
  · rw [if_pos (Fin.ext first), first, ← toUInt64_link]
    exact Memory.read64_write32_same _ _ _ (zero.high 0)
  · rw [if_neg fun equal => first (congrArg Fin.val equal),
      Memory.read64_write32_disjoint _ _ (by omega)]
    exact zero.read64 index

theorem withLinks_pdp (apart : l4.toNat + 4096 ≤ l3.toNat ∨ l3.toNat + 4096 ≤ l4.toNat)
    (zero : ZeroPage memory l3.toNat) (index : Fin 512) :
    (withLinks memory l4 l3 l2 l22).read64 (l3.toNat + 8 * index.val) =
      if index = 0 then l2.toUInt64 ||| 3 else if index = 1 then l22.toUInt64 ||| 3 else 0 := by
  have bound := index.isLt
  have blank : ZeroPage (memory.write32 l4.toNat (l3 ||| 0b11)) l3.toNat := by
    refine zero.of_eqOn fun target inside => Memory.write32_eqOn _ _ _ ?_
    have inside := Set.mem_Ico.mp inside
    simp only [Set.mem_compl_iff, Set.mem_Ico]
    omega
  rw [withLinks]
  by_cases second : index.val = 1
  · rw [if_neg fun equal => by simp [equal] at second, if_pos (Fin.ext second), second,
      ← toUInt64_link]
    refine Memory.read64_write32_same _ _ _ fun target inside => ?_
    have inside := Set.mem_Ico.mp inside
    rw [Memory.write32_eqOn]
    · exact blank.high 1 target (Set.mem_Ico.mpr inside)
    · simp only [Set.mem_compl_iff, Set.mem_Ico]
      omega
  · rw [Memory.read64_write32_disjoint _ _ (by omega)]
    by_cases first : index.val = 0
    · rw [if_pos (Fin.ext first), first, ← toUInt64_link]
      exact Memory.read64_write32_same _ _ _ (blank.high 0)
    · rw [if_neg fun equal => first (congrArg Fin.val equal),
        if_neg fun equal => second (congrArg Fin.val equal),
        Memory.read64_write32_disjoint _ _ (by omega)]
      exact blank.read64 index

/-- Pages apart from the tables are left alone. -/
theorem setUpPageTables_eqOn {page : Nat}
    (apart : ∀ table ∈ [l4, l3, l2, l22],
      page + 4096 ≤ table.toNat ∨ table.toNat + 4096 ≤ page) :
    Set.EqOn (setUpPageTables memory l4 l3 l2 l22) memory (Set.Ico page (page + 4096)) := by
  have links : Set.EqOn (withLinks memory l4 l3 l2 l22) memory (Set.Ico page (page + 4096)) :=
    withLinks_eqOn (apart l4 (by simp)) (apart l3 (by simp))
  have first := mapP2Table_eqOn_page (withLinks memory l4 l3 l2 l22) 0 (apart l2 (by simp))
  exact ((mapP2Table_eqOn_page _ 0x40000000 (apart l22 (by simp))).trans first).trans links

include aligned distinct zero

/-- The boot loader's tables, in zeroed pages. -/
theorem bootMachine_tables (below : ∀ table ∈ [l4, l3, l2, l22], table.toNat < 0x400000) :
    BootTables (bootMachine memory l4 l3 l2 l22) l4.toUInt64 l3.toUInt64 l2.toUInt64
      l22.toUInt64 := by
  obtain ⟨apart43, apart42, apart422, apart32, apart322, apart222⟩ :=
    pages_apart aligned distinct
  have zeroL4 := zero l4 (by simp)
  have zeroL3 := zero l3 (by simp)
  have zeroL2 := zero l2 (by simp)
  have zeroL22 := zero l22 (by simp)
  have widen : ∀ property : Nat → Prop, (∀ table ∈ [l4, l3, l2, l22], property table.toNat) →
      ∀ table ∈ [l4.toUInt64, l3.toUInt64, l2.toUInt64, l22.toUInt64],
        property table.toNat := by
    intro property every table member
    have member : table ∈ [l4, l3, l2, l22].map UInt32.toUInt64 := member
    obtain ⟨narrow, narrowMember, rfl⟩ := List.mem_map.mp member
    rw [UInt32.toNat_toUInt64]
    exact every narrow narrowMember
  have stored : ∀ (table : UInt32) index,
      store (bootMachine memory l4 l3 l2 l22) table.toUInt64 index =
        (mapP2Table (mapP2Table (withLinks memory l4 l3 l2 l22) l2 0 512) l22 0x40000000
          512).read64 (table.toNat + 8 * index.val) := by
    intro table index
    rw [store, UInt32.toNat_toUInt64]
    rfl
  refine ⟨rfl, widen (fun address => address % 4096 = 0) aligned,
    widen (fun address => address < 0x400000) below, ?_, ?_, ?_, ?_, ?_, rfl⟩
  · exact distinct.map fun left right equal => UInt32.toNat_inj.mp (by
      rw [← UInt32.toNat_toUInt64, equal, UInt32.toNat_toUInt64])
  · intro index
    rw [stored, read64_entry_congr (mapP2Table_eqOn_page _ _ apart422),
      read64_entry_congr (mapP2Table_eqOn_page _ _ apart42)]
    exact withLinks_pml4 apart43 zeroL4 index
  · intro index
    rw [stored, read64_entry_congr (mapP2Table_eqOn_page _ _ apart322),
      read64_entry_congr (mapP2Table_eqOn_page _ _ apart32)]
    exact withLinks_pdp apart43 zeroL3 index
  · intro index
    rw [stored, read64_entry_congr (mapP2Table_eqOn_page _ _ apart222),
      mapP2Table_entry _ _ _ (zeroL2.of_eqOn (withLinks_eqOn (by omega) (by omega))) (by omega)
        index.isLt]
    exact toUInt64_hugeEntry 0 (by omega) rfl index
  · intro index
    have links : Set.EqOn (withLinks memory l4 l3 l2 l22) memory
        (Set.Ico l22.toNat (l22.toNat + 4096)) := withLinks_eqOn (by omega) (by omega)
    have loop : Set.EqOn (mapP2Table (withLinks memory l4 l3 l2 l22) l2 0 512)
        (withLinks memory l4 l3 l2 l22) (Set.Ico l22.toNat (l22.toNat + 4096)) :=
      mapP2Table_eqOn_page _ _ (by omega)
    rw [stored, mapP2Table_entry _ _ _ (zeroL22.of_eqOn (loop.trans links)) (by omega)
      index.isLt]
    exact toUInt64_hugeEntry 1 (by omega) rfl index

end SetUp

end NansOS.Mmu
