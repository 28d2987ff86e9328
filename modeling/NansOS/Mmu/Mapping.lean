import NansOS.Mmu.Tree

/-! Owns what one call of `mmuMapPage` does to the tree of tables, for flags
with `PAGE_PRESENT` set and `PAGE_HUGE` clear: up to three upper entries are
given new tables, then the entry of the page is written. `mmuMapPage_cases` is
the inversion lemma that every property of mapping runs is derived from. It
does not own the runs. -/

namespace NansOS.Mmu

open NansOS.Foundation
open NansOS.Foundation.Words
open NansOS.Kernel

/-! ### Pages -/

/-- The number of a virtual page: address bits 47..12. -/
def pageNumber (virt : UInt64) : Nat := virt.toNat / 4096 % 2 ^ 36

/-- The path of the entry that a walk for `virt` reads in the PML4, and below
it in the page directory pointer table, the page directory and the page table. -/
def pml4Path (virt : UInt64) : Path := [slot 39 virt]

@[inherit_doc pml4Path]
def pdpPath (virt : UInt64) : Path := slot 30 virt :: pml4Path virt

@[inherit_doc pml4Path]
def pdPath (virt : UInt64) : Path := slot 21 virt :: pdpPath virt

@[inherit_doc pml4Path]
def ptPath (virt : UInt64) : Path := slot 12 virt :: pdPath virt

@[simp] theorem pml4Path_length (virt : UInt64) : (pml4Path virt).length = 1 := rfl

@[simp] theorem pdpPath_length (virt : UInt64) : (pdpPath virt).length = 2 := rfl

@[simp] theorem pdPath_length (virt : UInt64) : (pdPath virt).length = 3 := rfl

@[simp] theorem ptPath_length (virt : UInt64) : (ptPath virt).length = 4 := rfl

theorem Path.ne_of_length {left right : Path} (different : left.length ≠ right.length) :
    left ≠ right :=
  fun equal => different (congrArg List.length equal)

/-- Two addresses walk the same entries exactly when they lie on one page. -/
theorem ptPath_eq_iff {left right : UInt64} :
    ptPath left = ptPath right ↔ pageNumber left = pageNumber right := by
  simp only [ptPath, pdPath, pdpPath, pml4Path, slot, List.cons.injEq, Fin.mk.injEq, and_true,
    pageNumber]
  omega

/-- The pages that the boot loader maps. -/
def LowPage (virt : UInt64) : Prop := pageNumber virt < 2 ^ 19

instance (virt : UInt64) : Decidable (LowPage virt) :=
  inferInstanceAs (Decidable (_ < _))

theorem lowPage_iff {virt : UInt64} :
    LowPage virt ↔ slot 39 virt = 0 ∧ (slot 30 virt = 0 ∨ slot 30 virt = 1) := by
  simp only [LowPage, pageNumber, slot, Fin.ext_iff, Fin.val_zero, Fin.val_one]
  omega

theorem LowPage.half_le {virt : UInt64} (low : LowPage virt) : (slot 30 virt).val ≤ 1 := by
  rcases (lowPage_iff.mp low).2 with zero | one
  · rw [zero]
    exact Nat.zero_le 1
  · rw [one]
    exact Nat.le_refl 1

/-! ### The walk in the tree -/

/-- The walk of `translate`, over the entries seen from the root. -/
def walk (value : Path → UInt64) (virt : UInt64) : Option UInt64 :=
  if value (pml4Path virt) &&& pagePresent = 0 then none
  else if value (pdpPath virt) &&& pagePresent = 0 then none
  else if value (pdPath virt) &&& pageHuge ≠ 0 then
    some ((value (pdPath virt) &&& ~~~0x1FFFFF) ||| (virt &&& 0x1FF000))
  else if value (pdPath virt) &&& pagePresent = 0 then none
  else if value (ptPath virt) &&& pagePresent = 0 then none
  else some (tableOf (value (ptPath virt)))

section Reached

variable {machine : Machine} {virt : UInt64}

theorem tableAt_nil (machine : Machine) : tableAt machine [] = some machine.cr3 := rfl

theorem tableAt_pml4Path (present : valueAt machine (pml4Path virt) &&& pagePresent ≠ 0) :
    tableAt machine (pml4Path virt) = some (tableOf (valueAt machine (pml4Path virt))) := by
  unfold pml4Path at *
  rw [tableAt_cons, linkedTable, if_pos ⟨by decide, present, by simp⟩]

theorem tableAt_pdpPath (present : valueAt machine (pdpPath virt) &&& pagePresent ≠ 0) :
    tableAt machine (pdpPath virt) = some (tableOf (valueAt machine (pdpPath virt))) := by
  unfold pdpPath at *
  rw [tableAt_cons, linkedTable, if_pos ⟨by simp, present, by simp⟩]

theorem tableAt_pdPath (present : valueAt machine (pdPath virt) &&& pagePresent ≠ 0)
    (plain : valueAt machine (pdPath virt) &&& pageHuge = 0) :
    tableAt machine (pdPath virt) = some (tableOf (valueAt machine (pdPath virt))) := by
  unfold pdPath at *
  rw [tableAt_cons, linkedTable, if_pos ⟨by simp, present, by simp [plain]⟩]

theorem nonzero_of_flag {value : UInt64} (flag : UInt64) (set : value &&& flag ≠ 0) :
    value ≠ 0 := by
  intro zero
  simp [zero] at set

/-- An entry that is not zero has a present entry above it. -/
theorem present_above {slot index : Fin 512} {path : Path}
    (nonzero : valueAt machine (slot :: index :: path) ≠ 0) :
    valueAt machine (index :: path) &&& pagePresent ≠ 0 := by
  intro absent
  apply nonzero
  apply valueAt_of_missing
  rw [tableAt_cons]
  exact linkedTable_absent absent

theorem valueAt_pml4Path :
    entry machine machine.cr3 (pml4Idx virt) = valueAt machine (pml4Path virt) := by
  rw [pml4Path, valueAt_cons (tableAt_nil machine), entry_eq_store _ _ (pml4Idx_toNat virt)]

theorem valueAt_pdpPath (present : valueAt machine (pml4Path virt) &&& pagePresent ≠ 0) :
    entry machine (tableOf (valueAt machine (pml4Path virt))) (pdpIdx virt) =
      valueAt machine (pdpPath virt) := by
  rw [pdpPath, valueAt_cons (tableAt_pml4Path present), entry_eq_store _ _ (pdpIdx_toNat virt)]

theorem valueAt_pdPath (present : valueAt machine (pdpPath virt) &&& pagePresent ≠ 0) :
    entry machine (tableOf (valueAt machine (pdpPath virt))) (pdIdx virt) =
      valueAt machine (pdPath virt) := by
  rw [pdPath, valueAt_cons (tableAt_pdpPath present), entry_eq_store _ _ (pdIdx_toNat virt)]

theorem valueAt_ptPath (present : valueAt machine (pdPath virt) &&& pagePresent ≠ 0)
    (plain : valueAt machine (pdPath virt) &&& pageHuge = 0) :
    entry machine (tableOf (valueAt machine (pdPath virt))) (ptIdx virt) =
      valueAt machine (ptPath virt) := by
  rw [ptPath, valueAt_cons (tableAt_pdPath present plain), entry_eq_store _ _ (ptIdx_toNat virt)]

end Reached

/-- The code's walk reads the entries seen from the root. -/
theorem translate_eq_walk (machine : Machine) (virt : UInt64) :
    translate machine virt = walk (valueAt machine) virt := by
  simp only [translate, walk, valueAt_pml4Path]
  by_cases first : valueAt machine (pml4Path virt) &&& pagePresent = 0
  · rw [if_pos first, if_pos first]
  rw [if_neg first, if_neg first, valueAt_pdpPath first]
  by_cases second : valueAt machine (pdpPath virt) &&& pagePresent = 0
  · rw [if_pos second, if_pos second]
  rw [if_neg second, if_neg second, valueAt_pdPath second]
  by_cases huge : valueAt machine (pdPath virt) &&& pageHuge = 0
  · rw [if_neg (not_not_intro huge), if_neg (not_not_intro huge)]
    by_cases third : valueAt machine (pdPath virt) &&& pagePresent = 0
    · rw [if_pos third, if_pos third]
    · rw [if_neg third, if_neg third, valueAt_ptPath third huge]
  · rw [if_pos huge, if_pos huge]

/-! ### One upper entry -/

/-- What one `Ensure ... exists` block does: an absent entry gets a new table
with the flags of the call, a present one is left alone. -/
structure Ensured (machine ensured : Machine) (path : Path) (flags : UInt64) : Prop where
  tree : TableTree ensured
  values : ∀ other, valueAt ensured other =
    if other = path ∧ valueAt machine path &&& pagePresent = 0 then
      machine.nextFreePage ||| flags
    else valueAt machine other
  kept : valueAt machine path &&& pagePresent ≠ 0 → ensured = machine
  page : valueAt machine path &&& pagePresent = 0 →
    ensured.nextFreePage.toNat = machine.nextFreePage.toNat + 4096
  below : valueAt machine path &&& pagePresent = 0 → tableAt machine path = none

section Ensure

variable {machine : Machine} {path : Path} {table idx flags : UInt64} {index : Fin 512}

theorem TableTree.ensure (tree : TableTree machine)
    (reached : tableAt machine path = some table) (same : idx.toNat = index.val)
    (small : flags.toNat < 4096) (room : machine.nextFreePage.toNat + 4096 < 2 ^ 64) :
    Ensured machine (ensureTable machine table idx flags) (index :: path) flags := by
  have here := valueAt_cons reached index
  by_cases absent : store machine table index &&& pagePresent = 0
  · have linked := tree.link reached same small absent room
    refine ⟨linked.tree, fun other => ?_, fun present => ?_, fun _ => linked.page, fun _ => ?_⟩
    · rw [linked.values other, here]
      simp only [absent, and_true]
    · rw [here] at present
      exact absurd absent present
    · rw [tableAt_cons, here]
      exact linkedTable_absent absent
  · have unchanged : ensureTable machine table idx flags = machine := by
      apply ensureTable_present
      rw [entry_eq_store machine table same]
      exact absent
    rw [unchanged]
    refine ⟨tree, fun other => ?_, fun _ => rfl, fun missing => ?_, fun missing => ?_⟩
    · rw [here, if_neg fun both => absent both.2]
    · rw [here] at missing
      exact absurd missing absent
    · rw [here] at missing
      exact absurd missing absent

/-- Reading the entry back gives what is seen from the root. -/
theorem TableTree.entry_ensureTable (tree : TableTree machine)
    (reached : tableAt machine path = some table) (same : idx.toNat = index.val)
    (small : flags.toNat < 4096) :
    entry (ensureTable machine table idx flags) table idx =
      valueAt (ensureTable machine table idx flags) (index :: path) := by
  have kept : tableAt (ensureTable machine table idx flags) path = some table := by
    by_cases absent : store machine table index &&& pagePresent = 0
    · rw [tree.tableAt_ensureTable reached same absent small,
        if_neg (Path.ne_of_length (by simp)), reached]
    · rw [ensureTable_present, reached]
      rw [entry_eq_store machine table same]
      exact absent
  rw [valueAt_cons kept, entry_eq_store _ _ same]

end Ensure

namespace Ensured

variable {machine ensured : Machine} {path : Path} {flags : UInt64}

/-- An entry away from the path reads as before. -/
theorem values_of_ne (effect : Ensured machine ensured path flags) {other : Path}
    (away : other ≠ path) : valueAt ensured other = valueAt machine other := by
  rw [effect.values, if_neg fun both => away both.1]

/-- Entries that were present never change. -/
theorem values_of_present (effect : Ensured machine ensured path flags) {other : Path}
    (present : valueAt machine other &&& pagePresent ≠ 0) :
    valueAt ensured other = valueAt machine other := by
  rw [effect.values, if_neg]
  intro both
  rw [both.1] at present
  exact present both.2

/-- The entry of the path is present afterwards, if the flags are. -/
theorem present (effect : Ensured machine ensured path flags)
    (pages : machine.nextFreePage.toNat % 4096 = 0) (flagPresent : flags &&& pagePresent ≠ 0) :
    valueAt ensured path &&& pagePresent ≠ 0 := by
  by_cases absent : valueAt machine path &&& pagePresent = 0
  · rw [effect.values, if_pos ⟨rfl, absent⟩, or_and_flag pages (by decide)]
    exact flagPresent
  · rw [effect.values_of_present absent]
    exact absent

/-- No entry becomes huge. -/
theorem plain (effect : Ensured machine ensured path flags)
    (pages : machine.nextFreePage.toNat % 4096 = 0) (flagPlain : flags &&& pageHuge = 0)
    {other : Path} (before : valueAt machine other &&& pageHuge = 0) :
    valueAt ensured other &&& pageHuge = 0 := by
  rw [effect.values]
  split_ifs with new
  · rw [or_and_flag pages (by decide)]
    exact flagPlain
  · exact before

theorem page_le (effect : Ensured machine ensured path flags) :
    ensured.nextFreePage.toNat ≤ machine.nextFreePage.toNat + 4096 := by
  by_cases absent : valueAt machine path &&& pagePresent = 0
  · exact (effect.page absent).le
  · rw [effect.kept absent]
    omega

/-- Below a new table there is nothing, before and after. -/
theorem values_below (effect : Ensured machine ensured path flags)
    (absent : valueAt machine path &&& pagePresent = 0) (slot : Fin 512) :
    valueAt machine (slot :: path) = 0 ∧ valueAt ensured (slot :: path) = 0 := by
  have zero := valueAt_of_missing (effect.below absent) slot
  refine ⟨zero, ?_⟩
  rw [effect.values_of_ne (Path.ne_of_length (by simp)), zero]

/-- A new table changes no translation. -/
theorem translate_eq (effect : Ensured machine ensured path flags) (shallow : path.length < 4)
    (pages : machine.nextFreePage.toNat % 4096 = 0) (flagPlain : flags &&& pageHuge = 0)
    (before : path.length = 3 → valueAt machine path &&& pageHuge = 0) (virt : UInt64) :
    translate ensured virt = translate machine virt := by
  by_cases absent : valueAt machine path &&& pagePresent = 0
  swap
  · rw [effect.kept absent]
  rw [translate_eq_walk, translate_eq_walk]
  have leaf : valueAt ensured (ptPath virt) = valueAt machine (ptPath virt) :=
    effect.values_of_ne (Path.ne_of_length (by simp; omega))
  -- The new table is on the walk at one level or at none.
  by_cases atPml4 : path = pml4Path virt
  · obtain ⟨-, after⟩ := effect.values_below absent (slot 30 virt)
    rw [atPml4] at absent after
    change valueAt ensured (pdpPath virt) = 0 at after
    simp [walk, absent, after]
  · have first := effect.values_of_ne (Ne.symm atPml4)
    by_cases atPdp : path = pdpPath virt
    · obtain ⟨-, after⟩ := effect.values_below absent (slot 21 virt)
      rw [atPdp] at absent after
      change valueAt ensured (pdPath virt) = 0 at after
      simp [walk, first, absent, after]
    · have second := effect.values_of_ne (Ne.symm atPdp)
      by_cases atPd : path = pdPath virt
      · obtain ⟨zero, -⟩ := effect.values_below absent (slot 12 virt)
        rw [atPd] at absent before zero
        change valueAt machine (ptPath virt) = 0 at zero
        have plain := before (pdPath_length virt)
        have after := effect.plain pages flagPlain plain
        simp [walk, first, second, leaf, zero, absent, plain, after]
      · have third := effect.values_of_ne (Ne.symm atPd)
        simp only [walk, first, second, third, leaf]

end Ensured

/-! ### The whole call -/

/-- What the last statement of `mmu_map_page` does: the entry of the page is
set, and nothing else. -/
structure Written (machine written : Machine) (path : Path) (value : UInt64) : Prop where
  tree : TableTree written
  values : ∀ other, valueAt written other =
    if other = path then value else valueAt machine other
  page : written.nextFreePage = machine.nextFreePage

theorem TableTree.write_leaf {machine : Machine} {virt table : UInt64}
    (tree : TableTree machine) (value : UInt64)
    (reached : tableAt machine (pdPath virt) = some table) :
    Written machine (setEntry machine table (ptIdx virt) value) (ptPath virt) value := by
  obtain ⟨kept, -, values⟩ := tree.setEntry_leaf value reached (pdPath_length virt)
    (ptIdx_toNat virt)
  exact ⟨kept, values, rfl⟩

/-- A call that maps: the three upper entries are ensured, then the entry of
the page is written. -/
structure Maps (machine mapped : Machine) (phys virt flags : UInt64) : Prop where
  steps : ∃ withPdp withPd withPt,
    Ensured machine withPdp (pml4Path virt) flags ∧
    Ensured withPdp withPd (pdpPath virt) flags ∧
    Ensured withPd withPt (pdPath virt) flags ∧
    Written withPt mapped (ptPath virt) (phys ||| flags)
  plain : valueAt machine (pdPath virt) &&& pageHuge = 0

/-- Flags that map a page: in the low twelve bits, present, and not huge. -/
structure PlainFlags (flags : UInt64) : Prop where
  small : flags.toNat < 4096
  present : flags &&& pagePresent ≠ 0
  plain : flags &&& pageHuge = 0

instance (flags : UInt64) : Decidable (PlainFlags flags) :=
  decidable_of_iff
    (flags.toNat < 4096 ∧ flags &&& pagePresent ≠ 0 ∧ flags &&& pageHuge = 0)
    ⟨fun ⟨small, present, plain⟩ => ⟨small, present, plain⟩,
      fun good => ⟨good.small, good.present, good.plain⟩⟩

section Call

variable {machine : Machine} {phys virt flags : UInt64}

/-- A call either changes nothing, below 4 MiB or under a huge entry, or maps. -/
theorem mmuMapPage_cases (tree : TableTree machine) (good : PlainFlags flags)
    (room : machine.nextFreePage.toNat + 3 * 4096 < 2 ^ 64) (phys virt : UInt64) :
    (mmuMapPage machine phys virt flags = machine ∧
        (virt < 0x400000 ∨ valueAt machine (pdPath virt) &&& pageHuge ≠ 0)) ∨
      Maps machine (mmuMapPage machine phys virt flags) phys virt flags := by
  unfold mmuMapPage
  by_cases early : virt < 0x400000
  · rw [if_pos early]
    exact .inl ⟨rfl, .inl early⟩
  rw [if_neg early]
  dsimp only
  -- The PML4 entry.
  have first : Ensured machine (ensureTable machine machine.cr3 (pml4Idx virt) flags)
      (pml4Path virt) flags :=
    tree.ensure (tableAt_nil machine) (pml4Idx_toNat virt) good.small (by omega)
  have firstRead := tree.entry_ensureTable (tableAt_nil machine) (pml4Idx_toNat virt) good.small
  generalize ensureTable machine machine.cr3 (pml4Idx virt) flags = withPdp at first firstRead ⊢
  change _ = valueAt withPdp (pml4Path virt) at firstRead
  rw [firstRead]
  have firstReached := tableAt_pml4Path (first.present tree.pages good.present)
  have firstPage := first.page_le
  -- The page directory pointer table entry.
  have second := first.tree.ensure firstReached (pdpIdx_toNat virt) good.small (by omega)
  have secondRead := first.tree.entry_ensureTable firstReached (pdpIdx_toNat virt) good.small
  generalize ensureTable withPdp (tableOf (valueAt withPdp (pml4Path virt))) (pdpIdx virt)
    flags = withPd at second secondRead ⊢
  change Ensured withPdp withPd (pdpPath virt) flags at second
  change _ = valueAt withPd (pdpPath virt) at secondRead
  have secondPresent := second.present first.tree.pages good.present
  rw [secondRead, valueAt_pdPath secondPresent]
  have secondReached := tableAt_pdpPath secondPresent
  have secondPage := second.page_le
  have untouched : valueAt withPd (pdPath virt) = valueAt machine (pdPath virt) := by
    rw [second.values_of_ne (Path.ne_of_length (by simp)),
      first.values_of_ne (Path.ne_of_length (by simp))]
  by_cases huge : valueAt withPd (pdPath virt) &&& pageHuge ≠ 0
  · -- A huge entry exists, so the tables above it did too.
    rw [if_pos huge]
    rw [untouched] at huge
    refine .inl ⟨?_, .inr huge⟩
    have abovePd := present_above (nonzero_of_flag _ huge)
    have abovePdp := present_above (nonzero_of_flag _ abovePd)
    rw [← first.kept abovePdp] at abovePd ⊢
    exact second.kept abovePd
  rw [if_neg huge]
  have plain := not_not.mp huge
  -- The page directory entry.
  have third := second.tree.ensure secondReached (pdIdx_toNat virt) good.small (by omega)
  have thirdRead := second.tree.entry_ensureTable secondReached (pdIdx_toNat virt) good.small
  generalize ensureTable withPd (tableOf (valueAt withPd (pdpPath virt))) (pdIdx virt)
    flags = withPt at third thirdRead ⊢
  change Ensured withPd withPt (pdPath virt) flags at third
  change _ = valueAt withPt (pdPath virt) at thirdRead
  rw [thirdRead]
  have thirdReached := tableAt_pdPath (third.present second.tree.pages good.present)
    (third.plain second.tree.pages good.plain plain)
  -- The page table entry.
  have leaf := third.tree.write_leaf (phys ||| flags) thirdReached
  rw [untouched] at plain
  exact .inr ⟨⟨withPdp, withPd, withPt, first, second, third, leaf⟩, plain⟩

end Call

end NansOS.Mmu
