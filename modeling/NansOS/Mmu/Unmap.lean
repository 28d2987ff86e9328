import NansOS.Mmu.Translation
import NansOS.Mmu.Footprint

/-! Owns `mmuUnmapPage`, whose walk starts at the fixed address `0x1000` and not
at CR3. In every state it clears the page-table entry that this walk ends at,
if any, and a page loses its translation exactly when its own walk, from CR3,
reads that entry. It therefore unmaps a mapped page only in states where the
two walks meet. -/

namespace NansOS.Mmu

open NansOS.Foundation
open NansOS.Foundation.Words
open NansOS.Kernel

/-- The page-table entry at the end of the walk for `virt` from `root`, if the
three entries above it are present. -/
def pageTableEntry (machine : Machine) (root virt : UInt64) : Option Nat :=
  if entry machine root (pml4Idx virt) &&& pagePresent = 0 then none
  else
    let pdp := tableOf (entry machine root (pml4Idx virt))
    if entry machine pdp (pdpIdx virt) &&& pagePresent = 0 then none
    else
      let pd := tableOf (entry machine pdp (pdpIdx virt))
      if entry machine pd (pdIdx virt) &&& pagePresent = 0 then none
      else
        let pt := tableOf (entry machine pd (pdIdx virt))
        some (pt.toNat + 8 * (ptIdx virt).toNat)

/-- The addresses of the entries that the walk for `virt` from CR3 reads. -/
def entriesRead (machine : Machine) (virt : UInt64) : List Nat :=
  let pml4 := machine.cr3
  let pdp := tableOf (entry machine pml4 (pml4Idx virt))
  let pd := tableOf (entry machine pdp (pdpIdx virt))
  let pt := tableOf (entry machine pd (pdIdx virt))
  let atPml4 := pml4.toNat + 8 * (pml4Idx virt).toNat
  let atPdp := pdp.toNat + 8 * (pdpIdx virt).toNat
  let atPd := pd.toNat + 8 * (pdIdx virt).toNat
  let atPt := pt.toNat + 8 * (ptIdx virt).toNat
  if entry machine pml4 (pml4Idx virt) &&& pagePresent = 0 then [atPml4]
  else if entry machine pdp (pdpIdx virt) &&& pagePresent = 0 then [atPml4, atPdp]
  else if entry machine pd (pdIdx virt) &&& pageHuge ≠ 0 then [atPml4, atPdp, atPd]
  else if entry machine pd (pdIdx virt) &&& pagePresent = 0 then [atPml4, atPdp, atPd]
  else [atPml4, atPdp, atPd, atPt]

/-- Unmapping a page: it is unmapped afterwards, and every other page has the
translation it had. -/
def Unmaps (machine : Machine) (virt : UInt64) : Prop :=
  mmuIsMapped (mmuUnmapPage machine virt) virt = false ∧
    ∀ page, pageNumber page ≠ pageNumber virt →
      translate (mmuUnmapPage machine virt) page = translate machine page

/-- The page-table entry for `virt` under the table at `0x1000` is read on the
walk of a mapped page exactly when this is the page of `virt`. -/
def WalksMeet (machine : Machine) (virt : UInt64) : Prop :=
  ∀ page, mmuIsMapped machine page = true →
    ((∃ address ∈ pageTableEntry machine 0x1000 virt, address ∈ entriesRead machine page) ↔
      pageNumber page = pageNumber virt)

/-- Clear one entry. -/
def clearEntry (machine : Machine) (address : Nat) : Machine :=
  { machine with memory := machine.memory.write64 address 0 }

theorem mmuUnmapPage_eq (machine : Machine) (virt : UInt64) :
    mmuUnmapPage machine virt =
      (pageTableEntry machine 0x1000 virt).elim machine (clearEntry machine) := by
  simp only [mmuUnmapPage, pageTableEntry]
  split_ifs <;> rfl

theorem pageTableEntry_aligned {machine : Machine} {root virt : UInt64} {address : Nat}
    (found : pageTableEntry machine root virt = some address) : address % 8 = 0 := by
  unfold pageTableEntry at found
  dsimp only at found
  split_ifs at found
  have aligned := tableOf_aligned (entry machine
    (tableOf (entry machine (tableOf (entry machine root (pml4Idx virt))) (pdpIdx virt)))
    (pdIdx virt))
  have := Option.some.inj found
  omega

/-- Entries of page-aligned tables change only when they are the one cleared. -/
theorem entry_clearEntry (machine : Machine) {address : Nat} (word : address % 8 = 0)
    {table : UInt64} (aligned : table.toNat % 4096 = 0) (idx : UInt64) :
    entry (clearEntry machine address) table idx =
      if table.toNat + 8 * idx.toNat = address then 0 else entry machine table idx := by
  unfold entry clearEntry
  split_ifs with here
  · rw [here, Memory.read64_write64_same]
  · rw [Memory.read64_write64_disjoint]
    omega

/-- A page loses its translation exactly when its walk reads the entry that is
cleared. -/
theorem translate_clearEntry {machine : Machine} (root : machine.cr3.toNat % 4096 = 0)
    {address : Nat} (word : address % 8 = 0) (page : UInt64) :
    translate (clearEntry machine address) page =
      if address ∈ entriesRead machine page then none else translate machine page := by
  have read := fun (table : UInt64) (aligned : table.toNat % 4096 = 0) (idx : UInt64) =>
    entry_clearEntry machine word aligned idx
  have readTable := fun (value idx : UInt64) => read (tableOf value) (tableOf_aligned value) idx
  have sameRoot : (clearEntry machine address).cr3 = machine.cr3 := rfl
  simp only [translate, entriesRead, sameRoot, read machine.cr3 root]
  -- At each level the entry is the one cleared, or reads as before.
  by_cases atPml4 : machine.cr3.toNat + 8 * (pml4Idx page).toNat = address
  · simp only [if_pos atPml4, UInt64.zero_and, if_true]
    rw [if_pos]
    split_ifs <;> simp [atPml4]
  rw [if_neg atPml4]
  by_cases first : entry machine machine.cr3 (pml4Idx page) &&& pagePresent = 0
  · simp only [if_pos first, ite_self]
  simp only [if_neg first, readTable]
  generalize tableOf (entry machine machine.cr3 (pml4Idx page)) = pdp
  by_cases atPdp : pdp.toNat + 8 * (pdpIdx page).toNat = address
  · simp only [if_pos atPdp, UInt64.zero_and, if_true]
    rw [if_pos]
    split_ifs <;> simp [atPdp]
  rw [if_neg atPdp]
  by_cases second : entry machine pdp (pdpIdx page) &&& pagePresent = 0
  · simp only [if_pos second, ite_self]
  simp only [if_neg second]
  generalize tableOf (entry machine pdp (pdpIdx page)) = pd
  by_cases atPd : pd.toNat + 8 * (pdIdx page).toNat = address
  · simp only [if_pos atPd, UInt64.zero_and, if_true, ne_eq, not_true_eq_false, if_false]
    rw [if_pos]
    split_ifs <;> simp [atPd]
  rw [if_neg atPd]
  by_cases huge : entry machine pd (pdIdx page) &&& pageHuge ≠ 0
  · simp [huge, Ne.symm atPml4, Ne.symm atPdp, Ne.symm atPd]
  rw [if_neg huge, if_neg huge, if_neg huge]
  by_cases third : entry machine pd (pdIdx page) &&& pagePresent = 0
  · simp only [if_pos third, ite_self]
  simp only [if_neg third]
  generalize tableOf (entry machine pd (pdIdx page)) = pt
  by_cases atPt : pt.toNat + 8 * (ptIdx page).toNat = address
  · simp [atPt]
  · simp [atPt, Ne.symm atPml4, Ne.symm atPdp, Ne.symm atPd, Ne.symm atPt]

theorem translate_mmuUnmapPage {machine : Machine} (root : machine.cr3.toNat % 4096 = 0)
    (virt page : UInt64) :
    translate (mmuUnmapPage machine virt) page =
      if ∃ address ∈ pageTableEntry machine 0x1000 virt, address ∈ entriesRead machine page then
        none
      else translate machine page := by
  rw [mmuUnmapPage_eq]
  cases found : pageTableEntry machine 0x1000 virt with
  | none => simp
  | some address =>
      rw [Option.elim_some, translate_clearEntry root (pageTableEntry_aligned found)]
      simp

theorem mmuIsMapped_congr (machine : Machine) {left right : UInt64}
    (same : pageNumber left = pageNumber right) :
    mmuIsMapped machine left = mmuIsMapped machine right := by
  have path := ptPath_eq_iff.mpr same
  simp only [ptPath, pdPath, pdpPath, pml4Path, List.cons.injEq, and_true] at path
  obtain ⟨inPt, inPd, inPdp, inPml4⟩ := path
  have pml4 : pml4Idx left = pml4Idx right :=
    UInt64.toNat_inj.mp (by rw [pml4Idx_toNat, pml4Idx_toNat, inPml4])
  have pdp : pdpIdx left = pdpIdx right :=
    UInt64.toNat_inj.mp (by rw [pdpIdx_toNat, pdpIdx_toNat, inPdp])
  have pd : pdIdx left = pdIdx right :=
    UInt64.toNat_inj.mp (by rw [pdIdx_toNat, pdIdx_toNat, inPd])
  have pt : ptIdx left = ptIdx right :=
    UInt64.toNat_inj.mp (by rw [ptIdx_toNat, ptIdx_toNat, inPt])
  simp only [mmuIsMapped, pml4, pdp, pd, pt]

/-- In a state with a page-aligned root, unmapping works for a page exactly
when the walk from `0x1000` meets the walks from CR3 in that page alone. -/
theorem unmaps_iff {machine : Machine} (root : machine.cr3.toNat % 4096 = 0) (virt : UInt64) :
    Unmaps machine virt ↔ WalksMeet machine virt := by
  have after := translate_mmuUnmapPage root virt
  constructor
  · rintro ⟨gone, others⟩ page mapped
    rw [← isSome_translate] at mapped
    constructor
    · intro meets
      by_contra different
      have kept := others page different
      rw [after page, if_pos meets] at kept
      rw [← kept] at mapped
      cases mapped
    · intro same
      by_contra apart
      rw [← mmuIsMapped_congr _ same, ← isSome_translate, after page, if_neg apart, mapped] at gone
      cases gone
  · intro meet
    refine ⟨?_, fun page different => ?_⟩
    · rw [← isSome_translate, after virt]
      split_ifs with meets
      · rfl
      · by_contra still
        have mapped : mmuIsMapped machine virt = true := by
          rw [← isSome_translate]
          exact Bool.eq_true_of_not_eq_false still
        exact meets ((meet virt mapped).mpr rfl)
    · rw [after page]
      split_ifs with meets
      · by_contra changed
        have mapped : mmuIsMapped machine page = true := by
          rw [← isSome_translate]
          exact Option.isSome_iff_ne_none.mpr fun none => changed none.symm
        exact different ((meet page mapped).mp meets)
      · rfl

/-! ### Runs -/

/-- A call of `mmu_map_page` or of `mmu_unmap_page`. -/
inductive MmuCall
  | map (call : MapCall)
  | unmap (virt : UInt64)

/-- One step of a run. -/
def mmuCall (machine : Machine) : MmuCall → Machine
  | .map call => mapCall machine call
  | .unmap virt => mmuUnmapPage machine virt

theorem mmuMapPage_cr3 (machine : Machine) (phys virt flags : UInt64) :
    (mmuMapPage machine phys virt flags).cr3 = machine.cr3 := by
  unfold mmuMapPage
  dsimp only
  split_ifs
  · rfl
  · rw [ensureTable_cr3, ensureTable_cr3]
  · rw [setEntry_cr3, ensureTable_cr3, ensureTable_cr3, ensureTable_cr3]

theorem mmuUnmapPage_cr3 (machine : Machine) (virt : UInt64) :
    (mmuUnmapPage machine virt).cr3 = machine.cr3 := by
  rw [mmuUnmapPage_eq]
  cases pageTableEntry machine 0x1000 virt with
  | none => rfl
  | some address => rfl

/-- In every state that mapping and unmapping calls reach from the boot tables,
and for every address, unmapping works exactly when the walks meet in that page
alone. -/
theorem unmaps_run_iff {boot : Machine} {l4 l3 l2 l22 : UInt64}
    (tables : BootTables boot l4 l3 l2 l22) (calls : List MmuCall) (virt : UInt64) :
    Unmaps (run mmuCall boot calls) virt ↔ WalksMeet (run mmuCall boot calls) virt := by
  have root : (run mmuCall boot calls).cr3 = boot.cr3 :=
    run_invariant (fun (_ : Machine) (_ : MmuCall) => True)
      (fun machine => machine.cr3 = boot.cr3)
      (fun machine call same _ => by
        cases call with
        | map call => exact (mmuMapPage_cr3 machine _ _ _).trans same
        | unmap virt => exact (mmuUnmapPage_cr3 machine virt).trans same)
      rfl (along_of_forall fun _ _ => trivial)
  apply unmaps_iff
  rw [root, tables.root]
  exact tables.aligned l4 (by simp)

/-- While the page at `0x1000` holds no present entry for an address, the walks
meet only in the sense that the address is not mapped. -/
theorem walksMeet_of_absent {machine : Machine} {virt : UInt64}
    (absent : entry machine 0x1000 (pml4Idx virt) &&& pagePresent = 0) :
    WalksMeet machine virt ↔ mmuIsMapped machine virt = false := by
  have none : pageTableEntry machine 0x1000 virt = none := by
    rw [pageTableEntry, if_pos absent]
  unfold WalksMeet
  rw [none]
  constructor
  · intro meet
    by_contra still
    simpa using (meet virt (Bool.eq_true_of_not_eq_false still)).mpr rfl
  · intro unmapped page mapped
    refine ⟨fun impossible => by simp at impossible, fun same => ?_⟩
    rw [mmuIsMapped_congr machine same, unmapped] at mapped
    cases mapped

/-! ### A page that stays mapped -/

/-- The boot tables of an otherwise empty memory. -/
def zeroBoot : Machine := bootMachine (fun _ => 0) 0x101000 0x102000 0x103000 0x104000

theorem zeroBoot_page {target : Nat} (inside : target ∈ Set.Ico 4096 (4096 + 4096)) :
    zeroBoot.memory target = 0 := by
  have frame : Set.EqOn (setUpPageTables (fun _ => 0) 0x101000 0x102000 0x103000 0x104000)
      (fun _ => 0) (Set.Ico 4096 (4096 + 4096)) := setUpPageTables_eqOn (by simp)
  simp only [zeroBoot, bootMachine, frame inside]

/-- Mapping calls leave the page at `0x1000` empty, which is no table. -/
theorem grown_page (phys virt flags : UInt64) (small : flags.toNat < 4096) {target : Nat}
    (inside : target ∈ Set.Ico 4096 (4096 + 4096)) :
    (mmuMapPage zeroBoot phys virt flags).memory target = 0 := by
  have tables : BootTables zeroBoot 0x101000 0x102000 0x103000 0x104000 := zeroBoot_tables
  obtain ⟨grown, -⟩ := mmuMapPage_grown tables.tree small
    (by rw [tables.fresh]; decide) phys virt
  have within := Set.mem_Ico.mp inside
  rw [grown.memory target]
  · exact zeroBoot_page inside
  · rintro (beyond | ⟨path, table, reached, lower, upper⟩)
    · rw [tables.fresh] at beyond
      have : (0x400000 : UInt64).toNat = 0x400000 := rfl
      omega
    · have high : 0x101000 ≤ table.toNat := by
        rcases tables.tableAt_cases reached with ⟨-, rfl⟩ | ⟨-, rfl⟩ | ⟨-, rfl⟩ | ⟨-, rfl⟩ <;>
          decide
      omega

theorem entry_of_page {machine : Machine}
    (zero : ∀ target ∈ Set.Ico 4096 (4096 + 4096), machine.memory target = 0) (virt : UInt64) :
    entry machine 0x1000 (pml4Idx virt) = 0 := by
  have bound := (slot 39 virt).isLt
  have thousand : (0x1000 : UInt64).toNat = 4096 := rfl
  refine Memory.read64_of_zero fun target inside => zero target ?_
  rw [pml4Idx_toNat, thousand] at inside
  have inside := Set.mem_Ico.mp inside
  exact Set.mem_Ico.mpr ⟨by omega, by omega⟩

/-- One mapped page, then unmapped: it is still mapped. -/
theorem unmapped_page_stays :
    ∃ l4 l3 l2 l22, BootTables zeroBoot l4 l3 l2 l22 ∧
      mmuIsMapped (mmuUnmapPage (run mmuCall zeroBoot [.map ⟨0x5000, 0x80000000, 3⟩])
        0x80000000) 0x80000000 = true := by
  have absent : entry (mapCall zeroBoot ⟨0x5000, 0x80000000, 3⟩) 0x1000
      (pml4Idx 0x80000000) &&& pagePresent = 0 := by
    rw [mapCall, entry_of_page fun _ => grown_page 0x5000 0x80000000 3 (by decide)]
    decide
  have kept : mmuUnmapPage (mapCall zeroBoot ⟨0x5000, 0x80000000, 3⟩) 0x80000000 =
      mapCall zeroBoot ⟨0x5000, 0x80000000, 3⟩ := by
    rw [mmuUnmapPage_eq, pageTableEntry, if_pos absent, Option.elim_none]
  refine ⟨_, _, _, _, zeroBoot_tables, ?_⟩
  rw [run_cons, run_nil, mmuCall, kept, ← isSome_translate, zeroBoot,
    (BootTables.mapped zeroBoot_tables).translate_step zeroBoot_tables (by decide)]
  decide

/-- Before any call, unmapping an address that is not mapped does no harm. -/
theorem unmapped_address_unmaps : Unmaps (run mmuCall zeroBoot []) 0x80000000 := by
  have tables : BootTables zeroBoot 0x101000 0x102000 0x103000 0x104000 := zeroBoot_tables
  have absent : entry zeroBoot 0x1000 (pml4Idx 0x80000000) &&& pagePresent = 0 := by
    rw [entry_of_page fun _ => zeroBoot_page]
    decide
  rw [unmaps_run_iff tables, run_nil, walksMeet_of_absent absent, ← isSome_translate,
    tables.translate_high (by decide)]
  rfl

end NansOS.Mmu
