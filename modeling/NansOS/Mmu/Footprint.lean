import NansOS.Mmu.Tree

/-! Owns what `mmuMapPage` may write, for any flags in the low twelve bits,
also without `PAGE_PRESENT` and with `PAGE_HUGE`: the tables reachable from CR3
and pages it takes itself. Such a call can leave tables that no entry links;
they are new pages, and empty when the walk goes through them. -/

namespace NansOS.Mmu

open NansOS.Foundation
open NansOS.Foundation.Words
open NansOS.Kernel

/-- The bytes a mapping call may write: those of the tables, and every page
not yet taken. -/
def Touched (machine : Machine) (target : Nat) : Prop :=
  machine.nextFreePage.toNat ≤ target ∨
    ∃ path table, tableAt machine path = some table ∧
      table.toNat ≤ target ∧ target < table.toNat + 4096

/-- Part of a mapping call has run: tables were added in new pages, and
nothing but tables and new pages was written. -/
structure Grown (start current : Machine) : Prop where
  tree : TableTree current
  cr3 : current.cr3 = start.cr3
  heapStart : current.heapStart = start.heapStart
  page : start.nextFreePage.toNat ≤ current.nextFreePage.toNat
  tables : ∀ path table, tableAt current path = some table →
    tableAt start path = some table ∨ start.nextFreePage.toNat ≤ table.toNat
  memory : ∀ target, ¬ Touched start target → current.memory target = start.memory target

/-- The table that the walk of a mapping call stands at: one of the tree at
that depth, or a new page that nothing links and that is empty. -/
inductive At (start current : Machine) (depth : Nat) (table : UInt64) : Prop
  | linked (path : Path) (level : path.length = depth)
      (reached : tableAt current path = some table)
  | orphan (new : start.nextFreePage.toNat ≤ table.toNat)
      (below : table.toNat + 4096 ≤ current.nextFreePage.toNat)
      (aligned : table.toNat % 4096 = 0)
      (unlinked : ∀ path, tableAt current path ≠ some table)
      (empty : ∀ index, store current table index = 0)

section Steps

variable {start current : Machine} {depth : Nat} {table idx flags value : UInt64}
variable {index : Fin 512}

theorem Grown.refl (tree : TableTree start) : Grown start start where
  tree := tree
  cr3 := rfl
  heapStart := rfl
  page := le_rfl
  tables := fun _ _ reached => .inl reached
  memory := fun _ _ => rfl

theorem At.aligned (grown : Grown start current) (here : At start current depth table) :
    table.toNat % 4096 = 0 := by
  cases here with
  | linked path level reached => exact grown.tree.aligned path table reached
  | orphan new below aligned unlinked empty => exact aligned

/-- Where the walk stands, a call may write. -/
theorem At.touched (grown : Grown start current) (here : At start current depth table)
    {target : Nat} (lower : table.toNat ≤ target) (upper : target < table.toNat + 4096) :
    Touched start target := by
  cases here with
  | linked path level reached =>
      rcases grown.tables path table reached with old | new
      · exact .inr ⟨path, table, old, lower, upper⟩
      · exact .inl (by omega)
  | orphan new below aligned unlinked empty => exact .inl (by omega)

theorem setEntry_memory (machine : Machine) (table idx value : UInt64) {target : Nat}
    (same : idx.toNat = index.val)
    (outside : ¬ (table.toNat ≤ target ∧ target < table.toNat + 4096)) :
    (setEntry machine table idx value).memory target = machine.memory target := by
  have bound := index.isLt
  refine Memory.write64_eqOn _ _ _ ?_
  simp only [Set.mem_compl_iff, Set.mem_Ico, same]
  omega

private theorem clearedPage_memory (machine : Machine) {target : Nat}
    (taken : target < machine.nextFreePage.toNat) :
    memset machine.mmuAllocPage.2.memory machine.nextFreePage.toNat 0 pageSize target =
      machine.memory target := by
  rw [memset_apply, if_neg (by omega), Machine.mmuAllocPage_memory, if_neg (by omega)]

theorem ensureTable_memory (machine : Machine) (table idx flags : UInt64) {target : Nat}
    (same : idx.toNat = index.val)
    (outside : ¬ (table.toNat ≤ target ∧ target < table.toNat + 4096))
    (taken : target < machine.nextFreePage.toNat) :
    (ensureTable machine table idx flags).memory target = machine.memory target := by
  by_cases absent : entry machine table idx &&& pagePresent = 0
  · rw [ensureTable_absent absent, setEntry_memory _ _ _ _ same outside]
    exact clearedPage_memory machine taken
  · rw [ensureTable_present absent]

theorem ensureTable_heapStart (machine : Machine) (table idx flags : UInt64) :
    (ensureTable machine table idx flags).heapStart = machine.heapStart := by
  unfold ensureTable
  split_ifs <;> rfl

/-- What remains to be shown of a new table: the tree it leaves. -/
theorem Grown.of_newTable (grown : Grown start current) (here : At start current depth table)
    (same : idx.toNat = index.val) (absent : entry current table idx &&& pagePresent = 0)
    (room : current.nextFreePage.toNat + 4096 < 2 ^ 64)
    (tree : TableTree (ensureTable current table idx flags))
    (tables : ∀ path node, tableAt (ensureTable current table idx flags) path = some node →
      tableAt current path = some node ∨ node = current.nextFreePage) :
    Grown start (ensureTable current table idx flags) where
  tree := tree
  cr3 := (ensureTable_cr3 flags).trans grown.cr3
  heapStart := (ensureTable_heapStart current table idx flags).trans grown.heapStart
  page := by
    have page := ensureTable_nextFreePage flags absent room
    have := grown.page
    omega
  tables := by
    intro path node reached
    rcases tables path node reached with old | new
    · exact grown.tables path node old
    · exact .inr (new ▸ grown.page)
  memory := by
    intro target untouched
    have page := grown.page
    rw [ensureTable_memory current table idx flags same, grown.memory target untouched]
    · exact fun inside => untouched (here.touched grown inside.1 inside.2)
    · by_contra beyond
      exact untouched (.inl (by omega))

/-- The entry that an `Ensure ... exists` block leaves, when it was absent. -/
theorem tableOf_newTable (grown : Grown start current) (here : At start current depth table)
    (same : idx.toNat = index.val) (absent : entry current table idx &&& pagePresent = 0)
    (small : flags.toNat < 4096) :
    tableOf (entry (ensureTable current table idx flags) table idx) = current.nextFreePage := by
  have aligned := here.aligned grown
  rw [entry_eq_store _ _ same, store_ensureTable same absent aligned grown.tree.pages flags
    aligned, if_pos ⟨rfl, rfl⟩, tableOf_or grown.tree.pages small]

theorem empty_newTable (grown : Grown start current) (here : At start current depth table)
    (same : idx.toNat = index.val) (absent : entry current table idx &&& pagePresent = 0)
    (below : table.toNat + 4096 ≤ current.nextFreePage.toNat) (slot : Fin 512) :
    store (ensureTable current table idx flags) current.nextFreePage slot = 0 := by
  rw [store_ensureTable same absent (here.aligned grown) grown.tree.pages flags
    grown.tree.pages, if_neg, if_pos rfl]
  rintro ⟨equal, -⟩
  rw [← equal] at below
  omega

/-- A new table under a linked one, which may or may not link it. -/
private theorem Grown.ensure_linked (grown : Grown start current) {path : Path}
    (level : path.length = depth) (reached : tableAt current path = some table)
    (same : idx.toNat = index.val) (absent : entry current table idx &&& pagePresent = 0)
    (small : flags.toNat < 4096) (room : current.nextFreePage.toNat + 4096 < 2 ^ 64) :
    Grown start (ensureTable current table idx flags) ∧
      At start (ensureTable current table idx flags) (depth + 1) current.nextFreePage := by
  have here : At start current depth table := .linked path level reached
  have vacant : store current table index &&& pagePresent = 0 := by
    rw [← entry_eq_store current table same]
    exact absent
  have linked := grown.tree.link reached same small vacant room
  have tables := grown.tree.tableAt_ensureTable reached same vacant small
  have new : ∀ node, linkedTable path.length (current.nextFreePage ||| flags) = some node →
      node = current.nextFreePage := by
    intro node links
    unfold linkedTable at links
    split_ifs at links with condition
    rw [tableOf_or grown.tree.pages small] at links
    exact (Option.some.inj links).symm
  refine ⟨grown.of_newTable here same absent room linked.tree ?_, ?_⟩
  · intro other node atOther
    rw [tables other] at atOther
    split_ifs at atOther with added
    · exact .inr (new node atOther)
    · exact .inl atOther
  · cases links : linkedTable path.length (current.nextFreePage ||| flags) with
    | some node =>
        refine .linked (index :: path) (by simp [level]) ?_
        rw [tables, if_pos rfl, links, new node links]
    | none =>
        have page := linked.page
        refine .orphan grown.page (by omega) grown.tree.pages ?_
          (empty_newTable grown here same absent (grown.tree.below path table reached))
        intro other atOther
        rw [tables other] at atOther
        split_ifs at atOther with added
        · rw [links] at atOther
          cases atOther
        · exact grown.tree.unreached other atOther

/-- A new table under an unlinked one leaves the tree alone. -/
private theorem Grown.ensure_orphan (grown : Grown start current)
    (here : At start current depth table)
    (below : table.toNat + 4096 ≤ current.nextFreePage.toNat)
    (unlinked : ∀ path, tableAt current path ≠ some table)
    (same : idx.toNat = index.val) (absent : entry current table idx &&& pagePresent = 0)
    (room : current.nextFreePage.toNat + 4096 < 2 ^ 64) :
    Grown start (ensureTable current table idx flags) ∧
      At start (ensureTable current table idx flags) (depth + 1) current.nextFreePage := by
  have page := ensureTable_nextFreePage flags absent room
  have pages := grown.tree.pages
  obtain ⟨tree, tables, -⟩ := grown.tree.congr
    (ensureTable current table idx flags) (ensureTable_cr3 flags)
    (by
      intro other node slot atOther
      rw [store_ensureTable same absent (here.aligned grown) grown.tree.pages flags
        (grown.tree.aligned other node atOther), if_neg, if_neg]
      · intro fresh
        rw [fresh] at atOther
        exact grown.tree.unreached other atOther
      · rintro ⟨rfl, -⟩
        exact unlinked other atOther)
    (by omega) (by omega)
  refine ⟨grown.of_newTable here same absent room tree ?_, .orphan grown.page (by omega) pages ?_
    (empty_newTable grown here same absent below)⟩
  · intro other node atOther
    rw [tables] at atOther
    exact .inl atOther
  · intro other atOther
    rw [tables] at atOther
    exact grown.tree.unreached other atOther

/-- One `Ensure ... exists` block, and the step down that follows it. -/
theorem Grown.ensure (grown : Grown start current) (here : At start current depth table)
    (upper : depth < 3) (same : idx.toNat = index.val) (small : flags.toNat < 4096)
    (room : current.nextFreePage.toNat + 4096 < 2 ^ 64)
    (plain : depth = 2 → entry current table idx &&& pageHuge = 0) :
    Grown start (ensureTable current table idx flags) ∧
      At start (ensureTable current table idx flags) (depth + 1)
        (tableOf (entry (ensureTable current table idx flags) table idx)) ∧
      (ensureTable current table idx flags).nextFreePage.toNat ≤
        current.nextFreePage.toNat + 4096 := by
  by_cases absent : entry current table idx &&& pagePresent = 0
  · have page := ensureTable_nextFreePage flags absent room
    rw [tableOf_newTable grown here same absent small, page]
    cases here with
    | linked path level reached =>
        obtain ⟨next, down⟩ := grown.ensure_linked level reached same absent small room
        exact ⟨next, down, le_rfl⟩
    | orphan new below aligned unlinked empty =>
        have here : At start current depth table := .orphan new below aligned unlinked empty
        obtain ⟨next, down⟩ := grown.ensure_orphan here below unlinked same absent room
        exact ⟨next, down, le_rfl⟩
  · rw [ensureTable_present absent]
    refine ⟨grown, ?_, by omega⟩
    cases here with
    | linked path level reached =>
        refine .linked (index :: path) (by simp [level]) ?_
        rw [tableAt_cons, valueAt_cons reached, ← entry_eq_store current table same, linkedTable,
          if_pos]
        refine ⟨by omega, absent, fun deep => deep.2 (plain ?_)⟩
        omega
    | orphan new below aligned unlinked empty =>
        rw [entry_eq_store current table same, empty] at absent
        exact absurd (by simp) absent

/-- The last statement: the entry of the page. -/
theorem Grown.write (grown : Grown start current) (here : At start current 3 table)
    (same : idx.toNat = index.val) : Grown start (setEntry current table idx value) := by
  have memory : ∀ target, ¬ Touched start target →
      (setEntry current table idx value).memory target = start.memory target := by
    intro target untouched
    rw [setEntry_memory current table idx value same, grown.memory target untouched]
    exact fun inside => untouched (here.touched grown inside.1 inside.2)
  cases here with
  | linked path level reached =>
      obtain ⟨tree, tables, -⟩ := grown.tree.setEntry_leaf value reached level same
      refine ⟨tree, grown.cr3, grown.heapStart, grown.page, ?_, memory⟩
      intro path node reached
      rw [tables] at reached
      exact grown.tables path node reached
  | orphan new below aligned unlinked empty =>
      obtain ⟨tree, tables, -⟩ := grown.tree.congr
        (setEntry current table idx value) rfl
        (by
          intro other node slot atOther
          rw [store_setEntry same aligned (grown.tree.aligned other node atOther), if_neg]
          rintro ⟨rfl, -⟩
          exact unlinked other atOther)
        le_rfl grown.tree.pages
      refine ⟨tree, grown.cr3, grown.heapStart, grown.page, ?_, memory⟩
      intro path node reached
      rw [tables] at reached
      exact grown.tables path node reached

end Steps

/-- A mapping call writes tables and pages it takes, and keeps the tree. -/
theorem mmuMapPage_grown {machine : Machine} {flags : UInt64} (tree : TableTree machine)
    (small : flags.toNat < 4096) (room : machine.nextFreePage.toNat + 3 * 4096 < 2 ^ 64)
    (phys virt : UInt64) :
    Grown machine (mmuMapPage machine phys virt flags) ∧
      (mmuMapPage machine phys virt flags).nextFreePage.toNat ≤
        machine.nextFreePage.toNat + 3 * 4096 := by
  unfold mmuMapPage
  by_cases early : virt < 0x400000
  · rw [if_pos early]
    exact ⟨.refl tree, by omega⟩
  rw [if_neg early]
  dsimp only
  have root : At machine machine 0 machine.cr3 := .linked [] rfl rfl
  obtain ⟨first, atPdp, firstPage⟩ := (Grown.refl tree).ensure root (by omega)
    (pml4Idx_toNat virt) small (by omega) (by omega)
  generalize ensureTable machine machine.cr3 (pml4Idx virt) flags = withPdp at *
  obtain ⟨second, atPd, secondPage⟩ := first.ensure atPdp (by omega) (pdpIdx_toNat virt) small
    (by omega) (by omega)
  generalize tableOf (entry withPdp machine.cr3 (pml4Idx virt)) = pdp at *
  generalize ensureTable withPdp pdp (pdpIdx virt) flags = withPd at *
  generalize tableOf (entry withPd pdp (pdpIdx virt)) = pd at *
  by_cases huge : entry withPd pd (pdIdx virt) &&& pageHuge = 0
  · rw [if_neg (not_not_intro huge)]
    obtain ⟨third, atPt, thirdPage⟩ := second.ensure atPd (by omega) (pdIdx_toNat virt) small
      (by omega) (fun _ => huge)
    generalize ensureTable withPd pd (pdIdx virt) flags = withPt at *
    refine ⟨third.write atPt (ptIdx_toNat virt), ?_⟩
    rw [setEntry_nextFreePage]
    omega
  · rw [if_pos huge]
    exact ⟨second, by omega⟩

end NansOS.Mmu
