import NansOS.Mmu.PageTables
import NansOS.Foundation.Radix

/-! Owns the page tables as a radix tree: `tableAt` follows present entries from
CR3, and `valueAt` reads the entry at the end of a path, zero where the table
that would hold it does not exist. `TableTree` is the invariant of the tables
in raw memory: every table page has one parent entry, lies on a page boundary
and lies below the bump pointer. The two primitive updates of `mmuMapPage`,
linking a new table and writing an entry of a page table, change `valueAt` at
one path only. -/

namespace NansOS.Mmu

open NansOS.Foundation
open NansOS.Foundation.Words
open NansOS.Kernel

/-- A path of table indices, deepest first. -/
abbrev Path := List (Fin 512)

/-- Nine bits of a virtual address. -/
def slot (shift : Nat) (virt : UInt64) : Fin 512 :=
  ⟨virt.toNat / 2 ^ shift % 512, Nat.mod_lt _ (by decide)⟩

theorem pml4Idx_toNat (virt : UInt64) : (pml4Idx virt).toNat = (slot 39 virt).val :=
  nine_bits_toNat (by decide)

theorem pdpIdx_toNat (virt : UInt64) : (pdpIdx virt).toNat = (slot 30 virt).val :=
  nine_bits_toNat (by decide)

theorem pdIdx_toNat (virt : UInt64) : (pdIdx virt).toNat = (slot 21 virt).val :=
  nine_bits_toNat (by decide)

theorem ptIdx_toNat (virt : UInt64) : (ptIdx virt).toNat = (slot 12 virt).val :=
  nine_bits_toNat (by decide)

/-! ### Entries with flags -/

theorem tableOf_aligned (entry : UInt64) : (tableOf entry).toNat % 4096 = 0 :=
  and_not_low_aligned entry

section Flags

variable {address flags bits : UInt64}

/-- Masking the flags off undoes or-ing them in. -/
theorem tableOf_or (aligned : address.toNat % 4096 = 0) (small : flags.toNat < 4096) :
    tableOf (address ||| flags) = address :=
  or_and_not (low_clear_iff.mpr aligned) (low_inside small)

theorem or_and_flag (aligned : address.toNat % 4096 = 0) (part : 0xFFF &&& bits = bits) :
    (address ||| flags) &&& bits = flags &&& bits :=
  or_and_of_clear (low_clear_iff.mpr aligned) part

end Flags

/-! ### The tree -/

/-- The entry of a table, by index. -/
def store (machine : Machine) (table : UInt64) (index : Fin 512) : UInt64 :=
  machine.memory.read64 (table.toNat + 8 * index.val)

theorem entry_eq_store (machine : Machine) (table : UInt64) {idx : UInt64} {index : Fin 512}
    (same : idx.toNat = index.val) : entry machine table idx = store machine table index := by
  rw [entry, store, same]

/-- The table an entry links to: at the first three levels, when present, and
not when a page directory entry is huge. -/
def linkedTable (depth : Nat) (entry : UInt64) : Option UInt64 :=
  if depth < 3 ∧ entry &&& pagePresent ≠ 0 ∧ ¬ (depth = 2 ∧ entry &&& pageHuge ≠ 0) then
    some (tableOf entry)
  else none

@[simp] theorem linkedTable_zero (depth : Nat) : linkedTable depth 0 = none := by
  simp [linkedTable]

theorem linkedTable_absent {depth : Nat} {entry : UInt64}
    (absent : entry &&& pagePresent = 0) : linkedTable depth entry = none := by
  simp [linkedTable, absent]

/-- The table at the end of a path from CR3. -/
def tableAt (machine : Machine) : Path → Option UInt64 :=
  Radix.nodeAt linkedTable (store machine) machine.cr3

/-- The entry at the end of a path, zero if its table does not exist. -/
def valueAt (machine : Machine) : Path → UInt64
  | [] => 0
  | index :: path =>
      match tableAt machine path with
      | some table => store machine table index
      | none => 0

theorem valueAt_cons {machine : Machine} {path : Path} {table : UInt64}
    (reached : tableAt machine path = some table) (index : Fin 512) :
    valueAt machine (index :: path) = store machine table index := by
  simp only [valueAt, reached]

theorem valueAt_of_missing {machine : Machine} {path : Path}
    (missing : tableAt machine path = none) (index : Fin 512) :
    valueAt machine (index :: path) = 0 := by
  simp only [valueAt, missing]

theorem tableAt_cons (machine : Machine) (index : Fin 512) (path : Path) :
    tableAt machine (index :: path) =
      linkedTable path.length (valueAt machine (index :: path)) := by
  unfold tableAt
  cases reached : Radix.nodeAt linkedTable (store machine) machine.cr3 path with
  | none => simp [Radix.nodeAt, reached, valueAt, tableAt]
  | some table => simp [Radix.nodeAt, reached, valueAt, tableAt]

/-- The tables form a tree of page-aligned pages below the bump pointer. -/
structure TableTree (machine : Machine) : Prop where
  onePath : Radix.OnePath linkedTable (store machine) machine.cr3
  aligned : ∀ path table, tableAt machine path = some table → table.toNat % 4096 = 0
  below : ∀ path table, tableAt machine path = some table →
    table.toNat + 4096 ≤ machine.nextFreePage.toNat
  pages : machine.nextFreePage.toNat % 4096 = 0

/-! ### Writing entries -/

section Writes

variable {machine : Machine} {table other : UInt64} {idx value : UInt64}
variable {index : Fin 512}

@[simp] theorem setEntry_cr3 :
    (setEntry machine table idx value).cr3 = machine.cr3 := rfl

@[simp] theorem setEntry_nextFreePage :
    (setEntry machine table idx value).nextFreePage = machine.nextFreePage := rfl

/-- Entries of page-aligned tables do not overlap. -/
theorem store_setEntry (same : idx.toNat = index.val) (aligned : table.toNat % 4096 = 0)
    (otherAligned : other.toNat % 4096 = 0) (otherIndex : Fin 512) :
    store (setEntry machine table idx value) other otherIndex =
      if other = table ∧ otherIndex = index then value
      else store machine other otherIndex := by
  have indexBound := index.isLt
  have otherBound := otherIndex.isLt
  unfold store setEntry
  rw [same]
  by_cases here : other = table ∧ otherIndex = index
  · obtain ⟨rfl, rfl⟩ := here
    rw [if_pos ⟨rfl, rfl⟩, Memory.read64_write64_same]
  · rw [if_neg here, Memory.read64_write64_disjoint]
    by_contra overlap
    apply here
    have tables : other.toNat = table.toNat := by omega
    exact ⟨UInt64.toNat_inj.mp tables, Fin.ext (by omega)⟩

/-- A table that has just been allocated is empty, and the others are kept. -/
theorem store_ensureTable (same : idx.toNat = index.val)
    (absent : entry machine table idx &&& pagePresent = 0)
    (aligned : table.toNat % 4096 = 0) (pages : machine.nextFreePage.toNat % 4096 = 0)
    (flags : UInt64)
    (otherAligned : other.toNat % 4096 = 0) (otherIndex : Fin 512) :
    store (ensureTable machine table idx flags) other otherIndex =
      if other = table ∧ otherIndex = index then machine.nextFreePage ||| flags
      else if other = machine.nextFreePage then 0
      else store machine other otherIndex := by
  have otherBound := otherIndex.isLt
  unfold ensureTable
  rw [if_pos absent]
  dsimp only
  rw [store_setEntry same aligned otherAligned]
  by_cases here : other = table ∧ otherIndex = index
  · rw [if_pos here, if_pos here, Machine.mmuAllocPage_page]
  · rw [if_neg here, if_neg here]
    by_cases fresh : other = machine.nextFreePage
    · rw [if_pos fresh, store, fresh]
      apply Memory.read64_of_zero
      intro target inside
      have inside := Set.mem_Ico.mp inside
      change memset machine.mmuAllocPage.2.memory machine.nextFreePage.toNat 0 pageSize target = 0
      rw [memset_apply, if_pos]
      simp only [pageSize]
      omega
    · rw [if_neg fresh, store, store]
      apply Memory.read64_congr
      have apart : other.toNat ≠ machine.nextFreePage.toNat := fun equal =>
        fresh (UInt64.toNat_inj.mp equal)
      intro target inside
      have inside := Set.mem_Ico.mp inside
      have outside : ¬ (machine.nextFreePage.toNat ≤ target ∧
          target < machine.nextFreePage.toNat + pageSize) := by
        simp only [pageSize]
        omega
      change memset machine.mmuAllocPage.2.memory machine.nextFreePage.toNat 0 pageSize target = _
      rw [memset_apply, if_neg outside, Machine.mmuAllocPage_memory, if_neg outside]

theorem ensureTable_absent {flags : UInt64}
    (absent : entry machine table idx &&& pagePresent = 0) :
    ensureTable machine table idx flags =
      setEntry
        { machine.mmuAllocPage.2 with
          memory := memset machine.mmuAllocPage.2.memory machine.nextFreePage.toNat 0 pageSize }
        table idx (machine.nextFreePage ||| flags) := by
  rw [ensureTable, if_pos absent]
  rfl

theorem ensureTable_present {flags : UInt64}
    (present : entry machine table idx &&& pagePresent ≠ 0) :
    ensureTable machine table idx flags = machine := by
  rw [ensureTable, if_neg present]

theorem ensureTable_cr3 (flags : UInt64) :
    (ensureTable machine table idx flags).cr3 = machine.cr3 := by
  unfold ensureTable
  split_ifs <;> rfl

theorem ensureTable_nextFreePage (flags : UInt64)
    (absent : entry machine table idx &&& pagePresent = 0)
    (room : machine.nextFreePage.toNat + 4096 < 2 ^ 64) :
    (ensureTable machine table idx flags).nextFreePage.toNat =
      machine.nextFreePage.toNat + 4096 := by
  unfold ensureTable
  rw [if_pos absent]
  exact machine.mmuAllocPage_nextFreePage room

end Writes

/-! ### Updates of the tree -/

namespace TableTree

variable {machine changed : Machine} {path : Path} {table idx flags value : UInt64}
variable {index : Fin 512}

/-- The page handed out next is not a table yet. -/
theorem unreached (tree : TableTree machine) (path : Path) :
    tableAt machine path ≠ some machine.nextFreePage := by
  intro reached
  have below := tree.below path _ reached
  omega

/-- The entries seen from the root, when one entry was written and a table may
have been linked there: everything else reads as before. -/
theorem valueAt_written (tree : TableTree machine) (reached : tableAt machine path = some table)
    (tables : ∀ other, other ≠ index :: path →
      tableAt changed other = tableAt machine other)
    (agree : ∀ other node slot, tableAt machine other = some node →
      ¬ (node = table ∧ slot = index) → store changed node slot = store machine node slot)
    (below : ∀ slot, valueAt changed (slot :: index :: path) =
      valueAt machine (slot :: index :: path)) (other : Path) :
    valueAt changed other =
      if other = index :: path then store changed table index else valueAt machine other := by
  have shorter : path ≠ index :: path := fun equal => by
    have lengths := congrArg List.length equal
    simp at lengths
  cases other with
  | nil => rfl
  | cons slot rest =>
      by_cases here : slot :: rest = index :: path
      · obtain ⟨rfl, rfl⟩ := List.cons.inj here
        have kept := tables rest shorter
        rw [reached] at kept
        rw [if_pos rfl, valueAt_cons kept]
      · rw [if_neg here]
        by_cases inside : rest = index :: path
        · rw [inside]
          exact below slot
        · simp only [valueAt, tables rest inside]
          cases atRest : tableAt machine rest with
          | none => rfl
          | some node =>
              refine agree rest node slot atRest ?_
              rintro ⟨rfl, rfl⟩
              exact here (by rw [tree.onePath rest path node atRest reached])

/-- Memory that agrees with the old one on every table has the same tree. -/
theorem congr (tree : TableTree machine) (changed : Machine) (cr3 : changed.cr3 = machine.cr3)
    (agree : ∀ other node slot, tableAt machine other = some node →
      store changed node slot = store machine node slot)
    (grows : machine.nextFreePage.toNat ≤ changed.nextFreePage.toNat)
    (pages : changed.nextFreePage.toNat % 4096 = 0) :
    TableTree changed ∧ tableAt changed = tableAt machine ∧
      valueAt changed = valueAt machine := by
  have same : ∀ other, tableAt changed other = tableAt machine other := by
    intro other
    unfold tableAt
    rw [cr3]
    exact Radix.nodeAt_congr agree other
  refine ⟨⟨?_, ?_, ?_, pages⟩, funext same, funext fun other => ?_⟩
  · rw [cr3]
    exact tree.onePath.of_same fun other => by
      have := same other
      unfold tableAt at this
      rwa [cr3] at this
  · intro other node atOther
    rw [same] at atOther
    exact tree.aligned other node atOther
  · intro other node atOther
    rw [same] at atOther
    have := tree.below other node atOther
    omega
  · cases other with
    | nil => rfl
    | cons slot rest =>
        simp only [valueAt, same]
        cases atRest : tableAt machine rest with
        | none => rfl
        | some node => exact agree rest node slot atRest

/-- Writing an entry of a page table changes that entry and no table. -/
theorem setEntry_leaf (tree : TableTree machine) (value : UInt64)
    (reached : tableAt machine path = some table)
    (leaf : path.length = 3) (same : idx.toNat = index.val) :
    TableTree (setEntry machine table idx value) ∧
      (∀ other, tableAt (setEntry machine table idx value) other = tableAt machine other) ∧
      (∀ other, valueAt (setEntry machine table idx value) other =
        if other = index :: path then value else valueAt machine other) := by
  have aligned := tree.aligned path table reached
  have agree : ∀ other node slot, tableAt machine other = some node →
      ¬ (node = table ∧ slot = index) →
        store (setEntry machine table idx value) node slot = store machine node slot := by
    intro other node slot atOther elsewhere
    rw [store_setEntry same aligned (tree.aligned other node atOther), if_neg elsewhere]
  have written : store (setEntry machine table idx value) table index = value := by
    rw [store_setEntry same aligned aligned, if_pos ⟨rfl, rfl⟩]
  have deep : ∀ entry, linkedTable path.length entry = none := by
    intro entry
    simp [linkedTable, leaf]
  have tables : ∀ other, tableAt (setEntry machine table idx value) other =
      tableAt machine other :=
    Radix.nodeAt_rewrite tree.onePath reached agree (by rw [deep, deep])
  refine ⟨⟨?_, ?_, ?_, tree.pages⟩, tables, fun other => ?_⟩
  · exact tree.onePath.of_same tables
  · intro other node atOther
    rw [tables] at atOther
    exact tree.aligned other node atOther
  · intro other node atOther
    rw [tables] at atOther
    exact tree.below other node atOther
  · rw [tree.valueAt_written reached (fun other _ => tables other) agree, written]
    intro slot
    have missing : tableAt machine (index :: path) = none := by
      rw [tableAt_cons, deep]
    rw [valueAt_of_missing missing, valueAt_of_missing ((tables _).trans missing)]

section NewTable

variable (tree : TableTree machine) (reached : tableAt machine path = some table)
variable (same : idx.toNat = index.val)
variable (absent : store machine table index &&& pagePresent = 0)

include tree reached same absent

private theorem stored_newTable {other : UInt64} (otherAligned : other.toNat % 4096 = 0)
    (slot : Fin 512) :
    store (ensureTable machine table idx flags) other slot =
      if other = table ∧ slot = index then machine.nextFreePage ||| flags
      else if other = machine.nextFreePage then 0
      else store machine other slot := by
  refine store_ensureTable same ?_ (tree.aligned path table reached) tree.pages flags
    otherAligned slot
  rw [entry_eq_store machine table same]
  exact absent

private theorem agree_newTable {other : Path} {node : UInt64} {slot : Fin 512}
    (atOther : tableAt machine other = some node) (elsewhere : ¬ (node = table ∧ slot = index)) :
    store (ensureTable machine table idx flags) node slot = store machine node slot := by
  rw [stored_newTable tree reached same absent (tree.aligned other node atOther),
    if_neg elsewhere, if_neg]
  intro fresh
  rw [fresh] at atOther
  exact tree.unreached other atOther

private theorem written_newTable (flags : UInt64) :
    store (ensureTable machine table idx flags) table index = machine.nextFreePage ||| flags := by
  rw [stored_newTable tree reached same absent (tree.aligned path table reached),
    if_pos ⟨rfl, rfl⟩]

private theorem blank_newTable (slot : Fin 512) :
    store (ensureTable machine table idx flags) machine.nextFreePage slot = 0 := by
  rw [stored_newTable tree reached same absent tree.pages, if_neg, if_pos rfl]
  rintro ⟨equal, -⟩
  rw [← equal] at reached
  exact tree.unreached path reached

/-- The tables after an absent entry got a new page: the page, if the new entry
links it, and the old ones. -/
theorem tableAt_ensureTable (small : flags.toNat < 4096) (other : Path) :
    tableAt (ensureTable machine table idx flags) other =
      if other = index :: path then
        linkedTable path.length (machine.nextFreePage ||| flags)
      else tableAt machine other := by
  have agree : ∀ other node slot, tableAt machine other = some node →
      ¬ (node = table ∧ slot = index) →
        store (ensureTable machine table idx flags) node slot = store machine node slot :=
    fun other node slot => agree_newTable tree reached same absent
  have written := written_newTable tree reached same absent flags
  have vacant : linkedTable path.length (store machine table index) = none :=
    linkedTable_absent absent
  have missing : tableAt machine (index :: path) = none := by
    rw [tableAt_cons, valueAt_cons reached]
    exact vacant
  have cr3 : (ensureTable machine table idx flags).cr3 = machine.cr3 := ensureTable_cr3 flags
  -- The new entry links its page, or (not present, or huge) links nothing.
  by_cases links : linkedTable path.length (machine.nextFreePage ||| flags) = none
  · have unchanged : tableAt (ensureTable machine table idx flags) other =
        tableAt machine other := by
      unfold tableAt
      rw [cr3]
      exact Radix.nodeAt_rewrite tree.onePath reached agree
        (by rw [written, links, vacant]) other
    rw [unchanged, links]
    split_ifs with here
    · rw [here, missing]
    · rfl
  · have target : linkedTable path.length (machine.nextFreePage ||| flags) =
        some machine.nextFreePage := by
      unfold linkedTable at links ⊢
      split_ifs at links ⊢ with condition
      · rw [tableOf_or tree.pages small]
      · exact absurd rfl links
    obtain ⟨added, others⟩ := Radix.nodeAt_link tree.onePath reached agree vacant
      (by rw [written, target])
      (fun depth slot => by rw [blank_newTable tree reached same absent, linkedTable_zero])
    unfold tableAt
    rw [cr3, target]
    split_ifs with here
    · rw [here]
      exact added
    · exact others other here

/-- A table of the extended tree is the new page or an old table. -/
theorem tableAt_ensureTable_cases (small : flags.toNat < 4096) {other : Path} {node : UInt64}
    (atOther : tableAt (ensureTable machine table idx flags) other = some node) :
    (other = index :: path ∧ node = machine.nextFreePage) ∨
      tableAt machine other = some node := by
  rw [tree.tableAt_ensureTable reached same absent small other] at atOther
  split_ifs at atOther with here
  · left
    unfold linkedTable at atOther
    split_ifs at atOther with condition
    rw [tableOf_or tree.pages small] at atOther
    exact ⟨here, (Option.some.inj atOther).symm⟩
  · exact .inr atOther

/-- The new page is on no other path, so the tables still form a tree. -/
theorem ensureTable_tree (small : flags.toNat < 4096)
    (page : (ensureTable machine table idx flags).nextFreePage.toNat =
      machine.nextFreePage.toNat + 4096) :
    TableTree (ensureTable machine table idx flags) := by
  have cases : ∀ {other : Path} {node : UInt64},
      tableAt (ensureTable machine table idx flags) other = some node →
        (other = index :: path ∧ node = machine.nextFreePage) ∨
          tableAt machine other = some node :=
    tree.tableAt_ensureTable_cases reached same absent small
  refine ⟨?_, ?_, ?_, ?_⟩
  · intro left right node atLeft atRight
    rcases cases atLeft with ⟨leftNew, fresh⟩ | leftOld
    · rcases cases atRight with ⟨rightNew, -⟩ | rightOld
      · rw [leftNew, rightNew]
      · rw [fresh] at rightOld
        exact absurd rightOld (tree.unreached right)
    · rcases cases atRight with ⟨-, fresh⟩ | rightOld
      · rw [fresh] at leftOld
        exact absurd leftOld (tree.unreached left)
      · exact tree.onePath left right node leftOld rightOld
  · intro other node atOther
    rcases cases atOther with ⟨-, fresh⟩ | old
    · rw [fresh]
      exact tree.pages
    · exact tree.aligned other node old
  · intro other node atOther
    rcases cases atOther with ⟨-, fresh⟩ | old
    · rw [fresh]
      omega
    · have := tree.below other node old
      omega
  · have := tree.pages
    omega

/-- Below the new table everything is zero, as it was before. -/
theorem valueAt_below_newTable (small : flags.toNat < 4096) (slot : Fin 512) :
    valueAt (ensureTable machine table idx flags) (slot :: index :: path) =
      valueAt machine (slot :: index :: path) := by
  have missing : tableAt machine (index :: path) = none := by
    rw [tableAt_cons, valueAt_cons reached]
    exact linkedTable_absent absent
  rw [valueAt_of_missing missing]
  cases new : tableAt (ensureTable machine table idx flags) (index :: path) with
  | none => exact valueAt_of_missing new slot
  | some node =>
      rcases tree.tableAt_ensureTable_cases reached same absent small new with ⟨-, fresh⟩ | old
      · rw [valueAt_cons new, fresh, blank_newTable tree reached same absent]
      · rw [missing] at old
        cases old

end NewTable

/-- What a new table does to the tree: its entry is set, and nothing else that
is visible from the root changes. -/
structure Linked (machine linked : Machine) (path : Path) (flags : UInt64) : Prop where
  tree : TableTree linked
  values : ∀ other, valueAt linked other =
    if other = path then machine.nextFreePage ||| flags else valueAt machine other
  tables : ∀ other, tableAt linked other =
    if other = path then linkedTable (path.length - 1) (machine.nextFreePage ||| flags)
    else tableAt machine other
  page : linked.nextFreePage.toNat = machine.nextFreePage.toNat + 4096

theorem link (tree : TableTree machine) (reached : tableAt machine path = some table)
    (same : idx.toNat = index.val) (small : flags.toNat < 4096)
    (absent : store machine table index &&& pagePresent = 0)
    (room : machine.nextFreePage.toNat + 4096 < 2 ^ 64) :
    Linked machine (ensureTable machine table idx flags) (index :: path) flags := by
  have page : (ensureTable machine table idx flags).nextFreePage.toNat =
      machine.nextFreePage.toNat + 4096 :=
    ensureTable_nextFreePage flags (by rw [entry_eq_store machine table same]; exact absent) room
  have tables := tree.tableAt_ensureTable reached same absent small
  refine ⟨tree.ensureTable_tree reached same absent small page, ?_, tables, page⟩
  intro other
  rw [tree.valueAt_written reached (fun other away => by rw [tables other, if_neg away])
    (fun _ _ _ => agree_newTable tree reached same absent),
    written_newTable tree reached same absent]
  exact tree.valueAt_below_newTable reached same absent small

end TableTree

end NansOS.Mmu
