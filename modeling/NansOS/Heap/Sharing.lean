import NansOS.Heap.Runs
import NansOS.Mmu.Permissions
import NansOS.Mmu.Unmap

/-! Owns the pages that the heap and the page tables share: runs of allocator
calls mixed with `mmu_map_page`, which take pages from one bump pointer. The
heap list passes over a page table, so `free` joins a block with a successor
that lies behind one and swallows it. As long as no free does that, blocks and
page tables lie apart and neither side writes into the other. -/

namespace NansOS.Heap

open NansOS.Foundation
open NansOS.Kernel
open NansOS.Mmu

/-! ### States -/

/-- The heap, and the pages taken for page tables so far, as intervals. -/
structure SharedState where
  heap : HeapState
  tables : List (Nat × Nat)

/-- A call of the allocator or of `mmu_map_page`. -/
inductive SharedCall
  | heap (call : HeapCall)
  | map (call : MapCall)

/-- The pages taken between two machines. -/
def takenPages (before after : Machine) : List (Nat × Nat) :=
  if before.nextFreePage = after.nextFreePage then []
  else [(before.nextFreePage.toNat, after.nextFreePage.toNat)]

/-- `free` of `ptr` joins its block with the next one only when that starts
where the block ends. -/
def JoinsAdjacent (machine : Machine) (ptr : UInt64) : Prop :=
  let block := ptr - headerSize
  let next := blockNext machine block
  next ≠ 0 → blockIsFree machine next ≠ 0 →
    next.toNat = ptr.toNat + (blockSize machine block).toNat

namespace SharedState

abbrev machine (state : SharedState) : Machine := state.heap.machine

/-- The state after one call. -/
def call (state : SharedState) : SharedCall → SharedState
  | .heap next => { state with heap := state.heap.call next }
  | .map next =>
      let mapped := mapCall state.machine next
      { heap := { state.heap with machine := mapped },
        tables := state.tables ++ takenPages state.machine mapped }

/-- Heap requests are at most 4072 bytes, what is freed or resized is live, and
the flags of a mapping are flags. -/
def Legal (state : SharedState) : SharedCall → Prop
  | .heap next => state.heap.Legal 4072 next
  | .map next => next.flags.toNat < 4096

/-- Three pages are left in the address space; no call takes more. -/
def Room (state : SharedState) (_ : SharedCall) : Prop :=
  state.machine.nextFreePage.toNat + 3 * 4096 < 2 ^ 64

/-- No page table starts where a block ends that is freed before a free
successor. -/
def Clear (state : SharedState) : SharedCall → Prop
  | .heap next => FreesClear state.tables state.machine next
  | .map _ => True

/-- A free joins adjacent blocks only. -/
def MergesAdjacent (state : SharedState) : SharedCall → Prop
  | .heap next => ∀ made ∈ freeMade state.machine next, JoinsAdjacent made.1 made.2
  | .map _ => True

/-- No block of the heap has a byte in the pages taken for page tables. -/
def Apart (state : SharedState) : Prop :=
  ∃ blocks, Represents state.machine blocks ∧ ∀ block ∈ blocks, ∀ region ∈ state.tables,
    block.finish ≤ region.1 ∨ region.2 ≤ block.addr.toNat

end SharedState

/-- The kernel before the first call of the allocator and of `mmu_map_page`. -/
def sharedBoot (machine : Machine) : SharedState := ⟨⟨machine, []⟩, []⟩

/-! ### Joining -/

section Joining

variable {machine : Machine} {stretches : List Stretch} {block : Block}

/-- A block that `free` would join with its successor is adjacent to it exactly
when no page table starts where it ends. -/
theorem Laid.joinsAdjacent_iff (laid : Laid machine stretches)
    (nonempty : ∀ region ∈ tablesOf stretches, region.1 < region.2)
    (member : block ∈ blocksOf stretches) :
    JoinsAdjacent machine block.payload ↔
      ClearBehind (tablesOf stretches) machine block.payload := by
  have finish := laid.payload_toNat member
  have size : blockSize machine block.addr = block.size :=
    congrArg Block.size (laid.block_known member)
  rw [JoinsAdjacent, ClearBehind, block.payload_sub, size, finish]
  obtain ⟨before, after, rfl⟩ := List.append_of_mem (mem_blocksOf.mp member)
  cases behind : blocksOf after with
  | nil =>
      have listed := laid.listed
      rw [blocksOf_append, blocksOf_cons, behind] at listed
      have last : blockNext machine block.addr = 0 := listed.middle.2.2
      exact ⟨fun _ nonzero => absurd last nonzero, fun _ nonzero => absurd last nonzero⟩
  | cons next rest =>
      obtain ⟨nonzero, toNext, flag⟩ := laid.successor behind
      rw [toNext]
      have listed : next ∈ blocksOf (before ++ .block block :: after) := by simp [behind]
      constructor
      · intro adjacent _ free region inside starts
        -- The page tables and the successor would share their first byte.
        have place := adjacent nonzero free
        have bytes := nonempty region inside
        apply laid.not_protected_block listed le_rfl (by unfold Block.finish; omega)
        exact .inr ⟨region, inside, by omega, by omega⟩
      · intro clear _ free
        obtain ⟨tail, _, _, adjacent⟩ := laid.adjacent behind fun region inside =>
          clear nonzero free region (by simp [inside])
        exact adjacent

end Joining

/-! ### The invariant -/

/-- The heap and the page tables tile the pages handed out, and every table
that the kernel walks lies below those pages or in the tables taken. -/
structure Shared (state : SharedState) (stretches : List Stretch) : Prop where
  laidOut : state.heap.LaidOut stretches
  tables : tablesOf stretches = state.tables
  nonempty : ∀ region ∈ state.tables, region.1 < region.2
  tree : TableTree state.machine
  guarded : ∀ path table, tableAt state.machine path = some table →
    ∀ target, table.toNat ≤ target → target < table.toNat + 4096 →
      Laid.Protected stretches target

section Steps

variable {state : SharedState} {stretches after : List Stretch}

theorem sharedBoot_shared {machine : Machine} {l4 l3 l2 l22 : UInt64}
    (boot : BootTables machine l4 l3 l2 l22) (empty : machine.heapStart = 0) :
    Shared (sharedBoot machine) [] where
  laidOut := ⟨⟨by rw [sharedBoot, boot.fresh]; rfl, empty⟩, List.Perm.refl _⟩
  tables := rfl
  nonempty := fun _ inside => absurd inside List.not_mem_nil
  tree := boot.tree
  guarded := by
    intro path table reached target lower upper
    have inside : table ∈ [l4, l3, l2, l22] := by
      rcases boot.tableAt_cases reached with ⟨-, rfl⟩ | ⟨-, rfl⟩ | ⟨-, rfl⟩ | ⟨-, rfl⟩ <;> simp
    have below := boot.below table inside
    have aligned := boot.aligned table inside
    left
    change target < 0x400000
    omega

/-- Blocks and page tables of a layout lie apart. -/
theorem Shared.apart (shared : Shared state stretches) : state.Apart := by
  refine ⟨blocksOf stretches, shared.laidOut.laid.listed, fun block member region inside => ?_⟩
  by_contra overlap
  have bytes := shared.nonempty region inside
  rw [← shared.tables] at inside
  -- The first byte of the later of the two belongs to both.
  apply shared.laidOut.laid.not_protected_block member (le_max_left _ region.1)
  · unfold Block.finish at overlap ⊢
    omega
  · exact .inr ⟨region, inside, le_max_right _ _, by unfold Block.finish at overlap; omega⟩

/-- An allocator call whose free is clear. -/
theorem Shared.heap_call (shared : Shared state stretches) {next : HeapCall}
    (legal : state.heap.Legal 4072 next)
    (room : state.machine.nextFreePage.toNat + 4096 < 2 ^ 64)
    (clear : FreesClear state.tables state.machine next) :
    ∃ after, Shared (state.call (.heap next)) after := by
  obtain ⟨after, _, laidOut, kept⟩ := shared.laidOut.call (legal_mono (by omega) legal)
    (pageFits_of_legal legal room) (by rw [shared.tables]; exact clear)
  have same : ∀ path table index, tableAt state.machine path = some table →
      store (state.heap.call next).machine table index = store state.machine table index := by
    intro path table index reached
    have bound := index.isLt
    apply Memory.read64_congr
    intro target inside
    have inside := Set.mem_Ico.mp inside
    exact kept.memory target (shared.guarded path table reached target (by omega) (by omega))
  obtain ⟨count, pages⟩ := kept.pages
  have aligned : state.heap.machine.nextFreePage.toNat % 4096 = 0 := shared.tree.pages
  have grows : state.heap.machine.nextFreePage.toNat ≤
      (state.heap.call next).machine.nextFreePage.toNat := by omega
  obtain ⟨tree, tables, _⟩ := shared.tree.congr (state.heap.call next).machine kept.cr3 same
    grows (by omega)
  refine ⟨after, laidOut, kept.tables.trans shared.tables, shared.nonempty, tree, ?_⟩
  intro path table reached target lower upper
  have reached : tableAt (state.heap.call next).machine path = some table := reached
  rw [tables] at reached
  rw [Laid.Protected, kept.tables]
  exact shared.guarded path table reached target lower upper

theorem mem_takenPages {before changed : Machine}
    (page : before.nextFreePage.toNat ≤ changed.nextFreePage.toNat) {region : Nat × Nat}
    (inside : region ∈ takenPages before changed) :
    region = (before.nextFreePage.toNat, changed.nextFreePage.toNat) ∧
      before.nextFreePage.toNat < changed.nextFreePage.toNat := by
  rw [takenPages] at inside
  split_ifs at inside with same
  · exact absurd inside List.not_mem_nil
  · have different : before.nextFreePage.toNat ≠ changed.nextFreePage.toNat :=
      fun equal => same (UInt64.toNat_inj.mp equal)
    exact ⟨List.mem_singleton.mp inside, by omega⟩

/-- Pages taken for tables follow the layout. -/
theorem Laid.take_tables {machine changed : Machine} (laid : Laid machine stretches)
    (listed : Represents changed (blocksOf stretches))
    (page : machine.nextFreePage.toNat ≤ changed.nextFreePage.toNat) :
    ∃ after, Laid changed after ∧ blocksOf after = blocksOf stretches ∧
      tablesOf after = tablesOf stretches ++ takenPages machine changed := by
  by_cases same : machine.nextFreePage = changed.nextFreePage
  · refine ⟨stretches, ⟨?_, listed⟩, rfl, ?_⟩
    · rw [← same]
      exact laid.tiles
    · rw [takenPages, if_pos same, List.append_nil]
  · let taken : Stretch := .tables machine.nextFreePage.toNat
      (changed.nextFreePage.toNat - machine.nextFreePage.toNat)
    have none : blocksOf [taken] = [] := rfl
    have one : tablesOf [taken] = takenPages machine changed := by
      rw [takenPages, if_neg same]
      change [(machine.nextFreePage.toNat, machine.nextFreePage.toNat + _)] = _
      rw [Nat.add_sub_cancel' page]
    refine ⟨stretches ++ [taken], ⟨?_, ?_⟩, ?_, ?_⟩
    · exact Tiles.append_iff.mpr ⟨_, laid.tiles, rfl, Nat.add_sub_cancel' page⟩
    · rw [blocksOf_append, none, List.append_nil]
      exact listed
    · rw [blocksOf_append, none, List.append_nil]
    · rw [tablesOf_append, one]

/-- A mapping call: its pages follow the layout, and it writes tables only. -/
theorem Shared.map_call (shared : Shared state stretches) {next : MapCall}
    (small : next.flags.toNat < 4096)
    (room : state.machine.nextFreePage.toNat + 3 * 4096 < 2 ^ 64) :
    ∃ after, Shared (state.call (.map next)) after ∧ blocksOf after = blocksOf stretches := by
  obtain ⟨grown, bound⟩ := mmuMapPage_grown shared.tree small room next.phys next.virt
  have laid := shared.laidOut.laid
  have untouched : ∀ target, target < state.machine.nextFreePage.toNat →
      ¬ Laid.Protected stretches target → ¬ Touched state.machine target := by
    rintro target below free (new | ⟨path, table, reached, lower, upper⟩)
    · omega
    · exact free (shared.guarded path table reached target lower upper)
  have listed : Represents (mapCall state.machine next) (blocksOf stretches) := by
    refine laid.listed.congr grown.heapStart fun block member target inside => ?_
    have inside := Set.mem_Ico.mp inside
    have bounds := laid.bounds member
    have within : target < block.finish := by unfold Block.finish; omega
    exact grown.memory target (untouched target (lt_of_lt_of_le within bounds.2)
      (laid.not_protected_block member inside.1 within))
  obtain ⟨after, extended, blocks, tables⟩ := laid.take_tables listed grown.page
  have tables : tablesOf after = state.tables ++
      takenPages state.machine (mapCall state.machine next) := by
    rw [tables, shared.tables]
  refine ⟨after, ⟨⟨extended, ?_⟩, tables, ?_, grown.tree, ?_⟩, blocks⟩
  · have owns := shared.laidOut.owns
    rwa [Owns, ← blocks] at owns
  · intro region inside
    rcases List.mem_append.mp inside with old | taken
    · exact shared.nonempty region old
    · obtain ⟨rfl, more⟩ := mem_takenPages grown.page taken
      exact more
  · intro path table reached target lower upper
    rcases grown.tables path table reached with old | new
    · rcases shared.guarded path table old target lower upper with below | ⟨region, inside, within⟩
      · exact .inl below
      · rw [shared.tables] at inside
        exact .inr ⟨region, by rw [tables]; exact List.mem_append_left _ inside, within⟩
    · have below := grown.tree.below path table reached
      refine .inr ⟨(state.machine.nextFreePage.toNat,
        (mapCall state.machine next).nextFreePage.toNat), ?_, new.trans lower,
        lt_of_lt_of_le upper below⟩
      rw [tables, takenPages, if_neg]
      · exact List.mem_append_right _ List.mem_cons_self
      · intro same
        have same := congrArg UInt64.toNat same
        change state.machine.nextFreePage.toNat = (mmuMapPage _ _ _ _).nextFreePage.toNat at same
        omega

/-- The step lemma of the invariant. -/
theorem Shared.call (shared : Shared state stretches) {next : SharedCall}
    (legal : state.Legal next) (room : state.Room next) (clear : state.Clear next) :
    ∃ after, Shared (state.call next) after := by
  cases next with
  | heap next => exact shared.heap_call legal (by unfold SharedState.Room at room; omega) clear
  | map next =>
      obtain ⟨after, kept, _⟩ := shared.map_call legal room
      exact ⟨after, kept⟩

/-- Merging adjacent blocks only is meeting no page table. -/
theorem Shared.mergesAdjacent_iff (shared : Shared state stretches) {next : SharedCall}
    (legal : state.Legal next) (room : state.Room next) :
    state.MergesAdjacent next ↔ state.Clear next := by
  cases next with
  | map next => exact Iff.rfl
  | heap next =>
      have room : state.heap.machine.nextFreePage.toNat + 3 * 4096 < 2 ^ 64 := room
      have fits : state.heap.PageFits next := pageFits_of_legal legal (by omega)
      apply forall₂_congr
      rintro ⟨found, ptr⟩ made
      obtain ⟨layout, laid, tables, block, listed, rfl⟩ :=
        shared.laidOut.freeMade (legal_mono (by omega) legal) fits made
      have tables := tables.trans shared.tables
      rw [← tables]
      exact laid.joinsAdjacent_iff (by rw [tables]; exact shared.nonempty) listed

end Steps

/-! ### Runs -/

/-- In every run from the boot state, frees join adjacent blocks only and no
block of the heap ever shares a byte with a page table, exactly when no call
frees a block between a free successor and a page table that starts where the
block ends. -/
theorem heap_and_tables_apart_iff {machine : Machine} {l4 l3 l2 l22 : UInt64}
    (boot : BootTables machine l4 l3 l2 l22) (empty : machine.heapStart = 0)
    (calls : List SharedCall)
    (legal : Along SharedState.call SharedState.Legal (sharedBoot machine) calls)
    (room : Along SharedState.call SharedState.Room (sharedBoot machine) calls) :
    Along SharedState.call SharedState.MergesAdjacent (sharedBoot machine) calls ∧
        Throughout SharedState.call SharedState.Apart (sharedBoot machine) calls ↔
      Along SharedState.call SharedState.Clear (sharedBoot machine) calls := by
  have start : ∃ stretches, Shared (sharedBoot machine) stretches :=
    ⟨[], sharedBoot_shared boot empty⟩
  have admitted := legal.and room
  have kept : ∀ state next, (∃ stretches, Shared state stretches) →
      (state.Legal next ∧ state.Room next) ∧ state.Clear next →
      ∃ stretches, Shared (SharedState.call state next) stretches :=
    fun _ _ ⟨_, shared⟩ ⟨conditions, clear⟩ => shared.call conditions.1 conditions.2 clear
  have exact := along_iff (fun state => ∃ stretches, Shared state stretches)
    (fun state next => state.Legal next ∧ state.Room next)
    (fun state next invariant conditions clear => kept state next invariant ⟨conditions, clear⟩)
    (fun _ _ ⟨_, shared⟩ conditions => shared.mergesAdjacent_iff conditions.1 conditions.2)
    start admitted
  constructor
  · intro both
    exact exact.mp both.1
  · intro clear
    refine ⟨exact.mpr clear, throughout_iff.mpr ⟨(sharedBoot_shared boot empty).apart, ?_⟩⟩
    apply along_of_invariant kept _ start (admitted.and clear)
    intro state next invariant conditions
    obtain ⟨_, shared⟩ := kept state next invariant conditions
    exact shared.apart

/-! ### Tables between blocks -/

/-- A call for a page with no page directory takes two pages. -/
theorem two_tables_taken {machine : Machine} {phys virt flags : UInt64}
    (maps : Maps machine (mmuMapPage machine phys virt flags) phys virt flags)
    (linked : valueAt machine (pml4Path virt) &&& pagePresent ≠ 0)
    (noDirectory : valueAt machine (pdpPath virt) = 0)
    (noTable : valueAt machine (pdPath virt) = 0) :
    (mmuMapPage machine phys virt flags).nextFreePage.toNat =
      machine.nextFreePage.toNat + 8192 := by
  obtain ⟨withPdp, withPd, withPt, first, second, third, leaf⟩ := maps.steps
  rw [first.kept linked] at second
  have directory := second.page (by rw [noDirectory]; rfl)
  have untouched : valueAt withPd (pdPath virt) = valueAt machine (pdPath virt) :=
    second.values_of_ne (Path.ne_of_length (by simp))
  have table := third.page (by rw [untouched, noTable]; rfl)
  rw [leaf.page, table, directory]

/-- A request for a whole page, while every block is in use. -/
theorem malloc_wholePage {machine : Machine} {blocks : List Block}
    (listed : Represents machine blocks) (spaced : Spaced blocks) (room : PageRoom machine blocks)
    (used : ∀ block ∈ blocks, block.free = false) :
    ∃ taken, malloc machine 4072 = some ((pageBlock machine).payload, taken) ∧
      Represents taken (blocks ++ [⟨machine.nextFreePage, 4072, false⟩]) ∧
      HeapFrame machine taken blocks ∧
      taken.nextFreePage.toNat = machine.nextFreePage.toNat + 4096 := by
  obtain ⟨taken, returned, list, frame, page⟩ := malloc_page listed spaced room (by decide)
    (fun block member => by rw [Block.serves, used block member]; rfl)
    (show (alignSize 4072).toNat ≤ 4072 by decide)
  rw [pageBlock_take] at list
  exact ⟨taken, returned, list, frame, page⟩

/-- The entries on the way to an unmapped page, after writes outside the boot
tables. -/
private theorem high_values {machine : Machine} (cr3 : machine.cr3 = zeroBoot.cr3)
    (kept : ∀ target, target < 0x400000 → machine.memory target = zeroBoot.memory target)
    (page : zeroBoot.nextFreePage.toNat ≤ machine.nextFreePage.toNat)
    (pages : machine.nextFreePage.toNat % 4096 = 0) :
    valueAt machine (pml4Path 0x80000000) = 0x102003 ∧
      valueAt machine (pdpPath 0x80000000) = 0 ∧ valueAt machine (pdPath 0x80000000) = 0 := by
  have boot : BootTables zeroBoot 0x101000 0x102000 0x103000 0x104000 := zeroBoot_tables
  have shared := sharedBoot_shared boot rfl
  obtain ⟨_, _, values⟩ := boot.tree.congr machine cr3 (by
    intro path table index reached
    have bound := index.isLt
    apply Memory.read64_congr
    intro target inside
    have inside := Set.mem_Ico.mp inside
    apply kept
    rcases shared.guarded path table reached target (by omega) (by omega) with below | ⟨_, none, _⟩
    · exact below
    · exact absurd none List.not_mem_nil) page pages
  have high : ¬ LowPage 0x80000000 := by decide
  rw [values]
  refine ⟨?_, ?_, ?_⟩
  · exact ((boot.upper_value high List.mem_cons_self).resolve_right (by decide)).2
  · exact ((boot.upper_value high (by simp [upperPaths])).resolve_left (by decide)).2
  · exact ((boot.upper_value high (by simp [upperPaths])).resolve_left (by decide)).2

/-- A mapping of the first page above the low 2 GiB. -/
def highMap : MapCall := ⟨0x5000, 0x80000000, 3⟩

/-- Two page-sized blocks with page tables between them. -/
def mixedCalls : List SharedCall :=
  [.heap (.malloc 4072), .map highMap, .heap (.malloc 4072)]

/-- The first block takes the page at 0x400000. -/
private theorem mixedCalls_first :
    ∃ (first : Machine) (layout : List Stretch),
      (sharedBoot zeroBoot).call (.heap (.malloc 4072)) = ⟨⟨first, [0x400018]⟩, []⟩ ∧
      first.nextFreePage = 0x401000 ∧ HeapFrame zeroBoot first [] ∧
      Shared ⟨⟨first, [0x400018]⟩, []⟩ layout ∧
      blocksOf layout = [⟨0x400000, 4072, false⟩] := by
  have shared : Shared (sharedBoot zeroBoot) [] := sharedBoot_shared zeroBoot_tables rfl
  have laid : Laid zeroBoot [] := shared.laidOut.laid
  obtain ⟨first, returned, list, frame, page⟩ := malloc_wholePage laid.listed laid.spaced
    (laid.pageRoom (by decide)) (fun _ inside => absurd inside List.not_mem_nil)
  have called : heapCall (sharedBoot zeroBoot).machine (.malloc 4072) = some (0x400018, first) :=
    returned
  have allocated : (sharedBoot zeroBoot).call (.heap (.malloc 4072)) =
      ⟨⟨first, [0x400018]⟩, []⟩ := by
    rw [SharedState.call, HeapState.call_eq called]
    rfl
  have legal : (sharedBoot zeroBoot).heap.Legal 4072 (.malloc 4072) := by decide
  obtain ⟨layout, sharedFirst⟩ := shared.heap_call legal (by decide) (freesClear_nil _ _)
  rw [allocated] at sharedFirst
  exact ⟨first, layout, allocated, UInt64.toNat_inj.mp page, frame, sharedFirst,
    sharedFirst.laidOut.laid.listed.unique list⟩

/-- The mapping call takes the two pages behind the block. -/
private theorem mixedCalls_mapped {first : Machine} {layout : List Stretch}
    (frame : HeapFrame zeroBoot first []) (page : first.nextFreePage = 0x401000)
    (shared : Shared ⟨⟨first, [0x400018]⟩, []⟩ layout) :
    (mapCall first highMap).nextFreePage = 0x403000 := by
  have room : first.nextFreePage.toNat + 3 * 4096 < 2 ^ 64 := by
    rw [page]
    decide
  obtain ⟨linked, noDirectory, noTable⟩ := high_values frame.cr3
    (fun target below => frame.memory fun inside => by
      rcases inside with ⟨_, none, _⟩ | inside
      · exact absurd none List.not_mem_nil
      · exact absurd (Set.mem_Ico.mp inside).1 (Nat.not_le.mpr below))
    (by rw [page]; decide) (by rw [page]; decide)
  have maps : Maps first (mmuMapPage first 0x5000 0x80000000 3) 0x5000 0x80000000 3 := by
    rcases mmuMapPage_cases shared.tree (show PlainFlags 3 by decide) room 0x5000 0x80000000 with
      ⟨_, low | huge⟩ | maps
    · exact absurd low (by decide)
    · exact absurd (by rw [noTable]; rfl) huge
    · exact maps
  apply UInt64.toNat_inj.mp
  change (mmuMapPage first 0x5000 0x80000000 3).nextFreePage.toNat = 0x403000
  rw [two_tables_taken maps (by rw [linked]; decide) noDirectory noTable, page]
  rfl

/-- The state that these calls leave. -/
private theorem mixedCalls_run :
    ∃ first second : Machine,
      (sharedBoot zeroBoot).call (.heap (.malloc 4072)) = ⟨⟨first, [0x400018]⟩, []⟩ ∧
      first.nextFreePage = 0x401000 ∧
      (mapCall first highMap).nextFreePage = 0x403000 ∧
      run SharedState.call (sharedBoot zeroBoot) mixedCalls =
        ⟨⟨second, [0x403018, 0x400018]⟩, [(0x401000, 0x403000)]⟩ ∧
      second.nextFreePage = 0x404000 ∧
      Represents second [⟨0x400000, 4072, false⟩, ⟨0x403000, 4072, false⟩] := by
  obtain ⟨first, layout, allocated, firstPage, frame, sharedFirst, firstBlocks⟩ := mixedCalls_first
  have mappedPage := mixedCalls_mapped frame firstPage sharedFirst
  obtain ⟨mappedLayout, sharedMapped, mappedBlocks⟩ := sharedFirst.map_call
    (show highMap.flags.toNat < 4096 by decide)
    (show first.nextFreePage.toNat + 3 * 4096 < 2 ^ 64 by rw [firstPage]; decide)
  have laidMapped : Laid (mapCall first highMap) mappedLayout := sharedMapped.laidOut.laid
  rw [firstBlocks] at mappedBlocks
  -- The second block takes the page behind the page tables.
  have roomMapped : (mapCall first highMap).nextFreePage.toNat + 4096 < 2 ^ 64 := by
    rw [mappedPage]
    decide
  obtain ⟨second, returnedSecond, secondList, _, secondPage⟩ :=
    malloc_wholePage laidMapped.listed laidMapped.spaced (laidMapped.pageRoom roomMapped)
      (by rw [mappedBlocks]; simp)
  rw [mappedBlocks, mappedPage] at secondList
  rw [mappedPage] at secondPage
  have payload : (pageBlock (mapCall first highMap)).payload = 0x403018 := by
    rw [pageBlock, mappedPage]
    rfl
  rw [payload] at returnedSecond
  have mapped : SharedState.call ⟨⟨first, [0x400018]⟩, []⟩ (.map highMap) =
      ⟨⟨mapCall first highMap, [0x400018]⟩, [(0x401000, 0x403000)]⟩ := by
    have taken : takenPages first (mapCall first highMap) = [(0x401000, 0x403000)] := by
      rw [takenPages, firstPage, mappedPage]
      rfl
    rw [SharedState.call]
    dsimp only
    rw [taken]
    rfl
  have called : heapCall (mapCall first highMap) (.malloc 4072) = some (0x403018, second) :=
    returnedSecond
  refine ⟨first, second, allocated, firstPage, mappedPage, ?_, UInt64.toNat_inj.mp secondPage,
    secondList⟩
  rw [mixedCalls, run_cons, allocated, run_cons, mapped, run_cons, run_nil, SharedState.call,
    HeapState.call_eq called]
  rfl

private theorem mixedCalls_admitted :
    Along SharedState.call SharedState.Legal (sharedBoot zeroBoot) mixedCalls ∧
      Along SharedState.call SharedState.Room (sharedBoot zeroBoot) mixedCalls ∧
      Along SharedState.call SharedState.Clear (sharedBoot zeroBoot) mixedCalls := by
  obtain ⟨first, second, allocated, firstPage, mappedPage, _⟩ := mixedCalls_run
  have whole : (4072 : UInt64).toNat ≤ 4072 := le_rfl
  have flags : highMap.flags.toNat < 4096 := by decide
  have bootRoom : zeroBoot.nextFreePage.toNat + 3 * 4096 < 2 ^ 64 := by decide
  refine ⟨⟨whole, flags, whole, True.intro⟩, ⟨bootRoom, ?_, ?_, True.intro⟩,
    ⟨freesClear_nil _ _, True.intro, ?_, True.intro⟩⟩
  · rw [allocated, SharedState.Room, firstPage]
    decide
  · rw [allocated]
    change (mapCall first highMap).nextFreePage.toNat + 3 * 4096 < 2 ^ 64
    rw [mappedPage]
    decide
  · rintro made ⟨⟩

/-- The second block freed, and then the first. -/
private theorem frees_after_mixedCalls :
    ∃ second, run SharedState.call (sharedBoot zeroBoot) mixedCalls =
        ⟨⟨second, [0x403018, 0x400018]⟩, [(0x401000, 0x403000)]⟩ ∧
      second.nextFreePage = 0x404000 ∧
      blockNext second 0x403000 = 0 ∧
      Represents (free second 0x403018) [⟨0x400000, 4072, false⟩, ⟨0x403000, 4072, true⟩] ∧
      Represents (free (free second 0x403018) 0x400018) [⟨0x400000, 8168, true⟩] := by
  obtain ⟨first, second, _, _, _, ran, page, listed⟩ := mixedCalls_run
  let front : Block := ⟨0x400000, 4072, false⟩
  let back : Block := ⟨0x403000, 4072, false⟩
  have split : Represents second ([front] ++ back :: []) := listed
  have spaced : Spaced ([front] ++ back :: []) := by
    constructor <;> decide
  have freedSpaced : Spaced ([] ++ front :: [{ back with free := true }]) := by
    constructor <;> decide
  have freed : Represents (free second back.payload) ([front] ++ back.freeInto []) :=
    (free_spec split spaced (by decide)).1
  have freedSplit : Represents (free second back.payload)
      ([] ++ front :: [{ back with free := true }]) := freed
  have joined : Represents (free (free second back.payload) front.payload)
      ([] ++ front.freeInto [{ back with free := true }]) :=
    (free_spec freedSplit freedSpaced (by decide)).1
  exact ⟨second, ran, page, split.middle.2.2, freed, joined⟩

theorem call_free (machine : Machine) (live : List UInt64) (tables : List (Nat × Nat))
    (ptr : UInt64) :
    SharedState.call ⟨⟨machine, live⟩, tables⟩ (.heap (.free ptr)) =
      ⟨⟨free machine ptr, live.erase ptr⟩, tables⟩ := rfl

/-- The successor of the first block lies behind the tables. -/
private theorem not_joinsAdjacent {machine : Machine}
    (listed : Represents machine [⟨0x400000, 4072, false⟩, ⟨0x403000, 4072, true⟩]) :
    ¬ JoinsAdjacent machine 0x400018 := by
  obtain ⟨_, known, _, nextKnown, _⟩ := listed
  have start : machine.heapStart = 0x400000 := congrArg Block.addr known
  rw [start] at known nextKnown
  have toNext : blockNext machine 0x400000 = 0x403000 := congrArg Block.addr nextKnown
  rw [toNext] at nextKnown
  have flag : decide (blockIsFree machine 0x403000 ≠ 0) = true := congrArg Block.free nextKnown
  have size : blockSize machine 0x400000 = 4072 := congrArg Block.size known
  have behind : (0x400018 : UInt64) - headerSize = 0x400000 := by decide
  rw [JoinsAdjacent, behind, toNext, size]
  intro adjacent
  exact absurd (adjacent (by decide) (of_decide_eq_true flag)) (by decide)

/-- With the first block in use, the tables are safe. -/
theorem second_block_freed :
    Along SharedState.call SharedState.MergesAdjacent (sharedBoot zeroBoot)
        (mixedCalls ++ [.heap (.free 0x403018)]) ∧
      Throughout SharedState.call SharedState.Apart (sharedBoot zeroBoot)
        (mixedCalls ++ [.heap (.free 0x403018)]) := by
  obtain ⟨legal, room, clear⟩ := mixedCalls_admitted
  obtain ⟨second, ran, page, last, _⟩ := frees_after_mixedCalls
  have boot : BootTables zeroBoot 0x101000 0x102000 0x103000 0x104000 := zeroBoot_tables
  refine (heap_and_tables_apart_iff boot rfl _ (along_append.mpr ⟨legal, ?_⟩)
    (along_append.mpr ⟨room, ?_⟩)).mpr (along_append.mpr ⟨clear, ?_⟩)
  · rw [ran]
    exact ⟨.inr List.mem_cons_self, True.intro⟩
  · rw [ran]
    refine ⟨?_, True.intro⟩
    rw [SharedState.Room, page]
    decide
  · rw [ran]
    refine ⟨?_, True.intro⟩
    have behind : (0x403018 : UInt64) - headerSize = 0x403000 := by decide
    intro made freed
    have freed : freeMade second (.free 0x403018) = some made := freed
    rw [freeMade, if_neg (by decide)] at freed
    obtain rfl := Option.some.inj freed
    intro linked
    rw [behind] at linked
    exact absurd last linked

/-- Freeing the first block as well joins it with the second, and the joined
block covers the page directory at `0x401000`. -/
theorem free_swallows_table :
    Along SharedState.call SharedState.Legal (sharedBoot zeroBoot)
        (mixedCalls ++ [.heap (.free 0x403018), .heap (.free 0x400018)]) ∧
      ¬ Along SharedState.call SharedState.MergesAdjacent (sharedBoot zeroBoot)
        (mixedCalls ++ [.heap (.free 0x403018), .heap (.free 0x400018)]) ∧
      ¬ Throughout SharedState.call SharedState.Apart (sharedBoot zeroBoot)
        (mixedCalls ++ [.heap (.free 0x403018), .heap (.free 0x400018)]) := by
  obtain ⟨second, ran, _, _, freed, joined⟩ := frees_after_mixedCalls
  refine ⟨?_, ?_, ?_⟩
  · refine along_append.mpr ⟨mixedCalls_admitted.1, ?_⟩
    rw [ran]
    refine ⟨.inr List.mem_cons_self, .inr ?_, True.intro⟩
    exact List.mem_cons_self
  · intro merges
    obtain ⟨_, last, _⟩ := (along_append.mp merges).2
    rw [ran, call_free] at last
    have made : freeMade (free second 0x403018) (.free 0x400018) =
        some (free second 0x403018, 0x400018) := by
      rw [freeMade, if_neg (by decide)]
    exact not_joinsAdjacent freed (last (free second 0x403018, 0x400018) (Option.mem_def.mpr made))
  · intro apart
    have apart := throughout_iff_leading.mp apart _ (List.prefix_refl _)
    rw [run_append, ran, run_cons, call_free, run_cons, call_free] at apart
    obtain ⟨blocks, listed, apart⟩ := apart
    obtain rfl := listed.unique joined
    have inside := apart _ List.mem_cons_self (0x401000, 0x403000) List.mem_cons_self
    exact absurd inside (by decide)

end NansOS.Heap
