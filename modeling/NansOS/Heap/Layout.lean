import NansOS.Heap.Surgery

/-! Owns where the heap lies: the pages handed out by `mmu_alloc_page` are tiled
by the blocks of the heap list, in list order, and by stretches taken for page
tables. One lemma per allocator function keeps this layout and says what it
does to the blocks in use. Since the heap list passes over page tables, a block
may be freed only where no table lies between it and a free successor. It does
not own page tables. -/

namespace NansOS.Heap

open NansOS.Foundation
open NansOS.Kernel

/-! ### Layout -/

/-- What a stretch of the pages handed out holds: a block of the heap, or page
tables. -/
inductive Stretch where
  | block (block : Block)
  | tables (lower bytes : Nat)

namespace Stretch

def start : Stretch → Nat
  | .block piece => piece.addr.toNat
  | .tables lower _ => lower

def length : Stretch → Nat
  | .block piece => piece.length
  | .tables _ bytes => bytes

def block? : Stretch → Option Block
  | .block piece => some piece
  | .tables _ _ => none

/-- A stretch of page tables, as an interval. -/
def tables? : Stretch → Option (Nat × Nat)
  | .block _ => none
  | .tables lower bytes => some (lower, lower + bytes)

end Stretch

/-- The blocks of a layout, in order. -/
def blocksOf (stretches : List Stretch) : List Block := stretches.filterMap Stretch.block?

/-- The page tables of a layout, as intervals. -/
def tablesOf (stretches : List Stretch) : List (Nat × Nat) :=
  stretches.filterMap Stretch.tables?

/-- The blocks in use. -/
def inUse (blocks : List Block) : List Block := blocks.filter fun block => !block.free

/-- The first page that `mmu_alloc_page` returns. -/
abbrev firstPage : Nat := 0x400000

/-- The stretches tile the pages handed out, and their blocks are the heap
list. -/
structure Laid (machine : Machine) (stretches : List Stretch) : Prop where
  tiles : Tiles Stretch.start Stretch.length firstPage stretches machine.nextFreePage.toNat
  listed : Represents machine (blocksOf stretches)

section Parts

variable {before after : List Stretch} {blocks : List Block} {block : Block}

@[simp] theorem blocksOf_append (before after : List Stretch) :
    blocksOf (before ++ after) = blocksOf before ++ blocksOf after :=
  List.filterMap_append

@[simp] theorem blocksOf_cons (block : Block) (rest : List Stretch) :
    blocksOf (.block block :: rest) = block :: blocksOf rest := rfl

@[simp] theorem blocksOf_map (blocks : List Block) :
    blocksOf (blocks.map Stretch.block) = blocks := by
  rw [blocksOf, List.filterMap_map]
  exact List.filterMap_some

@[simp] theorem tablesOf_append (before after : List Stretch) :
    tablesOf (before ++ after) = tablesOf before ++ tablesOf after :=
  List.filterMap_append

@[simp] theorem tablesOf_cons (block : Block) (rest : List Stretch) :
    tablesOf (.block block :: rest) = tablesOf rest := rfl

@[simp] theorem tablesOf_map (blocks : List Block) : tablesOf (blocks.map Stretch.block) = [] := by
  rw [tablesOf, List.filterMap_map]
  exact List.filterMap_eq_nil_iff.mpr fun _ _ => rfl

@[simp] theorem inUse_append (before after : List Block) :
    inUse (before ++ after) = inUse before ++ inUse after :=
  List.filter_append _ _

theorem mem_inUse : block ∈ inUse blocks ↔ block ∈ blocks ∧ block.free = false := by
  simp [inUse]

theorem mem_blocksOf {stretches : List Stretch} :
    block ∈ blocksOf stretches ↔ .block block ∈ stretches := by
  rw [blocksOf, List.mem_filterMap]
  constructor
  · rintro ⟨stretch, inside, is⟩
    cases stretch with
    | tables lower bytes => exact nomatch is
    | block piece => exact Option.some.inj is ▸ inside
  · intro inside
    exact ⟨.block block, inside, rfl⟩

/-- A block of the list, found in the layout. -/
theorem blocksOf_split {stretches : List Stretch} {first rest : List Block}
    (split : blocksOf stretches = first ++ block :: rest) :
    ∃ before after, stretches = before ++ .block block :: after ∧ blocksOf before = first ∧
      blocksOf after = rest := by
  obtain ⟨left, right, rfl, leftBlocks, rightBlocks⟩ := List.filterMap_eq_append_iff.mp split
  obtain ⟨tables, found, after, rfl, passed, is, restBlocks⟩ :=
    List.filterMap_eq_cons_iff.mp rightBlocks
  cases found with
  | tables lower bytes => exact nomatch is
  | block piece =>
      obtain rfl : piece = block := Option.some.inj is
      refine ⟨left ++ tables, after, by simp, ?_, restBlocks⟩
      have none : blocksOf tables = [] := List.filterMap_eq_nil_iff.mpr passed
      rw [blocksOf_append, none, List.append_nil]
      exact leftBlocks

/-- Blocks tile as stretches what they tile as blocks. -/
theorem tiles_map_block {lower upper : Nat} :
    Tiles Stretch.start Stretch.length lower (blocks.map Stretch.block) upper ↔
      Contiguous lower blocks upper :=
  Tiles.map_iff

end Parts

namespace Laid

variable {machine changed : Machine} {stretches before after : List Stretch} {block : Block}

theorem bounds (laid : Laid machine stretches) (member : block ∈ blocksOf stretches) :
    firstPage ≤ block.addr.toNat ∧ block.finish ≤ machine.nextFreePage.toNat := by
  have bounds := laid.tiles.bounds (mem_blocksOf.mp member)
  rw [← block.finish_eq]
  exact bounds

/-- Blocks lie apart, in list order, below the bump pointer. -/
theorem spaced (laid : Laid machine stretches) : Spaced (blocksOf stretches) := by
  have below := machine.nextFreePage.toNat_lt
  constructor
  · refine List.Pairwise.filterMap _ ?_ laid.tiles.ordered
    intro left right apart leftBlock isLeft rightBlock isRight
    cases left with
    | tables lower bytes => exact nomatch isLeft
    | block first =>
        cases right with
        | tables lower bytes => exact nomatch isRight
        | block second =>
            obtain rfl : first = leftBlock := Option.some.inj isLeft
            obtain rfl : second = rightBlock := Option.some.inj isRight
            rw [← first.finish_eq]
            exact apart
  · intro block member
    exact (laid.bounds member).2.trans below.le

/-- Blocks lie above the addresses where the tests of `split_block` wrap. -/
theorem above (laid : Laid machine stretches) (member : block ∈ blocksOf stretches) :
    32 < block.addr.toNat :=
  lt_of_lt_of_le (by decide) (laid.bounds member).1

theorem pageRoom (laid : Laid machine stretches)
    (room : machine.nextFreePage.toNat + 4096 < 2 ^ 64) :
    PageRoom machine (blocksOf stretches) where
  above := fun _ member => (laid.bounds member).2
  positive := lt_of_lt_of_le (by decide) laid.tiles.lower_le
  room := room

/-- Part of the layout is replaced by blocks over the same interval. -/
theorem replace (laid : Laid machine (before ++ (stretches ++ after))) {first last : Nat}
    (old : Tiles Stretch.start Stretch.length first stretches last) (nonempty : stretches ≠ [])
    {pieces : List Block} (new : Contiguous first pieces last)
    (page : changed.nextFreePage = machine.nextFreePage)
    (listed : Represents changed (blocksOf before ++ (pieces ++ blocksOf after))) :
    Laid changed (before ++ (pieces.map Stretch.block ++ after)) := by
  constructor
  · rw [page]
    exact laid.tiles.replace old nonempty (tiles_map_block.mpr new)
  · simpa using listed

theorem replace_block (laid : Laid machine (before ++ .block block :: after))
    {pieces : List Block} (new : Contiguous block.addr.toNat pieces block.finish)
    (page : changed.nextFreePage = machine.nextFreePage)
    (listed : Represents changed (blocksOf before ++ (pieces ++ blocksOf after))) :
    Laid changed (before ++ (pieces.map Stretch.block ++ after)) := by
  have split : Laid machine (before ++ ([.block block] ++ after)) := laid
  exact split.replace ⟨rfl, block.finish_eq⟩ (by simp) new page listed

/-- Bytes that the heap must not write: those below the first page, and page
tables. -/
def Protected (stretches : List Stretch) (target : Nat) : Prop :=
  target < firstPage ∨ ∃ region ∈ tablesOf stretches, region.1 ≤ target ∧ target < region.2

/-- A protected byte from the first page on lies in a page table. -/
theorem tables_of_protected {target : Nat} (guarded : Protected stretches target)
    (above : firstPage ≤ target) :
    ∃ start bytes, .tables start bytes ∈ stretches ∧ start ≤ target ∧ target < start + bytes := by
  rcases guarded with below | ⟨region, inside, starts, ends⟩
  · omega
  · obtain ⟨stretch, placed, is⟩ := List.mem_filterMap.mp inside
    cases stretch with
    | block piece => exact nomatch is
    | tables start bytes =>
        obtain rfl : (start, start + bytes) = region := Option.some.inj is
        exact ⟨start, bytes, placed, starts, ends⟩

/-- No byte of a block is protected. -/
theorem not_protected_block (laid : Laid machine stretches) (member : block ∈ blocksOf stretches)
    {target : Nat} (lower : block.addr.toNat ≤ target) (upper : target < block.finish) :
    ¬ Protected stretches target := by
  intro guarded
  have above := (laid.bounds member).1
  obtain ⟨start, bytes, placed, starts, ends⟩ := tables_of_protected guarded (by omega)
  obtain ⟨before, after, rfl⟩ := List.append_of_mem (mem_blocksOf.mp member)
  have finish := block.finish_eq
  obtain ⟨_, behind, ahead⟩ := List.pairwise_append.mp laid.tiles.ordered
  rcases List.mem_append.mp placed with earlier | later
  · have apart : start + bytes ≤ block.addr.toNat := ahead _ earlier _ List.mem_cons_self
    omega
  · rcases List.mem_cons.mp later with same | later
    · exact nomatch same
    · have apart : block.addr.toNat + block.length ≤ start :=
        (List.pairwise_cons.mp behind).1 _ later
      omega

/-- No byte of a page not yet handed out is protected. -/
theorem not_protected_new (laid : Laid machine stretches) {target : Nat}
    (new : machine.nextFreePage.toNat ≤ target) : ¬ Protected stretches target := by
  intro guarded
  have above := laid.tiles.lower_le
  obtain ⟨start, bytes, placed, starts, ends⟩ := tables_of_protected guarded (by omega)
  have bounds : firstPage ≤ start ∧ start + bytes ≤ machine.nextFreePage.toNat :=
    laid.tiles.bounds placed
  omega

end Laid

/-- The blocks around one of them. -/
theorem Laid.around {machine : Machine} {before after : List Stretch} {block : Block}
    (laid : Laid machine (before ++ .block block :: after)) :
    Represents machine (blocksOf before ++ block :: blocksOf after) ∧
      Spaced (blocksOf before ++ block :: blocksOf after) := by
  rw [← blocksOf_cons, ← blocksOf_append]
  exact ⟨laid.listed, laid.spaced⟩

/-- What an allocator function leaves: a layout with the same page tables, and
every protected byte as it was. -/
structure Kept (machine changed : Machine) (before after : List Stretch) : Prop where
  laid : Laid changed after
  tables : tablesOf after = tablesOf before
  cr3 : changed.cr3 = machine.cr3
  pages : ∃ count, changed.nextFreePage.toNat = machine.nextFreePage.toNat + 4096 * count
  memory : ∀ target, Laid.Protected before target →
    changed.memory target = machine.memory target

namespace Kept

variable {machine middle changed : Machine} {before between after : List Stretch}

theorem trans (second : Kept middle changed between after)
    (first : Kept machine middle before between) : Kept machine changed before after := by
  obtain ⟨few, fewPages⟩ := first.pages
  obtain ⟨more, morePages⟩ := second.pages
  refine ⟨second.laid, second.tables.trans first.tables, second.cr3.trans first.cr3,
    ⟨few + more, by omega⟩, fun target guarded => ?_⟩
  rw [← first.memory target guarded]
  apply second.memory
  rw [Laid.Protected, first.tables]
  exact guarded

/-- Writes inside one block, after which the layout is `after`. -/
theorem of_sameBut (laid : Laid machine before) {block : Block}
    (member : block ∈ blocksOf before)
    (same : SameBut changed machine (Set.Ico block.addr.toNat block.finish))
    (tables : tablesOf after = tablesOf before) (kept : Laid changed after) :
    Kept machine changed before after := by
  refine ⟨kept, tables, same.cr3, ⟨0, congrArg UInt64.toNat same.nextFreePage⟩,
    fun target guarded => ?_⟩
  apply same.memory
  intro inside
  exact laid.not_protected_block member inside.1 inside.2 guarded

end Kept

/-! ### Payload writes -/

/-- Writes to the payload of a block keep the layout. -/
theorem Laid.write_payload {machine : Machine} {stretches : List Stretch} {block : Block}
    (laid : Laid machine stretches) (member : block ∈ blocksOf stretches) {memory : Memory}
    {lower upper : Nat} (above : block.addr.toNat + 24 ≤ lower) (below : upper ≤ block.finish)
    (same : Set.EqOn memory machine.memory (Set.Ico lower upper)ᶜ) :
    Kept machine { machine with memory := memory } stretches stretches := by
  have inside : SameBut { machine with memory := memory } machine
      (Set.Ico block.addr.toNat block.finish) := by
    refine ⟨same.mono ?_, rfl, rfl, rfl⟩
    exact Set.compl_subset_compl.mpr (Set.Ico_subset_Ico (by omega) below)
  refine Kept.of_sameBut laid member inside rfl ⟨laid.tiles, ?_⟩
  refine laid.listed.congr rfl fun other listed => same.mono ?_
  refine Set.subset_compl_iff_disjoint_right.mpr (disjoint_header ?_)
  rcases laid.spaced.apart member listed with rfl | apart | apart
  · exact .inl above
  · unfold Block.finish at apart
    omega
  · exact .inr (below.trans apart)

/-! ### Freeing -/

section Free

variable {machine : Machine} {before after : List Stretch} {block : Block}

/-- The successor of a block in the list starts where the block ends, unless
page tables do. -/
theorem Laid.adjacent (laid : Laid machine (before ++ .block block :: after)) {next : Block}
    {rest : List Block} (behind : blocksOf after = next :: rest)
    (clear : ∀ region ∈ tablesOf after, region.1 ≠ block.finish) :
    ∃ tail, after = .block next :: tail ∧ blocksOf tail = rest ∧
      next.addr.toNat = block.finish := by
  obtain ⟨middle, _, here, later⟩ := Tiles.append_iff.mp laid.tiles
  have here : block.addr.toNat = middle := here
  have ends : middle + block.length = block.finish := by
    rw [← here]
    exact block.finish_eq
  cases after with
  | nil => exact nomatch behind
  | cons first tail =>
      cases first with
      | block piece =>
          obtain ⟨rfl, tailBlocks⟩ := List.cons.inj behind
          exact ⟨tail, rfl, tailBlocks, later.1.trans ends⟩
      | tables start bytes =>
          have there : start = middle + block.length := later.1
          exact absurd (there.trans ends) (clear (start, start + bytes) List.mem_cons_self)

/-- `free` of a block in use, with no page table between it and a free
successor. -/
theorem Laid.free (laid : Laid machine (before ++ .block block :: after))
    (used : block.free = false)
    (clear : ∀ next rest, blocksOf after = next :: rest → next.free = true →
      ∀ region ∈ tablesOf after, region.1 ≠ block.finish) :
    ∃ freed,
      Kept machine (Heap.free machine block.payload) (before ++ .block block :: after) freed ∧
      (inUse (blocksOf (before ++ .block block :: after))).Perm
        (block :: inUse (blocksOf freed)) := by
  have member : block ∈ blocksOf (before ++ .block block :: after) := by simp
  have bounds := laid.bounds member
  have below := machine.nextFreePage.toNat_lt
  have nonnull : block.payload ≠ 0 :=
    Block.payload_ne_zero (by unfold Block.finish at bounds; omega)
  obtain ⟨listed, spaced⟩ := laid.around
  obtain ⟨freed, same⟩ := free_spec listed spaced nonnull
  have whole := same.mono (headerBytes_subset block)
  have alone : Represents (Heap.free machine block.payload)
      (blocksOf before ++ { block with free := true } :: blocksOf after) →
      ∃ freed, Kept machine (Heap.free machine block.payload)
          (before ++ .block block :: after) freed ∧
        (inUse (blocksOf (before ++ .block block :: after))).Perm
          (block :: inUse (blocksOf freed)) := by
    intro kept
    have replaced : Laid (Heap.free machine block.payload)
        (before ++ ([{ block with free := true }].map Stretch.block ++ after)) :=
      laid.replace_block ⟨rfl, block.finish_eq⟩ same.nextFreePage kept
    refine ⟨_, Kept.of_sameBut laid member whole (by simp) replaced, ?_⟩
    simp [inUse, used]
  cases behind : blocksOf after with
  | nil =>
      rw [behind] at freed alone
      exact alone freed
  | cons next rest =>
      rw [behind, Block.freeInto] at freed
      split_ifs at freed with nextFree
      · obtain ⟨tail, rfl, tailBlocks, adjacent⟩ :=
          laid.adjacent behind (clear next rest behind nextFree)
        have pair : Tiles Stretch.start Stretch.length block.addr.toNat
            [.block block, .block next] next.finish := by
          refine ⟨rfl, adjacent.trans block.finish_eq.symm, ?_⟩
          show block.addr.toNat + block.length + next.length = next.finish
          rw [block.finish_eq, ← adjacent]
          exact next.finish_eq
        rw [behind] at spaced
        have replaced := Laid.replace laid pair (by simp) (Contiguous.join spaced adjacent)
          same.nextFreePage (by rw [tailBlocks]; exact freed)
        refine ⟨_, Kept.of_sameBut laid member whole (by simp) replaced, ?_⟩
        simp [inUse, used, nextFree]
      · rw [behind] at alone
        exact alone freed

end Free

/-! ### Taking a block -/

/-- The pieces of a split tile the block; the first keeps its place and flag,
the rest is free. -/
theorem Block.split_pieces (block : Block) {size : UInt64} (within : block.finish ≤ 2 ^ 64)
    (fitting : size.toNat ≤ block.size.toNat) :
    ∃ first rest, block.split size = first :: rest ∧ first.addr = block.addr ∧
      first.free = block.free ∧ size.toNat ≤ first.size.toNat ∧
      (∀ piece ∈ rest, piece.free = true) ∧
      Contiguous block.addr.toNat (first :: rest) block.finish := by
  rcases block.split_cases size within with whole | ⟨rest, cut, free, starts, ends, room⟩
  · exact ⟨block, [], whole, rfl, rfl, fitting, by simp, Contiguous.single⟩
  · exact ⟨{ block with size := size }, [rest], cut, rfl, rfl, le_rfl, by simpa using free,
      Contiguous.split starts ends⟩

/-- The pieces of a block that was taken: the first is in use. -/
theorem Block.take_pieces (block : Block) {size : UInt64} (within : block.finish ≤ 2 ^ 64)
    (fitting : size.toNat ≤ block.size.toNat) :
    ∃ first rest, block.take size = first :: rest ∧ first.addr = block.addr ∧
      first.free = false ∧ size.toNat ≤ first.size.toNat ∧
      (∀ piece ∈ rest, piece.free = true) ∧
      Contiguous block.addr.toNat (first :: rest) block.finish := by
  obtain ⟨first, rest, cut, place, _, size, free, starts, tiles⟩ :=
    block.split_pieces within fitting
  refine ⟨{ first with free := false }, rest, ?_, place, rfl, size, free, starts, tiles⟩
  rw [Block.take, cut]

theorem inUse_pieces {first : Block} {rest : List Block} (used : first.free = false)
    (free : ∀ piece ∈ rest, piece.free = true) : inUse (first :: rest) = [first] := by
  have dropped : inUse rest = [] := by
    apply List.filter_eq_nil_iff.mpr
    intro piece member
    simp [free piece member]
  rw [inUse, List.filter_cons_of_pos (by simp [used])]
  exact congrArg _ dropped

section Malloc

variable {machine : Machine} {stretches : List Stretch} {request : UInt64}

/-- What a successful `malloc` leaves: a block in use that is new among the
blocks in use and holds the rounded request. -/
structure Allocated (machine taken : Machine) (stretches after : List Stretch)
    (request : UInt64) (block : Block) : Prop where
  kept : Kept machine taken stretches after
  uses : (inUse (blocksOf after)).Perm (block :: inUse (blocksOf stretches))
  size : (alignSize request).toNat ≤ block.size.toNat

theorem Allocated.listed {taken : Machine} {after : List Stretch} {block : Block}
    (allocated : Allocated machine taken stretches after request block) :
    block ∈ blocksOf after :=
  (mem_inUse.mp (allocated.uses.mem_iff.mpr List.mem_cons_self)).1

/-- `malloc` served by the first block that fits. -/
private theorem Laid.malloc_served (laid : Laid machine stretches) (nonzero : request ≠ 0)
    {block : Block} {first rest : List Block}
    (split : blocksOf stretches = first ++ block :: rest)
    (skipped : ∀ other ∈ first, other.serves (alignSize request) = false)
    (serving : block.serves (alignSize request) = true) :
    ∃ taken target after, malloc machine request = some (target.payload, taken) ∧
      Allocated machine taken stretches after request target := by
  obtain ⟨before, after, rfl, rfl, rfl⟩ := blocksOf_split split
  have member : block ∈ blocksOf (before ++ .block block :: after) := by simp
  obtain ⟨listed, spaced⟩ := laid.around
  have serves := Block.serves_iff.mp serving
  obtain ⟨taken, returned, listed', same⟩ :=
    malloc_found listed spaced (laid.above member) nonzero skipped serving
  obtain ⟨target, others, cut, place, used, size, free, tiles⟩ :=
    block.take_pieces spaced.middle_within serves.2
  rw [cut] at listed'
  have replaced : Laid taken (before ++ ((target :: others).map Stretch.block ++ after)) :=
    laid.replace_block tiles same.nextFreePage listed'
  refine ⟨taken, target, _, ?_, Kept.of_sameBut laid member same (by simp) replaced, ?_, size⟩
  · rw [returned, Block.payload, Block.payload, place]
  · rw [blocksOf_append, blocksOf_append, blocksOf_map, inUse_append, inUse_append,
      inUse_pieces used free, blocksOf_append, blocksOf_cons]
    simp [inUse, serves.1]

/-- `malloc` with a new page. -/
private theorem Laid.malloc_newPage (laid : Laid machine stretches) (nonzero : request ≠ 0)
    (skipped : ∀ other ∈ blocksOf stretches, other.serves (alignSize request) = false)
    (onePage : (alignSize request).toNat ≤ 4072)
    (room : machine.nextFreePage.toNat + 4096 < 2 ^ 64) :
    ∃ taken target after, malloc machine request = some (target.payload, taken) ∧
      Allocated machine taken stretches after request target := by
  obtain ⟨taken, returned, listed, frame, page⟩ :=
    malloc_page laid.listed laid.spaced (laid.pageRoom room) nonzero skipped onePage
  have within : (pageBlock machine).finish ≤ 2 ^ 64 := by
    rw [pageBlock_finish]
    omega
  obtain ⟨target, others, cut, place, used, size, free, tiles⟩ :=
    (pageBlock machine).take_pieces within onePage
  rw [cut] at listed
  have extended : Laid taken (stretches ++ (target :: others).map Stretch.block) := by
    refine ⟨?_, by simpa using listed⟩
    refine Tiles.append_iff.mpr ⟨_, laid.tiles, tiles_map_block.mpr ?_⟩
    rw [page, ← pageBlock_finish]
    exact tiles
  refine ⟨taken, target, _, ?_, ⟨extended, by simp, frame.cr3, ⟨1, page⟩, ?_⟩, ?_, size⟩
  · rw [returned, Block.payload, Block.payload, place]
  · intro target guarded
    apply frame.memory
    rintro (⟨block, member, inside⟩ | new)
    · exact laid.not_protected_block member inside.1 inside.2 guarded
    · exact laid.not_protected_new (Set.mem_Ico.mp new).1 guarded
  · rw [blocksOf_append, blocksOf_map, inUse_append, inUse_pieces used free]
    exact List.perm_append_singleton _ _

/-- `malloc` returns a block of its own when a new page, if it takes one, holds
the request. -/
theorem Laid.malloc (laid : Laid machine stretches) (nonzero : request ≠ 0)
    (pageFits : (∀ block ∈ blocksOf stretches, block.serves (alignSize request) = false) →
      (alignSize request).toNat ≤ 4072 ∧ machine.nextFreePage.toNat + 4096 < 2 ^ 64) :
    ∃ taken target after, Heap.malloc machine request = some (target.payload, taken) ∧
      Allocated machine taken stretches after request target := by
  rcases serves_cases (blocksOf stretches) (alignSize request) with
    skipped | ⟨first, block, rest, split, skipped, serving⟩
  · obtain ⟨onePage, room⟩ := pageFits skipped
    exact laid.malloc_newPage nonzero skipped onePage room
  · exact laid.malloc_served nonzero split skipped serving

end Malloc

/-! ### Resizing in place -/

/-- `split_block` of a block in use keeps the pointers in use. -/
theorem Laid.splitBlock {machine : Machine} {before after : List Stretch} {block : Block}
    {size : UInt64} (laid : Laid machine (before ++ .block block :: after))
    (used : block.free = false) (fitting : size.toNat ≤ block.size.toNat) :
    ∃ cut, Kept machine (Heap.splitBlock machine block.addr size)
        (before ++ .block block :: after) cut ∧
      (inUse (blocksOf cut)).map Block.payload =
        (inUse (blocksOf (before ++ .block block :: after))).map Block.payload := by
  have member : block ∈ blocksOf (before ++ .block block :: after) := by simp
  obtain ⟨listed, spaced⟩ := laid.around
  obtain ⟨split, same⟩ := splitBlock_spec listed spaced (laid.above member) fitting
  obtain ⟨first, rest, cut, place, flag, _, free, tiles⟩ :=
    block.split_pieces spaced.middle_within fitting
  rw [cut] at split
  have replaced : Laid (Heap.splitBlock machine block.addr size)
      (before ++ ((first :: rest).map Stretch.block ++ after)) :=
    laid.replace_block tiles same.nextFreePage split
  refine ⟨_, Kept.of_sameBut laid member same (by simp) replaced, ?_⟩
  rw [blocksOf_append, blocksOf_append, blocksOf_map, inUse_append, inUse_append,
    inUse_pieces (flag.trans used) free, blocksOf_append, blocksOf_cons]
  simp [inUse, used, Block.payload, place]

end NansOS.Heap
