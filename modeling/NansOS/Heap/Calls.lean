import NansOS.Heap.Blocks
import NansOS.Foundation.Words

/-! Owns the library calls on the heap list: what `malloc`, `calloc`, `realloc`
and `free` do to a list of blocks, which pointer they return, which bytes they
may write, and that they return at all. `serves_cases` splits the requests: one
is served by the first free block that is large enough, or by a new page. It does
not own runs. -/

namespace NansOS.Heap

open NansOS.Foundation
open NansOS.Foundation.Words
open NansOS.Kernel

/-! ### Sizes -/

theorem alignSize_toNat (request : UInt64) (small : request.toNat + 7 < 2 ^ 64) :
    (alignSize request).toNat = 8 * ((request.toNat + 7) / 8) := by
  have sum : (request + 7).toNat = request.toNat + 7 := by
    rw [UInt64.toNat_add]
    exact Nat.mod_eq_of_lt small
  rw [alignSize, and_not_seven_toNat, sum]

/-- The size of the block in a new page, when the request fits one page. -/
theorem allocSize_page {size : UInt64} (onePage : size.toNat ≤ 4072) :
    allocSize size = 4096 := by
  have sum : (size + headerSize).toNat = size.toNat + 24 := by
    rw [UInt64.toNat_add]
    exact Nat.mod_eq_of_lt (by change size.toNat + 24 < _; omega)
  unfold allocSize
  split_ifs with less
  · rfl
  · rw [UInt64.lt_iff_toNat_lt, sum] at less
    apply UInt64.toNat_inj.mp
    rw [sum]
    change size.toNat + 24 = 4096
    change ¬ size.toNat + 24 < 4096 at less
    omega

/-! ### Taking a block -/

/-- A block split for a request, its first piece in use. -/
def Block.take (block : Block) (size : UInt64) : List Block :=
  match block.split size with
  | [] => []
  | first :: rest => { first with free := false } :: rest

/-- The pieces of a block that was taken: the block as it was, or its front and
a free rest. -/
theorem Block.take_cases (block : Block) (size : UInt64) (within : block.finish ≤ 2 ^ 64) :
    block.take size = [{ block with free := false }] ∨
      ∃ rest, block.take size = [{ block with size := size, free := false }, rest] ∧
        rest.free = true ∧ rest.addr.toNat = block.addr.toNat + 24 + size.toNat ∧
        rest.finish = block.finish ∧ size.toNat + 56 ≤ block.size.toNat := by
  unfold Block.take
  rcases block.split_cases size within with whole | ⟨rest, cut, free, start, ends, room⟩
  · rw [whole]
    exact .inl rfl
  · rw [cut]
    exact .inr ⟨rest, rfl, free, start, ends, room⟩

section Take

variable {machine : Machine} {before after : List Block} {block : Block} {size : UInt64}

theorem Spaced.take (spaced : Spaced (before ++ block :: after)) (size : UInt64) :
    Spaced (before ++ (block.take size ++ after)) := by
  have pieces := spaced.split size
  unfold Block.take
  rcases block.split_cases size spaced.middle_within with whole | ⟨rest, cut, -⟩
  · rw [whole] at pieces ⊢
    exact pieces.setFree false
  · rw [cut] at pieces ⊢
    exact pieces.setFree false

theorem takeBlock_spec (listed : Represents machine (before ++ block :: after))
    (spaced : Spaced (before ++ block :: after)) (above : 32 < block.addr.toNat)
    (fitting : size.toNat ≤ block.size.toNat) :
    Represents (takeBlock machine block.addr size).2 (before ++ (block.take size ++ after)) ∧
      SameBut (takeBlock machine block.addr size).2 machine
        (Set.Ico block.addr.toNat block.finish) := by
  obtain ⟨cutList, cutSame⟩ := splitBlock_spec listed spaced above fitting
  have pieces := spaced.split size
  unfold takeBlock Block.take
  rcases block.split_cases size spaced.middle_within with whole | ⟨rest, cut, -⟩
  · rw [whole] at cutList pieces ⊢
    obtain ⟨used, same⟩ := setIsFree_spec cutList pieces 0
    exact ⟨used, (same.mono (headerBytes_subset block)).trans cutSame⟩
  · rw [cut] at cutList pieces ⊢
    have front : Represents (splitBlock machine block.addr size)
        (before ++ { block with size := size } :: (rest :: after)) := cutList
    obtain ⟨used, same⟩ := setIsFree_spec front pieces 0
    exact ⟨used, (same.mono (headerBytes_subset block)).trans cutSame⟩

end Take

/-! ### Searching -/

/-- The test of the search, on the list. -/
def Block.serves (block : Block) (size : UInt64) : Bool :=
  block.free && decide (size ≤ block.size)

theorem Block.serves_iff {block : Block} {size : UInt64} :
    block.serves size = true ↔ block.free = true ∧ size.toNat ≤ block.size.toNat := by
  unfold Block.serves
  rw [Bool.and_eq_true, decide_eq_true_iff, UInt64.le_iff_toNat_le]

/-- A size that no block serves, or the first block that serves it. -/
theorem serves_cases (blocks : List Block) (size : UInt64) :
    (∀ block ∈ blocks, block.serves size = false) ∨
      ∃ before block after, blocks = before ++ block :: after ∧
        (∀ other ∈ before, other.serves size = false) ∧ block.serves size = true := by
  cases found : blocks.find? fun block => block.serves size with
  | none =>
      left
      simpa using List.find?_eq_none.mp found
  | some block =>
      right
      obtain ⟨serving, before, after, split, skipped⟩ := List.find?_eq_some_iff_append.mp found
      exact ⟨before, block, after, split, by simpa using skipped, serving⟩

section Search

variable {machine : Machine} {blocks before after : List Block} {block : Block} {size : UInt64}

theorem fits_eq (listed : Represents machine blocks) {other : Block} (member : other ∈ blocks) :
    fits machine size other.addr = other.serves size := by
  have known : blockAt machine other.addr = other :=
    LinkedList.Linked.node_eq (blockAt_addr machine) listed member
  have flag : decide (blockIsFree machine other.addr ≠ 0) = other.free :=
    congrArg Block.free known
  have sizeKnown : blockSize machine other.addr = other.size := congrArg Block.size known
  unfold fits Block.serves
  rw [Bool.decide_and, flag, sizeKnown]

/-- The search stops at the first block that serves. -/
theorem findFreeBlock_first (listed : Represents machine (before ++ block :: after))
    (spaced : Spaced (before ++ block :: after))
    (skipped : ∀ other ∈ before, other.serves size = false) (serving : block.serves size = true) :
    findFreeBlock machine size =
      some (LinkedList.lastOf Block.addr before 0, block.addr) := by
  have few := spaced.length_lt
  refine LinkedList.find_first (blockAt_addr machine) listed (fun other member => ?_) ?_ ?_
  · rw [fits_eq listed (by simp [member])]
    exact skipped other member
  · rw [fits_eq listed (by simp)]
    exact serving
  · simp only [List.length_append, List.length_cons] at few
    omega

theorem findFreeBlock_missing (listed : Represents machine blocks) (spaced : Spaced blocks)
    (skipped : ∀ other ∈ blocks, other.serves size = false) :
    findFreeBlock machine size = some (LinkedList.lastOf Block.addr blocks 0, 0) := by
  refine LinkedList.find_missing (blockAt_addr machine) listed (fun other member => ?_)
    spaced.length_lt
  rw [fits_eq listed member]
  exact skipped other member

end Search

/-! ### A new page -/

/-- The block that a new page becomes. -/
def pageBlock (machine : Machine) : Block := ⟨machine.nextFreePage, 4072, true⟩

/-- A request for a whole page is not split. -/
theorem pageBlock_take (machine : Machine) :
    (pageBlock machine).take (alignSize 4072) = [⟨machine.nextFreePage, 4072, false⟩] := by
  have whole : (pageBlock machine).split (alignSize 4072) = [pageBlock machine] :=
    if_neg (show ¬ (alignSize 4072).toNat + 56 ≤ (4072 : UInt64).toNat by decide)
  rw [Block.take, whole]
  rfl

/-- The machine after a page was taken, made a block and linked behind `last`,
or as the first block. -/
def linkPage (machine : Machine) (last size : UInt64) : Machine :=
  let started := initBlock machine.mmuAllocPage.2 machine.nextFreePage (allocSize size)
  if machine.heapStart = 0 then { started with heapStart := machine.nextFreePage }
  else setNext started last machine.nextFreePage

/-- The bytes of the blocks of a list. -/
def extents (blocks : List Block) : Set Nat :=
  { target | ∃ block ∈ blocks, block.addr.toNat ≤ target ∧ target < block.finish }

/-- The page that `mmu_alloc_page` hands out next. -/
def nextPage (machine : Machine) : Set Nat :=
  Set.Ico machine.nextFreePage.toNat (machine.nextFreePage.toNat + 4096)

/-- The next page exists, lies above the first 32 bytes and above all blocks. -/
structure PageRoom (machine : Machine) (blocks : List Block) : Prop where
  above : ∀ block ∈ blocks, block.finish ≤ machine.nextFreePage.toNat
  positive : 32 < machine.nextFreePage.toNat
  room : machine.nextFreePage.toNat + 4096 < 2 ^ 64

section Page

variable {machine : Machine} {blocks : List Block} {size : UInt64}

theorem pageBlock_finish (machine : Machine) :
    (pageBlock machine).finish = machine.nextFreePage.toNat + 4096 := by
  have size : (4072 : UInt64).toNat = 4072 := by decide
  unfold Block.finish pageBlock
  rw [size]

theorem Spaced.page (spaced : Spaced blocks)
    (above : ∀ block ∈ blocks, block.finish ≤ machine.nextFreePage.toNat)
    (within : machine.nextFreePage.toNat + 4096 ≤ 2 ^ 64) :
    Spaced (blocks ++ [pageBlock machine]) := by
  refine ⟨List.pairwise_append.mpr ⟨spaced.ordered, List.pairwise_singleton _ _, ?_⟩, ?_⟩
  · intro block member other last
    rw [List.mem_singleton.mp last]
    exact above block member
  · intro block member
    rcases List.mem_append.mp member with old | last
    · exact spaced.within block old
    · rw [List.mem_singleton.mp last, pageBlock_finish]
      exact within

theorem initBlock_sameBut (machine : Machine) (addr size : UInt64) :
    SameBut (initBlock machine addr size) machine (headerBytes addr) :=
  (setNext_sameBut _ _ _).trans ((setIsFree_sameBut _ _ _).trans (setSize_sameBut _ _ _))

theorem blockAt_initBlock (machine : Machine) (addr size : UInt64) :
    blockAt (initBlock machine addr size) addr = ⟨addr, size - headerSize, true⟩ := by
  unfold initBlock
  dsimp only
  rw [blockAt, blockSize_setNext, blockSize_setIsFree, blockSize_setSize, blockIsFree_setNext,
    blockIsFree_setIsFree]
  rfl

theorem blockNext_initBlock (machine : Machine) (addr size : UInt64) :
    blockNext (initBlock machine addr size) addr = 0 := by
  unfold initBlock
  dsimp only
  rw [blockNext_setNext]

private theorem initBlock_page_eqOn (machine : Machine) (total : UInt64) :
    Set.EqOn (initBlock machine.mmuAllocPage.2 machine.nextFreePage total).memory machine.memory
      (nextPage machine)ᶜ := by
  refine ((initBlock_sameBut _ _ _).memory.mono ?_).trans machine.mmuAllocPage_eqOn
  exact Set.compl_subset_compl.mpr (Set.Ico_subset_Ico le_rfl (by omega))

/-- A page that is taken and made a block keeps the list. -/
private theorem represents_initBlock (listed : Represents machine blocks)
    (above : ∀ block ∈ blocks, block.finish ≤ machine.nextFreePage.toNat) (total : UInt64) :
    Represents (initBlock machine.mmuAllocPage.2 machine.nextFreePage total) blocks := by
  refine listed.congr rfl fun block member => (initBlock_page_eqOn machine total).mono ?_
  refine Set.subset_compl_iff_disjoint_right.mpr (disjoint_header (.inl ?_))
  have := above block member
  unfold Block.finish at this
  omega

/-- Linking a new page writes the page and one header. -/
theorem linkPage_eqOn (machine : Machine) (last size : UInt64) :
    Set.EqOn (linkPage machine last size).memory machine.memory
      (headerBytes last ∪ nextPage machine)ᶜ := by
  have outside := (initBlock_page_eqOn machine (allocSize size)).mono
    (Set.compl_subset_compl.mpr (Set.subset_union_right (s := headerBytes last)))
  unfold linkPage
  dsimp only
  split_ifs
  · exact outside
  · refine ((setNext_sameBut _ _ _).memory.mono ?_).trans outside
    exact Set.compl_subset_compl.mpr Set.subset_union_left

/-- Linking a new page appends its block. -/
theorem linkPage_spec (listed : Represents machine blocks) (spaced : Spaced blocks)
    (above : ∀ block ∈ blocks, block.finish ≤ machine.nextFreePage.toNat)
    (nonzero : machine.nextFreePage ≠ 0) (onePage : size.toNat ≤ 4072) :
    Represents (linkPage machine (LinkedList.lastOf Block.addr blocks 0) size)
        (blocks ++ [pageBlock machine]) ∧
      Set.EqOn (linkPage machine (LinkedList.lastOf Block.addr blocks 0) size).memory
        machine.memory (extents blocks ∪ nextPage machine)ᶜ := by
  have newBlock : blockAt (initBlock machine.mmuAllocPage.2 machine.nextFreePage 4096)
      machine.nextFreePage = pageBlock machine := blockAt_initBlock _ _ _
  have newNext := blockNext_initBlock machine.mmuAllocPage.2 machine.nextFreePage 4096
  have outside : Set.EqOn
      (initBlock machine.mmuAllocPage.2 machine.nextFreePage 4096).memory machine.memory
      (extents blocks ∪ nextPage machine)ᶜ :=
    (initBlock_page_eqOn machine 4096).mono
      (Set.compl_subset_compl.mpr Set.subset_union_right)
  unfold linkPage
  rw [allocSize_page onePage]
  dsimp only
  rcases List.eq_nil_or_concat blocks with rfl | ⟨before, last, rfl⟩
  · have empty : machine.heapStart = 0 := listed
    rw [if_pos empty]
    exact ⟨⟨nonzero, newBlock, newNext⟩, outside⟩
  · have lastAddr : LinkedList.lastOf Block.addr (before ++ [last]) 0 = last.addr := by
      simp [LinkedList.lastOf]
    rw [List.concat_eq_append] at *
    have startedList := represents_initBlock listed above 4096
    have lastBelow := above last (by simp)
    generalize initBlock machine.mmuAllocPage.2 machine.nextFreePage 4096 = started at *
    have same := setNext_sameBut started last.addr machine.nextFreePage
    have wide := same.mono (headerBytes_subset last)
    have apart : Disjoint (headerBytes machine.nextFreePage) (headerBytes last.addr) :=
      disjoint_header (.inr (by unfold Block.finish at lastBelow; omega))
    have newKept := same.agree apart
    obtain ⟨lastNonzero, lastKnown, -⟩ := startedList.middle
    have size : blockSize started last.addr = last.size := congrArg Block.size lastKnown
    have flag : decide (blockIsFree started last.addr ≠ 0) = last.free :=
      congrArg Block.free lastKnown
    rw [if_neg listed.started, lastAddr, List.append_assoc]
    refine ⟨startedList.replace spaced wide ⟨lastNonzero, ?_, ?_⟩, ?_⟩
    · rw [blockAt, blockSize_setNext, blockIsFree_setNext, size, flag]
    · rw [blockNext_setNext]
      refine ⟨nonzero, ?_, ?_⟩
      · rw [blockAt_congr newKept, newBlock]
      · rw [(header_congr newKept).2.2, newNext]
        rfl
    · refine (wide.memory.mono (Set.compl_subset_compl.mpr ?_)).trans outside
      intro target inside
      have inside := Set.mem_Ico.mp inside
      exact .inl ⟨last, by simp, inside⟩

end Page

/-! ### malloc -/

/-- What a heap call may do to the machine: it writes in blocks and in at most
one new page, and leaves the page tables' root alone. -/
structure HeapFrame (machine changed : Machine) (blocks : List Block) : Prop where
  memory : Set.EqOn changed.memory machine.memory (extents blocks ∪ nextPage machine)ᶜ
  cr3 : changed.cr3 = machine.cr3

section Malloc

variable {machine : Machine} {blocks before after : List Block} {block : Block}
variable {request : UInt64}

theorem malloc_zero (machine : Machine) : malloc machine 0 = some (0, machine) := if_pos rfl

/-- A request that a block of the list serves takes that block. -/
theorem malloc_found_eq (listed : Represents machine (before ++ block :: after))
    (spaced : Spaced (before ++ block :: after)) (nonzero : request ≠ 0)
    (skipped : ∀ other ∈ before, other.serves (alignSize request) = false)
    (serving : block.serves (alignSize request) = true) :
    malloc machine request = some (takeBlock machine block.addr (alignSize request)) := by
  unfold malloc
  dsimp only
  rw [if_neg nonzero, if_neg listed.started, findFreeBlock_first listed spaced skipped serving,
    Option.map_some]
  dsimp only
  rw [if_neg listed.middle.1]

/-- A request that a block of the list serves. -/
theorem malloc_found (listed : Represents machine (before ++ block :: after))
    (spaced : Spaced (before ++ block :: after)) (above : 32 < block.addr.toNat)
    (nonzero : request ≠ 0)
    (skipped : ∀ other ∈ before, other.serves (alignSize request) = false)
    (serving : block.serves (alignSize request) = true) :
    ∃ taken, malloc machine request = some (block.payload, taken) ∧
      Represents taken (before ++ (block.take (alignSize request) ++ after)) ∧
      SameBut taken machine (Set.Ico block.addr.toNat block.finish) := by
  obtain ⟨used, same⟩ := takeBlock_spec listed spaced above (Block.serves_iff.mp serving).2
  exact ⟨_, malloc_found_eq listed spaced nonzero skipped serving, used, same⟩

/-- A request that no block serves takes a new page, whatever its size. -/
theorem malloc_page_eq (listed : Represents machine blocks) (spaced : Spaced blocks)
    (page : machine.nextFreePage ≠ 0) (nonzero : request ≠ 0)
    (skipped : ∀ other ∈ blocks, other.serves (alignSize request) = false) :
    malloc machine request =
      some (takeBlock (linkPage machine (LinkedList.lastOf Block.addr blocks 0)
        (alignSize request)) machine.nextFreePage (alignSize request)) := by
  -- Both branches that take a page end the same way.
  unfold malloc
  dsimp only
  rw [if_neg nonzero]
  by_cases empty : machine.heapStart = 0
  · rw [if_pos empty, Machine.mmuAllocPage_page, if_neg page]
    simp only [linkPage, if_pos empty]
  · rw [if_neg empty, findFreeBlock_missing listed spaced skipped, Option.map_some]
    dsimp only
    rw [if_pos rfl, Machine.mmuAllocPage_page, if_neg page]
    simp only [linkPage, if_neg empty]

/-- A request that no block serves and that fits one page. The page may be the
last of the address space, behind which the next one is at address 0. -/
theorem malloc_anyPage (listed : Represents machine blocks) (spaced : Spaced blocks)
    (above : ∀ block ∈ blocks, block.finish ≤ machine.nextFreePage.toNat)
    (positive : 32 < machine.nextFreePage.toNat)
    (within : machine.nextFreePage.toNat + 4096 ≤ 2 ^ 64) (nonzero : request ≠ 0)
    (skipped : ∀ other ∈ blocks, other.serves (alignSize request) = false)
    (onePage : (alignSize request).toNat ≤ 4072) :
    ∃ taken, malloc machine request = some ((pageBlock machine).payload, taken) ∧
      Represents taken (blocks ++ (pageBlock machine).take (alignSize request)) ∧
      HeapFrame machine taken blocks ∧
      taken.nextFreePage = machine.mmuAllocPage.2.nextFreePage := by
  have page : machine.nextFreePage ≠ 0 := by
    intro zero
    rw [zero, UInt64.toNat_zero] at positive
    omega
  obtain ⟨linkedList, linkedMemory⟩ := linkPage_spec listed spaced above page onePage
  have fitting : (alignSize request).toNat ≤ (pageBlock machine).size.toNat := onePage
  obtain ⟨used, same⟩ := takeBlock_spec linkedList (spaced.page above within) positive fitting
  have fields : ∀ last size, (linkPage machine last size).cr3 = machine.cr3 ∧
      (linkPage machine last size).nextFreePage = machine.mmuAllocPage.2.nextFreePage := by
    intro last size
    unfold linkPage
    dsimp only
    split_ifs <;> exact ⟨rfl, rfl⟩
  refine ⟨(takeBlock _ (pageBlock machine).addr (alignSize request)).2,
    malloc_page_eq listed spaced page nonzero skipped, by simpa using used,
    ⟨?_, same.cr3.trans (fields _ _).1⟩, same.nextFreePage.trans (fields _ _).2⟩
  refine (same.memory.mono (Set.compl_subset_compl.mpr ?_)).trans linkedMemory
  rw [pageBlock_finish]
  exact Set.subset_union_right

/-- A request that no block serves and that fits one page, with a page behind
it. -/
theorem malloc_page (listed : Represents machine blocks) (spaced : Spaced blocks)
    (room : PageRoom machine blocks) (nonzero : request ≠ 0)
    (skipped : ∀ other ∈ blocks, other.serves (alignSize request) = false)
    (onePage : (alignSize request).toNat ≤ 4072) :
    ∃ taken, malloc machine request = some ((pageBlock machine).payload, taken) ∧
      Represents taken (blocks ++ (pageBlock machine).take (alignSize request)) ∧
      HeapFrame machine taken blocks ∧
      taken.nextFreePage.toNat = machine.nextFreePage.toNat + 4096 := by
  obtain ⟨above, positive, behind⟩ := room
  have within : machine.nextFreePage.toNat + 4096 ≤ 2 ^ 64 := by omega
  obtain ⟨taken, returned, used, frame, page⟩ :=
    malloc_anyPage listed spaced above positive within nonzero skipped onePage
  refine ⟨taken, returned, used, frame, ?_⟩
  rw [page]
  exact machine.mmuAllocPage_nextFreePage behind

end Malloc

/-! ### realloc in place -/

theorem Block.payload_toNat {block : Block} (room : block.addr.toNat + 24 < 2 ^ 64) :
    block.payload.toNat = block.addr.toNat + 24 := by
  unfold Block.payload
  rw [UInt64.toNat_add]
  exact Nat.mod_eq_of_lt room

theorem Block.payload_ne_zero {block : Block} (room : block.addr.toNat + 24 < 2 ^ 64) :
    block.payload ≠ 0 := by
  intro zero
  have := Block.payload_toNat room
  rw [zero, UInt64.toNat_zero] at this
  omega

/-- A request that the block itself holds splits it and returns it. -/
theorem realloc_inPlace {machine : Machine} {block : Block} {size : UInt64}
    (known : blockAt machine block.addr = block) (nonnull : block.payload ≠ 0)
    (nonzero : size ≠ 0) (fitting : size ≤ block.size) :
    realloc machine block.payload size =
      some (block.payload, splitBlock machine block.addr size) := by
  have sizeKnown : blockSize machine block.addr = block.size := congrArg Block.size known
  unfold realloc
  dsimp only
  rw [if_neg nonnull, if_neg nonzero, block.payload_sub, sizeKnown, if_pos fitting]

/-! ### Calls -/

/-- A call of the allocator. -/
inductive HeapCall
  | malloc (size : UInt64)
  | calloc (nmemb size : UInt64)
  | realloc (ptr size : UInt64)
  | free (ptr : UInt64)

/-- The result of a call: the pointer returned (NULL for `free`) and the
machine, or nothing if the call does not return. -/
def heapCall (machine : Machine) : HeapCall → Option (UInt64 × Machine)
  | .malloc size => malloc machine size
  | .calloc nmemb size => calloc machine nmemb size
  | .realloc ptr size => realloc machine ptr size
  | .free ptr => some (0, free machine ptr)

end NansOS.Heap
