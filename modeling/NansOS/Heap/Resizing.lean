import NansOS.Heap.Sizes
import Mathlib.Data.List.Nodup

/-! Owns what happens to data when a block is resized. `malloc` writes headers
and its new page, a copy writes the payload it was given, and `free` writes one
header, so every other block in use is spared. In place, `split_block` puts a new
header behind the bytes that were asked for. The data is lost only where the
address space has no page left. -/

namespace NansOS.Heap

open NansOS.Foundation
open NansOS.Kernel

/-! ### Blocks that are spared -/

/-- The bytes of a payload. -/
def payloadBytes (block : Block) : Set Nat := Set.Ico (block.addr.toNat + 24) block.finish

/-- A block keeps its size and its payload. -/
structure Spared (machine changed : Machine) (block : Block) : Prop where
  size : blockSize changed block.addr = blockSize machine block.addr
  payload : Set.EqOn changed.memory machine.memory (payloadBytes block)

/-- An allocation keeps its size and its contents. -/
def Unchanged (machine changed : Machine) (ptr : UInt64) : Prop :=
  payloadSize changed ptr = payloadSize machine ptr ∧
    ∀ index < payloadSize machine ptr,
      changed.memory (ptr.toNat + index) = machine.memory (ptr.toNat + index)

section Spared

variable {machine middle changed : Machine} {stretches : List Stretch} {footprint : Set Nat}
variable {blocks : List Block} {block other : Block}

theorem Spared.trans (second : Spared middle changed block) (first : Spared machine middle block) :
    Spared machine changed block :=
  ⟨second.size.trans first.size, second.payload.trans first.payload⟩

theorem payloadBytes_subset (block : Block) :
    payloadBytes block ⊆ Set.Ico block.addr.toNat block.finish :=
  Set.Ico_subset_Ico (by omega) le_rfl

/-- Writes elsewhere spare a block. -/
theorem SameBut.spares (same : SameBut changed machine footprint)
    (apart : Disjoint (Set.Ico block.addr.toNat block.finish) footprint) :
    Spared machine changed block := by
  have agree := same.memory.mono (Set.subset_compl_iff_disjoint_right.mpr apart)
  constructor
  · exact (header_congr (agree.mono (headerBytes_subset block))).1
  · exact agree.mono (payloadBytes_subset block)

theorem Laid.unchanged (laid : Laid machine stretches) (member : block ∈ blocksOf stretches)
    (spared : Spared machine changed block) : Unchanged machine changed block.payload := by
  have extent := laid.payload_extent member
  have place := laid.payload_toNat member
  constructor
  · rw [payloadSize, payloadSize, block.payload_sub, spared.size]
  · intro index below
    exact spared.payload ⟨by omega, by omega⟩

/-- Two blocks of a list that are not one share no byte. -/
theorem Spaced.disjoint (spaced : Spaced blocks) (member : block ∈ blocks)
    (listed : other ∈ blocks) (different : other ≠ block) :
    Disjoint (Set.Ico other.addr.toNat other.finish) (Set.Ico block.addr.toNat block.finish) := by
  rw [Set.disjoint_left]
  intro target inside within
  have inside := Set.mem_Ico.mp inside
  have within := Set.mem_Ico.mp within
  have apart := (spaced.apart member listed).resolve_left different
  omega

/-- No payload meets a header of the list. -/
theorem Spaced.payload_disjoint_header (spaced : Spaced blocks) (member : block ∈ blocks)
    (listed : other ∈ blocks) : Disjoint (payloadBytes other) (headerBytes block.addr) := by
  by_cases same : other = block
  · subst same
    exact (disjoint_header (.inl le_rfl)).symm
  · exact (spaced.disjoint member listed same).mono (payloadBytes_subset other)
      (headerBytes_subset block)

end Spared

/-! ### Allocating -/

section Malloc

variable {machine taken : Machine} {stretches after : List Stretch} {request : UInt64}
variable {block target : Block}

theorem Allocated.of_used (allocated : Allocated machine taken stretches after request target)
    (member : block ∈ inUse (blocksOf stretches)) : block ∈ inUse (blocksOf after) :=
  allocated.uses.mem_iff.mpr (List.mem_cons_of_mem _ member)

/-- The block that `malloc` takes was not in use. -/
theorem Allocated.ne_target (allocated : Allocated machine taken stretches after request target)
    (member : block ∈ inUse (blocksOf stretches)) : block ≠ target := by
  rintro rfl
  have distinct : (blocksOf after).Nodup := .of_map _ allocated.kept.laid.spaced.payload_nodup
  have once := allocated.uses.nodup_iff.mp (distinct.filter _)
  exact (List.nodup_cons.mp once).1 member

/-- The last block of the list, or `NULL` in front of an empty one. -/
theorem lastOf_cases (blocks : List Block) :
    LinkedList.lastOf Block.addr blocks 0 = 0 ∨
      ∃ block ∈ blocks, LinkedList.lastOf Block.addr blocks 0 = block.addr := by
  rcases List.eq_nil_or_concat blocks with rfl | ⟨before, last, rfl⟩
  · exact .inl rfl
  · exact .inr ⟨last, by simp, by simp [LinkedList.lastOf]⟩

theorem disjoint_nextPage (below : block.finish ≤ machine.nextFreePage.toNat) :
    Disjoint (payloadBytes block) (nextPage machine) := by
  rw [Set.disjoint_left]
  intro target inside within
  have inside := Set.mem_Ico.mp inside
  have within := Set.mem_Ico.mp within
  omega

/-- Linking a new page writes no payload below it. -/
theorem linkPage_payload {blocks : List Block} (spaced : Spaced blocks) (member : block ∈ blocks)
    (below : block.finish ≤ machine.nextFreePage.toNat) (size : UInt64) :
    Set.EqOn (linkPage machine (LinkedList.lastOf Block.addr blocks 0) size).memory machine.memory
      (payloadBytes block) := by
  have header : Disjoint (payloadBytes block)
      (headerBytes (LinkedList.lastOf Block.addr blocks 0)) := by
    rcases lastOf_cases blocks with null | ⟨last, listed, isLast⟩
    · rw [null]
      exact (disjoint_header (.inl (by rw [UInt64.toNat_zero]; omega))).symm
    · rw [isLast]
      exact spaced.payload_disjoint_header listed member
  refine (linkPage_eqOn machine _ size).mono (Set.subset_compl_iff_disjoint_right.mpr ?_)
  exact Set.disjoint_union_right.mpr ⟨header, disjoint_nextPage below⟩

/-- `malloc` writes no payload that is in use. -/
theorem Laid.malloc_payload {result : UInt64} (laid : Laid machine stretches)
    (nonzero : request ≠ 0)
    (onePage : (∀ block ∈ blocksOf stretches, block.serves (alignSize request) = false) →
      (alignSize request).toNat ≤ 4072 ∧ machine.nextFreePage.toNat + 4096 < 2 ^ 64)
    (returned : Heap.malloc machine request = some (result, taken))
    (member : block ∈ inUse (blocksOf stretches)) :
    Set.EqOn taken.memory machine.memory (payloadBytes block) := by
  obtain ⟨inside, used⟩ := mem_inUse.mp member
  have below := (laid.bounds inside).2
  have listed := laid.listed
  have spaced := laid.spaced
  rcases serves_cases (blocksOf stretches) (alignSize request) with
    skipped | ⟨first, found, rest, split, skipped, serving⟩
  · obtain ⟨small, room⟩ := onePage skipped
    obtain ⟨above, positive, behind⟩ := laid.pageRoom room
    have page : machine.nextFreePage ≠ 0 := by
      intro zero
      rw [zero, UInt64.toNat_zero] at positive
      omega
    have taking := malloc_page_eq listed spaced page nonzero skipped
    obtain rfl : _ = taken := (Prod.mk.inj (Option.some.inj (taking.symm.trans returned))).2
    obtain ⟨linked, -⟩ := linkPage_spec listed spaced above page small
    obtain ⟨-, same⟩ := takeBlock_spec linked (spaced.page above (by omega)) positive
      (show (alignSize request).toNat ≤ (pageBlock machine).size.toNat from small)
    rw [pageBlock_finish] at same
    have newPage := Set.subset_compl_iff_disjoint_right.mpr (disjoint_nextPage below)
    exact (same.memory.mono newPage).trans (linkPage_payload spaced inside below _)
  · have within : found ∈ blocksOf stretches := by simp [split]
    have different : block ≠ found := by
      rintro rfl
      exact absurd ((Block.serves_iff.mp serving).1.symm.trans used) (by decide)
    have apart := spaced.disjoint within inside different
    have above := laid.above within
    rw [split] at listed spaced
    obtain ⟨other, taking, -, same⟩ := malloc_found listed spaced above nonzero skipped serving
    obtain rfl : other = taken := (Prod.mk.inj (Option.some.inj (taking.symm.trans returned))).2
    exact (same.spares apart).payload

/-- `malloc` spares every block in use. -/
theorem Laid.malloc_spares (laid : Laid machine stretches) (nonzero : request ≠ 0)
    (onePage : (∀ block ∈ blocksOf stretches, block.serves (alignSize request) = false) →
      (alignSize request).toNat ≤ 4072 ∧ machine.nextFreePage.toNat + 4096 < 2 ^ 64)
    (returned : Heap.malloc machine request = some (target.payload, taken))
    (allocated : Allocated machine taken stretches after request target)
    (member : block ∈ inUse (blocksOf stretches)) : Spared machine taken block := by
  refine ⟨?_, laid.malloc_payload nonzero onePage returned member⟩
  have stays := (mem_inUse.mp (allocated.of_used member)).1
  have known := congrArg Block.size (laid.block_known (mem_inUse.mp member).1)
  exact (congrArg Block.size (allocated.kept.laid.block_known stays)).trans known.symm

end Malloc

/-! ### Moving -/

section Moved

variable {machine taken : Machine} {stretches after : List Stretch} {size : UInt64}
variable {block target other : Block}

/-- The old block is copied into a larger one. -/
structure Copies (machine taken : Machine) (stretches after : List Stretch) (size : UInt64)
    (block target : Block) : Prop where
  allocated : Allocated machine taken stretches after size target
  source : block ∈ inUse (blocksOf stretches)
  grows : block.size.toNat < target.size.toNat

namespace Copies

variable (copies : Copies machine taken stretches after size block target)

include copies

/-- The copy writes the payload of the new block. -/
theorem copy_sameBut :
    SameBut (afterCopy taken target.payload block.payload) taken (payloadBytes target) := by
  obtain ⟨allocated, source, grows⟩ := copies
  have laid := allocated.kept.laid
  have stays := (mem_inUse.mp (allocated.of_used source)).1
  have recorded : blockSize taken (block.payload - headerSize) = block.size := by
    rw [block.payload_sub]
    exact congrArg Block.size (laid.block_known stays)
  have place := laid.payload_toNat allocated.listed
  have within : Set.Ico target.payload.toNat (target.payload.toNat + block.size.toNat) ⊆
      payloadBytes target :=
    Set.Ico_subset_Ico place.ge (by unfold Block.finish; omega)
  rw [afterCopy, recorded]
  exact ⟨(memcpy_eqOn taken.memory _ _ _).mono (Set.compl_subset_compl.mpr within), rfl, rfl, rfl⟩

/-- The copy and the free spare every block in use but these two. -/
theorem spares (used : other ∈ inUse (blocksOf after)) (notTarget : other ≠ target)
    (notBlock : other ≠ block) :
    Spared taken (free (afterCopy taken target.payload block.payload) block.payload) other := by
  have spaced := copies.allocated.kept.laid.spaced
  have inside := (mem_inUse.mp used).1
  have stays := (mem_inUse.mp (copies.allocated.of_used copies.source)).1
  have freed := free_sameBut (afterCopy taken target.payload block.payload) block.payload
  rw [block.payload_sub] at freed
  refine (freed.spares ?_).trans (copies.copy_sameBut.spares ?_)
  · exact (spaced.disjoint stays inside notBlock).mono_right (headerBytes_subset block)
  · exact (spaced.disjoint copies.allocated.listed inside notTarget).mono_right
      (payloadBytes_subset target)

/-- The new block begins with the bytes of the old one. -/
theorem data {index : Nat} (below : index < block.size.toNat) :
    (free (afterCopy taken target.payload block.payload) block.payload).memory
        (target.payload.toNat + index) = taken.memory (block.payload.toNat + index) := by
  obtain ⟨allocated, source, grows⟩ := copies
  have laid := allocated.kept.laid
  have stays := (mem_inUse.mp (allocated.of_used source)).1
  have listed := allocated.listed
  have known := congrArg Block.size (laid.block_known stays)
  have place := laid.payload_toNat listed
  have oldPlace := laid.payload_toNat stays
  -- The header that is freed lies outside the new payload.
  have freed := free_sameBut (afterCopy taken target.payload block.payload) block.payload
  rw [block.payload_sub] at freed
  have outside := Set.subset_compl_iff_disjoint_right.mpr
    (laid.spaced.payload_disjoint_header stays listed)
  have inside : target.payload.toNat + index ∈ payloadBytes target :=
    ⟨by omega, by unfold Block.finish; omega⟩
  rw [freed.memory (outside inside), afterCopy]
  dsimp only
  rw [block.payload_sub, show blockSize taken block.addr = block.size from known,
    memcpy_apply _ _ _ _ _ below, copiedOffset_of_apart]
  have apart := (laid.spaced.apart stays listed).resolve_left (allocated.ne_target source).symm
  unfold Block.finish at apart
  omega

end Copies

end Moved

/-! ### In place -/

section InPlace

variable {machine : Machine} {stretches : List Stretch} {size : UInt64} {block other : Block}

/-- `split_block` writes the header of its block, and the one behind the size. -/
theorem splitBlock_sameBut (machine : Machine) (block size : UInt64) :
    SameBut (splitBlock machine block size) machine
      (headerBytes block ∪ headerBytes (block + headerSize + size)) := by
  have old : headerBytes block ⊆ headerBytes block ∪ headerBytes (block + headerSize + size) :=
    Set.subset_union_left
  have new : headerBytes (block + headerSize + size) ⊆
      headerBytes block ∪ headerBytes (block + headerSize + size) := Set.subset_union_right
  unfold splitBlock
  split_ifs
  · refine ((setNext_sameBut _ _ _).mono old).trans (((setSize_sameBut _ _ _).mono old).trans ?_)
    refine SameBut.mono ?_ new
    exact (setNext_sameBut _ _ _).trans ((setIsFree_sameBut _ _ _).trans (setSize_sameBut _ _ _))
  · exact SameBut.refl _ _

/-- Splitting a block spares the others. -/
theorem Laid.splitBlock_spares (laid : Laid machine stretches)
    (member : block ∈ blocksOf stretches) (fitting : size.toNat ≤ block.size.toNat)
    (listed : other ∈ blocksOf stretches) (different : other ≠ block) :
    Spared machine (Heap.splitBlock machine block.addr size) other := by
  have apart := laid.spaced.disjoint member listed different
  obtain ⟨first, rest, split⟩ := List.append_of_mem member
  have represents := laid.listed
  have spaced := laid.spaced
  rw [split] at represents spaced
  exact (splitBlock_spec represents spaced (laid.above member) fitting).2.spares apart

/-- Splitting a block keeps the bytes in front of its new end. -/
theorem Laid.splitBlock_data (laid : Laid machine stretches)
    (member : block ∈ blocksOf stretches) (fitting : size.toNat ≤ block.size.toNat)
    {index : Nat} (below : index < size.toNat) :
    (Heap.splitBlock machine block.addr size).memory (block.payload.toNat + index) =
      machine.memory (block.payload.toNat + index) := by
  have place := laid.payload_toNat member
  have within := laid.spaced.within block member
  have known := congrArg Block.size (laid.block_known member)
  by_cases taken : block.size ≥ size + headerSize + 32
  · have room := (split_guard (laid.above member) within fitting).mp taken
    have behind := (split_toNat room within).1
    apply (splitBlock_sameBut machine block.addr size).memory
    rintro (old | new)
    · have old := Set.mem_Ico.mp old
      omega
    · have new := Set.mem_Ico.mp new
      omega
  · have whole : ¬ blockSize machine block.addr ≥ size + headerSize + 32 := by
      rwa [show blockSize machine block.addr = block.size from known]
    rw [Heap.splitBlock, if_neg whole]

end InPlace

/-! ### realloc -/

/-- What `realloc` returns holds the first bytes of the old data, as many as both
sizes have, and the other allocations are as they were. -/
structure HeapState.Resized (state : HeapState) (ptr size result : UInt64) (changed : Machine) :
    Prop where
  found : result ≠ 0
  data : ∀ index < min (payloadSize state.machine ptr) size.toNat,
    changed.memory (result.toNat + index) = state.machine.memory (ptr.toNat + index)
  others : ∀ other ∈ state.live, other ≠ ptr →
    other ∈ (state.call (.realloc ptr size)).live ∧ Unchanged state.machine changed other

/-- `realloc` returns and keeps the data. -/
def HeapState.KeepsData (state : HeapState) (ptr size : UInt64) : Prop :=
  ∃ result changed, realloc state.machine ptr size = some (result, changed) ∧
    state.Resized ptr size result changed

section Realloc

variable {state : HeapState} {stretches : List Stretch} {ptr size : UInt64}

/-- The allocations that stay live. -/
theorem mem_live_realloc {result : UInt64} {changed : Machine} (nonnull : ptr ≠ 0)
    (nonzero : size ≠ 0) (found : result ≠ 0)
    (returned : realloc state.machine ptr size = some (result, changed)) {other : UInt64}
    (member : other ∈ state.live) (different : other ≠ ptr) :
    other ∈ (state.call (.realloc ptr size)).live := by
  have called : heapCall state.machine (.realloc ptr size) = some (result, changed) := returned
  rw [HeapState.call_eq called, liveAfter, if_neg nonnull, if_neg nonzero, if_neg found]
  exact List.mem_cons_of_mem _ ((List.mem_erase_of_ne different).mpr member)

/-- A block that holds the new size stays where it is. -/
theorem HeapState.LaidOut.keepsData_inPlace {block : Block} (laidOut : state.LaidOut stretches)
    (member : block ∈ inUse (blocksOf stretches)) (nonzero : size ≠ 0)
    (fitting : size ≤ block.size) : state.KeepsData block.payload size := by
  obtain ⟨laid, owns⟩ := laidOut
  have listed := (mem_inUse.mp member).1
  have nonnull := laid.payload_ne_zero listed
  have fits := UInt64.le_iff_toNat_le.mp fitting
  have returned := realloc_inPlace (laid.block_known listed) nonnull nonzero fitting
  refine ⟨_, _, returned, nonnull, ?_, ?_⟩
  · intro index below
    exact laid.splitBlock_data listed fits (lt_min_iff.mp below).2
  · intro other live different
    refine ⟨mem_live_realloc nonnull nonzero nonnull returned live different, ?_⟩
    obtain ⟨neighbour, inside, -, rfl⟩ := owns.of_mem live
    refine laid.unchanged inside (laid.splitBlock_spares listed fits inside ?_)
    rintro rfl
    exact different rfl

/-- A block that is too small is copied into another one. -/
theorem HeapState.LaidOut.keepsData_moved {block : Block} (laidOut : state.LaidOut stretches)
    (member : block ∈ inUse (blocksOf stretches)) (nonzero : size ≠ 0)
    (small : size.toNat ≤ 2 ^ 64 - 8) (growing : block.size < size)
    (pageFits : state.PageFits (.realloc block.payload size)) :
    state.KeepsData block.payload size := by
  obtain ⟨laid, owns⟩ := laidOut
  have listed := (mem_inUse.mp member).1
  have nonnull := laid.payload_ne_zero listed
  have known := congrArg Block.size (laid.block_known listed)
  have grows := UInt64.lt_iff_toNat_lt.mp growing
  have moving : ¬ blockSize state.machine (block.payload - headerSize) ≥ size := by
    rw [block.payload_sub, show blockSize state.machine block.addr = block.size from known]
    exact UInt64.not_le.mpr growing
  have onePage : (∀ block ∈ blocksOf stretches, block.serves (alignSize size) = false) →
      (alignSize size).toNat ≤ 4072 ∧ state.machine.nextFreePage.toNat + 4096 < 2 ^ 64 :=
    fun skipped => pageFits size (mallocRequest_moved nonnull nonzero moving) nonzero
      (laid.takesPage skipped)
  obtain ⟨taken, target, after, received, allocated⟩ := laid.malloc nonzero onePage
  have spared : ∀ other ∈ inUse (blocksOf stretches), Spared state.machine taken other :=
    fun _ used => laid.malloc_spares nonzero onePage received allocated used
  have rounded := alignSize_toNat size (by omega)
  have larger := allocated.size
  have copies : Copies state.machine taken stretches after size block target :=
    ⟨allocated, member, by omega⟩
  have found := allocated.kept.laid.payload_ne_zero allocated.listed
  have returned := realloc_moved nonnull nonzero moving received found
  refine ⟨_, _, returned, found, ?_, ?_⟩
  · intro index below
    have below := (lt_min_iff.mp below).1
    rw [laid.payloadSize_eq listed] at below
    have place := laid.payload_toNat listed
    exact (copies.data below).trans
      ((spared block member).payload ⟨by omega, by unfold Block.finish; omega⟩)
  · intro other live different
    refine ⟨mem_live_realloc nonnull nonzero found returned live different, ?_⟩
    obtain ⟨neighbour, inside, used, rfl⟩ := owns.of_mem live
    have before := mem_inUse.mpr ⟨inside, used⟩
    have notBlock : neighbour ≠ block := by
      rintro rfl
      exact different rfl
    exact laid.unchanged inside ((copies.spares (allocated.of_used before)
      (allocated.ne_target before) notBlock).trans (spared neighbour before))

/-- One `realloc` of a live pointer. -/
theorem HeapState.LaidOut.keepsData (laidOut : state.LaidOut stretches) (live : ptr ∈ state.live)
    (positive : 1 ≤ size.toNat) (small : size.toNat ≤ 2 ^ 64 - 8)
    (pageFits : state.PageFits (.realloc ptr size)) : state.KeepsData ptr size := by
  obtain ⟨block, inside, used, rfl⟩ := laidOut.owns.of_mem live
  have member := mem_inUse.mpr ⟨inside, used⟩
  have nonzero : size ≠ 0 := by
    rintro rfl
    exact absurd positive (by decide)
  by_cases fitting : size ≤ block.size
  · exact laidOut.keepsData_inPlace member nonzero fitting
  · exact laidOut.keepsData_moved member nonzero small (UInt64.not_le.mp fitting) pageFits

end Realloc

/-! ### Whole runs -/

/-- On every heap reached by legal calls that find a page where they need one,
`realloc` of a live pointer keeps the data, if it finds a page where it needs
one. -/
theorem realloc_keeps_data (memory : Memory) (cr3 : UInt64) (calls : List HeapCall)
    (legal : Along HeapState.call (HeapState.Legal 4072) (freshHeap memory cr3) calls)
    (fits : Along HeapState.call HeapState.PageFits (freshHeap memory cr3) calls)
    {ptr size : UInt64} (live : ptr ∈ (run HeapState.call (freshHeap memory cr3) calls).live)
    (positive : 1 ≤ size.toNat) (small : size.toNat ≤ 4072)
    (pageFits : (run HeapState.call (freshHeap memory cr3) calls).PageFits (.realloc ptr size)) :
    (run HeapState.call (freshHeap memory cr3) calls).KeepsData ptr size := by
  have reached : (run HeapState.call (freshHeap memory cr3) calls).HeapOnly :=
    run_invariant _ HeapState.HeapOnly
      (fun _ _ alone conditions =>
        (alone.call (legal_mono (by decide) conditions.1) conditions.2).2)
      (freshHeap_heapOnly memory cr3) (legal.and fits)
  obtain ⟨stretches, laidOut, -⟩ := reached
  exact laidOut.keepsData live positive (by omega) pageFits

/-- A block that is moved, on a heap that was used. -/
theorem busyCalls_keeps_data :
    (run HeapState.call (freshHeap (fun _ => 0) 0) busyCalls).KeepsData 0x400178 1000 := by
  obtain ⟨live, page⟩ := busyCalls_reached
  have legal : (run HeapState.call (freshHeap (fun _ => 0) 0) busyCalls).Legal 4072
      (.realloc 0x400178 1000) := ⟨.inr live, by decide⟩
  exact realloc_keeps_data (fun _ => 0) 0 busyCalls (busyCalls_legal le_rfl) busyCalls_fits live
    (by decide) (by decide) (pageFits_of_legal legal (by rw [page]; decide))

/-! ### The end of the address space -/

/-- No block has room for a whole page, and the pages below this one are handed
out. -/
structure Filled (machine : Machine) (blocks : List Block) (pages : Nat) : Prop where
  listed : Represents machine blocks
  spaced : Spaced blocks
  below : ∀ block ∈ blocks, block.finish ≤ 4096 * pages
  skipped : ∀ block ∈ blocks, block.serves (alignSize 4072) = false
  next : machine.nextFreePage = UInt64.ofNat (4096 * pages)

section Filled

variable {machine : Machine} {blocks : List Block} {pages : Nat}

/-- A request for a whole page fills one more, the last one included. -/
theorem Filled.malloc (filled : Filled machine blocks pages) (positive : 1 ≤ pages)
    (left : pages < 0x10000000000000) :
    ∃ ptr taken, Heap.malloc machine 4072 = some (ptr, taken) ∧ ptr ≠ 0 ∧
      Filled taken (blocks ++ [⟨machine.nextFreePage, 4072, false⟩]) (pages + 1) := by
  obtain ⟨listed, spaced, below, skipped, next⟩ := filled
  have place : machine.nextFreePage.toNat = 4096 * pages := by
    rw [next, UInt64.toNat_ofNat', Nat.mod_eq_of_lt (by omega)]
  have above : ∀ block ∈ blocks, block.finish ≤ machine.nextFreePage.toNat := place ▸ below
  obtain ⟨taken, returned, list, -, page⟩ := malloc_anyPage listed spaced above (by omega)
    (by omega) (by decide) skipped (show (alignSize 4072).toNat ≤ 4072 by decide)
  have finish : (⟨machine.nextFreePage, 4072, false⟩ : Block).finish = 4096 * (pages + 1) := by
    have ends := pageBlock_finish machine
    rw [place] at ends
    exact ends.trans (by ring)
  rw [pageBlock_take] at list
  refine ⟨_, taken, returned, ?_, list, ?_, ?_, ?_, ?_⟩
  · exact Block.payload_ne_zero (show machine.nextFreePage.toNat + 24 < 2 ^ 64 by omega)
  · exact (spaced.page above (by omega)).setFree false
  · intro block member
    rcases List.mem_append.mp member with old | new
    · have := below block old
      omega
    · rw [List.mem_singleton.mp new, finish]
  · intro block member
    rcases List.mem_append.mp member with old | new
    · exact skipped block old
    · rw [List.mem_singleton.mp new]
      rfl
  · rw [page, Machine.mmuAllocPage]
    dsimp only
    rw [next, ← UInt64.ofNat_add]
    rfl

/-- Behind the last page there is none: `malloc` returns `NULL`. -/
theorem Filled.malloc_null (filled : Filled machine blocks 0x10000000000000)
    (nonempty : machine.heapStart ≠ 0) :
    ∃ taken, Heap.malloc machine 4072 = some (0, taken) := by
  have none : machine.nextFreePage = 0 := filled.next.trans (by decide)
  have search := findFreeBlock_missing filled.listed filled.spaced filled.skipped
  refine ⟨machine.mmuAllocPage.2, ?_⟩
  unfold Heap.malloc
  dsimp only
  rw [if_neg (by decide), if_neg nonempty, search, Option.map_some]
  dsimp only
  rw [if_pos rfl, Machine.mmuAllocPage_page, if_pos none]

end Filled

/-- Filling page after page keeps the small allocation live. -/
theorem filled_run {state : HeapState} {blocks : List Block} {pages : Nat} (count : Nat)
    (filled : Filled state.machine blocks pages) (positive : 1 ≤ pages)
    (left : pages + count ≤ 0x10000000000000) {block : Block} (member : block ∈ blocks)
    (live : block.payload ∈ state.live) :
    Along HeapState.call (HeapState.Legal 4072) state (List.replicate count (.malloc 4072)) ∧
      ∃ others, Filled (run HeapState.call state (List.replicate count (.malloc 4072))).machine
          others (pages + count) ∧ block ∈ others ∧
        block.payload ∈ (run HeapState.call state (List.replicate count (.malloc 4072))).live := by
  induction count generalizing state blocks pages with
  | zero => exact ⟨trivial, blocks, filled, member, live⟩
  | succ count inductionHypothesis =>
      obtain ⟨ptr, taken, returned, nonnull, later⟩ := filled.malloc positive (by omega)
      have answered : heapCall state.machine (.malloc 4072) = some (ptr, taken) := returned
      have called : state.call (.malloc 4072) = ⟨taken, ptr :: state.live⟩ := by
        rw [HeapState.call_eq answered, liveAfter, received, if_neg nonnull]
      have next : Filled (⟨taken, ptr :: state.live⟩ : HeapState).machine
          (blocks ++ [⟨state.machine.nextFreePage, 4072, false⟩]) (pages + 1) := later
      obtain ⟨legal, others, last, stays, still⟩ := inductionHypothesis next (by omega) (by omega)
        (List.mem_append_left _ member) (List.mem_cons_of_mem ptr live)
      rw [List.replicate_succ, run_cons, called, Nat.add_comm count, ← Nat.add_assoc]
      exact ⟨⟨show (4072 : UInt64).toNat ≤ 4072 by decide, called ▸ legal⟩, others, last, stays,
        still⟩

/-- A small allocation, and a number of whole pages. -/
def fillingCalls (count : Nat) : List HeapCall :=
  .malloc 100 :: List.replicate count (.malloc 4072)

/-- When the whole pages reach the end of the address space, `realloc` of the
small allocation returns `NULL`. -/
theorem filled_realloc_null {count : Nat} (full : 1025 + count = 0x10000000000000) :
    Along HeapState.call (HeapState.Legal 4072) (freshHeap (fun _ => 0) 0) (fillingCalls count) ∧
      0x400018 ∈ (run HeapState.call (freshHeap (fun _ => 0) 0) (fillingCalls count)).live ∧
      ∃ taken, realloc (run HeapState.call (freshHeap (fun _ => 0) 0) (fillingCalls count)).machine
        0x400018 4072 = some (0, taken) := by
  have start : Filled ((freshHeap (fun _ => 0) 0).call (.malloc 100)).machine
      [⟨0x400000, 104, false⟩, ⟨0x400080, 3944, true⟩] 1025 := by
    refine ⟨by decide +kernel, ⟨by decide, by decide⟩, by decide, by decide, by decide +kernel⟩
  have first : 0x400018 ∈ ((freshHeap (fun _ => 0) 0).call (.malloc 100)).live := by
    decide +kernel
  have small : (⟨0x400000, 104, false⟩ : Block) ∈
      [(⟨0x400000, 104, false⟩ : Block), ⟨0x400080, 3944, true⟩] := List.mem_cons_self
  obtain ⟨legal, others, filled, member, live⟩ :=
    filled_run count start (by decide) (by omega) small first
  rw [full] at filled
  rw [fillingCalls, run_cons]
  refine ⟨⟨show (100 : UInt64).toNat ≤ 4072 by decide, legal⟩, live, ?_⟩
  obtain ⟨before, after, rfl⟩ := List.append_of_mem member
  obtain ⟨-, known, -⟩ := filled.listed.middle
  obtain ⟨taken, failed⟩ := filled.malloc_null filled.listed.started
  have size : blockSize _ 0x400000 = 104 := congrArg Block.size known
  exact ⟨taken, realloc_failed (by decide) (by decide)
    (show ¬ blockSize _ (0x400018 - headerSize) ≥ 4072 from size ▸ by decide) failed⟩

/-- After so many calls no page of the address space is left. -/
theorem exhausted_realloc_not_keepsData :
    Along HeapState.call (HeapState.Legal 4072) (freshHeap (fun _ => 0) 0)
        (fillingCalls 0xFFFFFFFFFFBFF) ∧
      0x400018 ∈
        (run HeapState.call (freshHeap (fun _ => 0) 0) (fillingCalls 0xFFFFFFFFFFBFF)).live ∧
      ¬ (run HeapState.call (freshHeap (fun _ => 0) 0)
        (fillingCalls 0xFFFFFFFFFFBFF)).KeepsData 0x400018 4072 := by
  have full : 1025 + 0xFFFFFFFFFFBFF = 0x10000000000000 := rfl
  obtain ⟨legal, live, taken, failed⟩ := filled_realloc_null full
  refine ⟨legal, live, ?_⟩
  rintro ⟨result, changed, returned, resized⟩
  exact resized.found (Prod.mk.inj (Option.some.inj (returned.symm.trans failed))).1

end NansOS.Heap
