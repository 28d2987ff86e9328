import NansOS.Heap.Ownership

/-! Owns the sizes that blocks record for requests of any 64-bit size. Rounding
up wraps for the last seven sizes, to a block of fewer than 56 bytes; behind it
every sum that wraps is made good by `split_block`, which then records the
rounded request itself. The product in `calloc` may wrap as well. -/

namespace NansOS.Heap

open NansOS.Foundation
open NansOS.Foundation.Words
open NansOS.Kernel

/-! ### Rounding -/

/-- The last seven sizes round to zero. -/
theorem alignSize_of_wrap (request : UInt64) (wraps : 2 ^ 64 ≤ request.toNat + 7) :
    alignSize request = 0 := by
  have bound := request.toNat_lt
  have sum : (request + 7).toNat = request.toNat + 7 - 2 ^ 64 := by
    rw [UInt64.toNat_add]
    change (request.toNat + 7) % 2 ^ 64 = _
    omega
  apply UInt64.toNat_inj.mp
  rw [alignSize, and_not_seven_toNat, sum, UInt64.toNat_zero]
  omega

/-- What a block records for a request of this rounded size. -/
structure Recorded (size recorded : UInt64) : Prop where
  enough : size.toNat ≤ recorded.toNat
  little : size = 0 → recorded.toNat < 56

/-- A recorded size counts the request exactly when the request can be rounded. -/
theorem Recorded.le_iff {request recorded : UInt64}
    (record : Recorded (alignSize request) recorded) :
    request.toNat ≤ recorded.toNat ↔ request.toNat ≤ 2 ^ 64 - 8 := by
  obtain ⟨enough, little⟩ := record
  have bound := request.toNat_lt
  by_cases wraps : 2 ^ 64 ≤ request.toNat + 7
  · have few := little (alignSize_of_wrap request wraps)
    omega
  · rw [alignSize_toNat request (by omega)] at enough
    omega

/-! ### Splitting -/

section Split

variable (machine : Machine) (block size : UInt64)

/-- `split_block` records the size, or leaves the block as it is. -/
theorem blockSize_splitBlock :
    blockSize (splitBlock machine block size) block =
      if blockSize machine block ≥ size + headerSize + 32 then size
      else blockSize machine block := by
  unfold splitBlock
  split_ifs
  · rw [blockSize_setNext, blockSize_setSize]
  · rfl

theorem blockSize_takeBlock :
    blockSize (takeBlock machine block size).2 block =
      if blockSize machine block ≥ size + headerSize + 32 then size
      else blockSize machine block := by
  rw [takeBlock, blockSize_setIsFree, blockSize_splitBlock]

/-- A block that holds the size records it when it is taken. -/
theorem recorded_of_fits (fitting : size.toNat ≤ (blockSize machine block).toNat) :
    Recorded size (blockSize (takeBlock machine block size).2 block) := by
  rw [blockSize_takeBlock]
  split_ifs with room
  · exact ⟨le_rfl, fun zero => by rw [zero]; decide⟩
  · refine ⟨fitting, fun zero => ?_⟩
    have short := UInt64.lt_iff_toNat_lt.mp (UInt64.not_le.mp room)
    rw [zero] at short
    exact short

/-- So does a block in a new page, also where the sums of `malloc` wrap. -/
theorem recorded_of_page (fresh : blockSize machine block = allocSize size - headerSize) :
    Recorded size (blockSize (takeBlock machine block size).2 block) := by
  have header : headerSize.toNat = 24 := rfl
  have minimum : minAlloc.toNat = 4096 := rfl
  have gap : (32 : UInt64).toNat = 32 := rfl
  have bound := size.toNat_lt
  rw [blockSize_takeBlock, fresh]
  split_ifs with room
  · exact ⟨le_rfl, fun zero => by rw [zero]; decide⟩
  · have short := UInt64.lt_iff_toNat_lt.mp (UInt64.not_le.mp room)
    unfold allocSize at short ⊢
    constructor
    · split_ifs at short ⊢ with small
      · simp only [UInt64.lt_iff_toNat_lt, UInt64.toNat_sub, UInt64.toNat_add] at *
        omega
      · simp only [UInt64.lt_iff_toNat_lt, UInt64.toNat_sub, UInt64.toNat_add] at *
        omega
    · rintro rfl
      revert short
      decide

/-- `free` writes the header of its block. -/
theorem free_sameBut (ptr : UInt64) :
    SameBut (free machine ptr) machine (headerBytes (ptr - headerSize)) := by
  unfold free
  dsimp only
  split_ifs
  · exact SameBut.refl _ _
  · exact (setNext_sameBut _ _ _).trans ((setSize_sameBut _ _ _).trans (setIsFree_sameBut _ _ _))
  · exact setIsFree_sameBut _ _ _

end Split

/-! ### malloc -/

section Malloc

variable {machine : Machine} {stretches : List Stretch} {request : UInt64}

/-- Linking a new page behind the last block leaves the size in its header. -/
theorem blockSize_linkPage {blocks : List Block}
    (below : ∀ block ∈ blocks, block.finish ≤ machine.nextFreePage.toNat)
    (started : machine.heapStart ≠ 0 → blocks ≠ []) (size : UInt64) :
    blockSize (linkPage machine (LinkedList.lastOf Block.addr blocks 0) size)
      machine.nextFreePage = allocSize size - headerSize := by
  have fresh : blockSize (initBlock machine.mmuAllocPage.2 machine.nextFreePage (allocSize size))
      machine.nextFreePage = allocSize size - headerSize :=
    congrArg Block.size (blockAt_initBlock _ _ _)
  unfold linkPage
  dsimp only
  by_cases empty : machine.heapStart = 0
  · rw [if_pos empty]
    exact fresh
  · obtain ⟨before, last, rfl⟩ := (List.eq_nil_or_concat blocks).resolve_left (started empty)
    have behind := below last (by simp)
    have lastAddr : LinkedList.lastOf Block.addr (before.concat last) 0 = last.addr := by
      simp [LinkedList.lastOf]
    rw [if_neg empty, lastAddr, ← fresh]
    refine (header_congr ((setNext_sameBut _ _ _).agree (disjoint_header (.inr ?_)))).1
    unfold Block.finish at behind
    omega

/-- What `malloc` returns on a heap, for any request: a block whose header lies
apart from those in use, and that records the rounded request. -/
structure Served (machine : Machine) (stretches : List Stretch) (request block : UInt64)
    (changed : Machine) : Prop where
  returned : malloc machine request = some (block + headerSize, changed)
  room : block.toNat + 24 < 2 ^ 64
  recorded : Recorded (alignSize request) (blockSize changed block)
  apart : ∀ other ∈ blocksOf stretches, other.free = false →
    Disjoint (headerBytes block) (headerBytes other.addr)

theorem Laid.malloc_recorded (laid : Laid machine stretches) (nonzero : request ≠ 0)
    (room : machine.nextFreePage.toNat + 24 < 2 ^ 64) :
    ∃ block changed, Served machine stretches request block changed := by
  have listed := laid.listed
  have spaced := laid.spaced
  rcases serves_cases (blocksOf stretches) (alignSize request) with
    skipped | ⟨first, block, rest, split, skipped, serving⟩
  · have above := laid.tiles.lower_le
    have page : machine.nextFreePage ≠ 0 := by
      intro zero
      rw [zero, UInt64.toNat_zero] at above
      exact absurd above (by decide)
    have started : machine.heapStart ≠ 0 → blocksOf stretches ≠ [] := by
      intro nonempty none
      rw [none] at listed
      exact nonempty listed
    refine ⟨_, _, malloc_page_eq listed spaced page nonzero skipped, room, ?_, ?_⟩
    · exact recorded_of_page _ _ _
        (blockSize_linkPage (fun _ member => (laid.bounds member).2) started _)
    · intro other member _
      have below := (laid.bounds member).2
      exact disjoint_header (.inr (by unfold Block.finish at below; omega))
  · have member : block ∈ blocksOf stretches := by simp [split]
    have known := laid.block_known member
    have bounds := laid.bounds member
    have below := machine.nextFreePage.toNat_lt
    obtain ⟨free, fitting⟩ := Block.serves_iff.mp serving
    rw [split] at listed spaced
    refine ⟨_, _, malloc_found_eq listed spaced nonzero skipped serving, ?_, ?_, ?_⟩
    · unfold Block.finish at bounds
      omega
    · apply recorded_of_fits
      rwa [show blockSize machine block.addr = block.size from congrArg Block.size known]
    · intro other listed used
      rcases laid.spaced.apart member listed with rfl | apart | apart
      · exact absurd (free.symm.trans used) (by decide)
      · exact disjoint_header (.inr (by unfold Block.finish at apart; omega))
      · exact disjoint_header (.inl (by unfold Block.finish at apart; omega))

theorem Served.ptr_toNat {block : UInt64} {changed : Machine}
    (served : Served machine stretches request block changed) :
    (block + headerSize).toNat = block.toNat + 24 := by
  rw [UInt64.toNat_add]
  exact Nat.mod_eq_of_lt served.room

theorem Served.ptr_ne_zero {block : UInt64} {changed : Machine}
    (served : Served machine stretches request block changed) : block + headerSize ≠ 0 := by
  intro zero
  have place := served.ptr_toNat
  rw [zero, UInt64.toNat_zero] at place
  omega

/-- Writes that miss the header of the block keep what it records. -/
theorem Served.kept {block : UInt64} {changed other : Machine}
    (served : Served machine stretches request block changed)
    (agree : Set.EqOn other.memory changed.memory (headerBytes block)) :
    request.toNat ≤ payloadSize other (block + headerSize) ↔ request.toNat ≤ 2 ^ 64 - 8 := by
  rw [payloadSize, UInt64.add_sub_cancel, (header_congr agree).1]
  exact served.recorded.le_iff

end Malloc

/-! ### Every call -/

/-- What a call returns, unless it is `NULL`, records at least the size that was
asked for; `calloc` has cleared as many bytes. -/
def HeapState.LargeEnough (state : HeapState) : HeapCall → Prop
  | .malloc size => ∀ ptr changed, malloc state.machine size = some (ptr, changed) → ptr ≠ 0 →
      size.toNat ≤ payloadSize changed ptr
  | .calloc nmemb size => ∀ ptr changed,
      calloc state.machine nmemb size = some (ptr, changed) → ptr ≠ 0 →
        nmemb.toNat * size.toNat ≤ payloadSize changed ptr ∧
          ∀ index < nmemb.toNat * size.toNat, changed.memory (ptr.toNat + index) = 0
  | .realloc old size => ∀ ptr changed, realloc state.machine old size = some (ptr, changed) →
      ptr ≠ 0 → size.toNat ≤ payloadSize changed ptr
  | .free _ => True

/-- The size can be rounded up to a multiple of eight; the product in `calloc`
does not wrap, or wraps to zero. -/
def HeapCall.Representable : HeapCall → Prop
  | .malloc size | .realloc _ size => size.toNat ≤ 2 ^ 64 - 8
  | .calloc nmemb size =>
      nmemb.toNat * size.toNat ≤ 2 ^ 64 - 8 ∨ nmemb.toNat * size.toNat % 2 ^ 64 = 0
  | .free _ => True

instance : DecidablePred HeapCall.Representable
  | .malloc _ => inferInstanceAs (Decidable (_ ≤ _))
  | .calloc _ _ => inferInstanceAs (Decidable (_ ∨ _))
  | .realloc _ _ => inferInstanceAs (Decidable (_ ≤ _))
  | .free _ => inferInstanceAs (Decidable True)

/-- What holds of every result that is not `NULL`, where there is one. -/
theorem forall_returned_iff {outcome : Option (UInt64 × Machine)} {ptr : UInt64}
    {changed : Machine} {good : UInt64 → Machine → Prop}
    (returned : outcome = some (ptr, changed)) (nonnull : ptr ≠ 0) :
    (∀ result after, outcome = some (result, after) → result ≠ 0 → good result after) ↔
      good ptr changed := by
  constructor
  · intro every
    exact every ptr changed returned nonnull
  · intro holds result after same _
    obtain ⟨rfl, rfl⟩ := Prod.mk.inj (Option.some.inj (returned.symm.trans same))
    exact holds

section Calls

variable {state : HeapState} {stretches : List Stretch} {old size : UInt64}
variable (laidOut : state.LaidOut stretches)
variable (room : state.machine.nextFreePage.toNat + 24 < 2 ^ 64)

include laidOut room

theorem malloc_largeEnough_iff :
    state.LargeEnough (.malloc size) ↔ size.toNat ≤ 2 ^ 64 - 8 := by
  by_cases zero : size = 0
  · subst zero
    refine iff_of_true (fun ptr changed _ _ => Nat.zero_le _) (Nat.zero_le _)
  · obtain ⟨block, taken, served⟩ := laidOut.laid.malloc_recorded zero room
    rw [HeapState.LargeEnough, forall_returned_iff served.returned served.ptr_ne_zero]
    exact served.kept (Set.eqOn_refl taken.memory _)

theorem calloc_largeEnough_iff {nmemb : UInt64} :
    state.LargeEnough (.calloc nmemb size) ↔
      nmemb.toNat * size.toNat ≤ 2 ^ 64 - 8 ∨ nmemb.toNat * size.toNat % 2 ^ 64 = 0 := by
  have product : (nmemb * size).toNat = nmemb.toNat * size.toNat % 2 ^ 64 := UInt64.toNat_mul _ _
  by_cases zero : nmemb * size = 0
  · have multiple : nmemb.toNat * size.toNat % 2 ^ 64 = 0 := by
      rw [← product, zero, UInt64.toNat_zero]
    refine iff_of_true ?_ (.inr multiple)
    intro ptr changed returned nonnull
    rw [calloc, zero] at returned
    simp only [malloc_zero, Option.map_some, if_true] at returned
    exact absurd (Prod.mk.inj (Option.some.inj returned)).1.symm nonnull
  · obtain ⟨block, taken, served⟩ := laidOut.laid.malloc_recorded zero room
    have nonzero : nmemb.toNat * size.toNat % 2 ^ 64 ≠ 0 := by
      rw [← product]
      exact fun none => zero (UInt64.toNat_inj.mp (none.trans UInt64.toNat_zero.symm))
    have place := served.ptr_toNat
    set cleared : Machine := { taken with
      memory := memset taken.memory (block + headerSize).toNat 0 (nmemb * size).toNat }
      with clearedDef
    have result : calloc state.machine nmemb size = some (block + headerSize, cleared) := by
      simp only [calloc, served.returned, Option.map_some, if_neg served.ptr_ne_zero, clearedDef]
    have agree : Set.EqOn cleared.memory taken.memory (headerBytes block) := by
      refine (memset_eqOn _ _ _ _).mono (Set.subset_compl_iff_disjoint_right.mpr ?_)
      exact disjoint_header (.inl place.ge)
    have counted := served.kept agree
    have bound : payloadSize cleared (block + headerSize) < 2 ^ 64 := UInt64.toNat_lt _
    rw [or_iff_left nonzero, HeapState.LargeEnough,
      forall_returned_iff result served.ptr_ne_zero]
    constructor
    · rintro ⟨whole, _⟩
      rw [Nat.mod_eq_of_lt (whole.trans_lt bound)] at product
      rw [product] at counted
      exact counted.mp whole
    · intro small
      rw [Nat.mod_eq_of_lt (by omega)] at product
      rw [product] at counted
      refine ⟨counted.mpr small, fun index below => ?_⟩
      rw [clearedDef]
      dsimp only
      rw [memset_apply, if_pos (by omega)]

theorem realloc_largeEnough_iff (live : old = 0 ∨ old ∈ state.live) :
    state.LargeEnough (.realloc old size) ↔ size.toNat ≤ 2 ^ 64 - 8 := by
  by_cases null : old = 0
  · subst null
    have same : ∀ ptr changed, realloc state.machine 0 size = some (ptr, changed) ↔
        malloc state.machine size = some (ptr, changed) := by
      intro ptr changed
      rw [realloc, if_pos rfl]
    rw [← malloc_largeEnough_iff laidOut room]
    simp only [HeapState.LargeEnough, same]
  by_cases zero : size = 0
  · subst zero
    exact iff_of_true (fun ptr changed _ _ => Nat.zero_le _) (Nat.zero_le _)
  obtain ⟨block, listed, used, rfl⟩ := laidOut.owns.of_mem (live.resolve_left null)
  have known : blockSize state.machine block.addr = block.size :=
    congrArg Block.size (laidOut.laid.block_known listed)
  have bounds := laidOut.laid.bounds listed
  by_cases fitting : size ≤ block.size
  · -- The block stays where it is, and so small a block is in range.
    have returned := realloc_inPlace (laidOut.laid.block_known listed) null zero fitting
    have fits := UInt64.le_iff_toNat_le.mp fitting
    have below := state.machine.nextFreePage.toNat_lt
    rw [HeapState.LargeEnough, forall_returned_iff returned null]
    refine iff_of_true ?_ (by unfold Block.finish at bounds; omega)
    rw [payloadSize, block.payload_sub, blockSize_splitBlock, known]
    split_ifs
    · exact le_rfl
    · exact fits
  · obtain ⟨target, taken, served⟩ := laidOut.laid.malloc_recorded zero room
    have moving : ¬ blockSize state.machine (block.payload - headerSize) ≥ size := by
      rw [block.payload_sub, known]
      exact fitting
    have returned := realloc_moved null zero moving served.returned served.ptr_ne_zero
    have copied : Set.EqOn (afterCopy taken (target + headerSize) block.payload).memory taken.memory
        (headerBytes target) := by
      refine (memcpy_eqOn _ _ _ _).mono (Set.subset_compl_iff_disjoint_right.mpr ?_)
      exact disjoint_header (.inl served.ptr_toNat.ge)
    have freed := (free_sameBut (afterCopy taken (target + headerSize) block.payload)
      block.payload).agree (block.payload_sub.symm ▸ served.apart block listed used)
    rw [HeapState.LargeEnough, forall_returned_iff returned served.ptr_ne_zero]
    exact served.kept (freed.trans copied)

/-- One call with live pointers, whatever its sizes. -/
theorem largeEnough_iff {next : HeapCall} (legal : state.Legal (2 ^ 64) next) :
    state.LargeEnough next ↔ next.Representable := by
  cases next with
  | malloc size => exact malloc_largeEnough_iff laidOut room
  | calloc nmemb size => exact calloc_largeEnough_iff laidOut room
  | realloc old size => exact realloc_largeEnough_iff laidOut room legal.1
  | free ptr => exact Iff.rfl

end Calls

/-! ### Whole runs -/

/-- The heap alone, with the next page on a page boundary. -/
def HeapState.Paged (state : HeapState) : Prop :=
  ∃ stretches, state.LaidOut stretches ∧ tablesOf stretches = [] ∧
    state.machine.nextFreePage.toNat % 4096 = 0

theorem freshHeap_paged (memory : Memory) (cr3 : UInt64) : (freshHeap memory cr3).Paged :=
  ⟨[], freshHeap_laidOut memory cr3, rfl, show (0x400000 : UInt64).toNat % 4096 = 0 by decide⟩

theorem HeapState.Paged.call {state : HeapState} {next : HeapCall} (paged : state.Paged)
    (legal : state.Legal (2 ^ 64 - 8) next) (pageFits : state.PageFits next) :
    (state.call next).Paged := by
  obtain ⟨stretches, laidOut, empty, boundary⟩ := paged
  obtain ⟨after, _, kept, changed⟩ := laidOut.call legal pageFits
    (empty ▸ freesClear_nil state.machine next)
  obtain ⟨count, pages⟩ := changed.pages
  exact ⟨after, kept, changed.tables.trans empty, by omega⟩

/-- On every heap reached by legal calls whose new pages hold the requests they
are taken for, and for every next call, whatever its sizes, what is returned is
large enough exactly when the sizes are representable. -/
theorem allocations_large_enough_iff (memory : Memory) (cr3 : UInt64) (calls : List HeapCall)
    (legal : Along HeapState.call (HeapState.Legal (2 ^ 64 - 8)) (freshHeap memory cr3) calls)
    (fits : Along HeapState.call HeapState.PageFits (freshHeap memory cr3) calls)
    (next : HeapCall)
    (live : (run HeapState.call (freshHeap memory cr3) calls).Legal (2 ^ 64) next) :
    (run HeapState.call (freshHeap memory cr3) calls).LargeEnough next ↔
      next.Representable := by
  have start := freshHeap_paged memory cr3
  have reached : (run HeapState.call (freshHeap memory cr3) calls).Paged :=
    run_invariant _ HeapState.Paged
      (fun _ _ paged conditions => paged.call conditions.1 conditions.2) start (legal.and fits)
  obtain ⟨stretches, laidOut, _, boundary⟩ := reached
  have below := (run HeapState.call (freshHeap memory cr3) calls).machine.nextFreePage.toNat_lt
  exact largeEnough_iff laidOut (by omega) live

/-- A block that is moved, on a heap that was used. -/
theorem busyCalls_large_enough :
    (run HeapState.call (freshHeap (fun _ => 0) 0) busyCalls).LargeEnough
      (.realloc 0x400178 1000) := by
  have live : (run HeapState.call (freshHeap (fun _ => 0) 0) busyCalls).Legal (2 ^ 64)
      (.realloc 0x400178 1000) := ⟨.inr busyCalls_reached.1, by decide⟩
  exact (allocations_large_enough_iff (fun _ => 0) 0 busyCalls (busyCalls_legal (by decide))
    busyCalls_fits (.realloc 0x400178 1000) live).mpr (by decide)

/-- The request 2^64 - 7 rounds to zero, and twice 2^63 + 1 wraps to two. -/
theorem wrapped_sizes_not_large_enough :
    ¬ (freshHeap (fun _ => 0) 0).LargeEnough (.malloc 0xFFFFFFFFFFFFFFF9) ∧
      ¬ (freshHeap (fun _ => 0) 0).LargeEnough (.calloc 0x8000000000000001 2) := by
  have laidOut := freshHeap_laidOut (fun _ => 0) 0
  have room : (0x400000 : UInt64).toNat + 24 < 2 ^ 64 := by decide
  constructor
  · intro enough
    exact absurd ((malloc_largeEnough_iff laidOut room).mp enough) (by decide)
  · intro enough
    exact absurd ((calloc_largeEnough_iff laidOut room).mp enough) (by decide)

end NansOS.Heap
