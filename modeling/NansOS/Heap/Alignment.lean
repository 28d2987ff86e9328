import NansOS.Heap.Sizes

/-! Owns the alignment of the heap. `malloc` rounds its request before it splits
a block, so that the rest starts at a multiple of eight. `realloc` splits a block
in place at the size it is given, and the rest starts wherever that size ends. -/

namespace NansOS.Heap

open NansOS.Foundation
open NansOS.Kernel

/-! ### Lists of blocks -/

/-- Addresses and sizes are multiples of eight. -/
def Multiples (blocks : List Block) : Prop :=
  ∀ block ∈ blocks, 8 ∣ block.addr.toNat ∧ 8 ∣ block.size.toNat

section Lists

variable {before after pieces : List Block} {block : Block} {size : UInt64}

/-- Part of a list is replaced. -/
theorem Multiples.replace (multiples : Multiples (before ++ block :: after))
    (new : Multiples pieces) : Multiples (before ++ (pieces ++ after)) := by
  obtain ⟨earlier, behind⟩ := List.forall_mem_append.mp multiples
  have later := (List.forall_mem_cons.mp behind).2
  exact List.forall_mem_append.mpr ⟨earlier, List.forall_mem_append.mpr ⟨new, later⟩⟩

/-- A block that is cut, if at all, at a multiple of eight. -/
theorem Multiples.split (multiple : Multiples [block]) (within : block.finish ≤ 2 ^ 64)
    (aligned : size.toNat + 56 ≤ block.size.toNat → 8 ∣ size.toNat) :
    Multiples (block.split size) := by
  obtain ⟨place, length⟩ := multiple block List.mem_cons_self
  rcases block.split_cases size within with whole | ⟨rest, cut, -, start, ends, room⟩
  · rw [whole]
    exact multiple
  · have even := aligned room
    rw [cut]
    refine List.forall_mem_cons.mpr ⟨⟨place, even⟩, List.forall_mem_singleton.mpr ?_⟩
    unfold Block.finish at ends
    omega

theorem Multiples.take (split : Multiples (block.split size)) : Multiples (block.take size) := by
  unfold Block.take
  cases cut : block.split size with
  | nil => exact fun _ absent => nomatch absent
  | cons first rest =>
      rw [cut] at split
      exact List.forall_mem_cons.mpr (List.forall_mem_cons.mp split)

theorem Multiples.freeInto (multiples : Multiples (before ++ block :: after))
    (spaced : Spaced (before ++ block :: after)) : Multiples (before ++ block.freeInto after) := by
  obtain ⟨earlier, behind⟩ := List.forall_mem_append.mp multiples
  obtain ⟨here, later⟩ := List.forall_mem_cons.mp behind
  refine List.forall_mem_append.mpr ⟨earlier, ?_⟩
  cases after with
  | nil => exact List.forall_mem_singleton.mpr here
  | cons next rest =>
      obtain ⟨there, others⟩ := List.forall_mem_cons.mp later
      rw [Block.freeInto]
      split_ifs
      · have sum := merge_toNat spaced
        refine List.forall_mem_cons.mpr ⟨⟨here.1, ?_⟩, others⟩
        rw [sum]
        omega
      · exact List.forall_mem_cons.mpr ⟨here, later⟩

end Lists

/-! ### The library calls -/

/-- The heap list of the machine has addresses and sizes that are multiples of
eight. -/
def Rounded (machine : Machine) : Prop :=
  ∃ blocks, Represents machine blocks ∧ Multiples blocks

theorem Rounded.multiples {machine : Machine} {blocks : List Block} (rounded : Rounded machine)
    (listed : Represents machine blocks) : Multiples blocks := by
  obtain ⟨known, represented, multiples⟩ := rounded
  rwa [listed.unique represented]

/-- A pointer that is a multiple of eight is returned, or `NULL`, and the heap is
left rounded. -/
def ReturnsRounded (outcome : Option (UInt64 × Machine)) : Prop :=
  ∃ result changed, outcome = some (result, changed) ∧ 8 ∣ result.toNat ∧ Rounded changed

section Calls

variable {machine : Machine} {stretches : List Stretch} {block : Block} {request size : UInt64}
variable (laid : Laid machine stretches) (rounded : Rounded machine)

include laid rounded

theorem Laid.payload_multiple (member : block ∈ blocksOf stretches) : 8 ∣ block.payload.toNat := by
  have place := (rounded.multiples laid.listed block member).1
  rw [laid.payload_toNat member]
  omega

/-- `malloc` rounds its request. -/
theorem Laid.malloc_rounded (boundary : 8 ∣ machine.nextFreePage.toNat)
    (small : request.toNat ≤ 4072) (room : machine.nextFreePage.toNat + 4096 < 2 ^ 64) :
    ReturnsRounded (Heap.malloc machine request) := by
  by_cases zero : request = 0
  · subst zero
    exact ⟨0, machine, malloc_zero machine, dvd_zero 8, rounded⟩
  have even : 8 ∣ (alignSize request).toNat := by
    rw [alignSize_toNat request (by omega)]
    exact Nat.dvd_mul_right 8 _
  have multiples := rounded.multiples laid.listed
  have listed := laid.listed
  have spaced := laid.spaced
  rcases serves_cases (blocksOf stretches) (alignSize request) with
    skipped | ⟨first, block, rest, split, skipped, serving⟩
  · obtain ⟨taken, returned, extended, -, -⟩ :=
      malloc_page listed spaced (laid.pageRoom room) zero skipped (alignSize_page small)
    have within : (pageBlock machine).finish ≤ 2 ^ 64 := by
      rw [pageBlock_finish]
      omega
    have pageSize : 8 ∣ (4072 : UInt64).toNat := by decide
    have page : Multiples [pageBlock machine] :=
      List.forall_mem_singleton.mpr ⟨boundary, pageSize⟩
    have place : (pageBlock machine).payload.toNat = machine.nextFreePage.toNat + 24 :=
      Block.payload_toNat (by change machine.nextFreePage.toNat + 24 < _; omega)
    refine ⟨_, taken, returned, by omega, _, extended, ?_⟩
    exact List.forall_mem_append.mpr ⟨multiples, (page.split within fun _ => even).take⟩
  · have member : block ∈ blocksOf stretches := by simp [split]
    have payload := laid.payload_multiple rounded member
    have alone : Multiples [block] := List.forall_mem_singleton.mpr (multiples block member)
    have above := laid.above member
    rw [split] at listed spaced multiples
    obtain ⟨taken, returned, shrunk, -⟩ := malloc_found listed spaced above zero skipped serving
    refine ⟨_, taken, returned, payload, _, shrunk, multiples.replace ?_⟩
    exact (alone.split spaced.middle_within fun _ => even).take

theorem Laid.free_rounded (member : block ∈ blocksOf stretches) :
    Rounded (Heap.free machine block.payload) := by
  have nonnull := laid.payload_ne_zero member
  have multiples := rounded.multiples laid.listed
  have listed := laid.listed
  have spaced := laid.spaced
  obtain ⟨before, after, split⟩ := List.append_of_mem member
  rw [split] at listed spaced multiples
  exact ⟨_, (free_spec listed spaced nonnull).1, multiples.freeInto spaced⟩

/-- `split_block` at a multiple of eight, if it cuts at all. -/
theorem Laid.splitBlock_rounded (member : block ∈ blocksOf stretches)
    (fitting : size.toNat ≤ block.size.toNat)
    (aligned : size.toNat + 56 ≤ block.size.toNat → 8 ∣ size.toNat) :
    Rounded (Heap.splitBlock machine block.addr size) := by
  have above := laid.above member
  have multiples := rounded.multiples laid.listed
  have alone : Multiples [block] := List.forall_mem_singleton.mpr (multiples block member)
  have listed := laid.listed
  have spaced := laid.spaced
  obtain ⟨before, after, split⟩ := List.append_of_mem member
  rw [split] at listed spaced multiples
  exact ⟨_, (splitBlock_spec listed spaced above fitting).1,
    multiples.replace (alone.split spaced.middle_within aligned)⟩

/-- The header behind a cut is at a multiple of eight only if the cut is. -/
theorem Laid.splitBlock_multiple (member : block ∈ blocksOf stretches)
    (room : size.toNat + 56 ≤ block.size.toNat) {blocks : List Block}
    (cut : Represents (Heap.splitBlock machine block.addr size) blocks)
    (aligned : ∀ other ∈ blocks, 8 ∣ other.addr.toNat) : 8 ∣ size.toNat := by
  have above := laid.above member
  have place := (rounded.multiples laid.listed block member).1
  have listed := laid.listed
  have spaced := laid.spaced
  obtain ⟨before, after, split⟩ := List.append_of_mem member
  rw [split] at listed spaced
  obtain ⟨start, -⟩ := split_toNat room spaced.middle_within
  have fitting : size.toNat ≤ block.size.toNat := by omega
  have pieces := (splitBlock_spec listed spaced above fitting).1
  rw [cut.unique pieces, Block.split, if_pos room] at aligned
  simp only [List.forall_mem_append, List.forall_mem_cons] at aligned
  obtain ⟨-, ⟨-, rest, -⟩, -⟩ := aligned
  rw [start] at rest
  omega

end Calls

/-! ### Every call -/

namespace HeapState

/-- A pointer that is returned is `NULL` or a multiple of eight. -/
def ReturnsAligned (state : HeapState) (next : HeapCall) : Prop :=
  ∀ ptr changed, heapCall state.machine next = some (ptr, changed) → ptr ≠ 0 → 8 ∣ ptr.toNat

/-- Every header on the heap list is at a multiple of eight. -/
def HeadersAligned (state : HeapState) : Prop :=
  ∃ blocks, Represents state.machine blocks ∧ ∀ block ∈ blocks, 8 ∣ block.addr.toNat

/-- A `realloc` in place that splits its block is asked for a multiple of eight. -/
def SplitsAligned (state : HeapState) : HeapCall → Prop
  | .realloc ptr size =>
      ptr ≠ 0 → size.toNat + 56 ≤ payloadSize state.machine ptr → 8 ∣ size.toNat
  | .malloc _ | .calloc _ _ | .free _ => True

instance (state : HeapState) : DecidablePred state.SplitsAligned
  | .realloc _ _ => inferInstanceAs (Decidable (_ → _ → _))
  | .malloc _ | .calloc _ _ | .free _ => inferInstanceAs (Decidable True)

end HeapState

section Steps

variable {state : HeapState} {stretches : List Stretch} {next : HeapCall} {ptr size : UInt64}
variable (laidOut : state.LaidOut stretches) (rounded : Rounded state.machine)

include laidOut rounded

theorem free_returnsRounded (legal : ptr = 0 ∨ ptr ∈ state.live) :
    Rounded (free state.machine ptr) := by
  by_cases null : ptr = 0
  · rw [free, if_pos null]
    exact rounded
  · obtain ⟨block, listed, _, rfl⟩ := laidOut.owns.of_mem (legal.resolve_left null)
    exact laidOut.laid.free_rounded rounded listed

variable (boundary : 8 ∣ state.machine.nextFreePage.toNat)
variable (room : state.machine.nextFreePage.toNat + 4096 < 2 ^ 64)

include boundary room

/-- What `calloc` clears is not on the list. -/
theorem calloc_returnsRounded {nmemb : UInt64} (small : (nmemb * size).toNat ≤ 4072) :
    ReturnsRounded (calloc state.machine nmemb size) := by
  obtain ⟨laid, owns⟩ := laidOut
  obtain ⟨result, taken, changed, after, returned, listed, cleared, leaves⟩ :=
    leaves_calloc laid owns (small.trans (by decide)) fun _ _ => ⟨alignSize_page small, room⟩
  obtain ⟨ptr, allocated, same, aligned, kept⟩ := laid.malloc_rounded rounded boundary small room
  rw [returned] at same
  obtain ⟨rfl, rfl⟩ := Prod.mk.inj (Option.some.inj same)
  exact ⟨result, changed, cleared, aligned, _, leaves.kept.laid.listed, kept.multiples listed⟩

/-- `realloc` passes its size to `malloc`, or to `split_block` as it is. -/
theorem realloc_returnsRounded (legal : ptr = 0 ∨ ptr ∈ state.live) (small : size.toNat ≤ 4072)
    (splits : state.SplitsAligned (.realloc ptr size)) :
    ReturnsRounded (realloc state.machine ptr size) := by
  have served := laidOut.laid.malloc_rounded rounded boundary small room
  by_cases null : ptr = 0
  · rw [realloc, if_pos null]
    exact served
  by_cases zero : size = 0
  · rw [realloc, if_neg null, if_pos zero]
    exact ⟨0, _, rfl, dvd_zero 8, free_returnsRounded laidOut rounded legal⟩
  obtain ⟨laid, owns⟩ := laidOut
  have member := legal.resolve_left null
  by_cases fitting : size ≤ blockSize state.machine (ptr - headerSize)
  · obtain ⟨block, listed, _, rfl⟩ := owns.of_mem member
    have known := laid.block_known listed
    have cut := splits null
    rw [laid.payloadSize_eq listed] at cut
    rw [block.payload_sub, show blockSize state.machine block.addr = block.size from
      congrArg Block.size known] at fitting
    refine ⟨_, _, realloc_inPlace known null zero fitting,
      laid.payload_multiple rounded listed, ?_⟩
    exact laid.splitBlock_rounded rounded listed (UInt64.le_iff_toNat_le.mp fitting) cut
  · have moving : ¬ blockSize state.machine (ptr - headerSize) ≥ size := fitting
    obtain ⟨result, taken, after, returned, leaves, found⟩ :=
      leaves_malloc laid owns fun _ _ => ⟨alignSize_page small, room⟩
    obtain ⟨newPtr, allocated, same, aligned, kept⟩ := served
    rw [returned] at same
    obtain ⟨rfl, rfl⟩ := Prod.mk.inj (Option.some.inj same)
    by_cases failed : result = 0
    · refine ⟨0, taken, ?_, dvd_zero 8, kept⟩
      rw [realloc, if_neg null, if_neg zero]
      simp only [if_neg moving, returned, Option.map_some, failed, if_true]
    · obtain ⟨target, allocation, rfl⟩ := found failed
      obtain ⟨block, stays, rfl, copied⟩ := leaves_copied laid owns member
        (small.trans (by decide)) (UInt64.not_le.mp fitting) allocation
      -- The copy stays in the payload of the new block, so the list is as `malloc` left it.
      have list : Rounded (afterCopy taken target.payload block.payload) :=
        ⟨_, copied.laid.listed, kept.multiples allocation.kept.laid.listed⟩
      exact ⟨_, _, realloc_moved null zero moving returned failed, aligned,
        copied.laid.free_rounded list (mem_inUse.mp stays).1⟩

/-- One call of a correct client on a rounded heap. -/
theorem call_returnsRounded (legal : state.Legal 4072 next) (splits : state.SplitsAligned next) :
    ReturnsRounded (heapCall state.machine next) := by
  cases next with
  | malloc size => exact laidOut.laid.malloc_rounded rounded boundary legal room
  | calloc nmemb size => exact calloc_returnsRounded laidOut rounded boundary room legal
  | realloc ptr size =>
      exact realloc_returnsRounded laidOut rounded boundary room legal.1 legal.2 splits
  | free ptr => exact ⟨0, _, rfl, dvd_zero 8, free_returnsRounded laidOut rounded legal⟩

omit boundary room in
/-- What a `realloc` in place leaves shows where it split. -/
theorem splitsAligned_of_headers (legal : state.Legal 4072 next)
    (aligned : (state.call next).HeadersAligned) : state.SplitsAligned next := by
  cases next with
  | malloc size => trivial
  | calloc nmemb size => trivial
  | free ptr => trivial
  | realloc ptr size =>
      intro nonnull cut
      by_cases zero : size = 0
      · rw [zero, UInt64.toNat_zero]
        exact dvd_zero 8
      obtain ⟨block, listed, _, rfl⟩ := laidOut.owns.of_mem (legal.1.resolve_left nonnull)
      have known := laidOut.laid.block_known listed
      rw [laidOut.laid.payloadSize_eq listed] at cut
      have returned := realloc_inPlace known nonnull zero
        (UInt64.le_iff_toNat_le.mpr (by omega))
      have called : heapCall state.machine (.realloc block.payload size) = _ := returned
      rw [HeapState.HeadersAligned, HeapState.call_eq called] at aligned
      obtain ⟨blocks, represented, headers⟩ := aligned
      exact laidOut.laid.splitBlock_multiple rounded listed cut represented headers

end Steps

/-! ### Whole runs -/

/-- A rounded heap alone, with the next page on a page boundary. -/
structure HeapState.Regular (state : HeapState) : Prop where
  paged : state.Paged
  rounded : Rounded state.machine

theorem HeapState.Regular.step {state : HeapState} {next : HeapCall} (regular : state.Regular)
    (legal : state.Legal 4072 next) (room : state.machine.nextFreePage.toNat + 4096 < 2 ^ 64) :
    (state.SplitsAligned next → (state.call next).Regular ∧ state.ReturnsAligned next) ∧
      ((state.call next).HeadersAligned → state.SplitsAligned next) := by
  obtain ⟨paged, rounded⟩ := regular
  have kept := paged.call (legal_mono (by decide) legal) (pageFits_of_legal legal room)
  obtain ⟨stretches, laidOut, _, boundary⟩ := paged
  constructor
  · intro splits
    obtain ⟨result, changed, called, aligned, after⟩ :=
      call_returnsRounded laidOut rounded (by omega) room legal splits
    refine ⟨⟨kept, ?_⟩, ?_⟩
    · rw [HeapState.call_eq called]
      exact after
    · intro ptr other returned _
      rw [called] at returned
      obtain ⟨rfl, rfl⟩ := Prod.mk.inj (Option.some.inj returned)
      exact aligned
  · exact splitsAligned_of_headers laidOut rounded legal

theorem HeapState.Regular.headersAligned {state : HeapState} (regular : state.Regular) :
    state.HeadersAligned := by
  obtain ⟨blocks, listed, multiples⟩ := regular.rounded
  exact ⟨blocks, listed, fun block member => (multiples block member).1⟩

theorem freshHeap_regular (memory : Memory) (cr3 : UInt64) : (freshHeap memory cr3).Regular :=
  ⟨freshHeap_paged memory cr3, [], rfl, fun _ absent => nomatch absent⟩

/-- In a run of legal calls, each made while a page of the address space is left,
what is returned and every header on the heap list is a multiple of eight exactly
when every `realloc` that splits in place is asked for a multiple of eight. -/
theorem allocations_aligned_iff (memory : Memory) (cr3 : UInt64) (calls : List HeapCall)
    (legal : Along HeapState.call (HeapState.Legal 4072) (freshHeap memory cr3) calls)
    (pages : Along HeapState.call (fun state _ => state.machine.nextFreePage.toNat + 4096 < 2 ^ 64)
      (freshHeap memory cr3) calls) :
    Along HeapState.call HeapState.ReturnsAligned (freshHeap memory cr3) calls ∧
        Throughout HeapState.call HeapState.HeadersAligned (freshHeap memory cr3) calls ↔
      Along HeapState.call HeapState.SplitsAligned (freshHeap memory cr3) calls := by
  have start := freshHeap_regular memory cr3
  rw [throughout_iff, and_iff_right start.headersAligned, ← along_and_iff]
  refine along_iff HeapState.Regular
    (fun state next => state.Legal 4072 next ∧ state.machine.nextFreePage.toNat + 4096 < 2 ^ 64)
    ?_ ?_ start (legal.and pages)
  · intro state next regular admitted splits
    exact ((regular.step admitted.1 admitted.2).1 splits).1
  · intro state next regular admitted
    obtain ⟨keeps, shows⟩ := regular.step admitted.1 admitted.2
    constructor
    · rintro ⟨_, headers⟩
      exact shows headers
    · intro splits
      obtain ⟨kept, returns⟩ := keeps splits
      exact ⟨returns, kept.headersAligned⟩

/-- A block of 104 bytes is split in place, and the rest is given out. -/
def resizedTo (size : UInt64) : List HeapCall :=
  [.malloc 100, .realloc 0x400018 size, .malloc 8]

theorem resizedTo_aligned :
    Along HeapState.call HeapState.ReturnsAligned (freshHeap (fun _ => 0) 0) (resizedTo 40) ∧
      Throughout HeapState.call HeapState.HeadersAligned (freshHeap (fun _ => 0) 0)
        (resizedTo 40) :=
  (allocations_aligned_iff (fun _ => 0) 0 (resizedTo 40) (by decide +kernel)
    (by decide +kernel)).mpr (by decide +kernel)

/-- Split at 41 bytes, the rest is at 0x400041, and 0x400059 is returned for it. -/
theorem resizedTo_not_aligned :
    Along HeapState.call (HeapState.Legal 4072) (freshHeap (fun _ => 0) 0) (resizedTo 41) ∧
      ¬ Along HeapState.call HeapState.ReturnsAligned (freshHeap (fun _ => 0) 0) (resizedTo 41) ∧
      ¬ Throughout HeapState.call HeapState.HeadersAligned (freshHeap (fun _ => 0) 0)
        (resizedTo 41) := by
  refine ⟨by decide +kernel, ?_, ?_⟩
  · rintro ⟨_, _, third, _⟩
    have computed : (heapCall
        (run HeapState.call (freshHeap (fun _ => 0) 0) [.malloc 100, .realloc 0x400018 41]).machine
        (.malloc 8)).map Prod.fst = some 0x400059 := by
      decide +kernel
    obtain ⟨⟨ptr, changed⟩, returned, rfl⟩ := Option.map_eq_some_iff.mp computed
    exact absurd (third _ changed returned (by decide)) (by decide)
  · rintro ⟨_, _, headers, _⟩
    obtain ⟨blocks, listed, aligned⟩ := headers
    have computed : Represents
        (run HeapState.call (freshHeap (fun _ => 0) 0) [.malloc 100, .realloc 0x400018 41]).machine
        [⟨0x400000, 41, false⟩, ⟨0x400041, 39, true⟩, ⟨0x400080, 3944, true⟩] := by
      decide +kernel
    rw [LinkedList.Linked.unique listed computed] at aligned
    exact absurd (aligned ⟨0x400041, 39, true⟩ (by simp)) (by decide)

end NansOS.Heap
