import NansOS.Foundation.Run
import NansOS.Heap.Layout

/-! Owns runs of the allocator: the machine with the pointers it has given out
and not taken back, the calls a correct client makes, and the layout that every
such run keeps. The two conditions on a call are that a new page holds the
request it is taken for, and that no page table lies behind a freed block whose
successor is free. -/

namespace NansOS.Heap

open NansOS.Foundation
open NansOS.Kernel

/-! ### States -/

/-- The machine and the live allocations. -/
structure HeapState where
  machine : Machine
  live : List UInt64

/-- A pointer that was returned, unless it is `NULL`. -/
def received (live : List UInt64) (ptr : UInt64) : List UInt64 :=
  if ptr = 0 then live else ptr :: live

/-- The live allocations after a call that returned `result`. -/
def liveAfter (live : List UInt64) (result : UInt64) : HeapCall → List UInt64
  | .malloc _ | .calloc _ _ => received live result
  | .realloc ptr size =>
      if ptr = 0 then received live result
      else if size = 0 then live.erase ptr
      else if result = 0 then live
      else result :: live.erase ptr
  | .free ptr => live.erase ptr

/-- The request that a call passes to `malloc`, if it calls it. -/
def mallocRequest (machine : Machine) : HeapCall → Option UInt64
  | .malloc size => some size
  | .calloc nmemb size => some (nmemb * size)
  | .realloc ptr size =>
      if ptr = 0 then some size
      else if size = 0 ∨ blockSize machine (ptr - headerSize) ≥ size then none
      else some size
  | .free _ => none

/-- `malloc` finds no free block for the request. -/
def TakesPage (machine : Machine) (request : UInt64) : Prop :=
  machine.heapStart = 0 ∨
    (findFreeBlock machine (alignSize request)).map Prod.snd = some 0

instance (machine : Machine) (request : UInt64) : Decidable (TakesPage machine request) :=
  inferInstanceAs (Decidable (_ ∨ _))

/-- No interval of page tables starts where the block behind `ptr` ends, if the
successor of the block is free. -/
def ClearBehind (tables : List (Nat × Nat)) (machine : Machine) (ptr : UInt64) : Prop :=
  let block := ptr - headerSize
  let next := blockNext machine block
  next ≠ 0 → blockIsFree machine next ≠ 0 →
    ∀ region ∈ tables, region.1 ≠ ptr.toNat + (blockSize machine block).toNat

/-- The machine of a `realloc` that moves, after the copy. -/
def afterCopy (allocated : Machine) (newPtr ptr : UInt64) : Machine :=
  { allocated with
    memory := memcpy allocated.memory newPtr.toNat ptr.toNat
      (blockSize allocated (ptr - headerSize)).toNat }

/-- The free that a call makes: the machine it finds, and its pointer. In
`realloc` it comes after the new allocation and the copy. -/
def freeMade (machine : Machine) : HeapCall → Option (Machine × UInt64)
  | .malloc _ | .calloc _ _ => none
  | .realloc ptr size =>
      if ptr = 0 then none
      else if size = 0 then some (machine, ptr)
      else if blockSize machine (ptr - headerSize) ≥ size then none
      else
        (malloc machine size).bind fun (newPtr, allocated) =>
          if newPtr = 0 then none else some (afterCopy allocated newPtr ptr, ptr)
  | .free ptr => if ptr = 0 then none else some (machine, ptr)

/-- The free that a call makes meets no page table. -/
def FreesClear (tables : List (Nat × Nat)) (machine : Machine) (next : HeapCall) : Prop :=
  ∀ made ∈ freeMade machine next, ClearBehind tables made.1 made.2

theorem FreesClear.clear {tables : List (Nat × Nat)} {machine found : Machine} {next : HeapCall}
    {ptr : UInt64} (clear : FreesClear tables machine next)
    (made : freeMade machine next = some (found, ptr)) : ClearBehind tables found ptr :=
  clear (found, ptr) (Option.mem_def.mpr made)

/-- The pointers are those of the blocks in use. -/
def Owns (stretches : List Stretch) (live : List UInt64) : Prop :=
  live.Perm ((inUse (blocksOf stretches)).map Block.payload)

namespace HeapState

/-- The state after one call. -/
def call (state : HeapState) (next : HeapCall) : HeapState :=
  match heapCall state.machine next with
  | none => state
  | some (result, machine) => ⟨machine, liveAfter state.live result next⟩

/-- The call returns. -/
def Returns (state : HeapState) (next : HeapCall) : Prop :=
  (heapCall state.machine next).isSome

/-- Requests are at most `limit` bytes; what is freed or resized is live. -/
def Legal (limit : Nat) (state : HeapState) : HeapCall → Prop
  | .malloc size => size.toNat ≤ limit
  | .calloc nmemb size => (nmemb * size).toNat ≤ limit
  | .realloc ptr size => (ptr = 0 ∨ ptr ∈ state.live) ∧ size.toNat ≤ limit
  | .free ptr => ptr = 0 ∨ ptr ∈ state.live

/-- A request that takes a new page fits behind the header in it, and the page
is not the last of the address space. -/
def PageFits (state : HeapState) (next : HeapCall) : Prop :=
  ∀ request ∈ mallocRequest state.machine next, request ≠ 0 →
    TakesPage state.machine request →
      (alignSize request).toNat ≤ 4072 ∧ state.machine.nextFreePage.toNat + 4096 < 2 ^ 64

instance (state : HeapState) (limit : Nat) : ∀ next, Decidable (state.Legal limit next)
  | .malloc _ | .calloc _ _ => inferInstanceAs (Decidable (_ ≤ _))
  | .realloc _ _ => inferInstanceAs (Decidable ((_ ∨ _) ∧ _ ≤ _))
  | .free _ => inferInstanceAs (Decidable (_ ∨ _))

instance (state : HeapState) (next : HeapCall) : Decidable (state.PageFits next) :=
  Option.decidableForallMem (mallocRequest state.machine next)

/-- The machine is laid out, and the live pointers are those of the blocks in
use. -/
structure LaidOut (state : HeapState) (stretches : List Stretch) : Prop where
  laid : Laid state.machine stretches
  owns : Owns stretches state.live

end HeapState

/-- Before the first call of the allocator. -/
def freshHeap (memory : Memory) (cr3 : UInt64) : HeapState where
  machine := { memory := memory, cr3 := cr3, nextFreePage := 0x400000, heapStart := 0 }
  live := []

theorem freshHeap_laidOut (memory : Memory) (cr3 : UInt64) : (freshHeap memory cr3).LaidOut [] :=
  ⟨⟨rfl, rfl⟩, List.Perm.refl _⟩

/-! ### One call -/

theorem Kept.refl {machine : Machine} {stretches : List Stretch} (laid : Laid machine stretches) :
    Kept machine machine stretches stretches :=
  ⟨laid, rfl, rfl, ⟨0, rfl⟩, fun _ _ => rfl⟩

section Calls

variable {machine : Machine} {stretches before after : List Stretch} {block : Block}
variable {live : List UInt64} {size request ptr : UInt64}

/-- If no block serves the request, `malloc` takes a page. -/
theorem Laid.takesPage (laid : Laid machine stretches)
    (skipped : ∀ block ∈ blocksOf stretches, block.serves (alignSize request) = false) :
    TakesPage machine request := by
  right
  rw [findFreeBlock_missing laid.listed laid.spaced skipped]
  rfl

/-- A block of the layout as memory shows it. -/
theorem Laid.block_known (laid : Laid machine stretches) (member : block ∈ blocksOf stretches) :
    blockAt machine block.addr = block :=
  LinkedList.Linked.node_eq (blockAt_addr machine) laid.listed member

theorem Laid.payload_toNat (laid : Laid machine stretches) (member : block ∈ blocksOf stretches) :
    block.payload.toNat = block.addr.toNat + 24 := by
  have bounds := laid.bounds member
  have below := machine.nextFreePage.toNat_lt
  exact Block.payload_toNat (by unfold Block.finish at bounds; omega)

theorem Laid.payload_ne_zero (laid : Laid machine stretches)
    (member : block ∈ blocksOf stretches) : block.payload ≠ 0 := by
  intro zero
  have value := laid.payload_toNat member
  rw [zero, UInt64.toNat_zero] at value
  omega

/-- What memory says about the successor of a block. -/
theorem Laid.successor (laid : Laid machine (before ++ .block block :: after)) {next : Block}
    {rest : List Block} (behind : blocksOf after = next :: rest) :
    next.addr ≠ 0 ∧ blockNext machine block.addr = next.addr ∧
      (blockIsFree machine next.addr ≠ 0 ↔ next.free = true) := by
  have listed := laid.listed
  rw [blocksOf_append, blocksOf_cons, behind] at listed
  obtain ⟨_, _, linked⟩ := listed.middle
  have toNext : blockNext machine block.addr = next.addr :=
    linked.start_eq (blockAt_addr machine)
  have flag : decide (blockIsFree machine next.addr ≠ 0) = next.free :=
    congrArg Block.free (toNext ▸ linked.2.1)
  refine ⟨toNext ▸ linked.1, toNext, ?_⟩
  rw [← flag, decide_eq_true_iff]

/-- The condition of `free` on memory, read on the layout. -/
theorem Laid.clear_behind (laid : Laid machine (before ++ .block block :: after))
    {tables : List (Nat × Nat)} (included : ∀ region ∈ tablesOf after, region ∈ tables)
    (clear : ClearBehind tables machine block.payload) :
    ∀ next rest, blocksOf after = next :: rest → next.free = true →
      ∀ region ∈ tablesOf after, region.1 ≠ block.finish := by
  intro next rest behind free region inside
  have member : block ∈ blocksOf (before ++ .block block :: after) := by simp
  obtain ⟨nonzero, toNext, flag⟩ := laid.successor behind
  have size : blockSize machine block.addr = block.size :=
    congrArg Block.size (laid.block_known member)
  rw [ClearBehind, block.payload_sub] at clear
  rw [toNext, size, laid.payload_toNat member] at clear
  exact clear nonzero (flag.mpr free) region (included region inside)

/-- A live pointer is the payload of a block in use. -/
theorem Owns.of_mem (owns : Owns stretches live) (member : ptr ∈ live) :
    ∃ block, block ∈ blocksOf stretches ∧ block.free = false ∧ block.payload = ptr := by
  obtain ⟨block, inside, payload⟩ := List.mem_map.mp (owns.mem_iff.mp member)
  obtain ⟨listed, used⟩ := mem_inUse.mp inside
  exact ⟨block, listed, used, payload⟩

theorem Owns.ne_zero (owns : Owns stretches live) (laid : Laid machine stretches)
    (member : ptr ∈ live) : ptr ≠ 0 := by
  obtain ⟨block, listed, _, rfl⟩ := owns.of_mem member
  exact laid.payload_ne_zero listed

/-- Giving back the pointer of a block that is no longer in use. -/
theorem Owns.erase {other : List Stretch} (owns : Owns stretches live)
    (uses : (inUse (blocksOf stretches)).Perm (block :: inUse (blocksOf other))) :
    Owns other (live.erase block.payload) := by
  have payloads := owns.trans (uses.map Block.payload)
  rw [List.map_cons] at payloads
  have erased := payloads.erase block.payload
  rwa [List.erase_cons_head] at erased

/-- What a call leaves: the layout with the same page tables, and the pointers
in use. -/
structure Leaves (machine changed : Machine) (before after : List Stretch)
    (live : List UInt64) : Prop where
  kept : Kept machine changed before after
  owns : Owns after live

theorem leaves_malloc (laid : Laid machine stretches) (owns : Owns stretches live)
    (pageFits : request ≠ 0 → TakesPage machine request →
      (alignSize request).toNat ≤ 4072 ∧ machine.nextFreePage.toNat + 4096 < 2 ^ 64) :
    ∃ result changed after, malloc machine request = some (result, changed) ∧
      Leaves machine changed stretches after (received live result) ∧
      (result ≠ 0 → ∃ target, Allocated machine changed stretches after request target ∧
        target.payload = result) := by
  by_cases zero : request = 0
  · subst zero
    exact ⟨0, machine, stretches, malloc_zero machine, ⟨Kept.refl laid, owns⟩,
      fun nonzero => absurd rfl nonzero⟩
  · obtain ⟨taken, target, after, returned, allocated⟩ :=
      laid.malloc zero fun skipped => pageFits zero (laid.takesPage skipped)
    refine ⟨_, taken, after, returned, ⟨allocated.kept, ?_⟩, fun _ => ⟨target, allocated, rfl⟩⟩
    rw [received, if_neg (allocated.kept.laid.payload_ne_zero allocated.listed)]
    exact (owns.cons _).trans (allocated.uses.map Block.payload).symm

/-- `calloc` clears the payload of the block it got from `malloc`; the list is
the one that `malloc` left. -/
theorem leaves_calloc (laid : Laid machine stretches) (owns : Owns stretches live)
    {nmemb : UInt64} (small : (nmemb * size).toNat ≤ 2 ^ 64 - 8)
    (pageFits : nmemb * size ≠ 0 → TakesPage machine (nmemb * size) →
      (alignSize (nmemb * size)).toNat ≤ 4072 ∧
        machine.nextFreePage.toNat + 4096 < 2 ^ 64) :
    ∃ result taken changed after, malloc machine (nmemb * size) = some (result, taken) ∧
      Represents taken (blocksOf after) ∧
      calloc machine nmemb size = some (result, changed) ∧
      Leaves machine changed stretches after (received live result) := by
  obtain ⟨result, taken, after, returned, leaves, found⟩ := leaves_malloc laid owns pageFits
  have listed := leaves.kept.laid.listed
  by_cases null : result = 0
  · subst null
    refine ⟨0, taken, taken, after, returned, listed, ?_, leaves⟩
    simp only [calloc, returned, Option.map_some, if_true]
  · obtain ⟨target, allocated, rfl⟩ := found null
    have place := allocated.kept.laid.payload_toNat allocated.listed
    have rounded := alignSize_toNat (nmemb * size) (by omega)
    have cleared := allocated.kept.laid.write_payload allocated.listed (by omega)
      (by have size := allocated.size; unfold Block.finish; omega)
      (memset_eqOn taken.memory target.payload.toNat 0 (nmemb * size).toNat)
    refine ⟨_, taken, _, after, returned, listed, ?_, ⟨cleared.trans leaves.kept, leaves.owns⟩⟩
    simp only [calloc, returned, Option.map_some, if_neg null]

theorem leaves_free (laid : Laid machine stretches) (owns : Owns stretches live)
    (member : ptr ∈ live) (clear : ClearBehind (tablesOf stretches) machine ptr) :
    ∃ after, Leaves machine (free machine ptr) stretches after (live.erase ptr) := by
  obtain ⟨block, listed, used, rfl⟩ := owns.of_mem member
  obtain ⟨before, behind, rfl⟩ := List.append_of_mem (mem_blocksOf.mp listed)
  have included : ∀ region ∈ tablesOf behind,
      region ∈ tablesOf (before ++ .block block :: behind) := by
    simp +contextual
  obtain ⟨after, kept, uses⟩ := laid.free used (laid.clear_behind included clear)
  exact ⟨after, kept, owns.erase uses⟩

/-- `realloc` of a live block that is large enough splits it. -/
theorem leaves_resized (laid : Laid machine stretches) (owns : Owns stretches live)
    (member : ptr ∈ live) (nonzero : size ≠ 0)
    (fitting : size ≤ blockSize machine (ptr - headerSize)) :
    ∃ changed after, realloc machine ptr size = some (ptr, changed) ∧
      Leaves machine changed stretches after live := by
  obtain ⟨block, listed, used, rfl⟩ := owns.of_mem member
  have known := laid.block_known listed
  have nonnull := laid.payload_ne_zero listed
  have sizeKnown : blockSize machine block.addr = block.size := congrArg Block.size known
  rw [block.payload_sub, sizeKnown] at fitting
  have returned := realloc_inPlace known nonnull nonzero fitting
  obtain ⟨before, behind, rfl⟩ := List.append_of_mem (mem_blocksOf.mp listed)
  obtain ⟨after, kept, payloads⟩ :=
    laid.splitBlock used (UInt64.le_iff_toNat_le.mp fitting)
  refine ⟨_, after, returned, kept, ?_⟩
  rw [Owns, payloads]
  exact owns

/-- Taking an entry out below a new first entry. -/
theorem perm_cons_erase_of_mem {result : UInt64} (member : ptr ∈ live) :
    (result :: live.erase ptr).Perm ((result :: live).erase ptr) := by
  by_cases same : result = ptr
  · subst same
    rw [List.erase_cons_head]
    exact (List.perm_cons_erase member).symm
  · rw [List.erase_cons_tail (by simpa using same)]

/-- The old block of a `realloc` that moves, after the allocation and the
copy. -/
theorem leaves_copied (laid : Laid machine stretches) (owns : Owns stretches live)
    (member : ptr ∈ live) (small : size.toNat ≤ 2 ^ 64 - 8)
    (growing : blockSize machine (ptr - headerSize) < size) {taken : Machine} {target : Block}
    (allocated : Allocated machine taken stretches after size target) :
    ∃ block ∈ inUse (blocksOf after), block.payload = ptr ∧
      Kept machine (afterCopy taken target.payload ptr) stretches after := by
  obtain ⟨block, listed, used, rfl⟩ := owns.of_mem member
  have sizeKnown : blockSize machine block.addr = block.size :=
    congrArg Block.size (laid.block_known listed)
  -- The old block is still in use behind the allocation.
  have stays : block ∈ inUse (blocksOf after) :=
    allocated.uses.mem_iff.mpr (List.mem_cons_of_mem _ (mem_inUse.mpr ⟨listed, used⟩))
  have takenLaid := allocated.kept.laid
  have sizeStays : blockSize taken block.addr = block.size :=
    congrArg Block.size (takenLaid.block_known (mem_inUse.mp stays).1)
  have place := takenLaid.payload_toNat allocated.listed
  have rounded := alignSize_toNat size (by omega)
  rw [block.payload_sub, sizeKnown] at growing
  have grows := UInt64.lt_iff_toNat_lt.mp growing
  have copied := takenLaid.write_payload allocated.listed (by omega)
    (by have room := allocated.size; unfold Block.finish; omega)
    (memcpy_eqOn taken.memory target.payload.toNat block.payload.toNat block.size.toNat)
  refine ⟨block, stays, rfl, ?_⟩
  rw [afterCopy, block.payload_sub, sizeStays]
  exact copied.trans allocated.kept

section Moved

variable {newPtr : UInt64} {taken : Machine} (nonnull : ptr ≠ 0) (nonzero : size ≠ 0)
variable (moving : ¬ blockSize machine (ptr - headerSize) ≥ size)
variable (returned : malloc machine size = some (newPtr, taken)) (found : newPtr ≠ 0)

include nonnull nonzero moving returned found

omit returned found in
/-- Where `malloc` fails, so does a `realloc` that has to move. -/
theorem realloc_failed (failed : malloc machine size = some (0, taken)) :
    realloc machine ptr size = some (0, taken) := by
  rw [realloc, if_neg nonnull, if_neg nonzero]
  simp only [if_neg moving, failed, Option.map_some, if_true]

omit returned found in
theorem mallocRequest_moved : mallocRequest machine (.realloc ptr size) = some size := by
  rw [mallocRequest, if_neg nonnull, if_neg fun kept => kept.elim nonzero moving]

theorem freeMade_moved :
    freeMade machine (.realloc ptr size) = some (afterCopy taken newPtr ptr, ptr) := by
  rw [freeMade, if_neg nonnull, if_neg nonzero, if_neg moving, returned, Option.bind_some]
  exact if_neg found

theorem realloc_moved :
    realloc machine ptr size = some (newPtr, free (afterCopy taken newPtr ptr) ptr) := by
  rw [realloc, if_neg nonnull, if_neg nonzero]
  simp only [if_neg moving, returned, Option.map_some, if_neg found]
  rfl

end Moved

/-- `realloc` of a live block that is too small moves it. -/
theorem leaves_moved (laid : Laid machine stretches) (owns : Owns stretches live)
    (member : ptr ∈ live) (nonzero : size ≠ 0) (small : size.toNat ≤ 2 ^ 64 - 8)
    (growing : blockSize machine (ptr - headerSize) < size)
    (pageFits : TakesPage machine size →
      (alignSize size).toNat ≤ 4072 ∧ machine.nextFreePage.toNat + 4096 < 2 ^ 64)
    (clear : FreesClear (tablesOf stretches) machine (.realloc ptr size)) :
    ∃ result changed after, realloc machine ptr size = some (result, changed) ∧
      Leaves machine changed stretches after
        (if result = 0 then live else result :: live.erase ptr) := by
  obtain ⟨result, taken, after, returned, leaves, found⟩ :=
    leaves_malloc laid owns fun _ => pageFits
  have nonnull : ptr ≠ 0 := owns.ne_zero laid member
  have moving : ¬ blockSize machine (ptr - headerSize) ≥ size := UInt64.not_le.mpr growing
  by_cases null : result = 0
  · have owns := leaves.owns
    rw [received, if_pos null] at owns
    rw [null] at returned
    exact ⟨0, taken, after, realloc_failed nonnull nonzero moving returned, leaves.kept, owns⟩
  · obtain ⟨target, allocated, rfl⟩ := found null
    obtain ⟨block, stays, rfl, copied⟩ := leaves_copied laid owns member small growing allocated
    have behindClear :=
      clear.clear (freeMade_moved nonnull nonzero moving returned null)
    have tables := copied.tables
    have stillListed := (mem_inUse.mp stays).1
    obtain ⟨before, behind, rfl⟩ := List.append_of_mem (mem_blocksOf.mp stillListed)
    have included : ∀ region ∈ tablesOf behind, region ∈ tablesOf stretches := by
      rw [← tables]
      simp +contextual
    obtain ⟨freed, kept, freedUses⟩ := copied.laid.free (mem_inUse.mp stays).2
      (copied.laid.clear_behind included behindClear)
    refine ⟨target.payload, _, freed, realloc_moved nonnull nonzero moving returned null,
      kept.trans copied, ?_⟩
    · have owns := leaves.owns
      rw [received, if_neg null] at owns
      rw [if_neg null]
      exact (perm_cons_erase_of_mem member).trans (owns.erase freedUses)

end Calls

/-! ### Steps -/

namespace HeapState

variable {state : HeapState} {stretches : List Stretch} {next : HeapCall}

theorem call_eq {result : UInt64} {changed : Machine}
    (returned : heapCall state.machine next = some (result, changed)) :
    state.call next = ⟨changed, liveAfter state.live result next⟩ := by
  rw [call, returned]

/-- A call that leaves a layout returns it. -/
private theorem LaidOut.of_leaves {result : UInt64} {changed : Machine} {after : List Stretch}
    (returned : heapCall state.machine next = some (result, changed))
    (leaves : Leaves state.machine changed stretches after (liveAfter state.live result next)) :
    ∃ after, state.Returns next ∧ (state.call next).LaidOut after ∧
      Kept state.machine (state.call next).machine stretches after := by
  refine ⟨after, ?_, ?_, ?_⟩
  · rw [Returns, returned]
    rfl
  · rw [call_eq returned]
    exact ⟨leaves.kept.laid, leaves.owns⟩
  · rw [call_eq returned]
    exact leaves.kept

section Laid

variable {ptr size : UInt64} (laid : Laid state.machine stretches)
variable (owns : Owns stretches state.live)

include laid owns

private theorem LaidOut.free (legal : ptr = 0 ∨ ptr ∈ state.live)
    (clear : FreesClear (tablesOf stretches) state.machine (.free ptr)) :
    ∃ after, state.Returns (.free ptr) ∧ (state.call (.free ptr)).LaidOut after ∧
      Kept state.machine (state.call (.free ptr)).machine stretches after := by
  have returned : heapCall state.machine (.free ptr) = some (0, Heap.free state.machine ptr) := rfl
  by_cases null : ptr = 0
  · have absent : ptr ∉ state.live := fun member => owns.ne_zero laid member null
    apply LaidOut.of_leaves returned
    rw [Heap.free, if_pos null, liveAfter, List.erase_of_not_mem absent]
    exact ⟨Kept.refl laid, owns⟩
  · have made : freeMade state.machine (.free ptr) = some (state.machine, ptr) := by
      rw [freeMade, if_neg null]
    obtain ⟨after, leaves⟩ :=
      leaves_free laid owns (legal.resolve_left null) (clear.clear made)
    exact LaidOut.of_leaves returned leaves

private theorem LaidOut.realloc (legal : ptr = 0 ∨ ptr ∈ state.live)
    (small : size.toNat ≤ 2 ^ 64 - 8) (pageFits : state.PageFits (.realloc ptr size))
    (clear : FreesClear (tablesOf stretches) state.machine (.realloc ptr size)) :
    ∃ after, state.Returns (.realloc ptr size) ∧
      (state.call (.realloc ptr size)).LaidOut after ∧
      Kept state.machine (state.call (.realloc ptr size)).machine stretches after := by
  by_cases null : ptr = 0
  · obtain ⟨result, changed, after, returned, leaves, _⟩ :=
      leaves_malloc laid owns (pageFits size (if_pos null))
    have called : heapCall state.machine (.realloc ptr size) = some (result, changed) :=
      (if_pos null).trans returned
    apply LaidOut.of_leaves called
    rw [liveAfter, if_pos null]
    exact leaves
  have member := legal.resolve_left null
  by_cases zero : size = 0
  · have made : freeMade state.machine (.realloc ptr size) = some (state.machine, ptr) := by
      rw [freeMade, if_neg null, if_pos zero]
    obtain ⟨after, leaves⟩ := leaves_free laid owns member (clear.clear made)
    have called : heapCall state.machine (.realloc ptr size) =
        some (0, Heap.free state.machine ptr) := by
      rw [heapCall, Heap.realloc, if_neg null, if_pos zero]
    apply LaidOut.of_leaves called
    rw [liveAfter, if_neg null, if_pos zero]
    exact leaves
  by_cases fitting : size ≤ blockSize state.machine (ptr - headerSize)
  · obtain ⟨changed, after, returned, leaves⟩ := leaves_resized laid owns member zero fitting
    have called : heapCall state.machine (.realloc ptr size) = some (ptr, changed) := returned
    apply LaidOut.of_leaves called
    rw [liveAfter, if_neg null, if_neg zero, if_neg null]
    exact ⟨leaves.kept, (List.perm_cons_erase member).symm.trans leaves.owns⟩
  · have request := mallocRequest_moved null zero fitting
    obtain ⟨result, changed, after, returned, leaves⟩ :=
      leaves_moved laid owns member zero small (UInt64.not_le.mp fitting)
        (pageFits size request zero) clear
    have called : heapCall state.machine (.realloc ptr size) = some (result, changed) := returned
    apply LaidOut.of_leaves called
    rw [liveAfter, if_neg null, if_neg zero]
    exact leaves

end Laid

/-- One call of a correct client, on a laid out heap. -/
theorem LaidOut.call (laidOut : state.LaidOut stretches) (legal : state.Legal (2 ^ 64 - 8) next)
    (pageFits : state.PageFits next)
    (clear : FreesClear (tablesOf stretches) state.machine next) :
    ∃ after, state.Returns next ∧ (state.call next).LaidOut after ∧
      Kept state.machine (state.call next).machine stretches after := by
  obtain ⟨laid, owns⟩ := laidOut
  cases next with
  | malloc size =>
      obtain ⟨result, changed, after, returned, leaves, _⟩ :=
        leaves_malloc laid owns (pageFits size rfl)
      exact LaidOut.of_leaves returned leaves
  | calloc nmemb size =>
      obtain ⟨result, _, changed, after, _, _, returned, leaves⟩ :=
        leaves_calloc laid owns legal (pageFits _ rfl)
      exact LaidOut.of_leaves returned leaves
  | realloc ptr size => exact LaidOut.realloc laid owns legal.1 legal.2 pageFits clear
  | free ptr => exact LaidOut.free laid owns legal clear

/-- The machine that the free of a call finds is laid out, with a block at the
pointer. -/
theorem LaidOut.freeMade {found : Machine} {ptr : UInt64} (laidOut : state.LaidOut stretches)
    (legal : state.Legal (2 ^ 64 - 8) next) (pageFits : state.PageFits next)
    (made : freeMade state.machine next = some (found, ptr)) :
    ∃ layout, Laid found layout ∧ tablesOf layout = tablesOf stretches ∧
      ∃ block ∈ blocksOf layout, block.payload = ptr := by
  obtain ⟨laid, owns⟩ := laidOut
  have direct : ∀ ptr ∈ state.live, ∃ layout, Laid state.machine layout ∧
      tablesOf layout = tablesOf stretches ∧ ∃ block ∈ blocksOf layout, block.payload = ptr := by
    intro ptr member
    obtain ⟨block, listed, _, payload⟩ := owns.of_mem member
    exact ⟨stretches, laid, rfl, block, listed, payload⟩
  cases next with
  | malloc size => simp [Heap.freeMade] at made
  | calloc nmemb size => simp [Heap.freeMade] at made
  | free freed =>
      rw [Heap.freeMade] at made
      split_ifs at made with null
      obtain ⟨rfl, rfl⟩ := Prod.mk.inj (Option.some.inj made)
      exact direct freed (legal.resolve_left null)
  | realloc old size =>
      rw [Heap.freeMade] at made
      split_ifs at made with null zero fitting
      · obtain ⟨rfl, rfl⟩ := Prod.mk.inj (Option.some.inj made)
        exact direct old (legal.1.resolve_left null)
      · have member := legal.1.resolve_left null
        have request := mallocRequest_moved null zero fitting
        obtain ⟨result, taken, after, returned, leaves, allocation⟩ :=
          leaves_malloc laid owns (pageFits size request)
        rw [returned, Option.bind_some] at made
        dsimp only at made
        split_ifs at made with failed
        obtain ⟨rfl, rfl⟩ := Prod.mk.inj (Option.some.inj made)
        obtain ⟨target, allocated, rfl⟩ := allocation failed
        obtain ⟨block, stays, payload, copied⟩ :=
          leaves_copied laid owns member legal.2 (UInt64.not_le.mp fitting) allocated
        exact ⟨after, copied.laid, copied.tables, block, (mem_inUse.mp stays).1, payload⟩

end HeapState

/-! ### The heap alone -/

/-- The size of a page without a header is a multiple of eight. -/
theorem alignSize_page {request : UInt64} (small : request.toNat ≤ 4072) :
    (alignSize request).toNat ≤ 4072 := by
  rw [alignSize_toNat request (by omega)]
  omega

/-- Requests of at most 4072 bytes fit a page. -/
theorem pageFits_of_legal {heap : HeapState} {next : HeapCall} (legal : heap.Legal 4072 next)
    (room : heap.machine.nextFreePage.toNat + 4096 < 2 ^ 64) : heap.PageFits next := by
  intro request passed _ _
  have small : request.toNat ≤ 4072 := by
    cases next with
    | malloc size => exact Option.some.inj passed ▸ legal
    | calloc nmemb size => exact Option.some.inj passed ▸ legal
    | free ptr => exact nomatch passed
    | realloc ptr size =>
        have passed : mallocRequest heap.machine (.realloc ptr size) = some request := passed
        rw [mallocRequest] at passed
        split_ifs at passed
        · exact Option.some.inj passed ▸ legal.2
        · exact Option.some.inj passed ▸ legal.2
  exact ⟨alignSize_page small, room⟩

theorem legal_mono {heap : HeapState} {next : HeapCall} {small large : Nat}
    (bound : small ≤ large) (legal : heap.Legal small next) : heap.Legal large next := by
  cases next with
  | malloc size => exact legal.trans bound
  | calloc nmemb size => exact legal.trans bound
  | free ptr => exact legal
  | realloc ptr size => exact ⟨legal.1, legal.2.trans bound⟩

/-- Without page tables every free is clear. -/
theorem freesClear_nil (machine : Machine) (next : HeapCall) : FreesClear [] machine next :=
  fun _ _ _ _ _ inside => absurd inside List.not_mem_nil

/-- The pages handed out hold blocks of the heap and nothing else. -/
def HeapState.HeapOnly (state : HeapState) : Prop :=
  ∃ stretches, state.LaidOut stretches ∧ tablesOf stretches = []

theorem freshHeap_heapOnly (memory : Memory) (cr3 : UInt64) :
    (freshHeap memory cr3).HeapOnly :=
  ⟨[], freshHeap_laidOut memory cr3, rfl⟩

/-- A call on the heap alone returns and leaves the heap alone. -/
theorem HeapState.HeapOnly.call {state : HeapState} {next : HeapCall} (alone : state.HeapOnly)
    (legal : state.Legal (2 ^ 64 - 8) next) (pageFits : state.PageFits next) :
    state.Returns next ∧ (state.call next).HeapOnly := by
  obtain ⟨stretches, laidOut, empty⟩ := alone
  obtain ⟨after, returns, kept, changed⟩ := laidOut.call legal pageFits
    (empty ▸ freesClear_nil state.machine next)
  exact ⟨returns, after, kept, changed.tables.trans empty⟩

end NansOS.Heap
