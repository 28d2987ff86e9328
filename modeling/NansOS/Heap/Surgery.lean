import NansOS.Heap.Calls
import NansOS.Foundation.Tiling

/-! Owns contiguous heap lists: the calls that take no page (`free`, a `malloc`
that a block of the list serves, and a `realloc` inside its block) cut and join
blocks, and the list tiles the same interval before and after. -/

namespace NansOS.Heap

open NansOS.Foundation
open NansOS.Kernel

/-- The bytes of a block with its header. -/
def Block.length (block : Block) : Nat := 24 + block.size.toNat

/-- The blocks are contiguous in list order, from `lower` to `upper`. -/
abbrev Contiguous (lower : Nat) (blocks : List Block) (upper : Nat) : Prop :=
  Tiles (fun block : Block => block.addr.toNat) Block.length lower blocks upper

section Contiguous

variable {lower upper : Nat} {blocks : List Block}

theorem Block.finish_eq (block : Block) : block.addr.toNat + block.length = block.finish := by
  unfold Block.length Block.finish
  omega

theorem Contiguous.spaced (tiles : Contiguous lower blocks upper) (within : upper ≤ 2 ^ 64) :
    Spaced blocks where
  ordered := tiles.ordered.imp fun {left _} apart => by
    rw [← left.finish_eq]
    exact apart
  within := fun block member => by
    have inside := tiles.bounds member
    rw [← block.finish_eq]
    exact inside.2.trans within

theorem Contiguous.single {block : Block} :
    Contiguous block.addr.toNat [block] block.finish :=
  ⟨rfl, block.finish_eq⟩

/-- The pieces of a split, the first with any flag, tile the block. -/
theorem Contiguous.split {block rest : Block} {size : UInt64} {flag : Bool}
    (starts : rest.addr.toNat = block.addr.toNat + 24 + size.toNat)
    (ends : rest.finish = block.finish) :
    Contiguous block.addr.toNat [{ block with size := size, free := flag }, rest]
      block.finish := by
  refine ⟨rfl, ?_, ?_⟩
  · change rest.addr.toNat = block.addr.toNat + (24 + size.toNat)
    omega
  · rw [← ends, ← rest.finish_eq, starts]
    change block.addr.toNat + (24 + size.toNat) + rest.length = _
    omega

/-- Two adjacent blocks joined. -/
theorem Contiguous.join {block next : Block} {before rest : List Block}
    (spaced : Spaced (before ++ block :: next :: rest))
    (adjacent : next.addr.toNat = block.finish) :
    Contiguous block.addr.toNat
      [⟨block.addr, block.size + (headerSize + next.size), true⟩] next.finish := by
  have sum := merge_toNat spaced
  refine ⟨rfl, ?_⟩
  change block.addr.toNat + (24 + (block.size + (headerSize + next.size)).toNat) = next.finish
  rw [sum]
  unfold Block.finish at adjacent ⊢
  omega

end Contiguous

/-! ### Calls that take no page -/

/-- The in-use blocks other than the one at an address. -/
def othersInUse (addr : UInt64) (blocks : List Block) : List Block :=
  blocks.filter fun block => !block.free && block.addr != addr

/-- A call that is served inside the list: a block in use is freed or resized
within its size, or a request of at most `2 ^ 64 - 8` bytes meets a free block
that holds it rounded up. -/
inductive ServedInList (blocks : List Block) : HeapCall → Prop
  | free (block : Block) (member : block ∈ blocks) (used : block.free = false) :
      ServedInList blocks (.free block.payload)
  | malloc (size : UInt64) (positive : 1 ≤ size.toNat) (small : size.toNat ≤ 2 ^ 64 - 8)
      (served : ∃ block ∈ blocks, block.serves (alignSize size) = true) :
      ServedInList blocks (.malloc size)
  | realloc (block : Block) (size : UInt64) (member : block ∈ blocks)
      (used : block.free = false) (positive : 1 ≤ size.toNat)
      (inside : size.toNat ≤ block.size.toNat) :
      ServedInList blocks (.realloc block.payload size)

/-- The block a call is about: the one freed or resized, or for `malloc` a block
that was free and large enough, is in use afterwards and is what was returned. -/
def TargetOf (changed : List Block) (result : UInt64) (target : Block) : HeapCall → Prop
  | .malloc size =>
      result = target.payload ∧ target.free = true ∧ size.toNat ≤ target.size.toNat ∧
        ∃ block ∈ changed, block.addr = target.addr ∧ block.free = false ∧
          size.toNat ≤ block.size.toNat
  | .calloc _ _ => False
  | .realloc ptr _ => ptr = target.payload ∧ result = ptr
  | .free ptr => ptr = target.payload

/-- What a call served inside the list leaves: the list is contiguous over the
same interval, and the other blocks in use are as they were. -/
structure Retiled (machine : Machine) (blocks : List Block) (lower upper : Nat)
    (call : HeapCall) : Prop where
  outcome : ∃ result changed after target,
    heapCall machine call = some (result, changed) ∧
    changed.nextFreePage = machine.nextFreePage ∧
    Represents changed after ∧
    Contiguous lower after upper ∧
    (after.map Block.length).sum = (blocks.map Block.length).sum ∧
    target ∈ blocks ∧
    othersInUse target.addr after = othersInUse target.addr blocks ∧
    TargetOf after result target call

section Surgery

variable {machine : Machine} {before after : List Block} {block : Block}
variable {lower upper : Nat} {size : UInt64}

/-- Blocks that are free or sit at the target do not count as others. -/
theorem othersInUse_pieces {before after old new : List Block} {addr : UInt64}
    (oldTarget : ∀ piece ∈ old, piece.addr = addr ∨ piece.free = true)
    (newTarget : ∀ piece ∈ new, piece.addr = addr ∨ piece.free = true) :
    othersInUse addr (before ++ (new ++ after)) = othersInUse addr (before ++ (old ++ after)) := by
  have dropped : ∀ pieces : List Block, (∀ piece ∈ pieces, piece.addr = addr ∨ piece.free = true) →
      othersInUse addr pieces = [] := by
    intro pieces target
    refine List.filter_eq_nil_iff.mpr fun piece member => ?_
    rcases target piece member with here | free
    · simp [here]
    · simp [free]
  have split : ∀ first second : List Block,
      othersInUse addr (first ++ second) = othersInUse addr first ++ othersInUse addr second :=
    fun first second => List.filter_append first second
  rw [split, split, split, split, dropped old oldTarget, dropped new newTarget]

/-- A call that replaces part of the list by a tiling of the same interval. -/
theorem Retiled.of_pieces (old new : List Block) {first last : Nat} {target : Block}
    {call : HeapCall} {result : UInt64} {changed : Machine}
    (tiles : Contiguous lower (before ++ (old ++ after)) upper) (nonempty : old ≠ [])
    (oldTiles : Contiguous first old last) (newTiles : Contiguous first new last)
    (returned : heapCall machine call = some (result, changed))
    (page : changed.nextFreePage = machine.nextFreePage)
    (listed : Represents changed (before ++ (new ++ after))) (member : target ∈ old)
    (oldTarget : ∀ piece ∈ old, piece.addr = target.addr ∨ piece.free = true)
    (newTarget : ∀ piece ∈ new, piece.addr = target.addr ∨ piece.free = true)
    (about : TargetOf (before ++ (new ++ after)) result target call) :
    Retiled machine (before ++ (old ++ after)) lower upper call := by
  have retiled := tiles.replace oldTiles nonempty newTiles
  refine ⟨result, changed, _, target, returned, page, listed, retiled, ?_, by simp [member],
    othersInUse_pieces oldTarget newTarget, about⟩
  have oldTotal := tiles.total
  have newTotal := retiled.total
  omega

variable (listed : Represents machine (before ++ block :: after))
variable (tiles : Contiguous lower (before ++ block :: after) upper)
variable (within : upper ≤ 2 ^ 64)

include listed tiles within

/-- `free` retiles. -/
theorem retiled_free : Retiled machine (before ++ block :: after) lower upper
    (.free block.payload) := by
  have spaced := tiles.spaced within
  by_cases null : block.payload = 0
  · -- An empty block at the very end of the address space has the null payload.
    have unchanged : heapCall machine (.free block.payload) = some (0, machine) := by
      rw [heapCall, free, if_pos null]
    exact Retiled.of_pieces [block] [block] tiles (by simp)
      Contiguous.single Contiguous.single unchanged rfl listed (by simp) (by simp) (by simp) rfl
  obtain ⟨freed, same⟩ := free_spec listed spaced null
  have alone : Represents (free machine block.payload)
      (before ++ { block with free := true } :: after) →
        Retiled machine (before ++ block :: after) lower upper (.free block.payload) :=
    fun kept => Retiled.of_pieces [block] [{ block with free := true }] tiles (by simp)
      Contiguous.single ⟨rfl, block.finish_eq⟩ rfl same.nextFreePage kept (by simp) (by simp)
      (by simp) rfl
  cases after with
  | nil => exact alone freed
  | cons next rest =>
      rw [Block.freeInto] at freed
      split_ifs at freed with nextFree
      · obtain ⟨middle, -, here, there, -⟩ := Tiles.append_iff.mp tiles
        have adjacent : next.addr.toNat = block.finish := by
          rw [← block.finish_eq]
          change block.addr.toNat = middle at here
          rw [here]
          exact there
        have pair : Contiguous block.addr.toNat [block, next] next.finish :=
          ⟨rfl, adjacent.trans block.finish_eq.symm, by
            rw [block.finish_eq, ← adjacent]
            exact next.finish_eq⟩
        exact Retiled.of_pieces [block, next]
          [⟨block.addr, block.size + (headerSize + next.size), true⟩] tiles (by simp) pair
          (Contiguous.join spaced adjacent) rfl same.nextFreePage freed (by simp)
          (by simp [nextFree]) (by simp) rfl
      · exact alone freed

/-- `malloc` served by the first block that fits retiles. -/
theorem retiled_malloc (above : 32 < lower) (nonzero : size ≠ 0)
    (small : size.toNat ≤ 2 ^ 64 - 8)
    (skipped : ∀ other ∈ before, other.serves (alignSize size) = false)
    (serving : block.serves (alignSize size) = true) :
    Retiled machine (before ++ block :: after) lower upper (.malloc size) := by
  have spaced := tiles.spaced within
  have inside := tiles.bounds (show block ∈ before ++ block :: after by simp)
  obtain ⟨free, fitting⟩ := Block.serves_iff.mp serving
  have rounded := alignSize_toNat size (by omega)
  obtain ⟨taken, returned, listed', same⟩ :=
    malloc_found listed spaced (by omega) nonzero skipped serving
  rcases block.take_cases (alignSize size) spaced.middle_within with
    whole | ⟨rest, cut, restFree, starts, ends, room⟩
  · rw [whole] at listed'
    refine Retiled.of_pieces [block] [{ block with free := false }] tiles (by simp)
      Contiguous.single ⟨rfl, block.finish_eq⟩ returned same.nextFreePage listed' (by simp)
      (by simp) (by simp) ⟨rfl, free, by omega, { block with free := false }, by simp, rfl, rfl, ?_⟩
    change size.toNat ≤ block.size.toNat
    omega
  · rw [cut] at listed'
    refine Retiled.of_pieces [block]
      [{ block with size := alignSize size, free := false }, rest] tiles (by simp)
      Contiguous.single (Contiguous.split starts ends) returned same.nextFreePage listed'
      (by simp) (by simp) (by simp [restFree])
      ⟨rfl, free, by omega, { block with size := alignSize size, free := false }, by simp, rfl,
        rfl, ?_⟩
    change size.toNat ≤ (alignSize size).toNat
    omega

/-- `realloc` inside its block retiles. -/
theorem retiled_realloc (above : 32 < lower)
    (positive : 1 ≤ size.toNat) (fitting : size.toNat ≤ block.size.toNat) :
    Retiled machine (before ++ block :: after) lower upper (.realloc block.payload size) := by
  have spaced := tiles.spaced within
  have inside := tiles.bounds (show block ∈ before ++ block :: after by simp)
  have last := spaced.middle_within
  have nonnull : block.payload ≠ 0 := Block.payload_ne_zero (by unfold Block.finish at last; omega)
  have nonzero : size ≠ 0 := fun zero => by
    rw [zero, UInt64.toNat_zero] at positive
    omega
  have returned : heapCall machine (.realloc block.payload size) =
      some (block.payload, splitBlock machine block.addr size) :=
    realloc_inPlace listed.middle.2.1 nonnull nonzero (UInt64.le_iff_toNat_le.mpr fitting)
  obtain ⟨listed', same⟩ := splitBlock_spec listed spaced (by omega) fitting
  rcases block.split_cases size spaced.middle_within with
    whole | ⟨rest, cut, restFree, starts, ends, room⟩
  · rw [whole] at listed'
    exact Retiled.of_pieces [block] [block] tiles (by simp) Contiguous.single Contiguous.single
      returned same.nextFreePage listed' (by simp) (by simp) (by simp) ⟨rfl, rfl⟩
  · rw [cut] at listed'
    have pieces : Contiguous block.addr.toNat [{ block with size := size }, rest] block.finish :=
      Contiguous.split starts ends
    exact Retiled.of_pieces [block] [{ block with size := size }, rest] tiles (by simp)
      Contiguous.single pieces returned same.nextFreePage listed' (by simp) (by simp)
      (by simp [restFree]) ⟨rfl, rfl⟩

end Surgery

/-- List surgery keeps the tiling: on a contiguous list above the first 32
bytes, a call served inside the list returns, and leaves a contiguous list over
the same interval with every other block in use as it was. -/
theorem surgery_retiles {machine : Machine} {blocks : List Block} {lower upper : Nat}
    (listed : Represents machine blocks) (tiles : Contiguous lower blocks upper)
    (within : upper ≤ 2 ^ 64) (above : 32 < lower) {call : HeapCall}
    (served : ServedInList blocks call) : Retiled machine blocks lower upper call := by
  cases served with
  | free block member used =>
      obtain ⟨before, after, rfl⟩ := List.append_of_mem member
      exact retiled_free listed tiles within
  | malloc size positive small served =>
      have nonzero : size ≠ 0 := fun zero => by
        rw [zero, UInt64.toNat_zero] at positive
        omega
      rcases serves_cases blocks (alignSize size) with
        missing | ⟨before, block, after, rfl, skipped, serving⟩
      · obtain ⟨block, member, serves⟩ := served
        exact absurd (serves.symm.trans (missing block member)) (by decide)
      · exact retiled_malloc listed tiles within above nonzero small skipped serving
  | realloc block size member used positive inside =>
      obtain ⟨before, after, rfl⟩ := List.append_of_mem member
      exact retiled_realloc listed tiles within above positive inside

/-- A heap of one free block of the given size with its header. -/
def oneBlock (addr total : UInt64) : Machine :=
  initBlock { memory := fun _ => 0, cr3 := 0, nextFreePage := 0x401000, heapStart := addr } addr
    total

theorem oneBlock_represents {addr : UInt64} (nonzero : addr ≠ 0) (total : UInt64) :
    Represents (oneBlock addr total) [⟨addr, total - headerSize, true⟩] :=
  ⟨nonzero, blockAt_initBlock _ _ _, blockNext_initBlock _ _ _⟩

/-- A request of 100 bytes on a heap of one page. -/
theorem page_retiles :
    Retiled (oneBlock 0x400000 4096) [⟨0x400000, 4072, true⟩] 0x400000 0x401000 (.malloc 100) :=
  surgery_retiles (oneBlock_represents (by decide) 4096) ⟨rfl, rfl⟩ (by decide) (by decide)
    (.malloc 100 (by decide) (by decide) ⟨_, List.mem_cons_self, by decide⟩)

/-- On a block in the first 32 bytes that spans the address space, the test of
`split_block` wraps: a block larger than the rest of memory is cut off. -/
theorem low_block_not_retiled :
    Represents (oneBlock 8 (0 - 32)) [⟨8, 0 - 56, true⟩] ∧
      Contiguous 8 [⟨8, 0 - 56, true⟩] (2 ^ 64 - 24) ∧
      ServedInList [⟨8, 0 - 56, true⟩] (.malloc (0 - 56)) ∧
      ¬ Retiled (oneBlock 8 (0 - 32)) [⟨8, 0 - 56, true⟩] 8 (2 ^ 64 - 24) (.malloc (0 - 56)) := by
  refine ⟨oneBlock_represents (by decide) _, ⟨rfl, rfl⟩,
    .malloc _ (by decide) (by decide) ⟨_, List.mem_cons_self, by decide⟩, ?_⟩
  rintro ⟨result, changed, after, target, returned, -, listed, tiles, -⟩
  have computed : (heapCall (oneBlock 8 (0 - 32)) (.malloc (0 - 56))).map
      (fun outcome => (outcome.2.heapStart, blockNext outcome.2 8)) = some (8, 0 - 24) := by
    decide +kernel
  rw [returned, Option.map_some, Option.some.injEq, Prod.mk.injEq] at computed
  obtain ⟨starts, next⟩ := computed
  -- The list goes on at `2 ^ 64 - 24`, where a header reaches the end of memory.
  unfold Represents at listed
  rw [starts] at listed
  match after, listed, tiles with
  | [], ended, _ =>
      change (8 : UInt64) = 0 at ended
      exact absurd ended (by decide)
  | [_], ⟨_, _, ended⟩, _ =>
      change blockNext changed 8 = 0 at ended
      rw [next] at ended
      exact absurd ended (by decide)
  | _ :: second :: rest, ⟨_, _, _, known, _⟩, ⟨_, here, later⟩ =>
      have ends := later.lower_le
      have place : second.addr = 0 - 24 := by
        rw [← known, blockAt_addr, next]
      change second.addr.toNat = _ at here
      rw [← here, place] at ends
      change 2 ^ 64 - 24 + (24 + second.size.toNat) ≤ 2 ^ 64 - 24 at ends
      omega

end NansOS.Heap
