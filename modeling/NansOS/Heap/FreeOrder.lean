import NansOS.Heap.Runs
import Mathlib.Data.List.Nodup

/-! Owns what a series of frees leaves of the heap list. A free looks at its
successor only, so two neighbours are joined when the first of them is freed
while the second is free. Two orders of the same frees leave the same list
exactly when they agree on every two neighbours. -/

namespace NansOS.Heap

open NansOS.Foundation
open NansOS.Kernel

/-! ### Frees on the list -/

/-- `free` on the heap list. -/
def freeBlock (ptr : UInt64) : List Block → List Block
  | [] => []
  | block :: rest =>
      if block.payload = ptr then block.freeInto rest else block :: freeBlock ptr rest

/-- In this order of frees the block is freed while its successor is free. -/
def Joins (order : List UInt64) (block next : Block) : Prop :=
  block.payload ∈ order ∧
    (next.free = true ∨ order.idxOf next.payload < order.idxOf block.payload)

instance (order : List UInt64) (block next : Block) : Decidable (Joins order block next) :=
  inferInstanceAs (Decidable (_ ∧ (_ ∨ _)))

/-- The block alone, after the frees. -/
def Block.settled (order : List UInt64) (block : Block) : Block :=
  { block with free := block.free || decide (block.payload ∈ order) }

/-- The block joined with the first block behind it. -/
def Block.absorb (block : Block) : List Block → List Block
  | [] => [{ block with free := true }]
  | next :: rest =>
      { addr := block.addr
        size := block.size + (headerSize + next.size)
        free := true } :: rest

/-- The heap list after frees in this order. -/
def settle (order : List UInt64) : List Block → List Block
  | [] => []
  | [block] => [block.settled order]
  | block :: next :: rest =>
      if Joins order block next then block.absorb (settle order (next :: rest))
      else block.settled order :: settle order (next :: rest)

/-- Every pointer is that of a block in use. -/
def InUse (blocks : List Block) (order : List UInt64) : Prop :=
  ∀ ptr ∈ order, ∃ block ∈ blocks, block.payload = ptr ∧ block.free = false

variable {order : List UInt64} {ptr : UInt64} {block next : Block} {blocks rest : List Block}

theorem settle_joined (joins : Joins order block next) :
    settle order (block :: next :: rest) = block.absorb (settle order (next :: rest)) :=
  if_pos joins

theorem settle_apart (apart : ¬ Joins order block next) :
    settle order (block :: next :: rest) =
      block.settled order :: settle order (next :: rest) :=
  if_neg apart

/-- The first block left starts where the first block was, and is free when that
block was free or is freed. -/
theorem settle_head (order : List UInt64) (block : Block) (rest : List Block) :
    ∃ first later, settle order (block :: rest) = first :: later ∧ first.addr = block.addr ∧
      first.free = (block.free || decide (block.payload ∈ order)) := by
  cases rest with
  | nil => exact ⟨block.settled order, [], rfl, rfl, rfl⟩
  | cons next rest =>
      by_cases joins : Joins order block next
      · obtain ⟨joined, later, same, _⟩ := settle_head order next rest
        rw [settle_joined joins, same, decide_eq_true joins.1, Bool.or_true]
        exact ⟨_, later, rfl, rfl, rfl⟩
      · rw [settle_apart joins]
        exact ⟨_, _, rfl, rfl, rfl⟩

theorem payload_congr {left right : Block} (same : left.addr = right.addr) :
    left.payload = right.payload := by
  rw [Block.payload, Block.payload, same]

/-- Blocks behind a joined one keep their place. -/
theorem settle_payloads (order : List UInt64) (blocks : List Block) :
    ((settle order blocks).map Block.payload).Sublist (blocks.map Block.payload) := by
  induction blocks with
  | nil => exact List.Sublist.refl _
  | cons block rest inductionHypothesis =>
      cases rest with
      | nil => exact List.Sublist.refl _
      | cons next rest =>
          by_cases joins : Joins order block next
          · rw [settle_joined joins]
            obtain ⟨joined, later, same, _⟩ := settle_head order next rest
            rw [same] at inductionHypothesis ⊢
            exact ((List.sublist_cons_self _ _).trans inductionHypothesis).cons_cons _
          · rw [settle_apart joins]
            exact inductionHypothesis.cons_cons _

/-- A pointer of no block frees nothing. -/
theorem freeBlock_absent (absent : ptr ∉ blocks.map Block.payload) :
    freeBlock ptr blocks = blocks := by
  induction blocks with
  | nil => rfl
  | cons block rest inductionHypothesis =>
      rw [List.map_cons, List.mem_cons, not_or] at absent
      rw [freeBlock, if_neg (Ne.symm absent.1), inductionHypothesis absent.2]

theorem freeBlock_other (other : block.payload ≠ ptr) :
    freeBlock ptr (block :: rest) = block :: freeBlock ptr rest :=
  if_neg other

theorem settled_concat (other : block.payload ≠ ptr) :
    block.settled (order ++ [ptr]) = block.settled order := by
  simp [Block.settled, other]

/-- A free of another block changes nothing about when a block is freed. -/
theorem joins_concat (other : block.payload ≠ ptr) :
    Joins (order ++ [ptr]) block next ↔ Joins order block next := by
  have listed : block.payload ∈ order ++ [ptr] ↔ block.payload ∈ order := by simp [other]
  rw [Joins, Joins, listed]
  apply and_congr_right
  intro member
  apply or_congr_right
  have below := List.idxOf_lt_length_of_mem member
  rw [List.idxOf_append_of_mem member]
  by_cases earlier : next.payload ∈ order
  · rw [List.idxOf_append_of_mem earlier]
  · have outside := List.idxOf_eq_length earlier
    have behind : order.length ≤ (order ++ [ptr]).idxOf next.payload := by
      rw [List.idxOf_append_of_notMem earlier]
      exact Nat.le_add_right _ _
    exact iff_of_false (by omega) (by omega)

/-- The last free joins its block when the successor is free by then. -/
theorem joins_last (fresh : block.payload ∉ order) :
    Joins (order ++ [block.payload]) block next ↔
      (next.free || decide (next.payload ∈ order)) = true := by
  have position : (order ++ [block.payload]).idxOf block.payload = order.length := by
    rw [List.idxOf_append_of_notMem fresh, List.idxOf_cons_self, Nat.add_zero]
  rw [Joins, position, Bool.or_eq_true, decide_eq_true_iff]
  rw [and_iff_right (List.mem_append_right _ (List.mem_singleton_self _))]
  apply or_congr_right
  by_cases earlier : next.payload ∈ order
  · rw [List.idxOf_append_of_mem earlier]
    exact iff_of_true (List.idxOf_lt_length_of_mem earlier) earlier
  · rw [List.idxOf_append_of_notMem earlier]
    exact iff_of_false (by omega) earlier

/-- A free of the first block: nothing behind it changes, and it was not joined
before. -/
theorem settle_concat_first (fresh : block.payload ∉ order)
    (behind : settle (order ++ [block.payload]) rest = settle order rest) :
    settle (order ++ [block.payload]) (block :: rest) =
      freeBlock block.payload (settle order (block :: rest)) := by
  have alone : block.settled order = block := by
    simp [Block.settled, fresh]
  cases rest with
  | nil => simp [settle, freeBlock, Block.settled, Block.freeInto, fresh]
  | cons next rest =>
      rw [settle_apart fun joins => fresh joins.1, alone, freeBlock, if_pos rfl]
      obtain ⟨first, later, same, _, flag⟩ := settle_head order next rest
      have joinsIff : Joins (order ++ [block.payload]) block next ↔ first.free = true := by
        rw [joins_last fresh, flag]
      by_cases joins : Joins (order ++ [block.payload]) block next
      · rw [settle_joined joins, behind, same, Block.freeInto, if_pos (joinsIff.mp joins)]
        rfl
      · rw [settle_apart joins, behind, same, Block.freeInto,
          if_neg fun free => joins (joinsIff.mpr free)]
        simp [Block.settled]

/-- A joined successor is free, so it is not the block freed now. -/
theorem Joins.ne_of_used (joins : Joins order block next) (fresh : ptr ∉ order)
    (used : next.payload = ptr → next.free = false) : next.payload ≠ ptr := by
  intro same
  rcases joins.2 with free | earlier
  · rw [used same] at free
    cases free
  · have below := List.idxOf_lt_length_of_mem joins.1
    rw [same, List.idxOf_eq_length fresh] at earlier
    omega

/-- One more free. -/
theorem settle_concat (distinct : (blocks.map Block.payload).Nodup) (fresh : ptr ∉ order)
    (used : ∀ block ∈ blocks, block.payload = ptr → block.free = false) :
    settle (order ++ [ptr]) blocks = freeBlock ptr (settle order blocks) := by
  induction blocks with
  | nil => rfl
  | cons block rest inductionHypothesis =>
      rw [List.map_cons, List.nodup_cons] at distinct
      obtain ⟨-, usedLater⟩ := List.forall_mem_cons.mp used
      have behind := inductionHypothesis distinct.2 usedLater
      by_cases here : block.payload = ptr
      · subst here
        have absent : block.payload ∉ (settle order rest).map Block.payload :=
          fun member => distinct.1 ((settle_payloads order _).subset member)
        rw [freeBlock_absent absent] at behind
        exact settle_concat_first fresh behind
      · have there : (block.settled order).payload ≠ ptr := here
        cases rest with
        | nil =>
            rw [settle, settle, freeBlock_other there, settled_concat here]
            rfl
        | cons next rest =>
            by_cases joins : Joins order block next
            · have other := joins.ne_of_used fresh (usedLater next (by simp))
              obtain ⟨first, later, same, start, _⟩ := settle_head order next rest
              rw [← payload_congr start] at other
              rw [settle_joined ((joins_concat here).mpr joins), settle_joined joins, behind,
                same, freeBlock_other other]
              exact (if_neg here).symm
            · have apart : ¬ Joins (order ++ [ptr]) block next :=
                fun still => joins ((joins_concat here).mp still)
              rw [settle_apart apart, settle_apart joins, behind, settled_concat here,
                freeBlock_other there]

/-! ### Frees in memory -/

/-- `free` of each pointer, in order. -/
def freeEach (machine : Machine) (order : List UInt64) : Machine := order.foldl free machine

theorem settle_nil (blocks : List Block) : settle [] blocks = blocks := by
  have alone : ∀ block : Block, block.settled [] = block := by simp [Block.settled]
  induction blocks with
  | nil => rfl
  | cons block rest inductionHypothesis =>
      cases rest with
      | nil => rw [settle, alone]
      | cons next rest =>
          rw [settle_apart fun joins => List.not_mem_nil joins.1, alone, inductionHypothesis]

/-- A block in use that is not freed is not joined to another. -/
theorem mem_settle (listed : ptr ∈ blocks.map Block.payload) (fresh : ptr ∉ order)
    (used : ∀ block ∈ blocks, block.payload = ptr → block.free = false) :
    ptr ∈ (settle order blocks).map Block.payload := by
  induction blocks with
  | nil => exact listed
  | cons block rest inductionHypothesis =>
      obtain ⟨_, usedLater⟩ := List.forall_mem_cons.mp used
      cases rest with
      | nil => exact listed
      | cons next rest =>
          rw [List.map_cons, List.mem_cons] at listed
          by_cases joins : Joins order block next
          · obtain ⟨first, later, same, start, _⟩ := settle_head order next rest
            rw [settle_joined joins, same]
            rw [same] at inductionHypothesis
            rcases listed with rfl | behind
            · exact List.mem_cons_self
            · refine List.mem_cons_of_mem _ ?_
              rcases List.mem_cons.mp (inductionHypothesis behind usedLater) with here | there
              · -- The successor is free at that time, and this pointer is not freed.
                rw [payload_congr start] at here
                rcases joins.2 with free | earlier
                · rw [usedLater next (by simp) here.symm] at free
                  cases free
                · have below := List.idxOf_lt_length_of_mem joins.1
                  rw [← here, List.idxOf_eq_length fresh] at earlier
                  omega
              · exact there
          · rw [settle_apart joins]
            rcases listed with rfl | behind
            · exact List.mem_cons_self
            · exact List.mem_cons_of_mem _ (inductionHypothesis behind usedLater)

theorem freeBlock_split {before after : List Block}
    (distinct : ((before ++ block :: after).map Block.payload).Nodup) :
    freeBlock block.payload (before ++ block :: after) = before ++ block.freeInto after := by
  induction before with
  | nil => exact if_pos rfl
  | cons first before inductionHypothesis =>
      rw [List.cons_append, List.map_cons, List.nodup_cons] at distinct
      have other : first.payload ≠ block.payload := by
        intro same
        apply distinct.1
        rw [same]
        exact List.mem_map_of_mem (by simp)
      rw [List.cons_append, freeBlock_other other, inductionHypothesis distinct.2]
      rfl

/-- A pointer of a block in use is that of no free block. -/
theorem InUse.used (inUse : InUse blocks order) (distinct : (blocks.map Block.payload).Nodup)
    (member : ptr ∈ order) :
    ptr ∈ blocks.map Block.payload ∧
      ∀ block ∈ blocks, block.payload = ptr → block.free = false := by
  obtain ⟨owner, listed, rfl, used⟩ := inUse ptr member
  refine ⟨List.mem_map_of_mem listed, fun block inside same => ?_⟩
  rw [List.inj_on_of_nodup_map distinct inside listed same]
  exact used

/-- The heap list after any frees of different blocks in use. -/
theorem freeEach_spec {machine : Machine} (listed : Represents machine blocks)
    (spaced : Spaced blocks) (nonnull : (0 : UInt64) ∉ order) (once : order.Nodup)
    (inUse : InUse blocks order) :
    Represents (freeEach machine order) (settle order blocks) ∧
      Spaced (settle order blocks) := by
  have distinct := spaced.payload_nodup
  induction order using List.reverseRecOn with
  | nil =>
      rw [settle_nil]
      exact ⟨listed, spaced⟩
  | append_singleton order ptr inductionHypothesis =>
      obtain ⟨onceBefore, _, apart⟩ := List.nodup_append.mp once
      have fresh : ptr ∉ order := fun member => apart ptr member ptr (by simp) rfl
      obtain ⟨held, used⟩ :=
        inUse.used distinct (List.mem_append_right order (List.mem_singleton_self ptr))
      obtain ⟨settled, settledSpaced⟩ := inductionHypothesis
        (fun member => nonnull (List.mem_append_left _ member)) onceBefore
        (fun other member => inUse other (List.mem_append_left _ member))
      obtain ⟨block, inside, rfl⟩ := List.mem_map.mp (mem_settle held fresh used)
      obtain ⟨before, after, split⟩ := List.append_of_mem inside
      rw [settle_concat distinct fresh used, freeEach, List.foldl_append]
      rw [split] at settled settledSpaced ⊢
      rw [freeBlock_split settledSpaced.payload_nodup]
      have payload : block.payload ≠ 0 := fun zero => nonnull (by simp [zero])
      exact ⟨(free_spec settled settledSpaced payload).1, settledSpaced.freeInto⟩

/-! ### Two orders -/

/-- If both blocks are freed, the two orders free them in the same relative
order. -/
def SameOrder (first second : List UInt64) (block next : Block) : Prop :=
  block.payload ∈ first → next.payload ∈ first →
    (first.idxOf next.payload < first.idxOf block.payload ↔
      second.idxOf next.payload < second.idxOf block.payload)

section Orders

variable {first second : List UInt64}

theorem joins_iff_sameOrder (perm : first.Perm second)
    (used : next.payload ∈ first → next.free = false) :
    (Joins first block next ↔ Joins second block next) ↔ SameOrder first second block next := by
  rw [Joins, Joins, SameOrder, ← perm.mem_iff]
  by_cases freed : block.payload ∈ first
  · simp only [freed, true_and, true_imp_iff]
    by_cases nextFreed : next.payload ∈ first
    · simp [nextFreed, used nextFreed]
    · -- A successor that is not freed is free in both orders or in none.
      have nextKept : next.payload ∉ second := fun member => nextFreed (perm.mem_iff.mpr member)
      have bound := List.idxOf_lt_length_of_mem freed
      have otherBound := List.idxOf_lt_length_of_mem (perm.mem_iff.mp freed)
      rw [List.idxOf_eq_length nextFreed, List.idxOf_eq_length nextKept]
      refine iff_of_true (or_congr_right (iff_of_false (by omega) (by omega))) ?_
      exact fun member => absurd member nextFreed
  · simp [freed]

theorem block_congr {left right : Block} (addr : left.addr = right.addr)
    (size : left.size = right.size) (free : left.free = right.free) : left = right := by
  cases left
  cases right
  rw [Block.mk.injEq]
  exact ⟨addr, size, free⟩

/-- One boundary and the list behind it. -/
theorem settle_cons_eq_iff (perm : first.Perm second)
    (distinct : ((block :: next :: rest).map Block.payload).Nodup) :
    settle first (block :: next :: rest) = settle second (block :: next :: rest) ↔
      (Joins first block next ↔ Joins second block next) ∧
        settle first (next :: rest) = settle second (next :: rest) := by
  have alone : block.settled first = block.settled second := by
    simp only [Block.settled, perm.mem_iff]
  obtain ⟨left, leftLater, leftSame, leftStart, leftFlag⟩ := settle_head first next rest
  obtain ⟨right, rightLater, rightSame, rightStart, rightFlag⟩ := settle_head second next rest
  have behind := (List.nodup_cons.mp distinct).2
  -- Joined in one order only, the successor would have to appear behind itself.
  have differ : ∀ order other (start : Block) later, settle order (next :: rest) = start :: later →
      start.addr = next.addr → settle other (next :: rest) ≠ later := by
    intro order other start later same begins equal
    obtain ⟨head, tail, otherSame, otherStart, _⟩ := settle_head other next rest
    have kept := behind.sublist (settle_payloads order (next :: rest))
    rw [same, ← equal, otherSame, List.map_cons, List.map_cons, payload_congr begins,
      payload_congr otherStart] at kept
    exact (List.nodup_cons.mp kept).1 List.mem_cons_self
  by_cases leftJoins : Joins first block next
  · by_cases rightJoins : Joins second block next
    · rw [settle_joined leftJoins, settle_joined rightJoins, leftSame, rightSame]
      have flags : left.free = right.free := by
        rw [leftFlag, rightFlag]
        simp only [perm.mem_iff]
      constructor
      · intro equal
        obtain ⟨joined, later⟩ := List.cons.inj equal
        have sizes : left.size = right.size := by
          have sum := congrArg Block.size joined
          exact UInt64.add_right_inj _ |>.mp (UInt64.add_right_inj _ |>.mp sum)
        have same : left = right :=
          block_congr (leftStart.trans rightStart.symm) sizes flags
        exact ⟨iff_of_true leftJoins rightJoins, by rw [same, later]⟩
      · rintro ⟨_, equal⟩
        rw [equal]
    · rw [settle_joined leftJoins, settle_apart rightJoins, leftSame]
      refine iff_of_false (fun equal => ?_) fun both => rightJoins (both.1.mp leftJoins)
      exact differ first second left leftLater leftSame leftStart (List.cons.inj equal).2.symm
  · by_cases rightJoins : Joins second block next
    · rw [settle_apart leftJoins, settle_joined rightJoins, rightSame]
      refine iff_of_false (fun equal => ?_) fun both => leftJoins (both.1.mpr rightJoins)
      exact differ second first right rightLater rightSame rightStart (List.cons.inj equal).2
    · rw [settle_apart leftJoins, settle_apart rightJoins, alone, List.cons_inj_right]
      exact (and_iff_right (iff_of_false leftJoins rightJoins)).symm

/-- Two orders of the same frees leave the same list exactly when they agree on
all neighbours. -/
theorem settle_eq_iff (perm : first.Perm second) (distinct : (blocks.map Block.payload).Nodup)
    (used : ∀ block ∈ blocks, block.payload ∈ first → block.free = false) :
    settle first blocks = settle second blocks ↔ blocks.IsChain (SameOrder first second) := by
  induction blocks with
  | nil => exact iff_of_true rfl .nil
  | cons block rest inductionHypothesis =>
      cases rest with
      | nil =>
          refine iff_of_true ?_ (.singleton _)
          simp only [settle, Block.settled, perm.mem_iff]
      | cons next rest =>
          obtain ⟨_, usedLater⟩ := List.forall_mem_cons.mp used
          rw [settle_cons_eq_iff perm distinct, List.isChain_cons_cons,
            joins_iff_sameOrder perm (usedLater next (by simp)),
            inductionHypothesis (List.nodup_cons.mp distinct).2 usedLater]

end Orders

/-! ### All blocks freed -/

/-- One block is left exactly when every boundary disappears. -/
theorem settle_length_iff (order : List UInt64) (blocks : List Block) :
    (settle order blocks).length ≤ 1 ↔ blocks.IsChain (Joins order) := by
  induction blocks with
  | nil => exact iff_of_true (Nat.zero_le _) .nil
  | cons block rest inductionHypothesis =>
      cases rest with
      | nil => exact iff_of_true (Nat.le_refl _) (.singleton _)
      | cons next rest =>
          obtain ⟨first, later, same, _⟩ := settle_head order next rest
          rw [List.isChain_cons_cons, ← inductionHypothesis]
          by_cases joins : Joins order block next
          · rw [settle_joined joins, same, and_iff_right joins]
            rfl
          · rw [settle_apart joins, same]
            exact iff_of_false (by simp) fun both => joins both.1

/-- When every block in use is freed, all blocks left are free. -/
theorem settle_free (every : ∀ block ∈ blocks, block.free = false → block.payload ∈ order) :
    ∀ block ∈ settle order blocks, block.free = true := by
  have alone : ∀ block ∈ blocks, (block.settled order).free = true := by
    intro block member
    cases flag : block.free with
    | true => simp [Block.settled, flag]
    | false => simp [Block.settled, every block member flag]
  induction blocks with
  | nil => exact fun _ member => nomatch member
  | cons block rest inductionHypothesis =>
      obtain ⟨_, everyLater⟩ := List.forall_mem_cons.mp every
      obtain ⟨here, aloneLater⟩ := List.forall_mem_cons.mp alone
      cases rest with
      | nil => exact List.forall_mem_singleton.mpr here
      | cons next rest =>
          have behind := inductionHypothesis everyLater aloneLater
          by_cases joins : Joins order block next
          · obtain ⟨first, later, same, _⟩ := settle_head order next rest
            rw [settle_joined joins, same]
            rw [same] at behind
            exact List.forall_mem_cons.mpr ⟨rfl, (List.forall_mem_cons.mp behind).2⟩
          · rw [settle_apart joins]
            exact List.forall_mem_cons.mpr ⟨here, behind⟩

/-! ### Reachable heaps -/

/-- The state after legal calls with requests of at most 4072 bytes, each made
while a page of the address space is left. -/
def Reachable (state : HeapState) : Prop :=
  ∃ memory cr3 calls, run HeapState.call (freshHeap memory cr3) calls = state ∧
    Along HeapState.call (HeapState.Legal 4072) (freshHeap memory cr3) calls ∧
    Along HeapState.call (fun state _ => state.machine.nextFreePage.toNat + 4096 < 2 ^ 64)
      (freshHeap memory cr3) calls

theorem Reachable.heapOnly {state : HeapState} (reachable : Reachable state) :
    state.HeapOnly := by
  obtain ⟨memory, cr3, calls, rfl, legal, pages⟩ := reachable
  apply run_invariant _ HeapState.HeapOnly _ (freshHeap_heapOnly memory cr3) (legal.and pages)
  intro state next alone conditions
  exact (alone.call (legal_mono (by decide) conditions.1)
    (pageFits_of_legal conditions.1 conditions.2)).2

/-- For every reachable heap and every set of live allocations, two orders of
freeing them leave the same heap list exactly when they free every two neighbours
in the same relative order. When all are freed, one block is left exactly when
each block is freed while its successor is free. -/
theorem free_order_iff {state : HeapState} (reachable : Reachable state)
    {first second : List UInt64} (perm : first.Perm second) (once : first.Nodup)
    (live : ∀ ptr ∈ first, ptr ∈ state.live) :
    ∃ blocks left right, Represents state.machine blocks ∧
      Represents (freeEach state.machine first) left ∧
      Represents (freeEach state.machine second) right ∧
      (left = right ↔ blocks.IsChain (SameOrder first second)) ∧
      ((∀ ptr ∈ state.live, ptr ∈ first) →
        (∀ block ∈ left, block.free = true) ∧
          (left.length ≤ 1 ↔ blocks.IsChain (Joins first))) := by
  obtain ⟨stretches, ⟨laid, owns⟩, _⟩ := reachable.heapOnly
  have inUse : InUse (blocksOf stretches) first := by
    intro ptr member
    obtain ⟨block, listed, used, same⟩ := owns.of_mem (live ptr member)
    exact ⟨block, listed, same, used⟩
  have nonnull : (0 : UInt64) ∉ first := fun member => owns.ne_zero laid (live 0 member) rfl
  have distinct := laid.spaced.payload_nodup
  have leftList := freeEach_spec laid.listed laid.spaced nonnull once inUse
  have rightList := freeEach_spec laid.listed laid.spaced
    (fun member => nonnull (perm.mem_iff.mpr member)) (perm.nodup_iff.mp once)
    (fun ptr member => inUse ptr (perm.mem_iff.mpr member))
  refine ⟨blocksOf stretches, _, _, laid.listed, leftList.1, rightList.1, ?_, ?_⟩
  · apply settle_eq_iff perm distinct
    intro block listed member
    exact (inUse.used distinct member).2 block listed rfl
  · intro every
    refine ⟨settle_free ?_, settle_length_iff first _⟩
    intro block listed used
    apply every
    exact owns.mem_iff.mpr (List.mem_map_of_mem (mem_inUse.mpr ⟨listed, used⟩))

/-- Three blocks of 104 bytes and the rest of a page. -/
def threeCalls : List HeapCall := [.malloc 100, .malloc 100, .malloc 100]

def threeBlocks : HeapState := run HeapState.call (freshHeap (fun _ => 0) 0) threeCalls

theorem threeBlocks_reachable : Reachable threeBlocks :=
  ⟨fun _ => 0, 0, threeCalls, rfl, by decide +kernel, by decide +kernel⟩

theorem threeBlocks_live : threeBlocks.live = [0x400118, 0x400098, 0x400018] := by
  decide +kernel

/-- Both orders free the first block before the second, and the third before
the second. -/
theorem agreeing_orders :
    ∃ blocks left right, Represents threeBlocks.machine blocks ∧
      Represents (freeEach threeBlocks.machine [0x400018, 0x400118, 0x400098]) left ∧
      Represents (freeEach threeBlocks.machine [0x400118, 0x400018, 0x400098]) right ∧
      (left = right ↔ blocks.IsChain (SameOrder [0x400018, 0x400118, 0x400098]
        [0x400118, 0x400018, 0x400098])) ∧
      ((∀ ptr ∈ threeBlocks.live, ptr ∈ [0x400018, 0x400118, 0x400098]) →
        (∀ block ∈ left, block.free = true) ∧
          (left.length ≤ 1 ↔ blocks.IsChain (Joins [0x400018, 0x400118, 0x400098]))) :=
  free_order_iff threeBlocks_reachable (List.Perm.swap _ _ _) (by decide)
    (by rw [threeBlocks_live]; simp)

/-- From front to back nothing is joined before the last free; from back to front
every free joins. -/
theorem order_changes_list :
    ¬ ∀ state, Reachable state → ∀ first second : List UInt64, first.Perm second → first.Nodup →
      (∀ ptr ∈ first, ptr ∈ state.live) → ∀ left right,
        Represents (freeEach state.machine first) left →
          Represents (freeEach state.machine second) right → left = right := by
  intro always
  have forwards : Represents (freeEach threeBlocks.machine [0x400018, 0x400098, 0x400118])
      [⟨0x400000, 104, true⟩, ⟨0x400080, 104, true⟩, ⟨0x400100, 3816, true⟩] := by
    decide +kernel
  have backwards : Represents (freeEach threeBlocks.machine [0x400118, 0x400098, 0x400018])
      [⟨0x400000, 4072, true⟩] := by
    decide +kernel
  have same := always threeBlocks threeBlocks_reachable _ _ (by decide) (by decide)
    (by rw [threeBlocks_live]; simp) _ _ forwards backwards
  exact absurd same (by decide)

end NansOS.Heap
