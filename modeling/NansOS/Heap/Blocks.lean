import NansOS.Heap.Allocator
import Mathlib.Order.CompletePartialOrder

/-! Owns the heap list: `Represents` relates the headers in memory to a list of
`Block`s, and `Spaced` says that the blocks lie apart, in ascending order and
inside the address space. `splitBlock` and the merge of `free` are specified as
functions on that list, with the bytes they may write. It does not own the
search for a block or the library calls. -/

namespace NansOS.Heap

open NansOS.Foundation
open NansOS.Kernel

/-! ### Blocks -/

/-- A block of the heap list. -/
structure Block where
  addr : UInt64
  size : UInt64
  free : Bool
deriving DecidableEq

namespace Block

/-- The address behind the payload. -/
def finish (block : Block) : Nat := block.addr.toNat + 24 + block.size.toNat

/-- The pointer that `malloc` returns for the block. -/
def payload (block : Block) : UInt64 := block.addr + headerSize

end Block

/-- The block whose header is at an address. -/
def blockAt (machine : Machine) (addr : UInt64) : Block where
  addr := addr
  size := blockSize machine addr
  free := blockIsFree machine addr ≠ 0

theorem blockAt_addr (machine : Machine) (addr : UInt64) : (blockAt machine addr).addr = addr :=
  rfl

/-- The heap list is `blocks`. -/
def Represents (machine : Machine) (blocks : List Block) : Prop :=
  LinkedList.Linked (blockAt machine) (blockNext machine) 0 machine.heapStart blocks

instance (machine : Machine) (blocks : List Block) : Decidable (Represents machine blocks) :=
  LinkedList.linkedDecidable ..

/-- Blocks in ascending order, apart from each other, inside the address space. -/
structure Spaced (blocks : List Block) : Prop where
  ordered : blocks.Pairwise fun left right => left.finish ≤ right.addr.toNat
  within : ∀ block ∈ blocks, block.finish ≤ 2 ^ 64

/-! ### Header fields -/

section Fields

variable (machine : Machine) (block value : UInt64) (flag : UInt32)

@[simp] theorem blockSize_setSize : blockSize (setSize machine block value) block = value :=
  Memory.read64_write64_same _ _ _

@[simp] theorem blockIsFree_setSize :
    blockIsFree (setSize machine block value) block = blockIsFree machine block :=
  Memory.read32_write64_disjoint _ _ (by omega)

@[simp] theorem blockNext_setSize :
    blockNext (setSize machine block value) block = blockNext machine block :=
  Memory.read64_write64_disjoint _ _ (by omega)

@[simp] theorem blockSize_setIsFree :
    blockSize (setIsFree machine block flag) block = blockSize machine block :=
  Memory.read64_write32_disjoint _ _ (by omega)

@[simp] theorem blockIsFree_setIsFree :
    blockIsFree (setIsFree machine block flag) block = flag :=
  Memory.read32_write32_same _ _ _

@[simp] theorem blockNext_setIsFree :
    blockNext (setIsFree machine block flag) block = blockNext machine block :=
  Memory.read64_write32_disjoint _ _ (by omega)

@[simp] theorem blockSize_setNext :
    blockSize (setNext machine block value) block = blockSize machine block :=
  Memory.read64_write64_disjoint _ _ (by omega)

@[simp] theorem blockIsFree_setNext :
    blockIsFree (setNext machine block value) block = blockIsFree machine block :=
  Memory.read32_write64_disjoint _ _ (by omega)

@[simp] theorem blockNext_setNext : blockNext (setNext machine block value) block = value :=
  Memory.read64_write64_same _ _ _

end Fields

/-- Two machines that differ at most in the bytes of a footprint. -/
structure SameBut (changed machine : Machine) (footprint : Set Nat) : Prop where
  memory : Set.EqOn changed.memory machine.memory footprintᶜ
  heapStart : changed.heapStart = machine.heapStart
  cr3 : changed.cr3 = machine.cr3
  nextFreePage : changed.nextFreePage = machine.nextFreePage

namespace SameBut

variable {machine middle changed : Machine} {footprint other : Set Nat}

theorem refl (machine : Machine) (footprint : Set Nat) : SameBut machine machine footprint :=
  ⟨fun _ _ => rfl, rfl, rfl, rfl⟩

theorem trans (second : SameBut changed middle footprint)
    (first : SameBut middle machine footprint) : SameBut changed machine footprint :=
  ⟨second.memory.trans first.memory, second.heapStart.trans first.heapStart,
    second.cr3.trans first.cr3, second.nextFreePage.trans first.nextFreePage⟩

theorem mono (same : SameBut changed machine footprint) (included : footprint ⊆ other) :
    SameBut changed machine other :=
  ⟨same.memory.mono (Set.compl_subset_compl.mpr included), same.heapStart, same.cr3,
    same.nextFreePage⟩

end SameBut

section Writes

variable (machine : Machine) (block value : UInt64) (flag : UInt32)

/-- The header at an address, as a set of bytes. -/
def headerBytes (block : UInt64) : Set Nat := Set.Ico block.toNat (block.toNat + 24)

theorem setSize_sameBut : SameBut (setSize machine block value) machine (headerBytes block) := by
  refine ⟨(Memory.write64_eqOn _ _ _).mono ?_, rfl, rfl, rfl⟩
  exact Set.compl_subset_compl.mpr (Set.Ico_subset_Ico (by omega) (by omega))

theorem setIsFree_sameBut :
    SameBut (setIsFree machine block flag) machine (headerBytes block) := by
  refine ⟨(Memory.write32_eqOn _ _ _).mono ?_, rfl, rfl, rfl⟩
  exact Set.compl_subset_compl.mpr (Set.Ico_subset_Ico (by omega) (by omega))

theorem setNext_sameBut : SameBut (setNext machine block value) machine (headerBytes block) := by
  refine ⟨(Memory.write64_eqOn _ _ _).mono ?_, rfl, rfl, rfl⟩
  exact Set.compl_subset_compl.mpr (Set.Ico_subset_Ico (by omega) (by omega))

end Writes

section Frames

variable {machine changed : Machine} {footprint : Set Nat}

/-- A header depends only on its bytes. -/
theorem header_congr {addr : UInt64}
    (agree : Set.EqOn changed.memory machine.memory (headerBytes addr)) :
    blockSize changed addr = blockSize machine addr ∧
      blockIsFree changed addr = blockIsFree machine addr ∧
      blockNext changed addr = blockNext machine addr :=
  ⟨Memory.read64_congr (agree.mono (Set.Ico_subset_Ico (by omega) (by omega))),
    Memory.read32_congr (agree.mono (Set.Ico_subset_Ico (by omega) (by omega))),
    Memory.read64_congr (agree.mono (Set.Ico_subset_Ico (by omega) (by omega)))⟩

theorem blockAt_congr {addr : UInt64}
    (agree : Set.EqOn changed.memory machine.memory (headerBytes addr)) :
    blockAt changed addr = blockAt machine addr := by
  obtain ⟨size, flag, -⟩ := header_congr agree
  rw [blockAt, blockAt, size, flag]

/-- The list depends only on the bytes of its headers. -/
theorem Represents.congr {blocks : List Block} (listed : Represents machine blocks)
    (heapStart : changed.heapStart = machine.heapStart)
    (agree : ∀ block ∈ blocks,
      Set.EqOn changed.memory machine.memory (headerBytes block.addr)) :
    Represents changed blocks := by
  unfold Represents
  rw [heapStart]
  exact LinkedList.Linked.congr (blockAt_addr machine) listed
    (fun block member => blockAt_congr (agree block member))
    (fun block member => (header_congr (agree block member)).2.2)

theorem SameBut.agree (same : SameBut changed machine footprint) {addr : UInt64}
    (apart : Disjoint (headerBytes addr) footprint) :
    Set.EqOn changed.memory machine.memory (headerBytes addr) :=
  same.memory.mono (Set.subset_compl_iff_disjoint_right.mpr apart)

theorem disjoint_header {addr : UInt64} {lower upper : Nat}
    (apart : addr.toNat + 24 ≤ lower ∨ upper ≤ addr.toNat) :
    Disjoint (headerBytes addr) (Set.Ico lower upper) := by
  rw [Set.disjoint_left]
  intro target inHeader inRange
  have inHeader := Set.mem_Ico.mp inHeader
  have inRange := Set.mem_Ico.mp inRange
  omega

variable {before after tail : List Block} {block : Block}

theorem Spaced.before_le (spaced : Spaced (before ++ block :: after)) {other : Block}
    (member : other ∈ before) : other.finish ≤ block.addr.toNat :=
  (List.pairwise_append.mp spaced.ordered).2.2 other member block (by simp)

theorem Spaced.le_after (spaced : Spaced (before ++ block :: after)) {other : Block}
    (member : other ∈ after) : block.finish ≤ other.addr.toNat :=
  (List.pairwise_cons.mp (List.pairwise_append.mp spaced.ordered).2.1).1 other member

/-- Two blocks of a list are one, or lie apart. -/
theorem Spaced.apart {blocks : List Block} (spaced : Spaced blocks) (member : block ∈ blocks)
    {other : Block} (listed : other ∈ blocks) :
    other = block ∨ other.finish ≤ block.addr.toNat ∨ block.finish ≤ other.addr.toNat := by
  obtain ⟨first, rest, rfl⟩ := List.append_of_mem member
  rcases List.mem_append.mp listed with earlier | later
  · exact .inr (.inl (spaced.before_le earlier))
  · rcases List.mem_cons.mp later with same | later
    · exact .inl same
    · exact .inr (.inr (spaced.le_after later))

theorem Spaced.middle_within (spaced : Spaced (before ++ block :: after)) :
    block.finish ≤ 2 ^ 64 :=
  spaced.within block (by simp)

section Middle

variable (listed : Represents machine (before ++ block :: after))
variable (spaced : Spaced (before ++ block :: after))
variable (same : SameBut changed machine (Set.Ico block.addr.toNat block.finish))

include listed

/-- What memory says about a block in the middle of the list. -/
theorem Represents.middle :
    block.addr ≠ 0 ∧ blockAt machine block.addr = block ∧
      LinkedList.Linked (blockAt machine) (blockNext machine) 0 (blockNext machine block.addr)
        after :=
  LinkedList.Linked.tail (blockAt_addr machine) listed

/-- A heap with a block has been started. -/
theorem Represents.started : machine.heapStart ≠ 0 := by
  intro empty
  unfold Represents at listed
  rw [empty] at listed
  cases before with
  | nil => exact listed.1 rfl
  | cons first rest => exact listed.1 rfl

include spaced same

/-- Writes inside a block keep the list behind it. -/
theorem Represents.after_kept :
    LinkedList.Linked (blockAt changed) (blockNext changed) 0 (blockNext machine block.addr)
      after := by
  have kept : ∀ other ∈ after,
      Set.EqOn changed.memory machine.memory (headerBytes other.addr) := fun other member =>
    same.agree (disjoint_header (.inr (spaced.le_after member)))
  exact listed.middle.2.2.congr (blockAt_addr machine)
    (fun other member => blockAt_congr (kept other member))
    (fun other member => (header_congr (kept other member)).2.2)

/-- Writes inside a block replace the list from that block on. -/
theorem Represents.replace
    (replaced : LinkedList.Linked (blockAt changed) (blockNext changed) 0 block.addr tail) :
    Represents changed (before ++ tail) := by
  have kept : ∀ other ∈ before,
      Set.EqOn changed.memory machine.memory (headerBytes other.addr) := fun other member => by
    have below := spaced.before_le member
    exact same.agree (disjoint_header (.inl (by unfold Block.finish at below; omega)))
  unfold Represents
  rw [same.heapStart]
  exact LinkedList.Linked.splice (blockAt_addr machine) listed
    (fun other member => blockAt_congr (kept other member))
    (fun other member => (header_congr (kept other member)).2.2) replaced

end Middle

end Frames

/-! ### Splitting -/

/-- `split_block` on the list: a free block is cut off when it would have room
for a header and 32 bytes. -/
def Block.split (block : Block) (size : UInt64) : List Block :=
  if size.toNat + 56 ≤ block.size.toNat then
    [{ block with size := size },
      { addr := block.addr + headerSize + size, size := block.size - size - headerSize,
        free := true }]
  else [block]

section Split

variable {block : Block} {size : UInt64}

/-- The addresses and sizes of a split do not wrap. -/
theorem split_toNat (room : size.toNat + 56 ≤ block.size.toNat) (within : block.finish ≤ 2 ^ 64) :
    (block.addr + headerSize + size).toNat = block.addr.toNat + 24 + size.toNat ∧
      (block.size - size - headerSize).toNat = block.size.toNat - size.toNat - 24 := by
  have small := block.size.toNat_lt
  unfold Block.finish at within
  have header : headerSize.toNat = 24 := rfl
  constructor
  · rw [UInt64.toNat_add, UInt64.toNat_add, header]
    omega
  · rw [UInt64.toNat_sub_of_le, UInt64.toNat_sub_of_le, header]
    · exact UInt64.le_iff_toNat_le.mpr (by omega)
    · rw [UInt64.le_iff_toNat_le,
        UInt64.toNat_sub_of_le _ _ (UInt64.le_iff_toNat_le.mpr (by omega)),
        header]
      omega

/-- Above the first 32 bytes of the address space, the test of `split_block`
does not wrap. -/
theorem split_guard (above : 32 < block.addr.toNat) (within : block.finish ≤ 2 ^ 64)
    (fitting : size.toNat ≤ block.size.toNat) :
    block.size ≥ size + headerSize + 32 ↔ size.toNat + 56 ≤ block.size.toNat := by
  unfold Block.finish at within
  have sum : (size + headerSize + 32).toNat = size.toNat + 56 := by
    rw [UInt64.toNat_add, UInt64.toNat_add]
    change ((size.toNat + 24) % 2 ^ 64 + 32) % 2 ^ 64 = _
    omega
  rw [ge_iff_le, UInt64.le_iff_toNat_le, sum]

end Split

section SplitBlock

variable {machine : Machine} {before after : List Block} {block : Block} {size : UInt64}

/-- The two headers that a split leaves. -/
private theorem splitBlock_headers (known : blockAt machine block.addr = block)
    (within : block.finish ≤ 2 ^ 64) (room : size.toNat + 56 ≤ block.size.toNat)
    (taken : block.size ≥ size + headerSize + 32) :
    SameBut (splitBlock machine block.addr size) machine
        (Set.Ico block.addr.toNat block.finish) ∧
      blockAt (splitBlock machine block.addr size) block.addr = { block with size := size } ∧
      blockNext (splitBlock machine block.addr size) block.addr =
        block.addr + headerSize + size ∧
      blockAt (splitBlock machine block.addr size) (block.addr + headerSize + size) =
        { addr := block.addr + headerSize + size, size := block.size - size - headerSize,
          free := true } ∧
      blockNext (splitBlock machine block.addr size) (block.addr + headerSize + size) =
        blockNext machine block.addr := by
  obtain ⟨newAddr, -⟩ := split_toNat room within
  have sizeKnown : blockSize machine block.addr = block.size := congrArg Block.size known
  have inside : block.addr.toNat + 48 + size.toNat ≤ block.finish := by
    unfold Block.finish
    omega
  unfold splitBlock
  rw [sizeKnown, if_pos taken]
  dsimp only
  generalize block.addr + headerSize + size = newBlock at *
  generalize block.size - size - headerSize = newSize at *
  -- First the new header is written, then two fields of the old one.
  have newPart : headerBytes newBlock ⊆ Set.Ico block.addr.toNat block.finish :=
    Set.Ico_subset_Ico (by omega) (by omega)
  have oldPart : headerBytes block.addr ⊆ Set.Ico block.addr.toNat block.finish :=
    Set.Ico_subset_Ico (by omega) (by omega)
  have headersApart : Disjoint (headerBytes block.addr) (headerBytes newBlock) :=
    disjoint_header (.inl (by omega))
  set freed := setIsFree (setSize machine newBlock newSize) newBlock 1 with freedDef
  have freedSame : SameBut freed machine (headerBytes newBlock) :=
    (setIsFree_sameBut _ _ _).trans (setSize_sameBut _ _ _)
  set linked := setNext freed newBlock (blockNext freed block.addr) with linkedDef
  have linkedSame : SameBut linked machine (headerBytes newBlock) :=
    (setNext_sameBut _ _ _).trans freedSame
  have shrunkSame : SameBut (setNext (setSize linked block.addr size) block.addr newBlock)
      linked (headerBytes block.addr) :=
    (setNext_sameBut _ _ _).trans (setSize_sameBut _ _ _)
  have oldKept : blockIsFree linked block.addr = blockIsFree machine block.addr :=
    (header_congr (linkedSame.agree headersApart)).2.1
  have newKept := shrunkSame.agree headersApart.symm
  refine ⟨(shrunkSame.mono oldPart).trans (linkedSame.mono newPart), ?_, by simp, ?_, ?_⟩
  · have flag : decide (blockIsFree machine block.addr ≠ 0) = block.free :=
      congrArg Block.free known
    rw [blockAt, blockSize_setNext, blockSize_setSize, blockIsFree_setNext, blockIsFree_setSize,
      oldKept, flag]
  · rw [blockAt_congr newKept, blockAt, linkedDef, blockSize_setNext, blockIsFree_setNext, freedDef,
      blockSize_setIsFree, blockSize_setSize, blockIsFree_setIsFree]
    rfl
  · rw [(header_congr newKept).2.2, linkedDef, blockNext_setNext,
      (header_congr (freedSame.agree headersApart)).2.2]

/-- `split_block` does to the list what `Block.split` says, inside the block. -/
theorem splitBlock_spec (listed : Represents machine (before ++ block :: after))
    (spaced : Spaced (before ++ block :: after)) (above : 32 < block.addr.toNat)
    (fitting : size.toNat ≤ block.size.toNat) :
    Represents (splitBlock machine block.addr size) (before ++ (block.split size ++ after)) ∧
      SameBut (splitBlock machine block.addr size) machine
        (Set.Ico block.addr.toNat block.finish) := by
  obtain ⟨nonzero, known, linked⟩ := listed.middle
  have within := spaced.middle_within
  have guard := split_guard above within fitting
  unfold Block.split
  by_cases room : size.toNat + 56 ≤ block.size.toNat
  · obtain ⟨same, old, oldNext, new, newNext⟩ :=
      splitBlock_headers known within room (guard.mpr room)
    have rest := listed.after_kept spaced same
    have newNonzero : block.addr + headerSize + size ≠ 0 := fun zero => by
      have newAddr := (split_toNat room within).1
      rw [zero, UInt64.toNat_zero] at newAddr
      omega
    rw [if_pos room]
    refine ⟨listed.replace spaced same ⟨nonzero, old, ?_⟩, same⟩
    rw [oldNext]
    refine ⟨newNonzero, new, ?_⟩
    rw [newNext]
    exact rest
  · have whole : ¬ blockSize machine block.addr ≥ size + headerSize + 32 := by
      rw [show blockSize machine block.addr = block.size from congrArg Block.size known]
      exact fun taken => room (guard.mp taken)
    rw [if_neg room, splitBlock, if_neg whole]
    exact ⟨listed, SameBut.refl _ _⟩

end SplitBlock

/-- The pieces of a split tile the block. -/
theorem Block.split_cases (block : Block) (size : UInt64) (within : block.finish ≤ 2 ^ 64) :
    block.split size = [block] ∨
      ∃ rest, block.split size = [{ block with size := size }, rest] ∧ rest.free = true ∧
        rest.addr.toNat = block.addr.toNat + 24 + size.toNat ∧ rest.finish = block.finish ∧
        size.toNat + 56 ≤ block.size.toNat := by
  unfold Block.split
  split_ifs with room
  · obtain ⟨newAddr, newSize⟩ := split_toNat room within
    refine .inr ⟨_, rfl, rfl, newAddr, ?_, room⟩
    unfold Block.finish
    rw [newAddr, newSize]
    omega
  · exact .inl rfl

/-! ### Spacing of changed lists -/

section Spacing

variable {before after : List Block} {block : Block}

/-- Replacing a block by pieces inside it keeps the blocks apart. -/
theorem Spaced.refine (spaced : Spaced (before ++ block :: after)) (pieces : List Block)
    (apart : pieces.Pairwise fun left right => left.finish ≤ right.addr.toNat)
    (inside : ∀ piece ∈ pieces,
      block.addr.toNat ≤ piece.addr.toNat ∧ piece.finish ≤ block.finish) :
    Spaced (before ++ (pieces ++ after)) := by
  obtain ⟨ordBefore, ordRest, -⟩ := List.pairwise_append.mp spaced.ordered
  have ordAfter := (List.pairwise_cons.mp ordRest).2
  constructor
  · refine List.pairwise_append.mpr ⟨ordBefore,
      List.pairwise_append.mpr ⟨apart, ordAfter, fun piece member other later => ?_⟩,
      fun other earlier item member => ?_⟩
    · exact (inside piece member).2.trans (spaced.le_after later)
    · have lower := spaced.before_le earlier
      rcases List.mem_append.mp member with piece | later
      · exact lower.trans (inside item piece).1
      · have upper := spaced.le_after later
        unfold Block.finish at upper
        omega
  · intro item member
    rcases List.mem_append.mp member with earlier | rest
    · exact spaced.within item (by simp [earlier])
    · rcases List.mem_append.mp rest with piece | later
      · exact (inside item piece).2.trans spaced.middle_within
      · exact spaced.within item (by simp [later])

theorem Spaced.split (spaced : Spaced (before ++ block :: after)) (size : UInt64) :
    Spaced (before ++ (block.split size ++ after)) := by
  rcases block.split_cases size spaced.middle_within with whole | ⟨rest, cut, -, start, ends, room⟩
  · rw [whole]
    exact spaced
  · rw [cut]
    refine spaced.refine _ ?_ ?_
    · simp only [List.pairwise_cons, List.mem_singleton, forall_eq, List.not_mem_nil,
        false_imp_iff, implies_true, List.Pairwise.nil, and_true]
      exact start.ge
    · simp only [List.forall_mem_cons, List.not_mem_nil, false_imp_iff, implies_true, and_true]
      refine ⟨⟨le_rfl, ?_⟩, by omega, ends.le⟩
      unfold Block.finish
      change block.addr.toNat + 24 + size.toNat ≤ _
      omega

end Spacing

/-! ### Freeing -/

/-- `free` on the list from the freed block on: the block is free, and joined
with its successor if that is free. -/
def Block.freeInto (block : Block) : List Block → List Block
  | [] => [{ block with free := true }]
  | next :: rest =>
      if next.free then
        { addr := block.addr, size := block.size + (headerSize + next.size), free := true } :: rest
      else { block with free := true } :: next :: rest

theorem Block.payload_sub (block : Block) : block.payload - headerSize = block.addr :=
  UInt64.add_sub_cancel block.addr headerSize

theorem headerBytes_subset (block : Block) :
    headerBytes block.addr ⊆ Set.Ico block.addr.toNat block.finish :=
  Set.Ico_subset_Ico le_rfl (by unfold Block.finish; omega)

section Free

variable {machine : Machine} {before after : List Block} {block : Block}
variable (listed : Represents machine (before ++ block :: after))
variable (spaced : Spaced (before ++ block :: after))

include listed spaced

/-- Setting the flag of a block. -/
theorem setIsFree_spec (flag : UInt32) :
    Represents (setIsFree machine block.addr flag)
        (before ++ { block with free := flag ≠ 0 } :: after) ∧
      SameBut (setIsFree machine block.addr flag) machine (headerBytes block.addr) := by
  obtain ⟨nonzero, known, -⟩ := listed.middle
  have same := setIsFree_sameBut machine block.addr flag
  have wide := same.mono (headerBytes_subset block)
  refine ⟨listed.replace spaced wide ⟨nonzero, ?_, ?_⟩, same⟩
  · have size : blockSize machine block.addr = block.size := congrArg Block.size known
    rw [blockAt, blockSize_setIsFree, blockIsFree_setIsFree, size]
  · rw [blockNext_setIsFree]
    exact listed.after_kept spaced wide

end Free

section Join

variable {machine : Machine} {before rest : List Block} {block next : Block}
variable (listed : Represents machine (before ++ block :: next :: rest))
variable (spaced : Spaced (before ++ block :: next :: rest))

include spaced

/-- The header of the next block lies behind the one in hand. -/
theorem disjoint_nextHeader : Disjoint (headerBytes next.addr) (headerBytes block.addr) := by
  have later : next ∈ next :: rest := by simp
  have behind := spaced.le_after later
  unfold Block.finish at behind
  exact disjoint_header (.inr (by omega))

include listed

/-- Size and successor of a freed block when it takes in the next one. -/
theorem join_spec :
    let joined := block.size + (headerSize + next.size)
    let merged := setNext (setSize (setIsFree machine block.addr 1) block.addr joined) block.addr
      (blockNext machine next.addr)
    Represents merged (before ++ { addr := block.addr, size := joined, free := true } :: rest) ∧
      SameBut merged machine (headerBytes block.addr) := by
  intro joined merged
  obtain ⟨nonzero, known, linked⟩ := listed.middle
  have toNext : blockNext machine block.addr = next.addr :=
    linked.start_eq (blockAt_addr machine)
  have same : SameBut merged machine (headerBytes block.addr) :=
    ((setNext_sameBut _ _ _).trans (setSize_sameBut _ _ _)).trans (setIsFree_sameBut _ _ _)
  have wide := same.mono (headerBytes_subset block)
  have kept := listed.after_kept spaced wide
  rw [toNext] at kept
  refine ⟨listed.replace spaced wide ⟨nonzero, ?_, ?_⟩, same⟩
  · rw [blockAt, blockSize_setNext, blockIsFree_setNext, blockSize_setSize,
      blockIsFree_setSize, blockIsFree_setIsFree]
    rfl
  · rw [blockNext_setNext]
    have later := kept.2.2
    rwa [(header_congr (same.agree (disjoint_nextHeader spaced))).2.2] at later

end Join

section Free

variable {machine : Machine} {before after : List Block} {block : Block}
variable (listed : Represents machine (before ++ block :: after))
variable (spaced : Spaced (before ++ block :: after))

include listed spaced

/-- `free` does to the list what `Block.freeInto` says, in the block's header. -/
theorem free_spec (nonnull : block.payload ≠ 0) :
    Represents (free machine block.payload) (before ++ block.freeInto after) ∧
      SameBut (free machine block.payload) machine (headerBytes block.addr) := by
  obtain ⟨freedList, freedSame⟩ := setIsFree_spec listed spaced 1
  obtain ⟨nonzero, known, linked⟩ := listed.middle
  unfold free
  rw [if_neg nonnull, block.payload_sub]
  dsimp only
  rw [blockNext_setIsFree]
  cases after with
  | nil =>
      have ended : blockNext machine block.addr = 0 := linked
      rw [if_neg fun both => both.1 ended]
      exact ⟨freedList, freedSame⟩
  | cons next rest =>
      have toNext : blockNext machine block.addr = next.addr :=
        linked.start_eq (blockAt_addr machine)
      have nextNonzero : next.addr ≠ 0 := toNext ▸ linked.1
      have nextKnown : blockAt machine next.addr = next := toNext ▸ linked.2.1
      have nextFlag : decide (blockIsFree machine next.addr ≠ 0) = next.free :=
        congrArg Block.free nextKnown
      have nextSize : blockSize machine next.addr = next.size := congrArg Block.size nextKnown
      have blockSizeKnown : blockSize machine block.addr = block.size :=
        congrArg Block.size known
      have apart := disjoint_nextHeader spaced
      obtain ⟨sizeKept, flagKept, -⟩ := header_congr (freedSame.agree apart)
      rw [toNext, flagKept, Block.freeInto]
      by_cases nextFree : next.free = true
      · have flagged : blockIsFree machine next.addr ≠ 0 := by
          rw [nextFree] at nextFlag
          exact of_decide_eq_true nextFlag
        have mergedSame := (setSize_sameBut (setIsFree machine block.addr 1) block.addr
          (block.size + (headerSize + next.size))).trans freedSame
        rw [if_pos nextFree, if_pos ⟨nextNonzero, flagged⟩, blockNext_setSize,
          blockNext_setIsFree, toNext, blockSize_setIsFree, blockSizeKnown,
          sizeKept, nextSize, (header_congr (mergedSame.agree apart)).2.2]
        exact join_spec listed spaced
      · have unflagged : ¬ (next.addr ≠ 0 ∧ blockIsFree machine next.addr ≠ 0) := by
          intro both
          rw [decide_eq_true both.2] at nextFlag
          exact nextFree nextFlag.symm
        rw [if_neg nextFree, if_neg unflagged]
        exact ⟨freedList, freedSame⟩

end Free

section FreeSpacing

variable {before after : List Block} {block : Block}

theorem merge_toNat {next : Block} {rest : List Block}
    (spaced : Spaced (before ++ block :: next :: rest)) :
    (block.size + (headerSize + next.size)).toNat =
      block.size.toNat + 24 + next.size.toNat := by
  have gap := spaced.le_after (show next ∈ next :: rest by simp)
  have within := spaced.within next (by simp)
  have header : headerSize.toNat = 24 := rfl
  unfold Block.finish at gap within
  rw [UInt64.toNat_add, UInt64.toNat_add, header]
  omega

theorem Spaced.setFree (spaced : Spaced (before ++ block :: after)) (flag : Bool) :
    Spaced (before ++ { block with free := flag } :: after) :=
  spaced.refine [{ block with free := flag }] (List.pairwise_singleton _ _)
    (by simp [Block.finish])

/-- Freeing keeps the blocks apart, also when it joins blocks with a gap
between them. -/
theorem Spaced.freeInto (spaced : Spaced (before ++ block :: after)) :
    Spaced (before ++ block.freeInto after) := by
  cases after with
  | nil => exact spaced.setFree true
  | cons next rest =>
      rw [Block.freeInto]
      split_ifs with nextFree
      · have sum := merge_toNat spaced
        have gap := spaced.le_after (show next ∈ next :: rest by simp)
        obtain ⟨ordBefore, ordRest, -⟩ := List.pairwise_append.mp spaced.ordered
        obtain ⟨afterNext, ordTail⟩ := List.pairwise_cons.mp (List.pairwise_cons.mp ordRest).2
        -- The joined block ends where its successor did, or earlier.
        have ends : Block.finish ⟨block.addr, block.size + (headerSize + next.size), true⟩ ≤
            next.finish := by
          unfold Block.finish at gap
          change block.addr.toNat + 24 + (block.size + (headerSize + next.size)).toNat ≤
            next.addr.toNat + 24 + next.size.toNat
          rw [sum]
          omega
        refine ⟨List.pairwise_append.mpr ⟨ordBefore, List.pairwise_cons.mpr
          ⟨fun other later => ends.trans (afterNext other later), ordTail⟩, ?_⟩, ?_⟩
        · intro other earlier item member
          rcases List.mem_cons.mp member with rfl | later
          · exact spaced.before_le earlier
          · exact (List.pairwise_append.mp spaced.ordered).2.2 other earlier item (by simp [later])
        · intro item member
          rcases List.mem_append.mp member with earlier | rest
          · exact spaced.within item (by simp [earlier])
          · rcases List.mem_cons.mp rest with rfl | later
            · exact ends.trans (spaced.within next (by simp))
            · exact spaced.within item (by simp [later])
      · exact spaced.setFree true

end FreeSpacing

/-- Blocks that lie apart have different payloads. -/
theorem Spaced.payload_nodup {blocks : List Block} (spaced : Spaced blocks) :
    (blocks.map Block.payload).Nodup := by
  refine List.pairwise_map.mpr (spaced.ordered.imp ?_)
  intro left right apart same
  have addresses : left.addr = right.addr := by
    rw [← left.payload_sub, same, right.payload_sub]
  unfold Block.finish at apart
  rw [addresses] at apart
  omega

/-- There are fewer blocks than addresses. -/
theorem Spaced.length_lt {blocks : List Block} (spaced : Spaced blocks) :
    blocks.length < addressCount := by
  have counted : ∀ (blocks : List Block) (lower : Nat), Spaced blocks → lower ≤ 2 ^ 64 →
      (∀ block ∈ blocks, lower ≤ block.addr.toNat) → blocks.length * 24 + lower ≤ 2 ^ 64 := by
    intro blocks
    induction blocks with
    | nil => intro lower _ bound _; simpa using bound
    | cons block rest inductionHypothesis =>
        intro lower spaced bound above
        have within := spaced.within block (by simp)
        have first := above block (by simp)
        have ordered := List.pairwise_cons.mp spaced.ordered
        unfold Block.finish at within
        have later := inductionHypothesis (block.addr.toNat + 24)
          ⟨ordered.2, fun other member => spaced.within other (by simp [member])⟩ (by omega)
          (fun other member => by
            have := ordered.1 other member
            unfold Block.finish at this
            omega)
        simp only [List.length_cons]
        omega
  have bound := counted blocks 0 spaced (by omega) (fun _ _ => Nat.zero_le _)
  unfold addressCount
  omega

end NansOS.Heap
