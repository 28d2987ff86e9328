import NansOS.Heap.Runs

/-! Owns the ownership of heap memory: in a run whose new pages hold the
requests they are taken for, every live allocation lies in the pages handed out
so far, and any two lie apart with their headers. A request that does not fit a
page is given one page all the same, and its block reaches into memory that was
never handed out. -/

namespace NansOS.Heap

open NansOS.Foundation
open NansOS.Kernel

/-- `block->size` of the block with this payload. -/
def payloadSize (machine : Machine) (ptr : UInt64) : Nat :=
  (blockSize machine (ptr - headerSize)).toNat

/-- The payload lies in the pages that `mmu_alloc_page` has returned, which run
from the first page to the next free one, and so does the header before it. -/
def InsidePages (machine : Machine) (ptr : UInt64) : Prop :=
  firstPage + 24 ≤ ptr.toNat ∧
    ptr.toNat + payloadSize machine ptr ≤ machine.nextFreePage.toNat

/-- Two payloads with their headers lie apart. -/
def PayloadsApart (machine : Machine) (left right : UInt64) : Prop :=
  left.toNat + payloadSize machine left + 24 ≤ right.toNat ∨
    right.toNat + payloadSize machine right + 24 ≤ left.toNat

/-- Every live allocation owns its memory. -/
structure HeapState.Owned (state : HeapState) : Prop where
  inside : ∀ ptr ∈ state.live, InsidePages state.machine ptr
  apart : state.live.Pairwise (PayloadsApart state.machine)

section Owned

variable {state : HeapState} {stretches : List Stretch}

theorem Laid.payloadSize_eq {machine : Machine} {block : Block}
    (laid : Laid machine stretches) (member : block ∈ blocksOf stretches) :
    payloadSize machine block.payload = block.size.toNat := by
  have size : blockSize machine block.addr = block.size :=
    congrArg Block.size (laid.block_known member)
  rw [payloadSize, block.payload_sub, size]

/-- A block of the layout owns its payload. -/
theorem Laid.payload_extent {machine : Machine} {block : Block}
    (laid : Laid machine stretches) (member : block ∈ blocksOf stretches) :
    block.payload.toNat + payloadSize machine block.payload = block.finish := by
  rw [laid.payloadSize_eq member, laid.payload_toNat member]
  rfl

/-- The live allocations of a laid out heap own their memory. -/
theorem HeapState.LaidOut.owned (laidOut : state.LaidOut stretches) : state.Owned := by
  obtain ⟨laid, owns⟩ := laidOut
  constructor
  · intro ptr member
    obtain ⟨block, listed, _, rfl⟩ := owns.of_mem member
    have bounds := laid.bounds listed
    have extent := laid.payload_extent listed
    rw [InsidePages, extent, laid.payload_toNat listed]
    exact ⟨Nat.add_le_add_right bounds.1 24, bounds.2⟩
  · -- Apartness is symmetric, so it may be read off in list order.
    refine owns.symm.pairwise (List.pairwise_map.mpr ?_) fun apart => apart.symm
    refine (laid.spaced.ordered.filter _).imp_of_mem ?_
    intro left right leftUsed rightUsed ordered
    have leftListed := (mem_inUse.mp leftUsed).1
    have rightListed := (mem_inUse.mp rightUsed).1
    left
    rw [laid.payload_extent leftListed, laid.payload_toNat rightListed]
    omega

end Owned

/-- In every run of legal calls whose new pages hold the requests they are
taken for, every call returns and every live allocation owns its memory. -/
theorem allocations_owned (memory : Memory) (cr3 : UInt64) (calls : List HeapCall)
    (legal : Along HeapState.call (HeapState.Legal (2 ^ 32)) (freshHeap memory cr3) calls)
    (fits : Along HeapState.call HeapState.PageFits (freshHeap memory cr3) calls) :
    Along HeapState.call HeapState.Returns (freshHeap memory cr3) calls ∧
      Throughout HeapState.call HeapState.Owned (freshHeap memory cr3) calls := by
  have start := freshHeap_heapOnly memory cr3
  have admitted := legal.and fits
  have kept : ∀ state next, HeapState.HeapOnly state →
      state.Legal (2 ^ 32) next ∧ state.PageFits next → (state.call next).HeapOnly :=
    fun _ _ alone conditions => (alone.call (legal_mono (by decide) conditions.1) conditions.2).2
  constructor
  · exact along_of_invariant kept
      (fun _ _ alone conditions =>
        (alone.call (legal_mono (by decide) conditions.1) conditions.2).1) start admitted
  · apply throughout_iff.mpr
    constructor
    · exact (freshHeap_laidOut memory cr3).owned
    · apply along_of_invariant kept _ start admitted
      intro state next alone conditions
      obtain ⟨stretches, laidOut, _⟩ := kept state next alone conditions
      exact laidOut.owned

/-- Blocks are split, joined and moved. -/
def busyCalls : List HeapCall :=
  [.malloc 100, .calloc 20 10, .free 0x400018, .malloc 40, .realloc 0x400018 64,
    .realloc 0x400098 3000, .malloc 4072, .free 0x401018]

theorem busyCalls_admitted :
    Along HeapState.call (fun state next => state.Legal 4072 next ∧ state.PageFits next)
      (freshHeap (fun _ => 0) 0) busyCalls := by
  decide +kernel

/-- The requests are small for every larger limit too. -/
theorem busyCalls_legal {limit : Nat} (bound : 4072 ≤ limit) :
    Along HeapState.call (HeapState.Legal limit) (freshHeap (fun _ => 0) 0) busyCalls :=
  (along_and_iff.mp busyCalls_admitted).1.imp fun _ _ small => legal_mono bound small

theorem busyCalls_fits :
    Along HeapState.call HeapState.PageFits (freshHeap (fun _ => 0) 0) busyCalls :=
  (along_and_iff.mp busyCalls_admitted).2

/-- What the calls leave: a live allocation, and two pages handed out. -/
theorem busyCalls_reached :
    0x400178 ∈ (run HeapState.call (freshHeap (fun _ => 0) 0) busyCalls).live ∧
      (run HeapState.call (freshHeap (fun _ => 0) 0) busyCalls).machine.nextFreePage =
        0x402000 := by
  decide +kernel

theorem busyCalls_owned :
    Along HeapState.call HeapState.Returns (freshHeap (fun _ => 0) 0) busyCalls ∧
      Throughout HeapState.call HeapState.Owned (freshHeap (fun _ => 0) 0) busyCalls :=
  allocations_owned (fun _ => 0) 0 busyCalls (busyCalls_legal (by decide)) busyCalls_fits

/-- A request of 5000 bytes gets a block of 5000 bytes in a page of 4096. -/
theorem large_request_not_owned :
    Along HeapState.call (HeapState.Legal (2 ^ 32)) (freshHeap (fun _ => 0) 0)
        [.malloc 5000] ∧
      ¬ Throughout HeapState.call HeapState.Owned (freshHeap (fun _ => 0) 0) [.malloc 5000] := by
  constructor
  · decide +kernel
  · intro owned
    have allocated : 0x400018 ∈
        (HeapState.call (freshHeap (fun _ => 0) 0) (.malloc 5000)).live := by decide +kernel
    have beyond : ¬ 0x400018 +
        payloadSize (HeapState.call (freshHeap (fun _ => 0) 0) (.malloc 5000)).machine 0x400018 ≤
        (HeapState.call (freshHeap (fun _ => 0) 0) (.malloc 5000)).machine.nextFreePage.toNat := by
      decide +kernel
    exact beyond (owned.2.inside _ allocated).2

end NansOS.Heap
