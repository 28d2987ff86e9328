import NansOS.Kernel.StringOps

/-! Owns the machine that the memory manager and the heap share: physical
memory, the page-table root in CR3, and the two static variables
`next_free_page` of `mmu.c` and `heap_start` of `stdlib.c`. Kernel accesses go
through the boot identity map, so an address is used as it stands.
`mmuAllocPage` is the only source of pages for both. The variables
`heap_start`, `heap_current` and `heap_end` of `mmu.c`, which no function
reads, are left out. -/

namespace NansOS.Kernel

open NansOS.Foundation

/-- `PAGE_SIZE`. -/
abbrev pageSize : Nat := 4096

/-- The state that `mmu.c` and `stdlib.c` read and write. -/
structure Machine where
  memory : Memory
  cr3 : UInt64
  nextFreePage : UInt64
  heapStart : UInt64

namespace Machine

/-- `mmu_alloc_page`: the next page, zeroed. -/
def mmuAllocPage (machine : Machine) : UInt64 × Machine :=
  (machine.nextFreePage,
    { machine with
      nextFreePage := machine.nextFreePage + UInt64.ofNat pageSize
      memory := memset machine.memory machine.nextFreePage.toNat 0 pageSize })

variable (machine : Machine)

@[simp] theorem mmuAllocPage_page : machine.mmuAllocPage.1 = machine.nextFreePage := rfl

@[simp] theorem mmuAllocPage_cr3 : machine.mmuAllocPage.2.cr3 = machine.cr3 := rfl

@[simp] theorem mmuAllocPage_heapStart :
    machine.mmuAllocPage.2.heapStart = machine.heapStart := rfl

theorem mmuAllocPage_memory (target : Nat) :
    machine.mmuAllocPage.2.memory target =
      if machine.nextFreePage.toNat ≤ target ∧
          target < machine.nextFreePage.toNat + pageSize then 0
      else machine.memory target :=
  memset_apply _ _ _ _ _

theorem mmuAllocPage_eqOn :
    Set.EqOn machine.mmuAllocPage.2.memory machine.memory
      (Set.Ico machine.nextFreePage.toNat (machine.nextFreePage.toNat + pageSize))ᶜ :=
  memset_eqOn _ _ _ _

theorem mmuAllocPage_nextFreePage (room : machine.nextFreePage.toNat + pageSize < 2 ^ 64) :
    machine.mmuAllocPage.2.nextFreePage.toNat = machine.nextFreePage.toNat + pageSize := by
  simp only [mmuAllocPage, UInt64.toNat_add, UInt64.toNat_ofNat', pageSize, Nat.reducePow,
    Nat.reduceMod] at room ⊢
  omega

end Machine

end NansOS.Kernel
