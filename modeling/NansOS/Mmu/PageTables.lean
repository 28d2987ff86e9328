import NansOS.Kernel.Machine
import NansOS.Foundation.Words

/-! Owns the page tables of `mmu.c`: the three separately written walks
(`mmuMapPage`, `mmuIsMapped`, `mmuUnmapPage`), the walk of `mmuIsMapped`
extended to return the frame it ends at, and the tables that the boot loader
sets up. An entry is a 64-bit word of physical memory; `table[index]` is the
word at `table + 8 * index`. -/

namespace NansOS.Mmu

open NansOS.Foundation
open NansOS.Kernel

/-! ### Entries -/

/-- `PAGE_PRESENT`. -/
abbrev pagePresent : UInt64 := 0x001

/-- `PAGE_WRITABLE`. -/
abbrev pageWritable : UInt64 := 0x002

/-- `PAGE_USER`. -/
abbrev pageUser : UInt64 := 0x004

/-- `PAGE_HUGE`. -/
abbrev pageHuge : UInt64 := 0x080

/-- The index into the PML4, and below it into the page directory pointer
table, the page directory and the page table. -/
def pml4Idx (virt : UInt64) : UInt64 := (virt >>> 39) &&& 0x1FF

@[inherit_doc pml4Idx]
def pdpIdx (virt : UInt64) : UInt64 := (virt >>> 30) &&& 0x1FF

@[inherit_doc pml4Idx]
def pdIdx (virt : UInt64) : UInt64 := (virt >>> 21) &&& 0x1FF

@[inherit_doc pml4Idx]
def ptIdx (virt : UInt64) : UInt64 := (virt >>> 12) &&& 0x1FF

/-- `entry & ~0xFFF`: the address part of an entry. -/
def tableOf (entry : UInt64) : UInt64 := entry &&& ~~~0xFFF

/-- `table[index]`. -/
def entry (machine : Machine) (table index : UInt64) : UInt64 :=
  machine.memory.read64 (table.toNat + 8 * index.toNat)

/-- `table[index] = value`. -/
def setEntry (machine : Machine) (table index value : UInt64) : Machine :=
  { machine with memory := machine.memory.write64 (table.toNat + 8 * index.toNat) value }

/-! ### The three walks -/

/-- One of the three `Ensure ... exists` blocks of `mmu_map_page`: unless the
entry is present, link a new zeroed table with the flags of the mapping. -/
def ensureTable (machine : Machine) (table index flags : UInt64) : Machine :=
  if entry machine table index &&& pagePresent = 0 then
    let (page, allocated) := machine.mmuAllocPage
    let cleared := { allocated with memory := memset allocated.memory page.toNat 0 pageSize }
    setEntry cleared table index (page ||| flags)
  else machine

/-- `mmu_map_page`. -/
def mmuMapPage (machine : Machine) (phys virt flags : UInt64) : Machine :=
  if virt < 0x400000 then machine
  else
    let pml4 := machine.cr3
    let withPdp := ensureTable machine pml4 (pml4Idx virt) flags
    let pdp := tableOf (entry withPdp pml4 (pml4Idx virt))
    let withPd := ensureTable withPdp pdp (pdpIdx virt) flags
    let pd := tableOf (entry withPd pdp (pdpIdx virt))
    if entry withPd pd (pdIdx virt) &&& pageHuge ≠ 0 then withPd
    else
      let withPt := ensureTable withPd pd (pdIdx virt) flags
      let pt := tableOf (entry withPt pd (pdIdx virt))
      setEntry withPt pt (ptIdx virt) (phys ||| flags)

/-- `mmu_is_mapped`. -/
def mmuIsMapped (machine : Machine) (virt : UInt64) : Bool :=
  let pml4 := machine.cr3
  if entry machine pml4 (pml4Idx virt) &&& pagePresent = 0 then false
  else
    let pdp := tableOf (entry machine pml4 (pml4Idx virt))
    if entry machine pdp (pdpIdx virt) &&& pagePresent = 0 then false
    else
      let pd := tableOf (entry machine pdp (pdpIdx virt))
      if entry machine pd (pdIdx virt) &&& pageHuge ≠ 0 then true
      else if entry machine pd (pdIdx virt) &&& pagePresent = 0 then false
      else
        let pt := tableOf (entry machine pd (pdIdx virt))
        entry machine pt (ptIdx virt) &&& pagePresent ≠ 0

/-- The walk of `mmu_is_mapped`, returning the frame: the address part of a
page-table entry, or the page inside the two-megabyte frame of a huge entry. -/
def translate (machine : Machine) (virt : UInt64) : Option UInt64 :=
  let pml4 := machine.cr3
  if entry machine pml4 (pml4Idx virt) &&& pagePresent = 0 then none
  else
    let pdp := tableOf (entry machine pml4 (pml4Idx virt))
    if entry machine pdp (pdpIdx virt) &&& pagePresent = 0 then none
    else
      let pd := tableOf (entry machine pdp (pdpIdx virt))
      if entry machine pd (pdIdx virt) &&& pageHuge ≠ 0 then
        some ((entry machine pd (pdIdx virt) &&& ~~~0x1FFFFF) ||| (virt &&& 0x1FF000))
      else if entry machine pd (pdIdx virt) &&& pagePresent = 0 then none
      else
        let pt := tableOf (entry machine pd (pdIdx virt))
        if entry machine pt (ptIdx virt) &&& pagePresent = 0 then none
        else some (tableOf (entry machine pt (ptIdx virt)))

/-- `mmu_unmap_page`. Its walk starts at the fixed address `0x1000`. -/
def mmuUnmapPage (machine : Machine) (virt : UInt64) : Machine :=
  let pml4 := 0x1000
  if entry machine pml4 (pml4Idx virt) &&& pagePresent = 0 then machine
  else
    let pdp := tableOf (entry machine pml4 (pml4Idx virt))
    if entry machine pdp (pdpIdx virt) &&& pagePresent = 0 then machine
    else
      let pd := tableOf (entry machine pdp (pdpIdx virt))
      if entry machine pd (pdIdx virt) &&& pagePresent = 0 then machine
      else
        let pt := tableOf (entry machine pd (pdIdx virt))
        setEntry machine pt (ptIdx virt) 0

theorem isSome_translate (machine : Machine) (virt : UInt64) :
    (translate machine virt).isSome = mmuIsMapped machine virt := by
  simp only [translate, mmuIsMapped]
  split_ifs <;> simp_all

/-! ### The boot loader's tables -/

/-- One of the two loops of `set_up_page_tables`: `count` huge entries, the
first for physical address `base`. Each store writes the low half of an entry. -/
def mapP2Table (memory : Memory) (table : UInt32) (base : UInt32) : Nat → Memory
  | 0 => memory
  | count + 1 =>
      (mapP2Table memory table base count).write32 (table.toNat + 8 * count)
        ((0x200000 * UInt32.ofNat count + base) ||| 0b10000011)

/-- `set_up_page_tables`. -/
def setUpPageTables (memory : Memory) (l4 l3 l2 l22 : UInt32) : Memory :=
  let withL4 := memory.write32 l4.toNat (l3 ||| 0b11)
  let withL3 := withL4.write32 l3.toNat (l2 ||| 0b11)
  let withSecond := withL3.write32 (l3.toNat + 8) (l22 ||| 0b11)
  mapP2Table (mapP2Table withSecond l2 0 512) l22 0x40000000 512

/-- The kernel as `kernel_main` finds it: the boot tables in place, their root
in CR3, no page taken and no heap. -/
def bootMachine (memory : Memory) (l4 l3 l2 l22 : UInt32) : Machine where
  memory := setUpPageTables memory l4 l3 l2 l22
  cr3 := l4.toUInt64
  nextFreePage := 0x400000
  heapStart := 0

end NansOS.Mmu
