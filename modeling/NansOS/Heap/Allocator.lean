import NansOS.Kernel.Machine
import NansOS.Foundation.LinkedList

/-! Owns the allocator of `stdlib.c`: `malloc`, `free`, `calloc` and `realloc`
over block headers in raw memory. A header holds `size` at offset 0, the 32-bit
`is_free` at offset 8 and `next` at offset 16; a block pointer is the address
of its header. Every statement of the source is one update of the machine, in
source order. A call that returns nothing is one whose search loop never ends. -/

namespace NansOS.Heap

open NansOS.Foundation
open NansOS.Kernel

/-! ### Block headers -/

/-- `sizeof(struct MemBlock)`. -/
abbrev headerSize : UInt64 := 24

/-- `MIN_ALLOC`. -/
abbrev minAlloc : UInt64 := 4096

/-- `block->size`. -/
def blockSize (machine : Machine) (block : UInt64) : UInt64 :=
  machine.memory.read64 block.toNat

/-- `block->is_free`. -/
def blockIsFree (machine : Machine) (block : UInt64) : UInt32 :=
  machine.memory.read32 (block.toNat + 8)

/-- `block->next`. -/
def blockNext (machine : Machine) (block : UInt64) : UInt64 :=
  machine.memory.read64 (block.toNat + 16)

/-- `block->size = value`. -/
def setSize (machine : Machine) (block value : UInt64) : Machine :=
  { machine with memory := machine.memory.write64 block.toNat value }

/-- `block->is_free = value`. -/
def setIsFree (machine : Machine) (block : UInt64) (value : UInt32) : Machine :=
  { machine with memory := machine.memory.write32 (block.toNat + 8) value }

/-- `block->next = value`. -/
def setNext (machine : Machine) (block value : UInt64) : Machine :=
  { machine with memory := machine.memory.write64 (block.toNat + 16) value }

/-! ### The static functions -/

/-- `init_block`, whose result is its first argument. -/
def initBlock (machine : Machine) (addr size : UInt64) : Machine :=
  let sized := setSize machine addr (size - headerSize)
  let freed := setIsFree sized addr 1
  setNext freed addr 0

/-- The number of 64-bit addresses. A walk through non-null links that takes
more steps has met an address twice and never ends. -/
@[irreducible] def addressCount : Nat := 2 ^ 64

/-- The test of the loop in `find_free_block`. -/
def fits (machine : Machine) (size block : UInt64) : Bool :=
  blockIsFree machine block ≠ 0 ∧ blockSize machine block ≥ size

/-- `find_free_block`: the final `last` and `current`. -/
def findFreeBlock (machine : Machine) (size : UInt64) : Option (UInt64 × UInt64) :=
  LinkedList.find (fits machine size) (blockNext machine) 0 addressCount 0 machine.heapStart

/-- `split_block`. -/
def splitBlock (machine : Machine) (block size : UInt64) : Machine :=
  if blockSize machine block ≥ size + headerSize + 32 then
    let newBlock := block + headerSize + size
    let sized := setSize machine newBlock (blockSize machine block - size - headerSize)
    let freed := setIsFree sized newBlock 1
    let linked := setNext freed newBlock (blockNext freed block)
    let shrunk := setSize linked block size
    setNext shrunk block newBlock
  else machine

/-! ### The library calls -/

/-- `(size + 7) & ~7`. -/
def alignSize (size : UInt64) : UInt64 := (size + 7) &&& ~~~7

/-- `alloc_size`: the size of a new block with its header, at least `MIN_ALLOC`. -/
def allocSize (size : UInt64) : UInt64 :=
  if size + headerSize < minAlloc then minAlloc else size + headerSize

/-- The end of `malloc`: split the block, mark it used and return its payload. -/
def takeBlock (machine : Machine) (block size : UInt64) : UInt64 × Machine :=
  (block + headerSize, setIsFree (splitBlock machine block size) block 0)

/-- `malloc`. The result is the returned pointer and the machine. -/
def malloc (machine : Machine) (request : UInt64) : Option (UInt64 × Machine) :=
  if request = 0 then some (0, machine)
  else
    let size := alignSize request
    if machine.heapStart = 0 then
      let (page, allocated) := machine.mmuAllocPage
      if page = 0 then some (0, allocated)
      else
        let started := { initBlock allocated page (allocSize size) with heapStart := page }
        some (takeBlock started page size)
    else
      (findFreeBlock machine size).map fun (last, block) =>
        if block = 0 then
          let (page, allocated) := machine.mmuAllocPage
          if page = 0 then (0, allocated)
          else
            let linked := setNext (initBlock allocated page (allocSize size)) last page
            takeBlock linked page size
        else takeBlock machine block size

/-- `free`. -/
def free (machine : Machine) (ptr : UInt64) : Machine :=
  if ptr = 0 then machine
  else
    let block := ptr - headerSize
    let freed := setIsFree machine block 1
    let next := blockNext freed block
    if next ≠ 0 ∧ blockIsFree freed next ≠ 0 then
      let merged :=
        setSize freed block (blockSize freed block + (headerSize + blockSize freed next))
      setNext merged block (blockNext merged (blockNext merged block))
    else freed

/-- `calloc`. -/
def calloc (machine : Machine) (nmemb size : UInt64) : Option (UInt64 × Machine) :=
  let total := nmemb * size
  (malloc machine total).map fun (ptr, allocated) =>
    if ptr = 0 then (0, allocated)
    else (ptr, { allocated with memory := memset allocated.memory ptr.toNat 0 total.toNat })

/-- `realloc`. -/
def realloc (machine : Machine) (ptr size : UInt64) : Option (UInt64 × Machine) :=
  if ptr = 0 then malloc machine size
  else if size = 0 then some (0, free machine ptr)
  else
    let block := ptr - headerSize
    if blockSize machine block ≥ size then some (ptr, splitBlock machine block size)
    else
      (malloc machine size).map fun (newPtr, allocated) =>
        if newPtr = 0 then (0, allocated)
        else
          let copied := { allocated with
            memory := memcpy allocated.memory newPtr.toNat ptr.toNat
              (blockSize allocated block).toNat }
          (newPtr, free copied ptr)

end NansOS.Heap
