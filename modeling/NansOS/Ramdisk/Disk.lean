import NansOS.Foundation.Run
import NansOS.Kernel.StringOps
import Mathlib.Data.List.FinRange

/-! Owns the RAM disk of `ramdisk.c`: its file table, its two views of the free
space (the count `freeBlocks` and the bump pointer `freeBlockStart`), the four
file operations, and runs of them from `ramdiskCreate`.

`data` is the memory at `ramdisk->data`, addressed from that pointer on. Bytes
at and above `ramdiskSize` are whatever follows the allocation: the code does
not keep its copies inside, so the model does not either. What it does assume is
that the blocks which `malloc` returned for `struct RamDisk` and for `data` are
disjoint, and that no copy from `data` on reaches the struct; the disk without
that assumption, in one memory with its struct, is in `Ramdisk.Resident`. Byte
offsets of blocks are 32-bit products, as `file->block_start * RAMDISK_BLOCK_SIZE` is.
Console output on success is left out; each error carries the text it prints. -/

namespace NansOS.Ramdisk

open NansOS.Foundation
open NansOS.Kernel

/-! ### Data model -/

/-- `RAMDISK_SIZE`. -/
abbrev ramdiskSize : Nat := 1024 * 1024

/-- `RAMDISK_BLOCK_SIZE`. -/
abbrev ramdiskBlockSize : Nat := 512

/-- `RAMDISK_MAX_FILES`. -/
abbrev ramdiskMaxFiles : Nat := 64

/-- `RAMDISK_MAX_NAME_LEN`. -/
abbrev ramdiskMaxNameLen : Nat := 32

/-- `struct RamDiskFile`. -/
structure RamDiskFile where
  name : CString
  flags : UInt32
  size : UInt32
  blockStart : UInt32
  blockCount : UInt32
  createTime : UInt64
  modifyTime : UInt64
  accessTime : UInt64
  inUse : Bool
deriving DecidableEq

/-- An entry cleared by `memset`. -/
def RamDiskFile.zero : RamDiskFile where
  name := CString.empty
  flags := 0
  size := 0
  blockStart := 0
  blockCount := 0
  createTime := 0
  modifyTime := 0
  accessTime := 0
  inUse := false

/-- `struct RamDisk`, with the blocks that `data` points to in a memory of their own. -/
structure RamDisk where
  data : Memory
  files : Fin ramdiskMaxFiles → RamDiskFile
  freeBlockStart : UInt32
  totalBlocks : UInt32
  freeBlocks : UInt32

/-- The error exits, all of which return `-1`. -/
inductive DiskError where
  | nameTooLong
  | alreadyExists
  | tooManyFiles
  | notFound
  | noSpace
deriving DecidableEq, Repr

/-- The text an error exit prints. -/
def DiskError.message : DiskError → String
  | .nameTooLong => "[RAMDISK] Error: File name too long\n"
  | .alreadyExists => "[RAMDISK] Error: File already exists\n"
  | .tooManyFiles => "[RAMDISK] Error: Maximum number of files reached\n"
  | .notFound => "[RAMDISK] Error: File not found\n"
  | .noSpace => "[RAMDISK] Error: No space available\n"

/-- The C conversion of a 64-bit count to the `int` that is returned: its low
32 bits in two's complement. -/
def intOfCount (count : UInt64) : Int := (count.toNat : Int).bmod (2 ^ 32)

/-! ### Operations -/

/-- `ramdisk_create`, when its three allocations succeed and are disjoint. `memory` is
what `malloc` returned for `data`. -/
def ramdiskCreate (memory : Memory) : RamDisk where
  data := memset memory 0 0 ramdiskSize
  files := fun _ => RamDiskFile.zero
  freeBlockStart := 0
  totalBlocks := UInt32.ofNat (ramdiskSize / ramdiskBlockSize)
  freeBlocks := UInt32.ofNat (ramdiskSize / ramdiskBlockSize)

namespace RamDisk

/-- Overwrite one file entry. -/
def setFile (disk : RamDisk) (index : Fin ramdiskMaxFiles) (file : RamDiskFile) : RamDisk :=
  { disk with files := Function.update disk.files index file }

/-- `find_free_file`. -/
def findFreeFile (disk : RamDisk) : Option (Fin ramdiskMaxFiles) :=
  (List.finRange ramdiskMaxFiles).find? fun index => !(disk.files index).inUse

/-- `find_file_by_name`. -/
def findFileByName (disk : RamDisk) (name : CString) : Option (Fin ramdiskMaxFiles) :=
  (List.finRange ramdiskMaxFiles).find? fun index =>
    (disk.files index).inUse && decide (strcmp (disk.files index).name name = 0)

/-- `allocate_blocks`: the start of the run of blocks, unless the count of free
blocks is too small. -/
def allocateBlocks (disk : RamDisk) (count : UInt32) : Option UInt32 × RamDisk :=
  if count > disk.freeBlocks then
    (none, disk)
  else
    (some disk.freeBlockStart,
      { disk with
        freeBlockStart := disk.freeBlockStart + count
        freeBlocks := disk.freeBlocks - count })

/-- `ramdisk_create_file`. -/
def ramdiskCreateFile (disk : RamDisk) (name : CString) (flags : UInt32) :
    Except DiskError Int × RamDisk :=
  if strlen name ≥ ramdiskMaxNameLen then
    (.error .nameTooLong, disk)
  else if (disk.findFileByName name).isSome then
    (.error .alreadyExists, disk)
  else
    match disk.findFreeFile with
    | none => (.error .tooManyFiles, disk)
    | some index =>
        (.ok 0, disk.setFile index
          { name := name
            flags := flags
            size := 0
            blockStart := 0
            blockCount := 0
            createTime := 0
            modifyTime := 0
            accessTime := 0
            inUse := true })

/-- `ramdisk_delete_file`. -/
def ramdiskDeleteFile (disk : RamDisk) (name : CString) : Except DiskError Int × RamDisk :=
  match disk.findFileByName name with
  | none => (.error .notFound, disk)
  | some index =>
      let freed := { disk with
        freeBlocks := disk.freeBlocks + (disk.files index).blockCount }
      (.ok 0, freed.setFile index RamDiskFile.zero)

end RamDisk

/-- `block * RAMDISK_BLOCK_SIZE`, a product of 32-bit operands. -/
def byteOffset (block : UInt32) : UInt32 := block * UInt32.ofNat ramdiskBlockSize

/-- A range of bytes of `data`. -/
structure Span where
  start : Nat
  length : Nat

/-- The bytes `ramdisk_read` copies once it is past its end-of-file check. -/
def readSpan (file : RamDiskFile) (offset size : UInt64) : Span where
  start := ((byteOffset file.blockStart).toUInt64 + offset).toNat
  length :=
    if offset + size > file.size.toUInt64 then (file.size.toUInt64 - offset).toNat
    else size.toNat

/-- The bytes `ramdisk_write` stores `buffer` to. -/
def storeSpan (file : RamDiskFile) (offset size : UInt64) : Span where
  start := ((byteOffset file.blockStart).toUInt64 + offset).toNat
  length := size.toNat

/-- `required_blocks`: the rounded-up block count, cut to 32 bits. -/
def requiredBlocks (offset size : UInt64) : UInt32 :=
  ((offset + size + UInt64.ofNat ramdiskBlockSize - 1) /
    UInt64.ofNat ramdiskBlockSize).toUInt32

namespace RamDisk

/-- `ramdisk_read`: the `int` returned and the bytes placed in the buffer. -/
def ramdiskRead (disk : RamDisk) (name : CString) (offset size : UInt64) :
    Except DiskError (Int × List UInt8) × RamDisk :=
  match disk.findFileByName name with
  | none => (.error .notFound, disk)
  | some index =>
      let file := disk.files index
      if offset ≥ file.size.toUInt64 then
        (.ok (0, []), disk)
      else
        let span := readSpan file offset size
        (.ok (intOfCount (UInt64.ofNat span.length), disk.data.bytes span.start span.length),
          disk.setFile index { file with accessTime := 0 })

/-- The branch of `ramdisk_write` taken when the file needs more blocks. Only
the missing blocks are allocated, yet the file then claims all the blocks it
needs from the start of that run on. -/
def growFile (disk : RamDisk) (index : Fin ramdiskMaxFiles) (required : UInt32) :
    Except DiskError Unit × RamDisk :=
  let file := disk.files index
  match disk.allocateBlocks (required - file.blockCount) with
  | (none, unchanged) => (.error .noSpace, unchanged)
  | (some newStart, allocated) =>
      let data :=
        if file.blockCount > 0 then
          memcpy allocated.data (byteOffset newStart).toNat
            (byteOffset file.blockStart).toNat file.size.toNat
        else allocated.data
      (.ok (), { allocated with data := data }.setFile index
        { file with blockStart := newStart, blockCount := required })

/-- The rest of `ramdisk_write`: store the buffer, raise the size. -/
def storeBuffer (disk : RamDisk) (index : Fin ramdiskMaxFiles) (offset size : UInt64)
    (buffer : Memory) : RamDisk :=
  let file := disk.files index
  let span := storeSpan file offset size
  { disk with data := memcpyFrom disk.data span.start buffer span.length }.setFile index
    { file with
      size := if offset + size > file.size.toUInt64 then (offset + size).toUInt32 else file.size
      modifyTime := 0
      accessTime := 0 }

/-- `ramdisk_write`. -/
def ramdiskWrite (disk : RamDisk) (name : CString) (offset size : UInt64) (buffer : Memory) :
    Except DiskError Int × RamDisk :=
  match disk.findFileByName name with
  | none => (.error .notFound, disk)
  | some index =>
      let required := requiredBlocks offset size
      if required > (disk.files index).blockCount then
        match disk.growFile index required with
        | (.error error, unchanged) => (.error error, unchanged)
        | (.ok (), grown) =>
            (.ok (intOfCount size), grown.storeBuffer index offset size buffer)
      else
        (.ok (intOfCount size), disk.storeBuffer index offset size buffer)

end RamDisk

/-! ### Runs -/

/-- One call into the RAM disk. A file is named as its `FSNode` names it. -/
inductive Call where
  | createFile (name : CString) (flags : UInt32)
  | deleteFile (name : CString)
  | read (name : CString) (offset size : UInt64)
  | write (name : CString) (offset size : UInt64) (buffer : Memory)

/-- The disk after one call, whatever the call returns. -/
def RamDisk.call (disk : RamDisk) : Call → RamDisk
  | .createFile name flags => (disk.ramdiskCreateFile name flags).2
  | .deleteFile name => (disk.ramdiskDeleteFile name).2
  | .read name offset size => (disk.ramdiskRead name offset size).2
  | .write name offset size buffer => (disk.ramdiskWrite name offset size buffer).2

/-- The file name `a`. -/
def fileA : CString := ⟨[97], by decide⟩

/-- The file name `b`. -/
def fileB : CString := ⟨[98], by decide⟩

end NansOS.Ramdisk
