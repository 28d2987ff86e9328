import NansOS.Foundation.Run
import NansOS.Kernel.StringOps
import Mathlib.Data.List.FinRange

/-! Owns the descriptor table of `fs.c` and the five calls on it, over drivers
that stand behind the nodes: `vfsOpen`, `vfsClose`, `vfsRead`, `vfsWrite` and
`vfsSeek`. It does not own path lookup. What `vfs_lookup` finds, what a node
holds and what a driver's hooks do are given by `Drivers`, over a state of their
own that the descriptor table is no part of.

A C `int` that a hook returns is an integer; offsets are 64-bit words. -/

namespace NansOS.Vfs

open NansOS.Foundation
open NansOS.Kernel

/-! ### Data model -/

/-- `MAX_FD`. -/
abbrev maxFd : Nat := 256

/-- `FS_SEEK_SET`. -/
abbrev seekSet : Int := 0

/-- `FS_SEEK_CUR`. -/
abbrev seekCur : Int := 1

/-- `FS_SEEK_END`. -/
abbrev seekEnd : Int := 2

/-- `struct FSNode`, apart from its filesystem. `private_data`, which no
function reads, is left out. -/
structure FSNode where
  name : CString
  flags : UInt32
  permissions : UInt32
  uid : UInt32
  gid : UInt32
  size : UInt64
  inode : UInt64
  atime : UInt64
  mtime : UInt64
  ctime : UInt64

/-- The hooks of `struct FSOperations` that the descriptor calls consult, each
`none` where the pointer is `NULL`. `Node` is the type of `struct FSNode *` and
`σ` the state of the drivers. A read returns its `int` and the bytes it placed
in the buffer. -/
structure FSOperations (Node σ : Type) where
  readHook : Option (σ → Node → UInt64 → UInt64 → (Int × List UInt8) × σ)
  writeHook : Option (σ → Node → UInt64 → UInt64 → Memory → Int × σ)
  openHook : Option (σ → Node → UInt32 → Int × σ)
  closeHook : Option (σ → Node → Int × σ)

/-- What the descriptor calls find outside `fs.c`: the node that `vfs_lookup`
returns for a path, the contents of a node, and the operations of its
filesystem, `none` where `fs` or `fs->ops` is `NULL`. -/
structure Drivers (Node σ : Type) where
  lookup : σ → CString → Option Node × σ
  node : σ → Node → FSNode
  operations : σ → Node → Option (FSOperations Node σ)

/-- `struct FileDescriptor`. -/
structure FileDescriptor (Node : Type) where
  node : Option Node
  offset : UInt64
  flags : UInt32
  refcount : UInt32
deriving DecidableEq

/-- A descriptor cleared by `memset` or by `vfs_close`. -/
def FileDescriptor.zero {Node : Type} : FileDescriptor Node where
  node := none
  offset := 0
  flags := 0
  refcount := 0

/-- `fd_table` and the state of the drivers. -/
structure State (Node σ : Type) where
  fdTable : Fin maxFd → FileDescriptor Node
  drivers : σ

/-- The error exits of `vfs_open`. -/
inductive OpenError where
  | fileNotFound (path : CString)
  | noFreeDescriptors

/-- The text an error exit prints. -/
def OpenError.message : OpenError → List UInt8
  | .fileNotFound path =>
      "[VFS] Error: File not found - ".toUTF8.toList ++ path.bytes ++ "\n".toUTF8.toList
  | .noFreeDescriptors => "[VFS] Error: No free file descriptors\n".toUTF8.toList

/-- The `int` that `vfs_open` returns. -/
def returned : Except OpenError Int → Int
  | .ok result => result
  | .error _ => -1

/-! ### Operations -/

/-- `vfs_init`, over the drivers' state at that time. -/
def vfsInit {Node σ : Type} (drivers : σ) : State Node σ where
  fdTable := fun _ => FileDescriptor.zero
  drivers := drivers

namespace State

variable {Node σ : Type}

/-- Overwrite one entry of `fd_table`. -/
def setFd (vfs : State Node σ) (index : Fin maxFd) (entry : FileDescriptor Node) : State Node σ :=
  { vfs with fdTable := Function.update vfs.fdTable index entry }

/-- `find_free_fd`. -/
def findFreeFd (vfs : State Node σ) : Option (Fin maxFd) :=
  (List.finRange maxFd).find? fun index => (vfs.fdTable index).node.isNone

/-- The slot and the node of a descriptor that passes the check
`fd < 0 || fd >= MAX_FD || !fd_table[fd].node` of the four calls on one. -/
def openSlot (vfs : State Node σ) (fd : Int) : Option (Fin maxFd × Node) :=
  if inside : 0 ≤ fd ∧ fd < maxFd then
    let index : Fin maxFd := ⟨fd.toNat, by omega⟩
    (vfs.fdTable index).node.map fun node => (index, node)
  else none

end State

section Calls

variable {Node σ : Type} (environment : Drivers Node σ)

/-- `vfs_open`. -/
def vfsOpen (vfs : State Node σ) (path : CString) (flags : UInt32) :
    Except OpenError Int × State Node σ :=
  match environment.lookup vfs.drivers path with
  | (none, drivers) => (.error (.fileNotFound path), { vfs with drivers := drivers })
  | (some node, drivers) =>
      let found := { vfs with drivers := drivers }
      match found.findFreeFd with
      | none => (.error .noFreeDescriptors, found)
      | some fd =>
          let filled := found.setFd fd
            { node := some node, offset := 0, flags := flags, refcount := 1 }
          match (environment.operations drivers node).bind FSOperations.openHook with
          | some hook =>
              let (result, changed) := hook drivers node flags
              (.ok result, { filled with drivers := changed })
          | none => (.ok fd.val, filled)

/-- `vfs_close`. What the hook returns is dropped. -/
def vfsClose (vfs : State Node σ) (fd : Int) : Int × State Node σ :=
  match vfs.openSlot fd with
  | none => (-1, vfs)
  | some (index, node) =>
      let closed :=
        match (environment.operations vfs.drivers node).bind FSOperations.closeHook with
        | some hook => { vfs with drivers := (hook vfs.drivers node).2 }
        | none => vfs
      (0, closed.setFd index FileDescriptor.zero)

/-- The end of `vfs_read` and `vfs_write`: a positive count moves the offset. -/
def advance (vfs : State Node σ) (index : Fin maxFd) (bytes : Int) : State Node σ :=
  if bytes > 0 then
    vfs.setFd index { vfs.fdTable index with
      offset := (vfs.fdTable index).offset + UInt64.ofInt bytes }
  else vfs

/-- `vfs_read`: the count returned and the bytes placed in the buffer. -/
def vfsRead (vfs : State Node σ) (fd : Int) (size : UInt64) : (Int × List UInt8) × State Node σ :=
  match vfs.openSlot fd with
  | none => ((-1, []), vfs)
  | some (index, node) =>
      match (environment.operations vfs.drivers node).bind FSOperations.readHook with
      | none => ((-1, []), vfs)
      | some hook =>
          let (result, changed) := hook vfs.drivers node (vfs.fdTable index).offset size
          (result, advance { vfs with drivers := changed } index result.1)

/-- `vfs_write`. -/
def vfsWrite (vfs : State Node σ) (fd : Int) (buffer : Memory) (size : UInt64) :
    Int × State Node σ :=
  match vfs.openSlot fd with
  | none => (-1, vfs)
  | some (index, node) =>
      match (environment.operations vfs.drivers node).bind FSOperations.writeHook with
      | none => (-1, vfs)
      | some hook =>
          let (result, changed) := hook vfs.drivers node (vfs.fdTable index).offset size buffer
          (result, advance { vfs with drivers := changed } index result)

/-- The switch of `vfs_seek`, with `int64_t` arithmetic. -/
def seekTarget (current size : UInt64) (offset : Int64) (whence : Int) : Option Int64 :=
  if whence = seekSet then some offset
  else if whence = seekCur then some (current.toInt64 + offset)
  else if whence = seekEnd then some (size.toInt64 + offset)
  else none

/-- `vfs_seek`. -/
def vfsSeek (vfs : State Node σ) (fd : Int) (offset : Int64) (whence : Int) : Int × State Node σ :=
  match vfs.openSlot fd with
  | none => (-1, vfs)
  | some (index, node) =>
      let size := (environment.node vfs.drivers node).size
      match seekTarget (vfs.fdTable index).offset size offset whence with
      | none => (-1, vfs)
      | some target =>
          if target < 0 ∨ target.toUInt64 > size then (-1, vfs)
          else
            (target.toInt,
              vfs.setFd index { vfs.fdTable index with offset := target.toUInt64 })

end Calls

/-- One call on the descriptor table. -/
inductive Call where
  | openFile (path : CString) (flags : UInt32)
  | close (fd : Int)
  | read (fd : Int) (size : UInt64)
  | write (fd : Int) (buffer : Memory) (size : UInt64)
  | seek (fd : Int) (offset : Int64) (whence : Int)

/-- What a call returns and what it leaves. -/
def call {Node σ : Type} (environment : Drivers Node σ) (vfs : State Node σ) :
    Call → Int × State Node σ
  | .openFile path flags =>
      (returned (vfsOpen environment vfs path flags).1, (vfsOpen environment vfs path flags).2)
  | .close fd => vfsClose environment vfs fd
  | .read fd size =>
      ((vfsRead environment vfs fd size).1.1, (vfsRead environment vfs fd size).2)
  | .write fd buffer size => vfsWrite environment vfs fd buffer size
  | .seek fd offset whence => vfsSeek environment vfs fd offset whence

namespace State

variable {Node σ : Type} (vfs : State Node σ)

/-! ### The table -/

@[simp] theorem setFd_same (index : Fin maxFd) (entry : FileDescriptor Node) :
    (vfs.setFd index entry).fdTable index = entry := by
  simp [setFd]

theorem setFd_of_ne {index other : Fin maxFd} (different : other ≠ index)
    (entry : FileDescriptor Node) :
    (vfs.setFd index entry).fdTable other = vfs.fdTable other := by
  simp [setFd, different]

@[simp] theorem setFd_drivers (index : Fin maxFd) (entry : FileDescriptor Node) :
    (vfs.setFd index entry).drivers = vfs.drivers := rfl

variable {vfs}

/-- `find_free_fd` finds the lowest free slot. -/
theorem findFreeFd_eq_some_iff {index : Fin maxFd} :
    vfs.findFreeFd = some index ↔
      (vfs.fdTable index).node = none ∧
        ∀ lower < index, (vfs.fdTable lower).node ≠ none := by
  simp only [findFreeFd, List.find?_eq_some_iff_getElem, Option.isNone_iff_eq_none,
    List.getElem_finRange, Bool.not_eq_true', Option.isNone_eq_false_iff]
  constructor
  · rintro ⟨free, position, inside, rfl, earlier⟩
    refine ⟨free, fun lower below => ?_⟩
    have taken := earlier lower.val below
    exact Option.isSome_iff_ne_none.mp taken
  · rintro ⟨free, taken⟩
    refine ⟨free, index.val, by simp, by simp, fun lower below => ?_⟩
    exact Option.isSome_iff_ne_none.mpr (taken ⟨lower, by omega⟩ below)

theorem findFreeFd_eq_none_iff :
    vfs.findFreeFd = none ↔ ∀ index, (vfs.fdTable index).node ≠ none := by
  simp [findFreeFd]

theorem openSlot_eq_some_iff {fd : Int} {index : Fin maxFd} {node : Node} :
    vfs.openSlot fd = some (index, node) ↔
      fd = index.val ∧ (vfs.fdTable index).node = some node := by
  unfold openSlot
  split
  · next inside =>
      simp only [Option.map_eq_some_iff, Prod.mk.injEq]
      constructor
      · rintro ⟨found, held, rfl, rfl⟩
        exact ⟨(Int.toNat_of_nonneg inside.1).symm, held⟩
      · rintro ⟨rfl, held⟩
        exact ⟨node, held, Fin.ext (Int.toNat_natCast _), rfl⟩
  · next outside =>
      constructor
      · intro impossible
        cases impossible
      · rintro ⟨rfl, _⟩
        have := index.isLt
        omega

theorem openSlot_eq_none_iff {fd : Int} :
    vfs.openSlot fd = none ↔
      ∀ index : Fin maxFd, fd = index.val → (vfs.fdTable index).node = none := by
  constructor
  · intro missing index same
    cases held : (vfs.fdTable index).node with
    | none => rfl
    | some node =>
        rw [openSlot_eq_some_iff.mpr ⟨same, held⟩] at missing
        cases missing
  · intro closed
    cases found : vfs.openSlot fd with
    | none => rfl
    | some slot =>
        obtain ⟨same, held⟩ := openSlot_eq_some_iff.mp found
        rw [closed _ same] at held
        cases held

end State

end NansOS.Vfs
