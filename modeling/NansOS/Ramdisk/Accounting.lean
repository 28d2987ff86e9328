import NansOS.Ramdisk.Spared
import Mathlib.Algebra.BigOperators.Group.Finset.Piecewise
import Mathlib.Algebra.Order.BigOperators.Group.Finset
import Mathlib.Data.Fintype.BigOperators

/-! Owns the conservation of blocks on the RAM disk: the count of free blocks
and the block counts of the files in use add up to the size of the disk, in
every state of every run whose copies spare the struct. Nothing else is assumed
about offsets and sizes: a request whose block count wraps asks for fewer
blocks, and still gets exactly those it is charged for. But its buffer goes to
where the offset leads, and that can be the counters. -/

namespace NansOS.Ramdisk

open NansOS.Foundation
open NansOS.Kernel

/-- The blocks charged to an entry: none unless it is in use. -/
def RamDiskFile.heldBlocks (file : RamDiskFile) : Nat :=
  if file.inUse then file.blockCount.toNat else 0

/-- The blocks charged to all entries. -/
def RamDisk.heldBlocks (disk : RamDisk) : Nat := ∑ index, (disk.files index).heldBlocks

/-- Every block is free or charged to one file in use, and entries not in use
claim none. -/
structure Accounted (disk : RamDisk) : Prop where
  balanced : disk.freeBlocks.toNat + disk.heldBlocks = disk.totalBlocks.toNat
  unclaimed : ∀ index, (disk.files index).inUse = false → (disk.files index).blockCount = 0

/-! ### Charges -/

@[simp] theorem RamDiskFile.heldBlocks_of_used {file : RamDiskFile} (used : file.inUse = true) :
    file.heldBlocks = file.blockCount.toNat := by
  simp [RamDiskFile.heldBlocks, used]

@[simp] theorem RamDiskFile.heldBlocks_of_unused {file : RamDiskFile}
    (unused : file.inUse = false) : file.heldBlocks = 0 := by
  simp [RamDiskFile.heldBlocks, unused]

namespace RamDisk

variable {disk : RamDisk} {index : Fin ramdiskMaxFiles}

/-- Overwriting one entry exchanges its charge and no other. -/
theorem heldBlocks_update {other : RamDisk} {file : RamDiskFile}
    (files : other.files = Function.update disk.files index file) :
    other.heldBlocks + (disk.files index).heldBlocks = disk.heldBlocks + file.heldBlocks := by
  have charges : (fun entry => (other.files entry).heldBlocks) =
      Function.update (fun entry => (disk.files entry).heldBlocks) index file.heldBlocks := by
    funext entry
    rw [files]
    exact Function.apply_update (fun _ => RamDiskFile.heldBlocks) disk.files index file entry
  have old := Finset.add_sum_erase Finset.univ (fun entry => (disk.files entry).heldBlocks)
    (Finset.mem_univ index)
  have new := Finset.sum_update_of_mem (Finset.mem_univ index)
    (fun entry => (disk.files entry).heldBlocks) file.heldBlocks
  rw [← charges, Finset.sdiff_singleton_eq_erase] at new
  dsimp only at old new
  simp only [RamDisk.heldBlocks]
  omega

theorem charge_le (index : Fin ramdiskMaxFiles) :
    (disk.files index).heldBlocks ≤ disk.heldBlocks := by
  unfold RamDisk.heldBlocks
  exact Finset.single_le_sum (f := fun entry => (disk.files entry).heldBlocks)
    (fun _ _ => Nat.zero_le _) (Finset.mem_univ index)

end RamDisk

/-! ### One call -/

namespace Accounted

variable {disk : RamDisk} {name : CString} {index : Fin ramdiskMaxFiles}

theorem create (memory : Memory) : Accounted (ramdiskCreate memory) where
  balanced := by simp [ramdiskCreate, RamDisk.heldBlocks, RamDiskFile.zero]
  unclaimed := fun _ _ => rfl

/-- Overwriting an entry keeps the account when the free count moves by the
change of its charge. -/
theorem replace (accounted : Accounted disk) {other : RamDisk} {file : RamDiskFile}
    (files : other.files = Function.update disk.files index file)
    (total : other.totalBlocks = disk.totalBlocks)
    (moved : other.freeBlocks.toNat + file.heldBlocks =
      disk.freeBlocks.toNat + (disk.files index).heldBlocks)
    (clear : file.inUse = false → file.blockCount = 0) : Accounted other where
  balanced := by
    have exchanged := RamDisk.heldBlocks_update files
    have balanced := accounted.balanced
    rw [total]
    omega
  unclaimed := fun entry unused => by
    rw [files] at unused ⊢
    by_cases same : entry = index
    · subst same
      rw [Function.update_self] at unused ⊢
      exact clear unused
    · rw [Function.update_of_ne same] at unused ⊢
      exact accounted.unclaimed entry unused

theorem createFile (accounted : Accounted disk) (name : CString) (flags : UInt32) :
    Accounted (disk.ramdiskCreateFile name flags).2 := by
  unfold RamDisk.ramdiskCreateFile
  split
  · exact accounted
  · split
    · exact accounted
    · split
      · exact accounted
      · next index found =>
          refine accounted.replace rfl rfl ?_ ?_
          · rw [RamDiskFile.heldBlocks_of_unused (RamDisk.free_of_findFree found),
              RamDiskFile.heldBlocks_of_used rfl]
            rfl
          · exact nofun

/-- The free count after deleting a file: no wrap, and its blocks come back. -/
theorem freed (accounted : Accounted disk) (used : (disk.files index).inUse = true) :
    (disk.freeBlocks + (disk.files index).blockCount).toNat =
      disk.freeBlocks.toNat + (disk.files index).blockCount.toNat := by
  have charged := disk.charge_le index
  rw [RamDiskFile.heldBlocks_of_used used] at charged
  have balanced := accounted.balanced
  have bound := disk.totalBlocks.toNat_lt
  rw [UInt32.toNat_add]
  omega

theorem deleteFile (accounted : Accounted disk) (name : CString) :
    Accounted (disk.ramdiskDeleteFile name).2 := by
  unfold RamDisk.ramdiskDeleteFile
  split
  · exact accounted
  · next index found =>
      have used := (RamDisk.inUse_of_find found).1
      refine accounted.replace rfl rfl ?_ ?_
      · rw [RamDiskFile.heldBlocks_of_unused rfl, RamDiskFile.heldBlocks_of_used used]
        exact accounted.freed used
      · exact fun _ => rfl

theorem read (accounted : Accounted disk) (name : CString) (offset size : UInt64) :
    Accounted (disk.ramdiskRead name offset size).2 := by
  unfold RamDisk.ramdiskRead
  split
  · exact accounted
  · next index found =>
      dsimp only
      split
      · exact accounted
      · exact accounted.replace rfl rfl rfl (accounted.unclaimed index)

theorem storeBuffer (accounted : Accounted disk) (index : Fin ramdiskMaxFiles)
    (offset size : UInt64) (buffer : Memory) :
    Accounted (disk.storeBuffer index offset size buffer) := by
  exact accounted.replace rfl rfl rfl (accounted.unclaimed index)

/-- Growth is charged the difference of the two block counts, which the free
count covers. -/
theorem grown (accounted : Accounted disk) (used : (disk.files index).inUse = true)
    {required : UInt32} (needs : required > (disk.files index).blockCount)
    (covered : required - (disk.files index).blockCount ≤ disk.freeBlocks) :
    Accounted (disk.grown index required) := by
  refine accounted.replace rfl rfl ?_ ?_
  · have charged : RamDiskFile.heldBlocks { disk.files index with
        blockStart := disk.freeBlockStart
        blockCount := required } = required.toNat := RamDiskFile.heldBlocks_of_used used
    have missing := UInt32.toNat_sub_of_le _ _ (UInt32.le_of_lt needs)
    have enough := UInt32.le_iff_toNat_le.mp covered
    have more := UInt32.lt_iff_toNat_lt.mp needs
    rw [charged, RamDiskFile.heldBlocks_of_used used]
    change (disk.freeBlocks - (required - (disk.files index).blockCount)).toNat +
      required.toNat = _
    rw [UInt32.toNat_sub_of_le _ _ covered]
    omega
  · intro unused
    exact absurd (used.symm.trans unused) nofun

theorem write (accounted : Accounted disk) (name : CString) (offset size : UInt64)
    (buffer : Memory) : Accounted (disk.ramdiskWrite name offset size buffer).2 := by
  rcases disk.write_cases name offset size buffer with
    ⟨error, failed⟩ | ⟨index, stays⟩ | ⟨index, grows⟩
  · rw [failed]
    exact accounted
  · rw [RamDisk.write_of_stays stays]
    exact accounted.storeBuffer index offset size buffer
  · rw [RamDisk.write_of_grows grows]
    have used := (RamDisk.inUse_of_find grows.1).1
    exact (accounted.grown used grows.2.1 grows.2.2).storeBuffer index offset size buffer

theorem call (accounted : Accounted disk) (call : Call) : Accounted (disk.call call) := by
  cases call with
  | createFile name flags => exact accounted.createFile name flags
  | deleteFile name => exact accounted.deleteFile name
  | read name offset size => exact accounted.read name offset size
  | write name offset size buffer => exact accounted.write name offset size buffer

/-- The account reads nothing but the table. -/
theorem congr {other : RamDisk} (same : Resident.SameTable disk other)
    (accounted : Accounted disk) : Accounted other where
  balanced := by
    rw [RamDisk.heldBlocks, same.files, same.freeBlocks, same.totalBlocks]
    exact accounted.balanced
  unclaimed := by
    rw [same.files]
    exact accounted.unclaimed

end Accounted

theorem accounted_invariant : Resident.TableInvariant Accounted :=
  ⟨Accounted.congr, Accounted.create, Accounted.call⟩

/-! ### The account in memory -/

open Resident

/-- The requests `allocateBlocks` grants. -/
theorem allocateBlocks_isSome_iff (memory : Memory) (ramdisk : Nat) (count : UInt32) :
    (allocateBlocks memory ramdisk count).isSome ↔
      count.toNat ≤ (memory.read32 (ramdisk + 5136)).toNat := by
  rw [allocateBlocks, ← UInt32.le_iff_toNat_le, ← UInt32.not_lt]
  split_ifs with large
  · exact iff_of_false Bool.false_ne_true fun few => few large
  · exact iff_of_true rfl large

/-- In the struct that `fs->device` points to, every block is free or held by one file in
use, entries not in use claim none, and deleting a file lets exactly its blocks be
allocated besides those that already could be. -/
structure BlocksAccounted (fs : Nat) (memory : Memory) : Prop where
  balanced :
    (memory.read32 (deviceOf memory fs + 5136)).toNat +
        ∑ index, (fileIn memory (fileAddress (deviceOf memory fs) index)).heldBlocks =
      (memory.read32 (deviceOf memory fs + 5132)).toNat
  unclaimed : ∀ index, (fileIn memory (fileAddress (deviceOf memory fs) index)).inUse = false →
    (fileIn memory (fileAddress (deviceOf memory fs) index)).blockCount = 0
  reclaimed : ∀ name index, findFileByName memory (deviceOf memory fs) name = some index →
    (ramdiskDeleteFile memory fs name).1 = .ok 0 ∧
      ∀ count, (allocateBlocks (ramdiskDeleteFile memory fs name).2 (deviceOf memory fs)
          count).isSome ↔
        count.toNat ≤ (memory.read32 (deviceOf memory fs + 5136)).toNat +
          (fileIn memory (fileAddress (deviceOf memory fs) index)).blockCount.toNat

theorem blocksAccounted_of_sound {fs ramdisk : Nat} (separate : Separate fs ramdisk)
    {memory : Memory} (sound : Sound fs ramdisk Accounted memory) : BlocksAccounted fs memory := by
  have intact := sound.intact
  refine ⟨?_, ?_, fun name index found => ?_⟩
  · rw [intact.device]
    exact sound.table.balanced
  · rw [intact.device]
    exact sound.table.unclaimed
  · rw [intact.device] at found ⊢
    rw [findFileByName_eq intact.ends] at found
    have follows := deleteFile_follows separate intact name
    rw [RamDisk.delete_of_found found] at follows
    refine ⟨follows.result, fun count => ?_⟩
    have freed := sound.table.freed (RamDisk.inUse_of_find found).1
    have left : (ramdiskDeleteFile memory fs name).2.read32 (ramdisk + 5136) = _ :=
      follows.holds.table.freeBlocks
    rw [allocateBlocks_isSome_iff, left]
    exact iff_of_eq (congrArg (count.toNat ≤ ·) freed)

theorem not_accounted_of_large {memory : Memory} {fs : Nat}
    (large : (memory.read32 (deviceOf memory fs + 5132)).toNat <
      (memory.read32 (deviceOf memory fs + 5136)).toNat) : ¬ BlocksAccounted fs memory := by
  intro accounted
  have balanced := accounted.balanced
  omega

end NansOS.Ramdisk
