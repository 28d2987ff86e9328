import NansOS.Ramdisk.Spared
import NansOS.Vfs.RamdiskNodes
import Mathlib.Data.Fintype.Card

/-! Owns the directory of the RAM disk as a finite map from names to flags. The
file table is an array searched from its first entry on, with entries cleared in
place and reused; names in use stay distinct, so the search finds the only entry
that can be meant, and each operation acts on the map as its name tells. In memory
that holds until a copy hits the table. -/

namespace NansOS.Vfs

open NansOS.Foundation
open NansOS.Kernel
open NansOS.Ramdisk

/-! ### The map -/

/-- The flags of the file with a name, if there is one. -/
def directory (disk : RamDisk) (name : CString) : Option UInt32 :=
  (disk.findFileByName name).map fun index => (disk.files index).flags

/-- The entries in use. -/
def usedEntries (disk : RamDisk) : Finset (Fin ramdiskMaxFiles) :=
  Finset.univ.filter fun index => (disk.files index).inUse = true

/-- Names in use are distinct, and shorter than the array that holds them. -/
structure Named (disk : RamDisk) : Prop where
  distinct : ∀ first second, (disk.files first).inUse = true →
    (disk.files second).inUse = true →
      (disk.files first).name = (disk.files second).name → first = second
  short : ∀ index, (disk.files index).inUse = true →
    strlen (disk.files index).name < ramdiskMaxNameLen

/-- The disk has room for a new file of that name. -/
def Creatable (disk : RamDisk) (name : CString) : Prop :=
  strlen name < ramdiskMaxNameLen ∧ directory disk name = none ∧
    (usedEntries disk).card < ramdiskMaxFiles

/-- Creation answers 0 exactly when there is room, and then adds the name; else the map
stays. -/
structure Adds (before afterwards : CString → Option UInt32) (room : Prop)
    (answer : Except DiskError Int) (name : CString) (flags : UInt32) : Prop where
  succeeds : answer = .ok 0 ↔ room
  added : answer = .ok 0 → afterwards = Function.update before name (some flags)
  kept : answer ≠ .ok 0 → afterwards = before

/-- Deletion answers 0 exactly when the name is present, and then removes it; else the map
stays. -/
structure Removes (before afterwards : CString → Option UInt32)
    (answer : Except DiskError Int) (name : CString) : Prop where
  succeeds : answer = .ok 0 ↔ before name ≠ none
  removed : answer = .ok 0 → afterwards = Function.update before name none
  kept : answer ≠ .ok 0 → afterwards = before

/-! ### Looking a name up -/

section Lookup

variable {disk : RamDisk} {name : CString} {index : Fin ramdiskMaxFiles}

theorem find_none_iff :
    disk.findFileByName name = none ↔
      ∀ index, (disk.files index).inUse = true → (disk.files index).name ≠ name := by
  simp [RamDisk.findFileByName, List.find?_eq_none]

/-- With distinct names the first match is the only one. -/
theorem Named.find_iff (named : Named disk) :
    disk.findFileByName name = some index ↔
      (disk.files index).inUse = true ∧ (disk.files index).name = name := by
  constructor
  · exact RamDisk.inUse_of_find
  · intro meant
    cases found : disk.findFileByName name with
    | none => exact absurd meant.2 (find_none_iff.mp found index meant.1)
    | some first =>
        have hit := RamDisk.inUse_of_find found
        exact congrArg some (named.distinct first index hit.1 meant.1 (hit.2.trans meant.2.symm))

theorem Named.directory_iff (named : Named disk) {flags : UInt32} :
    directory disk name = some flags ↔
      ∃ index, (disk.files index).inUse = true ∧ (disk.files index).name = name ∧
        (disk.files index).flags = flags := by
  simp only [directory, Option.map_eq_some_iff, named.find_iff, and_assoc]

theorem directory_none_iff :
    directory disk name = none ↔ disk.findFileByName name = none := by
  simp [directory]

/-- An entry is left exactly when fewer than 64 are in use. -/
theorem findFreeFile_isSome_iff :
    disk.findFreeFile.isSome = true ↔ (usedEntries disk).card < ramdiskMaxFiles := by
  have all := (usedEntries disk).card_lt_iff_ne_univ
  rw [Fintype.card_fin] at all
  rw [all]
  simp [RamDisk.findFreeFile, usedEntries, Finset.filter_eq_self]

end Lookup

/-! ### Entries -/

section Entries

variable {disk other : RamDisk} {name : CString} {index : Fin ramdiskMaxFiles}
variable {file : RamDiskFile}

/-- Everything a lookup reads of an entry is the same. -/
def SameLabels (disk other : RamDisk) : Prop :=
  ∀ index, (other.files index).inUse = (disk.files index).inUse ∧
    (other.files index).name = (disk.files index).name ∧
    (other.files index).flags = (disk.files index).flags

theorem SameLabels.directory (same : SameLabels disk other) :
    directory other = directory disk := by
  funext name
  have found := RamDisk.findFileByName_congr
    (fun entry => ⟨(same entry).1, (same entry).2.1⟩) name
  simp only [Vfs.directory, found, (same _).2.2]

theorem SameLabels.named (same : SameLabels disk other) (named : Named disk) : Named other where
  distinct := fun first second => by
    rw [(same first).1, (same second).1, (same first).2.1, (same second).2.1]
    exact named.distinct first second
  short := fun entry => by
    rw [(same entry).1, (same entry).2.1]
    exact named.short entry

/-- Overwriting an entry under the same label changes no label. -/
theorem sameLabels_of_update (files : other.files = Function.update disk.files index file)
    (label : file.inUse = (disk.files index).inUse ∧ file.name = (disk.files index).name ∧
      file.flags = (disk.files index).flags) : SameLabels disk other := by
  intro entry
  rw [files]
  by_cases same : entry = index
  · subst same
    rw [Function.update_self]
    exact label
  · rw [Function.update_of_ne same]
    exact ⟨rfl, rfl, rfl⟩

theorem SameLabels.trans {last : RamDisk} (first : SameLabels disk other)
    (second : SameLabels other last) : SameLabels disk last := fun entry =>
  ⟨(second entry).1.trans (first entry).1, (second entry).2.1.trans (first entry).2.1,
    (second entry).2.2.trans (first entry).2.2⟩

/-- Overwriting an entry keeps the names apart when the new name is short and
new. -/
theorem Named.replace (named : Named disk)
    (files : other.files = Function.update disk.files index file)
    (fits : file.inUse = true → strlen file.name < ramdiskMaxNameLen ∧
      ∀ entry, (disk.files entry).inUse = true → (disk.files entry).name ≠ file.name) :
    Named other where
  distinct := fun first second firstUsed secondUsed => by
    rw [files] at firstUsed secondUsed ⊢
    intro names
    by_cases firstNew : first = index
    · by_cases secondNew : second = index
      · exact firstNew.trans secondNew.symm
      · subst firstNew
        rw [Function.update_self] at firstUsed names
        rw [Function.update_of_ne secondNew] at secondUsed names
        exact absurd names.symm ((fits firstUsed).2 second secondUsed)
    · rw [Function.update_of_ne firstNew] at firstUsed names
      by_cases secondNew : second = index
      · subst secondNew
        rw [Function.update_self] at secondUsed names
        exact absurd names ((fits secondUsed).2 first firstUsed)
      · rw [Function.update_of_ne secondNew] at secondUsed names
        exact named.distinct first second firstUsed secondUsed names
  short := fun entry used => by
    rw [files] at used ⊢
    by_cases same : entry = index
    · subst same
      rw [Function.update_self] at used ⊢
      exact (fits used).1
    · rw [Function.update_of_ne same] at used ⊢
      exact named.short entry used

/-- The directory after one entry is overwritten: the new file hides the old
one and no other name is touched. -/
theorem Named.directory_replace (named : Named disk) (after : Named other)
    (files : other.files = Function.update disk.files index file) (name : CString) :
    directory other name =
      if file.inUse = true ∧ file.name = name then some file.flags
      else if (disk.files index).inUse = true ∧ (disk.files index).name = name then none
      else directory disk name := by
  have new : other.files index = file := by rw [files, Function.update_self]
  have kept : ∀ entry, entry ≠ index → other.files entry = disk.files entry :=
    fun entry different => by rw [files, Function.update_of_ne different]
  by_cases hasNew : file.inUse = true ∧ file.name = name
  · rw [if_pos hasNew, after.directory_iff]
    exact ⟨index, by rw [new]; exact hasNew.1, by rw [new]; exact hasNew.2, by rw [new]⟩
  · rw [if_neg hasNew]
    by_cases hadOld : (disk.files index).inUse = true ∧ (disk.files index).name = name
    · rw [if_pos hadOld, directory_none_iff, find_none_iff]
      intro entry used names
      by_cases same : entry = index
      · subst same
        rw [new] at used names
        exact hasNew ⟨used, names⟩
      · rw [kept entry same] at used names
        exact same (named.distinct entry index used hadOld.1 (names.trans hadOld.2.symm))
    · rw [if_neg hadOld]
      apply Option.ext
      intro flags
      rw [after.directory_iff, named.directory_iff]
      apply exists_congr
      intro entry
      by_cases same : entry = index
      · subst same
        rw [new]
        exact ⟨fun holds => absurd ⟨holds.1, holds.2.1⟩ hasNew,
          fun holds => absurd ⟨holds.1, holds.2.1⟩ hadOld⟩
      · rw [kept entry same]

end Entries

/-! ### Calls -/

section Calls

variable {disk : RamDisk} {name : CString} {index : Fin ramdiskMaxFiles}

theorem create_of_creatable (creatable : Creatable disk name) (flags : UInt32) :
    ∃ index, (disk.files index).inUse = false ∧
      disk.ramdiskCreateFile name flags = (.ok 0, disk.setFile index (newFile name flags)) := by
  obtain ⟨index, found⟩ := Option.isSome_iff_exists.mp
    (findFreeFile_isSome_iff.mpr creatable.2.2)
  have absent := directory_none_iff.mp creatable.2.1
  refine ⟨index, RamDisk.free_of_findFree found, ?_⟩
  unfold RamDisk.ramdiskCreateFile
  rw [if_neg (Nat.not_le.mpr creatable.1), absent, found]
  rfl

theorem create_of_not_creatable (refused : ¬ Creatable disk name) (flags : UInt32) :
    ∃ error, disk.ramdiskCreateFile name flags = (.error error, disk) := by
  unfold RamDisk.ramdiskCreateFile
  by_cases long : strlen name ≥ ramdiskMaxNameLen
  · exact ⟨_, if_pos long⟩
  · rw [if_neg long]
    cases present : disk.findFileByName name with
    | some index => exact ⟨_, rfl⟩
    | none =>
        cases found : disk.findFreeFile with
        | none => exact ⟨_, rfl⟩
        | some index =>
            have room := findFreeFile_isSome_iff.mp (Option.isSome_of_eq_some found)
            exact absurd ⟨Nat.not_le.mp long, directory_none_iff.mpr present, room⟩ refused

theorem read_labels (disk : RamDisk) (name : CString) (offset size : UInt64) :
    SameLabels disk (disk.ramdiskRead name offset size).2 := by
  unfold RamDisk.ramdiskRead
  split
  · exact fun _ => ⟨rfl, rfl, rfl⟩
  · dsimp only
    split
    · exact fun _ => ⟨rfl, rfl, rfl⟩
    · exact sameLabels_of_update rfl ⟨rfl, rfl, rfl⟩

theorem storeBuffer_labels (disk : RamDisk) (index : Fin ramdiskMaxFiles)
    (offset size : UInt64) (buffer : Memory) :
    SameLabels disk (disk.storeBuffer index offset size buffer) :=
  sameLabels_of_update rfl ⟨rfl, rfl, rfl⟩

theorem write_labels (disk : RamDisk) (name : CString) (offset size : UInt64)
    (buffer : Memory) : SameLabels disk (disk.ramdiskWrite name offset size buffer).2 := by
  rcases disk.write_cases name offset size buffer with
    ⟨error, failed⟩ | ⟨index, stays⟩ | ⟨index, grows⟩
  · rw [failed]
    exact fun _ => ⟨rfl, rfl, rfl⟩
  · rw [RamDisk.write_of_stays stays]
    exact storeBuffer_labels disk index offset size buffer
  · rw [RamDisk.write_of_grows grows]
    have growth : SameLabels disk (disk.grown index (requiredBlocks offset size)) :=
      sameLabels_of_update rfl ⟨rfl, rfl, rfl⟩
    exact growth.trans (storeBuffer_labels _ index offset size buffer)

theorem Named.createFile (named : Named disk) (name : CString) (flags : UInt32) :
    Named (disk.ramdiskCreateFile name flags).2 ∧
      Adds (directory disk) (directory (disk.ramdiskCreateFile name flags).2)
        (Creatable disk name) (disk.ramdiskCreateFile name flags).1 name flags ∧
      ((disk.ramdiskCreateFile name flags).1 = .ok 0 →
        ∃ index, (disk.ramdiskCreateFile name flags).2.findFileByName name = some index ∧
          (disk.ramdiskCreateFile name flags).2.files index = newFile name flags) := by
  by_cases creatable : Creatable disk name
  · obtain ⟨index, unused, created⟩ := create_of_creatable creatable flags
    have absent := find_none_iff.mp (directory_none_iff.mp creatable.2.1)
    have after : Named (disk.setFile index (newFile name flags)) :=
      named.replace rfl fun _ => ⟨creatable.1, absent⟩
    have found : (disk.setFile index (newFile name flags)).findFileByName name = some index := by
      rw [after.find_iff, RamDisk.setFile_same]
      exact ⟨rfl, rfl⟩
    have map : directory (disk.setFile index (newFile name flags)) =
        Function.update (directory disk) name (some flags) := by
      funext other
      rw [named.directory_replace after rfl, Function.update_apply]
      simp [newFile, unused, eq_comm]
    rw [created]
    exact ⟨after, ⟨iff_of_true rfl creatable, fun _ => map, fun failed => absurd rfl failed⟩,
      fun _ => ⟨index, found, RamDisk.setFile_same ..⟩⟩
  · obtain ⟨error, failed⟩ := create_of_not_creatable creatable flags
    rw [failed]
    have refused : (.error error : Except DiskError Int) ≠ .ok 0 := by
      intro success
      cases success
    exact ⟨named, ⟨iff_of_false refused creatable, fun success => absurd success refused,
      fun _ => rfl⟩, fun success => absurd success refused⟩

theorem Named.deleteFile (named : Named disk) (name : CString) :
    Named (disk.ramdiskDeleteFile name).2 ∧
      Removes (directory disk) (directory (disk.ramdiskDeleteFile name).2)
        (disk.ramdiskDeleteFile name).1 name := by
  cases found : disk.findFileByName name with
  | none =>
      have absent := directory_none_iff.mpr found
      rw [RamDisk.delete_of_missing found]
      exact ⟨named, iff_of_false nofun fun present => present absent, nofun, fun _ => rfl⟩
  | some index =>
      have hit := RamDisk.inUse_of_find found
      have present : directory disk name ≠ none := by
        simp [directory, found]
      have deleted := RamDisk.delete_of_found found
      have after : Named (disk.ramdiskDeleteFile name).2 := by
        rw [deleted]
        exact named.replace rfl nofun
      have map : directory (disk.ramdiskDeleteFile name).2 =
          Function.update (directory disk) name none := by
        funext other
        rw [named.directory_replace after (by rw [deleted]; rfl), Function.update_apply]
        simp [RamDiskFile.zero, hit.1, hit.2, eq_comm]
      have succeeded : (disk.ramdiskDeleteFile name).1 = .ok 0 := by
        rw [deleted]
      exact ⟨after, iff_of_true succeeded present, fun _ => map,
        fun failed => absurd succeeded failed⟩

theorem Named.call (named : Named disk) (call : Ramdisk.Call) : Named (disk.call call) := by
  cases call with
  | createFile name flags => exact (named.createFile name flags).1
  | deleteFile name => exact (named.deleteFile name).1
  | read name offset size => exact (read_labels disk name offset size).named named
  | write name offset size buffer =>
      exact (write_labels disk name offset size buffer).named named

end Calls

theorem Named.create (memory : Memory) : Named (ramdiskCreate memory) where
  distinct := fun _ _ used => absurd used nofun
  short := fun _ used => absurd used nofun

theorem named_invariant : Resident.TableInvariant Named where
  congr := fun same named => by
    refine SameLabels.named (fun index => ?_) named
    rw [same.files]
    exact ⟨rfl, rfl, rfl⟩
  create := Named.create
  call := Named.call

/-! ### The map in memory -/

section Resident

open Resident

/-- `ramdisk_find_file`, when `malloc` has room for the node: what stands in the node. -/
def findNode (fs : Nat) (memory : Memory) (name : CString) : Option FSNode :=
  (findFileByName memory (deviceOf memory fs) name).map fun index =>
    nodeOf (fileIn memory (fileAddress (deviceOf memory fs) index))

/-- The flags of the file with a name, if there is one. -/
def directoryAt (fs : Nat) (memory : Memory) (name : CString) : Option UInt32 :=
  (findNode fs memory name).map FSNode.flags

/-- The table that `fs->device` points to. -/
def tableAt (fs : Nat) (memory : Memory) : RamDisk := diskIn memory (deviceOf memory fs)

/-- One request acts on the directory as on a map. A name is created exactly when it is
short and new and an entry is left, and is then found as an empty file; it is deleted
exactly when it is present, and is then not found. Nothing else changes any name. -/
def ActsOnMap (fs : Nat) (memory : Memory) : Resident.Request → Prop
  | .createFile name flags =>
      Adds (directoryAt fs memory) (directoryAt fs (ramdiskCreateFile memory fs name flags).2)
          (strlen name < ramdiskMaxNameLen ∧ directoryAt fs memory name = none ∧
            (usedEntries (tableAt fs memory)).card < ramdiskMaxFiles)
          (ramdiskCreateFile memory fs name flags).1 name flags ∧
        ((ramdiskCreateFile memory fs name flags).1 = .ok 0 →
          ∃ node, findNode fs (ramdiskCreateFile memory fs name flags).2 name = some node ∧
            node.name = name ∧ node.flags = flags ∧ node.size = 0)
  | .deleteFile name =>
      Removes (directoryAt fs memory) (directoryAt fs (ramdiskDeleteFile memory fs name).2)
          (ramdiskDeleteFile memory fs name).1 name ∧
        ((ramdiskDeleteFile memory fs name).1 = .ok 0 →
          findNode fs (ramdiskDeleteFile memory fs name).2 name = none)
  | request => directoryAt fs (Resident.step fs memory request) = directoryAt fs memory

variable {fs ramdisk : Nat} {data : UInt64} {memory : Memory} {disk : RamDisk}

theorem findNode_eq (holds : Holds fs ramdisk data memory disk) (ends : NamesEnd disk)
    (name : CString) :
    findNode fs memory name =
      (disk.findFileByName name).map fun index => nodeOf (disk.files index) := by
  have intact := Intact.of_holds holds ends
  have sought : (diskIn memory ramdisk).findFileByName name = disk.findFileByName name :=
    RamDisk.findFileByName_congr (fun index => by rw [holds.table.files]; exact ⟨rfl, rfl⟩) name
  rw [findNode, intact.device, findFileByName_eq intact.ends, sought]
  congr 1
  funext index
  rw [holds.file index]

theorem directoryAt_eq (holds : Holds fs ramdisk data memory disk) (ends : NamesEnd disk) :
    directoryAt fs memory = directory disk := by
  funext name
  rw [directoryAt, findNode_eq holds ends, Option.map_map]
  rfl

theorem createFile_acts (separate : Separate fs ramdisk) (sound : Sound fs ramdisk Named memory)
    (name : CString) (flags : UInt32) : ActsOnMap fs memory (.createFile name flags) := by
  have intact := sound.intact
  have table : tableAt fs memory = diskIn memory ramdisk := by
    rw [tableAt, intact.device]
  have follows := createFile_follows separate intact name flags
  have ends := intact.ends.call (.createFile name flags)
  obtain ⟨_, adds, empty⟩ := sound.table.createFile name flags
  rw [ActsOnMap, directoryAt_eq intact.holds intact.ends, directoryAt_eq follows.holds ends,
    follows.result, table]
  refine ⟨adds, fun succeeded => ?_⟩
  obtain ⟨index, found, entry⟩ := empty succeeded
  rw [findNode_eq follows.holds ends, found, Option.map_some, entry]
  exact ⟨_, rfl, rfl, rfl, rfl⟩

theorem deleteFile_acts (separate : Separate fs ramdisk) (sound : Sound fs ramdisk Named memory)
    (name : CString) : ActsOnMap fs memory (.deleteFile name) := by
  have intact := sound.intact
  have follows := deleteFile_follows separate intact name
  have ends := intact.ends.call (.deleteFile name)
  obtain ⟨_, removes⟩ := sound.table.deleteFile name
  rw [ActsOnMap, directoryAt_eq intact.holds intact.ends, directoryAt_eq follows.holds ends,
    follows.result]
  refine ⟨removes, fun succeeded => ?_⟩
  have gone := congrFun (removes.removed succeeded) name
  rw [Function.update_self] at gone
  rw [findNode_eq follows.holds ends, directory_none_iff.mp gone, Option.map_none]

/-- One request that spares the struct. -/
theorem actsOnMap_of_sound (separate : Separate fs ramdisk)
    (sound : Sound fs ramdisk Named memory) {request : Resident.Request}
    (spares : Resident.Spares fs memory request) : ActsOnMap fs memory request := by
  have intact := sound.intact
  have before := directoryAt_eq intact.holds intact.ends
  have afterwards := directoryAt_eq (intact.step_holds separate spares)
    (namesEnd_invariant.after intact.ends request)
  cases request with
  | createFile name flags => exact createFile_acts separate sound name flags
  | deleteFile name => exact deleteFile_acts separate sound name
  | read name offset size buffer =>
      have same := (read_labels (diskIn memory ramdisk) name offset size).directory
      exact afterwards.trans (same.trans before.symm)
  | write name offset size buffer =>
      have same := (write_labels (diskIn memory ramdisk) name offset size
        (diskIn memory ramdisk).data).directory
      exact afterwards.trans (same.trans before.symm)
  | store address byte => exact afterwards.trans before.symm

end Resident

end NansOS.Vfs
