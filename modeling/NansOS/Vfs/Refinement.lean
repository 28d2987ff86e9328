import NansOS.Vfs.Directory
import NansOS.Vfs.Store
import NansOS.Ramdisk.Isolation
import NansOS.Ramdisk.Limits

/-! Owns the refinement of the store by the RAM disk. The blocks of a file, the
bump pointer, the moves of a growing file and the stale bytes behind it are
invisible as long as each call is `Orderly`: what the calls answer is then what
the store answers. -/

namespace NansOS.Vfs

open NansOS.Foundation
open NansOS.Kernel
open NansOS.Ramdisk

/-- What one call on the disk answers. -/
def answer (disk : RamDisk) : Ramdisk.Call → Answer
  | .createFile name flags => (disk.ramdiskCreateFile name flags).1.map fun code => (code, [])
  | .deleteFile name => (disk.ramdiskDeleteFile name).1.map fun code => (code, [])
  | .read name offset size => (disk.ramdiskRead name offset size).1
  | .write name offset size buffer =>
      (disk.ramdiskWrite name offset size buffer).1.map fun code => (code, [])

/-- The store a disk stands for. -/
def storeOf (disk : RamDisk) : Store := fun name =>
  (disk.findFileByName name).map fun index =>
    { flags := (disk.files index).flags
      contents := disk.contents name }

/-- A write starts at or before the end of its file: it leaves no gap, whose
bytes would be what the blocks held before. -/
def JoinsFile (disk : RamDisk) : Ramdisk.Call → Prop
  | .write name offset _ _ => ∀ index, disk.findFileByName name = some index →
      offset.toNat ≤ (disk.files index).size.toNat
  | _ => True

instance (disk : RamDisk) (call : Ramdisk.Call) : Decidable (JoinsFile disk call) :=
  match call with
  | .createFile .. => isTrue trivial
  | .deleteFile .. => isTrue trivial
  | .read .. => isTrue trivial
  | .write name offset _ _ =>
      inferInstanceAs (Decidable (∀ index, disk.findFileByName name = some index →
        offset.toNat ≤ (disk.files index).size.toNat))

/-- The calls for which the disk does its work: a write ends below `2^31`, a read
does not wrap, a write leaves no gap, and a file that grows finds room on the
disk for all the blocks it claims, above every other file, where the copy of its
old contents does not run into them. -/
structure Orderly (disk : RamDisk) (call : Ramdisk.Call) : Prop where
  small : call.WriteSmall
  unwrapped : ReadsWithoutWrap disk call
  joins : JoinsFile disk call
  room : GrowsWithin 2048 disk call
  above : NeighboursBelow disk call
  survives : CopySurvives disk call

/-- What holds of the disk between orderly calls. -/
structure Sane (disk : RamDisk) : Prop where
  placed : Placed 2048 disk
  disjoint : DisjointExtents disk
  named : Named disk

/-! ### The store of a disk -/

section Abstraction

variable {disk other : RamDisk} {name : CString} {index : Fin ramdiskMaxFiles}

theorem storeOf_none_iff : storeOf disk name = none ↔ disk.findFileByName name = none := by
  rw [storeOf, Option.map_eq_none_iff]

theorem storeOf_found (found : disk.findFileByName name = some index) :
    storeOf disk name = some ⟨(disk.files index).flags,
      disk.data.bytes (byteOffset (disk.files index).blockStart).toNat
        (disk.files index).size.toNat⟩ := by
  rw [storeOf, found, Option.map_some, contents_eq found]

theorem contents_length (found : disk.findFileByName name = some index) :
    (disk.contents name).length = (disk.files index).size.toNat := by
  rw [contents_eq found, Memory.bytes_length]

/-- Two disks stand for the same file when its entry is the same up to its
times and the bytes of its extent are. -/
theorem storeOf_congr (same : other.findFileByName name = disk.findFileByName name)
    (kept : ∀ index, disk.findFileByName name = some index →
      (other.files index).flags = (disk.files index).flags ∧
        (other.files index).blockStart = (disk.files index).blockStart ∧
        (other.files index).size = (disk.files index).size)
    (bytes : other.data = disk.data) : storeOf other name = storeOf disk name := by
  cases found : disk.findFileByName name with
  | none => rw [storeOf_none_iff.mpr found, storeOf_none_iff.mpr (same.trans found)]
  | some index =>
      have ⟨flags, start, size⟩ := kept index found
      rw [storeOf_found found, storeOf_found (same.trans found), flags, start, size, bytes]

/-- Names in use and entries in use are equally many. -/
theorem Named.encard_names (named : Named disk) :
    (storeOf disk).names.encard = (usedEntries disk).card := by
  have image : (storeOf disk).names =
      (fun index => (disk.files index).name) '' (usedEntries disk : Set (Fin ramdiskMaxFiles)) := by
    ext name
    simp only [Store.names, Set.mem_ofPred_eq, ne_eq, storeOf_none_iff, find_none_iff,
      Set.mem_image, Finset.mem_coe, usedEntries, Finset.mem_filter, Finset.mem_univ, true_and]
    push Not
    rfl
  rw [image, Set.InjOn.encard_image, Set.encard_coe_eq_coe_finsetCard]
  intro first firstUsed second secondUsed names
  simp only [Finset.mem_coe, usedEntries, Finset.mem_filter, Finset.mem_univ, true_and]
    at firstUsed secondUsed
  exact named.distinct first second firstUsed secondUsed names

/-- Where a name is found once an entry has been overwritten. -/
theorem Named.find_replace {file : RamDiskFile} (named : Named disk) (after : Named other)
    (files : other.files = Function.update disk.files index file) (name : CString) :
    other.findFileByName name =
      if file.inUse = true ∧ file.name = name then some index
      else if (disk.files index).inUse = true ∧ (disk.files index).name = name then none
      else disk.findFileByName name := by
  have new : other.files index = file := by rw [files, Function.update_self]
  have kept : ∀ entry, entry ≠ index → other.files entry = disk.files entry :=
    fun entry different => by rw [files, Function.update_of_ne different]
  by_cases hasNew : file.inUse = true ∧ file.name = name
  · rw [if_pos hasNew, after.find_iff, new]
    exact hasNew
  · rw [if_neg hasNew]
    by_cases hadOld : (disk.files index).inUse = true ∧ (disk.files index).name = name
    · rw [if_pos hadOld, find_none_iff]
      intro entry used names
      by_cases same : entry = index
      · rw [same, new] at used names
        exact hasNew ⟨used, names⟩
      · rw [kept entry same] at used names
        exact same (named.distinct entry index used hadOld.1 (names.trans hadOld.2.symm))
    · rw [if_neg hadOld]
      apply Option.ext
      intro entry
      rw [after.find_iff, named.find_iff]
      by_cases same : entry = index
      · rw [same, new]
        exact iff_of_false hasNew hadOld
      · rw [kept entry same]

/-- The store once an entry has been overwritten and no byte has changed. -/
theorem Named.storeOf_replace {file : RamDiskFile} (named : Named disk) (after : Named other)
    (files : other.files = Function.update disk.files index file) (bytes : other.data = disk.data)
    (name : CString) :
    storeOf other name =
      if file.inUse = true ∧ file.name = name then
        some ⟨file.flags,
          disk.data.bytes (byteOffset file.blockStart).toNat file.size.toNat⟩
      else if (disk.files index).inUse = true ∧ (disk.files index).name = name then none
      else storeOf disk name := by
  have found := named.find_replace after files name
  by_cases hasNew : file.inUse = true ∧ file.name = name
  · rw [if_pos hasNew] at found ⊢
    rw [storeOf_found found, files, Function.update_self, bytes]
  · rw [if_neg hasNew] at found ⊢
    by_cases hadOld : (disk.files index).inUse = true ∧ (disk.files index).name = name
    · rw [if_pos hadOld] at found ⊢
      exact storeOf_none_iff.mpr found
    · rw [if_neg hadOld] at found ⊢
      apply storeOf_congr found _ bytes
      intro entry meant
      have different : entry ≠ index := by
        intro same
        rw [same] at meant
        exact hadOld (RamDisk.inUse_of_find meant)
      rw [files, Function.update_of_ne different]
      exact ⟨rfl, rfl, rfl⟩

end Abstraction

/-! ### Calls -/

section Calls

variable {disk : RamDisk} {name : CString} {offset size : UInt64} {buffer : Memory}

theorem Sane.create (memory : Memory) : Sane (ramdiskCreate memory) where
  placed := Placed.create memory
  disjoint := fun first second different occupies _ => by
    simp [ramdiskCreate, RamDiskFile.zero, RamDiskFile.Occupies] at occupies
  named := Named.create memory

theorem Sane.call (sane : Sane disk) {call : Ramdisk.Call} (orderly : Orderly disk call) :
    Sane (disk.call call) where
  placed := sane.placed.call (by decide) orderly.small orderly.room
  disjoint := (call_disjoint_iff sane.placed sane.disjoint call).mpr orderly.above
  named := sane.named.call call

theorem serves_createFile (named : Named disk) (name : CString) (flags : UInt32) :
    Serves (storeOf disk) (.createFile name flags) (answer disk (.createFile name flags))
      (storeOf (disk.call (.createFile name flags))) := by
  by_cases creatable : Creatable disk name
  · obtain ⟨index, unused, created⟩ := create_of_creatable creatable flags
    have after := (named.createFile name flags).1
    rw [created] at after
    have update : storeOf (disk.setFile index (newFile name flags)) =
        Function.update (storeOf disk) name (some ⟨flags, []⟩) := by
      funext other
      rw [named.storeOf_replace after rfl rfl, Function.update_apply]
      simp [newFile, RamDiskFile.zero, unused, eq_comm, Memory.bytes]
    simp only [answer, RamDisk.call, created, Except.map]
    rw [update]
    apply Serves.created flags creatable.1
    · exact storeOf_none_iff.mpr (directory_none_iff.mp creatable.2.1)
    · rw [named.encard_names]
      exact_mod_cast creatable.2.2
  · unfold answer RamDisk.call RamDisk.ramdiskCreateFile
    dsimp only
    by_cases long : strlen name ≥ ramdiskMaxNameLen
    · rw [if_pos long]
      exact .nameTooLong flags long
    · have short := Nat.not_le.mp long
      rw [if_neg long]
      cases present : disk.findFileByName name with
      | some index =>
          refine .alreadyExists flags short ?_
          rw [ne_eq, storeOf_none_iff, present]
          exact Option.some_ne_none index
      | none =>
          have absent := storeOf_none_iff.mpr present
          have full : ¬ (usedEntries disk).card < ramdiskMaxFiles := fun room =>
            creatable ⟨short, directory_none_iff.mpr present, room⟩
          have none_free : disk.findFreeFile = none := by
            rw [← Option.not_isSome_iff_eq_none, findFreeFile_isSome_iff]
            exact full
          rw [none_free]
          refine .tooManyFiles flags short absent ?_
          rw [named.encard_names]
          exact_mod_cast Nat.not_lt.mp full

theorem serves_deleteFile (named : Named disk) (name : CString) :
    Serves (storeOf disk) (.deleteFile name) (answer disk (.deleteFile name))
      (storeOf (disk.call (.deleteFile name))) := by
  cases found : disk.findFileByName name with
  | none =>
      simp only [answer, RamDisk.call, RamDisk.ramdiskDeleteFile, found, Except.map]
      exact .deleteMissing (storeOf_none_iff.mpr found)
  | some index =>
      have hit := RamDisk.inUse_of_find found
      have deleted := RamDisk.delete_of_found found
      have after := (named.deleteFile name).1
      have update : storeOf (disk.ramdiskDeleteFile name).2 =
          Function.update (storeOf disk) name none := by
        funext other
        rw [named.storeOf_replace after (by rw [deleted]; rfl) (by rw [deleted]; rfl),
          Function.update_apply]
        simp [RamDiskFile.zero, hit.1, hit.2, eq_comm]
      simp only [answer, RamDisk.call, update]
      simp only [deleted, Except.map]
      refine .deleted ?_
      rw [ne_eq, storeOf_none_iff, found]
      exact Option.some_ne_none index

theorem stored_of_placed {index : Fin ramdiskMaxFiles} (placed : Placed 2048 disk)
    (used : (disk.files index).inUse = true) : (disk.files index).Stored := by
  have within := placed.within index used
  have fits := placed.fits index used
  exact ⟨by simp only [ramdiskBlockSize, ramdiskSize]; omega, fits⟩

theorem bytes_window (memory : Memory) (start length offset count : Nat) :
    ((memory.bytes start length).drop offset).take count =
      memory.bytes (start + offset) (min count (length - offset)) := by
  apply List.ext_getElem
  · simp
  · intro position leftBound rightBound
    simp only [Memory.bytes, List.getElem_take, List.getElem_drop, List.getElem_map,
      List.getElem_range, Nat.add_assoc]

/-- A read sets the access time of its entry and nothing else. -/
theorem read_files (disk : RamDisk) (name : CString) (offset size : UInt64)
    (entry : Fin ramdiskMaxFiles) :
    ((disk.ramdiskRead name offset size).2.files entry).blockStart =
        (disk.files entry).blockStart ∧
      ((disk.ramdiskRead name offset size).2.files entry).size = (disk.files entry).size := by
  cases found : disk.findFileByName name with
  | none =>
      simp [RamDisk.ramdiskRead, found]
  | some index =>
      simp only [RamDisk.ramdiskRead, found]
      split
      · exact ⟨rfl, rfl⟩
      · by_cases same : entry = index
        · rw [same, RamDisk.setFile_same]
          exact ⟨rfl, rfl⟩
        · rw [RamDisk.setFile_of_ne _ same]
          exact ⟨rfl, rfl⟩

theorem storeOf_read (disk : RamDisk) (name : CString) (offset size : UInt64) :
    storeOf (disk.ramdiskRead name offset size).2 = storeOf disk := by
  have labels := read_labels disk name offset size
  funext other
  apply storeOf_congr _ _ ramdiskRead_data
  · exact RamDisk.findFileByName_congr
      (fun entry => ⟨(labels entry).1, (labels entry).2.1⟩) other
  · exact fun entry _ => ⟨(labels entry).2.2, read_files disk name offset size entry⟩

theorem serves_read (sane : Sane disk)
    (unwrapped : ReadsWithoutWrap disk (.read name offset size)) :
    Serves (storeOf disk) (.read name offset size) (answer disk (.read name offset size))
      (storeOf (disk.call (.read name offset size))) := by
  have kept := storeOf_read disk name offset size
  unfold answer RamDisk.call
  dsimp only
  rw [kept]
  cases found : disk.findFileByName name with
  | none =>
      simp only [RamDisk.ramdiskRead, found]
      exact .readMissing (storeOf_none_iff.mpr found) offset size
  | some index =>
      have used := (RamDisk.inUse_of_find found).1
      have stored := stored_of_placed sane.placed used
      have reads := (readsAvailable_iff found stored).mpr (unwrapped index found)
      have served := Serves.delivered (storeOf_found found) offset size
      have start : (byteOffset (disk.files index).blockStart).toNat =
          512 * (disk.files index).blockStart.toNat := by
        have within := sane.placed.within index used
        rw [RamDiskFile.past] at within
        exact byteOffset_toNat (by omega)
      rw [bytes_window, Memory.bytes_length, start] at served
      rw [reads.delivers]
      exact served

/-- A write changes no entry but the one it names. -/
theorem write_files_of_ne {index entry : Fin ramdiskMaxFiles}
    (found : disk.findFileByName name = some index) (different : entry ≠ index) :
    (disk.ramdiskWrite name offset size buffer).2.files entry = disk.files entry := by
  rcases disk.write_cases name offset size buffer with
    ⟨error, failed⟩ | ⟨other, stays⟩ | ⟨other, grows⟩
  · rw [failed]
  · have same : other = index := Option.some.inj (stays.1.symm.trans found)
    rw [RamDisk.write_of_stays stays, same, RamDisk.storeBuffer_of_ne different]
  · have same : other = index := Option.some.inj (grows.1.symm.trans found)
    rw [RamDisk.write_of_grows grows, same, RamDisk.storeBuffer_of_ne different,
      RamDisk.grown_of_ne different]

/-- The only error a write to a file that exists can end in. -/
theorem write_error {index : Fin ramdiskMaxFiles} {error : DiskError}
    (found : disk.findFileByName name = some index)
    (failed : (disk.ramdiskWrite name offset size buffer).1 = .error error) :
    error = .noSpace := by
  simp only [RamDisk.ramdiskWrite, found, RamDisk.growFile_eq] at failed
  split_ifs at failed
  exact (Except.error.inj failed).symm

/-- The store after a successful write: the file is overlaid, and every other
file is read as before. -/
theorem storeOf_write {index : Fin ramdiskMaxFiles} {returned : Int} (sane : Sane disk)
    (orderly : Orderly disk (.write name offset size buffer))
    (found : disk.findFileByName name = some index)
    (success : (disk.ramdiskWrite name offset size buffer).1 = .ok returned) :
    storeOf (disk.ramdiskWrite name offset size buffer).2 =
      Function.update (storeOf disk) name
        (some ⟨(disk.files index).flags,
          overlay (disk.contents name) offset.toNat (buffer.bytes 0 size.toNat)⟩) := by
  have labels := write_labels disk name offset size buffer
  have lookup := RamDisk.findFileByName_congr
    (fun entry => ⟨(labels entry).1, (labels entry).2.1⟩)
  have overlays := (writeOverlays_iff disk _).mpr orderly.survives index found
    (orderly.joins index found) orderly.small returned success
  have isolated := isolated_of_disjoint sane.placed (by decide) orderly.small orderly.room
    (sane.call orderly).disjoint returned success
  funext other
  rw [Function.update_apply]
  by_cases same : other = name
  · rw [if_pos same, same, storeOf, lookup, found, Option.map_some, overlays.1, (labels index).2.2]
  · rw [if_neg same, storeOf, storeOf, lookup]
    cases present : disk.findFileByName other with
    | none => rfl
    | some entry =>
        have contents : (disk.ramdiskWrite name offset size buffer).2.contents other =
            disk.contents other := by
          have different : entry ≠ index := by
            intro equal
            rw [equal] at present
            exact same ((RamDisk.inUse_of_find present).2.symm.trans
              (RamDisk.inUse_of_find found).2)
          have bound := (disk.files entry).size.toNat_lt
          have reads := isolated other same 0 (disk.files entry).size.toUInt64
            (by rw [UInt64.toNat_zero, UInt32.toNat_toUInt64]; omega)
          simp only [RamDisk.contents, lookup, present, write_files_of_ne found different, reads]
        rw [Option.map_some, Option.map_some, contents, (labels entry).2.2]

theorem serves_write (sane : Sane disk) (orderly : Orderly disk (.write name offset size buffer)) :
    Serves (storeOf disk) (.write name offset size buffer)
      (answer disk (.write name offset size buffer))
      (storeOf (disk.call (.write name offset size buffer))) := by
  have small : offset.toNat + size.toNat < 2 ^ 31 := orderly.small
  cases found : disk.findFileByName name with
  | none =>
      simp only [answer, RamDisk.call, RamDisk.ramdiskWrite, found, Except.map]
      exact .writeMissing (storeOf_none_iff.mpr found) offset size buffer
  | some index =>
      have present : storeOf disk name =
          some ⟨(disk.files index).flags, disk.contents name⟩ := by
        rw [storeOf, found, Option.map_some]
      have length := contents_length found
      cases result : (disk.ramdiskWrite name offset size buffer).1 with
      | error error =>
          have unchanged : disk.call (.write name offset size buffer) = disk :=
            call_of_fails ⟨error, result⟩
          have kind := write_error found result
          rw [unchanged]
          simp only [answer, result, kind, Except.map]
          refine .noSpace buffer present ?_
          have used := (RamDisk.inUse_of_find found).1
          have fits := sane.placed.fits index used
          rcases (write_fails_iff disk name offset size buffer (small.trans (by decide))).mp
            ⟨error, result⟩ with missing | ⟨entry, meant, few⟩
          · rw [missing] at found
            cases found
          · have same : entry = index := Option.some.inj (meant.symm.trans found)
            rw [same] at few
            dsimp only
            omega
      | ok returned =>
          have whole := (write_ok found result).1
          rw [intOfCount_of_small (by omega)] at whole
          simp only [RamDisk.call, storeOf_write sane orderly found result, answer, result, whole,
            Except.map]
          refine .written size buffer present ?_
          dsimp only
          rw [length]
          exact orderly.joins index found

/-- Each orderly call is one the store serves, with the same answer. -/
theorem Sane.serves (sane : Sane disk) {call : Ramdisk.Call} (orderly : Orderly disk call) :
    Serves (storeOf disk) call (answer disk call) (storeOf (disk.call call)) := by
  cases call with
  | createFile name flags => exact serves_createFile sane.named name flags
  | deleteFile name => exact serves_deleteFile sane.named name
  | read name offset size => exact serves_read sane orderly.unwrapped
  | write name offset size buffer => exact serves_write sane orderly

end Calls

/-! ### Runs -/

theorem storeOf_create (memory : Memory) : storeOf (ramdiskCreate memory) = fun _ => none := by
  funext name
  rw [storeOf_none_iff, find_none_iff]
  exact fun _ used => absurd used nofun

section Runs

variable {disk : RamDisk} {calls : List Ramdisk.Call}

theorem Sane.run (sane : Sane disk) (orderly : Along RamDisk.call Orderly disk calls) :
    Sane (run RamDisk.call disk calls) :=
  run_invariant Orderly Sane (fun _ _ sane admitted => sane.call admitted) sane orderly

theorem Sane.allows (sane : Sane disk) (orderly : Along RamDisk.call Orderly disk calls) :
    Allows Serves (storeOf disk) (transcript RamDisk.call answer disk calls)
      (storeOf (Foundation.run RamDisk.call disk calls)) :=
  allows_of_simulation storeOf Sane Orderly (fun _ _ sane admitted => sane.call admitted)
    (fun _ _ sane admitted => sane.serves admitted) sane orderly

end Runs

/-- Over every orderly run from a fresh disk, what the calls answer is a transcript
of the store that starts empty and ends as the store the disk stands for. -/
theorem disk_refines_store (memory : Memory) (calls : List Ramdisk.Call)
    (orderly : Along RamDisk.call Orderly (ramdiskCreate memory) calls) :
    Allows Serves (fun _ => none) (transcript RamDisk.call answer (ramdiskCreate memory) calls)
      (storeOf (run RamDisk.call (ramdiskCreate memory) calls)) := by
  have allowed := (Sane.create memory).allows orderly
  rwa [storeOf_create] at allowed

/-- In every orderly run from a fresh disk, a read delivers what the last write to
its bytes stored, if that write succeeded and the file has not been deleted. -/
theorem reads_last_write (memory : Memory) (before between : List Ramdisk.Call)
    (name : CString) (offset size : UInt64) (buffer : Memory) (returned : Int)
    (orderly : Along RamDisk.call Orderly (ramdiskCreate memory)
      (before ++ .write name offset size buffer :: (between ++ [.read name offset size])))
    (success : ((run RamDisk.call (ramdiskCreate memory) before).ramdiskWrite
      name offset size buffer).1 = .ok returned)
    (spared : ∀ call ∈ between, Spares name offset.toNat size.toNat call) :
    ((run RamDisk.call (ramdiskCreate memory)
        (before ++ .write name offset size buffer :: between)).ramdiskRead name offset size).1 =
      .ok (size.toNat, buffer.bytes 0 size.toNat) := by
  have ⟨earlier, later⟩ := along_append.mp orderly
  have sane := (Sane.create memory).run earlier
  have allowed := sane.allows later
  rw [transcript, transcript_append, transcript, transcript] at allowed
  have written : answer (run RamDisk.call (ramdiskCreate memory) before)
      (.write name offset size buffer) = .ok (returned, []) := by
    simp only [answer, success, Except.map]
  rw [written] at allowed
  rw [run_append, run_cons]
  exact reads_back allowed fun event member => spared event.1 (mem_of_mem_transcript member)

/-- Two files, one of which is written over and the other moved. -/
def orderlyCalls : List Ramdisk.Call :=
  [.createFile fileA 0, .createFile fileB 7, .write fileA 0 600 (fun _ => 1),
    .write fileB 0 2 (fun position => UInt8.ofNat (position + 5)),
    .write fileA 100 3 (fun _ => 2), .write fileB 2 600 (fun _ => 3), .read fileB 0 2,
    .deleteFile fileA, .read fileB 0 2]

/-- The copy of file `b` stays clear of its old blocks. -/
theorem orderlyCalls_orderly :
    Along RamDisk.call Orderly (ramdiskCreate fun _ => 0) orderlyCalls := by
  have checked : Along RamDisk.call (fun disk call => call.WriteSmall ∧
      ReadsWithoutWrap disk call ∧ JoinsFile disk call ∧ GrowsWithin 2048 disk call ∧
        NeighboursBelow disk call) (ramdiskCreate fun _ => 0) orderlyCalls := by
    decide +kernel
  have survives : Along RamDisk.call CopySurvives (ramdiskCreate fun _ => 0) orderlyCalls :=
    ⟨trivial, trivial, copySurvives_of_apart (by decide +kernel),
      copySurvives_of_apart (by decide +kernel), copySurvives_of_apart (by decide +kernel),
      copySurvives_of_apart (by decide +kernel), trivial, trivial, trivial, trivial⟩
  exact (checked.and survives).imp fun _ _ holds =>
    ⟨holds.1.1, holds.1.2.1, holds.1.2.2.1, holds.1.2.2.2.1, holds.1.2.2.2.2, holds.2⟩

theorem orderlyCalls_allowed :
    Allows Serves (fun _ => none)
      (transcript RamDisk.call answer (ramdiskCreate fun _ => 0) orderlyCalls)
      (storeOf (run RamDisk.call (ramdiskCreate fun _ => 0) orderlyCalls)) :=
  disk_refines_store _ _ orderlyCalls_orderly

theorem orderlyCalls_reads_back :
    ((run RamDisk.call (ramdiskCreate fun _ => 0) (orderlyCalls.take 8)).ramdiskRead
      fileB 0 2).1 = .ok (2, [5, 6]) :=
  reads_last_write _ (orderlyCalls.take 3) ((orderlyCalls.drop 4).take 4) fileB 0 2 _ 2
    orderlyCalls_orderly (by decide +kernel) (by decide)

end NansOS.Vfs
