import NansOS.Ramdisk.Effects

/-! Owns the contents of the file that is written: what `ramdiskRead` returns
for it before and after a write, and when the new contents are the old ones
overlaid with the buffer. A write that grows a file moves it with the ascending
`memcpy`, whose destination may start inside the old contents; the bytes below
the destination then repeat. The condition `CopySurvives` says, for the state
before the call, that this repetition is not visible. -/

namespace NansOS.Ramdisk

open NansOS.Foundation
open NansOS.Kernel

/-- `contents` with the bytes from `offset` on replaced by `bytes`. -/
def overlay (contents : List UInt8) (offset : Nat) (bytes : List UInt8) : List UInt8 :=
  contents.take offset ++ bytes ++ contents.drop (offset + bytes.length)

/-- What `ramdisk_read(f, 0, size)` delivers for a file's own size. -/
def RamDisk.contents (disk : RamDisk) (name : CString) : List UInt8 :=
  match disk.findFileByName name with
  | none => []
  | some index =>
      match (disk.ramdiskRead name 0 (disk.files index).size.toUInt64).1 with
      | .ok (_, bytes) => bytes
      | .error _ => []

/-- A successful write at or before the end of a file overlays its contents
with the buffer and raises its size as needed. -/
def WriteOverlays (disk : RamDisk) : Call → Prop
  | .write name offset size buffer => ∀ index, disk.findFileByName name = some index →
      offset.toNat ≤ (disk.files index).size.toNat → offset.toNat + size.toNat < 2 ^ 31 →
      ∀ returned, (disk.ramdiskWrite name offset size buffer).1 = .ok returned →
        (disk.ramdiskWrite name offset size buffer).2.contents name =
            overlay (disk.contents name) offset.toNat (buffer.bytes 0 size.toNat) ∧
          ((disk.ramdiskWrite name offset size buffer).2.files index).size.toNat =
            max (disk.files index).size.toNat (offset.toNat + size.toNat)
  | _ => True

/-- The address before the call whose byte stands at `position` of the file
once it has moved. A file without blocks is not copied. -/
def RamDisk.movedFrom (disk : RamDisk) (index : Fin ramdiskMaxFiles) (position : Nat) : Nat :=
  if (disk.files index).blockCount > 0 then
    (byteOffset (disk.files index).blockStart).toNat +
      copiedOffset (byteOffset disk.freeBlockStart).toNat
        (byteOffset (disk.files index).blockStart).toNat position
  else (byteOffset disk.freeBlockStart).toNat + position

/-- For a write that grows its file, every old byte outside the buffer equals
the byte that the ascending copy puts in its place. -/
def CopySurvives (disk : RamDisk) : Call → Prop
  | .write name offset size _ => ∀ index, disk.Grows name offset size index →
      offset.toNat ≤ (disk.files index).size.toNat → offset.toNat + size.toNat < 2 ^ 31 →
      ∀ position < (disk.files index).size.toNat,
        (position < offset.toNat ∨ offset.toNat + size.toNat ≤ position) →
          disk.data (disk.movedFrom index position) =
            disk.data ((byteOffset (disk.files index).blockStart).toNat + position)
  | _ => True

/-! ### Overlays -/

theorem overlay_bytes (memory buffer : Memory) {start length offset size : Nat}
    (reaches : offset ≤ length) :
    overlay (memory.bytes start length) offset (buffer.bytes 0 size) =
      (List.range (max length (offset + size))).map fun position =>
        if offset ≤ position ∧ position < offset + size then buffer (position - offset)
        else memory (start + position) := by
  apply List.ext_getElem
  · simp [overlay, Memory.bytes]
    omega
  · intro position leftBound rightBound
    simp only [overlay, Memory.bytes, List.getElem_append, List.getElem_map, List.getElem_range,
      List.length_append, List.length_take, List.length_map, List.length_range,
      List.getElem_take, List.getElem_drop]
    by_cases before : position < offset
    · rw [dif_pos (by omega), dif_pos (by omega), if_neg (by omega)]
    · by_cases inside : position < offset + size
      · rw [dif_pos (by omega), dif_neg (by omega), if_pos (by omega)]
        congr 1
        omega
      · rw [dif_neg (by omega), if_neg (by omega)]
        congr 1
        omega

theorem bytes_eq_overlay_iff (after memory buffer : Memory) {target start length offset size : Nat}
    (reaches : offset ≤ length) :
    after.bytes target (max length (offset + size)) =
        overlay (memory.bytes start length) offset (buffer.bytes 0 size) ↔
      ∀ position < max length (offset + size), after (target + position) =
        if offset ≤ position ∧ position < offset + size then buffer (position - offset)
        else memory (start + position) := by
  rw [overlay_bytes memory buffer reaches, Memory.bytes, List.map_inj_left]
  simp only [List.mem_range]

section Write

variable {disk : RamDisk} {name : CString} {index : Fin ramdiskMaxFiles}
variable {offset size : UInt64} {buffer : Memory}

theorem contents_eq (found : disk.findFileByName name = some index) :
    disk.contents name =
      disk.data.bytes (byteOffset (disk.files index).blockStart).toNat
        (disk.files index).size.toNat := by
  unfold RamDisk.contents RamDisk.ramdiskRead
  simp only [found]
  by_cases empty : (disk.files index).size = 0
  · simp [empty, Memory.bytes]
  · have positive : ¬ (0 : UInt64) ≥ (disk.files index).size.toUInt64 := by
      rw [ge_iff_le, UInt64.le_iff_toNat_le, UInt32.toNat_toUInt64, UInt64.toNat_zero]
      intro zero
      apply empty
      apply UInt32.toNat_inj.mp
      simpa using zero
    rw [if_neg positive]
    simp [readSpan]

/-- A stored buffer replaces exactly its own bytes of the file. -/
theorem storeBuffer_apply (small : offset.toNat + size.toNat < 2 ^ 31) (position : Nat) :
    (disk.storeBuffer index offset size buffer).data
        ((byteOffset (disk.files index).blockStart).toNat + position) =
      if offset.toNat ≤ position ∧ position < offset.toNat + size.toNat then
        buffer (position - offset.toNat)
      else disk.data ((byteOffset (disk.files index).blockStart).toNat + position) := by
  rw [RamDisk.storeBuffer_data, RamDisk.storeSpan_start small]
  by_cases inside : offset.toNat ≤ position ∧ position < offset.toNat + size.toNat
  · rw [if_pos (by omega), if_pos inside]
    congr 1
    omega
  · rw [if_neg (by omega), if_neg inside]

/-- The bytes of a grown file, before the buffer is stored. -/
theorem grown_apply (required : UInt32) {position : Nat}
    (below : position < (disk.files index).size.toNat) :
    (disk.grown index required).data ((byteOffset disk.freeBlockStart).toNat + position) =
      disk.data (disk.movedFrom index position) := by
  unfold RamDisk.grown RamDisk.movedFrom
  dsimp only
  split_ifs
  · rw [memcpy_apply _ _ _ _ _ below]
  · rfl

theorem findFileByName_storeBuffer :
    (disk.storeBuffer index offset size buffer).findFileByName name =
      disk.findFileByName name :=
  RamDisk.findFileByName_congr
    (fun entry => ⟨(RamDisk.storeBuffer_extent _ _ _ _ _ entry).1,
      (RamDisk.storeBuffer_extent _ _ _ _ _ entry).2.1⟩) name

theorem findFileByName_grown (required : UInt32) :
    (disk.grown index required).findFileByName name = disk.findFileByName name := by
  apply RamDisk.findFileByName_congr
  intro entry
  by_cases same : entry = index
  · subst same
    rw [RamDisk.grown_same]
    exact ⟨rfl, rfl⟩
  · rw [RamDisk.grown_of_ne same]
    exact ⟨rfl, rfl⟩

/-- The contents after a stored buffer, compared with the old contents. -/
theorem storeBuffer_contents_iff (before : RamDisk)
    (found : disk.findFileByName name = some index)
    (foundBefore : before.findFileByName name = some index)
    (sameSize : (disk.files index).size = (before.files index).size)
    (reaches : offset.toNat ≤ (before.files index).size.toNat)
    (small : offset.toNat + size.toNat < 2 ^ 31) :
    (disk.storeBuffer index offset size buffer).contents name =
        overlay (before.contents name) offset.toNat (buffer.bytes 0 size.toNat) ↔
      ∀ position < (before.files index).size.toNat,
        (position < offset.toNat ∨ offset.toNat + size.toNat ≤ position) →
          disk.data ((byteOffset (disk.files index).blockStart).toNat + position) =
            before.data ((byteOffset (before.files index).blockStart).toNat + position) := by
  rw [contents_eq (findFileByName_storeBuffer.trans found), contents_eq foundBefore,
    RamDisk.storeBuffer_size small, (RamDisk.storeBuffer_extent _ _ _ _ _ index).2.2.1, sameSize,
    bytes_eq_overlay_iff _ _ _ reaches]
  constructor
  · intro every position below outside
    have byte := every position (by omega)
    rwa [storeBuffer_apply small, if_neg (by omega), if_neg (by omega)] at byte
  · intro kept position below
    rw [storeBuffer_apply small]
    by_cases inside : offset.toNat ≤ position ∧ position < offset.toNat + size.toNat
    · rw [if_pos inside, if_pos inside]
    · rw [if_neg inside, if_neg inside]
      exact kept position (by omega) (by omega)

end Write

/-- A single write overlays the contents exactly when the copy survives. -/
theorem writeOverlays_iff (disk : RamDisk) (call : Call) :
    WriteOverlays disk call ↔ CopySurvives disk call := by
  cases call with
  | createFile name flags => exact Iff.rfl
  | deleteFile name => exact Iff.rfl
  | read name offset size => exact Iff.rfl
  | write name offset size buffer =>
      constructor
      · intro overlays index grows reaches small
        have result := overlays index grows.1 reaches small (intOfCount size)
          (by rw [RamDisk.write_of_grows grows])
        rw [RamDisk.write_of_grows grows, storeBuffer_contents_iff disk
          ((findFileByName_grown _).trans grows.1) grows.1 (by rw [RamDisk.grown_same])
          reaches small] at result
        intro position below outside
        have byte := result.1 position below outside
        rw [RamDisk.grown_same, grown_apply _ below] at byte
        exact byte
      · intro survives index found reaches small returned success
        rcases disk.write_cases name offset size buffer with ⟨error, failed⟩ |
            ⟨other, stays⟩ | ⟨other, grows⟩
        · rw [failed] at success
          cases success
        · have same : index = other := Option.some.inj (found.symm.trans stays.1)
          subst same
          rw [RamDisk.write_of_stays stays]
          refine ⟨?_, RamDisk.storeBuffer_size small⟩
          exact (storeBuffer_contents_iff disk found found rfl reaches small).mpr
            fun _ _ _ => rfl
        · have same : index = other := Option.some.inj (found.symm.trans grows.1)
          subst same
          rw [RamDisk.write_of_grows grows]
          constructor
          · rw [storeBuffer_contents_iff disk ((findFileByName_grown _).trans found) found
              (by rw [RamDisk.grown_same]) reaches small]
            intro position below outside
            rw [RamDisk.grown_same, grown_apply _ below]
            exact survives index grows reaches small position below outside
          · rw [RamDisk.storeBuffer_size small, RamDisk.grown_same]

/-- The copy survives whenever its destination does not start inside the old
contents. -/
theorem copySurvives_of_apart {disk : RamDisk} {name : CString} {offset size : UInt64}
    {buffer : Memory}
    (apart : ∀ index, disk.Grows name offset size index →
      (disk.files index).blockCount > 0 ∧
        ((byteOffset disk.freeBlockStart).toNat ≤
            (byteOffset (disk.files index).blockStart).toNat ∨
          (byteOffset (disk.files index).blockStart).toNat + (disk.files index).size.toNat ≤
            (byteOffset disk.freeBlockStart).toNat) ∨
      (disk.files index).size = 0) :
    CopySurvives disk (.write name offset size buffer) := by
  intro index grows _ _ position below _
  rcases apart index grows with ⟨hasBlocks, order⟩ | empty
  · rw [RamDisk.movedFrom, if_pos hasBlocks, copiedOffset_of_apart (by omega)]
  · simp [empty] at below

/-- Over every run, each write overlays the contents of its file exactly when
each copy that moves a file survives. -/
theorem contents_overlaid_iff (memory : Memory) (calls : List Call) :
    Along RamDisk.call WriteOverlays (ramdiskCreate memory) calls ↔
      Along RamDisk.call CopySurvives (ramdiskCreate memory) calls :=
  along_iff (fun _ => True) (fun _ _ => True)
    (fun _ _ _ _ _ => trivial) (fun disk call _ _ => writeOverlays_iff disk call) trivial
    (along_of_forall fun _ _ => trivial)

/-- One file, appended to until it has moved twice. -/
def appendCalls : List Call :=
  [.createFile fileA 0, .write fileA 0 1 (fun _ => 1),
    .write fileA 1 512 (fun _ => 2), .write fileA 513 512 (fun _ => 3)]

/-- The second move copies the file onto itself: byte 512 becomes byte 0. -/
theorem second_move_repeats :
    ¬ Along RamDisk.call WriteOverlays (ramdiskCreate fun _ => 0) appendCalls ∧
      ((run RamDisk.call (ramdiskCreate fun _ => 0) (appendCalls.take 3)).ramdiskRead
        fileA 512 1).1 = .ok (1, [2]) ∧
      ((run RamDisk.call (ramdiskCreate fun _ => 0) appendCalls).ramdiskRead
        fileA 512 1).1 = .ok (1, [1]) := by
  refine ⟨fun holds => ?_, by decide +kernel, by decide +kernel⟩
  obtain ⟨-, -, -, last, -⟩ := holds
  have survives := (writeOverlays_iff _ _).mp last 0 (by decide +kernel) (by decide +kernel)
    (by decide) 512 (by decide +kernel) (by decide)
  exact absurd survives (by decide +kernel)

end NansOS.Ramdisk
