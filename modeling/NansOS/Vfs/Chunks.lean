import NansOS.Vfs.RamdiskNodes

/-! Owns reading a RAM disk file in pieces: what successive `vfsRead` calls on a
freshly opened descriptor return and deliver, for any list of sizes and with
anything going on elsewhere between two of them. -/

namespace NansOS.Vfs

open NansOS.Foundation
open NansOS.Kernel
open NansOS.Ramdisk

/-! ### Slices of a list -/

/-- The counts and the slices that reads of these sizes deliver in turn. -/
def slices (contents : List UInt8) : List Nat → List (Int × List UInt8)
  | [] => []
  | size :: rest =>
      ((min size contents.length : Nat), contents.take size) ::
        slices (contents.drop size) rest

theorem slices_joined (contents : List UInt8) (sizes : List Nat) :
    (slices contents sizes).flatMap Prod.snd = contents.take (min sizes.sum contents.length) := by
  induction sizes generalizing contents with
  | nil => simp [slices]
  | cons size rest inductionHypothesis =>
      rw [slices, List.flatMap_cons, inductionHypothesis, List.sum_cons, List.length_drop]
      by_cases within : size ≤ contents.length
      · rw [show min (size + rest.sum) contents.length =
          size + min rest.sum (contents.length - size) by omega, List.take_add]
      · rw [List.take_of_length_le (by omega), List.drop_of_length_le (by omega),
          List.take_nil, List.append_nil, List.take_of_length_le (by omega)]

theorem slices_nil {sizes : List Nat} {output : Int × List UInt8}
    (member : output ∈ slices [] sizes) : output.1 = 0 := by
  induction sizes with
  | nil => simp [slices] at member
  | cons size rest inductionHypothesis =>
      rw [slices, List.drop_nil, List.mem_cons] at member
      rcases member with rfl | later
      · simp
      · exact inductionHypothesis later

/-- Once a read of at least one byte returns zero, nothing is left. -/
theorem slices_ended (contents : List UInt8) {sizes : List Nat}
    (positive : ∀ size ∈ sizes, 1 ≤ size) :
    (slices contents sizes).Pairwise fun earlier later => earlier.1 = 0 → later.1 = 0 := by
  induction sizes generalizing contents with
  | nil => simp [slices]
  | cons size rest inductionHypothesis =>
      rw [slices, List.pairwise_cons]
      refine ⟨fun later member zero => ?_,
        inductionHypothesis _ fun other member => positive other (by simp [member])⟩
      have atLeastOne := positive size (by simp)
      have empty : contents = [] := by
        apply List.eq_nil_of_length_eq_zero
        simp only at zero
        omega
      rw [empty, List.drop_nil] at member
      exact slices_nil member

/-! ### Reading in pieces -/

/-- What happens during the run: a read on the descriptor, or anything else,
given by the state it leaves. -/
inductive Activity where
  | chunk (size : UInt64)
  | elsewhere (next : State UInt64 RamdiskState)

/-- The bytes of a file, read off the disk. -/
def fileBytes (vfs : State UInt64 RamdiskState) (index : Fin ramdiskMaxFiles) : List UInt8 :=
  vfs.drivers.disk.data.bytes (ramdiskBlockSize * (fileAt vfs index).blockStart.toNat)
    (fileAt vfs index).size.toNat

/-- The extent of the file lies inside the disk and holds its bytes. -/
structure InsideDisk (file : RamDiskFile) : Prop where
  extent : ramdiskBlockSize * (file.blockStart.toNat + file.blockCount.toNat) ≤ ramdiskSize
  size : file.size.toNat ≤ ramdiskBlockSize * file.blockCount.toNat

section Run

variable (lookup : RamdiskState → CString → Option UInt64 × RamdiskState)
variable (fd : Fin maxFd) (node : UInt64) (index : Fin ramdiskMaxFiles)

/-- The state after one activity. -/
def proceed (vfs : State UInt64 RamdiskState) : Activity → State UInt64 RamdiskState
  | .chunk size => (vfsRead (ramdiskDrivers lookup) vfs fd.val size).2
  | .elsewhere next => next

/-- What the reads of a run return and deliver. -/
def deliveries (vfs : State UInt64 RamdiskState) : List Activity → List (Int × List UInt8)
  | [] => []
  | .chunk size :: rest =>
      (vfsRead (ramdiskDrivers lookup) vfs fd.val size).1 ::
        deliveries (vfsRead (ramdiskDrivers lookup) vfs fd.val size).2 rest
  | .elsewhere next :: rest => deliveries next rest

/-- The sizes of the reads of a run. -/
def chunkSizes : List Activity → List Nat
  | [] => []
  | .chunk size :: rest => size.toNat :: chunkSizes rest
  | .elsewhere _ :: rest => chunkSizes rest

/-- Nothing that a read on the descriptor depends on is modified. -/
structure Unmodified (vfs next : State UInt64 RamdiskState) : Prop where
  descriptor : next.fdTable fd = vfs.fdTable fd
  follows : Follows vfs fd node index → Follows next fd node index
  blockStart : (fileAt next index).blockStart = (fileAt vfs index).blockStart
  size : (fileAt next index).size = (fileAt vfs index).size
  bytes : fileBytes next index = fileBytes vfs index

/-- Reads ask for 1 to 2^62 bytes; anything else leaves the file alone. -/
def LeavesFile (vfs : State UInt64 RamdiskState) : Activity → Prop
  | .chunk size => 1 ≤ size.toNat ∧ size.toNat ≤ 2 ^ 62
  | .elsewhere next => Unmodified fd node index vfs next

end Run

variable {lookup : RamdiskState → CString → Option UInt64 × RamdiskState}
variable {vfs : State UInt64 RamdiskState} {fd : Fin maxFd} {node : UInt64}
variable {index : Fin ramdiskMaxFiles} {contents : List UInt8}

/-- The descriptor stands at `position` of a file that holds `contents`. -/
structure Ready (fd : Fin maxFd) (node : UInt64) (index : Fin ramdiskMaxFiles)
    (contents : List UInt8) (position : Nat) (vfs : State UInt64 RamdiskState) : Prop where
  follows : Follows vfs fd node index
  offset : (vfs.fdTable fd).offset.toNat = position
  bytes : fileBytes vfs index = contents
  extent : ramdiskBlockSize * (fileAt vfs index).blockStart.toNat +
    (fileAt vfs index).size.toNat ≤ ramdiskSize

theorem bytes_drop_take (memory : Memory) (address length position count : Nat) :
    ((memory.bytes address length).drop position).take count =
      memory.bytes (address + position) (min count (length - position)) := by
  apply List.ext_getElem
  · simp [Memory.bytes]
  · intro place leftBound rightBound
    simp [Memory.bytes, Nat.add_assoc]

theorem Ready.length {position : Nat} (ready : Ready fd node index contents position vfs) :
    contents.length = (fileAt vfs index).size.toNat := by
  rw [← ready.bytes]
  simp [fileBytes, Memory.bytes]

/-- The span of a read that starts before the end of the file. -/
theorem readSpan_eq {file : RamDiskFile} {offset size : UInt64}
    (inside : offset.toNat < file.size.toNat) (small : size.toNat ≤ 2 ^ 62)
    (extent : ramdiskBlockSize * file.blockStart.toNat + file.size.toNat ≤ ramdiskSize) :
    readSpan file offset size =
      ⟨ramdiskBlockSize * file.blockStart.toNat + offset.toNat,
        min size.toNat (file.size.toNat - offset.toNat)⟩ := by
  have sizeBound := file.size.toNat_lt
  have order : offset ≤ file.size.toUInt64 := by
    rw [UInt64.le_iff_toNat_le, UInt32.toNat_toUInt64]
    omega
  have sum : (offset + size).toNat = offset.toNat + size.toNat := by
    rw [UInt64.toNat_add]
    omega
  simp only [ramdiskSize, ramdiskBlockSize] at extent ⊢
  simp only [readSpan, Span.mk.injEq, UInt64.toNat_add, UInt32.toNat_toUInt64,
    byteOffset_toNat (show file.blockStart.toNat < 2 ^ 23 by omega), gt_iff_lt,
    UInt64.lt_iff_toNat_lt]
  constructor
  · omega
  · rw [← UInt64.toNat_add, sum]
    by_cases past : file.size.toNat < offset.toNat + size.toNat
    · rw [if_pos past, UInt64.toNat_sub_of_le _ _ order, UInt32.toNat_toUInt64]
      omega
    · rw [if_neg past]
      omega

/-- What the driver returns for a read at the descriptor's position. -/
theorem Ready.readNode {position : Nat} (ready : Ready fd node index contents position vfs)
    {size : UInt64} (small : size.toNat ≤ 2 ^ 62) :
    (readNode vfs.drivers node (vfs.fdTable fd).offset size).1 =
      (((min size.toNat (contents.length - position) : Nat) : Int),
        (contents.drop position).take size.toNat) := by
  have length := ready.length
  have extent := ready.extent
  have found : vfs.drivers.disk.ramdiskRead (vfs.drivers.nodes node).name
      (vfs.fdTable fd).offset size = _ :=
    RamDisk.read_of_found ready.follows.found _ _
  by_cases before : position < contents.length
  · have inside : (vfs.fdTable fd).offset.toNat < (fileAt vfs index).size.toNat := by
      rw [ready.offset, ← length]
      exact before
    have further : ¬ (vfs.fdTable fd).offset ≥ (vfs.drivers.disk.files index).size.toUInt64 := by
      rw [ge_iff_le, UInt64.le_iff_toNat_le, UInt32.toNat_toUInt64]
      exact Nat.not_le.mpr inside
    have span := readSpan_eq inside small extent
    rw [fileAt, ready.offset] at span
    have count : intOfCount (UInt64.ofNat (min size.toNat (contents.length - position))) =
        (min size.toNat (contents.length - position) : Nat) := by
      have value : (UInt64.ofNat (min size.toNat (contents.length - position))).toNat =
          min size.toNat (contents.length - position) := by
        rw [UInt64.toNat_ofNat']
        omega
      simp only [ramdiskSize] at extent
      rw [intOfCount_of_small (by omega), value]
    have slice := bytes_drop_take vfs.drivers.disk.data
      (ramdiskBlockSize * (fileAt vfs index).blockStart.toNat)
      (fileAt vfs index).size.toNat position size.toNat
    rw [← length, show vfs.drivers.disk.data.bytes _ contents.length = contents by
      rw [length]; exact ready.bytes] at slice
    rw [if_neg further, span] at found
    change _ = (Except.ok (intOfCount (UInt64.ofNat (min size.toNat
      ((fileAt vfs index).size.toNat - position))), _), _) at found
    rw [← length, count] at found
    simp only [NansOS.Vfs.readNode, found, slice, length]
    rfl
  · have beyond : (vfs.fdTable fd).offset ≥ (vfs.drivers.disk.files index).size.toUInt64 := by
      rw [ge_iff_le, UInt64.le_iff_toNat_le, UInt32.toNat_toUInt64, ready.offset]
      exact length ▸ Nat.not_lt.mp before
    rw [if_pos beyond] at found
    rw [List.drop_of_length_le (by omega), show contents.length - position = 0 by omega]
    simp [NansOS.Vfs.readNode, found]

/-- One read delivers the next slice and moves the position behind it. -/
theorem Ready.read {position : Nat} (ready : Ready fd node index contents position vfs)
    {size : UInt64} (small : size.toNat ≤ 2 ^ 62) :
    (vfsRead (ramdiskDrivers lookup) vfs fd.val size).1 =
        (((min size.toNat (contents.length - position) : Nat) : Int),
          (contents.drop position).take size.toNat) ∧
      Ready fd node index contents (position + min size.toNat (contents.length - position))
        (vfsRead (ramdiskDrivers lookup) vfs fd.val size).2 := by
  have result := ready.readNode small
  have length := ready.length
  have extent := ready.extent
  obtain ⟨names, data, sameSize, sameStart⟩ :=
    ramdiskRead_entry ready.follows.found (vfs.fdTable fd).offset size
  rw [vfsRead_follows ready.follows, result, readNode_disk]
  refine ⟨rfl, ⟨⟨by simpa using ready.follows.held, ?_⟩, ?_, ?_, ?_⟩⟩
  · simpa [names] using ready.follows.found
  · have before := ready.offset
    have sizeBound := (fileAt vfs index).size.toNat_lt
    simp only [advance]
    by_cases moves : 0 < min size.toNat (contents.length - position)
    · rw [if_pos (by omega), State.setFd_same]
      simp only [UInt64.toNat_add, UInt64.ofInt, UInt64.toNat_ofNat', before]
      omega
    · rw [if_neg (by omega)]
      show (vfs.fdTable fd).offset.toNat = _
      omega
  · rw [← ready.bytes]
    simp only [fileBytes, fileAt, advance_drivers, data, sameSize, sameStart]
  · simpa only [fileAt, advance_drivers, sameSize, sameStart] using extent

/-- Anything that leaves the file alone leaves the descriptor where it was. -/
theorem Ready.unmodified {position : Nat} (ready : Ready fd node index contents position vfs)
    {next : State UInt64 RamdiskState} (unmodified : Unmodified fd node index vfs next) :
    Ready fd node index contents position next where
  follows := unmodified.follows ready.follows
  offset := by
    rw [unmodified.descriptor]
    exact ready.offset
  bytes := unmodified.bytes.trans ready.bytes
  extent := by
    rw [unmodified.blockStart, unmodified.size]
    exact ready.extent

/-- The reads of a run deliver the slices from the descriptor's position on. -/
theorem Ready.deliveries {position : Nat} (ready : Ready fd node index contents position vfs)
    {activities : List Activity}
    (admitted : Along (proceed lookup fd) (LeavesFile fd node index) vfs activities) :
    deliveries lookup fd vfs activities =
      slices (contents.drop position) (chunkSizes activities) := by
  induction activities generalizing vfs position with
  | nil => rfl
  | cons activity rest inductionHypothesis =>
      obtain ⟨here, later⟩ := admitted
      cases activity with
      | chunk size =>
          obtain ⟨result, next⟩ : (vfsRead (ramdiskDrivers lookup) vfs fd.val size).1 = _ ∧
              Ready fd node index contents _ (vfsRead (ramdiskDrivers lookup) vfs fd.val size).2 :=
            ready.read here.2
          have onward := inductionHypothesis next later
          have passed : contents.drop (position + min size.toNat (contents.length - position)) =
              (contents.drop position).drop size.toNat := by
            rw [List.drop_drop]
            by_cases within : size.toNat ≤ contents.length - position
            · rw [min_eq_left within]
            · rw [List.drop_of_length_le (by omega), List.drop_of_length_le (by omega)]
          rw [NansOS.Vfs.deliveries, onward, passed, result, chunkSizes, slices,
            List.length_drop]
      | elsewhere next =>
          exact inductionHypothesis (ready.unmodified here) later

/-- Reading in pieces does not depend on the pieces. -/
structure ReadsOut (contents : List UInt8) (sizes : List Nat)
    (outputs : List (Int × List UInt8)) : Prop where
  each : outputs = slices contents sizes
  joined : outputs.flatMap Prod.snd = contents.take (min sizes.sum contents.length)
  ended : outputs.Pairwise fun earlier later => earlier.1 = 0 → later.1 = 0

theorem chunkSizes_positive {activities : List Activity}
    (admitted : Along (proceed lookup fd) (LeavesFile fd node index) vfs activities) :
    ∀ size ∈ chunkSizes activities, 1 ≤ size := by
  induction activities generalizing vfs with
  | nil => simp [chunkSizes]
  | cons activity rest inductionHypothesis =>
      obtain ⟨here, later⟩ := admitted
      cases activity with
      | chunk size =>
          simp only [chunkSizes, List.forall_mem_cons]
          exact ⟨here.1, inductionHypothesis later⟩
      | elsewhere next => exact inductionHypothesis later

/-- The reads on a descriptor freshly opened on a RAM disk file deliver its
bytes in order, whatever sizes they ask for. -/
theorem chunked_reads (follows : Follows vfs fd node index)
    (fresh : (vfs.fdTable fd).offset = 0) (inside : InsideDisk (fileAt vfs index))
    {activities : List Activity}
    (admitted : Along (proceed lookup fd) (LeavesFile fd node index) vfs activities) :
    ReadsOut (fileBytes vfs index) (chunkSizes activities)
      (deliveries lookup fd vfs activities) := by
  have ready : Ready fd node index (fileBytes vfs index) 0 vfs := by
    refine ⟨follows, by rw [fresh]; rfl, rfl, ?_⟩
    have extent := inside.extent
    have size := inside.size
    rw [Nat.mul_add] at extent
    omega
  have outputs := ready.deliveries admitted
  rw [List.drop_zero] at outputs
  rw [outputs]
  exact ⟨rfl, slices_joined _ _, slices_ended _ (chunkSizes_positive admitted)⟩

/-- Three reads of a one-byte file, with nothing else going on. -/
theorem one_byte_read_in_pieces :
    ReadsOut (fileBytes openedOneByte 0) (chunkSizes [.chunk 1, .chunk 4, .chunk 1])
      (deliveries (fun state path => ramdiskFindFile state path 4096) 0 openedOneByte
        [.chunk 1, .chunk 4, .chunk 1]) :=
  have follows : Follows openedOneByte 0 4096 0 := ⟨rfl, by decide +kernel⟩
  chunked_reads follows rfl ⟨by decide +kernel, by decide +kernel⟩
    ⟨⟨by decide, by decide⟩, ⟨by decide, by decide⟩, ⟨by decide, by decide⟩, trivial⟩

end NansOS.Vfs
