import NansOS.Heap.Resizing
import NansOS.Kernel.Truncation

/-! Owns `snprintf`, which lets the unbounded `vsprintf` write into a block from
`malloc` and copies what fits. The block has the size of the caller's buffer,
rounded up, so a text that is longer runs out of the block before the size is
looked at. -/

namespace NansOS.Kernel

open NansOS.Foundation
open NansOS.Heap

/-! ### The call -/

/-- How `snprintf` ends: the number returned, its temporary buffer, the bytes that
it and `vsprintf` have stored, and the machine. -/
structure SnprintfEnd where
  returned : Int
  temp : UInt64
  stores : List Store
  machine : Machine

/-- `snprintf` behind its call of `vsprintf`. The comparison takes `ret` as a
`size_t`, and it is not negative there. -/
def snprintfFinish (allocated : Machine) (temp : UInt64) (str : Nat) (size : UInt64)
    (last : Formatter) : SnprintfEnd :=
  let ret := last.returned temp.toNat
  let formatted := applied allocated.memory last.stores
  if 0 ≤ ret then
    let copySize := if ret.toNat ≥ size.toNat then size.toNat - 1 else ret.toNat
    let copied := memcpy formatted str temp.toNat copySize
    { returned := ret
      temp := temp
      stores := last.stores ++ (placed str (copied.bytes str copySize) ++ [(str + copySize, 0)])
      machine := Heap.free
        { allocated with memory := Function.update copied (str + copySize) 0 } temp }
  else
    { returned := ret
      temp := temp
      stores := last.stores
      machine := Heap.free { allocated with memory := formatted } temp }

/-- `snprintf` ends so, for a buffer of `size` bytes at `str`. -/
def SnprintfEnds (machine : Machine) (format str : Nat) (size : UInt64) (args : List Argument)
    (ended : SnprintfEnd) : Prop :=
  if size = 0 then ended = ⟨0, 0, [], machine⟩
  else
    match malloc machine size with
    | none => False
    | some (temp, allocated) =>
        if temp = 0 then ended = ⟨-1, 0, [], allocated⟩
        else
          ∃ last, VsprintfStops allocated.memory format temp.toNat args (.finished last) ∧
            ended = snprintfFinish allocated temp str size last

/-- Stores that stay in a temporary buffer and in a buffer of `size` bytes, and
leave in the latter the prefix of a text that fits, with a NUL behind it. -/
structure StaysInBuffers (stores : List Store) (temp capacity str size : Nat)
    (text : List UInt8) : Prop where
  inside : ∀ store ∈ stores, (temp ≤ store.1 ∧ store.1 < temp + capacity) ∨
    (str ≤ store.1 ∧ store.1 < str + size)
  terminator : lastAt stores (str + min (size - 1) text.length) = some 0
  characters : ∀ index < min (size - 1) text.length,
    lastAt stores (str + index) = text[index]?

/-- `snprintf` stores in its buffers only, of which the temporary one has the
size that `malloc` rounds up to. -/
def SnprintfContained (machine : Machine) (format str : Nat) (size : UInt64)
    (args : List Argument) (text : List UInt8) : Prop :=
  ∃ ended, SnprintfEnds machine format str size args ended ∧
    StaysInBuffers ended.stores ended.temp.toNat (alignSize size).toNat str size.toNat text

/-! ### Behind `vsprintf` -/

section Finish

variable {allocated : Machine} {temp size : UInt64} {str : Nat} {text : List UInt8}
variable {last : Formatter}

/-- Copying the first bytes of a block that was stored. -/
theorem bytes_memcpy_applied (memory : Memory) (str temp : Nat) {count : Nat}
    (enough : count ≤ text.length) (apart : temp + count ≤ str ∨ str + count ≤ temp) :
    (memcpy (applied memory (placed temp (text ++ [0]))) str temp count).bytes str count =
      text.take count := by
  apply List.ext_getElem
  · rw [Memory.bytes_length, List.length_take, Nat.min_eq_left enough]
  intro index below within
  rw [Memory.bytes_length] at below
  have stands := applied_placed memory temp
    (show index < (text ++ [0]).length by rw [List.length_append]; omega)
  have copied := memcpy_apply (applied memory (placed temp (text ++ [0]))) str temp count index
    below
  rw [copiedOffset_of_apart (by omega), stands, List.getElem_append_left (by omega)] at copied
  simp only [Memory.bytes, List.getElem_map, List.getElem_range, List.getElem_take]
  exact copied

theorem mem_snprintfFinish {store : Store} (member : store ∈ last.stores) :
    store ∈ (snprintfFinish allocated temp str size last).stores := by
  unfold snprintfFinish
  dsimp only
  by_cases copies : 0 ≤ last.returned temp.toNat
  · rw [if_pos copies]
    exact List.mem_append_left _ member
  · rw [if_neg copies]
    exact member

/-- The length of a text as an `int`. -/
theorem bmod_length (length : Nat) :
    (length < 2 ^ 31 → (length : Int).bmod (2 ^ 32) = length) ∧
      (2 ^ 31 ≤ length → (length : Int).bmod (2 ^ 32) + 2 ^ 32 ≤ length) := by
  rw [Int.bmod_def]
  split_ifs <;> omega

theorem alignSize_le (size : UInt64) : (alignSize size).toNat ≤ size.toNat + 7 := by
  by_cases wraps : 2 ^ 64 ≤ size.toNat + 7
  · rw [alignSize_of_wrap size wraps, UInt64.toNat_zero]
    omega
  · rw [alignSize_toNat size (by omega)]
    omega

/-- Behind `vsprintf` the text stands in the block, and is copied up to a length
that does not exceed it. -/
theorem snprintfFinish_stores (allocated : Machine)
    (stores : last.stores = placed temp.toNat (text ++ [0]))
    (returned : last.returned temp.toNat = (text.length : Int).bmod (2 ^ 32))
    (fits : text.length < (alignSize size).toNat)
    (apart : temp.toNat + (alignSize size).toNat < str ∨ str + size.toNat ≤ temp.toNat) :
    ∃ rest, (snprintfFinish allocated temp str size last).stores =
        placed temp.toNat (text ++ [0]) ++ placed str rest ∧
      (text.length < 2 ^ 31 → rest = text.take (size.toNat - 1) ++ [0]) ∧
      (2 ^ 31 ≤ text.length → rest.length ≤ min (size.toNat - 1) text.length) := by
  obtain ⟨exact, wrapped⟩ := bmod_length text.length
  have rounded := alignSize_le size
  unfold snprintfFinish
  dsimp only
  rw [returned, stores]
  by_cases negative : (text.length : Int).bmod (2 ^ 32) < 0
  · rw [if_neg (by omega)]
    refine ⟨[], by rw [placed_nil, List.append_nil], fun small => ?_, fun _ => Nat.zero_le _⟩
    omega
  · rw [if_pos (by omega)]
    generalize (text.length : Int).bmod (2 ^ 32) = ret at *
    generalize lengthEq : (if ret.toNat ≥ size.toNat then size.toNat - 1 else ret.toNat) = count
    have within : count ≤ size.toNat - 1 ∧ count ≤ text.length := by
      split_ifs at lengthEq <;> omega
    have taken : (text.take count).length = count := by
      rw [List.length_take]
      omega
    dsimp only
    rw [bytes_memcpy_applied allocated.memory str temp.toNat within.2 (by omega)]
    refine ⟨text.take count ++ [0], ?_, fun small => ?_, fun large => ?_⟩
    · rw [placed_append str, taken, placed_singleton]
    · have whole : text.take count = text.take (size.toNat - 1) := by
        rw [List.take_eq_take_iff]
        split_ifs at lengthEq <;> omega
      rw [whole]
    · rw [List.length_append, taken, List.length_singleton]
      split_ifs at lengthEq <;> omega

end Finish

/-! ### The whole call -/

section Call

variable {machine allocated : Machine} {format str : Nat} {size temp : UInt64}
variable {string : CString} {args : List Argument} {text : List UInt8}

/-- A text that fits the block stays in the buffers exactly when its length is an
`int`. -/
theorem staysInBuffers_iff {last : Formatter}
    (stores : last.stores = placed temp.toNat (text ++ [0]))
    (returned : last.returned temp.toNat = (text.length : Int).bmod (2 ^ 32))
    (positive : 1 ≤ size.toNat) (fits : text.length < (alignSize size).toNat)
    (apart : temp.toNat + (alignSize size).toNat < str ∨ str + size.toNat ≤ temp.toNat) :
    StaysInBuffers (snprintfFinish allocated temp str size last).stores temp.toNat
        (alignSize size).toNat str size.toNat text ↔ text.length < 2 ^ 31 := by
  obtain ⟨rest, finished, whole, short⟩ :=
    snprintfFinish_stores allocated stores returned fits apart
  rw [finished]
  constructor
  · -- Nothing is stored where the NUL belongs.
    intro stays
    by_contra large
    have few := short (by omega)
    have terminator := stays.terminator
    rw [lastAt_append, lastAt_placed, lastAt_placed, if_pos (by omega), Nat.add_sub_cancel_left,
      List.getElem?_eq_none (by omega), Option.none_or] at terminator
    split_ifs at terminator with behind
    rw [List.getElem?_eq_none (by rw [List.length_append, List.length_singleton]; omega)]
      at terminator
    cases terminator
  · intro small
    rw [whole small]
    have holds := holdsPrefix_placed str positive text
    refine ⟨?_, ?_, fun index below => ?_⟩
    · rw [List.forall_mem_append]
      refine ⟨?_, fun store member => .inr (holds.inside store member)⟩
      intro store member
      left
      revert store
      apply (forall_mem_placed fun address => temp.toNat ≤ address ∧
        address < temp.toNat + (alignSize size).toNat).mpr
      intro index below
      rw [List.length_append, List.length_singleton] at below
      omega
    · rw [lastAt_append, holds.terminator]
      rfl
    · have present : text[index]? = some text[index] := List.getElem?_eq_getElem (by omega)
      rw [lastAt_append, holds.characters index below, present]
      rfl

/-- A text that does not fit the block is stored behind its end. -/
theorem not_staysInBuffers {last : Formatter} {capacity : Nat}
    (stores : last.stores = placed temp.toNat (text ++ [0])) (long : capacity ≤ text.length)
    (apart : temp.toNat + capacity < str ∨ str + size.toNat ≤ temp.toNat) :
    ¬ StaysInBuffers (snprintfFinish allocated temp str size last).stores temp.toNat capacity str
      size.toNat text := by
  intro stays
  have every : ∀ store ∈ placed temp.toNat (text ++ [0]),
      (temp.toNat ≤ store.1 ∧ store.1 < temp.toNat + capacity) ∨
        (str ≤ store.1 ∧ store.1 < str + size.toNat) := by
    intro store member
    exact stays.inside store (mem_snprintfFinish (stores ▸ member))
  have behind := (forall_mem_placed fun address =>
    (temp.toNat ≤ address ∧ address < temp.toNat + capacity) ∨
      (str ≤ address ∧ address < str + size.toNat)).mp every capacity
        (by rw [List.length_append, List.length_singleton]; omega)
  omega

/-- What `vsprintf` leaves in the block. -/
theorem vsprintf_text (spells : Spells allocated.memory format string.bytes)
    (produced : vsprintfText string.bytes args = .ok text) (temp : Nat) :
    ∃ last, VsprintfStops allocated.memory format temp args (.finished last) ∧
      last.stores = placed temp (text ++ [0]) ∧
      last.returned temp = (text.length : Int).bmod (2 ^ 32) := by
  have renders := vsprintf_enter_renders spells args temp
  rw [produced] at renders
  obtain ⟨last, stops, lastStr, stores, -⟩ := renders
  refine ⟨last, stops, stores, ?_⟩
  have place : last.str = temp + text.length := lastStr
  rw [Formatter.returned, place, Nat.cast_add, add_sub_cancel_left]

/-- The memory of the caller as `malloc` leaves it: the format is as it was, and
the buffer lies apart from the block and not directly behind it. -/
structure CallerApart (allocated : Machine) (temp : UInt64) (format : Nat) (bytes : List UInt8)
    (str : Nat) (size : UInt64) : Prop where
  format : Spells allocated.memory format bytes
  buffer : temp.toNat + (alignSize size).toNat < str ∨ str + size.toNat ≤ temp.toNat

/-- With a block, all stores stay in the buffers exactly when the text fits the
block and its length is an `int`. -/
theorem contained_of_malloc (returned : malloc machine size = some (temp, allocated))
    (found : temp ≠ 0) (positive : 1 ≤ size.toNat)
    (produced : vsprintfText string.bytes args = .ok text)
    (apart : CallerApart allocated temp format string.bytes str size) :
    SnprintfContained machine format str size args text ↔
      text.length < (alignSize size).toNat ∧ text.length < 2 ^ 31 := by
  obtain ⟨spells, buffer⟩ := apart
  obtain ⟨last, stops, stores, length⟩ := vsprintf_text spells produced temp.toNat
  have nonzero : size ≠ 0 := by
    rintro rfl
    exact absurd positive (by decide)
  have ends : ∀ ended, SnprintfEnds machine format str size args ended ↔
      ended = snprintfFinish allocated temp str size last := by
    intro ended
    rw [SnprintfEnds, if_neg nonzero, returned]
    dsimp only
    rw [if_neg found]
    constructor
    · rintro ⟨other, otherStops, rfl⟩
      rw [FormatHalt.finished.inj (otherStops.unique stops)]
    · intro same
      exact ⟨last, stops, same⟩
  have block : (snprintfFinish allocated temp str size last).temp = temp := by
    unfold snprintfFinish
    dsimp only
    split_ifs <;> rfl
  have once : SnprintfContained machine format str size args text ↔
      StaysInBuffers (snprintfFinish allocated temp str size last).stores temp.toNat
        (alignSize size).toNat str size.toNat text := by
    simp only [SnprintfContained, ends, exists_eq_left, block]
  rw [once]
  by_cases fits : text.length < (alignSize size).toNat
  · rw [staysInBuffers_iff stores length positive fits buffer, and_iff_right fits]
  · exact iff_of_false (not_staysInBuffers stores (Nat.not_lt.mp fits) buffer)
      fun both => fits both.1

/-- `snprintf` stays in its buffers and leaves the prefix that fits exactly when
it gets a block, the text fits the block and its length is an `int`. -/
theorem snprintf_contained_iff (positive : 1 ≤ size.toNat)
    (produced : vsprintfText string.bytes args = .ok text)
    (apart : ∀ temp allocated, malloc machine size = some (temp, allocated) → temp ≠ 0 →
      CallerApart allocated temp format string.bytes str size) :
    SnprintfContained machine format str size args text ↔
      (∃ temp allocated, malloc machine size = some (temp, allocated) ∧ temp ≠ 0) ∧
        text.length < (alignSize size).toNat ∧ text.length < 2 ^ 31 := by
  by_cases found : ∃ temp allocated, malloc machine size = some (temp, allocated) ∧ temp ≠ 0
  · obtain ⟨temp, allocated, returned, nonnull⟩ := found
    rw [contained_of_malloc returned nonnull positive produced
      (apart temp allocated returned nonnull)]
    exact (and_iff_right ⟨temp, allocated, returned, nonnull⟩).symm
  · -- Without a block nothing is stored, so no NUL is.
    refine iff_of_false ?_ fun both => found both.1
    rintro ⟨ended, ends, stays⟩
    have nonzero : size ≠ 0 := by
      rintro rfl
      exact absurd positive (by decide)
    rw [SnprintfEnds, if_neg nonzero] at ends
    cases returned : malloc machine size with
    | none =>
        rw [returned] at ends
        exact ends
    | some result =>
        obtain ⟨temp, allocated⟩ := result
        rw [returned] at ends
        dsimp only at ends
        by_cases null : temp = 0
        · rw [if_pos null] at ends
          subst ends
          exact nomatch stays.terminator
        · exact found ⟨temp, allocated, returned, null⟩

end Call

/-! ### On a heap -/

/-- A range of the caller's memory: below the heap, or in a live allocation. -/
def CallerOwns (state : HeapState) (lower count : Nat) : Prop :=
  lower + count ≤ firstPage ∨
    ∃ ptr ∈ state.live, ptr.toNat ≤ lower ∧
      lower + count ≤ ptr.toNat + payloadSize state.machine ptr

section Heap

variable {state : HeapState} {stretches : List Stretch} {format str lower count : Nat}
variable {size : UInt64} {string : CString} {args : List Argument} {text : List UInt8}

/-- `malloc` leaves the memory of the caller alone, and returns a block apart
from it. -/
theorem malloc_apart (laidOut : state.LaidOut stretches) (nonzero : size ≠ 0)
    (pageFits : state.PageFits (.malloc size)) :
    ∃ temp taken, malloc state.machine size = some (temp, taken) ∧ temp ≠ 0 ∧
      ∀ lower count, CallerOwns state lower count →
        Set.EqOn taken.memory state.machine.memory (Set.Ico lower (lower + count)) ∧
          (temp.toNat + (alignSize size).toNat < lower ∨ lower + count ≤ temp.toNat) := by
  obtain ⟨laid, owns⟩ := laidOut
  have onePage := fun skipped => pageFits size rfl nonzero (laid.takesPage skipped)
  obtain ⟨taken, target, after, returned, allocated⟩ := laid.malloc nonzero onePage
  have afterLaid := allocated.kept.laid
  have place := afterLaid.payload_toNat allocated.listed
  have room := allocated.size
  refine ⟨_, taken, returned, afterLaid.payload_ne_zero allocated.listed, ?_⟩
  rintro lower count (below | ⟨ptr, live, lowerInside, upperInside⟩)
  · have bounds := afterLaid.bounds allocated.listed
    refine ⟨fun address inside => allocated.kept.memory address (.inl ?_), .inr (by omega)⟩
    have inside := Set.mem_Ico.mp inside
    omega
  · obtain ⟨block, inside, used, rfl⟩ := owns.of_mem live
    have member := mem_inUse.mpr ⟨inside, used⟩
    have stays := (mem_inUse.mp (allocated.of_used member)).1
    rw [laid.payload_extent inside] at upperInside
    rw [laid.payload_toNat inside] at lowerInside
    refine ⟨(laid.malloc_spares nonzero onePage returned allocated member).payload.mono
      (Set.Ico_subset_Ico lowerInside upperInside), ?_⟩
    have apart := (afterLaid.spaced.apart allocated.listed stays).resolve_left
      (allocated.ne_target member)
    unfold Block.finish at apart upperInside
    omega

theorem callerApart (laidOut : state.LaidOut stretches) (positive : 1 ≤ size.toNat)
    (pageFits : state.PageFits (.malloc size))
    (spells : Spells state.machine.memory format string.bytes)
    (formatOwned : CallerOwns state format (string.bytes.length + 1))
    (bufferOwned : CallerOwns state str size.toNat) :
    ∃ temp taken, malloc state.machine size = some (temp, taken) ∧ temp ≠ 0 ∧
      CallerApart taken temp format string.bytes str size := by
  have nonzero : size ≠ 0 := by
    rintro rfl
    exact absurd positive (by decide)
  obtain ⟨temp, taken, returned, found, apart⟩ := malloc_apart laidOut nonzero pageFits
  exact ⟨temp, taken, returned, found, spells.congr (apart _ _ formatOwned).1,
    (apart _ _ bufferOwned).2⟩

/-- On a heap that has a block for the size, with the format and the buffer in the
caller's memory. -/
theorem contained_iff_of_laidOut (laidOut : state.LaidOut stretches)
    (positive : 1 ≤ size.toNat) (pageFits : state.PageFits (.malloc size))
    (spells : Spells state.machine.memory format string.bytes)
    (formatOwned : CallerOwns state format (string.bytes.length + 1))
    (bufferOwned : CallerOwns state str size.toNat)
    (produced : vsprintfText string.bytes args = .ok text) :
    SnprintfContained state.machine format str size args text ↔
      text.length < (alignSize size).toNat ∧ text.length < 2 ^ 31 := by
  obtain ⟨temp, taken, returned, found, apart⟩ :=
    callerApart laidOut positive pageFits spells formatOwned bufferOwned
  exact contained_of_malloc returned found positive produced apart

end Heap

/-- `This is a long string`. -/
def longString : CString :=
  .ofBytes [84, 104, 105, 115, 32, 105, 115, 32, 97, 32, 108, 111, 110, 103, 32, 115, 116, 114,
    105, 110, 103]

/-- A fresh heap, with that string at 0x1000. -/
def longHeap : HeapState :=
  freshHeap (applied (fun _ => 0) (placed 0x1000 (longString.bytes ++ [0]))) 0

theorem longHeap_apart (size : UInt64) (positive : 1 ≤ size.toNat) (small : size.toNat ≤ 4072) :
    ∃ temp taken, malloc longHeap.machine size = some (temp, taken) ∧ temp ≠ 0 ∧
      CallerApart taken temp 0x1000 longString.bytes 0x2000 size := by
  have bufferBelow : 0x2000 + size.toNat ≤ firstPage := by
    unfold firstPage
    omega
  exact callerApart (freshHeap_laidOut _ _) positive (pageFits_of_legal small (by decide))
    (spells_placed _ _ _) (.inl (by decide)) (.inl bufferBelow)

theorem snprintf_contained_iff_long :
    SnprintfContained longHeap.machine 0x1000 0x2000 32 [] longString.bytes ↔
      (∃ temp allocated, malloc longHeap.machine 32 = some (temp, allocated) ∧ temp ≠ 0) ∧
        longString.bytes.length < (alignSize 32).toNat ∧ longString.bytes.length < 2 ^ 31 := by
  have produced : vsprintfText longString.bytes [] = .ok longString.bytes := by decide
  refine snprintf_contained_iff (by decide) produced ?_
  intro temp allocated returned found
  obtain ⟨_, _, same, _, apart⟩ := longHeap_apart 32 (by decide) (by decide)
  obtain ⟨rfl, rfl⟩ := Prod.mk.inj (Option.some.inj (same.symm.trans returned))
  exact apart

/-- A buffer of ten bytes gets a temporary one of sixteen, and the string has 21
bytes. -/
theorem snprintf_leaves_temporary :
    ¬ ∀ (machine : Machine) (format str : Nat) (size : UInt64) (string : CString)
      (args : List Argument) (text : List UInt8),
      1 ≤ size.toNat → vsprintfText string.bytes args = .ok text →
      (∃ temp allocated, malloc machine size = some (temp, allocated) ∧ temp ≠ 0 ∧
        CallerApart allocated temp format string.bytes str size) →
      SnprintfContained machine format str size args text := by
  intro always
  obtain ⟨temp, taken, returned, found, apart⟩ := longHeap_apart 10 (by decide) (by decide)
  have produced : vsprintfText longString.bytes [] = .ok longString.bytes := by decide
  have contained := always longHeap.machine 0x1000 0x2000 10 longString [] longString.bytes
    (by decide) produced ⟨temp, taken, returned, found, apart⟩
  have fits := (contained_of_malloc returned found (by decide) produced apart).mp contained
  exact absurd fits.1 (by decide)

end NansOS.Kernel
