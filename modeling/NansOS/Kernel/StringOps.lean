import NansOS.Foundation.Stores
import Mathlib.Data.List.TakeWhile

/-! Owns the byte-block and string routines of `string.c` that the rest of the
kernel calls: `memset`, `memcpy`, `strlen`, `strcmp`, `strncmp` and `strrchr`,
and C strings as they stand in memory. The copy loops run one byte at a time in
ascending order, so `memcpy` on overlapping ranges is specified as it behaves,
not as a library `memcpy` would: above an overlap the source repeats with the
distance of the two ranges as period. -/

namespace NansOS.Kernel

open NansOS.Foundation

/-! ### Byte blocks -/

/-- `memset`: the memory after `count` iterations of its loop. -/
def memset (memory : Memory) (address : Nat) (byte : UInt8) : Nat → Memory
  | 0 => memory
  | count + 1 => Function.update (memset memory address byte count) (address + count) byte

/-- `memcpy` inside one memory: the memory after `count` iterations. -/
def memcpy (memory : Memory) (dest src : Nat) : Nat → Memory
  | 0 => memory
  | count + 1 =>
      let copied := memcpy memory dest src count
      Function.update copied (dest + count) (copied (src + count))

/-- `memcpy` whose source is a caller's buffer, apart from the memory written. -/
def memcpyFrom (memory : Memory) (dest : Nat) (source : Memory) : Nat → Memory
  | 0 => memory
  | count + 1 =>
      Function.update (memcpyFrom memory dest source count) (dest + count) (source count)

theorem memset_apply (memory : Memory) (address : Nat) (byte : UInt8) (count target : Nat) :
    memset memory address byte count target =
      if address ≤ target ∧ target < address + count then byte else memory target := by
  induction count with
  | zero =>
      rw [if_neg (by omega)]
      rfl
  | succ count inductionHypothesis =>
      by_cases last : target = address + count
      · subst last
        rw [memset, Function.update_self, if_pos (by omega)]
      · rw [memset, Function.update_of_ne last, inductionHypothesis]
        by_cases inside : address ≤ target ∧ target < address + count
        · rw [if_pos inside, if_pos (by omega)]
        · rw [if_neg inside, if_neg (by omega)]

theorem memset_eq (memory : Memory) (address : Nat) (byte : UInt8) (count : Nat) :
    memset memory address byte count = fun target =>
      if address ≤ target ∧ target < address + count then byte else memory target :=
  funext (memset_apply memory address byte count)

theorem memset_eqOn (memory : Memory) (address : Nat) (byte : UInt8) (count : Nat) :
    Set.EqOn (memset memory address byte count) memory
      (Set.Ico address (address + count))ᶜ := by
  intro target outside
  have outside : ¬ (address ≤ target ∧ target < address + count) := outside
  rw [memset_apply, if_neg outside]

theorem memcpyFrom_apply (memory : Memory) (dest : Nat) (source : Memory)
    (count target : Nat) :
    memcpyFrom memory dest source count target =
      if dest ≤ target ∧ target < dest + count then source (target - dest)
      else memory target := by
  induction count with
  | zero =>
      rw [if_neg (by omega)]
      rfl
  | succ count inductionHypothesis =>
      by_cases last : target = dest + count
      · subst last
        rw [memcpyFrom, Function.update_self, if_pos (by omega), Nat.add_sub_cancel_left]
      · rw [memcpyFrom, Function.update_of_ne last, inductionHypothesis]
        by_cases inside : dest ≤ target ∧ target < dest + count
        · rw [if_pos inside, if_pos (by omega)]
        · rw [if_neg inside, if_neg (by omega)]

theorem memcpy_eqOn (memory : Memory) (dest src count : Nat) :
    Set.EqOn (memcpy memory dest src count) memory (Set.Ico dest (dest + count))ᶜ := by
  induction count with
  | zero => exact fun _ _ => rfl
  | succ count inductionHypothesis =>
      intro target outside
      have outside : ¬ (dest ≤ target ∧ target < dest + (count + 1)) := outside
      have earlier : target ∈ (Set.Ico dest (dest + count))ᶜ := by
        simp only [Set.mem_compl_iff, Set.mem_Ico]
        omega
      rw [memcpy, Function.update_of_ne (by omega), inductionHypothesis earlier]

/-- The source offset whose old byte the ascending copy leaves at offset
`index` of the destination: itself, unless the destination starts above the
source, where the bytes below the destination repeat. -/
def copiedOffset (dest src index : Nat) : Nat :=
  if src < dest then index % (dest - src) else index

theorem copiedOffset_of_apart {dest src index : Nat}
    (apart : dest ≤ src ∨ src + index < dest) : copiedOffset dest src index = index := by
  unfold copiedOffset
  by_cases above : src < dest
  · rw [if_pos above, Nat.mod_eq_of_lt (by omega)]
  · rw [if_neg above]

private theorem copiedOffset_shift {dest src index : Nat} (above : src < dest)
    (reaches : dest ≤ src + index) :
    copiedOffset dest src (src + index - dest) = copiedOffset dest src index := by
  have shifted : src + index - dest = index - (dest - src) := by omega
  simp only [copiedOffset, if_pos above]
  rw [shifted, ← Nat.mod_eq_sub_mod (by omega)]

/-- What the ascending copy leaves at each byte of its destination, whether or
not the ranges overlap. -/
theorem memcpy_apply (memory : Memory) (dest src count index : Nat) (below : index < count) :
    memcpy memory dest src count (dest + index) =
      memory (src + copiedOffset dest src index) := by
  induction count generalizing index with
  | zero => omega
  | succ count inductionHypothesis =>
      by_cases last : index = count
      · subst last
        rw [memcpy, Function.update_self]
        -- The byte read last is untouched, or was itself copied earlier.
        by_cases touched : dest ≤ src + index ∧ src + index < dest + index
        · have earlier := inductionHypothesis (src + index - dest) (by omega)
          rw [show dest + (src + index - dest) = src + index by omega,
            copiedOffset_shift (by omega) touched.1] at earlier
          exact earlier
        · have kept : memcpy memory dest src index (src + index) = memory (src + index) :=
            memcpy_eqOn memory dest src index touched
          rw [kept, copiedOffset_of_apart (by omega)]
      · rw [memcpy, Function.update_of_ne (by omega), inductionHypothesis index (by omega)]

/-! ### Strings -/

/-- A C string: the bytes before its terminating NUL. -/
structure CString where
  bytes : List UInt8
  terminated : 0 ∉ bytes
deriving DecidableEq

/-- The empty string, as in a zeroed character array. -/
def CString.empty : CString := ⟨[], by simp⟩

/-- `strlen`. -/
def strlen (string : CString) : Nat := string.bytes.length

/-- The loop of `strcmp`; the end of a list is its NUL. -/
def strcmpLoop : List UInt8 → List UInt8 → Int
  | [], [] => 0
  | [], right :: _ => 0 - right.toNat
  | left :: _, [] => left.toNat - 0
  | left :: lefts, right :: rights =>
      if left = right then strcmpLoop lefts rights else (left.toNat : Int) - right.toNat

/-- `strcmp`. -/
def strcmp (left right : CString) : Int := strcmpLoop left.bytes right.bytes

private theorem strcmpLoop_eq_zero_iff : ∀ {left right : List UInt8},
    0 ∉ left → 0 ∉ right → (strcmpLoop left right = 0 ↔ left = right)
  | [], [], _, _ => by simp [strcmpLoop]
  | [], right :: rights, _, nonzero => by
      have positive : right.toNat ≠ 0 := fun zero =>
        nonzero (by simp [UInt8.toNat_inj.mp (zero.trans UInt8.toNat_zero.symm)])
      simp [strcmpLoop, positive]
  | left :: lefts, [], nonzero, _ => by
      have positive : left.toNat ≠ 0 := fun zero =>
        nonzero (by simp [UInt8.toNat_inj.mp (zero.trans UInt8.toNat_zero.symm)])
      simp [strcmpLoop, positive]
  | left :: lefts, right :: rights, leftNonzero, rightNonzero => by
      have leftTail : 0 ∉ lefts := fun member => leftNonzero (by simp [member])
      have rightTail : 0 ∉ rights := fun member => rightNonzero (by simp [member])
      by_cases same : left = right
      · simp [strcmpLoop, same, strcmpLoop_eq_zero_iff leftTail rightTail]
      · have different : (left.toNat : Int) - right.toNat ≠ 0 := fun zero =>
          same (UInt8.toNat_inj.mp (by omega))
        simp [strcmpLoop, same, different]

/-- `strcmp` returns zero exactly on equal strings. -/
@[simp] theorem strcmp_eq_zero_iff (left right : CString) :
    strcmp left right = 0 ↔ left = right := by
  rw [strcmp, strcmpLoop_eq_zero_iff left.terminated right.terminated]
  cases left
  cases right
  simp

/-- The loop of `strncmp`; the end of a list is its NUL. -/
def strncmpLoop : List UInt8 → List UInt8 → Nat → Int
  | _, _, 0 => 0
  | [], [], _ + 1 => 0
  | [], right :: _, _ + 1 => 0 - right.toNat
  | left :: _, [], _ + 1 => left.toNat - 0
  | left :: lefts, right :: rights, count + 1 =>
      if left = right then strncmpLoop lefts rights count else (left.toNat : Int) - right.toNat

/-- `strncmp`. -/
def strncmp (left right : CString) (count : Nat) : Int :=
  strncmpLoop left.bytes right.bytes count

private theorem strncmpLoop_eq_zero_iff : ∀ {left right : List UInt8}, 0 ∉ right →
    (strncmpLoop left right right.length = 0 ↔ right <+: left)
  | left, [], _ => by cases left <;> simp [strncmpLoop]
  | [], right :: rights, nonzero => by
      have positive : right.toNat ≠ 0 := fun zero =>
        nonzero (by simp [UInt8.toNat_inj.mp (zero.trans UInt8.toNat_zero.symm)])
      simp [strncmpLoop, positive]
  | left :: lefts, right :: rights, nonzero => by
      have tail : 0 ∉ rights := fun member => nonzero (by simp [member])
      by_cases same : left = right
      · simp [strncmpLoop, same, strncmpLoop_eq_zero_iff tail]
      · have different : (left.toNat : Int) - right.toNat ≠ 0 := fun zero =>
          same (UInt8.toNat_inj.mp (by omega))
        simp [strncmpLoop, same, different, List.cons_prefix_cons, Ne.symm same]

/-- Compared over its whole length, a string agrees with those it is a prefix
of. -/
theorem strncmp_eq_zero_iff (left right : CString) :
    strncmp left right (strlen right) = 0 ↔ right.bytes <+: left.bytes :=
  strncmpLoop_eq_zero_iff right.terminated

/-- The loop of `strrchr`, with the offset of the byte it looks at and the
offset found so far. -/
def strrchrLoop (char : UInt8) : List UInt8 → Nat → Option Nat → Option Nat
  | [], _, found => found
  | byte :: rest, offset, found =>
      strrchrLoop char rest (offset + 1) (if byte = char then some offset else found)

/-- `strrchr`: the offset of the pointer it returns. -/
def strrchr (string : CString) (char : UInt8) : Option Nat :=
  if char = 0 then some (strlen string) else strrchrLoop char string.bytes 0 none

private theorem strrchrLoop_absent {char : UInt8} {bytes : List UInt8} (absent : char ∉ bytes)
    (offset : Nat) (found : Option Nat) : strrchrLoop char bytes offset found = found := by
  induction bytes generalizing offset with
  | nil => rfl
  | cons byte rest inductionHypothesis =>
      obtain ⟨other, later⟩ := not_or.mp (fun either => absent (List.mem_cons.mpr either))
      rw [strrchrLoop, if_neg (Ne.symm other), inductionHypothesis later]

private theorem strrchrLoop_last {char : UInt8} {after : List UInt8} (absent : char ∉ after)
    (before : List UInt8) (offset : Nat) (found : Option Nat) :
    strrchrLoop char (before ++ char :: after) offset found = some (offset + before.length) := by
  induction before generalizing offset found with
  | nil => rw [List.nil_append, strrchrLoop, if_pos rfl, strrchrLoop_absent absent]; rfl
  | cons byte rest inductionHypothesis =>
      rw [List.cons_append, strrchrLoop, inductionHypothesis, List.length_cons,
        Nat.add_right_comm, Nat.add_assoc]

/-- `strrchr` finds the last occurrence. -/
theorem strrchr_last {string : CString} {char : UInt8} {before after : List UInt8}
    (nonzero : char ≠ 0) (split : string.bytes = before ++ char :: after) (absent : char ∉ after) :
    strrchr string char = some before.length := by
  rw [strrchr, if_neg nonzero, split, strrchrLoop_last absent, Nat.zero_add]

/-- What `strrchr` finds is an occurrence. -/
theorem strrchr_split {string : CString} {char : UInt8} {offset : Nat} (nonzero : char ≠ 0)
    (found : strrchr string char = some offset) :
    ∃ before after, string.bytes = before ++ char :: after ∧ before.length = offset := by
  by_cases present : char ∈ string.bytes
  · have ⟨after, before, split, absent⟩ :=
      List.eq_append_cons_of_mem (List.mem_reverse.mpr present)
    have turned : string.bytes = before.reverse ++ char :: after.reverse := by
      rw [← List.reverse_reverse string.bytes, split]
      simp
    have last := strrchr_last nonzero turned (mt List.mem_reverse.mp absent)
    exact ⟨before.reverse, after.reverse, turned, Option.some.inj (last.symm.trans found)⟩
  · rw [strrchr, if_neg nonzero, strrchrLoop_absent present] at found
    cases found

/-! ### Strings in memory -/

/-- The bytes from an address on are those of a string, and a NUL. -/
def Spells (memory : Memory) : Nat → List UInt8 → Prop
  | address, [] => memory address = 0
  | address, byte :: rest => memory address = byte ∧ Spells memory (address + 1) rest

/-- The string that an array of bytes holds: what stands before the first NUL. -/
def CString.ofBytes (bytes : List UInt8) : CString where
  bytes := bytes.takeWhile fun byte => decide (byte ≠ 0)
  terminated := fun member => by simpa using List.mem_takeWhile_imp member

theorem CString.ofBytes_bytes (string : CString) : CString.ofBytes string.bytes = string := by
  have every : ∀ byte ∈ string.bytes, decide (byte ≠ 0) = true := fun byte member =>
    decide_eq_true fun zero => string.terminated (zero ▸ member)
  obtain ⟨bytes, terminated⟩ := string
  simp only [CString.ofBytes, CString.mk.injEq]
  exact List.takeWhile_eq_self_iff.mpr every

/-- The number of 64-bit addresses. A loop over the bytes of a string that takes
more steps has met no NUL and never ends. -/
@[irreducible] def scanLimit : Nat := 2 ^ 64

/-- The bytes before the next NUL, as a loop over a string meets them. -/
def stringLoop (memory : Memory) : Nat → Nat → Option (List UInt8)
  | 0, _ => none
  | fuel + 1, address =>
      if memory address = 0 then some []
      else (stringLoop memory fuel (address + 1)).map (memory address :: ·)

/-- The string at an address. -/
def stringAt (memory : Memory) (address : Nat) : Option CString :=
  (stringLoop memory scanLimit address).map CString.ofBytes

section Spelling

variable {memory changed : Memory} {address : Nat} {bytes first second : List UInt8}

theorem Spells.congr (spells : Spells memory address bytes)
    (agree : Set.EqOn changed memory (Set.Ico address (address + bytes.length + 1))) :
    Spells changed address bytes := by
  induction bytes generalizing address with
  | nil => exact (agree ⟨le_rfl, by simp⟩).trans spells
  | cons byte rest inductionHypothesis =>
      refine ⟨(agree ⟨le_rfl, by omega⟩).trans spells.1, inductionHypothesis spells.2 ?_⟩
      exact agree.mono (Set.Ico_subset_Ico (by omega) (by rw [List.length_cons]; omega))

theorem Spells.drop (spells : Spells memory address (first ++ second)) :
    Spells memory (address + first.length) second := by
  induction first generalizing address with
  | nil => exact spells
  | cons byte rest inductionHypothesis =>
      have later := inductionHypothesis spells.2
      rwa [List.length_cons, Nat.add_comm rest.length, ← Nat.add_assoc]

theorem Spells.head (spells : Spells memory address bytes) :
    memory address = bytes.head?.getD 0 := by
  cases bytes with
  | nil => exact spells
  | cons byte rest => exact spells.1

/-- A string of bytes and the NUL that ends it. -/
theorem spells_iff :
    Spells memory address bytes ↔
      memory.bytes address bytes.length = bytes ∧ memory (address + bytes.length) = 0 := by
  induction bytes generalizing address with
  | nil => simp [Spells, Memory.bytes]
  | cons byte rest inductionHypothesis =>
      rw [Spells, inductionHypothesis, List.length_cons, Memory.bytes_cons, List.cons.injEq,
        and_assoc, Nat.add_assoc, Nat.add_comm 1]

/-- A string stands where it was stored. -/
theorem spells_placed (memory : Memory) (address : Nat) (bytes : List UInt8) :
    Spells (applied memory (placed address (bytes ++ [0]))) address bytes := by
  have stands : ∀ index (below : index ≤ bytes.length),
      applied memory (placed address (bytes ++ [0])) (address + index) =
        (bytes ++ [0]).get ⟨index, by simp; omega⟩ := fun index _ => applied_placed memory address _
  rw [spells_iff]
  constructor
  · apply List.ext_getElem (Memory.bytes_length _ _ _)
    intro index _ below
    have stands := stands index (by omega)
    rw [List.get_eq_getElem, List.getElem_append_left below] at stands
    rw [← stands]
    simp [Memory.bytes]
  · rw [stands bytes.length le_rfl, List.get_eq_getElem, List.getElem_concat_length rfl]

/-- At most one string stands at an address. -/
theorem Spells.unique (left : Spells memory address first) (right : Spells memory address second)
    (leftEnds : 0 ∉ first) (rightEnds : 0 ∉ second) : first = second := by
  induction first generalizing address second with
  | nil =>
      cases second with
      | nil => rfl
      | cons byte rest =>
          exact absurd (by simp [← right.1, show memory address = 0 from left]) rightEnds
  | cons byte rest inductionHypothesis =>
      cases second with
      | nil => exact absurd (by simp [← left.1, show memory address = 0 from right]) leftEnds
      | cons other others =>
          rw [← left.1, ← right.1, inductionHypothesis left.2 right.2
            (fun member => leftEnds (by simp [member]))
            (fun member => rightEnds (by simp [member]))]

private theorem stringLoop_spells {fuel : Nat} (spells : Spells memory address bytes)
    (ends : 0 ∉ bytes) (enough : bytes.length < fuel) :
    stringLoop memory fuel address = some bytes := by
  induction bytes generalizing address fuel with
  | nil =>
      obtain ⟨fuel, rfl⟩ := Nat.exists_eq_add_one.mpr enough
      exact if_pos spells
  | cons byte rest inductionHypothesis =>
      obtain ⟨fuel, rfl⟩ := Nat.exists_eq_add_one.mpr (Nat.zero_lt_of_lt enough)
      have nonzero : memory address ≠ 0 := fun zero => ends (by simp [← spells.1, zero])
      rw [stringLoop, if_neg nonzero, inductionHypothesis spells.2
        (fun member => ends (by simp [member])) (by rw [List.length_cons] at enough; omega),
        spells.1]
      rfl

theorem stringAt_spells {string : CString} (spells : Spells memory address string.bytes)
    (short : strlen string < scanLimit) : stringAt memory address = some string := by
  rw [stringAt, stringLoop_spells spells string.terminated short, Option.map_some,
    CString.ofBytes_bytes]

end Spelling

end NansOS.Kernel
