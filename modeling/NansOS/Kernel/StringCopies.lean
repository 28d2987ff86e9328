import NansOS.Foundation.Sentinel
import NansOS.Kernel.Memmove
import NansOS.Kernel.StringOps
import Mathlib.Data.List.Forall2

/-! Owns the copying functions of `string.c` on strings that stand in one memory and
may overlap: `strcpy`, `strcat`, `strncpy` and `strncat`, and `memcpy` where
`memmove` would do better. `strcpy` and `strcat` write until they have copied a NUL;
where they overwrite it first, they never return. -/

namespace NansOS.Kernel

open NansOS.Foundation

/-! ### The functions -/

/-- The loop of `strlen`. -/
def strlenPass (memory : Memory) (s len : Nat) : Except Nat Nat :=
  if memory (s + len) ≠ 0 then .ok (len + 1) else .error len

/-- `strlen`, on a pointer. -/
def StrlenReturns (memory : Memory) (s len : Nat) : Prop :=
  StopsWith (strlenPass memory s) 0 len

/-- The loop of `strcpy`: `while ((dest[i] = src[i]) != '\0') i++`. -/
def strcpyPass (dest src : Nat) : Copying UInt8 → Except Memory (Copying UInt8) :=
  copyPass 0 dest src

/-- `strcpy`: the pointer it returns and the memory it leaves. -/
def StrcpyReturns (memory : Memory) (dest src returned : Nat) (after : Memory) : Prop :=
  StopsWith (strcpyPass dest src) ⟨memory, 0⟩ after ∧ returned = dest

/-- The memory and the two pointers of `strcat`. -/
structure CatState where
  memory : Memory
  ptr : Nat
  src : Nat

/-- The loop of `strcat`, and the store behind it. -/
def strcatPass (state : CatState) : Except Memory CatState :=
  let { memory, ptr, src } := state
  if memory src ≠ 0 then .ok ⟨Function.update memory ptr (memory src), ptr + 1, src + 1⟩
  else .error (Function.update memory ptr 0)

/-- `strcat`. -/
def StrcatReturns (memory : Memory) (dest src returned : Nat) (after : Memory) : Prop :=
  ∃ len, StrlenReturns memory dest len ∧
    StopsWith strcatPass ⟨memory, dest + len, src⟩ after ∧ returned = dest

/-- The loop `for (; i < n && src[i] != '\0'; i++) dest[i] = src[i]` of `strncpy` and
of `strncat`, with `n - i` as its count: the memory and the last `i`. -/
def copyAtMost (memory : Memory) (dest src i : Nat) : Nat → Memory × Nat
  | 0 => (memory, i)
  | left + 1 =>
      if memory (src + i) ≠ 0 then
        copyAtMost (Function.update memory (dest + i) (memory (src + i))) dest src (i + 1) left
      else (memory, i)

/-- `strncpy`. Its second loop is that of `memset`. -/
def strncpy (memory : Memory) (dest src n : Nat) : Nat × Memory :=
  let (memory, i) := copyAtMost memory dest src 0 n
  (dest, memset memory (dest + i) 0 (n - i))

/-- `strncat`. -/
def StrncatReturns (memory : Memory) (dest src n returned : Nat) (after : Memory) : Prop :=
  ∃ destLen, StrlenReturns memory dest destLen ∧
    let (memory, i) := copyAtMost memory (dest + destLen) src 0 n
    returned = dest ∧ after = Function.update memory (dest + destLen + i) 0

/-! ### Strings as cells up to a NUL -/

section Strings

variable {memory after : Memory} {dest src address len returned : Nat}
variable {text first second : List UInt8}

theorem endsAt_of_spells (spells : Spells memory address text) (ends : 0 ∉ text) :
    EndsAt memory 0 address text.length where
  front := by
    intro index below zero
    apply ends
    rw [← (spells_iff.mp spells).1]
    exact List.mem_map.mpr ⟨index, List.mem_range.mpr below, zero⟩
  last := (spells_iff.mp spells).2

/-- The moved cells of a string spell it. -/
theorem spells_shifted (spells : Spells memory src text) :
    Spells (shifted memory dest src (text.length + 1)) dest text := by
  have ⟨bytes, last⟩ := spells_iff.mp spells
  rw [spells_iff]
  constructor
  · rw [← bytes, Memory.bytes_length]
    apply List.map_congr_left
    intro index member
    exact shifted_inside (Nat.lt_succ_of_lt (List.mem_range.mp member))
  · rw [shifted_inside (Nat.lt_succ_self _)]
    exact last

theorem strlen_returns (spells : Spells memory address text) (ends : 0 ∉ text) :
    StrlenReturns memory address text.length := by
  have cells := endsAt_of_spells spells ends
  have fromIndex : ∀ rest index, index + rest = text.length →
      StopsWith (strlenPass memory address) index text.length := by
    intro rest
    induction rest with
    | zero =>
        intro index here
        have here : index = text.length := here
        rw [here]
        have pass : strlenPass memory address text.length = .error text.length :=
          if_neg (not_not.mpr cells.last)
        rw [stopsWith_of_error pass]
    | succ rest inductionHypothesis =>
        intro index here
        have pass : strlenPass memory address index = .ok (index + 1) :=
          if_pos (cells.front index (by omega))
        rw [stopsWith_of_ok pass]
        exact inductionHypothesis (index + 1) (by omega)
  exact fromIndex text.length 0 (Nat.zero_add _)

theorem strlen_unique (spells : Spells memory address text) (ends : 0 ∉ text)
    (measured : StrlenReturns memory address len) : len = text.length :=
  measured.unique (strlen_returns spells ends)

end Strings

/-! ### strcpy -/

/-- `ab`, at 16, and `cde`, at 32. -/
def twoStrings : Memory := fun address =>
  [(16, 97), (17, 98), (32, 99), (33, 100), (34, 101)].lookup address |>.getD 0

section Copy

variable {memory after : Memory} {dest src returned : Nat} {text : List UInt8}

theorem strcpy_returns (spells : Spells memory src text) (ends : 0 ∉ text)
    (apart : ReadBeforeWritten dest src text.length) :
    StrcpyReturns memory dest src dest (shifted memory dest src (text.length + 1)) :=
  ⟨copy_stops (endsAt_of_spells spells ends) apart, rfl⟩

theorem strcpy_unique (spells : Spells memory src text) (ends : 0 ∉ text)
    (copied : StrcpyReturns memory dest src returned after) :
    returned = dest ∧ after = shifted memory dest src (text.length + 1) :=
  ⟨copied.2, copy_result (endsAt_of_spells spells ends) copied.1⟩

/-- `strcpy` returns exactly when the destination does not start inside the source,
its NUL included; then the destination spells the source and nothing else has
changed. -/
theorem strcpy_exact (memory : Memory) (dest src : Nat) (text : List UInt8)
    (spells : Spells memory src text) (ends : 0 ∉ text) :
    ((∃ returned after, StrcpyReturns memory dest src returned after) ↔
        dest ≤ src ∨ src + text.length < dest) ∧
      ∀ returned after, StrcpyReturns memory dest src returned after →
        returned = dest ∧ Spells after dest text ∧
          Set.EqOn after memory (Set.Ico dest (dest + (text.length + 1)))ᶜ := by
  constructor
  · constructor
    · intro returns
      have ⟨returned, after, copied⟩ := returns
      exact (copy_stops_iff (endsAt_of_spells spells ends)).mp ⟨after, copied.1⟩
    · exact fun apart => ⟨_, _, strcpy_returns spells ends apart⟩
  · intro returned after copied
    have ⟨pointer, result⟩ := strcpy_unique spells ends copied
    rw [result]
    exact ⟨pointer, spells_shifted spells, shifted_eqOn⟩

/-- The tail `b` of `ab` cannot be copied to the end of `ab`. -/
theorem twoStrings_strcpy :
    ((∃ returned after, StrcpyReturns twoStrings 18 17 returned after) ↔
        18 ≤ 17 ∨ 17 + [(98 : UInt8)].length < 18) ∧
      ∀ returned after, StrcpyReturns twoStrings 18 17 returned after →
        returned = 18 ∧ Spells after 18 [98] ∧
          Set.EqOn after twoStrings (Set.Ico 18 (18 + ([(98 : UInt8)].length + 1)))ᶜ :=
  strcpy_exact twoStrings 18 17 [98] ⟨rfl, rfl⟩ (by decide)

end Copy

/-! ### strcat -/

section Append

variable {memory after : Memory} {dest src returned : Nat} {first second : List UInt8}

/-- The pointers of `strcat`, seen from where they start. -/
def CatState.of (ptr src : Nat) (copying : Copying UInt8) : CatState where
  memory := copying.store
  ptr := ptr + copying.index
  src := src + copying.index

/-- The store behind the loop copies the NUL, so the loop is that of `strcpy`. -/
theorem strcatPass_of (ptr src : Nat) (copying : Copying UInt8) :
    strcatPass (CatState.of ptr src copying) =
      (strcpyPass ptr src copying).map (CatState.of ptr src) := by
  by_cases last : copying.store (src + copying.index) = 0
  · have stops : strcatPass (CatState.of ptr src copying) =
        .error (Function.update copying.store (ptr + copying.index) 0) :=
      if_neg (not_not.mpr last)
    have copies : strcpyPass ptr src copying =
        .error (Function.update copying.store (ptr + copying.index)
          (copying.store (src + copying.index))) :=
      if_pos last
    rw [stops, copies, last]
    rfl
  · have copies : strcpyPass ptr src copying =
        .ok ⟨Function.update copying.store (ptr + copying.index)
          (copying.store (src + copying.index)), copying.index + 1⟩ :=
      if_neg last
    rw [copies]
    exact if_pos last

theorem strcat_stops_iff (ptr : Nat) :
    StopsWith strcatPass ⟨memory, ptr, src⟩ after ↔
      StopsWith (strcpyPass ptr src) ⟨memory, 0⟩ after := by
  have both : StopsWith strcatPass (CatState.of ptr src ⟨memory, 0⟩) after ↔ _ :=
    stopsWith_view (strcatPass_of ptr src)
  exact both

/-- The destination ends behind the source, or elsewhere: at the NUL of the source,
and nowhere else in it. -/
theorem readBeforeWritten_iff (spells : Spells memory src second) (ends : 0 ∉ second)
    {ptr : Nat} (terminated : memory ptr = 0) :
    ReadBeforeWritten ptr src second.length ↔ second = [] ∨ src + second.length ≠ ptr := by
  have cells := endsAt_of_spells spells ends
  rw [ReadBeforeWritten, ← List.length_eq_zero_iff]
  constructor
  · intro apart
    omega
  · intro either
    by_contra inside
    have unended := cells.front (ptr - src) (by omega)
    rw [show src + (ptr - src) = ptr by omega] at unended
    exact unended terminated

/-- Bytes, and a string behind them. -/
theorem spells_append (head : Memory.bytes after dest first.length = first)
    (tail : Spells after (dest + first.length) second) : Spells after dest (first ++ second) := by
  induction first generalizing dest with
  | nil => exact tail
  | cons byte rest inductionHypothesis =>
      rw [List.length_cons, Memory.bytes_cons] at head
      have ⟨here, later⟩ := List.cons.inj head
      refine ⟨here, inductionHypothesis later ?_⟩
      rwa [List.length_cons, Nat.add_comm rest.length, ← Nat.add_assoc] at tail

/-- What is written behind a string leaves its bytes. -/
theorem bytes_before (start : Spells memory dest first)
    (agree : ∀ cell < dest + first.length, after cell = memory cell) :
    Memory.bytes after dest first.length = first :=
  (Memory.bytes_congr fun _ inside => agree _ inside.2).trans (spells_iff.mp start).1

/-- The appended cells: the destination spells both strings. -/
theorem spells_appended (start : Spells memory dest first) (spells : Spells memory src second) :
    Spells (shifted memory (dest + first.length) src (second.length + 1)) dest
      (first ++ second) := by
  apply spells_append _ (spells_shifted spells)
  exact bytes_before start fun _ below => shifted_outside (.inl below)

theorem strcat_unique (start : Spells memory dest first) (startEnds : 0 ∉ first)
    (spells : Spells memory src second) (ends : 0 ∉ second)
    (appended : StrcatReturns memory dest src returned after) :
    returned = dest ∧ after = shifted memory (dest + first.length) src (second.length + 1) := by
  have ⟨len, measured, stopped, pointer⟩ := appended
  have same := strlen_unique start startEnds measured
  rw [strcat_stops_iff, same] at stopped
  exact ⟨pointer, copy_result (endsAt_of_spells spells ends) stopped⟩

theorem strcat_returns (start : Spells memory dest first) (startEnds : 0 ∉ first)
    (spells : Spells memory src second) (ends : 0 ∉ second)
    (apart : ReadBeforeWritten (dest + first.length) src second.length) :
    StrcatReturns memory dest src dest
      (shifted memory (dest + first.length) src (second.length + 1)) :=
  ⟨first.length, strlen_returns start startEnds,
    (strcat_stops_iff _).mpr (copy_stops (endsAt_of_spells spells ends) apart), rfl⟩

/-- `strcat` returns exactly when the two strings do not end in the same NUL, or
there is nothing to append; then the destination spells both, and nothing else has
changed. In particular no string but the empty one can be appended to itself. -/
theorem strcat_exact (memory : Memory) (dest src : Nat) (first second : List UInt8)
    (start : Spells memory dest first) (startEnds : 0 ∉ first)
    (spells : Spells memory src second) (ends : 0 ∉ second) :
    ((∃ returned after, StrcatReturns memory dest src returned after) ↔
        second = [] ∨ src + second.length ≠ dest + first.length) ∧
      ∀ returned after, StrcatReturns memory dest src returned after →
        returned = dest ∧ Spells after dest (first ++ second) ∧
          Set.EqOn after memory
            (Set.Ico (dest + first.length) (dest + first.length + (second.length + 1)))ᶜ := by
  have terminated := (spells_iff.mp start).2
  constructor
  · rw [← readBeforeWritten_iff spells ends terminated]
    constructor
    · intro returns
      have ⟨returned, after, len, measured, stopped, _⟩ := returns
      have same := strlen_unique start startEnds measured
      rw [strcat_stops_iff, same] at stopped
      exact (copy_stops_iff (endsAt_of_spells spells ends)).mp ⟨after, stopped⟩
    · exact fun apart => ⟨_, _, strcat_returns start startEnds spells ends apart⟩
  · intro returned after appended
    have ⟨pointer, result⟩ := strcat_unique start startEnds spells ends appended
    rw [result]
    exact ⟨pointer, spells_appended start spells, shifted_eqOn⟩

/-- `cde` can be appended to `ab`. -/
theorem twoStrings_strcat :
    ((∃ returned after, StrcatReturns twoStrings 16 32 returned after) ↔
        [(99 : UInt8), 100, 101] = [] ∨
          32 + [(99 : UInt8), 100, 101].length ≠ 16 + [(97 : UInt8), 98].length) ∧
      ∀ returned after, StrcatReturns twoStrings 16 32 returned after →
        returned = 16 ∧ Spells after 16 ([97, 98] ++ [99, 100, 101]) ∧
          Set.EqOn after twoStrings
            (Set.Ico (16 + [(97 : UInt8), 98].length)
              (16 + [(97 : UInt8), 98].length + ([(99 : UInt8), 100, 101].length + 1)))ᶜ :=
  strcat_exact twoStrings 16 32 [97, 98] [99, 100, 101] ⟨rfl, rfl, rfl⟩ (by decide)
    ⟨rfl, rfl, rfl, rfl⟩ (by decide)

end Append

/-! ### Building a string -/

/-- A string argument: the pointer, and the bytes before its NUL. -/
structure StringArgument where
  address : Nat
  text : List UInt8

/-- The string stands in memory, apart from a range. -/
structure StringArgument.Apart (source : StringArgument) (memory : Memory) (low high : Nat) :
    Prop where
  spells : Spells memory source.address source.text
  ends : 0 ∉ source.text
  apart : source.address + source.text.length < low ∨ high ≤ source.address

/-- Calls of `strcat` on one destination. -/
inductive Appends (dest : Nat) : Memory → List StringArgument → Memory → Prop
  | nil (memory : Memory) : Appends dest memory [] memory
  | cons {memory middle after : Memory} {source : StringArgument} {rest : List StringArgument}
      (appended : StrcatReturns memory dest source.address dest middle)
      (later : Appends dest middle rest after) : Appends dest memory (source :: rest) after

/-- A call of `strcpy` and calls of `strcat` on its destination. -/
def Builds (memory : Memory) (dest : Nat) (first : StringArgument) (rest : List StringArgument)
    (after : Memory) : Prop :=
  ∃ middle, StrcpyReturns memory dest first.address dest middle ∧ Appends dest middle rest after

section Building

variable {memory after : Memory} {dest low high : Nat} {source : StringArgument}
variable {sources : List StringArgument} {done : List UInt8}

theorem StringArgument.Apart.congr (stands : source.Apart memory low high)
    (agree : Set.EqOn after memory (Set.Ico low high)ᶜ) : source.Apart after low high where
  spells := by
    apply stands.spells.congr
    apply agree.mono
    intro cell inside within
    have apart := stands.apart
    have inside := Set.mem_Ico.mp inside
    have within := Set.mem_Ico.mp within
    omega
  ends := stands.ends
  apart := stands.apart

/-- A store to a part of a range keeps what is outside the range. -/
theorem shifted_eqOn_range {target address count : Nat} (above : low ≤ target)
    (below : target + count ≤ high) :
    Set.EqOn (shifted memory target address count) memory (Set.Ico low high)ᶜ :=
  shifted_eqOn.mono (Set.compl_subset_compl.mpr (Set.Ico_subset_Ico above below))

theorem StringArgument.Apart.readBeforeWritten (stands : source.Apart memory low high)
    {target : Nat} (above : low ≤ target) (below : target < high) :
    ReadBeforeWritten target source.address source.text.length := by
  cases stands.apart with
  | inl before => exact .inr (by omega)
  | inr behind => exact .inl (by omega)

/-- The appended strings line up behind what the destination spells. -/
theorem appends_join (start : Spells memory dest done) (startEnds : 0 ∉ done)
    (stand : ∀ source ∈ sources, source.Apart memory dest high)
    (room : dest + (done ++ sources.flatMap StringArgument.text).length < high) :
    (∃ after, Appends dest memory sources after) ∧
      ∀ after, Appends dest memory sources after →
        Spells after dest (done ++ sources.flatMap StringArgument.text) ∧
          Set.EqOn after memory (Set.Ico dest high)ᶜ := by
  induction sources generalizing memory done with
  | nil =>
      rw [List.flatMap_nil, List.append_nil]
      refine ⟨⟨memory, .nil memory⟩, fun after appends => ?_⟩
      cases appends with
      | nil => exact ⟨start, Set.eqOn_refl _ _⟩
  | cons source rest inductionHypothesis =>
      have here := stand source List.mem_cons_self
      rw [List.flatMap_cons, ← List.append_assoc] at room ⊢
      have long : done.length + source.text.length ≤
          ((done ++ source.text) ++ rest.flatMap StringArgument.text).length := by
        simp only [List.length_append]
        omega
      have apart := here.readBeforeWritten (Nat.le_add_right dest done.length)
        (show dest + done.length < high by omega)
      have returns := strcat_returns start startEnds here.spells here.ends apart
      have frame : Set.EqOn (shifted memory (dest + done.length) source.address
          (source.text.length + 1)) memory (Set.Ico dest high)ᶜ :=
        shifted_eqOn_range (by omega) (by omega)
      have ends : 0 ∉ done ++ source.text := by
        rw [List.mem_append]
        exact not_or.mpr ⟨startEnds, here.ends⟩
      have ⟨exist, all⟩ := inductionHypothesis (spells_appended start here.spells) ends
        (fun other member => (stand other (List.mem_cons_of_mem _ member)).congr frame) room
      constructor
      · have ⟨after, later⟩ := exist
        exact ⟨after, .cons returns later⟩
      · intro after appends
        cases appends with
        | cons appended later =>
            have ⟨_, middle⟩ := strcat_unique start startEnds here.spells here.ends appended
            rw [middle] at later
            have ⟨spelled, kept⟩ := all after later
            exact ⟨spelled, kept.trans frame⟩

/-- Building a string by `strcpy` and any number of `strcat` calls, from strings that
stand apart from the whole of the result: all calls return, the destination spells the
strings one behind the other, and nothing else has changed. -/
theorem builds_join (memory : Memory) (dest : Nat) (first : StringArgument)
    (rest : List StringArgument)
    (stand : ∀ source ∈ first :: rest, source.Apart memory dest
      (dest + ((first :: rest).flatMap StringArgument.text).length + 1)) :
    (∃ after, Builds memory dest first rest after) ∧
      ∀ after, Builds memory dest first rest after →
        Spells after dest ((first :: rest).flatMap StringArgument.text) ∧
          Set.EqOn after memory
            (Set.Ico dest (dest + ((first :: rest).flatMap StringArgument.text).length + 1))ᶜ := by
  have here := stand first List.mem_cons_self
  generalize same : dest + ((first :: rest).flatMap StringArgument.text).length + 1 = high at *
  rw [List.flatMap_cons] at same ⊢
  have long := same
  rw [List.length_append] at long
  have apart := here.readBeforeWritten le_rfl (show dest < high by omega)
  have returns := strcpy_returns here.spells here.ends apart
  have frame : Set.EqOn (shifted memory dest first.address (first.text.length + 1)) memory
      (Set.Ico dest high)ᶜ :=
    shifted_eqOn_range le_rfl (by omega)
  have ⟨exist, all⟩ := appends_join (spells_shifted here.spells) here.ends
    (fun other member => (stand other (List.mem_cons_of_mem _ member)).congr frame)
    (show dest + (first.text ++ rest.flatMap StringArgument.text).length < high by omega)
  constructor
  · have ⟨after, later⟩ := exist
    exact ⟨after, _, returns, later⟩
  · intro after builds
    have ⟨middle, copied, later⟩ := builds
    have ⟨_, result⟩ := strcpy_unique here.spells here.ends copied
    rw [result] at later
    have ⟨spelled, kept⟩ := all after later
    exact ⟨spelled, kept.trans frame⟩

/-- `abcde` is built at 48. -/
theorem twoStrings_build :
    (∃ after, Builds twoStrings 48 ⟨16, [97, 98]⟩ [⟨32, [99, 100, 101]⟩] after) ∧
      ∀ after, Builds twoStrings 48 ⟨16, [97, 98]⟩ [⟨32, [99, 100, 101]⟩] after →
        Spells after 48 [97, 98, 99, 100, 101] ∧
          Set.EqOn after twoStrings (Set.Ico 48 54)ᶜ := by
  apply builds_join twoStrings 48 ⟨16, [97, 98]⟩ [⟨32, [99, 100, 101]⟩]
  intro source member
  simp only [List.mem_cons, List.not_mem_nil, or_false] at member
  cases member with
  | inl first =>
      rw [first]
      exact ⟨⟨rfl, rfl, rfl⟩, by decide, .inl (by decide)⟩
  | inr second =>
      rw [second]
      exact ⟨⟨rfl, rfl, rfl, rfl⟩, by decide, .inl (by decide)⟩

end Building

/-! ### strncpy and strncat -/

section Counted

variable {memory : Memory} {dest src target : Nat} {text first second : List UInt8}

/-- The bounded loop moves the string up to its NUL or its bound. -/
theorem copyAtMost_spec (ends : EndsAt memory 0 src text.length) {n : Nat}
    (apart : ReadBeforeWritten target src text.length ∨ n ≤ text.length ∧ src + n ≤ target) :
    copyAtMost memory target src 0 n =
      (shifted memory target src (min n text.length), min n text.length) := by
  have unread : ∀ index, index < n → index ≤ text.length →
      shifted memory target src index (src + index) = memory (src + index) := by
    intro index below within
    cases apart with
    | inl order => exact order.unread within
    | inr short => exact shifted_outside (.inl (by omega))
  have fromIndex : ∀ left index, index + left = n → index ≤ text.length →
      copyAtMost (shifted memory target src index) target src index left =
        (shifted memory target src (min n text.length), min n text.length) := by
    intro left
    induction left with
    | zero =>
        intro index here within
        have bound : min n text.length = index := by omega
        rw [copyAtMost, bound]
    | succ left inductionHypothesis =>
        intro index here within
        rw [copyAtMost, unread index (by omega) within]
        by_cases last : index = text.length
        · rw [if_neg (not_not.mpr (by rw [last]; exact ends.last))]
          rw [show min n text.length = index by omega]
        · rw [if_pos (ends.front index (by omega)), shifted_succ]
          exact inductionHypothesis (index + 1) (by omega) (by omega)
  have whole := fromIndex n 0 (Nat.zero_add n) (Nat.zero_le _)
  rwa [shifted_zero] at whole

theorem spells_getElem (spells : Spells memory src text) {index : Nat}
    (below : index < text.length) : memory (src + index) = text[index] := by
  have entry := List.getElem_of_eq (spells_iff.mp spells).1
    (show index < (memory.bytes src text.length).length by rwa [Memory.bytes_length])
  rw [← entry]
  simp only [Memory.bytes, List.getElem_map, List.getElem_range]

/-- The front of a string that has been moved. -/
theorem bytes_shifted (spells : Spells memory src text) {count : Nat}
    (within : count ≤ text.length) :
    Memory.bytes (shifted memory target src count) target count = text.take count := by
  apply List.ext_getElem
  · rw [Memory.bytes_length, List.length_take, min_eq_left within]
  · intro index left right
    rw [Memory.bytes_length] at left
    simp only [Memory.bytes, List.getElem_map, List.getElem_range, List.getElem_take]
    rw [shifted_inside left, spells_getElem spells (by omega)]

/-- The same with zeros behind it. -/
theorem bytes_padded (spells : Spells memory src text) (n : Nat) :
    Memory.bytes (memset (shifted memory target src (min n text.length))
        (target + min n text.length) 0 (n - min n text.length)) target n =
      text.take n ++ List.replicate (n - text.length) 0 := by
  apply List.ext_getElem
  · simp only [Memory.bytes_length, List.length_append, List.length_take, List.length_replicate]
    omega
  · intro index left right
    rw [Memory.bytes_length] at left
    simp only [Memory.bytes, List.getElem_map, List.getElem_range, memset_apply]
    by_cases below : index < min n text.length
    · rw [if_neg (by omega), shifted_inside below, spells_getElem spells (by omega),
        List.getElem_append_left (by rwa [List.length_take]), List.getElem_take]
    · rw [if_pos (by omega), List.getElem_append_right (by rw [List.length_take]; omega),
        List.getElem_replicate]

/-- `strncpy` fills exactly `n` bytes, with the front of the string and then with NUL
bytes, as long as it does not overwrite a byte that it has still to read; the
destination holds a NUL exactly if the string is shorter than `n`. -/
theorem strncpy_exact (memory : Memory) (dest src n : Nat) (text : List UInt8)
    (spells : Spells memory src text) (ends : 0 ∉ text)
    (apart : ReadBeforeWritten dest src text.length ∨ n ≤ text.length ∧ src + n ≤ dest) :
    (strncpy memory dest src n).1 = dest ∧
      (strncpy memory dest src n).2.bytes dest n =
        text.take n ++ List.replicate (n - text.length) 0 ∧
      Set.EqOn (strncpy memory dest src n).2 memory (Set.Ico dest (dest + n))ᶜ ∧
      (0 ∈ (strncpy memory dest src n).2.bytes dest n ↔ text.length < n) := by
  have copied := copyAtMost_spec (endsAt_of_spells spells ends) apart
  have result : strncpy memory dest src n = (dest, memset (shifted memory dest src
      (min n text.length)) (dest + min n text.length) 0 (n - min n text.length)) := by
    rw [strncpy, copied]
  have bytes : (strncpy memory dest src n).2.bytes dest n =
      text.take n ++ List.replicate (n - text.length) 0 := by
    rw [result]
    exact bytes_padded spells n
  refine ⟨by rw [result], bytes, ?_, ?_⟩
  · rw [result]
    intro cell outside
    have outside : ¬ (dest ≤ cell ∧ cell < dest + n) := outside
    dsimp only
    rw [memset_apply, if_neg (by omega), shifted_outside (by omega)]
  · rw [bytes, List.mem_append, List.mem_replicate]
    have clean : 0 ∉ text.take n := fun member => ends (List.mem_of_mem_take member)
    constructor
    · intro either
      have filled := either.resolve_left clean
      omega
    · exact fun short => .inr ⟨by omega, rfl⟩

/-- Five bytes for `ab`: two letters and three NUL bytes. -/
theorem twoStrings_strncpy :
    (strncpy twoStrings 48 16 5).1 = 48 ∧
      (strncpy twoStrings 48 16 5).2.bytes 48 5 = [97, 98, 0, 0, 0] ∧
      Set.EqOn (strncpy twoStrings 48 16 5).2 twoStrings (Set.Ico 48 (48 + 5))ᶜ ∧
      (0 ∈ (strncpy twoStrings 48 16 5).2.bytes 48 5 ↔ [(97 : UInt8), 98].length < 5) :=
  strncpy_exact twoStrings 48 16 5 [97, 98] ⟨rfl, rfl, rfl⟩ (by decide) (.inl (.inr (by decide)))

/-- Where the bounded loop runs into its own source it copies no NUL. -/
theorem copyAtMost_into (up : src < target) (left : Nat) :
    ∀ (i : Nat) (memory : Memory), (∀ cell, src ≤ cell → cell < target + i → memory cell ≠ 0) →
      (copyAtMost memory target src i left).2 = i + left ∧
        ∀ cell, src ≤ cell → cell < target + i + left →
          (copyAtMost memory target src i left).1 cell ≠ 0 := by
  induction left with
  | zero => exact fun i memory none => ⟨rfl, none⟩
  | succ left inductionHypothesis =>
      intro i memory none
      have unended := none (src + i) (Nat.le_add_right _ _) (by omega)
      have ⟨count, filled⟩ := inductionHypothesis (i + 1)
        (Function.update memory (target + i) (memory (src + i))) (by
          intro cell above below
          by_cases here : cell = target + i
          · rw [here, Function.update_self]
            exact unended
          · rw [Function.update_of_ne here]
            exact none cell above (by omega))
      rw [copyAtMost, if_pos unended]
      exact ⟨by omega, fun cell above below => filled cell above (by omega)⟩

/-- Behind the bounded loop the NUL is stored. -/
theorem spells_copied (start : Spells memory dest first) (spells : Spells memory src second)
    (n : Nat) :
    Spells (Function.update
        (shifted memory (dest + first.length) src (min n second.length))
        (dest + first.length + min n second.length) 0) dest (first ++ second.take n) := by
  have front : second.take n = second.take (min n second.length) := by
    rw [List.take_eq_take_iff]
    omega
  have whole : (second.take n).length = min n second.length := List.length_take
  apply spells_append
  · apply bytes_before start
    intro cell below
    rw [Function.update_of_ne (by omega), shifted_outside (.inl below)]
  · rw [spells_iff, whole, Function.update_self]
    refine ⟨?_, rfl⟩
    rw [front, ← bytes_shifted spells (Nat.min_le_right n second.length)]
    exact Memory.bytes_congr fun cell inside => Function.update_of_ne (Nat.ne_of_lt inside.2) _ _

/-- `strncat` always returns. The destination spells its string and the front of the
other, unless both end in the same NUL and the bound lies behind it: then the NUL that
ends the source is overwritten before it is read. -/
theorem strncat_exact (memory : Memory) (dest src n : Nat) (first second : List UInt8)
    (start : Spells memory dest first) (startEnds : 0 ∉ first)
    (spells : Spells memory src second) (ends : 0 ∉ second) :
    ∃ after, (∀ returned other, StrncatReturns memory dest src n returned other ↔
        returned = dest ∧ other = after) ∧
      (Spells after dest (first ++ second.take n) ↔
        second = [] ∨ src + second.length ≠ dest + first.length ∨ n ≤ second.length) := by
  have cells := endsAt_of_spells spells ends
  have order := readBeforeWritten_iff spells ends (spells_iff.mp start).2
  refine ⟨Function.update (copyAtMost memory (dest + first.length) src 0 n).1
    (dest + first.length + (copyAtMost memory (dest + first.length) src 0 n).2) 0, ?_, ?_⟩
  · intro returned other
    constructor
    · intro appended
      have ⟨len, measured, result⟩ := appended
      have same := strlen_unique start startEnds measured
      rw [same] at result
      exact result
    · exact fun result => ⟨first.length, strlen_returns start startEnds, result⟩
  · constructor
    · -- In the bad case the cell where the NUL of the result would be is filled.
      intro spelled
      by_contra bad
      have ⟨nonempty, rest⟩ := not_or.mp bad
      have ⟨sameEnd, behind⟩ := not_or.mp rest
      have sameEnd := not_not.mp sameEnd
      have positive := List.length_pos_iff.mpr nonempty
      have ⟨count, filled⟩ := copyAtMost_into (show src < dest + first.length by omega) n 0 memory
        (by
          intro cell above below
          have unended := cells.front (cell - src) (by omega)
          rwa [show src + (cell - src) = cell by omega] at unended)
      have last := (spells_iff.mp spelled).2
      rw [List.take_of_length_le (by omega), List.length_append, count,
        Function.update_of_ne (by omega)] at last
      exact filled _ (by omega) (by omega) last
    · intro good
      have apart : ReadBeforeWritten (dest + first.length) src second.length ∨
          n ≤ second.length ∧ src + n ≤ dest + first.length := by
        by_cases ordered : ReadBeforeWritten (dest + first.length) src second.length
        · exact .inl ordered
        · have short : n ≤ second.length := by
            cases good with
            | inl empty => exact absurd (order.mpr (.inl empty)) ordered
            | inr either =>
                cases either with
                | inl differ => exact absurd (order.mpr (.inr differ)) ordered
                | inr short => exact short
          have ⟨_, sameEnd⟩ := not_or.mp (mt order.mpr ordered)
          have sameEnd := not_not.mp sameEnd
          exact .inr ⟨short, by omega⟩
      rw [copyAtMost_spec cells apart]
      exact spells_copied start spells n

/-- Two letters of `cde` behind `ab`. -/
theorem twoStrings_strncat :
    ∃ after, (∀ returned other, StrncatReturns twoStrings 16 32 2 returned other ↔
        returned = 16 ∧ other = after) ∧
      (Spells after 16 ([97, 98] ++ [(99 : UInt8), 100, 101].take 2) ↔
        [(99 : UInt8), 100, 101] = [] ∨
          32 + [(99 : UInt8), 100, 101].length ≠ 16 + [(97 : UInt8), 98].length ∨
          2 ≤ [(99 : UInt8), 100, 101].length) :=
  strncat_exact twoStrings 16 32 2 [97, 98] [99, 100, 101] ⟨rfl, rfl, rfl⟩ (by decide)
    ⟨rfl, rfl, rfl, rfl⟩ (by decide)

end Counted

/-! ### memcpy against memmove -/

section Overlap

variable {memory : Memory} {dest src n : Nat}

/-- The source repeats with this period, as far as the range goes. -/
def Repeats (memory : Memory) (src n period : Nat) : Prop :=
  ∀ i, i + period < n → memory (src + (i + period)) = memory (src + i)

/-- A byte of a repeating range is that of its remainder. -/
theorem Repeats.mod {period : Nat} (repeats : Repeats memory src n period) (positive : 0 < period)
    {i : Nat} (below : i < n) : memory (src + i % period) = memory (src + i) := by
  induction i using Nat.strong_induction_on with
  | _ i inductionHypothesis =>
      by_cases short : i < period
      · rw [Nat.mod_eq_of_lt short]
      · have earlier := inductionHypothesis (i - period) (by omega) (by omega)
        have step := repeats (i - period) (by omega)
        rw [show i - period + period = i by omega] at step
        rw [Nat.mod_eq_sub_mod (by omega), earlier, step]

theorem memcpy_copies_iff :
    (∀ i < n, memcpy memory dest src n (dest + i) = memory (src + i)) ↔
      dest ≤ src ∨ src + n ≤ dest ∨ Repeats memory src n (dest - src) := by
  constructor
  · intro copies
    by_cases up : src < dest
    · by_cases overlap : dest < src + n
      · right
        right
        intro i below
        have ahead := copies (i + (dest - src)) below
        have here := copies i (by omega)
        rw [memcpy_apply memory dest src n _ below, copiedOffset, if_pos up,
          Nat.add_mod_right] at ahead
        rw [memcpy_apply memory dest src n i (by omega), copiedOffset, if_pos up] at here
        exact ahead.symm.trans here
      · exact .inr (.inl (by omega))
    · exact .inl (by omega)
  · intro harmless i below
    rw [memcpy_apply memory dest src n i below]
    cases harmless with
    | inl down => rw [copiedOffset_of_apart (.inl down)]
    | inr either =>
        cases either with
        | inl apart => rw [copiedOffset_of_apart (.inr (by omega))]
        | inr repeats =>
            by_cases up : src < dest
            · rw [copiedOffset, if_pos up, repeats.mod (by omega) below]
            · rw [copiedOffset_of_apart (.inl (by omega))]

/-- `memcpy` leaves what `memmove` leaves exactly when the destination does not start
inside the range behind its first byte, or the range repeats with their distance. -/
theorem memcpy_eq_memmove_iff (memory : Memory) (dest src n : Nat) :
    memcpy memory dest src n = (memmove memory dest src n).2 ↔
      dest ≤ src ∨ src + n ≤ dest ∨ Repeats memory src n (dest - src) := by
  rw [← memcpy_copies_iff]
  by_cases down : dest < src
  · have same : (memmove memory dest src n).2 = memcpy memory dest src n := by
      rw [memmove, if_pos down]
    rw [same]
    exact iff_of_true rfl (memcpy_copies_iff.mpr (.inl down.le))
  · have moved : IsMoved memory (memmove memory dest src n).2 dest src n := by
      rw [memmove, if_neg down, memmoveDown_eq_copied]
      exact isMoved_of_order (fun _ => List.mem_reverse) (downward_readsFirst (by omega))
        downward_writesOnce
    constructor
    · intro same i below
      rw [same]
      exact moved.moved i below
    · intro copies
      funext cell
      by_cases inside : dest ≤ cell ∧ cell < dest + n
      · have copied := copies (cell - dest) (by omega)
        have other := moved.moved (cell - dest) (by omega)
        rw [show dest + (cell - dest) = cell by omega] at copied other
        rw [copied, other]
      · rw [memcpy_eqOn memory dest src n inside, moved.kept inside]

end Overlap

end NansOS.Kernel
