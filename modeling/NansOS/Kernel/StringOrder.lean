import NansOS.Foundation.Halting
import NansOS.Kernel.StringOps

/-! Owns the comparisons of `string.c` in memory: the loops of `strcmp`, `strncmp`
and `memcmp` on their pointers, what each returns for strings that stand there,
and the order of strings that all three decide. The loops test signed `char`s for
equality, and the value returned is a difference of unsigned ones. -/

namespace NansOS.Kernel

open NansOS.Foundation

/-! ### The loops -/

/-- A `char` of memory. -/
def charAt (memory : Memory) (address : Nat) : Int8 := (memory address).toInt8

/-- The difference of two bytes as an `int`. -/
def byteDifference (memory : Memory) (s1 s2 : Nat) : Int :=
  ((memory s1).toNat : Int) - (memory s2).toNat

/-- The pointers of `strcmp`. -/
structure ComparedPair where
  s1 : Nat
  s2 : Nat

/-- One pass of the loop of `strcmp`; where the loop ends, the value returned. -/
def strcmpPass (memory : Memory) (pair : ComparedPair) : Except Int ComparedPair :=
  if charAt memory pair.s1 ≠ 0 ∧ charAt memory pair.s1 = charAt memory pair.s2 then
    .ok ⟨pair.s1 + 1, pair.s2 + 1⟩
  else .error (byteDifference memory pair.s1 pair.s2)

/-- The pointers and the count of `strncmp`. -/
structure CountedPair extends ComparedPair where
  n : Nat

/-- One pass of the loop of `strncmp`; where the loop ends, the value returned. -/
def strncmpPass (memory : Memory) (pair : CountedPair) : Except Int CountedPair :=
  if pair.n ≠ 0 ∧ charAt memory pair.s1 ≠ 0 ∧
      charAt memory pair.s1 = charAt memory pair.s2 then
    .ok ⟨⟨pair.s1 + 1, pair.s2 + 1⟩, pair.n - 1⟩
  else if pair.n = 0 then .error 0
  else .error (byteDifference memory pair.s1 pair.s2)

/-- One pass of the loop of `memcmp`, on its index; where the function returns, the
value returned. -/
def memcmpPass (memory : Memory) (p1 p2 n : Nat) (i : Nat) : Except Int Nat :=
  if i < n then
    if memory (p1 + i) ≠ memory (p2 + i) then .error (byteDifference memory (p1 + i) (p2 + i))
    else .ok (i + 1)
  else .error 0

/-- `strcmp` returns this value. -/
def StrcmpReturns (memory : Memory) (s1 s2 : Nat) (result : Int) : Prop :=
  StopsWith (strcmpPass memory) ⟨s1, s2⟩ result

/-- `strncmp` returns this value. -/
def StrncmpReturns (memory : Memory) (s1 s2 n : Nat) (result : Int) : Prop :=
  StopsWith (strncmpPass memory) ⟨⟨s1, s2⟩, n⟩ result

/-- `memcmp` returns this value. -/
def MemcmpReturns (memory : Memory) (s1 s2 n : Nat) (result : Int) : Prop :=
  StopsWith (memcmpPass memory s1 s2 n) 0 result

/-! ### One pass -/

section Passes

variable {memory : Memory} {s1 s2 n i : Nat}

theorem charAt_eq_zero_iff (memory : Memory) (address : Nat) :
    charAt memory address = 0 ↔ memory address = 0 := by
  constructor
  · intro zero
    exact congrArg Int8.toUInt8 zero
  · intro zero
    rw [charAt, zero]
    rfl

/-- Equal signed characters are equal bytes. -/
theorem charAt_eq_iff (memory : Memory) (s1 s2 : Nat) :
    charAt memory s1 = charAt memory s2 ↔ memory s1 = memory s2 :=
  ⟨fun same => congrArg Int8.toUInt8 same, fun same => congrArg UInt8.toInt8 same⟩

theorem strcmpPass_same (more : memory s1 ≠ 0) (same : memory s1 = memory s2) :
    strcmpPass memory ⟨s1, s2⟩ = .ok ⟨s1 + 1, s2 + 1⟩ := by
  have test : charAt memory s1 ≠ 0 ∧ charAt memory s1 = charAt memory s2 :=
    ⟨mt (charAt_eq_zero_iff memory s1).mp more, (charAt_eq_iff memory s1 s2).mpr same⟩
  exact if_pos test

theorem strcmpPass_end (ends : memory s1 = 0 ∨ memory s1 ≠ memory s2) :
    strcmpPass memory ⟨s1, s2⟩ = .error (byteDifference memory s1 s2) := by
  have test : ¬ (charAt memory s1 ≠ 0 ∧ charAt memory s1 = charAt memory s2) := by
    rw [charAt_eq_iff, Ne, charAt_eq_zero_iff]
    tauto
  exact if_neg test

theorem strncmpPass_same (more : memory s1 ≠ 0) (same : memory s1 = memory s2) :
    strncmpPass memory ⟨⟨s1, s2⟩, n + 1⟩ = .ok ⟨⟨s1 + 1, s2 + 1⟩, n⟩ := by
  have test : n + 1 ≠ 0 ∧ charAt memory s1 ≠ 0 ∧ charAt memory s1 = charAt memory s2 :=
    ⟨Nat.succ_ne_zero n, mt (charAt_eq_zero_iff memory s1).mp more,
      (charAt_eq_iff memory s1 s2).mpr same⟩
  exact if_pos test

theorem strncmpPass_count (s1 s2 : Nat) : strncmpPass memory ⟨⟨s1, s2⟩, 0⟩ = .error 0 := rfl

theorem strncmpPass_end (ends : memory s1 = 0 ∨ memory s1 ≠ memory s2) :
    strncmpPass memory ⟨⟨s1, s2⟩, n + 1⟩ = .error (byteDifference memory s1 s2) := by
  have test : ¬ (n + 1 ≠ 0 ∧ charAt memory s1 ≠ 0 ∧ charAt memory s1 = charAt memory s2) := by
    rw [charAt_eq_iff, Ne, Ne, charAt_eq_zero_iff]
    tauto
  exact (if_neg test).trans (if_neg (Nat.succ_ne_zero n))

theorem memcmpPass_same (below : i < n) (same : memory (s1 + i) = memory (s2 + i)) :
    memcmpPass memory s1 s2 n i = .ok (i + 1) :=
  (if_pos below).trans (if_neg (not_not.mpr same))

theorem memcmpPass_count : memcmpPass memory s1 s2 n n = .error 0 := if_neg (Nat.lt_irrefl n)

theorem memcmpPass_end (below : i < n) (differ : memory (s1 + i) ≠ memory (s2 + i)) :
    memcmpPass memory s1 s2 n i = .error (byteDifference memory (s1 + i) (s2 + i)) :=
  (if_pos below).trans (if_pos differ)

end Passes

/-! ### Two strings side by side -/

/-- The first byte of a string, its NUL where there is none before it. -/
def headByte (bytes : List UInt8) : UInt8 := bytes.head?.getD 0

/-- The difference of the first bytes. -/
def headDifference (left right : List UInt8) : Int :=
  ((headByte left).toNat : Int) - (headByte right).toNat

/-- Two strings share bytes for a while, and then both end or differ in a byte. -/
inductive SideBySide : List UInt8 → List UInt8 → Prop where
  | ended : SideBySide [] []
  | apart {left right : List UInt8} (differ : headByte left ≠ headByte right) :
      SideBySide left right
  | shared {byte : UInt8} {left right : List UInt8} (more : byte ≠ 0)
      (rest : SideBySide left right) : SideBySide (byte :: left) (byte :: right)

theorem sideBySide {left right : List UInt8} (leftEnds : 0 ∉ left) (rightEnds : 0 ∉ right) :
    SideBySide left right := by
  induction left generalizing right with
  | nil =>
      cases right with
      | nil => exact .ended
      | cons byte rights =>
          have nonzero : 0 ≠ byte := fun zero => rightEnds (by simp [zero])
          exact .apart nonzero
  | cons byte lefts inductionHypothesis =>
      have nonzero : byte ≠ 0 := fun zero => leftEnds (by simp [zero])
      cases right with
      | nil => exact .apart nonzero
      | cons other rights =>
          by_cases same : byte = other
          · subst same
            exact .shared nonzero (inductionHypothesis
              (fun member => leftEnds (List.mem_cons_of_mem _ member))
              (fun member => rightEnds (List.mem_cons_of_mem _ member)))
          · exact .apart same

section Values

variable {left right : List UInt8}

theorem strcmpLoop_shared (byte : UInt8) (left right : List UInt8) :
    strcmpLoop (byte :: left) (byte :: right) = strcmpLoop left right := if_pos rfl

theorem strcmpLoop_apart (differ : headByte left ≠ headByte right) :
    strcmpLoop left right = headDifference left right := by
  cases left with
  | nil => cases right <;> rfl
  | cons byte lefts =>
      cases right with
      | nil => rfl
      | cons other rights => exact if_neg differ

theorem strncmpLoop_zero (left right : List UInt8) : strncmpLoop left right 0 = 0 := by
  cases left <;> cases right <;> rfl

/-- Counting is comparing the strings cut off at the count. -/
theorem strncmpLoop_eq_strcmpLoop_take (left right : List UInt8) (n : Nat) :
    strncmpLoop left right n = strcmpLoop (left.take n) (right.take n) := by
  induction n generalizing left right with
  | zero => exact strncmpLoop_zero left right
  | succ n inductionHypothesis =>
      cases left with
      | nil => cases right <;> rfl
      | cons byte lefts =>
          cases right with
          | nil => rfl
          | cons other rights =>
              rw [List.take_succ_cons, List.take_succ_cons, strncmpLoop, strcmpLoop,
                inductionHypothesis]

theorem strncmpLoop_shared (byte : UInt8) (left right : List UInt8) (n : Nat) :
    strncmpLoop (byte :: left) (byte :: right) (n + 1) = strncmpLoop left right n := if_pos rfl

theorem headByte_take (bytes : List UInt8) (n : Nat) :
    headByte (bytes.take (n + 1)) = headByte bytes := by
  cases bytes <;> rfl

theorem strncmpLoop_apart (differ : headByte left ≠ headByte right) (n : Nat) :
    strncmpLoop left right (n + 1) = headDifference left right := by
  have differ : headByte (left.take (n + 1)) ≠ headByte (right.take (n + 1)) := by
    rwa [headByte_take, headByte_take]
  rw [strncmpLoop_eq_strcmpLoop_take, strcmpLoop_apart differ, headDifference, headByte_take,
    headByte_take]
  rfl

end Values

/-! ### What the loops return -/

section Returns

variable {memory : Memory} {s1 s2 n i : Nat} {left right : List UInt8}

theorem byteDifference_spells (first : Spells memory s1 left) (second : Spells memory s2 right) :
    byteDifference memory s1 s2 = headDifference left right := by
  rw [byteDifference, first.head, second.head]
  rfl

theorem differ_of_spells (first : Spells memory s1 left) (second : Spells memory s2 right)
    (differ : headByte left ≠ headByte right) : memory s1 ≠ memory s2 := by
  rw [first.head, second.head]
  exact differ

theorem strcmp_returns_loop (compared : SideBySide left right) (first : Spells memory s1 left)
    (second : Spells memory s2 right) :
    StrcmpReturns memory s1 s2 (strcmpLoop left right) := by
  induction compared generalizing s1 s2 with
  | ended =>
      have ends : memory s1 = 0 := first
      apply (stopsWith_of_error (strcmpPass_end (.inl ends))).mpr
      exact (byteDifference_spells first second).symm
  | apart differ =>
      have ends := differ_of_spells first second differ
      apply (stopsWith_of_error (strcmpPass_end (.inr ends))).mpr
      rw [strcmpLoop_apart differ, byteDifference_spells first second]
  | shared more _ inductionHypothesis =>
      have same : memory s1 = memory s2 := first.1.trans second.1.symm
      apply (stopsWith_of_ok (strcmpPass_same (first.1 ▸ more) same)).mpr
      rw [strcmpLoop_shared]
      exact inductionHypothesis first.2 second.2

theorem strncmp_returns_zero (left right : List UInt8) :
    StrncmpReturns memory s1 s2 0 (strncmpLoop left right 0) := by
  rw [strncmpLoop_zero]
  exact (stopsWith_of_error (strncmpPass_count s1 s2)).mpr rfl

theorem strncmp_returns_loop (compared : SideBySide left right) (first : Spells memory s1 left)
    (second : Spells memory s2 right) (n : Nat) :
    StrncmpReturns memory s1 s2 n (strncmpLoop left right n) := by
  induction compared generalizing s1 s2 n with
  | ended =>
      cases n with
      | zero => exact strncmp_returns_zero _ _
      | succ n =>
          have ends : memory s1 = 0 := first
          apply (stopsWith_of_error (strncmpPass_end (.inl ends))).mpr
          exact (byteDifference_spells first second).symm
  | apart differ =>
      cases n with
      | zero => exact strncmp_returns_zero _ _
      | succ n =>
          have ends := differ_of_spells first second differ
          apply (stopsWith_of_error (strncmpPass_end (.inr ends))).mpr
          rw [strncmpLoop_apart differ, byteDifference_spells first second]
  | shared more _ inductionHypothesis =>
      cases n with
      | zero => exact strncmp_returns_zero _ _
      | succ n =>
          have same : memory s1 = memory s2 := first.1.trans second.1.symm
          apply (stopsWith_of_ok (strncmpPass_same (first.1 ▸ more) same)).mpr
          rw [strncmpLoop_shared]
          exact inductionHypothesis first.2 second.2 n

theorem memcmp_stops_at_count (done : i = n) (left right : List UInt8) :
    StopsWith (memcmpPass memory s1 s2 n) i (strncmpLoop left right 0) := by
  rw [strncmpLoop_zero, done]
  exact (stopsWith_of_error memcmpPass_count).mpr rfl

/-- From index `i` on: `memcmp` does not stop at a NUL, but where one string ends
before the count they differ, and where both end nothing is left to count. -/
theorem memcmp_stops (compared : SideBySide left right)
    (first : Spells memory (s1 + i) left) (second : Spells memory (s2 + i) right)
    {count : Nat} (whole : i + count = n) (leftBound : count ≤ left.length + 1)
    (rightBound : count ≤ right.length + 1) :
    StopsWith (memcmpPass memory s1 s2 n) i (strncmpLoop left right count) := by
  induction compared generalizing i count with
  | ended =>
      cases count with
      | zero => exact memcmp_stops_at_count whole _ _
      | succ count =>
          have last : count = 0 := Nat.le_zero.mp (Nat.le_of_succ_le_succ leftBound)
          have same : memory (s1 + i) = memory (s2 + i) := Eq.trans first (Eq.symm second)
          apply (stopsWith_of_ok (memcmpPass_same (by omega) same)).mpr
          exact memcmp_stops_at_count (by omega) [] []
  | apart differ =>
      cases count with
      | zero => exact memcmp_stops_at_count whole _ _
      | succ count =>
          have ends := differ_of_spells first second differ
          apply (stopsWith_of_error (memcmpPass_end (by omega) ends)).mpr
          rw [strncmpLoop_apart differ, byteDifference_spells first second]
  | shared more _ inductionHypothesis =>
      cases count with
      | zero => exact memcmp_stops_at_count whole _ _
      | succ count =>
          have same : memory (s1 + i) = memory (s2 + i) := first.1.trans second.1.symm
          apply (stopsWith_of_ok (memcmpPass_same (by omega) same)).mpr
          rw [strncmpLoop_shared]
          exact inductionHypothesis first.2 second.2 (by omega)
            (Nat.le_of_succ_le_succ leftBound) (Nat.le_of_succ_le_succ rightBound)

end Returns

/-! ### The order -/

/-- The sign of a comparison is the lexicographic order of two byte sequences. -/
structure IsSignOf (result : Int) (left right : List UInt8) : Prop where
  less : result < 0 ↔ left < right
  equal : result = 0 ↔ left = right
  greater : 0 < result ↔ right < left

/-- A comparison of strings by their sign is one linear order, the lexicographic one. -/
structure IsStringOrder (compare : CString → CString → Int) : Prop where
  sign : ∀ left right, IsSignOf (compare left right) left.bytes right.bytes
  equal : ∀ left right, compare left right = 0 ↔ left = right
  antisymmetric : ∀ left right, (compare right left).sign = -(compare left right).sign
  transitive : ∀ left middle right,
    compare left middle ≤ 0 → compare middle right ≤ 0 → compare left right ≤ 0

/-- A string cut off behind its first `n` bytes. -/
def CString.truncate (string : CString) (n : Nat) : CString where
  bytes := string.bytes.take n
  terminated := fun member => string.terminated (List.mem_of_mem_take member)

section Order

variable {left right : List UInt8}

theorem isSignOf_shared {result : Int} (sign : IsSignOf result left right) (byte : UInt8) :
    IsSignOf result (byte :: left) (byte :: right) where
  less := by simp [sign.less]
  equal := by simp [sign.equal]
  greater := by simp [sign.greater]

/-- Where the first bytes differ they decide; an end counts as the byte 0. -/
theorem lt_iff_of_apart (differ : headByte left ≠ headByte right) :
    left < right ↔ headByte left < headByte right := by
  cases left with
  | nil =>
      cases right with
      | nil => exact absurd rfl differ
      | cons byte rights =>
          have positive : headByte [] < headByte (byte :: rights) :=
            UInt8.pos_iff_ne_zero.mpr differ.symm
          exact iff_of_true (List.nil_lt_cons byte rights) positive
  | cons byte lefts =>
      cases right with
      | nil => exact iff_of_false (List.not_lt_nil _) UInt8.not_lt_zero
      | cons other rights =>
          have different : byte ≠ other := differ
          rw [List.cons_lt_cons_iff, or_iff_left fun same => different same.1]
          rfl

theorem isSignOf_apart (differ : headByte left ≠ headByte right) :
    IsSignOf (headDifference left right) left right where
  less := by
    rw [lt_iff_of_apart differ, UInt8.lt_iff_toNat_lt, headDifference]
    omega
  equal := by
    have unequal : (headByte left).toNat ≠ (headByte right).toNat := mt UInt8.toNat_inj.mp differ
    constructor
    · intro zero
      rw [headDifference] at zero
      omega
    · intro same
      exact absurd (congrArg headByte same) differ
  greater := by
    rw [lt_iff_of_apart differ.symm, UInt8.lt_iff_toNat_lt, headDifference]
    omega

theorem strcmpLoop_isSignOf (compared : SideBySide left right) :
    IsSignOf (strcmpLoop left right) left right := by
  induction compared with
  | ended => exact ⟨by simp [strcmpLoop], by simp [strcmpLoop], by simp [strcmpLoop]⟩
  | apart differ =>
      rw [strcmpLoop_apart differ]
      exact isSignOf_apart differ
  | shared _ _ inductionHypothesis =>
      rw [strcmpLoop_shared]
      exact isSignOf_shared inductionHypothesis _

theorem strcmp_isStringOrder : IsStringOrder strcmp := by
  have sign : ∀ left right : CString, IsSignOf (strcmp left right) left.bytes right.bytes :=
    fun left right => strcmpLoop_isSignOf (sideBySide left.terminated right.terminated)
  refine ⟨sign, strcmp_eq_zero_iff, ?_, ?_⟩
  · intro left right
    -- Both signs are those of one comparison of the two sequences.
    have forth := sign left right
    have back := sign right left
    rcases lt_trichotomy (strcmp left right) 0 with less | equal | greater
    · have greater := back.greater.mpr (forth.less.mp less)
      rw [Int.sign_eq_neg_one_of_neg less, Int.sign_eq_one_of_pos greater, Int.neg_neg]
    · have same := back.equal.mpr (forth.equal.mp equal).symm
      rw [equal, same]
      rfl
    · have less := back.less.mpr (forth.greater.mp greater)
      rw [Int.sign_eq_neg_one_of_neg less, Int.sign_eq_one_of_pos greater]
  · intro left middle right first second
    have first : left.bytes ≤ middle.bytes := mt (sign left middle).greater.mpr first.not_gt
    have second : middle.bytes ≤ right.bytes := mt (sign middle right).greater.mpr second.not_gt
    have both : left.bytes ≤ right.bytes := List.le_trans first second
    exact not_lt.mp (mt (sign left right).greater.mp both)

/-- A byte above 127 is a negative `char` and still the greater. -/
example : 0 < strcmp ⟨[128], by decide⟩ ⟨[127], by decide⟩ := by decide

end Order

/-! ### Strings in one memory -/

/-- A string and the address at which it stands. -/
structure StringIn (memory : Memory) where
  address : Nat
  string : CString
  spells : Spells memory address string.bytes

/-- The three comparisons decide one order: `strcmp` the lexicographic order of
unsigned bytes, `strncmp` that of the strings cut off at the count, and `memcmp`,
as far as both arrays reach, what `strncmp` decides. -/
theorem comparisons_one_order :
    (∀ (memory : Memory) (a b : StringIn memory),
      StrcmpReturns memory a.address b.address (strcmp a.string b.string) ∧
      (∀ n, StrncmpReturns memory a.address b.address n (strncmp a.string b.string n)) ∧
      ∀ k, k ≤ strlen a.string + 1 → k ≤ strlen b.string + 1 →
        ∃ result, MemcmpReturns memory a.address b.address k result ∧
          result.sign = (strncmp a.string b.string k).sign) ∧
    IsStringOrder strcmp ∧
    ∀ a b n, (strncmp a b n).sign = (strcmp (a.truncate n) (b.truncate n)).sign := by
  refine ⟨fun memory a b => ?_, strcmp_isStringOrder, fun a b n => ?_⟩
  · have compared := sideBySide a.string.terminated b.string.terminated
    refine ⟨strcmp_returns_loop compared a.spells b.spells,
      strncmp_returns_loop compared a.spells b.spells, fun k leftBound rightBound => ?_⟩
    exact ⟨_, memcmp_stops compared a.spells b.spells (Nat.zero_add k) leftBound rightBound, rfl⟩
  · exact congrArg Int.sign (strncmpLoop_eq_strcmpLoop_take a.bytes b.bytes n)

end NansOS.Kernel
