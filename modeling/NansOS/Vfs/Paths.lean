import NansOS.Foundation.Components
import NansOS.Kernel.StringOps

/-! Owns `vfs_normalize_path` of `fs.c` as it runs on memory: two pointers, `pp`
into the path and `np` into the static buffer `normalized`, which may be the
same bytes, since `vfs_mkdir` hands the buffer back to the function. A loop that
meets no NUL never ends, and then nothing is returned.

The result is a function of the bytes of the path alone, because `np` never
overtakes `pp`: component by component, `place` says what the loop does to the
bytes written so far. -/

namespace NansOS.Vfs

open NansOS.Foundation
open NansOS.Kernel

/-! ### The function -/

/-- `MAX_PATH_LEN`. -/
abbrev maxPathLen : Nat := 256

/-- The character `/`. -/
abbrev slash : UInt8 := 47

/-- The character `.`. -/
abbrev dot : UInt8 := 46

/-- Memory and the two pointers of `vfs_normalize_path`. -/
structure Cursor where
  memory : Memory
  pp : Nat
  np : Nat

/-- `*np++ = byte`. -/
def Cursor.put (cursor : Cursor) (byte : UInt8) : Cursor :=
  { cursor with memory := Function.update cursor.memory cursor.np byte, np := cursor.np + 1 }

/-- `*np++ = *pp++`. -/
def Cursor.copy (cursor : Cursor) : Cursor :=
  { cursor.put (cursor.memory cursor.pp) with pp := cursor.pp + 1 }

/-- `while (*pp == '/') pp++`. -/
def skipSlashes (memory : Memory) : Nat → Nat → Option Nat
  | 0, _ => none
  | fuel + 1, pp => if memory pp = slash then skipSlashes memory fuel (pp + 1) else some pp

/-- `while (*pp && *pp != '/') *np++ = *pp++`. -/
def copyComponent : Nat → Cursor → Option Cursor
  | 0, _ => none
  | fuel + 1, cursor =>
      if cursor.memory cursor.pp ≠ 0 ∧ cursor.memory cursor.pp ≠ slash then
        copyComponent fuel cursor.copy
      else some cursor

/-- `while (np > normalized && np[-1] != '/') np--`. -/
def stepBack (memory : Memory) (normalized : Nat) : Nat → Nat
  | 0 => 0
  | before + 1 =>
      if before + 1 > normalized ∧ memory before ≠ slash then stepBack memory normalized before
      else before + 1

/-- `byte == '/' || byte == '\0'`. -/
def endsComponent (byte : UInt8) : Prop := byte = slash ∨ byte = 0

instance (byte : UInt8) : Decidable (endsComponent byte) := inferInstanceAs (Decidable (_ ∨ _))

/-- The body of the loop of `vfs_normalize_path`. -/
def normalizeStep (normalized : Nat) (cursor : Cursor) : Option Cursor :=
  let { memory, pp, np } := cursor
  if memory pp = slash then
    (skipSlashes memory scanLimit pp).map fun past =>
      if memory past ≠ 0 then { cursor with pp := past }.put slash else { cursor with pp := past }
  else if memory pp = dot ∧ endsComponent (memory (pp + 1)) then
    some { cursor with pp := pp + 1 }
  else if memory pp = dot ∧ memory (pp + 1) = dot ∧ endsComponent (memory (pp + 2)) then
    some { cursor with
      pp := pp + 2
      np := if np > normalized + 1 then stepBack memory normalized (np - 1) else np }
  else copyComponent scanLimit cursor

/-- The loop of `vfs_normalize_path`. -/
def normalizeLoop (normalized : Nat) : Nat → Cursor → Option Cursor
  | 0, _ => none
  | fuel + 1, cursor =>
      if cursor.memory cursor.pp = 0 then some cursor
      else (normalizeStep normalized cursor).bind (normalizeLoop normalized fuel)

/-- `vfs_normalize_path`: the pointer it returns, which is `NULL` or the address
of the static buffer, and the memory it leaves. -/
def vfsNormalizePath (memory : Memory) (normalized path : Nat) : Option (Nat × Memory) :=
  if path = 0 then some (0, memory)
  else
    let start : Cursor := { memory := memory, pp := path, np := normalized }
    let start := if memory path = slash then start.copy else start
    (normalizeLoop normalized scanLimit start).map fun cursor =>
      let cursor := if cursor.np = normalized then cursor.put slash else cursor
      (normalized, Function.update cursor.memory cursor.np 0)

/-! ### What it computes -/

/-- What one component does to the bytes written so far. -/
def place (out component : List UInt8) : List UInt8 :=
  if component = [dot] then out
  else if component = [dot, dot] then
    if 1 < out.length then out.dropLast.rdropWhile fun byte => decide (byte ≠ slash) else out
  else out ++ component

/-- A component behind another one. -/
def placeNext (out component : List UInt8) : List UInt8 := place (out ++ [slash]) component

/-- The bytes written when the loop ends, if it starts with `out` written and
`rest` to be read. -/
def scan (out rest : List UInt8) : List UInt8 :=
  if rest.head? = some slash then (components slash rest).foldl placeNext out
  else
    match components slash rest with
    | [] => out
    | first :: others => others.foldl placeNext (place out first)

/-- The string that `vfs_normalize_path` makes of a path. -/
def normalizedBytes (path : List UInt8) : List UInt8 :=
  let out := if path.head? = some slash then scan [slash] path.tail else scan [] path
  if out = [] then [slash] else out

theorem scan_slash (out rest : List UInt8) :
    scan out (slash :: rest) = (components slash rest).foldl placeNext out := by
  rw [scan, if_pos (by simp), components_cons_separator]

theorem scan_component {rest : List UInt8} (out : List UInt8) (nonempty : rest ≠ [])
    (start : rest.head? ≠ some slash) :
    scan out rest = scan (place out (leading slash rest)) (following slash rest) := by
  have split := components_leading nonempty start
  rw [scan, if_neg start, split]
  rcases following_head slash rest with ended | ⟨others, more⟩
  · rw [ended]
    simp [scan]
  · rw [more, scan_slash, components_cons_separator]

/-- Skipped separators become one, unless nothing follows them. -/
theorem scan_skipped (out rest : List UInt8) :
    scan (if (rest.dropWhile fun byte => decide (byte = slash)) = [] then out else out ++ [slash])
        (rest.dropWhile fun byte => decide (byte = slash)) =
      scan out (slash :: rest) := by
  rw [scan_slash, ← components_dropWhile]
  have head := List.head?_dropWhile_not (fun byte => decide (byte = slash)) rest
  generalize (rest.dropWhile fun byte => decide (byte = slash)) = behind at *
  cases behind with
  | nil => simp [scan]
  | cons byte others =>
      have other : (byte :: others).head? ≠ some slash := by simpa using head
      rw [if_neg (by simp), scan, if_neg other, components_leading (by simp) other]
      rfl

/-! ### Steps -/

/-- Between two steps: `out` has been written, `rest` is still to be read and
will not be overwritten before, and all writes so far lie below `limit`. -/
structure Scanning (start : Memory) (normalized limit : Nat) (cursor : Cursor)
    (out rest : List UInt8) : Prop where
  written : cursor.memory.bytes normalized out.length = out
  clean : 0 ∉ out
  np : cursor.np = normalized + out.length
  unread : Spells cursor.memory cursor.pp rest
  ends : 0 ∉ rest
  clear : cursor.np ≤ cursor.pp ∨ cursor.pp + rest.length < normalized
  room : cursor.np + rest.length ≤ limit
  frame : Set.EqOn cursor.memory start (Set.Ico normalized limit)ᶜ

theorem bytes_concat (memory : Memory) (address count : Nat) (byte : UInt8) :
    Memory.bytes (Function.update memory (address + count) byte) address (count + 1) =
      memory.bytes address count ++ [byte] := by
  have kept : Memory.bytes (Function.update memory (address + count) byte) address count =
      memory.bytes address count := by
    apply Memory.bytes_congr
    intro target inside
    exact Function.update_of_ne (Nat.ne_of_lt inside.2) _ _
  rw [Memory.bytes_succ, kept, Function.update_self]

namespace Scanning

variable {start : Memory} {normalized limit fuel : Nat} {cursor : Cursor}
variable {out rest first second : List UInt8}

/-- Reading on without writing. -/
theorem skip (first : List UInt8)
    (scanning : Scanning start normalized limit cursor out (first ++ second)) :
    Scanning start normalized limit { cursor with pp := cursor.pp + first.length } out second where
  written := scanning.written
  clean := scanning.clean
  np := scanning.np
  unread := scanning.unread.drop
  ends := fun member => scanning.ends (List.mem_append_right _ member)
  clear := by
    have clear := scanning.clear
    rw [List.length_append] at clear
    change cursor.np ≤ cursor.pp + first.length ∨ cursor.pp + first.length + second.length < _
    omega
  room := by
    have room := scanning.room
    rw [List.length_append] at room
    change cursor.np + second.length ≤ limit
    omega
  frame := scanning.frame

/-- Writing a byte below what is still to be read. -/
theorem put (scanning : Scanning start normalized limit cursor out rest) {byte : UInt8}
    (nonzero : byte ≠ 0)
    (clear : cursor.np < cursor.pp ∨ cursor.pp + rest.length < normalized)
    (room : cursor.np + rest.length < limit) :
    Scanning start normalized limit (cursor.put byte) (out ++ [byte]) rest where
  written := by
    rw [List.length_append, List.length_singleton, Cursor.put, scanning.np, bytes_concat,
      scanning.written]
  clean := by
    simpa [scanning.clean] using nonzero.symm
  np := by
    rw [List.length_append, List.length_singleton, Cursor.put, scanning.np, Nat.add_assoc]
  unread := by
    refine scanning.unread.congr fun target inside => Function.update_of_ne ?_ _ _
    have np := scanning.np
    have inside := Set.mem_Ico.mp inside
    omega
  ends := scanning.ends
  clear := by
    change cursor.np + 1 ≤ cursor.pp ∨ cursor.pp + rest.length < normalized
    omega
  room := by
    change cursor.np + 1 + rest.length ≤ limit
    omega
  frame := by
    intro target outside
    have np := scanning.np
    have apart : target ≠ cursor.np := by
      rintro rfl
      exact outside ⟨by omega, by omega⟩
    exact (Function.update_of_ne apart _ _).trans (scanning.frame outside)

/-- Copying a byte, onto itself or onto a byte that was read before. -/
theorem copy {byte : UInt8}
    (scanning : Scanning start normalized limit cursor out (byte :: rest)) :
    Scanning start normalized limit cursor.copy (out ++ [byte]) rest := by
  have read : cursor.memory cursor.pp = byte := scanning.unread.1
  have room := scanning.room
  have clear := scanning.clear
  rw [List.length_cons] at room clear
  have skipped : Scanning start normalized limit { cursor with pp := cursor.pp + 1 } out rest :=
    skip [byte] scanning
  have nonzero : byte ≠ 0 := fun zero => scanning.ends (by simp [zero])
  have written := skipped.put nonzero (by
    change cursor.np < cursor.pp + 1 ∨ cursor.pp + 1 + rest.length < normalized
    omega) (by
    change cursor.np + rest.length < limit
    omega)
  rw [Cursor.copy, read]
  exact written

theorem copyComponent (scanning : Scanning start normalized limit cursor out (first ++ second))
    (absent : slash ∉ first) (behind : second = [] ∨ second.head? = some slash)
    (enough : first.length < fuel) :
    ∃ after, copyComponent fuel cursor = some after ∧
      Scanning start normalized limit after (out ++ first) second := by
  induction first generalizing cursor out fuel with
  | nil =>
      obtain ⟨fuel, rfl⟩ := Nat.exists_eq_add_one.mpr enough
      refine ⟨cursor, if_neg ?_, by simpa using scanning⟩
      rw [scanning.unread.head]
      rcases behind with rfl | starts
      · simp
      · simp [starts]
  | cons byte others inductionHypothesis =>
      obtain ⟨fuel, rfl⟩ := Nat.exists_eq_add_one.mpr (Nat.zero_lt_of_lt enough)
      have read : cursor.memory cursor.pp = byte := scanning.unread.1
      have nonzero : byte ≠ 0 := fun zero => scanning.ends (by simp [zero])
      have other : byte ≠ slash := fun same => absent (by simp [same])
      rw [List.length_cons] at enough
      obtain ⟨after, copied, done⟩ := inductionHypothesis scanning.copy
        (fun member => absent (by simp [member])) (Nat.lt_of_succ_lt_succ enough)
      refine ⟨after, ?_, by simpa using done⟩
      rw [NansOS.Vfs.copyComponent, read, if_pos ⟨nonzero, other⟩]
      exact copied

theorem skipSlashes (scanning : Scanning start normalized limit cursor out rest)
    (enough : rest.length < fuel) :
    ∃ past, skipSlashes cursor.memory fuel cursor.pp = some past ∧
      past + (rest.dropWhile fun byte => decide (byte = slash)).length =
        cursor.pp + rest.length ∧
      Scanning start normalized limit { cursor with pp := past } out
        (rest.dropWhile fun byte => decide (byte = slash)) := by
  induction rest generalizing cursor fuel with
  | nil =>
      obtain ⟨fuel, rfl⟩ := Nat.exists_eq_add_one.mpr enough
      have read : cursor.memory cursor.pp = 0 := scanning.unread
      exact ⟨cursor.pp, if_neg (by rw [read]; decide), rfl, scanning⟩
  | cons byte others inductionHypothesis =>
      obtain ⟨fuel, rfl⟩ := Nat.exists_eq_add_one.mpr (Nat.zero_lt_of_lt enough)
      have read : cursor.memory cursor.pp = byte := scanning.unread.1
      rw [NansOS.Vfs.skipSlashes, read]
      by_cases same : byte = slash
      · have skipped : Scanning start normalized limit { cursor with pp := cursor.pp + 1 } out
            others := skip [byte] scanning
        rw [List.length_cons] at enough
        obtain ⟨past, found, length, done⟩ :=
          inductionHypothesis skipped (Nat.lt_of_succ_lt_succ enough)
        rw [if_pos same, List.dropWhile_cons_of_pos (by simpa using same), List.length_cons]
        refine ⟨past, found, ?_, done⟩
        change past + _ = cursor.pp + 1 + others.length at length
        omega
      · rw [if_neg same, List.dropWhile_cons_of_neg (by simpa using same)]
        exact ⟨cursor.pp, rfl, rfl, scanning⟩

end Scanning

/-! ### Components -/

section Component

variable {memory : Memory} {address : Nat} {component behind : List UInt8}

/-- The test `byte == '/' || byte == '\0'`, at the start of a component or at the
end of one. -/
theorem endsComponent_iff (spells : Spells memory address (component ++ behind))
    (ends : 0 ∉ component) (absent : slash ∉ component)
    (separated : behind = [] ∨ behind.head? = some slash) :
    endsComponent (memory address) ↔ component = [] := by
  rw [spells.head]
  cases component with
  | nil =>
      rcases separated with rfl | starts
      · simp [endsComponent]
      · simp [endsComponent, starts]
  | cons byte rest =>
      have other : byte ≠ slash := fun same => absent (by simp [same])
      have nonzero : byte ≠ 0 := fun zero => ends (by simp [zero])
      simp [endsComponent, other, nonzero]

/-- The test for `.`. -/
theorem dot_iff (spells : Spells memory address (component ++ behind))
    (nonempty : component ≠ []) (ends : 0 ∉ component) (absent : slash ∉ component)
    (separated : behind = [] ∨ behind.head? = some slash) :
    memory address = dot ∧ endsComponent (memory (address + 1)) ↔ component = [dot] := by
  obtain ⟨byte, rest, rfl⟩ := List.exists_cons_of_ne_nil nonempty
  have later := endsComponent_iff spells.2 (fun member => ends (by simp [member]))
    (fun member => absent (by simp [member])) separated
  rw [spells.1, later, List.cons.injEq]

/-- The test for `..`. -/
theorem dotDot_iff (spells : Spells memory address (component ++ behind))
    (nonempty : component ≠ []) (ends : 0 ∉ component) (absent : slash ∉ component)
    (separated : behind = [] ∨ behind.head? = some slash) :
    memory address = dot ∧ memory (address + 1) = dot ∧
      endsComponent (memory (address + 2)) ↔ component = [dot, dot] := by
  obtain ⟨byte, rest, rfl⟩ := List.exists_cons_of_ne_nil nonempty
  rw [spells.1, List.cons.injEq]
  refine and_congr_right fun _ => ?_
  by_cases last : rest = []
  · subst last
    have following : Spells memory (address + 1) ([] ++ behind) := spells.2
    have ended := (endsComponent_iff following (by simp) (by simp) separated).mpr rfl
    refine iff_of_false (fun both => ?_) (by simp)
    rw [both.1] at ended
    exact absurd ended (by decide)
  · exact dot_iff spells.2 last (fun member => ends (by simp [member]))
      (fun member => absent (by simp [member])) separated

theorem bytes_of_leading {count : Nat} {bytes shorter : List UInt8}
    (written : memory.bytes address count = bytes) (leads : shorter <+: bytes) :
    memory.bytes address shorter.length = shorter := by
  obtain ⟨rest, rfl⟩ := leads
  have length := congrArg List.length written
  rw [Memory.bytes_length, List.length_append] at length
  apply List.ext_getElem (by simp)
  intro index left right
  have entry := List.getElem_of_eq written
    (show index < (memory.bytes address count).length by rw [Memory.bytes_length]; omega)
  rw [List.getElem_append_left right] at entry
  rw [← entry]
  simp [Memory.bytes]

/-- Going back over what was written, to the last separator. -/
theorem stepBack_eq {normalized : Nat} {out : List UInt8}
    (written : memory.bytes normalized out.length = out) :
    stepBack memory normalized (normalized + out.length) =
      normalized + (out.rdropWhile fun byte => decide (byte ≠ slash)).length := by
  induction out using List.reverseRecOn with
  | nil =>
      cases normalized with
      | zero => rfl
      | succ before => simp [stepBack]
  | append_singleton out byte inductionHypothesis =>
      have earlier := bytes_of_leading written (List.prefix_append out [byte])
      have last : memory (normalized + out.length) = byte := by
        have ending := List.getElem_of_eq written
          (show out.length < (memory.bytes normalized (out ++ [byte]).length).length by simp)
        simpa [Memory.bytes] using ending
      rw [List.length_append, List.length_singleton, ← Nat.add_assoc, stepBack, last,
        List.rdropWhile_concat]
      by_cases same : byte = slash
      · rw [if_neg (by simp [same]), if_neg (by simp [same])]
        simp [Nat.add_assoc]
      · rw [if_pos ⟨by omega, same⟩, if_pos (by simpa using same), inductionHypothesis earlier]

end Component

namespace Scanning

variable {start : Memory} {normalized limit fuel : Nat} {cursor : Cursor}
variable {out rest : List UInt8}

/-- Taking back what was written, down to a leading part. -/
theorem back {shorter : List UInt8} (scanning : Scanning start normalized limit cursor out rest)
    (leads : shorter <+: out) :
    Scanning start normalized limit { cursor with np := normalized + shorter.length } shorter
      rest := by
  have fewer := leads.length_le
  have np := scanning.np
  have clear := scanning.clear
  have room := scanning.room
  refine ⟨bytes_of_leading scanning.written leads, fun member => scanning.clean (leads.mem member),
    rfl, scanning.unread, scanning.ends, ?_, ?_, scanning.frame⟩
  · change normalized + shorter.length ≤ cursor.pp ∨ cursor.pp + rest.length < normalized
    omega
  · change normalized + shorter.length + rest.length ≤ limit
    omega

/-- The loop body at a run of separators. -/
theorem step_slash (scanning : Scanning start normalized limit cursor out (slash :: rest))
    (enough : rest.length + 1 < scanLimit) :
    ∃ after, normalizeStep normalized cursor = some after ∧
      Scanning start normalized limit after
        (if (rest.dropWhile fun byte => decide (byte = slash)) = [] then out else out ++ [slash])
        (rest.dropWhile fun byte => decide (byte = slash)) := by
  obtain ⟨past, found, length, skipped⟩ := scanning.skipSlashes enough
  rw [List.dropWhile_cons_of_pos (by simp)] at skipped length
  have read : cursor.memory past =
      (rest.dropWhile fun byte => decide (byte = slash)).head?.getD 0 := skipped.unread.head
  have ends := skipped.ends
  have shorter := List.length_dropWhile_le (fun byte => decide (byte = slash)) rest
  have clear := scanning.clear
  have room := scanning.room
  rw [List.length_cons] at clear room length
  unfold normalizeStep
  dsimp only
  rw [if_pos scanning.unread.1, found, Option.map_some]
  generalize (rest.dropWhile fun byte => decide (byte = slash)) = behind at *
  cases behind with
  | nil =>
      rw [if_pos rfl, read]
      exact ⟨_, rfl, skipped⟩
  | cons byte others =>
      have nonzero : byte ≠ 0 := fun zero => ends (by simp [zero])
      rw [if_pos (by rw [read]; simpa using nonzero), if_neg (by simp)]
      refine ⟨_, rfl, skipped.put (by decide) ?_ ?_⟩
      · change cursor.np < past ∨ past + (byte :: others).length < normalized
        omega
      · change cursor.np + (byte :: others).length < limit
        omega

/-- The loop body at the start of a component. -/
theorem step_component (scanning : Scanning start normalized limit cursor out rest)
    (nonempty : rest ≠ []) (starts : rest.head? ≠ some slash) (enough : rest.length < scanLimit) :
    ∃ after, normalizeStep normalized cursor = some after ∧
      Scanning start normalized limit after (place out (leading slash rest))
        (following slash rest) := by
  have whole := leading_append_following slash rest
  have named := leading_ne_nil nonempty starts
  have absent := not_mem_leading slash rest
  have separated : following slash rest = [] ∨ (following slash rest).head? = some slash := by
    rcases following_head slash rest with ended | ⟨others, more⟩
    · exact .inl ended
    · exact .inr (by rw [more]; rfl)
  have first : cursor.memory cursor.pp ≠ slash := by
    rw [scanning.unread.head]
    cases rest with
    | nil => exact absurd rfl nonempty
    | cons byte others => simpa using starts
  rw [← whole] at scanning enough
  generalize leading slash rest = component at *
  generalize following slash rest = behind at *
  have ends : 0 ∉ component := fun member => scanning.ends (List.mem_append_left _ member)
  have isDot := dot_iff scanning.unread named ends absent separated
  have isDotDot := dotDot_iff scanning.unread named ends absent separated
  unfold normalizeStep place
  dsimp only
  rw [if_neg first]
  by_cases single : component = [dot]
  · rw [if_pos (isDot.mpr single), if_pos single]
    subst single
    exact ⟨_, rfl, scanning.skip _⟩
  rw [if_neg (mt isDot.mp single), if_neg single]
  by_cases double : component = [dot, dot]
  · rw [if_pos (isDotDot.mpr double), if_pos double]
    subst double
    refine ⟨_, rfl, ?_⟩
    have skipped := scanning.skip _
    have np := scanning.np
    by_cases long : 1 < out.length
    · -- The last byte goes first, then everything behind the separator before it.
      have shorter : out.dropLast <+: out := List.dropLast_prefix out
      have length : cursor.np - 1 = normalized + out.dropLast.length := by
        rw [List.length_dropLast]
        omega
      rw [if_pos (by omega), if_pos long, length,
        stepBack_eq (bytes_of_leading scanning.written shorter)]
      exact skipped.back ((List.rdropWhile_prefix _ _).trans shorter)
    · rw [if_neg (by omega), if_neg long]
      exact skipped
  · rw [if_neg (mt isDotDot.mp double), if_neg double]
    exact scanning.copyComponent absent separated (by rw [List.length_append] at enough; omega)

/-- The loop ends, with everything read and the bytes of `scan` written. -/
theorem loop (scanning : Scanning start normalized limit cursor out rest)
    (enough : rest.length < fuel) (short : rest.length < scanLimit) :
    ∃ after, normalizeLoop normalized fuel cursor = some after ∧
      Scanning start normalized limit after (scan out rest) [] := by
  induction fuel generalizing cursor out rest with
  | zero => exact absurd enough (Nat.not_lt_zero _)
  | succ fuel inductionHypothesis =>
      have read := scanning.unread.head
      rw [normalizeLoop]
      by_cases ended : rest = []
      · subst ended
        rw [if_pos (by simpa using read)]
        exact ⟨cursor, rfl, scanning⟩
      obtain ⟨byte, others, rfl⟩ := List.exists_cons_of_ne_nil ended
      have nonzero : byte ≠ 0 := fun zero => scanning.ends (by simp [zero])
      rw [if_neg (by rw [read]; simpa using nonzero)]
      rw [List.length_cons] at enough
      by_cases same : byte = slash
      · subst same
        have fewer := List.length_dropWhile_le (fun byte => decide (byte = slash)) others
        rw [List.length_cons] at short
        obtain ⟨next, stepped, position⟩ := scanning.step_slash short
        obtain ⟨after, looped, done⟩ := inductionHypothesis position (by omega) (by omega)
        refine ⟨after, by rw [stepped, Option.bind_some, looped], ?_⟩
        rwa [scan_skipped] at done
      · have starts : (byte :: others).head? ≠ some slash := by simpa using same
        have fewer := length_following_lt ended starts
        obtain ⟨next, stepped, position⟩ := scanning.step_component ended starts short
        obtain ⟨after, looped, done⟩ :=
          inductionHypothesis position (by rw [List.length_cons] at fewer; omega) (by omega)
        refine ⟨after, by rw [stepped, Option.bind_some, looped], ?_⟩
        rwa [← scan_component out ended starts] at done

end Scanning

/-! ### The whole function -/

/-- The path starts in the buffer's first byte or later, or ends below it, so
that no byte is overwritten before it is read. Every path apart from the buffer
is such a path, and the buffer itself is. -/
def ReadFirst (normalized path : Nat) (bytes : List UInt8) : Prop :=
  normalized ≤ path ∨ path + bytes.length < normalized

theorem spells_terminated {memory : Memory} {address : Nat} {out : List UInt8}
    (written : memory.bytes address out.length = out) :
    Spells (Function.update memory (address + out.length) 0) address out := by
  rw [spells_iff, Function.update_self]
  refine ⟨?_, rfl⟩
  refine (Memory.bytes_congr fun target inside => ?_).trans written
  exact Function.update_of_ne (Nat.ne_of_lt inside.2) _ _

/-- The loop of the function, from its first step on. -/
theorem loop_spec {memory : Memory} {normalized path : Nat} {bytes : List UInt8}
    (spells : Spells memory path bytes) (ends : 0 ∉ bytes)
    (readFirst : ReadFirst normalized path bytes) (short : bytes.length < scanLimit) :
    let start : Cursor := { memory := memory, pp := path, np := normalized }
    ∃ after, normalizeLoop normalized scanLimit
        (if memory path = slash then start.copy else start) = some after ∧
      Scanning memory normalized (normalized + bytes.length) after
        (if bytes.head? = some slash then scan [slash] bytes.tail else scan [] bytes) [] := by
  intro start
  have scanning : Scanning memory normalized (normalized + bytes.length) start [] bytes :=
    ⟨rfl, List.not_mem_nil, rfl, spells, ends, readFirst, le_rfl, Set.eqOn_refl _ _⟩
  have read : memory path = bytes.head?.getD 0 := spells.head
  cases bytes with
  | nil =>
      rw [if_neg (by rw [read]; decide), if_neg (by simp)]
      exact scanning.loop short short
  | cons byte rest =>
      have fewer : rest.length < scanLimit := Nat.lt_of_succ_lt short
      by_cases same : byte = slash
      · rw [if_pos (by simpa [read] using same), if_pos (by simpa using same), List.tail_cons]
        have copied := scanning.copy
        rw [List.nil_append, same] at copied
        exact copied.loop fewer fewer
      · rw [if_neg (by simpa [read] using same), if_neg (by simpa using same)]
        exact scanning.loop short short

/-- `vfs_normalize_path` leaves the string of `normalizedBytes` in the buffer, and
writes no more bytes than the path and its NUL have, or two. -/
theorem vfsNormalizePath_spec {memory : Memory} {normalized path : Nat} {bytes : List UInt8}
    (nonnull : path ≠ 0) (spells : Spells memory path bytes) (ends : 0 ∉ bytes)
    (readFirst : ReadFirst normalized path bytes) (short : bytes.length < scanLimit) :
    ∃ after, vfsNormalizePath memory normalized path = some (normalized, after) ∧
      Spells after normalized (normalizedBytes bytes) ∧ 0 ∉ normalizedBytes bytes ∧
      (normalizedBytes bytes).length ≤ max 1 bytes.length ∧
      Set.EqOn after memory
        (Set.Ico normalized (normalized + max 1 bytes.length + 1))ᶜ := by
  obtain ⟨after, looped, scanning⟩ := loop_spec spells ends readFirst short
  unfold vfsNormalizePath normalizedBytes
  dsimp only at looped ⊢
  rw [if_neg nonnull, looped, Option.map_some]
  generalize (if bytes.head? = some slash then scan [slash] bytes.tail else scan [] bytes) = out
    at scanning ⊢
  have np := scanning.np
  have room := scanning.room
  rw [List.length_nil, Nat.add_zero, np] at room
  refine ⟨_, rfl, ?_⟩
  by_cases empty : out = []
  · subst empty
    rw [List.length_nil, Nat.add_zero] at np
    rw [if_pos np, if_pos rfl]
    have written : Memory.bytes (Function.update after.memory (normalized + 0) slash) normalized
        [slash].length = [slash] :=
      bytes_concat after.memory normalized 0 slash
    refine ⟨?_, by decide, by simp, ?_⟩
    · rw [Cursor.put, np]
      exact spells_terminated written
    · intro target outside
      simp only [Set.mem_compl_iff, Set.mem_Ico, not_and, not_lt] at outside
      rw [Cursor.put, np]
      change Function.update (Function.update after.memory normalized slash) (normalized + 1) 0
        target = memory target
      rw [Function.update_of_ne (by omega), Function.update_of_ne (by omega)]
      refine scanning.frame ?_
      simp only [Set.mem_compl_iff, Set.mem_Ico]
      omega
  · have positive := List.length_pos_iff.mpr empty
    rw [if_neg (by omega), if_neg empty, np]
    refine ⟨spells_terminated scanning.written, scanning.clean, by omega, ?_⟩
    intro target outside
    simp only [Set.mem_compl_iff, Set.mem_Ico, not_and, not_lt] at outside
    rw [Function.update_of_ne (by omega)]
    refine scanning.frame ?_
    simp only [Set.mem_compl_iff, Set.mem_Ico]
    omega

end NansOS.Vfs
