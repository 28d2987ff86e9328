import NansOS.Foundation.Halting
import NansOS.Vfs.Paths

/-! Owns the two pointers of `vfs_normalize_path` at every moment of a call: the
function as a machine that goes on from one test or character to the next, the
order of the pointers in each of its states, and that it is the function of
`Paths`. A path that is normalized where it stands comes out as a copy of it
would. -/

namespace NansOS.Vfs

open NansOS.Foundation
open NansOS.Kernel

/-! ### The machine -/

/-- Where a call of `vfs_normalize_path` is. -/
inductive Point where
  | begin
  | loop
  | skip
  | rewind
  | copy
  | fallback
  | terminate
deriving DecidableEq

structure Progress where
  point : Point
  cursor : Cursor

/-- The call has read nothing yet. -/
def Progress.begins (memory : Memory) (normalized path : Nat) : Progress where
  point := .begin
  cursor :=
    { memory := memory
      pp := path
      np := normalized }

/-- The head of the loop: which branch is taken. -/
def loopHead (normalized : Nat) (cursor : Cursor) : Progress :=
  let { memory, pp, np } := cursor
  if memory pp = 0 then ⟨.fallback, cursor⟩
  else if memory pp = slash then ⟨.skip, cursor⟩
  else if memory pp = dot ∧ endsComponent (memory (pp + 1)) then
    ⟨.loop, { cursor with pp := pp + 1 }⟩
  else if memory pp = dot ∧ memory (pp + 1) = dot ∧ endsComponent (memory (pp + 2)) then
    if np > normalized + 1 then
      ⟨.rewind, { cursor with
        pp := pp + 2
        np := np - 1 }⟩
    else ⟨.loop, { cursor with pp := pp + 2 }⟩
  else ⟨.copy, cursor⟩

/-- One test and what it leads to; the call ends with the memory it leaves. -/
def normalizePoint (normalized : Nat) (progress : Progress) : Except Memory Progress :=
  let { point, cursor } := progress
  match point with
  | .begin =>
      .ok ⟨.loop, if cursor.memory cursor.pp = slash then cursor.copy else cursor⟩
  | .loop => .ok (loopHead normalized cursor)
  | .skip =>
      if cursor.memory cursor.pp = slash then .ok ⟨.skip, { cursor with pp := cursor.pp + 1 }⟩
      else .ok ⟨.loop, if cursor.memory cursor.pp ≠ 0 then cursor.put slash else cursor⟩
  | .rewind =>
      if cursor.np > normalized ∧ cursor.memory (cursor.np - 1) ≠ slash then
        .ok ⟨.rewind, { cursor with np := cursor.np - 1 }⟩
      else .ok ⟨.loop, cursor⟩
  | .copy =>
      if cursor.memory cursor.pp ≠ 0 ∧ cursor.memory cursor.pp ≠ slash then
        .ok ⟨.copy, cursor.copy⟩
      else .ok ⟨.loop, cursor⟩
  | .fallback => .ok ⟨.terminate, if cursor.np = normalized then cursor.put slash else cursor⟩
  | .terminate => .error (Function.update cursor.memory cursor.np 0)

/-- What one pass does to the pointers and the memory. -/
inductive Move (normalized : Nat) : Progress → Progress → Prop where
  | read {cursor : Cursor} {point later : Point} (count : Nat) (running : point ≠ .terminate)
      (unended : ∀ offset < count, cursor.memory (cursor.pp + offset) ≠ 0)
      (inner : later ≠ .terminate)
      (separator : later = .skip → cursor.memory cursor.pp = slash ∨ 0 < count) :
      Move normalized ⟨point, cursor⟩ ⟨later, { cursor with pp := cursor.pp + count }⟩
  | back {cursor : Cursor} {point : Point} (count : Nat) (running : point ≠ .terminate)
      (unended : ∀ offset < count, cursor.memory (cursor.pp + offset) ≠ 0)
      (above : normalized < cursor.np) :
      Move normalized ⟨point, cursor⟩ ⟨.rewind, { cursor with
        pp := cursor.pp + count
        np := cursor.np - 1 }⟩
  | copied {cursor : Cursor} {point later : Point} (running : point ≠ .terminate)
      (unended : cursor.memory cursor.pp ≠ 0) (inner : later ≠ .terminate) (outer : later ≠ .skip) :
      Move normalized ⟨point, cursor⟩ ⟨later, cursor.copy⟩
  | separated {cursor : Cursor} (behind : cursor.memory cursor.pp ≠ slash) :
      Move normalized ⟨.skip, cursor⟩ ⟨.loop, cursor.put slash⟩
  | kept {cursor : Cursor} : Move normalized ⟨.fallback, cursor⟩ ⟨.terminate, cursor⟩
  | fellBack {cursor : Cursor} (empty : cursor.np = normalized) :
      Move normalized ⟨.fallback, cursor⟩ ⟨.terminate, cursor.put slash⟩

section Moves

variable {normalized : Nat} {cursor : Cursor} {progress next : Progress}

theorem Move.stay {point later : Point} (running : point ≠ .terminate) (inner : later ≠ .terminate)
    (separator : later = .skip → cursor.memory cursor.pp = slash) :
    Move normalized ⟨point, cursor⟩ ⟨later, cursor⟩ :=
  .read 0 running (fun _ none => absurd none (Nat.not_lt_zero _)) inner
    fun skips => Or.inl (separator skips)

theorem unended_one (first : cursor.memory cursor.pp ≠ 0) :
    ∀ offset < 1, cursor.memory (cursor.pp + offset) ≠ 0 := by
  intro offset below
  rw [Nat.lt_one_iff.mp below]
  exact first

theorem unended_two (first : cursor.memory cursor.pp ≠ 0)
    (second : cursor.memory (cursor.pp + 1) ≠ 0) :
    ∀ offset < 2, cursor.memory (cursor.pp + offset) ≠ 0 := by
  intro offset below
  match offset, below with
  | 0, _ => exact first
  | 1, _ => exact second

theorem move_loopHead (normalized : Nat) (cursor : Cursor) :
    Move normalized ⟨.loop, cursor⟩ (loopHead normalized cursor) := by
  unfold loopHead
  dsimp only
  split
  · exact .stay (by decide) (by decide) fun skips => absurd skips (by decide)
  next unended =>
    split
    next separator => exact .stay (by decide) (by decide) fun _ => separator
    · split
      · exact .read 1 (by decide) (unended_one unended) (by decide)
          fun skips => absurd skips (by decide)
      · split
        next dots =>
          have second : cursor.memory (cursor.pp + 1) ≠ 0 := by
            rw [dots.2.1]
            decide
          split
          next above =>
            exact .back 2 (by decide) (unended_two unended second) (Nat.lt_of_succ_lt above)
          · exact .read 2 (by decide) (unended_two unended second) (by decide) fun skips =>
              absurd skips (by decide)
        · exact .stay (by decide) (by decide) fun skips => absurd skips (by decide)

theorem move_of_ok (goesOn : normalizePoint normalized progress = .ok next) :
    Move normalized progress next := by
  obtain ⟨point, cursor⟩ := progress
  unfold normalizePoint at goesOn
  dsimp only at goesOn
  cases point with
  | begin =>
      cases goesOn
      by_cases separator : cursor.memory cursor.pp = slash
      · rw [if_pos separator]
        exact .copied (by decide) (by rw [separator]; decide) (by decide) (by decide)
      · rw [if_neg separator]
        exact .stay (by decide) (by decide) fun skips => absurd skips (by decide)
  | loop =>
      cases goesOn
      exact move_loopHead normalized cursor
  | skip =>
      dsimp only at goesOn
      by_cases separator : cursor.memory cursor.pp = slash
      · rw [if_pos separator] at goesOn
        cases goesOn
        exact .read 1 (by decide) (unended_one (by rw [separator]; decide)) (by decide) fun _ =>
          Or.inl separator
      · rw [if_neg separator] at goesOn
        cases goesOn
        by_cases ended : cursor.memory cursor.pp = 0
        · rw [if_neg (not_not.mpr ended)]
          exact .stay (by decide) (by decide) fun skips => absurd skips (by decide)
        · rw [if_pos ended]
          exact .separated separator
  | rewind =>
      by_cases inside : cursor.np > normalized ∧ cursor.memory (cursor.np - 1) ≠ slash
      · rw [if_pos inside] at goesOn
        cases goesOn
        exact .back 0 (by decide) (fun _ none => absurd none (Nat.not_lt_zero _)) inside.1
      · rw [if_neg inside] at goesOn
        cases goesOn
        exact .stay (by decide) (by decide) fun skips => absurd skips (by decide)
  | copy =>
      by_cases inside : cursor.memory cursor.pp ≠ 0 ∧ cursor.memory cursor.pp ≠ slash
      · rw [if_pos inside] at goesOn
        cases goesOn
        exact .copied (by decide) inside.1 (by decide) (by decide)
      · rw [if_neg inside] at goesOn
        cases goesOn
        exact .stay (by decide) (by decide) fun skips => absurd skips (by decide)
  | fallback =>
      cases goesOn
      by_cases empty : cursor.np = normalized
      · rw [if_pos empty]
        exact .fellBack empty
      · rw [if_neg empty]
        exact .kept
  | terminate => cases goesOn

end Moves

/-! ### The order of the pointers -/

/-- The write position is not below the buffer, and up to the fallback not behind
the number of characters read. -/
structure CursorsOrdered (normalized path : Nat) (progress : Progress) : Prop where
  above : normalized ≤ progress.cursor.np
  consumed : progress.point ≠ .terminate →
    progress.cursor.np - normalized ≤ progress.cursor.pp - path

/-- What the order rests on: the fallback may write one character too many, and a
`/` is written behind skipped ones only. -/
structure CursorInvariant (normalized path : Nat) (progress : Progress) : Prop where
  above : normalized ≤ progress.cursor.np
  onward : path ≤ progress.cursor.pp
  written : progress.cursor.np - normalized ≤ max 1 (progress.cursor.pp - path)
  consumed : progress.point ≠ .terminate →
    progress.cursor.np - normalized ≤ progress.cursor.pp - path
  skipped : progress.point = .skip → progress.cursor.memory progress.cursor.pp ≠ slash →
    progress.cursor.np - normalized < progress.cursor.pp - path

section Order

variable {normalized path : Nat} {progress next : Progress}

theorem cursorInvariant_of_consumed {point : Point} {cursor : Cursor}
    (above : normalized ≤ cursor.np) (onward : path ≤ cursor.pp)
    (consumed : cursor.np - normalized ≤ cursor.pp - path)
    (skipped : point = .skip → cursor.memory cursor.pp ≠ slash →
      cursor.np - normalized < cursor.pp - path) :
    CursorInvariant normalized path ⟨point, cursor⟩ where
  above := above
  onward := onward
  written := le_max_of_le_right consumed
  consumed := fun _ => consumed
  skipped := skipped

/-- A `/` takes the place of a skipped one, and a copied character that of one
that has been read. -/
theorem CursorInvariant.move (invariant : CursorInvariant normalized path progress)
    (move : Move normalized progress next) : CursorInvariant normalized path next := by
  have above := invariant.above
  have onward := invariant.onward
  cases move with
  | @read cursor point later count running unended inner separator =>
      have consumed := invariant.consumed running
      dsimp only at above onward consumed
      apply cursorInvariant_of_consumed
      · exact above
      · exact Nat.le_add_right_of_le onward
      · show cursor.np - normalized ≤ cursor.pp + count - path
        omega
      · intro skips other
        show cursor.np - normalized < cursor.pp + count - path
        by_cases none : count = 0
        · rw [none] at other separator
          cases separator skips with
          | inl here => exact absurd here other
          | inr some => exact absurd some (Nat.lt_irrefl 0)
        · omega
  | @back cursor point count running unended inside =>
      have consumed := invariant.consumed running
      dsimp only at above onward consumed
      apply cursorInvariant_of_consumed
      · exact Nat.le_sub_one_of_lt inside
      · exact Nat.le_add_right_of_le onward
      · show cursor.np - 1 - normalized ≤ cursor.pp + count - path
        omega
      · intro skips
        cases skips
  | @copied cursor point later running unended inner outer =>
      have consumed := invariant.consumed running
      dsimp only at above onward consumed
      apply cursorInvariant_of_consumed
      · exact Nat.le_succ_of_le above
      · exact Nat.le_succ_of_le onward
      · show cursor.np + 1 - normalized ≤ cursor.pp + 1 - path
        omega
      · intro skips
        exact absurd skips outer
  | @separated cursor other =>
      have skipped := invariant.skipped rfl other
      dsimp only at above onward skipped
      apply cursorInvariant_of_consumed
      · exact Nat.le_succ_of_le above
      · exact onward
      · show cursor.np + 1 - normalized ≤ cursor.pp - path
        omega
      · intro skips
        cases skips
  | @kept cursor =>
      apply cursorInvariant_of_consumed
      · exact above
      · exact onward
      · exact invariant.consumed (show Point.fallback ≠ .terminate by decide)
      · intro skips
        cases skips
  | @fellBack cursor empty =>
      dsimp only at above onward
      exact
        { above := Nat.le_succ_of_le above
          onward := onward
          written := by
            show cursor.np + 1 - normalized ≤ max 1 (cursor.pp - path)
            omega
          consumed := fun running => absurd rfl running
          skipped := by
            intro skips
            cases skips }

theorem CursorInvariant.ordered (invariant : CursorInvariant normalized path progress) :
    CursorsOrdered normalized path progress where
  above := invariant.above
  consumed := invariant.consumed

theorem invariant_begins (memory : Memory) (normalized path : Nat) :
    CursorInvariant normalized path (.begins memory normalized path) where
  above := le_rfl
  onward := le_rfl
  written := by simp [Progress.begins]
  consumed := fun _ => by simp [Progress.begins]
  skipped := by
    intro skips
    cases skips

/-- In every state of every call, whatever the memory holds, the pointers are in
order. -/
theorem cursorInvariant_of_reaches {memory : Memory}
    (reached : Reaches (normalizePoint normalized) (.begins memory normalized path) progress) :
    CursorInvariant normalized path progress :=
  reached.keeps (CursorInvariant normalized path)
    (fun _ _ goesOn invariant => invariant.move (move_of_ok goesOn))
    (invariant_begins memory normalized path)

end Order

/-! ### Paths that end -/

/-- The read position has not passed the NUL, and what is still to be read is as
at the start. -/
structure Unread (start : Memory) (path length : Nat) (progress : Progress) : Prop where
  within : progress.cursor.pp ≤ path + length
  kept : progress.point ≠ .terminate →
    Set.EqOn progress.cursor.memory start (Set.Icc progress.cursor.pp (path + length))

section Strings

variable {start : Memory} {normalized path length : Nat} {progress next : Progress}

/-- A character that is not the NUL stands before it. -/
theorem within_add (ended : start (path + length) = 0) {memory : Memory} {pp count : Nat}
    (within : pp ≤ path + length) (kept : Set.EqOn memory start (Set.Icc pp (path + length)))
    (unended : ∀ offset < count, memory (pp + offset) ≠ 0) : pp + count ≤ path + length := by
  by_contra beyond
  apply unended (path + length - pp) (by omega)
  have last : pp + (path + length - pp) = path + length := by omega
  rw [last, kept ⟨within, le_rfl⟩]
  exact ended

/-- A byte is written to where nothing is still to be read. -/
theorem kept_update {memory : Memory} {first last np : Nat} (byte : UInt8)
    (kept : Set.EqOn memory start (Set.Icc first last)) (apart : np < first ∨ last < np) :
    Set.EqOn (Function.update memory np byte) start (Set.Icc first last) := by
  intro target inside
  have inside' := Set.mem_Icc.mp inside
  rw [Function.update_of_ne (by omega)]
  exact kept inside

theorem Unread.move (unread : Unread start path length progress)
    (ended : start (path + length) = 0)
    (readFirst : normalized ≤ path ∨ path + length < normalized)
    (invariant : CursorInvariant normalized path progress)
    (move : Move normalized progress next) : Unread start path length next := by
  have within := unread.within
  have above := invariant.above
  have onward := invariant.onward
  cases move with
  | @read cursor point later count running unended inner separator =>
      have kept := unread.kept running
      exact
        { within := within_add ended within kept unended
          kept := fun _ => kept.mono (Set.Icc_subset_Icc_left (Nat.le_add_right _ _)) }
  | @back cursor point count running unended inside =>
      have kept := unread.kept running
      exact
        { within := within_add ended within kept unended
          kept := fun _ => kept.mono (Set.Icc_subset_Icc_left (Nat.le_add_right _ _)) }
  | @copied cursor point later running unended inner outer =>
      have kept := unread.kept running
      have consumed := invariant.consumed running
      dsimp only at within above onward consumed
      have fewer : Set.EqOn cursor.memory start (Set.Icc (cursor.pp + 1) (path + length)) :=
        kept.mono (Set.Icc_subset_Icc_left (Nat.le_add_right _ _))
      have apart : cursor.np < cursor.pp + 1 ∨ path + length < cursor.np := by omega
      exact
        { within := within_add ended within kept (unended_one unended)
          kept := fun _ => kept_update _ fewer apart }
  | @separated cursor other =>
      have kept := unread.kept (by decide : Point.skip ≠ .terminate)
      have skipped := invariant.skipped rfl other
      dsimp only at within above onward skipped
      have apart : cursor.np < cursor.pp ∨ path + length < cursor.np := by omega
      exact
        { within := within
          kept := fun _ => kept_update _ kept apart }
  | @kept cursor =>
      exact
        { within := within
          kept := fun running => absurd rfl running }
  | @fellBack cursor empty =>
      exact
        { within := within
          kept := fun running => absurd rfl running }

theorem unread_of_reaches (ended : start (path + length) = 0)
    (readFirst : normalized ≤ path ∨ path + length < normalized)
    (reached : Reaches (normalizePoint normalized) (.begins start normalized path) progress) :
    Unread start path length progress := by
  have both := reached.keeps
    (fun progress => CursorInvariant normalized path progress ∧ Unread start path length progress)
    (fun _ _ goesOn both => ⟨both.1.move (move_of_ok goesOn),
      both.2.move ended readFirst both.1 (move_of_ok goesOn)⟩)
    ⟨invariant_begins start normalized path,
      { within := Nat.le_add_right _ _
        kept := fun _ => Set.eqOn_refl _ _ }⟩
  exact both.2

end Strings

/-! ### The function of `Paths` -/

section Agreement

variable {normalized fuel : Nat} {cursor after : Cursor} {memory : Memory}

/-- The call goes on from one state as from another. -/
def SameEnd (normalized : Nat) (first second : Progress) : Prop :=
  ∀ left, StopsWith (normalizePoint normalized) first left ↔
    StopsWith (normalizePoint normalized) second left

theorem SameEnd.trans {first second third : Progress} (one : SameEnd normalized first second)
    (two : SameEnd normalized second third) : SameEnd normalized first third :=
  fun left => (one left).trans (two left)

theorem sameEnd_of_ok {first second : Progress}
    (goesOn : normalizePoint normalized first = .ok second) :
    SameEnd normalized first second :=
  fun _ => stopsWith_of_ok goesOn

theorem sameEnd_skip {past : Nat} (skipped : skipSlashes cursor.memory fuel cursor.pp = some past) :
    SameEnd normalized ⟨.skip, cursor⟩ ⟨.loop,
      if cursor.memory past ≠ 0 then { cursor with pp := past }.put slash
      else { cursor with pp := past }⟩ := by
  induction fuel generalizing cursor with
  | zero => cases skipped
  | succ fuel inductionHypothesis =>
      rw [skipSlashes] at skipped
      by_cases separator : cursor.memory cursor.pp = slash
      · rw [if_pos separator] at skipped
        have next : normalizePoint normalized ⟨.skip, cursor⟩ =
            .ok ⟨.skip, { cursor with pp := cursor.pp + 1 }⟩ := if_pos separator
        have rest : skipSlashes cursor.memory fuel (cursor.pp + 1) = some past := skipped
        exact (sameEnd_of_ok next).trans
          (@inductionHypothesis { cursor with pp := cursor.pp + 1 } rest)
      · rw [if_neg separator, Option.some.injEq] at skipped
        rw [← skipped]
        exact sameEnd_of_ok (if_neg separator)

theorem sameEnd_copy (copied : copyComponent fuel cursor = some after) :
    SameEnd normalized ⟨.copy, cursor⟩ ⟨.loop, after⟩ := by
  induction fuel generalizing cursor with
  | zero => cases copied
  | succ fuel inductionHypothesis =>
      rw [copyComponent] at copied
      by_cases inside : cursor.memory cursor.pp ≠ 0 ∧ cursor.memory cursor.pp ≠ slash
      · rw [if_pos inside] at copied
        have next : normalizePoint normalized ⟨.copy, cursor⟩ = .ok ⟨.copy, cursor.copy⟩ :=
          if_pos inside
        exact (sameEnd_of_ok next).trans (inductionHypothesis copied)
      · rw [if_neg inside, Option.some.injEq] at copied
        rw [← copied]
        exact sameEnd_of_ok (if_neg inside)

theorem sameEnd_rewind (memory : Memory) (pp np : Nat) :
    SameEnd normalized ⟨.rewind, ⟨memory, pp, np⟩⟩
      ⟨.loop, ⟨memory, pp, stepBack memory normalized np⟩⟩ := by
  induction np with
  | zero =>
      have next : normalizePoint normalized ⟨.rewind, ⟨memory, pp, 0⟩⟩ =
          .ok ⟨.loop, ⟨memory, pp, 0⟩⟩ := by simp [normalizePoint]
      exact sameEnd_of_ok next
  | succ before inductionHypothesis =>
      rw [stepBack]
      by_cases inside : before + 1 > normalized ∧ memory before ≠ slash
      · rw [if_pos inside]
        have next : normalizePoint normalized ⟨.rewind, ⟨memory, pp, before + 1⟩⟩ =
            .ok ⟨.rewind, ⟨memory, pp, before⟩⟩ := if_pos inside
        exact (sameEnd_of_ok next).trans inductionHypothesis
      · rw [if_neg inside]
        exact sameEnd_of_ok (if_neg inside)

theorem sameEnd_step (unended : cursor.memory cursor.pp ≠ 0)
    (stepped : normalizeStep normalized cursor = some after) :
    SameEnd normalized ⟨.loop, cursor⟩ ⟨.loop, after⟩ := by
  have head : SameEnd normalized ⟨.loop, cursor⟩ (loopHead normalized cursor) := sameEnd_of_ok rfl
  apply head.trans
  unfold normalizeStep at stepped
  unfold loopHead
  dsimp only at stepped ⊢
  rw [if_neg unended]
  by_cases separator : cursor.memory cursor.pp = slash
  · rw [if_pos separator] at stepped ⊢
    obtain ⟨past, skipped, same⟩ := Option.map_eq_some_iff.mp stepped
    rw [← same]
    exact sameEnd_skip skipped
  rw [if_neg separator] at stepped ⊢
  by_cases single : cursor.memory cursor.pp = dot ∧ endsComponent (cursor.memory (cursor.pp + 1))
  · rw [if_pos single, Option.some.injEq] at stepped
    rw [if_pos single, stepped]
    exact fun _ => Iff.rfl
  rw [if_neg single] at stepped ⊢
  by_cases double : cursor.memory cursor.pp = dot ∧ cursor.memory (cursor.pp + 1) = dot ∧
      endsComponent (cursor.memory (cursor.pp + 2))
  · rw [if_pos double, Option.some.injEq] at stepped
    rw [if_pos double, ← stepped]
    by_cases above : cursor.np > normalized + 1
    · rw [if_pos above, if_pos above]
      exact sameEnd_rewind cursor.memory (cursor.pp + 2) (cursor.np - 1)
    · rw [if_neg above, if_neg above]
      exact fun _ => Iff.rfl
  · rw [if_neg double] at stepped ⊢
    exact sameEnd_copy stepped

theorem sameEnd_loop (looped : normalizeLoop normalized fuel cursor = some after) :
    SameEnd normalized ⟨.loop, cursor⟩ ⟨.fallback, after⟩ := by
  induction fuel generalizing cursor with
  | zero => cases looped
  | succ fuel inductionHypothesis =>
      rw [normalizeLoop] at looped
      by_cases ended : cursor.memory cursor.pp = 0
      · rw [if_pos ended, Option.some.injEq] at looped
        have head : loopHead normalized cursor = ⟨.fallback, cursor⟩ := if_pos ended
        have next : normalizePoint normalized ⟨.loop, cursor⟩ = .ok ⟨.fallback, cursor⟩ :=
          congrArg Except.ok head
        rw [← looped]
        exact sameEnd_of_ok next
      · rw [if_neg ended] at looped
        obtain ⟨between, stepped, later⟩ := Option.bind_eq_some_iff.mp looped
        exact (sameEnd_step ended stepped).trans (inductionHypothesis later)

/-- What `vfs_normalize_path` returns with is what the machine leaves. -/
theorem stopsWith_of_normalizes {path : Nat} {left : Memory} (nonnull : path ≠ 0)
    (returned : vfsNormalizePath memory normalized path = some (normalized, left)) :
    StopsWith (normalizePoint normalized) (.begins memory normalized path) left := by
  rw [vfsNormalizePath, if_neg nonnull] at returned
  obtain ⟨last, looped, same⟩ := Option.map_eq_some_iff.mp returned
  have whole : SameEnd normalized (.begins memory normalized path) ⟨.fallback, last⟩ :=
    (sameEnd_of_ok rfl).trans (sameEnd_loop looped)
  have fell : SameEnd normalized ⟨.fallback, last⟩
      ⟨.terminate, if last.np = normalized then last.put slash else last⟩ := sameEnd_of_ok rfl
  have halts : ∀ cursor, normalizePoint normalized ⟨.terminate, cursor⟩ =
      .error (Function.update cursor.memory cursor.np 0) := fun _ => rfl
  rw [whole left, fell left, stopsWith_of_error (halts _)]
  exact (Prod.mk.inj same).2.symm

end Agreement

/-! ### Writes -/

/-- A pass changes no byte but the one at the write position. -/
theorem move_writes {normalized : Nat} {progress next : Progress}
    (move : Move normalized progress next) :
    Set.EqOn next.cursor.memory progress.cursor.memory ({progress.cursor.np} : Set Nat)ᶜ := by
  have put : ∀ (cursor : Cursor) (byte : UInt8),
      Set.EqOn (cursor.put byte).memory cursor.memory ({cursor.np} : Set Nat)ᶜ := by
    intro cursor byte target other
    show Function.update cursor.memory cursor.np byte target = cursor.memory target
    exact Function.update_of_ne other _ _
  cases move with
  | read => exact Set.eqOn_refl _ _
  | back => exact Set.eqOn_refl _ _
  | @copied cursor => exact put cursor (cursor.memory cursor.pp)
  | @separated cursor => exact put cursor slash
  | kept => exact Set.eqOn_refl _ _
  | @fellBack cursor => exact put cursor slash

/-- The NUL at the end is written to the write position. -/
theorem halts_writes {normalized : Nat} {progress : Progress} {left : Memory}
    (halts : normalizePoint normalized progress = .error left) :
    Set.EqOn left progress.cursor.memory ({progress.cursor.np} : Set Nat)ᶜ := by
  obtain ⟨point, cursor⟩ := progress
  cases point with
  | terminate =>
      cases halts
      exact fun target other => Function.update_of_ne other 0 cursor.memory
  | skip =>
      unfold normalizePoint at halts
      dsimp only at halts
      split at halts <;> cases halts
  | rewind =>
      unfold normalizePoint at halts
      dsimp only at halts
      split at halts <;> cases halts
  | copy =>
      unfold normalizePoint at halts
      dsimp only at halts
      split at halts <;> cases halts
  | begin => cases halts
  | loop => cases halts
  | fallback => cases halts

/-- The write position is in the buffer, with one byte left for the NUL. -/
structure InBuffer (normalized length : Nat) (progress : Progress) : Prop where
  bounded : progress.cursor.np ≤ normalized + max 1 length
  fits : length < maxPathLen → progress.cursor.np < normalized + maxPathLen

/-! ### The main result -/

/-- A state of a call: the pointers are in order and in the buffer, and a byte is
written to the write position or nowhere. -/
structure Guarded (normalized path length : Nat) (progress : Progress) : Prop where
  ordered : CursorsOrdered normalized path progress
  inBuffer : InBuffer normalized length progress
  passes : ∀ next, normalizePoint normalized progress = .ok next →
    Set.EqOn next.cursor.memory progress.cursor.memory ({progress.cursor.np} : Set Nat)ᶜ
  halts : ∀ left, normalizePoint normalized progress = .error left →
    Set.EqOn left progress.cursor.memory ({progress.cursor.np} : Set Nat)ᶜ

/-- A call that leaves this string, as the machine and as `vfsNormalizePath`. -/
def Leaves (memory : Memory) (normalized path : Nat) (result : List UInt8) : Prop :=
  ∃ left, StopsWith (normalizePoint normalized) (.begins memory normalized path) left ∧
    vfsNormalizePath memory normalized path = some (normalized, left) ∧
    Spells left normalized result

/-- Every state of the call is guarded, and the call ends, with at most as many
characters as the path, or one. The path in the buffer itself becomes the same. -/
structure NormalizesInOrder (path : CString) (memory : Memory) (normalized address : Nat) :
    Prop where
  states : ∀ progress,
    Reaches (normalizePoint normalized) (.begins memory normalized address) progress →
      Guarded normalized address (strlen path) progress
  ends : ∃ result, Leaves memory normalized address result ∧ 0 ∉ result ∧
    result.length ≤ max 1 (strlen path) ∧
    ∀ other, Spells other normalized path.bytes → Leaves other normalized normalized result

theorem guarded_of_reaches {path : CString} {memory : Memory} {normalized address : Nat}
    {progress : Progress} (spells : Spells memory address path.bytes)
    (readFirst : ReadFirst normalized address path.bytes)
    (reached : Reaches (normalizePoint normalized) (.begins memory normalized address) progress) :
    Guarded normalized address (strlen path) progress := by
  have invariant := cursorInvariant_of_reaches reached
  have above := invariant.above
  have onward := invariant.onward
  have written := invariant.written
  have within := (unread_of_reaches (spells_iff.mp spells).2 readFirst reached).within
  have bounded : progress.cursor.np ≤ normalized + max 1 (strlen path) := by
    rw [strlen]
    omega
  exact
    { ordered := invariant.ordered
      inBuffer :=
        { bounded := bounded
          fits := by
            intro short
            have size : maxPathLen = 256 := rfl
            omega }
      passes := fun _ goesOn => move_writes (move_of_ok goesOn)
      halts := fun _ halts => halts_writes halts }

theorem leaves_normalizedBytes {path : CString} {memory : Memory} {normalized address : Nat}
    (nonnull : address ≠ 0) (short : strlen path < scanLimit)
    (spells : Spells memory address path.bytes)
    (readFirst : ReadFirst normalized address path.bytes) :
    Leaves memory normalized address (normalizedBytes path.bytes) ∧
      0 ∉ normalizedBytes path.bytes ∧
      (normalizedBytes path.bytes).length ≤ max 1 (strlen path) := by
  obtain ⟨left, returned, result, ends, length, _⟩ :=
    vfsNormalizePath_spec nonnull spells path.terminated readFirst short
  exact ⟨⟨left, stopsWith_of_normalizes nonnull returned, returned, result⟩, ends, length⟩

/-- The cursors of `vfs_normalize_path`, for every path and every memory in which
no byte of it is overwritten before it is read: a path apart from the buffer, and
one that stands in it. -/
theorem normalization_cursors (path : CString) {memory : Memory} {normalized address : Nat}
    (nonnull : address ≠ 0) (located : normalized ≠ 0) (short : strlen path < scanLimit)
    (spells : Spells memory address path.bytes)
    (readFirst : ReadFirst normalized address path.bytes) :
    NormalizesInOrder path memory normalized address where
  states := fun _ reached => guarded_of_reaches spells readFirst reached
  ends := by
    obtain ⟨leaves, ends, length⟩ := leaves_normalizedBytes nonnull short spells readFirst
    refine ⟨_, leaves, ends, length, fun other stands => ?_⟩
    exact (leaves_normalizedBytes located short stands (.inl le_rfl)).1

/-- The path `a/..` behind the buffer. -/
theorem normalization_cursors_up :
    NormalizesInOrder ⟨[97, 47, 46, 46], by decide⟩
      (fun target => ([97, 47, 46, 46] : List UInt8).getD (target - 1024) 0) 512 1024 :=
  normalization_cursors ⟨[97, 47, 46, 46], by decide⟩ (by decide) (by decide)
    (by unfold scanLimit; decide) ⟨rfl, rfl, rfl, rfl, rfl⟩ (.inl (by decide))

end NansOS.Vfs
