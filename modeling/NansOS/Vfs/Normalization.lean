import NansOS.Vfs.Paths

/-! Owns what normalized paths are, and for which paths `vfs_normalize_path` makes
them. `canonical` is the purpose of the function: a stack of names, on which `..`
pops. The function itself never takes back the separator that it wrote in front
of a component, so it runs the stack machine of `settle`, on which `.` and `..`
leave an empty name behind. -/

namespace NansOS.Vfs

open NansOS.Foundation
open NansOS.Kernel

/-! ### Normal forms -/

/-- The component `.`. -/
abbrev single : List UInt8 := [dot]

/-- The component `..`. -/
abbrev double : List UInt8 := [dot, dot]

/-- One component, on the stack of names. -/
def reduce (stack : List (List UInt8)) (component : List UInt8) : List (List UInt8) :=
  if component = single then stack
  else if component = double then stack.dropLast
  else stack ++ [component]

/-- A `/` and names joined by `/`. -/
def render (names : List (List UInt8)) : List UInt8 := slash :: joined slash names

/-- The normal form of an absolute path. -/
def canonical (path : List UInt8) : List UInt8 :=
  render ((components slash path).foldl reduce [])

/-- Names that stand in a normal form. -/
structure Names (names : List (List UInt8)) : Prop where
  proper : Proper slash names
  plain : ∀ name ∈ names, name ≠ single ∧ name ≠ double

instance (names : List (List UInt8)) : Decidable (Names names) :=
  decidable_of_iff (Proper slash names ∧ ∀ name ∈ names, name ≠ single ∧ name ≠ double)
    ⟨fun both => ⟨both.1, both.2⟩, fun named => ⟨named.proper, named.plain⟩⟩

theorem Names.reduce {stack : List (List UInt8)} (names : Names stack) {component : List UInt8}
    (proper : component ≠ [] ∧ slash ∉ component) : Names (reduce stack component) := by
  unfold NansOS.Vfs.reduce
  split_ifs with isSingle isDouble
  · exact names
  · exact ⟨fun name member => names.proper name (List.mem_of_mem_dropLast member),
      fun name member => names.plain name (List.mem_of_mem_dropLast member)⟩
  · constructor
    · intro name member
      rcases List.mem_append.mp member with earlier | last
      · exact names.proper name earlier
      · rw [List.mem_singleton.mp last]
        exact proper
    · intro name member
      rcases List.mem_append.mp member with earlier | last
      · exact names.plain name earlier
      · rw [List.mem_singleton.mp last]
        exact ⟨isSingle, isDouble⟩

theorem names_foldl {pieces : List (List UInt8)} (proper : Proper slash pieces)
    {stack : List (List UInt8)} (names : Names stack) : Names (pieces.foldl reduce stack) := by
  induction pieces generalizing stack with
  | nil => exact names
  | cons piece rest inductionHypothesis =>
      exact inductionHypothesis proper.tail (names.reduce (proper piece List.mem_cons_self))

theorem foldl_reduce_plain {pieces : List (List UInt8)}
    (plain : ∀ piece ∈ pieces, piece ≠ single ∧ piece ≠ double) (stack : List (List UInt8)) :
    pieces.foldl reduce stack = stack ++ pieces := by
  induction pieces generalizing stack with
  | nil => simp
  | cons piece rest inductionHypothesis =>
      obtain ⟨notSingle, notDouble⟩ := plain piece List.mem_cons_self
      rw [List.foldl_cons, inductionHypothesis fun other member => plain other (by simp [member]),
        reduce, if_neg notSingle, if_neg notDouble, List.append_assoc, List.singleton_append]

/-- As many `..` as there are names empty the stack. -/
theorem foldl_reduce_double {pieces : List (List UInt8)} (every : ∀ piece ∈ pieces, piece = double)
    {stack : List (List UInt8)} (enough : stack.length ≤ pieces.length) :
    pieces.foldl reduce stack = [] := by
  induction pieces generalizing stack with
  | nil => exact List.eq_nil_of_length_eq_zero (Nat.le_zero.mp enough)
  | cons piece rest inductionHypothesis =>
      have here := every piece List.mem_cons_self
      rw [List.foldl_cons, here]
      refine inductionHypothesis (fun other member => every other (by simp [member])) ?_
      rw [List.length_cons] at enough
      change (stack.dropLast).length ≤ rest.length
      rw [List.length_dropLast]
      omega

theorem names_components (path : List UInt8) :
    Names ((components slash path).foldl reduce []) :=
  names_foldl (proper_components slash path)
    ⟨fun _ member => absurd member List.not_mem_nil, fun _ member => absurd member List.not_mem_nil⟩

section Shape

variable {names : List (List UInt8)}

theorem components_render (proper : Proper slash names) :
    components slash (render names) = names := by
  rw [render, components_cons_separator, components_joined proper]

theorem splitOn_render (nonempty : names ≠ []) (absent : ∀ name ∈ names, slash ∉ name) :
    (render names).splitOn slash = [] :: names := by
  have split := List.splitOn_append_cons_self [] (joined slash names) (a := slash)
  rw [List.nil_append] at split
  rw [render, split, joined, List.splitOn_intercalate slash absent nonempty]
  rfl

/-- No separator in a normal form is followed by an empty component, except in
that of the root. -/
theorem render_no_empty (proper : Proper slash names) {before after : List UInt8}
    {others : List (List UInt8)} (whole : render names = before ++ slash :: after)
    (empty : after.splitOn slash = [] :: others) : names = [] := by
  by_contra nonempty
  have split := splitOn_render nonempty fun name member => (proper name member).2
  obtain ⟨first, rest, shape⟩ := List.exists_cons_of_ne_nil (List.splitOn_ne_nil slash before)
  rw [whole, List.splitOn_append_cons_self, empty, shape, List.cons_append, List.cons.injEq]
    at split
  have member : [] ∈ names := by
    rw [← split.2]
    simp
  exact (proper [] member).1 rfl

theorem render_noDoubleSlash (proper : Proper slash names) :
    ¬ [slash, slash] <:+: render names := by
  rintro ⟨before, after, whole⟩
  rw [List.append_assoc, List.cons_append, List.cons_append, List.nil_append] at whole
  have split := List.splitOn_append_cons_self [] after (a := slash)
  rw [List.nil_append] at split
  have empty := render_no_empty proper whole.symm split
  have length := congrArg List.length whole
  rw [empty] at length
  simp only [render, joined_nil, List.length_append, List.length_cons, List.length_nil] at length
  omega

theorem render_noTrailing (proper : Proper slash names)
    (last : (render names).getLast? = some slash) : render names = [slash] := by
  obtain ⟨before, whole⟩ := List.getLast?_eq_some_iff.mp last
  rw [render_no_empty proper whole (List.splitOn_nil slash)]
  rfl

theorem render_noDots (named : Names names) :
    ∀ piece ∈ (render names).splitOn slash, piece ≠ single ∧ piece ≠ double := by
  intro piece member
  by_cases empty : piece = []
  · subst empty
    decide
  · apply named.plain
    rw [← components_render named.proper]
    exact List.mem_filter.mpr ⟨member, decide_eq_true empty⟩

theorem canonical_render (named : Names names) : canonical (render names) = render names := by
  rw [canonical, components_render named.proper, foldl_reduce_plain named.plain, List.nil_append]

end Shape

/-! ### The stack machine of the code -/

/-- One component, on the names that stand before it: `.` and `..` leave an empty
name. -/
def settle (names : List (List UInt8)) (component : List UInt8) : List (List UInt8) :=
  if component = single then names ++ [[]]
  else if component = double then names.dropLast ++ [[]]
  else names ++ [component]

section Settle

variable {names pieces : List (List UInt8)} {component : List UInt8}

theorem render_concat (nonempty : names ≠ []) (name : List UInt8) :
    render (names ++ [name]) = render names ++ slash :: name := by
  rw [render, render, joined_append nonempty (by simp), joined_singleton, List.cons_append]

/-- Cutting back behind the last separator. -/
theorem rdropWhile_name {name : List UInt8} (absent : slash ∉ name) (before : List UInt8) :
    (before ++ slash :: name).rdropWhile (fun byte => decide (byte ≠ slash)) =
      before ++ [slash] := by
  induction name using List.reverseRecOn with
  | nil => exact List.rdropWhile_concat_neg _ _ _ (by simp)
  | append_singleton name byte inductionHypothesis =>
      have other : byte ≠ slash := fun same => absent (by simp [same])
      have shape : before ++ slash :: (name ++ [byte]) = before ++ slash :: name ++ [byte] := by
        simp
      rw [shape, List.rdropWhile_concat_pos _ _ _ (by simpa using other)]
      exact inductionHypothesis fun member => absent (by simp [member])

/-- On rendered names, `place` is the stack machine. -/
theorem place_render (absent : ∀ name ∈ names, slash ∉ name) :
    place (render (names ++ [[]])) component = render (settle names component) := by
  unfold place settle
  by_cases isSingle : component = single
  · rw [if_pos isSingle, if_pos isSingle]
  rw [if_neg isSingle, if_neg isSingle]
  by_cases isDouble : component = double
  · rw [if_pos isDouble, if_pos isDouble]
    -- Without a name only the first separator stands there, and it stays.
    by_cases empty : names = []
    · subst empty
      exact if_neg (by decide)
    · obtain ⟨before, last, rfl⟩ := (List.eq_nil_or_concat names).resolve_left empty
      rw [List.concat_eq_append] at absent empty ⊢
      have lastAbsent : slash ∉ last := absent last (by simp)
      rw [render_concat empty, if_pos (by simp [render]), List.dropLast_concat,
        List.dropLast_concat]
      by_cases first : before = []
      · subst first
        simpa [render] using rdropWhile_name lastAbsent []
      · rw [render_concat first, rdropWhile_name lastAbsent, render_concat first]
  · rw [if_neg isDouble, if_neg isDouble]
    by_cases empty : names = []
    · subst empty
      simp [render]
    · rw [render_concat empty, render_concat empty, List.append_assoc, List.cons_append,
        List.nil_append]

theorem settle_ne_nil (names : List (List UInt8)) (component : List UInt8) :
    settle names component ≠ [] := by
  unfold settle
  split_ifs <;> simp

theorem settle_absent (absent : ∀ name ∈ names, slash ∉ name) (proper : slash ∉ component) :
    ∀ name ∈ settle names component, slash ∉ name := by
  unfold settle
  intro name member
  split_ifs at member
  · rcases List.mem_append.mp member with earlier | last
    · exact absent name earlier
    · simp [List.mem_singleton.mp last]
  · rcases List.mem_append.mp member with earlier | last
    · exact absent name (List.mem_of_mem_dropLast earlier)
    · simp [List.mem_singleton.mp last]
  · rcases List.mem_append.mp member with earlier | last
    · exact absent name earlier
    · exact List.mem_singleton.mp last ▸ proper

theorem foldl_placeNext (proper : Proper slash pieces) (nonempty : names ≠ [])
    (absent : ∀ name ∈ names, slash ∉ name) :
    pieces.foldl placeNext (render names) = render (pieces.foldl settle names) := by
  induction pieces generalizing names with
  | nil => rfl
  | cons piece rest inductionHypothesis =>
      obtain ⟨_, pieceAbsent⟩ := proper piece List.mem_cons_self
      rw [List.foldl_cons, List.foldl_cons, placeNext, ← render_concat nonempty,
        place_render absent]
      exact inductionHypothesis proper.tail (settle_ne_nil names piece)
        (settle_absent absent pieceAbsent)

/-- The names that the code leaves for the components behind the first `/`. -/
def settled (rest : List UInt8) : List (List UInt8) :=
  if rest.head? = some slash then (components slash rest).foldl settle [[]]
  else
    match components slash rest with
    | [] => [[]]
    | first :: others => others.foldl settle (settle [] first)

theorem normalizedBytes_eq (rest : List UInt8) :
    normalizedBytes (slash :: rest) = render (settled rest) := by
  have proper := proper_components slash rest
  have scanned : scan [slash] rest = render (settled rest) := by
    rw [scan, settled]
    by_cases again : rest.head? = some slash
    · rw [if_pos again, if_pos again]
      exact foldl_placeNext proper (List.cons_ne_nil [] []) (by simp)
    · rw [if_neg again, if_neg again]
      generalize components slash rest = pieces at proper
      cases pieces with
      | nil => rfl
      | cons first others =>
          have start : place (render ([] ++ [[]])) first = render (settle [] first) :=
            place_render (by simp)
          change others.foldl placeNext (place [slash] first) = _
          rw [show [slash] = render ([] ++ [[]]) from rfl, start]
          exact foldl_placeNext proper.tail (settle_ne_nil [] first)
            (settle_absent (by simp) (proper first List.mem_cons_self).2)
  unfold normalizedBytes
  rw [List.head?_cons, if_pos rfl, List.tail_cons, scanned, if_neg (by simp [render])]

/-! ### When the two agree -/

theorem nil_mem_settle (member : [] ∈ names) : [] ∈ settle names component := by
  unfold settle
  split_ifs <;> simp [member]

theorem nil_mem_foldl_settle (member : [] ∈ names) : [] ∈ pieces.foldl settle names := by
  induction pieces generalizing names with
  | nil => exact member
  | cons piece rest inductionHypothesis => exact inductionHypothesis (nil_mem_settle member)

/-- A `.` or `..` leaves an empty name. -/
theorem nil_mem_of_dots {piece : List UInt8} (member : piece ∈ pieces)
    (dots : piece = single ∨ piece = double) : [] ∈ pieces.foldl settle names := by
  induction pieces generalizing names with
  | nil => exact absurd member List.not_mem_nil
  | cons first rest inductionHypothesis =>
      rcases List.mem_cons.mp member with rfl | later
      · rw [List.foldl_cons]
        apply nil_mem_foldl_settle
        rcases dots with rfl | rfl
        · simp [settle]
        · simp [settle]
      · exact inductionHypothesis later

theorem foldl_settle_plain (plain : ∀ piece ∈ pieces, piece ≠ single ∧ piece ≠ double)
    (names : List (List UInt8)) : pieces.foldl settle names = names ++ pieces := by
  induction pieces generalizing names with
  | nil => simp
  | cons piece rest inductionHypothesis =>
      obtain ⟨notSingle, notDouble⟩ := plain piece List.mem_cons_self
      rw [List.foldl_cons, inductionHypothesis fun other member => plain other (by simp [member]),
        settle, if_neg notSingle, if_neg notDouble, List.append_assoc, List.singleton_append]

/-- Only `..` does not make the list of names longer. -/
theorem length_foldl_settle (nonempty : names ≠ []) :
    (pieces.foldl settle names).length =
      names.length + pieces.countP fun piece => decide (piece ≠ double) := by
  induction pieces generalizing names with
  | nil => simp
  | cons piece rest inductionHypothesis =>
      have positive := List.length_pos_iff.mpr nonempty
      rw [List.foldl_cons, inductionHypothesis (settle_ne_nil names piece), List.countP_cons]
      by_cases isDouble : piece = double
      · subst isDouble
        simp [settle]
        omega
      · have longer : (settle names piece).length = names.length + 1 := by
          unfold settle
          split_ifs <;> simp
        rw [longer, if_pos (by simpa using isDouble)]
        omega

/-- What is left has length one exactly when there was one name and only `..`
came. -/
theorem length_foldl_settle_iff (one : names.length = 1) :
    (pieces.foldl settle names).length = 1 ↔ ∀ piece ∈ pieces, piece = double := by
  rw [length_foldl_settle (List.length_pos_iff.mp (by omega)), one, Nat.add_eq_left,
    List.countP_eq_zero]
  simp

/-- Rendered names are the normal form of a stack exactly when they are that
stack, or the empty name stands for the empty stack. -/
theorem render_eq_iff {stack : List (List UInt8)} (nonempty : names ≠ [])
    (absent : ∀ name ∈ names, slash ∉ name) (named : Names stack) :
    render names = render stack ↔ names = stack ∨ names = [[]] ∧ stack = [] := by
  constructor
  · intro same
    by_cases empty : stack = []
    · subst empty
      right
      have split := congrArg (List.splitOn slash) same
      rw [splitOn_render nonempty absent] at split
      exact ⟨(List.cons.inj split).2, rfl⟩
    · left
      have split := congrArg (List.splitOn slash) same
      rw [splitOn_render nonempty absent,
        splitOn_render empty fun name member => (named.proper name member).2] at split
      exact (List.cons.inj split).2
  · rintro (rfl | ⟨rfl, rfl⟩)
    · rfl
    · rfl

end Settle

/-- The path starts with two separators and every component is `..`, or it
starts with one and no component is `.` or `..`, or every component after the
first is `..`. -/
def CleanPath (path : List UInt8) : Prop :=
  if path.tail.head? = some slash then ∀ piece ∈ components slash path, piece = double
  else (∀ piece ∈ components slash path, piece ≠ single ∧ piece ≠ double) ∨
    ∀ piece ∈ (components slash path).tail, piece = double

instance (path : List UInt8) : Decidable (CleanPath path) :=
  inferInstanceAs (Decidable (ite _ _ _))

theorem foldl_settle_absent {names pieces : List (List UInt8)} (proper : Proper slash pieces)
    (nonempty : names ≠ []) (absent : ∀ name ∈ names, slash ∉ name) :
    pieces.foldl settle names ≠ [] ∧ ∀ name ∈ pieces.foldl settle names, slash ∉ name := by
  induction pieces generalizing names with
  | nil => exact ⟨nonempty, absent⟩
  | cons piece rest inductionHypothesis =>
      exact inductionHypothesis proper.tail (settle_ne_nil names piece)
        (settle_absent absent (proper piece List.mem_cons_self).2)

theorem settled_absent (rest : List UInt8) :
    settled rest ≠ [] ∧ ∀ name ∈ settled rest, slash ∉ name := by
  have proper := proper_components slash rest
  unfold settled
  split_ifs
  · exact foldl_settle_absent proper (by simp) (by simp)
  · generalize components slash rest = pieces at proper
    cases pieces with
    | nil => exact ⟨by simp, by simp⟩
    | cons first others =>
        exact foldl_settle_absent proper.tail (settle_ne_nil [] first)
          (settle_absent (by simp) (proper first List.mem_cons_self).2)

/-- Once there is an empty name, only one name may be left. -/
theorem agree_iff_of_nil {names stack : List (List UInt8)} (member : [] ∈ names)
    (named : Names stack) :
    names = stack ∨ names = [[]] ∧ stack = [] ↔ names.length = 1 ∧ stack = [] := by
  constructor
  · rintro (rfl | ⟨rfl, empty⟩)
    · exact absurd rfl (named.proper [] member).1
    · exact ⟨rfl, empty⟩
  · rintro ⟨one, empty⟩
    obtain ⟨name, rfl⟩ := List.length_eq_one_iff.mp one
    rw [List.mem_singleton.mp member]
    exact .inr ⟨rfl, empty⟩

/-- One component and as many `..` as there are more leave no name, if the only
one is not a name. -/
theorem foldl_reduce_first {first : List UInt8} {others : List (List UInt8)}
    (dots : ¬ ∀ piece ∈ first :: others, piece ≠ single ∧ piece ≠ double)
    (every : ∀ piece ∈ others, piece = double) : (first :: others).foldl reduce [] = [] := by
  rw [List.foldl_cons]
  apply foldl_reduce_double every
  by_cases last : others = []
  · subst last
    have dotted : first = single ∨ first = double := by
      by_contra neither
      exact dots fun piece member => not_or.mp (List.mem_singleton.mp member ▸ neither)
    rcases dotted with rfl | rfl
    · decide
    · decide
  · have positive := List.length_pos_iff.mpr last
    have short : (reduce [] first).length ≤ 1 := by
      unfold reduce
      split_ifs <;> simp
    omega

/-- The code makes the normal form exactly of clean paths. -/
theorem normalizedBytes_eq_canonical_iff (rest : List UInt8) :
    normalizedBytes (slash :: rest) = canonical (slash :: rest) ↔ CleanPath (slash :: rest) := by
  obtain ⟨nonempty, absent⟩ := settled_absent rest
  have named := names_components (slash :: rest)
  rw [normalizedBytes_eq, canonical, render_eq_iff nonempty absent named]
  rw [components_cons_separator] at named ⊢
  unfold CleanPath settled
  rw [List.tail_cons, components_cons_separator]
  generalize components slash rest = pieces at named ⊢
  by_cases again : rest.head? = some slash
  · rw [if_pos again, if_pos again, agree_iff_of_nil (nil_mem_foldl_settle (by simp)) named,
      length_foldl_settle_iff rfl]
    exact and_iff_left_of_imp fun every => foldl_reduce_double every (Nat.zero_le _)
  · rw [if_neg again, if_neg again]
    cases pieces with
    | nil => simp
    | cons first others =>
        dsimp only
        by_cases plain : ∀ piece ∈ first :: others, piece ≠ single ∧ piece ≠ double
        · have code := foldl_settle_plain plain []
          have stack := foldl_reduce_plain plain []
          rw [List.foldl_cons] at code
          exact iff_of_true (.inl (code.trans stack.symm)) (.inl plain)
        · have dotted : ∃ piece ∈ first :: others, piece = single ∨ piece = double := by
            by_contra none
            exact plain fun piece member => not_or.mp fun dots => none ⟨piece, member, dots⟩
          obtain ⟨piece, member, dots⟩ := dotted
          have empty : [] ∈ others.foldl settle (settle [] first) :=
            show [] ∈ (first :: others).foldl settle [] from nil_mem_of_dots member dots
          have one : (settle [] first).length = 1 := by
            unfold settle
            split_ifs <;> rfl
          rw [agree_iff_of_nil empty named, length_foldl_settle_iff one, List.tail_cons,
            or_iff_right plain]
          exact and_iff_left_of_imp fun every => foldl_reduce_first plain every

/-- A normal form is left as it is. -/
theorem normalizedBytes_render {names : List (List UInt8)} (named : Names names) :
    normalizedBytes (render names) = render names := by
  have clean : CleanPath (render names) := by
    unfold CleanPath
    rw [render, List.tail_cons, if_neg (joined_head named.proper), components_cons_separator,
      components_joined named.proper]
    exact .inl named.plain
  have agree := (normalizedBytes_eq_canonical_iff (joined slash names)).mpr clean
  exact agree.trans (canonical_render named)

/-! ### Normalizing a path -/

/-- `vfs_normalize_path` turns the one string into the other, wherever it finds
it. -/
def NormalizesTo (path result : List UInt8) : Prop :=
  ∀ memory normalized address, address ≠ 0 → Spells memory address path →
    ReadFirst normalized address path →
      ∃ after, vfsNormalizePath memory normalized address = some (normalized, after) ∧
        Spells after normalized result

/-- The result is the normal form; so it has no empty component, no `.` or `..`
and no separator at its end, and is its own normal form. -/
structure Normalizes (path : List UInt8) : Prop where
  result : NormalizesTo path (canonical path)
  noDoubleSlash : ¬ [slash, slash] <:+: canonical path
  noDots : ∀ piece ∈ (canonical path).splitOn slash, piece ≠ single ∧ piece ≠ double
  noTrailing : (canonical path).getLast? = some slash → canonical path = [slash]
  again : NormalizesTo (canonical path) (canonical path)

/-- Some memory holds a text at an address. -/
theorem exists_spells (address : Nat) (bytes : List UInt8) :
    ∃ memory, Spells memory address bytes := by
  refine ⟨fun target => (bytes[target - address]?).getD 0, spells_iff.mpr ⟨?_, by simp⟩⟩
  refine List.ext_getElem (by simp) fun index left right => ?_
  simp [Memory.bytes, right]

theorem normalizesTo_iff {path result : List UInt8} (ends : 0 ∉ path) (resultEnds : 0 ∉ result)
    (short : path.length < scanLimit) :
    NormalizesTo path result ↔ normalizedBytes path = result := by
  constructor
  · intro becomes
    -- Any memory that holds the path will do.
    obtain ⟨memory, spells⟩ := exists_spells 1 path
    obtain ⟨after, returned, left⟩ := becomes _ 1 1 one_ne_zero spells (.inl le_rfl)
    obtain ⟨other, same, right, clean, _⟩ :=
      vfsNormalizePath_spec one_ne_zero spells ends (.inl le_rfl) short
    rw [returned] at same
    obtain rfl := (Prod.mk.inj (Option.some.inj same)).2
    exact right.unique left clean resultEnds
  · rintro rfl memory normalized address nonnull spells readFirst
    obtain ⟨after, returned, left, _⟩ :=
      vfsNormalizePath_spec nonnull spells ends readFirst short
    exact ⟨after, returned, left⟩

theorem length_normalizedBytes {path : List UInt8} (ends : 0 ∉ path)
    (short : path.length < scanLimit) : (normalizedBytes path).length ≤ max 1 path.length := by
  obtain ⟨memory, spells⟩ := exists_spells 1 path
  obtain ⟨after, _, _, _, length, _⟩ :=
    vfsNormalizePath_spec one_ne_zero spells ends (.inl le_rfl) short
  exact length

theorem mem_foldl_reduce {pieces stack : List (List UInt8)} {name : List UInt8}
    (member : name ∈ pieces.foldl reduce stack) : name ∈ stack ∨ name ∈ pieces := by
  induction pieces generalizing stack with
  | nil => exact .inl member
  | cons piece rest inductionHypothesis =>
      rcases inductionHypothesis member with earlier | later
      · unfold reduce at earlier
        split_ifs at earlier
        · exact .inl earlier
        · exact .inl (List.mem_of_mem_dropLast earlier)
        · rcases List.mem_append.mp earlier with old | new
          · exact .inl old
          · exact .inr (by simp [List.mem_singleton.mp new])
      · exact .inr (by simp [later])

theorem zero_not_mem_canonical {path : List UInt8} (ends : 0 ∉ path) : 0 ∉ canonical path := by
  intro member
  rw [canonical, render, List.mem_cons] at member
  rcases member with zero | member
  · exact absurd zero (by decide)
  rcases mem_joined member with zero | ⟨name, listed, inside⟩
  · exact absurd zero (by decide)
  · rcases mem_foldl_reduce listed with impossible | component
    · exact absurd impossible List.not_mem_nil
    · exact ends (mem_of_mem_components component inside)

theorem lt_scanLimit {path : List UInt8} (short : path.length < maxPathLen) :
    path.length < scanLimit := by
  have short : path.length < 256 := short
  unfold scanLimit
  omega

/-- For every absolute path of at most 255 bytes, `vfs_normalize_path` makes its
normal form exactly when the path is clean. -/
theorem normalizes_iff (path : CString) (absolute : path.bytes.head? = some slash)
    (short : strlen path < maxPathLen) : Normalizes path.bytes ↔ CleanPath path.bytes := by
  obtain ⟨rest, shape⟩ := List.head?_eq_some_iff.mp absolute
  have ends := path.terminated
  have limit := lt_scanLimit short
  have resultEnds := zero_not_mem_canonical ends
  have agree := normalizedBytes_eq_canonical_iff rest
  have named := names_components path.bytes
  rw [← shape] at agree
  constructor
  · intro normalizes
    exact agree.mp ((normalizesTo_iff ends resultEnds limit).mp normalizes.result)
  · intro clean
    have result := agree.mpr clean
    refine ⟨(normalizesTo_iff ends resultEnds limit).mpr result, render_noDoubleSlash named.proper,
      render_noDots named, render_noTrailing named.proper, ?_⟩
    have length := length_normalizedBytes ends limit
    rw [result] at length
    exact (normalizesTo_iff resultEnds resultEnds (by unfold scanLimit at *; omega)).mpr
      (normalizedBytes_render named)

/-- The path `/a/..`. -/
def upFromA : CString := ⟨[47, 97, 47, 46, 46], by decide⟩

theorem upFromA_normalizes : Normalizes upFromA.bytes :=
  (normalizes_iff upFromA rfl (by decide)).mpr (by decide)

/-- Of `/a/b/..` the function makes `/a/`. -/
theorem up_leaves_separator :
    ¬ ∀ path : CString, path.bytes.head? = some slash → strlen path < maxPathLen →
      Normalizes path.bytes := by
  intro always
  have normalizes := always ⟨[47, 97, 47, 98, 47, 46, 46], by decide⟩ rfl (by decide)
  have same := (normalizesTo_iff (by decide) (by decide) (lt_scanLimit (by decide))).mp
    normalizes.result
  exact absurd same (by decide)

end NansOS.Vfs
