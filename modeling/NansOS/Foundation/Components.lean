import Mathlib.Data.List.Infix
import Mathlib.Data.List.DropRight

/-! Owns texts made of components between separators, as paths are: the
non-empty components of a text, and texts joined from components. Runs of
separators count as one, and separators at either end do not count. Splitting
after joining gives the components back, and cutting off leading components is
cutting off a leading part of the text. -/

namespace NansOS.Foundation

universe u

variable {Symbol : Type u}

/-- The non-empty components of a text. -/
def components [DecidableEq Symbol] (separator : Symbol) (text : List Symbol) :
    List (List Symbol) :=
  (text.splitOn separator).filter fun piece => decide (piece ≠ [])

/-- Components with one separator between each two. -/
def joined (separator : Symbol) (pieces : List (List Symbol)) : List Symbol :=
  [separator].intercalate pieces

/-- Every piece can be a component. -/
def Proper (separator : Symbol) (pieces : List (List Symbol)) : Prop :=
  ∀ piece ∈ pieces, piece ≠ [] ∧ separator ∉ piece

instance [DecidableEq Symbol] (separator : Symbol) (pieces : List (List Symbol)) :
    Decidable (Proper separator pieces) :=
  inferInstanceAs (Decidable (∀ _ ∈ _, _))

section Join

variable {separator : Symbol} {pieces others : List (List Symbol)} {piece : List Symbol}

@[simp] theorem joined_nil (separator : Symbol) : joined separator [] = [] := rfl

@[simp] theorem joined_singleton (separator : Symbol) (piece : List Symbol) :
    joined separator [piece] = piece :=
  List.intercalate_singleton

theorem joined_cons (nonempty : pieces ≠ []) :
    joined separator (piece :: pieces) = piece ++ separator :: joined separator pieces := by
  rw [joined, List.intercalate_cons_of_ne_nil nonempty, List.append_assoc, List.singleton_append]
  rfl

theorem joined_append (nonempty : pieces ≠ []) (more : others ≠ []) :
    joined separator (pieces ++ others) =
      joined separator pieces ++ separator :: joined separator others := by
  induction pieces with
  | nil => exact absurd rfl nonempty
  | cons piece rest inductionHypothesis =>
      by_cases last : rest = []
      · subst last
        rw [List.singleton_append, joined_cons more, joined_singleton]
      · rw [List.cons_append, joined_cons (by simp [last]), joined_cons last,
          inductionHypothesis last, List.append_assoc, List.cons_append]

theorem mem_joined {symbol : Symbol} (member : symbol ∈ joined separator pieces) :
    symbol = separator ∨ ∃ piece ∈ pieces, symbol ∈ piece := by
  induction pieces with
  | nil => exact absurd member List.not_mem_nil
  | cons piece rest inductionHypothesis =>
      by_cases last : rest = []
      · subst last
        exact .inr ⟨piece, by simp, by simpa using member⟩
      · rw [joined_cons last, List.mem_append, List.mem_cons] at member
        rcases member with here | same | later
        · exact .inr ⟨piece, by simp, here⟩
        · exact .inl same
        · rcases inductionHypothesis later with same | ⟨other, listed, inside⟩
          · exact .inl same
          · exact .inr ⟨other, by simp [listed], inside⟩

theorem mem_joined_of_mem {symbol : Symbol} (listed : piece ∈ pieces) (member : symbol ∈ piece) :
    symbol ∈ joined separator pieces := by
  induction pieces with
  | nil => exact absurd listed List.not_mem_nil
  | cons first rest inductionHypothesis =>
      by_cases last : rest = []
      · subst last
        rwa [joined_singleton, ← List.mem_singleton.mp listed]
      · rw [joined_cons last, List.mem_append, List.mem_cons]
        rcases List.mem_cons.mp listed with rfl | later
        · exact .inl member
        · exact .inr (.inr (inductionHypothesis later))

theorem Proper.tail (proper : Proper separator (piece :: pieces)) : Proper separator pieces :=
  fun other member => proper other (List.mem_cons_of_mem _ member)

/-- A joined text does not start with a separator. -/
theorem joined_head (proper : Proper separator pieces) :
    (joined separator pieces).head? ≠ some separator := by
  cases pieces with
  | nil => simp
  | cons piece rest =>
      obtain ⟨nonempty, absent⟩ := proper piece List.mem_cons_self
      obtain ⟨symbol, others, rfl⟩ := List.exists_cons_of_ne_nil nonempty
      have other : symbol ≠ separator := fun same => absent (by simp [same])
      by_cases last : rest = []
      · subst last
        simpa using other
      · simpa [joined_cons last] using other

end Join

variable [DecidableEq Symbol]

section Split

variable {separator : Symbol} {text : List Symbol} {piece : List Symbol}

@[simp] theorem components_nil (separator : Symbol) : components separator [] = [] := by
  simp [components]

theorem components_append_cons (separator : Symbol) (text rest : List Symbol) :
    components separator (text ++ separator :: rest) =
      components separator text ++ components separator rest := by
  rw [components, List.splitOn_append_cons_self, List.filter_append]
  rfl

@[simp] theorem components_cons_separator (separator : Symbol) (rest : List Symbol) :
    components separator (separator :: rest) = components separator rest := by
  simpa using components_append_cons separator [] rest

theorem components_single (nonempty : piece ≠ []) (absent : separator ∉ piece) :
    components separator piece = [piece] := by
  rw [components, List.splitOn_eq_singleton absent]
  simp [nonempty]

theorem components_dropWhile (separator : Symbol) (text : List Symbol) :
    components separator (text.dropWhile fun symbol => decide (symbol = separator)) =
      components separator text := by
  induction text with
  | nil => rfl
  | cons symbol rest inductionHypothesis =>
      by_cases same : symbol = separator
      · rw [List.dropWhile_cons_of_pos (by simpa using same), inductionHypothesis, same,
          components_cons_separator]
      · rw [List.dropWhile_cons_of_neg (by simpa using same)]

/-- The symbols before the first separator. -/
def leading (separator : Symbol) (text : List Symbol) : List Symbol :=
  text.takeWhile fun symbol => decide (symbol ≠ separator)

/-- The text from the first separator on. -/
def following (separator : Symbol) (text : List Symbol) : List Symbol :=
  text.dropWhile fun symbol => decide (symbol ≠ separator)

theorem leading_append_following (separator : Symbol) (text : List Symbol) :
    leading separator text ++ following separator text = text :=
  List.takeWhile_append_dropWhile

theorem not_mem_leading (separator : Symbol) (text : List Symbol) :
    separator ∉ leading separator text := by
  intro member
  simpa using List.mem_takeWhile_imp member

theorem following_head (separator : Symbol) (text : List Symbol) :
    following separator text = [] ∨
      ∃ rest, following separator text = separator :: rest := by
  cases shape : following separator text with
  | nil => exact .inl rfl
  | cons symbol rest =>
      right
      have stops := List.head?_dropWhile_not (fun symbol => decide (symbol ≠ separator)) text
      rw [← following, shape] at stops
      have same : symbol = separator := by simpa using stops
      exact ⟨rest, by rw [same]⟩

theorem leading_ne_nil (nonempty : text ≠ []) (start : text.head? ≠ some separator) :
    leading separator text ≠ [] := by
  cases text with
  | nil => exact absurd rfl nonempty
  | cons symbol rest =>
      have other : symbol ≠ separator := by simpa using start
      simp [leading, other]

theorem length_following_lt (nonempty : text ≠ []) (start : text.head? ≠ some separator) :
    (following separator text).length < text.length := by
  have positive := List.length_pos_iff.mpr (leading_ne_nil nonempty start)
  have whole := congrArg List.length (leading_append_following separator text)
  rw [List.length_append] at whole
  omega

/-- The text behind the first separator and those next to it. -/
def pastSeparators (separator : Symbol) (text : List Symbol) : List Symbol :=
  (following separator text).dropWhile fun symbol => decide (symbol = separator)

theorem components_pastSeparators (separator : Symbol) (text : List Symbol) :
    components separator (pastSeparators separator text) =
      components separator (following separator text) :=
  components_dropWhile separator _

theorem pastSeparators_head (separator : Symbol) (text : List Symbol) :
    (pastSeparators separator text).head? ≠ some separator := by
  intro starts
  have stops := List.head?_dropWhile_not (fun symbol => decide (symbol = separator))
    (following separator text)
  rw [← pastSeparators, starts] at stops
  simp at stops

theorem length_pastSeparators_lt (nonempty : text ≠ []) :
    (pastSeparators separator text).length < text.length := by
  have shorter := List.length_dropWhile_le (fun symbol => decide (symbol = separator))
    (following separator text)
  by_cases start : text.head? = some separator
  · obtain ⟨rest, rfl⟩ := List.head?_eq_some_iff.mp start
    have stays : following separator (separator :: rest) = separator :: rest := by
      simp [following]
    have fewer := List.length_dropWhile_le (fun symbol => decide (symbol = separator)) rest
    rw [pastSeparators, stays, List.dropWhile_cons_of_pos (by simp), List.length_cons]
    omega
  · have fewer := length_following_lt nonempty start
    rw [pastSeparators]
    omega

/-- The first component of a text that does not start with a separator, and the
others. -/
theorem components_leading (nonempty : text ≠ []) (start : text.head? ≠ some separator) :
    components separator text =
      leading separator text :: components separator (following separator text) := by
  have whole := leading_append_following separator text
  have first := components_single (leading_ne_nil nonempty start)
    (not_mem_leading separator text)
  rcases following_head separator text with ended | ⟨rest, more⟩
  · rw [ended, List.append_nil] at whole
    rw [ended, components_nil, ← first, whole]
  · rw [more] at whole
    rw [more, components_cons_separator, ← whole, components_append_cons, whole, first,
      List.singleton_append]

/-- The symbols of components are symbols of the text. -/
theorem mem_of_mem_components {symbol : Symbol} (listed : piece ∈ components separator text)
    (member : symbol ∈ piece) : symbol ∈ text := by
  have inside : symbol ∈ joined separator (text.splitOn separator) :=
    mem_joined_of_mem (List.mem_filter.mp listed).1 member
  rwa [joined, List.intercalate_splitOn] at inside

theorem proper_components (separator : Symbol) (text : List Symbol) :
    Proper separator (components separator text) := by
  intro piece member
  obtain ⟨split, nonempty⟩ := List.mem_filter.mp member
  refine ⟨of_decide_eq_true nonempty, ?_⟩
  -- A piece between separators holds none.
  have absent : ∀ (text : List Symbol), ∀ piece ∈ text.splitOn separator, separator ∉ piece := by
    intro text
    induction text with
    | nil => simp
    | cons symbol rest inductionHypothesis =>
        rw [List.splitOn_cons_eq_if_modifyHead]
        by_cases same : symbol = separator
        · simpa [same] using inductionHypothesis
        · obtain ⟨first, others, shape⟩ :=
            List.exists_cons_of_ne_nil (List.splitOn_ne_nil separator rest)
          rw [shape] at inductionHypothesis ⊢
          simpa [same, Ne.symm same] using inductionHypothesis
  exact absent text piece split

end Split

section Both

variable {separator : Symbol} {pieces others : List (List Symbol)}

/-- Splitting a joined text gives its components. -/
theorem components_joined (proper : Proper separator pieces) :
    components separator (joined separator pieces) = pieces := by
  induction pieces with
  | nil => simp
  | cons piece rest inductionHypothesis =>
      obtain ⟨nonempty, absent⟩ := proper piece List.mem_cons_self
      by_cases last : rest = []
      · subst last
        rw [joined_singleton, components_single nonempty absent]
      · rw [joined_cons last, components_append_cons, components_single nonempty absent,
          inductionHypothesis proper.tail, List.singleton_append]

theorem joined_eq_nil_iff (proper : Proper separator pieces) :
    joined separator pieces = [] ↔ pieces = [] := by
  constructor
  · intro empty
    rw [← components_joined proper, empty, components_nil]
  · rintro rfl
    rfl

/-- Leading components are a leading part of the text that ends at a separator
or at its end. -/
theorem prefix_iff (proper : Proper separator pieces) (otherProper : Proper separator others)
    (nonempty : pieces ≠ []) :
    pieces <+: others ↔
      ∃ rest, joined separator others = joined separator pieces ++ rest ∧
        (rest = [] ∨ rest.head? = some separator) := by
  constructor
  · rintro ⟨behind, rfl⟩
    by_cases last : behind = []
    · subst last
      exact ⟨[], by simp, .inl rfl⟩
    · exact ⟨_, joined_append nonempty last, .inr rfl⟩
  · rintro ⟨rest, whole, ends⟩
    have split := congrArg (components separator) whole
    rw [components_joined otherProper] at split
    rcases ends with rfl | starts
    · rw [List.append_nil, components_joined proper] at split
      exact split ▸ List.prefix_rfl
    · obtain ⟨tail, rfl⟩ := List.head?_eq_some_iff.mp starts
      rw [components_append_cons, components_joined proper] at split
      exact ⟨_, split.symm⟩

end Both

end NansOS.Foundation
