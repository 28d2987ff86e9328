import Mathlib.Algebra.BigOperators.Group.List.Basic
import Mathlib.Algebra.GroupWithZero.Nat
import Mathlib.Data.List.Basic

/-! Owns tilings of an interval of natural numbers: a list of spans, each of
which starts where the one before it ends. The rules say that a tiling
composes, that its spans lie apart and inside the interval, and that a span may
be replaced by a tiling of itself. It owns no program. -/

namespace NansOS.Foundation

universe u

variable {Span : Type u}

/-- The spans tile the interval from `lower` to `upper`, in order. -/
def Tiles (start length : Span → Nat) : Nat → List Span → Nat → Prop
  | lower, [], upper => lower = upper
  | lower, span :: rest, upper =>
      start span = lower ∧ Tiles start length (lower + length span) rest upper

namespace Tiles

variable {start length : Span → Nat} {lower upper : Nat}

theorem append_iff {first second : List Span} :
    Tiles start length lower (first ++ second) upper ↔
      ∃ middle, Tiles start length lower first middle ∧
        Tiles start length middle second upper := by
  induction first generalizing lower with
  | nil =>
      constructor
      · intro tiles
        exact ⟨lower, rfl, tiles⟩
      · rintro ⟨middle, rfl, tiles⟩
        exact tiles
  | cons span first inductionHypothesis =>
      constructor
      · rintro ⟨here, later⟩
        obtain ⟨middle, left, right⟩ := inductionHypothesis.mp later
        exact ⟨middle, ⟨here, left⟩, right⟩
      · rintro ⟨middle, ⟨here, left⟩, right⟩
        exact ⟨here, inductionHypothesis.mpr ⟨middle, left, right⟩⟩

/-- Spans given by a function tile as the spans they are given for. -/
theorem map_iff {Piece : Type u} {embed : Piece → Span} {pieces : List Piece} :
    Tiles start length lower (pieces.map embed) upper ↔
      Tiles (start ∘ embed) (length ∘ embed) lower pieces upper := by
  induction pieces generalizing lower with
  | nil => exact Iff.rfl
  | cons piece rest inductionHypothesis =>
      constructor
      · intro tiles
        exact ⟨tiles.1, inductionHypothesis.mp tiles.2⟩
      · intro tiles
        exact ⟨tiles.1, inductionHypothesis.mpr tiles.2⟩

theorem lower_le {spans : List Span} (tiles : Tiles start length lower spans upper) :
    lower ≤ upper := by
  induction spans generalizing lower with
  | nil => exact Nat.le_of_eq tiles
  | cons span rest inductionHypothesis =>
      have later := inductionHypothesis tiles.2
      omega

theorem bounds {spans : List Span} (tiles : Tiles start length lower spans upper)
    {span : Span} (member : span ∈ spans) :
    lower ≤ start span ∧ start span + length span ≤ upper := by
  induction spans generalizing lower with
  | nil => cases member
  | cons first rest inductionHypothesis =>
      obtain ⟨here, later⟩ := tiles
      have ends := later.lower_le
      rcases List.mem_cons.mp member with rfl | inside
      · omega
      · have inner := inductionHypothesis later inside
        omega

theorem ordered {spans : List Span} (tiles : Tiles start length lower spans upper) :
    spans.Pairwise fun left right => start left + length left ≤ start right := by
  induction spans generalizing lower with
  | nil => exact List.Pairwise.nil
  | cons first rest inductionHypothesis =>
      obtain ⟨here, later⟩ := tiles
      refine List.pairwise_cons.mpr ⟨fun span member => ?_, inductionHypothesis later⟩
      have inner := later.bounds member
      omega

/-- The lengths of a tiling add up to the interval. -/
theorem total {spans : List Span} (tiles : Tiles start length lower spans upper) :
    lower + (spans.map length).sum = upper := by
  induction spans generalizing lower with
  | nil => exact tiles
  | cons first rest inductionHypothesis =>
      have later := inductionHypothesis tiles.2
      simp only [List.map_cons, List.sum_cons]
      omega

/-- Part of a tiling may be replaced by another tiling of the same interval. -/
theorem replace {before middle pieces after : List Span} {first last : Nat}
    (tiles : Tiles start length lower (before ++ (middle ++ after)) upper)
    (old : Tiles start length first middle last) (nonempty : middle ≠ [])
    (new : Tiles start length first pieces last) :
    Tiles start length lower (before ++ (pieces ++ after)) upper := by
  obtain ⟨left, tilesBefore, tilesRest⟩ := append_iff.mp tiles
  obtain ⟨right, tilesMiddle, tilesAfter⟩ := append_iff.mp tilesRest
  -- The middle part starts at its first span, hence both intervals are one.
  have starts : left = first := by
    cases middle with
    | nil => exact absurd rfl nonempty
    | cons span rest => exact tilesMiddle.1.symm.trans old.1
  have ends : right = last := by
    rw [starts] at tilesMiddle
    rw [← tilesMiddle.total, ← old.total]
  rw [starts] at tilesBefore
  rw [ends] at tilesAfter
  exact append_iff.mpr ⟨first, tilesBefore, append_iff.mpr ⟨last, new, tilesAfter⟩⟩

end Tiles

end NansOS.Foundation
