import NansOS.Video.Drawing
import NansOS.Foundation.EvenSteps
import Mathlib.Data.List.Chain
import Mathlib.Data.List.Range
import Mathlib.Logic.Function.Iterate

/-! Owns `vga_draw_line`. Its loop leaves only where both coordinates equal the
end point's, so that it terminates because both reach it in the same pass. The
coordinate with the longer way moves in every pass; the error term is the
remainder of an even spread of the other coordinate's steps over these passes. -/

namespace NansOS.Video

open NansOS.Foundation.EvenSteps

/-! ### The loop -/

/-- `abs`. -/
def absInt (x : Int) : Int := if x < 0 then -x else x

/-- What `vga_draw_line` computes once, before its loop. -/
structure Line where
  x2 : UInt16
  y2 : UInt16
  color : UInt8
  dx : Int
  dy : Int
  sx : Int
  sy : Int

/-- What the loop of `vga_draw_line` changes. -/
structure LineState where
  x1 : UInt16
  y1 : UInt16
  err : Int

/-- The declarations of `vga_draw_line`. -/
def lineOf (x1 y1 x2 y2 : UInt16) (color : UInt8) : Line where
  x2 := x2
  y2 := y2
  color := color
  dx := absInt (x2.toNat - x1.toNat)
  dy := absInt (y2.toNat - y1.toNat)
  sx := if x1 < x2 then 1 else -1
  sy := if y1 < y2 then 1 else -1

/-- The initial `err`, divided as C divides. -/
def Line.firstErr (line : Line) : Int := (if line.dx > line.dy then line.dx else -line.dy).tdiv 2

/-- One pass of the loop behind its exit. -/
def Line.pass (line : Line) (state : LineState) : LineState :=
  let e2 := state.err
  let sideways :=
    if e2 > -line.dx then
      { state with
        err := state.err - line.dy
        x1 := UInt16.ofInt (state.x1.toNat + line.sx) }
    else state
  if e2 < line.dy then
    { sideways with
      err := sideways.err + line.dx
      y1 := UInt16.ofInt (sideways.y1.toNat + line.sy) }
  else sideways

/-- The call of `vga_set_pixel` at the head of a pass. -/
def Line.plot (line : Line) (state : LineState) : Plot := ⟨state.x1, state.y1, line.color⟩

/-- The exit test of the loop. -/
def Line.AtEnd (line : Line) (state : LineState) : Prop :=
  state.x1 = line.x2 ∧ state.y1 = line.y2

instance (line : Line) (state : LineState) : Decidable (line.AtEnd state) :=
  inferInstanceAs (Decidable (_ ∧ _))

/-- The calls of `vga_set_pixel` that the loop makes; `none` if it has not left
after `fuel` passes. -/
def Line.loop (line : Line) : Nat → LineState → Option (List Plot)
  | 0, _ => none
  | fuel + 1, state =>
      if line.AtEnd state then some [line.plot state]
      else (line.loop fuel (line.pass state)).map (line.plot state :: ·)

/-- The calls of `vga_set_pixel` that `vga_draw_line` makes. -/
def linePlots (fuel : Nat) (x1 y1 x2 y2 : UInt16) (color : UInt8) : Option (List Plot) :=
  let line := lineOf x1 y1 x2 y2 color
  line.loop fuel ⟨x1, y1, line.firstErr⟩

/-- `vga_draw_line`. -/
def Screen.vgaDrawLine (screen : Screen) (fuel : Nat) (x1 y1 x2 y2 : UInt16) (color : UInt8) :
    Option Screen :=
  (linePlots fuel x1 y1 x2 y2 color).map screen.draw

/-- A loop that is first at its end after `count` passes plots before each of
them, and once more. -/
theorem Line.loop_eq (line : Line) {count fuel : Nat} {state : LineState}
    (away : ∀ passes < count, ¬ line.AtEnd (line.pass^[passes] state))
    (there : line.AtEnd (line.pass^[count] state)) (enough : count < fuel) :
    line.loop fuel state =
      some ((List.range (count + 1)).map fun passes => line.plot (line.pass^[passes] state)) := by
  induction count generalizing state fuel with
  | zero =>
      obtain ⟨fuel, rfl⟩ : ∃ more, fuel = more + 1 := ⟨fuel - 1, by omega⟩
      have here : line.AtEnd state := there
      rw [Line.loop, if_pos here]
      rfl
  | succ count inductionHypothesis =>
      obtain ⟨fuel, rfl⟩ : ∃ more, fuel = more + 1 := ⟨fuel - 1, by omega⟩
      have later : line.loop fuel (line.pass state) =
          some ((List.range (count + 1)).map fun passes =>
            line.plot (line.pass^[passes] (line.pass state))) :=
        inductionHypothesis (fun passes below => away (passes + 1) (by omega)) there (by omega)
      have here : ¬ line.AtEnd state := away 0 (by omega)
      rw [Line.loop, if_neg here, later, List.range_succ_eq_map (n := count + 1)]
      simp only [Option.map_some, List.map_cons, List.map_map]
      rfl

theorem Line.loop_none (line : Line) {fuel : Nat} {state : LineState}
    (away : ∀ passes < fuel, ¬ line.AtEnd (line.pass^[passes] state)) :
    line.loop fuel state = none := by
  induction fuel generalizing state with
  | zero => rfl
  | succ fuel inductionHypothesis =>
      have here : ¬ line.AtEnd state := away 0 (by omega)
      have later : line.loop fuel (line.pass state) = none :=
        inductionHypothesis fun passes below => away (passes + 1) (by omega)
      rw [Line.loop, if_neg here, later, Option.map_none]

/-! ### Moving towards a coordinate -/

/-- The way between two coordinates. -/
def distance (start target : UInt16) : Nat :=
  (target.toNat - start.toNat) + (start.toNat - target.toNat)

/-- The coordinate `count` steps on the way. -/
def towards (start target : UInt16) (count : Nat) : UInt16 :=
  if start < target then start + UInt16.ofNat count else start - UInt16.ofNat count

section Towards

variable {start target : UInt16} {count : Nat}

theorem absInt_distance (start target : UInt16) :
    absInt (target.toNat - start.toNat) = distance start target := by
  unfold absInt distance
  split_ifs <;> omega

@[simp] theorem towards_zero : towards start target 0 = start := by
  unfold towards
  split_ifs <;> simp

theorem towards_succ :
    UInt16.ofInt ((towards start target count).toNat + if start < target then 1 else -1) =
      towards start target (count + 1) := by
  have bound := start.toNat_lt
  apply UInt16.toNat_inj.mp
  unfold towards UInt16.ofInt
  split_ifs with less
  · simp only [UInt16.toNat_add, UInt16.toNat_ofNat']
    omega
  · simp only [UInt16.toNat_sub, UInt16.toNat_ofNat']
    omega

theorem towards_toNat (within : count ≤ distance start target) :
    (towards start target count).toNat =
      if start < target then start.toNat + count else start.toNat - count := by
  have startBound := start.toNat_lt
  have targetBound := target.toNat_lt
  unfold distance at within
  unfold towards
  split_ifs with less
  · have less := UInt16.lt_iff_toNat_lt.mp less
    simp only [UInt16.toNat_add, UInt16.toNat_ofNat']
    omega
  · have less := mt UInt16.lt_iff_toNat_lt.mpr less
    simp only [UInt16.toNat_sub, UInt16.toNat_ofNat']
    omega

theorem towards_eq_iff (within : count ≤ distance start target) :
    towards start target count = target ↔ count = distance start target := by
  rw [← UInt16.toNat_inj, towards_toNat within]
  unfold distance at within ⊢
  split_ifs with less
  · have less := UInt16.lt_iff_toNat_lt.mp less
    omega
  · have less := mt UInt16.lt_iff_toNat_lt.mpr less
    omega

end Towards

/-! ### The states of the loop -/

section States

variable {x1 y1 x2 y2 : UInt16} {color : UInt8}

/-- What is left after `count` passes of the spread of the shorter way over the
longer one. -/
def restAt (longer shorter count : Nat) : Nat := restAfter longer shorter (longer / 2) count

/-- The steps of the coordinate with the shorter way in `count` passes. -/
def stepsAt (longer shorter count : Nat) : Nat := carriesAfter longer shorter (longer / 2) count

/-- The state after `count` passes of a line that is wider than high. -/
def flatState (x1 y1 x2 y2 : UInt16) (count : Nat) : LineState where
  x1 := towards x1 x2 count
  y1 := towards y1 y2 (stepsAt (distance x1 x2) (distance y1 y2) count)
  err := restAt (distance x1 x2) (distance y1 y2) count

/-- The state after `count` passes of a line that is not wider than high. -/
def steepState (x1 y1 x2 y2 : UInt16) (count : Nat) : LineState where
  x1 := towards x1 x2 (stepsAt (distance y1 y2) (distance x1 x2) count)
  y1 := towards y1 y2 count
  err := -restAt (distance y1 y2) (distance x1 x2) count

theorem restAt_succ (longer shorter count : Nat) :
    restAt longer shorter (count + 1) = nextRest longer shorter (restAt longer shorter count) :=
  rfl

theorem stepsAt_succ (longer shorter count : Nat) :
    stepsAt longer shorter (count + 1) =
      if restAt longer shorter count < shorter then stepsAt longer shorter count + 1
      else stepsAt longer shorter count := rfl

/-- A flat line moves sideways in every pass, and upright where the spread carries. -/
theorem pass_flatState (flat : distance y1 y2 < distance x1 x2) (count : Nat) :
    (lineOf x1 y1 x2 y2 color).pass (flatState x1 y1 x2 y2 count) =
      flatState x1 y1 x2 y2 (count + 1) := by
  have inside : restAt (distance x1 x2) (distance y1 y2) count < distance x1 x2 :=
    restAfter_lt _ (by omega) count
  simp only [Line.pass, lineOf, flatState, absInt_distance, towards_succ]
  generalize rest : restAt (distance x1 x2) (distance y1 y2) count = left at inside
  have sideways : (left : Int) > -(distance x1 x2 : Int) := by omega
  rw [if_pos sideways, restAt_succ, stepsAt_succ, rest, nextRest]
  by_cases carry : left < distance y1 y2
  · have upright : (left : Int) < distance y1 y2 := by omega
    rw [if_pos upright, if_pos carry, if_pos carry, ← towards_succ, ← towards_succ]
    simp only [LineState.mk.injEq, true_and]
    omega
  · have level : ¬ (left : Int) < distance y1 y2 := by omega
    rw [if_neg level, if_neg carry, if_neg carry]
    simp only [LineState.mk.injEq, true_and]
    omega

/-- A steep line moves upright in every pass, and sideways where the spread carries. -/
theorem pass_steepState (steep : distance x1 x2 ≤ distance y1 y2) (long : 0 < distance y1 y2)
    (count : Nat) :
    (lineOf x1 y1 x2 y2 color).pass (steepState x1 y1 x2 y2 count) =
      steepState x1 y1 x2 y2 (count + 1) := by
  have inside : restAt (distance y1 y2) (distance x1 x2) count < distance y1 y2 :=
    restAfter_lt _ (by omega) count
  simp only [Line.pass, lineOf, steepState, absInt_distance]
  generalize rest : restAt (distance y1 y2) (distance x1 x2) count = left at inside
  have upright : -(left : Int) < distance y1 y2 := by omega
  rw [if_pos upright, restAt_succ, stepsAt_succ, rest, nextRest]
  by_cases carry : left < distance x1 x2
  · have sideways : -(left : Int) > -(distance x1 x2 : Int) := by omega
    rw [if_pos sideways, if_pos carry, if_pos carry, ← towards_succ, ← towards_succ]
    simp only [LineState.mk.injEq, true_and]
    omega
  · have straight : ¬ -(left : Int) > -(distance x1 x2 : Int) := by omega
    rw [if_neg straight, if_neg carry, if_neg carry, ← towards_succ]
    simp only [LineState.mk.injEq, true_and]
    omega

theorem firstErr_flat (flat : distance y1 y2 < distance x1 x2) :
    (⟨x1, y1, (lineOf x1 y1 x2 y2 color).firstErr⟩ : LineState) = flatState x1 y1 x2 y2 0 := by
  have wider : (distance x1 x2 : Int) > distance y1 y2 := by omega
  simp only [Line.firstErr, lineOf, absInt_distance, if_pos wider, flatState, towards_zero,
    stepsAt, restAt, carriesAfter, restAfter, LineState.mk.injEq, true_and]
  rw [Int.tdiv_eq_ediv_of_nonneg (by omega)]
  omega

theorem firstErr_steep (steep : distance x1 x2 ≤ distance y1 y2) :
    (⟨x1, y1, (lineOf x1 y1 x2 y2 color).firstErr⟩ : LineState) = steepState x1 y1 x2 y2 0 := by
  have narrow : ¬ (distance x1 x2 : Int) > distance y1 y2 := by omega
  simp only [Line.firstErr, lineOf, absInt_distance, if_neg narrow, steepState, towards_zero,
    stepsAt, restAt, carriesAfter, restAfter, LineState.mk.injEq, true_and]
  rw [Int.neg_tdiv, Int.tdiv_eq_ediv_of_nonneg (by omega)]
  omega

theorem iterate_flatState (flat : distance y1 y2 < distance x1 x2) (count : Nat) :
    (lineOf x1 y1 x2 y2 color).pass^[count] (flatState x1 y1 x2 y2 0) =
      flatState x1 y1 x2 y2 count := by
  induction count with
  | zero => rfl
  | succ count inductionHypothesis =>
      rw [Function.iterate_succ_apply', inductionHypothesis, pass_flatState flat]

theorem iterate_steepState (steep : distance x1 x2 ≤ distance y1 y2)
    (long : 0 < distance y1 y2) (count : Nat) :
    (lineOf x1 y1 x2 y2 color).pass^[count] (steepState x1 y1 x2 y2 0) =
      steepState x1 y1 x2 y2 count := by
  induction count with
  | zero => rfl
  | succ count inductionHypothesis =>
      rw [Function.iterate_succ_apply', inductionHypothesis, pass_steepState steep long]

/-- The passes of the loop. -/
def passCount (x1 y1 x2 y2 : UInt16) : Nat := max (distance x1 x2) (distance y1 y2)

/-- The steps of the horizontal coordinate in `count` passes. -/
def sideways (x1 y1 x2 y2 : UInt16) (count : Nat) : Nat :=
  if distance y1 y2 < distance x1 x2 then count
  else stepsAt (distance y1 y2) (distance x1 x2) count

/-- The steps of the vertical coordinate in `count` passes. -/
def upright (x1 y1 x2 y2 : UInt16) (count : Nat) : Nat :=
  if distance y1 y2 < distance x1 x2 then stepsAt (distance x1 x2) (distance y1 y2) count
  else count

/-- After `count` passes both coordinates are on their way, and the error term
is no larger than the longer way. -/
theorem pass_iterate (color : UInt8) {count : Nat} (within : count ≤ passCount x1 y1 x2 y2) :
    ∃ err, (lineOf x1 y1 x2 y2 color).pass^[count]
        ⟨x1, y1, (lineOf x1 y1 x2 y2 color).firstErr⟩ =
          ⟨towards x1 x2 (sideways x1 y1 x2 y2 count),
            towards y1 y2 (upright x1 y1 x2 y2 count), err⟩ ∧
      err.natAbs ≤ passCount x1 y1 x2 y2 := by
  unfold passCount at within ⊢
  unfold sideways upright
  split_ifs with flat
  · have small : restAt (distance x1 x2) (distance y1 y2) count < distance x1 x2 :=
      restAfter_lt _ (by omega) count
    rw [firstErr_flat flat, iterate_flatState flat]
    exact ⟨_, rfl, by omega⟩
  · have steep := Nat.le_of_not_lt flat
    rw [firstErr_steep steep]
    rcases Nat.eq_zero_or_pos (distance y1 y2) with none | long
    · have start : count = 0 := by omega
      subst start
      refine ⟨_, rfl, ?_⟩
      simp only [restAt, restAfter]
      omega
    · have small : restAt (distance y1 y2) (distance x1 x2) count < distance y1 y2 :=
        restAfter_lt _ (by omega) count
      rw [iterate_steepState steep long]
      exact ⟨_, rfl, by omega⟩

theorem stepsAt_le {longer shorter count : Nat} (order : shorter ≤ longer)
    (within : count ≤ longer) : stepsAt longer shorter count ≤ shorter := by
  rcases Nat.eq_zero_or_pos longer with none | long
  · have start : count = 0 := by omega
    subst start
    exact Nat.zero_le _
  · exact carriesAfter_le_minor order (by omega) within

theorem stepsAt_longer {longer shorter : Nat} (order : shorter ≤ longer) :
    stepsAt longer shorter longer = shorter := by
  rcases Nat.eq_zero_or_pos longer with none | long
  · subst none
    exact (Nat.le_zero.mp order).symm
  · exact carriesAfter_major order (by omega)

theorem sideways_le {count : Nat} (within : count ≤ passCount x1 y1 x2 y2) :
    sideways x1 y1 x2 y2 count ≤ distance x1 x2 := by
  unfold passCount at within
  unfold sideways
  split_ifs with flat
  · omega
  · exact stepsAt_le (by omega) (by omega)

theorem upright_le {count : Nat} (within : count ≤ passCount x1 y1 x2 y2) :
    upright x1 y1 x2 y2 count ≤ distance y1 y2 := by
  unfold passCount at within
  unfold upright
  split_ifs with flat
  · exact stepsAt_le (by omega) (by omega)
  · omega

theorem sideways_succ (count : Nat) :
    sideways x1 y1 x2 y2 (count + 1) = sideways x1 y1 x2 y2 count ∨
      sideways x1 y1 x2 y2 (count + 1) = sideways x1 y1 x2 y2 count + 1 := by
  unfold sideways
  rw [stepsAt_succ]
  split_ifs <;> simp

theorem upright_succ (count : Nat) :
    upright x1 y1 x2 y2 (count + 1) = upright x1 y1 x2 y2 count ∨
      upright x1 y1 x2 y2 (count + 1) = upright x1 y1 x2 y2 count + 1 := by
  unfold upright
  rw [stepsAt_succ]
  split_ifs <;> simp

/-- Both ways end in the last pass, and not before. -/
theorem ways_end_iff (count : Nat) :
    sideways x1 y1 x2 y2 count = distance x1 x2 ∧ upright x1 y1 x2 y2 count = distance y1 y2 ↔
      count = passCount x1 y1 x2 y2 := by
  unfold passCount sideways upright
  split_ifs with flat
  · have longer : max (distance x1 x2) (distance y1 y2) = distance x1 x2 := by omega
    rw [longer]
    constructor
    · exact fun ended => ended.1
    · intro last
      rw [last]
      exact ⟨rfl, stepsAt_longer (by omega)⟩
  · have longer : max (distance x1 x2) (distance y1 y2) = distance y1 y2 := by omega
    rw [longer]
    constructor
    · exact fun ended => ended.2
    · intro last
      rw [last]
      exact ⟨stepsAt_longer (by omega), rfl⟩

end States

/-! ### The line -/

/-- One coordinate of the next point: unchanged, or one closer to its target. -/
def Approaches (target earlier later : UInt16) : Prop :=
  later = earlier ∨ (earlier < target ∧ later.toNat = earlier.toNat + 1) ∨
    (target < earlier ∧ later.toNat + 1 = earlier.toNat)

/-- A coordinate between two others, both included. -/
def Between (start target position : UInt16) : Prop :=
  min start.toNat target.toNat ≤ position.toNat ∧ position.toNat ≤ max start.toNat target.toNat

/-- The points from `(x1, y1)` to `(x2, y2)`, as many as the longer way has
steps and one more, each next to the one before on the side of the end. -/
structure IsLine (x1 y1 x2 y2 : UInt16) (color : UInt8) (plots : List Plot) : Prop where
  length : plots.length = max (distance x1 x2) (distance y1 y2) + 1
  first : plots.head? = some ⟨x1, y1, color⟩
  last : plots.getLast? = some ⟨x2, y2, color⟩
  steps : plots.IsChain fun earlier later =>
    Approaches x2 earlier.x later.x ∧ Approaches y2 earlier.y later.y
  inside : ∀ plot ∈ plots, Between x1 x2 plot.x ∧ Between y1 y2 plot.y ∧ plot.color = color

theorem approaches_towards {start target : UInt16} {count next : Nat}
    (within : next ≤ distance start target) (step : next = count ∨ next = count + 1) :
    Approaches target (towards start target count) (towards start target next) := by
  rcases step with rfl | rfl
  · exact .inl rfl
  · right
    rw [UInt16.lt_iff_toNat_lt, UInt16.lt_iff_toNat_lt, towards_toNat within,
      towards_toNat (by omega)]
    unfold distance at within
    by_cases less : start < target
    · rw [if_pos less, if_pos less]
      have less := UInt16.lt_iff_toNat_lt.mp less
      omega
    · rw [if_neg less, if_neg less]
      have less := mt UInt16.lt_iff_toNat_lt.mpr less
      omega

theorem between_towards {start target : UInt16} {count : Nat}
    (within : count ≤ distance start target) :
    Between start target (towards start target count) := by
  unfold Between
  rw [towards_toNat within]
  unfold distance at within
  by_cases less : start < target
  · rw [if_pos less]
    have less := UInt16.lt_iff_toNat_lt.mp less
    omega
  · rw [if_neg less]
    have less := mt UInt16.lt_iff_toNat_lt.mpr less
    omega

section Points

variable (x1 y1 x2 y2 : UInt16) (color : UInt8)

/-- The point that the loop plots in front of pass `count`. -/
def pointAt (count : Nat) : Plot :=
  ⟨towards x1 x2 (sideways x1 y1 x2 y2 count), towards y1 y2 (upright x1 y1 x2 y2 count), color⟩

/-- The points that the loop plots. -/
def points : List Plot := (List.range (passCount x1 y1 x2 y2 + 1)).map (pointAt x1 y1 x2 y2 color)

variable {x1 y1 x2 y2 color} {count : Nat}

theorem plot_iterate (within : count ≤ passCount x1 y1 x2 y2) :
    (lineOf x1 y1 x2 y2 color).plot ((lineOf x1 y1 x2 y2 color).pass^[count]
      ⟨x1, y1, (lineOf x1 y1 x2 y2 color).firstErr⟩) = pointAt x1 y1 x2 y2 color count := by
  obtain ⟨err, state, -⟩ := pass_iterate color within
  rw [state]
  rfl

/-- The loop is at the end point in its last pass only. -/
theorem atEnd_iterate_iff (within : count ≤ passCount x1 y1 x2 y2) :
    (lineOf x1 y1 x2 y2 color).AtEnd ((lineOf x1 y1 x2 y2 color).pass^[count]
      ⟨x1, y1, (lineOf x1 y1 x2 y2 color).firstErr⟩) ↔ count = passCount x1 y1 x2 y2 := by
  obtain ⟨err, state, -⟩ := pass_iterate color within
  rw [state, ← ways_end_iff, ← towards_eq_iff (sideways_le within),
    ← towards_eq_iff (upright_le within)]
  rfl

theorem pointAt_last : pointAt x1 y1 x2 y2 color (passCount x1 y1 x2 y2) = ⟨x2, y2, color⟩ := by
  obtain ⟨horizontal, vertical⟩ := (ways_end_iff (passCount x1 y1 x2 y2)).mpr rfl
  unfold pointAt
  rw [(towards_eq_iff (sideways_le le_rfl)).mpr horizontal,
    (towards_eq_iff (upright_le le_rfl)).mpr vertical]

theorem pointAt_zero : pointAt x1 y1 x2 y2 color 0 = ⟨x1, y1, color⟩ := by
  have horizontal : sideways x1 y1 x2 y2 0 = 0 := by
    unfold sideways
    split_ifs <;> rfl
  have vertical : upright x1 y1 x2 y2 0 = 0 := by
    unfold upright
    split_ifs <;> rfl
  rw [pointAt, horizontal, vertical, towards_zero, towards_zero]

theorem points_isLine : IsLine x1 y1 x2 y2 color (points x1 y1 x2 y2 color) where
  length := by
    rw [points, List.length_map, List.length_range]
    rfl
  first := by
    rw [points, List.range_succ_eq_map, List.map_cons, List.head?_cons, pointAt_zero]
  last := by
    rw [points, List.range_succ, List.map_append, List.map_singleton, List.getLast?_concat,
      pointAt_last]
  steps := by
    rw [points, List.isChain_map, List.isChain_range_succ]
    intro count below
    exact ⟨approaches_towards (sideways_le below) (sideways_succ count),
      approaches_towards (upright_le below) (upright_succ count)⟩
  inside := by
    intro plot member
    obtain ⟨count, counted, rfl⟩ := List.mem_map.mp member
    have within := Nat.le_of_lt_succ (List.mem_range.mp counted)
    exact ⟨between_towards (sideways_le within), between_towards (upright_le within), rfl⟩

/-- The loop leaves behind its last point. -/
theorem linePlots_points {fuel : Nat} (enough : passCount x1 y1 x2 y2 < fuel) :
    linePlots fuel x1 y1 x2 y2 color = some (points x1 y1 x2 y2 color) := by
  unfold linePlots
  dsimp only
  rw [Line.loop_eq _
    (fun passes below => (atEnd_iterate_iff below.le).not.mpr below.ne)
    ((atEnd_iterate_iff le_rfl).mpr rfl) enough]
  refine congrArg some (List.map_congr_left fun passes member => ?_)
  exact plot_iterate (Nat.le_of_lt_succ (List.mem_range.mp member))

/-- The cells of the points on screen get the colour, and no other cell changes. -/
theorem vgaDrawLine_cell (screen : Screen) {fuel : Nat} (enough : passCount x1 y1 x2 y2 < fuel) :
    ∃ drawn, screen.vgaDrawLine fuel x1 y1 x2 y2 color = some drawn ∧
      ∀ cell, drawn.backBuffer cell =
        if ∃ plot ∈ points x1 y1 x2 y2 color, screen.mode.OnScreen plot.x plot.y ∧
          screen.mode.offset plot.x plot.y = cell then color
        else screen.backBuffer cell := by
  have uniform : ∀ plot ∈ points x1 y1 x2 y2 color, plot.color = color :=
    fun plot member => (points_isLine.inside plot member).2.2
  refine ⟨screen.draw (points x1 y1 x2 y2 color), ?_, draw_cell uniform screen⟩
  rw [Screen.vgaDrawLine, linePlots_points enough, Option.map_some]

end Points

/-- For all end points the loop leaves after the points of a line, and not
before. On every screen these points get the colour, and nothing else changes. -/
theorem linePlots_isLine (x1 y1 x2 y2 : UInt16) (color : UInt8) :
    ∃ plots, IsLine x1 y1 x2 y2 color plots ∧
      (∀ fuel, linePlots fuel x1 y1 x2 y2 color =
        if plots.length ≤ fuel then some plots else none) ∧
      ∀ (screen : Screen) (fuel : Nat), plots.length ≤ fuel →
        ∃ drawn, screen.vgaDrawLine fuel x1 y1 x2 y2 color = some drawn ∧
          ∀ cell, drawn.backBuffer cell =
            if ∃ plot ∈ plots, screen.mode.OnScreen plot.x plot.y ∧
              screen.mode.offset plot.x plot.y = cell then color
            else screen.backBuffer cell := by
  have passes : (points x1 y1 x2 y2 color).length = passCount x1 y1 x2 y2 + 1 :=
    points_isLine.length
  refine ⟨points x1 y1 x2 y2 color, points_isLine, fun fuel => ?_, fun screen fuel enough => ?_⟩
  · rw [passes]
    split_ifs with enough
    · exact linePlots_points enough
    · exact Line.loop_none _ fun passes below =>
        (atEnd_iterate_iff (by omega)).not.mpr (by omega)
  · exact vgaDrawLine_cell screen (by omega)

end NansOS.Video
