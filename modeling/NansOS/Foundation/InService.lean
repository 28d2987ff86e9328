import Mathlib.Data.List.FinRange
import Mathlib.Logic.Function.Basic

/-! Owns priority lines in service. Lines come in groups, and within a group a
lower level has priority. A group can be told to retire its line of highest
priority in service, without being told which: the right one is retired when
lines are only raised above everything in service and retired in reverse order,
that is, when the lines in service form a stack. -/

namespace NansOS.Foundation

universe u

/-- A line of a group. -/
structure ServiceLine (Group : Type u) (levels : Nat) where
  group : Group
  level : Fin levels
deriving DecidableEq

section Service

variable {Group : Type u} {levels : Nat}

/-- The first line comes before the second if they are of one group. -/
def ServiceLine.Before (first second : ServiceLine Group levels) : Prop :=
  first.group = second.group → first.level < second.level

/-- The line of highest priority in service in a group. -/
def highestLevel (service : ServiceLine Group levels → Bool) (group : Group) :
    Option (Fin levels) :=
  (List.finRange levels).find? fun level => service ⟨group, level⟩

/-- Nothing in service keeps the line from being raised. -/
def Admits (service : ServiceLine Group levels → Bool) (line : ServiceLine Group levels) : Prop :=
  ∀ level, level ≤ line.level → service ⟨line.group, level⟩ = false

/-- The lines in service are those owed, and each is owed before those it has
priority over. -/
structure Owed (service : ServiceLine Group levels → Bool)
    (owed : List (ServiceLine Group levels)) : Prop where
  inService : ∀ line, service line = true ↔ line ∈ owed
  ordered : owed.Pairwise ServiceLine.Before

variable {service : ServiceLine Group levels → Bool} {line : ServiceLine Group levels}
variable {lines owed : List (ServiceLine Group levels)}

theorem highestLevel_eq_some (set : service line = true)
    (above : ∀ level, level < line.level → service ⟨line.group, level⟩ = false) :
    highestLevel service line.group = some line.level := by
  apply List.find?_eq_some_iff_getElem.mpr
  refine ⟨set, line.level.val, by simp, by simp, fun position before => ?_⟩
  rw [List.getElem_finRange]
  simp only [Bool.not_eq_true', Fin.cast_mk]
  exact above _ before

theorem Owed.not_mem (holds : Owed service (line :: owed)) : line ∉ owed := by
  intro member
  have before := List.rel_of_pairwise_cons holds.ordered member
  exact lt_irrefl _ (before rfl)

/-- The line owed first is the one its group retires. -/
theorem Owed.highestLevel (holds : Owed service (line :: owed)) :
    highestLevel service line.group = some line.level := by
  apply highestLevel_eq_some ((holds.inService line).mpr List.mem_cons_self)
  intro level above
  rw [← Bool.not_eq_true, holds.inService, List.mem_cons, not_or]
  constructor
  · intro same
    have sameLevel := congrArg ServiceLine.level same
    exact above.ne sameLevel
  · intro member
    exact lt_asymm above (List.rel_of_pairwise_cons holds.ordered member rfl)

/-! ### Raising and retiring -/

variable [DecidableEq Group]

/-- Take the line of highest priority of a group out of service. -/
def retireHighest (service : ServiceLine Group levels → Bool) (group : Group) :
    ServiceLine Group levels → Bool :=
  match highestLevel service group with
  | none => service
  | some level => Function.update service ⟨group, level⟩ false

/-- Take lines into service. -/
def raiseLines (service : ServiceLine Group levels → Bool)
    (lines : List (ServiceLine Group levels)) :
    ServiceLine Group levels → Bool :=
  fun line => decide (line ∈ lines) || service line

/-- A group with nothing in service retires nothing. -/
theorem retireHighest_of_idle {group : Group} (idle : highestLevel service group = none) :
    retireHighest service group = service := by
  rw [retireHighest, idle]

theorem Owed.retireHighest (holds : Owed service (line :: owed)) :
    Owed (retireHighest service line.group) owed where
  inService := fun other => by
    have retired : Foundation.retireHighest service line.group =
        Function.update service line false := by
      rw [Foundation.retireHighest, holds.highestLevel]
    rw [retired]
    by_cases same : other = line
    · subst same
      simpa using holds.not_mem
    · rw [Function.update_of_ne same, holds.inService, List.mem_cons]
      simp [same]
  ordered := holds.ordered.of_cons

/-- Lines raised above everything in service are owed first. -/
theorem Owed.raiseLines (holds : Owed service owed) (apart : lines.Pairwise ServiceLine.Before)
    (admits : ∀ line ∈ lines, Admits service line) :
    Owed (raiseLines service lines) (lines ++ owed) where
  inService := fun line => by
    simp [Foundation.raiseLines, holds.inService]
  ordered := by
    apply List.pairwise_append.mpr
    refine ⟨apart, holds.ordered, fun new isNew old isOld sameGroup => ?_⟩
    by_contra blocked
    have clear := admits new isNew old.level (not_lt.mp blocked)
    have set := (holds.inService old).mpr isOld
    rw [sameGroup] at clear
    exact absurd (set.symm.trans clear) nofun

end Service

end NansOS.Foundation
