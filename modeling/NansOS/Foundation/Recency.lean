import Mathlib.Data.List.Infix
import Mathlib.Data.List.Nodup

/-! Owns recency order: members enter, are lifted and leave, and the members
present are listed by the time they last entered or were lifted. The history of
these events is the specification; `arrange` is the list operation that each
event performs on the order. -/

namespace NansOS.Foundation

universe u

/-- What happens to a member. -/
inductive Event (Member : Type u) where
  | enter (member : Member)
  | lift (member : Member)
  | leave (member : Member)
deriving DecidableEq

variable {Member : Type u}

/-- The member that an event is about. -/
def Event.subject : Event Member → Member
  | .enter member | .lift member | .leave member => member

/-- The member has entered and has not left since. -/
def Present (history : List (Event Member)) (member : Member) : Prop :=
  ∃ before after, history = before ++ .enter member :: after ∧ .leave member ∉ after

theorem not_present_nil (member : Member) : ¬ Present [] member := by
  rintro ⟨before, after, split, _⟩
  simp at split

theorem present_concat {history : List (Event Member)} {event : Event Member} {member : Member} :
    Present (history ++ [event]) member ↔
      event = .enter member ∨ Present history member ∧ event ≠ .leave member := by
  constructor
  · rintro ⟨before, after, split, stays⟩
    rcases List.eq_nil_or_concat after with rfl | ⟨between, last, rfl⟩
    · have ends : [event] = [.enter member] := (List.append_inj' split rfl).2
      exact Or.inl (List.singleton_inj.mp ends)
    · rw [List.concat_eq_append] at split stays
      rw [← List.cons_append, ← List.append_assoc] at split
      obtain ⟨rfl, ends⟩ := List.append_inj' split rfl
      obtain rfl := List.singleton_inj.mp ends
      have absent := not_or.mp (fun either => stays (List.mem_append.mpr either))
      refine Or.inr ⟨⟨before, between, rfl, absent.1⟩, ?_⟩
      rintro rfl
      exact absent.2 (List.mem_singleton_self _)
  · rintro (rfl | ⟨⟨before, after, rfl, stays⟩, different⟩)
    · exact ⟨history, [], rfl, by simp⟩
    · refine ⟨before, after ++ [event], by simp, ?_⟩
      simpa [stays] using different.symm

section Order

variable [DecidableEq Member]

/-- The event makes this member the most recent one. -/
def Event.Lifts (member : Member) (event : Event Member) : Prop :=
  event = .enter member ∨ event = .lift member

instance (member : Member) (event : Event Member) : Decidable (event.Lifts member) :=
  inferInstanceAs (Decidable (_ ∨ _))

/-- The time of the last event that made the member the most recent one,
counted from one on; zero if there was none. -/
def latest (history : List (Event Member)) (member : Member) : Nat :=
  (history.reverse.dropWhile fun event => ¬ event.Lifts member).length

/-- The order after one event. Lifting and leaving are for members only. -/
def arrange (order : List Member) : Event Member → List Member
  | .enter member => order ++ [member]
  | .lift member => if member ∈ order then order.erase member ++ [member] else order
  | .leave member => order.erase member

/-- A member enters only while it is absent. -/
def Enters (order : List Member) : Event Member → Prop
  | .enter member => member ∉ order
  | _ => True

/-- The order lists the members present, each once, the latest last. -/
structure Recency (history : List (Event Member)) (order : List Member) : Prop where
  nodup : order.Nodup
  present : ∀ member, member ∈ order ↔ Present history member
  ordered : order.Pairwise fun earlier later => latest history earlier < latest history later

/-! ### One event -/

theorem latest_concat (history : List (Event Member)) (event : Event Member) (member : Member) :
    latest (history ++ [event]) member =
      if event.Lifts member then history.length + 1 else latest history member := by
  by_cases lifts : event.Lifts member
  · simp [latest, lifts]
  · simp [latest, lifts]

theorem latest_le (history : List (Event Member)) (member : Member) :
    latest history member ≤ history.length := by
  have shorter := (List.dropWhile_suffix (fun event => decide ¬ event.Lifts member) :
    _ <:+ history.reverse).length_le
  simpa [latest] using shorter

theorem latest_of_other {history : List (Event Member)} {event : Event Member} {member : Member}
    (other : member ≠ event.subject) :
    latest (history ++ [event]) member = latest history member := by
  rw [latest_concat, if_neg]
  rintro (rfl | rfl)
  · exact other rfl
  · exact other rfl

theorem recency_nil : Recency ([] : List (Event Member)) [] := by
  refine ⟨List.nodup_nil, fun member => ?_, List.Pairwise.nil⟩
  simp [not_present_nil]

variable {history : List (Event Member)} {order : List Member}

/-- An order stays ordered under an event about somebody else. -/
theorem Recency.pairwise_of_others (recency : Recency history order) {event : Event Member}
    {rest : List Member} (sublist : rest.Sublist order) (others : event.subject ∉ rest) :
    rest.Pairwise fun earlier later =>
      latest (history ++ [event]) earlier < latest (history ++ [event]) later := by
  apply (recency.ordered.sublist sublist).imp_of_mem
  intro earlier later earlierMember laterMember before
  have first : earlier ≠ event.subject := fun same => others (same ▸ earlierMember)
  have second : later ≠ event.subject := fun same => others (same ▸ laterMember)
  rw [latest_of_other first, latest_of_other second]
  exact before

/-- A member put last is later than the others. -/
theorem Recency.pairwise_concat (recency : Recency history order) {event : Event Member}
    {rest : List Member} (sublist : rest.Sublist order) (others : event.subject ∉ rest)
    (lifts : event.Lifts event.subject) :
    (rest ++ [event.subject]).Pairwise fun earlier later =>
      latest (history ++ [event]) earlier < latest (history ++ [event]) later := by
  rw [List.pairwise_append]
  refine ⟨recency.pairwise_of_others sublist others, List.pairwise_singleton _ _, ?_⟩
  intro earlier member later same
  have different : earlier ≠ event.subject := fun equal => others (equal ▸ member)
  obtain rfl := List.mem_singleton.mp same
  rw [latest_of_other different, latest_concat, if_pos lifts]
  have bound := latest_le history earlier
  omega

theorem arrange_nodup (nodup : order.Nodup) {event : Event Member}
    (enters : Enters order event) : (arrange order event).Nodup := by
  cases event with
  | enter member =>
      have absent : member ∉ order := enters
      exact List.nodup_append'.mpr ⟨nodup, List.nodup_singleton _, by simpa using absent⟩
  | lift member =>
      rw [arrange]
      by_cases inside : member ∈ order
      · have removed : member ∉ order.erase member := nodup.not_mem_erase
        rw [if_pos inside]
        exact List.nodup_append'.mpr
          ⟨nodup.erase member, List.nodup_singleton _, by simpa using removed⟩
      · rw [if_neg inside]
        exact nodup
  | leave member => exact nodup.erase member

/-- Lifting keeps the members. -/
theorem mem_arrange_lift {member other : Member} :
    other ∈ arrange order (.lift member) ↔ other ∈ order := by
  rw [arrange]
  by_cases inside : member ∈ order
  · rw [if_pos inside, List.mem_append, List.mem_singleton]
    by_cases same : other = member
    · subst same
      exact iff_of_true (Or.inr rfl) inside
    · rw [List.mem_erase_of_ne same]
      exact or_iff_left same
  · rw [if_neg inside]

/-- Lifting rearranges. -/
theorem arrange_lift_perm (order : List Member) (member : Member) :
    (NansOS.Foundation.arrange order (.lift member)).Perm order := by
  rw [NansOS.Foundation.arrange]
  split
  · next inside =>
      exact (List.perm_append_singleton _ _).trans (List.perm_cons_erase inside).symm
  · exact List.Perm.refl _

theorem Recency.enter (recency : Recency history order) {member : Member}
    (absent : member ∉ order) :
    Recency (history ++ [.enter member]) (arrange order (.enter member)) := by
  constructor
  · exact arrange_nodup recency.nodup absent
  · intro other
    rw [arrange, List.mem_append, List.mem_singleton, present_concat, recency.present]
    constructor
    · rintro (present | rfl)
      · exact Or.inr ⟨present, by simp⟩
      · exact Or.inl rfl
    · rintro (same | ⟨present, _⟩)
      · injection same with same
        exact Or.inr same.symm
      · exact Or.inl present
  · exact recency.pairwise_concat (List.Sublist.refl _) absent (Or.inl rfl)

theorem Recency.lift (recency : Recency history order) (member : Member) :
    Recency (history ++ [.lift member]) (arrange order (.lift member)) := by
  constructor
  · exact arrange_nodup recency.nodup trivial
  · intro other
    rw [mem_arrange_lift, present_concat, recency.present]
    simp
  · rw [arrange]
    by_cases inside : member ∈ order
    · rw [if_pos inside]
      exact recency.pairwise_concat List.erase_sublist recency.nodup.not_mem_erase (Or.inr rfl)
    · rw [if_neg inside]
      exact recency.pairwise_of_others (List.Sublist.refl _) inside

theorem Recency.leave (recency : Recency history order) (member : Member) :
    Recency (history ++ [.leave member]) (arrange order (.leave member)) := by
  constructor
  · exact arrange_nodup recency.nodup trivial
  · intro other
    rw [arrange, recency.nodup.mem_erase_iff, present_concat, recency.present]
    constructor
    · rintro ⟨different, present⟩
      refine Or.inr ⟨present, fun same => different ?_⟩
      injection same with same
      exact same.symm
    · rintro (impossible | ⟨present, different⟩)
      · cases impossible
      · exact ⟨fun same => different (same ▸ rfl), present⟩
  · exact recency.pairwise_of_others List.erase_sublist recency.nodup.not_mem_erase

/-- Lifting the member that has just entered changes nothing. -/
theorem arrange_enter_lift {member : Member} (absent : member ∉ order) :
    NansOS.Foundation.arrange (NansOS.Foundation.arrange order (.enter member)) (.lift member) =
      NansOS.Foundation.arrange order (.enter member) := by
  simp only [NansOS.Foundation.arrange, List.mem_append, List.mem_singleton, or_true, if_true]
  rw [List.erase_append_right _ absent]
  simp

/-! ### Lists of events -/

theorem Recency.arrange (recency : Recency history order) {event : Event Member}
    (enters : Enters order event) :
    Recency (history ++ [event]) (arrange order event) := by
  cases event with
  | enter member => exact recency.enter enters
  | lift member => exact recency.lift member
  | leave member => exact recency.leave member

/-- An event keeps the relative order of everybody it is not about. -/
theorem arrange_filter (event : Event Member) {keep : Member → Bool}
    (others : keep event.subject = false) :
    (arrange order event).filter keep = order.filter keep := by
  have erased : ∀ member, keep member = false → (order.erase member).filter keep =
      order.filter keep := by
    intro member dropped
    rw [← List.erase_filter, List.erase_of_not_mem]
    simp [dropped]
  cases event with
  | enter member =>
      have others : keep member = false := others
      simp [NansOS.Foundation.arrange, others]
  | lift member =>
      have others : keep member = false := others
      rw [NansOS.Foundation.arrange]
      by_cases inside : member ∈ order
      · rw [if_pos inside, List.filter_append, erased member others]
        simp [others]
      · rw [if_neg inside]
  | leave member => exact erased member others

/-- Every member that enters in the course of the events is absent then. -/
def EntersEach : List Member → List (Event Member) → Prop
  | _, [] => True
  | order, event :: rest =>
      Enters order event ∧ EntersEach (NansOS.Foundation.arrange order event) rest

theorem entersEach_append {first second : List (Event Member)} :
    EntersEach order (first ++ second) ↔
      EntersEach order first ∧
        EntersEach (first.foldl NansOS.Foundation.arrange order) second := by
  induction first generalizing order with
  | nil => simp [EntersEach]
  | cons event rest inductionHypothesis =>
      simp only [List.cons_append, EntersEach, List.foldl_cons, inductionHypothesis, and_assoc]

theorem arrange_events_nodup (nodup : order.Nodup) {events : List (Event Member)}
    (enters : EntersEach order events) :
    (events.foldl NansOS.Foundation.arrange order).Nodup := by
  induction events generalizing order with
  | nil => exact nodup
  | cons event rest inductionHypothesis =>
      exact inductionHypothesis (arrange_nodup nodup enters.1) enters.2

theorem Recency.events (recency : Recency history order) {events : List (Event Member)}
    (enters : EntersEach order events) :
    Recency (history ++ events) (events.foldl NansOS.Foundation.arrange order) := by
  induction events generalizing history order with
  | nil => simpa using recency
  | cons event rest inductionHypothesis =>
      have later := inductionHypothesis (recency.arrange enters.1) enters.2
      simpa using later

theorem arrange_events_filter (events : List (Event Member)) {keep : Member → Bool}
    (others : ∀ event ∈ events, keep event.subject = false) :
    (events.foldl NansOS.Foundation.arrange order).filter keep = order.filter keep := by
  induction events generalizing order with
  | nil => rfl
  | cons event rest inductionHypothesis =>
      rw [List.foldl_cons, inductionHypothesis fun other member => others other (by simp [member])]
      exact arrange_filter event (others event (by simp))

end Order

end NansOS.Foundation
