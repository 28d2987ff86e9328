import Mathlib.Data.List.Basic

/-! Owns singly linked lists laid out in a store: `node` reads the node at an
address, `next` the address of its successor, and `null` ends the list. The
rules are those a list program needs: a list is determined by its store, it
depends only on its own nodes, its tail can be replaced, and a loop that walks
it to the first accepted node ends there. It owns no program. -/

namespace NansOS.Foundation.LinkedList

universe u v

variable {Address : Type u} {Node : Type v}

/-- The nodes reached from `start`, in order. -/
def Linked (node : Address → Node) (next : Address → Address) (null : Address) :
    Address → List Node → Prop
  | start, [] => start = null
  | start, first :: rest =>
      start ≠ null ∧ node start = first ∧ Linked node next null (next start) rest

instance linkedDecidable [DecidableEq Address] [DecidableEq Node] (node : Address → Node)
    (next : Address → Address) (null : Address) :
    ∀ start nodes, Decidable (Linked node next null start nodes)
  | start, [] => inferInstanceAs (Decidable (start = null))
  | start, first :: rest =>
      have := linkedDecidable node next null (next start) rest
      inferInstanceAs (Decidable (start ≠ null ∧ node start = first ∧ _))

section Rules

variable {node changed : Address → Node} {next relinked : Address → Address}
variable {null start : Address}

/-- A store holds one list from each address. -/
theorem Linked.unique {left right : List Node} (first : Linked node next null start left)
    (second : Linked node next null start right) : left = right := by
  induction left generalizing start right with
  | nil =>
      cases right with
      | nil => rfl
      | cons _ _ => exact absurd first second.1
  | cons head rest inductionHypothesis =>
      cases right with
      | nil => exact absurd second first.1
      | cons other others =>
          obtain ⟨-, sameFirst, laterFirst⟩ := first
          obtain ⟨-, sameSecond, laterSecond⟩ := second
          rw [← sameFirst, ← sameSecond, inductionHypothesis laterFirst laterSecond]

section Addresses

variable {address : Node → Address} (located : ∀ place, address (node place) = place)

include located

theorem Linked.start_eq {first : Node} {rest : List Node}
    (linked : Linked node next null start (first :: rest)) : start = address first := by
  rw [← linked.2.1, located]

/-- The node at the address of a member is that member. -/
theorem Linked.node_eq {nodes : List Node} (linked : Linked node next null start nodes)
    {member : Node} (inside : member ∈ nodes) : node (address member) = member := by
  induction nodes generalizing start with
  | nil => cases inside
  | cons first rest inductionHypothesis =>
      rcases List.mem_cons.mp inside with rfl | later
      · rw [← linked.start_eq located]
        exact linked.2.1
      · exact inductionHypothesis linked.2.2 later

/-- The tail from a member on, as a list of its own. -/
theorem Linked.tail {before rest : List Node} {member : Node}
    (linked : Linked node next null start (before ++ member :: rest)) :
    Linked node next null (address member) (member :: rest) := by
  induction before generalizing start with
  | nil =>
      have here : Linked node next null start (member :: rest) := linked
      rw [← here.start_eq located]
      exact here
  | cons first before inductionHypothesis => exact inductionHypothesis linked.2.2

/-- A first node that is kept stands before whatever is now linked behind it. -/
theorem Linked.cons_kept {first : Node} {rest tail : List Node}
    (linked : Linked node next null start (first :: rest))
    (sameNode : changed (address first) = node (address first))
    (sameNext : relinked (address first) = next (address first))
    (later : Linked changed relinked null (next start) tail) :
    Linked changed relinked null start (first :: tail) := by
  have here := linked.start_eq located
  refine ⟨linked.1, ?_, ?_⟩
  · rw [here, sameNode, ← here]
    exact linked.2.1
  · rw [here, sameNext, ← here]
    exact later

/-- A list depends only on its own nodes. -/
theorem Linked.congr {nodes : List Node} (linked : Linked node next null start nodes)
    (sameNode : ∀ member ∈ nodes, changed (address member) = node (address member))
    (sameNext : ∀ member ∈ nodes, relinked (address member) = next (address member)) :
    Linked changed relinked null start nodes := by
  induction nodes generalizing start with
  | nil => exact linked
  | cons first rest inductionHypothesis =>
      exact linked.cons_kept located (sameNode first (by simp)) (sameNext first (by simp))
        (inductionHypothesis linked.2.2
          (fun member later => sameNode member (by simp [later]))
          (fun member later => sameNext member (by simp [later])))

/-- Replacing the tail: if the nodes before a member are kept, whatever is now
linked from that member's address follows them. -/
theorem Linked.splice {before rest tail : List Node} {member : Node}
    (linked : Linked node next null start (before ++ member :: rest))
    (sameNode : ∀ other ∈ before, changed (address other) = node (address other))
    (sameNext : ∀ other ∈ before, relinked (address other) = next (address other))
    (replaced : Linked changed relinked null (address member) tail) :
    Linked changed relinked null start (before ++ tail) := by
  induction before generalizing start with
  | nil =>
      have here : Linked node next null start (member :: rest) := linked
      rw [here.start_eq located]
      exact replaced
  | cons first before inductionHypothesis =>
      have linked : Linked node next null start (first :: (before ++ member :: rest)) := linked
      exact linked.cons_kept located (sameNode first (by simp)) (sameNext first (by simp))
        (inductionHypothesis linked.2.2
          (fun other later => sameNode other (by simp [later]))
          (fun other later => sameNext other (by simp [later])))

end Addresses

end Rules

/-! ### Searching -/

/-- `while (current && !accept(current)) { last = current; current = next; }`,
for at most `fuel` tests: the last node passed and the node stopped at, or
nothing when the loop is still running. -/
def find [DecidableEq Address] (accept : Address → Bool) (next : Address → Address)
    (null : Address) : Nat → Address → Address → Option (Address × Address)
  | 0, _, _ => none
  | fuel + 1, last, current =>
      if current = null ∨ accept current = true then some (last, current)
      else find accept next null fuel current (next current)

/-- The address of the last of some nodes, or what came before them. -/
def lastOf (address : Node → Address) (nodes : List Node) (before : Address) : Address :=
  (nodes.getLast?.map address).getD before

theorem lastOf_cons (address : Node → Address) (first : Node) (rest : List Node)
    (before : Address) :
    lastOf address (first :: rest) before = lastOf address rest (address first) := by
  cases rest with
  | nil => rfl
  | cons second rest =>
      have last := List.getLast?_eq_some_getLast (List.cons_ne_nil second rest)
      simp only [lastOf, List.getLast?_cons_cons, last, Option.map_some, Option.getD_some]

section Search

variable [DecidableEq Address] {node : Address → Node} {next : Address → Address}
variable {null start last : Address} {address : Node → Address}
variable {accept : Address → Bool} {fuel : Nat}
variable (located : ∀ place, address (node place) = place)

include located

/-- The loop stops at the first accepted node. -/
theorem find_first {before rest : List Node} {member : Node}
    (linked : Linked node next null start (before ++ member :: rest))
    (skipped : ∀ other ∈ before, accept (address other) = false)
    (accepted : accept (address member) = true) (enough : before.length < fuel) :
    find accept next null fuel last start =
      some (lastOf address before last, address member) := by
  induction before generalizing start last fuel with
  | nil =>
      have here : Linked node next null start (member :: rest) := linked
      cases fuel with
      | zero => omega
      | succ fuel =>
          rw [find, here.start_eq located, if_pos (.inr accepted)]
          rfl
  | cons first before inductionHypothesis =>
      have whole : Linked node next null start (first :: (before ++ member :: rest)) := linked
      have here := whole.start_eq located
      cases fuel with
      | zero => omega
      | succ fuel =>
          have passed : ¬ (start = null ∨ accept start = true) := by
            rw [not_or]
            exact ⟨whole.1, by rw [here, skipped first (by simp)]; decide⟩
          rw [find, if_neg passed, lastOf_cons, ← here]
          exact inductionHypothesis whole.2.2
            (fun other later => skipped other (by simp [later]))
            (by simp only [List.length_cons] at enough; omega)

/-- The loop runs off a list without accepted nodes. -/
theorem find_missing {nodes : List Node} (linked : Linked node next null start nodes)
    (skipped : ∀ other ∈ nodes, accept (address other) = false) (enough : nodes.length < fuel) :
    find accept next null fuel last start = some (lastOf address nodes last, null) := by
  induction nodes generalizing start last fuel with
  | nil =>
      cases fuel with
      | zero => omega
      | succ fuel =>
          have ended : start = null := linked
          rw [find, if_pos (.inl ended), ended]
          rfl
  | cons first rest inductionHypothesis =>
      have here := linked.start_eq located
      cases fuel with
      | zero => omega
      | succ fuel =>
          have passed : ¬ (start = null ∨ accept start = true) := by
            rw [not_or]
            exact ⟨linked.1, by rw [here, skipped first (by simp)]; decide⟩
          rw [find, if_neg passed, lastOf_cons, ← here]
          exact inductionHypothesis linked.2.2
            (fun other later => skipped other (by simp [later]))
            (by simp only [List.length_cons] at enough; omega)

end Search

end NansOS.Foundation.LinkedList
