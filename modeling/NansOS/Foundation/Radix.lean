import Mathlib.Data.Fintype.BigOperators
import Mathlib.Data.Fintype.Option

/-! Owns radix trees laid out in a store: nodes hold one entry per index, and
`child depth entry` says which node an entry links to at that depth. A path is
the list of indices from the deepest level up to the root, so that the parent
of `index :: path` is `path`. The two update rules say what linking a fresh
empty node, and rewriting an entry without relinking, do to the tree seen from
the root; both need only that the new store agrees with the old one on the
nodes reachable from there. -/

namespace NansOS.Foundation.Radix

universe u v w

variable {Node : Type u} {Index : Type v} {Entry : Type w}

/-- The node at the end of a path from `root`. -/
def nodeAt (child : Nat → Entry → Option Node) (store : Node → Index → Entry) (root : Node) :
    List Index → Option Node
  | [] => some root
  | index :: path =>
      (nodeAt child store root path).bind fun node => child path.length (store node index)

/-- Every node is reached by one path only. -/
def OnePath (child : Nat → Entry → Option Node) (store : Node → Index → Entry)
    (root : Node) : Prop :=
  ∀ left right node, nodeAt child store root left = some node →
    nodeAt child store root right = some node → left = right

/-- There are at most `(n + 1) ^ depth` paths of length at most `depth` over
`n` indices. -/
theorem card_le_of_length_le [Fintype Index] {depth : Nat} (paths : Finset (List Index))
    (short : ∀ path ∈ paths, path.length ≤ depth) :
    paths.card ≤ (Fintype.card Index + 1) ^ depth := by
  classical
  -- A short path is determined by its entries at the first `depth` positions.
  have bound := Finset.card_le_card_of_injOn (s := paths) (t := Finset.univ)
    (fun path (level : Fin depth) => path[level.val]?)
    (fun _ _ => Finset.mem_coe.mpr (Finset.mem_univ _)) ?_
  · simpa using bound
  · intro left leftMember right rightMember equal
    apply List.ext_getElem?
    intro level
    by_cases inside : level < depth
    · exact congrFun equal ⟨level, inside⟩
    · have leftShort := short left leftMember
      have rightShort := short right rightMember
      rw [List.getElem?_eq_none (by omega), List.getElem?_eq_none (by omega)]

section Updates

variable {child : Nat → Entry → Option Node} {store changed : Node → Index → Entry}
variable {root node fresh : Node} {parent : List Index} {index : Index}

/-- Stores that agree on reachable nodes have the same tree. -/
theorem nodeAt_congr
    (agree : ∀ path other slot, nodeAt child store root path = some other →
      changed other slot = store other slot) (path : List Index) :
    nodeAt child changed root path = nodeAt child store root path := by
  induction path with
  | nil => rfl
  | cons slot path inductionHypothesis =>
      simp only [nodeAt, inductionHypothesis]
      cases reached : nodeAt child store root path with
      | none => rfl
      | some other => simp only [Option.bind_some, agree path other slot reached]

/-- Rewriting one entry without changing what it links to keeps the tree. -/
theorem nodeAt_rewrite (onePath : OnePath child store root)
    (reached : nodeAt child store root parent = some node)
    (agree : ∀ path other slot, nodeAt child store root path = some other →
      ¬ (other = node ∧ slot = index) → changed other slot = store other slot)
    (same : child parent.length (changed node index) = child parent.length (store node index))
    (path : List Index) :
    nodeAt child changed root path = nodeAt child store root path := by
  induction path with
  | nil => rfl
  | cons slot path inductionHypothesis =>
      simp only [nodeAt, inductionHypothesis]
      cases atPath : nodeAt child store root path with
      | none => rfl
      | some other =>
          simp only [Option.bind_some]
          by_cases here : other = node ∧ slot = index
          · obtain ⟨rfl, rfl⟩ := here
            rw [onePath path parent other atPath reached]
            exact same
          · rw [agree path other slot atPath here]

/-- Linking a fresh empty node at a vacant entry adds exactly that node. -/
theorem nodeAt_link (onePath : OnePath child store root)
    (reached : nodeAt child store root parent = some node)
    (agree : ∀ path other slot, nodeAt child store root path = some other →
      ¬ (other = node ∧ slot = index) → changed other slot = store other slot)
    (vacant : child parent.length (store node index) = none)
    (linked : child parent.length (changed node index) = some fresh)
    (empty : ∀ depth slot, child depth (changed fresh slot) = none) :
    nodeAt child changed root (index :: parent) = some fresh ∧
      ∀ path, path ≠ index :: parent →
        nodeAt child changed root path = nodeAt child store root path := by
  have every : ∀ path, (path = index :: parent → nodeAt child changed root path = some fresh) ∧
      (path ≠ index :: parent →
        nodeAt child changed root path = nodeAt child store root path) := by
    intro path
    induction path with
    | nil => exact ⟨fun absurdity => by simp at absurdity, fun _ => rfl⟩
    | cons slot path inductionHypothesis =>
        constructor
        · intro target
          obtain ⟨rfl, rfl⟩ := List.cons.inj target
          have before := inductionHypothesis.2 (by simp)
          simp only [nodeAt, before, reached, Option.bind_some, linked]
        · intro different
          by_cases below : path = index :: parent
          · -- The fresh node has no children, and before it there was nothing.
            have missing : nodeAt child store root path = none := by
              rw [below]
              simp only [nodeAt, reached, Option.bind_some, vacant]
            simp only [nodeAt, inductionHypothesis.1 below, missing, Option.bind_some,
              Option.bind_none, empty]
          · simp only [nodeAt, inductionHypothesis.2 below]
            cases atPath : nodeAt child store root path with
            | none => rfl
            | some other =>
                simp only [Option.bind_some]
                by_cases here : other = node ∧ slot = index
                · obtain ⟨rfl, rfl⟩ := here
                  rw [onePath path parent other atPath reached] at different
                  exact absurd rfl different
                · rw [agree path other slot atPath here]
  exact ⟨(every _).1 rfl, fun path => (every path).2⟩

theorem OnePath.of_same (onePath : OnePath child store root)
    (same : ∀ path, nodeAt child changed root path = nodeAt child store root path) :
    OnePath child changed root := by
  intro left right other atLeft atRight
  rw [same] at atLeft atRight
  exact onePath left right other atLeft atRight

end Updates

end NansOS.Foundation.Radix
