import NansOS.Vfs.Lookup

/-! Owns `vfs_mkdir` of `fs.c`. The path of the parent and the name stand in one
buffer, with a NUL in place of the last separator, and the nested `vfs_lookup`
normalizes the first of them where it stands. It writes no further than the NUL,
unless the parent's path is empty: that becomes `/`, and the NUL behind it is
written over the first byte of the name. -/

namespace NansOS.Vfs

open NansOS.Foundation
open NansOS.Kernel

/-! ### The function -/

/-- A call of a `mkdir` hook. -/
structure MkdirCall (Node : Type) where
  mkdir : Node → CString → UInt32 → Int
  parent : Node
  name : CString
  mode : UInt32

section Function

variable {Node : Type} (hierarchy : Hierarchy Node)

/-- The call of a hook that `vfs_mkdir` makes, if it makes one, and the memory at
the call. -/
def mkdirCall (memory : Memory) (path : Nat) (mode : UInt32) :
    Option (Except Fault (Option (MkdirCall Node)) × Memory) :=
  (vfsNormalizePath memory hierarchy.normalized path).bind fun (parentPath, memory) =>
    if parentPath = 0 then some (.error .nullPointer, memory)
    else
      (stringAt memory parentPath).bind fun string =>
        match strrchr string slash with
        | none => some (.ok none, memory)
        | some offset =>
            let lastSlash := parentPath + offset
            let memory := Function.update memory lastSlash 0
            (vfsLookup hierarchy memory parentPath).bind fun (parent, memory) =>
              match parent with
              | .error fault => some (.error fault, memory)
              | .ok none => some (.ok none, memory)
              | .ok (some parent) =>
                  match (hierarchy.operations parent).bind DirectoryOperations.mkdir with
                  | none => some (.ok none, memory)
                  | some mkdir =>
                      (stringAt memory (lastSlash + 1)).map fun name =>
                        (.ok (some ⟨mkdir, parent, name, mode⟩), memory)

/-- `vfs_mkdir`. -/
def vfsMkdir (memory : Memory) (path : Nat) (mode : UInt32) :
    Option (Except Fault Int × Memory) :=
  (mkdirCall hierarchy memory path mode).map fun (outcome, memory) =>
    (outcome.map fun call =>
      match call with
      | none => -1
      | some { mkdir, parent, name, mode } => mkdir parent name mode, memory)

end Function

/-! ### The call it makes -/

section Call

variable {Node : Type} {hierarchy : Hierarchy Node} {node : Node} {mode : UInt32}

/-- `vfs_lookup` gives this node for the path, wherever it finds the path. -/
def LooksUp (hierarchy : Hierarchy Node) (path : CString) (node : Node) : Prop :=
  ∀ memory address, address ≠ 0 → Spells memory address path.bytes →
    ReadFirst hierarchy.normalized address path.bytes →
      ∃ after, vfsLookup hierarchy memory address = some (.ok (some node), after)

/-- `vfs_mkdir` makes this call and returns its result, wherever it finds the
path. -/
def PassesOn (hierarchy : Hierarchy Node) (path : CString) (call : MkdirCall Node) : Prop :=
  ∀ memory address, address ≠ 0 → Spells memory address path.bytes →
    ReadFirst hierarchy.normalized address path.bytes →
      ∃ after, mkdirCall hierarchy memory address call.mode = some (.ok (some call), after) ∧
        vfsMkdir hierarchy memory address call.mode =
          some (.ok (call.mkdir call.parent call.name call.mode), after)

/-- The nested lookup, with the name behind the NUL: it leaves the name alone
unless the path of the parent is empty. -/
theorem lookup_beside {memory : Memory} {parent name : CString}
    (spells : Spells memory hierarchy.normalized parent.bytes)
    (beside : Spells memory (hierarchy.normalized + strlen parent + 1) name.bytes)
    (found : LooksUp hierarchy parent node) (short : strlen parent < scanLimit) :
    ∃ after, vfsLookup hierarchy memory hierarchy.normalized = some (.ok (some node), after) ∧
      Spells after (hierarchy.normalized + strlen parent + 1)
        (if parent.bytes = [] then [] else name.bytes) := by
  obtain ⟨after, resolved, written, frame⟩ :=
    vfsResolve_spec hierarchy hierarchy.located spells (.inl le_rfl) short
  obtain ⟨other, looked⟩ := found _ _ hierarchy.located spells (.inl le_rfl)
  have same := vfsLookup_of_resolve hierarchy hierarchy.located resolved
  rw [looked] at same
  obtain rfl := (Prod.mk.inj (Option.some.inj same)).2
  refine ⟨other, looked, ?_⟩
  by_cases root : parent.bytes = []
  · rw [if_pos root, strlen, root]
    rw [root] at written
    exact written.2
  · rw [if_neg root]
    have positive := List.length_pos_iff.mpr root
    refine beside.congr (frame.mono fun target inside => ?_)
    have inside := Set.mem_Ico.mp inside
    simp only [Set.mem_compl_iff, Set.mem_Ico, strlen] at inside ⊢
    omega

/-- A path whose normal form is a parent's path, a `/` and a name: the hook of the
parent is called, with that name or, under the empty path, with no name. -/
theorem mkdirCall_spec (mode : UInt32) {path parent name : CString}
    {operations : DirectoryOperations Node} {mkdir : Node → CString → UInt32 → Int}
    {memory : Memory} {address : Nat}
    (split : normalizedBytes path.bytes = parent.bytes ++ slash :: name.bytes)
    (absent : slash ∉ name.bytes) (found : LooksUp hierarchy parent node)
    (hooks : hierarchy.operations node = some operations) (hook : operations.mkdir = some mkdir)
    (nonnull : address ≠ 0) (spells : Spells memory address path.bytes)
    (readFirst : ReadFirst hierarchy.normalized address path.bytes)
    (short : strlen path < scanLimit) :
    ∃ after, mkdirCall hierarchy memory address mode = some (.ok (some ⟨mkdir, node,
      if parent.bytes = [] then CString.empty else name, mode⟩), after) := by
  obtain ⟨normal, returned, written, ends, length, _⟩ :=
    vfsNormalizePath_spec nonnull spells path.terminated readFirst short
  have one : 1 < scanLimit := by
    unfold scanLimit
    omega
  have limit := length.trans_lt (max_lt one short)
  have string : stringAt normal hierarchy.normalized = some ⟨_, ends⟩ :=
    stringAt_spells written limit
  have last : strrchr ⟨normalizedBytes path.bytes, ends⟩ slash = some (strlen parent) :=
    strrchr_last (by decide) split absent
  rw [split] at written limit
  rw [List.length_append, List.length_cons] at limit
  -- The NUL in place of the last separator ends the path of the parent.
  have parentSpells : Spells (Function.update normal (hierarchy.normalized + strlen parent) 0)
      hierarchy.normalized parent.bytes :=
    spells_terminated
      (bytes_of_leading (spells_iff.mp written).1 (List.prefix_append parent.bytes _))
  have behind : Spells (Function.update normal (hierarchy.normalized + strlen parent) 0)
      (hierarchy.normalized + strlen parent + 1) name.bytes := by
    refine Spells.congr written.drop.2 fun target inside => Function.update_of_ne ?_ _ _
    have inside := Set.mem_Ico.mp inside
    simp only [strlen] at inside ⊢
    omega
  obtain ⟨after, looked, named⟩ := lookup_beside parentSpells behind found
    (show strlen parent < scanLimit by rw [strlen]; omega)
  have left : stringAt after (hierarchy.normalized + strlen parent + 1) =
      some (if parent.bytes = [] then CString.empty else name) := by
    by_cases root : parent.bytes = []
    · rw [if_pos root] at named ⊢
      exact stringAt_spells named (Nat.zero_lt_of_lt one)
    · rw [if_neg root] at named ⊢
      exact stringAt_spells named (show strlen name < scanLimit by rw [strlen]; omega)
  refine ⟨after, ?_⟩
  rw [mkdirCall, returned, Option.bind_some]
  dsimp only
  rw [if_neg hierarchy.located, string, Option.bind_some, last]
  dsimp only
  rw [looked, Option.bind_some]
  dsimp only
  rw [hooks, Option.bind_some, hook]
  dsimp only
  rw [left, Option.map_some]

/-- Under the empty path the hook is not called with the name. -/
theorem PassesOn.parent_ne_nil {path parent name : CString} {operations : DirectoryOperations Node}
    {mkdir : Node → CString → UInt32 → Int}
    (passes : PassesOn hierarchy path ⟨mkdir, node, name, mode⟩)
    (short : strlen path < scanLimit)
    (split : normalizedBytes path.bytes = parent.bytes ++ slash :: name.bytes)
    (nonempty : name.bytes ≠ []) (absent : slash ∉ name.bytes)
    (found : LooksUp hierarchy parent node)
    (hooks : hierarchy.operations node = some operations) (hook : operations.mkdir = some mkdir) :
    parent.bytes ≠ [] := by
  intro root
  obtain ⟨memory, spells⟩ := exists_spells hierarchy.normalized path.bytes
  obtain ⟨after, called, _⟩ := passes _ _ hierarchy.located spells (.inl le_rfl)
  obtain ⟨other, same⟩ := mkdirCall_spec mode split absent found hooks hook
    hierarchy.located spells (.inl le_rfl) short
  rw [called, if_pos root] at same
  have names := congrArg (Option.map fun outcome => outcome.1) same
  simp only [Option.map_some, Option.some.injEq, Except.ok.injEq, MkdirCall.mk.injEq] at names
  exact nonempty (congrArg CString.bytes names.2.2.1)

/-- Where the parent can be looked up and has the hook, `vfs_mkdir` calls it with
the name exactly when the path of the parent is not empty. -/
theorem passesOn_iff {path parent name : CString} {operations : DirectoryOperations Node}
    {mkdir : Node → CString → UInt32 → Int} (short : strlen path < maxPathLen)
    (normal : NormalizesTo path.bytes (parent.bytes ++ slash :: name.bytes))
    (nonempty : name.bytes ≠ []) (absent : slash ∉ name.bytes)
    (found : LooksUp hierarchy parent node)
    (hooks : hierarchy.operations node = some operations) (hook : operations.mkdir = some mkdir) :
    PassesOn hierarchy path ⟨mkdir, node, name, mode⟩ ↔ parent.bytes ≠ [] := by
  have limit := lt_scanLimit short
  have ends : 0 ∉ parent.bytes ++ slash :: name.bytes := by
    simp [parent.terminated, name.terminated, slash]
  have split := (normalizesTo_iff path.terminated ends limit).mp normal
  constructor
  · exact fun passes => passes.parent_ne_nil limit split nonempty absent found hooks hook
  · intro below memory address nonnull spells readFirst
    obtain ⟨after, called⟩ := mkdirCall_spec mode split absent found hooks hook nonnull spells
      readFirst limit
    rw [if_neg below] at called
    refine ⟨after, called, ?_⟩
    rw [vfsMkdir, called]
    rfl

theorem looksUp_of_follow {path : CString} (short : strlen path < scanLimit)
    (follows : hierarchy.follow (resolve hierarchy.mountPoints
      (CString.ofBytes (normalizedBytes path.bytes))) = .ok (some node)) :
    LooksUp hierarchy path node := by
  intro memory address nonnull spells readFirst
  obtain ⟨after, resolved, _⟩ := vfsResolve_spec hierarchy nonnull spells readFirst short
  refine ⟨after, ?_⟩
  rw [vfsLookup_of_resolve hierarchy nonnull resolved, follows]

end Call

/-- One mount point, at `/a`, and one node, which makes directories. -/
def oneDirectory : Hierarchy Unit :=
  { mountedAt [pathA] with operations := fun _ => some ⟨none, some fun _ _ _ => 0⟩ }

/-- The name `b`. -/
def nameB : CString := CString.ofBytes [98]

theorem oneDirectory_looksUp_root : LooksUp oneDirectory CString.empty () :=
  looksUp_of_follow (lt_scanLimit (by decide)) rfl

theorem oneDirectory_looksUp_pathA : LooksUp oneDirectory pathA () := by
  refine looksUp_of_follow (lt_scanLimit (by decide)) ?_
  change walk oneDirectory.operations (some ()) [] = .ok (some ())
  rw [walk, dif_neg (by simp)]

/-- For `/a/b` the hook is called with `b`. -/
theorem mkdir_below_pathA :
    PassesOn oneDirectory pathAB ⟨fun _ _ _ => 0, (), nameB, 0⟩ :=
  (passesOn_iff (by decide)
    ((normalizesTo_iff (by decide) (by decide) (lt_scanLimit (by decide))).mpr rfl) (by decide)
    (by decide) oneDirectory_looksUp_pathA rfl rfl).mpr (by decide)

/-- For `/b` the hook is called, but not with `b`. -/
theorem mkdir_below_root_not_passesOn :
    ¬ ∀ (path parent name : CString) (node : Unit) (operations : DirectoryOperations Unit)
      (mkdir : Unit → CString → UInt32 → Int) (mode : UInt32), strlen path < maxPathLen →
        NormalizesTo path.bytes (parent.bytes ++ slash :: name.bytes) → name.bytes ≠ [] →
        slash ∉ name.bytes → LooksUp oneDirectory parent node →
        oneDirectory.operations node = some operations → operations.mkdir = some mkdir →
        PassesOn oneDirectory path ⟨mkdir, node, name, mode⟩ := by
  intro always
  have short : strlen ⟨[47, 98], by decide⟩ < maxPathLen := by decide
  have split : normalizedBytes [47, 98] = CString.empty.bytes ++ slash :: nameB.bytes := rfl
  have normal : NormalizesTo [47, 98] (CString.empty.bytes ++ slash :: nameB.bytes) :=
    (normalizesTo_iff (by decide) (by decide) (lt_scanLimit (by decide))).mpr split
  have passes := always ⟨[47, 98], by decide⟩ CString.empty nameB () _ _ 0 short normal
    (by decide) (by decide) oneDirectory_looksUp_root rfl rfl
  exact passes.parent_ne_nil (lt_scanLimit short) split (by decide) (by decide)
    oneDirectory_looksUp_root rfl rfl rfl

end NansOS.Vfs
