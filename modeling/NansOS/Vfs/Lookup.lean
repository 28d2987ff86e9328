import NansOS.Vfs.Normalization

/-! Owns `vfs_lookup` of `fs.c`: the mount point it resolves a path against, and
the walk from the root node along the rest of the path. The mount that is chosen
is the first one registered that covers the path; a mount at `/` covers none.
The walk is the fold of `finddir` over the components that are left.

The filesystem of the chosen mount is only compared with `NULL`: every walk
starts at `root_node`. Hooks are functions of a node and a name; they do not
write to the static buffer. -/

namespace NansOS.Vfs

open NansOS.Foundation
open NansOS.Kernel

/-! ### Data model -/

/-- An entry of `mount_points`. `vfs_mount` registers no `NULL` filesystem. -/
structure MountPoint where
  path : CString
  fs : UInt64
  mounted : fs ≠ 0

/-- The hooks of `struct FSOperations` that the path functions consult, each
`none` where the pointer is `NULL`. -/
structure DirectoryOperations (Node : Type) where
  finddir : Option (Node → CString → Option Node)
  mkdir : Option (Node → CString → UInt32 → Int)

/-- What the path functions find: the static buffer of `vfs_normalize_path`, the
mount points in the order of their registration, the root node, and the
operations of a node's filesystem, `none` where `fs` or `fs->ops` is `NULL`. -/
structure Hierarchy (Node : Type) where
  normalized : Nat
  located : normalized ≠ 0
  mountPoints : List MountPoint
  rootNode : Option Node
  operations : Node → Option (DirectoryOperations Node)

/-- Undefined behaviour of a path function: it follows a `NULL` pointer, or
writes past the end of `component`. -/
inductive Fault where
  | nullPointer
  | pastComponent
deriving DecidableEq

/-- The path `/`. -/
def rootPath : CString := ⟨[slash], by decide⟩

/-! ### The function -/

/-- What `vfs_lookup` decides before it walks. -/
inductive Resolution where
  | root
  | noMount
  | relative (mount : MountPoint) (relPath : List UInt8)

/-- The search for a mount point: the entry, and `rel_path`. -/
def findMount (normPath : CString) : List MountPoint → Option (MountPoint × List UInt8)
  | [] => none
  | mount :: rest =>
      let mlen := strlen mount.path
      if strncmp normPath mount.path mlen = 0 ∧ endsComponent (normPath.bytes.getD mlen 0) then
        some (mount, (normPath.bytes.drop mlen).dropWhile fun byte => decide (byte = slash))
      else findMount normPath rest

/-- The part of `vfs_lookup` that follows the normalization. -/
def resolve (mounts : List MountPoint) (normPath : CString) : Resolution :=
  if strcmp normPath rootPath = 0 then .root
  else
    match findMount normPath mounts with
    | none => .noMount
    | some (mount, relPath) => .relative mount relPath

/-- The loop of `vfs_lookup` that walks along `rel_path`. -/
def walk {Node : Type} (operations : Node → Option (DirectoryOperations Node))
    (node : Option Node) (relPath : List UInt8) : Except Fault (Option Node) :=
  if _ : relPath ≠ [] then
    let component := leading slash relPath
    if component.length < maxPathLen then
      match node with
      | none => .error .nullPointer
      | some node =>
          match operations node with
          | none => .error .nullPointer
          | some ops =>
              match ops.finddir with
              | none => .ok none
              | some finddir =>
                  match finddir node (CString.ofBytes component) with
                  | none => .ok none
                  | some child => walk operations (some child) (pastSeparators slash relPath)
    else .error .pastComponent
  else .ok node
termination_by relPath.length
decreasing_by exact length_pastSeparators_lt ‹_›

section Lookup

variable {Node : Type} (hierarchy : Hierarchy Node)

/-- The node of a resolved path. -/
def Hierarchy.follow : Resolution → Except Fault (Option Node)
  | .root => .ok hierarchy.rootNode
  | .noMount => .ok none
  | .relative _ relPath => walk hierarchy.operations hierarchy.rootNode relPath

/-- The normalization in `vfs_lookup` and the resolution of its result. -/
def vfsResolve (memory : Memory) (path : Nat) : Option (Resolution × Memory) :=
  (vfsNormalizePath memory hierarchy.normalized path).bind fun (normPath, memory) =>
    (stringAt memory normPath).map fun string =>
      (resolve hierarchy.mountPoints string, memory)

/-- `vfs_lookup`: the node or `NULL`, and the memory it leaves. -/
def vfsLookup (memory : Memory) (path : Nat) : Option (Except Fault (Option Node) × Memory) :=
  if path = 0 then some (.ok none, memory)
  else
    (vfsResolve hierarchy memory path).map fun (resolution, memory) =>
      (hierarchy.follow resolution, memory)

end Lookup

/-! ### Resolving -/

theorem vfsResolve_spec {Node : Type} (hierarchy : Hierarchy Node) {memory : Memory}
    {address : Nat} {path : CString} (nonnull : address ≠ 0)
    (spells : Spells memory address path.bytes)
    (readFirst : ReadFirst hierarchy.normalized address path.bytes)
    (short : strlen path < scanLimit) :
    ∃ after, vfsResolve hierarchy memory address =
        some (resolve hierarchy.mountPoints (CString.ofBytes (normalizedBytes path.bytes)), after) ∧
      Spells after hierarchy.normalized (normalizedBytes path.bytes) ∧
      Set.EqOn after memory (Set.Ico hierarchy.normalized
        (hierarchy.normalized + max 1 (strlen path) + 1))ᶜ := by
  obtain ⟨after, returned, written, ends, length, frame⟩ :=
    vfsNormalizePath_spec nonnull spells path.terminated readFirst short
  refine ⟨after, ?_, written, frame⟩
  have limit : 1 < scanLimit := by
    unfold scanLimit
    omega
  have found : stringAt after hierarchy.normalized =
      some (CString.ofBytes (normalizedBytes path.bytes)) := by
    have whole := CString.ofBytes_bytes ⟨normalizedBytes path.bytes, ends⟩
    rw [whole]
    exact stringAt_spells written (length.trans_lt (max_lt limit short))
  rw [vfsResolve, returned, Option.bind_some]
  dsimp only
  rw [found, Option.map_some]

theorem vfsLookup_of_resolve {Node : Type} (hierarchy : Hierarchy Node) {memory after : Memory}
    {address : Nat} {resolution : Resolution} (nonnull : address ≠ 0)
    (resolved : vfsResolve hierarchy memory address = some (resolution, after)) :
    vfsLookup hierarchy memory address = some (hierarchy.follow resolution, after) := by
  rw [vfsLookup, if_neg nonnull, resolved, Option.map_some]

/-! ### The mount point that is chosen -/

/-- A path in normal form. -/
def NormalPath (path : CString) : Prop :=
  ∃ names, Names names ∧ path.bytes = render names

theorem NormalPath.names {path : CString} (normal : NormalPath path) :
    Names (components slash path.bytes) ∧ path.bytes = render (components slash path.bytes) := by
  obtain ⟨names, named, shape⟩ := normal
  rw [shape, components_render named.proper]
  exact ⟨named, rfl⟩

instance (path : CString) : Decidable (NormalPath path) :=
  decidable_of_iff
    (Names (components slash path.bytes) ∧ path.bytes = render (components slash path.bytes))
    ⟨fun ⟨named, shape⟩ => ⟨_, named, shape⟩, NormalPath.names⟩

/-- The names of the path of a mount point. -/
def MountPoint.names (mount : MountPoint) : List (List UInt8) :=
  components slash mount.path.bytes

/-- The mount point covers the path of these names, and is not the one at `/`. -/
def Covers (names : List (List UInt8)) (mount : MountPoint) : Prop :=
  mount.names ≠ [] ∧ mount.names <+: names

instance (names : List (List UInt8)) : DecidablePred (Covers names) := fun mount =>
  inferInstanceAs (Decidable (mount.names ≠ [] ∧ mount.names <+: names))

/-- The test of the search, on normal forms. The mount point at `/` always fails
it, since the byte behind its `/` starts a name. -/
theorem matches_iff {path mount : CString} {names prefixNames : List (List UInt8)}
    (shape : path.bytes = render names) (named : Names names) (nonempty : names ≠ [])
    (mountShape : mount.bytes = render prefixNames) (mountNamed : Names prefixNames) :
    strncmp path mount (strlen mount) = 0 ∧ endsComponent (path.bytes.getD (strlen mount) 0) ↔
      prefixNames ≠ [] ∧ prefixNames <+: names := by
  rw [strncmp_eq_zero_iff, strlen, shape, mountShape, render, render, List.cons_prefix_cons,
    List.length_cons, List.getD_cons_succ]
  have ends : 0 ∉ joined slash names := fun member =>
    path.terminated (by rw [shape]; exact List.mem_cons_of_mem _ member)
  by_cases root : prefixNames = []
  · subst root
    have head := joined_head named.proper
    have filled := mt (joined_eq_nil_iff named.proper).mp nonempty
    obtain ⟨byte, rest, more⟩ := List.exists_cons_of_ne_nil filled
    rw [more] at head ends ⊢
    have other : byte ≠ slash := by simpa using head
    have nonzero : byte ≠ 0 := fun zero => ends (by simp [zero])
    simp [endsComponent, other, nonzero]
  · rw [prefix_iff mountNamed.proper named.proper root]
    simp only [true_and, ne_eq, root, not_false_eq_true]
    constructor
    · rintro ⟨⟨rest, whole⟩, ended⟩
      refine ⟨rest, whole.symm, ?_⟩
      rw [← whole] at ended ends
      cases rest with
      | nil => exact .inl rfl
      | cons byte rest =>
          have nonzero : byte ≠ 0 := fun zero => ends (by simp [zero])
          right
          simpa [endsComponent, nonzero] using ended
    · rintro ⟨rest, whole, ended⟩
      refine ⟨⟨rest, whole.symm⟩, ?_⟩
      rw [whole]
      rcases ended with rfl | starts
      · simp [endsComponent]
      · obtain ⟨tail, rfl⟩ := List.head?_eq_some_iff.mp starts
        simp [endsComponent]

/-- What is left of a normal form behind leading names. -/
theorem relPath_eq {names prefixNames : List (List UInt8)} (proper : Proper slash names)
    (nonempty : prefixNames ≠ []) (leads : prefixNames <+: names) :
    ((render names).drop (render prefixNames).length).dropWhile
        (fun byte => decide (byte = slash)) =
      joined slash (names.drop prefixNames.length) := by
  obtain ⟨rest, rfl⟩ := leads
  rw [List.drop_left, render, render, List.length_cons, List.drop_succ_cons]
  by_cases last : rest = []
  · subst last
    simp
  · have restProper : Proper slash rest := fun name member => proper name (by simp [member])
    have head := joined_head restProper
    rw [joined_append nonempty last, List.drop_left, List.dropWhile_cons_of_pos (by simp)]
    generalize joined slash rest = text at head
    cases text with
    | nil => rfl
    | cons byte others =>
        exact List.dropWhile_cons_of_neg (by simpa using head)

/-- The search finds the first mount point that covers the path. -/
theorem findMount_eq {path : CString} {names : List (List UInt8)}
    (shape : path.bytes = render names) (named : Names names) (nonempty : names ≠ [])
    {mounts : List MountPoint} (normal : ∀ mount ∈ mounts, NormalPath mount.path) :
    findMount path mounts = (mounts.find? fun mount => decide (Covers names mount)).map
      fun mount => (mount, joined slash (names.drop mount.names.length)) := by
  induction mounts with
  | nil => rfl
  | cons mount rest inductionHypothesis =>
      obtain ⟨mountNamed, mountShape⟩ := (normal mount List.mem_cons_self).names
      have whole : mount.path.bytes = render mount.names := mountShape
      have tested := matches_iff shape named nonempty mountShape mountNamed
      by_cases covers : Covers names mount
      · rw [findMount]
        rw [if_pos (tested.mpr covers), List.find?_cons_of_pos (by simpa using covers),
          Option.map_some, strlen, shape, whole, relPath_eq named.proper covers.1 covers.2]
      · rw [findMount]
        rw [if_neg (mt tested.mp covers), List.find?_cons_of_neg (by simpa using covers)]
        exact inductionHypothesis fun other member => normal other (by simp [member])

/-- The path is resolved against a mount point whose path is the longest of those
that lead it, or there is none. -/
def ResolvedLongest (mounts : List MountPoint) (names : List (List UInt8)) : Resolution → Prop
  | .root => False
  | .noMount => ∀ mount ∈ mounts, ¬ mount.names <+: names
  | .relative mount relPath =>
      mount ∈ mounts ∧ mount.names <+: names ∧
        (∀ other ∈ mounts, other.names <+: names → other.names.length ≤ mount.names.length) ∧
        relPath = joined slash (names.drop mount.names.length)

/-- No mount point that covers the path has a longer path than the one among them
that was registered first, and one at `/` is there only beside these. -/
def LongestFirst (mounts : List MountPoint) (names : List (List UInt8)) : Prop :=
  ((∃ mount ∈ mounts, mount.names = []) → ∃ mount ∈ mounts, Covers names mount) ∧
    ∀ first ∈ (mounts.filter fun mount => decide (Covers names mount)).head?,
      ∀ other ∈ mounts, Covers names other → other.names.length ≤ first.names.length

instance (mounts : List MountPoint) (names : List (List UInt8)) :
    Decidable (LongestFirst mounts names) :=
  inferInstanceAs (Decidable (_ ∧ _))

theorem resolvedLongest_iff {path : CString} {names : List (List UInt8)}
    (shape : path.bytes = render names) (named : Names names) (nonempty : names ≠ [])
    {mounts : List MountPoint} (normal : ∀ mount ∈ mounts, NormalPath mount.path) :
    ResolvedLongest mounts names (resolve mounts path) ↔ LongestFirst mounts names := by
  have notRoot : strcmp path rootPath ≠ 0 := by
    rw [ne_eq, strcmp_eq_zero_iff]
    rintro rfl
    have tail : joined slash names = [] := (List.cons.inj shape).2.symm
    exact nonempty ((joined_eq_nil_iff named.proper).mp tail)
  rw [resolve, if_neg notRoot, findMount_eq shape named nonempty normal, LongestFirst,
    List.head?_filter]
  cases found : mounts.find? fun mount => decide (Covers names mount) with
  | none =>
      have uncovered : ∀ mount ∈ mounts, ¬ Covers names mount := by
        simpa using List.find?_eq_none.mp found
      simp only [Option.map_none, ResolvedLongest, Option.not_mem_none, false_implies,
        implies_true, and_true]
      constructor
      · rintro none ⟨mount, member, root⟩
        exact absurd (root ▸ List.nil_prefix) (none mount member)
      · intro covered mount member leads
        by_cases root : mount.names = []
        · obtain ⟨other, listed, covers⟩ := covered ⟨mount, member, root⟩
          exact uncovered other listed covers
        · exact uncovered mount member ⟨root, leads⟩
  | some first =>
      have member := List.mem_of_find?_eq_some found
      have covers : Covers names first := by
        simpa using List.find?_some found
      simp only [Option.map_some, ResolvedLongest, Option.mem_some_iff, forall_eq']
      constructor
      · rintro ⟨_, _, longest, _⟩
        exact ⟨fun _ => ⟨first, member, covers⟩, fun other listed covered =>
          longest other listed covered.2⟩
      · rintro ⟨_, longest⟩
        refine ⟨member, covers.2, fun other listed leads => ?_, trivial⟩
        by_cases root : other.names = []
        · simp [root]
        · exact longest other listed ⟨root, leads⟩

/-- `vfs_lookup` resolves the path against the mount point whose path is its
longest prefix, wherever it finds the path. -/
def LooksUpLongest {Node : Type} (hierarchy : Hierarchy Node) (path : CString) : Prop :=
  ∀ memory address, address ≠ 0 → Spells memory address path.bytes →
    ReadFirst hierarchy.normalized address path.bytes →
      ∃ resolution after,
        vfsLookup hierarchy memory address = some (hierarchy.follow resolution, after) ∧
        vfsResolve hierarchy memory address = some (resolution, after) ∧
        ResolvedLongest hierarchy.mountPoints (components slash path.bytes) resolution

theorem NormalPath.settled {path : CString} (normal : NormalPath path) :
    CString.ofBytes (normalizedBytes path.bytes) = path := by
  obtain ⟨named, shape⟩ := normal.names
  rw [shape, normalizedBytes_render named, ← shape, CString.ofBytes_bytes]

theorem NormalPath.components_ne_nil {path : CString} (normal : NormalPath path)
    (below : path ≠ rootPath) : components slash path.bytes ≠ [] := by
  intro empty
  have shape := normal.names.2
  rw [empty] at shape
  exact below (CString.mk.injEq .. ▸ shape)

section LooksUpLongest

variable {Node : Type} {hierarchy : Hierarchy Node} {path : CString}
variable (normal : NormalPath path) (below : path ≠ rootPath) (short : strlen path < scanLimit)
variable (mounts : ∀ mount ∈ hierarchy.mountPoints, NormalPath mount.path)

include normal below short mounts

theorem LooksUpLongest.longestFirst (looksUp : LooksUpLongest hierarchy path) :
    LongestFirst hierarchy.mountPoints (components slash path.bytes) := by
  obtain ⟨named, shape⟩ := normal.names
  rw [← resolvedLongest_iff shape named (normal.components_ne_nil below) mounts]
  -- Any memory that holds the path will do.
  obtain ⟨memory, spells⟩ := exists_spells hierarchy.normalized path.bytes
  obtain ⟨resolution, after, _, resolved, longest⟩ :=
    looksUp _ _ hierarchy.located spells (.inl le_rfl)
  obtain ⟨other, same, _⟩ :=
    vfsResolve_spec hierarchy hierarchy.located spells (.inl le_rfl) short
  rw [resolved, normal.settled] at same
  rwa [(Prod.mk.inj (Option.some.inj same)).1] at longest

theorem LongestFirst.looksUpLongest
    (first : LongestFirst hierarchy.mountPoints (components slash path.bytes)) :
    LooksUpLongest hierarchy path := by
  obtain ⟨named, shape⟩ := normal.names
  rw [← resolvedLongest_iff shape named (normal.components_ne_nil below) mounts] at first
  intro memory address nonnull spells readFirst
  obtain ⟨after, resolved, _⟩ := vfsResolve_spec hierarchy nonnull spells readFirst short
  rw [normal.settled] at resolved
  exact ⟨_, after, vfsLookup_of_resolve hierarchy nonnull resolved, resolved, first⟩

end LooksUpLongest

/-- For every mount table of normal paths and every normal path but `/`. -/
theorem looksUpLongest_iff {Node : Type} (hierarchy : Hierarchy Node) (path : CString)
    (normal : NormalPath path) (below : path ≠ rootPath) (short : strlen path < scanLimit)
    (mounts : ∀ mount ∈ hierarchy.mountPoints, NormalPath mount.path) :
    LooksUpLongest hierarchy path ↔
      LongestFirst hierarchy.mountPoints (components slash path.bytes) :=
  ⟨LooksUpLongest.longestFirst normal below short mounts,
    LongestFirst.looksUpLongest normal below short mounts⟩

/-- Mount points at these paths, under a root node that has no filesystem. -/
def mountedAt (paths : List CString) : Hierarchy Unit where
  normalized := 1
  located := one_ne_zero
  mountPoints := paths.map fun path => ⟨path, 1, by decide⟩
  rootNode := some ()
  operations := fun _ => none

/-- The path `/a`. -/
def pathA : CString := ⟨[47, 97], by decide⟩

/-- The path `/a/b`. -/
def pathAB : CString := ⟨[47, 97, 47, 98], by decide⟩

/-- The path `/a/b/c`. -/
def pathABC : CString := ⟨[47, 97, 47, 98, 47, 99], by decide⟩

theorem innerFirst_looksUpLongest : LooksUpLongest (mountedAt [pathAB, pathA]) pathABC :=
  (looksUpLongest_iff (mountedAt [pathAB, pathA]) pathABC (by decide) (by decide)
    (lt_scanLimit (by decide)) (by decide)).mpr (by decide)

/-- Of the mount points `/a` and `/a/b`, registered in this order, the first is
chosen for `/a/b/c`; and a mount point at `/` is not found for `/a`. -/
theorem outerFirst_not_looksUpLongest :
    ¬ LooksUpLongest (mountedAt [pathA, pathAB]) pathABC ∧
      ¬ LooksUpLongest (mountedAt [rootPath]) pathA := by
  constructor
  · intro looksUp
    have longest := looksUp.longestFirst (by decide) (by decide) (lt_scanLimit (by decide))
      (by decide)
    exact absurd longest (by decide)
  · intro looksUp
    have longest := looksUp.longestFirst (by decide) (by decide) (lt_scanLimit (by decide))
      (by decide)
    exact absurd longest (by decide)

/-! ### The walk -/

section Walk

variable {Node : Type} (operations : Node → Option (DirectoryOperations Node))

/-- The child of a node: none where the filesystem has no `finddir`, or `finddir`
returns none. -/
def findChild (node : Node) (name : List UInt8) : Option Node :=
  (operations node).bind fun ops =>
    ops.finddir.bind fun finddir => finddir node (CString.ofBytes name)

theorem walk_components (every : ∀ node, (operations node).isSome) (node : Node)
    (text : List UInt8) (starts : text.head? ≠ some slash) (short : text.length < maxPathLen) :
    walk operations (some node) text =
      .ok ((components slash text).foldlM (findChild operations) node) := by
  induction length : text.length using Nat.strong_induction_on generalizing text node with
  | _ count inductionHypothesis =>
      rw [walk]
      by_cases ended : text = []
      · subst ended
        simp
      · have whole := congrArg List.length (leading_append_following slash text)
        rw [List.length_append] at whole
        have fewer : (pastSeparators slash text).length < text.length :=
          length_pastSeparators_lt ended
        have fits : (leading slash text).length < maxPathLen := by omega
        obtain ⟨ops, hooks⟩ := Option.isSome_iff_exists.mp (every node)
        have child : findChild operations node (leading slash text) =
            ops.finddir.bind fun finddir =>
              finddir node (CString.ofBytes (leading slash text)) := by
          rw [findChild, hooks, Option.bind_some]
        rw [dif_pos ended, if_pos fits, components_leading ended starts,
          ← components_pastSeparators, List.foldlM_cons, child]
        dsimp only
        rw [hooks]
        dsimp only
        cases ops.finddir with
        | none => rfl
        | some finddir =>
            rw [Option.bind_some]
            dsimp only
            cases finddir node (CString.ofBytes (leading slash text)) with
            | none => rfl
            | some child =>
                exact inductionHypothesis _ (length ▸ fewer) child _
                  (pastSeparators_head slash text) (fewer.trans short) rfl

/-- The loop of `vfs_lookup` folds `finddir` over the components of `rel_path`. -/
theorem walk_eq_foldlM (every : ∀ node, (operations node).isSome) (rootNode : Node)
    (relPath : CString) (starts : relPath.bytes.head? ≠ some slash)
    (short : strlen relPath < maxPathLen) :
    walk operations (some rootNode) relPath.bytes =
      .ok ((components slash relPath.bytes).foldlM (findChild operations) rootNode) :=
  walk_components operations every rootNode relPath.bytes starts short

end Walk

/-- Directories that hold one entry, `a`, each one deeper than the last. -/
def nested : Nat → Option (DirectoryOperations Nat) := fun _ =>
  some ⟨some fun node name => if name.bytes = [97] then some (node + 1) else none, none⟩

/-- The walk along `a//a/`. -/
theorem walk_nested : walk nested (some 0) [97, 47, 47, 97, 47] = .ok (some 2) :=
  (walk_eq_foldlM nested (fun _ => rfl) 0 ⟨[97, 47, 47, 97, 47], by decide⟩ (by decide)
    (by decide)).trans rfl

end NansOS.Vfs
