import NansOS.Vfs.Descriptors
import NansOS.Vfs.MakeDirectory
import Mathlib.Data.List.Forall2

/-! Owns the interface of `fs.c` as a whole, over its own static variables: the
descriptor calls with the path lookup they make, the path functions, and
`vfsMount`, the only way in for a filesystem. No function assigns `root_node`,
and `vfsMount` has no filesystem to register. So the calls are closed over the
state that `vfs_init` leaves: each of them is refused, no driver's hook is
called, and no memory is written but the static buffer. It does not own paths of
`MAX_PATH_LEN` bytes or more, which overflow that buffer. -/

namespace NansOS.Vfs

open NansOS.Foundation
open NansOS.Kernel

/-! ### Data model -/

/-- `MAX_MOUNTS`. -/
abbrev maxMounts : Nat := 16

/-- `FS_FILE`. -/
abbrev fsFile : UInt32 := 0x01

/-- `FS_DIRECTORY`. -/
abbrev fsDirectory : UInt32 := 0x02

/-- The static buffer, and what stands behind a node: its contents and the hooks
of its filesystem, those of the descriptor calls and those of the path functions. -/
structure Environment (Node σ : Type) where
  normalized : Nat
  located : normalized ≠ 0
  node : σ → Node → FSNode
  operations : σ → Node → Option (FSOperations Node σ)
  directory : σ → Node → Option (DirectoryOperations Node)

/-- The static variables, apart from the buffer: `fd_table` with the state of the
drivers, the first `num_mounts` entries of `mount_points`, and `root_node`. -/
structure Statics (Node σ : Type) where
  table : State Node σ
  mountPoints : List MountPoint
  rootNode : Option Node

/-- The static variables behind `vfs_init`, which does not touch `num_mounts` and
`root_node`. -/
def Statics.initial {Node σ : Type} (drivers : σ) : Statics Node σ where
  table := vfsInit drivers
  mountPoints := []
  rootNode := none

/-- A path argument: the pointer, and the string it points to. -/
structure PathArgument where
  address : Nat
  text : CString

/-- A call of the interface. -/
inductive Request where
  | mount (path device fsType : CString)
  | openFile (path : PathArgument) (flags : UInt32)
  | close (fd : Int)
  | read (fd : Int) (size : UInt64)
  | write (fd : Int) (buffer : Memory) (size : UInt64)
  | seek (fd : Int) (offset : Int64) (whence : Int)
  | mkdir (path : PathArgument) (mode : UInt32)
  | exist (path : PathArgument)
  | isDirectory (path : PathArgument)
  | isFile (path : PathArgument)

/-- What a call returns, the bytes it puts in the caller's buffer, and the text
it prints. -/
structure Reply where
  result : Int
  delivered : List UInt8
  printed : List UInt8

/-- A call that returns an `int` and prints nothing. -/
def Reply.silent (result : Int) : Reply := ⟨result, [], []⟩

/-- The error exits of `vfs_mount`. -/
inductive MountError where
  | tooManyMounts
  | noFilesystem

/-- The text an error exit prints. -/
def MountError.message : MountError → List UInt8
  | .tooManyMounts => "[VFS] Error: Maximum number of mount points reached\n".toUTF8.toList
  | .noFilesystem => "[VFS] Error: Failed to initialize filesystem\n".toUTF8.toList

/-! ### The functions -/

section Functions

variable {Node σ : Type} (environment : Environment Node σ) (statics : Statics Node σ)

/-- What the path functions find. -/
def Environment.hierarchy : Hierarchy Node where
  normalized := environment.normalized
  located := environment.located
  mountPoints := statics.mountPoints
  rootNode := statics.rootNode
  operations := environment.directory statics.table.drivers

/-- The descriptor calls' view, with what `vfs_lookup` has returned. -/
def Environment.drivers (found : Option Node) : Drivers Node σ where
  lookup := fun drivers _ => (found, drivers)
  node := environment.node
  operations := environment.operations

/-- `vfs_mount`. The filesystem is `NULL`: nothing initializes one by its type. On
success the text printed is returned. -/
def vfsMount (path fsType : CString) : Except MountError (List UInt8) × Statics Node σ :=
  if statics.mountPoints.length ≥ maxMounts then (.error .tooManyMounts, statics)
  else
    let fs : UInt64 := 0
    if mounted : fs ≠ 0 then
      (.ok ("[VFS] Mounted ".toUTF8.toList ++ fsType.bytes ++ " at ".toUTF8.toList ++ path.bytes ++
        "\n".toUTF8.toList),
        { statics with mountPoints := statics.mountPoints ++ [⟨path, fs, mounted⟩] })
    else (.error .noFilesystem, statics)

/-- `vfs_lookup`, on the static variables. -/
def lookupAt (memory : Memory) (address : Nat) : Option (Except Fault (Option Node) × Memory) :=
  vfsLookup (environment.hierarchy statics) memory address

/-- `vfs_open`: the lookup, and the rest of the function on what it found. Only
the message of a failed lookup reads the path once more. -/
def openAt (memory : Memory) (address : Nat) (flags : UInt32) :
    Option (Except Fault (Except OpenError Int × State Node σ) × Memory) :=
  (lookupAt environment statics memory address).bind fun (found, memory) =>
    match found with
    | .error fault => some (.error fault, memory)
    | .ok none =>
        (stringAt memory address).map fun path =>
          (.ok (vfsOpen (environment.drivers none) statics.table path flags), memory)
    | .ok (some node) =>
        some (.ok (vfsOpen (environment.drivers (some node)) statics.table CString.empty flags),
          memory)

/-- `vfs_exists`, `vfs_is_directory` and `vfs_is_file`: the lookup, and a test of
the node it found. -/
def nodeTest (test : FSNode → Bool) (memory : Memory) (address : Nat) :
    Option (Except Fault Bool × Memory) :=
  (lookupAt environment statics memory address).map fun (found, memory) =>
    (found.map fun node =>
      node.any fun node => test (environment.node statics.table.drivers node), memory)

/-- `vfs_exists`. -/
def vfsExists : Memory → Nat → Option (Except Fault Bool × Memory) :=
  nodeTest environment statics fun _ => true

/-- `vfs_is_directory`. -/
def vfsIsDirectory : Memory → Nat → Option (Except Fault Bool × Memory) :=
  nodeTest environment statics fun node => node.flags &&& fsDirectory ≠ 0

/-- `vfs_is_file`. -/
def vfsIsFile : Memory → Nat → Option (Except Fault Bool × Memory) :=
  nodeTest environment statics fun node => node.flags &&& fsFile ≠ 0

/-- What a call of the interface returns, and the static variables and the memory
it leaves; `none` where it never returns. -/
def handle (memory : Memory) :
    Request → Option (Except Fault (Reply × Statics Node σ) × Memory)
  | .mount path _ fsType =>
      let (mounted, statics) := vfsMount statics path fsType
      let reply : Reply :=
        match mounted with
        | .ok text => ⟨0, [], text⟩
        | .error error => ⟨-1, [], error.message⟩
      some (.ok (reply, statics), memory)
  | .openFile path flags =>
      (openAt environment statics memory path.address flags).map fun (outcome, memory) =>
        (outcome.map fun (opened, table) =>
          (match opened with
            | .ok fd => Reply.silent fd
            | .error error => ⟨-1, [], error.message⟩, { statics with table := table }), memory)
  | .close fd =>
      let (result, table) := vfsClose (environment.drivers none) statics.table fd
      some (.ok (.silent result, { statics with table := table }), memory)
  | .read fd size =>
      let ((result, delivered), table) := vfsRead (environment.drivers none) statics.table fd size
      some (.ok (⟨result, delivered, []⟩, { statics with table := table }), memory)
  | .write fd buffer size =>
      let (result, table) := vfsWrite (environment.drivers none) statics.table fd buffer size
      some (.ok (.silent result, { statics with table := table }), memory)
  | .seek fd offset whence =>
      let (result, table) := vfsSeek (environment.drivers none) statics.table fd offset whence
      some (.ok (.silent result, { statics with table := table }), memory)
  | .mkdir path mode =>
      (vfsMkdir (environment.hierarchy statics) memory path.address mode).map
        fun (outcome, memory) => (outcome.map fun result => (.silent result, statics), memory)
  | .exist path =>
      (vfsExists environment statics memory path.address).map fun (outcome, memory) =>
        (outcome.map fun found => (.silent found.toInt, statics), memory)
  | .isDirectory path =>
      (vfsIsDirectory environment statics memory path.address).map fun (outcome, memory) =>
        (outcome.map fun found => (.silent found.toInt, statics), memory)
  | .isFile path =>
      (vfsIsFile environment statics memory path.address).map fun (outcome, memory) =>
        (outcome.map fun found => (.silent found.toInt, statics), memory)

/-- A call, in the memory that its caller has made. -/
structure Moment where
  memory : Memory
  request : Request

/-- The replies of a run of calls with the memory that each leaves, and the static
variables at the end; `none` where a call faults or never returns. -/
def conduct (statics : Statics Node σ) :
    List Moment → Option (List (Reply × Memory) × Statics Node σ)
  | [] => some ([], statics)
  | moment :: rest =>
      match handle environment statics moment.memory moment.request with
      | some (.ok (reply, next), after) =>
          (conduct next rest).map fun (exchanges, last) => ((reply, after) :: exchanges, last)
      | _ => none

end Functions

/-! ### What is asked of the callers -/

/-- The path is a string in memory that fits the buffer, and stands apart from it. -/
structure PathArgument.Proper (path : PathArgument) (normalized : Nat) (memory : Memory) :
    Prop where
  nonnull : path.address ≠ 0
  spells : Spells memory path.address path.text.bytes
  short : strlen path.text < maxPathLen
  apart : normalized + maxPathLen ≤ path.address ∨
    path.address + strlen path.text < normalized

/-- The paths of a call are proper. -/
def Moment.Proper (normalized : Nat) (moment : Moment) : Prop :=
  match moment.request with
  | .openFile path _ => path.Proper normalized moment.memory
  | .mkdir path _ => path.Proper normalized moment.memory
  | .exist path => path.Proper normalized moment.memory
  | .isDirectory path => path.Proper normalized moment.memory
  | .isFile path => path.Proper normalized moment.memory
  | .mount _ _ _ => True
  | .close _ => True
  | .read _ _ => True
  | .write _ _ _ => True
  | .seek _ _ _ => True

/-- How a call is refused. -/
def refusal : Request → Reply
  | .mount _ _ _ => ⟨-1, [], MountError.noFilesystem.message⟩
  | .openFile path _ => ⟨-1, [], (OpenError.fileNotFound path.text).message⟩
  | .close _ => .silent (-1)
  | .read _ _ => .silent (-1)
  | .write _ _ _ => .silent (-1)
  | .seek _ _ _ => .silent (-1)
  | .mkdir _ _ => .silent (-1)
  | .exist _ => .silent 0
  | .isDirectory _ => .silent 0
  | .isFile _ => .silent 0

/-! ### Looking up nothing -/

section Unmounted

variable {Node : Type} {hierarchy : Hierarchy Node} {memory : Memory} {address : Nat}
variable {path : CString}

/-- There is nothing to find: no mount point, and no root node. -/
structure Unmounted (hierarchy : Hierarchy Node) : Prop where
  mounts : hierarchy.mountPoints = []
  root : hierarchy.rootNode = none

theorem Unmounted.follow (unmounted : Unmounted hierarchy) (normPath : CString) :
    hierarchy.follow (resolve hierarchy.mountPoints normPath) = .ok none := by
  rw [unmounted.mounts, resolve]
  by_cases root : strcmp normPath rootPath = 0
  · rw [if_pos root, Hierarchy.follow, unmounted.root]
  · rw [if_neg root, findMount]
    rfl

variable (path) in
theorem Unmounted.lookup (unmounted : Unmounted hierarchy) (nonnull : address ≠ 0)
    (spells : Spells memory address path.bytes)
    (readFirst : ReadFirst hierarchy.normalized address path.bytes)
    (short : strlen path < maxPathLen) :
    ∃ after, vfsLookup hierarchy memory address = some (.ok none, after) ∧
      Set.EqOn after memory
        (Set.Ico hierarchy.normalized (hierarchy.normalized + maxPathLen))ᶜ := by
  have ⟨after, resolved, _, frame⟩ :=
    vfsResolve_spec hierarchy nonnull spells readFirst (lt_scanLimit short)
  refine ⟨after, ?_, frame.mono ?_⟩
  · rw [vfsLookup_of_resolve hierarchy nonnull resolved, unmounted.follow]
  · apply Set.compl_subset_compl.mpr
    apply Set.Ico_subset_Ico le_rfl
    have room : max 1 (strlen path) + 1 ≤ maxPathLen := by
      have one : 1 < maxPathLen := by decide
      omega
    omega

/-- `vfs_mkdir` calls no hook. The nested lookup stays in the buffer as well: what
it normalizes is what the first normalization has left there, cut at the last
separator. -/
theorem Unmounted.mkdirCall (unmounted : Unmounted hierarchy) (mode : UInt32)
    (nonnull : address ≠ 0) (spells : Spells memory address path.bytes)
    (readFirst : ReadFirst hierarchy.normalized address path.bytes)
    (short : strlen path < maxPathLen) :
    ∃ after, Vfs.mkdirCall hierarchy memory address mode = some (.ok none, after) ∧
      Set.EqOn after memory
        (Set.Ico hierarchy.normalized (hierarchy.normalized + maxPathLen))ᶜ := by
  have limit := lt_scanLimit short
  have ⟨normal, returned, written, ends, length, frame⟩ :=
    vfsNormalizePath_spec nonnull spells path.terminated readFirst limit
  have one : 1 < maxPathLen := by decide
  have fits : (normalizedBytes path.bytes).length < maxPathLen := by
    change strlen path < maxPathLen at short
    exact length.trans_lt (max_lt one short)
  have kept : Set.EqOn normal memory
      (Set.Ico hierarchy.normalized (hierarchy.normalized + maxPathLen))ᶜ := by
    apply frame.mono
    apply Set.compl_subset_compl.mpr
    apply Set.Ico_subset_Ico le_rfl
    have room : max 1 path.bytes.length + 1 ≤ maxPathLen := by
      change strlen path < maxPathLen at short
      unfold strlen at short
      omega
    omega
  have string : stringAt normal hierarchy.normalized = some ⟨_, ends⟩ :=
    stringAt_spells written (lt_scanLimit fits)
  rw [Vfs.mkdirCall, returned, Option.bind_some]
  dsimp only
  rw [if_neg hierarchy.located, string, Option.bind_some]
  cases found : strrchr ⟨normalizedBytes path.bytes, ends⟩ slash with
  | none => exact ⟨normal, rfl, kept⟩
  | some offset =>
      obtain ⟨parent, name, split, place⟩ := strrchr_split (by decide) found
      change normalizedBytes path.bytes = parent ++ slash :: name at split
      have inside : parent.length < maxPathLen := by
        rw [split, List.length_append] at fits
        omega
      have parentEnds : 0 ∉ parent := fun member => ends (by rw [split]; simp [member])
      have parentSpells : Spells (Function.update normal (hierarchy.normalized + offset) 0)
          hierarchy.normalized parent := by
        rw [← place]
        apply spells_terminated
        exact bytes_of_leading (spells_iff.mp written).1 ⟨_, split.symm⟩
      obtain ⟨after, looked, nested⟩ := unmounted.lookup ⟨parent, parentEnds⟩
        hierarchy.located parentSpells (.inl le_rfl) inside
      dsimp only
      rw [looked, Option.bind_some]
      refine ⟨after, rfl, ?_⟩
      intro cell outside
      have other : cell ≠ hierarchy.normalized + offset := by
        rintro rfl
        exact outside ⟨Nat.le_add_right _ _, by omega⟩
      rw [nested outside, Function.update_of_ne other, kept outside]

end Unmounted

/-! ### The interface is sealed -/

section Refused

variable {Node σ : Type} {environment : Environment Node σ} {drivers : σ} {memory : Memory}

theorem PathArgument.Proper.readFirst {path : PathArgument} {normalized : Nat}
    (proper : path.Proper normalized memory) :
    ReadFirst normalized path.address path.text.bytes := by
  cases proper.apart with
  | inl above => exact .inl (le_of_add_le_left above)
  | inr below => exact .inr below

variable (environment drivers) in
theorem unmounted_initial :
    Unmounted (environment.hierarchy (Statics.initial drivers)) := ⟨rfl, rfl⟩

variable (drivers) in
/-- A proper path is looked up in vain, and is left as it was. -/
theorem lookupAt_initial {path : PathArgument}
    (proper : path.Proper environment.normalized memory) :
    ∃ after, lookupAt environment (Statics.initial drivers) memory path.address =
        some (.ok none, after) ∧
      stringAt after path.address = some path.text ∧
      Set.EqOn after memory
        (Set.Ico environment.normalized (environment.normalized + maxPathLen))ᶜ := by
  have ⟨after, looked, frame⟩ := (unmounted_initial environment drivers).lookup path.text
    proper.nonnull proper.spells proper.readFirst proper.short
  refine ⟨after, looked, ?_, frame⟩
  apply stringAt_spells _ (lt_scanLimit proper.short)
  apply proper.spells.congr
  apply frame.mono
  intro cell inside within
  have apart := proper.apart
  have inside := Set.mem_Ico.mp inside
  have within : environment.normalized ≤ cell ∧ cell < environment.normalized + maxPathLen :=
    Set.mem_Ico.mp within
  unfold strlen at apart
  omega

/-- No descriptor is open. -/
theorem openSlot_initial (fd : Int) : (vfsInit drivers : State Node σ).openSlot fd = none := by
  rw [State.openSlot_eq_none_iff]
  exact fun _ _ => rfl

variable (drivers) in
/-- Every call is refused, and leaves everything as it was but the buffer. -/
theorem handle_initial (moment : Moment) (proper : moment.Proper environment.normalized) :
    ∃ after, handle environment (Statics.initial drivers) moment.memory moment.request =
        some (.ok (refusal moment.request, Statics.initial drivers), after) ∧
      Set.EqOn after moment.memory
        (Set.Ico environment.normalized (environment.normalized + maxPathLen))ᶜ := by
  obtain ⟨memory, request⟩ := moment
  have untouched := Set.eqOn_refl memory
    (Set.Ico environment.normalized (environment.normalized + maxPathLen))ᶜ
  cases request with
  | mount path device fsType => exact ⟨memory, rfl, untouched⟩
  | openFile path flags =>
      obtain ⟨after, looked, string, frame⟩ := lookupAt_initial drivers proper
      refine ⟨after, ?_, frame⟩
      rw [handle, openAt, looked, Option.bind_some]
      dsimp only
      rw [string]
      rfl
  | close fd =>
      refine ⟨memory, ?_, untouched⟩
      simp only [handle, Statics.initial, vfsClose, openSlot_initial]
      rfl
  | read fd size =>
      refine ⟨memory, ?_, untouched⟩
      simp only [handle, Statics.initial, vfsRead, openSlot_initial]
      rfl
  | write fd buffer size =>
      refine ⟨memory, ?_, untouched⟩
      simp only [handle, Statics.initial, vfsWrite, openSlot_initial]
      rfl
  | seek fd offset whence =>
      refine ⟨memory, ?_, untouched⟩
      simp only [handle, Statics.initial, vfsSeek, openSlot_initial]
      rfl
  | mkdir path mode =>
      obtain ⟨after, called, frame⟩ := (unmounted_initial environment drivers).mkdirCall mode
        proper.nonnull proper.spells proper.readFirst
        proper.short
      refine ⟨after, ?_, frame⟩
      rw [handle, vfsMkdir, called]
      rfl
  | exist path =>
      obtain ⟨after, looked, _, frame⟩ := lookupAt_initial drivers proper
      refine ⟨after, ?_, frame⟩
      rw [handle, vfsExists, nodeTest, looked]
      rfl
  | isDirectory path =>
      obtain ⟨after, looked, _, frame⟩ := lookupAt_initial drivers proper
      refine ⟨after, ?_, frame⟩
      rw [handle, vfsIsDirectory, nodeTest, looked]
      rfl
  | isFile path =>
      obtain ⟨after, looked, _, frame⟩ := lookupAt_initial drivers proper
      refine ⟨after, ?_, frame⟩
      rw [handle, vfsIsFile, nodeTest, looked]
      rfl

/-- Nothing gets into the file system: in every run from `vfs_init`, whatever
drivers there are, each call is refused without a hook being called, and writes to
the static buffer at most. -/
theorem interface_sealed (environment : Environment Node σ) (drivers : σ) (moments : List Moment)
    (proper : ∀ moment ∈ moments, moment.Proper environment.normalized) :
    ∃ exchanges, conduct environment (Statics.initial drivers) moments =
        some (exchanges, Statics.initial drivers) ∧
      List.Forall₂ (fun moment exchange =>
        exchange.1 = refusal moment.request ∧
          Set.EqOn exchange.2 moment.memory
            (Set.Ico environment.normalized (environment.normalized + maxPathLen))ᶜ)
        moments exchanges := by
  induction moments with
  | nil => exact ⟨[], rfl, .nil⟩
  | cons moment rest inductionHypothesis =>
      have ⟨after, handled, frame⟩ := handle_initial drivers moment
        (proper moment List.mem_cons_self)
      have ⟨exchanges, conducted, refused⟩ := inductionHypothesis fun other member =>
        proper other (List.mem_cons_of_mem _ member)
      refine ⟨(refusal moment.request, after) :: exchanges, ?_, .cons ⟨rfl, frame⟩ refused⟩
      rw [conduct, handled]
      dsimp only
      rw [conducted]
      rfl

end Refused

/-- A driver that would open, read and make anything. -/
def willingDriver : Environment Unit Nat where
  normalized := 4096
  located := by decide
  node := fun _ _ => ⟨CString.empty, fsFile ||| fsDirectory, 0, 0, 0, 0, 0, 0, 0, 0⟩
  operations := fun _ _ => some
    { readHook := some fun calls _ _ size => ((size.toNat, []), calls + 1)
      writeHook := some fun calls _ _ size _ => (size.toNat, calls + 1)
      openHook := none
      closeHook := none }
  directory := fun _ _ => some ⟨some fun _ _ => some (), some fun _ _ _ => 0⟩

/-- The path `/a`, at address 256. -/
def pathArgumentA : PathArgument := ⟨256, pathA⟩

/-- Memory that is zero but for the path. -/
def memoryWithPathA : Memory := fun address =>
  if address = 256 then 47 else if address = 257 then 97 else 0

/-- The calls that would mount a filesystem, make a file and read it. -/
def hopefulCalls : List Moment :=
  [.mount ⟨[47], by decide⟩ CString.empty ⟨[114, 97, 109], by decide⟩, .mkdir pathArgumentA 0,
    .openFile pathArgumentA 2, .write 0 memoryWithPathA 2, .seek 0 0 seekSet, .read 0 2,
    .exist pathArgumentA].map (Moment.mk memoryWithPathA)

theorem hopefulCalls_refused :
    ∃ exchanges, conduct willingDriver (Statics.initial 0) hopefulCalls =
        some (exchanges, Statics.initial 0) ∧
      List.Forall₂ (fun moment exchange =>
        exchange.1 = refusal moment.request ∧
          Set.EqOn exchange.2 moment.memory (Set.Ico 4096 (4096 + maxPathLen))ᶜ)
        hopefulCalls exchanges := by
  have proper : pathArgumentA.Proper 4096 memoryWithPathA :=
    ⟨by decide, ⟨rfl, rfl, rfl⟩, by decide, .inr (by decide)⟩
  apply interface_sealed willingDriver 0 hopefulCalls
  intro moment member
  simp only [hopefulCalls, List.map_cons, List.map_nil, List.mem_cons, List.not_mem_nil,
    or_false] at member
  rcases member with rfl | rfl | rfl | rfl | rfl | rfl | rfl
  · trivial
  · exact proper
  · exact proper
  · trivial
  · trivial
  · trivial
  · exact proper

end NansOS.Vfs
