import NansOS.Vfs.Descriptors

/-! Owns what the five calls do to the descriptor table: when `vfsOpen` returns
the slot it filled, and, for drivers without an open hook, what the table holds
after any run from `vfsInit`. The history of a run is the list of its calls
with their results; the abstract descriptor table is read off it. -/

namespace NansOS.Vfs

open NansOS.Foundation
open NansOS.Kernel

variable {Node σ : Type} {environment : Drivers Node σ} {vfs : State Node σ}

/-! ### Opening -/

/-- A result of `vfs_open` that is not negative is a slot that was free and now
holds the node that was looked up; a negative one leaves the table as it was. -/
def OpenReturnsSlot (environment : Drivers Node σ) (vfs : State Node σ) (path : CString)
    (flags : UInt32) : Prop :=
  let result := returned (vfsOpen environment vfs path flags).1
  let after := (vfsOpen environment vfs path flags).2
  (0 ≤ result → ∃ (index : Fin maxFd) (node : Node), result = index.val ∧
    (environment.lookup vfs.drivers path).1 = some node ∧
    (vfs.fdTable index).node = none ∧
    after.fdTable index = { node := some node, offset := 0, flags := flags, refcount := 1 } ∧
    ∀ other ≠ index, after.fdTable other = vfs.fdTable other) ∧
  (result < 0 → after.fdTable = vfs.fdTable)

/-- If the lookup succeeds, a slot is free and the filesystem has an open hook,
then the hook returns the number of the lowest free slot. -/
def HookReturnsSlot (environment : Drivers Node σ) (vfs : State Node σ) (path : CString)
    (flags : UInt32) : Prop :=
  let drivers := (environment.lookup vfs.drivers path).2
  ∀ node, (environment.lookup vfs.drivers path).1 = some node →
    ∀ hook, (environment.operations drivers node).bind FSOperations.openHook = some hook →
      ∀ index, vfs.findFreeFd = some index → (hook drivers node flags).1 = index.val

section Open

variable {path : CString} {flags : UInt32} {node : Node} {drivers : σ} {index : Fin maxFd}

theorem vfsOpen_missing (missing : environment.lookup vfs.drivers path = (none, drivers)) :
    vfsOpen environment vfs path flags =
      (.error (.fileNotFound path), { vfs with drivers := drivers }) := by
  simp only [vfsOpen, missing]

theorem vfsOpen_full (found : environment.lookup vfs.drivers path = (some node, drivers))
    (full : vfs.findFreeFd = none) :
    vfsOpen environment vfs path flags =
      (.error .noFreeDescriptors, { vfs with drivers := drivers }) := by
  have same : State.findFreeFd { vfs with drivers := drivers } = none := full
  simp only [vfsOpen, found, same]

/-- The table after a slot has been filled. -/
def filled (vfs : State Node σ) (index : Fin maxFd) (node : Node) (flags : UInt32) :
    Fin maxFd → FileDescriptor Node :=
  Function.update vfs.fdTable index
    { node := some node, offset := 0, flags := flags, refcount := 1 }

theorem vfsOpen_plain (found : environment.lookup vfs.drivers path = (some node, drivers))
    (free : vfs.findFreeFd = some index)
    (plain : (environment.operations drivers node).bind FSOperations.openHook = none) :
    vfsOpen environment vfs path flags =
      (.ok index.val, { fdTable := filled vfs index node flags, drivers := drivers }) := by
  have same : State.findFreeFd { vfs with drivers := drivers } = some index := free
  simp only [vfsOpen, found, same, plain]
  rfl

theorem vfsOpen_hooked {hook : σ → Node → UInt32 → Int × σ}
    (found : environment.lookup vfs.drivers path = (some node, drivers))
    (free : vfs.findFreeFd = some index)
    (hooked : (environment.operations drivers node).bind FSOperations.openHook = some hook) :
    vfsOpen environment vfs path flags =
      (.ok (hook drivers node flags).1,
        { fdTable := filled vfs index node flags
          drivers := (hook drivers node flags).2 }) := by
  have same : State.findFreeFd { vfs with drivers := drivers } = some index := free
  simp only [vfsOpen, found, same, hooked]
  rfl

/-- Filling a free slot changes the table at that slot and nowhere else. -/
theorem filled_eq_iff (free : vfs.findFreeFd = some index) {other : Fin maxFd} :
    filled vfs index node flags other = vfs.fdTable other ↔ other ≠ index := by
  constructor
  · rintro same rfl
    have unheld := (State.findFreeFd_eq_some_iff.mp free).1
    rw [← same, filled, Function.update_self] at unheld
    cases unheld
  · intro different
    exact Function.update_of_ne different _ _

theorem open_returns_slot_of {result : Int} (free : vfs.findFreeFd = some index)
    (found : environment.lookup vfs.drivers path = (some node, drivers)) {changed : σ}
    (opened : vfsOpen environment vfs path flags =
      (.ok result, { fdTable := filled vfs index node flags, drivers := changed })) :
    OpenReturnsSlot environment vfs path flags ↔ result = index.val := by
  simp only [OpenReturnsSlot, opened, found, returned]
  constructor
  · rintro ⟨success, failure⟩
    by_cases negative : result < 0
    · -- A failed open has filled the slot.
      have same := congrFun (failure negative) index
      exact absurd rfl ((filled_eq_iff free).mp same)
    · obtain ⟨slot, held, equal, _, _, _, others⟩ := success (by omega)
      by_contra different
      have elsewhere : index ≠ slot := by
        rintro rfl
        exact different equal
      exact absurd rfl ((filled_eq_iff free).mp (others index elsewhere))
  · rintro rfl
    refine ⟨fun _ => ?_, fun negative => by omega⟩
    refine ⟨index, node, rfl, rfl, (State.findFreeFd_eq_some_iff.mp free).1, ?_, ?_⟩
    · simp [filled]
    · exact fun other different => (filled_eq_iff free).mpr different

end Open

/-- `vfs_open` returns the slot it filled exactly when an open hook that is
consulted returns that slot's number. -/
theorem open_returns_slot_iff (environment : Drivers Node σ) (vfs : State Node σ)
    (path : CString) (flags : UInt32) :
    OpenReturnsSlot environment vfs path flags ↔
      HookReturnsSlot environment vfs path flags := by
  obtain ⟨found, drivers, lookup⟩ : ∃ found drivers,
      environment.lookup vfs.drivers path = (found, drivers) := ⟨_, _, rfl⟩
  cases found with
  | none =>
      simp [OpenReturnsSlot, HookReturnsSlot, vfsOpen_missing lookup, lookup, returned]
  | some node =>
      cases free : vfs.findFreeFd with
      | none =>
          simp [OpenReturnsSlot, HookReturnsSlot, vfsOpen_full lookup free, free, returned]
      | some index =>
          cases hooked : (environment.operations drivers node).bind FSOperations.openHook with
          | none =>
              rw [open_returns_slot_of free lookup (vfsOpen_plain lookup free hooked)]
              simp [HookReturnsSlot, lookup, hooked]
          | some hook =>
              rw [open_returns_slot_of free lookup (vfsOpen_hooked lookup free hooked)]
              simp [HookReturnsSlot, lookup, hooked, free]

/-- A driver whose open hook returns zero for success. -/
def zeroHookDrivers : Drivers Unit Unit where
  lookup := fun drivers _ => (some (), drivers)
  node := fun _ _ => ⟨CString.empty, 0, 0, 0, 0, 0, 0, 0, 0, 0⟩
  operations := fun _ _ => some
    { readHook := none
      writeHook := none
      openHook := some fun drivers _ _ => (0, drivers)
      closeHook := none }

/-- With descriptor 0 open, the second open fills slot 1 and returns 0. -/
theorem second_open_returns_zero :
    ¬ OpenReturnsSlot zeroHookDrivers
      (vfsOpen zeroHookDrivers (vfsInit ()) CString.empty 0).2 CString.empty 0 := by
  rw [open_returns_slot_of (show State.findFreeFd _ = some 1 by decide +kernel) rfl rfl]
  decide

/-! ### Whole runs -/

/-- The calls of a run with their results. -/
def history (environment : Drivers Node σ) (vfs : State Node σ) : List Call → List (Call × Int)
  | [] => []
  | next :: rest =>
      (next, (call environment vfs next).1) ::
        history environment (call environment vfs next).2 rest

/-- The table after a call. -/
def after (environment : Drivers Node σ) (vfs : State Node σ) (next : Call) : State Node σ :=
  (call environment vfs next).2

/-- What a history says about one open descriptor: the target of its last
successful seek, zero if there was none since it was opened, and the sum of the
positive counts returned to it since. -/
structure Ledger where
  target : Int
  moved : Int

/-- The ledger of descriptor `fd` after one more call. -/
def Ledger.record (fd : Fin maxFd) (ledger : Option Ledger) : Call × Int → Option Ledger
  | (.openFile _ _, result) => if result = fd.val then some ⟨0, 0⟩ else ledger
  | (.close other, result) => if other = fd.val ∧ result = 0 then none else ledger
  | (.read other _, result) | (.write other _ _, result) =>
      if other = fd.val ∧ 0 < result then
        ledger.map fun entry => { entry with moved := entry.moved + result }
      else ledger
  | (.seek other _ _, result) =>
      if other = fd.val ∧ 0 ≤ result then ledger.map fun _ => ⟨result, 0⟩ else ledger

/-- The ledger of a descriptor after a history, `none` while it is closed. -/
def ledger (past : List (Call × Int)) (fd : Fin maxFd) : Option Ledger :=
  past.foldl (Ledger.record fd) none

/-- The descriptor is open after a history. -/
def IsOpen (past : List (Call × Int)) (fd : Fin maxFd) : Prop := (ledger past fd).isSome

/-- The descriptor a call works on; for an open, the one it returned. -/
def Call.descriptor (result : Int) : Call → Int
  | .openFile _ _ => result
  | .close fd | .read fd _ | .write fd _ _ | .seek fd _ _ => fd

/-- The call is on a descriptor that the caller names. -/
def Call.OnDescriptor : Call → Prop
  | .openFile _ _ => False
  | _ => True

/-- What the descriptor table promises after a history, for the state reached
and for any next call. -/
structure Promises (environment : Drivers Node σ) (past : List (Call × Int))
    (vfs : State Node σ) : Prop where
  offsets : ∀ fd entry, ledger past fd = some entry →
    (vfs.fdTable fd).offset = UInt64.ofInt (entry.target + entry.moved)
  opensLowest : ∀ path flags, 0 ≤ (call environment vfs (.openFile path flags)).1 →
    ∃ fd : Fin maxFd, (call environment vfs (.openFile path flags)).1 = fd.val ∧
      ¬ IsOpen past fd ∧ ∀ lower < fd, IsOpen past lower
  opensFail : ∀ path flags, (call environment vfs (.openFile path flags)).1 < 0 ↔
    (environment.lookup vfs.drivers path).1 = none ∨ ∀ fd, IsOpen past fd
  frame : ∀ (next : Call) (fd : Fin maxFd),
    next.descriptor (call environment vfs next).1 ≠ fd.val →
      (call environment vfs next).2.fdTable fd = vfs.fdTable fd
  refused : ∀ next : Call, next.OnDescriptor →
    (∀ fd : Fin maxFd, next.descriptor (-1) = fd.val → ¬ IsOpen past fd) →
      call environment vfs next = (-1, vfs)

/-- A ledger agrees with an entry of the table. -/
structure Agrees (ledger : Option Ledger) (entry : FileDescriptor Node) : Prop where
  held : ledger.isSome ↔ entry.node ≠ none
  offset : ∀ account, ledger = some account →
    entry.offset = UInt64.ofInt (account.target + account.moved)

/-- The table agrees with the ledgers of a history. -/
def Accounted (past : List (Call × Int)) (vfs : State Node σ) : Prop :=
  ∀ fd, Agrees (ledger past fd) (vfs.fdTable fd)

/-- No filesystem has an open hook. -/
def NoOpenHook (environment : Drivers Node σ) : Prop :=
  ∀ drivers node, (environment.operations drivers node).bind FSOperations.openHook = none

/-! ### One call -/

/-- What a call on an open descriptor with this result leaves in its entry. -/
def entryAfter (entry : FileDescriptor Node) (result : Int) : Call → FileDescriptor Node
  | .openFile _ _ => entry
  | .close _ => if result = 0 then FileDescriptor.zero else entry
  | .read _ _ | .write _ _ _ =>
      if 0 < result then { entry with offset := entry.offset + UInt64.ofInt result } else entry
  | .seek _ _ _ =>
      if 0 ≤ result then { entry with offset := UInt64.ofInt result } else entry

theorem call_closed {next : Call} (onDescriptor : next.OnDescriptor)
    (closed : vfs.openSlot (next.descriptor (-1)) = none) :
    call environment vfs next = (-1, vfs) := by
  cases next with
  | openFile path flags => exact onDescriptor.elim
  | close fd =>
      have closed : vfs.openSlot fd = none := closed
      simp only [call, vfsClose, closed]
  | read fd size =>
      have closed : vfs.openSlot fd = none := closed
      simp only [call, vfsRead, closed]
  | write fd buffer size =>
      have closed : vfs.openSlot fd = none := closed
      simp only [call, vfsWrite, closed]
  | seek fd offset whence =>
      have closed : vfs.openSlot fd = none := closed
      simp only [call, vfsSeek, closed]

theorem advance_table (index : Fin maxFd) (bytes : Int) (changed : σ) :
    (advance { vfs with drivers := changed } index bytes).fdTable =
      Function.update vfs.fdTable index
        (if 0 < bytes then
          { vfs.fdTable index with offset := (vfs.fdTable index).offset + UInt64.ofInt bytes }
        else vfs.fdTable index) := by
  by_cases positive : 0 < bytes
  · rw [if_pos positive]
    simp only [advance, gt_iff_lt, if_pos positive]
    rfl
  · rw [if_neg positive, Function.update_eq_self]
    simp only [advance, gt_iff_lt, if_neg positive]

/-- A word is what its signed reading converts to. -/
theorem ofInt_toInt (word : Int64) : UInt64.ofInt word.toInt = word.toUInt64 := by
  apply UInt64.toNat_inj.mp
  have value : word.toInt = (word.toBitVec.toNat : Int).bmod (2 ^ 64) :=
    BitVec.toInt_eq_toNat_bmod _
  have residue : (word.toBitVec.toNat : Int).bmod (2 ^ 64) % 2 ^ 64 =
      word.toBitVec.toNat % 2 ^ 64 :=
    Int.bmod_emod
  have bound := word.toBitVec.isLt
  have read : word.toUInt64.toNat = word.toBitVec.toNat := rfl
  rw [UInt64.ofInt, value, residue, read, UInt64.toNat_ofNat']
  omega

theorem toInt_toInt64 {word : UInt64} (small : word.toNat < 2 ^ 63) :
    word.toInt64.toInt = word.toNat := by
  have value : word.toInt64.toInt = (word.toNat : Int).bmod (2 ^ 64) :=
    BitVec.toInt_eq_toNat_bmod _
  rw [value, Int.bmod_def]
  omega

theorem call_open {next : Call} {index : Fin maxFd} {node : Node}
    (onDescriptor : next.OnDescriptor)
    (slot : vfs.openSlot (next.descriptor (-1)) = some (index, node)) :
    (call environment vfs next).2.fdTable =
      Function.update vfs.fdTable index
        (entryAfter (vfs.fdTable index) (call environment vfs next).1 next) := by
  cases next with
  | openFile path flags => exact onDescriptor.elim
  | close fd =>
      have slot : vfs.openSlot fd = some (index, node) := slot
      simp only [call, vfsClose, slot, entryAfter, if_true]
      cases (environment.operations vfs.drivers node).bind FSOperations.closeHook with
      | none => rfl
      | some hook => rfl
  | read fd size =>
      have slot : vfs.openSlot fd = some (index, node) := slot
      simp only [call, vfsRead, slot, entryAfter]
      cases (environment.operations vfs.drivers node).bind FSOperations.readHook with
      | none => simp
      | some hook => exact advance_table index _ _
  | write fd buffer size =>
      have slot : vfs.openSlot fd = some (index, node) := slot
      simp only [call, vfsWrite, slot, entryAfter]
      cases (environment.operations vfs.drivers node).bind FSOperations.writeHook with
      | none => simp
      | some hook => exact advance_table index _ _
  | seek fd offset whence =>
      have slot : vfs.openSlot fd = some (index, node) := slot
      simp only [call, vfsSeek, slot, entryAfter]
      cases seekTarget (vfs.fdTable index).offset (environment.node vfs.drivers node).size
          offset whence with
      | none => simp
      | some target =>
          by_cases outside : target < 0 ∨
              target.toUInt64 > (environment.node vfs.drivers node).size
          · simp [outside]
          · have inside : 0 ≤ target.toInt := by
              have negative : ¬ target < 0 := fun below => outside (Or.inl below)
              rw [Int64.lt_iff_toInt_lt, Int64.toInt_zero] at negative
              omega
            simp only [if_neg outside, if_pos inside, ofInt_toInt]
            rfl

variable (vfs) in
/-- Without open hooks, an open fails and leaves the table, or fills the lowest
free slot and returns it. -/
theorem open_cases (noHook : NoOpenHook environment) (path : CString) (flags : UInt32) :
    ((environment.lookup vfs.drivers path).1 = none ∨ vfs.findFreeFd = none) ∧
        (call environment vfs (.openFile path flags)).1 = -1 ∧
        (call environment vfs (.openFile path flags)).2.fdTable = vfs.fdTable ∨
      ∃ index node, (environment.lookup vfs.drivers path).1 = some node ∧
        vfs.findFreeFd = some index ∧
        (call environment vfs (.openFile path flags)).1 = index.val ∧
        (call environment vfs (.openFile path flags)).2.fdTable =
          filled vfs index node flags := by
  obtain ⟨found, drivers, lookup⟩ : ∃ found drivers,
      environment.lookup vfs.drivers path = (found, drivers) := ⟨_, _, rfl⟩
  cases found with
  | none =>
      left
      simp [call, vfsOpen_missing lookup, lookup, returned]
  | some node =>
      cases free : vfs.findFreeFd with
      | none =>
          left
          simp [call, vfsOpen_full lookup free, returned]
      | some index =>
          right
          refine ⟨index, node, by rw [lookup], rfl, ?_⟩
          simp [call, vfsOpen_plain lookup free (noHook drivers node), returned]

/-! ### Ledgers -/

theorem descriptor_eq {next : Call} (onDescriptor : next.OnDescriptor) (result : Int) :
    next.descriptor result = next.descriptor (-1) := by
  cases next with
  | openFile path flags => exact onDescriptor.elim
  | _ => rfl

theorem record_other {fd : Fin maxFd} {account : Option Ledger} {next : Call} {result : Int}
    (other : next.descriptor result ≠ fd.val) :
    Ledger.record fd account (next, result) = account := by
  cases next <;> simp_all [Ledger.record, Call.descriptor]

theorem record_refused {fd : Fin maxFd} {account : Option Ledger} {next : Call}
    (onDescriptor : next.OnDescriptor) : Ledger.record fd account (next, -1) = account := by
  cases next with
  | openFile path flags => exact onDescriptor.elim
  | close fd => simp [Ledger.record]
  | read fd size => simp [Ledger.record]
  | write fd buffer size => simp [Ledger.record]
  | seek fd offset whence => simp [Ledger.record]

/-- The ledger and the entry of the descriptor a call is on change alike. -/
theorem Agrees.record {account : Option Ledger} {entry : FileDescriptor Node}
    (agrees : Agrees account entry) {next : Call} {fd : Fin maxFd} {result : Int}
    (onDescriptor : next.OnDescriptor) (here : next.descriptor (-1) = fd.val) :
    Agrees (Ledger.record fd account (next, result)) (entryAfter entry result next) := by
  cases next with
  | openFile path flags => exact onDescriptor.elim
  | close other =>
      have here : other = fd.val := here
      by_cases success : result = 0
      · simp only [Ledger.record, entryAfter, here, success, and_self, if_true]
        exact ⟨by simp [FileDescriptor.zero], fun _ impossible => by cases impossible⟩
      · simpa only [Ledger.record, entryAfter, here, success, and_false, if_false] using agrees
  | read other size | write other buffer size =>
      have here : other = fd.val := here
      by_cases positive : 0 < result
      · simp only [Ledger.record, entryAfter, here, positive, and_self, if_true]
        refine ⟨by simpa using agrees.held, fun moved same => ?_⟩
        obtain ⟨old, recorded, rfl⟩ := Option.map_eq_some_iff.mp same
        rw [agrees.offset old recorded, ← UInt64.ofInt_add, Int.add_assoc]
      · simpa only [Ledger.record, entryAfter, positive, and_false, if_false] using agrees
  | seek other offset whence =>
      have here : other = fd.val := here
      by_cases success : 0 ≤ result
      · simp only [Ledger.record, entryAfter, here, success, and_self, if_true]
        refine ⟨by simpa using agrees.held, fun moved same => ?_⟩
        obtain ⟨old, recorded, rfl⟩ := Option.map_eq_some_iff.mp same
        simp
      · simpa only [Ledger.record, entryAfter, success, and_false, if_false] using agrees

theorem ledger_concat (past : List (Call × Int)) (event : Call × Int) (fd : Fin maxFd) :
    ledger (past ++ [event]) fd = Ledger.record fd (ledger past fd) event := by
  simp [ledger]

/-- The step lemma: one call keeps the table in agreement with its history. -/
theorem Accounted.call (noHook : NoOpenHook environment) {past : List (Call × Int)}
    (accounted : Accounted past vfs) (next : Call) :
    Accounted (past ++ [(next, (call environment vfs next).1)])
      (call environment vfs next).2 := by
  intro fd
  rw [ledger_concat]
  by_cases onDescriptor : next.OnDescriptor
  · cases slot : vfs.openSlot (next.descriptor (-1)) with
    | none =>
        rw [call_closed onDescriptor slot, record_refused onDescriptor]
        exact accounted fd
    | some found =>
        obtain ⟨index, node⟩ := found
        have here := (State.openSlot_eq_some_iff.mp slot).1
        rw [call_open onDescriptor slot]
        by_cases same : fd = index
        · subst same
          rw [Function.update_self]
          exact (accounted fd).record onDescriptor here
        · have other : next.descriptor (NansOS.Vfs.call environment vfs next).1 ≠ fd.val := by
            rw [descriptor_eq onDescriptor, here]
            exact fun equal => same (Fin.ext (by omega))
          rw [Function.update_of_ne same, record_other other]
          exact accounted fd
  · cases next with
    | openFile path flags =>
        rcases open_cases vfs noHook path flags with
          ⟨_, failed, kept⟩ | ⟨index, node, _, free, result, table⟩
        · rw [failed, kept, record_other (by simp [Call.descriptor])]
          exact accounted fd
        · rw [result, table]
          by_cases same : fd = index
          · subst same
            simp only [Ledger.record, if_true, filled, Function.update_self]
            exact ⟨by simp, fun account opened => by cases opened; rfl⟩
          · have other : index.val ≠ fd.val := fun equal => same (Fin.ext equal.symm)
            rw [record_other (by simpa [Call.descriptor] using other), filled,
              Function.update_of_ne same]
            exact accounted fd
    | _ => exact absurd trivial onDescriptor

/-- The run lemma. -/
theorem Accounted.run (noHook : NoOpenHook environment) {past : List (Call × Int)}
    (accounted : Accounted past vfs) (calls : List Call) :
    Accounted (past ++ history environment vfs calls)
      (run (after environment) vfs calls) := by
  induction calls generalizing past vfs with
  | nil => simpa [history] using accounted
  | cons next rest inductionHypothesis =>
      have later := inductionHypothesis (accounted.call noHook next)
      simpa [history, after] using later

theorem accounted_vfsInit (drivers : σ) :
    Accounted [] (vfsInit drivers : State Node σ) := by
  intro fd
  exact ⟨by simp [ledger, vfsInit, FileDescriptor.zero], fun _ impossible => by cases impossible⟩

theorem isOpen_iff {past : List (Call × Int)} (accounted : Accounted past vfs) (fd : Fin maxFd) :
    IsOpen past fd ↔ (vfs.fdTable fd).node ≠ none :=
  (accounted fd).held

section History

variable {past : List (Call × Int)}

/-- An open that succeeds returns the lowest descriptor that the history leaves
closed. -/
theorem opens_lowest (accounted : Accounted past vfs)
    (noHook : NoOpenHook environment) {path : CString} {flags : UInt32}
    (success : 0 ≤ (call environment vfs (.openFile path flags)).1) :
    ∃ fd : Fin maxFd, (call environment vfs (.openFile path flags)).1 = fd.val ∧
      ¬ IsOpen past fd ∧ ∀ lower < fd, IsOpen past lower := by
  rcases open_cases vfs noHook path flags with
    ⟨_, failed, _⟩ | ⟨index, node, _, free, result, _⟩
  · omega
  · obtain ⟨closed, taken⟩ := State.findFreeFd_eq_some_iff.mp free
    refine ⟨index, result, ?_, fun lower below => ?_⟩
    · rw [isOpen_iff accounted]
      exact fun held => held closed
    · exact (isOpen_iff accounted lower).mpr (taken lower below)

theorem opens_fail_iff (accounted : Accounted past vfs)
    (noHook : NoOpenHook environment) (path : CString) (flags : UInt32) :
    (call environment vfs (.openFile path flags)).1 < 0 ↔
      (environment.lookup vfs.drivers path).1 = none ∨ ∀ fd, IsOpen past fd := by
  have full : vfs.findFreeFd = none ↔ ∀ fd, IsOpen past fd := by
    rw [State.findFreeFd_eq_none_iff]
    exact forall_congr' fun fd => (isOpen_iff accounted fd).symm
  rw [← full]
  rcases open_cases vfs noHook path flags with
    ⟨reason, failed, _⟩ | ⟨index, node, found, free, result, _⟩
  · exact iff_of_true (by omega) reason
  · rw [result, found, free]
    simp

/-- A call on a descriptor that the history leaves closed is refused. -/
theorem refused_of_closed (accounted : Accounted past vfs) {next : Call}
    (onDescriptor : next.OnDescriptor)
    (closed : ∀ fd : Fin maxFd, next.descriptor (-1) = fd.val → ¬ IsOpen past fd) :
    call environment vfs next = (-1, vfs) := by
  apply call_closed onDescriptor
  rw [State.openSlot_eq_none_iff]
  intro index same
  by_contra held
  exact closed index same ((isOpen_iff accounted index).mpr held)

end History

/-- A call changes no entry but that of its descriptor. -/
theorem call_frame (noHook : NoOpenHook environment) {next : Call} {fd : Fin maxFd}
    (other : next.descriptor (call environment vfs next).1 ≠ fd.val) :
    (call environment vfs next).2.fdTable fd = vfs.fdTable fd := by
  by_cases onDescriptor : next.OnDescriptor
  · rw [descriptor_eq onDescriptor] at other
    cases slot : vfs.openSlot (next.descriptor (-1)) with
    | none => rw [call_closed onDescriptor slot]
    | some found =>
        obtain ⟨index, node⟩ := found
        have here := (State.openSlot_eq_some_iff.mp slot).1
        rw [call_open onDescriptor slot, Function.update_of_ne]
        rintro rfl
        exact other here
  · cases next with
    | openFile path flags =>
        rcases open_cases vfs noHook path flags with
          ⟨_, _, kept⟩ | ⟨index, node, _, _, result, table⟩
        · rw [kept]
        · rw [table, filled, Function.update_of_ne]
          rintro rfl
          exact other result
    | _ => exact absurd trivial onDescriptor

/-- The descriptor table keeps its promises after every run from `vfs_init`. -/
theorem descriptor_table_promises (noHook : NoOpenHook environment) (drivers : σ)
    (calls : List Call) :
    Promises environment (history environment (vfsInit drivers) calls)
      (run (after environment) (vfsInit drivers) calls) := by
  have accounted := (accounted_vfsInit drivers).run noHook calls
  rw [List.nil_append] at accounted
  exact {
    offsets := fun fd => (accounted fd).offset
    opensLowest := fun _ _ => opens_lowest accounted noHook
    opensFail := opens_fail_iff accounted noHook
    frame := fun _ _ => call_frame noHook
    refused := fun _ => refused_of_closed accounted }

/-- A driver without an open hook whose reads deliver three bytes. -/
def threeByteDrivers : Drivers Unit Unit where
  lookup := fun drivers _ => (some (), drivers)
  node := fun _ _ => ⟨CString.empty, 0, 0, 0, 0, 8, 0, 0, 0, 0⟩
  operations := fun _ _ => some
    { readHook := some fun drivers _ _ _ => ((3, [1, 2, 3]), drivers)
      writeHook := none
      openHook := none
      closeHook := none }

/-- Two opens of one path, a seek and a read on the first of them. -/
def twoOpens : List Call :=
  [.openFile CString.empty 0, .openFile CString.empty 0, .seek 0 5 seekSet, .read 0 3]

theorem two_opens_promised :
    Promises threeByteDrivers (history threeByteDrivers (vfsInit ()) twoOpens)
      (run (after threeByteDrivers) (vfsInit ()) twoOpens) :=
  descriptor_table_promises (fun _ _ => rfl) () twoOpens

end NansOS.Vfs
