import NansOS.Windows.Manager
import NansOS.Foundation.Recency

/-! Owns the window list: which windows each call creates, raises and destroys,
what the rotation and removal loops do to the list, and that the list is, after
every run, the windows created and not yet destroyed in the order in which they
were last created, shown or raised. -/

namespace NansOS.Windows

open NansOS.Foundation
open NansOS.Kernel

/-! ### Events -/

/-- The event of a creation that returned `window`. -/
def entered (window : UInt64) : List (Event UInt64) :=
  if window = 0 then [] else [.enter window]

namespace Manager

/-- The windows a call creates, raises and destroys, in order. -/
def events (manager : Manager) : Call → List (Event UInt64)
  | .create title x y width height allocated =>
      entered (manager.windowCreate title x y width height allocated).1
  | .createTerminal allocated buffer =>
      let window := (manager.createTerminalFrame allocated).1
      if window = 0 then []
      else if buffer = 0 then [.enter window, .leave window]
      else [.enter window]
  | .createFileBrowser allocated => entered (manager.windowCreateFileBrowser allocated).1
  | .createTextEditor allocated => entered (manager.windowCreateTextEditor allocated).1
  | .destroy window => [.leave window]
  | .showWindow window | .bringToFront window => [.lift window]
  | .handleMouse x y buttons =>
      if manager.draggingWindow ≠ 0 then []
      else
        match manager.windowAt x y with
        | none => []
        | some window =>
            if (manager.records window).InTitleBar y then
              (if LeftButton buttons then [.lift window] else []) ++
                (if (manager.records window).OnCloseButton x y then [.leave window] else [])
            else []
  | _ => []

/-- The events of a run. -/
def history (manager : Manager) : List Call → List (Event UInt64)
  | [] => []
  | next :: rest => manager.events next ++ (manager.call next).history rest

/-- `malloc` returns `NULL` or an address that no listed window has. -/
def FreshMalloc (manager : Manager) : Call → Prop
  | .create _ _ _ _ _ allocated | .createTerminal allocated _ | .createFileBrowser allocated
  | .createTextEditor allocated => allocated = 0 ∨ allocated ∉ manager.list
  | _ => True

/-- The windows that a call does not create, raise or destroy keep their
relative order. -/
def KeepsOthers (manager : Manager) (next : Call) : Prop :=
  (manager.call next).list.filter (· ∉ (manager.events next).map Event.subject) =
    manager.list.filter (· ∉ (manager.events next).map Event.subject)

/-! ### The array -/

/-- The array holds at most as many windows as it has room for, and `NULL`
behind them. -/
structure Bounded (manager : Manager) : Prop where
  count : manager.numWindows ≤ maxWindows
  above : ∀ index, manager.numWindows ≤ index → index < maxWindows → manager.windows index = 0
  nonnull : 0 ∉ manager.list

variable {manager : Manager}

theorem Bounded.congr {other : Manager} (bounded : manager.Bounded)
    (array : other.windows = manager.windows) (count : other.numWindows = manager.numWindows) :
    other.Bounded := by
  refine ⟨count ▸ bounded.count, ?_, ?_⟩
  · rw [array, count]
    exact bounded.above
  · rw [list, array, count]
    exact bounded.nonnull

@[simp] theorem modify_list (window : UInt64) (change : Window → Window) :
    (manager.modify window change).list = manager.list := rfl

@[simp] theorem modify_records_self (window : UInt64) (change : Window → Window) :
    (manager.modify window change).records window = change (manager.records window) :=
  Function.update_self _ _ _

theorem modify_records_of_ne {window other : UInt64} (different : other ≠ window)
    (change : Window → Window) :
    (manager.modify window change).records other = manager.records other :=
  Function.update_of_ne different _ _

theorem modify_bounded (bounded : manager.Bounded) (window : UInt64)
    (change : Window → Window) : (manager.modify window change).Bounded :=
  bounded.congr rfl rfl

/-- The last entry of the array is the last of the list. -/
theorem lastWindow_eq (manager : Manager) : manager.lastWindow = manager.list.getLastD 0 := by
  rw [lastWindow, list]
  cases manager.numWindows with
  | zero => rfl
  | succ count =>
      rw [if_pos (Nat.succ_pos count), slotList_succ, List.getLastD_concat, Nat.add_sub_cancel]

/-- What a rotation or a removal does to the references. -/
structure Rearranged (manager after : Manager) (event : Event UInt64) : Prop where
  list : after.list = arrange manager.list event
  records : after.records = manager.records
  buffers : after.buffers = manager.buffers
  dragging : after.draggingWindow = manager.draggingWindow
  bounded : after.Bounded

/-- The rotation loop moves the window in a used slot to the end. -/
theorem shiftDown_lifts (bounded : manager.Bounded) {window : UInt64} (nonnull : window ≠ 0)
    (member : window ∈ manager.list) {index : Nat} (below : index < manager.numWindows)
    (erased : (slotList manager.windows manager.numWindows).eraseIdx index =
      manager.list.erase window) :
    Rearranged manager
      { manager with
        windows := Function.update (shiftDown manager.windows index manager.numWindows)
          (manager.numWindows - 1) window
        activeWindow := window } (.lift window) := by
  have rotated := slotList_update (shiftDown manager.windows index manager.numWindows)
    (manager.numWindows - 1) window
  rw [slotList_shiftDown _ below, erased, Nat.sub_add_cancel (by omega)] at rotated
  have lifted : arrange manager.list (.lift window) = manager.list.erase window ++ [window] :=
    if_pos member
  refine ⟨rotated.trans lifted.symm, rfl, rfl, rfl, ⟨bounded.count, ?_, ?_⟩⟩
  · intro other beyond room
    have beyond : manager.numWindows ≤ other := beyond
    show Function.update (shiftDown manager.windows index manager.numWindows)
      (manager.numWindows - 1) window other = 0
    rw [Function.update_of_ne (by omega), shiftDown_apply, if_neg (by omega)]
    exact bounded.above other beyond room
  · show 0 ∉ slotList _ _
    rw [rotated]
    simp only [List.mem_append, List.mem_singleton, not_or]
    exact ⟨fun kept => bounded.nonnull (List.mem_of_mem_erase kept), Ne.symm nonnull⟩

theorem findSlot_unlisted {window : UInt64} (absent : window ∉ manager.list) :
    findSlot manager.windows manager.numWindows window = none := by
  cases found : findSlot manager.windows manager.numWindows window with
  | none => rfl
  | some index =>
      obtain ⟨below, held, -⟩ := findSlot_some found
      exact absurd (mem_slotList.mpr ⟨index, below, held⟩) absent

/-- Raising `NULL` or an unlisted window does nothing. -/
theorem windowBringToFront_unlisted {window : UInt64} (absent : window ∉ manager.list) :
    manager.windowBringToFront window = manager := by
  by_cases null : window = 0
  · rw [windowBringToFront, if_pos null]
  · rw [windowBringToFront, if_neg null, findSlot_unlisted absent]

/-- The rotation loop lifts its window and makes it the active one. -/
theorem bringToFront_spec (bounded : manager.Bounded) (window : UInt64) :
    Rearranged manager (manager.windowBringToFront window) (.lift window) ∧
      (manager.windowBringToFront window).activeWindow =
        if window ∈ manager.list then window else manager.activeWindow := by
  by_cases member : window ∈ manager.list
  · have nonnull : window ≠ 0 := fun null => bounded.nonnull (null ▸ member)
    obtain ⟨index, below, found, erased⟩ := findSlot_listed member
    rw [windowBringToFront, if_neg nonnull, found, if_pos member]
    exact ⟨shiftDown_lifts bounded nonnull member below erased, rfl⟩
  · rw [windowBringToFront_unlisted member, if_neg member]
    exact ⟨⟨(if_neg member).symm, rfl, rfl, rfl, bounded⟩, rfl⟩

/-- The removal loop makes the window in a used slot leave. -/
theorem shiftDown_leaves (bounded : manager.Bounded) {window : UInt64} {index : Nat}
    (below : index < manager.numWindows)
    (erased : (slotList manager.windows manager.numWindows).eraseIdx index =
      manager.list.erase window) :
    Rearranged manager
      { manager with
        windows := Function.update (shiftDown manager.windows index manager.numWindows)
          (manager.numWindows - 1) 0
        numWindows := manager.numWindows - 1 } (.leave window) := by
  have shorter := slotList_update_of_le
    (shiftDown manager.windows index manager.numWindows) (Nat.le_refl (manager.numWindows - 1)) 0
  rw [slotList_shiftDown _ below, erased] at shorter
  refine ⟨shorter, rfl, rfl, rfl, ⟨?_, ?_, ?_⟩⟩
  · have room := bounded.count
    simp only
    omega
  · intro other beyond room
    have beyond : manager.numWindows - 1 ≤ other := beyond
    by_cases last : other = manager.numWindows - 1
    · subst last
      exact Function.update_self _ _ _
    · show Function.update (shiftDown manager.windows index manager.numWindows)
        (manager.numWindows - 1) 0 other = 0
      rw [Function.update_of_ne last, shiftDown_apply, if_neg (by omega)]
      exact bounded.above other (by omega) room
  · show 0 ∉ slotList _ _
    rw [shorter]
    exact fun kept => bounded.nonnull (List.mem_of_mem_erase kept)

/-- Destroying `NULL` or an unlisted window does nothing. -/
theorem windowDestroy_unlisted {window : UInt64} (absent : window ∉ manager.list) :
    manager.windowDestroy window = manager := by
  by_cases null : window = 0
  · rw [windowDestroy, if_pos null]
  · rw [windowDestroy, if_neg null, findSlot_unlisted absent]

/-- The removal loop makes its window leave; if it was active, the last window
of the list becomes active. -/
theorem destroy_spec (bounded : manager.Bounded) (window : UInt64) :
    Rearranged manager (manager.windowDestroy window) (.leave window) ∧
      (manager.windowDestroy window).activeWindow =
        if window ∈ manager.list ∧ manager.activeWindow = window then
          (manager.list.erase window).getLastD 0
        else manager.activeWindow := by
  by_cases member : window ∈ manager.list
  · have nonnull : window ≠ 0 := fun null => bounded.nonnull (null ▸ member)
    obtain ⟨index, below, found, erased⟩ := findSlot_listed member
    have removed := shiftDown_leaves bounded below erased
    rw [windowDestroy, if_neg nonnull, found]
    by_cases active : manager.activeWindow = window
    · rw [if_pos ⟨member, active⟩]
      simp only [if_pos active]
      refine ⟨⟨removed.list, rfl, rfl, rfl, removed.bounded.congr rfl rfl⟩, ?_⟩
      rw [lastWindow_eq, removed.list]
      rfl
    · rw [if_neg fun both => active both.2]
      simp only [if_neg active]
      exact ⟨removed, trivial⟩
  · rw [windowDestroy_unlisted member, if_neg fun both => member both.1]
    exact ⟨⟨(List.erase_of_not_mem member).symm, rfl, rfl, rfl, bounded⟩, rfl⟩

/-- A creation that returns a window lists it last, visible and active. -/
theorem create_spec (bounded : manager.Bounded) (title : CString) (x y width height : UInt16)
    (allocated : UInt64) :
    let result := manager.windowCreate title x y width height allocated
    result = (0, manager) ∨
      result.1 = allocated ∧ allocated ≠ 0 ∧ result.2.Bounded ∧
        result.2.list = arrange (arrange manager.list (.enter allocated)) (.lift allocated) ∧
        result.2.activeWindow = allocated ∧
        result.2.draggingWindow = manager.draggingWindow ∧
        result.2.records = Function.update manager.records allocated
          (createdRecord title x y width height) := by
  intro result
  by_cases full : manager.numWindows ≥ maxWindows
  · left
    exact if_pos full
  · by_cases failed : allocated = 0
    · left
      simp only [result, windowCreate, if_neg full, if_pos failed]
    · right
      have added :
          Bounded (manager.addWindow allocated (createdRecord title x y width height)) := by
        refine ⟨by simp only [addWindow]; omega, ?_, ?_⟩
        · intro index beyond room
          have beyond : manager.numWindows + 1 ≤ index := beyond
          show Function.update manager.windows manager.numWindows allocated index = 0
          rw [Function.update_of_ne (by omega)]
          exact bounded.above index (by omega) room
        · show 0 ∉ slotList _ _
          rw [addWindow, slotList_update]
          simp only [List.mem_append, List.mem_singleton, not_or]
          exact ⟨bounded.nonnull, Ne.symm failed⟩
      have listed : (manager.addWindow allocated (createdRecord title x y width height)).list =
          arrange manager.list (.enter allocated) :=
        slotList_update _ _ _
      obtain ⟨raised, active⟩ := bringToFront_spec added allocated
      have member : allocated ∈ (manager.addWindow allocated
          (createdRecord title x y width height)).list := by
        rw [listed]
        exact List.mem_append_right _ (List.mem_singleton_self _)
      simp only [result, windowCreate, if_neg full, if_neg failed]
      refine ⟨trivial, failed, raised.bounded, ?_, ?_, raised.dragging, raised.records⟩
      · rw [raised.list, listed]
      · rw [active, if_pos member]

/-! ### One call -/

/-- A call rearranges the list by its events, and a window that enters is
absent then. -/
structure Follows (manager after : Manager) (events : List (Event UInt64)) : Prop where
  list : after.list = events.foldl arrange manager.list
  enters : EntersEach manager.list events
  bounded : after.Bounded

theorem Follows.same {after : Manager} (bounded : after.Bounded)
    (list : after.list = manager.list) : Follows manager after [] :=
  ⟨list, trivial, bounded⟩

theorem Rearranged.follows {after : Manager} {event : Event UInt64}
    (rearranged : Rearranged manager after event) (enters : Enters manager.list event) :
    Follows manager after [event] :=
  ⟨rearranged.list, ⟨enters, trivial⟩, rearranged.bounded⟩

theorem Follows.trans {middle after : Manager} {first second : List (Event UInt64)}
    (left : Follows manager middle first) (right : Follows middle after second) :
    Follows manager after (first ++ second) := by
  refine ⟨by rw [right.list, left.list, List.foldl_append], ?_, right.bounded⟩
  have later := right.enters
  rw [left.list] at later
  exact entersEach_append.mpr ⟨left.enters, later⟩

/-- Only the list of the state before matters. -/
theorem Follows.of_list {other after : Manager} {events : List (Event UInt64)}
    (follows : Follows other after events) (same : other.list = manager.list) :
    Follows manager after events :=
  ⟨same ▸ follows.list, same ▸ follows.enters, follows.bounded⟩

/-- Changes to a window's own fields do not reach the list. -/
theorem Follows.modify {after : Manager} {events : List (Event UInt64)}
    (follows : Follows manager after events) (window : UInt64) (change : Window → Window) :
    Follows manager (after.modify window change) events :=
  ⟨follows.list, follows.enters, modify_bounded follows.bounded window change⟩

theorem create_follows (bounded : manager.Bounded) (title : CString)
    (x y width height : UInt16) {allocated : UInt64}
    (fresh : allocated = 0 ∨ allocated ∉ manager.list) :
    Follows manager (manager.windowCreate title x y width height allocated).2
      (entered (manager.windowCreate title x y width height allocated).1) := by
  rcases create_spec bounded title x y width height allocated with
    failed | ⟨address, nonnull, created, list, _⟩
  · rw [failed, entered, if_pos rfl]
    exact Follows.same bounded rfl
  · have absent := fresh.resolve_left nonnull
    rw [arrange_enter_lift absent] at list
    rw [address, entered, if_neg nonnull]
    exact ⟨list, ⟨absent, trivial⟩, created⟩

theorem createPainted_follows (bounded : manager.Bounded) (title : CString)
    (x y width height : UInt16) (paint : PaintHandler) {allocated : UInt64}
    (fresh : allocated = 0 ∨ allocated ∉ manager.list) :
    Follows manager (manager.createPainted title x y width height paint allocated).2
      (entered (manager.createPainted title x y width height paint allocated).1) := by
  have created := create_follows bounded title x y width height fresh
  simp only [createPainted]
  by_cases failed : (manager.windowCreate title x y width height allocated).1 = 0
  · rw [if_pos failed]
    rwa [failed] at created
  · rw [if_neg failed]
    exact created.modify (manager.windowCreate title x y width height allocated).1
      fun record => { record with onPaint := some paint }

theorem createTerminal_follows (bounded : manager.Bounded) {allocated : UInt64}
    (buffer : UInt64) (fresh : allocated = 0 ∨ allocated ∉ manager.list) :
    Follows manager (manager.windowCreateTerminal allocated buffer).2
      (manager.events (.createTerminal allocated buffer)) := by
  have created : Follows manager (manager.createTerminalFrame allocated).2
      (entered (manager.createTerminalFrame allocated).1) :=
    create_follows bounded _ _ _ _ _ fresh
  simp only [windowCreateTerminal, events]
  by_cases failed : (manager.createTerminalFrame allocated).1 = 0
  · rw [if_pos failed, if_pos failed]
    rwa [entered, if_pos failed] at created
  · rw [entered, if_neg failed] at created
    rw [if_neg failed, if_neg failed]
    by_cases noBuffer : buffer = 0
    · rw [if_pos noBuffer, if_pos noBuffer]
      have destroyed := (destroy_spec created.bounded
        (manager.createTerminalFrame allocated).1).1
      exact created.trans (destroyed.follows trivial)
    · rw [if_neg noBuffer, if_neg noBuffer]
      exact ⟨created.list, created.enters, created.bounded.congr rfl rfl⟩

/-- A press on the title bar of `window`, before the close button is tested. -/
def press (manager : Manager) (window : UInt64) (x y : UInt16) (buttons : UInt8) : Manager :=
  if LeftButton buttons then (manager.startDrag window x y).windowBringToFront window
  else manager

/-- What a mouse event can do: go on with a drag or end it, nothing, or act on
the title bar of the window it hits. -/
theorem handleMouse_cases (manager : Manager) (x y : UInt16) (buttons : UInt8) :
    (manager.draggingWindow ≠ 0 ∧ LeftButton buttons ∧
      manager.windowHandleMouse x y buttons =
        manager.modify manager.draggingWindow fun record =>
          { record with
            x := UInt16.ofInt (x.toNat - manager.dragOffsetX)
            y := UInt16.ofInt (y.toNat - manager.dragOffsetY) }) ∨
    (manager.draggingWindow ≠ 0 ∧
      manager.windowHandleMouse x y buttons = { manager with draggingWindow := 0 }) ∨
    (manager.draggingWindow = 0 ∧
      (∀ window, manager.windowAt x y = some window → ¬ (manager.records window).InTitleBar y) ∧
      manager.windowHandleMouse x y buttons = manager) ∨
    (manager.draggingWindow = 0 ∧ ∃ window, manager.windowAt x y = some window ∧
      (manager.records window).InTitleBar y ∧
      manager.windowHandleMouse x y buttons =
        if (manager.records window).OnCloseButton x y then
          (manager.press window x y buttons).windowDestroy window
        else manager.press window x y buttons) := by
  simp only [windowHandleMouse]
  by_cases dragging : manager.draggingWindow ≠ 0
  · rw [if_pos dragging]
    by_cases left : LeftButton buttons
    · rw [if_pos left, windowMove, if_neg dragging]
      exact Or.inl ⟨dragging, left, rfl⟩
    · rw [if_neg left]
      exact Or.inr (Or.inl ⟨dragging, rfl⟩)
  · right
    right
    rw [if_neg dragging]
    have idle := not_not.mp dragging
    cases hit : manager.windowAt x y with
    | none =>
        left
        refine ⟨idle, ?_, rfl⟩
        intro window absent
        exact absurd absent.symm (Option.some_ne_none window)
    | some window =>
        dsimp only
        by_cases titleBar : (manager.records window).InTitleBar y
        · right
          rw [if_pos titleBar]
          exact ⟨idle, window, rfl, titleBar, rfl⟩
        · left
          rw [if_neg titleBar]
          refine ⟨idle, ?_, ?_⟩
          · intro other same
            exact Option.some.inj same ▸ titleBar
          · cases (manager.records window).onClick with
            | none => rfl
            | some handler => exact nomatch handler

/-- A press with the left button lifts the window, makes it the active one and
the dragged one. -/
theorem press_spec (bounded : manager.Bounded) (window : UInt64) (x y : UInt16)
    {buttons : UInt8} (left : LeftButton buttons) :
    let after := manager.press window x y buttons
    after.list = arrange manager.list (.lift window) ∧ after.records = manager.records ∧
      after.draggingWindow = window ∧ after.Bounded ∧
      after.activeWindow = if window ∈ manager.list then window else manager.activeWindow := by
  have started : Bounded (manager.startDrag window x y) := bounded.congr rfl rfl
  obtain ⟨raised, active⟩ := bringToFront_spec started window
  simp only [press, if_pos left]
  exact ⟨raised.list, raised.records, raised.dragging, raised.bounded, active⟩

/-- A click on a window: what the title bar and the close button do to it. -/
theorem handleMouse_follows (bounded : manager.Bounded) (x y : UInt16) (buttons : UInt8) :
    Follows manager (manager.windowHandleMouse x y buttons)
      (manager.events (.handleMouse x y buttons)) := by
  simp only [events]
  rcases manager.handleMouse_cases x y buttons with
    ⟨dragging, _, moved⟩ | ⟨dragging, dropped⟩ | ⟨idle, missed, same⟩ |
      ⟨idle, window, hit, titleBar, acted⟩
  · rw [moved, if_pos dragging]
    exact Follows.same (modify_bounded bounded _ _) rfl
  · rw [dropped, if_pos dragging]
    exact Follows.same (bounded.congr rfl rfl) rfl
  · rw [same, if_neg (not_not.mpr idle)]
    cases hit : manager.windowAt x y with
    | none => exact Follows.same bounded rfl
    | some window =>
        dsimp only
        rw [if_neg (missed window hit)]
        exact Follows.same bounded rfl
  · rw [acted, if_neg (not_not.mpr idle), hit]
    dsimp only
    rw [if_pos titleBar]
    have pressed : Follows manager (manager.press window x y buttons)
        (if LeftButton buttons then [.lift window] else []) := by
      by_cases left : LeftButton buttons
      · obtain ⟨list, _, _, kept, _⟩ := press_spec bounded window x y left
        rw [if_pos left]
        exact ⟨list, ⟨trivial, trivial⟩, kept⟩
      · rw [press, if_neg left, if_neg left]
        exact Follows.same bounded rfl
    by_cases close : (manager.records window).OnCloseButton x y
    · rw [if_pos close, if_pos close]
      exact pressed.trans ((destroy_spec pressed.bounded window).1.follows trivial)
    · rw [if_neg close, if_neg close, List.append_nil]
      exact pressed

/-- A call that is refused or assigns fields of its window. -/
theorem Follows.assigned (bounded : manager.Bounded) {refused : Prop} [Decidable refused]
    (window : UInt64) (change : Window → Window) :
    Follows manager (if refused then manager else manager.modify window change) [] := by
  split
  · exact Follows.same bounded rfl
  · exact Follows.same (modify_bounded bounded _ _) rfl

theorem show_follows (bounded : manager.Bounded) (window : UInt64) :
    Follows manager (manager.windowShow window) [.lift window] := by
  rw [windowShow]
  by_cases null : window = 0
  · have raised := (bringToFront_spec bounded window).1.follows trivial
    rw [windowBringToFront, if_pos null] at raised
    rwa [if_pos null]
  · rw [if_neg null]
    have raised := (bringToFront_spec (modify_bounded bounded window fun record =>
      { record with flags := record.flags ||| flagVisible }) window).1
    exact (raised.follows trivial).of_list rfl

theorem hide_follows (bounded : manager.Bounded) (window : UInt64) :
    Follows manager (manager.windowHide window) [] := by
  simp only [windowHide]
  split
  · exact Follows.same bounded rfl
  · split
    · exact Follows.same (bounded.congr rfl rfl) rfl
    · exact Follows.same (modify_bounded bounded _ _) rfl

/-- A key changes terminal buffers at most. -/
theorem windowHandleKey_buffers (manager : Manager) (key : UInt8) :
    ∃ buffers, manager.windowHandleKey key = { manager with buffers := buffers } := by
  rw [windowHandleKey]
  cases manager.keyReceiver with
  | none => exact ⟨manager.buffers, rfl⟩
  | some receiver =>
      obtain ⟨window, handler⟩ := receiver
      cases handler
      simp only [terminalKey]
      split
      · exact ⟨_, rfl⟩
      · exact ⟨manager.buffers, rfl⟩

/-- The step lemma: a call rearranges the list by its events. -/
theorem call_follows (bounded : manager.Bounded) {next : Call}
    (fresh : manager.FreshMalloc next) :
    Follows manager (manager.call next) (manager.events next) := by
  cases next with
  | create title x y width height allocated => exact create_follows bounded _ _ _ _ _ fresh
  | createTerminal allocated buffer => exact createTerminal_follows bounded buffer fresh
  | createFileBrowser allocated => exact createPainted_follows bounded _ _ _ _ _ _ fresh
  | createTextEditor allocated => exact createPainted_follows bounded _ _ _ _ _ _ fresh
  | destroy window => exact (destroy_spec bounded window).1.follows trivial
  | showWindow window => exact show_follows bounded window
  | hide window => exact hide_follows bounded window
  | move window x y => exact Follows.assigned bounded _ _
  | resize window width height => exact Follows.assigned bounded _ _
  | bringToFront window => exact (bringToFront_spec bounded window).1.follows trivial
  | minimize window => exact Follows.assigned bounded _ _
  | maximize window => exact Follows.assigned bounded _ _
  | restore window => exact Follows.assigned bounded _ _
  | handleMouse x y buttons => exact handleMouse_follows bounded x y buttons
  | handleKey key =>
      obtain ⟨buffers, typed⟩ := manager.windowHandleKey_buffers key
      rw [call, typed]
      exact Follows.same (bounded.congr rfl rfl) rfl

theorem call_keepsOthers (bounded : manager.Bounded) {next : Call}
    (fresh : manager.FreshMalloc next) : manager.KeepsOthers next := by
  rw [KeepsOthers, (call_follows bounded fresh).list]
  apply arrange_events_filter
  intro event member
  simpa using ⟨event, member, rfl⟩

/-! ### Whole runs -/

/-- The window list is a recency order of the windows created and not yet
destroyed, with room for 16 and `NULL` behind them. -/
structure ZOrdered (past : List (Event UInt64)) (manager : Manager) : Prop where
  recency : Recency past manager.list
  atMost : manager.numWindows ≤ maxWindows
  nullAbove : ∀ index, manager.numWindows ≤ index → index < maxWindows →
    manager.windows index = 0

theorem windowInit_bounded (manager : Manager) : manager.windowInit.Bounded := by
  refine ⟨Nat.zero_le _, fun index _ room => ?_, ?_⟩
  · exact if_pos room
  · simp [list, windowInit]

/-- The run lemma. -/
theorem run_recency (bounded : manager.Bounded) {past : List (Event UInt64)}
    (recency : Recency past manager.list) {calls : List Call}
    (fresh : Along call FreshMalloc manager calls) :
    Recency (past ++ manager.history calls) (run call manager calls).list ∧
      (run call manager calls).Bounded := by
  induction calls generalizing manager past with
  | nil => simpa [history] using ⟨recency, bounded⟩
  | cons next rest inductionHypothesis =>
      have follows := call_follows bounded fresh.1
      have arranged := recency.events follows.enters
      rw [← follows.list] at arranged
      have later := inductionHypothesis follows.bounded arranged fresh.2
      simpa [history] using later

end Manager

/-- After every run from `window_init`, the window list is in z-order, and no
call of the run disturbs the windows it is not about. -/
theorem z_order (before : Manager) {calls : List Call}
    (fresh : Along Manager.call Manager.FreshMalloc before.windowInit calls) :
    Manager.ZOrdered (before.windowInit.history calls)
        (run Manager.call before.windowInit calls) ∧
      Along Manager.call Manager.KeepsOthers before.windowInit calls := by
  have bounded := before.windowInit_bounded
  have started : Recency [] before.windowInit.list := by
    simpa [Manager.list, Manager.windowInit] using recency_nil
  obtain ⟨recency, ended⟩ := Manager.run_recency bounded started fresh
  refine ⟨⟨recency, ended.count, ended.above⟩, ?_⟩
  exact along_of_invariant
    (fun manager next bounded fresh => (Manager.call_follows bounded fresh).bounded)
    (fun manager next bounded fresh => Manager.call_keepsOthers bounded fresh) bounded fresh

/-- A manager before `window_init`. -/
def bootManager : Manager where
  windows := fun _ => 0
  numWindows := 0
  activeWindow := 0
  draggingWindow := 0
  dragOffsetX := 0
  dragOffsetY := 0
  records := fun _ => Manager.createdRecord CString.empty 0 0 0 0
  buffers := fun _ => Manager.emptyBuffer

/-- Two windows, of which the first is raised with the mouse and the second
closed. -/
def raiseAndClose : List Call :=
  [.create CString.empty 0 0 100 50 4096, .create CString.empty 200 0 100 50 8192,
    .handleMouse 5 5 1, .handleMouse 5 5 0, .handleMouse 290 5 0]

theorem raise_and_close_in_order :
    Manager.ZOrdered (bootManager.windowInit.history raiseAndClose)
        (run Manager.call bootManager.windowInit raiseAndClose) ∧
      Along Manager.call Manager.KeepsOthers bootManager.windowInit raiseAndClose :=
  have fresh : Along Manager.call Manager.FreshMalloc bootManager.windowInit raiseAndClose :=
    ⟨Or.inr (by decide +kernel), Or.inr (by decide +kernel), trivial, trivial, trivial, trivial⟩
  z_order bootManager fresh

end NansOS.Windows
