import NansOS.Windows.References

/-! Owns keyboard focus: when the active window is visible, so that no key is
delivered to a hidden window. The condition on a call names the window that the
call makes active and asks that it be visible before. -/

namespace NansOS.Windows

open NansOS.Foundation
open NansOS.Kernel

/-! ### The visible flag -/

theorem flags_or_and (left right mask : UInt32) :
    (left ||| right) &&& mask = (left &&& mask) ||| (right &&& mask) := by
  apply UInt32.toBitVec_inj.mp
  ext position below
  simp [Bool.and_or_distrib_right]

theorem visible_shown (flags : UInt32) : (flags ||| flagVisible) &&& flagVisible ≠ 0 := by
  rw [flags_or_and]
  intro clear
  exact absurd (UInt32.or_eq_zero_iff.mp clear).2 (by decide)

theorem not_visible_hidden (flags : UInt32) : (flags &&& ~~~flagVisible) &&& flagVisible = 0 := by
  rw [UInt32.and_assoc]
  simp

/-- Other flags are set and kept without the visible one. -/
theorem visible_set_keep (flags : UInt32) {set keep : UInt32} (noSet : set &&& flagVisible = 0)
    (kept : keep &&& flagVisible = flagVisible) :
    ((flags ||| set) &&& keep) &&& flagVisible = flags &&& flagVisible := by
  rw [UInt32.and_assoc, kept, flags_or_and, noSet, UInt32.or_zero]

theorem visible_keep (flags : UInt32) {keep : UInt32}
    (kept : keep &&& flagVisible = flagVisible) :
    (flags &&& keep) &&& flagVisible = flags &&& flagVisible := by
  rw [UInt32.and_assoc, kept]

namespace Manager

variable {manager : Manager}

/-! ### Visible focus -/

/-- The active window is `NULL` or visible, and so is the window whose key
handler is called. -/
structure FocusVisible (manager : Manager) : Prop where
  active : manager.activeWindow = 0 ∨ (manager.records manager.activeWindow).Visible
  keys : ∀ window handler, manager.keyReceiver = some (window, handler) →
    (manager.records window).Visible

/-- The last window of a list is visible, if there is one. -/
def LastVisible (manager : Manager) (order : List UInt64) : Prop :=
  order.getLastD 0 = 0 ∨ (manager.records (order.getLastD 0)).Visible

/-- The window that the call makes active is visible before it. Hiding the
active window selects the last of the list, which must not be the hidden window
itself; destroying it selects the last of those that remain. -/
def FocusesVisible (manager : Manager) : Call → Prop
  | .hide window => window ≠ 0 → manager.activeWindow = window →
      manager.list.getLastD 0 ≠ window ∧ manager.LastVisible manager.list
  | .destroy window => window ∈ manager.list → manager.activeWindow = window →
      manager.LastVisible (manager.list.erase window)
  | .bringToFront window => window ∈ manager.list → (manager.records window).Visible
  | .handleMouse x y buttons => manager.draggingWindow = 0 →
      ∀ window, manager.windowAt x y = some window →
        (manager.records window).OnCloseButton x y →
          LeftButton buttons ∨ manager.activeWindow = window →
            manager.LastVisible
              ((if LeftButton buttons then arrange manager.list (.lift window)
                else manager.list).erase window)
  | .createTerminal allocated buffer =>
      manager.numWindows < maxWindows → allocated ≠ 0 → buffer = 0 →
        let order :=
          (arrange (arrange manager.list (.enter allocated)) (.lift allocated)).erase allocated
        order.getLastD 0 = allocated ∨ manager.LastVisible order
  | _ => True

theorem focusVisible_iff (manager : Manager) :
    manager.FocusVisible ↔
      manager.activeWindow = 0 ∨ (manager.records manager.activeWindow).Visible := by
  constructor
  · exact FocusVisible.active
  · intro active
    refine ⟨active, fun window handler receives => ?_⟩
    rw [keyReceiver] at receives
    by_cases nonnull : manager.activeWindow ≠ 0
    · rw [if_pos nonnull] at receives
      obtain ⟨_, _, same⟩ := Option.map_eq_some_iff.mp receives
      have receiver : manager.activeWindow = window := congrArg Prod.fst same
      exact receiver ▸ active.resolve_left nonnull
    · rw [if_neg nonnull] at receives
      exact nomatch receives

/-- Focus depends on the active window and on which windows are visible. -/
theorem FocusVisible.congr {after : Manager} (focus : manager.FocusVisible)
    (active : after.activeWindow = manager.activeWindow)
    (visible : (manager.records manager.activeWindow).Visible →
      (after.records manager.activeWindow).Visible) : after.FocusVisible := by
  rw [focusVisible_iff, active]
  exact focus.active.imp_right visible

/-- An assignment that keeps windows visible keeps the focus visible. -/
theorem FocusVisible.modify (focus : manager.FocusVisible) (window : UInt64)
    {change : Window → Window}
    (keeps : ∀ record : Window, record.Visible → (change record).Visible) :
    (manager.modify window change).FocusVisible := by
  refine FocusVisible.congr focus rfl fun visible => ?_
  by_cases same : manager.activeWindow = window
  · subst same
    rw [modify_records_self]
    exact keeps _ visible
  · rw [modify_records_of_ne same]
    exact visible

/-! ### Operations -/

/-- Destroying a window keeps the focus visible exactly when the window that
becomes active is visible. -/
theorem destroy_focus_iff (bounded : manager.Bounded) (focus : manager.FocusVisible)
    (window : UInt64) :
    (manager.windowDestroy window).FocusVisible ↔
      (window ∈ manager.list → manager.activeWindow = window →
        manager.LastVisible (manager.list.erase window)) := by
  obtain ⟨removed, active⟩ := destroy_spec bounded window
  rw [focusVisible_iff, active, removed.records]
  by_cases refocuses : window ∈ manager.list ∧ manager.activeWindow = window
  · rw [if_pos refocuses]
    exact ⟨fun visible _ _ => visible, fun visible => visible refocuses.1 refocuses.2⟩
  · rw [if_neg refocuses]
    exact iff_of_true focus.active fun member same => absurd ⟨member, same⟩ refocuses

theorem bringToFront_focus_iff (bounded : manager.Bounded) (focus : manager.FocusVisible)
    (window : UInt64) :
    (manager.windowBringToFront window).FocusVisible ↔
      (window ∈ manager.list → (manager.records window).Visible) := by
  obtain ⟨raised, active⟩ := bringToFront_spec bounded window
  rw [focusVisible_iff, active, raised.records]
  by_cases member : window ∈ manager.list
  · have nonnull : window ≠ 0 := fun null => bounded.nonnull (null ▸ member)
    simp [member, nonnull]
  · rw [if_neg member]
    exact iff_of_true focus.active fun present => absurd present member

theorem hide_focus_iff (focus : manager.FocusVisible) (window : UInt64) :
    (manager.windowHide window).FocusVisible ↔
      (window ≠ 0 → manager.activeWindow = window →
        manager.list.getLastD 0 ≠ window ∧ manager.LastVisible manager.list) := by
  rw [windowHide]
  by_cases null : window = 0
  · rw [if_pos null]
    exact iff_of_true focus fun nonnull => absurd null nonnull
  · rw [if_neg null]
    dsimp only
    by_cases active : manager.activeWindow = window
    · have hidden : ∀ other, (Function.update manager.records window
          { manager.records window with
            flags := (manager.records window).flags &&& ~~~flagVisible } other).Visible ↔
          other ≠ window ∧ (manager.records other).Visible := by
        intro other
        by_cases same : other = window
        · subst same
          rw [Function.update_self, Window.Visible, not_visible_hidden]
          simp
        · rw [Function.update_of_ne same]
          simp [same]
      rw [if_pos (show (manager.modify window _).activeWindow = window from active),
        focusVisible_iff]
      show Manager.lastWindow _ = 0 ∨ (Function.update manager.records window _
        (Manager.lastWindow _)).Visible ↔ _
      rw [lastWindow_eq, modify_list, hidden, LastVisible]
      constructor
      · rintro (last | ⟨other, visible⟩) _ _
        · exact ⟨fun same => null (same ▸ last), Or.inl last⟩
        · exact ⟨other, Or.inr visible⟩
      · intro selects
        obtain ⟨other, last⟩ := selects null active
        exact last.imp_right fun visible => ⟨other, visible⟩
    · rw [if_neg (show (manager.modify window _).activeWindow ≠ window from active)]
      refine iff_of_true (FocusVisible.congr focus rfl fun visible => ?_)
        fun _ same => absurd same active
      rw [modify_records_of_ne active]
      exact visible

theorem createdRecord_visible {title : CString} {x y width height : UInt16} :
    (createdRecord title x y width height).Visible := by
  show (flagVisible ||| flagMovable) &&& flagVisible ≠ 0
  decide

/-- A created window is visible, and so is the focus after it. -/
theorem FocusVisible.create (focus : manager.FocusVisible) (bounded : manager.Bounded)
    (title : CString) (x y width height : UInt16) (allocated : UInt64) :
    (manager.windowCreate title x y width height allocated).2.FocusVisible := by
  rcases create_spec bounded title x y width height allocated with
    failed | ⟨_, _, _, _, active, _, records⟩
  · rw [failed]
    exact focus
  · rw [focusVisible_iff, active, records, Function.update_self]
    exact Or.inr createdRecord_visible

/-- A terminal's window is the allocated one, visible and active. -/
theorem createTerminalFrame_spec (bounded : manager.Bounded) {allocated : UInt64}
    (created : (manager.createTerminalFrame allocated).1 ≠ 0) :
    let frame := manager.createTerminalFrame allocated
    manager.numWindows < maxWindows ∧ allocated ≠ 0 ∧ frame.1 = allocated ∧ frame.2.Bounded ∧
      frame.2.list = arrange (arrange manager.list (.enter allocated)) (.lift allocated) ∧
      frame.2.activeWindow = allocated ∧
      ∃ record, record.Visible ∧
        frame.2.records = Function.update manager.records allocated record := by
  intro frame
  have room : manager.numWindows < maxWindows := by
    by_contra full
    rw [createTerminalFrame, windowCreate, if_pos (Nat.not_lt.mp full)] at created
    exact created rfl
  rcases create_spec bounded _ _ _ _ _ allocated with
    same | ⟨address, nonnull, kept, list, active, _, records⟩
  · exact absurd (congrArg Prod.fst same) created
  · exact ⟨room, nonnull, address, kept, list, active, _, createdRecord_visible, records⟩

/-- A failed terminal gives the focus back to the last window that remains. -/
theorem createTerminal_focus_iff (bounded : manager.Bounded) (focus : manager.FocusVisible)
    (allocated buffer : UInt64) :
    (manager.windowCreateTerminal allocated buffer).2.FocusVisible ↔
      manager.FocusesVisible (.createTerminal allocated buffer) := by
  have created : (manager.createTerminalFrame allocated).2.FocusVisible :=
    focus.create bounded _ _ _ _ _ _
  simp only [windowCreateTerminal, FocusesVisible]
  by_cases failed : (manager.createTerminalFrame allocated).1 = 0
  · rw [if_pos failed]
    refine iff_of_true created fun room nonnull _ => ?_
    rw [createTerminalFrame, windowCreate, if_neg (Nat.not_le.mpr room), if_neg nonnull] at failed
    exact absurd failed nonnull
  · rw [if_neg failed]
    by_cases noBuffer : buffer = 0
    · rw [if_pos noBuffer]
      obtain ⟨room, nonnull, window, kept, list, active, record, visible, records⟩ :=
        createTerminalFrame_spec bounded failed
      have member : allocated ∈ arrange (arrange manager.list (.enter allocated))
          (.lift allocated) :=
        mem_arrange_lift.mpr (List.mem_append_right _ (List.mem_singleton_self _))
      dsimp only
      rw [window, destroy_focus_iff kept created, active, LastVisible, list, records, LastVisible]
      generalize ((arrange (arrange manager.list (.enter allocated))
        (.lift allocated)).erase allocated).getLastD 0 = last
      by_cases same : last = allocated
      · subst same
        rw [Function.update_self]
        exact iff_of_true (fun _ _ => Or.inr visible) fun _ _ _ => Or.inl rfl
      · rw [Function.update_of_ne same]
        simp [same, member, room, nonnull, noBuffer]
    · rw [if_neg noBuffer]
      refine iff_of_true ?_ fun _ _ absent => absurd absent noBuffer
      have buffered : FocusVisible { (manager.createTerminalFrame allocated).2 with
          buffers := Function.update (manager.createTerminalFrame allocated).2.buffers buffer
            emptyBuffer } :=
        created.congr rfl id
      dsimp only
      apply FocusVisible.modify buffered
      exact fun _ visible => visible

/-- A mouse event keeps the focus visible exactly when the window that becomes
active behind a closed one is visible. -/
theorem handleMouse_focus_iff (bounded : manager.Bounded) (focus : manager.FocusVisible)
    (x y : UInt16) (buttons : UInt8) :
    (manager.windowHandleMouse x y buttons).FocusVisible ↔
      manager.FocusesVisible (.handleMouse x y buttons) := by
  rw [FocusesVisible]
  rcases manager.handleMouse_cases x y buttons with
    ⟨dragging, _, moved⟩ | ⟨dragging, dropped⟩ | ⟨idle, missed, same⟩ |
      ⟨idle, window, hit, titleBar, acted⟩
  · rw [moved]
    exact iff_of_true (focus.modify _ fun _ visible => visible)
      fun idle => absurd idle dragging
  · rw [dropped]
    exact iff_of_true (focus.congr rfl id) fun idle => absurd idle dragging
  · rw [same]
    refine iff_of_true focus fun _ window hit close => ?_
    exact absurd (close.inTitleBar) (missed window hit)
  · obtain ⟨member, visible, _⟩ := windowAt_spec hit
    have only : ∀ property : UInt64 → Prop,
        (∀ other, manager.windowAt x y = some other → property other) ↔ property window := by
      simp [hit]
    rw [acted, only]
    simp only [idle, forall_const]
    by_cases close : (manager.records window).OnCloseButton x y
    · rw [if_pos close]
      simp only [close, forall_const]
      by_cases left : LeftButton buttons
      · obtain ⟨list, records, _, kept, active⟩ := press_spec bounded window x y left
        rw [if_pos member] at active
        have pressed : (manager.press window x y buttons).FocusVisible := by
          rw [focusVisible_iff, active, records]
          exact Or.inr visible
        have lifted : window ∈ arrange manager.list (.lift window) := mem_arrange_lift.mpr member
        rw [destroy_focus_iff kept pressed, LastVisible, records, list]
        simp [left, lifted, active, LastVisible]
      · rw [press, if_neg left, destroy_focus_iff bounded focus]
        simp [left, member]
    · rw [if_neg close]
      refine iff_of_true ?_ fun closes => absurd closes close
      by_cases left : LeftButton buttons
      · obtain ⟨_, records, _, _, active⟩ := press_spec bounded window x y left
        rw [focusVisible_iff, active, if_pos member, records]
        exact Or.inr visible
      · rw [press, if_neg left]
        exact focus

/-- A call that is refused or assigns fields of its window, the visible flag
apart. -/
theorem FocusVisible.assigned (focus : manager.FocusVisible) {refused : Prop}
    [Decidable refused] (window : UInt64) {change : Window → Window}
    (same : ∀ record : Window,
      (change record).flags &&& flagVisible = record.flags &&& flagVisible) :
    FocusVisible (if refused then manager else manager.modify window change) := by
  split
  · exact focus
  · refine focus.modify window fun record visible => ?_
    rw [Window.Visible, same]
    exact visible

theorem FocusVisible.createPainted (focus : manager.FocusVisible) (bounded : manager.Bounded)
    (title : CString) (x y width height : UInt16) (paint : PaintHandler) (allocated : UInt64) :
    (manager.createPainted title x y width height paint allocated).2.FocusVisible := by
  have created := focus.create bounded title x y width height allocated
  simp only [Manager.createPainted]
  split
  · exact created
  · dsimp only
    apply FocusVisible.modify created
    exact fun _ visible => visible

/-- The window is visible before it is brought to the front. -/
theorem FocusVisible.show (focus : manager.FocusVisible) (bounded : manager.Bounded)
    (window : UInt64) : (manager.windowShow window).FocusVisible := by
  rw [windowShow]
  split
  · exact focus
  · have shown : FocusVisible (manager.modify window fun record =>
        { record with flags := record.flags ||| flagVisible }) :=
      focus.modify window fun record _ => visible_shown record.flags
    refine (bringToFront_focus_iff (modify_bounded bounded window _) shown window).mpr fun _ => ?_
    rw [modify_records_self]
    exact visible_shown _

/-- The step lemma: a call keeps the focus visible exactly when the window it
makes active is visible. -/
theorem call_focus_iff (bounded : manager.Bounded) (focus : manager.FocusVisible) (next : Call) :
    (manager.call next).FocusVisible ↔ manager.FocusesVisible next := by
  cases next with
  | create title x y width height allocated =>
      exact iff_of_true (focus.create bounded _ _ _ _ _ _) trivial
  | createTerminal allocated buffer => exact createTerminal_focus_iff bounded focus _ _
  | createFileBrowser allocated =>
      exact iff_of_true (focus.createPainted bounded _ _ _ _ _ _ _) trivial
  | createTextEditor allocated =>
      exact iff_of_true (focus.createPainted bounded _ _ _ _ _ _ _) trivial
  | destroy window => exact destroy_focus_iff bounded focus window
  | showWindow window => exact iff_of_true (focus.show bounded window) trivial
  | hide window => exact hide_focus_iff focus window
  | move window x y => exact iff_of_true (focus.assigned _ fun _ => rfl) trivial
  | resize window width height =>
      exact iff_of_true (focus.assigned _ fun _ => rfl) trivial
  | bringToFront window => exact bringToFront_focus_iff bounded focus window
  | minimize window =>
      refine iff_of_true (focus.assigned _ fun record => ?_) trivial
      exact visible_set_keep _ (by decide) (by decide)
  | maximize window =>
      refine iff_of_true (focus.assigned _ fun record => ?_) trivial
      exact visible_set_keep _ (by decide) (by decide)
  | restore window =>
      refine iff_of_true (focus.assigned _ fun record => ?_) trivial
      exact visible_keep _ (by decide)
  | handleMouse x y buttons => exact handleMouse_focus_iff bounded focus x y buttons
  | handleKey key =>
      obtain ⟨buffers, typed⟩ := manager.windowHandleKey_buffers key
      refine iff_of_true ?_ trivial
      rw [call, typed]
      exact focus.congr rfl id

theorem windowInit_focus (manager : Manager) : manager.windowInit.FocusVisible :=
  (focusVisible_iff _).mpr (Or.inl rfl)

end Manager

/-- In a run from `window_init` the active window is always `NULL` or visible,
and no hidden window gets a key, exactly when every call makes visible windows
active only. -/
theorem focus_visible_iff (before : Manager) (calls : List Call) :
    Throughout Manager.call Manager.FocusVisible before.windowInit calls ↔
      Along Manager.call Manager.FocusesVisible before.windowInit calls := by
  have started : before.windowInit.Bounded ∧ before.windowInit.FocusVisible :=
    ⟨before.windowInit_bounded, before.windowInit_focus⟩
  have exactly : ∀ (manager : Manager) (next : Call),
      manager.Bounded ∧ manager.FocusVisible → True →
        ((manager.call next).FocusVisible ↔ manager.FocusesVisible next) :=
    fun manager next sound _ => Manager.call_focus_iff sound.1 sound.2 next
  have keeps : ∀ (manager : Manager) (next : Call),
      manager.Bounded ∧ manager.FocusVisible → True → manager.FocusesVisible next →
        (manager.call next).Bounded ∧ (manager.call next).FocusVisible :=
    fun manager next sound any visible =>
      ⟨Manager.call_bounded sound.1 next, (exactly manager next sound any).mpr visible⟩
  have always : Along Manager.call (fun _ _ => True) before.windowInit calls :=
    along_of_forall fun _ _ => trivial
  rw [throughout_iff, along_iff _ _ keeps exactly started always]
  exact and_iff_right started.2

/-- A window created and hidden. -/
def hideOnly : List Call := [.create CString.empty 0 0 100 50 4096, .hide 4096]

/-- Hiding the last window of the list leaves it the active one. -/
theorem hidden_window_stays_active :
    ¬ Throughout Manager.call Manager.FocusVisible bootManager.windowInit hideOnly := by
  intro throughout
  have focus := throughout_iff_leading.mp throughout hideOnly List.prefix_rfl
  have hidden : (run Manager.call bootManager.windowInit hideOnly).activeWindow ≠ 0 ∧
      ¬ ((run Manager.call bootManager.windowInit hideOnly).records
        (run Manager.call bootManager.windowInit hideOnly).activeWindow).Visible := by
    decide +kernel
  exact focus.active.elim hidden.1 hidden.2

end NansOS.Windows
