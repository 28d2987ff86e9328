import NansOS.Windows.Order

/-! Owns the references of the window manager into its list: when the active
and the dragged window are listed. A call is judged by whether it destroys the
window that is dragged after it. -/

namespace NansOS.Windows

open NansOS.Foundation
open NansOS.Kernel

/-- The close button lies in the title bar. -/
theorem Window.OnCloseButton.inTitleBar {window : Window} {x y : UInt16}
    (close : window.OnCloseButton x y) : window.InTitleBar y := by
  have below := close.2.2.2
  rw [Window.InTitleBar]
  omega

namespace Manager

variable {manager : Manager}

/-! ### Bounds without conditions -/

/-- Every call keeps the array in bounds, whatever `malloc` returns. -/
theorem call_bounded (bounded : manager.Bounded) (next : Call) : (manager.call next).Bounded := by
  have created : ∀ (title : CString) (x y width height : UInt16) (allocated : UInt64),
      (manager.windowCreate title x y width height allocated).2.Bounded := by
    intro title x y width height allocated
    rcases create_spec bounded title x y width height allocated with failed | ⟨_, _, kept, _⟩
    · rw [failed]
      exact bounded
    · exact kept
  have painted : ∀ (title : CString) (x y width height : UInt16) (paint : PaintHandler)
      (allocated : UInt64),
      (manager.createPainted title x y width height paint allocated).2.Bounded := by
    intro title x y width height paint allocated
    have kept := created title x y width height allocated
    simp only [createPainted]
    split
    · exact kept
    · exact kept.congr rfl rfl
  have unlisting : manager.FreshMalloc next → (manager.call next).Bounded := by
    intro fresh
    exact (call_follows bounded fresh).bounded
  cases next with
  | create title x y width height allocated => exact created title x y width height allocated
  | createTerminal allocated buffer =>
      have kept : (manager.createTerminalFrame allocated).2.Bounded := created _ _ _ _ _ _
      simp only [call, windowCreateTerminal]
      split
      · exact kept
      · split
        · exact (destroy_spec kept _).1.bounded
        · exact kept.congr rfl rfl
  | createFileBrowser allocated => exact painted _ _ _ _ _ _ allocated
  | createTextEditor allocated => exact painted _ _ _ _ _ _ allocated
  | destroy window => exact unlisting trivial
  | showWindow window => exact unlisting trivial
  | hide window => exact unlisting trivial
  | move window x y => exact unlisting trivial
  | resize window width height => exact unlisting trivial
  | bringToFront window => exact unlisting trivial
  | minimize window => exact unlisting trivial
  | maximize window => exact unlisting trivial
  | restore window => exact unlisting trivial
  | handleMouse x y buttons => exact unlisting trivial
  | handleKey key => exact unlisting trivial

/-! ### Listed references -/

/-- The active and the dragged window are each `NULL` or listed. -/
structure Held (manager : Manager) : Prop where
  active : manager.activeWindow = 0 ∨ manager.activeWindow ∈ manager.list
  dragging : manager.draggingWindow = 0 ∨ manager.draggingWindow ∈ manager.list

/-- The call does not destroy the dragged window, nor one whose drag it
starts. -/
def SparesDragged (manager : Manager) : Call → Prop
  | .destroy window => window = 0 ∨ window ≠ manager.draggingWindow
  | .createTerminal allocated buffer =>
      (manager.createTerminalFrame allocated).1 ≠ 0 → buffer = 0 →
        allocated ≠ manager.draggingWindow
  | .handleMouse x y buttons => manager.draggingWindow = 0 → LeftButton buttons →
      ∀ window, manager.windowAt x y = some window →
        ¬ (manager.records window).OnCloseButton x y
  | _ => True

theorem getLastD_mem {order : List UInt64} : order.getLastD 0 = 0 ∨ order.getLastD 0 ∈ order := by
  rcases List.eq_nil_or_concat order with rfl | ⟨rest, last, rfl⟩
  · exact Or.inl rfl
  · rw [List.concat_eq_append, List.getLastD_concat]
    exact Or.inr (List.mem_append_right _ (List.mem_singleton_self _))

/-- Raising a window keeps the references listed. -/
theorem Held.bringToFront (held : manager.Held) (bounded : manager.Bounded) (window : UInt64) :
    (manager.windowBringToFront window).Held := by
  obtain ⟨raised, active⟩ := bringToFront_spec bounded window
  constructor
  · rw [active, raised.list, mem_arrange_lift]
    split
    · exact Or.inr ‹_›
    · exact held.active
  · rw [raised.dragging, raised.list, mem_arrange_lift]
    exact held.dragging

/-- Destroying a window keeps the references listed unless it is dragged. -/
theorem Held.destroy (held : manager.Held) (bounded : manager.Bounded) {window : UInt64}
    (spared : window ≠ manager.draggingWindow) : (manager.windowDestroy window).Held := by
  obtain ⟨removed, active⟩ := destroy_spec bounded window
  constructor
  · rw [active, removed.list, arrange]
    split
    · exact getLastD_mem
    · next others =>
        rcases held.active with null | listed
        · exact Or.inl null
        · have different : manager.activeWindow ≠ window := by
            intro same
            exact others ⟨same ▸ listed, same⟩
          exact Or.inr ((List.mem_erase_of_ne different).mpr listed)
  · rw [removed.dragging, removed.list, arrange]
    exact held.dragging.imp_right fun listed => (List.mem_erase_of_ne spared.symm).mpr listed

theorem Held.create (held : manager.Held) (bounded : manager.Bounded) (title : CString)
    (x y width height : UInt16) (allocated : UInt64) :
    (manager.windowCreate title x y width height allocated).2.Held := by
  rcases create_spec bounded title x y width height allocated with
    failed | ⟨_, _, _, list, active, dragging, _⟩
  · rw [failed]
    exact held
  · constructor
    · rw [active, list, mem_arrange_lift]
      exact Or.inr (List.mem_append_right _ (List.mem_singleton_self _))
    · rw [dragging, list, mem_arrange_lift]
      exact held.dragging.imp_right (List.mem_append_left _)

/-- A window hit by a click is listed and visible. -/
theorem windowAt_spec {x y : UInt16} {window : UInt64}
    (hit : manager.windowAt x y = some window) :
    window ∈ manager.list ∧ (manager.records window).Visible ∧
      (manager.records window).Contains x y := by
  have member := List.mem_of_find?_eq_some hit
  have holds := List.find?_some hit
  simp only [decide_eq_true_eq] at holds
  exact ⟨List.mem_reverse.mp member, holds⟩

/-- References that a call leaves alone stay listed. -/
theorem Held.congr {after : Manager} (held : manager.Held) (list : after.list = manager.list)
    (active : after.activeWindow = manager.activeWindow)
    (dragging : after.draggingWindow = manager.draggingWindow) : after.Held := by
  constructor
  · rw [active, list]
    exact held.active
  · rw [dragging, list]
    exact held.dragging

/-- A mouse event keeps the references listed unless it destroys the window
whose drag it starts. -/
theorem Held.handleMouse (held : manager.Held) (bounded : manager.Bounded) {x y : UInt16}
    {buttons : UInt8} (spares : manager.SparesDragged (.handleMouse x y buttons)) :
    (manager.windowHandleMouse x y buttons).Held := by
  rcases manager.handleMouse_cases x y buttons with
    ⟨dragging, _, moved⟩ | ⟨dragging, dropped⟩ | ⟨idle, missed, same⟩ |
      ⟨idle, window, hit, titleBar, acted⟩
  · rw [moved]
    exact held.congr rfl rfl rfl
  · rw [dropped]
    exact ⟨held.active, Or.inl rfl⟩
  · rw [same]
    exact held
  · obtain ⟨member, _, _⟩ := windowAt_spec hit
    rw [acted]
    by_cases left : LeftButton buttons
    · obtain ⟨list, _, dragging, _, active⟩ := press_spec bounded window x y left
      have lifted : window ∈ (manager.press window x y buttons).list := by
        rw [list, mem_arrange_lift]
        exact member
      rw [if_neg (spares idle left window hit)]
      constructor
      · rw [active, if_pos member]
        exact Or.inr lifted
      · rw [dragging]
        exact Or.inr lifted
    · rw [press, if_neg left]
      split
      · apply held.destroy bounded
        rw [idle]
        intro null
        exact bounded.nonnull (null ▸ member)
      · exact held

/-- A terminal keeps the references listed, also when its buffer cannot be
allocated and it is destroyed again. -/
theorem Held.createTerminal (held : manager.Held) (bounded : manager.Bounded)
    {allocated buffer : UInt64}
    (spares : manager.SparesDragged (.createTerminal allocated buffer)) :
    (manager.windowCreateTerminal allocated buffer).2.Held := by
  have created : (manager.createTerminalFrame allocated).2.Held :=
    held.create bounded _ _ _ _ _ _
  simp only [windowCreateTerminal]
  by_cases failed : (manager.createTerminalFrame allocated).1 = 0
  · rw [if_pos failed]
    exact created
  · rw [if_neg failed]
    by_cases noBuffer : buffer = 0
    · rw [if_pos noBuffer]
      rcases create_spec bounded _ _ _ _ _ allocated with
        same | ⟨address, _, kept, _, _, dragging, _⟩
      · exact absurd (congrArg Prod.fst same) failed
      · apply created.destroy kept
        have different := spares failed noBuffer
        rwa [← address, ← dragging] at different
    · rw [if_neg noBuffer]
      exact created.congr rfl rfl rfl

/-- A call that is refused or assigns fields of its window. -/
theorem Held.assigned (held : manager.Held) {refused : Prop} [Decidable refused]
    (window : UInt64) (change : Window → Window) :
    Held (if refused then manager else manager.modify window change) := by
  split
  · exact held
  · exact held.congr rfl rfl rfl

theorem Held.createPainted (held : manager.Held) (bounded : manager.Bounded) (title : CString)
    (x y width height : UInt16) (paint : PaintHandler) (allocated : UInt64) :
    (manager.createPainted title x y width height paint allocated).2.Held := by
  have created := held.create bounded title x y width height allocated
  simp only [Manager.createPainted]
  split
  · exact created
  · exact created.congr rfl rfl rfl

theorem Held.show (held : manager.Held) (bounded : manager.Bounded) (window : UInt64) :
    (manager.windowShow window).Held := by
  rw [windowShow]
  split
  · exact held
  · have shown : Held (manager.modify window fun record =>
        { record with flags := record.flags ||| flagVisible }) := held.congr rfl rfl rfl
    exact shown.bringToFront (bounded.congr rfl rfl) window

/-- Hiding the active window selects the last of the list. -/
theorem Held.hide (held : manager.Held) (window : UInt64) : (manager.windowHide window).Held := by
  simp only [windowHide]
  split
  · exact held
  · split
    · refine ⟨?_, held.dragging⟩
      show Manager.lastWindow _ = 0 ∨ _
      rw [lastWindow_eq]
      exact getLastD_mem
    · exact held.congr rfl rfl rfl

/-- The step lemma: a call that spares the dragged window keeps the references
listed. -/
theorem Held.call (held : manager.Held) (bounded : manager.Bounded) {next : Call}
    (spares : manager.SparesDragged next) : (manager.call next).Held := by
  cases next with
  | create title x y width height allocated => exact held.create bounded _ _ _ _ _ _
  | createTerminal allocated buffer =>
      exact Held.createTerminal held bounded spares
  | createFileBrowser allocated => exact held.createPainted bounded _ _ _ _ _ _ _
  | createTextEditor allocated => exact held.createPainted bounded _ _ _ _ _ _ _
  | destroy window =>
      rcases spares with rfl | different
      · exact held
      · exact held.destroy bounded different
  | showWindow window => exact held.show bounded window
  | hide window => exact held.hide window
  | move window x y => exact held.assigned _ _
  | resize window width height => exact held.assigned _ _
  | bringToFront window => exact held.bringToFront bounded window
  | minimize window => exact held.assigned _ _
  | maximize window => exact held.assigned _ _
  | restore window => exact held.assigned _ _
  | handleMouse x y buttons => exact held.handleMouse bounded spares
  | handleKey key =>
      obtain ⟨buffers, typed⟩ := manager.windowHandleKey_buffers key
      rw [Manager.call, typed]
      exact held.congr rfl rfl rfl

/-- The step lemma the other way: with `malloc` returning fresh addresses, only
calls that spare the dragged window keep the references listed. -/
theorem Held.spares (held : manager.Held) (bounded : manager.Bounded)
    (distinct : manager.list.Nodup) {next : Call} (fresh : manager.FreshMalloc next)
    (after : (manager.call next).Held) : manager.SparesDragged next := by
  cases next with
  | destroy window =>
      by_cases null : window = 0
      · exact Or.inl null
      · right
        rintro rfl
        obtain ⟨removed, _⟩ := destroy_spec bounded manager.draggingWindow
        rcases after.dragging with gone | listed
        · exact null (removed.dragging ▸ gone)
        · have listed : (manager.windowDestroy _).draggingWindow ∈ (manager.windowDestroy _).list :=
            listed
          rw [removed.dragging, removed.list, arrange] at listed
          exact distinct.not_mem_erase listed
  | createTerminal allocated buffer =>
      intro created noBuffer
      have address : allocated ≠ 0 ∧ allocated ∉ manager.list := by
        rcases create_spec bounded _ _ _ _ _ allocated with same | ⟨_, nonnull, _⟩
        · exact absurd (congrArg Prod.fst same) created
        · exact ⟨nonnull, fresh.resolve_left nonnull⟩
      rintro rfl
      exact held.dragging.elim address.1 address.2
  | handleMouse x y buttons =>
      intro idle left window hit close
      obtain ⟨member, _, _⟩ := windowAt_spec hit
      have titleBar := close.inTitleBar
      have acted : manager.call (.handleMouse x y buttons) =
          (manager.press window x y buttons).windowDestroy window := by
        rcases manager.handleMouse_cases x y buttons with
          ⟨dragging, _⟩ | ⟨dragging, _⟩ | ⟨_, missed, _⟩ | ⟨_, other, same, _, acted⟩
        · exact absurd idle dragging
        · exact absurd idle dragging
        · exact absurd titleBar (missed window hit)
        · obtain rfl := Option.some.inj (hit.symm.trans same)
          exact acted.trans (if_pos close)
      obtain ⟨list, _, dragging, kept, _⟩ := press_spec bounded window x y left
      obtain ⟨removed, _⟩ := destroy_spec kept window
      have pressedDistinct : (manager.press window x y buttons).list.Nodup := by
        rw [list]
        exact arrange_nodup distinct trivial
      have dangling := after.dragging
      rw [acted, removed.dragging, dragging, removed.list, arrange] at dangling
      rcases dangling with null | listed
      · exact bounded.nonnull (null ▸ member)
      · exact pressedDistinct.not_mem_erase listed
  | _ => trivial

theorem windowInit_held (manager : Manager) : manager.windowInit.Held :=
  ⟨Or.inl rfl, Or.inl rfl⟩

end Manager

/-- In every run from `window_init` whose calls spare the dragged window, the
active and the dragged window are always `NULL` or listed; and where `malloc`
returns fresh addresses, in no other run. -/
theorem references_stay_listed (before : Manager) (calls : List Call) :
    (Along Manager.call Manager.SparesDragged before.windowInit calls →
      Throughout Manager.call Manager.Held before.windowInit calls) ∧
    (Along Manager.call Manager.FreshMalloc before.windowInit calls →
      Throughout Manager.call Manager.Held before.windowInit calls →
        Along Manager.call Manager.SparesDragged before.windowInit calls) := by
  have bounded := before.windowInit_bounded
  have held := before.windowInit_held
  constructor
  · intro spares
    have kept : ∀ (manager : Manager) (next : Call), manager.Bounded ∧ manager.Held →
        manager.SparesDragged next → (manager.call next).Held :=
      fun manager next invariant spares => invariant.2.call invariant.1 spares
    have invariant : before.windowInit.Bounded ∧ before.windowInit.Held := ⟨bounded, held⟩
    refine throughout_iff.mpr ⟨held, along_of_invariant ?_ kept invariant spares⟩
    intro manager next invariant spares
    exact ⟨Manager.call_bounded invariant.1 next, kept manager next invariant spares⟩
  · intro fresh throughout
    have distinct : before.windowInit.list.Nodup := by
      simp [Manager.list, Manager.windowInit]
    apply (along_iff
      (fun manager : Manager => manager.Bounded ∧ manager.list.Nodup ∧ manager.Held)
      Manager.FreshMalloc ?_ ?_ ⟨bounded, distinct, held⟩ fresh).mp (throughout_iff.mp throughout).2
    · rintro manager next ⟨bounded, distinct, held⟩ fresh spares
      have follows := Manager.call_follows bounded fresh
      refine ⟨follows.bounded, ?_, held.call bounded spares⟩
      rw [follows.list]
      exact arrange_events_nodup distinct follows.enters
    · rintro manager next ⟨bounded, distinct, held⟩ fresh
      exact ⟨held.spares bounded distinct fresh, held.call bounded⟩

/-- A window created and then closed with the left button. -/
def closeWithMouse : List Call :=
  [.create CString.empty 0 0 100 50 4096, .handleMouse 85 5 1]

/-- Its address stays in `dragging_window`. -/
theorem closed_window_stays_dragged :
    ¬ Throughout Manager.call Manager.Held bootManager.windowInit closeWithMouse := by
  intro throughout
  have held := throughout_iff_leading.mp throughout closeWithMouse List.prefix_rfl
  have dangling : (run Manager.call bootManager.windowInit closeWithMouse).draggingWindow = 4096 ∧
      (run Manager.call bootManager.windowInit closeWithMouse).list = [] := by
    decide +kernel
  have listed := held.dragging
  rw [dangling.1, dangling.2] at listed
  exact absurd listed (by decide)

end NansOS.Windows
