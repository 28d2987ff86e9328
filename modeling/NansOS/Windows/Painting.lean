import NansOS.Video.Drawing
import NansOS.Windows.Order

/-! Owns the agreement of painting and clicking: the last window that the
drawing loop paints over a pixel against the window that a mouse event selects
there. Drawing adds coordinates in 16 bits and clicking compares them in `int`,
so a frame that is drawn past position 65535 is painted where it cannot be
clicked. It does not own what is painted inside a frame. -/

namespace NansOS.Windows

open NansOS.Foundation
open NansOS.Kernel
open NansOS.Video

/-! ### Last members -/

section Last

variable {Member : Type*} (property : Member → Bool)

/-- A loop that keeps the last member with a property finds what a search from
the end finds. -/
theorem foldl_last_eq (members : List Member) :
    members.foldl (fun last member => if property member then some member else last) none =
      members.reverse.find? property := by
  induction members using List.reverseRecOn with
  | nil => rfl
  | append_singleton rest last inductionHypothesis =>
      rw [List.foldl_append, List.reverse_append, inductionHypothesis]
      cases holds : property last with
      | true => simp [holds]
      | false => simp [holds]

/-- A search from the end looks behind a member, at it, and before it. -/
theorem find_reverse_split (before : List Member) (member : Member) (after : List Member) :
    (before ++ member :: after).reverse.find? property =
      (after.reverse.find? property).or
        (if property member then some member else before.reverse.find? property) := by
  rw [List.reverse_append, List.reverse_cons, List.append_assoc, List.find?_append]
  cases holds : property member with
  | true => simp [holds]
  | false => simp [holds]

/-- Two searches from the end, of which the first is narrower, agree exactly
when each member that only the second accepts has one behind it that the first
accepts too. -/
theorem find_reverse_eq_iff {narrow wide : Member → Bool}
    (narrower : ∀ member, narrow member → wide member) (members : List Member) :
    members.reverse.find? narrow = members.reverse.find? wide ↔
      ∀ before member after, members = before ++ member :: after → wide member →
        ¬ narrow member → ∃ other ∈ after, narrow other := by
  constructor
  · rintro same before member after rfl accepted rejected
    have rejected : narrow member = false := by simpa using rejected
    rw [find_reverse_split, find_reverse_split, if_pos accepted] at same
    by_contra uncovered
    have behind : after.reverse.find? narrow = none := by
      apply List.find?_eq_none.mpr
      intro other inside holds
      exact uncovered ⟨other, List.mem_reverse.mp inside, holds⟩
    simp only [behind, rejected, Bool.false_eq_true, if_false, Option.none_or] at same
    cases painted : after.reverse.find? wide with
    | none =>
        rw [painted, Option.none_or] at same
        exact absurd (List.find?_some same) (by simp [rejected])
    | some other =>
        rw [painted, Option.some_or] at same
        have inside := List.mem_reverse.mp (List.mem_of_find?_eq_some painted)
        exact uncovered ⟨other, inside, List.find?_some same⟩
  · intro covered
    cases found : members.reverse.find? wide with
    | none =>
        apply List.find?_eq_none.mpr
        intro member inside holds
        exact List.find?_eq_none.mp found member inside (narrower member holds)
    | some member =>
        obtain ⟨accepted, behind, ahead, split, others⟩ := List.find?_eq_some_iff_append.mp found
        have accepts : narrow member := by
          by_contra rejected
          have order : members = ahead.reverse ++ member :: behind.reverse := by
            rw [← List.reverse_inj, split]
            simp
          obtain ⟨other, inside, holds⟩ := covered _ _ _ order accepted rejected
          have excluded := others other (List.mem_reverse.mp inside)
          simp [narrower other holds] at excluded
        apply List.find?_eq_some_iff_append.mpr
        refine ⟨accepts, behind, ahead, split, fun other inside => ?_⟩
        have excluded := others other inside
        by_contra holds
        simp [narrower other (by simpa using holds)] at excluded

end Last

/-! ### Frames -/

/-- The outer frame, as `vga_draw_window` draws it first, sets the pixel. -/
def Window.FramePaints (window : Window) (mode : Mode) (x y : UInt16) : Prop :=
  mode.OnScreen x y ∧
    ⟨x, y, windowBorderColor⟩ ∈
      rectPlots window.x window.y window.width window.height windowBorderColor

instance (window : Window) (mode : Mode) (x y : UInt16) :
    Decidable (window.FramePaints mode x y) :=
  inferInstanceAs (Decidable (_ ∧ _))

/-- The frame comes to the pixel only past column or row 65535. -/
def Window.WrapsOnto (window : Window) (x y : UInt16) : Prop :=
  (Covers window.x window.width x ∨ Wraps window.x window.width x) ∧
    (Covers window.y window.height y ∨ Wraps window.y window.height y) ∧
      (Wraps window.x window.width x ∨ Wraps window.y window.height y)

instance (window : Window) (x y : UInt16) : Decidable (window.WrapsOnto x y) :=
  inferInstanceAs (Decidable (_ ∧ _))

theorem Window.contains_iff {window : Window} {x y : UInt16} :
    window.Contains x y ↔
      Covers window.x window.width x ∧ Covers window.y window.height y := by
  rw [Window.Contains, Covers, Covers, and_assoc]

/-- On screen, a frame paints what its window contains and what it wraps onto. -/
theorem Window.framePaints_iff {window : Window} {mode : Mode} {x y : UInt16}
    (onScreen : mode.OnScreen x y) :
    window.FramePaints mode x y ↔ window.Contains x y ∨ window.WrapsOnto x y := by
  rw [Window.FramePaints, mem_rectPlots, spans_iff, spans_iff, Window.contains_iff,
    Window.WrapsOnto]
  simp only [onScreen, true_and, and_true]
  tauto

/-- What a frame paints has the border colour once the frame is drawn. -/
theorem Window.FramePaints.drawn {window : Window} {screen : Screen} {x y : UInt16}
    (paints : window.FramePaints screen.mode x y) :
    (screen.vgaDrawRect window.x window.y window.width window.height
      windowBorderColor).backBuffer (screen.mode.offset x y) = windowBorderColor :=
  vgaDrawRect_sets screen paints.1 paints.2

/-- No pixel is in a window and wrapped onto by it. -/
theorem Window.WrapsOnto.not_contains {window : Window} {x y : UInt16}
    (wraps : window.WrapsOnto x y) : ¬ window.Contains x y := by
  have widthBound := window.width.toNat_lt
  have heightBound := window.height.toNat_lt
  rw [Window.contains_iff]
  obtain ⟨_, _, either⟩ := wraps
  simp only [Covers, Wraps] at either ⊢
  omega

namespace Manager

variable (manager : Manager)

/-- The last window whose frame the loop of `window_update` paints over the
pixel. -/
def paintedAt (mode : Mode) (x y : UInt16) : Option UInt64 :=
  manager.list.foldl
    (fun last window =>
      if (manager.records window).Visible ∧ (manager.records window).FramePaints mode x y then
        some window
      else last)
    none

/-- What is painted last at a pixel is a visible window: its frame, which is drawn before
the rest of it, puts the border colour into the cell of the pixel. -/
def PaintsFrames (mode : Mode) : Prop :=
  ∀ x y address, manager.paintedAt mode x y = some address →
    (manager.records address).Visible ∧ ∀ screen : Screen, screen.mode = mode →
      let window := manager.records address
      let framed :=
        screen.vgaDrawRect window.x window.y window.width window.height windowBorderColor
      framed.backBuffer (mode.offset x y) = windowBorderColor ∧
        ∃ interior, screen.vgaDrawWindow window.x window.y window.width window.height
          window.title = framed.draw interior

/-- Without a drag, a mouse event selects at every pixel on screen the window
that is painted there last. -/
def SelectsPainted (mode : Mode) : Prop :=
  manager.draggingWindow = 0 → ∀ x y, mode.OnScreen x y →
    manager.windowAt x y = manager.paintedAt mode x y

/-- Every visible window that wraps onto the pixel is below a visible one that
contains it. -/
def WrapsCovered (x y : UInt16) : Prop :=
  ∀ below window above, manager.list = below ++ window :: above →
    (manager.records window).Visible → (manager.records window).WrapsOnto x y →
      ∃ other ∈ above, (manager.records other).Visible ∧ (manager.records other).Contains x y

theorem paintedAt_eq (mode : Mode) (x y : UInt16) :
    manager.paintedAt mode x y = manager.list.reverse.find? fun window =>
      (manager.records window).Visible ∧ (manager.records window).FramePaints mode x y := by
  rw [← foldl_last_eq, paintedAt]
  simp only [decide_eq_true_eq]

theorem paintsFrames (mode : Mode) : manager.PaintsFrames mode := by
  intro x y address painted
  rw [paintedAt_eq] at painted
  have chosen := List.find?_some painted
  simp only [decide_eq_true_eq] at chosen
  refine ⟨chosen.1, fun screen same => ?_⟩
  subst same
  exact ⟨chosen.2.drawn, vgaDrawWindow_frame ..⟩

/-- One pixel of one state. -/
theorem windowAt_eq_paintedAt_iff {mode : Mode} {x y : UInt16}
    (onScreen : mode.OnScreen x y) :
    manager.windowAt x y = manager.paintedAt mode x y ↔ manager.WrapsCovered x y := by
  rw [paintedAt_eq, windowAt, find_reverse_eq_iff]
  · simp only [WrapsCovered, decide_eq_true_eq]
    constructor
    · intro covered below window above split visible wraps
      apply covered below window above split
      · exact ⟨visible, (Window.framePaints_iff onScreen).mpr (Or.inr wraps)⟩
      · exact fun both => wraps.not_contains both.2
    · intro covered below window above split ⟨visible, paints⟩ outside
      apply covered below window above split visible
      exact ((Window.framePaints_iff onScreen).mp paints).resolve_left
        fun contains => outside ⟨visible, contains⟩
  · intro window
    simp only [decide_eq_true_eq]
    rintro ⟨visible, contains⟩
    exact ⟨visible, (Window.framePaints_iff onScreen).mpr (Or.inl contains)⟩

/-- Without a drag, the windows that wrap onto a pixel on screen are covered
there. -/
def WrapsHidden (mode : Mode) : Prop :=
  manager.draggingWindow = 0 → ∀ x y, mode.OnScreen x y → manager.WrapsCovered x y

theorem selectsPainted_iff (mode : Mode) :
    manager.SelectsPainted mode ↔ manager.WrapsHidden mode := by
  constructor
  · intro selects idle x y onScreen
    exact (manager.windowAt_eq_paintedAt_iff onScreen).mp (selects idle x y onScreen)
  · intro covered idle x y onScreen
    exact (manager.windowAt_eq_paintedAt_iff onScreen).mpr (covered idle x y onScreen)

end Manager

/-- In a run from `window_init`, what is painted is what is clicked in every
state exactly when in every state no frame wraps onto a pixel uncovered. In every
state the frame of the window painted last puts its colour into the buffer. -/
theorem painted_is_clicked_iff (mode : Mode) (before : Manager) (calls : List Call) :
    (Throughout Manager.call (fun manager => manager.SelectsPainted mode) before.windowInit
        calls ↔
      Throughout Manager.call (fun manager => manager.WrapsHidden mode) before.windowInit
        calls) ∧
      Throughout Manager.call (fun manager => manager.PaintsFrames mode) before.windowInit
        calls := by
  constructor
  · simp only [throughout_iff_leading, Manager.selectsPainted_iff]
  · exact throughout_iff_leading.mpr fun _ _ => Manager.paintsFrames _ mode

/-- A window dragged past the left edge of the screen. -/
def dragLeft : List Call :=
  [.create CString.empty 10 0 100 50 4096, .handleMouse 15 5 1, .handleMouse 0 5 1,
    .handleMouse 0 5 0]

/-- Its frame is painted at the left edge, where it cannot be clicked. -/
theorem dragged_window_not_clicked :
    ¬ Throughout Manager.call (fun manager => manager.SelectsPainted ⟨640, 480, 320⟩)
      bootManager.windowInit dragLeft := by
  intro throughout
  have selects := throughout_iff_leading.mp throughout dragLeft List.prefix_rfl
  have idle : (run Manager.call bootManager.windowInit dragLeft).draggingWindow = 0 := by
    decide +kernel
  have missed : (run Manager.call bootManager.windowInit dragLeft).windowAt 0 30 = none := by
    decide +kernel
  have listed : (run Manager.call bootManager.windowInit dragLeft).list = [4096] := by
    decide +kernel
  have onScreen : Mode.OnScreen ⟨640, 480, 320⟩ 0 30 := by decide
  have shown : ((run Manager.call bootManager.windowInit dragLeft).records 4096).Visible ∧
      ((run Manager.call bootManager.windowInit dragLeft).records 4096).WrapsOnto 0 30 := by
    decide +kernel
  have painted := (Window.framePaints_iff onScreen).mpr (Or.inr shown.2)
  have selected := selects idle 0 30 onScreen
  rw [missed, Manager.paintedAt, listed] at selected
  simp [shown.1, painted] at selected

end NansOS.Windows
