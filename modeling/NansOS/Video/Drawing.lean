import NansOS.Kernel.StringOps
import Mathlib.Logic.Function.Basic

/-! Owns drawing into the back buffer of `vga.c`: the calls of `vga_set_pixel`
that each drawing function makes, in order, and what they leave in the buffer.
Coordinates are `uint16_t` and wrap. It does not own lines and buttons. -/

namespace NansOS.Video

open NansOS.Kernel

/-! ### Data model -/

/-- The fields of `struct VGAMode` that drawing reads. -/
structure Mode where
  width : UInt16
  height : UInt16
  pitch : UInt32

/-- The current mode and the back buffer. -/
structure Screen where
  mode : Mode
  backBuffer : Nat → UInt8

/-- The arguments of one call of `vga_set_pixel`. -/
structure Plot where
  x : UInt16
  y : UInt16
  color : UInt8
deriving DecidableEq

/-- `VGA_COLOR_LIGHT_GRAY`, as `WINDOW_BORDER_COLOR`. -/
abbrev windowBorderColor : UInt8 := 0x07

/-- `VGA_COLOR_BLUE`, as `WINDOW_TITLE_COLOR`. -/
abbrev windowTitleColor : UInt8 := 0x01

/-- `VGA_COLOR_WHITE`, also as `WINDOW_BACKGROUND_COLOR`. -/
abbrev colorWhite : UInt8 := 0x0F

/-- `VGA_COLOR_RED`. -/
abbrev colorRed : UInt8 := 0x04

/-- The bound check of `vga_set_pixel` passes. -/
def Mode.OnScreen (mode : Mode) (x y : UInt16) : Prop := x < mode.width ∧ y < mode.height

instance (mode : Mode) (x y : UInt16) : Decidable (mode.OnScreen x y) :=
  inferInstanceAs (Decidable (_ ∧ _))

/-- The index that `vga_set_pixel` stores to, in `uint32_t`. -/
def Mode.offset (mode : Mode) (x y : UInt16) : Nat :=
  (y.toUInt32 * mode.pitch + x.toUInt32).toNat

/-! ### Drawing functions -/

/-- `vga_set_pixel`. -/
def Screen.vgaSetPixel (screen : Screen) (x y : UInt16) (color : UInt8) : Screen :=
  if x ≥ screen.mode.width ∨ y ≥ screen.mode.height then screen
  else
    { screen with
      backBuffer := Function.update screen.backBuffer (screen.mode.offset x y) color }

/-- Calls of `vga_set_pixel`, in order. -/
def Screen.draw (screen : Screen) (plots : List Plot) : Screen :=
  plots.foldl (fun screen plot => screen.vgaSetPixel plot.x plot.y plot.color) screen

/-- The calls that the two loops of `vga_draw_rect` make. -/
def rectPlots (x y width height : UInt16) (color : UInt8) : List Plot :=
  (List.range height.toNat).flatMap fun i =>
    (List.range width.toNat).map fun j => ⟨x + UInt16.ofNat j, y + UInt16.ofNat i, color⟩

/-- `vga_draw_rect`. -/
def Screen.vgaDrawRect (screen : Screen) (x y width height : UInt16) (color : UInt8) : Screen :=
  screen.draw (rectPlots x y width height color)

/-- The calls that `vga_draw_text` makes: a rectangle for each character. -/
def textPlots (x y : UInt16) (text : CString) (color : UInt8) : List Plot :=
  (List.range (strlen text)).flatMap fun i =>
    rectPlots (x + UInt16.ofNat (i * 8)) y (8 - 1) 16 color

/-- The calls that `vga_draw_window` makes: border, title bar with its text,
background, and close button with its cross. -/
def windowPlots (x y width height : UInt16) (title : CString) : List Plot :=
  rectPlots x y width height windowBorderColor ++
    rectPlots (x + 1) (y + 1) (width - 2) 20 windowTitleColor ++
    textPlots (x + 5) (y + 5) title colorWhite ++
    rectPlots (x + 1) (y + 21) (width - 2) (height - 22) colorWhite ++
    rectPlots (x + width - 18) (y + 4) 14 14 colorRed ++
    textPlots (x + width - 16) (y + 6) ⟨[88], by decide⟩ colorWhite

/-- `vga_draw_window`. -/
def Screen.vgaDrawWindow (screen : Screen) (x y width height : UInt16) (title : CString) :
    Screen :=
  screen.draw (windowPlots x y width height title)

/-! ### The pixels of a rectangle -/

/-- `extent` positions from `start` on, cut to 16 bits, come to `position`. -/
def Spans (start extent position : UInt16) : Prop :=
  ∃ step < extent.toNat, start + UInt16.ofNat step = position

theorem mem_rectPlots {x y width height : UInt16} {color : UInt8} {plot : Plot} :
    plot ∈ rectPlots x y width height color ↔
      Spans x width plot.x ∧ Spans y height plot.y ∧ plot.color = color := by
  obtain ⟨plotX, plotY, plotColor⟩ := plot
  simp only [rectPlots, List.mem_flatMap, List.mem_map, List.mem_range, Plot.mk.injEq, Spans]
  constructor
  · rintro ⟨i, below, j, left, horizontal, vertical, same⟩
    exact ⟨⟨j, left, horizontal⟩, ⟨i, below, vertical⟩, same.symm⟩
  · rintro ⟨⟨j, left, horizontal⟩, ⟨i, below, vertical⟩, same⟩
    exact ⟨i, below, j, left, horizontal, vertical, same.symm⟩

/-- The span comes to the position in `int`. -/
def Covers (start extent position : UInt16) : Prop :=
  position.toNat ≥ start.toNat ∧ position.toNat < start.toNat + extent.toNat

instance (start extent position : UInt16) : Decidable (Covers start extent position) :=
  inferInstanceAs (Decidable (_ ∧ _))

/-- The span comes to the position after 65535. -/
def Wraps (start extent position : UInt16) : Prop :=
  position.toNat + 65536 < start.toNat + extent.toNat

instance (start extent position : UInt16) : Decidable (Wraps start extent position) :=
  inferInstanceAs (Decidable (_ < _))

theorem spans_iff {start extent position : UInt16} :
    Spans start extent position ↔
      Covers start extent position ∨ Wraps start extent position := by
  have startBound := start.toNat_lt
  have extentBound := extent.toNat_lt
  have positionBound := position.toNat_lt
  have value : ∀ step, (start + UInt16.ofNat step).toNat = (start.toNat + step) % 65536 := by
    intro step
    simp [UInt16.toNat_add]
  simp only [Covers, Wraps]
  constructor
  · rintro ⟨step, below, reached⟩
    have shown := value step
    rw [reached] at shown
    omega
  · rintro (⟨after, inside⟩ | wraps)
    · refine ⟨position.toNat - start.toNat, by omega, UInt16.toNat_inj.mp ?_⟩
      rw [value]
      omega
    · refine ⟨position.toNat + 65536 - start.toNat, by omega, UInt16.toNat_inj.mp ?_⟩
      rw [value]
      omega

/-! ### The back buffer -/

@[simp] theorem draw_cons (screen : Screen) (plot : Plot) (rest : List Plot) :
    screen.draw (plot :: rest) =
      (screen.vgaSetPixel plot.x plot.y plot.color).draw rest := rfl

theorem vgaSetPixel_mode (screen : Screen) (x y : UInt16) (color : UInt8) :
    (screen.vgaSetPixel x y color).mode = screen.mode := by
  rw [Screen.vgaSetPixel]
  split
  · rfl
  · rfl

theorem vgaSetPixel_cell (screen : Screen) (x y : UInt16) (color : UInt8) (cell : Nat) :
    (screen.vgaSetPixel x y color).backBuffer cell =
      if screen.mode.OnScreen x y ∧ screen.mode.offset x y = cell then color
      else screen.backBuffer cell := by
  rw [Screen.vgaSetPixel]
  by_cases outside : x ≥ screen.mode.width ∨ y ≥ screen.mode.height
  · rw [if_pos outside, if_neg]
    rintro ⟨⟨left, above⟩, _⟩
    exact outside.elim (UInt16.not_le.mpr left) (UInt16.not_le.mpr above)
  · obtain ⟨left, above⟩ := not_or.mp outside
    have onScreen : screen.mode.OnScreen x y := ⟨UInt16.not_le.mp left, UInt16.not_le.mp above⟩
    rw [if_neg outside]
    by_cases same : screen.mode.offset x y = cell
    · subst same
      rw [if_pos ⟨onScreen, rfl⟩]
      exact Function.update_self _ _ _
    · rw [if_neg fun both => same both.2]
      exact Function.update_of_ne (Ne.symm same) _ _

/-- Calls of one colour leave it in the cells of their pixels on screen and
keep every other cell. -/
theorem draw_cell {plots : List Plot} {color : UInt8}
    (uniform : ∀ plot ∈ plots, plot.color = color) (screen : Screen) (cell : Nat) :
    (screen.draw plots).backBuffer cell =
      if ∃ plot ∈ plots, screen.mode.OnScreen plot.x plot.y ∧
        screen.mode.offset plot.x plot.y = cell then color
      else screen.backBuffer cell := by
  induction plots generalizing screen with
  | nil => simp [Screen.draw]
  | cons plot rest inductionHypothesis =>
      have later : ∀ other ∈ rest, other.color = color :=
        fun other member => uniform other (List.mem_cons_of_mem _ member)
      rw [draw_cons, inductionHypothesis later, vgaSetPixel_mode, vgaSetPixel_cell,
        uniform plot List.mem_cons_self]
      simp only [List.mem_cons, exists_eq_or_imp]
      by_cases drawn : ∃ other ∈ rest, screen.mode.OnScreen other.x other.y ∧
          screen.mode.offset other.x other.y = cell
      · rw [if_pos drawn, if_pos (Or.inr drawn)]
      · rw [if_neg drawn]
        by_cases first : screen.mode.OnScreen plot.x plot.y ∧
            screen.mode.offset plot.x plot.y = cell
        · rw [if_pos first, if_pos (Or.inl first)]
        · rw [if_neg first, if_neg (not_or.mpr ⟨first, drawn⟩)]

/-- A pixel on screen that a rectangle comes to gets its colour. -/
theorem vgaDrawRect_sets (screen : Screen) {x y width height px py : UInt16} {color : UInt8}
    (onScreen : screen.mode.OnScreen px py)
    (member : ⟨px, py, color⟩ ∈ rectPlots x y width height color) :
    (screen.vgaDrawRect x y width height color).backBuffer (screen.mode.offset px py) =
      color := by
  rw [Screen.vgaDrawRect, draw_cell fun plot drawn => (mem_rectPlots.mp drawn).2.2]
  exact if_pos ⟨_, member, onScreen, rfl⟩

/-- The border rectangle comes first when a window is drawn. -/
theorem vgaDrawWindow_frame (screen : Screen) (x y width height : UInt16) (title : CString) :
    ∃ interior, screen.vgaDrawWindow x y width height title =
      (screen.vgaDrawRect x y width height windowBorderColor).draw interior := by
  simp only [Screen.vgaDrawWindow, windowPlots, List.append_assoc]
  exact ⟨_, List.foldl_append⟩

end NansOS.Video
