import NansOS.Foundation.Run
import NansOS.Video.Lines

/-! Owns the cells of the pixels: the modes of `vga_set_mode`, and which calls of
`vga_set_pixel` store inside `back_buffer` and into the cell of no other pixel on
screen. In both modes whose pitch covers the width every call does. The third
mode counts two pixels to a byte, and `vga_set_pixel` one. -/

namespace NansOS.Video

open NansOS.Foundation
open NansOS.Kernel

/-! ### Modes -/

/-- `VGA_MEMORY_SIZE`. -/
abbrev vgaMemorySize : Nat := 0x10000

/-- `VGA_MODE_TEXT_80x25`. -/
abbrev vgaModeText80x25 : UInt8 := 0x03

/-- `VGA_MODE_320x200x256`. -/
abbrev vgaMode320x200x256 : UInt8 := 0x13

/-- `VGA_MODE_640x480x16`. -/
abbrev vgaMode640x480x16 : UInt8 := 0x12

/-- The `switch (mode)` of `vga_set_mode`. -/
def modeFor (mode : UInt8) : Option Mode :=
  if mode = vgaModeText80x25 then some ⟨80, 25, 80 * 2⟩
  else if mode = vgaMode320x200x256 then some ⟨320, 200, 320⟩
  else if mode = vgaMode640x480x16 then some ⟨640, 480, 640 / 2⟩
  else none

/-- `vga_set_mode`, without the ports and the front buffer. -/
def Screen.vgaSetMode (mode : UInt8) (screen : Screen) : Int32 × Screen :=
  match modeFor mode with
  | none => (-1, screen)
  | some current =>
      (0,
        { mode := current
          backBuffer := fun cell => if cell < vgaMemorySize then 0 else screen.backBuffer cell })

/-! ### Runs of drawing calls -/

/-- `vga_draw_text`. -/
def Screen.vgaDrawText (screen : Screen) (x y : UInt16) (text : CString) (color : UInt8) :
    Screen :=
  screen.draw (textPlots x y text color)

inductive DrawCall where
  | setPixel (x y : UInt16) (color : UInt8)
  | drawRect (x y width height : UInt16) (color : UInt8)
  | drawLine (x1 y1 x2 y2 : UInt16) (color : UInt8)
  | drawText (x y : UInt16) (text : CString) (color : UInt8)

/-- A drawing call; `none` if the loop of a line has not left after 65536 passes. -/
def Screen.perform (screen : Screen) : DrawCall → Option Screen
  | .setPixel x y color => some (screen.vgaSetPixel x y color)
  | .drawRect x y width height color => some (screen.vgaDrawRect x y width height color)
  | .drawLine x1 y1 x2 y2 color => screen.vgaDrawLine 65536 x1 y1 x2 y2 color
  | .drawText x y text color => some (screen.vgaDrawText x y text color)

/-- The calls of `vga_set_pixel` that a drawing call makes. -/
def DrawCall.plots : DrawCall → Option (List Plot)
  | .setPixel x y color => some [⟨x, y, color⟩]
  | .drawRect x y width height color => some (rectPlots x y width height color)
  | .drawLine x1 y1 x2 y2 color => linePlots 65536 x1 y1 x2 y2 color
  | .drawText x y text color => some (textPlots x y text color)

/-- The calls of `vga_set_pixel` that a run makes. -/
def plotsOf (calls : List DrawCall) : Option (List Plot) :=
  (calls.mapM DrawCall.plots).map List.flatten

theorem perform_eq (screen : Screen) (call : DrawCall) :
    screen.perform call = call.plots.map screen.draw := by
  cases call with
  | setPixel x y color => rfl
  | drawRect x y width height color => rfl
  | drawLine x1 y1 x2 y2 color => rfl
  | drawText x y text color => rfl

/-- A line has at most 65536 points. -/
theorem plots_some (call : DrawCall) : ∃ plots, call.plots = some plots := by
  cases call with
  | setPixel x y color => exact ⟨_, rfl⟩
  | drawRect x y width height color => exact ⟨_, rfl⟩
  | drawLine x1 y1 x2 y2 color =>
      refine ⟨_, linePlots_points ?_⟩
      have left := x1.toNat_lt
      have right := x2.toNat_lt
      have above := y1.toNat_lt
      have below := y2.toNat_lt
      unfold passCount distance
      omega
  | drawText x y text color => exact ⟨_, rfl⟩

/-- Every run comes to an end, behind all its calls of `vga_set_pixel`. -/
theorem performAll_eq (screen : Screen) (calls : List DrawCall) :
    ∃ plots, plotsOf calls = some plots ∧
      calls.foldlM Screen.perform screen = some (screen.draw plots) := by
  induction calls generalizing screen with
  | nil => exact ⟨[], rfl, rfl⟩
  | cons call rest inductionHypothesis =>
      obtain ⟨first, drawn⟩ := plots_some call
      obtain ⟨later, others, done⟩ := inductionHypothesis (screen.draw first)
      refine ⟨first ++ later, ?_, ?_⟩
      · obtain ⟨lists, each, rfl⟩ := Option.map_eq_some_iff.mp others
        rw [plotsOf, List.mapM_cons, drawn, each]
        rfl
      · rw [List.foldlM_cons, perform_eq, drawn, Option.map_some, Option.bind_eq_bind,
          Option.bind_some, done, Screen.draw, Screen.draw, Screen.draw, List.foldl_append]

/-! ### Cells -/

/-- The cell that a call of `vga_set_pixel` stores to. -/
def Mode.store (mode : Mode) (x y : UInt16) : Option Nat :=
  if mode.OnScreen x y then some (mode.offset x y) else none

theorem vgaSetPixel_eq (screen : Screen) (x y : UInt16) (color : UInt8) :
    screen.vgaSetPixel x y color =
      match screen.mode.store x y with
      | none => screen
      | some cell =>
          { screen with backBuffer := Function.update screen.backBuffer cell color } := by
  rw [Screen.vgaSetPixel, Mode.store]
  by_cases onScreen : screen.mode.OnScreen x y
  · have inside : ¬ (x ≥ screen.mode.width ∨ y ≥ screen.mode.height) :=
      not_or.mpr ⟨UInt16.not_le.mpr onScreen.1, UInt16.not_le.mpr onScreen.2⟩
    rw [if_neg inside, if_pos onScreen]
  · have outside : x ≥ screen.mode.width ∨ y ≥ screen.mode.height := by
      by_contra inside
      obtain ⟨left, above⟩ := not_or.mp inside
      exact onScreen ⟨UInt16.not_le.mp left, UInt16.not_le.mp above⟩
    rw [if_pos outside, if_neg onScreen]

/-- What a call stores lands in `back_buffer`, and in the cell of no other pixel
on screen. -/
structure OwnCell (mode : Mode) (plot : Plot) : Prop where
  inside : ∀ cell, mode.store plot.x plot.y = some cell → cell < vgaMemorySize
  apart : ∀ cell, mode.store plot.x plot.y = some cell → ∀ x y, mode.OnScreen x y →
    mode.offset x y = cell → x = plot.x ∧ y = plot.y

/-- The call changes nothing behind `back_buffer`, and the cell of no other pixel on
screen. -/
def KeepsOthers (screen : Screen) (plot : Plot) : Prop :=
  (∀ cell, vgaMemorySize ≤ cell →
    (screen.vgaSetPixel plot.x plot.y plot.color).backBuffer cell = screen.backBuffer cell) ∧
  ∀ x y, screen.mode.OnScreen x y → ¬ (x = plot.x ∧ y = plot.y) →
    (screen.vgaSetPixel plot.x plot.y plot.color).backBuffer (screen.mode.offset x y) =
      screen.backBuffer (screen.mode.offset x y)

/-- Into its own cell: everything else in memory stays as it was. -/
theorem OwnCell.keeps {screen : Screen} {plot : Plot} (own : OwnCell screen.mode plot) :
    KeepsOthers screen plot := by
  unfold KeepsOthers
  rw [vgaSetPixel_eq]
  cases stored : screen.mode.store plot.x plot.y with
  | none => exact ⟨fun _ _ => rfl, fun _ _ _ _ => rfl⟩
  | some cell =>
      constructor
      · intro other beyond
        have below := own.inside cell stored
        exact Function.update_of_ne (by omega) _ _
      · intro x y onScreen different
        exact Function.update_of_ne
          (fun same => different (own.apart cell stored x y onScreen same)) _ _

theorem ownCell_of_off {mode : Mode} {plot : Plot} (off : ¬ mode.OnScreen plot.x plot.y) :
    OwnCell mode plot := by
  have nothing : mode.store plot.x plot.y = none := if_neg off
  constructor
  · intro cell stored
    rw [nothing] at stored
    cases stored
  · intro cell stored
    rw [nothing] at stored
    cases stored

theorem ownCell_iff {mode : Mode} {plot : Plot} (onScreen : mode.OnScreen plot.x plot.y) :
    OwnCell mode plot ↔ mode.offset plot.x plot.y < vgaMemorySize ∧
      ∀ x y, mode.OnScreen x y → mode.offset x y = mode.offset plot.x plot.y →
        x = plot.x ∧ y = plot.y := by
  have stored : mode.store plot.x plot.y = some (mode.offset plot.x plot.y) := if_pos onScreen
  constructor
  · intro own
    exact ⟨own.inside _ stored, own.apart _ stored⟩
  · rintro ⟨inside, apart⟩
    constructor
    · intro cell same
      obtain rfl := Option.some.inj (stored.symm.trans same)
      exact inside
    · intro cell same
      obtain rfl := Option.some.inj (stored.symm.trans same)
      exact apart

/-- A buffer below 2^32 holds a screen without overflow of the index. -/
theorem offset_eq {mode : Mode} {x y : UInt16} (onScreen : mode.OnScreen x y)
    (small : mode.height.toNat * mode.pitch.toNat + mode.width.toNat < 2 ^ 32) :
    mode.offset x y = y.toNat * mode.pitch.toNat + x.toNat := by
  obtain ⟨left, above⟩ := onScreen
  have left := UInt16.lt_iff_toNat_lt.mp left
  have above := UInt16.lt_iff_toNat_lt.mp above
  have rows : y.toNat * mode.pitch.toNat ≤ mode.height.toNat * mode.pitch.toNat :=
    Nat.mul_le_mul_right _ above.le
  rw [Mode.offset, UInt32.toNat_add, UInt32.toNat_mul, UInt16.toNat_toUInt32,
    UInt16.toNat_toUInt32, Nat.mod_eq_of_lt (by omega), Nat.mod_eq_of_lt (by omega)]

/-- A pitch that covers the width gives every pixel its own cell. -/
theorem ownCell_of_wide {mode : Mode} (wide : mode.width.toNat ≤ mode.pitch.toNat)
    (fits : mode.height.toNat * mode.pitch.toNat ≤ vgaMemorySize) (plot : Plot) :
    OwnCell mode plot := by
  by_cases onScreen : mode.OnScreen plot.x plot.y
  · have widthSmall := mode.width.toNat_lt
    have small : mode.height.toNat * mode.pitch.toNat + mode.width.toNat < 2 ^ 32 := by
      unfold vgaMemorySize at fits
      omega
    have left := UInt16.lt_iff_toNat_lt.mp onScreen.1
    have above := UInt16.lt_iff_toNat_lt.mp onScreen.2
    rw [ownCell_iff onScreen, offset_eq onScreen small]
    constructor
    · calc plot.y.toNat * mode.pitch.toNat + plot.x.toNat
          < plot.y.toNat * mode.pitch.toNat + mode.pitch.toNat := by omega
        _ = (plot.y.toNat + 1) * mode.pitch.toNat := (Nat.succ_mul _ _).symm
        _ ≤ mode.height.toNat * mode.pitch.toNat := Nat.mul_le_mul_right _ above
        _ ≤ vgaMemorySize := fits
    · intro x y other same
      have before := UInt16.lt_iff_toNat_lt.mp other.1
      rw [offset_eq other small, Nat.add_comm, Nat.add_comm (_ * _)] at same
      have row := congrArg (· / mode.pitch.toNat) same
      have column := congrArg (· % mode.pitch.toNat) same
      simp only [Nat.add_mul_div_right _ _ (by omega : 0 < mode.pitch.toNat),
        Nat.div_eq_of_lt (before.trans_le wide), Nat.div_eq_of_lt (left.trans_le wide),
        Nat.zero_add] at row
      simp only [Nat.add_mul_mod_self_right, Nat.mod_eq_of_lt (before.trans_le wide),
        Nat.mod_eq_of_lt (left.trans_le wide)] at column
      exact ⟨UInt16.toNat_inj.mp column, UInt16.toNat_inj.mp row⟩
  · exact ownCell_of_off onScreen

/-- With half the width for a pitch, the right half of a row lies in the left
half of the next one: only the left half of the first row is not met twice. -/
theorem ownCell_half_iff {plot : Plot} (onScreen : Mode.OnScreen ⟨640, 480, 320⟩ plot.x plot.y) :
    OwnCell ⟨640, 480, 320⟩ plot ↔ plot.x < 320 ∧ plot.y = 0 := by
  have index : ∀ {x y : UInt16}, Mode.OnScreen ⟨640, 480, 320⟩ x y →
      Mode.offset ⟨640, 480, 320⟩ x y = y.toNat * 320 + x.toNat :=
    fun shown => offset_eq shown (by decide)
  have left : plot.x.toNat < 640 := UInt16.lt_iff_toNat_lt.mp onScreen.1
  have above : plot.y.toNat < 480 := UInt16.lt_iff_toNat_lt.mp onScreen.2
  rw [ownCell_iff onScreen, index onScreen, UInt16.lt_iff_toNat_lt, ← UInt16.toNat_inj]
  change _ ↔ plot.x.toNat < 320 ∧ plot.y.toNat = 0
  -- The other pixel of the cell, at `column` and `row`.
  have other : ∀ column row : Nat, column < 640 → row < 480 →
      row * 320 + column = plot.y.toNat * 320 + plot.x.toNat → column ≠ plot.x.toNat →
        ¬ ∀ x y, Mode.OnScreen ⟨640, 480, 320⟩ x y →
          Mode.offset ⟨640, 480, 320⟩ x y = plot.y.toNat * 320 + plot.x.toNat →
            x = plot.x ∧ y = plot.y := by
    intro column row before below same different every
    have columnValue : (UInt16.ofNat column).toNat = column :=
      UInt16.toNat_ofNat_of_lt' (by change column < 65536; omega)
    have rowValue : (UInt16.ofNat row).toNat = row :=
      UInt16.toNat_ofNat_of_lt' (by change row < 65536; omega)
    have shown : Mode.OnScreen ⟨640, 480, 320⟩ (UInt16.ofNat column) (UInt16.ofNat row) := by
      constructor
      · rw [UInt16.lt_iff_toNat_lt, columnValue]
        exact before
      · rw [UInt16.lt_iff_toNat_lt, rowValue]
        exact below
    have one := (every _ _ shown (by rw [index shown, columnValue, rowValue, same])).1
    exact different (columnValue.symm.trans (congrArg UInt16.toNat one))
  constructor
  · rintro ⟨inside, every⟩
    unfold vgaMemorySize at inside
    by_contra outside
    by_cases right : 320 ≤ plot.x.toNat
    · exact other (plot.x.toNat - 320) (plot.y.toNat + 1) (by omega) (by omega) (by omega)
        (by omega) every
    · exact other (plot.x.toNat + 320) (plot.y.toNat - 1) (by omega) (by omega) (by omega)
        (by omega) every
  · rintro ⟨leftHalf, firstRow⟩
    refine ⟨by unfold vgaMemorySize; omega, fun x y shown same => ?_⟩
    have before : x.toNat < 640 := UInt16.lt_iff_toNat_lt.mp shown.1
    rw [index shown] at same
    rw [← UInt16.toNat_inj, ← UInt16.toNat_inj]
    omega

/-! ### Runs -/

/-- One call of `vga_set_pixel`. -/
def Screen.plot (screen : Screen) (plot : Plot) : Screen :=
  screen.vgaSetPixel plot.x plot.y plot.color

/-- Along a run the mode stays. -/
theorem along_ownCell_iff (screen : Screen) (plots : List Plot) :
    Along Screen.plot (fun screen plot => OwnCell screen.mode plot) screen plots ↔
      ∀ plot ∈ plots, OwnCell screen.mode plot := by
  induction plots generalizing screen with
  | nil => simp [Along]
  | cons plot rest inductionHypothesis =>
      have kept : (screen.plot plot).mode = screen.mode := vgaSetPixel_mode screen _ _ _
      rw [Along, inductionHypothesis, kept, List.forall_mem_cons]

theorem modeFor_cases {mode : UInt8} {current : Mode} (accepted : modeFor mode = some current) :
    (mode = vgaModeText80x25 ∧ current = ⟨80, 25, 160⟩) ∨
      (mode = vgaMode320x200x256 ∧ current = ⟨320, 200, 320⟩) ∨
      (mode = vgaMode640x480x16 ∧ current = ⟨640, 480, 320⟩) := by
  unfold modeFor at accepted
  split_ifs at accepted with text planar wide
  · exact .inl ⟨text, (Option.some.inj accepted).symm⟩
  · exact .inr (.inl ⟨planar, (Option.some.inj accepted).symm⟩)
  · exact .inr (.inr ⟨wide, (Option.some.inj accepted).symm⟩)

theorem vgaSetMode_accepted {mode : UInt8} {screen start : Screen}
    (accepted : screen.vgaSetMode mode = (0, start)) : modeFor mode = some start.mode := by
  unfold Screen.vgaSetMode at accepted
  cases found : modeFor mode with
  | none =>
      rw [found] at accepted
      have failed : (-1 : Int32) = 0 := congrArg Prod.fst accepted
      exact absurd failed (by decide)
  | some current =>
      rw [found] at accepted
      exact congrArg (fun outcome => some outcome.2.mode) accepted

/-- In every run of drawing calls in an accepted mode, each call of
`vga_set_pixel` stores inside the buffer and into its own cell exactly when the
mode is not the one with two pixels to a byte, or only the left half of the first
row is drawn on. Each call then keeps all the other cells. -/
theorem pixels_own_cells_iff {mode : UInt8} {screen start : Screen}
    (accepted : screen.vgaSetMode mode = (0, start)) (calls : List DrawCall) :
    ∃ plots, plotsOf calls = some plots ∧
      calls.foldlM Screen.perform start = some (run Screen.plot start plots) ∧
      (Along Screen.plot (fun screen plot => OwnCell screen.mode plot) start plots ↔
        mode ≠ vgaMode640x480x16 ∨
          ∀ plot ∈ plots, start.mode.OnScreen plot.x plot.y → plot.x < 320 ∧ plot.y = 0) ∧
      (Along Screen.plot (fun screen plot => OwnCell screen.mode plot) start plots →
        Along Screen.plot KeepsOthers start plots) := by
  obtain ⟨plots, drawn, done⟩ := performAll_eq start calls
  refine ⟨plots, drawn, done, ?_, fun own => own.imp fun _ _ => OwnCell.keeps⟩
  rw [along_ownCell_iff]
  rcases modeFor_cases (vgaSetMode_accepted accepted) with
    ⟨rfl, current⟩ | ⟨rfl, current⟩ | ⟨rfl, current⟩
  · refine iff_of_true (fun plot _ => ?_) (.inl (by decide))
    rw [current]
    exact ownCell_of_wide (by decide) (by decide) plot
  · refine iff_of_true (fun plot _ => ?_) (.inl (by decide))
    rw [current]
    exact ownCell_of_wide (by decide) (by decide) plot
  · rw [current, or_iff_right (by simp)]
    refine forall₂_congr fun plot _ => ?_
    constructor
    · intro own shown
      exact (ownCell_half_iff shown).mp own
    · intro corner
      by_cases shown : Mode.OnScreen ⟨640, 480, 320⟩ plot.x plot.y
      · exact (ownCell_half_iff shown).mpr (corner shown)
      · exact ownCell_of_off shown

/-- A screen before the first mode is set. -/
def blankScreen : Screen := ⟨⟨0, 0, 0⟩, fun _ => 0⟩

/-- The last pixel of the largest mode. -/
theorem pixels_own_cells_iff_last :
    ∃ plots, plotsOf [.setPixel 639 479 15] = some plots ∧
      [DrawCall.setPixel 639 479 15].foldlM Screen.perform
          (blankScreen.vgaSetMode vgaMode640x480x16).2 =
        some (run Screen.plot (blankScreen.vgaSetMode vgaMode640x480x16).2 plots) ∧
      (Along Screen.plot (fun screen plot => OwnCell screen.mode plot)
          (blankScreen.vgaSetMode vgaMode640x480x16).2 plots ↔
        vgaMode640x480x16 ≠ vgaMode640x480x16 ∨
          ∀ plot ∈ plots, (blankScreen.vgaSetMode vgaMode640x480x16).2.mode.OnScreen plot.x plot.y →
            plot.x < 320 ∧ plot.y = 0) ∧
      (Along Screen.plot (fun screen plot => OwnCell screen.mode plot)
          (blankScreen.vgaSetMode vgaMode640x480x16).2 plots →
        Along Screen.plot KeepsOthers (blankScreen.vgaSetMode vgaMode640x480x16).2 plots) :=
  pixels_own_cells_iff rfl [.setPixel 639 479 15]

/-- That pixel's cell is number 153919, behind the buffer. -/
theorem last_pixel_leaves_buffer :
    ¬ ∀ (mode : UInt8) (screen start : Screen) (calls : List DrawCall) (plots : List Plot),
        screen.vgaSetMode mode = (0, start) → plotsOf calls = some plots →
          Along Screen.plot (fun screen plot => OwnCell screen.mode plot) start plots := by
  intro always
  have own := always vgaMode640x480x16 blankScreen _ [.setPixel 639 479 15] _ rfl rfl
  have below := own.1.inside 153919 rfl
  exact absurd below (by decide)

end NansOS.Video
