import NansOS.Video.Drawing

/-! Owns what of a window is painted outside it. `vga_draw_window` draws
rectangles whose coordinates and extents are cut to 16 bits; whether one of them
leaves the window on screen follows from its ends and the ends of the window and
the screen. -/

namespace NansOS.Video

open NansOS.Kernel

/-! ### Positions in one direction -/

/-- Some of the `extent` positions from `start` on, cut to 16 bits, lie below
`limit`. -/
def Shows (limit start extent : UInt16) : Prop :=
  0 < extent ∧ 0 < limit ∧ (start < limit ∨ 65536 < start.toNat + extent.toNat)

/-- Where these positions begin below `limit` and where they go on after 65535,
they keep to `length` positions from `low` on. -/
def Keeps (limit low length start extent : UInt16) : Prop :=
  (start < limit → low ≤ start ∧
    min (start.toNat + extent.toNat) limit.toNat ≤ low.toNat + length.toNat) ∧
  (65536 < start.toNat + extent.toNat → low = 0 ∧
    min (start.toNat + extent.toNat - 65536) limit.toNat ≤ length.toNat)

instance (limit start extent : UInt16) : Decidable (Shows limit start extent) :=
  inferInstanceAs (Decidable (_ ∧ _))

instance (limit low length start extent : UInt16) :
    Decidable (Keeps limit low length start extent) :=
  inferInstanceAs (Decidable (_ ∧ _))

section Direction

variable {limit low length start extent : UInt16}

theorem shows_iff : Shows limit start extent ↔
    ∃ position, position < limit ∧ Spans start extent position := by
  have limitBound := limit.toNat_lt
  simp only [Shows, spans_iff, Covers, Wraps, UInt16.lt_iff_toNat_lt, UInt16.toNat_zero]
  constructor
  · rintro ⟨positive, screen, begins | wraps⟩
    · exact ⟨start, begins, .inl ⟨le_rfl, by omega⟩⟩
    · exact ⟨0, screen, .inr (by rw [UInt16.toNat_zero]; omega)⟩
  · rintro ⟨position, below, ⟨after, inside⟩ | wraps⟩
    · exact ⟨by omega, by omega, .inl (by omega)⟩
    · have startBound := start.toNat_lt
      exact ⟨by omega, by omega, .inr (by omega)⟩

theorem keeps_iff (shows : Shows limit start extent) : Keeps limit low length start extent ↔
    ∀ position, position < limit → Spans start extent position → Covers low length position := by
  obtain ⟨positive, screen, -⟩ := shows
  have limitBound := limit.toNat_lt
  have lowBound := low.toNat_lt
  rw [UInt16.lt_iff_toNat_lt, UInt16.toNat_zero] at positive screen
  simp only [Keeps, spans_iff, Covers, Wraps, UInt16.lt_iff_toNat_lt, UInt16.le_iff_toNat_le,
    ← UInt16.toNat_inj, UInt16.toNat_zero]
  constructor
  · rintro ⟨here, again⟩ position below (⟨after, inside⟩ | wraps)
    · obtain ⟨first, last⟩ := here (by omega)
      omega
    · obtain ⟨first, last⟩ := again (by omega)
      omega
  · intro every
    have placed : ∀ place < limit.toNat,
        start.toNat ≤ place ∧ place < start.toNat + extent.toNat ∨
          place + 65536 < start.toNat + extent.toNat →
        low.toNat ≤ place ∧ place < low.toNat + length.toNat := by
      intro place below spans
      have value : (UInt16.ofNat place).toNat = place :=
        UInt16.toNat_ofNat_of_lt' (by change place < 65536; omega)
      have covered := every (UInt16.ofNat place) (by rw [value]; exact below)
        (by rw [value]; exact spans)
      rw [value] at covered
      exact covered
    constructor
    · intro begins
      have first := placed start.toNat begins (.inl ⟨le_rfl, by omega⟩)
      have last := placed (min (start.toNat + extent.toNat) limit.toNat - 1) (by omega)
        (.inl ⟨by omega, by omega⟩)
      omega
    · intro wraps
      have first := placed 0 screen (.inr (by omega))
      have last := placed (min (start.toNat + extent.toNat - 65536) limit.toNat - 1) (by omega)
        (.inr (by omega))
      omega

/-- Positions between those of the window, none of them cut. -/
theorem keeps_of_between (limit : UInt16) (begins : low.toNat ≤ start.toNat)
    (ends : start.toNat + extent.toNat ≤ low.toNat + length.toNat)
    (uncut : low.toNat + length.toNat ≤ 65536) : Keeps limit low length start extent := by
  refine ⟨fun _ => ⟨UInt16.le_iff_toNat_le.mpr begins, ?_⟩, fun wraps => ?_⟩
  · exact (min_le_left _ _).trans ends
  · omega

end Direction

/-! ### Rectangles -/

/-- The arguments of a call of `vga_draw_rect`. -/
structure Area where
  x : UInt16
  y : UInt16
  width : UInt16
  height : UInt16
deriving DecidableEq

/-- What a rectangle shows on screen, if it shows a column and a row, keeps to the
columns and the rows of the window. -/
def Area.Inside (area : Area) (mode : Mode) (window : Area) : Prop :=
  Shows mode.width area.x area.width → Shows mode.height area.y area.height →
    Keeps mode.width window.x window.width area.x area.width ∧
      Keeps mode.height window.y window.height area.y area.height

instance (area : Area) (mode : Mode) (window : Area) : Decidable (area.Inside mode window) :=
  inferInstanceAs (Decidable (_ → _ → _ ∧ _))

/-- The pixel lies in the window, in unbounded integers. -/
def Area.Holds (window : Area) (plot : Plot) : Prop :=
  Covers window.x window.width plot.x ∧ Covers window.y window.height plot.y

theorem Area.inside_iff (area : Area) (mode : Mode) (window : Area) (color : UInt8) :
    area.Inside mode window ↔
      ∀ plot ∈ rectPlots area.x area.y area.width area.height color,
        mode.OnScreen plot.x plot.y → window.Holds plot := by
  constructor
  · intro inside plot member onScreen
    obtain ⟨columns, rows, -⟩ := mem_rectPlots.mp member
    have across : Shows mode.width area.x area.width := shows_iff.mpr ⟨_, onScreen.1, columns⟩
    have down : Shows mode.height area.y area.height := shows_iff.mpr ⟨_, onScreen.2, rows⟩
    obtain ⟨left, top⟩ := inside across down
    exact ⟨(keeps_iff across).mp left _ onScreen.1 columns,
      (keeps_iff down).mp top _ onScreen.2 rows⟩
  · intro every across down
    obtain ⟨column, shown, columns⟩ := shows_iff.mp across
    obtain ⟨row, visible, rows⟩ := shows_iff.mp down
    constructor
    · refine (keeps_iff across).mpr fun position below spans => ?_
      exact (every ⟨position, row, color⟩ (mem_rectPlots.mpr ⟨spans, rows, rfl⟩)
        ⟨below, visible⟩).1
    · refine (keeps_iff down).mpr fun position below spans => ?_
      exact (every ⟨column, position, color⟩ (mem_rectPlots.mpr ⟨columns, spans, rfl⟩)
        ⟨shown, below⟩).2

/-! ### Windows -/

/-- The rectangles of a window: border, title bar, background, close button and
its cross, and one for each character of the title. -/
def Area.parts (window : Area) (title : CString) : List Area :=
  [window, ⟨window.x + 1, window.y + 1, window.width - 2, 20⟩,
    ⟨window.x + 1, window.y + 21, window.width - 2, window.height - 22⟩,
    ⟨window.x + window.width - 18, window.y + 4, 14, 14⟩,
    ⟨window.x + window.width - 16, window.y + 6, 7, 16⟩] ++
  (List.range (strlen title)).map fun i =>
    ⟨window.x + 5 + UInt16.ofNat (i * 8), window.y + 5, 7, 16⟩

/-- Every pixel on screen that `vga_draw_window` draws lies in the window. -/
def PaintsItself (mode : Mode) (window : Area) (title : CString) : Prop :=
  ∀ plot ∈ windowPlots window.x window.y window.width window.height title,
    mode.OnScreen plot.x plot.y → window.Holds plot

theorem forall_textPlots {x y : UInt16} {text : CString} {color : UInt8} {property : Plot → Prop} :
    (∀ plot ∈ textPlots x y text color, property plot) ↔
      ∀ i < strlen text, ∀ plot ∈ rectPlots (x + UInt16.ofNat (i * 8)) y 7 16 color,
        property plot := by
  simp only [textPlots, List.forall_mem_flatMap, List.mem_range]
  rfl

theorem crossPlots (x y : UInt16) (color : UInt8) :
    textPlots x y ⟨[88], by decide⟩ color = rectPlots x y 7 16 color := by
  simp [textPlots, strlen]

/-- What is drawn for a window, one rectangle after the other. -/
theorem forall_windowPlots (mode : Mode) (window : Area) (title : CString) :
    PaintsItself mode window title ↔
      (((((window.Inside mode window ∧
        Area.Inside ⟨window.x + 1, window.y + 1, window.width - 2, 20⟩ mode window) ∧
        ∀ i < strlen title,
          Area.Inside ⟨window.x + 5 + UInt16.ofNat (i * 8), window.y + 5, 7, 16⟩ mode window) ∧
        Area.Inside ⟨window.x + 1, window.y + 21, window.width - 2, window.height - 22⟩ mode
          window) ∧
        Area.Inside ⟨window.x + window.width - 18, window.y + 4, 14, 14⟩ mode window) ∧
        Area.Inside ⟨window.x + window.width - 16, window.y + 6, 7, 16⟩ mode window) := by
  simp only [PaintsItself, windowPlots, List.forall_mem_append, crossPlots, forall_textPlots]
  rw [window.inside_iff mode window windowBorderColor,
    Area.inside_iff ⟨window.x + 1, window.y + 1, window.width - 2, 20⟩ mode window
      windowTitleColor,
    Area.inside_iff ⟨window.x + 1, window.y + 21, window.width - 2, window.height - 22⟩ mode
      window colorWhite,
    Area.inside_iff ⟨window.x + window.width - 18, window.y + 4, 14, 14⟩ mode window colorRed,
    Area.inside_iff ⟨window.x + window.width - 16, window.y + 6, 7, 16⟩ mode window colorWhite]
  have letters := fun i : Nat =>
    Area.inside_iff ⟨window.x + 5 + UInt16.ofNat (i * 8), window.y + 5, 7, 16⟩ mode window
      colorWhite
  simp only [letters]

theorem forall_parts {window : Area} {title : CString} {property : Area → Prop} :
    (∀ part ∈ window.parts title, property part) ↔
      (((((property window ∧ property ⟨window.x + 1, window.y + 1, window.width - 2, 20⟩) ∧
        ∀ i < strlen title,
          property ⟨window.x + 5 + UInt16.ofNat (i * 8), window.y + 5, 7, 16⟩) ∧
        property ⟨window.x + 1, window.y + 21, window.width - 2, window.height - 22⟩) ∧
        property ⟨window.x + window.width - 18, window.y + 4, 14, 14⟩) ∧
        property ⟨window.x + window.width - 16, window.y + 6, 7, 16⟩) := by
  simp only [Area.parts, List.forall_mem_append, List.forall_mem_cons, List.forall_mem_map,
    List.mem_range, List.not_mem_nil, false_imp_iff, implies_true, and_true]
  tauto

/-- A window paints only itself exactly when each of its rectangles does. -/
theorem paintsItself_iff (mode : Mode) (window : Area) (title : CString) :
    PaintsItself mode window title ↔
      ∀ part ∈ window.parts title, part.Inside mode window := by
  rw [forall_windowPlots, forall_parts]

theorem Area.inside_of_between {part window : Area} (mode : Mode)
    (right : window.x.toNat + window.width.toNat ≤ 65536)
    (lower : window.y.toNat + window.height.toNat ≤ 65536)
    (columns : window.x.toNat ≤ part.x.toNat ∧
      part.x.toNat + part.width.toNat ≤ window.x.toNat + window.width.toNat)
    (rows : window.y.toNat ≤ part.y.toNat ∧
      part.y.toNat + part.height.toNat ≤ window.y.toNat + window.height.toNat) :
    part.Inside mode window := fun _ _ =>
  ⟨keeps_of_between _ columns.1 columns.2 right, keeps_of_between _ rows.1 rows.2 lower⟩

/-- A window with room for its buttons and its title, and with its right and
lower end at 65536 at most, paints only itself. -/
theorem paintsItself_of_roomy (mode : Mode) {window : Area} {title : CString}
    (wide : 18 ≤ window.width.toNat) (high : 22 ≤ window.height.toNat)
    (right : window.x.toNat + window.width.toNat ≤ 65536)
    (lower : window.y.toNat + window.height.toNat ≤ 65536)
    (text : 8 * strlen title + 4 ≤ window.width.toNat) : PaintsItself mode window title := by
  have column := window.x.toNat_lt
  have row := window.y.toNat_lt
  rw [forall_windowPlots]
  refine ⟨⟨⟨⟨⟨?_, ?_⟩, fun i below => ?_⟩, ?_⟩, ?_⟩, ?_⟩
  · exact Area.inside_of_between mode right lower ⟨le_rfl, le_rfl⟩ ⟨le_rfl, le_rfl⟩
  all_goals
    apply Area.inside_of_between mode right lower
    all_goals
      simp only [UInt16.toNat_sub, UInt16.toNat_add, UInt16.toNat_ofNat', UInt16.reduceToNat]
      omega

/-- A window one column wide: the title bar, 65535 columns wide, is drawn over the
whole row. -/
theorem narrow_window_paints_row :
    ¬ ∀ (mode : Mode) (window : Area) (title : CString), strlen title ≤ 31 →
        PaintsItself mode window title := by
  intro always
  have inside := (forall_windowPlots _ _ _).mp
    (always ⟨640, 480, 320⟩ ⟨100, 100, 1, 30⟩ CString.empty (by decide))
  exact absurd inside.1.1.1.1.2 (by decide)

end NansOS.Video
