import MachineNotebook.Lib.Run
import MachineNotebook.Vt.Metrics

namespace MachineNotebook.Vt.PointerGrid

open MachineNotebook.Lib MachineNotebook.Lib.Rounding Metrics

structure Rect where
  left : ℚ
  top : ℚ
  width : ℚ
  height : ℚ

namespace Rect

def center (r : Rect) : ℚ × ℚ := (r.left + r.width / 2, r.top + r.height / 2)

def Inside (r : Rect) (size : Size) : Prop :=
  0 ≤ r.left ∧ 0 ≤ r.top ∧ r.left + r.width ≤ size.width ∧ r.top + r.height ≤ size.height

end Rect

structure VtPainter where
  cols : ℤ
  rows : ℤ
  metrics : VtMetrics
  padding : EdgeInsets
  liveAdvance : ℚ

namespace VtPainter

def cellW (p : VtPainter) : ℚ := if 1 / 2 < p.liveAdvance then p.liveAdvance else p.metrics.cellWidth

def cellH (p : VtPainter) : ℚ := p.metrics.cellHeight

def gridRect (p : VtPainter) : Rect :=
  ⟨p.padding.left, p.padding.top, p.cols * p.cellW, p.rows * p.cellH⟩

def cellRect (p : VtPainter) (x y : ℤ) : Rect :=
  ⟨p.padding.left + x * p.cellW, p.padding.top + y * p.cellH, p.cellW, p.cellH⟩

end VtPainter

/-- `opened` where the session has a terminal and is not closed. -/
structure ProductSession where
  opened : Bool
  started : Bool
  cols : ℤ
  rows : ℤ
  cellW : ℤ
  cellH : ℤ
  padL : ℤ
  padT : ℤ

namespace ProductSession

def resize (cols rows cellW cellH padL padT : ℤ) (s : ProductSession) : ProductSession :=
  if s.opened = false then s
  else if cols < 1 ∨ rows < 1 then s
  else { s with cols, rows, cellW, cellH, padL, padT }

/-- The cell that a pointer event is for, where it is for one. -/
def onPointer (x y : ℚ) (padL padT : ℤ) (s : ProductSession) : Option (ℤ × ℤ) × ProductSession :=
  if s.opened = false then (none, s)
  else
    let s := { s with padL, padT }
    let cellX := ⌊(x - padL) / s.cellW⌋
    let cellY := ⌊(y - padT) / s.cellH⌋
    if cellX < 0 ∨ cellY < 0 ∨ s.cols ≤ cellX ∨ s.rows ≤ cellY then (none, s)
    else (some (cellX, cellY), s)

end ProductSession

/-- Who holds a grid: `LiveTerminalSurface`, the home page, the session, and a start of the
session that is under way. -/
structure App where
  surface : VtMetrics.Grid
  layout : VtMetrics.Grid
  starting : Option (ℤ × ℤ)
  session : ProductSession

namespace App

def surfaceStart : VtMetrics.Grid := ⟨80, 8, ⟨8, 4, 8, 4⟩⟩

def start : App where
  surface := surfaceStart
  layout := ⟨80, 24, ⟨8, 8, 8, 8⟩⟩
  starting := none
  session := ⟨false, false, 80, 24, 8, 16, 8, 8⟩

variable (m : VtMetrics)

def resizeSession (app : App) : App :=
  if app.session.started = false then app
  else { app with
    session := app.session.resize app.layout.cols app.layout.rows (roundAway m.cellWidth)
      (roundAway m.cellHeight) (roundAway app.layout.padding.left)
      (roundAway app.layout.padding.top) }

def onTerminalLayout (grid : VtMetrics.Grid) (app : App) : App :=
  if grid = app.layout then app else resizeSession m { app with layout := grid }

/-- The grid that the surface fits to its box. -/
def surfaceFit (size : Size) : VtMetrics.Grid := m.fit size ⟨8, 4, 8, 4⟩ 2 1

def fit (size : Size) (app : App) : App :=
  if size.width < 1 ∨ size.height < 1 then app
  else if surfaceFit m size = app.surface then app
  else onTerminalLayout m (App.surfaceFit m size) { app with surface := surfaceFit m size }

/-- The old terminal is closed. The new one opens, with the grid given then, when no tick is in
flight. -/
def startSession (app : App) : App :=
  if app.starting.isSome then app
  else { app with
    starting := some (app.layout.cols, app.layout.rows)
    session := { app.session with opened := false, started := false } }

def openTerminal (app : App) : App :=
  match app.starting with
  | none => app
  | some (cols, rows) =>
    if app.session.opened then app
    else { app with
      session := { app.session with
        opened := true, cols, rows
        cellW := roundAway m.cellWidth, cellH := roundAway m.cellHeight } }

def booted (app : App) : App :=
  if app.starting.isSome ∧ app.session.opened then
    { app with starting := none, session := { app.session with started := true } }
  else app

end App

inductive AppEvent
  /-- The surface is built anew. -/
  | mount
  | fit (size : Size)
  | startSession
  | openTerminal
  | booted
  | bootFailed
  | pointer (x y : ℚ)

def appStep (m : VtMetrics) (e : AppEvent) (app : App) : Unit × App :=
  match e with
  | .mount => ((), { app with surface := App.surfaceStart })
  | .fit size => ((), app.fit m size)
  | .startSession => ((), app.startSession)
  | .openTerminal => ((), app.openTerminal m)
  | .booted => ((), app.booted)
  | .bootFailed => ((), { app with starting := none })
  | .pointer x y => ((), { app with
      session := (app.session.onPointer x y (roundAway app.surface.padding.left)
        (roundAway app.surface.padding.top)).2 })

def appAfter (m : VtMetrics) (events : List AppEvent) : App :=
  Run.final (appStep m) events App.start

def App.painter (m : VtMetrics) (liveAdvance : ℚ) (app : App) : VtPainter :=
  ⟨app.session.cols, app.session.rows, m, app.surface.padding, liveAdvance⟩

/-- The cell that a pointer in the middle of a painted cell is for. -/
def App.clicked (m : VtMetrics) (liveAdvance : ℚ) (app : App) (x y : ℤ) : Option (ℤ × ℤ) :=
  let middle := ((app.painter m liveAdvance).cellRect x y).center
  (app.session.onPointer middle.1 middle.2 (roundAway app.surface.padding.left)
    (roundAway app.surface.padding.top)).1

/-- Once the surface is laid out in its box, a pointer in the middle of a painted cell is for that
cell, in all of the fitted grid, and the grid is painted in the box. -/
def Agree (m : VtMetrics) (liveAdvance : ℚ) (size : Size) (app : App) : Prop :=
  (∀ x y, 0 ≤ x → x < (App.surfaceFit m size).cols → 0 ≤ y → y < (App.surfaceFit m size).rows →
    (app.fit m size).clicked m liveAdvance x y = some (x, y)) ∧
  ((app.fit m size).painter m liveAdvance).gridRect.Inside size

/-- The session will be told of the grid that is fitted to the box. -/
def Told (m : VtMetrics) (size : Size) (app : App) : Prop :=
  App.surfaceFit m size ≠ app.surface ∧ App.surfaceFit m size ≠ app.layout ∧
    app.session.started = true

instance (m : VtMetrics) (size : Size) (app : App) : Decidable (Told m size app) :=
  inferInstanceAs (Decidable (_ ∧ _ ∧ _))

/-- The session's own grid, painted in the place of the fitted one, covers it and stays in the
box. -/
structure Covers (m : VtMetrics) (liveAdvance : ℚ) (size : Size) (s : ProductSession) : Prop where
  cols : (App.surfaceFit m size).cols ≤ s.cols
  rows : (App.surfaceFit m size).rows ≤ s.rows
  right : (App.surfaceFit m size).padding.left + s.cols * liveAdvance ≤ size.width
  bottom : (App.surfaceFit m size).padding.top + s.rows * m.cellHeight ≤ size.height

section Cells

theorem floor_middle_eq {a w : ℚ} (hw : 0 < w) (x : ℤ) :
    ⌊(x * a + a / 2) / w⌋ = x ↔ -w ≤ (2 * x + 1) * (a - w) ∧ (2 * x + 1) * (a - w) < w := by
  rw [Int.floor_eq_iff, le_div_iff₀ hw, div_lt_iff₀ hw]
  constructor
  · intro h
    obtain ⟨hle, hlt⟩ := h
    constructor <;> linarith
  · intro h
    obtain ⟨hle, hlt⟩ := h
    constructor <;> linarith

/-- The drift grows with the column, so the last column decides for all. -/
theorem drift_all_iff {d w : ℚ} {n : ℤ} (hw : 0 < w) (hn : 1 ≤ n) :
    (∀ x : ℤ, 0 ≤ x → x < n → -w ≤ (2 * x + 1) * d ∧ (2 * x + 1) * d < w) ↔
      -w ≤ (2 * n - 1) * d ∧ (2 * n - 1) * d < w := by
  constructor
  · intro h
    have hlast := h (n - 1) (by omega) (by omega)
    have hcast : (2 * ((n - 1 : ℤ) : ℚ) + 1) = 2 * n - 1 := by push_cast; ring
    rwa [hcast] at hlast
  · intro h x hx hxn
    obtain ⟨hlo, hhi⟩ := h
    have hpos : (0 : ℚ) ≤ 2 * x + 1 := by
      have hx' : (0 : ℚ) ≤ x := by exact_mod_cast hx
      linarith
    have hle : (2 * x + 1 : ℚ) ≤ 2 * n - 1 := by
      have hxn' : (x + 1 : ℚ) ≤ n := by exact_mod_cast hxn
      linarith
    rcases le_total 0 d with hd | hd
    · have hnonneg := mul_nonneg hpos hd
      have hmono := mul_le_mul_of_nonneg_right hle hd
      constructor <;> linarith
    · have hnonpos := mul_nonpos_of_nonneg_of_nonpos hpos hd
      have hmono := mul_le_mul_of_nonpos_right hle hd
      constructor <;> linarith

theorem floor_rounded_eq {top : ℚ} {h : ℤ} (htop : 0 ≤ top) (hh : 1 ≤ h) (y : ℤ) :
    ⌊(top + y * h + h / 2 - roundAway top) / (h : ℚ)⌋ = y := by
  have hh' : (1 : ℚ) ≤ h := by exact_mod_cast hh
  have hpos : (0 : ℚ) < h := by linarith
  have hle := roundAway_le htop
  have hlt := lt_roundAway htop
  rw [Int.floor_eq_iff, le_div_iff₀ hpos, div_lt_iff₀ hpos]
  constructor <;> linarith

end Cells

section Fit

variable {m : VtMetrics} {size : Size} {w h : ℤ}

def spareWidth (size : Size) (w : ℤ) : ℚ := size.width - 16 - ⌊(size.width - 16) / w⌋ * w

theorem floor_mul_le {avail : ℚ} (hw : 1 ≤ w) : (⌊avail / w⌋ : ℚ) * w ≤ avail := by
  have hpos : (0 : ℚ) < w := by exact_mod_cast hw
  exact (le_div_iff₀ hpos).mp (Int.floor_le _)

theorem surfaceFit_horizontal (hcell : m.cellWidth = w) (hw : 1 ≤ w)
    (hbox : 2 * m.cellWidth ≤ size.width - 16) :
    (App.surfaceFit m size).cols = ⌊(size.width - 16) / w⌋ ∧ 2 ≤ ⌊(size.width - 16) / w⌋ ∧
      (App.surfaceFit m size).padding.left = ((8 + ⌊spareWidth size w / 2⌋ : ℤ) : ℚ) ∧
      0 ≤ spareWidth size w := by
  have hpos : (0 : ℚ) < w := by exact_mod_cast hw
  rw [hcell] at hbox
  have havail : max 0 (size.width - (8 + 8)) = size.width - 16 := by
    rw [max_eq_right (by linarith)]
    ring
  have htwo : 2 ≤ ⌊(size.width - 16) / w⌋ := by
    rw [Int.le_floor, le_div_iff₀ hpos]
    exact_mod_cast hbox
  have hspare : 0 ≤ spareWidth size w := sub_nonneg.mpr (floor_mul_le hw)
  have hcols : (App.surfaceFit m size).cols = ⌊(size.width - 16) / w⌋ := by
    simp only [App.surfaceFit, VtMetrics.fit, EdgeInsets.horizontal, havail, hcell, max_eq_right htwo]
  refine ⟨hcols, htwo, ?_, hspare⟩
  simp only [App.surfaceFit, VtMetrics.fit, EdgeInsets.horizontal, havail, hcell, max_eq_right htwo]
  rw [spareWidth] at hspare ⊢
  rw [max_eq_right hspare, Int.cast_add]
  rfl

theorem top_bounds {width spare : ℚ} (hwidth : 0 ≤ width) (hspare : 0 ≤ spare) :
    let top : ℚ := 4 + ⌊spare / 2⌋ - max 0 (4 + ⌊spare / 2⌋ - ((8 + 8 + width) / 2 + 4))
    0 ≤ top ∧ top ≤ 4 + ⌊spare / 2⌋ := by
  have hhalf : (0 : ℚ) ≤ ⌊spare / 2⌋ := Int.cast_nonneg (Int.floor_nonneg.mpr (by linarith))
  constructor
  · rcases max_choice 0 (4 + ⌊spare / 2⌋ - ((8 + 8 + width) / 2 + 4)) with h | h
    · rw [h]
      linarith
    · rw [h]
      linarith
  · have hshift := le_max_left 0 (4 + ⌊spare / 2⌋ - ((8 + 8 + width) / 2 + 4))
    linarith

theorem surfaceFit_vertical (hcell : m.cellHeight = h) (hh : 1 ≤ h) (hwidth : 0 ≤ m.cellWidth)
    (hbox : m.cellHeight ≤ size.height - 8) :
    1 ≤ (App.surfaceFit m size).rows ∧ 0 ≤ (App.surfaceFit m size).padding.top ∧
      (App.surfaceFit m size).padding.top + (App.surfaceFit m size).rows * h ≤ size.height := by
  have hpos : (0 : ℚ) < h := by exact_mod_cast hh
  rw [hcell] at hbox
  have havail : max 0 (size.height - (4 + 4)) = size.height - 8 := by
    rw [max_eq_right (by linarith)]
    ring
  have hone : 1 ≤ ⌊(size.height - 8) / h⌋ := by
    rw [Int.le_floor, le_div_iff₀ hpos, Int.cast_one, one_mul]
    exact hbox
  have hspare : 0 ≤ size.height - 8 - ⌊(size.height - 8) / (h : ℚ)⌋ * h :=
    sub_nonneg.mpr (floor_mul_le hh)
  simp only [App.surfaceFit, VtMetrics.fit, EdgeInsets.vertical, havail, hcell, max_eq_right hone,
    max_eq_right hspare]
  generalize hs : size.height - 8 - ⌊(size.height - 8) / (h : ℚ)⌋ * h = spare at hspare ⊢
  obtain ⟨htop, hle⟩ := top_bounds hwidth hspare
  have hhalf : (⌊spare / 2⌋ : ℚ) ≤ spare / 2 := Int.floor_le _
  refine ⟨hone, htop, ?_⟩
  linarith

end Fit

/-- A pointer is for the cell of the grid that its coordinates round down to. -/
theorem onPointer_eq_iff {s : ProductSession} {dx dy : ℚ} {padL padT x y : ℤ} (hx : 0 ≤ x)
    (hy : 0 ≤ y) :
    (s.onPointer dx dy padL padT).1 = some (x, y) ↔
      s.opened = true ∧ x < s.cols ∧ y < s.rows ∧
        ⌊(dx - padL) / s.cellW⌋ = x ∧ ⌊(dy - padT) / s.cellH⌋ = y := by
  simp only [ProductSession.onPointer]
  cases hopened : s.opened with
  | false => simp
  | true =>
    rw [if_neg (by decide)]
    constructor
    · intro h
      split at h
      · cases h
      · rename_i hin
        obtain ⟨rfl, rfl⟩ := Prod.mk.inj (Option.some.inj h)
        simp only [not_or, not_le] at hin
        exact ⟨rfl, hin.2.2.1, hin.2.2.2, rfl, rfl⟩
    · intro h
      obtain ⟨-, hxs, hys, hcellX, hcellY⟩ := h
      rw [hcellX, hcellY, if_neg (by omega)]

section Run

variable {m : VtMetrics} {app : App}

/-- An open terminal has the cells that the home page gives it, and a started session has one. -/
structure Sized (m : VtMetrics) (app : App) : Prop where
  cellW : app.session.opened = true → app.session.cellW = roundAway m.cellWidth
  cellH : app.session.opened = true → app.session.cellH = roundAway m.cellHeight
  opened : app.session.started = true → app.session.opened = true

theorem Sized.resize {cols rows padL padT : ℤ} (hs : Sized m app) (layout : VtMetrics.Grid) :
    Sized m { app with
      layout
      session := app.session.resize cols rows (roundAway m.cellWidth) (roundAway m.cellHeight)
        padL padT } := by
  simp only [ProductSession.resize]
  split
  · exact ⟨hs.cellW, hs.cellH, hs.opened⟩
  · split
    · exact ⟨hs.cellW, hs.cellH, hs.opened⟩
    · exact ⟨fun _ ↦ rfl, fun _ ↦ rfl, hs.opened⟩

theorem Sized.fit (hs : Sized m app) (size : Size) : Sized m (app.fit m size) := by
  have hsame (surface layout : VtMetrics.Grid) : Sized m { app with surface, layout } :=
    ⟨hs.cellW, hs.cellH, hs.opened⟩
  simp only [App.fit, App.onTerminalLayout, App.resizeSession]
  repeat' split
  · exact hs
  · exact hs
  · exact hsame _ _
  · exact hsame _ _
  · exact (hsame _ app.layout).resize _

theorem Sized.step (e : AppEvent) (app : App) (hs : Sized m app) : Sized m (appStep m e app).2 := by
  cases e with
  | mount => exact ⟨hs.cellW, hs.cellH, hs.opened⟩
  | fit size => exact hs.fit size
  | startSession =>
    simp only [appStep, App.startSession]
    split
    · exact hs
    · exact ⟨nofun, nofun, nofun⟩
  | openTerminal =>
    simp only [appStep, App.openTerminal]
    repeat' split
    · exact hs
    · exact hs
    · exact ⟨fun _ ↦ rfl, fun _ ↦ rfl, fun _ ↦ rfl⟩
  | booted =>
    simp only [appStep, App.booted]
    split
    · rename_i hboth
      exact ⟨hs.cellW, hs.cellH, fun _ ↦ hboth.2⟩
    · exact hs
  | bootFailed => exact ⟨hs.cellW, hs.cellH, hs.opened⟩
  | pointer x y =>
    simp only [appStep, ProductSession.onPointer]
    repeat' split
    all_goals exact ⟨hs.cellW, hs.cellH, hs.opened⟩

theorem sized_run (events : List AppEvent) : Sized m (appAfter m events) :=
  Run.invariant Sized.step events ⟨nofun, nofun, nofun⟩

end Run

section Surface

variable {m : VtMetrics} {a : ℚ} {size : Size} {w h : ℤ} {app : App}

/-- A measured face in a box that holds the smallest grid. -/
structure Fits (m : VtMetrics) (a : ℚ) (size : Size) (w h : ℤ) : Prop where
  advance : 1 / 2 < a
  cellWidth : m.cellWidth = w
  cellHeight : m.cellHeight = h
  width : 1 ≤ w
  height : 1 ≤ h
  wide : 2 * m.cellWidth ≤ size.width - 16
  high : m.cellHeight ≤ size.height - 8

theorem Fits.pos (hf : Fits m a size w h) : (0 : ℚ) < w := by exact_mod_cast hf.width

theorem Fits.vertical (hf : Fits m a size w h) :
    1 ≤ (App.surfaceFit m size).rows ∧ 0 ≤ (App.surfaceFit m size).padding.top ∧
      (App.surfaceFit m size).padding.top + (App.surfaceFit m size).rows * h ≤ size.height := by
  have hpos := hf.pos
  exact surfaceFit_vertical hf.cellHeight hf.height (by rw [hf.cellWidth]; exact hpos.le) hf.high

/-- The surface has the fitted grid then, and the session where it is told. -/
theorem Fits.fit (hf : Fits m a size w h) (hs : Sized m app) :
    (app.fit m size).surface = App.surfaceFit m size ∧
      (app.fit m size).session = if Told m size app then
        { app.session with
          cols := (App.surfaceFit m size).cols, rows := (App.surfaceFit m size).rows
          cellW := w, cellH := h
          padL := roundAway (App.surfaceFit m size).padding.left
          padT := roundAway (App.surfaceFit m size).padding.top }
      else app.session := by
  obtain ⟨hcols, htwo, -, -⟩ := surfaceFit_horizontal hf.cellWidth hf.width hf.wide
  obtain ⟨hrows, -, -⟩ := hf.vertical
  have hw : (1 : ℚ) ≤ m.cellWidth := by
    rw [hf.cellWidth]
    exact_mod_cast hf.width
  have hh : (1 : ℚ) ≤ m.cellHeight := by
    rw [hf.cellHeight]
    exact_mod_cast hf.height
  have hwide := hf.wide
  have hhigh := hf.high
  have hbig : ¬(size.width < 1 ∨ size.height < 1) := by
    rw [not_or, not_lt, not_lt]
    constructor <;> linarith
  rw [App.fit, if_neg hbig]
  by_cases hsurface : App.surfaceFit m size = app.surface
  · rw [if_pos hsurface, if_neg fun htold : Told m size app ↦ htold.1 hsurface]
    exact ⟨hsurface.symm, rfl⟩
  rw [if_neg hsurface, App.onTerminalLayout]
  by_cases hlayout : App.surfaceFit m size = app.layout
  · rw [if_pos hlayout, if_neg fun htold : Told m size app ↦ htold.2.1 hlayout]
    exact ⟨rfl, rfl⟩
  rw [if_neg hlayout, App.resizeSession]
  cases hstarted : app.session.started with
  | false =>
    have hnot : ¬Told m size app := by simp [Told, hstarted]
    rw [if_pos rfl, if_neg hnot]
    exact ⟨rfl, rfl⟩
  | true =>
    have hopened : ¬app.session.opened = false := by simp [hs.opened hstarted]
    have hgrid : ¬((App.surfaceFit m size).cols < 1 ∨ (App.surfaceFit m size).rows < 1) := by omega
    rw [if_neg (by simp), if_pos ⟨hsurface, hlayout, hstarted⟩, ProductSession.resize,
      if_neg hopened, if_neg hgrid, hf.cellWidth, hf.cellHeight, roundAway_intCast,
      roundAway_intCast]
    exact ⟨rfl, rfl⟩

theorem Fits.clicked_iff (hf : Fits m a size w h) {x y : ℤ} (hx : 0 ≤ x) (hy : 0 ≤ y)
    (hsurface : app.surface = App.surfaceFit m size)
    (hcellW : app.session.opened = true → app.session.cellW = w)
    (hcellH : app.session.opened = true → app.session.cellH = h) :
    app.clicked m a x y = some (x, y) ↔
      app.session.opened = true ∧ x < app.session.cols ∧ y < app.session.rows ∧
        -w ≤ (2 * x + 1) * (a - w) ∧ (2 * x + 1) * (a - w) < w := by
  obtain ⟨-, -, hleft, -⟩ := surfaceFit_horizontal hf.cellWidth hf.width hf.wide
  obtain ⟨-, htop, -⟩ := hf.vertical
  have hpitch : (app.painter m a).cellW = a := if_pos hf.advance
  have hheight : (app.painter m a).cellH = h := hf.cellHeight
  have hpadding : (app.painter m a).padding = (App.surfaceFit m size).padding :=
    congrArg VtMetrics.Grid.padding hsurface
  have hcolumn : (App.surfaceFit m size).padding.left + x * a + a / 2 -
      roundAway (App.surfaceFit m size).padding.left = x * a + a / 2 := by
    rw [hleft, roundAway_intCast]
    ring
  rw [App.clicked, onPointer_eq_iff hx hy]
  refine and_congr_right fun hopened ↦ and_congr_right fun _ ↦ and_congr_right fun _ ↦ ?_
  simp only [Rect.center, VtPainter.cellRect, hpitch, hheight, hpadding, hsurface, hcellW hopened,
    hcellH hopened]
  rw [hcolumn, floor_middle_eq hf.pos, floor_rounded_eq htop hf.height]
  exact and_iff_left rfl

theorem Fits.inside_iff (hf : Fits m a size w h)
    (hsurface : app.surface = App.surfaceFit m size) :
    (app.painter m a).gridRect.Inside size ↔
      (App.surfaceFit m size).padding.left + app.session.cols * a ≤ size.width ∧
        (App.surfaceFit m size).padding.top + app.session.rows * m.cellHeight ≤ size.height := by
  obtain ⟨-, -, hleft, hspare⟩ := surfaceFit_horizontal hf.cellWidth hf.width hf.wide
  obtain ⟨-, htop, -⟩ := hf.vertical
  have hnonneg : 0 ≤ (App.surfaceFit m size).padding.left := by
    have hhalf : 0 ≤ ⌊spareWidth size w / 2⌋ := Int.floor_nonneg.mpr (by linarith)
    rw [hleft]
    exact_mod_cast (by omega : 0 ≤ 8 + ⌊spareWidth size w / 2⌋)
  have hpitch : (app.painter m a).cellW = a := if_pos hf.advance
  have hgrid : (app.painter m a).gridRect =
      ⟨(App.surfaceFit m size).padding.left, (App.surfaceFit m size).padding.top,
        app.session.cols * a, app.session.rows * m.cellHeight⟩ := by
    rw [VtPainter.gridRect, hpitch, ← hsurface]
    rfl
  rw [hgrid]
  constructor
  · intro hinside
    exact hinside.2.2
  · intro hends
    exact ⟨hnonneg, htop, hends⟩

theorem Fits.right_iff (hf : Fits m a size w h) :
    (App.surfaceFit m size).padding.left + (App.surfaceFit m size).cols * a ≤ size.width ↔
      ⌊(size.width - 16) / (w : ℚ)⌋ * (a - w) ≤
        8 + (spareWidth size w - ⌊spareWidth size w / 2⌋) := by
  obtain ⟨hcols, -, hleft, -⟩ := surfaceFit_horizontal hf.cellWidth hf.width hf.wide
  have hwidth : size.width =
      16 + ⌊(size.width - 16) / (w : ℚ)⌋ * w + spareWidth size w := by
    rw [spareWidth]
    ring
  rw [hleft, hcols]
  push_cast
  constructor
  · intro hright
    linarith
  · intro hright
    linarith

theorem Fits.cells_iff (hf : Fits m a size w h)
    (hsurface : app.surface = App.surfaceFit m size)
    (hcellW : app.session.opened = true → app.session.cellW = w)
    (hcellH : app.session.opened = true → app.session.cellH = h) :
    (∀ x y, 0 ≤ x → x < (App.surfaceFit m size).cols → 0 ≤ y →
        y < (App.surfaceFit m size).rows → app.clicked m a x y = some (x, y)) ↔
      app.session.opened = true ∧ (App.surfaceFit m size).cols ≤ app.session.cols ∧
        (App.surfaceFit m size).rows ≤ app.session.rows ∧
          -w ≤ (2 * (App.surfaceFit m size).cols - 1) * (a - w) ∧
            (2 * (App.surfaceFit m size).cols - 1) * (a - w) < w := by
  obtain ⟨hcols, htwo, -, -⟩ := surfaceFit_horizontal hf.cellWidth hf.width hf.wide
  obtain ⟨hrows, -, -⟩ := hf.vertical
  have hiff {x y : ℤ} (hx : 0 ≤ x) (hy : 0 ≤ y) :=
    hf.clicked_iff (a := a) hx hy hsurface hcellW hcellH
  rw [← drift_all_iff hf.pos (by omega)]
  constructor
  · intro hall
    have hlast := (hiff (by omega) (by omega)).mp (hall ((App.surfaceFit m size).cols - 1)
      ((App.surfaceFit m size).rows - 1) (by omega) (by omega) (by omega) (by omega))
    refine ⟨hlast.1, by omega, by omega, fun x hx hxn ↦ ?_⟩
    exact ((hiff hx le_rfl).mp (hall x 0 hx hxn le_rfl (by omega))).2.2.2
  · intro hcond x y hx hxn hy hyr
    obtain ⟨hopened, hcolsLe, hrowsLe, hdrift⟩ := hcond
    exact (hiff hx hy).mpr ⟨hopened, by omega, by omega, hdrift x hx hxn⟩

end Surface

/-- In every state of the app, the session, the painter and the layout agree on the grid of a box
exactly if the terminal is open, the drift of the painted columns from those of whole width stays
within half a cell up to the last column, and either the session is told of the grid, which drifts
no further than the padding on the right, or the grid it has does as well. -/
theorem agree_iff {fontSize : ℚ} {face : Face} {m : VtMetrics}
    (hm : VtMetrics.measure fontSize face = some m) (hadvance : 1 / 2 < face.width) (size : Size)
    (hwide : 2 * m.cellWidth ≤ size.width - 16) (hhigh : m.cellHeight ≤ size.height - 8)
    (events : List AppEvent) :
    let app := appAfter m events
    let w : ℤ := max 1 (roundAway face.width)
    let n : ℤ := ⌊(size.width - 16) / w⌋
    Agree m face.width size app ↔
      app.session.opened = true ∧
        (-w ≤ (2 * n - 1) * (face.width - w) ∧ (2 * n - 1) * (face.width - w) < w) ∧
        (Told m size app ∧
            n * (face.width - w) ≤ 8 + (spareWidth size w - ⌊spareWidth size w / 2⌋) ∨
          ¬Told m size app ∧ Covers m face.width size app.session) := by
  intro app w n
  obtain ⟨hcellW, hcellH⟩ := VtMetrics.cell_of_measure hm
  have hf : Fits m face.width size w (max 1 (roundAway face.height)) :=
    ⟨hadvance, hcellW, hcellH, le_max_left 1 _, le_max_left 1 _, hwide, hhigh⟩
  have hs : Sized m app := sized_run events
  obtain ⟨hcols, -, -, -⟩ := surfaceFit_horizontal hf.cellWidth hf.width hf.wide
  obtain ⟨-, -, hbottom⟩ := hf.vertical
  obtain ⟨hsurface, hsession⟩ := hf.fit hs
  have hround : Sized m (app.fit m size) := hs.fit size
  have hw (ho : (app.fit m size).session.opened = true) : (app.fit m size).session.cellW = w := by
    rw [hround.cellW ho, hcellW, roundAway_intCast]
  have hh (ho : (app.fit m size).session.opened = true) :
      (app.fit m size).session.cellH = max 1 (roundAway face.height) := by
    rw [hround.cellH ho, hcellH, roundAway_intCast]
  have hn : (App.surfaceFit m size).cols = n := hcols
  rw [Agree, hf.cells_iff hsurface hw hh, hf.inside_iff hsurface, hn]
  by_cases htold : Told m size app
  · rw [if_pos htold] at hsession
    simp only [hsession, htold, not_true, false_and, or_false, true_and, le_refl, hn]
    have hright := hf.right_iff
    rw [hn] at hright
    rw [← hcellH] at hbottom
    constructor
    · intro h
      obtain ⟨⟨hopened, hdrift⟩, hends, -⟩ := h
      exact ⟨hopened, hdrift, hright.mp hends⟩
    · intro h
      obtain ⟨hopened, hdrift, hends⟩ := h
      exact ⟨⟨hopened, hdrift⟩, hright.mpr hends, hbottom⟩
  · rw [if_neg htold] at hsession
    simp only [hsession, htold, not_false_iff, false_and, false_or, true_and]
    constructor
    · intro h
      obtain ⟨⟨hopened, hcolsLe, hrowsLe, hdrift⟩, hright, hlow⟩ := h
      exact ⟨hopened, hdrift, hn ▸ hcolsLe, hrowsLe, hright, hlow⟩
    · intro h
      obtain ⟨hopened, hdrift, hcovers⟩ := h
      exact ⟨⟨hopened, hn ▸ hcovers.cols, hcovers.rows, hdrift⟩, hcovers.right, hcovers.bottom⟩

section Face13

def face13 : Face := ⟨39 / 5, 17, 13⟩

def metrics13 : VtMetrics := ⟨8, 17, 4, 14, 2, 143 / 20, 2, 1, 13⟩

def face8 : Face := ⟨8, 17, 13⟩

def boot : List AppEvent := [.startSession, .openTerminal, .booted, .mount]

theorem measure_face13 : VtMetrics.measure 13 face13 = some metrics13 := by decide +kernel

/-- The middle of the last of 98 columns is over the column two to the left of it, and in a box
that takes the surface's first grid, the session's own 24 rows are painted. -/
theorem not_agree_wide :
    (VtMetrics.measure 13 face13 = some metrics13 ∧
        ¬Agree metrics13 face13.width ⟨800, 400⟩ (appAfter metrics13 boot)) ∧
      VtMetrics.measure 13 face8 = some metrics13 ∧
        ¬Agree metrics13 face8.width ⟨656, 144⟩ (appAfter metrics13 boot) := by
  refine ⟨⟨measure_face13, fun hagree ↦ ?_⟩, by decide +kernel, fun hagree ↦ ?_⟩
  · have hlast : ((appAfter metrics13 boot).fit metrics13 ⟨800, 400⟩).clicked metrics13
        face13.width 97 0 = some (95, 0) := by decide +kernel
    have hcell := hagree.1 97 0 (by decide) (by decide +kernel) (by decide) (by decide +kernel)
    rw [hlast] at hcell
    cases hcell
  · exact absurd hagree.2.2.2.2 (by decide +kernel)

theorem agree_narrow : Agree metrics13 face13.width ⟨176, 400⟩ (appAfter metrics13 boot) :=
  (agree_iff measure_face13 (by decide +kernel) ⟨176, 400⟩ (by decide +kernel) (by decide +kernel)
    boot).mpr ⟨by decide, by decide +kernel, Or.inl (by decide +kernel)⟩

end Face13

end MachineNotebook.Vt.PointerGrid
