import MachineNotebook.Vt.Metrics

namespace MachineNotebook.Vt.Fitting

open Metrics

/-- The box has room for the smallest grid inside its explicit padding. -/
structure Holds (m : VtMetrics) (size : Size) (explicit : EdgeInsets) (minCols minRows : ℤ) :
    Prop where
  cellWidth_pos : 0 < m.cellWidth
  cellHeight_pos : 0 < m.cellHeight
  left_nonneg : 0 ≤ explicit.left
  right_nonneg : 0 ≤ explicit.right
  minCols_pos : 1 ≤ minCols
  minRows_pos : 1 ≤ minRows
  cols_fit : minCols * m.cellWidth ≤ size.width - explicit.horizontal
  rows_fit : minRows * m.cellHeight ≤ size.height - explicit.vertical

/-- The grid and the padding around it make up the box, and no larger grid would do. -/
structure Tiles (m : VtMetrics) (size : Size) (explicit : EdgeInsets) (g : VtMetrics.Grid) :
    Prop where
  width : g.padding.left + g.cols * m.cellWidth + g.padding.right = size.width
  height : g.padding.top + g.rows * m.cellHeight + g.padding.bottom = size.height
  left_le : explicit.left ≤ g.padding.left
  top_le : explicit.top ≤ g.padding.top
  right_le : explicit.right ≤ g.padding.right
  bottom_le : explicit.bottom ≤ g.padding.bottom
  top_capped :
    g.padding.top ≤ explicit.top + (explicit.left + explicit.right + m.cellWidth) / 2
  cols_maximal : size.width - explicit.horizontal < (g.cols + 1) * m.cellWidth
  rows_maximal : size.height - explicit.vertical < (g.rows + 1) * m.cellHeight

section Axis

variable {avail cell : ℚ} {least n : ℤ}

theorem cells_of_room (hcell : 0 < cell) (hfit : least * cell ≤ avail)
    (hn : n = max least ⌊avail / cell⌋) : n * cell ≤ avail ∧ avail < (n + 1) * cell := by
  have hleast : least ≤ ⌊avail / cell⌋ := Int.le_floor.mpr ((le_div_iff₀ hcell).mpr hfit)
  rw [hn, max_eq_right hleast]
  constructor
  · exact (le_div_iff₀ hcell).mp (Int.floor_le _)
  · exact (div_lt_iff₀ hcell).mp (Int.lt_floor_add_one _)

theorem room_nonneg (hcell : 0 < cell) (hleast : 1 ≤ least) (hfit : least * cell ≤ avail) :
    max 0 avail = avail := by
  have hone : (1 : ℚ) ≤ least := by exact_mod_cast hleast
  have hmul : 0 ≤ least * cell := mul_nonneg (by linarith) hcell.le
  exact max_eq_right (by linarith)

theorem half_bounds {rest : ℚ} (hrest : 0 ≤ rest) :
    (0 : ℚ) ≤ ⌊rest / 2⌋ ∧ (⌊rest / 2⌋ : ℚ) ≤ rest := by
  constructor
  · exact_mod_cast Int.floor_nonneg.mpr (by linarith)
  · have hle := Int.floor_le (rest / 2)
    linarith

end Axis

variable {m : VtMetrics} {size : Size} {explicit : EdgeInsets} {minCols minRows : ℤ}

/-- A box that holds the smallest grid is tiled by the grid that is fitted to it. -/
theorem fit_tiles (h : Holds m size explicit minCols minRows) :
    Tiles m size explicit (m.fit size explicit minCols minRows) := by
  have hleft := h.left_nonneg
  have hright := h.right_nonneg
  have hcell := h.cellWidth_pos
  obtain ⟨hcols, hcolsMax⟩ := cells_of_room h.cellWidth_pos h.cols_fit rfl
  obtain ⟨hrows, hrowsMax⟩ := cells_of_room h.cellHeight_pos h.rows_fit rfl
  simp only [VtMetrics.fit, room_nonneg h.cellWidth_pos h.minCols_pos h.cols_fit,
    room_nonneg h.cellHeight_pos h.minRows_pos h.rows_fit]
  generalize max minCols ⌊(size.width - explicit.horizontal) / m.cellWidth⌋ = cols at *
  generalize max minRows ⌊(size.height - explicit.vertical) / m.cellHeight⌋ = rows at *
  rw [max_eq_right (sub_nonneg.mpr hcols), max_eq_right (sub_nonneg.mpr hrows)]
  obtain ⟨hhalfR, hhalfR'⟩ := half_bounds (sub_nonneg.mpr hcols)
  obtain ⟨hhalfB, hhalfB'⟩ := half_bounds (sub_nonneg.mpr hrows)
  generalize (⌊(size.width - explicit.horizontal - cols * m.cellWidth) / 2⌋ : ℚ) = halfR at *
  generalize (⌊(size.height - explicit.vertical - rows * m.cellHeight) / 2⌋ : ℚ) = halfB at *
  -- The shift is what the top is above its cap.
  have hshift := le_max_left 0
    (explicit.top + halfB - ((explicit.left + explicit.right + m.cellWidth) / 2 + explicit.top))
  have hcap := le_max_right 0
    (explicit.top + halfB - ((explicit.left + explicit.right + m.cellWidth) / 2 + explicit.top))
  have hshiftLe : max 0
      (explicit.top + halfB - ((explicit.left + explicit.right + m.cellWidth) / 2 + explicit.top))
      ≤ halfB := max_le hhalfB (by linarith)
  simp only [EdgeInsets.horizontal, EdgeInsets.vertical] at *
  exact
    { width := by dsimp only; ring
      height := by dsimp only; ring
      left_le := by dsimp only; linarith
      top_le := by dsimp only; linarith
      right_le := by dsimp only; linarith
      bottom_le := by dsimp only; linarith
      top_capped := by dsimp only; linarith
      cols_maximal := hcolsMax
      rows_maximal := hrowsMax }

theorem fit_tiles_surface :
    Tiles ⟨8, 17, 4, 14, 2, 7, 2, 1, 13⟩ ⟨800, 400⟩ ⟨8, 4, 8, 4⟩
      (VtMetrics.fit ⟨8, 17, 4, 14, 2, 7, 2, 1, 13⟩ ⟨800, 400⟩ ⟨8, 4, 8, 4⟩ 2 1) := by
  apply fit_tiles
  constructor <;> norm_num [EdgeInsets.horizontal, EdgeInsets.vertical]

end MachineNotebook.Vt.Fitting
