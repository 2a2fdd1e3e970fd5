import MachineNotebook.Lib.Rounding

namespace MachineNotebook.Vt.Metrics

open MachineNotebook.Lib.Rounding

structure Size where
  width : ℚ
  height : ℚ

structure EdgeInsets where
  left : ℚ
  top : ℚ
  right : ℚ
  bottom : ℚ
  deriving DecidableEq

def EdgeInsets.horizontal (e : EdgeInsets) : ℚ := e.left + e.right

def EdgeInsets.vertical (e : EdgeInsets) : ℚ := e.top + e.bottom

/-- What the layout of a face gives: its mono advance, its line height and the baseline. -/
structure Face where
  width : ℚ
  height : ℚ
  baselineFromTop : ℚ

structure VtMetrics where
  cellWidth : ℚ
  cellHeight : ℚ
  cellBaseline : ℚ
  underlinePosition : ℚ
  underlineThickness : ℚ
  strikethroughPosition : ℚ
  overlinePosition : ℚ
  cursorThickness : ℚ
  fontSize : ℚ
  deriving DecidableEq

/-- `num.clamp`, which throws where the limits are the wrong way round. -/
def clamp (x lower upper : ℚ) : Option ℚ :=
  if upper < lower then none else some (max lower (min x upper))

namespace VtMetrics

def measure (fontSize : ℚ) (face : Face) : Option VtMetrics := do
  let cellW : ℚ := max 1 (roundAway face.width)
  let cellH : ℚ := max 1 (roundAway face.height)
  let faceBaselineFromBottom := face.height - face.baselineFromTop
  let cellBaseline ←
    clamp (roundAway (faceBaselineFromBottom - (cellH - face.height) / 2)) 1 (cellH - 1)
  let underlineThickness : ℚ := max 1 ⌈fontSize * (8 / 100)⌉
  let topToBaseline := cellH - cellBaseline
  let underlinePos ← clamp (topToBaseline + 1) 0 (cellH - underlineThickness)
  let strikethroughPos ← clamp (topToBaseline * (55 / 100)) 0 (cellH - underlineThickness)
  let overlinePos ← clamp underlineThickness 0 (cellH - underlineThickness)
  let cursorThickness : ℚ := max 1 (roundAway (cellW * (12 / 100)))
  return ⟨cellW, cellH, cellBaseline, underlinePos, underlineThickness, strikethroughPos,
    overlinePos, cursorThickness, fontSize⟩

theorem cell_of_measure {fontSize : ℚ} {face : Face} {m : VtMetrics}
    (hm : measure fontSize face = some m) :
    m.cellWidth = (max 1 (roundAway face.width) : ℤ) ∧
      m.cellHeight = (max 1 (roundAway face.height) : ℤ) := by
  simp only [measure, bind, Option.bind_eq_some_iff, pure, Option.some_inj] at hm
  obtain ⟨-, -, -, -, -, -, -, -, rfl⟩ := hm
  push_cast
  exact ⟨rfl, rfl⟩

/-- The columns and rows that fit, and the padding around them. -/
structure Grid where
  cols : ℤ
  rows : ℤ
  padding : EdgeInsets
  deriving DecidableEq

def fit (m : VtMetrics) (size : Size) (explicit : EdgeInsets) (minCols minRows : ℤ) : Grid :=
  let availW := max 0 (size.width - explicit.horizontal)
  let availH := max 0 (size.height - explicit.vertical)
  let cols := max minCols ⌊availW / m.cellWidth⌋
  let rows := max minRows ⌊availH / m.cellHeight⌋
  let usedW := cols * m.cellWidth
  let usedH := rows * m.cellHeight
  let spaceRight := max 0 (availW - usedW)
  let spaceBot := max 0 (availH - usedH)
  let halfR : ℚ := ⌊spaceRight / 2⌋
  let halfB : ℚ := ⌊spaceBot / 2⌋
  let rawTop := explicit.top + halfB
  let maxTop := (explicit.left + explicit.right + m.cellWidth) / 2 + explicit.top
  let vshift := max 0 (rawTop - maxTop)
  { cols, rows
    padding :=
      { left := explicit.left + halfR
        top := rawTop - vshift
        right := explicit.right + (spaceRight - halfR)
        bottom := explicit.bottom + (spaceBot - halfB) + vshift } }

end VtMetrics

end MachineNotebook.Vt.Metrics
