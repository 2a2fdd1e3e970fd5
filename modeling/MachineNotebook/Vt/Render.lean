import MachineNotebook.Dart.Text
import MachineNotebook.Vt.Frame

namespace MachineNotebook.Vt.Render

open MachineNotebook.Lib.Utf8 MachineNotebook.Dart.Bindings MachineNotebook.Dart.Text Vt.Frame

def kRenderDirtyFalse : Int32 := 0

def kRenderDirtyPartial : Int32 := 1

def kRenderDirtyFull : Int32 := 2

def kCursorStyleBar : Int32 := 0

def kCursorStyleBlock : Int32 := 1

def kCursorStyleUnderline : Int32 := 2

def kCursorStyleBlockHollow : Int32 := 3

def kStyleColorRgb : Int32 := 2

def kUnderlineSingle : Int32 := 1

def kUnderlineDouble : Int32 := 2

def kUnderlineCurly : Int32 := 3

def kUnderlineDotted : Int32 := 4

def kUnderlineDashed : Int32 := 5

def kVtRenderDefaultBg : Color := ⟨0x14, 0x14, 0x14⟩

def kVtRenderDefaultFg : Color := ⟨0xE1, 0xE1, 0xE1⟩

/-! What the library hands out of a render state. A read that can fail without the projection
failing is an `Option`, one whose code is thrown an `Except`. -/

structure StyleColor where
  tag : Int32
  rgb : Color
  deriving DecidableEq

structure NativeStyle where
  underlineColor : StyleColor
  bold : Bool
  italic : Bool
  faint : Bool
  inverse : Bool
  invisible : Bool
  strikethrough : Bool
  overline : Bool
  underline : Int32
  deriving DecidableEq

structure NativeCell where
  graphemesLen : Option ℕ := none
  graphemesUtf8 : Option Bytes := none
  graphemesBuf : List CodePoint := []
  fgColor : Option Color := none
  bgColor : Option Color := none
  style : Option NativeStyle := none
  selected : Option Bool := none
  deriving DecidableEq

structure NativeRow where
  dirty : Option Bool
  cells : Option (List NativeCell)
  deriving DecidableEq

structure RenderState where
  cols : Except Int32 ℕ
  rows : Except Int32 ℕ
  colorBackground : Option Color := none
  colorForeground : Option Color := none
  colorCursorHasValue : Option Bool := none
  colorCursor : Option Color := none
  dirty : Option Int32
  cursorVisible : Option Bool := none
  cursorViewportHasValue : Option Bool := none
  cursorBlinking : Option Bool := none
  cursorViewportWideTail : Option Bool := none
  cursorViewportX : ℕ := 0
  cursorViewportY : ℕ := 0
  cursorVisualStyle : Option Int32 := none
  rowIterator : Except Int32 (List NativeRow)

section ReadCell

inductive Utf8Read
  | success (bytes : Bytes)
  | outOfSpace (need : ℕ)
  | failed

def getGraphemesUtf8 (cell : NativeCell) (cap : ℕ) : Utf8Read :=
  match cell.graphemesUtf8 with
  | none => .failed
  | some bytes => if bytes.length ≤ cap then .success bytes else .outOfSpace bytes.length

def readCodepoints (cell : NativeCell) (glen : ℕ) : DartString :=
  let n := if glen > 16 then 16 else glen
  fromCharCodes ((cell.graphemesBuf.take n).takeWhile (· ≠ 0))

def readGraphemes (cell : NativeCell) (glen : ℕ) : DartString :=
  match getGraphemesUtf8 cell 64 with
  | .success (b :: bytes) => ofChars (utf8Decode (b :: bytes))
  | .outOfSpace need =>
    match getGraphemesUtf8 cell need with
    | .success (b :: bytes) => ofChars (utf8Decode (b :: bytes))
    | _ => readCodepoints cell glen
  | _ => readCodepoints cell glen

def mapUnderline (v : Int32) : VtUnderline :=
  if v = kUnderlineSingle then .single
  else if v = kUnderlineDouble then .double_
  else if v = kUnderlineCurly then .curly
  else if v = kUnderlineDotted then .dotted
  else if v = kUnderlineDashed then .dashed
  else .none

def styleColorToDart (c : StyleColor) : Option Color :=
  if c.tag = kStyleColorRgb then some c.rgb else none

def defaultStyle : NativeStyle :=
  ⟨⟨0, kVtRenderDefaultFg⟩, false, false, false, false, false, false, false, 0⟩

def readCell (cell : NativeCell) : VtCell :=
  let glen := cell.graphemesLen.getD 0
  let text := if glen > 0 then readGraphemes cell glen else []
  let s := cell.style.getD defaultStyle
  let underline := mapUnderline s.underline
  let selected := cell.selected.getD false
  let (fg, bg) :=
    if s.inverse then (cell.bgColor, cell.fgColor) else (cell.fgColor, cell.bgColor)
  if glen = 0 ∧ bg = none ∧ !s.bold ∧ !s.italic ∧ !s.faint ∧ !s.inverse ∧ !s.invisible ∧
      !s.strikethrough ∧ !s.overline ∧ underline = .none ∧ !selected then blankCell
  else
    { text, fg, bg, underline, selected
      bold := s.bold
      italic := s.italic
      faint := s.faint
      inverse := s.inverse
      invisible := s.invisible
      strikethrough := s.strikethrough
      overline := s.overline
      underlineColor := styleColorToDart s.underlineColor }

end ReadCell

section Rows

/-- The loop over the cells that the iterator has, up to the last column. -/
def writeCells (c y : ℕ) : ℕ → List NativeCell → List VtCell → ℕ × List VtCell
  | x, [], out => (x, out)
  | x, cell :: cells, out =>
    if x < c then writeCells c y (x + 1) cells (out.set (y * c + x) (readCell cell)) else (x, out)

def blankCells (c y : ℕ) : ℕ → ℕ → List VtCell → List VtCell
  | 0, _, out => out
  | n + 1, x, out => blankCells c y n (x + 1) (out.set (y * c + x) blankCell)

def writeRow (c y : ℕ) (cells : List NativeCell) (out : List VtCell) : List VtCell :=
  let (x, out) := writeCells c y 0 cells out
  blankCells c y (c - x) x out

def rowDirty (isPartial : Bool) (row : NativeRow) : Bool :=
  if isPartial then row.dirty.getD true else true

def clearRowDirty (row : NativeRow) : NativeRow := { row with dirty := row.dirty.map fun _ ↦ false }

/-- The walk from row `y` on: the cells, the rows written, and the rows with their flags
cleared. -/
def projectRows (c r : ℕ) (isPartial : Bool) :
    ℕ → List NativeRow → List VtCell → List ℕ → List VtCell × List ℕ × List NativeRow
  | _, [], out, dirtyRows => (out, dirtyRows, [])
  | y, row :: rows, out, dirtyRows =>
    if y < r then
      let isDirty := rowDirty isPartial row
      let out :=
        match row.cells with
        | some cells => if isDirty then writeRow c y cells out else out
        | none => out
      let dirtyRows := if isDirty then dirtyRows ++ [y] else dirtyRows
      let (out, dirtyRows, rows) := projectRows c r isPartial (y + 1) rows out dirtyRows
      (out, dirtyRows, clearRowDirty row :: rows)
    else (out, dirtyRows, row :: rows)

end Rows

section Project

def check {α : Type} (read : Except Int32 α) : Except String α :=
  read.mapError fun rc ↦ "libghostty-vt error: " ++ toString rc

def dirtyKind (v : Int32) : VtDirtyKind :=
  if v = kRenderDirtyFalse then .clean
  else if v = kRenderDirtyPartial then .partly
  else .full

def cursorStyleOf (v : Int32) : VtCursorStyle :=
  if v = kCursorStyleBar then .bar
  else if v = kCursorStyleUnderline then .underline
  else if v = kCursorStyleBlockHollow then .blockHollow
  else .block

def clearDirty (state : RenderState) : RenderState :=
  { state with dirty := state.dirty.map fun _ ↦ kRenderDirtyFalse }

def projectUpdated (previous : Option VtFrame) (state : RenderState) :
    Except String (VtFrame × RenderState) := do
  let c ← check state.cols
  let r ← check state.rows
  let background := state.colorBackground.getD kVtRenderDefaultBg
  let foreground := state.colorForeground.getD kVtRenderDefaultFg
  let cursorColor := if state.colorCursorHasValue.getD false then state.colorCursor else none
  let dirty := dirtyKind (state.dirty.getD kRenderDirtyFull)
  let cursorVisible := state.cursorVisible.getD false && state.cursorViewportHasValue.getD false
  let cursorBlink := state.cursorBlinking.getD false
  let cursorOnWideTail := state.cursorViewportWideTail.getD false
  let cursorX := if cursorVisible then some state.cursorViewportX else none
  let cursorY := if cursorVisible then some state.cursorViewportY else none
  let cursorStyle :=
    if cursorVisible then cursorStyleOf (state.cursorVisualStyle.getD kCursorStyleBlock)
    else .block
  let sameSize := previous.filter fun prev ↦ prev.cols = c ∧ prev.rows = r
  match dirty, sameSize with
  | .clean, some prev =>
    return (prev.copyWithMeta {
        background := some background
        foreground := some foreground
        cursorColor
        clearCursorColor := cursorColor.isNone
        cursorX
        cursorY
        clearCursorPos := true
        cursorVisible := some cursorVisible
        cursorStyle := some cursorStyle
        cursorBlink := some cursorBlink
        cursorOnWideTail := some cursorOnWideTail
        dirty := some .clean
        dirtyRows := some [] }, clearDirty state)
  | _, _ =>
    let rows ← check state.rowIterator
    let merged := if dirty = .partly then sameSize else none
    let out := (merged.map VtFrame.cells).getD (List.replicate (c * r) blankCell)
    let (cells, dirtyRows, rows) := projectRows c r merged.isSome 0 rows out []
    return ({ cols := c, rows := r, cells, background, foreground, cursorColor, cursorX, cursorY,
              cursorVisible, cursorStyle, cursorBlink, cursorOnWideTail, dirty,
              dirtyRows := merged.map fun _ ↦ dirtyRows },
      clearDirty { state with rowIterator := .ok rows })

/-- libghostty-vt, as far as the projection calls it: what changes a terminal of type `T`, and
what brings the render state up to it. -/
structure GhosttyVt (T M : Type) where
  mutate : M → T → T
  renderStateUpdate : T → RenderState → Except Int32 (T × RenderState)

variable {T M : Type}

def projectRenderState (native : GhosttyVt T M) (terminal : T) (renderState : RenderState)
    (previous : Option VtFrame) : Except String VtFrame × T × RenderState :=
  match native.renderStateUpdate terminal renderState with
  | .error rc =>
    (.error ("ghostty_render_state_update failed: " ++ toString rc), terminal, renderState)
  | .ok (terminal, state) =>
    match projectUpdated previous state with
    | .error e => (.error e, terminal, state)
    | .ok (frame, state) => (.ok frame, terminal, state)

structure VtTerminal (T : Type) where
  terminal : T
  renderState : RenderState
  cols : ℕ
  rows : ℕ

def VtTerminal.snapshot (native : GhosttyVt T M) (previous : Option VtFrame) (vt : VtTerminal T) :
    Except String VtFrame × VtTerminal T :=
  match projectRenderState native vt.terminal vt.renderState previous with
  | (.error e, terminal, renderState) => (.error e, { vt with terminal, renderState })
  | (.ok frame, terminal, renderState) =>
    (.ok frame, { terminal, renderState, cols := frame.cols, rows := frame.rows })

end Project

end MachineNotebook.Vt.Render
