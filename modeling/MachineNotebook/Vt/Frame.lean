import MachineNotebook.Dart.Bindings

namespace MachineNotebook.Vt.Frame

open MachineNotebook.Dart.Bindings

structure Color where
  r : UInt8
  g : UInt8
  b : UInt8
  deriving DecidableEq

inductive VtUnderline
  | none
  | single
  | double_
  | curly
  | dotted
  | dashed
  deriving DecidableEq

structure VtCell where
  text : DartString := []
  fg : Option Color := none
  bg : Option Color := none
  bold : Bool := false
  italic : Bool := false
  faint : Bool := false
  inverse : Bool := false
  invisible : Bool := false
  strikethrough : Bool := false
  overline : Bool := false
  underline : VtUnderline := .none
  underlineColor : Option Color := none
  selected : Bool := false
  deriving DecidableEq

def blankCell : VtCell := {}

inductive VtCursorStyle
  | bar
  | block
  | underline
  | blockHollow
  deriving DecidableEq

inductive VtDirtyKind
  | clean
  | partly
  | full
  deriving DecidableEq

structure VtFrame where
  cols : ℕ
  rows : ℕ
  cells : List VtCell
  background : Color
  foreground : Color
  cursorColor : Option Color := none
  cursorX : Option ℕ := none
  cursorY : Option ℕ := none
  cursorVisible : Bool := false
  cursorStyle : VtCursorStyle := .block
  cursorBlink : Bool := false
  cursorOnWideTail : Bool := false
  dirty : VtDirtyKind := .full
  dirtyRows : Option (List ℕ) := none
  deriving DecidableEq

structure MetaArgs where
  background : Option Color := none
  foreground : Option Color := none
  cursorColor : Option Color := none
  cursorX : Option ℕ := none
  cursorY : Option ℕ := none
  cursorVisible : Option Bool := none
  cursorStyle : Option VtCursorStyle := none
  cursorBlink : Option Bool := none
  cursorOnWideTail : Option Bool := none
  dirty : Option VtDirtyKind := none
  dirtyRows : Option (List ℕ) := none
  clearCursorColor : Bool := false
  clearCursorPos : Bool := false

namespace VtFrame

def copyWithMeta (f : VtFrame) (args : MetaArgs) : VtFrame where
  cols := f.cols
  rows := f.rows
  cells := f.cells
  background := args.background.getD f.background
  foreground := args.foreground.getD f.foreground
  cursorColor := if args.clearCursorColor then none else args.cursorColor.or f.cursorColor
  cursorX := if args.clearCursorPos then args.cursorX else args.cursorX.or f.cursorX
  cursorY := if args.clearCursorPos then args.cursorY else args.cursorY.or f.cursorY
  cursorVisible := args.cursorVisible.getD f.cursorVisible
  cursorStyle := args.cursorStyle.getD f.cursorStyle
  cursorBlink := args.cursorBlink.getD f.cursorBlink
  cursorOnWideTail := args.cursorOnWideTail.getD f.cursorOnWideTail
  dirty := args.dirty.getD f.dirty
  dirtyRows := args.dirtyRows.or f.dirtyRows

def row (f : VtFrame) (y : ℕ) : List VtCell := (f.cells.drop (y * f.cols)).take f.cols

end VtFrame

end MachineNotebook.Vt.Frame
