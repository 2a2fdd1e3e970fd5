import MachineNotebook.Dart.Text
import MachineNotebook.Vt.Frame

namespace MachineNotebook.Notebook.FreezePolicy

open MachineNotebook.Dart.Bindings Dart.Text Vt.Frame

/-! A frame with fewer cells than its size asks for makes a read throw: the result is then
`none`. -/

def hasInk (frame : VtFrame) : Bool := frame.cells.any fun c ↦ c.text ≠ []

def cellText (frame : VtFrame) (i : ℕ) : Option DartString := frame.cells[i]?.map VtCell.text

def isSpace (u : UInt16) : Bool := isTrimmed u && u != 0x85

def rowText (frame : VtFrame) (y : ℕ) : Option DartString :=
  if frame.cols = 0 ∨ frame.rows ≤ y then some []
  else do
    let base := y * frame.cols
    let texts ← (List.range frame.cols).mapM fun x ↦ cellText frame (base + x)
    return texts.flatten.rdropWhile isSpace

def promptUnits : List UInt16 := [0x24, 0x23, 0x25, 0x276F, 0x3E]

def rowIsBarePrompt (frame : VtFrame) (y : ℕ) : Option Bool := do
  let t := trim (← rowText frame y)
  if t = [] then return true
  return t.length ≤ 3 && t.all fun u ↦ promptUnits.contains u

def rowHasInk (frame : VtFrame) (y : ℕ) : Option Bool :=
  (List.range frame.cols).anyM fun x ↦ do
    let text ← cellText frame (y * frame.cols + x)
    return text ≠ []

def usedRows (frame : VtFrame) : Option ℕ :=
  if frame.cols = 0 then some 0
  else
    (List.range frame.rows).foldlM (fun used y ↦ do
      if ← rowHasInk frame y then return y + 1 else return used) 0

def dropBarePrompts (frame : VtFrame) : ℕ → Option ℕ
  | used + 2 => do
    if ← rowIsBarePrompt frame (used + 1) then dropBarePrompts frame (used + 1)
    else return used + 2
  | used => some used

def usedRowsForFreeze (frame : VtFrame) : Option ℕ := do
  let used ← dropBarePrompts frame (← usedRows frame)
  if used = 0 then usedRows frame else return used

def isWorthFreezing (frame : VtFrame) : Option Bool :=
  if !hasInk frame then some false
  else do
    let used ← usedRowsForFreeze frame
    if used = 0 then return false
    (List.range used).anyM fun y ↦ do
      let t := trim (← rowText frame y)
      if t = [] then return false
      return !(← rowIsBarePrompt frame y)

def clone (src : VtFrame) : VtFrame := { src with cursorBlink := false, dirty := .full }

def apply (src : VtFrame) : Option VtFrame := do
  let used ← usedRowsForFreeze src
  if used = 0 then
    return (clone src).copyWithMeta
      { cursorVisible := some false, clearCursorPos := true, clearCursorColor := true }
  let n := used * src.cols
  return { cols := src.cols
           rows := used
           cells := src.cells.take n ++ List.replicate (n - src.cells.length) {}
           background := src.background
           foreground := src.foreground
           cursorStyle := src.cursorStyle }

theorem usedRowsForFreeze_isSome {frame : VtFrame} (h : isWorthFreezing frame = some true) :
    (usedRowsForFreeze frame).isSome := by
  unfold isWorthFreezing at h
  split at h
  · cases h
  · obtain ⟨used, hused, -⟩ := Option.bind_eq_some_iff.mp h
    exact Option.isSome_of_mem hused

theorem apply_isSome {frame : VtFrame} (h : isWorthFreezing frame = some true) :
    (apply frame).isSome := by
  obtain ⟨used, hused⟩ := Option.isSome_iff_exists.mp (usedRowsForFreeze_isSome h)
  simp only [apply, hused, Option.bind_eq_bind, Option.bind_some]
  split
  · rfl
  · rfl

end MachineNotebook.Notebook.FreezePolicy
