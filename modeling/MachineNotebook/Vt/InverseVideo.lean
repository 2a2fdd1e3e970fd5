import MachineNotebook.Vt.Render

namespace MachineNotebook.Vt.InverseVideo

open Vt.Frame Vt.Render

def resolveColors (frame : VtFrame) (cell : VtCell) : Color × Color :=
  let fg := cell.fg.getD frame.foreground
  let bg := cell.bg.getD frame.background
  if cell.selected then (bg, fg) else (fg, bg)

def flagged (cell : NativeCell) (style : NativeStyle) (inverse selected : Bool) : NativeCell :=
  { cell with style := some { style with inverse }, selected := some selected }

def painted (frame : VtFrame) (cell : NativeCell) (style : NativeStyle)
    (inverse selected : Bool) : Color × Color :=
  resolveColors frame (readCell (flagged cell style inverse selected))

/-- Either flag exchanges the two colours, whichever way the other one stands. -/
structure Exchanged (frame : VtFrame) (cell : NativeCell) (style : NativeStyle) : Prop where
  inverse : ∀ selected,
    painted frame cell style true selected = (painted frame cell style false selected).swap
  selected : ∀ inverse,
    painted frame cell style inverse true = (painted frame cell style inverse false).swap

/-- Nothing in the cell is painted but its background, which is not given: without either flag it
is read as the blank cell. -/
def Plain (cell : NativeCell) (style : NativeStyle) : Prop :=
  cell.graphemesLen.getD 0 = 0 ∧ cell.bgColor = none ∧ !style.bold ∧ !style.italic ∧
    !style.faint ∧ !style.invisible ∧ !style.strikethrough ∧ !style.overline ∧
    mapUnderline style.underline = .none

/-- Both colours are given or the defaults are one colour, and no foreground is lost with a blank
cell. -/
def Exchangeable (frame : VtFrame) (cell : NativeCell) (style : NativeStyle) : Prop :=
  (cell.fgColor ≠ none ∧ cell.bgColor ≠ none ∨ frame.foreground = frame.background) ∧
    (Plain cell style → cell.fgColor.getD frame.foreground = frame.foreground)

variable {frame : VtFrame} {cell : NativeCell} {style : NativeStyle}

theorem painted_inverse (selected : Bool) :
    painted frame cell style true selected =
      if selected then (cell.fgColor.getD frame.background, cell.bgColor.getD frame.foreground)
      else (cell.bgColor.getD frame.foreground, cell.fgColor.getD frame.background) := by
  simp [painted, flagged, readCell, resolveColors]

theorem painted_selected :
    painted frame cell style false true =
      (cell.bgColor.getD frame.background, cell.fgColor.getD frame.foreground) := by
  simp [painted, flagged, readCell, resolveColors]

theorem painted_plain (hplain : Plain cell style) :
    painted frame cell style false false = (frame.foreground, frame.background) := by
  obtain ⟨hlen, hbg, hflags⟩ := hplain
  simp [painted, flagged, readCell, resolveColors, hlen, hbg, hflags, blankCell]

theorem painted_inked (hplain : ¬Plain cell style) :
    painted frame cell style false false =
      (cell.fgColor.getD frame.foreground, cell.bgColor.getD frame.background) := by
  simp only [painted, flagged, readCell, Option.getD_some, Bool.false_eq_true, if_false]
  split
  · rename_i hblank
    obtain ⟨hlen, hbg, hbold, hitalic, hfaint, -, hinvisible, hstrike, hover, hunder, -⟩ := hblank
    exact absurd ⟨hlen, hbg, hbold, hitalic, hfaint, hinvisible, hstrike, hover, hunder⟩ hplain
  · simp [resolveColors]

theorem getD_eq_getD {o : Option Color} {x y : Color} : o.getD x = o.getD y ↔ o ≠ none ∨ x = y := by
  cases o with
  | none => simp
  | some c => simp

theorem painted_unflagged (hplain : Plain cell style →
    cell.fgColor.getD frame.foreground = frame.foreground) :
    painted frame cell style false false =
      (cell.fgColor.getD frame.foreground, cell.bgColor.getD frame.background) := by
  by_cases hp : Plain cell style
  · rw [painted_plain hp, hplain hp, hp.2.1, Option.getD_none]
  · exact painted_inked hp

theorem Exchanged.exchangeable (h : Exchanged frame cell style) :
    Exchangeable frame cell style := by
  have hinverse := h.inverse true
  have hselected := h.selected false
  rw [painted_inverse, painted_selected, if_pos rfl, Prod.swap_prod_mk, Prod.mk.injEq,
    getD_eq_getD, getD_eq_getD] at hinverse
  constructor
  · obtain ⟨hfg, hbg⟩ := hinverse
    by_cases heq : frame.foreground = frame.background
    · exact Or.inr heq
    · exact Or.inl ⟨hfg.resolve_right fun he ↦ heq he.symm, hbg.resolve_right heq⟩
  · intro hplain
    rw [painted_selected, painted_plain hplain, Prod.swap_prod_mk, Prod.mk.injEq] at hselected
    exact hselected.2

theorem Exchangeable.exchanged (h : Exchangeable frame cell style) :
    Exchanged frame cell style := by
  obtain ⟨hgiven, hplain⟩ := h
  have hfg : cell.fgColor.getD frame.background = cell.fgColor.getD frame.foreground :=
    getD_eq_getD.mpr (hgiven.imp And.left Eq.symm)
  have hbg : cell.bgColor.getD frame.foreground = cell.bgColor.getD frame.background :=
    getD_eq_getD.mpr (hgiven.imp (fun h ↦ h.2) id)
  have hunflagged := painted_unflagged hplain
  constructor
  · intro selected
    cases selected with
    | false =>
      rw [painted_inverse, hunflagged, hfg, hbg, if_neg Bool.false_ne_true, Prod.swap_prod_mk]
    | true => rw [painted_inverse, painted_selected, hfg, hbg, if_pos rfl, Prod.swap_prod_mk]
  · intro inverse
    cases inverse with
    | false => rw [painted_selected, hunflagged, Prod.swap_prod_mk]
    | true =>
      rw [painted_inverse, painted_inverse, if_pos rfl, if_neg Bool.false_ne_true,
        Prod.swap_prod_mk]

/-- The projection exchanges colours that may not be given, before the painter puts the defaults
in their place. -/
theorem exchanged_iff (frame : VtFrame) (cell : NativeCell) (style : NativeStyle) :
    Exchanged frame cell style ↔ Exchangeable frame cell style :=
  ⟨Exchanged.exchangeable, Exchangeable.exchanged⟩

def darkFrame : VtFrame :=
  { cols := 1, rows := 1, cells := [], background := kVtRenderDefaultBg
    foreground := kVtRenderDefaultFg }

/-- An inverse cell with the default colours is painted as if it were not inverse. -/
theorem not_exchanged_default : ¬∀ frame cell style, Exchanged frame cell style := by
  intro h
  have hswap := (h darkFrame { graphemesLen := some 1 } defaultStyle).inverse false
  revert hswap
  decide

end MachineNotebook.Vt.InverseVideo
