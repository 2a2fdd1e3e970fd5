import MachineNotebook.Session.Segments

namespace MachineNotebook.Session.FreezeViewport

open MachineNotebook.Lib MachineNotebook.Lib.Utf8 Run Loop Segments Vt.Frame
open Notebook Notebook.Document Notebook.Controller Notebook.FreezePolicy

variable {T : Type} {lib : GhosttyTerm T} {s s' : LiveSession T}

/-- Two frames show the same viewport, whatever their cursors and their marks of what is dirty. -/
structure SameContent (f g : VtFrame) : Prop where
  cols : f.cols = g.cols
  rows : f.rows = g.rows
  cells : f.cells = g.cells
  background : f.background = g.background
  foreground : f.foreground = g.foreground

def Leaves : LoopOp → LiveSession T → Prop
  | .toggleMode _ _, s => s.notebook.mode = .terminal ∧ s.closed = false
  | _, _ => False

/-- A way out of the terminal that appends a cell gives the notebook what the terminal shows, and
one cell is appended where that is worth freezing. -/
def FreezesViewport (lib : GhosttyTerm T) (op : LoopOp) (s : LiveSession T) : Prop :=
  Leaves op s →
    ((runOp lib op s).notebook.timeline ≠ s.notebook.timeline →
        SameContent s.frame (lib.view s.vt.term)) ∧
      (isWorthFreezing (lib.view s.vt.term) = some true →
        ∃ id frame, (runOp lib op s).notebook.timeline =
          s.notebook.timeline ++ [.terminalFreeze id frame])

def LeavesUnseen (op : LoopOp) (s : LiveSession T) : Prop := Leaves op s ∧ s.unseen = true

/-- An open session is started, and unless the terminal was changed since, the last frame shows
it. -/
structure Shown (lib : GhosttyTerm T) (s : LiveSession T) : Prop where
  started : s.closed = false → s.started = true
  content : s.unseen = false → SameContent s.frame (lib.view s.vt.term)

theorem SameContent.refl (f : VtFrame) : SameContent f f := ⟨rfl, rfl, rfl, rfl, rfl⟩

section Content

variable {f g : VtFrame}

theorem SameContent.rowText (h : SameContent f g) (y : ℕ) : rowText f y = rowText g y := by
  simp only [FreezePolicy.rowText, cellText, h.cols, h.rows, h.cells]

theorem SameContent.rowIsBarePrompt (h : SameContent f g) (y : ℕ) :
    rowIsBarePrompt f y = rowIsBarePrompt g y := by
  unfold FreezePolicy.rowIsBarePrompt
  rw [h.rowText]

theorem SameContent.usedRows (h : SameContent f g) : usedRows f = usedRows g := by
  simp only [FreezePolicy.usedRows, rowHasInk, cellText, h.cols, h.rows, h.cells]

theorem SameContent.dropBarePrompts (h : SameContent f g) (used : ℕ) :
    dropBarePrompts f used = dropBarePrompts g used := by
  induction used with
  | zero => rfl
  | succ used ih =>
    cases used with
    | zero => rfl
    | succ used => simp only [FreezePolicy.dropBarePrompts, h.rowIsBarePrompt, ih]

theorem SameContent.usedRowsForFreeze (h : SameContent f g) :
    usedRowsForFreeze f = usedRowsForFreeze g := by
  simp only [FreezePolicy.usedRowsForFreeze, h.usedRows, h.dropBarePrompts]

theorem SameContent.isWorthFreezing (h : SameContent f g) :
    isWorthFreezing f = isWorthFreezing g := by
  simp only [FreezePolicy.isWorthFreezing, hasInk, h.cells, h.usedRowsForFreeze, h.rowText,
    h.rowIsBarePrompt]

end Content

section Kept

theorem shown_changeTerminal (f : Loop.VtTerminal T → Loop.VtTerminal T) (hs : Shown lib s) :
    Shown lib (changeTerminal f s) := ⟨hs.started, nofun⟩

theorem shown_takeFrame (snapshot : Bool) (hs : Shown lib s) :
    Shown lib (takeFrame lib snapshot s) := by
  cases snapshot with
  | false => exact hs
  | true => exact ⟨hs.started, fun _ ↦ .refl _⟩

theorem shown_paint (data : Bytes) (hs : Shown lib s) : Shown lib (Loop.paint lib data s) := by
  unfold Loop.paint
  split
  · exact hs
  · exact ⟨hs.started, nofun⟩

theorem shown_of_same (h : SameDisplay s s') (hs : Shown lib s) : Shown lib s' where
  started hopen := h.started.trans (hs.started (h.closed.symm.trans hopen))
  content hseen := by
    rw [h.frame, h.term]
    exact hs.content (h.unseen.symm.trans hseen)

theorem shown_displays : Displays lib fun s s' ↦ Shown lib s → Shown lib s' where
  same := shown_of_same
  trans h h' hs := h' (h hs)
  paint data _ := shown_paint data
  takeFrame snapshot _ := shown_takeFrame snapshot

theorem shown_beginNewTerminalSurface (snapshot : Bool) (hs : Shown lib s) :
    Shown lib (beginNewTerminalSurface lib snapshot s) := by
  cases hclosed : s.closed with
  | true =>
    have hnone : beginNewTerminalSurface lib snapshot s = s := if_pos hclosed
    rw [hnone]
    exact hs
  | false =>
    cases snapshot with
    | false =>
      rw [beginNewTerminalSurface_unseen hclosed]
      exact ⟨hs.started, nofun⟩
    | true =>
      rw [beginNewTerminalSurface_shown hclosed]
      exact ⟨hs.started, fun _ ↦ ⟨rfl, rfl, rfl, rfl, rfl⟩⟩

theorem shown_toggleMode (encoded : Option Bytes) (snapshot : Bool) (hs : Shown lib s) :
    Shown lib (toggleMode lib encoded snapshot s) := by
  have hkept (notebook : NotebookController) : Shown lib { s with notebook } :=
    ⟨hs.started, hs.content⟩
  unfold toggleMode
  split
  · unfold enterAsk
    dsimp only
    split
    · exact shown_displays.onEncoded encoded _ (shown_beginNewTerminalSurface snapshot (hkept _))
    · exact shown_displays.onEncoded encoded _ (hkept _)
  · exact shown_displays.onEncoded encoded _ (hkept _)

end Kept

theorem shown_step (op : LoopOp) (s : LiveSession T) (hs : Shown lib s) :
    Shown lib (runOp lib op s) := by
  cases op with
  | timer =>
    simp only [runOp]
    split
    · exact shown_displays.tickOnce s hs
    · exact hs
  | resume i r =>
    simp only [runOp]
    split
    · exact hs
    · exact shown_displays.resumeTick r _ _ ⟨hs.started, hs.content⟩
  | onKey encoded => exact shown_displays.onEncoded encoded s hs
  | onFocus encoded => exact shown_displays.onEncoded encoded s hs
  | onPaste encoded => exact shown_displays.onEncoded encoded s hs
  | onScroll delta snapshot =>
    simp only [runOp, onScroll]
    split
    · exact hs
    · exact shown_takeFrame snapshot (shown_changeTerminal _ hs)
  | resize cols rows resized snapshot =>
    simp only [runOp, resize]
    split
    · exact hs
    · exact shown_takeFrame snapshot (shown_changeTerminal _ hs)
  | onPointer event snapshot =>
    simp only [runOp, onPointer]
    split
    · exact hs
    · split
      · exact hs
      · split
        · exact shown_takeFrame snapshot (shown_changeTerminal _ hs)
        · exact shown_changeTerminal _ hs
  | toggleMode encoded snapshot => exact shown_toggleMode encoded snapshot hs
  | submitUserMessage text => exact ⟨hs.started, hs.content⟩
  | setPaletteOpen isOpen => exact ⟨hs.started, hs.content⟩
  | disposeAsync => exact ⟨fun hopen ↦ Bool.noConfusion hopen, hs.content⟩
  | dispose => exact ⟨fun hopen ↦ Bool.noConfusion hopen, hs.content⟩

theorem freezesViewport_of_shown {op : LoopOp} (hs : Shown lib s) (hseen : ¬LeavesUnseen op s) :
    FreezesViewport lib op s := by
  intro hleaves
  have hcontent : SameContent s.frame (lib.view s.vt.term) := by
    refine hs.content (Bool.eq_false_iff.mpr fun hunseen ↦ ?_)
    exact hseen ⟨hleaves, hunseen⟩
  refine ⟨fun _ ↦ hcontent, fun hworth ↦ ?_⟩
  rw [← hcontent.isWorthFreezing] at hworth
  cases op with
  | toggleMode encoded snapshot =>
    obtain ⟨hm, hopen⟩ := hleaves
    have hlive : liveFrame s = some s.frame := if_pos (hs.started hopen)
    have hrun : runOp lib (.toggleMode encoded snapshot) s = enterAsk lib encoded snapshot s :=
      if_pos hm
    obtain ⟨frame, -, htimeline⟩ := enterAsk_freezes hm hworth
    rw [hrun, notebook_enterAsk, hlive]
    exact ⟨_, frame, htimeline⟩
  | _ => exact absurd hleaves id

theorem shown_opened (term : T) : Shown lib (opened lib term) := ⟨fun _ ↦ rfl, fun _ ↦ .refl _⟩

/-- In a run that never leaves the terminal between a change of it and the next frame, every way
out freezes what the terminal shows. -/
theorem freezes_viewport (lib : GhosttyTerm T) (term : T) (ops : List LoopOp)
    (h : Along (loopStep lib) (fun op s ↦ ¬LeavesUnseen op s) ops (opened lib term)) :
    Along (loopStep lib) (FreezesViewport lib) ops (opened lib term) :=
  h.of_invariant (fun op s _ hs ↦ shown_step op s hs)
    (fun _ _ hseen hs ↦ freezesViewport_of_shown hs hseen) (shown_opened term)

def lineTerm : GhosttyTerm Bytes where
  vtWrite data line := (line ++ data, { ptyOut := if 5 ∈ data then [[0x3F]] else [] })
  scrollViewport _ line := line
  resize _ _ line := (line, {})
  onPointer _ _ := none
  view line := { cols := line.length, rows := 1, cells := line.map fun b ↦ { text := [b.toUInt16] },
                 background := ⟨0, 0, 0⟩, foreground := ⟨255, 255, 255⟩ }

def shownOutput (wrote : Bytes) : List LoopOp :=
  [.timer, .resume 0 { wrote }, .resume 0 {}, .resume 0 {}]

theorem freezes_viewport_shown :
    Along (loopStep lineTerm) (FreezesViewport lineTerm)
      (shownOutput [0x61] ++ [.toggleMode none true]) (opened lineTerm [0x6C, 0x73]) :=
  freezes_viewport lineTerm [0x6C, 0x73] _
    ⟨fun h ↦ h.1, fun h ↦ h.1, fun h ↦ h.1, fun h ↦ h.1, fun h ↦ absurd h.2 (by decide), trivial⟩

/-- The tick has shown the output and awaits the `sendInput` of the terminal's answer when the user
leaves the terminal. -/
theorem stale_frame_frozen :
    ¬Along (loopStep lineTerm) (FreezesViewport lineTerm)
      (shownOutput [0x61, 5] ++ [.toggleMode none true]) (opened lineTerm [0x6C, 0x73]) := by
  intro h
  obtain ⟨-, -, -, -, hleaves, -⟩ := h
  obtain ⟨hcontent, -⟩ := hleaves ⟨rfl, rfl⟩
  exact absurd (hcontent (by decide)).cols (by decide)

end MachineNotebook.Session.FreezeViewport
