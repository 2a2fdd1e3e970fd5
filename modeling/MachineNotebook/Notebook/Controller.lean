import MachineNotebook.Lib.Run
import MachineNotebook.Notebook.Document
import MachineNotebook.Notebook.FreezePolicy

namespace MachineNotebook.Notebook.Controller

open MachineNotebook.Lib Dart.Bindings Dart.Text Vt.Frame Document FreezePolicy

structure NotebookController where
  doc : NotebookDocument := {}
  seq : ℕ := 0
  deriving DecidableEq

namespace NotebookController

def timeline (c : NotebookController) : List NotebookCell := c.doc.timeline

def mode (c : NotebookController) : InputMode := c.doc.mode

def revision (c : NotebookController) : ℕ := c.doc.revision

def setMode (mode : InputMode) (c : NotebookController) : NotebookController :=
  if c.doc.mode = mode then c
  else
    { c with
      doc := c.doc.copyWith
        { active := some (c.doc.active.copyWith (some mode) none), clearStatusFlash := true } }

def termId (seq : ℕ) : String := "term-" ++ toString seq

def msgId (seq : ℕ) : String := "msg-" ++ toString seq

def agentId (seq : ℕ) : String := "agent-" ++ toString seq

/-- The freeze cell of a live frame that is worth one, `none` where reading the frame throws. -/
def freezeCell (liveFrame : Option VtFrame) (seq : ℕ) : Option (List NotebookCell) :=
  match liveFrame with
  | none => some []
  | some live => do
    if ← isWorthFreezing live then return [.terminalFreeze (termId seq) (← apply live)]
    else return []

/-- Whether a cell was appended. A call that throws changes nothing. -/
def enterAsk (liveFrame : Option VtFrame) (c : NotebookController) : Bool × NotebookController :=
  if c.doc.mode = .naturalLanguage then (false, c)
  else
    match freezeCell liveFrame (c.seq + 1) with
    | none => (false, c)
    | some frozen =>
      let froze := !frozen.isEmpty
      (froze,
        { seq := if froze then c.seq + 1 else c.seq
          doc := c.doc.copyWith
            { timeline := some (c.doc.timeline ++ frozen)
              revision := some (if froze then c.doc.revision + 1 else c.doc.revision)
              active := some (c.doc.active.copyWith (some .naturalLanguage) none)
              clearStatusFlash := true } })

def enterTerminal (c : NotebookController) : NotebookController := c.setMode .terminal

def setPaletteOpen (isOpen : Bool) (c : NotebookController) : NotebookController :=
  if c.doc.paletteOpen = isOpen then c
  else { c with doc := c.doc.copyWith { paletteOpen := some isOpen } }

def flash (msg : String) (c : NotebookController) : NotebookController :=
  { c with doc := c.doc.copyWith { statusFlash := some msg } }

def agentSummary : String := "Agent not connected yet — message recorded on this machine."

def submitUserMessage (text : DartString) (c : NotebookController) : Bool × NotebookController :=
  let t := trim text
  if t = [] then (false, c.flash "empty message")
  else
    let you := .userMessage (msgId (c.seq + 1)) t
    let agent := .agentTurn (agentId (c.seq + 2)) agentSummary
    (true,
      { seq := c.seq + 2
        doc := c.doc.copyWith
          { timeline := some (c.doc.timeline ++ [you, agent])
            revision := some (c.doc.revision + 1)
            active := some (c.doc.active.copyWith (some .naturalLanguage) (some []))
            clearStatusFlash := true } })

def clearStatusFlash (c : NotebookController) : NotebookController :=
  if c.doc.statusFlash = none then c
  else { c with doc := c.doc.copyWith { clearStatusFlash := true } }

end NotebookController

inductive NotebookOp
  | setMode (mode : InputMode)
  | enterAsk (liveFrame : Option VtFrame)
  | enterTerminal
  | setPaletteOpen (isOpen : Bool)
  | submitUserMessage (text : DartString)
  | clearStatusFlash

/-- What the call returns, false where it returns nothing, and the controller after it. -/
def notebookStep : NotebookOp → NotebookController → Bool × NotebookController
  | .setMode mode, c => (false, c.setMode mode)
  | .enterAsk liveFrame, c => c.enterAsk liveFrame
  | .enterTerminal, c => (false, c.enterTerminal)
  | .setPaletteOpen isOpen, c => (false, c.setPaletteOpen isOpen)
  | .submitUserMessage text, c => c.submitUserMessage text
  | .clearStatusFlash, c => (false, c.clearStatusFlash)

open NotebookController

/-- The cells that an operation appends. -/
def addedCells : NotebookOp → NotebookController → List NotebookCell
  | .enterAsk liveFrame, c =>
    if c.mode = .naturalLanguage then [] else (freezeCell liveFrame (c.seq + 1)).getD []
  | .submitUserMessage text, c =>
    if trim text = [] then []
    else
      [.userMessage (msgId (c.seq + 1)) (trim text), .agentTurn (agentId (c.seq + 2)) agentSummary]
  | _, _ => []

/-- What an operation does to the history: nothing, one freeze on the way out of the terminal, or
a message with its agent turn. -/
inductive Appended (op : NotebookOp) (c c' : NotebookController) : Prop
  | nothing : addedCells op c = [] → c'.timeline = c.timeline → c'.revision = c.revision →
      c'.seq = c.seq → Appended op c c'
  | freeze {live frame : VtFrame} : op = .enterAsk (some live) → c.mode = .terminal →
      isWorthFreezing live = some true → apply live = some frame →
      addedCells op c = [.terminalFreeze (termId (c.seq + 1)) frame] →
      c'.timeline = c.timeline ++ [.terminalFreeze (termId (c.seq + 1)) frame] →
      c'.revision = c.revision + 1 → c'.seq = c.seq + 1 → c'.mode = .naturalLanguage →
      Appended op c c'
  | message {text : DartString} {cells : List NotebookCell} :
      op = .submitUserMessage text → trim text ≠ [] →
      cells = [.userMessage (msgId (c.seq + 1)) (trim text),
        .agentTurn (agentId (c.seq + 2)) agentSummary] →
      addedCells op c = cells → c'.timeline = c.timeline ++ cells →
      c'.revision = c.revision + 1 → c'.seq = c.seq + 2 → Appended op c c'

theorem freezeCell_cases {liveFrame : Option VtFrame} {seq : ℕ} {frozen : List NotebookCell}
    (h : freezeCell liveFrame seq = some frozen) :
    frozen = [] ∨ ∃ live frame, liveFrame = some live ∧ isWorthFreezing live = some true ∧
      apply live = some frame ∧ frozen = [.terminalFreeze (termId seq) frame] := by
  cases liveFrame with
  | none => exact Or.inl (Option.some.inj h).symm
  | some live =>
    obtain ⟨worth, hworth, h⟩ := Option.bind_eq_some_iff.mp h
    cases worth with
    | false => exact Or.inl (Option.some.inj h).symm
    | true =>
      obtain ⟨frame, hframe, h⟩ := Option.bind_eq_some_iff.mp h
      exact Or.inr ⟨live, frame, rfl, hworth, hframe, (Option.some.inj h).symm⟩

theorem appended_setMode (mode : InputMode) (c : NotebookController) :
    (c.setMode mode).timeline = c.timeline ∧ (c.setMode mode).revision = c.revision ∧
      (c.setMode mode).seq = c.seq := by
  unfold NotebookController.setMode
  split
  · exact ⟨rfl, rfl, rfl⟩
  · exact ⟨rfl, rfl, rfl⟩

theorem mode_eq_terminal {c : NotebookController} (h : c.mode ≠ .naturalLanguage) :
    c.mode = .terminal := by
  cases hm : c.mode with
  | terminal => rfl
  | naturalLanguage => exact absurd hm h

theorem appended_enterAsk (liveFrame : Option VtFrame) (c : NotebookController) :
    Appended (.enterAsk liveFrame) c (c.enterAsk liveFrame).2 := by
  by_cases hm : c.mode = .naturalLanguage
  · have hsame : c.enterAsk liveFrame = (false, c) := if_pos hm
    rw [hsame]
    exact .nothing (if_pos hm) rfl rfl rfl
  · have hadded : addedCells (.enterAsk liveFrame) c =
        (freezeCell liveFrame (c.seq + 1)).getD [] := if_neg hm
    have hm' : ¬c.doc.mode = .naturalLanguage := hm
    unfold NotebookController.enterAsk
    rw [if_neg hm']
    cases hcell : freezeCell liveFrame (c.seq + 1) with
    | none => exact .nothing (by rw [hadded, hcell]; rfl) rfl rfl rfl
    | some frozen =>
      rcases freezeCell_cases hcell with rfl | ⟨live, frame, rfl, hworth, hframe, rfl⟩
      · refine .nothing (by rw [hadded, hcell]; rfl) ?_ rfl rfl
        exact List.append_nil _
      · exact .freeze rfl (mode_eq_terminal hm) hworth hframe (by rw [hadded, hcell]; rfl) rfl rfl
          rfl rfl

theorem enterAsk_freezes {live : VtFrame} {c : NotebookController} (hm : c.mode = .terminal)
    (hworth : isWorthFreezing live = some true) :
    ∃ frame, apply live = some frame ∧ (c.enterAsk (some live)).2.timeline =
      c.timeline ++ [.terminalFreeze (termId (c.seq + 1)) frame] := by
  obtain ⟨frame, hframe⟩ := Option.isSome_iff_exists.mp (apply_isSome hworth)
  have hcell : freezeCell (some live) (c.seq + 1) =
      some [.terminalFreeze (termId (c.seq + 1)) frame] := by
    simp only [freezeCell, hworth, hframe, Option.bind_eq_bind, Option.bind_some, if_true]
    rfl
  have hm' : ¬c.doc.mode = .naturalLanguage := by
    have hm : c.doc.mode = .terminal := hm
    rw [hm]
    nofun
  refine ⟨frame, hframe, ?_⟩
  unfold NotebookController.enterAsk
  rw [if_neg hm', hcell]
  rfl

theorem enterAsk_froze {liveFrame : Option VtFrame} {c : NotebookController}
    (h : (c.enterAsk liveFrame).1 = true) :
    ∃ live, liveFrame = some live ∧ isWorthFreezing live = some true := by
  unfold NotebookController.enterAsk at h
  split at h
  · cases h
  · split at h
    · cases h
    · next frozen hcell =>
      rcases freezeCell_cases hcell with rfl | ⟨live, -, hlive, hworth, -⟩
      · cases h
      · exact ⟨live, hlive, hworth⟩

theorem enterAsk_kept {liveFrame : Option VtFrame} {c : NotebookController}
    (h : (c.enterAsk liveFrame).1 = false) : (c.enterAsk liveFrame).2.timeline = c.timeline := by
  unfold NotebookController.enterAsk at h ⊢
  split
  · rfl
  · next hm =>
    rw [if_neg hm] at h
    split
    · rfl
    · next frozen hcell =>
      rw [hcell] at h
      have hnone : frozen = [] := by simpa using h
      rw [hnone]
      exact List.append_nil _

theorem appended_submitUserMessage (text : DartString) (c : NotebookController) :
    Appended (.submitUserMessage text) c (c.submitUserMessage text).2 := by
  unfold NotebookController.submitUserMessage
  by_cases h : trim text = []
  · simp only [if_pos h]
    exact .nothing (if_pos h) rfl rfl rfl
  · simp only [if_neg h]
    exact .message rfl h rfl (if_neg h) rfl rfl rfl

theorem appended_step (op : NotebookOp) (c : NotebookController) :
    Appended op c (notebookStep op c).2 := by
  cases op with
  | setMode mode =>
    obtain ⟨ht, hr, hs⟩ := appended_setMode mode c
    exact .nothing rfl ht hr hs
  | enterAsk liveFrame => exact appended_enterAsk liveFrame c
  | enterTerminal =>
    obtain ⟨ht, hr, hs⟩ := appended_setMode .terminal c
    exact .nothing rfl ht hr hs
  | setPaletteOpen isOpen =>
    have hsame : (c.setPaletteOpen isOpen).timeline = c.timeline ∧
        (c.setPaletteOpen isOpen).revision = c.revision ∧ (c.setPaletteOpen isOpen).seq = c.seq := by
      unfold NotebookController.setPaletteOpen
      split
      · exact ⟨rfl, rfl, rfl⟩
      · exact ⟨rfl, rfl, rfl⟩
    exact .nothing rfl hsame.1 hsame.2.1 hsame.2.2
  | submitUserMessage text => exact appended_submitUserMessage text c
  | clearStatusFlash =>
    have hsame : c.clearStatusFlash.timeline = c.timeline ∧
        c.clearStatusFlash.revision = c.revision ∧ c.clearStatusFlash.seq = c.seq := by
      unfold NotebookController.clearStatusFlash
      split
      · exact ⟨rfl, rfl, rfl⟩
      · exact ⟨rfl, rfl, rfl⟩
    exact .nothing rfl hsame.1 hsame.2.1 hsame.2.2

end MachineNotebook.Notebook.Controller
