import MachineNotebook.Vt.Frame

namespace MachineNotebook.Notebook.Document

open MachineNotebook.Dart.Bindings Vt.Frame

inductive InputMode
  | terminal
  | naturalLanguage
  deriving DecidableEq

inductive NotebookCell
  | terminalFreeze (id : String) (frame : VtFrame)
  | userMessage (id : String) (text : DartString)
  | agentTurn (id : String) (summary : String)
  deriving DecidableEq

def NotebookCell.id : NotebookCell → String
  | .terminalFreeze id _ => id
  | .userMessage id _ => id
  | .agentTurn id _ => id

structure ActiveCell where
  mode : InputMode := .terminal
  askDraft : DartString := []
  deriving DecidableEq

def ActiveCell.copyWith (a : ActiveCell) (mode : Option InputMode) (askDraft : Option DartString) :
    ActiveCell where
  mode := mode.getD a.mode
  askDraft := askDraft.getD a.askDraft

structure NotebookDocument where
  timeline : List NotebookCell := []
  active : ActiveCell := {}
  paletteOpen : Bool := false
  statusFlash : Option String := none
  revision : ℕ := 0
  deriving DecidableEq

structure DocumentArgs where
  timeline : Option (List NotebookCell) := none
  active : Option ActiveCell := none
  paletteOpen : Option Bool := none
  statusFlash : Option String := none
  clearStatusFlash : Bool := false
  revision : Option ℕ := none

namespace NotebookDocument

def mode (d : NotebookDocument) : InputMode := d.active.mode

def copyWith (d : NotebookDocument) (args : DocumentArgs) : NotebookDocument where
  timeline := args.timeline.getD d.timeline
  active := args.active.getD d.active
  paletteOpen := args.paletteOpen.getD d.paletteOpen
  statusFlash := if args.clearStatusFlash then none else args.statusFlash.or d.statusFlash
  revision := args.revision.getD d.revision

end NotebookDocument

end MachineNotebook.Notebook.Document
