import MachineNotebook.Notebook.Controller
import MachineNotebook.Session.Tick

namespace MachineNotebook.Session.Loop

open MachineNotebook.Lib MachineNotebook.Lib.Utf8 Dart.Bindings BootFilter Vt.Frame
open Vt.Newlines (normalizeNewlines)
open Session.Tick (AgentOsTickState)
open Notebook.Document Notebook.Controller

inductive VtChromeEvent
  | bell
  | titleChanged
  | pwdChanged
  | clipboardWrite
  | progress
  | notification
  deriving DecidableEq

/-- What libghostty-vt calls back while it is fed: answers for the guest, and chrome events. -/
structure Queued where
  ptyOut : List Bytes := []
  chrome : List VtChromeEvent := []

inductive ScrollViewport
  | delta (rows : ℤ)
  | bottom

structure PointerEvent where
  kind : ℕ
  cellX : ℕ
  cellY : ℕ

/-- libghostty-vt on an open terminal of type `T`. `view` is what a projection of its viewport
gives, and `onPointer` the selection gesture, `none` where it throws. -/
structure GhosttyTerm (T : Type) where
  vtWrite : Bytes → T → T × Queued
  scrollViewport : ScrollViewport → T → T
  resize : ℕ → ℕ → T → T × Queued
  onPointer : PointerEvent → T → Option (Bool × T)
  view : T → VtFrame

/-- An open `VtTerminal` with its two queues. -/
structure VtTerminal (T : Type) where
  term : T
  ptyOut : List Bytes := []
  chrome : List VtChromeEvent := []

namespace VtTerminal

variable {T : Type} (lib : GhosttyTerm T)

def enqueue (r : T × Queued) (vt : VtTerminal T) : VtTerminal T :=
  ⟨r.1, vt.ptyOut ++ r.2.ptyOut, vt.chrome ++ r.2.chrome⟩

def write (data : Bytes) (vt : VtTerminal T) : VtTerminal T :=
  if data = [] then vt else vt.enqueue (lib.vtWrite data vt.term)

def writeText (text : String) (vt : VtTerminal T) : VtTerminal T :=
  vt.write lib (normalizeNewlines (toUtf8 text))

def writeGuest (data : Bytes) (vt : VtTerminal T) : VtTerminal T :=
  vt.write lib (normalizeNewlines data)

def scrollViewport (behavior : ScrollViewport) (vt : VtTerminal T) : VtTerminal T :=
  { vt with term := lib.scrollViewport behavior vt.term }

end VtTerminal

inductive TickAwait
  | sendInput (pending : Bytes)
  | tickN
  | status
  | takeOutput
  | ptyReply
  | clipboard (rest : List VtChromeEvent)
  | syncImages
  deriving DecidableEq

/-- A started session with the notebook that shows it. `ticks` are the calls of `_tickOnce` that
await something, and `output` is what the VM has for `takeOutput`. The last five fields record what
has happened: the input enqueued and sent, what the guest has written, what was handed to
`writeGuest`, and whether the terminal was changed after the last frame was taken. -/
structure LiveSession (T : Type) where
  vt : VtTerminal T
  frame : VtFrame
  output : Bytes := []
  closed : Bool := false
  started : Bool := true
  loop : Bool := true
  ticking : Bool := false
  ticks : List TickAwait := []
  lastTick : Option AgentOsTickState := none
  atPrompt : Bool := false
  shellReady : Bool := false
  readyTicks : ℕ := 0
  bootLineCarry : List Char := []
  pendingInput : Bytes := []
  notebook : NotebookController := {}
  enqueued : Bytes := []
  sent : Bytes := []
  guestWrote : Bytes := []
  painted : List Bytes := []
  unseen : Bool := false

/-- How an awaited call ended: whether it returned, with the state of `tickN` and what the guest
wrote during it, the `atPrompt` of `status`, and whether a snapshot after it succeeds. -/
structure Reply where
  ok : Bool := true
  state : AgentOsTickState := .runnable
  wrote : Bytes := []
  atPrompt : Bool := false
  snapshot : Bool := true

variable {T : Type} (lib : GhosttyTerm T)

section Frame

def takeFrame (snapshot : Bool) (s : LiveSession T) : LiveSession T :=
  if snapshot then { s with frame := lib.view s.vt.term, unseen := false } else s

def changeTerminal (f : VtTerminal T → VtTerminal T) (s : LiveSession T) : LiveSession T :=
  { s with vt := f s.vt, unseen := true }

def paint (data : Bytes) (s : LiveSession T) : LiveSession T :=
  if data = [] then s
  else { changeTerminal (·.writeGuest lib data) s with painted := s.painted ++ [data] }

end Frame

section Tick

def capacity : ℕ := 128 * 1024

def endTick (s : LiveSession T) : LiveSession T := { s with ticking := false }

def awaits (call : TickAwait) (s : LiveSession T) : LiveSession T :=
  { s with ticks := s.ticks ++ [call] }

def showFrame (r : Reply) (s : LiveSession T) : LiveSession T :=
  if s.closed then endTick s
  else if r.snapshot then awaits .syncImages (takeFrame lib true s)
  else endTick s

def chromeEvents (r : Reply) : List VtChromeEvent → LiveSession T → LiveSession T
  | [], s => showFrame lib r s
  | .clipboardWrite :: rest, s => awaits (.clipboard rest) s
  | _ :: rest, s => chromeEvents r rest s

def takeChromeEvents (r : Reply) (s : LiveSession T) : LiveSession T :=
  if s.closed then endTick s
  else chromeEvents lib r s.vt.chrome { s with vt := { s.vt with chrome := [] } }

def replyPty (r : Reply) (s : LiveSession T) : LiveSession T :=
  let pty := s.vt.ptyOut.flatten
  let s := { s with vt := { s.vt with ptyOut := [] } }
  if pty = [] then takeChromeEvents lib r s else awaits .ptyReply s

def getReady (s : LiveSession T) : LiveSession T :=
  let s := { s with readyTicks := s.readyTicks + 1 }
  if !s.shellReady && (s.atPrompt || decide (100 ≤ s.readyTicks)) then
    paint lib (flushBootCarry s.bootLineCarry).1 { s with bootLineCarry := [], shellReady := true }
  else s

def showOutput (out : Bytes) (s : LiveSession T) : LiveSession T :=
  if out = [] then s
  else
    let (cleaned, carry) := stripBootNoise s.bootLineCarry out
    paint lib cleaned { s with bootLineCarry := carry }

/-- The tick goes on when the call that it awaits has ended. -/
def resumeTick (r : Reply) : TickAwait → LiveSession T → LiveSession T
  | .sendInput pending, s =>
    if !r.ok then endTick s
    else
      let s := { s with sent := s.sent ++ pending }
      if s.closed then endTick s else awaits .tickN s
  | .tickN, s =>
    let s := { s with output := s.output ++ r.wrote, guestWrote := s.guestWrote ++ r.wrote }
    if !r.ok then endTick s
    else
      let s := { s with lastTick := some r.state }
      if s.closed then endTick s
      else awaits .status (if r.state = .exited then { s with loop := false } else s)
  | .status, s =>
    if s.closed then endTick s
    else awaits .takeOutput (if r.ok then { s with atPrompt := r.atPrompt } else s)
  | .takeOutput, s =>
    let out := if r.ok then s.output.take capacity else []
    let s := { s with output := if r.ok then s.output.drop capacity else s.output }
    if s.closed then endTick s else replyPty lib r (getReady lib (showOutput lib out s))
  | .ptyReply, s => takeChromeEvents lib r s
  | .clipboard rest, s => if s.closed then endTick s else chromeEvents lib r rest s
  | .syncImages, s => endTick s

def tickOnce (s : LiveSession T) : LiveSession T :=
  if s.closed || s.ticking then s
  else
    let pending := s.pendingInput
    let s := { s with ticking := true, pendingInput := [] }
    if pending = [] then awaits .tickN s else awaits (.sendInput pending) s

end Tick

section Handlers

def enqueueInput (data : Bytes) (s : LiveSession T) : LiveSession T :=
  if data = [] ∨ s.closed then s
  else { s with pendingInput := s.pendingInput ++ data, enqueued := s.enqueued ++ data }

def onEncoded (encoded : Option Bytes) (s : LiveSession T) : LiveSession T :=
  if s.closed then s
  else
    match encoded with
    | none => s
    | some bytes => enqueueInput bytes s

def onKey (encodeKey : Option Bytes) (s : LiveSession T) : LiveSession T := onEncoded encodeKey s

def onFocus (encodeFocus : Option Bytes) (s : LiveSession T) : LiveSession T :=
  onEncoded encodeFocus s

def onPaste (encodePaste : Option Bytes) (s : LiveSession T) : LiveSession T :=
  onEncoded encodePaste s

def onScroll (delta : ℤ) (snapshot : Bool) (s : LiveSession T) : LiveSession T :=
  if s.closed ∨ delta = 0 then s
  else takeFrame lib snapshot (changeTerminal (·.scrollViewport lib (.delta delta)) s)

def resize (cols rows : ℕ) (resized snapshot : Bool) (s : LiveSession T) : LiveSession T :=
  if s.closed ∨ cols < 1 ∨ rows < 1 ∨ !resized then s
  else
    takeFrame lib snapshot
      (changeTerminal (fun vt ↦ vt.enqueue (lib.resize cols rows vt.term)) s)

def onPointer (event : PointerEvent) (snapshot : Bool) (s : LiveSession T) : LiveSession T :=
  if s.closed then s
  else
    match lib.onPointer event s.vt.term with
    | none => s
    | some (ok, term) =>
      let s := changeTerminal (fun vt ↦ { vt with term }) s
      if ok then takeFrame lib snapshot s else s

def eraseScreen : String := "\x1b[2J\x1b[3J\x1b[H"

def prompt : String := "$ "

def beginNewTerminalSurface (snapshot : Bool) (s : LiveSession T) : LiveSession T :=
  if s.closed then s
  else
    let s := changeTerminal (·.writeText lib eraseScreen) s
    let s := changeTerminal (·.scrollViewport lib .bottom) s
    let s := if s.atPrompt then changeTerminal (·.writeText lib prompt) s else s
    let s := takeFrame lib snapshot s
    if snapshot then
      { s with frame := s.frame.copyWithMeta { cursorVisible := some true } }
    else s

/-- What `_enterAsk` gives the notebook to freeze. -/
def liveFrame (s : LiveSession T) : Option VtFrame := if s.started then some s.frame else none

def enterAsk (encodeFocus : Option Bytes) (snapshot : Bool) (s : LiveSession T) : LiveSession T :=
  let (froze, notebook) := s.notebook.enterAsk (liveFrame s)
  let s := { s with notebook }
  let s := if froze then beginNewTerminalSurface lib snapshot s else s
  onFocus encodeFocus s

def enterTerminal (encodeFocus : Option Bytes) (s : LiveSession T) : LiveSession T :=
  onFocus encodeFocus { s with notebook := s.notebook.enterTerminal }

def toggleMode (encodeFocus : Option Bytes) (snapshot : Bool) (s : LiveSession T) : LiveSession T :=
  if s.notebook.mode = .terminal then enterAsk lib encodeFocus snapshot s
  else enterTerminal encodeFocus s

end Handlers

section Dispose

def disposeAsync (s : LiveSession T) : LiveSession T :=
  { s with
    closed := true
    loop := false
    pendingInput := []
    started := false
    shellReady := false
    readyTicks := 0
    bootLineCarry := []
    atPrompt := false }

def dispose (s : LiveSession T) : LiveSession T := { s with closed := true, loop := false }

end Dispose

/-- What the event loop can run next: the timer, the tick that awaits at this place in `ticks`, or
a handler. -/
inductive LoopOp
  | timer
  | resume (i : ℕ) (r : Reply)
  | onKey (encodeKey : Option Bytes)
  | onFocus (encodeFocus : Option Bytes)
  | onPaste (encodePaste : Option Bytes)
  | onScroll (delta : ℤ) (snapshot : Bool)
  | resize (cols rows : ℕ) (resized snapshot : Bool)
  | onPointer (event : PointerEvent) (snapshot : Bool)
  | toggleMode (encodeFocus : Option Bytes) (snapshot : Bool)
  | submitUserMessage (text : DartString)
  | setPaletteOpen (isOpen : Bool)
  | disposeAsync
  | dispose

def runOp : LoopOp → LiveSession T → LiveSession T
  | .timer, s => if s.loop then tickOnce s else s
  | .resume i r, s =>
    match s.ticks[i]? with
    | none => s
    | some call => resumeTick lib r call { s with ticks := s.ticks.eraseIdx i }
  | .onKey encoded, s => onKey encoded s
  | .onFocus encoded, s => onFocus encoded s
  | .onPaste encoded, s => onPaste encoded s
  | .onScroll delta snapshot, s => onScroll lib delta snapshot s
  | .resize cols rows resized snapshot, s => resize lib cols rows resized snapshot s
  | .onPointer event snapshot, s => onPointer lib event snapshot s
  | .toggleMode encoded snapshot, s => toggleMode lib encoded snapshot s
  | .submitUserMessage text, s => { s with notebook := (s.notebook.submitUserMessage text).2 }
  | .setPaletteOpen isOpen, s => { s with notebook := s.notebook.setPaletteOpen isOpen }
  | .disposeAsync, s => disposeAsync s
  | .dispose, s => dispose s

def loopStep (op : LoopOp) (s : LiveSession T) : Unit × LiveSession T := ((), runOp lib op s)

def stillTerm : GhosttyTerm Unit where
  vtWrite _ _ := ((), {})
  scrollViewport _ _ := ()
  resize _ _ _ := ((), {})
  onPointer _ _ := none
  view _ := { cols := 1, rows := 1, cells := [blankCell], background := ⟨0, 0, 0⟩,
              foreground := ⟨255, 255, 255⟩ }

def opened (term : T) : LiveSession T where
  vt := { term }
  frame := lib.view term

end MachineNotebook.Session.Loop
