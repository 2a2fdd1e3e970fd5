import MachineNotebook.Vt.NativeObjects
import MachineNotebook.Vt.Newlines

namespace MachineNotebook.Vt.TerminalMethods

open MachineNotebook.Lib MachineNotebook.Lib.Utf8 MachineNotebook.Lib.HeapLogic
open MachineNotebook.Lib.HeapLogic.Prog NativeBlocks NativeObjects
open Dart.Bindings (DartString)
open Dart.Text (ofChars utf8Decode)
open Newlines (normalizeNewlines)

/-- An option of a terminal, as it is set. An effect is set to a function, or to none. -/
inductive Setting
  | userdata
  | effect (e : Effect) (installed : Bool)
  | background (c : Rgb)
  | foreground (c : Rgb)
  | cursor (c : Rgb)
  | palette
  | kittyImageStorageLimit (bytes : Int64)

/-- What the emulator calls back with. A pointer may be null; a string that is null is empty. -/
inductive Callback
  | writePty (data : Option Bytes)
  | bell
  | titleChanged
  | pwdChanged
  | clipboardWrite (write : Option (Int32 × List (Bytes × Bytes)))
  | progressReport (report : Option (Int32 × Int8))
  | desktopNotification (notification : Option (Bytes × Bytes))

def Callback.effect : Callback → Effect
  | writePty _ => .writePty
  | bell => .bell
  | titleChanged => .titleChanged
  | pwdChanged => .pwdChanged
  | clipboardWrite _ => .clipboardWrite
  | progressReport _ => .progressReport
  | desktopNotification _ => .desktopNotification

inductive VtProgressState
  | remove
  | set
  | error
  | indeterminate
  | pause

inductive VtChromeEvent
  | bell
  | titleChanged
  | pwdChanged
  | clipboardWrite (location : Int32) (parts : List (DartString × Bytes))
  | progress (state : VtProgressState) (progress : Int8)
  | notification (title body : DartString)

inductive ScrollViewport
  | top
  | bottom
  | delta (rows : ℤ)

structure TerminalLib (ω : Type) where
  terminalNew : ℤ → ℤ → ω → Int32
  renderStateNew : ω → Int32
  rowIteratorNew : ω → Int32
  rowCellsNew : ω → Int32
  sysSet : ω → Int32
  terminalSet : Setting → ω → Int32 × ω
  /-- What is written to a terminal has effects, in this order. -/
  vtWrite : Bytes → ω → List Callback × ω
  resize : ℤ → ℤ → ℤ → ℤ → ω → Int32 × ω
  /-- A string that the emulator lends. -/
  terminalGet : Int32 → ω → Int32 × Bytes
  scrollViewport : ScrollViewport → ω → ω

structure VtTerminal where
  terminal : Ptr := none
  renderState : Ptr := none
  rowIter : Ptr := none
  cells : Ptr := none
  calls : Effect → Ptr := fun _ ↦ none
  ptyOut : List Bytes := []
  chrome : List VtChromeEvent := []
  cols : ℤ
  rows : ℤ
  closed : Bool := false

/-- The isolate: its terminal, and the decoder that is installed once. -/
structure Isolate where
  term : VtTerminal
  decoder : Ptr := none

variable {ω α : Type}

abbrev Method (ω : Type) := Prog Block (ω × Isolate) DartString

section Source

variable (lib : TerminalLib ω)

def modifyTerm (f : VtTerminal → VtTerminal) : Method ω Unit := do
  let s ← readVar
  assign { s with term := f s.term }

def ensureOpen : Method ω VtTerminal := do
  let s ← readVar
  if s.term.closed then lift (throwText "VtTerminal is closed") else return s.term

def check (rc : Int32) (failed : String) : Native ω Unit :=
  if rc ≠ kGhosttySuccess then throwRc failed rc else pure ()

def terminalSet (terminal : ℕ) (setting : Setting) : Native ω Int32 := do
  useObject Block.isTerminal terminal
  world fun w ↦ lib.terminalSet setting w

/-- `terminalSet` of an effect: the terminal keeps the pointer. -/
def setEffect (terminal : ℕ) (e : Effect) (value : Ptr) : Native ω Int32 := do
  let rc ← terminalSet lib terminal (.effect e value.isSome)
  if rc = kGhosttySuccess then do
    let block ← load terminal
    let effects ← expect block.asTerminal
    modify terminal fun _ ↦ .terminal (Function.update effects e value)
    return rc
  else return rc

def setColor (terminal : ℕ) (setting : Rgb → Setting) (ptr : ℕ) (failed : String) :
    Native ω Unit := do
  let block ← load ptr
  let c ← expect block.asRgb
  let rc ← terminalSet lib terminal (setting c)
  check rc failed

def applyTheme (terminal : ℕ) (fg bg cursor : Rgb) (failed : String → String) :
    Native ω Unit := do
  let bgPtr ← mallocBytes (.rgb none)
  let fgPtr ← mallocBytes (.rgb none)
  let curPtr ← mallocBytes (.rgb none)
  let palette ← mallocBytes .record
  ensure (do
      modify bgPtr fun _ ↦ .rgb (some bg)
      modify fgPtr fun _ ↦ .rgb (some fg)
      modify curPtr fun _ ↦ .rgb (some cursor)
      setColor lib terminal .background bgPtr (failed "COLOR_BACKGROUND")
      setColor lib terminal .foreground fgPtr (failed "COLOR_FOREGROUND")
      setColor lib terminal .cursor curPtr (failed "COLOR_CURSOR")
      useObject Block.isRecord palette
      let rc ← terminalSet lib terminal .palette
      check rc (failed "COLOR_PALETTE"))
    (freeAll [bgPtr, fgPtr, curPtr, palette])

def setFailed (_ : String) : String := "libghostty-vt terminal_set failed: "

def setDefaultTheme (fg bg cursor : Rgb) : Method ω Unit := do
  let term ← ensureOpen
  let terminal ← lift (expect term.terminal)
  lift (applyTheme lib terminal fg bg cursor setFailed)

def enableKittyGraphics (limitBytes : Int64) : Method ω Unit := do
  let term ← ensureOpen
  if limitBytes ≤ 0 then lift (throwText "must be > 0")
  else do
    let terminal ← lift (expect term.terminal)
    lift (do
      let lim ← mallocBytes (.size none)
      ensure (do
          writeSize lim limitBytes
          let limit ← readSize lim
          let rc ← terminalSet lib terminal (.kittyImageStorageLimit limit)
          check rc (setFailed "KITTY_IMAGE_STORAGE_LIMIT"))
        (free lim))

/-- The order in which effects are set and cleared. -/
def effects : List Effect :=
  [.writePty, .bell, .titleChanged, .pwdChanged, .clipboardWrite, .progressReport,
    .desktopNotification]

def clearEffectOpts : Method ω Unit := do
  let s ← readVar
  match s.term.terminal with
  | none => pure ()
  | some terminal => do
    forEach (fun e ↦ do
      let _ ← lift (setEffect lib terminal e none)
      pure ()) effects
    let _ ← lift (terminalSet lib terminal .userdata)
    pure ()

def closeCallable (e : Effect) : Method ω Unit := do
  let s ← readVar
  match s.term.calls e with
  | none => pure ()
  | some a => do
    lift (freeObject (Block.isCallable e) a)
    modifyTerm fun term ↦ { term with calls := Function.update term.calls e none }

def closeCallables : Method ω Unit := forEach closeCallable effects

def makeCallable (e : Effect) : Method ω Unit := do
  let a ← lift (mallocBytes (.callable e))
  modifyTerm fun term ↦ { term with calls := Function.update term.calls e (some a) }

def installEffect (terminal : ℕ) (e : Effect) : Method ω Unit := do
  let s ← readVar
  let rc ← lift (setEffect lib terminal e (s.term.calls e))
  lift (check rc (setFailed "effect"))

def installEffects : Method ω Unit := do
  let term ← ensureOpen
  let terminal ← lift (expect term.terminal)
  clearEffectOpts lib
  closeCallables
  forEach makeCallable [.writePty, .bell, .titleChanged, .pwdChanged, .progressReport,
    .desktopNotification, .clipboardWrite]
  let rc ← lift (terminalSet lib terminal .userdata)
  lift (check rc (setFailed "USERDATA"))
  forEach (installEffect lib terminal) effects

inductive Field
  | cells
  | rowIter
  | renderState
  | terminal

namespace Field

def get : Field → VtTerminal → Ptr
  | cells, term => term.cells
  | rowIter, term => term.rowIter
  | renderState, term => term.renderState
  | terminal, term => term.terminal

def clear : Field → VtTerminal → VtTerminal
  | cells, term => { term with cells := none }
  | rowIter, term => { term with rowIter := none }
  | renderState, term => { term with renderState := none }
  | terminal, term => { term with terminal := none }

def is : Field → Block → Bool
  | cells => Block.isObject .rowCells
  | rowIter => Block.isObject .rowIterator
  | renderState => Block.isObject .renderState
  | terminal => Block.isTerminal

end Field

def freeField (field : Field) : Method ω Unit := do
  let s ← readVar
  match field.get s.term with
  | none => pure ()
  | some a => do
    lift (freeObject field.is a)
    modifyTerm field.clear

def close : Method ω Unit := do
  let s ← readVar
  if s.term.closed then pure ()
  else do
    modifyTerm fun term ↦ { term with closed := true }
    clearEffectOpts lib
    closeCallables
    freeField .cells
    freeField .rowIter
    freeField .renderState
    freeField .terminal
    modifyTerm fun term ↦ { term with ptyOut := [], chrome := [] }

/-- The decoder is made once, and closed again where the emulator does not take it. -/
def installPngDecoderOnce : Method ω Unit := do
  let s ← readVar
  match s.decoder with
  | some _ => pure ()
  | none => do
    let a ← lift (mallocBytes .pngDecoder)
    let rc ← lift (world fun w ↦ (lib.sysSet w, w))
    if rc ≠ kGhosttySuccess then do
      lift (free a)
      lift (throwRc "ghostty_sys_set(DECODE_PNG) failed: " rc)
    else assign { s with decoder := some a }

def ghosttyString (s : Bytes) : DartString := ofChars (utf8Decode s)

def onWritePty (data : Option Bytes) (term : VtTerminal) : VtTerminal :=
  match data with
  | none | some [] => term
  | some data => { term with ptyOut := term.ptyOut ++ [data] }

def progressState (state : Int32) : VtProgressState :=
  if state = 0 then .remove
  else if state = 1 then .set
  else if state = 2 then .error
  else if state = 3 then .indeterminate
  else if state = 4 then .pause
  else .remove

def chromeEvent : Callback → Option VtChromeEvent
  | .writePty _ => none
  | .bell => some .bell
  | .titleChanged => some .titleChanged
  | .pwdChanged => some .pwdChanged
  | .progressReport report => report.map fun r ↦ .progress (progressState r.1) r.2
  | .desktopNotification notification =>
    notification.map fun n ↦ .notification (ghosttyString n.1) (ghosttyString n.2)
  | .clipboardWrite write =>
    write.map fun w ↦ .clipboardWrite w.1 (w.2.map fun c ↦ (ghosttyString c.1, c.2))

/-- A callback only queues. -/
def enqueue (c : Callback) (term : VtTerminal) : VtTerminal :=
  match c with
  | .writePty data => onWritePty data term
  | c => { term with chrome := term.chrome ++ (chromeEvent c).toList }

/-- The emulator calls the function that it was given, if there is one. -/
def fire (terminal : ℕ) (c : Callback) : Method ω Unit := do
  let block ← lift (load terminal)
  let effects ← lift (expect block.asTerminal)
  match effects c.effect with
  | none => pure ()
  | some a => do
    lift (useObject (Block.isCallable c.effect) a)
    modifyTerm (enqueue c)

def write (data : Bytes) : Method ω Unit := do
  let term ← ensureOpen
  if data = [] then pure ()
  else do
    let terminal ← lift (expect term.terminal)
    let buf ← lift (mallocBytes (.bytes data))
    ensure (do
        let block ← lift (load buf)
        let bytes ← lift (expect block.asBytes)
        lift (useObject Block.isTerminal terminal)
        let callbacks ← lift (world fun w ↦ lib.vtWrite bytes w)
        forEach (fire terminal) callbacks)
      (lift (free buf))

def writeGuest (data : Bytes) : Method ω Unit := write lib (normalizeNewlines data)

def resize (newCols newRows cellW cellH : ℤ) : Method ω Unit := do
  let term ← ensureOpen
  if newCols < 1 ∨ newRows < 1 then pure ()
  else do
    let terminal ← lift (expect term.terminal)
    lift (useObject Block.isTerminal terminal)
    let rc ← lift (world fun w ↦ lib.resize newCols newRows cellW cellH w)
    if rc ≠ kGhosttySuccess then lift (throwRc "ghostty_terminal_resize failed: " rc)
    else modifyTerm fun term ↦ { term with cols := newCols, rows := newRows }

def getString (dataId : Int32) : Method ω (Option DartString) := do
  let term ← ensureOpen
  let terminal ← lift (expect term.terminal)
  lift (do
    let out ← mallocBytes .record
    ensure (do
        useObject Block.isTerminal terminal
        useObject Block.isRecord out
        let answer ← world fun w ↦ (lib.terminalGet dataId w, w)
        if answer.1 ≠ kGhosttySuccess then return none
        else return some (ghosttyString answer.2))
      (free out))

def title : Method ω DartString := do
  let text ← getString lib 12
  return text.getD []

def pwd : Method ω DartString := do
  let text ← getString lib 13
  return text.getD []

def scrollViewport (deltaRows : Option ℤ) (top bottom : Bool) : Method ω Unit := do
  let term ← ensureOpen
  let terminal ← lift (expect term.terminal)
  lift (do
    let slot ← mallocBytes .record
    ensure (do
        useObject Block.isTerminal terminal
        useObject Block.isRecord slot
        world fun w ↦ ((), lib.scrollViewport
          (if top then .top else if bottom then .bottom else .delta (deltaRows.getD 0)) w))
      (free slot))

/-- The colors of `VtTheme`. -/
def kDefaultBg : Rgb := ⟨0x14, 0x14, 0x14⟩
def kDefaultFg : Rgb := ⟨0xE1, 0xE1, 0xE1⟩
def kDefaultCursor : Rgb := ⟨0xE1, 0xE1, 0xE1⟩

def terminalObjects {σ : Type} (get : σ → ω) (cols rows : ℤ) : List (Wanted σ) :=
  [⟨.terminal fun _ ↦ none, Block.isTerminal, fun s ↦ lib.terminalNew cols rows (get s),
      "ghostty_terminal_new failed: ", rfl⟩,
    ⟨.object .renderState, Block.isObject .renderState, fun s ↦ lib.renderStateNew (get s),
      "ghostty_render_state_new failed: ", rfl⟩,
    ⟨.object .rowIterator, Block.isObject .rowIterator, fun s ↦ lib.rowIteratorNew (get s),
      "ghostty_render_state_row_iterator_new failed: ", rfl⟩,
    ⟨.object .rowCells, Block.isObject .rowCells, fun s ↦ lib.rowCellsNew (get s),
      "ghostty_render_state_row_cells_new failed: ", rfl⟩]

def VtTerminal.setUp : Method ω Unit := do
  installPngDecoderOnce lib
  enableKittyGraphics lib (64 * 1024 * 1024)
  setDefaultTheme lib kDefaultFg kDefaultBg kDefaultCursor
  installEffects lib

/-- A terminal that cannot be set up is closed again. -/
def VtTerminal.open (cols rows : ℤ) : Method ω Unit :=
  if cols < 1 ∨ rows < 1 then throwText "cols and rows must be >= 1"
  else
    openNative (terminalObjects lib Prod.fst cols rows) fun made ↦
      match made with
      | [terminal, renderState, rowIter, cells] => do
        modifyTerm fun _ ↦
          { terminal := some terminal, renderState := some renderState, rowIter := some rowIter,
            cells := some cells, cols := cols, rows := rows }
        rescue (VtTerminal.setUp lib) (close lib)
      | _ => expect none

structure GhosttyVtSession where
  terminal : ℕ
  renderState : ℕ
  rowIter : ℕ
  cells : ℕ
  cols : ℤ
  rows : ℤ

def themeFailed (what : String) : String := "ghostty_terminal_set(" ++ what ++ ") failed: "

/-- A session is not closed where its colors cannot be set. -/
def GhosttyVtSession.open (cols rows : ℤ) : Native ω GhosttyVtSession :=
  openNative (terminalObjects lib id cols rows) fun made ↦
    match made with
    | [terminal, renderState, rowIter, cells] => do
      applyTheme lib terminal kDefaultFg kDefaultBg kDefaultCursor themeFailed
      return ⟨terminal, renderState, rowIter, cells, cols, rows⟩
    | _ => expect none

def takePtyOutput : Method ω (List Bytes) := do
  let s ← readVar
  modifyTerm fun term ↦ { term with ptyOut := [] }
  return s.term.ptyOut

def takeChromeEvents : Method ω (List VtChromeEvent) := do
  let s ← readVar
  modifyTerm fun term ↦ { term with chrome := [] }
  return s.term.chrome

end Source

end MachineNotebook.Vt.TerminalMethods
