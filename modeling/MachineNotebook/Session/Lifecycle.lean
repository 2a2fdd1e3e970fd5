import MachineNotebook.Session.Loop
import MachineNotebook.Lib.Run

namespace MachineNotebook.Session.Lifecycle

open MachineNotebook.Lib.Utf8 Loop

inductive Field
  | lastTick
  | atPrompt
  | shellReady
  | bootLineCarry
  | frame
  | imageLayers
  | lastError
  deriving DecidableEq

/-- What a tick does between two awaits: a call into a native host, by its handle, or a write. -/
inductive Effect
  | native (handle : ℕ)
  | write (field : Field)
  deriving DecidableEq

/-- How the call that a tick awaits ended, and what decides its way to the next await: the input
that waits, the exit of the guest, the output and what the filter leaves of it, whether an error
shown belongs to the call that now succeeds, whether the shell gets ready and held text is then
dropped or painted, the answers for the guest, the chrome events, and which of the terminal's own
calls succeed. -/
structure TickReply where
  returns : Bool := true
  pending : Bytes := []
  exited : Bool := false
  output : Bytes := []
  cleaned : Bytes := []
  clearsError : Bool := false
  ready : Bool := false
  carry : Bytes := []
  flushed : Bytes := []
  pty : Bytes := []
  chrome : List VtChromeEvent := []
  unsupported : Bool := false
  writes : Bool := true
  snapshot : Bool := true
  layers : Bool := true

section Segment

variable (vt vm : ℕ) (closed : Bool) (r : TickReply)

abbrev Segment := List Effect × Option TickAwait

def thenGo (effects : List Effect) (rest : Segment) : Segment := (effects ++ rest.1, rest.2)

def reportError : List Effect := if closed then [] else [.write .lastError]

def clearError : List Effect := if r.clearsError then [.write .lastError] else []

def showFrame (chromeDirty : Bool) : Segment :=
  let chrome := if chromeDirty then [.native vt, .native vt] else []
  if !r.snapshot then (chrome ++ [.native vt], none)
  else
    (chrome ++ [.native vt, .write .frame, .native vt,
      .write (if r.layers then .imageLayers else .lastError)], some .syncImages)

/-- The loop over the chrome events, up to a clipboard write. -/
def chromeEvents (chromeDirty : Bool) : List VtChromeEvent → Segment
  | [] => showFrame vt r chromeDirty
  | .clipboardWrite :: rest =>
    (if r.unsupported then [.write .lastError] else [], some (.clipboard rest))
  | _ :: rest => chromeEvents true rest

def takeChromeEvents : Segment :=
  if closed then ([], none) else chromeEvents vt r false r.chrome

def flushBootCarry : List Effect :=
  if r.carry = [] then []
  else .write .bootLineCarry :: if r.flushed = [] then [] else [.native vt]

def getReady : List Effect :=
  if r.ready then flushBootCarry vt r ++ [.write .shellReady] else []

/-- The output is filtered and painted. An error of the terminal is reported as one of the call. -/
def showOutput : List Effect :=
  if r.output = [] then clearError r
  else if r.cleaned = [] then .write .bootLineCarry :: clearError r
  else
    .write .bootLineCarry :: .native vt ::
      (if r.writes then clearError r else [.write .lastError])

def replyPty : Segment :=
  if r.pty = [] then takeChromeEvents vt closed r else ([.native vm], some .ptyReply)

/-- The tick goes on when the call that it awaits has ended. -/
def resumeSegment : TickAwait → Segment
  | .sendInput _ =>
    if !r.returns || closed then ([], none) else ([.native vm], some .tickN)
  | .tickN =>
    if !r.returns then (reportError closed, none)
    else if closed then ([.write .lastTick], none)
    else ([.write .lastTick, .native vm], some .status)
  | .status =>
    if closed then ([], none)
    else
      thenGo (if r.returns then .write .atPrompt :: clearError r else [.write .lastError])
        ([.native vm], some .takeOutput)
  | .takeOutput =>
    if closed then ([], none)
    else
      thenGo (if r.returns then showOutput vt r else [.write .lastError])
        (thenGo (getReady vt r) (replyPty vt vm closed r))
  | .ptyReply =>
    if closed then ([], none)
    else
      thenGo (if r.returns then clearError r else [.write .lastError])
        (takeChromeEvents vt closed r)
  | .clipboard rest =>
    if closed then ([], none)
    else
      thenGo (if r.returns then [] else [.write .lastError]) (chromeEvents vt r true rest)
  | .syncImages =>
    (if r.returns then clearError r else [.write .lastError], none)

end Segment

structure Tick where
  id : ℕ
  generation : ℕ
  vt : ℕ
  vm : ℕ
  await : TickAwait

/-- What a call of `start` in progress awaits: in its `disposeAsync` the tick that was in flight,
that call itself, the images of the empty terminal, the VM, and the images after the boot. -/
inductive Stage
  | tickIdle (waitsFor : Option ℕ)
  | disposed
  | firstImages
  | boot
  | secondImages
  deriving DecidableEq

/-- A handle that was closed, and those that the tick in flight went on using. -/
structure Closing where
  handle : ℕ
  inUse : List ℕ
  deriving DecidableEq

structure Act where
  begun : ℕ
  done : ℕ
  effect : Effect
  deriving DecidableEq

/-- A `ProductSession` as the owner of its native hosts, whose handles are numbered as they are
opened. `tick` is the tick in flight (`_ticking`), `starts` are the calls of `start` in progress, and
`disposes` what the calls of `disposeAsync` and the release deferred by `dispose` wait for. A new
generation begins where `start` reopens the session, `ended` is whether its owner has disposed it,
and the last two fields record what was closed and what ticks did. -/
structure HostSession where
  vt : Option ℕ := none
  encoder : Option ℕ := none
  selection : Option ℕ := none
  vm : Option ℕ := none
  loop : Bool := false
  timers : ℕ := 0
  tick : Option Tick := none
  closed : Bool := false
  nativeReleased : Bool := false
  starts : List Stage := []
  disposes : List (Option ℕ) := []
  opened : ℕ := 0
  ticksBegun : ℕ := 0
  generation : ℕ := 0
  ended : Bool := false
  closings : List Closing := []
  acts : List Act := []

section Tick

def closedHandles (s : HostSession) : List ℕ := s.closings.map (·.handle)

/-- The native hosts that the tick in flight uses. -/
def inUse (s : HostSession) : List ℕ :=
  match s.tick with
  | none => []
  | some t => [t.vt, t.vm]

def cancelLoop (s : HostSession) : HostSession :=
  if s.loop then { s with loop := false, timers := s.timers - 1 } else s

/-- A call on a host that was closed throws before it reaches the library. -/
def reaches (s : HostSession) : Effect → Bool
  | .native h => !(closedHandles s).contains h
  | .write _ => true

def runSegment (t : Tick) (segment : Segment) (s : HostSession) : HostSession :=
  { s with
    acts := s.acts ++ (segment.1.filter (reaches s)).map fun effect ↦
      { begun := t.generation, done := s.generation, effect }
    tick := segment.2.map fun await ↦ { t with await } }

def seesExit (t : Tick) (r : TickReply) (s : HostSession) : Bool :=
  decide (t.await = .tickN) && r.returns && r.exited && !s.closed

def resumeTick (r : TickReply) (s : HostSession) : HostSession :=
  match s.tick with
  | none => s
  | some t =>
    runSegment t (resumeSegment t.vt t.vm s.closed r t.await)
      (if seesExit t r s then cancelLoop s else s)

def tickOnce (r : TickReply) (s : HostSession) : HostSession :=
  if s.closed || s.tick.isSome then s
  else
    match s.vt, s.vm with
    | some vt, some vm =>
      let await := if r.pending = [] then .tickN else .sendInput r.pending
      let t : Tick := { id := s.ticksBegun, generation := s.generation, vt, vm, await }
      runSegment t ([.native vm], some await) { s with ticksBegun := s.ticksBegun + 1 }
    | _, _ => s

end Tick

section Dispose

def held (s : HostSession) : List ℕ := [s.selection, s.encoder, s.vt, s.vm].reduceOption

def releaseNative (s : HostSession) : HostSession :=
  if s.nativeReleased then s
  else
    { s with
      nativeReleased := true
      vm := none
      encoder := none
      selection := none
      vt := none
      closings := s.closings ++ (held s).map fun handle ↦ { handle, inUse := inUse s } }

/-- What `disposeAsync` and `dispose` do at once. -/
def shut (s : HostSession) : HostSession := { cancelLoop s with closed := true }

/-- The tick that `_waitForTickIdle` waits for. -/
def tickIdle (s : HostSession) : Option ℕ := s.tick.map (·.id)

def endSession (s : HostSession) : HostSession := { shut s with ended := true }

def disposeAsync (s : HostSession) : HostSession :=
  { endSession s with disposes := s.disposes ++ [tickIdle s] }

def dispose (s : HostSession) : HostSession :=
  if s.tick.isSome then { endSession s with disposes := s.disposes ++ [tickIdle s] }
  else releaseNative (endSession s)

/-- Whether a wait is over: there was no tick, the tick has ended, or its 500 ms have passed. -/
def waited (timedOut : Bool) (waitsFor : Option ℕ) (s : HostSession) : Bool :=
  timedOut || waitsFor.isNone || decide (waitsFor ≠ tickIdle s)

end Dispose

section Start

/-- How the call that `start` awaits ended and which of those it makes then succeed, in their order,
with the input that waits for the first tick. `timedOut` is whether a wait gave up. -/
structure StartReply where
  timedOut : Bool := false
  returns : Bool := true
  notifies : Bool := true
  terminal : Bool := true
  resizes : Bool := true
  encoder : Bool := true
  selection : Bool := true
  snapshot : Bool := true
  pending : Bytes := []

def awaits (stage : Stage) (s : HostSession) : HostSession :=
  { s with starts := s.starts ++ [stage] }

def start (s : HostSession) : HostSession :=
  if s.closed then s else awaits (.tickIdle (tickIdle s)) (shut s)

def reopen (s : HostSession) : HostSession :=
  { s with closed := false, nativeReleased := false, generation := s.generation + 1 }

def openHosts (r : StartReply) (s : HostSession) : HostSession :=
  if !r.notifies || !r.terminal then s
  else
    let vt := s.opened
    let s := { s with opened := s.opened + 1 }
    if !r.resizes || !r.encoder then s
    else
      let s := { s with vt := some vt, encoder := some s.opened, opened := s.opened + 1 }
      if !r.selection then s
      else
        let s := { s with selection := some s.opened, opened := s.opened + 1 }
        if !r.snapshot then s else awaits .firstImages s

def goesOn (r : StartReply) : Stage → HostSession → Bool
  | .tickIdle waitsFor, s => waited r.timedOut waitsFor s
  | _, _ => true

/-- `start` goes on. Where a call throws it reports the error and ends. -/
def resumeStart (r : StartReply) : Stage → HostSession → HostSession
  | .tickIdle _, s => awaits .disposed (releaseNative s)
  | .disposed, s => openHosts r (reopen s)
  | .firstImages, s => if r.notifies then awaits .boot s else s
  | .boot, s =>
    if !r.returns then s
    else
      let s := { s with vm := some s.opened, opened := s.opened + 1 }
      if r.snapshot then awaits .secondImages s else s
  | .secondImages, s =>
    if !r.notifies then s
    else tickOnce { pending := r.pending } { s with loop := true, timers := s.timers + 1 }

end Start

/-- What the event loop can run next: a call of the session's owner, the call of `start` at this
place in `starts`, a timer, the tick in flight, or the wait at this place in `disposes`. -/
inductive LifeOp
  | start
  | resumeStart (i : ℕ) (r : StartReply)
  | timer (r : TickReply)
  | resumeTick (r : TickReply)
  | disposeAsync
  | dispose
  | resumeDispose (i : ℕ) (timedOut : Bool)

def runOp : LifeOp → HostSession → HostSession
  | .start, s => start s
  | .resumeStart i r, s =>
    match s.starts[i]? with
    | none => s
    | some stage =>
      if goesOn r stage s then resumeStart r stage { s with starts := s.starts.eraseIdx i } else s
  | .timer r, s => if s.timers = 0 then s else tickOnce r s
  | .resumeTick r, s => resumeTick r s
  | .disposeAsync, s => disposeAsync s
  | .dispose, s => dispose s
  | .resumeDispose i timedOut, s =>
    match s.disposes[i]? with
    | none => s
    | some waitsFor =>
      if waited timedOut waitsFor s then
        releaseNative { s with disposes := s.disposes.eraseIdx i }
      else s

def lifeStep (op : LifeOp) (s : HostSession) : Unit × HostSession := ((), runOp op s)

end MachineNotebook.Session.Lifecycle
