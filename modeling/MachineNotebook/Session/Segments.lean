import MachineNotebook.Session.Loop

namespace MachineNotebook.Session.Segments

open MachineNotebook.Lib MachineNotebook.Lib.Utf8 Loop Notebook.Controller

variable {T : Type} {lib : GhosttyTerm T} {r : Reply} {s s₁ s' : LiveSession T}

section Tick

/-- The rest of a tick once its output is shown: it takes what the terminal has queued and ends, or
awaits a call that is not its first, having taken a frame where that is the last one. -/
inductive Tail (lib : GhosttyTerm T) (s : LiveSession T) : LiveSession T → Prop
  | ends {vt : VtTerminal T} : vt.term = s.vt.term → Tail lib s (endTick { s with vt })
  | replies {vt : VtTerminal T} : vt.term = s.vt.term → Tail lib s (awaits .ptyReply { s with vt })
  | copies {vt : VtTerminal T} {rest : List VtChromeEvent} : vt.term = s.vt.term →
      Tail lib s (awaits (.clipboard rest) { s with vt })
  | shows {vt : VtTerminal T} : vt.term = s.vt.term →
      Tail lib s (awaits .syncImages (takeFrame lib true { s with vt }))

theorem tail_showFrame {vt : VtTerminal T} (hvt : vt.term = s.vt.term) :
    Tail lib s (showFrame lib r { s with vt }) := by
  unfold showFrame
  split
  · exact .ends hvt
  · split
    · exact .shows hvt
    · exact .ends hvt

theorem tail_chromeEvents {vt : VtTerminal T} (hvt : vt.term = s.vt.term)
    (events : List VtChromeEvent) : Tail lib s (chromeEvents lib r events { s with vt }) := by
  induction events with
  | nil => exact tail_showFrame hvt
  | cons event rest ih =>
    cases event with
    | clipboardWrite => exact .copies hvt
    | _ => exact ih

theorem tail_takeChromeEvents {vt : VtTerminal T} (hvt : vt.term = s.vt.term) :
    Tail lib s (takeChromeEvents lib r { s with vt }) := by
  unfold takeChromeEvents
  split
  · exact .ends hvt
  · refine tail_chromeEvents ?_ vt.chrome
    exact hvt

theorem tail_replyPty (s : LiveSession T) : Tail lib s (replyPty lib r s) := by
  unfold replyPty
  dsimp only
  split
  · exact tail_takeChromeEvents rfl
  · exact .replies rfl

theorem tail_ptyReply (s : LiveSession T) : Tail lib s (resumeTick lib r .ptyReply s) :=
  tail_takeChromeEvents rfl

theorem tail_clipboard (rest : List VtChromeEvent) (s : LiveSession T) :
    Tail lib s (resumeTick lib r (.clipboard rest) s) := by
  simp only [resumeTick]
  split
  · exact .ends rfl
  · exact tail_chromeEvents rfl rest

structure TickKept (s s' : LiveSession T) : Prop where
  enqueued : s'.enqueued = s.enqueued
  sent : s'.sent = s.sent
  pendingInput : s'.pendingInput = s.pendingInput
  closed : s'.closed = s.closed
  notebook : s'.notebook = s.notebook
  ticks : s'.ticks = s.ticks
  ticking : s'.ticking = s.ticking

inductive Continues (s : LiveSession T) : LiveSession T → Prop
  | ends {s₁ : LiveSession T} : TickKept s s₁ → Continues s (endTick s₁)
  | goesOn {s₁ : LiveSession T} {call : TickAwait} : TickKept s s₁ →
      (∀ pending, call ≠ .sendInput pending) → Continues s (awaits call s₁)

theorem TickKept.refl (s : LiveSession T) : TickKept s s := ⟨rfl, rfl, rfl, rfl, rfl, rfl, rfl⟩

theorem TickKept.trans (h : TickKept s s₁) (h' : TickKept s₁ s') : TickKept s s' :=
  ⟨h'.enqueued.trans h.enqueued, h'.sent.trans h.sent, h'.pendingInput.trans h.pendingInput,
    h'.closed.trans h.closed, h'.notebook.trans h.notebook, h'.ticks.trans h.ticks,
    h'.ticking.trans h.ticking⟩

theorem Continues.of_kept (h : TickKept s s₁) (h' : Continues s₁ s') : Continues s s' := by
  cases h' with
  | ends hk => exact .ends (h.trans hk)
  | goesOn hk hcall => exact .goesOn (h.trans hk) hcall

theorem kept_takeFrame (snapshot : Bool) (s : LiveSession T) :
    TickKept s (takeFrame lib snapshot s) := by
  cases snapshot with
  | false => exact .refl s
  | true => exact ⟨rfl, rfl, rfl, rfl, rfl, rfl, rfl⟩

theorem kept_paint (data : Bytes) (s : LiveSession T) : TickKept s (paint lib data s) := by
  unfold paint
  split
  · exact .refl s
  · exact ⟨rfl, rfl, rfl, rfl, rfl, rfl, rfl⟩

theorem kept_showOutput (out : Bytes) (s : LiveSession T) :
    TickKept s (showOutput lib out s) := by
  unfold showOutput
  split
  · exact .refl s
  · have hkept : TickKept s
        { s with bootLineCarry := (BootFilter.stripBootNoise s.bootLineCarry out).2 } :=
      ⟨rfl, rfl, rfl, rfl, rfl, rfl, rfl⟩
    exact hkept.trans (kept_paint _ _)

theorem kept_getReady (s : LiveSession T) : TickKept s (getReady lib s) := by
  unfold getReady
  dsimp only
  split
  · have hkept : TickKept s
        { s with readyTicks := s.readyTicks + 1, bootLineCarry := [], shellReady := true } :=
      ⟨rfl, rfl, rfl, rfl, rfl, rfl, rfl⟩
    exact hkept.trans (kept_paint _ _)
  · exact ⟨rfl, rfl, rfl, rfl, rfl, rfl, rfl⟩

theorem continues_tail (h : Tail lib s s') : Continues s s' := by
  have hkept (vt : VtTerminal T) : TickKept s { s with vt } :=
    ⟨rfl, rfl, rfl, rfl, rfl, rfl, rfl⟩
  cases h with
  | ends _ => exact .ends (hkept _)
  | replies _ => exact .goesOn (hkept _) nofun
  | copies _ => exact .goesOn (hkept _) nofun
  | shows _ => exact .goesOn ((hkept _).trans (kept_takeFrame true _)) nofun

theorem continues_resumeTick {call : TickAwait} (hcall : ∀ pending, call ≠ .sendInput pending)
    (s : LiveSession T) : Continues s (resumeTick lib r call s) := by
  cases call with
  | sendInput pending => exact absurd rfl (hcall pending)
  | tickN =>
    simp only [resumeTick]
    split
    · exact .ends ⟨rfl, rfl, rfl, rfl, rfl, rfl, rfl⟩
    · split
      · exact .ends ⟨rfl, rfl, rfl, rfl, rfl, rfl, rfl⟩
      · refine .goesOn ?_ nofun
        split
        · exact ⟨rfl, rfl, rfl, rfl, rfl, rfl, rfl⟩
        · exact ⟨rfl, rfl, rfl, rfl, rfl, rfl, rfl⟩
  | status =>
    simp only [resumeTick]
    split
    · exact .ends (.refl s)
    · refine .goesOn ?_ nofun
      split
      · exact ⟨rfl, rfl, rfl, rfl, rfl, rfl, rfl⟩
      · exact .refl s
  | takeOutput =>
    have htaken (output : Bytes) : TickKept s { s with output } := ⟨rfl, rfl, rfl, rfl, rfl, rfl, rfl⟩
    simp only [resumeTick]
    split
    · exact .ends (htaken _)
    · refine .of_kept ?_ (continues_tail (tail_replyPty _))
      exact ((htaken _).trans (kept_showOutput _ _)).trans (kept_getReady _)
  | ptyReply => exact continues_tail (tail_ptyReply s)
  | clipboard rest => exact continues_tail (tail_clipboard rest s)
  | syncImages => exact .ends (.refl s)

theorem resumeTick_sendInput (r : Reply) (pending : Bytes) (s : LiveSession T) :
    r.ok = false ∧ resumeTick lib r (.sendInput pending) s = endTick s ∨
      r.ok = true ∧
        Continues { s with sent := s.sent ++ pending }
          (resumeTick lib r (.sendInput pending) s) := by
  cases hok : r.ok with
  | false =>
    refine Or.inl ⟨rfl, ?_⟩
    simp [resumeTick, hok]
  | true =>
    refine Or.inr ⟨rfl, ?_⟩
    simp only [resumeTick, hok, Bool.not_true, Bool.false_eq_true, if_false]
    split
    · exact .ends (.refl _)
    · exact .goesOn (.refl _) nofun

/-- The tick takes all the input that waits, and awaits `sendInput` only if there is some. -/
theorem tickOnce_cases (s : LiveSession T) :
    tickOnce s = s ∨ s.closed = false ∧ s.ticking = false ∧
      (s.pendingInput = [] ∧ tickOnce s = awaits .tickN { s with ticking := true } ∨
        s.pendingInput ≠ [] ∧ tickOnce s =
          awaits (.sendInput s.pendingInput) { s with ticking := true, pendingInput := [] }) := by
  by_cases hidle : s.closed || s.ticking
  · exact Or.inl (if_pos hidle)
  · refine Or.inr ?_
    have hstart : tickOnce s =
        if s.pendingInput = [] then awaits .tickN { s with ticking := true, pendingInput := [] }
        else awaits (.sendInput s.pendingInput) { s with ticking := true, pendingInput := [] } :=
      if_neg hidle
    rw [Bool.not_eq_true, Bool.or_eq_false_iff] at hidle
    refine ⟨hidle.1, hidle.2, ?_⟩
    by_cases hpending : s.pendingInput = []
    · refine Or.inl ⟨hpending, ?_⟩
      rw [hstart, if_pos hpending, ← hpending]
    · exact Or.inr ⟨hpending, hstart.trans (if_neg hpending)⟩

end Tick

section Display

structure SameDisplay (s s' : LiveSession T) : Prop where
  term : s'.vt.term = s.vt.term
  frame : s'.frame = s.frame
  unseen : s'.unseen = s.unseen
  painted : s'.painted = s.painted
  started : s'.started = s.started
  closed : s'.closed = s.closed

/-- A relation that a session has to another where nothing but painting and taking frames comes
between them. -/
structure Displays (lib : GhosttyTerm T) (R : LiveSession T → LiveSession T → Prop) : Prop where
  same {s s' : LiveSession T} : SameDisplay s s' → R s s'
  trans {s s₁ s' : LiveSession T} : R s s₁ → R s₁ s' → R s s'
  paint (data : Bytes) (s : LiveSession T) : R s (paint lib data s)
  takeFrame (snapshot : Bool) (s : LiveSession T) : R s (takeFrame lib snapshot s)

variable {R : LiveSession T → LiveSession T → Prop}

theorem SameDisplay.refl (s : LiveSession T) : SameDisplay s s := ⟨rfl, rfl, rfl, rfl, rfl, rfl⟩

theorem Displays.showOutput (h : Displays lib R) (out : Bytes) (s : LiveSession T) :
    R s (showOutput lib out s) := by
  unfold Loop.showOutput
  split
  · exact h.same (.refl s)
  · have hcarry : R s
        { s with bootLineCarry := (BootFilter.stripBootNoise s.bootLineCarry out).2 } :=
      h.same ⟨rfl, rfl, rfl, rfl, rfl, rfl⟩
    exact h.trans hcarry (h.paint _ _)

theorem Displays.getReady (h : Displays lib R) (s : LiveSession T) : R s (getReady lib s) := by
  unfold Loop.getReady
  dsimp only
  split
  · have hready : R s
        { s with readyTicks := s.readyTicks + 1, bootLineCarry := [], shellReady := true } :=
      h.same ⟨rfl, rfl, rfl, rfl, rfl, rfl⟩
    exact h.trans hready (h.paint _ _)
  · exact h.same ⟨rfl, rfl, rfl, rfl, rfl, rfl⟩

theorem Displays.tail (h : Displays lib R) (ht : Tail lib s s') : R s s' := by
  cases ht with
  | ends hvt => exact h.same ⟨hvt, rfl, rfl, rfl, rfl, rfl⟩
  | replies hvt => exact h.same ⟨hvt, rfl, rfl, rfl, rfl, rfl⟩
  | copies hvt => exact h.same ⟨hvt, rfl, rfl, rfl, rfl, rfl⟩
  | @shows vt hvt =>
    have htaken : R s { s with vt } := h.same ⟨hvt, rfl, rfl, rfl, rfl, rfl⟩
    have hframe : R s (Loop.takeFrame lib true { s with vt }) := h.trans htaken (h.takeFrame true _)
    exact h.trans hframe (h.same ⟨rfl, rfl, rfl, rfl, rfl, rfl⟩)

theorem Displays.resumeTick (h : Displays lib R) (r : Reply) (call : TickAwait)
    (s : LiveSession T) : R s (resumeTick lib r call s) := by
  cases call with
  | sendInput pending =>
    apply h.same
    simp only [Loop.resumeTick]
    split
    · exact ⟨rfl, rfl, rfl, rfl, rfl, rfl⟩
    · split <;> exact ⟨rfl, rfl, rfl, rfl, rfl, rfl⟩
  | tickN =>
    apply h.same
    simp only [Loop.resumeTick]
    split
    · exact ⟨rfl, rfl, rfl, rfl, rfl, rfl⟩
    · split
      · exact ⟨rfl, rfl, rfl, rfl, rfl, rfl⟩
      · split <;> exact ⟨rfl, rfl, rfl, rfl, rfl, rfl⟩
  | status =>
    apply h.same
    simp only [Loop.resumeTick]
    split
    · exact ⟨rfl, rfl, rfl, rfl, rfl, rfl⟩
    · split <;> exact ⟨rfl, rfl, rfl, rfl, rfl, rfl⟩
  | takeOutput =>
    have htaken (output : Bytes) : R s { s with output } :=
      h.same ⟨rfl, rfl, rfl, rfl, rfl, rfl⟩
    simp only [Loop.resumeTick]
    split
    · exact h.same ⟨rfl, rfl, rfl, rfl, rfl, rfl⟩
    · refine h.trans ?_ (h.tail (tail_replyPty _))
      exact h.trans (h.trans (htaken _) (h.showOutput _ _)) (h.getReady _)
  | ptyReply => exact h.tail (tail_ptyReply s)
  | clipboard rest => exact h.tail (tail_clipboard rest s)
  | syncImages => exact h.same ⟨rfl, rfl, rfl, rfl, rfl, rfl⟩

theorem Displays.tickOnce (h : Displays lib R) (s : LiveSession T) : R s (tickOnce s) := by
  rcases tickOnce_cases s with hidle | ⟨-, -, ⟨-, hbegun⟩ | ⟨-, hbegun⟩⟩
  · rw [hidle]
    exact h.same (.refl s)
  · rw [hbegun]
    exact h.same ⟨rfl, rfl, rfl, rfl, rfl, rfl⟩
  · rw [hbegun]
    exact h.same ⟨rfl, rfl, rfl, rfl, rfl, rfl⟩

theorem Displays.onEncoded (h : Displays lib R) (encoded : Option Bytes) (s : LiveSession T) :
    R s (onEncoded encoded s) := by
  apply h.same
  unfold Loop.onEncoded enqueueInput
  split
  · exact .refl s
  · split
    · exact .refl s
    · split
      · exact .refl s
      · exact ⟨rfl, rfl, rfl, rfl, rfl, rfl⟩

end Display

section Handlers

def surface (lib : GhosttyTerm T) (atPrompt : Bool) (vt : VtTerminal T) : VtTerminal T :=
  let vt := (vt.writeText lib eraseScreen).scrollViewport lib .bottom
  if atPrompt then vt.writeText lib prompt else vt

theorem beginNewTerminalSurface_shown (h : s.closed = false) :
    beginNewTerminalSurface lib true s =
      { s with
        vt := surface lib s.atPrompt s.vt
        frame := (lib.view (surface lib s.atPrompt s.vt).term).copyWithMeta
          { cursorVisible := some true }
        unseen := false } := by
  cases hprompt : s.atPrompt with
  | false => simp [beginNewTerminalSurface, surface, changeTerminal, takeFrame, h, hprompt]
  | true => simp [beginNewTerminalSurface, surface, changeTerminal, takeFrame, h, hprompt]

theorem beginNewTerminalSurface_unseen (h : s.closed = false) :
    beginNewTerminalSurface lib false s =
      { s with vt := surface lib s.atPrompt s.vt, unseen := true } := by
  cases hprompt : s.atPrompt with
  | false => simp [beginNewTerminalSurface, surface, changeTerminal, takeFrame, h, hprompt]
  | true => simp [beginNewTerminalSurface, surface, changeTerminal, takeFrame, h, hprompt]

theorem notebook_onEncoded (encoded : Option Bytes) (s : LiveSession T) :
    (onEncoded encoded s).notebook = s.notebook := by
  unfold onEncoded enqueueInput
  split
  · rfl
  · split
    · rfl
    · split
      · rfl
      · rfl

theorem notebook_beginNewTerminalSurface (snapshot : Bool) (s : LiveSession T) :
    (beginNewTerminalSurface lib snapshot s).notebook = s.notebook := by
  cases h : s.closed with
  | true =>
    have hnone : beginNewTerminalSurface lib snapshot s = s := if_pos h
    rw [hnone]
  | false =>
    cases snapshot with
    | false => rw [beginNewTerminalSurface_unseen h]
    | true => rw [beginNewTerminalSurface_shown h]

/-- What Shift+Tab in the terminal does to the notebook. -/
theorem notebook_enterAsk (encoded : Option Bytes) (snapshot : Bool) (s : LiveSession T) :
    (enterAsk lib encoded snapshot s).notebook = (s.notebook.enterAsk (liveFrame s)).2 := by
  unfold enterAsk onFocus
  dsimp only
  rw [notebook_onEncoded]
  split
  · rw [notebook_beginNewTerminalSurface]
  · rfl

def notebookOp : LoopOp → LiveSession T → Option NotebookOp
  | .toggleMode _ _, s =>
    some (if s.notebook.mode = .terminal then .enterAsk (liveFrame s) else .enterTerminal)
  | .submitUserMessage text, _ => some (.submitUserMessage text)
  | .setPaletteOpen isOpen, _ => some (.setPaletteOpen isOpen)
  | _, _ => none

theorem Continues.notebook (h : Continues s s') : s'.notebook = s.notebook := by
  cases h with
  | ends hk => exact hk.notebook
  | goesOn hk _ => exact hk.notebook

theorem notebook_resumeTick (call : TickAwait) (s : LiveSession T) :
    (resumeTick lib r call s).notebook = s.notebook := by
  cases call with
  | sendInput pending =>
    rcases resumeTick_sendInput r pending s with ⟨-, h⟩ | ⟨-, h⟩
    · rw [h]
      rfl
    · exact h.notebook
  | _ =>
    refine (continues_resumeTick ?_ s).notebook
    intro pending h
    cases h

theorem notebook_takeFrame (snapshot : Bool) (s : LiveSession T) :
    (takeFrame lib snapshot s).notebook = s.notebook := (kept_takeFrame snapshot s).notebook

theorem notebook_runOp (op : LoopOp) (s : LiveSession T) :
    (runOp lib op s).notebook =
      match notebookOp op s with
      | none => s.notebook
      | some nop => (notebookStep nop s.notebook).2 := by
  cases op with
  | timer =>
    simp only [runOp, notebookOp]
    split
    · rcases tickOnce_cases s with h | ⟨-, -, ⟨-, h⟩ | ⟨-, h⟩⟩
      · rw [h]
      · rw [h]
        rfl
      · rw [h]
        rfl
    · rfl
  | resume i r =>
    simp only [runOp, notebookOp]
    split
    · rfl
    · exact notebook_resumeTick _ _
  | onKey encoded => exact notebook_onEncoded encoded s
  | onFocus encoded => exact notebook_onEncoded encoded s
  | onPaste encoded => exact notebook_onEncoded encoded s
  | onScroll delta snapshot =>
    simp only [runOp, onScroll, notebookOp]
    split
    · rfl
    · exact notebook_takeFrame snapshot _
  | resize cols rows resized snapshot =>
    simp only [runOp, resize, notebookOp]
    split
    · rfl
    · exact notebook_takeFrame snapshot _
  | onPointer event snapshot =>
    simp only [runOp, onPointer, notebookOp]
    split
    · rfl
    · split
      · rfl
      · split
        · exact notebook_takeFrame snapshot _
        · rfl
  | toggleMode encoded snapshot =>
    simp only [runOp, toggleMode, notebookOp]
    split
    · exact notebook_enterAsk encoded snapshot s
    · exact notebook_onEncoded encoded _
  | submitUserMessage text => rfl
  | setPaletteOpen isOpen => rfl
  | disposeAsync => rfl
  | dispose => rfl

structure Handled (s s' : LiveSession T) : Prop where
  output : s'.output = s.output
  closed : s'.closed = s.closed
  started : s'.started = s.started
  loop : s'.loop = s.loop
  ticking : s'.ticking = s.ticking
  ticks : s'.ticks = s.ticks
  atPrompt : s'.atPrompt = s.atPrompt
  shellReady : s'.shellReady = s.shellReady
  readyTicks : s'.readyTicks = s.readyTicks
  bootLineCarry : s'.bootLineCarry = s.bootLineCarry
  sent : s'.sent = s.sent
  guestWrote : s'.guestWrote = s.guestWrote
  painted : s'.painted = s.painted
  input : ∃ bytes, s'.pendingInput = s.pendingInput ++ bytes ∧ s'.enqueued = s.enqueued ++ bytes

theorem Handled.refl (s : LiveSession T) : Handled s s :=
  ⟨rfl, rfl, rfl, rfl, rfl, rfl, rfl, rfl, rfl, rfl, rfl, rfl, rfl, [], by simp, by simp⟩

theorem Handled.trans (h : Handled s s₁) (h' : Handled s₁ s') : Handled s s' := by
  obtain ⟨bytes, hpending, henqueued⟩ := h.input
  obtain ⟨bytes', hpending', henqueued'⟩ := h'.input
  refine ⟨h'.output.trans h.output, h'.closed.trans h.closed, h'.started.trans h.started,
    h'.loop.trans h.loop, h'.ticking.trans h.ticking, h'.ticks.trans h.ticks,
    h'.atPrompt.trans h.atPrompt, h'.shellReady.trans h.shellReady,
    h'.readyTicks.trans h.readyTicks, h'.bootLineCarry.trans h.bootLineCarry,
    h'.sent.trans h.sent, h'.guestWrote.trans h.guestWrote, h'.painted.trans h.painted,
    bytes ++ bytes', ?_, ?_⟩
  · rw [hpending', hpending, List.append_assoc]
  · rw [henqueued', henqueued, List.append_assoc]

theorem handled_changeTerminal (f : VtTerminal T → VtTerminal T) (s : LiveSession T) :
    Handled s (changeTerminal f s) :=
  ⟨rfl, rfl, rfl, rfl, rfl, rfl, rfl, rfl, rfl, rfl, rfl, rfl, rfl, (Handled.refl s).input⟩

theorem handled_takeFrame (snapshot : Bool) (s : LiveSession T) :
    Handled s (takeFrame lib snapshot s) := by
  cases snapshot with
  | false => exact .refl s
  | true =>
    exact ⟨rfl, rfl, rfl, rfl, rfl, rfl, rfl, rfl, rfl, rfl, rfl, rfl, rfl, (Handled.refl s).input⟩

theorem handled_notebook (notebook : NotebookController) (s : LiveSession T) :
    Handled s { s with notebook } :=
  ⟨rfl, rfl, rfl, rfl, rfl, rfl, rfl, rfl, rfl, rfl, rfl, rfl, rfl, (Handled.refl s).input⟩

theorem handled_onEncoded (encoded : Option Bytes) (s : LiveSession T) :
    Handled s (onEncoded encoded s) := by
  unfold onEncoded enqueueInput
  split
  · exact .refl s
  · split
    · exact .refl s
    · next bytes =>
      split
      · exact .refl s
      · exact ⟨rfl, rfl, rfl, rfl, rfl, rfl, rfl, rfl, rfl, rfl, rfl, rfl, rfl, bytes, rfl, rfl⟩

theorem handled_onScroll (delta : ℤ) (snapshot : Bool) (s : LiveSession T) :
    Handled s (onScroll lib delta snapshot s) := by
  unfold onScroll
  split
  · exact .refl s
  · exact (handled_changeTerminal _ s).trans (handled_takeFrame snapshot _)

theorem handled_resize (cols rows : ℕ) (resized snapshot : Bool) (s : LiveSession T) :
    Handled s (resize lib cols rows resized snapshot s) := by
  unfold resize
  split
  · exact .refl s
  · exact (handled_changeTerminal _ s).trans (handled_takeFrame snapshot _)

theorem handled_onPointer (event : PointerEvent) (snapshot : Bool) (s : LiveSession T) :
    Handled s (onPointer lib event snapshot s) := by
  unfold onPointer
  split
  · exact .refl s
  · split
    · exact .refl s
    · dsimp only
      split
      · exact (handled_changeTerminal _ s).trans (handled_takeFrame snapshot _)
      · exact handled_changeTerminal _ s

theorem handled_beginNewTerminalSurface (snapshot : Bool) (s : LiveSession T) :
    Handled s (beginNewTerminalSurface lib snapshot s) := by
  cases hclosed : s.closed with
  | true =>
    have hnone : beginNewTerminalSurface lib snapshot s = s := if_pos hclosed
    rw [hnone]
    exact .refl s
  | false =>
    cases snapshot with
    | false =>
      rw [beginNewTerminalSurface_unseen hclosed]
      exact handled_changeTerminal _ s
    | true =>
      rw [beginNewTerminalSurface_shown hclosed]
      exact
        ⟨rfl, rfl, rfl, rfl, rfl, rfl, rfl, rfl, rfl, rfl, rfl, rfl, rfl, (Handled.refl s).input⟩

theorem handled_toggleMode (encoded : Option Bytes) (snapshot : Bool) (s : LiveSession T) :
    Handled s (toggleMode lib encoded snapshot s) := by
  unfold toggleMode
  split
  · unfold enterAsk
    dsimp only
    refine .trans ?_ (handled_onEncoded encoded _)
    split
    · exact (handled_notebook _ s).trans (handled_beginNewTerminalSurface snapshot _)
    · exact handled_notebook _ s
  · exact (handled_notebook _ s).trans (handled_onEncoded encoded _)

def isHandler : LoopOp → Bool
  | .timer => false
  | .resume _ _ => false
  | .disposeAsync => false
  | .dispose => false
  | _ => true

theorem handled_handler {op : LoopOp} (h : isHandler op) (s : LiveSession T) :
    Handled s (runOp lib op s) := by
  cases op with
  | timer => cases h
  | resume i r => cases h
  | disposeAsync => cases h
  | dispose => cases h
  | onKey encoded => exact handled_onEncoded encoded s
  | onFocus encoded => exact handled_onEncoded encoded s
  | onPaste encoded => exact handled_onEncoded encoded s
  | onScroll delta snapshot => exact handled_onScroll delta snapshot s
  | resize cols rows resized snapshot => exact handled_resize cols rows resized snapshot s
  | onPointer event snapshot => exact handled_onPointer event snapshot s
  | toggleMode encoded snapshot => exact handled_toggleMode encoded snapshot s
  | submitUserMessage text => exact handled_notebook _ s
  | setPaletteOpen isOpen => exact handled_notebook _ s

end Handlers

section OneTick

/-- No more than one tick is in flight, and only while `_ticking` is set; what it sends is not
empty. -/
structure OneTick (s : LiveSession T) : Prop where
  one : s.ticks.length ≤ 1
  idle : s.ticking = false → s.ticks = []
  sends : ∀ pending, .sendInput pending ∈ s.ticks → pending ≠ []

theorem OneTick.resume_cases (hs : OneTick s) (i : ℕ) (r : Reply) :
    s.ticks[i]? = none ∧ runOp lib (.resume i r) s = s ∨
      ∃ call, s.ticks[i]? = some call ∧ s.ticks = [call] ∧ s.ticking = true ∧
        runOp lib (.resume i r) s = resumeTick lib r call { s with ticks := [] } := by
  cases hcall : s.ticks[i]? with
  | none => exact Or.inl ⟨rfl, by simp only [runOp, hcall]⟩
  | some call =>
    have hrun : runOp lib (.resume i r) s =
        resumeTick lib r call { s with ticks := s.ticks.eraseIdx i } := by
      simp only [runOp, hcall]
    have hlen : i < s.ticks.length := (List.getElem?_eq_some_iff.mp hcall).1
    have hone := hs.one
    obtain rfl : i = 0 := by omega
    obtain ⟨only, honly⟩ := List.length_eq_one_iff.mp (by omega : s.ticks.length = 1)
    rw [honly] at hcall
    obtain rfl := Option.some.inj hcall
    refine Or.inr ⟨only, rfl, honly, ?_, by rw [hrun, honly]; rfl⟩
    by_contra hidle
    have hnone := hs.idle (Bool.eq_false_iff.mpr hidle)
    rw [honly] at hnone
    cases hnone

theorem runOp_timer (s : LiveSession T) :
    runOp lib .timer s = s ∨ runOp lib .timer s = tickOnce s := by
  cases hloop : s.loop with
  | false => exact Or.inl (by simp [runOp, hloop])
  | true => exact Or.inr (by simp [runOp, hloop])

theorem oneTick_tickOnce (hs : OneTick s) : OneTick (tickOnce s) := by
  rcases tickOnce_cases s with hsame | ⟨-, hidle, ⟨-, h⟩ | ⟨hpending, h⟩⟩
  · rw [hsame]
    exact hs
  · have hticks : (tickOnce s).ticks = [.tickN] := by rw [h, awaits, hs.idle hidle]; rfl
    refine ⟨by rw [hticks]; exact le_rfl, fun hfree ↦ ?_, fun pending hmem ↦ ?_⟩
    · rw [h] at hfree
      cases hfree
    · rw [hticks, List.mem_singleton] at hmem
      cases hmem
  · have hticks : (tickOnce s).ticks = [.sendInput s.pendingInput] := by
      rw [h, awaits, hs.idle hidle]
      rfl
    refine ⟨by rw [hticks]; exact le_rfl, fun hfree ↦ ?_, fun pending hmem ↦ ?_⟩
    · rw [h] at hfree
      cases hfree
    · rw [hticks, List.mem_singleton] at hmem
      obtain rfl := TickAwait.sendInput.inj hmem
      exact hpending

theorem Continues.oneTick (h : Continues s s') (hnone : s.ticks = []) (hbusy : s.ticking = true) :
    OneTick s' := by
  cases h with
  | @ends s₁ hk =>
    have hticks : (endTick s₁).ticks = [] := hk.ticks.trans hnone
    refine ⟨?_, fun _ ↦ hticks, ?_⟩
    · rw [hticks]
      exact Nat.zero_le 1
    · rw [hticks]
      nofun
  | @goesOn s₁ call hk hcall =>
    have hticks : (awaits call s₁).ticks = [call] := by
      rw [awaits, hk.ticks, hnone]
      rfl
    refine ⟨?_, fun hidle ↦ ?_, fun pending hmem ↦ ?_⟩
    · rw [hticks]
      exact le_rfl
    · have hidle : s₁.ticking = false := hidle
      rw [hk.ticking, hbusy] at hidle
      cases hidle
    · rw [hticks, List.mem_singleton] at hmem
      exact absurd hmem.symm (hcall pending)

theorem Handled.oneTick (h : Handled s s') (hs : OneTick s) : OneTick s' where
  one := h.ticks ▸ hs.one
  idle := by
    rw [h.ticks, h.ticking]
    exact hs.idle
  sends := h.ticks ▸ hs.sends

theorem oneTick_step (op : LoopOp) (s : LiveSession T) (hs : OneTick s) :
    OneTick (runOp lib op s) := by
  cases op with
  | timer =>
    rcases runOp_timer s with h | h
    · rw [h]
      exact hs
    · rw [h]
      exact oneTick_tickOnce hs
  | resume i r =>
    rcases hs.resume_cases i r with ⟨-, h⟩ | ⟨call, -, hone, hbusy, h⟩
    · rw [h]
      exact hs
    · rw [h]
      cases call with
      | sendInput pending =>
        rcases resumeTick_sendInput r pending { s with ticks := [] } with ⟨-, h⟩ | ⟨-, h⟩
        · rw [h]
          exact ⟨Nat.zero_le 1, fun _ ↦ rfl, nofun⟩
        · exact h.oneTick rfl hbusy
      | _ =>
        refine (continues_resumeTick ?_ _).oneTick rfl hbusy
        intro pending h
        cases h
  | disposeAsync => exact ⟨hs.one, hs.idle, hs.sends⟩
  | dispose => exact ⟨hs.one, hs.idle, hs.sends⟩
  | _ => exact (handled_handler rfl s).oneTick hs

theorem oneTick_opened (term : T) : OneTick (opened lib term) :=
  ⟨Nat.zero_le 1, fun _ ↦ rfl, nofun⟩

end OneTick

end MachineNotebook.Session.Segments
