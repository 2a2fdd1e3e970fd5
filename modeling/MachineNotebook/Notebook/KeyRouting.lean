import MachineNotebook.Notebook.Controller
import MachineNotebook.Notebook.FreezeWorth

namespace MachineNotebook.Notebook.KeyRouting

open MachineNotebook.Lib Dart.Bindings Vt.Frame Document Controller FreezeCrop FreezeWorth

inductive LogicalKey
  | escape
  | tab
  | enter
  | numpadEnter
  | keyK
  | keyV
  | keyC
  | other (id : ℕ)
  deriving DecidableEq

inductive KeyEventType
  | keyDown
  | keyRepeat
  | keyUp
  deriving DecidableEq

structure KeyEvent where
  type : KeyEventType
  logicalKey : LogicalKey
  isControlPressed : Bool := false
  isMetaPressed : Bool := false
  isShiftPressed : Bool := false
  deriving DecidableEq

def KeyEvent.mod (e : KeyEvent) : Bool := e.isControlPressed || e.isMetaPressed

def KeyEvent.isPress (e : KeyEvent) : Bool := e.type = .keyDown || e.type = .keyRepeat

inductive HostChord
  | controlPlane
  | toggleMode
  | escape
  | nlSubmit
  deriving DecidableEq

def classifyHostChord (e : KeyEvent) : Option HostChord :=
  let ctrl := e.mod
  let shift := e.isShiftPressed
  if !e.isPress then none
  else if e.logicalKey = .escape then some .escape
  else if shift && !ctrl && e.logicalKey = .tab then some .toggleMode
  else if ctrl && !shift && e.logicalKey = .keyK then some .controlPlane
  else if ctrl && !shift && (e.logicalKey = .enter || e.logicalKey = .numpadEnter) then
    some .nlSubmit
  else none

inductive HostAction
  | openControlPlane
  | toggleMode
  | submitNl
  | escapeInAsk
  | copy
  | paste
  deriving DecidableEq

/-- Where a key event ends up. -/
inductive Delivery
  | host (action : HostAction)
  | nlField
  | guest (event : KeyEvent)
  deriving DecidableEq

inductive KeyEventResult
  | ignored
  | handled
  deriving DecidableEq

/-- The page: the notebook, the text in the natural-language field, and the frame of the session
where it is started. -/
structure Page where
  notebook : NotebookController
  nlText : DartString
  liveFrame : Option { f : VtFrame // WellFormed f }

namespace Page

def mode (p : Page) : InputMode := p.notebook.mode

def paletteOpen (p : Page) : Bool := p.notebook.doc.paletteOpen

def enterAsk (p : Page) : Page :=
  { p with notebook := (p.notebook.enterAsk (p.liveFrame.map Subtype.val)).2 }

def enterTerminal (p : Page) : Page := { p with notebook := p.notebook.enterTerminal }

def toggleMode (p : Page) : Page := if p.mode = .terminal then p.enterAsk else p.enterTerminal

def escapeInAsk (p : Page) : Page :=
  if p.nlText ≠ [] then { p with nlText := [] } else p.enterTerminal

def submitNl (p : Page) : Page :=
  let (sent, notebook) := p.notebook.submitUserMessage p.nlText
  { p with notebook, nlText := if sent then [] else p.nlText }

def openControlPlane (p : Page) : Page :=
  if p.paletteOpen then p else { p with notebook := p.notebook.setPaletteOpen true }

def onHardwareKey (e : KeyEvent) (p : Page) : Bool × List Delivery × Page :=
  if p.paletteOpen then (false, [], p)
  else
    match classifyHostChord e with
    | none => (false, [], p)
    | some .controlPlane => (true, [.host .openControlPlane], p.openControlPlane)
    | some .toggleMode => (true, [.host .toggleMode], p.toggleMode)
    | some .nlSubmit =>
      if p.mode = .naturalLanguage then (true, [.host .submitNl], p.submitNl) else (false, [], p)
    | some .escape =>
      if p.mode = .naturalLanguage then (true, [.host .escapeInAsk], p.escapeInAsk)
      else (false, [], p)

def onKey (e : KeyEvent) (p : Page) : KeyEventResult × List Delivery :=
  if p.paletteOpen then (.ignored, [])
  else if p.mode = .naturalLanguage then (.ignored, [])
  else if classifyHostChord e ≠ none then (.handled, [])
  else if e.type = .keyDown && e.mod && e.logicalKey = .keyV then (.handled, [.host .paste])
  else if e.type = .keyDown && e.mod && e.logicalKey = .keyC && e.isShiftPressed then
    (.handled, [.host .copy])
  else (.handled, [.guest e])

/-- An event goes to the handler of the keyboard, and to that of the shell where it has the focus.
What neither takes is for the field, which stands in the shell in natural-language mode. -/
def onEvent (focused : Bool) (e : KeyEvent) (p : Page) : List Delivery × Page :=
  let (taken, early, p) := p.onHardwareKey e
  let (result, late) := if focused then p.onKey e else (.ignored, [])
  let field :=
    if focused && !taken && result = .ignored && !p.paletteOpen && p.mode = .naturalLanguage then
      [.nlField]
    else []
  (early ++ late ++ field, p)

end Page

inductive Move
  | key (focused : Bool) (e : KeyEvent)
  | closePalette
  | edit (text : DartString)
  | refresh (liveFrame : Option { f : VtFrame // WellFormed f })

def step : Move → Page → List Delivery × Page
  | .key focused e, p => p.onEvent focused e
  | .closePalette, p => ([], { p with notebook := p.notebook.setPaletteOpen false })
  | .edit text, p => ([], { p with nlText := text })
  | .refresh liveFrame, p => ([], { p with liveFrame })

/-- The event ends up in one place, which is the guest in terminal mode if the page does nothing
itself, and never the guest if the mode has changed; a toggle does change it. -/
structure Routed (focused : Bool) (e : KeyEvent) (p : Page) : Prop where
  once : ∃ d, (p.onEvent focused e).1 = [d]
  guest : p.mode = .terminal → (∀ a, .host a ∉ (p.onEvent focused e).1) →
    .guest e ∈ (p.onEvent focused e).1
  moved : (p.onEvent focused e).2.mode ≠ p.mode → .guest e ∉ (p.onEvent focused e).1
  toggled : .host .toggleMode ∈ (p.onEvent focused e).1 → (p.onEvent focused e).2.mode ≠ p.mode

def PressRouted : Move → Page → Prop
  | .key focused e, p => e.isPress → p.paletteOpen = false → Routed focused e p
  | _, _ => True

/-- The chord is one that the keyboard's handler acts on in this mode. -/
def acts : HostChord → InputMode → Bool
  | .controlPlane, _ | .toggleMode, _ => true
  | .nlSubmit, mode | .escape, mode => mode = .naturalLanguage

/-- Each press with the palette closed is a chord that is acted on, or no chord and comes with the
focus in the shell. -/
def PressClear : Move → Page → Prop
  | .key focused e, p => e.isPress → p.paletteOpen = false →
    match classifyHostChord e with
    | some chord => acts chord p.mode
    | none => focused
  | _, _ => True

variable {p : Page} {e : KeyEvent} {focused : Bool} {chord : HostChord}

def act : HostChord → Page → HostAction × Page
  | .controlPlane, p => (.openControlPlane, p.openControlPlane)
  | .toggleMode, p => (.toggleMode, p.toggleMode)
  | .nlSubmit, p => (.submitNl, p.submitNl)
  | .escape, p => (.escapeInAsk, p.escapeInAsk)

theorem onKey_chord (hchord : classifyHostChord e = some chord) (p : Page) :
    (p.onKey e).2 = [] := by
  unfold Page.onKey
  split
  · rfl
  · split
    · rfl
    · simp [hchord]

theorem onHardwareKey_chord (hclosed : p.paletteOpen = false)
    (hchord : classifyHostChord e = some chord) :
    p.onHardwareKey e =
      if acts chord p.mode then (true, [.host (act chord p).1], (act chord p).2)
      else (false, [], p) := by
  unfold Page.onHardwareKey
  rw [hclosed, hchord]
  cases chord with
  | controlPlane => rfl
  | toggleMode => rfl
  | nlSubmit => simp [acts, act]
  | escape => simp [acts, act]

theorem not_ask_of_not_acts {mode : InputMode} (h : ¬acts chord mode) :
    mode ≠ .naturalLanguage := by
  intro hmode
  cases chord with
  | controlPlane => exact h rfl
  | toggleMode => exact h rfl
  | nlSubmit => exact h (decide_eq_true hmode)
  | escape => exact h (decide_eq_true hmode)

theorem onEvent_chord (hclosed : p.paletteOpen = false)
    (hchord : classifyHostChord e = some chord) :
    p.onEvent focused e =
      if acts chord p.mode then ([.host (act chord p).1], (act chord p).2) else ([], p) := by
  have hlate : ∀ p' : Page, (if focused then p'.onKey e else (.ignored, [])).2 = [] := by
    intro p'
    split
    · exact onKey_chord hchord p'
    · rfl
  unfold Page.onEvent
  rw [onHardwareKey_chord hclosed hchord]
  by_cases hacts : acts chord p.mode
  · simp [hacts, hlate]
  · have hmode := not_ask_of_not_acts hacts
    simp [hacts, hlate, hmode]

theorem onKey_plain (hclosed : p.paletteOpen = false) (hchord : classifyHostChord e = none)
    (hmode : p.mode ≠ .naturalLanguage) :
    p.onKey e = (.handled, [.host .paste]) ∨ p.onKey e = (.handled, [.host .copy]) ∨
      p.onKey e = (.handled, [.guest e]) := by
  unfold Page.onKey
  rw [hclosed, if_neg Bool.false_ne_true, if_neg hmode, if_neg (not_not_intro hchord)]
  split
  · exact Or.inl rfl
  · split
    · exact Or.inr (Or.inl rfl)
    · exact Or.inr (Or.inr rfl)

structure Placed (e : KeyEvent) (p : Page) (d : Delivery) : Prop where
  guest : p.mode = .terminal → (∀ a, d ≠ .host a) → d = .guest e
  no_toggle : d ≠ .host .toggleMode

theorem onEvent_plain (hclosed : p.paletteOpen = false) (hchord : classifyHostChord e = none) :
    (p.onEvent false e = ([], p)) ∧ ∃ d, p.onEvent true e = ([d], p) ∧ Placed e p d := by
  have hhardware : p.onHardwareKey e = (false, [], p) := by simp [Page.onHardwareKey, hchord]
  unfold Page.onEvent
  rw [hhardware]
  refine ⟨rfl, ?_⟩
  by_cases hmode : p.mode = .naturalLanguage
  · refine ⟨.nlField, by simp [Page.onKey, hclosed, hmode], ?_, by simp⟩
    intro hterminal
    simp [hmode] at hterminal
  · rcases onKey_plain hclosed hchord hmode with h | h | h
    · exact ⟨.host .paste, by simp [h], fun _ hno ↦ absurd rfl (hno .paste), by simp⟩
    · exact ⟨.host .copy, by simp [h], fun _ hno ↦ absurd rfl (hno .copy), by simp⟩
    · exact ⟨.guest e, by simp [h], fun _ _ ↦ rfl, by simp⟩

theorem enterAsk_mode (hmode : p.mode = .terminal) : p.enterAsk.mode = .naturalLanguage := by
  have hcell : ∃ frozen,
      NotebookController.freezeCell (p.liveFrame.map Subtype.val) (p.notebook.seq + 1) =
        some frozen := by
    cases hlive : p.liveFrame with
    | none => exact ⟨[], rfl⟩
    | some live =>
      obtain ⟨worth, hworth, -⟩ := exists_worth live.property
      cases worth with
      | false => exact ⟨[], by simp [NotebookController.freezeCell, hworth]⟩
      | true =>
        obtain ⟨frame, hframe⟩ := Option.isSome_iff_exists.mp (FreezePolicy.apply_isSome hworth)
        refine ⟨[.terminalFreeze (NotebookController.termId (p.notebook.seq + 1)) frame], ?_⟩
        simp [NotebookController.freezeCell, hworth, hframe]
  obtain ⟨frozen, hfrozen⟩ := hcell
  have hdoc : ¬p.notebook.doc.mode = .naturalLanguage := by
    have hmode : p.notebook.doc.mode = .terminal := hmode
    simp [hmode]
  unfold Page.enterAsk NotebookController.enterAsk
  rw [if_neg hdoc, hfrozen]
  rfl

theorem enterTerminal_mode (p : Page) : p.enterTerminal.mode = .terminal := by
  unfold Page.enterTerminal NotebookController.enterTerminal NotebookController.setMode
  split
  · assumption
  · rfl

theorem toggleMode_mode (p : Page) : p.toggleMode.mode ≠ p.mode := by
  unfold Page.toggleMode
  by_cases hmode : p.mode = .terminal
  · rw [if_pos hmode, enterAsk_mode hmode, hmode]
    nofun
  · rw [if_neg hmode, enterTerminal_mode]
    exact Ne.symm hmode

theorem routed_chord (hclosed : p.paletteOpen = false)
    (hchord : classifyHostChord e = some chord) : Routed focused e p ↔ acts chord p.mode := by
  have hevent : p.onEvent focused e = _ := onEvent_chord hclosed hchord
  constructor
  · intro h
    obtain ⟨d, hd⟩ := h.once
    by_contra hacts
    rw [hevent, if_neg hacts] at hd
    cases hd
  · intro hacts
    rw [if_pos hacts] at hevent
    refine ⟨⟨_, by rw [hevent]⟩, ?_, ?_, ?_⟩
    · intro _ hno
      rw [hevent] at hno
      exact absurd List.mem_cons_self (hno _)
    · intro _
      simp [hevent]
    · intro htoggle
      rw [hevent, List.mem_singleton, Delivery.host.injEq] at htoggle
      rw [hevent]
      cases chord with
      | toggleMode => exact toggleMode_mode p
      | controlPlane => cases htoggle
      | nlSubmit => cases htoggle
      | escape => cases htoggle

theorem routed_plain (hclosed : p.paletteOpen = false) (hchord : classifyHostChord e = none) :
    Routed focused e p ↔ focused := by
  obtain ⟨hunfocused, d, hfocused, hplaced⟩ := onEvent_plain hclosed hchord
  cases focused with
  | false =>
    refine ⟨fun h ↦ ?_, fun h ↦ by cases h⟩
    obtain ⟨d, hd⟩ := h.once
    rw [hunfocused] at hd
    cases hd
  | true =>
    refine ⟨fun _ ↦ rfl, fun _ ↦ ⟨⟨d, by rw [hfocused]⟩, ?_, ?_, ?_⟩⟩
    · intro hmode hno
      rw [hfocused] at hno ⊢
      have hd : d = .guest e :=
        hplaced.guest hmode fun a ha ↦ hno a (List.mem_singleton.mpr ha.symm)
      exact List.mem_singleton.mpr hd.symm
    · intro hmoved
      rw [hfocused] at hmoved
      exact absurd rfl hmoved
    · intro htoggle
      rw [hfocused] at htoggle
      exact absurd (List.mem_singleton.mp htoggle).symm hplaced.no_toggle

theorem pressRouted_iff (m : Move) (p : Page) : PressRouted m p ↔ PressClear m p := by
  cases m with
  | key focused e =>
    unfold PressRouted PressClear
    apply imp_congr_right
    intro _
    apply imp_congr_right
    intro hclosed
    cases hchord : classifyHostChord e with
    | some chord => exact routed_chord hclosed hchord
    | none => exact routed_plain hclosed hchord
  | closePalette => exact Iff.rfl
  | edit text => exact Iff.rfl
  | refresh liveFrame => exact Iff.rfl

/-- The keys of a run are routed exactly if each of them is acted on as a chord or comes to the
shell as no chord: a chord that waits for the other mode is lost. -/
theorem presses_routed_iff (moves : List Move) (p : Page) :
    Run.Along step PressRouted moves p ↔ Run.Along step PressClear moves p :=
  Run.along_congr (I := fun _ ↦ True) (fun _ _ _ _ ↦ trivial) (fun m p _ ↦ pressRouted_iff m p)
    trivial

/-- Escape in terminal mode. -/
theorem escape_lost : ¬∀ moves p, Run.Along step PressRouted moves p := by
  intro h
  have hrun := h [.key true { type := .keyDown, logicalKey := .escape }] ⟨{}, [], none⟩
  have hrouted := hrun.1 rfl rfl
  obtain ⟨d, hd⟩ := hrouted.once
  cases hd

end MachineNotebook.Notebook.KeyRouting
