import MachineNotebook.Notebook.BarePrompt
import MachineNotebook.Session.Segments

namespace MachineNotebook.Session.QuietToggles

open MachineNotebook.Lib MachineNotebook.Lib.Utf8 Run Loop Segments Vt.Frame
open Vt.Newlines (normalizeNewlines)
open Notebook.Document Notebook.Controller Notebook.FreezePolicy Notebook.BarePrompt

variable {T : Type} {lib : GhosttyTerm T} {primary : T → Prop} {scrollback : T → ℕ}
variable {s s₁ s' : LiveSession T}

/-- What the session relies on of libghostty-vt. `primary` says whether a terminal shows its primary
screen, `scrollback` how many rows lie above its viewport. -/
structure Promises (lib : GhosttyTerm T) (primary : T → Prop) (scrollback : T → ℕ) : Prop where
  erases (t : T) : primary t →
    let t' := (lib.vtWrite (toUtf8 eraseScreen) t).1
    Blank (lib.view t') ∧ scrollback t' = 0
  prompts (t : T) : primary t →
    let t' := lib.scrollViewport .bottom (lib.vtWrite (toUtf8 eraseScreen) t).1
    PromptOnly (lib.view (lib.vtWrite (toUtf8 prompt) t').1) ∧
      scrollback (lib.vtWrite (toUtf8 prompt) t').1 = 0
  scrolls (behavior : ScrollViewport) (t : T) : scrollback t = 0 →
    (lib.view (lib.scrollViewport behavior t)).cells = (lib.view t).cells ∧
      scrollback (lib.scrollViewport behavior t) = 0
  resizes (cols rows : ℕ) (t : T) : 2 ≤ cols → 1 ≤ rows → scrollback t = 0 →
    Bare (lib.view t) →
      Bare (lib.view (lib.resize cols rows t).1) ∧ scrollback (lib.resize cols rows t).1 = 0

def Mild : LoopOp → Prop
  | .resize cols _ _ _ => 2 ≤ cols
  | .onPointer _ _ => False
  | _ => True

def Quiet (lib : GhosttyTerm T) (op : LoopOp) (s : LiveSession T) : Prop :=
  Mild op ∧ (runOp lib op s).painted = s.painted

instance : ∀ op : LoopOp, Decidable (Mild op)
  | .resize cols _ _ _ => Nat.decLe 2 cols
  | .onPointer _ _ => isFalse id
  | .timer | .resume _ _ | .onKey _ | .onFocus _ | .onPaste _ | .onScroll _ _ | .toggleMode _ _
  | .submitUserMessage _ | .setPaletteOpen _ | .disposeAsync | .dispose => isTrue trivial

instance (op : LoopOp) (s : LiveSession T) : Decidable (Quiet lib op s) :=
  inferInstanceAs (Decidable (_ ∧ _))

def freezes (c : NotebookController) : List NotebookCell :=
  c.timeline.filter fun cell ↦
    match cell with
    | .terminalFreeze _ _ => true
    | _ => false

/-- The terminal and the frame show nothing, or a prompt that the session has painted. -/
structure BareSurface (lib : GhosttyTerm T) (scrollback : T → ℕ) (s : LiveSession T) : Prop where
  frame : Bare s.frame
  term : Bare (lib.view s.vt.term)
  scrollback : scrollback s.vt.term = 0

/-- Unless it writes bytes of the guest, a step leaves a bare surface bare. -/
structure Calm (lib : GhosttyTerm T) (scrollback : T → ℕ) (s s' : LiveSession T) : Prop where
  grows : s.painted <+: s'.painted
  bare : s'.painted = s.painted → BareSurface lib scrollback s → BareSurface lib scrollback s'

theorem Calm.refl (s : LiveSession T) : Calm lib scrollback s s :=
  ⟨List.prefix_rfl, fun _ hs ↦ hs⟩

theorem Calm.trans (h : Calm lib scrollback s s₁) (h' : Calm lib scrollback s₁ s') :
    Calm lib scrollback s s' := by
  refine ⟨h.grows.trans h'.grows, fun hsame hs ↦ ?_⟩
  have hlen : s₁.painted.length ≤ s.painted.length := hsame ▸ h'.grows.length_le
  have hfirst : s.painted = s₁.painted := h.grows.eq_of_length_le hlen
  exact h'.bare (hsame.trans hfirst) (h.bare hfirst.symm hs)

section Calm

theorem calm_of_eq (hpainted : s'.painted = s.painted) (hframe : s'.frame = s.frame)
    (hterm : s'.vt.term = s.vt.term) : Calm lib scrollback s s' := by
  refine ⟨hpainted ▸ List.prefix_rfl, fun _ hs ↦ ⟨hframe ▸ hs.frame, ?_, ?_⟩⟩
  · rw [hterm]
    exact hs.term
  · rw [hterm]
    exact hs.scrollback

theorem calm_takeFrame (snapshot : Bool) (s : LiveSession T) :
    Calm lib scrollback s (takeFrame lib snapshot s) := by
  cases snapshot with
  | false => exact .refl s
  | true => exact ⟨List.prefix_rfl, fun _ hs ↦ ⟨hs.term, hs.term, hs.scrollback⟩⟩

theorem calm_paint (data : Bytes) (s : LiveSession T) :
    Calm lib scrollback s (paint lib data s) := by
  unfold paint
  split
  · exact .refl s
  · refine ⟨List.prefix_append _ _, fun hsame ↦ ?_⟩
    have hnone := congrArg List.length hsame
    simp at hnone

theorem calm_displays : Displays lib (Calm lib scrollback) where
  same h := calm_of_eq h.painted h.frame h.term
  trans := Calm.trans
  paint := calm_paint
  takeFrame := calm_takeFrame

theorem calm_onScroll (hterm : Promises lib primary scrollback) (delta : ℤ) (snapshot : Bool)
    (s : LiveSession T) : Calm lib scrollback s (onScroll lib delta snapshot s) := by
  unfold onScroll
  split
  · exact .refl s
  · have hscrolled : Calm lib scrollback s
        (changeTerminal (·.scrollViewport lib (.delta delta)) s) := by
      refine ⟨List.prefix_rfl, fun _ hs ↦ ?_⟩
      obtain ⟨hcells, hnone⟩ := hterm.scrolls (.delta delta) s.vt.term hs.scrollback
      exact ⟨hs.frame, hs.term.of_cells hcells, hnone⟩
    exact hscrolled.trans (calm_takeFrame snapshot _)

theorem calm_resize (hterm : Promises lib primary scrollback) {cols : ℕ} (hcols : 2 ≤ cols)
    (rows : ℕ) (resized snapshot : Bool) (s : LiveSession T) :
    Calm lib scrollback s (resize lib cols rows resized snapshot s) := by
  unfold resize
  split
  · exact .refl s
  · next h =>
    have hrows : 1 ≤ rows := by
      by_contra hno
      exact h (Or.inr (Or.inr (Or.inl (Nat.lt_of_not_le hno))))
    have hresized : Calm lib scrollback s
        (changeTerminal (fun vt ↦ vt.enqueue (lib.resize cols rows vt.term)) s) := by
      refine ⟨List.prefix_rfl, fun _ hs ↦ ?_⟩
      obtain ⟨hbare, hnone⟩ := hterm.resizes cols rows s.vt.term hcols hrows hs.scrollback hs.term
      exact ⟨hs.frame, hbare, hnone⟩
    exact hresized.trans (calm_takeFrame snapshot _)

end Calm

section Toggle

theorem enterAsk_bare (hs : Bare s.frame) : (s.notebook.enterAsk (liveFrame s)).1 = false := by
  by_contra hfroze
  obtain ⟨live, hlive, hworth⟩ := enterAsk_froze (Bool.not_eq_false _ ▸ hfroze)
  unfold liveFrame at hlive
  split at hlive
  · obtain rfl := Option.some.inj hlive
    exact hs.not_worth hworth
  · cases hlive

theorem bare_toggleMode (encoded : Option Bytes) (snapshot : Bool)
    (hs : BareSurface lib scrollback s) :
    BareSurface lib scrollback (toggleMode lib encoded snapshot s) := by
  have hkept (notebook : NotebookController) : BareSurface lib scrollback { s with notebook } :=
    ⟨hs.frame, hs.term, hs.scrollback⟩
  have hfocus (notebook : NotebookController) :
      BareSurface lib scrollback (onFocus encoded { s with notebook }) :=
    (calm_displays.onEncoded encoded _).bare (handled_onEncoded encoded _).painted (hkept notebook)
  unfold toggleMode
  split
  · unfold enterAsk
    dsimp only
    rw [enterAsk_bare hs.frame]
    exact hfocus _
  · exact hfocus _

theorem freezes_notebookStep {op : NotebookOp} {c : NotebookController}
    (h : ∀ live, op = .enterAsk (some live) → isWorthFreezing live ≠ some true) :
    freezes (notebookStep op c).2 = freezes c := by
  unfold freezes
  cases appended_step op c with
  | nothing _ ht _ _ => rw [ht]
  | @freeze live _ hop _ hworth _ _ _ _ _ => exact absurd hworth (h live hop)
  | message _ _ hcells _ ht _ _ =>
    rw [ht, hcells, List.filter_append]
    exact List.append_nil _

theorem freezes_runOp (hs : Bare s.frame) (op : LoopOp) :
    freezes (runOp lib op s).notebook = freezes s.notebook := by
  rw [notebook_runOp]
  split
  · rfl
  · next nop hnop =>
    apply freezes_notebookStep
    intro live hlive
    subst hlive
    cases op with
    | toggleMode encoded snapshot =>
      obtain hnop := Option.some.inj hnop
      split at hnop
      · have hframe : liveFrame s = some live := NotebookOp.enterAsk.inj hnop
        unfold liveFrame at hframe
        split at hframe
        · obtain rfl := Option.some.inj hframe
          exact hs.not_worth
        · cases hframe
      · cases hnop
    | submitUserMessage text => cases hnop
    | setPaletteOpen isOpen => cases hnop
    | _ => cases hnop

theorem bare_step (hterm : Promises lib primary scrollback) (op : LoopOp) (s : LiveSession T)
    (hquiet : Quiet lib op s) (hs : BareSurface lib scrollback s) :
    BareSurface lib scrollback (runOp lib op s) := by
  obtain ⟨hmild, hpainted⟩ := hquiet
  have hcalm (h : Calm lib scrollback s (runOp lib op s)) :
      BareSurface lib scrollback (runOp lib op s) := h.bare hpainted hs
  cases op with
  | timer =>
    apply hcalm
    rcases runOp_timer s with h | h
    · rw [h]
      exact .refl s
    · rw [h]
      exact calm_displays.tickOnce s
  | resume i r =>
    apply hcalm
    simp only [runOp]
    split
    · exact .refl s
    · next call _ =>
      have htaken : Calm lib scrollback s { s with ticks := s.ticks.eraseIdx i } :=
        calm_of_eq rfl rfl rfl
      exact htaken.trans (calm_displays.resumeTick r call _)
  | onKey encoded => exact hcalm (calm_displays.onEncoded encoded s)
  | onFocus encoded => exact hcalm (calm_displays.onEncoded encoded s)
  | onPaste encoded => exact hcalm (calm_displays.onEncoded encoded s)
  | onScroll delta snapshot => exact hcalm (calm_onScroll hterm delta snapshot s)
  | resize cols rows resized snapshot =>
    exact hcalm (calm_resize hterm hmild rows resized snapshot s)
  | onPointer event snapshot => exact absurd hmild id
  | toggleMode encoded snapshot => exact bare_toggleMode encoded snapshot hs
  | submitUserMessage text => exact hcalm (calm_of_eq rfl rfl rfl)
  | setPaletteOpen isOpen => exact hcalm (calm_of_eq rfl rfl rfl)
  | disposeAsync => exact hcalm (calm_of_eq rfl rfl rfl)
  | dispose => exact hcalm (calm_of_eq rfl rfl rfl)

end Toggle

section Freeze

theorem surface_term (lib : GhosttyTerm T) (atPrompt : Bool) (vt : VtTerminal T) :
    (surface lib atPrompt vt).term =
      let t := lib.scrollViewport .bottom (lib.vtWrite (toUtf8 eraseScreen) vt.term).1
      if atPrompt then (lib.vtWrite (toUtf8 prompt) t).1 else t := by
  have herase : normalizeNewlines (toUtf8 eraseScreen) = toUtf8 eraseScreen ∧
      toUtf8 eraseScreen ≠ [] := by decide
  have hprompt : normalizeNewlines (toUtf8 prompt) = toUtf8 prompt ∧ toUtf8 prompt ≠ [] := by
    decide
  simp only [surface, VtTerminal.writeText, VtTerminal.write, herase, hprompt, if_false]
  cases atPrompt with
  | false => rfl
  | true => rfl

theorem bare_surface (hterm : Promises lib primary scrollback) (atPrompt : Bool)
    {vt : VtTerminal T} (hprimary : primary vt.term) :
    Bare (lib.view (surface lib atPrompt vt).term) ∧
      scrollback (surface lib atPrompt vt).term = 0 := by
  rw [surface_term]
  cases atPrompt with
  | false =>
    obtain ⟨hblank, hnone⟩ := hterm.erases vt.term hprimary
    obtain ⟨hcells, hnone'⟩ := hterm.scrolls .bottom _ hnone
    have hbare : Bare (lib.view (lib.vtWrite (toUtf8 eraseScreen) vt.term).1) := Or.inl hblank
    exact ⟨hbare.of_cells hcells, hnone'⟩
  | true =>
    obtain ⟨honly, hnone⟩ := hterm.prompts vt.term hprimary
    exact ⟨Or.inr honly, hnone⟩

theorem bare_freeze (hterm : Promises lib primary scrollback) (encoded : Option Bytes)
    (hopen : s.closed = false) (hprimary : primary s.vt.term)
    (hfroze : freezes (runOp lib (.toggleMode encoded true) s).notebook ≠ freezes s.notebook) :
    BareSurface lib scrollback (runOp lib (.toggleMode encoded true) s) := by
  by_cases hm : s.notebook.mode = .terminal
  · have hrun : runOp lib (.toggleMode encoded true) s = enterAsk lib encoded true s := if_pos hm
    have hfrozen : (s.notebook.enterAsk (liveFrame s)).1 = true := by
      by_contra hno
      apply hfroze
      rw [hrun, notebook_enterAsk, freezes, enterAsk_kept (Bool.eq_false_iff.mpr hno), freezes]
    obtain ⟨hbare, hnone⟩ := bare_surface hterm s.atPrompt hprimary
    rw [hrun]
    unfold enterAsk
    dsimp only
    rw [hfrozen, if_pos rfl]
    refine (calm_displays.onEncoded encoded _).bare (handled_onEncoded encoded _).painted ?_
    rw [beginNewTerminalSurface_shown (by exact hopen)]
    exact ⟨hbare.of_cells rfl, hbare, hnone⟩
  · refine absurd ?_ hfroze
    rw [notebook_runOp]
    apply freezes_notebookStep
    intro live hlive
    rw [if_neg hm] at hlive
    cases hlive

end Freeze

/-- After a freeze of the primary screen, no toggles, messages, scrolls, resizes and ticks append
another freeze until bytes of the guest are written to the terminal. -/
theorem toggles_repeat_nothing (hterm : Promises lib primary scrollback) (term : T)
    (pre ops : List LoopOp) (encoded : Option Bytes) :
    let before := final (loopStep lib) pre (opened lib term)
    let frozen := runOp lib (.toggleMode encoded true) before
    before.closed = false → primary before.vt.term →
      freezes frozen.notebook ≠ freezes before.notebook →
      Along (loopStep lib) (Quiet lib) ops frozen →
      freezes (final (loopStep lib) ops frozen).notebook = freezes frozen.notebook := by
  intro before frozen hopen hprimary hfroze hquiet
  have hbare : BareSurface lib scrollback frozen := bare_freeze hterm encoded hopen hprimary hfroze
  refine (hquiet.invariant (I := fun s ↦ BareSurface lib scrollback s ∧
    freezes s.notebook = freezes frozen.notebook) (fun op s hop hs ↦ ?_) ⟨hbare, rfl⟩).2
  exact ⟨bare_step hterm op s hop hs.1, (freezes_runOp hs.1.frame op).trans hs.2⟩

def asciiCell (b : UInt8) : VtCell := { text := [b.toUInt16] }

def rowTerm : GhosttyTerm Bytes where
  vtWrite data row := (if data = toUtf8 eraseScreen then [] else row ++ data, {})
  scrollViewport _ row := row
  resize _ _ row := (row, {})
  onPointer _ _ := none
  view row := { cols := 8, rows := 1, background := ⟨0, 0, 0⟩, foreground := ⟨255, 255, 255⟩,
                cells := (row.map asciiCell ++ List.replicate 8 blankCell).take 8 }

theorem erased_rowTerm (row : Bytes) : (rowTerm.vtWrite (toUtf8 eraseScreen) row).1 = [] := by
  simp [rowTerm]

theorem promises_rowTerm : Promises rowTerm (fun _ ↦ True) (fun _ ↦ 0) where
  erases row _ := by
    rw [erased_rowTerm]
    unfold Blank
    decide
  prompts row _ := by
    rw [erased_rowTerm]
    exact ⟨⟨_, _, _, rfl, rfl, rfl, by decide⟩, rfl⟩
  scrolls _ _ _ := ⟨rfl, rfl⟩
  resizes _ _ _ _ _ _ h := ⟨h, rfl⟩

/-- Toggles to and fro with a message, a scroll and a tick between them. -/
def toAndFro : List LoopOp :=
  [.toggleMode none true, .timer, .resume 0 {}, .resume 0 { atPrompt := true },
    .toggleMode none true, .resume 0 {}, .submitUserMessage [0x68, 0x69], .toggleMode none true,
    .onScroll 1 true, .toggleMode none true]

theorem toggles_repeat_nothing_prompt :
    let frozen := runOp rowTerm (.toggleMode none true) (opened rowTerm [0x6C, 0x73])
    freezes (final (loopStep rowTerm) toAndFro frozen).notebook = freezes frozen.notebook :=
  toggles_repeat_nothing promises_rowTerm [0x6C, 0x73] [] toAndFro none rfl trivial (by decide)
    (by decide)

end MachineNotebook.Session.QuietToggles
