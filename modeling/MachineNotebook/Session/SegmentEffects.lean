import MachineNotebook.Session.Lifecycle
import MachineNotebook.Session.Segments

namespace MachineNotebook.Session.SegmentEffects

open MachineNotebook.Lib MachineNotebook.Lib.Utf8 BootFilter Segments
open Loop (LiveSession GhosttyTerm TickAwait VtChromeEvent)
open Lifecycle (Field Effect Segment TickReply thenGo)

variable {T : Type} {lib : GhosttyTerm T} {vt : ℕ} {s s₁ s' : LiveSession T}
  {effects : List Effect} {segment : Segment} {q : TickReply}

/-- A field as a session with its data has it. Images and errors are not part of that session. -/
def FieldKept : Field → LiveSession T → LiveSession T → Prop
  | .lastTick, s, s' => s'.lastTick = s.lastTick
  | .atPrompt, s, s' => s'.atPrompt = s.atPrompt
  | .shellReady, s, s' => s'.shellReady = s.shellReady
  | .bootLineCarry, s, s' => s'.bootLineCarry = s.bootLineCarry
  | .frame, s, s' => s'.frame = s.frame
  | .imageLayers, _, _ => True
  | .lastError, _, _ => True

/-- The tick goes on to the await of the segment, and what it leaves out of its effects is left as it
was. -/
structure Agrees (vt : ℕ) (s s' : LiveSession T) (segment : Segment) : Prop where
  ticks : s'.ticks = s.ticks ++ segment.2.toList
  field : ∀ f, .write f ∉ segment.1 → FieldKept f s s'
  term : .native vt ∉ segment.1 → s'.vt.term = s.vt.term

theorem FieldKept.refl (f : Field) (s : LiveSession T) : FieldKept f s s := by
  cases f <;> trivial

theorem FieldKept.trans {f : Field} (h : FieldKept f s s₁) (h' : FieldKept f s₁ s') :
    FieldKept f s s' := by
  cases f with
  | imageLayers => trivial
  | lastError => trivial
  | _ => exact Eq.trans h' h

theorem Agrees.refl (s : LiveSession T) : Agrees vt s s ([], none) where
  ticks := (List.append_nil _).symm
  field f _ := .refl f s
  term _ := rfl

theorem Agrees.mono (h : Agrees vt s s' segment) {effects' : List Effect}
    (hsub : segment.1 ⊆ effects') : Agrees vt s s' (effects', segment.2) where
  ticks := h.ticks
  field f hf := h.field f fun hmem ↦ hf (hsub hmem)
  term ht := h.term fun hmem ↦ ht (hsub hmem)

theorem Agrees.andThen (h : Agrees vt s s₁ (effects, none)) (h' : Agrees vt s₁ s' segment) :
    Agrees vt s s' (thenGo effects segment) where
  ticks := by
    rw [h'.ticks, h.ticks]
    simp [thenGo]
  field f hf := by
    simp only [thenGo, List.mem_append, not_or] at hf
    exact (h.field f hf.1).trans (h'.field f hf.2)
  term ht := by
    simp only [thenGo, List.mem_append, not_or] at ht
    exact (h'.term ht.2).trans (h.term ht.1)

theorem Agrees.both (h : Agrees vt s s₁ (effects, none)) (h' : Agrees vt s₁ s' (effects, none)) :
    Agrees vt s s' (effects, none) where
  ticks := by
    rw [h'.ticks, h.ticks]
    simp
  field f hf := (h.field f hf).trans (h'.field f hf)
  term ht := (h'.term ht).trans (h.term ht)

theorem agrees_of_same (hticks : s'.ticks = s.ticks) (hfields : ∀ f, FieldKept f s s')
    (hterm : s'.vt.term = s.vt.term) : Agrees vt s s' (effects, none) where
  ticks := by rw [hticks, Option.toList_none, List.append_nil]
  field f _ := hfields f
  term _ := hterm

section Tail

theorem agrees_endTick (effects : List Effect) (s : LiveSession T) :
    Agrees vt s (Loop.endTick s) (effects, none) :=
  agrees_of_same rfl (fun f ↦ by cases f <;> trivial) rfl

theorem agrees_awaits (effects : List Effect) (call : TickAwait) (s : LiveSession T) :
    Agrees vt s (Loop.awaits call s) (effects, some call) where
  ticks := rfl
  field f _ := by cases f <;> trivial
  term _ := rfl

theorem Agrees.ends (h : Agrees vt s s₁ (effects, none)) :
    Agrees vt s (Loop.endTick s₁) (effects, none) :=
  h.both (agrees_endTick effects s₁)

theorem Agrees.awaits (h : Agrees vt s s₁ (effects, none)) (call : TickAwait) :
    Agrees vt s (Loop.awaits call s₁) (effects, some call) := by
  have hgo := h.andThen (agrees_awaits [] call s₁)
  rw [thenGo, List.append_nil] at hgo
  exact hgo

theorem agrees_showFrame {r : Loop.Reply} (hclosed : s.closed = false)
    (hsnapshot : q.snapshot = r.snapshot) (chromeDirty : Bool) :
    Agrees vt s (Loop.showFrame lib r s) (Lifecycle.showFrame vt q chromeDirty) := by
  unfold Loop.showFrame Lifecycle.showFrame
  rw [hclosed, hsnapshot, if_neg Bool.false_ne_true]
  cases r.snapshot with
  | false => exact agrees_endTick _ s
  | true =>
    refine ⟨rfl, fun f hf ↦ ?_, fun _ ↦ rfl⟩
    cases f with
    | frame => exact absurd (List.mem_append_right _ (by simp)) hf
    | _ => trivial

theorem agrees_chromeEvents {r : Loop.Reply} (hclosed : s.closed = false)
    (hsnapshot : q.snapshot = r.snapshot) (chromeDirty : Bool) (events : List VtChromeEvent) :
    Agrees vt s (Loop.chromeEvents lib r events s)
      (Lifecycle.chromeEvents vt q chromeDirty events) := by
  induction events generalizing chromeDirty with
  | nil => exact agrees_showFrame hclosed hsnapshot chromeDirty
  | cons event rest ih =>
    cases event with
    | clipboardWrite => exact agrees_awaits _ _ s
    | _ => exact ih true

theorem agrees_queues {ptyOut : List Bytes} {chrome : List VtChromeEvent}
    (h : Agrees vt { s with vt := { s.vt with ptyOut, chrome } } s' segment) :
    Agrees vt s s' segment where
  ticks := h.ticks
  field f hf := by
    have hkept := h.field f hf
    cases f with
    | imageLayers => trivial
    | lastError => trivial
    | _ => exact hkept
  term := h.term

theorem agrees_takeChromeEvents {r : Loop.Reply} (hsnapshot : q.snapshot = r.snapshot)
    (hchrome : q.chrome = s.vt.chrome) :
    Agrees vt s (Loop.takeChromeEvents lib r s) (Lifecycle.takeChromeEvents vt s.closed q) := by
  unfold Loop.takeChromeEvents Lifecycle.takeChromeEvents
  by_cases hclosed : s.closed = true
  · rw [if_pos hclosed, if_pos hclosed]
    exact agrees_endTick _ s
  · rw [if_neg hclosed, if_neg hclosed, hchrome]
    let taken := { s with vt := { s.vt with chrome := [] } }
    have hopen : taken.closed = false := by simpa using hclosed
    have hrest : Agrees vt taken (Loop.chromeEvents lib r s.vt.chrome taken)
        (Lifecycle.chromeEvents vt q false s.vt.chrome) :=
      agrees_chromeEvents hopen hsnapshot false s.vt.chrome
    exact agrees_queues hrest

theorem agrees_replyPty {r : Loop.Reply} (vm : ℕ) (hsnapshot : q.snapshot = r.snapshot)
    (hpty : q.pty = s.vt.ptyOut.flatten) (hchrome : q.chrome = s.vt.chrome) :
    Agrees vt s (Loop.replyPty lib r s) (Lifecycle.replyPty vt vm s.closed q) := by
  unfold Loop.replyPty Lifecycle.replyPty
  rw [hpty]
  dsimp only
  split
  · exact agrees_queues (agrees_takeChromeEvents hsnapshot hchrome)
  · exact agrees_queues (agrees_awaits _ _ _)

end Tail

section Output

variable {carry : List Char} {data : Bytes}

theorem agrees_paint (hcarry : carry ≠ s.bootLineCarry → .write .bootLineCarry ∈ effects)
    (hdata : data ≠ [] → .native vt ∈ effects) :
    Agrees vt s (Loop.paint lib data { s with bootLineCarry := carry }) (effects, none) := by
  have hheld (f : Field) (hf : .write f ∉ effects) :
      FieldKept f s { s with bootLineCarry := carry } := by
    cases f with
    | bootLineCarry =>
      by_contra hne
      exact hf (hcarry hne)
    | _ => trivial
  unfold Loop.paint
  split
  · exact ⟨(List.append_nil _).symm, hheld, fun _ ↦ rfl⟩
  · next hne =>
    refine ⟨(List.append_nil _).symm, fun f hf ↦ ?_, fun ht ↦ absurd (hdata hne) ht⟩
    have hkept := hheld f hf
    cases f with
    | bootLineCarry => exact hkept
    | _ => trivial

theorem agrees_showOutput {out : Bytes} (hout : q.output = out)
    (hcleaned : q.cleaned = (stripBootNoise s.bootLineCarry out).1) :
    Agrees vt s (Loop.showOutput lib out s) (Lifecycle.showOutput vt q, none) := by
  unfold Loop.showOutput Lifecycle.showOutput
  rw [hout]
  split
  · exact (Agrees.refl s).mono (List.nil_subset _)
  · dsimp only
    rw [← hcleaned]
    split
    · next hempty => exact agrees_paint (fun _ ↦ List.mem_cons_self) fun hne ↦ absurd hempty hne
    · exact agrees_paint (fun _ ↦ List.mem_cons_self)
        fun _ ↦ List.mem_cons_of_mem _ List.mem_cons_self

theorem agrees_flushed (hcarry : q.carry = encode s.bootLineCarry)
    (hflushed : q.flushed = (flushBootCarry s.bootLineCarry).1) :
    Agrees vt s
      (Loop.paint lib (flushBootCarry s.bootLineCarry).1 { s with bootLineCarry := [] })
      (Lifecycle.flushBootCarry vt q, none) := by
  unfold Lifecycle.flushBootCarry
  rw [hcarry]
  by_cases hempty : s.bootLineCarry = []
  · refine agrees_paint (fun hne ↦ absurd hempty.symm hne) fun hne ↦ ?_
    rw [hempty] at hne
    exact absurd rfl hne
  · rw [if_neg (mt encode_eq_nil.mp hempty)]
    refine agrees_paint (fun _ ↦ List.mem_cons_self) fun hne ↦ ?_
    rw [← hflushed] at hne
    rw [if_neg hne]
    exact List.mem_cons_of_mem _ List.mem_cons_self

theorem agrees_getReady
    (hready : q.ready = (!s.shellReady && (s.atPrompt || decide (100 ≤ s.readyTicks + 1))))
    (hcarry : q.carry = encode s.bootLineCarry)
    (hflushed : q.flushed = (flushBootCarry s.bootLineCarry).1) :
    Agrees vt s (Loop.getReady lib s) (Lifecycle.getReady vt q, none) := by
  have hfield (readyTicks : ℕ) (shellReady : Bool) (effects : List Effect)
      (heffects : shellReady ≠ s.shellReady → .write .shellReady ∈ effects) :
      Agrees vt s { s with readyTicks, shellReady } (effects, none) := by
    refine ⟨(List.append_nil _).symm, fun f hf ↦ ?_, fun _ ↦ rfl⟩
    cases f with
    | shellReady =>
      by_contra hne
      exact hf (heffects hne)
    | _ => trivial
  unfold Loop.getReady Lifecycle.getReady
  rw [hready]
  dsimp only
  split
  · have hset := hfield (s.readyTicks + 1) true [.write .shellReady] fun _ ↦ List.mem_cons_self
    let counted := { s with readyTicks := s.readyTicks + 1, shellReady := true }
    have hpaint : Agrees vt counted
        (Loop.paint lib (flushBootCarry s.bootLineCarry).1 { counted with bootLineCarry := [] })
        (Lifecycle.flushBootCarry vt q, none) := agrees_flushed hcarry hflushed
    exact (hset.mono (List.subset_append_right _ _)).both
      (hpaint.mono (List.subset_append_left _ _))
  · exact hfield _ _ _ fun hne ↦ absurd rfl hne

end Output

section Observation

/-- The session once the segment after `takeOutput` has shown the output. -/
def shown (lib : GhosttyTerm T) (r : Loop.Reply) (s : LiveSession T) : LiveSession T :=
  Loop.showOutput lib (if r.ok then s.output.take Loop.capacity else [])
    { s with output := if r.ok then s.output.drop Loop.capacity else s.output }

def observe (lib : GhosttyTerm T) (r : Loop.Reply) (call : TickAwait) (s : LiveSession T) :
    TickReply :=
  let shown := shown lib r s
  let queued := if call = .takeOutput then (Loop.getReady lib shown).vt else s.vt
  { returns := r.ok
    exited := decide (r.state = .exited)
    output := if r.ok then s.output.take Loop.capacity else []
    cleaned := (stripBootNoise s.bootLineCarry (s.output.take Loop.capacity)).1
    ready := !shown.shellReady && (shown.atPrompt || decide (100 ≤ shown.readyTicks + 1))
    carry := encode shown.bootLineCarry
    flushed := (flushBootCarry shown.bootLineCarry).1
    pty := queued.ptyOut.flatten
    chrome := queued.chrome
    snapshot := r.snapshot }

theorem agrees_shown (r : Loop.Reply) (call : TickAwait) (s : LiveSession T) :
    Agrees vt s (shown lib r s)
      (if r.ok then Lifecycle.showOutput vt (observe lib r call s) else [.write .lastError], none) := by
  have htaken (output : Bytes) (effects : List Effect) :
      Agrees vt s { s with output } (effects, none) :=
    agrees_of_same rfl (fun f ↦ by cases f <;> trivial) rfl
  unfold shown
  cases hok : r.ok with
  | false => exact htaken s.output _
  | true =>
    have hout : (observe lib r call s).output = s.output.take Loop.capacity := by
      simp only [observe, hok, if_true]
    exact (htaken _ _).both (agrees_showOutput hout rfl)

theorem closed_shown (r : Loop.Reply) (s : LiveSession T) : (shown lib r s).closed = s.closed :=
  (kept_showOutput _ _).closed

theorem agrees_takeOutput (vm : ℕ) (r : Loop.Reply) (hclosed : ¬s.closed = true) :
    Agrees vt s (Loop.resumeTick lib r .takeOutput s)
      (Lifecycle.resumeSegment vt vm s.closed (observe lib r .takeOutput s) .takeOutput) := by
  let q := observe lib r .takeOutput s
  let ready := Loop.getReady lib (shown lib r s)
  have hready : Agrees vt (shown lib r s) ready (Lifecycle.getReady vt q, none) :=
    agrees_getReady rfl rfl rfl
  have hpty : Agrees vt ready (Loop.replyPty lib r ready)
      (Lifecycle.replyPty vt vm ready.closed q) := agrees_replyPty vm rfl rfl rfl
  have hkept : ready.closed = s.closed :=
    (kept_getReady (shown lib r s)).closed.trans (closed_shown r s)
  rw [hkept] at hpty
  simp only [Loop.resumeTick, Lifecycle.resumeSegment, if_neg hclosed]
  exact (agrees_shown r .takeOutput s).andThen (hready.andThen hpty)

theorem agrees_sendInput (vm : ℕ) (r : Loop.Reply) (pending : Bytes) (s : LiveSession T) :
    Agrees vt s (Loop.resumeTick lib r (.sendInput pending) s)
      (Lifecycle.resumeSegment vt vm s.closed (observe lib r (.sendInput pending) s)
        (.sendInput pending)) := by
  have hsent (effects : List Effect) :
      Agrees vt s { s with sent := s.sent ++ pending } (effects, none) :=
    agrees_of_same rfl (fun f ↦ by cases f <;> trivial) rfl
  have hreturns : (observe lib r (.sendInput pending) s).returns = r.ok := rfl
  simp only [Loop.resumeTick, Lifecycle.resumeSegment, hreturns]
  cases r.ok with
  | false => exact agrees_endTick [] s
  | true =>
    rw [Bool.not_true, Bool.false_or]
    by_cases hclosed : s.closed = true
    · rw [if_neg Bool.false_ne_true, if_pos hclosed, if_pos hclosed]
      exact (hsent []).ends
    · rw [if_neg Bool.false_ne_true, if_neg hclosed, if_neg hclosed]
      exact (hsent [.native vm]).awaits .tickN

theorem agrees_tickN (vm : ℕ) (r : Loop.Reply) (s : LiveSession T) :
    Agrees vt s (Loop.resumeTick lib r .tickN s)
      (Lifecycle.resumeSegment vt vm s.closed (observe lib r .tickN s) .tickN) := by
  have hwrote (effects : List Effect) : Agrees vt s { s with
      output := s.output ++ r.wrote, guestWrote := s.guestWrote ++ r.wrote } (effects, none) :=
    agrees_of_same rfl (fun f ↦ by cases f <;> trivial) rfl
  have hlast (loop : Bool) (effects : List Effect) : Agrees vt s { s with
      output := s.output ++ r.wrote
      guestWrote := s.guestWrote ++ r.wrote
      lastTick := some r.state
      loop } (.write .lastTick :: effects, none) := by
    refine ⟨(List.append_nil _).symm, fun f hf ↦ ?_, fun _ ↦ rfl⟩
    cases f with
    | lastTick => exact absurd List.mem_cons_self hf
    | _ => trivial
  have hreturns : (observe lib r .tickN s).returns = r.ok := rfl
  simp only [Loop.resumeTick, Lifecycle.resumeSegment, hreturns]
  cases r.ok with
  | false => exact (hwrote _).ends
  | true =>
    by_cases hclosed : s.closed = true
    · rw [if_pos hclosed, if_pos hclosed]
      exact (hlast s.loop []).ends
    · rw [if_neg hclosed, if_neg hclosed]
      by_cases hexit : r.state = .exited
      · rw [if_pos hexit]
        exact (hlast false [.native vm]).awaits .status
      · rw [if_neg hexit]
        exact (hlast s.loop [.native vm]).awaits .status

theorem agrees_status (vm : ℕ) (r : Loop.Reply) (s : LiveSession T) :
    Agrees vt s (Loop.resumeTick lib r .status s)
      (Lifecycle.resumeSegment vt vm s.closed (observe lib r .status s) .status) := by
  have hprompt (effects : List Effect) :
      Agrees vt s { s with atPrompt := r.atPrompt } (.write .atPrompt :: effects, none) := by
    refine ⟨(List.append_nil _).symm, fun f hf ↦ ?_, fun _ ↦ rfl⟩
    cases f with
    | atPrompt => exact absurd List.mem_cons_self hf
    | _ => trivial
  have hreturns : (observe lib r .status s).returns = r.ok := rfl
  simp only [Loop.resumeTick, Lifecycle.resumeSegment, hreturns]
  by_cases hclosed : s.closed = true
  · rw [if_pos hclosed, if_pos hclosed]
    exact agrees_endTick [] s
  · rw [if_neg hclosed, if_neg hclosed]
    cases r.ok with
    | false => exact agrees_awaits _ _ s
    | true => exact (hprompt _).awaits .takeOutput

/-- A segment of a tick in a session with its data does what the segment without the data does when
it meets the same. -/
theorem resumeTick_agrees (vm : ℕ) (r : Loop.Reply) (call : TickAwait) (s : LiveSession T) :
    Agrees vt s (Loop.resumeTick lib r call s)
      (Lifecycle.resumeSegment vt vm s.closed (observe lib r call s) call) := by
  have hnothing (effects : List Effect) : Agrees vt s s (effects, none) :=
    (Agrees.refl s).mono (List.nil_subset effects)
  cases call with
  | sendInput pending => exact agrees_sendInput vm r pending s
  | tickN => exact agrees_tickN vm r s
  | status => exact agrees_status vm r s
  | takeOutput =>
    by_cases hclosed : s.closed = true
    · have htaken : Agrees vt s { s with
          output := if r.ok then s.output.drop Loop.capacity else s.output } ([], none) :=
        agrees_of_same rfl (fun f ↦ by cases f <;> trivial) rfl
      simp only [Loop.resumeTick, Lifecycle.resumeSegment, if_pos hclosed]
      exact htaken.ends
    · exact agrees_takeOutput vm r hclosed
  | ptyReply =>
    simp only [Loop.resumeTick, Lifecycle.resumeSegment]
    by_cases hclosed : s.closed = true
    · rw [Loop.takeChromeEvents, if_pos hclosed, if_pos hclosed]
      exact agrees_endTick [] s
    · rw [if_neg hclosed]
      exact (hnothing _).andThen (agrees_takeChromeEvents rfl rfl)
  | clipboard rest =>
    simp only [Loop.resumeTick, Lifecycle.resumeSegment]
    by_cases hclosed : s.closed = true
    · rw [if_pos hclosed, if_pos hclosed]
      exact agrees_endTick [] s
    · rw [if_neg hclosed, if_neg hclosed]
      have hopen : s.closed = false := by simpa using hclosed
      exact (hnothing _).andThen (agrees_chromeEvents hopen rfl true rest)
  | syncImages => exact agrees_endTick _ s

end Observation

end MachineNotebook.Session.SegmentEffects
