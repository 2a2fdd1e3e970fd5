import MachineNotebook.Session.Segments

namespace MachineNotebook.Session.InputOrder

open MachineNotebook.Lib MachineNotebook.Lib.Utf8 Run Loop Segments

variable {T : Type} {lib : GhosttyTerm T} {s s₁ s' : LiveSession T}

/-- The input that a tick has taken and that is being sent. -/
def inputInFlight : TickAwait → Bytes
  | .sendInput pending => pending
  | _ => []

/-- Whether a tick awaits `sendInput`, for input or for an answer of the terminal. -/
def isSend : TickAwait → Bool
  | .sendInput _ => true
  | .ptyReply => true
  | _ => false

/-- In an open session, what was enqueued is what was sent, what is being sent and what waits, in
this order, and one call of `sendInput` at most is in flight. -/
def InOrder (s : LiveSession T) : Prop :=
  s.closed = false →
    s.enqueued = s.sent ++ s.ticks.flatMap inputInFlight ++ s.pendingInput ∧
      s.ticks.countP isSend ≤ 1

/-- The tick's `sendInput` of the input throws while the session is open. -/
def LosesInput : LoopOp → LiveSession T → Prop
  | .resume i r, s =>
    r.ok = false ∧ s.closed = false ∧ ∃ pending, s.ticks[i]? = some (.sendInput pending)
  | _, _ => False

section Steps

theorem inOrder_kept (h : TickKept s s') (hs : InOrder s) : InOrder s' := by
  intro hopen
  rw [h.closed] at hopen
  rw [h.enqueued, h.sent, h.ticks, h.pendingInput]
  exact hs hopen

theorem inOrder_handled (h : Handled s s') (hs : InOrder s) : InOrder s' := by
  intro hopen
  rw [h.closed] at hopen
  obtain ⟨heq, hone⟩ := hs hopen
  obtain ⟨bytes, hpending, henqueued⟩ := h.input
  rw [hpending, henqueued, h.sent, h.ticks]
  refine ⟨?_, hone⟩
  rw [heq, List.append_assoc]

theorem inOrder_continues (h : Continues s s') (hnone : s.ticks = []) (hs : InOrder s) :
    InOrder s' := by
  cases h with
  | @ends s₁ hk =>
    have hs₁ : InOrder s₁ := inOrder_kept hk hs
    exact hs₁
  | @goesOn s₁ call hk hcall =>
    intro hopen
    have hnone₁ : s₁.ticks = [] := hk.ticks.trans hnone
    obtain ⟨heq, -⟩ := inOrder_kept hk hs hopen
    have hflight : inputInFlight call = [] := by
      cases call with
      | sendInput pending => exact absurd rfl (hcall pending)
      | _ => rfl
    have hticks : (awaits call s₁).ticks = [call] := by rw [awaits, hnone₁]; rfl
    rw [hticks]
    refine ⟨?_, List.countP_le_length⟩
    simpa [hnone₁, hflight, awaits] using heq

theorem oneSend (hs : OneTick s) : s.ticks.countP isSend ≤ 1 :=
  List.countP_le_length.trans hs.one

theorem inOrder_tickOnce (hs : OneTick s) (horder : InOrder s) : InOrder (tickOnce s) := by
  rcases tickOnce_cases s with hsame | ⟨hopen, hidle, hstart⟩
  · rw [hsame]
    exact horder
  · intro _
    obtain ⟨heq, -⟩ := horder hopen
    refine ⟨?_, oneSend (oneTick_tickOnce hs)⟩
    rcases hstart with ⟨-, h⟩ | ⟨-, h⟩
    · rw [h]
      simpa [awaits, hs.idle hidle, inputInFlight] using heq
    · rw [h]
      simpa [awaits, hs.idle hidle, inputInFlight] using heq

/-- With the tick's input taken out of `ticks`, what was enqueued is what was sent, that input and
what waits. -/
theorem InOrder.taken {call : TickAwait} (horder : InOrder s) (honly : s.ticks = [call])
    (hopen : s.closed = false) :
    s.enqueued = s.sent ++ inputInFlight call ++ s.pendingInput := by
  obtain ⟨heq, -⟩ := horder hopen
  simpa [honly] using heq

theorem inOrder_resume (hs : OneTick s) (horder : InOrder s) (i : ℕ) (r : Reply) :
    InOrder (runOp lib (.resume i r) s) ↔ ¬LosesInput (.resume i r) s := by
  rcases hs.resume_cases i r with ⟨hnone, h⟩ | ⟨call, hcall, honly, hbusy, h⟩
  · rw [h]
    refine iff_of_true horder fun ⟨_, _, pending, hpending⟩ ↦ ?_
    rw [hnone] at hpending
    cases hpending
  · rw [h]
    cases call with
    | sendInput pending =>
      have hne : pending ≠ [] := hs.sends pending (honly ▸ List.mem_singleton_self _)
      rcases resumeTick_sendInput r pending { s with ticks := [] } with ⟨hok, h⟩ | ⟨hok, h⟩
      · -- the bytes of the call are neither sent nor pending any more
        rw [h]
        constructor
        · rintro horder' ⟨-, hopen, -⟩
          obtain ⟨heq, -⟩ := horder' hopen
          have hbefore := horder.taken honly hopen
          have heq : s.enqueued = s.sent ++ [] ++ s.pendingInput := heq
          rw [hbefore, List.append_nil, List.append_assoc, List.append_cancel_left_eq] at heq
          exact hne (List.append_left_eq_self.mp heq)
        · intro hkept hopen
          exact absurd ⟨hok, hopen, pending, hcall⟩ hkept
      · refine iff_of_true (inOrder_continues h rfl fun hopen ↦ ⟨?_, Nat.zero_le 1⟩) ?_
        · simpa [inputInFlight] using horder.taken honly hopen
        · intro hboth
          obtain ⟨hfails, -⟩ := hboth
          rw [hok] at hfails
          cases hfails
    | _ =>
      refine iff_of_true (inOrder_continues (continues_resumeTick ?_ _) rfl fun hopen ↦ ?_) ?_
      · intro pending h
        cases h
      · exact ⟨by simpa [inputInFlight] using horder.taken honly hopen, Nat.zero_le 1⟩
      · intro hgiven
        obtain ⟨-, -, pending, hpending⟩ := hgiven
        rw [hcall] at hpending
        cases hpending

theorem inOrder_step (op : LoopOp) (s : LiveSession T) (hs : OneTick s) (horder : InOrder s) :
    InOrder (runOp lib op s) ↔ ¬LosesInput op s := by
  cases op with
  | timer =>
    refine iff_of_true ?_ id
    rcases runOp_timer s with h | h
    · rw [h]
      exact horder
    · rw [h]
      exact inOrder_tickOnce hs horder
  | resume i r => exact inOrder_resume hs horder i r
  | disposeAsync => exact iff_of_true nofun id
  | dispose => exact iff_of_true nofun id
  | _ => exact iff_of_true (inOrder_handled (handled_handler rfl s) horder) id

end Steps

theorem inOrder_opened (term : T) : InOrder (opened lib term) := fun _ ↦ ⟨rfl, Nat.zero_le 1⟩

/-- The input of an open session stays in order all through a run exactly when no `sendInput` of
input throws. -/
theorem input_in_order_iff (lib : GhosttyTerm T) (term : T) (ops : List LoopOp) :
    (∀ pre, pre <+: ops → InOrder (final (loopStep lib) pre (opened lib term))) ↔
      Along (loopStep lib) (fun op s ↦ ¬LosesInput op s) ops (opened lib term) :=
  along_iff_prefixes (fun op s hs ↦ oneTick_step op s hs)
    (fun op s hs horder ↦ inOrder_step op s hs horder) (oneTick_opened term) (inOrder_opened term)

/-- A key is pressed and the `sendInput` of the tick that takes it throws. -/
theorem lost_input :
    ¬InOrder (final (loopStep stillTerm) [.onKey (some [0x61]), .timer, .resume 0 { ok := false }]
      (opened stillTerm ())) := by
  intro horder
  obtain ⟨heq, -⟩ := horder rfl
  exact absurd heq (by decide)

end MachineNotebook.Session.InputOrder
