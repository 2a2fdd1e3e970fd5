import MachineNotebook.Host.Relay

namespace MachineNotebook.Host.RelayRun

open MachineNotebook.Lib MachineNotebook.Lib.Utf8 Table Relay

/-- Everything the guest and the host can do to a VM's relay. -/
inductive RelayOp
  | httpRequest (req : Bytes)
  | httpPoll (handle : Int32) (buf : ℕ)
  | httpBody (handle : Int32) (buf : ℕ)
  | httpClose (handle : Int32)
  | wsConnect (url : String)
  | wsSend (handle : Int32) (data : Bytes)
  | wsReady (handle : Int32)
  | wsRecv (handle : Int32) (buf : ℕ)
  | wsClose (handle : Int32)
  | approve (tx : Sender) (facts : ToolApprovalFacts)
  | hostCallStart (sidecarOnly : Bool) (req : Bytes)
  | hostCallPoll (handle : Int32)
  | hostCallBody (handle : Int32) (buf : ℕ)
  | hostCallClose (handle : Int32)
  | persistStart (req : Bytes)
  | persistPoll (handle : Int32)
  | persistBody (handle : Int32) (buf : ℕ)
  | persistClose (handle : Int32)
  | relayNext (sidecarOnly : Bool)
  | httpRespond (handle : Int64) (ok : Int32) (head body : Bytes)
  | hostCallRespond (handle : Int64) (ok : Int32) (result : Bytes)
  | persistRespond (handle : Int64) (ok : Int32) (body : Bytes)
  | toolApprovalRespond (handle : Int64) (allow rememberSession : Int32)
  | wsOpen (handle : Int64) (ok : Int32)
  | wsPush (handle : Int64) (data : Bytes)
  | wsHostClose (handle : Int64)
  deriving DecidableEq

/-- What a call gives back: its return value, the bytes copied out, a pulled frame,
an error text, and what it does to a channel of a waiting approval. -/
structure RelayOut where
  ret : Int32 := 0
  bytes : Bytes := []
  frame : Option WireRelayEvent := none
  error : Option String := none
  sent : Option (Sender × ToolApprovalDecision) := none
  dropped : Option Sender := none
  deriving DecidableEq

def hostStatus (s : RelayState) : Except String RelayState → RelayOut × RelayState
  | .ok s' => ({}, s')
  | .error e => ({ ret := -1, error := some e }, s)

def relayStep (op : RelayOp) (s : RelayState) : RelayOut × RelayState :=
  match op with
  | .httpRequest req => let (ret, s) := httpRequest req s; ({ ret }, s)
  | .httpPoll h buf => let (ret, bytes) := httpPoll h buf s; ({ ret, bytes }, s)
  | .httpBody h buf => let (ret, bytes, s) := httpBody h buf s; ({ ret, bytes }, s)
  | .httpClose h => ({}, httpClose h s)
  | .wsConnect url => let (ret, s) := wsConnect url s; ({ ret }, s)
  | .wsSend h data => let (ret, s) := wsSend h data s; ({ ret }, s)
  | .wsReady h => ({ ret := wsReady h s }, s)
  | .wsRecv h buf => let (ret, bytes, s) := wsRecv h buf s; ({ ret, bytes }, s)
  | .wsClose h => ({}, wsClose h s)
  | .approve tx facts =>
    let (ret, dropped, s) := approveRequest tx facts s; ({ ret, dropped }, s)
  | .hostCallStart sidecarOnly req =>
    let (ret, s) := hostCallStart sidecarOnly req s; ({ ret }, s)
  | .hostCallPoll h => ({ ret := hostCallPoll h s }, s)
  | .hostCallBody h buf => let (ret, bytes, s) := hostCallBody h buf s; ({ ret, bytes }, s)
  | .hostCallClose h => ({}, hostCallClose h s)
  | .persistStart req => let (ret, s) := persistStart req s; ({ ret }, s)
  | .persistPoll h => ({ ret := persistPoll h s }, s)
  | .persistBody h buf => let (ret, bytes, s) := persistBody h buf s; ({ ret, bytes }, s)
  | .persistClose h => ({}, persistClose h s)
  | .relayNext sidecarOnly => let (frame, s) := popEvent sidecarOnly s; ({ frame }, s)
  | .httpRespond h ok head body => hostStatus s (relayHttpRespond h ok head body s)
  | .hostCallRespond h ok result => hostStatus s (relayHostCallRespond h ok result s)
  | .persistRespond h ok body => hostStatus s (relayPersistRespond h ok body s)
  | .toolApprovalRespond h allow remember =>
    match relayToolApprovalRespond h allow remember s with
    | .ok (sent, s') => ({ sent }, s')
    | .error e => ({ ret := -1, error := some e }, s)
  | .wsOpen h ok => hostStatus s (relayWsOpen h ok s)
  | .wsPush h data => hostStatus s (relayWsPush h data s)
  | .wsHostClose h => hostStatus s (relayWsClose h s)

def allocs (op : RelayOp) (s : RelayState) : ℕ :=
  if (relayStep op s).2.next = s.next then 0 else 1

def run (ops : List RelayOp) : RelayState := Run.final relayStep ops RelayState.new

/-- Fewer than `2 ^ 31 - 1` handles are taken, so the counter never wraps. -/
def FewHandles (ops : List RelayOp) : Prop :=
  Run.total relayStep allocs ops RelayState.new < 2 ^ 31 - 1

instance (ops : List RelayOp) : Decidable (FewHandles ops) :=
  inferInstanceAs (Decidable (_ < _))

/-- The tables of the relay apart from its sockets. -/
inductive Part
  | http
  | hostCalls
  | persist
  | approvals

def partOf : RelayOp → Option Part
  | .httpRequest _ | .httpBody _ _ | .httpClose _ | .httpRespond _ _ _ _ => some .http
  | .hostCallStart _ _ | .hostCallBody _ _ | .hostCallClose _ | .hostCallRespond _ _ _ =>
    some .hostCalls
  | .persistStart _ | .persistBody _ _ | .persistClose _ | .persistRespond _ _ _ => some .persist
  | .approve _ _ | .toolApprovalRespond _ _ _ => some .approvals
  | _ => none

def Part.Unread {β : Type} (π : RelayState → β) : Part → Prop
  | .http => ∀ s http, π { s with http } = π s
  | .hostCalls => ∀ s hostCalls, π { s with hostCalls } = π s
  | .persist => ∀ s persist, π { s with persist } = π s
  | .approvals => ∀ s pendingToolApprovals, π { s with pendingToolApprovals } = π s

/-! Of the whole state, each function changes the fields it is about. -/

section Frame

variable {s : RelayState}

theorem answerSlot_ok {α : Type} {call kind : String} {slots slots' : Slots α} {handle : Int64}
    {f : α → α} (h : answerSlot call kind slots handle f = .ok slots') :
    0 < handle ∧ ∃ slot, slots handle.toInt32 = some slot ∧
      slots' = slots.insert handle.toInt32 (f slot) := by
  simp only [answerSlot] at h
  split at h
  · cases h
  · rename_i hpos
    refine ⟨Int64.not_le.mp hpos, ?_⟩
    split at h
    · cases h
    · rename_i slot hslot
      exact ⟨slot, hslot, by simpa using h.symm⟩

/-- A host call that answers a slot leaves the state as it was, or is `upd` of the
slots it answered. -/
theorem hostStatus_answer {α : Type} {call kind : String} {slots : Slots α} {handle : Int64}
    {f : α → α} (s : RelayState) (upd : Slots α → RelayState) :
    (hostStatus s ((answerSlot call kind slots handle f).map upd)).2 = s ∨
      0 < handle ∧ ∃ slot, slots handle.toInt32 = some slot ∧
        (hostStatus s ((answerSlot call kind slots handle f).map upd)).2 =
          upd (slots.insert handle.toInt32 (f slot)) := by
  cases ha : answerSlot call kind slots handle f with
  | error e => exact Or.inl rfl
  | ok slots' =>
    obtain ⟨hpos, slot, hslot, rfl⟩ := answerSlot_ok ha
    exact Or.inr ⟨hpos, slot, hslot, rfl⟩

theorem httpBody_frame (h' : Int32) (buf : ℕ) :
    ∃ http, (httpBody h' buf s).2.2 = { s with http } := by
  simp only [httpBody]
  repeat' split
  all_goals exact ⟨_, rfl⟩

theorem wsSend_frame (h' : Int32) (data : Bytes) :
    ∃ ws events, (wsSend h' data s).2 = { s with ws, events } := by
  simp only [wsSend]
  repeat' split
  all_goals exact ⟨_, _, rfl⟩

theorem wsRecv_frame (h' : Int32) (buf : ℕ) : ∃ ws, (wsRecv h' buf s).2.2 = { s with ws } := by
  simp only [wsRecv]
  repeat' split
  all_goals exact ⟨_, rfl⟩

theorem hostCallStart_frame (sidecarOnly : Bool) (req : Bytes) :
    ∃ next events hostCalls,
      (hostCallStart sidecarOnly req s).2 = { s with next, events, hostCalls } := by
  simp only [hostCallStart]
  split
  all_goals exact ⟨_, _, _, rfl⟩

theorem hostCallBody_frame (h' : Int32) (buf : ℕ) :
    ∃ hostCalls, (hostCallBody h' buf s).2.2 = { s with hostCalls } := by
  simp only [hostCallBody]
  split
  all_goals exact ⟨_, rfl⟩

theorem persistStart_frame (req : Bytes) :
    ∃ next events persist, (persistStart req s).2 = { s with next, events, persist } := by
  simp only [persistStart]
  repeat' split
  all_goals exact ⟨_, _, _, rfl⟩

theorem persistBody_frame (h' : Int32) (buf : ℕ) :
    ∃ persist, (persistBody h' buf s).2.2 = { s with persist } := by
  simp only [persistBody]
  split
  all_goals exact ⟨_, rfl⟩

theorem toolApprovalRespond_frame (h' : Int64) (allow remember : Int32) :
    ∃ pendingToolApprovals, (relayStep (.toolApprovalRespond h' allow remember) s).2 =
      { s with pendingToolApprovals } := by
  simp only [relayStep, relayToolApprovalRespond]
  by_cases hpos : h' ≤ 0
  · simp only [if_pos hpos]
    exact ⟨_, rfl⟩
  · simp only [if_neg hpos]
    cases s.pendingToolApprovals h'.toInt32 <;> exact ⟨_, rfl⟩

theorem wsHostClose_frame (h' : Int64) :
    ∃ ws, (relayStep (.wsHostClose h') s).2 = { s with ws } := by
  simp only [relayStep, relayWsClose]
  repeat' split
  all_goals exact ⟨_, rfl⟩

theorem hostStatus_proj {α β : Type} {call kind : String} {slots : Slots α} {handle : Int64}
    {f : α → α} (π : RelayState → β) (upd : Slots α → RelayState)
    (hupd : ∀ slots', π (upd slots') = π s) :
    π (hostStatus s ((answerSlot call kind slots handle f).map upd)).2 = π s := by
  rcases hostStatus_answer s upd with he | ⟨-, slot, -, he⟩
  · rw [he]
  · rw [he, hupd]

theorem dispatch_proj {β : Type} (π : RelayState → β) (hws : ∀ s ws, π { s with ws } = π s)
    (hhostCalls : Part.hostCalls.Unread π) (s : RelayState) (ev : EgressRelayEvent) :
    π (dispatchRelayEvent s ev).2 = π s := by
  cases ev with
  | hostCall h name body =>
    rw [dispatch_hostCall]
    exact hhostCalls s _
  | wsSend h data =>
    rw [dispatch_wsSend]
    exact hws s _
  | _ => rfl

/-- What reads neither the queue, the counter, the sockets nor the table that a call works on is
the same after the call. -/
theorem step_proj {β : Type} {op : RelayOp} (π : RelayState → β)
    (hshared : ∀ s next events ws, π { s with next, events, ws } = π s)
    (hdispatch : ∀ s ev, π (dispatchRelayEvent s ev).2 = π s)
    (hpart : ∀ p, partOf op = some p → p.Unread π) :
    π (relayStep op s).2 = π s := by
  have hws (ws) : π { s with ws } = π s := hshared s s.next s.events ws
  cases op with
  | httpRequest req => exact (hpart .http rfl _ _).trans (hshared s _ _ s.ws)
  | httpBody h buf =>
    obtain ⟨http, he⟩ := httpBody_frame (s := s) h buf
    exact (congrArg π he).trans (hpart .http rfl s http)
  | httpClose h => exact hpart .http rfl s _
  | httpRespond h ok head body =>
    exact hostStatus_proj π (fun http ↦ { s with http }) (hpart .http rfl s)
  | wsConnect url => exact hshared s _ _ _
  | wsSend h data =>
    obtain ⟨ws, events, he⟩ := wsSend_frame (s := s) h data
    exact (congrArg π he).trans (hshared s s.next events ws)
  | wsRecv h buf =>
    obtain ⟨ws, he⟩ := wsRecv_frame (s := s) h buf
    exact (congrArg π he).trans (hws ws)
  | wsClose h => exact hshared s _ _ _
  | wsOpen h ok => exact hostStatus_proj π (fun ws ↦ { s with ws }) hws
  | wsPush h data => exact hostStatus_proj π (fun ws ↦ { s with ws }) hws
  | wsHostClose h =>
    obtain ⟨ws, he⟩ := wsHostClose_frame (s := s) h
    exact (congrArg π he).trans (hws ws)
  | approve tx facts => exact (hpart .approvals rfl _ _).trans (hshared s _ _ s.ws)
  | toolApprovalRespond h allow remember =>
    obtain ⟨pending, he⟩ := toolApprovalRespond_frame (s := s) h allow remember
    exact (congrArg π he).trans (hpart .approvals rfl s pending)
  | hostCallStart sidecarOnly req =>
    obtain ⟨next, events, hostCalls, he⟩ := hostCallStart_frame (s := s) sidecarOnly req
    exact (congrArg π he).trans
      ((hpart .hostCalls rfl _ hostCalls).trans (hshared s next events s.ws))
  | hostCallBody h buf =>
    obtain ⟨hostCalls, he⟩ := hostCallBody_frame (s := s) h buf
    exact (congrArg π he).trans (hpart .hostCalls rfl s hostCalls)
  | hostCallClose h => exact (hpart .hostCalls rfl _ _).trans (hshared s s.next _ s.ws)
  | hostCallRespond h ok result =>
    exact hostStatus_proj π (fun hostCalls ↦ { s with hostCalls }) (hpart .hostCalls rfl s)
  | persistStart req =>
    obtain ⟨next, events, persist, he⟩ := persistStart_frame (s := s) req
    exact (congrArg π he).trans
      ((hpart .persist rfl _ persist).trans (hshared s next events s.ws))
  | persistBody h buf =>
    obtain ⟨persist, he⟩ := persistBody_frame (s := s) h buf
    exact (congrArg π he).trans (hpart .persist rfl s persist)
  | persistClose h => exact hpart .persist rfl s _
  | persistRespond h ok body =>
    exact hostStatus_proj π (fun persist ↦ { s with persist }) (hpart .persist rfl s)
  | relayNext sidecarOnly =>
    simp only [relayStep, popEvent]
    split
    · rfl
    · rename_i ev events _
      exact (hdispatch _ ev).trans (hshared s s.next events s.ws)
  | _ => rfl

end Frame

end MachineNotebook.Host.RelayRun
