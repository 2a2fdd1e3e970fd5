import MachineNotebook.Host.RelayAnswers
import MachineNotebook.Host.RelayLedger

namespace MachineNotebook.Host.RelayEffects

open MachineNotebook.Lib MachineNotebook.Lib.Utf8 Table Relay RelayRun RelayLedger RelayAnswers

/-! All that one step of the relay does to the sockets, to the queue and to the counter. -/

def sends (data : Bytes) (slot : WsSlot) : Prop :=
  slot.failed = false ∧ data.length ≤ WS_SEND_MARK ∧ slot.isOpen = true ∧
    slot.queuedBytes + data.length ≤ WS_SEND_MARK

instance (data : Bytes) (slot : WsSlot) : Decidable (sends data slot) :=
  inferInstanceAs (Decidable (_ ∧ _ ∧ _ ∧ _))

def sendSlot (data : Bytes) (slot : WsSlot) : WsSlot :=
  if sends data slot then { slot with queuedBytes := slot.queuedBytes + data.length } else slot

def recvSlot (buf : ℕ) (slot : WsSlot) : WsSlot :=
  if slot.failed then slot
  else
    match slot.incoming with
    | [] => slot
    | front :: rest =>
      let pos := slot.incomingPos + min (front.length - slot.incomingPos) buf
      if pos ≥ front.length then { slot with incoming := rest, incomingPos := 0 }
      else { slot with incomingPos := pos }

def popped (sidecarOnly : Bool) (s : RelayState) : Option EgressRelayEvent :=
  (SelectiveQueue.pop isSidecarEvent sidecarOnly s.events).map Prod.fst

/-- The sockets that a step changes, and how. -/
def wsEffect (s : RelayState) : RelayOp → Option (Int32 × (WsSlot → WsSlot))
  | .wsSend h data => some (h, sendSlot data)
  | .wsRecv h buf => some (h, recvSlot buf)
  | .relayNext so =>
    match popped so s with
    | some (.wsSend h data) =>
      some (h, fun slot ↦ { slot with queuedBytes := slot.queuedBytes - data.length })
    | _ => none
  | .wsOpen h ok =>
    if 0 < h then some (h.toInt32, fun slot ↦ { slot with isOpen := ok != 0, failed := ok == 0 })
    else none
  | .wsPush h data =>
    if 0 < h then some (h.toInt32, fun slot ↦ { slot with incoming := slot.incoming ++ [data] })
    else none
  | .wsHostClose h =>
    if 0 < h then some (h.toInt32, fun slot ↦ { slot with isOpen := false }) else none
  | _ => none

def wsAfter (s : RelayState) (op : RelayOp) : Slots WsSlot :=
  match op with
  | .wsConnect _ => s.ws.insert s.allocHandle.1 {}
  | .wsClose h => s.ws.remove h
  | op => ((wsEffect s op).map fun (h, f) ↦ s.ws.modify h f).getD s.ws

def quiet : RelayOp → Bool
  | .httpPoll _ _ | .httpBody _ _ | .httpClose _ | .wsReady _ | .hostCallPoll _
  | .hostCallBody _ _ | .persistPoll _ | .persistBody _ _ | .persistClose _
  | .httpRespond _ _ _ _ | .hostCallRespond _ _ _ | .persistRespond _ _ _
  | .toolApprovalRespond _ _ _ => true
  | _ => false

theorem answerSlot_frame {α : Type} {call kind : String} {m : Slots α} {handle : Int64} {f : α → α}
    (s : RelayState) (get : RelayState → Slots α) (upd : Slots α → RelayState)
    (hget : upd (get s) = s) :
    ∃ m', (hostStatus s ((answerSlot call kind m handle f).map upd)).2 = upd m' := by
  rcases hostStatus_answer s upd with he | ⟨-, slot, -, he⟩
  · exact ⟨get s, he.trans hget.symm⟩
  · exact ⟨_, he⟩

theorem quiet_step {op : RelayOp} (hq : quiet op = true) (s : RelayState) :
    ∃ http hostCalls persist pendingToolApprovals,
      (relayStep op s).2 = { s with http, hostCalls, persist, pendingToolApprovals } := by
  cases op <;> simp only [quiet, Bool.false_eq_true] at hq
  case httpBody h buf =>
    obtain ⟨http, he⟩ := httpBody_frame (s := s) h buf
    exact ⟨http, _, _, _, he⟩
  case hostCallBody h buf =>
    obtain ⟨hostCalls, he⟩ := hostCallBody_frame (s := s) h buf
    exact ⟨_, hostCalls, _, _, he⟩
  case persistBody h buf =>
    obtain ⟨persist, he⟩ := persistBody_frame (s := s) h buf
    exact ⟨_, _, persist, _, he⟩
  case toolApprovalRespond h allow remember =>
    obtain ⟨pending, he⟩ := toolApprovalRespond_frame (s := s) h allow remember
    exact ⟨_, _, _, pending, he⟩
  case httpRespond h ok head body =>
    obtain ⟨http, he⟩ := answerSlot_frame s RelayState.http (fun http ↦ { s with http }) rfl
    exact ⟨http, _, _, _, he⟩
  case hostCallRespond h ok result =>
    obtain ⟨hostCalls, he⟩ :=
      answerSlot_frame s RelayState.hostCalls (fun hostCalls ↦ { s with hostCalls }) rfl
    exact ⟨_, hostCalls, _, _, he⟩
  case persistRespond h ok body =>
    obtain ⟨persist, he⟩ :=
      answerSlot_frame s RelayState.persist (fun persist ↦ { s with persist }) rfl
    exact ⟨_, _, persist, _, he⟩
  all_goals exact ⟨_, _, _, _, rfl⟩

def socketOnly : RelayOp → Bool
  | .wsRecv _ _ | .wsOpen _ _ | .wsPush _ _ | .wsHostClose _ => true
  | _ => false

theorem socket_step {op : RelayOp} (hop : socketOnly op = true) (s : RelayState) :
    ∃ ws, (relayStep op s).2 = { s with ws } := by
  cases op <;> simp only [socketOnly, Bool.false_eq_true] at hop
  case wsRecv h buf => exact wsRecv_frame h buf
  case wsOpen h ok => exact answerSlot_frame s RelayState.ws (fun ws ↦ { s with ws }) rfl
  case wsPush h data => exact answerSlot_frame s RelayState.ws (fun ws ↦ { s with ws }) rfl
  case wsHostClose h => exact wsHostClose_frame h

section Sockets

variable {s : RelayState}

theorem wsSend_accepted {h : Int32} {data : Bytes} {slot : WsSlot} (hs : s.ws h = some slot)
    (hsend : sends data slot) :
    wsSend h data s = (Int32.ofNat data.length,
      { s with ws := s.ws.insert h (sendSlot data slot) }.pushBack (.wsSend h data)) := by
  obtain ⟨hf, hl, ho, hq⟩ := hsend
  simp [wsSend, hs, hf, ho, Nat.not_lt.mpr hl, Nat.not_lt.mpr hq, sendSlot, sends, hl, hq]

theorem wsSend_refused {h : Int32} {data : Bytes} (hsend : ∀ slot ∈ s.ws h, ¬sends data slot) :
    wsSend h data s = (-1, s) := by
  cases hs : s.ws h with
  | none => simp only [wsSend, hs]
  | some slot =>
    simp only [wsSend, hs]
    split
    · rfl
    · split
      · rfl
      · split
        · rfl
        · rename_i hf hl hoq
          simp only [not_or, Bool.not_eq_true', Bool.not_eq_false, Nat.not_lt] at hf hl hoq
          exact absurd ⟨by simpa using hf, hl, hoq⟩ (hsend slot hs)

theorem wsSend_ws (h : Int32) (data : Bytes) :
    (wsSend h data s).2.ws = s.ws.modify h (sendSlot data) := by
  by_cases hsend : ∀ slot ∈ s.ws h, ¬sends data slot
  · have hself : ∀ slot ∈ s.ws h, sendSlot data slot = slot :=
      fun slot hs ↦ if_neg (hsend slot hs)
    rw [wsSend_refused hsend, Slots.modify_eq_self hself]
  · simp only [not_forall, not_not] at hsend
    obtain ⟨slot, hs, hsend⟩ := hsend
    rw [wsSend_accepted hs hsend, Slots.modify_some _ hs]
    rfl

theorem wsRecv_ws (h : Int32) (buf : ℕ) :
    (wsRecv h buf s).2.2.ws = s.ws.modify h (recvSlot buf) := by
  cases hs : s.ws h with
  | none => simp only [wsRecv, hs, Slots.modify_none _ hs]
  | some slot =>
    rw [Slots.modify_some _ hs]
    cases hf : slot.failed with
    | true =>
      have hself : s.ws.insert h (recvSlot buf slot) = s.ws :=
        (Slots.insert_eq_self hs).mpr (if_pos hf)
      simp [wsRecv, hs, hf, hself]
    | false =>
      cases hin : slot.incoming with
      | nil =>
        have hself : s.ws.insert h (recvSlot buf slot) = s.ws :=
          (Slots.insert_eq_self hs).mpr (by simp [recvSlot, hf, hin])
        simp [wsRecv, hs, hf, hin, hself]
      | cons front rest => simp [wsRecv, recvSlot, hs, hf, hin]

theorem dispatch_ws (ev : EgressRelayEvent) :
    (dispatchRelayEvent s ev).2.ws =
      match ev with
      | .wsSend h data => s.ws.modify h fun slot ↦
        { slot with queuedBytes := slot.queuedBytes - data.length }
      | _ => s.ws := by
  cases ev with
  | wsSend h data => rw [dispatch_wsSend]
  | hostCall h name body => rw [dispatch_hostCall]
  | _ => rfl

theorem answerSlot_ws {call kind : String} {handle : Int64} (f : WsSlot → WsSlot) :
    (hostStatus s ((answerSlot call kind s.ws handle f).map fun ws ↦ { s with ws })).2.ws =
      ((if 0 < handle then some (handle.toInt32, f) else none).map
        fun (h, f) ↦ s.ws.modify h f).getD s.ws := by
  by_cases hpos : 0 < handle
  · have hneg : ¬handle ≤ 0 := Int64.not_le.mpr hpos
    simp only [if_pos hpos, Option.map_some, Option.getD_some]
    cases hs : s.ws handle.toInt32 with
    | none => simp [answerSlot, hneg, hs, hostStatus, Except.map, Slots.modify_none f hs]
    | some slot => simp [answerSlot, hneg, hs, hostStatus, Except.map, Slots.modify_some f hs]
  · have hneg : handle ≤ 0 := Int64.not_lt.mp hpos
    simp [answerSlot, hpos, hneg, hostStatus, Except.map]

theorem wsHostClose_ws (handle : Int64) :
    (relayStep (.wsHostClose handle) s).2.ws = wsAfter s (.wsHostClose handle) := by
  by_cases hpos : 0 < handle
  · have hneg : ¬handle ≤ 0 := Int64.not_le.mpr hpos
    simp only [wsAfter, wsEffect, if_pos hpos, Option.map_some, Option.getD_some]
    cases hs : s.ws handle.toInt32 with
    | none => simp [relayStep, relayWsClose, hneg, hs, hostStatus, Slots.modify_none _ hs]
    | some slot => simp [relayStep, relayWsClose, hneg, hs, hostStatus, Slots.modify_some _ hs]
  · have hneg : handle ≤ 0 := Int64.not_lt.mp hpos
    simp [relayStep, relayWsClose, hneg, hostStatus, wsAfter, wsEffect, hpos]

theorem ws_step (op : RelayOp) : (relayStep op s).2.ws = wsAfter s op := by
  by_cases hq : quiet op
  · obtain ⟨http, hostCalls, persist, pending, he⟩ := quiet_step hq s
    rw [he]
    cases op <;> first | rfl | cases hq
  cases op with
  | hostCallStart sidecarOnly req =>
    obtain ⟨next, events, hostCalls, he⟩ := hostCallStart_frame (s := s) sidecarOnly req
    simp only [relayStep, he]
    rfl
  | persistStart req =>
    obtain ⟨next, events, persist, he⟩ := persistStart_frame (s := s) req
    simp only [relayStep, he]
    rfl
  | wsSend h data => exact wsSend_ws h data
  | wsRecv h buf => exact wsRecv_ws h buf
  | wsOpen h ok => exact answerSlot_ws _
  | wsPush h data => exact answerSlot_ws _
  | wsHostClose h => exact wsHostClose_ws h
  | relayNext so =>
    cases hp : SelectiveQueue.pop isSidecarEvent so s.events with
    | none => simp [relayStep, popEvent, wsAfter, wsEffect, popped, hp]
    | some evq =>
      obtain ⟨ev, q⟩ := evq
      simp only [relayStep, popEvent, wsAfter, wsEffect, popped, hp, Option.map_some, dispatch_ws]
      cases ev <;> rfl
  | _ => first | rfl | exact absurd rfl hq

theorem ws_kept {β : Type} {op : RelayOp} {h : Int32} (g : WsSlot → β)
    (hconnect : ∀ url, op ≠ .wsConnect url) (hclose : op ≠ .wsClose h)
    (hf : ∀ f, wsEffect s op = some (h, f) → ∀ slot, g (f slot) = g slot) :
    ((relayStep op s).2.ws h).map g = (s.ws h).map g := by
  rw [ws_step]
  unfold wsAfter
  split
  · rename_i url
    exact absurd rfl (hconnect url)
  · rename_i h'
    have hne : h ≠ h' := by
      rintro rfl
      exact hclose rfl
    rw [Slots.remove_of_ne _ hne]
  · cases he : wsEffect s op with
    | none => rfl
    | some hf' =>
      obtain ⟨h', f⟩ := hf'
      simp only [Option.map_some, Option.getD_some, Slots.modify_apply, Option.map_map]
      apply Option.map_congr
      intro slot _
      simp only [Function.comp_apply]
      split
      · rename_i hh
        exact hf f (by rw [he, hh]) slot
      · rfl

end Sockets

def pushed (s : RelayState) : RelayOp → Option EgressRelayEvent
  | .httpRequest req => some (.httpRequest s.allocHandle.1 req)
  | .wsConnect url => some (.wsConnect s.allocHandle.1 url)
  | .wsSend h data => if (s.ws h).any (sends data ·) then some (.wsSend h data) else none
  | .wsClose h => some (.wsClose h)
  | .approve _ facts => some (.toolApproval s.allocHandle.1 facts.connection facts.method
    facts.url facts.origin facts.argsDigest)
  | .hostCallStart sidecarOnly req =>
    if sidecarOnly ∧ (splitRequest req).1 ≠ SIDECAR_HOST_BINDING then none
    else some (.hostCall s.allocHandle.1 (splitRequest req).1 (splitRequest req).2)
  | .hostCallClose h =>
    some (.hostCallClose h (((s.hostCalls h).map HostCallSlot.sidecar).getD false))
  | .persistStart req => (splitPersist req).bind fun (o, key, value) ↦
    persistEvent o s.allocHandle.1 key value
  | _ => none

def eventsAfter (s : RelayState) (op : RelayOp) : List EgressRelayEvent :=
  match op with
  | .relayNext so =>
    ((SelectiveQueue.pop isSidecarEvent so s.events).map Prod.snd).getD s.events
  | op => s.events ++ (pushed s op).toList

/-- The handle that a step gets from the counter. -/
def handed (op : RelayOp) (s : RelayState) : Option Int32 :=
  match op with
  | .httpRequest _ | .wsConnect _ | .approve _ _ => some s.allocHandle.1
  | .hostCallStart sidecarOnly req =>
    if sidecarOnly ∧ (splitRequest req).1 ≠ SIDECAR_HOST_BINDING then none
    else some s.allocHandle.1
  | .persistStart req => (splitPersist req).map fun _ ↦ s.allocHandle.1
  | _ => none

section Queue

variable {s : RelayState}

theorem wsSend_events (h : Int32) (data : Bytes) :
    (wsSend h data s).2.events = eventsAfter s (.wsSend h data) := by
  by_cases hsend : ∀ slot ∈ s.ws h, ¬sends data slot
  · have hany : ¬(s.ws h).any (sends data ·) := by simpa [Option.any_eq_true] using hsend
    simp only [wsSend_refused hsend, eventsAfter, pushed, if_neg hany, Option.toList_none,
      List.append_nil]
  · simp only [not_forall, not_not] at hsend
    obtain ⟨slot, hs, hsend⟩ := hsend
    have hany : (s.ws h).any (sends data ·) := by simp [Option.mem_def.mp hs, hsend]
    simp only [wsSend_accepted hs hsend, eventsAfter, pushed, if_pos hany]
    rfl

theorem events_step (op : RelayOp) : (relayStep op s).2.events = eventsAfter s op := by
  by_cases hq : quiet op
  · obtain ⟨http, hostCalls, persist, pending, he⟩ := quiet_step hq s
    rw [he]
    cases op <;> first | exact (List.append_nil _).symm | cases hq
  by_cases hsocket : socketOnly op
  · obtain ⟨ws, he⟩ := socket_step hsocket s
    rw [he]
    cases op <;> first | exact (List.append_nil _).symm | cases hsocket
  cases op with
  | wsSend h data => exact wsSend_events h data
  | hostCallStart sidecarOnly req =>
    by_cases hd : sidecarOnly = true ∧ (splitRequest req).1 ≠ SIDECAR_HOST_BINDING
    · simp [relayStep, hostCallStart, eventsAfter, pushed, hd]
    · simp only [relayStep, hostCallStart, eventsAfter, pushed, hd, if_false]
      rfl
  | persistStart req =>
    cases hp : splitPersist req with
    | none => simp [relayStep, persistStart, eventsAfter, pushed, hp]
    | some opkv =>
      obtain ⟨o, key, value⟩ := opkv
      simp only [relayStep, persistStart, eventsAfter, pushed, hp, Option.bind_some]
      cases persistEvent o s.allocHandle.1 key value with
      | none => simp [RelayState.allocHandle]
      | some ev => rfl
  | relayNext so =>
    cases hp : SelectiveQueue.pop isSidecarEvent so s.events with
    | none => simp [relayStep, popEvent, eventsAfter, hp]
    | some evq =>
      obtain ⟨ev, q⟩ := evq
      simp only [relayStep, popEvent, eventsAfter, hp, Option.map_some, Option.getD_some]
      exact congrArg Ledger.queue (ledger_dispatch { s with events := q } ev)
  | _ => first | rfl | exact absurd rfl hq | exact absurd rfl hsocket

theorem counter_step (op : RelayOp) :
    (relayStep op s).2.next = if (handed op s).isSome then s.allocHandle.2.next else s.next := by
  by_cases hq : quiet op
  · obtain ⟨http, hostCalls, persist, pending, he⟩ := quiet_step hq s
    rw [he]
    cases op <;> first | rfl | cases hq
  by_cases hsocket : socketOnly op
  · obtain ⟨ws, he⟩ := socket_step hsocket s
    rw [he]
    cases op <;> first | rfl | cases hsocket
  cases op with
  | wsSend h data =>
    obtain ⟨ws, events, he⟩ := wsSend_frame (s := s) h data
    simp only [relayStep, he]
    rfl
  | hostCallStart sidecarOnly req =>
    by_cases hd : sidecarOnly = true ∧ (splitRequest req).1 ≠ SIDECAR_HOST_BINDING
    · simp [relayStep, hostCallStart, handed, hd]
    · simp only [relayStep, hostCallStart, handed, hd, if_false]
      rfl
  | persistStart req =>
    cases hp : splitPersist req with
    | none => simp [relayStep, persistStart, handed, hp]
    | some opkv =>
      obtain ⟨o, key, value⟩ := opkv
      simp only [relayStep, persistStart, handed, hp]
      cases persistEvent o s.allocHandle.1 key value <;> rfl
  | relayNext so =>
    cases hp : SelectiveQueue.pop isSidecarEvent so s.events with
    | none => simp [relayStep, popEvent, handed, hp]
    | some evq =>
      obtain ⟨ev, q⟩ := evq
      simp only [relayStep, popEvent, hp]
      exact congrArg Ledger.next (ledger_dispatch { s with events := q } ev)
  | _ => first | rfl | exact absurd rfl hq | exact absurd rfl hsocket

end Queue

end MachineNotebook.Host.RelayEffects
