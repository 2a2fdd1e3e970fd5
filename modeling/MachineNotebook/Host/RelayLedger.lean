import MachineNotebook.Host.RelayRun

namespace MachineNotebook.Host.RelayLedger

open MachineNotebook.Lib MachineNotebook.Lib.Utf8 Table Relay RelayRun

/-! The part of the relay that decides what is delivered to whom: the counter, the
queue, the open host calls with their sidecar flag and the open sockets. -/

structure Ledger where
  next : Int32
  queue : List EgressRelayEvent
  call : Int32 → Option Bool
  socket : Int32 → Bool

def ledger (s : RelayState) : Ledger where
  next := s.next
  queue := s.events
  call h := (s.hostCalls h).map HostCallSlot.sidecar
  socket h := (s.ws h).isSome

namespace Ledger

def start (l : Ledger) (call : Option Bool) (socket : Bool) (ev : Option EgressRelayEvent) :
    Ledger where
  next := l.next + 1
  queue := l.queue ++ ev.toList
  call := Function.update l.call l.next (call.or (l.call l.next))
  socket := Function.update l.socket l.next (socket || l.socket l.next)

/-- What one step can do to the ledger while the counter has room. -/
inductive Step (op : RelayOp) (l : Ledger) : Ledger → Prop
  | start (call : Option Bool) (socket : Bool) (ev : Option EgressRelayEvent)
      (hop : ∀ so, op ≠ .relayNext so) (hnext : (l.next + 1).toInt = l.next.toInt + 1)
      (hev : ∀ e ∈ ev, e.handle = l.next ∧ (isSidecarEvent e ↔ call = some true))
      (hcall : call = none ∨ socket = false) : Step op l (l.start call socket ev)
  | send (h : Int32) (data : Bytes) (hop : op = .wsSend h data) (hs : l.socket h) :
      Step op l { l with queue := l.queue ++ [.wsSend h data] }
  | closeCall (h : Int32) (hop : op = .hostCallClose h) :
      Step op l { l with
        queue := l.queue ++ [.hostCallClose h ((l.call h).getD false)]
        call := Function.update l.call h none }
  | closeSocket (h : Int32) (hop : op = .wsClose h) :
      Step op l { l with
        queue := l.queue ++ [.wsClose h], socket := Function.update l.socket h false }
  | pop (so : Bool) (hop : op = .relayNext so) (e : EgressRelayEvent) (q : List EgressRelayEvent)
      (hq : SelectiveQueue.pop isSidecarEvent so l.queue = some (e, q)) :
      Step op l { l with queue := q }
  | stay (hop : ∀ so, op = .relayNext so → SelectiveQueue.pop isSidecarEvent so l.queue = none) :
      Step op l l

end Ledger

section LedgerLemmas

variable {s : RelayState} {h : Int32}

theorem ledger_setCall {slot slot' : HostCallSlot} (hs : s.hostCalls h = some slot)
    (hside : slot'.sidecar = slot.sidecar) :
    ledger { s with hostCalls := s.hostCalls.insert h slot' } = ledger s := by
  have hcall : (fun k ↦ (s.hostCalls.insert h slot' k).map HostCallSlot.sidecar) =
      fun k ↦ (s.hostCalls k).map HostCallSlot.sidecar := by
    have hval : some slot'.sidecar = (s.hostCalls h).map HostCallSlot.sidecar := by
      rw [hs, Option.map_some, hside]
    apply (Function.comp_update (Option.map HostCallSlot.sidecar) s.hostCalls h (some slot')).trans
    exact Function.update_eq_self_iff.mpr hval
  simp only [ledger, hcall]

theorem ledger_setSocket {slot : WsSlot} (slot' : WsSlot) (hs : s.ws h = some slot) :
    ledger { s with ws := s.ws.insert h slot' } = ledger s := by
  have hws : (fun k ↦ (s.ws.insert h slot' k).isSome) = fun k ↦ (s.ws k).isSome := by
    have hval : true = (s.ws h).isSome := by rw [hs, Option.isSome_some]
    apply (Function.comp_update Option.isSome s.ws h (some slot')).trans
    exact Function.update_eq_self_iff.mpr hval
  simp only [ledger, hws]

theorem ledger_dispatch (s : RelayState) (ev : EgressRelayEvent) :
    ledger (dispatchRelayEvent s ev).2 = ledger s := by
  cases ev with
  | hostCall h name body =>
    rw [dispatch_hostCall]
    cases hs : s.hostCalls h with
    | none => rw [Slots.modify_none _ hs]
    | some slot =>
      rw [Slots.modify_some _ hs]
      exact ledger_setCall hs rfl
  | wsSend h data =>
    rw [dispatch_wsSend]
    cases hs : s.ws h with
    | none => rw [Slots.modify_none _ hs]
    | some slot =>
      rw [Slots.modify_some _ hs]
      exact ledger_setSocket _ hs
  | _ => rfl

end LedgerLemmas

/-- The counter is positive and the step does not push it past the last `i32`. -/
def Room (op : RelayOp) (s : RelayState) : Prop :=
  0 < s.next.toInt ∧ s.next.toInt + allocs op s < 2 ^ 31

theorem Room.alloc {op : RelayOp} {s : RelayState} (h : Room op s)
    (ha : (relayStep op s).2.next = s.allocHandle.2.next) :
    s.allocHandle = (s.next, { s with next := s.next + 1 }) ∧
      (s.next + 1).toInt = s.next.toInt + 1 := by
  apply RelayState.allocHandle_eq h.1
  have hmoves := RelayState.allocHandle_moves h.1
  have hlt := h.2
  simp only [allocs, ha, if_neg hmoves] at hlt
  exact_mod_cast hlt

section Steps

variable {op : RelayOp} {s : RelayState}

theorem stay_of_eq (he : ledger (relayStep op s).2 = ledger s)
    (hop : ∀ so, op ≠ .relayNext so) :
    Ledger.Step op (ledger s) (ledger (relayStep op s).2) := by
  rw [he]
  exact .stay (fun so h ↦ absurd h (hop so))

theorem start_of_eq (call : Option Bool) (socket : Bool) (ev : Option EgressRelayEvent)
    (he : ledger (relayStep op s).2 = (ledger s).start call socket ev)
    (hop : ∀ so, op ≠ .relayNext so) (hnext : (s.next + 1).toInt = s.next.toInt + 1)
    (hev : ∀ e ∈ ev, e.handle = s.next ∧ (isSidecarEvent e ↔ call = some true))
    (hcall : call = none ∨ socket = false) :
    Ledger.Step op (ledger s) (ledger (relayStep op s).2) := by
  rw [he]
  exact .start call socket ev hop hnext hev hcall

theorem ledger_wsSend (h : Int32) (data : Bytes) :
    ledger (wsSend h data s).2 = ledger s ∨ (ledger s).socket h ∧
      ledger (wsSend h data s).2 = { ledger s with queue := s.events ++ [.wsSend h data] } := by
  cases hs : s.ws h with
  | none => simp [wsSend, hs]
  | some slot =>
    simp only [wsSend, hs]
    split
    · exact Or.inl rfl
    · split
      · exact Or.inl rfl
      · split
        · exact Or.inl rfl
        · refine Or.inr ⟨by simp [ledger, hs], ?_⟩
          have he := ledger_setSocket { slot with
            queuedBytes := slot.queuedBytes + data.length } hs
          simp only [ledger, Ledger.mk.injEq] at he
          simp only [ledger, RelayState.pushBack, Ledger.mk.injEq, true_and]
          exact he.2.2.2

theorem ledger_wsRecv (h : Int32) (buf : ℕ) : ledger (wsRecv h buf s).2.2 = ledger s := by
  cases hs : s.ws h with
  | none => simp [wsRecv, hs]
  | some slot =>
    simp only [wsRecv, hs]
    split
    · rfl
    · split
      · rfl
      · exact ledger_setSocket _ hs

theorem ledger_hostCallBody (h : Int32) (buf : ℕ) :
    ledger (hostCallBody h buf s).2.2 = ledger s := by
  cases hs : s.hostCalls h with
  | none => simp [hostCallBody, hs]
  | some slot =>
    simp only [hostCallBody, hs]
    exact ledger_setCall hs rfl

/-- Every step of the relay, while the counter has room, is a step of its ledger. -/
theorem ledger_step (hr : Room op s) :
    Ledger.Step op (ledger s) (ledger (relayStep op s).2) := by
  cases op with
  | httpRequest req =>
    obtain ⟨ha, hnext⟩ := hr.alloc rfl
    refine start_of_eq none false (some (.httpRequest s.next req)) ?_ (by simp) hnext
      (by simp [EgressRelayEvent.handle, isSidecarEvent]) (Or.inl rfl)
    simp [relayStep, httpRequest, ha, ledger, Ledger.start, RelayState.pushBack]
  | wsConnect url =>
    obtain ⟨ha, hnext⟩ := hr.alloc rfl
    refine start_of_eq none true (some (.wsConnect s.next url)) ?_ (by simp) hnext
      (by simp [EgressRelayEvent.handle, isSidecarEvent]) (Or.inl rfl)
    have hws : (fun k ↦ (s.ws.insert s.next {} k).isSome) =
        Function.update (fun k ↦ (s.ws k).isSome) s.next true :=
      Function.comp_update Option.isSome s.ws s.next (some {})
    simp [relayStep, wsConnect, ha, ledger, Ledger.start, RelayState.pushBack, hws]
  | approve tx facts =>
    obtain ⟨ha, hnext⟩ := hr.alloc rfl
    refine start_of_eq none false
      (some (.toolApproval s.next facts.connection facts.method facts.url facts.origin
        facts.argsDigest))
      ?_ (by simp) hnext (by simp [EgressRelayEvent.handle, isSidecarEvent]) (Or.inl rfl)
    simp [relayStep, approveRequest, ha, ledger, Ledger.start, RelayState.pushBack]
  | hostCallStart sidecarOnly req =>
    by_cases hd : sidecarOnly ∧ (splitRequest req).1 ≠ SIDECAR_HOST_BINDING
    · refine stay_of_eq ?_ (by simp)
      simp [relayStep, hostCallStart, hd]
    · obtain ⟨ha, hnext⟩ := hr.alloc (by simp [relayStep, hostCallStart, hd, RelayState.pushBack])
      refine start_of_eq (some ((splitRequest req).1 == SIDECAR_HOST_BINDING)) false
        (some (.hostCall s.next (splitRequest req).1 (splitRequest req).2))
        ?_ (by simp) hnext (by simp [EgressRelayEvent.handle, isSidecarEvent]) (Or.inr rfl)
      have hcall : (fun k ↦ (s.hostCalls.insert s.next
            { sidecar := (splitRequest req).1 == SIDECAR_HOST_BINDING } k).map
              HostCallSlot.sidecar) =
          Function.update (fun k ↦ (s.hostCalls k).map HostCallSlot.sidecar) s.next
            (some ((splitRequest req).1 == SIDECAR_HOST_BINDING)) :=
        Function.comp_update (Option.map HostCallSlot.sidecar) s.hostCalls s.next (some _)
      simp [relayStep, hostCallStart, hd, ha, ledger, Ledger.start, RelayState.pushBack, hcall]
  | persistStart req =>
    cases hp : splitPersist req with
    | none => exact stay_of_eq (by simp [relayStep, persistStart, hp]) (by simp)
    | some opkv =>
      obtain ⟨o, key, value⟩ := opkv
      obtain ⟨ha, hnext⟩ := hr.alloc (by
        simp only [relayStep, persistStart, hp]
        split <;> rfl)
      refine start_of_eq none false (persistEvent o s.next key value) ?_ (by simp) hnext ?_ (Or.inl rfl)
      · simp only [relayStep, persistStart, hp, ha]
        cases he : persistEvent o s.next key value <;>
          simp [ledger, Ledger.start, RelayState.pushBack]
      · intro e he
        simp only [persistEvent] at he
        split at he <;> simp only [Option.mem_def, Option.some.injEq, reduceCtorEq] at he <;>
          subst e <;> simp [EgressRelayEvent.handle, isSidecarEvent]
  | wsSend h data =>
    rcases ledger_wsSend (s := s) h data with he | ⟨hs, he⟩
    · exact stay_of_eq he (by simp)
    · simp only [relayStep, he]
      exact .send h data rfl hs
  | wsClose h =>
    have he : ledger (wsClose h s) = { ledger s with
        queue := (ledger s).queue ++ [.wsClose h]
        socket := Function.update (ledger s).socket h false } := by
      have hws : (fun k ↦ (s.ws.remove h k).isSome) =
          Function.update (fun k ↦ (s.ws k).isSome) h false :=
        Function.comp_update Option.isSome s.ws h none
      simp [wsClose, ledger, RelayState.pushBack, hws]
    simp only [relayStep, he]
    exact .closeSocket h rfl
  | hostCallClose h =>
    have he : ledger (hostCallClose h s) = { ledger s with
        queue := (ledger s).queue ++ [.hostCallClose h (((ledger s).call h).getD false)]
        call := Function.update (ledger s).call h none } := by
      have hcall : (fun k ↦ (s.hostCalls.remove h k).map HostCallSlot.sidecar) =
          Function.update (fun k ↦ (s.hostCalls k).map HostCallSlot.sidecar) h none :=
        Function.comp_update (Option.map HostCallSlot.sidecar) s.hostCalls h none
      simp [hostCallClose, ledger, RelayState.pushBack, hcall]
    simp only [relayStep, he]
    exact .closeCall h rfl
  | relayNext so =>
    cases hp : SelectiveQueue.pop isSidecarEvent so s.events with
    | none =>
      have he : (relayStep (.relayNext so) s).2 = s := by simp [relayStep, popEvent, hp]
      rw [he]
      exact .stay (fun so' h ↦ by cases h; exact hp)
    | some evq =>
      obtain ⟨ev, q⟩ := evq
      have he : ledger (relayStep (.relayNext so) s).2 = { ledger s with queue := q } := by
        simp only [relayStep, popEvent, hp, ledger_dispatch]
        rfl
      rw [he]
      exact .pop so rfl ev q hp
  | hostCallRespond h ok result =>
    refine stay_of_eq ?_ (by simp)
    rcases hostStatus_answer s (fun hostCalls ↦ { s with hostCalls }) with he | ⟨-, slot, hs, he⟩
    · exact congrArg ledger he
    · exact (congrArg ledger he).trans (ledger_setCall hs rfl)
  | wsOpen h ok =>
    refine stay_of_eq ?_ (by simp)
    rcases hostStatus_answer s (fun ws ↦ { s with ws }) with he | ⟨-, slot, hs, he⟩
    · exact congrArg ledger he
    · exact (congrArg ledger he).trans (ledger_setSocket _ hs)
  | wsPush h data =>
    refine stay_of_eq ?_ (by simp)
    rcases hostStatus_answer s (fun ws ↦ { s with ws }) with he | ⟨-, slot, hs, he⟩
    · exact congrArg ledger he
    · exact (congrArg ledger he).trans (ledger_setSocket _ hs)
  | wsHostClose h =>
    refine stay_of_eq ?_ (by simp)
    simp only [relayStep, relayWsClose]
    split
    · rfl
    · cases hs : s.ws h.toInt32 with
      | none => rfl
      | some slot => exact ledger_setSocket _ hs
  | httpRespond h ok head body =>
    exact stay_of_eq (hostStatus_proj ledger (fun http ↦ { s with http }) (fun _ ↦ rfl)) (by simp)
  | persistRespond h ok body =>
    exact stay_of_eq (hostStatus_proj ledger (fun persist ↦ { s with persist }) (fun _ ↦ rfl)) (by simp)
  | toolApprovalRespond h allow remember =>
    obtain ⟨pendingToolApprovals, he⟩ := toolApprovalRespond_frame (s := s) h allow remember
    exact stay_of_eq (by rw [he]; rfl) (by simp)
  | httpBody h buf =>
    obtain ⟨http, he⟩ := httpBody_frame (s := s) h buf
    exact stay_of_eq (by simp only [relayStep, he]; rfl) (by simp)
  | persistBody h buf =>
    obtain ⟨persist, he⟩ := persistBody_frame (s := s) h buf
    exact stay_of_eq (by simp only [relayStep, he]; rfl) (by simp)
  | wsRecv h buf => exact stay_of_eq (ledger_wsRecv h buf) (by simp)
  | hostCallBody h buf => exact stay_of_eq (ledger_hostCallBody h buf) (by simp)
  | httpPoll h buf => exact stay_of_eq rfl (by simp)
  | httpClose h => exact stay_of_eq rfl (by simp)
  | wsReady h => exact stay_of_eq rfl (by simp)
  | hostCallPoll h => exact stay_of_eq rfl (by simp)
  | persistPoll h => exact stay_of_eq rfl (by simp)
  | persistClose h => exact stay_of_eq rfl (by simp)

theorem next_cases (hr : Room op s) :
    (relayStep op s).2.next = s.next ∨
      (relayStep op s).2.next = s.next + 1 ∧ (s.next + 1).toInt = s.next.toInt + 1 := by
  have h := ledger_step hr
  have hnext : (ledger (relayStep op s).2).next = (relayStep op s).2.next := rfl
  generalize ledger (relayStep op s).2 = l at h hnext
  rw [← hnext]
  cases h with
  | start call socket ev hop hsucc => exact Or.inr ⟨rfl, hsucc⟩
  | _ => exact Or.inl rfl

theorem next_step (hr : Room op s) :
    (relayStep op s).2.next.toInt = s.next.toInt + allocs op s := by
  rcases next_cases hr with h | ⟨h, hsucc⟩
  · simp [allocs, h]
  · have hne : s.next + 1 ≠ s.next := by
      intro he
      rw [he] at hsucc
      omega
    simp [allocs, h, hsucc, hne]

end Steps

/-- A machine that does at most one relay call a step has room for each of them, when all
of them together take few handles. -/
theorem along_room {ι τ ω : Type} (step : ι → τ → ω × τ) (op : ι → τ → Option RelayOp)
    (state : τ → RelayState)
    (hstep : ∀ i t, state (step i t).2 =
      ((op i t).map fun op ↦ (relayStep op (state t)).2).getD (state t))
    (is : List ι) {t : τ} (hpos : 0 < (state t).next.toInt)
    (htotal : (state t).next.toInt.toNat + Run.total step
      (fun i t ↦ ((op i t).map fun op ↦ allocs op (state t)).getD 0) is t < 2 ^ 31) :
    Run.Along step (fun i t ↦ ∀ o ∈ op i t, Room o (state t)) is t := by
  have hroom : ∀ i t, 0 < (state t).next.toInt → (state t).next.toInt.toNat +
      ((op i t).map fun op ↦ allocs op (state t)).getD 0 < 2 ^ 31 →
        ∀ o ∈ op i t, Room o (state t) := by
    intro i t hpos hlt o ho
    rw [Option.mem_def.mp ho] at hlt
    simp only [Option.map_some, Option.getD_some] at hlt
    exact ⟨hpos, by omega⟩
  refine Run.Along.of_invariant (I := fun _ ↦ True) (fun _ _ _ _ ↦ trivial)
    (fun i t hp _ ↦ hroom i t hp.1 hp.2) (Run.along_of_total ?_ hpos htotal) trivial
  intro i t hpos hlt
  cases ho : op i t with
  | none => simpa [hstep, ho] using hpos
  | some o =>
    have hn := next_step (hroom i t hpos hlt o ho)
    simp only [hstep, ho, Option.map_some, Option.getD_some]
    omega

theorem room_of_fewHandles {ops : List RelayOp} (h : FewHandles ops) :
    Run.Along relayStep Room ops RelayState.new := by
  have ha := along_room relayStep (fun op _ ↦ some op) id (fun _ _ ↦ rfl) ops
    (t := RelayState.new) (by decide) ?_
  · simpa using ha
  · have hlt : Run.total relayStep allocs ops RelayState.new < 2 ^ 31 - 1 := h
    change 1 + Run.total relayStep allocs ops RelayState.new < 2 ^ 31
    omega

end MachineNotebook.Host.RelayLedger
