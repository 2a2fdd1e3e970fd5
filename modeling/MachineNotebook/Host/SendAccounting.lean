import MachineNotebook.Host.RelayEffects
import MachineNotebook.Host.RelayLedger

namespace MachineNotebook.Host.SendAccounting

open MachineNotebook.Lib MachineNotebook.Lib.Utf8 Table Relay RelayRun RelayLedger RelayEffects

def sendBytes (h : Int32) : EgressRelayEvent → ℕ
  | .wsSend h' data => if h' = h then data.length else 0
  | _ => 0

/-- The bytes of the messages sent on a socket that no consumer has popped. -/
def undelivered (h : Int32) (q : List EgressRelayEvent) : ℕ := (q.map (sendBytes h)).sum

/-- The counter of every socket is its undelivered bytes, and a handle that was not handed
out has neither. -/
structure Accounted (s : RelayState) : Prop where
  fresh : ∀ h, s.next.toInt ≤ h.toInt → s.ws h = none ∧ undelivered h s.events = 0
  queued : ∀ h, ∀ slot ∈ s.ws h,
    slot.queuedBytes = undelivered h s.events ∧ slot.queuedBytes ≤ WS_SEND_MARK

section Step

variable {s : RelayState} {op : RelayOp} {h : Int32}

theorem undelivered_append (q : List EgressRelayEvent) (ev : EgressRelayEvent) :
    undelivered h (q ++ [ev]) = undelivered h q + sendBytes h ev := by
  simp [undelivered]

theorem undelivered_popped {so : Bool} {ev : EgressRelayEvent} (hp : popped so s = some ev) :
    undelivered h s.events =
      sendBytes h ev + undelivered h (relayStep (.relayNext so) s).2.events := by
  obtain ⟨⟨ev', q⟩, hpop, rfl⟩ := Option.map_eq_some_iff.mp hp
  have hq : (relayStep (.relayNext so) s).2.events = q := by
    simp [events_step, eventsAfter, hpop]
  rw [hq]
  exact SelectiveQueue.pop_sum (sendBytes h) hpop

theorem undelivered_idle {so : Bool} (hp : popped so s = none) :
    (relayStep (.relayNext so) s).2.events = s.events := by
  have hpop := Option.map_eq_none_iff.mp hp
  simp [events_step, eventsAfter, hpop]

theorem undelivered_kept (hsend : ∀ h' data, op ≠ .wsSend h' data)
    (hnext : ∀ so, op ≠ .relayNext so) :
    undelivered h (relayStep op s).2.events = undelivered h s.events := by
  have happend : (relayStep op s).2.events = s.events ++ (pushed s op).toList := by
    rw [events_step]
    cases op <;> first | rfl | exact absurd rfl (hnext _)
  rw [happend]
  cases hp : pushed s op with
  | none => simp
  | some ev =>
    have hev : sendBytes h ev = 0 := by
      cases op with
      | wsSend h' data => exact absurd rfl (hsend h' data)
      | httpRequest req => cases hp; rfl
      | wsConnect url => cases hp; rfl
      | wsClose h' => cases hp; rfl
      | approve tx facts => cases hp; rfl
      | hostCallClose h' => cases hp; rfl
      | hostCallStart sidecarOnly req =>
        simp only [pushed, Option.ite_none_left_eq_some, Option.some.injEq] at hp
        obtain ⟨-, rfl⟩ := hp
        rfl
      | persistStart req =>
        obtain ⟨⟨o, key, value⟩, -, hev⟩ := Option.bind_eq_some_iff.mp hp
        simp only [persistEvent] at hev
        split at hev <;> cases hev <;> rfl
      | _ => cases hp
    rw [Option.toList_some, undelivered_append, hev, Nat.add_zero]

theorem recvSlot_queuedBytes (buf : ℕ) (slot : WsSlot) :
    (recvSlot buf slot).queuedBytes = slot.queuedBytes := by
  simp only [recvSlot]
  repeat' split
  all_goals rfl

theorem wsEffect_queuedBytes (hsend : ∀ h' data, op ≠ .wsSend h' data)
    (hnext : ∀ so, op ≠ .relayNext so) {h' : Int32} {f : WsSlot → WsSlot}
    (he : wsEffect s op = some (h', f)) (slot : WsSlot) :
    (f slot).queuedBytes = slot.queuedBytes := by
  cases op with
  | wsSend h' data => exact absurd rfl (hsend h' data)
  | relayNext so => exact absurd rfl (hnext so)
  | wsRecv h' buf =>
    cases he
    exact recvSlot_queuedBytes buf slot
  | wsOpen h' ok =>
    simp only [wsEffect, Option.ite_none_right_eq_some, Option.some.injEq, Prod.mk.injEq] at he
    obtain ⟨-, -, rfl⟩ := he
    rfl
  | wsPush h' data =>
    simp only [wsEffect, Option.ite_none_right_eq_some, Option.some.injEq, Prod.mk.injEq] at he
    obtain ⟨-, -, rfl⟩ := he
    rfl
  | wsHostClose h' =>
    simp only [wsEffect, Option.ite_none_right_eq_some, Option.some.injEq, Prod.mk.injEq] at he
    obtain ⟨-, -, rfl⟩ := he
    rfl
  | _ => cases he

def steady : RelayOp → Bool
  | .wsConnect _ | .wsSend _ _ | .wsClose _ | .relayNext _ => false
  | _ => true

theorem ws_steady (hop : steady op = true) (h : Int32) :
    ((relayStep op s).2.ws h).map WsSlot.queuedBytes = (s.ws h).map WsSlot.queuedBytes := by
  apply ws_kept
  · rintro url rfl
    cases hop
  · rintro rfl
    cases hop
  · intro f he slot
    refine wsEffect_queuedBytes ?_ ?_ he slot
    · rintro h' data rfl
      cases hop
    · rintro so rfl
      cases hop

theorem next_le (hr : Room op s) : s.next.toInt ≤ (relayStep op s).2.next.toInt := by
  have := next_step hr
  omega

theorem Accounted.steady (hr : Room op s) (ha : Accounted s) (hop : steady op = true) :
    Accounted (relayStep op s).2 := by
  have hsame : ∀ h, undelivered h (relayStep op s).2.events = undelivered h s.events := by
    intro h
    apply undelivered_kept
    · rintro h' data rfl
      cases hop
    · rintro so rfl
      cases hop
  constructor
  · intro h hh
    obtain ⟨hnone, hzero⟩ := ha.fresh h (le_trans (next_le hr) hh)
    refine ⟨?_, (hsame h).trans hzero⟩
    have hws := ws_steady (s := s) hop h
    rw [hnone] at hws
    exact Option.map_eq_none_iff.mp hws
  · intro h slot' hs'
    have hws := ws_steady (s := s) hop h
    rw [Option.mem_def.mp hs', Option.map_some] at hws
    obtain ⟨slot, hs, heq⟩ := Option.map_eq_some_iff.mp hws.symm
    rw [hsame, ← heq]
    exact ha.queued h slot hs

theorem Accounted.connect {url : String} (hr : Room (.wsConnect url) s) (ha : Accounted s) :
    Accounted (relayStep (.wsConnect url) s).2 := by
  obtain ⟨halloc, hsucc⟩ := hr.alloc rfl
  have hws : (relayStep (.wsConnect url) s).2.ws = s.ws.insert s.next {} := by
    rw [ws_step, wsAfter, halloc]
  have hnext : (relayStep (.wsConnect url) s).2.next = s.next + 1 :=
    congrArg (fun p ↦ p.2.next) halloc
  have hsame : ∀ h, undelivered h (relayStep (.wsConnect url) s).2.events =
      undelivered h s.events := fun h ↦ undelivered_kept (by simp) (by simp)
  constructor
  · intro h hh
    rw [hnext, hsucc] at hh
    have hne : h ≠ s.next := by
      rintro rfl
      omega
    rw [hws, hsame, Slots.insert_of_ne _ _ hne]
    exact ha.fresh h (by omega)
  · intro h slot hs
    rw [hws] at hs
    rw [hsame]
    by_cases hh : h = s.next
    · subst h
      rw [Slots.insert_self] at hs
      cases hs
      exact ⟨(ha.fresh s.next le_rfl).2.symm, Nat.zero_le _⟩
    · rw [Slots.insert_of_ne _ _ hh] at hs
      exact ha.queued h slot hs

theorem Accounted.close {h' : Int32} (hr : Room (.wsClose h') s) (ha : Accounted s) :
    Accounted (relayStep (.wsClose h') s).2 := by
  have hws : ∀ h slot, (relayStep (.wsClose h') s).2.ws h = some slot → s.ws h = some slot := by
    intro h slot hs
    rw [ws_step] at hs
    by_cases hh : h = h'
    · simp [wsAfter, hh] at hs
    · simpa [wsAfter, hh] using hs
  have hsame : ∀ h, undelivered h (relayStep (.wsClose h') s).2.events =
      undelivered h s.events := fun h ↦ undelivered_kept (by simp) (by simp)
  constructor
  · intro h hh
    obtain ⟨hnone, hzero⟩ := ha.fresh h (le_trans (next_le hr) hh)
    refine ⟨?_, (hsame h).trans hzero⟩
    exact Option.eq_none_iff_forall_ne_some.mpr fun slot hs ↦
      Option.some_ne_none slot ((hws h slot hs).symm.trans hnone)
  · intro h slot hs
    rw [hsame]
    exact ha.queued h slot (hws h slot hs)

theorem Accounted.send {h' : Int32} {data : Bytes} (ha : Accounted s) :
    Accounted (relayStep (.wsSend h' data) s).2 := by
  by_cases hsend : ∀ slot ∈ s.ws h', ¬sends data slot
  · simpa only [relayStep, wsSend_refused hsend] using ha
  · simp only [not_forall, not_not] at hsend
    obtain ⟨slot, hs, hsend⟩ := hsend
    have hq := (ha.queued h' slot hs).1
    simp only [relayStep, wsSend_accepted hs hsend, RelayState.pushBack]
    constructor
    · intro h hh
      obtain ⟨hnone, hzero⟩ := ha.fresh h hh
      have hne : h ≠ h' := by
        rintro rfl
        rw [hnone] at hs
        cases hs
      simp [undelivered_append, sendBytes, hne.symm, Slots.insert_of_ne _ _ hne, hnone, hzero]
    · intro h slot' hs'
      simp only [undelivered_append, sendBytes]
      by_cases hh : h = h'
      · subst h
        simp only [Slots.insert_self, Option.mem_some_iff] at hs'
        subst slot'
        simp only [sendSlot, if_pos hsend, if_true]
        exact ⟨by rw [hq], hsend.2.2.2⟩
      · simp only [Slots.insert_of_ne _ _ hh] at hs'
        simpa [Ne.symm hh] using ha.queued h slot' hs'

theorem Accounted.counted {so : Bool} {data : Bytes} {slot : WsSlot} (ha : Accounted s)
    (hp : popped so s = some (.wsSend h data)) (hs : s.ws h = some slot) :
    slot.queuedBytes =
      data.length + undelivered h (relayStep (.relayNext so) s).2.events := by
  rw [(ha.queued h slot hs).1, undelivered_popped hp]
  simp [sendBytes]

theorem Accounted.next {so : Bool} (hr : Room (.relayNext so) s) (ha : Accounted s) :
    Accounted (relayStep (.relayNext so) s).2 := by
  have hws : (relayStep (.relayNext so) s).2.ws = wsAfter s (.relayNext so) := ws_step _
  cases hp : popped so s with
  | none =>
    simp only [wsAfter, wsEffect, hp, Option.map_none, Option.getD_none] at hws
    constructor
    · intro h hh
      rw [hws, undelivered_idle hp]
      exact ha.fresh h (le_trans (next_le hr) hh)
    · intro h slot hs
      rw [undelivered_idle hp]
      exact ha.queued h slot (by rwa [hws] at hs)
  | some ev =>
    have hsum := fun h ↦ undelivered_popped (h := h) hp
    constructor
    · intro h hh
      obtain ⟨hnone, hzero⟩ := ha.fresh h (le_trans (next_le hr) hh)
      refine ⟨?_, by have := hsum h; omega⟩
      rw [hws]
      cases ev <;> simp [wsAfter, wsEffect, hp, Slots.modify_apply, hnone]
    · intro h slot' hs'
      rw [hws] at hs'
      cases ev with
      | wsSend h' data =>
        simp only [wsAfter, wsEffect, hp, Option.map_some, Option.getD_some,
          Slots.modify_apply, Option.mem_def, Option.map_eq_some_iff] at hs'
        obtain ⟨slot, hs, rfl⟩ := hs'
        have hle := (ha.queued h slot hs).2
        by_cases hh : h' = h
        · subst h'
          have hcount := ha.counted hp hs
          simp only [if_true]
          omega
        · have hsame := hsum h
          simp only [sendBytes, if_neg hh, Nat.zero_add] at hsame
          rw [if_neg hh, ← hsame]
          exact ha.queued h slot hs
      | _ =>
        have hsame := hsum h
        simp only [sendBytes, Nat.zero_add] at hsame
        rw [← hsame]
        exact ha.queued h slot' (by simpa [wsAfter, wsEffect, hp] using hs')

theorem Accounted.step (op : RelayOp) (s : RelayState) (hr : Room op s) (ha : Accounted s) :
    Accounted (relayStep op s).2 := by
  cases op with
  | wsConnect url => exact ha.connect hr
  | wsSend h data => exact ha.send
  | wsClose h => exact ha.close hr
  | relayNext so => exact ha.next hr
  | _ => exact ha.steady hr rfl

theorem accounted_run {ops : List RelayOp} (hn : FewHandles ops) : Accounted (run ops) :=
  (room_of_fewHandles hn).invariant Accounted.step
    ⟨fun _ _ ↦ ⟨rfl, rfl⟩, fun _ _ hs ↦ by cases hs⟩

end Step

theorem ofNat_ne_neg_one {n : ℕ} (hn : n ≤ WS_SEND_MARK) : Int32.ofNat n ≠ -1 := by
  intro he
  have hneg : (-1 : Int32).toInt = -1 := rfl
  have hint := congrArg Int32.toInt he
  rw [Int32.toInt_ofNat_of_lt (by unfold WS_SEND_MARK at hn; omega), hneg] at hint
  omega

theorem wsSend_ret_iff {s : RelayState} {h : Int32} {slot : WsSlot} (hs : s.ws h = some slot)
    (hopen : slot.isOpen = true) (hfailed : slot.failed = false) (data : Bytes) :
    (wsSend h data s).1 = -1 ↔ WS_SEND_MARK < slot.queuedBytes + data.length := by
  by_cases hsend : sends data slot
  · have hle := hsend.2.2.2
    rw [wsSend_accepted hs hsend]
    constructor
    · intro he
      exact absurd he (ofNat_ne_neg_one hsend.2.1)
    · omega
  · rw [wsSend_refused (by simpa [hs] using hsend)]
    simp only [true_iff]
    by_contra hle
    exact hsend ⟨hfailed, by omega, hopen, by omega⟩

/-- The counter of a socket is the bytes sent on it that no consumer has popped, it stays
within the mark, popping a message never takes more off it than it holds, and a message for an
open socket is refused exactly when it would push the undelivered bytes over the mark. -/
theorem send_accounting (ops : List RelayOp) (hn : FewHandles ops) (h : Int32) (slot : WsSlot)
    (hs : (run ops).ws h = some slot) :
    slot.queuedBytes = undelivered h (run ops).events ∧ slot.queuedBytes ≤ WS_SEND_MARK ∧
      (∀ so data, popped so (run ops) = some (.wsSend h data) → data.length ≤ slot.queuedBytes) ∧
      (slot.isOpen = true → slot.failed = false → ∀ data, (wsSend h data (run ops)).1 = -1 ↔
        WS_SEND_MARK < undelivered h (run ops).events + data.length) := by
  have ha := accounted_run hn
  obtain ⟨hq, hle⟩ := ha.queued h slot hs
  refine ⟨hq, hle, ?_, ?_⟩
  · intro so data hp
    have := ha.counted hp hs
    omega
  · intro hopen hfailed data
    rw [← hq]
    exact wsSend_ret_iff hs hopen hfailed data

theorem send_accounting_two_sent :
    undelivered 1 (run [.wsConnect "wss://a", .wsOpen 1 1, .wsSend 1 [1, 2, 3], .wsSend 1 [4],
      .relayNext false, .relayNext false]).events = 1 :=
  ((send_accounting [.wsConnect "wss://a", .wsOpen 1 1, .wsSend 1 [1, 2, 3], .wsSend 1 [4],
    .relayNext false, .relayNext false] (by decide) 1 { isOpen := true, queuedBytes := 1 }
      (by decide)).1).symm

end MachineNotebook.Host.SendAccounting
