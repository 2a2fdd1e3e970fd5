import MachineNotebook.Host.RelayEffects
import MachineNotebook.Host.RelayFrames

namespace MachineNotebook.Host.RelayDelivery

open MachineNotebook.Lib MachineNotebook.Lib.Utf8 SelectiveQueue Table Relay RelayRun
  RelayLedger RelayEffects RelayFrames

/-- The event that a call of the guest enqueues, as its arguments and its return value give it. -/
def enqueuedBy (op : RelayOp) (out : RelayOut) (s : RelayState) : Option EgressRelayEvent :=
  match op with
  | .httpRequest req => some (.httpRequest out.ret req)
  | .wsConnect url => some (.wsConnect out.ret url)
  | .wsSend h data => if out.ret = -1 then none else some (.wsSend h data)
  | .wsClose h => some (.wsClose h)
  | .approve _ facts => some (.toolApproval out.ret facts.connection facts.method facts.url
    facts.origin facts.argsDigest)
  | .hostCallStart _ req =>
    if out.ret = -1 then none
    else some (.hostCall out.ret (splitRequest req).1 (splitRequest req).2)
  | .hostCallClose h =>
    some (.hostCallClose h (((s.hostCalls h).map HostCallSlot.sidecar).getD false))
  | .persistStart req =>
    if out.ret = -1 then none
    else (splitPersist req).bind fun (o, key, value) ↦ persistEvent o out.ret key value
  | _ => none

/-- The consumer that called, and the frame that it was handed. -/
def poppedBy (op : RelayOp) (out : RelayOut) : Option (Bool × WireRelayEvent) :=
  match op with
  | .relayNext sidecarOnly => out.frame.map fun frame ↦ (sidecarOnly, frame)
  | _ => none

/-- A relay with its past: the events its guest enqueued, and the frames its two
consumers were handed. -/
structure History where
  state : RelayState
  enqueued : List EgressRelayEvent
  popped : List (Bool × WireRelayEvent)

def History.start : History := ⟨RelayState.new, [], []⟩

def historyStep (op : RelayOp) (h : History) : Unit × History :=
  let (out, s) := relayStep op h.state
  ((), {
    state := s
    enqueued := h.enqueued ++ (enqueuedBy op out h.state).toList
    popped := h.popped ++ (poppedBy op out).toList })

def history (ops : List RelayOp) : History := Run.final historyStep ops History.start

/-- The events of the frames, in the order in which they were handed out. -/
def History.taken (h : History) : List EgressRelayEvent :=
  h.popped.filterMap fun p ↦ eventOf p.2

theorem historyStep_state (op : RelayOp) (h : History) :
    (historyStep op h).2.state = (relayStep op h.state).2 := rfl

section Step

variable {op : RelayOp} {s : RelayState}

theorem allocHandle_ne (s : RelayState) : s.allocHandle.1 ≠ -1 := by
  intro he
  simp only [RelayState.allocHandle] at he
  split at he
  · exact absurd he (by decide)
  · rename_i hpos
    exact hpos (he ▸ by decide)

theorem enqueuedBy_eq (op : RelayOp) (s : RelayState) :
    enqueuedBy op (relayStep op s).1 s = pushed s op := by
  cases op with
  | wsSend h data =>
    by_cases hsend : ∀ slot ∈ s.ws h, ¬sends data slot
    · have hany : ¬(s.ws h).any (sends data ·) := by simpa [Option.any_eq_true] using hsend
      simp only [enqueuedBy, relayStep, wsSend_refused hsend, pushed, if_neg hany, if_true]
    · simp only [not_forall, not_not] at hsend
      obtain ⟨slot, hs, hsend⟩ := hsend
      have hany : (s.ws h).any (sends data ·) := by simp [Option.mem_def.mp hs, hsend]
      have hlen : Int32.ofNat data.length ≠ -1 := by
        intro he
        have hlt : data.length < 2 ^ 31 := lt_of_le_of_lt hsend.2.1 (by decide)
        have hcast := Int32.toInt_ofNat_of_lt hlt
        rw [he] at hcast
        exact absurd hcast (by simp)
      simp only [enqueuedBy, relayStep, wsSend_accepted hs hsend, pushed, if_pos hany, if_neg hlen]
  | hostCallStart sidecarOnly req =>
    by_cases hd : sidecarOnly = true ∧ (splitRequest req).1 ≠ SIDECAR_HOST_BINDING
    · simp only [enqueuedBy, relayStep, hostCallStart, pushed, if_pos hd, if_true]
    · simp only [enqueuedBy, relayStep, hostCallStart, pushed, if_neg hd,
        if_neg (allocHandle_ne s)]
  | persistStart req =>
    cases hp : splitPersist req with
    | none => simp only [enqueuedBy, relayStep, persistStart, pushed, hp, Option.bind_none, ite_self]
    | some opkv =>
      obtain ⟨o, key, value⟩ := opkv
      simp only [enqueuedBy, relayStep, persistStart, pushed, hp, Option.bind_some]
      cases he : persistEvent o s.allocHandle.1 key value with
      | none => simp only [if_true]
      | some ev => simp only [if_neg (allocHandle_ne s), he]
  | _ => rfl

theorem events_guest (hop : ∀ so, op ≠ .relayNext so) :
    (relayStep op s).2.events = s.events ++ (enqueuedBy op (relayStep op s).1 s).toList := by
  rw [enqueuedBy_eq, events_step]
  cases op with
  | relayNext so => exact absurd rfl (hop so)
  | _ => rfl

theorem poppedBy_guest (hop : ∀ so, op ≠ .relayNext so) (out : RelayOut) :
    poppedBy op out = none := by
  cases op with
  | relayNext so => exact absurd rfl (hop so)
  | _ => rfl

/-- The two logs of a relay are those of a queue with two consumers. -/
structure Logs (h : History) (d : Delivery EgressRelayEvent) : Prop where
  queue : d.queue = h.state.events
  enqueued : d.enqueued = h.enqueued
  popped : (h.popped.map fun p ↦ (p.1, eventOf p.2)) = d.popped.map fun p ↦ (p.1, some p.2)

theorem Logs.taken {h : History} {d : Delivery EgressRelayEvent} (hl : Logs h d) :
    h.taken = d.popped.map Prod.snd := by
  have hsnd := congrArg (List.filterMap Prod.snd) hl.popped
  simpa [History.taken, List.filterMap_map, Function.comp_def] using hsnd

theorem Logs.mem_popped {h : History} {d : Delivery EgressRelayEvent} (hl : Logs h d)
    {so : Bool} {w : WireRelayEvent} (hw : (so, w) ∈ h.popped) :
    ∃ ev, eventOf w = some ev ∧ (so, ev) ∈ d.popped := by
  have hmem : (so, eventOf w) ∈ d.popped.map fun p ↦ (p.1, some p.2) :=
    hl.popped ▸ List.mem_map_of_mem (f := fun p : Bool × WireRelayEvent ↦ (p.1, eventOf p.2)) hw
  obtain ⟨⟨so', ev⟩, hev, heq⟩ := List.mem_map.mp hmem
  obtain ⟨rfl, he⟩ := Prod.mk.inj heq
  exact ⟨ev, he.symm, hev⟩

theorem Logs.isSome {h : History} {d : Delivery EgressRelayEvent} (hl : Logs h d) :
    ∀ p ∈ h.popped, (eventOf p.2).isSome := by
  intro p hp
  obtain ⟨ev, hev, -⟩ := hl.mem_popped hp
  rw [hev, Option.isSome_some]

/-- On the events, a step of the relay is a step of the queue. -/
theorem Logs.step {h : History} {d : Delivery EgressRelayEvent} (hl : Logs h d) (op : RelayOp) :
    Logs (historyStep op h).2 d ∨ ∃ i, Logs (historyStep op h).2 (d.act isSidecarEvent i) := by
  obtain ⟨hqueue, henqueued, hpopped⟩ := hl
  by_cases hop : ∃ so, op = .relayNext so
  · obtain ⟨so, rfl⟩ := hop
    refine Or.inr ⟨.pop so, ?_⟩
    cases hp : pop isSidecarEvent so h.state.events with
    | none =>
      have hact : d.act isSidecarEvent (.pop so) = d := by simp [Delivery.act, hqueue, hp]
      rw [hact]
      constructor <;> simp [historyStep, relayStep, popEvent, enqueuedBy, poppedBy, *]
    | some evq =>
      obtain ⟨ev, q⟩ := evq
      have hevents : (relayStep (.relayNext so) h.state).2.events = q := by
        simp only [relayStep, popEvent, hp]
        exact congrArg Ledger.queue (ledger_dispatch { h.state with events := q } ev)
      have hframe : poppedBy (.relayNext so) (relayStep (.relayNext so) h.state).1 =
          some (so, (dispatchRelayEvent { h.state with events := q } ev).1) := by
        simp only [relayStep, popEvent, hp, poppedBy, Option.map_some]
      have hact : d.act isSidecarEvent (.pop so) =
          { d with queue := q, popped := d.popped ++ [(so, ev)] } := by
        simp [Delivery.act, hqueue, hp]
      rw [hact]
      refine ⟨hevents.symm, by simp [historyStep, enqueuedBy, henqueued], ?_⟩
      simp [historyStep, hframe, hpopped, eventOf_dispatch]
  · have hop : ∀ so, op ≠ .relayNext so := fun so he ↦ hop ⟨so, he⟩
    have hevents := events_guest (s := h.state) hop
    have hnone := poppedBy_guest hop (relayStep op h.state).1
    cases he : enqueuedBy op (relayStep op h.state).1 h.state with
    | none =>
      refine Or.inl ⟨?_, ?_, ?_⟩ <;> simp [historyStep, *]
    | some e =>
      refine Or.inr ⟨.push e, ?_, ?_, ?_⟩ <;>
        simp [historyStep, Delivery.act, *]

end Step

/-- Every open host call and socket has a handle that was handed out, and no handle
is both. -/
structure Sound (l : Ledger) : Prop where
  call_lt : ∀ h, l.call h ≠ none → h.toInt < l.next.toInt
  socket_lt : ∀ h, l.socket h → h.toInt < l.next.toInt
  disjoint : ∀ h, l.call h ≠ none → l.socket h = false

theorem Sound.step {op : RelayOp} {l l' : Ledger} (h : Sound l) (hs : Ledger.Step op l l') :
    Sound l' := by
  cases hs with
  | start call socket ev hop hnext hev hcall =>
    have hcall' : l.call l.next = none := by
      by_contra hc
      exact lt_irrefl _ (h.call_lt _ hc)
    have hsocket' : l.socket l.next = false := by
      by_contra hc
      exact lt_irrefl _ (h.socket_lt _ (by simpa using hc))
    refine ⟨fun k hk ↦ ?_, fun k hk ↦ ?_, fun k hk ↦ ?_⟩ <;>
      simp only [Ledger.start, hnext, hcall', hsocket', Option.or_none, Bool.or_false] at hk ⊢ <;>
      by_cases hkn : k = l.next
    · subst k; omega
    · have := h.call_lt k (by simpa [hkn] using hk)
      omega
    · subst k; omega
    · have := h.socket_lt k (by simpa [hkn] using hk)
      omega
    · subst k
      simp only [Function.update_self] at hk ⊢
      exact hcall.resolve_left hk
    · simp only [Function.update_of_ne hkn] at hk ⊢
      exact h.disjoint k hk
  | closeCall k =>
    refine ⟨fun j hj ↦ ?_, h.socket_lt, fun j hj ↦ ?_⟩ <;>
      by_cases hjk : j = k
    · simp [hjk] at hj
    · exact h.call_lt j (by simpa [hjk] using hj)
    · simp [hjk] at hj
    · exact h.disjoint j (by simpa [hjk] using hj)
  | closeSocket k =>
    refine ⟨h.call_lt, fun j hj ↦ ?_, fun j hj ↦ ?_⟩ <;>
      by_cases hjk : j = k
    · simp [hjk] at hj
    · exact h.socket_lt j (by simpa [hjk] using hj)
    · simp [hjk]
    · simpa [hjk] using h.disjoint j hj
  | send => exact ⟨h.call_lt, h.socket_lt, h.disjoint⟩
  | pop => exact ⟨h.call_lt, h.socket_lt, h.disjoint⟩
  | stay => exact h

/-- The guest does not close handle `k` before it was handed out, and does not pass
it to `ws_close` while it is an open sidecar call. -/
def Tame (k : Int32) (op : RelayOp) (l : Ledger) : Prop :=
  (op = .hostCallClose k → k.toInt < l.next.toInt) ∧
  (op = .wsClose k → k.toInt < l.next.toInt ∧ l.call k ≠ some true)

instance (k : Int32) (op : RelayOp) (l : Ledger) : Decidable (Tame k op l) :=
  inferInstanceAs (Decidable (_ ∧ _))

/-- Nothing was enqueued for a handle that was not handed out, and nothing but sidecar
events for one that is an open sidecar call. -/
structure Clean (k : Int32) (l : Ledger) (es : List EgressRelayEvent) : Prop where
  fresh : l.next.toInt ≤ k.toInt → ∀ e ∈ es, e.handle ≠ k
  sidecar : l.call k = some true → ∀ e ∈ es, e.handle = k → isSidecarEvent e

theorem Clean.push {k : Int32} {l l' : Ledger} {es : List EgressRelayEvent}
    {ev : EgressRelayEvent} (h : Clean k l es) (hnext : l'.next = l.next)
    (hcall : l'.call k = some true → l.call k = some true)
    (hfresh : l.next.toInt ≤ k.toInt → ev.handle ≠ k)
    (hside : l.call k = some true → ev.handle = k → isSidecarEvent ev) :
    Clean k l' (es ++ [ev]) := by
  constructor
  · intro hk e he
    rw [hnext] at hk
    rcases List.mem_append.mp he with he | he
    · exact h.fresh hk e he
    · rw [List.mem_singleton.mp he]
      exact hfresh hk
  · intro hk e he hek
    rcases List.mem_append.mp he with he | he
    · exact h.sidecar (hcall hk) e he hek
    · rw [List.mem_singleton.mp he] at hek ⊢
      exact hside (hcall hk) hek

structure Enqueued (op : RelayOp) (l l' : Ledger) (ev : Option EgressRelayEvent) : Prop where
  guest : (∀ so, op ≠ .relayNext so) → l'.queue = l.queue ++ ev.toList
  host : ∀ so, op = .relayNext so → ev = none

theorem Enqueued.eq {op : RelayOp} {l l' : Ledger} {ev o : Option EgressRelayEvent}
    (h : Enqueued op l l' ev) (hop : ∀ so, op ≠ .relayNext so)
    (hqueue : l'.queue = l.queue ++ o.toList) : ev = o := by
  have hlist : ev.toList = o.toList :=
    List.append_cancel_left ((h.guest hop).symm.trans hqueue)
  simpa only [Option.head?_toList] using congrArg List.head? hlist

theorem enqueued_step (op : RelayOp) (s : RelayState) :
    Enqueued op (ledger s) (ledger (relayStep op s).2) (enqueuedBy op (relayStep op s).1 s) := by
  refine ⟨events_guest, fun so hop ↦ ?_⟩
  rw [hop]
  rfl

theorem Clean.step {k : Int32} {op : RelayOp} {l l' : Ledger} {es : List EgressRelayEvent}
    {ev : Option EgressRelayEvent} (h : Clean k l es) (hl : Sound l) (ht : Tame k op l)
    (hs : Ledger.Step op l l') (hev : Enqueued op l l' ev) : Clean k l' (es ++ ev.toList) := by
  cases hs with
  | start call socket ev' hop hnext hev' hcall =>
    obtain rfl : ev = ev' := hev.eq hop rfl
    have hcall' : l.call l.next = none := by
      by_contra hc
      exact lt_irrefl _ (hl.call_lt _ hc)
    constructor
    · intro hk e he
      simp only [Ledger.start, hnext] at hk
      rcases List.mem_append.mp he with he | he
      · exact h.fresh (by omega) e he
      · have hh := (hev' e (by simpa using he)).1
        intro hek
        rw [← hek, hh] at hk
        omega
    · intro hk e he hek
      simp only [Ledger.start, hcall', Option.or_none] at hk
      rcases List.mem_append.mp he with he | he
      · by_cases hkn : k = l.next
        · exact absurd hek (h.fresh (by rw [hkn]) e he)
        · exact h.sidecar (by simpa [hkn] using hk) e he hek
      · obtain ⟨hh, hside⟩ := hev' e (by simpa using he)
        have hkn : k = l.next := hek.symm.trans hh
        exact hside.mpr (by simpa [hkn] using hk)
  | send j data hop hj =>
    obtain rfl := hev.eq (o := some _) (by simp [hop]) rfl
    refine h.push rfl id ?_ ?_
    · intro hk heq
      obtain rfl : j = k := heq
      exact absurd (hl.socket_lt j hj) (by omega)
    · intro hk heq
      obtain rfl : j = k := heq
      have hnone := hl.disjoint j (by rw [hk]; exact Option.some_ne_none true)
      simp [hnone] at hj
  | closeCall j hop =>
    obtain rfl := hev.eq (o := some _) (by simp [hop]) rfl
    refine h.push rfl ?_ ?_ ?_
    · intro hk
      have hkj : k ≠ j := by
        intro heq
        subst heq
        simp at hk
      simpa [hkj] using hk
    · intro hk heq
      obtain rfl : j = k := heq
      exact absurd (ht.1 hop) (by omega)
    · intro hk heq
      obtain rfl : j = k := heq
      simp [isSidecarEvent, hk]
  | closeSocket j hop =>
    obtain rfl := hev.eq (o := some _) (by simp [hop]) rfl
    refine h.push rfl id ?_ ?_
    · intro hk heq
      obtain rfl : j = k := heq
      exact absurd (ht.2 hop).1 (by omega)
    · intro hk heq
      obtain rfl : j = k := heq
      exact absurd hk (ht.2 hop).2
  | pop so hop =>
    rw [hev.host so hop, Option.toList_none, List.append_nil]
    exact ⟨h.fresh, h.sidecar⟩
  | stay =>
    by_cases hop : ∃ so, op = .relayNext so
    · obtain ⟨so, hop⟩ := hop
      rw [hev.host so hop, Option.toList_none, List.append_nil]
      exact h
    · have hnone := hev.eq (o := none) (fun so he ↦ hop ⟨so, he⟩) (List.append_nil _).symm
      rw [hnone, Option.toList_none, List.append_nil]
      exact h

def ofHandle (k : Int32) (e : EgressRelayEvent) : Bool := e.handle == k

theorem Clean.sorted {k : Int32} {op : RelayOp} {l l' : Ledger} {es : List EgressRelayEvent}
    {ev : Option EgressRelayEvent} (h : Clean k l es) (hs : Ledger.Step op l l')
    (hev : Enqueued op l l' ev) (hes : Sorted isSidecarEvent (ofHandle k) es) :
    Sorted isSidecarEvent (ofHandle k) (es ++ ev.toList) := by
  cases ev with
  | none => simpa using hes
  | some e =>
    have hop : ∀ so, op ≠ .relayNext so := fun so hop ↦ Option.some_ne_none e (hev.host so hop)
    refine sorted_append.mpr ⟨hes, fun hek hside b hb hbk ↦ ?_⟩
    simp only [ofHandle, beq_iff_eq] at hek hbk
    cases hs with
    | start call socket ev' _ hnext hev' hcall =>
      obtain rfl := hev.eq hop rfl
      have hnk : l.next = k := (hev' e rfl).1.symm.trans hek
      exact absurd hbk (h.fresh (by rw [hnk]) b hb)
    | send j data =>
      obtain rfl := Option.some.inj (hev.eq (o := some _) hop rfl)
      simp [isSidecarEvent] at hside
    | closeCall j =>
      obtain rfl := Option.some.inj (hev.eq (o := some _) hop rfl)
      obtain rfl : j = k := hek
      have hopen : l.call j = some true := by
        cases hc : l.call j with
        | none => simp [isSidecarEvent, hc] at hside
        | some flag => simpa [isSidecarEvent, hc] using hside
      exact h.sidecar hopen b hb hbk
    | closeSocket j =>
      obtain rfl := Option.some.inj (hev.eq (o := some _) hop rfl)
      simp [isSidecarEvent] at hside
    | pop so he => exact absurd he (hop so)
    | stay => exact absurd (hev.eq (o := none) hop (List.append_nil _).symm) (Option.some_ne_none e)

/-- What holds of every history: its logs are those of a queue that loses nothing, and every
handle whose events were enqueued sorted is in order. -/
def Delivered (h : History) : Prop :=
  ∃ d, Logs h d ∧ d.Conserved isSidecarEvent ∧ ∀ k,
    Sorted isSidecarEvent (ofHandle k) d.enqueued → d.InOrder isSidecarEvent (ofHandle k)

theorem Delivered.step (op : RelayOp) (h : History) (hd : Delivered h) :
    Delivered (historyStep op h).2 := by
  obtain ⟨d, hlogs, hc, ho⟩ := hd
  rcases hlogs.step op with hl | ⟨i, hl⟩
  · exact ⟨d, hl, hc, ho⟩
  · refine ⟨d.act isSidecarEvent i, hl, d.conserved_step i hc, fun k hk ↦ ?_⟩
    exact d.inOrder_step i hc hk (ho k (hk.sublist (d.act_enqueued i).sublist))

theorem delivered_start : Delivered History.start := by
  refine ⟨⟨[], [], []⟩, ⟨rfl, rfl, rfl⟩, ⟨by simp, by simp⟩, fun k _ ↦ ?_⟩
  exact ⟨List.Pairwise.nil, rfl⟩

/-- What holds besides for a handle that the guest treats as its own. -/
structure Kept (k : Int32) (h : History) : Prop where
  sound : Sound (ledger h.state)
  clean : Clean k (ledger h.state) h.enqueued
  sorted : Sorted isSidecarEvent (ofHandle k) h.enqueued

theorem Kept.step {k : Int32} (op : RelayOp) (h : History)
    (hr : Room op h.state ∧ Tame k op (ledger h.state)) (hk : Kept k h) :
    Kept k (historyStep op h).2 := by
  obtain ⟨hroom, htame⟩ := hr
  have hs := ledger_step hroom
  have hev := enqueued_step op h.state
  exact ⟨hk.sound.step hs, hk.clean.step hk.sound htame hs hev, hk.clean.sorted hs hev hk.sorted⟩

theorem kept_start (k : Int32) : Kept k History.start := by
  refine ⟨⟨?_, ?_, ?_⟩, ⟨?_, ?_⟩, List.Pairwise.nil⟩ <;>
    simp [ledger, History.start, RelayState.new]

def sidecarRequest : Bytes := [109, 99, 46, 115, 105, 100, 101, 99, 97, 114]

/-- A guest that passes its open sidecar call to `ws_close` and then closes the call. -/
def closedAsSocket : List RelayOp :=
  [.hostCallStart false sidecarRequest, .wsClose 1, .hostCallClose 1, .relayNext true,
    .relayNext true, .relayNext false]

/-- A guest that closes a handle before it is handed out. -/
def closedEarly (close : RelayOp) : List RelayOp :=
  [close, .hostCallStart false sidecarRequest, .relayNext true, .relayNext false]

end MachineNotebook.Host.RelayDelivery
