import MachineNotebook.Host.RelayEffects
import MachineNotebook.Lib.MessageStream

namespace MachineNotebook.Host.SocketStream

open MachineNotebook.Lib MachineNotebook.Lib.Utf8 MessageStream Table Relay RelayRun RelayAnswers
  RelayEffects

def stream (slot : WsSlot) : Messages UInt8 := ⟨slot.incoming, slot.incomingPos⟩

/-- A host call with this handle finds the socket of handle `h`. -/
def Reaches (h : Int32) (handle : Int64) (s : RelayState) : Prop :=
  0 < handle ∧ handle.toInt32 = h ∧ (s.ws h).isSome

instance (h : Int32) (handle : Int64) (s : RelayState) : Decidable (Reaches h handle s) :=
  inferInstanceAs (Decidable (_ ∧ _ ∧ _))

/-- A relay with what went over one of its sockets since it was connected: the bytes the host
pushed, those the guest received, and whether the host closed it after it last opened it. -/
structure Traffic where
  state : RelayState
  pushed : Bytes
  received : Bytes
  closed : Bool

def trafficStep (h : Int32) (op : RelayOp) (t : Traffic) : Unit × Traffic :=
  let (out, state) := relayStep op t.state
  ((), match op with
  | .wsConnect _ =>
    if t.state.allocHandle.1 = h then ⟨state, [], [], false⟩ else { t with state }
  | .wsPush handle data =>
    { t with state, pushed := if Reaches h handle t.state then t.pushed ++ data else t.pushed }
  | .wsRecv h' _ =>
    { t with state, received := if h' = h then t.received ++ out.bytes else t.received }
  | .wsOpen handle ok =>
    { t with state, closed := if Reaches h handle t.state ∧ ok ≠ 0 then false else t.closed }
  | .wsHostClose handle =>
    { t with state, closed := if Reaches h handle t.state then true else t.closed }
  | _ => { t with state })

def traffic (h : Int32) (ops : List RelayOp) : Traffic :=
  Run.final (trafficStep h) ops ⟨RelayState.new, [], [], false⟩

theorem trafficStep_state (h : Int32) (op : RelayOp) (t : Traffic) :
    (trafficStep h op t).2.state = (relayStep op t.state).2 := by
  cases op with
  | wsConnect url =>
    simp only [trafficStep]
    split <;> rfl
  | _ => rfl

theorem traffic_state (h : Int32) (ops : List RelayOp) : (traffic h ops).state = run ops :=
  Run.final_proj (trafficStep_state h) ops _

section Slots

variable {s : RelayState} {h : Int32} {slot : WsSlot} {buf : ℕ}

theorem stream_recvSlot (hf : slot.failed = false) :
    stream (recvSlot buf slot) = (stream slot).read buf := by
  simp only [recvSlot, hf, Bool.false_eq_true, if_false, Messages.read, stream]
  cases hin : slot.incoming with
  | nil => simp [hin]
  | cons front rest =>
    by_cases hge : slot.incomingPos + min (front.length - slot.incomingPos) buf ≥ front.length
    · simp only [if_pos hge]
      exact (if_pos hge).symm
    · simp only [if_neg hge]
      exact (if_neg hge).symm

theorem wsRecv_failed (hs : s.ws h = some slot) (hf : slot.failed = true) :
    wsRecv h buf s = (-1, [], s) := by
  simp [wsRecv, hs, hf]

theorem wsRecv_out (hs : s.ws h = some slot) (hf : slot.failed = false) :
    (wsRecv h buf s).1 = Int32.ofNat ((stream slot).chunk buf).length ∧
      (wsRecv h buf s).2.1 = (stream slot).chunk buf := by
  simp only [wsRecv, hs, hf, Bool.false_eq_true, if_false, stream, Messages.chunk]
  cases slot.incoming with
  | nil => exact ⟨rfl, rfl⟩
  | cons front rest =>
    have hlen : min (front.length - slot.incomingPos) buf =
        ((front.drop slot.incomingPos).take buf).length := by
      rw [List.length_take, List.length_drop, Nat.min_comm]
    simp only
    rw [hlen]
    refine ⟨rfl, ?_⟩
    rw [List.length_take, ← List.take_eq_take_min]

theorem answered_ws (f : WsSlot → WsSlot) (handle : Int64) :
    ((if 0 < handle then some (handle.toInt32, f) else none).map
        fun (h, f) ↦ s.ws.modify h f).getD s.ws h =
      if Reaches h handle s then (s.ws h).map f else s.ws h := by
  by_cases hpos : 0 < handle
  · simp only [if_pos hpos, Option.map_some, Option.getD_some, Slots.modify_apply]
    cases hs : s.ws h with
    | none => simp
    | some slot =>
      simp only [Reaches, hs, hpos, Option.isSome_some, true_and, and_true, Option.map_some]
      split <;> rfl
  · simp [Reaches, hpos]

end Slots

/-- What the guest received and what it can still read is what the host pushed. -/
def Streamed (h : Int32) (t : Traffic) : Prop :=
  ∀ slot ∈ t.state.ws h,
    t.received ++ (stream slot).unread = t.pushed ∧ (stream slot).InFront

section Step

variable {h : Int32} {t : Traffic} {op : RelayOp}

theorem Streamed.kept (ht : Streamed h t) {t' : Traffic} (hpushed : t'.pushed = t.pushed)
    (hreceived : t'.received = t.received)
    (hws : (t'.state.ws h).map stream = (t.state.ws h).map stream) : Streamed h t' := by
  intro slot' hs'
  rw [Option.mem_def.mp hs', Option.map_some] at hws
  obtain ⟨slot, hs, heq⟩ := Option.map_eq_some_iff.mp hws.symm
  rw [hpushed, hreceived, ← heq]
  exact ht slot hs

theorem Streamed.same (ht : Streamed h t) (op : RelayOp)
    (hpushed : (trafficStep h op t).2.pushed = t.pushed)
    (hreceived : (trafficStep h op t).2.received = t.received)
    (hconnect : ∀ url, op ≠ .wsConnect url) (hclose : op ≠ .wsClose h)
    (hf : ∀ f, wsEffect t.state op = some (h, f) → ∀ slot, stream (f slot) = stream slot) :
    Streamed h (trafficStep h op t).2 := by
  refine ht.kept hpushed hreceived ?_
  rw [trafficStep_state]
  exact ws_kept stream hconnect hclose hf

theorem Streamed.connect {url : String} (ht : Streamed h t) :
    Streamed h (trafficStep h (.wsConnect url) t).2 := by
  have hws : (relayStep (.wsConnect url) t.state).2.ws = t.state.ws.insert t.state.allocHandle.1 {} :=
    ws_step _
  by_cases hh : t.state.allocHandle.1 = h
  · intro slot hs
    simp only [trafficStep, hh, if_true, hws, Slots.insert_self, Option.mem_some_iff] at hs ⊢
    subst slot
    exact ⟨rfl, Or.inl rfl⟩
  · refine ht.kept ?_ ?_ ?_
    · simp only [trafficStep, if_neg hh]
    · simp only [trafficStep, if_neg hh]
    · rw [trafficStep_state, hws, Slots.insert_of_ne _ _ (Ne.symm hh)]

theorem Streamed.push {handle : Int64} {data : Bytes} (ht : Streamed h t) :
    Streamed h (trafficStep h (.wsPush handle data) t).2 := by
  have hws : (relayStep (.wsPush handle data) t.state).2.ws h = if Reaches h handle t.state
      then (t.state.ws h).map fun slot ↦ { slot with incoming := slot.incoming ++ [data] }
      else t.state.ws h := by
    rw [ws_step]
    exact answered_ws _ handle
  by_cases hr : Reaches h handle t.state
  · rw [if_pos hr] at hws
    intro slot' hs'
    rw [trafficStep_state, hws, Option.mem_def, Option.map_eq_some_iff] at hs'
    obtain ⟨slot, hs, rfl⟩ := hs'
    obtain ⟨hgot, hin⟩ := ht slot hs
    have hpush : stream { slot with incoming := slot.incoming ++ [data] } =
        (stream slot).push data := rfl
    simp only [trafficStep, if_pos hr]
    rw [hpush, Messages.unread_push hin, ← List.append_assoc, hgot]
    exact ⟨rfl, hin.push data⟩
  · refine ht.kept ?_ rfl ?_
    · simp only [trafficStep, if_neg hr]
    · rw [trafficStep_state, hws, if_neg hr]

theorem Streamed.recv {h' : Int32} {buf : ℕ} (ht : Streamed h t) :
    Streamed h (trafficStep h (.wsRecv h' buf) t).2 := by
  have hws : (relayStep (.wsRecv h' buf) t.state).2.ws = t.state.ws.modify h' (recvSlot buf) :=
    ws_step _
  by_cases hh : h' = h
  · subst h'
    intro slot' hs'
    rw [trafficStep_state, hws, Slots.modify_apply, Option.mem_def, Option.map_eq_some_iff] at hs'
    obtain ⟨slot, hs, rfl⟩ := hs'
    obtain ⟨hgot, hin⟩ := ht slot hs
    simp only [if_true, trafficStep, relayStep]
    cases hf : slot.failed with
    | true =>
      rw [wsRecv_failed hs hf, recvSlot, if_pos hf, List.append_nil]
      exact ⟨hgot, hin⟩
    | false =>
      rw [(wsRecv_out hs hf).2, stream_recvSlot hf, List.append_assoc,
        Messages.chunk_append_unread]
      exact ⟨hgot, hin.read buf⟩
  · refine ht.kept rfl ?_ ?_
    · simp only [trafficStep, if_neg hh]
    · rw [trafficStep_state, hws, Slots.modify_apply]
      simp [hh]

theorem Streamed.step (op : RelayOp) (t : Traffic) (ht : Streamed h t) :
    Streamed h (trafficStep h op t).2 := by
  cases op with
  | wsConnect url => exact ht.connect
  | wsPush handle data => exact ht.push
  | wsRecv h' buf => exact ht.recv
  | wsClose h' =>
    by_cases hh : h = h'
    · subst h'
      intro slot hs
      rw [trafficStep_state, ws_step] at hs
      simp [wsAfter] at hs
    · refine ht.kept rfl rfl ?_
      rw [trafficStep_state, ws_step, wsAfter, Slots.remove_of_ne _ hh]
  | wsSend h' data =>
    refine ht.same (.wsSend h' data) rfl rfl (by simp) (by simp) ?_
    intro f he slot
    cases he
    simp only [sendSlot]
    split <;> rfl
  | relayNext so =>
    refine ht.same (.relayNext so) rfl rfl (by simp) (by simp) ?_
    intro f he slot
    simp only [wsEffect] at he
    split at he <;> cases he
    rfl
  | wsOpen handle ok =>
    refine ht.same (.wsOpen handle ok) rfl rfl (by simp) (by simp) ?_
    intro f he slot
    simp only [wsEffect, Option.ite_none_right_eq_some, Option.some.injEq, Prod.mk.injEq] at he
    obtain ⟨-, -, rfl⟩ := he
    rfl
  | wsHostClose handle =>
    refine ht.same (.wsHostClose handle) rfl rfl (by simp) (by simp) ?_
    intro f he slot
    simp only [wsEffect, Option.ite_none_right_eq_some, Option.some.injEq, Prod.mk.injEq] at he
    obtain ⟨-, -, rfl⟩ := he
    rfl
  | _ => exact ht.same _ rfl rfl (by simp) (by simp) (fun f he ↦ by cases he)

theorem streamed_run (h : Int32) (ops : List RelayOp) : Streamed h (traffic h ops) :=
  Run.invariant Streamed.step ops (fun slot hs ↦ by cases hs)

end Step

/-- What the guest received, the rest of the front message and the messages behind it are
all that the host pushed, in order, and the cursor stays inside the front message. -/
theorem socket_stream (h : Int32) (ops : List RelayOp) (slot : WsSlot)
    (hs : (run ops).ws h = some slot) :
    (traffic h ops).received ++ (stream slot).unread = (traffic h ops).pushed ∧
      ∀ front ∈ slot.incoming.head?, slot.incomingPos ≤ front.length := by
  have ht := streamed_run h ops
  rw [← traffic_state h] at hs
  obtain ⟨hgot, hin⟩ := ht slot hs
  exact ⟨hgot, hin.pos_le⟩

theorem socket_stream_chunks :
    (traffic 1 [.wsConnect "wss://a", .wsOpen 1 1, .wsPush 1 [1, 2, 3], .wsPush 1 [], .wsRecv 1 2,
        .wsPush 1 [4, 5], .wsRecv 1 0, .wsRecv 1 9, .wsRecv 1 9, .wsRecv 1 1]).received ++ [5] =
      [1, 2, 3, 4, 5] :=
  (socket_stream 1 [.wsConnect "wss://a", .wsOpen 1 1, .wsPush 1 [1, 2, 3], .wsPush 1 [],
    .wsRecv 1 2, .wsPush 1 [4, 5], .wsRecv 1 0, .wsRecv 1 9, .wsRecv 1 9, .wsRecv 1 1]
    { isOpen := true, incoming := [[4, 5]], incomingPos := 1 } (by decide)).1

/-- A receive on the live slot has something to give, or there is nothing to tell. -/
def Tells (closed : Bool) (buf : ℕ) (slot : WsSlot) : Prop :=
  match slot.incoming with
  | [] => closed = false
  | [] :: rest => closed = false ∧ rest.flatten = []
  | front :: _ => min (front.length - slot.incomingPos) buf % 2 ^ 32 ≠ 0

section Silence

variable {slot : WsSlot} {closed : Bool} {buf : ℕ}

/-- Where the front message has an unread byte, a receive is silent about it only if it copies
a multiple of `2 ^ 32` bytes. -/
theorem tells_iff (hin : (stream slot).InFront) :
    (Int32.ofNat ((stream slot).chunk buf).length = 0 →
        (stream slot).unread = [] ∧ closed = false) ↔ Tells closed buf slot := by
  rw [ofNat_eq_zero_iff]
  obtain ⟨isOpen, failed, incoming, pos, queuedBytes⟩ := slot
  cases incoming with
  | nil => simp [stream, Messages.chunk, Messages.unread, Tells]
  | cons front rest =>
    cases front with
    | nil => simp [stream, Messages.chunk, Messages.unread, Tells, and_comm]
    | cons b front =>
      have hlt : pos < (b :: front).length := by
        rcases hin with hzero | ⟨front', hfront', hlt⟩
        · have hzero : pos = 0 := hzero
          simp [hzero]
        · cases hfront'
          exact hlt
      have hunread : (stream ⟨isOpen, failed, (b :: front) :: rest, pos, queuedBytes⟩).unread ≠ [] := by
        intro hnil
        have hdrop := (List.append_eq_nil_iff.mp hnil).1
        exact absurd (List.drop_eq_nil_iff.mp hdrop) (Nat.not_le.mpr hlt)
      simp only [Tells, ne_eq]
      rw [stream, Messages.length_chunk]
      constructor
      · intro hsilent hzero
        exact hunread (hsilent hzero).1
      · intro htells hzero
        exact absurd hzero htells

end Silence

/-- A receive that returns 0 says that nothing is unread and the host has not closed the socket,
exactly if the slot is not a live one in which the front message is empty, or missing, while the
host has closed it or bytes wait behind, or from which a multiple of `2 ^ 32` bytes is copied. -/
theorem silence_iff (ops : List RelayOp) (h : Int32) (buf : ℕ) :
    ((wsRecv h buf (run ops)).1 = 0 → (traffic h ops).received = (traffic h ops).pushed ∧
        (traffic h ops).closed = false) ↔
      ∀ slot ∈ (run ops).ws h, slot.failed = false → Tells (traffic h ops).closed buf slot := by
  have ht := streamed_run h ops
  rw [Streamed, traffic_state] at ht
  cases hs : (run ops).ws h with
  | none =>
    have hret : (wsRecv h buf (run ops)).1 = -1 := by simp [wsRecv, hs]
    simp [hret]
  | some slot =>
    obtain ⟨hgot, hin⟩ := ht slot hs
    cases hf : slot.failed with
    | true => simp [wsRecv_failed hs hf, hf]
    | false =>
      have hall : (traffic h ops).received = (traffic h ops).pushed ↔ (stream slot).unread = [] := by
        rw [← hgot]
        simp
      rw [(wsRecv_out hs hf).1, hall, tells_iff hin]
      simp [hf]

/-- A socket that the peer closed is silent like one that is connecting, and so is one whose
front message is empty, whatever waits behind it. -/
theorem silent_when_closed :
    let closed := [.wsConnect "wss://a", .wsOpen 1 1, .wsHostClose 1]
    let empty := [.wsConnect "wss://a", .wsOpen 1 1, .wsPush 1 [], .wsPush 1 [7]]
    (wsRecv 1 8 (run closed)).1 = 0 ∧ (traffic 1 closed).closed = true ∧
      (run closed).ws 1 = (run [.wsConnect "wss://a"]).ws 1 ∧
      (wsRecv 1 8 (run empty)).1 = 0 ∧ (traffic 1 empty).received ≠ (traffic 1 empty).pushed := by
  decide

end MachineNotebook.Host.SocketStream
