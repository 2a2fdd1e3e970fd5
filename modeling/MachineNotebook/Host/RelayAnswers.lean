import MachineNotebook.Host.RelayRun
import MachineNotebook.Lib.ChunkedReply

namespace MachineNotebook.Host.RelayAnswers

open MachineNotebook.Lib MachineNotebook.Lib.Utf8 ChunkedReply Table Relay RelayRun

/-- The requests whose answers the guest reads in chunks. -/
inductive Kind
  | http
  | hostCall
  | persist
  deriving DecidableEq

def reply (k : Kind) (h : Int32) (s : RelayState) : Option (Reply UInt8) :=
  match k with
  | .http => (s.http h).map fun slot ↦ ⟨slot.done, slot.failed, slot.body, slot.bodyPos⟩
  | .hostCall => (s.hostCalls h).map fun slot ↦ ⟨slot.done, slot.failed, slot.result, slot.offset⟩
  | .persist => (s.persist h).map fun slot ↦ ⟨slot.done, slot.failed, slot.result, slot.offset⟩

def readOp : Kind → Int32 → ℕ → RelayOp
  | .http => .httpBody
  | .hostCall => .hostCallBody
  | .persist => .persistBody

def closeOp : Kind → Int32 → RelayOp
  | .http => .httpClose
  | .hostCall => .hostCallClose
  | .persist => .persistClose

/-- The buffer size with which a call reads the answer of a handle. -/
def reads (k : Kind) (h : Int32) (op : RelayOp) : Option ℕ :=
  match k, op with
  | .http, .httpBody h' buf | .hostCall, .hostCallBody h' buf | .persist, .persistBody h' buf =>
    if h' = h then some buf else none
  | _, _ => none

def polls (k : Kind) (h : Int32) (op : RelayOp) : Bool :=
  match k, op with
  | .http, .httpPoll h' _ | .hostCall, .hostCallPoll h' | .persist, .persistPoll h' => h' == h
  | _, _ => false

def accepts (k : Kind) (h : Int32) (s : RelayState) (op : RelayOp) : Option (Int32 × Bytes) :=
  match k, op with
  | .http, .httpRespond h' ok _ body | .hostCall, .hostCallRespond h' ok body
  | .persist, .persistRespond h' ok body =>
    if 0 < h' ∧ h'.toInt32 = h ∧ (reply k h s).isSome then some (ok, body) else none
  | _, _ => none

/-- The call starts a request of the kind, and the counter gives it this handle. -/
def starts (k : Kind) (h : Int32) (s : RelayState) (op : RelayOp) : Bool :=
  match k, op with
  | .http, .httpRequest _ => s.allocHandle.1 == h
  | .hostCall, .hostCallStart sidecarOnly req =>
    !(sidecarOnly ∧ (splitRequest req).1 ≠ SIDECAR_HOST_BINDING) && s.allocHandle.1 == h
  | .persist, .persistStart req => (splitPersist req).isSome && s.allocHandle.1 == h
  | _, _ => false

/-- All that one step of the relay does to the answer of one handle. -/
def replyAfter (k : Kind) (h : Int32) (s : RelayState) (op : RelayOp) : Option (Reply UInt8) :=
  if starts k h s op then some pending
  else if op = closeOp k h then none
  else
    match accepts k h s op, reads k h op with
    | some (ok, body), _ => some (answer (ok == 0) body)
    | none, some buf => (reply k h s).map fun r ↦ r.read buf
    | none, none => reply k h s

def kindOf : RelayOp → Option Kind
  | .httpRequest _ | .httpBody _ _ | .httpClose _ | .httpRespond _ _ _ _ => some .http
  | .hostCallStart _ _ | .hostCallBody _ _ | .hostCallClose _ | .hostCallRespond _ _ _ =>
    some .hostCall
  | .persistStart _ | .persistBody _ _ | .persistClose _ | .persistRespond _ _ _ => some .persist
  | _ => none

section Frame

variable {k : Kind} {h : Int32} {s : RelayState} {op : RelayOp}

theorem replyAfter_other (hk : kindOf op ≠ some k) : replyAfter k h s op = reply k h s := by
  cases op <;> cases k <;> first | rfl | exact absurd rfl hk

theorem reply_dispatch (k : Kind) (h : Int32) (s : RelayState) (ev : EgressRelayEvent) :
    reply k h (dispatchRelayEvent s ev).2 = reply k h s := by
  cases ev with
  | hostCall h' name body =>
    rw [dispatch_hostCall]
    cases k with
    | hostCall =>
      by_cases hh : h' = h
      · simp only [reply, hh, Slots.modify_self, Option.map_map]
        rfl
      · simp only [reply, Slots.modify_of_ne hh]
    | _ => rfl
  | wsSend h' data =>
    rw [dispatch_wsSend]
    cases k <;> rfl
  | _ => rfl

def Kind.part : Kind → Part
  | .http => .http
  | .hostCall => .hostCalls
  | .persist => .persist

theorem partOf_part (hp : partOf op = some k.part) : kindOf op = some k := by
  cases k <;> cases op <;> first | rfl | cases hp

theorem unread_reply {p : Part} (hp : p ≠ k.part) : p.Unread (reply k h) := by
  cases p with
  | http =>
    cases k with
    | http => exact absurd rfl hp
    | _ => exact fun _ _ ↦ rfl
  | hostCalls =>
    cases k with
    | hostCall => exact absurd rfl hp
    | _ => exact fun _ _ ↦ rfl
  | persist =>
    cases k with
    | persist => exact absurd rfl hp
    | _ => exact fun _ _ ↦ rfl
  | approvals => cases k <;> exact fun _ _ ↦ rfl

theorem reply_frame (hk : kindOf op ≠ some k) : reply k h (relayStep op s).2 = reply k h s := by
  apply step_proj (reply k h)
  · intro s next events ws
    cases k <;> rfl
  · exact reply_dispatch k h
  · intro p hp
    apply unread_reply
    intro he
    exact hk (partOf_part (he ▸ hp))

end Frame

section Casts

/-! The length of what is copied goes to the guest as an `i32`. -/

variable {n : ℕ}

theorem toInt_ofNat : (Int32.ofNat n).toInt =
    if n % 2 ^ 32 < 2 ^ 31 then ((n % 2 ^ 32 : ℕ) : ℤ) else ((n % 2 ^ 32 : ℕ) : ℤ) - 2 ^ 32 := by
  rw [Int32.toInt_ofNat', Int32.size, Int.bmod]
  split <;> split <;> omega

theorem ofNat_eq_zero_iff : Int32.ofNat n = 0 ↔ n % 2 ^ 32 = 0 := by
  rw [← Int32.toInt_inj, toInt_ofNat, Int32.toInt_zero]
  split <;> omega

theorem ofNat_pos_iff : 0 < Int32.ofNat n ↔ n % 2 ^ 32 ≠ 0 ∧ n % 2 ^ 32 < 2 ^ 31 := by
  rw [Int32.lt_iff_toInt_lt, toInt_ofNat, Int32.toInt_zero]
  split <;> omega

theorem ofNat_neg_iff : Int32.ofNat n < 0 ↔ 2 ^ 31 ≤ n % 2 ^ 32 := by
  rw [Int32.lt_iff_toInt_lt, toInt_ofNat, Int32.toInt_zero]
  split <;> omega

end Casts

section Own

variable {α β : Type} {v : α → β} {m : Slots α} {h h' : Int32}

theorem view_insert (a : α) :
    (m.insert h' a h).map v = if h' = h then some (v a) else (m h).map v := by
  by_cases hh : h' = h
  · subst h'; simp
  · simp [hh, Ne.symm hh]

theorem view_remove : (m.remove h' h).map v = if h' = h then none else (m h).map v := by
  by_cases hh : h' = h
  · subst h'; simp
  · simp [hh, Ne.symm hh]

theorem view_read {v : α → Reply UInt8} {slot slot' : α} {buf : ℕ} (hs : m h' = some slot)
    (hv : v slot' = (v slot).read buf) :
    (m.insert h' slot' h).map v =
      if h' = h then ((m h).map v).map fun r ↦ r.read buf else (m h).map v := by
  rw [view_insert]
  by_cases hh : h' = h
  · subst h'; simp [hs, hv]
  · simp [hh]

theorem view_respond {call kind : String} {handle : Int64} {f : α → α} (b : β)
    (s : RelayState) (upd : Slots α → RelayState) (get : RelayState → Slots α)
    (hget : ∀ m, get (upd m) = m) (hm : get s = m) (hf : ∀ a, v (f a) = b) :
    (get (hostStatus s ((answerSlot call kind m handle f).map upd)).2 h).map v =
      if 0 < handle ∧ handle.toInt32 = h ∧ ((m h).map v).isSome then some b
      else (m h).map v := by
  by_cases hpos : handle ≤ 0
  · have hneg : ¬0 < handle := Int64.not_lt.mpr hpos
    simp [answerSlot, hpos, hneg, hostStatus, Except.map, hm]
  · have hlt : 0 < handle := Int64.not_le.mp hpos
    cases hs : m handle.toInt32 with
    | none =>
      by_cases hh : handle.toInt32 = h
      · simp [answerSlot, hpos, hs, hostStatus, Except.map, hm, ← hh]
      · simp [answerSlot, hpos, hs, hostStatus, Except.map, hm, hh]
    | some slot =>
      simp only [answerSlot, hpos, hs, hostStatus, Except.map, hget, if_false, view_insert, hf]
      by_cases hh : handle.toInt32 = h
      · simp [hlt, ← hh, hs]
      · simp [hh]

def readRet (r : Reply UInt8) (buf : ℕ) : Int32 :=
  if r.done ∧ r.failed then -1 else Int32.ofNat (r.chunk buf).length

theorem readAnswer_eq (done failed : Bool) (result : Bytes) (offset buf : ℕ) :
    readAnswer done failed result offset buf =
      let r : Reply UInt8 := ⟨done, failed, result, offset⟩
      (readRet r buf, r.chunk buf, (r.read buf).pos) := by
  cases done with
  | false => simp [readAnswer, readRet, Reply.read, Reply.chunk]
  | true =>
    cases failed with
    | true => simp [readAnswer, readRet, Reply.read, Reply.chunk]
    | false =>
      by_cases hr : result.length - offset = 0
      · have hd : result.drop offset = [] := List.drop_eq_nil_of_le (by omega)
        simp [readAnswer, readRet, Reply.read, Reply.chunk, hr, hd]
      · simp [readAnswer, readRet, Reply.read, Reply.chunk, hr, List.take_eq_take_iff, Nat.min_comm]

theorem bodyRange_eq (slot : HttpSlot) (buf : ℕ) (hd : slot.done = true)
    (hf : slot.failed = false) :
    let r : Reply UInt8 := ⟨slot.done, slot.failed, slot.body, slot.bodyPos⟩
    (slot.body.drop (bodyRange slot buf).1).take (bodyRange slot buf).2 = r.chunk buf ∧
      (bodyRange slot buf).2 = (r.chunk buf).length := by
  have hlen : (bodyRange slot buf).2 = ((slot.body.drop slot.bodyPos).take buf).length := by
    simp only [bodyRange, List.length_take, List.length_drop]
    omega
  simp only [Reply.chunk, hd, hf, Bool.false_eq_true, not_false_eq_true, and_self, if_true]
  refine ⟨?_, hlen⟩
  rcases Nat.le_total slot.bodyPos slot.body.length with hle | hle
  · rw [hlen, bodyRange, Nat.min_eq_left hle, List.length_take, ← List.take_eq_take_min]
  · have hnil : slot.body.drop slot.bodyPos = [] := List.drop_eq_nil_of_le hle
    simp [bodyRange, Nat.min_eq_right hle, hnil]

variable {s : RelayState}

theorem httpBody_own (buf : ℕ) :
    reply .http h (httpBody h' buf s).2.2 =
      if h' = h then (reply .http h s).map fun r ↦ r.read buf else reply .http h s := by
  cases hs : s.http h' with
  | none =>
    by_cases hh : h' = h
    · subst h'; simp [httpBody, hs, reply]
    · simp [httpBody, hs, hh]
  | some slot =>
    by_cases hanswer : slot.done = true ∧ slot.failed = false
    · obtain ⟨hd, hf⟩ := hanswer
      simp only [httpBody, hs, hd, hf, Bool.not_true, Bool.false_eq_true, if_false]
      apply view_read hs
      simp [Reply.read, (bodyRange_eq slot buf hd hf).2, hd, hf]
    · have hidle : (httpBody h' buf s).2.2 = s := by
        simp only [httpBody, hs]
        cases hd : slot.done <;> cases hf : slot.failed <;> simp_all
      rw [hidle]
      by_cases hh : h' = h
      · subst h'
        simp only [reply, hs, Option.map_some, if_true]
        rw [Reply.read_idle (r := ⟨slot.done, slot.failed, slot.body, slot.bodyPos⟩) hanswer]
      · simp [hh]

theorem hostCallBody_own (buf : ℕ) :
    reply .hostCall h (hostCallBody h' buf s).2.2 =
      if h' = h then (reply .hostCall h s).map fun r ↦ r.read buf else reply .hostCall h s := by
  cases hs : s.hostCalls h' with
  | none =>
    by_cases hh : h' = h
    · subst h'; simp [hostCallBody, hs, reply]
    · simp [hostCallBody, hs, hh]
  | some slot =>
    simp only [hostCallBody, hs, readAnswer_eq]
    exact view_read hs rfl

theorem persistBody_own (buf : ℕ) :
    reply .persist h (persistBody h' buf s).2.2 =
      if h' = h then (reply .persist h s).map fun r ↦ r.read buf else reply .persist h s := by
  cases hs : s.persist h' with
  | none =>
    by_cases hh : h' = h
    · subst h'; simp [persistBody, hs, reply]
    · simp [persistBody, hs, hh]
  | some slot =>
    simp only [persistBody, hs, readAnswer_eq]
    exact view_read hs rfl

theorem replyAfter_read (k : Kind) (buf : ℕ) :
    replyAfter k h s (readOp k h' buf) =
      if h' = h then (reply k h s).map fun r ↦ r.read buf else reply k h s := by
  by_cases hh : h' = h <;> cases k <;> simp [replyAfter, readOp, starts, closeOp, accepts, reads, hh]

theorem replyAfter_close (k : Kind) :
    replyAfter k h s (closeOp k h') = if h' = h then none else reply k h s := by
  by_cases hh : h' = h <;> cases k <;> simp [replyAfter, starts, closeOp, accepts, reads, hh]

theorem hostCallStart_own (sidecarOnly : Bool) (req : Bytes) :
    reply .hostCall h (hostCallStart sidecarOnly req s).2 =
      replyAfter .hostCall h s (.hostCallStart sidecarOnly req) := by
  by_cases hd : sidecarOnly = true ∧ (splitRequest req).1 ≠ SIDECAR_HOST_BINDING
  · simp [hostCallStart, replyAfter, starts, closeOp, accepts, reads, hd]
  · simp only [hostCallStart, replyAfter, starts, closeOp, accepts, reads, hd, if_false]
    apply (view_insert _).trans
    simp [reply, pending, RelayState.allocHandle]
    rfl

theorem persistStart_own (req : Bytes) :
    reply .persist h (persistStart req s).2 = replyAfter .persist h s (.persistStart req) := by
  cases hp : splitPersist req with
  | none => simp [persistStart, replyAfter, starts, closeOp, accepts, reads, hp]
  | some opkv =>
    obtain ⟨o, key, value⟩ := opkv
    have hview : reply .persist h (persistStart req s).2 =
        ((s.persist.insert s.allocHandle.1 {}) h).map fun slot ↦
          ⟨slot.done, slot.failed, slot.result, slot.offset⟩ := by
      simp only [persistStart, hp]
      split <;> rfl
    rw [hview, view_insert]
    simp [replyAfter, starts, closeOp, accepts, reads, reply, pending, hp]

theorem replyAfter_respond (k : Kind) (op : RelayOp) {P : Prop} [Decidable P] {ok : Int32}
    {body : Bytes} (hs : starts k h s op = false) (hc : op ≠ closeOp k h)
    (hr : reads k h op = none) (ha : accepts k h s op = if P then some (ok, body) else none) :
    replyAfter k h s op = if P then some (answer (ok == 0) body) else reply k h s := by
  simp only [replyAfter, hs, hc, hr, ha, Bool.false_eq_true, if_false]
  by_cases hp : P
  · simp only [if_pos hp]
  · simp only [if_neg hp]

theorem reply_step (k : Kind) (h : Int32) (s : RelayState) (op : RelayOp) :
    reply k h (relayStep op s).2 = replyAfter k h s op := by
  by_cases hk : kindOf op = some k
  · cases op <;> simp only [kindOf, reduceCtorEq, Option.some.injEq] at hk <;> subst k
    case httpRequest req =>
      apply (view_insert (α := HttpSlot) {}).trans
      simp [replyAfter, starts, closeOp, accepts, reads, pending, RelayState.allocHandle, reply]
    case httpBody h' buf => exact (httpBody_own buf).trans (replyAfter_read .http buf).symm
    case httpClose h' => exact view_remove.trans (replyAfter_close .http).symm
    case httpRespond h' ok head body =>
      refine (view_respond (answer (ok == 0) body) s (fun http ↦ { s with http }) RelayState.http (fun _ ↦ rfl) rfl
        (fun _ ↦ rfl)).trans
        (replyAfter_respond .http (.httpRespond h' ok head body) rfl (by simp [closeOp]) rfl rfl).symm
    case hostCallStart sidecarOnly req => exact hostCallStart_own sidecarOnly req
    case hostCallBody h' buf =>
      exact (hostCallBody_own buf).trans (replyAfter_read .hostCall buf).symm
    case hostCallClose h' => exact view_remove.trans (replyAfter_close .hostCall).symm
    case hostCallRespond h' ok result =>
      refine (view_respond (answer (ok == 0) result) s (fun hostCalls ↦ { s with hostCalls }) RelayState.hostCalls
        (fun _ ↦ rfl) rfl (fun _ ↦ rfl)).trans
        (replyAfter_respond .hostCall (.hostCallRespond h' ok result) rfl (by simp [closeOp])
          rfl rfl).symm
    case persistStart req => exact persistStart_own req
    case persistBody h' buf =>
      exact (persistBody_own buf).trans (replyAfter_read .persist buf).symm
    case persistClose h' => exact view_remove.trans (replyAfter_close .persist).symm
    case persistRespond h' ok body =>
      refine (view_respond (answer (ok == 0) body) s (fun persist ↦ { s with persist }) RelayState.persist
        (fun _ ↦ rfl) rfl (fun _ ↦ rfl)).trans
        (replyAfter_respond .persist (.persistRespond h' ok body) rfl (by simp [closeOp]) rfl rfl).symm
  · rw [reply_frame hk, replyAfter_other hk]

end Own

end MachineNotebook.Host.RelayAnswers
