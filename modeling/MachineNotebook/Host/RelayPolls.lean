import MachineNotebook.Host.RelayAnswers

namespace MachineNotebook.Host.RelayPolls

open MachineNotebook.Lib MachineNotebook.Lib.Utf8 ChunkedReply Table Relay RelayRun RelayAnswers

def pollOp : Kind → Int32 → ℕ → RelayOp
  | .http, h, buf => .httpPoll h buf
  | .hostCall, h, _ => .hostCallPoll h
  | .persist, h, _ => .persistPoll h

def headOf : RelayOp → Bytes
  | .httpRespond _ _ head _ => head
  | _ => []

/-- A relay with the answer that a handle accepted last since it was handed out: whether it is
a failure, and its head. -/
structure Awaited where
  state : RelayState
  last : Option (Bool × Bytes)

def awaitStep (k : Kind) (h : Int32) (op : RelayOp) (a : Awaited) : Unit × Awaited :=
  ((), {
    state := (relayStep op a.state).2
    last :=
      if starts k h a.state op then none
      else
        match accepts k h a.state op with
        | some (ok, _) => some (ok == 0, headOf op)
        | none => a.last })

def awaited (k : Kind) (h : Int32) (ops : List RelayOp) : Awaited :=
  Run.final (awaitStep k h) ops ⟨RelayState.new, none⟩

theorem awaited_state (k : Kind) (h : Int32) (ops : List RelayOp) :
    (awaited k h ops).state = run ops := Run.final_proj (fun _ _ ↦ rfl) ops _

section Head

variable {s : RelayState} {op : RelayOp} {h : Int32}

theorem http_kept (hk : kindOf op ≠ some .http) : (relayStep op s).2.http = s.http := by
  apply step_proj RelayState.http
  · intro s next events ws
    rfl
  · exact dispatch_proj RelayState.http (fun _ _ ↦ rfl) fun _ _ ↦ rfl
  · intro p hp
    cases p with
    | http => exact absurd (partOf_part (k := .http) hp) hk
    | _ => exact fun _ _ ↦ rfl

theorem httpBody_head (h' : Int32) (buf : ℕ) :
    ((httpBody h' buf s).2.2.http h).map HttpSlot.head = (s.http h).map HttpSlot.head := by
  cases hs : s.http h' with
  | none => simp [httpBody, hs]
  | some slot =>
    simp only [httpBody, hs]
    split
    · rfl
    · split
      · rfl
      · rw [view_insert]
        split
        · rename_i hh
          rw [← hh, hs, Option.map_some]
        · rfl

/-- All that one step does to the head of an HTTP answer. -/
theorem head_step (op : RelayOp) (s : RelayState) (h : Int32) :
    ((relayStep op s).2.http h).map HttpSlot.head =
      if starts .http h s op then some []
      else if op = .httpClose h then none
      else if (accepts .http h s op).isSome then some (headOf op)
      else (s.http h).map HttpSlot.head := by
  cases op with
  | httpRequest req =>
    have hws : (relayStep (.httpRequest req) s).2.http = s.http.insert s.allocHandle.1 {} := rfl
    rw [hws, view_insert]
    simp [starts, accepts]
  | httpBody h' buf => exact httpBody_head h' buf
  | httpClose h' =>
    have hws : (relayStep (.httpClose h') s).2.http = s.http.remove h' := rfl
    rw [hws, view_remove]
    simp [starts, accepts]
  | httpRespond h' ok head body =>
    refine (view_respond head s (fun http ↦ { s with http }) RelayState.http (fun _ ↦ rfl) rfl
      (fun _ ↦ rfl)).trans ?_
    simp only [starts, accepts, headOf, reply, Option.isSome_map, Bool.false_eq_true, if_false,
      reduceCtorEq]
    split <;> simp
  | _ =>
    rw [http_kept (by simp [kindOf])]
    rfl

end Head

/-- The slot of a live handle holds the outcome and the head of the last accepted answer. -/
structure Told (k : Kind) (h : Int32) (a : Awaited) : Prop where
  outcome : ∀ r ∈ reply k h a.state,
    r.outcome = a.last.map Prod.fst ∧ (r.failed = true → r.done = true)
  head : k = .http → ∀ slot ∈ a.state.http h, slot.head = (a.last.map Prod.snd).getD []

section Told

variable {k : Kind} {h : Int32} {a : Awaited}

theorem Told.step (op : RelayOp) (a : Awaited) (ht : Told k h a) :
    Told k h (awaitStep k h op a).2 := by
  constructor
  · intro r hr
    simp only [awaitStep, reply_step, replyAfter, Option.mem_def] at hr ⊢
    cases hs : starts k h a.state op with
    | true =>
      simp only [hs, if_true, Option.some.injEq] at hr
      subst hr
      exact ⟨rfl, by simp [pending]⟩
    | false =>
      simp only [hs, Bool.false_eq_true, if_false] at hr ⊢
      split at hr
      · cases hr
      · cases ha : accepts k h a.state op with
        | some answer =>
          simp only [ha, Option.some.injEq] at hr
          subst hr
          exact ⟨rfl, fun _ ↦ rfl⟩
        | none =>
          cases hread : reads k h op with
          | none =>
            simp only [ha, hread] at hr
            exact ht.outcome r hr
          | some buf =>
            simp only [ha, hread] at hr
            obtain ⟨r', hr', rfl⟩ := Option.map_eq_some_iff.mp hr
            exact ht.outcome r' hr'
  · rintro rfl slot hs
    have hstep := head_step op a.state h
    simp only [awaitStep, Option.mem_def] at hs ⊢
    rw [hs, Option.map_some] at hstep
    split at hstep
    · rename_i hstarts
      simpa [hstarts] using hstep
    · rename_i hstarts
      split at hstep
      · cases hstep
      · cases ha : accepts .http h a.state op with
        | some answer => simpa [ha, hstarts] using hstep
        | none =>
          simp only [ha, Option.isSome_none, Bool.false_eq_true, if_false] at hstep
          obtain ⟨slot', hs', hhead⟩ := Option.map_eq_some_iff.mp hstep.symm
          simp only [hstarts, Bool.false_eq_true, if_false]
          rw [← hhead]
          exact ht.head rfl slot' hs'

theorem told_run (k : Kind) (h : Int32) (ops : List RelayOp) : Told k h (awaited k h ops) := by
  apply Run.invariant Told.step ops
  constructor
  · intro r hr
    cases k <;> cases hr
  · intro _ slot hs
    cases hs

def pollRet (k : Kind) (buf : ℕ) : Option (Bool × Bytes) → Int32
  | none => 0
  | some (true, _) => -1
  | some (false, head) => if k = .http then Int32.ofNat (min head.length buf) else 1

theorem pollAnswer_told {done failed : Bool} {last : Option (Bool × Bytes)} {buf : ℕ}
    (hk : k ≠ .http) (hout : (if done then some failed else none) = last.map Prod.fst)
    (hfail : failed = true → done = true) : pollAnswer done failed = pollRet k buf last := by
  cases done with
  | false =>
    have hnone : last = none := by simpa using hout.symm
    have hfailed : failed = false := by simpa using hfail
    rw [hnone, hfailed]
    rfl
  | true =>
    obtain ⟨⟨failed', head⟩, hlast, hfst⟩ := Option.map_eq_some_iff.mp hout.symm
    have hfst : failed' = failed := hfst
    rw [hlast, hfst]
    cases failed with
    | true => rfl
    | false => simp [pollAnswer, pollRet, hk]

theorem httpPoll_told {slot : HttpSlot} {last : Option (Bool × Bytes)} {buf : ℕ}
    (hout : (if slot.done then some slot.failed else none) = last.map Prod.fst)
    (hhead : slot.head = (last.map Prod.snd).getD []) {s : RelayState} (hs : s.http h = some slot) :
    (httpPoll h buf s).1 = pollRet .http buf last := by
  simp only [httpPoll, hs]
  cases hd : slot.done with
  | false =>
    have hnone : last = none := by simpa [hd] using hout.symm
    rw [hnone]
    rfl
  | true =>
    rw [hd, if_pos rfl] at hout
    obtain ⟨⟨failed, head⟩, hlast, hfst⟩ := Option.map_eq_some_iff.mp hout.symm
    have hfst : failed = slot.failed := hfst
    subst last
    have hhead : slot.head = head := hhead
    cases hf : slot.failed with
    | true => simp [pollRet, hfst, hf]
    | false => simp [pollRet, hfst, hf, hhead]

theorem poll_told (ht : Told k h a) (hlive : (reply k h a.state).isSome) (buf : ℕ) :
    (relayStep (pollOp k h buf) a.state).1.ret = pollRet k buf a.last := by
  obtain ⟨r, hr⟩ := Option.isSome_iff_exists.mp hlive
  obtain ⟨hout, hfail⟩ := ht.outcome r hr
  cases k with
  | http =>
    obtain ⟨slot, hs, rfl⟩ := Option.map_eq_some_iff.mp hr
    exact httpPoll_told hout (ht.head rfl slot hs) hs
  | hostCall =>
    obtain ⟨slot, hs, rfl⟩ := Option.map_eq_some_iff.mp hr
    have hret : hostCallPoll h a.state = pollAnswer slot.done slot.failed := by
      simp only [hostCallPoll, hs]
    exact hret.trans (pollAnswer_told (by decide) hout hfail)
  | persist =>
    obtain ⟨slot, hs, rfl⟩ := Option.map_eq_some_iff.mp hr
    have hret : persistPoll h a.state = pollAnswer slot.done slot.failed := by
      simp only [persistPoll, hs]
    exact hret.trans (pollAnswer_told (by decide) hout hfail)

end Told

/-- A poll tells pending from failed from finished, unless it is an HTTP poll of a successful
answer and copies no byte of the head, or more than an `i32` can count. -/
theorem poll_tells_iff (k : Kind) (h : Int32) (ops : List RelayOp) (buf : ℕ)
    (hlive : (reply k h (run ops)).isSome) :
    let ret := (relayStep (pollOp k h buf) (run ops)).1.ret
    let last := (awaited k h ops).last
    ((ret = 0 ↔ last = none) ∧ (ret < 0 ↔ ∃ head, last = some (true, head)) ∧
        (0 < ret ↔ ∃ head, last = some (false, head))) ↔
      (k = .http → ∀ head, last = some (false, head) →
        min head.length buf % 2 ^ 32 ≠ 0 ∧ min head.length buf % 2 ^ 32 < 2 ^ 31) := by
  intro ret last
  have hret : ret = pollRet k buf last := by
    have ht := told_run k h ops
    have htold := poll_told ht (by rwa [awaited_state]) buf
    rwa [awaited_state] at htold
  rw [hret]
  cases last with
  | none => simp [pollRet]
  | some answer =>
    obtain ⟨failed, head⟩ := answer
    cases failed with
    | true => simp [pollRet]
    | false =>
      by_cases hk : k = .http
      · have hcopied : pollRet k buf (some (false, head)) = Int32.ofNat (min head.length buf) :=
          if_pos hk
        rw [hcopied, ofNat_eq_zero_iff, ofNat_neg_iff, ofNat_pos_iff]
        simp only [hk, reduceCtorEq, iff_false, Option.some.injEq, Prod.mk.injEq,
          Bool.false_eq_true, false_and, exists_false, true_and, exists_eq', iff_true,
          forall_const, forall_eq', Nat.not_le]
        omega
      · simp [pollRet, hk]

theorem poll_tells_iff_persist :
    let ops := [.persistStart [0, 0, 0, 0, 0, 0, 0, 0], .persistRespond 1 0 [], .persistRespond 1 1 []]
    0 < (relayStep (pollOp .persist 1 0) (run ops)).1.ret :=
  ((poll_tells_iff .persist 1 [.persistStart [0, 0, 0, 0, 0, 0, 0, 0], .persistRespond 1 0 [],
    .persistRespond 1 1 []] 0 (by decide)).mpr (by simp)).2.2.mpr ⟨[], by decide⟩

/-- A finished HTTP request whose head is empty polls as a pending one. -/
theorem empty_head_pending :
    let ops := [.httpRequest [7], .httpRespond 1 1 [] [10]]
    (relayStep (pollOp .http 1 64) (run ops)).1.ret = 0 ∧
      (awaited .http 1 ops).last = some (false, []) := by
  decide

end MachineNotebook.Host.RelayPolls
