import MachineNotebook.Host.RelayLedger

namespace MachineNotebook.Host.Approvals

open MachineNotebook.Lib Table Relay RelayRun RelayLedger

/-- An `mpsc` channel between a respond call and the waiting `approve`. -/
structure Channel where
  queue : List ToolApprovalDecision
  connected : Bool
  deriving DecidableEq

namespace Channel

def new : Channel := ⟨[], true⟩

def send (c : Channel) (d : ToolApprovalDecision) : Channel := { c with queue := c.queue ++ [d] }

/-- The last sender is dropped. -/
def hangUp (c : Channel) : Channel := { c with connected := false }

/-- What `recv` returns, unless it blocks. -/
def recv (c : Channel) : Option (Option ToolApprovalDecision × Channel) :=
  match c.queue with
  | d :: queue => some (some d, { c with queue })
  | [] => if c.connected then none else some (none, c)

end Channel

inductive ApproveCall
  | waiting (handle : Int32)
  | returned (handle : Int32) (decision : ToolApprovalDecision)
  deriving DecidableEq

def deny : ToolApprovalDecision := ⟨false, false⟩

/-- A relay with the `approve` calls made on it. The call with index `i` waits on channel `i`. -/
structure System where
  relay : RelayState
  channels : List Channel
  calls : List ApproveCall

def System.new : System := ⟨RelayState.new, [], []⟩

inductive Act
  | relay (op : RelayOp)
  | recv (call : ℕ)

def withSender (tx : Sender) : RelayOp → RelayOp
  | .approve _ facts => .approve tx facts
  | op => op

def deliver (out : RelayOut) (channels : List Channel) : List Channel :=
  let channels :=
    match out.dropped with
    | some tx => channels.modify tx Channel.hangUp
    | none => channels
  match out.sent with
  | some (tx, d) => channels.modify tx fun c ↦ (c.send d).hangUp
  | none => channels

def relayAct (op : RelayOp) (s : System) : System :=
  let (out, relay) := relayStep (withSender s.channels.length op) s.relay
  match op with
  | .approve _ _ =>
    { relay
      channels := deliver out (s.channels ++ [Channel.new])
      calls := s.calls ++ [.waiting out.ret] }
  | _ => { relay, channels := deliver out s.channels, calls := s.calls }

def recvAct (i : ℕ) (s : System) : System :=
  match s.calls[i]?, s.channels[i]?.bind Channel.recv with
  | some (.waiting handle), some (d, channel) =>
    { s with
      channels := s.channels.set i channel
      calls := s.calls.set i (.returned handle (d.getD deny)) }
  | _, _ => s

def sysStep (act : Act) (s : System) : Unit × System :=
  match act with
  | .relay op => ((), relayAct op s)
  | .recv i => ((), recvAct i s)

def Act.op (act : Act) (s : System) : Option RelayOp :=
  match act with
  | .relay op => some (withSender s.channels.length op)
  | .recv _ => none

def system (acts : List Act) : System := Run.final sysStep acts System.new

def FewHandles (acts : List Act) : Prop :=
  Run.total sysStep (fun act s ↦ ((act.op s).map fun op ↦ allocs op s.relay).getD 0)
    acts System.new < 2 ^ 31 - 1

instance (acts : List Act) : Decidable (FewHandles acts) := inferInstanceAs (Decidable (_ < _))

/-- The decision of a respond call that names the handle. -/
def response (h : Int32) : Act → Option ToolApprovalDecision
  | .relay (.toolApprovalRespond h' allow remember) =>
    if h' = h.toInt64 then some ⟨allow != 0, remember != 0⟩ else none
  | _ => none

def firstResponse (h : Int32) (acts : List Act) : Option ToolApprovalDecision :=
  acts.findSome? (response h)

theorem response_eq_some {h : Int32} {act : Act} {d : ToolApprovalDecision}
    (hr : response h act = some d) :
    ∃ allow remember, act = .relay (.toolApprovalRespond h.toInt64 allow remember) ∧
      d = ⟨allow != 0, remember != 0⟩ := by
  simp only [response] at hr
  split at hr
  · split at hr
    · rename_i h' allow remember hh
      cases hr
      exact ⟨allow, remember, by rw [hh], rfl⟩
    · cases hr
  · cases hr

def Fits : Act → Prop
  | .relay (.toolApprovalRespond h _ _) => 0 < h ∧ h < 2 ^ 31
  | _ => True

instance : DecidablePred Fits := fun act ↦ by
  unfold Fits
  split <;> infer_instance

def HandlesFit (acts : List Act) : Prop := ∀ act ∈ acts, Fits act

instance (acts : List Act) : Decidable (HandlesFit acts) :=
  inferInstanceAs (Decidable (∀ act ∈ acts, Fits act))

section Frame

variable {op : RelayOp} {s : RelayState}

theorem approvals_kept (ha : ∀ tx facts, op ≠ .approve tx facts)
    (hr : ∀ h allow remember, op ≠ .toolApprovalRespond h allow remember) :
    (relayStep op s).2.pendingToolApprovals = s.pendingToolApprovals := by
  apply step_proj RelayState.pendingToolApprovals
  · intro s next events ws
    rfl
  · exact dispatch_proj RelayState.pendingToolApprovals (fun _ _ ↦ rfl) fun _ _ ↦ rfl
  · intro p hp
    cases p with
    | approvals =>
      cases op with
      | approve tx facts => exact absurd rfl (ha tx facts)
      | toolApprovalRespond h allow remember => exact absurd rfl (hr h allow remember)
      | _ => cases hp
    | _ => exact fun _ _ ↦ rfl

theorem hostStatus_silent (r : Except String RelayState) :
    (hostStatus s r).1.sent = none ∧ (hostStatus s r).1.dropped = none := by
  cases r <;> exact ⟨rfl, rfl⟩

theorem silent (ha : ∀ tx facts, op ≠ .approve tx facts)
    (hr : ∀ h allow remember, op ≠ .toolApprovalRespond h allow remember) :
    (relayStep op s).1.sent = none ∧ (relayStep op s).1.dropped = none := by
  cases op with
  | approve tx facts => exact absurd rfl (ha tx facts)
  | toolApprovalRespond h allow remember => exact absurd rfl (hr h allow remember)
  | httpRespond h ok head body => exact hostStatus_silent _
  | hostCallRespond h ok result => exact hostStatus_silent _
  | persistRespond h ok body => exact hostStatus_silent _
  | wsOpen h ok => exact hostStatus_silent _
  | wsPush h data => exact hostStatus_silent _
  | wsHostClose h => exact hostStatus_silent _
  | _ => exact ⟨rfl, rfl⟩

end Frame

theorem toInt32_eq {h : Int32} {h' : Int64} (hpos : 0 < h') (hlt : h' < 2 ^ 31) :
    h'.toInt32 = h ↔ h' = h.toInt64 := by
  have hpos' : 0 < h'.toInt := by simpa [Int64.lt_iff_toInt_lt] using hpos
  have hlt' : h'.toInt < 2 ^ 31 := (Int64.lt_iff_toInt_lt.mp hlt).trans_eq (by decide)
  have hcast : h'.toInt32.toInt = h'.toInt := by
    rw [Int64.toInt_toInt32, Int.bmod_eq_of_le] <;> omega
  rw [← Int32.toInt_inj, ← Int64.toInt_inj, hcast, Int32.toInt_toInt64]

/-! What each step does to the calls, their channels and the map of senders. -/

section Acts

variable {s : System}

theorem withSender_of_ne (tx : Sender) {op : RelayOp} (ha : ∀ tx facts, op ≠ .approve tx facts) :
    withSender tx op = op := by
  cases op <;> first | rfl | exact absurd rfl (ha _ _)

theorem deliver_length (out : RelayOut) (channels : List Channel) :
    (deliver out channels).length = channels.length := by
  simp only [deliver]
  split <;> split <;> simp

theorem deliver_dropped {handle : Int32} {old : Option Sender} {channels : List Channel} {i : ℕ}
    (hne : old ≠ some i) :
    (deliver { ret := handle, dropped := old } channels)[i]? = channels[i]? := by
  cases old with
  | none => rfl
  | some tx => exact List.getElem?_modify_ne _ _ (fun he ↦ hne (congrArg some he))

theorem relayAct_other {op : RelayOp} (ha : ∀ tx facts, op ≠ .approve tx facts)
    (hr : ∀ h allow remember, op ≠ .toolApprovalRespond h allow remember) :
    relayAct op s = { s with relay := (relayStep op s.relay).2 } := by
  have hsender := withSender_of_ne s.channels.length ha
  obtain ⟨hsent, hdropped⟩ := silent (s := s.relay) ha hr
  cases op <;> first
    | exact absurd rfl (ha _ _)
    | simp only [relayAct, hsender, deliver, hsent, hdropped]

theorem relayAct_approve (tx : Sender) (facts : ToolApprovalFacts)
    (halloc : s.relay.allocHandle = (s.relay.next, { s.relay with next := s.relay.next + 1 })) :
    relayAct (.approve tx facts) s =
      { relay := { s.relay with
          next := s.relay.next + 1
          events := s.relay.events ++ [.toolApproval s.relay.next facts.connection facts.method
            facts.url facts.origin facts.argsDigest]
          pendingToolApprovals :=
            s.relay.pendingToolApprovals.insert s.relay.next s.channels.length },
        channels := deliver
          { ret := s.relay.next, dropped := s.relay.pendingToolApprovals s.relay.next }
          (s.channels ++ [Channel.new]),
        calls := s.calls ++ [.waiting s.relay.next] } := by
  simp only [relayAct, withSender, relayStep, approveRequest, halloc, RelayState.pushBack]

theorem relayAct_respond_none {h' : Int64} (allow remember : Int32) (hpos : 0 < h')
    (hp : s.relay.pendingToolApprovals h'.toInt32 = none) :
    relayAct (.toolApprovalRespond h' allow remember) s = s := by
  have hne : ¬h' ≤ 0 := Int64.not_le.mpr hpos
  simp [relayAct, withSender, relayStep, relayToolApprovalRespond, hne, hp, deliver]

theorem relayAct_respond_some {h' : Int64} {tx : Sender} (allow remember : Int32) (hpos : 0 < h')
    (hp : s.relay.pendingToolApprovals h'.toInt32 = some tx) :
    relayAct (.toolApprovalRespond h' allow remember) s =
      { s with
        relay := { s.relay with
          pendingToolApprovals := s.relay.pendingToolApprovals.remove h'.toInt32 }
        channels := s.channels.modify tx
          fun c ↦ (c.send ⟨allow != 0, remember != 0⟩).hangUp } := by
  have hne : ¬h' ≤ 0 := Int64.not_le.mpr hpos
  simp [relayAct, withSender, relayStep, relayToolApprovalRespond, hne, hp, deliver]

end Acts

/-- Where the approve call `i`, which asked under handle `h`, stands after the first
answer to its handle, if there was one. -/
inductive Stage (h : Int32) (i : ℕ) (s : System) : Option ToolApprovalDecision → Prop
  | asked (hp : s.relay.pendingToolApprovals h = some i) (hc : s.calls[i]? = some (.waiting h))
      (hch : s.channels[i]? = some Channel.new) : Stage h i s none
  | answered (d : ToolApprovalDecision) (hc : s.calls[i]? = some (.waiting h))
      (hch : s.channels[i]? = some ⟨[d], false⟩) : Stage h i s (some d)
  | decided (d : ToolApprovalDecision) (hc : s.calls[i]? = some (.returned h d)) :
      Stage h i s (some d)

/-- Every call has its channel, and every sender in the map feeds one of them. -/
structure Wired (s : System) : Prop where
  channels : s.channels.length = s.calls.length
  senders : ∀ k tx, s.relay.pendingToolApprovals k = some tx → tx < s.calls.length

structure Watched (h : Int32) (i : ℕ) (first : Option ToolApprovalDecision) (s : System) :
    Prop extends Wired s where
  below : h.toInt < s.relay.next.toInt
  mine : ∀ k, s.relay.pendingToolApprovals k = some i → k = h ∧ first = none
  stage : Stage h i s first

section Wired

variable {s : System}

theorem Wired.other {op : RelayOp} (hw : Wired s) (ha : ∀ tx facts, op ≠ .approve tx facts)
    (hr : ∀ h allow remember, op ≠ .toolApprovalRespond h allow remember) :
    Wired (relayAct op s) := by
  rw [relayAct_other ha hr]
  refine ⟨hw.channels, fun k tx hk ↦ hw.senders k tx ?_⟩
  rwa [approvals_kept ha hr] at hk

theorem Wired.approve (hw : Wired s) (tx : Sender) (facts : ToolApprovalFacts)
    (halloc : s.relay.allocHandle = (s.relay.next, { s.relay with next := s.relay.next + 1 })) :
    Wired (relayAct (.approve tx facts) s) := by
  rw [relayAct_approve tx facts halloc]
  refine ⟨by simp [deliver_length, hw.channels], fun k tx' hk ↦ ?_⟩
  rw [List.length_append, List.length_singleton]
  by_cases hkn : k = s.relay.next
  · subst k
    have htx : s.channels.length = tx' := by simpa using hk
    rw [← htx, hw.channels]
    exact Nat.lt_succ_self _
  · exact Nat.lt_succ_of_lt (hw.senders k tx' (by simpa [hkn] using hk))

theorem Wired.respond (hw : Wired s) {h' : Int64} (allow remember : Int32) (hpos : 0 < h') :
    Wired (relayAct (.toolApprovalRespond h' allow remember) s) := by
  cases hp : s.relay.pendingToolApprovals h'.toInt32 with
  | none =>
    rw [relayAct_respond_none allow remember hpos hp]
    exact hw
  | some tx =>
    rw [relayAct_respond_some allow remember hpos hp]
    refine ⟨by simpa using hw.channels, fun k tx' hk ↦ ?_⟩
    by_cases hkn : k = h'.toInt32
    · simp [hkn] at hk
    · exact hw.senders k tx' (by simpa [hkn] using hk)

theorem Wired.recv (hw : Wired s) (j : ℕ) : Wired (recvAct j s) := by
  simp only [recvAct]
  split
  · exact ⟨by simpa using hw.channels, fun k tx hk ↦ by simpa using hw.senders k tx hk⟩
  · exact hw

theorem Wired.step (act : Act) (hw : Wired s) (hroom : ∀ op ∈ act.op s, Room op s.relay)
    (hfit : Fits act) : Wired (sysStep act s).2 := by
  cases act with
  | recv j => exact hw.recv j
  | relay op =>
    change Wired (relayAct op s)
    cases op with
    | approve tx facts => exact hw.approve tx facts ((hroom _ rfl).alloc rfl).1
    | toolApprovalRespond h' allow remember =>
      exact hw.respond allow remember hfit.1
    | _ => exact hw.other (by simp) (by simp)

end Wired

section Watched

variable {h : Int32} {i : ℕ} {first : Option ToolApprovalDecision} {s s' : System}

theorem Stage.lt (hs : Stage h i s first) : i < s.calls.length := by
  cases hs with
  | asked hp hc => exact (List.getElem?_eq_some_iff.mp hc).1
  | answered d hc => exact (List.getElem?_eq_some_iff.mp hc).1
  | decided d hc => exact (List.getElem?_eq_some_iff.mp hc).1

theorem Stage.keep (hs : Stage h i s first) (hcall : s'.calls[i]? = s.calls[i]?)
    (hch : s'.channels[i]? = s.channels[i]?)
    (hp : s'.relay.pendingToolApprovals h = s.relay.pendingToolApprovals h) :
    Stage h i s' first := by
  cases hs with
  | asked hp' hc hch' => exact .asked (hp.trans hp') (hcall.trans hc) (hch.trans hch')
  | answered d hc hch' => exact .answered d (hcall.trans hc) (hch.trans hch')
  | decided d hc => exact .decided d (hcall.trans hc)

theorem Watched.other {op : RelayOp} (hw : Watched h i first s)
    (ha : ∀ tx facts, op ≠ .approve tx facts)
    (hr : ∀ h allow remember, op ≠ .toolApprovalRespond h allow remember)
    (hroom : Room op s.relay) : Watched h i first (relayAct op s) := by
  have hp := approvals_kept (s := s.relay) ha hr
  have hwired := hw.toWired.other ha hr
  rw [relayAct_other ha hr] at hwired ⊢
  refine ⟨hwired, ?_, ?_, hw.stage.keep rfl rfl (congrFun hp h)⟩
  · have hn := next_step hroom
    have hlt := hw.below
    simp only
    omega
  · intro k hk
    exact hw.mine k (by rw [← hp]; exact hk)

theorem Watched.approve {tx : Sender} {facts : ToolApprovalFacts} (hw : Watched h i first s)
    (hroom : Room (withSender s.channels.length (.approve tx facts)) s.relay) :
    Watched h i first (relayAct (.approve tx facts) s) := by
  obtain ⟨halloc, hnext⟩ := hroom.alloc rfl
  have hi : i < s.channels.length := by
    rw [hw.channels]
    exact hw.stage.lt
  have hne : h ≠ s.relay.next := by
    intro heq
    subst heq
    exact lt_irrefl _ hw.below
  have hold : s.relay.pendingToolApprovals s.relay.next ≠ some i := by
    intro hp
    exact hne (hw.mine _ hp).1.symm
  have hwired := hw.toWired.approve tx facts halloc
  rw [relayAct_approve tx facts halloc] at hwired ⊢
  refine ⟨hwired, ?_, ?_, hw.stage.keep ?_ ?_ ?_⟩
  · have hlt := hw.below
    simp only [hnext]
    omega
  · intro k hk
    by_cases hkn : k = s.relay.next
    · subst k
      have htx : s.channels.length = i := by simpa using hk
      omega
    · exact hw.mine k (by simpa [hkn] using hk)
  · rw [List.getElem?_append_left hw.stage.lt]
  · exact (deliver_dropped hold).trans (List.getElem?_append_left hi)
  · simp [hne]

theorem Watched.respond {h' : Int64} {allow remember : Int32} (hw : Watched h i first s)
    (hpos : 0 < h') (hlt : h' < 2 ^ 31) :
    Watched h i (first.or (response h (.relay (.toolApprovalRespond h' allow remember))))
      (relayAct (.toolApprovalRespond h' allow remember) s) := by
  have hnamed := toInt32_eq (h := h) hpos hlt
  cases hp : s.relay.pendingToolApprovals h'.toInt32 with
  | none =>
    have hfirst : first.or (response h (.relay (.toolApprovalRespond h' allow remember))) =
        first := by
      cases hw.stage with
      | asked hp' =>
        have hne : h' ≠ h.toInt64 := by
          intro he
          rw [hnamed.mpr he, hp'] at hp
          cases hp
        simp [response, hne]
      | answered d => rfl
      | decided d => rfl
    rw [relayAct_respond_none allow remember hpos hp, hfirst]
    exact hw
  | some tx =>
    have hwired := hw.toWired.respond allow remember hpos
    rw [relayAct_respond_some allow remember hpos hp] at hwired ⊢
    have hmine : ∀ k, s.relay.pendingToolApprovals.remove h'.toInt32 k = some i →
        k ≠ h'.toInt32 ∧ k = h ∧ first = none := by
      intro k hk
      by_cases hkn : k = h'.toInt32
      · simp [hkn] at hk
      · exact ⟨hkn, hw.mine k (by simpa [hkn] using hk)⟩
    by_cases hk : h'.toInt32 = h
    · have hresponse : response h (.relay (.toolApprovalRespond h' allow remember)) =
          some ⟨allow != 0, remember != 0⟩ := if_pos (hnamed.mp hk)
      rw [hresponse]
      refine ⟨hwired, hw.below, ?_, ?_⟩
      · intro k hk'
        obtain ⟨hne, he, -⟩ := hmine k hk'
        exact absurd (he.trans hk.symm) hne
      · rw [hk] at hp
        cases hw.stage with
        | asked hp' hc hch =>
          obtain rfl : tx = i := Option.some_inj.mp (hp.symm.trans hp')
          refine .answered _ hc ?_
          simp [hch, Channel.new, Channel.send, Channel.hangUp]
        | answered d hc hch =>
          have htx : tx ≠ i := fun he ↦ by cases (hw.mine h (he ▸ hp)).2
          exact .answered d hc ((List.getElem?_modify_ne _ _ htx).trans hch)
        | decided d hc => exact .decided d hc
    · have hresponse : response h (.relay (.toolApprovalRespond h' allow remember)) = none :=
        if_neg (fun he ↦ hk (hnamed.mpr he))
      have htx : tx ≠ i := by
        intro heq
        subst heq
        exact hk (hw.mine _ hp).1
      rw [hresponse, Option.or_none]
      refine ⟨hwired, hw.below, fun k hk' ↦ (hmine k hk').2,
        hw.stage.keep rfl (List.getElem?_modify_ne _ _ htx) ?_⟩
      exact Slots.remove_of_ne _ (Ne.symm hk)

theorem Watched.recv (hw : Watched h i first s) (j : ℕ) : Watched h i first (recvAct j s) := by
  have hwired := hw.toWired.recv j
  revert hwired
  simp only [recvAct]
  split
  · rename_i handle d channel hcall hchannel
    intro hwired
    refine ⟨hwired, hw.below, hw.mine, ?_⟩
    by_cases hj : j = i
    · subst j
      cases hw.stage with
      | asked hp hc hch => simp [hch, Channel.new, Channel.recv] at hchannel
      | answered d' hc hch =>
        rw [hc] at hcall
        rw [hch] at hchannel
        cases hcall
        cases hchannel
        refine .decided d' ?_
        simp [hw.stage.lt]
      | decided d' hc => simp [hc] at hcall
    · exact hw.stage.keep (List.getElem?_set_ne hj) (List.getElem?_set_ne hj) rfl
  · exact fun _ ↦ hw

theorem Watched.step (act : Act) (hw : Watched h i first s)
    (hroom : ∀ op ∈ act.op s, Room op s.relay) (hfit : Fits act) :
    Watched h i (first.or (response h act)) (sysStep act s).2 := by
  have hsilent : response h act = none → first.or (response h act) = first := by
    intro hr
    rw [hr, Option.or_none]
  cases act with
  | recv j =>
    rw [hsilent rfl]
    exact hw.recv j
  | relay op =>
    change Watched h i (first.or (response h (.relay op))) (relayAct op s)
    cases op with
    | approve tx facts =>
      rw [hsilent rfl]
      exact hw.approve (hroom _ rfl)
    | toolApprovalRespond h' allow remember =>
      exact hw.respond hfit.1 hfit.2
    | _ =>
      rw [hsilent rfl]
      exact hw.other (by simp) (by simp) (hroom _ rfl)

theorem Watched.run {acts : List Act} (hw : Watched h i first s)
    (hroom : Run.Along sysStep (fun act s ↦ ∀ op ∈ act.op s, Room op s.relay) acts s)
    (hfit : HandlesFit acts) :
    Watched h i (first.or (firstResponse h acts)) (Run.final sysStep acts s) := by
  induction acts generalizing first s with
  | nil => simpa [firstResponse] using hw
  | cons act acts ih =>
    obtain ⟨hact, hacts⟩ := List.forall_mem_cons.mp hfit
    have hrest := ih (hw.step act hroom.1 hact) hroom.2 hacts
    rw [Option.or_assoc] at hrest
    have hfirst : firstResponse h (act :: acts) = (response h act).or (firstResponse h acts) := by
      cases hr : response h act <;> simp [firstResponse, hr]
    rw [hfirst]
    exact hrest

theorem Watched.returned {h' : Int32} {d : ToolApprovalDecision} (hw : Watched h i first s)
    (hd : s.calls[i]? = some (.returned h' d)) : h' = h ∧ first = some d := by
  cases hw.stage with
  | asked hp hc => cases hc.symm.trans hd
  | answered d' hc => cases hc.symm.trans hd
  | decided d' hc =>
    cases hc.symm.trans hd
    exact ⟨rfl, rfl⟩

theorem Watched.waiting (hw : Watched h i none s) : s.calls[i]? = some (.waiting h) := by
  cases hw.stage with
  | asked hp hc => exact hc

theorem Watched.after_recv {d : ToolApprovalDecision} (hw : Watched h i (some d) s) :
    (sysStep (.recv i) s).2.calls[i]? = some (.returned h d) := by
  cases hw.stage with
  | answered d hc hch =>
    have hlt := hw.stage.lt
    simp only [sysStep, recvAct, hc, hch, Option.bind_some, Channel.recv]
    simp [hlt]
  | decided d hc => simp [sysStep, recvAct, hc]

end Watched

theorem system_room {acts : List Act} (hn : FewHandles acts) :
    Run.Along sysStep (fun act s ↦ ∀ op ∈ act.op s, Room op s.relay) acts System.new := by
  refine along_room sysStep Act.op System.relay ?_ acts (by decide) ?_
  · intro act s
    cases act with
    | recv i =>
      simp only [sysStep, recvAct]
      split <;> rfl
    | relay op => cases op <;> rfl
  · have hlt : Run.total sysStep (fun act s ↦ ((act.op s).map fun op ↦ allocs op s.relay).getD 0)
        acts System.new < 2 ^ 31 - 1 := hn
    change 1 + Run.total sysStep _ acts System.new < 2 ^ 31
    omega

theorem wired_run {acts : List Act} {s : System} (hw : Wired s)
    (hroom : Run.Along sysStep (fun act s ↦ ∀ op ∈ act.op s, Room op s.relay) acts s)
    (hfit : HandlesFit acts) : Wired (Run.final sysStep acts s) := by
  induction acts generalizing s with
  | nil => exact hw
  | cons act acts ih =>
    obtain ⟨hact, hacts⟩ := List.forall_mem_cons.mp hfit
    exact ih (hw.step act hroom.1 hact) hroom.2 hacts

theorem watched_approve {s : System} {tx : Sender} {facts : ToolApprovalFacts} (hw : Wired s)
    (hroom : Room (withSender s.channels.length (.approve tx facts)) s.relay) :
    Watched s.relay.next s.calls.length none (relayAct (.approve tx facts) s) := by
  obtain ⟨halloc, hnext⟩ := hroom.alloc rfl
  have hwired := hw.approve tx facts halloc
  rw [relayAct_approve tx facts halloc] at hwired ⊢
  refine ⟨hwired, ?_, ?_, .asked ?_ ?_ ?_⟩
  · simp only [hnext]
    omega
  · intro k hk
    by_cases hkn : k = s.relay.next
    · exact ⟨hkn, rfl⟩
    · have hlt := hw.senders k s.calls.length (by simpa [hkn] using hk)
      exact absurd hlt (lt_irrefl _)
  · simp [hw.channels]
  · simp
  · have hold : s.relay.pendingToolApprovals s.relay.next ≠ some s.calls.length :=
      fun hp ↦ lt_irrefl _ (hw.senders _ _ hp)
    rw [deliver_dropped hold, ← hw.channels]
    simp

/-- An approve call returns the first answer that names the handle of its event and comes
after it, and nothing else: without one it waits. -/
theorem approve_decision (pre post : List Act) (tx : Sender) (facts : ToolApprovalFacts)
    (hn : FewHandles (pre ++ .relay (.approve tx facts) :: post))
    (hfit : HandlesFit (pre ++ .relay (.approve tx facts) :: post)) :
    let i := (system pre).calls.length
    let h := (system pre).relay.next
    let s := system (pre ++ .relay (.approve tx facts) :: post)
    (system (pre ++ [.relay (.approve tx facts)])).relay.events =
        (system pre).relay.events ++ [.toolApproval h facts.connection facts.method facts.url
          facts.origin facts.argsDigest] ∧
      (∀ h' d, s.calls[i]? = some (.returned h' d) → h' = h ∧ firstResponse h post = some d) ∧
      (∀ h' d, s.calls[i]? = some (.returned h' d) → d.allow = true →
        ∃ allow remember, .relay (.toolApprovalRespond h.toInt64 allow remember) ∈ post ∧
          allow ≠ 0) ∧
      (firstResponse h post = none → s.calls[i]? = some (.waiting h)) ∧
      ∀ d, firstResponse h post = some d →
        (sysStep (.recv i) s).2.calls[i]? = some (.returned h d) := by
  intro i h s
  obtain ⟨hpre, hask, hpost⟩ := Run.along_append.mp (system_room hn)
  have hfitPre : HandlesFit pre := fun a ha ↦ hfit a (List.mem_append_left _ ha)
  have hfitPost : HandlesFit post :=
    fun a ha ↦ hfit a (List.mem_append_right _ (List.mem_cons_of_mem _ ha))
  have hwired : Wired (system pre) := by
    refine wired_run ⟨rfl, ?_⟩ hpre hfitPre
    intro k tx hk
    cases hk
  have hw : Watched h i (firstResponse h post) s := by
    have hrun := (watched_approve hwired (hask _ rfl)).run hpost hfitPost
    rw [Option.none_or] at hrun
    have hs : s = Run.final sysStep post (relayAct (.approve tx facts) (system pre)) :=
      Run.final_append ..
    rw [hs]
    exact hrun
  refine ⟨?_, fun h' d ↦ hw.returned, ?_, ?_, ?_⟩
  · have hs : system (pre ++ [.relay (.approve tx facts)]) =
        relayAct (.approve tx facts) (system pre) := Run.final_append ..
    rw [hs, relayAct_approve (s := system pre) tx facts ((hask _ rfl).alloc rfl).1]
  · intro h' d hd hallow
    obtain ⟨act, hact, hresponse⟩ := List.exists_of_findSome?_eq_some (hw.returned hd).2
    obtain ⟨allow, remember, rfl, rfl⟩ := response_eq_some hresponse
    exact ⟨allow, remember, hact, by simpa using hallow⟩
  · intro hnone
    rw [hnone] at hw
    exact hw.waiting
  · intro d hd
    rw [hd] at hw
    exact hw.after_recv

/-- Two calls wait at once, the host answers them in the other order, and a second answer
to the first call comes before it is received. -/
theorem approve_decision_crossed :
    (system [.relay (.approve 0 ⟨"a", "GET", "/", "o", none⟩),
        .relay (.approve 0 ⟨"b", "GET", "/", "o", none⟩), .relay (.hostCallStart false []),
        .relay (.toolApprovalRespond 2 0 0), .relay (.toolApprovalRespond 1 1 0),
        .relay (.toolApprovalRespond 1 0 1), .recv 0]).calls[0]? =
      some (.returned 1 ⟨true, false⟩) :=
  (approve_decision [] [.relay (.approve 0 ⟨"b", "GET", "/", "o", none⟩),
    .relay (.hostCallStart false []), .relay (.toolApprovalRespond 2 0 0),
    .relay (.toolApprovalRespond 1 1 0), .relay (.toolApprovalRespond 1 0 1)] 0
    ⟨"a", "GET", "/", "o", none⟩ (by decide) (by decide)).2.2.2.2 ⟨true, false⟩ (by decide)

end MachineNotebook.Host.Approvals
