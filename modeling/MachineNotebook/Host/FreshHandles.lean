import MachineNotebook.Host.Approvals
import MachineNotebook.Host.RelayEffects

namespace MachineNotebook.Host.FreshHandles

open MachineNotebook.Lib MachineNotebook.Lib.Utf8 ChunkedReply Table Relay RelayRun RelayAnswers
  RelayEffects Approvals

def Open (h : Int32) (s : RelayState) : Prop :=
  (∃ k, (reply k h s).isSome) ∨ (s.ws h).isSome ∨ (s.pendingToolApprovals h).isSome

/-- A close that the guest may issue for a handle it does not have. -/
def isClose : EgressRelayEvent → Bool
  | .wsClose _ | .hostCallClose _ _ => true
  | _ => false

/-- A relay with the handles that its counter gave out, in order. -/
structure Handouts where
  state : RelayState
  handles : List Int32

def handoutStep (op : RelayOp) (o : Handouts) : Unit × Handouts :=
  ((), ⟨(relayStep op o.state).2, o.handles ++ (handed op o.state).toList⟩)

def handouts (ops : List RelayOp) : Handouts := Run.final handoutStep ops ⟨RelayState.new, []⟩

section Step

variable {h : Int32} {s : RelayState} {op : RelayOp}

theorem handed_of_starts {k : Kind} (hs : starts k h s op = true) : handed op s = some h := by
  cases op <;> cases k <;> simp only [starts, Bool.false_eq_true, beq_iff_eq, Bool.and_eq_true] at hs
  case httpRequest.http req => rw [handed, hs]
  case hostCallStart.hostCall sidecarOnly req =>
    have hd : ¬(sidecarOnly = true ∧ (splitRequest req).1 ≠ SIDECAR_HOST_BINDING) := by
      simpa only [Bool.not_eq_true', decide_eq_false_iff_not] using hs.1
    rw [handed, if_neg hd, hs.2]
  case persistStart.persist req =>
    obtain ⟨opkv, hp⟩ := Option.isSome_iff_exists.mp hs.1
    rw [handed, hp, hs.2, Option.map_some]

theorem reply_of_accepts {k : Kind} {answer : Int32 × Bytes} (ha : accepts k h s op = some answer) :
    (reply k h s).isSome := by
  cases op <;> cases k <;> simp only [accepts, reduceCtorEq, ite_eq_iff, and_false, or_false] at ha
  all_goals exact ha.1.2.2

theorem reply_opened {k : Kind} (ho : (reply k h (relayStep op s).2).isSome) :
    (reply k h s).isSome ∨ handed op s = some h := by
  rw [reply_step, replyAfter] at ho
  split at ho
  · rename_i hstarts
    exact Or.inr (handed_of_starts hstarts)
  · left
    split at ho
    · cases ho
    · split at ho
      · rename_i haccept
        exact reply_of_accepts haccept
      · simpa using ho
      · exact ho

theorem ws_opened (ho : ((relayStep op s).2.ws h).isSome) :
    (s.ws h).isSome ∨ handed op s = some h := by
  rw [ws_step] at ho
  unfold wsAfter at ho
  split at ho
  · rename_i url
    by_cases hh : h = s.allocHandle.1
    · exact Or.inr (by rw [handed, hh])
    · exact Or.inl (by simpa [hh] using ho)
  · rename_i h'
    by_cases hh : h = h'
    · simp [hh] at ho
    · exact Or.inl (by simpa [hh] using ho)
  · left
    cases he : wsEffect s op with
    | none => simpa [he] using ho
    | some hf => simpa [he, Slots.modify_apply] using ho

theorem approval_opened (ho : ((relayStep op s).2.pendingToolApprovals h).isSome) :
    (s.pendingToolApprovals h).isSome ∨ handed op s = some h := by
  cases op with
  | approve tx facts =>
    by_cases hh : h = s.allocHandle.1
    · exact Or.inr (by rw [handed, hh])
    · left
      change ((s.pendingToolApprovals.insert s.allocHandle.1 tx) h).isSome at ho
      rwa [Slots.insert_of_ne _ _ hh] at ho
  | toolApprovalRespond h' allow remember =>
    left
    simp only [relayStep, relayToolApprovalRespond] at ho
    split at ho
    · rename_i heq
      split at heq
      · cases heq
      · split at heq
        · cases heq
          exact ho
        · cases heq
          by_cases hh : h = h'.toInt32
          · simp [hh] at ho
          · simpa [hh] using ho
    · exact ho
  | _ =>
    left
    rwa [approvals_kept (fun _ _ ↦ by simp) (fun _ _ _ ↦ by simp)] at ho

theorem open_step (ho : Open h (relayStep op s).2) : Open h s ∨ handed op s = some h := by
  rcases ho with ⟨k, hk⟩ | hws | hpending
  · exact (reply_opened hk).imp_left fun hk ↦ Or.inl ⟨k, hk⟩
  · exact (ws_opened hws).imp_left fun hws ↦ Or.inr (Or.inl hws)
  · exact (approval_opened hpending).imp_left fun hpending ↦ Or.inr (Or.inr hpending)

theorem persistEvent_handle {o : ℕ} {key value : Bytes} {ev : EgressRelayEvent}
    (he : persistEvent o h key value = some ev) : ev.handle = h := by
  simp only [persistEvent] at he
  split at he <;> cases he <;> rfl

theorem pushed_handle {ev : EgressRelayEvent} (hp : pushed s op = some ev) :
    handed op s = some ev.handle ∨ (s.ws ev.handle).isSome ∨ isClose ev = true := by
  cases op with
  | httpRequest req => cases hp; exact Or.inl rfl
  | wsConnect url => cases hp; exact Or.inl rfl
  | approve tx facts => cases hp; exact Or.inl rfl
  | wsClose h' => cases hp; exact Or.inr (Or.inr rfl)
  | hostCallClose h' => cases hp; exact Or.inr (Or.inr rfl)
  | wsSend h' data =>
    simp only [pushed, Option.ite_none_right_eq_some, Option.some.injEq] at hp
    obtain ⟨hany, rfl⟩ := hp
    exact Or.inr (Or.inl (Option.isSome_of_any hany))
  | hostCallStart sidecarOnly req =>
    simp only [pushed, Option.ite_none_left_eq_some, Option.some.injEq] at hp
    obtain ⟨hd, rfl⟩ := hp
    exact Or.inl (by rw [handed, if_neg hd]; rfl)
  | persistStart req =>
    obtain ⟨⟨o, key, value⟩, hsplit, hev⟩ := Option.bind_eq_some_iff.mp hp
    left
    rw [handed, hsplit, Option.map_some, persistEvent_handle hev]
  | _ => cases hp

theorem events_pushed {ev : EgressRelayEvent} (he : ev ∈ (relayStep op s).2.events) :
    ev ∈ s.events ∨ pushed s op = some ev := by
  rw [events_step] at he
  unfold eventsAfter at he
  split at he
  · rename_i so
    left
    cases hp : SelectiveQueue.pop isSidecarEvent so s.events with
    | none => simpa [hp] using he
    | some evq =>
      obtain ⟨ev', q⟩ := evq
      obtain ⟨l₁, l₂, hq, rfl, -, -⟩ := SelectiveQueue.pop_split hp
      rw [hp] at he
      rw [hq]
      rcases List.mem_append.mp he with he | he <;> simp [he]
  · exact (List.mem_append.mp he).imp_right Option.mem_toList.mp

theorem handed_eq (hh : handed op s = some h) : h = s.allocHandle.1 := by
  cases op with
  | httpRequest req => exact (Option.some_inj.mp hh).symm
  | wsConnect url => exact (Option.some_inj.mp hh).symm
  | approve tx facts => exact (Option.some_inj.mp hh).symm
  | hostCallStart sidecarOnly req =>
    simp only [handed, Option.ite_none_left_eq_some, Option.some.injEq] at hh
    exact hh.2.symm
  | persistStart req =>
    obtain ⟨opkv, -, hh⟩ := Option.map_eq_some_iff.mp hh
    exact hh.symm
  | _ => cases hh

end Step

abbrev ROUND : ℕ := 2 ^ 31 - 1

theorem alloc_round {s : RelayState} {n : ℕ} (hn : s.next.toInt = ((n % ROUND : ℕ) : ℤ) + 1) :
    s.allocHandle.1 = s.next ∧ s.allocHandle.2.next.toInt = (((n + 1) % ROUND : ℕ) : ℤ) + 1 := by
  have hpos : 0 < s.next.toInt := by omega
  refine ⟨if_neg (RelayState.not_le_zero hpos), ?_⟩
  by_cases hlt : s.next.toInt + 1 < 2 ^ 31
  · obtain ⟨ha, hsucc⟩ := RelayState.allocHandle_eq hpos hlt
    rw [ha]
    change (s.next + 1).toInt = _
    unfold ROUND at hn ⊢
    omega
  · have hlast := RelayState.next_eq_last hlt
    have hwrap : s.allocHandle.2.next = 1 := by
      simp only [RelayState.allocHandle, hlast]
      decide
    rw [hwrap]
    rw [hlast] at hn
    simp only [Int32.reduceToInt, Int32.toInt_one] at hn ⊢
    unfold ROUND at hn ⊢
    omega

/-- Handles are numbered from 1 upwards, round after round. -/
structure Numbered (o : Handouts) : Prop where
  next : o.state.next.toInt = ((o.handles.length % ROUND : ℕ) : ℤ) + 1
  handle : ∀ i h, o.handles[i]? = some h → h.toInt = ((i % ROUND : ℕ) : ℤ) + 1

theorem Numbered.step (op : RelayOp) (o : Handouts) (hn : Numbered o) :
    Numbered (handoutStep op o).2 := by
  obtain ⟨halloc, hmoved⟩ := alloc_round hn.next
  have hnext := counter_step (s := o.state) op
  cases hh : handed op o.state with
  | none =>
    simp only [hh, Option.isSome_none, Bool.false_eq_true, if_false] at hnext
    constructor
    · simpa [handoutStep, hh, hnext] using hn.next
    · simpa [handoutStep, hh] using hn.handle
  | some h =>
    simp only [hh, Option.isSome_some, if_true] at hnext
    have hh' : h = o.state.next := (handed_eq hh).trans halloc
    constructor
    · simpa [handoutStep, hh, hnext] using hmoved
    · intro i h' hi
      simp only [handoutStep, hh, Option.toList_some] at hi
      rcases Nat.lt_trichotomy i o.handles.length with hlt | heq | hgt
      · rw [List.getElem?_append_left hlt] at hi
        exact hn.handle i h' hi
      · rw [heq, List.getElem?_concat_length] at hi
        rw [← Option.some_inj.mp hi, hh', heq, hn.next]
      · rw [List.getElem?_eq_none (by simp; omega)] at hi
        cases hi

/-- What is open or queued has a handle that was given out, but for the guest's closes. -/
structure Tracked (o : Handouts) : Prop where
  isOpen : ∀ h, Open h o.state → h ∈ o.handles
  queued : ∀ ev ∈ o.state.events, ev.handle ∈ o.handles ∨ isClose ev = true

theorem Tracked.step (op : RelayOp) (o : Handouts) (ht : Tracked o) :
    Tracked (handoutStep op o).2 := by
  have hgiven : ∀ h, handed op o.state = some h → h ∈ (handoutStep op o).2.handles := by
    intro h hh
    simp [handoutStep, hh]
  have hkept : ∀ h ∈ o.handles, h ∈ (handoutStep op o).2.handles :=
    fun h hh ↦ List.mem_append_left _ hh
  constructor
  · intro h ho
    rcases open_step ho with ho | hh
    · exact hkept h (ht.isOpen h ho)
    · exact hgiven h hh
  · intro ev hev
    rcases events_pushed hev with hev | hpushed
    · exact (ht.queued ev hev).imp_left (hkept ev.handle)
    · rcases pushed_handle hpushed with hh | hws | hclose
      · exact Or.inl (hgiven ev.handle hh)
      · exact Or.inl (hkept ev.handle (ht.isOpen ev.handle (Or.inr (Or.inl hws))))
      · exact Or.inr hclose

theorem handouts_state (ops : List RelayOp) : (handouts ops).state = run ops :=
  Run.final_proj (fun _ _ ↦ rfl) ops _

theorem numbered_run (ops : List RelayOp) : Numbered (handouts ops) :=
  Run.invariant Numbered.step ops ⟨rfl, by simp⟩

theorem tracked_run (ops : List RelayOp) : Tracked (handouts ops) := by
  refine Run.invariant Tracked.step ops ⟨?_, by simp [RelayState.new]⟩
  rintro h (⟨k, hk⟩ | hws | hpending)
  · cases k <;> cases hk
  · cases hws
  · cases hpending

/-- A new handle is positive and none of the `2 ^ 31 - 2` handed out before it, a slot or a
waiting approval under it was opened when it was handed out before, and so is a queued event
that names it, unless it is a close that the guest issued. -/
theorem handle_fresh (ops : List RelayOp) (op : RelayOp) (h : Int32)
    (hh : handed op (run ops) = some h) :
    0 < h.toInt ∧
      (∀ older newer, (handouts ops).handles = older ++ h :: newer → 2 ^ 31 - 2 ≤ newer.length) ∧
      (Open h (run ops) → h ∈ (handouts ops).handles) ∧
      ∀ ev ∈ (run ops).events, ev.handle = h → h ∈ (handouts ops).handles ∨ isClose ev = true := by
  have hn := numbered_run ops
  have ht := tracked_run ops
  rw [← handouts_state] at hh ⊢
  have hnext : h = (handouts ops).state.next := (handed_eq hh).trans (alloc_round hn.next).1
  have hvalue := hn.next
  rw [← hnext] at hvalue
  refine ⟨by omega, ?_, ht.isOpen h, ?_⟩
  · intro older newer hsplit
    have hold := hn.handle older.length h (by rw [hsplit]; simp)
    rw [hold, hsplit, List.length_append, List.length_cons] at hvalue
    unfold ROUND at hvalue
    omega
  · rintro ev hev rfl
    exact ht.queued ev hev

theorem handle_fresh_third :
    0 < (3 : Int32).toInt ∧ ¬Open 3 (run [.httpRequest [7], .wsConnect "wss://a", .wsClose 2]) := by
  obtain ⟨hpos, -, hopen, -⟩ := handle_fresh [.httpRequest [7], .wsConnect "wss://a", .wsClose 2]
    (.wsConnect "wss://b") 3 (by decide)
  exact ⟨hpos, fun ho ↦ absurd (hopen ho) (by decide)⟩

theorem requests_pass (req : Bytes) (n : ℕ) (o : Handouts) :
    (Run.final handoutStep (List.replicate n (.httpRequest req)) o).state.ws = o.state.ws ∧
      (Run.final handoutStep (List.replicate n (.httpRequest req)) o).handles.length =
        o.handles.length + n := by
  induction n generalizing o with
  | zero => exact ⟨rfl, rfl⟩
  | succ n ih =>
    obtain ⟨hws, hlen⟩ := ih (handoutStep (.httpRequest req) o).2
    rw [List.replicate_succ, Run.final_cons]
    refine ⟨hws, hlen.trans ?_⟩
    simp [handoutStep, handed]
    omega

/-- An open socket and all the requests up to the last handle. -/
def fullRound : List RelayOp :=
  [.wsConnect "wss://a", .wsOpen 1 1] ++ List.replicate (2 ^ 31 - 2) (.httpRequest [])

/-- A handle that the guest has closed already comes as new while its close is queued, and
after a round of the counter a new socket takes the slot of an open one. -/
theorem handle_comes_again :
    (handed (.httpRequest []) (run [.wsClose 1]) = some 1 ∧
        ∃ ev ∈ (run [.wsClose 1]).events, ev.handle = 1) ∧
      handed (.wsConnect "wss://b") (run fullRound) = some 1 ∧
      (run fullRound).ws 1 = some { isOpen := true } ∧
      (relayStep (.wsConnect "wss://b") (run fullRound)).2.ws 1 = some {} := by
  have hsplit : handouts fullRound = Run.final handoutStep
      (List.replicate (2 ^ 31 - 2) (.httpRequest []))
      (handouts [.wsConnect "wss://a", .wsOpen 1 1]) := Run.final_append ..
  obtain ⟨hws, hlen⟩ := requests_pass [] (2 ^ 31 - 2) (handouts [.wsConnect "wss://a", .wsOpen 1 1])
  have hn := (numbered_run fullRound).next
  have halloc := (alloc_round hn).1
  rw [← hsplit, handouts_state] at hws
  rw [← hsplit] at hlen
  rw [hlen, handouts_state] at hn
  have hone : (run fullRound).next = 1 := by
    apply Int32.toInt_inj.mp
    rw [hn]
    decide
  rw [handouts_state, hone] at halloc
  refine ⟨by decide, by rw [handed, halloc], ?_, ?_⟩
  · rw [hws]
    decide
  · rw [ws_step]
    simp [wsAfter, halloc]

end MachineNotebook.Host.FreshHandles
