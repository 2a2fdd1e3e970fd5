import MachineNotebook.Host.RelayReads

namespace MachineNotebook.Host.RelayOneAnswer

open MachineNotebook.Lib MachineNotebook.Lib.Utf8 ChunkedReply Table Relay RelayRun
  RelayAnswers RelayReads

/-- What a poll or a read tells the guest. Bytes or a positive value say that the request
is done, a negative value without bytes that it failed. -/
def observes (k : Kind) (h : Int32) (op : RelayOp) (out : RelayOut) : Option Bool :=
  if (reads k h op).isSome ∨ polls k h op then
    if out.bytes ≠ [] ∨ 0 < out.ret then some false
    else if out.ret < 0 then some true
    else none
  else none

/-- A request from its start on: the bytes the guest read, the outcomes it observed, and
the answers the slot accepted, each with its failed flag. -/
structure Life where
  state : RelayState
  got : Bytes
  seen : List Bool
  answers : List (Bool × Bytes)

def Life.start (s : RelayState) : Life := ⟨s, [], [], []⟩

def lifeStep (k : Kind) (h : Int32) (op : RelayOp) (l : Life) : Unit × Life :=
  let (out, s) := relayStep op l.state
  ((), {
    state := s
    got := l.got ++ copied k h op out
    seen := l.seen ++ (observes k h op out).toList
    answers := l.answers ++
      ((accepts k h l.state op).map fun (ok, body) ↦ (ok == 0, body)).toList })

def Lives (k : Kind) (h : Int32) (op : RelayOp) (l : Life) : Prop :=
  starts k h l.state op = false ∧ op ≠ closeOp k h

/-- An answer is accepted only while the guest has read nothing, and it agrees with the
outcome the guest has seen. -/
def Timely (k : Kind) (h : Int32) (op : RelayOp) (l : Life) : Prop :=
  ∀ answer ∈ accepts k h l.state op, l.got = [] ∧ ∀ failed ∈ l.seen, failed = (answer.1 == 0)

instance (k : Kind) (h : Int32) (op : RelayOp) (l : Life) : Decidable (Lives k h op l) :=
  inferInstanceAs (Decidable (_ ∧ _))

instance (k : Kind) (h : Int32) (op : RelayOp) (l : Life) : Decidable (Timely k h op l) :=
  inferInstanceAs (Decidable (∀ answer ∈ _, _ ∧ _))

/-- The bytes read are from the front of one accepted answer, and all that the guest saw
is one outcome. -/
def OneAnswer (l : Life) : Prop :=
  (l.got = [] ∨ ∃ body, (false, body) ∈ l.answers ∧ l.got <+: body) ∧
    ∀ failed ∈ l.seen, ∀ failed' ∈ l.seen, failed = failed'

instance (l : Life) : Decidable (OneAnswer l) :=
  have : Decidable (∃ body, (false, body) ∈ l.answers ∧ l.got <+: body) :=
    decidable_of_iff (∃ a ∈ l.answers, a.1 = false ∧ l.got <+: a.2)
      ⟨fun ⟨⟨_, body⟩, ha, h1, h2⟩ ↦ ⟨body, by cases h1; exact ha, h2⟩,
        fun ⟨body, ha, h2⟩ ↦ ⟨_, ha, rfl, h2⟩⟩
  inferInstanceAs (Decidable (_ ∧ _))

/-- Where a request stands while its answers are timely. -/
inductive Settled (k : Kind) (h : Int32) (l : Life) : Prop
  | waiting (hr : reply k h l.state = some pending) (hgot : l.got = []) (hseen : l.seen = [])
  | answered (failed : Bool) (body : Bytes)
      (hr : reply k h l.state = some ⟨true, failed, body, l.got.length⟩)
      (hans : (failed, body) ∈ l.answers) (hgot : l.got <+: body)
      (hfail : failed = true → l.got = []) (hseen : ∀ o ∈ l.seen, o = failed)

theorem Settled.oneAnswer {k : Kind} {h : Int32} {l : Life} (hs : Settled k h l) :
    OneAnswer l := by
  cases hs with
  | waiting hr hgot hseen => exact ⟨Or.inl hgot, by simp [hseen]⟩
  | answered failed body hr hans hgot hfail hseen =>
    refine ⟨?_, fun o ho o' ho' ↦ (hseen o ho).trans (hseen o' ho').symm⟩
    cases failed with
    | true => exact Or.inl (hfail rfl)
    | false => exact Or.inr ⟨body, hans, hgot⟩

variable {k : Kind} {h : Int32} {s : RelayState} {op : RelayOp} {r : Reply UInt8} {o : Bool}

theorem outcome_of_out (out : RelayOut)
    (hbytes : out.bytes ≠ [] → r.outcome = some false) (hpos : 0 < out.ret → r.outcome = some false)
    (hneg : out.bytes = [] → out.ret < 0 → r.outcome = some true)
    (ho : observes k h op out = some o) : r.outcome = some o := by
  simp only [observes] at ho
  split at ho
  · split at ho
    · rename_i hdone
      cases ho
      exact hdone.elim hbytes hpos
    · rename_i hdone
      split at ho
      · rename_i hlt
        cases ho
        exact hneg (by simpa using fun he ↦ hdone (Or.inl he)) hlt
      · cases ho
  · cases ho

theorem observes_read {buf : ℕ} (hr : reply k h s = some r)
    (ho : observes k h (readOp k h buf) (relayStep (readOp k h buf) s).1 = some o) :
    r.outcome = some o := by
  rw [read_out, hr] at ho
  refine outcome_of_out (readOut r buf) Reply.outcome_of_chunk ?_ ?_ ho
  · intro hpos
    apply Reply.outcome_of_chunk (n := buf)
    intro hnil
    simp only [readOut, readRet, hnil] at hpos
    split at hpos <;> exact absurd hpos (by decide)
  · intro hnil hneg
    simp only [readOut] at hnil
    simp only [readOut, readRet, hnil] at hneg
    split at hneg
    · rename_i hfailed
      simp [Reply.outcome, hfailed.1, hfailed.2]
    · exact absurd hneg (by decide)

theorem pollAnswer_outcome {out : RelayOut} (hout : out = { ret := pollAnswer r.done r.failed })
    (hfail : r.failed = true → r.done = true) (ho : observes k h op out = some o) :
    r.outcome = some o := by
  subst out
  obtain ⟨done, failed, body, pos⟩ := r
  refine outcome_of_out _ ?_ ?_ ?_ ho <;> cases done <;> cases failed <;>
    simp_all [pollAnswer, Reply.outcome]

theorem httpPoll_outcome {buf : ℕ} (hr : reply .http h s = some r)
    (ho : observes .http h (.httpPoll h buf) (relayStep (.httpPoll h buf) s).1 = some o) :
    r.outcome = some o := by
  obtain ⟨slot, hs, rfl⟩ := Option.map_eq_some_iff.mp hr
  simp only [relayStep, httpPoll, hs] at ho
  cases hd : slot.done with
  | false => simp [observes, hd] at ho
  | true =>
    cases hf : slot.failed with
    | true => simpa [observes, polls, reads, hd, hf, Reply.outcome] using ho
    | false =>
      refine outcome_of_out (r := ⟨true, false, slot.body, slot.bodyPos⟩) _
        (fun _ ↦ rfl) (fun _ ↦ rfl) ?_ ho
      intro hnil hneg
      simp only [hd, hf, Bool.not_true, Bool.false_eq_true, if_false] at hnil hneg
      have hzero : min slot.head.length buf = 0 := by
        simpa [List.length_take] using congrArg List.length hnil
      rw [hzero] at hneg
      exact absurd hneg (by decide)

theorem observes_outcome (hr : reply k h s = some r) (hfail : r.failed = true → r.done = true)
    (ho : observes k h op (relayStep op s).1 = some o) : r.outcome = some o := by
  cases hread : reads k h op with
  | some buf =>
    obtain rfl := reads_eq_some hread
    exact observes_read hr ho
  | none =>
    by_cases hpoll : polls k h op = true
    · cases op <;> cases k <;> simp [polls] at hpoll <;> subst h
      · exact httpPoll_outcome hr ho
      · obtain ⟨slot, hs, rfl⟩ := Option.map_eq_some_iff.mp hr
        exact pollAnswer_outcome (by simp [relayStep, hostCallPoll, hs]) hfail ho
      · obtain ⟨slot, hs, rfl⟩ := Option.map_eq_some_iff.mp hr
        exact pollAnswer_outcome (by simp [relayStep, persistPoll, hs]) hfail ho
    · simp [observes, hread, hpoll] at ho

theorem lifeStep_eq (l : Life) :
    (lifeStep k h op l).2 = {
      state := (relayStep op l.state).2
      got := l.got ++ copied k h op (relayStep op l.state).1
      seen := l.seen ++ (observes k h op (relayStep op l.state).1).toList
      answers := l.answers ++
        ((accepts k h l.state op).map fun (ok, body) ↦ (ok == 0, body)).toList } := rfl

theorem accepted_quiet {answer : Int32 × Bytes} (out : RelayOut)
    (ha : accepts k h s op = some answer) :
    copied k h op out = [] ∧ observes k h op out = none := by
  cases op <;> cases k <;> first
    | cases ha
    | exact ⟨rfl, by simp [observes, reads, polls]⟩

theorem settled_answer {l : Life} {ok : Int32} {body : Bytes}
    (ha : accepts k h l.state op = some (ok, body)) (ht : Timely k h op l) :
    Settled k h (lifeStep k h op l).2 := by
  obtain ⟨hgot, hseen⟩ := ht (ok, body) ha
  obtain ⟨hcopied, hobs⟩ := accepted_quiet (relayStep op l.state).1 ha
  rw [lifeStep_eq, hcopied, hobs, ha, hgot]
  refine .answered (ok == 0) body ?_ (by simp) (by simp) (fun _ ↦ rfl) ?_
  · exact reply_respond ha
  · simpa using hseen

theorem settled_other {l : Life} (hl : Lives k h op l) (ha : accepts k h l.state op = none)
    (hs : Settled k h l) : Settled k h (lifeStep k h op l).2 := by
  have hkeep : Keeps k h op l.state := ⟨hl.1, hl.2, ha⟩
  rw [lifeStep_eq, ha, Option.map_none, Option.toList_none, List.append_nil]
  cases hs with
  | waiting hr hgot hseen =>
    obtain ⟨hr', hcopied⟩ := keeps_step hkeep hr
    have hquiet : observes k h op (relayStep op l.state).1 = none := by
      by_contra hne
      obtain ⟨o, ho⟩ := Option.ne_none_iff_exists'.mp hne
      cases observes_outcome hr (by simp [pending]) ho
    refine .waiting ?_ ?_ ?_
    · simpa [Reply.read] using hr'
    · simp [hgot, hcopied]
    · simp [hseen, hquiet]
  | answered failed body hr hans hgot hfail hseen =>
    obtain ⟨hr', hcopied⟩ := keeps_step hkeep hr
    rw [hcopied]
    refine .answered failed body ?_ hans ?_ ?_ ?_
    · simpa [Reply.read] using hr'
    · exact Reply.prefix_chunk hgot failed _
    · intro heq
      subst heq
      simp [hfail rfl, Reply.chunk_failed]
    · intro o ho
      rcases List.mem_append.mp ho with ho | ho
      · exact hseen o ho
      · have hout := observes_outcome hr (fun _ ↦ rfl) (by simpa using ho)
        simpa [Reply.outcome] using hout.symm

/-- While every answer is timely, a request has one answer, from its start to its close. -/
theorem one_answer (k : Kind) (h : Int32) (pre life : List RelayOp) (start : RelayOp)
    (hstart : starts k h (run pre) start = true)
    (hlife : Run.Along (lifeStep k h) (fun op l ↦ Lives k h op l ∧ Timely k h op l) life
      (Life.start (relayStep start (run pre)).2)) :
    OneAnswer (Run.final (lifeStep k h) life (Life.start (relayStep start (run pre)).2)) := by
  have hr : reply k h (relayStep start (run pre)).2 = some pending := by
    simp [reply_step, replyAfter, hstart]
  refine (hlife.invariant (I := Settled k h) ?_ (.waiting hr rfl rfl)).oneAnswer
  intro op l hop hs
  cases ha : accepts k h l.state op with
  | none => exact settled_other hop.1 ha hs
  | some answer => exact settled_answer ha hop.2

/-- A request whose first answer is read in two chunks, while another is answered twice. -/
theorem one_answer_persist :
    OneAnswer (Run.final (lifeStep .persist 1)
      [.httpRequest [7], .persistRespond 1 1 [97, 98], .httpRespond 2 0 [] [], .persistBody 1 1,
        .persistPoll 1, .httpRespond 2 1 [] [99], .persistBody 1 8]
      (Life.start (relayStep (.persistStart [0, 0, 0, 0, 0, 0, 0, 0]) (run [])).2)) :=
  one_answer .persist 1 [] _ (.persistStart [0, 0, 0, 0, 0, 0, 0, 0]) (by decide) (by decide)

/-- A second answer between two reads gives the guest one byte of the first body and two
of the second, and a third turns the finished request into a failed one. -/
theorem late_answers_mixed :
    let start : RelayOp := .persistStart [0, 0, 0, 0, 0, 0, 0, 0]
    let l := Run.final (lifeStep .persist 1)
      [.persistRespond 1 1 [97, 98], .persistBody 1 1, .persistRespond 1 1 [120, 121],
        .persistBody 1 2, .persistRespond 1 0 [], .persistPoll 1]
      (Life.start (relayStep start (run [])).2)
    l.got = [97, 120, 121] ∧ l.answers = [(false, [97, 98]), (false, [120, 121]), (true, [])] ∧
      l.seen = [false, false, true] ∧ ¬OneAnswer l := by
  decide

end MachineNotebook.Host.RelayOneAnswer
