import MachineNotebook.Host.RelayAnswers

namespace MachineNotebook.Host.RelayReads

open MachineNotebook.Lib MachineNotebook.Lib.Utf8 ChunkedReply Table Relay RelayRun RelayAnswers

variable {k : Kind} {h : Int32} {s : RelayState} {op : RelayOp}

def noSlot : RelayOut := { ret := -1 }

def readOut (r : Reply UInt8) (buf : ℕ) : RelayOut := { ret := readRet r buf, bytes := r.chunk buf }

theorem httpBody_out (buf : ℕ) :
    (relayStep (.httpBody h buf) s).1 = ((reply .http h s).map (readOut · buf)).getD noSlot := by
  cases hs : s.http h with
  | none => simp [relayStep, httpBody, reply, hs, noSlot]
  | some slot =>
    simp only [relayStep, httpBody, reply, hs, Option.map_some, Option.getD_some, readOut]
    cases hd : slot.done with
    | false => simp [readRet, Reply.chunk]
    | true =>
      cases hf : slot.failed with
      | true => simp [readRet, Reply.chunk]
      | false =>
        have hb := bodyRange_eq slot buf hd hf
        simp only [hd, hf] at hb
        simp only [readRet, Bool.not_true, Bool.false_eq_true, and_false, if_false]
        rw [hb.1, hb.2]

theorem read_out (k : Kind) (h : Int32) (buf : ℕ) (s : RelayState) :
    (relayStep (readOp k h buf) s).1 = ((reply k h s).map (readOut · buf)).getD noSlot := by
  cases k with
  | http => exact httpBody_out buf
  | hostCall =>
    cases hs : s.hostCalls h with
    | none => simp [relayStep, readOp, hostCallBody, reply, hs, noSlot]
    | some slot => simp [relayStep, readOp, hostCallBody, reply, hs, readOut, readAnswer_eq]
  | persist =>
    cases hs : s.persist h with
    | none => simp [relayStep, readOp, persistBody, reply, hs, noSlot]
    | some slot => simp [relayStep, readOp, persistBody, reply, hs, readOut, readAnswer_eq]

theorem reads_eq_some {buf : ℕ} (hr : reads k h op = some buf) : op = readOp k h buf := by
  cases op <;> cases k <;> simp [reads] at hr <;> obtain ⟨rfl, rfl⟩ := hr <;> rfl

theorem chunk_eq_nil {r : Reply UInt8} {buf : ℕ} (hlt : buf < 2 ^ 32) (h : readRet r buf = 0) :
    r.chunk buf = [] := by
  rw [readRet] at h
  split at h
  · cases h
  · have hle : (r.chunk buf).length ≤ buf := by
      simp only [Reply.chunk]
      split <;> simp
    have hmod := ofNat_eq_zero_iff.mp h
    rw [Nat.mod_eq_of_lt (by omega)] at hmod
    exact List.eq_nil_of_length_eq_zero hmod

/-- The calls that leave the answer of a handle as it is, reading aside: the handle is
not handed out again, not closed and not answered again. -/
def Keeps (k : Kind) (h : Int32) (op : RelayOp) (s : RelayState) : Prop :=
  starts k h s op = false ∧ op ≠ closeOp k h ∧ accepts k h s op = none

instance (k : Kind) (h : Int32) (op : RelayOp) (s : RelayState) : Decidable (Keeps k h op s) :=
  inferInstanceAs (Decidable (_ ∧ _ ∧ _))

/-- What a call copies out to a reader of the handle. -/
def copied (k : Kind) (h : Int32) (op : RelayOp) (out : RelayOut) : Bytes :=
  if (reads k h op).isSome then out.bytes else []

def bytesRead (k : Kind) (h : Int32) (ops : List RelayOp) (s : RelayState) : Bytes :=
  (Run.trace relayStep ops s).flatMap fun (op, out) ↦ copied k h op out

def asked (k : Kind) (h : Int32) (ops : List RelayOp) : ℕ := (ops.filterMap (reads k h)).sum

theorem bytesRead_cons (ops : List RelayOp) :
    bytesRead k h (op :: ops) s = bytesRead k h [op] s ++ bytesRead k h ops (relayStep op s).2 := by
  simp [bytesRead]

theorem asked_cons (ops : List RelayOp) :
    asked k h (op :: ops) = asked k h [op] + asked k h ops := by
  simp only [asked, ← List.sum_append, ← List.filterMap_append, List.singleton_append]

theorem copied_read {r : Reply UInt8} {buf : ℕ} (hr : reply k h s = some r) :
    copied k h (readOp k h buf) (relayStep (readOp k h buf) s).1 = r.chunk buf := by
  have hreads : reads k h (readOp k h buf) = some buf := by cases k <;> simp [reads, readOp]
  rw [read_out, hr]
  simp [copied, hreads, readOut]

/-- A call that keeps the answer reads on in it, by `asked` bytes at most. -/
theorem keeps_step {r : Reply UInt8} (hk : Keeps k h op s) (hr : reply k h s = some r) :
    reply k h (relayStep op s).2 = some (r.read (asked k h [op])) ∧
      copied k h op (relayStep op s).1 = r.chunk (asked k h [op]) := by
  have hnext := reply_step k h s op
  simp only [replyAfter, hk.1, hk.2.1, hk.2.2, Bool.false_eq_true, if_false, hr] at hnext
  cases hread : reads k h op with
  | none =>
    rw [hread] at hnext
    simp [hnext, asked, copied, hread]
  | some buf =>
    rw [hread] at hnext
    have hasked : asked k h [op] = buf := by simp [asked, hread]
    rw [hasked]
    refine ⟨hnext, ?_⟩
    rw [reads_eq_some hread, copied_read hr]

theorem got_run {body got : Bytes} {n : ℕ} {r : Reply UInt8} {ops : List RelayOp}
    (hk : Run.Along relayStep (Keeps k h) ops s) (hr : reply k h s = some r)
    (hgot : Reply.Got body n got r) :
    ∃ r', reply k h (Run.final relayStep ops s) = some r' ∧
      Reply.Got body (n + asked k h ops) (got ++ bytesRead k h ops s) r' := by
  induction ops generalizing s r n got with
  | nil => exact ⟨r, hr, by simpa [asked, bytesRead] using hgot⟩
  | cons op ops ih =>
    obtain ⟨hr', hcopied⟩ := keeps_step hk.1 hr
    have hbytes : bytesRead k h [op] s = r.chunk (asked k h [op]) := by
      simpa [bytesRead] using hcopied
    obtain ⟨r', hfinal, hgot'⟩ := ih hk.2 hr' (hgot.read (asked k h [op]))
    refine ⟨r', hfinal, ?_⟩
    rw [bytesRead_cons, asked_cons, hbytes, ← List.append_assoc, ← Nat.add_assoc]
    exact hgot'

def InRange (s : RelayState) : Prop := ∀ k h, ∀ r ∈ reply k h s, r.InRange

theorem inRange_step (op : RelayOp) (s : RelayState) (hs : InRange s) :
    InRange (relayStep op s).2 := by
  intro k h r hr
  rw [reply_step, replyAfter] at hr
  split at hr
  · cases hr
    exact Reply.inRange_pending
  · split at hr
    · cases hr
    · split at hr
      · cases hr
        exact Reply.inRange_answer _ _
      · obtain ⟨r, hr', rfl⟩ := Option.map_eq_some_iff.mp hr
        exact (hs k h r hr').read _
      · exact hs k h r hr

theorem inRange_run (ops : List RelayOp) : InRange (run ops) := by
  apply Run.invariant inRange_step ops
  intro k h r hr
  cases k <;> cases hr

theorem reply_respond {body : Bytes} {ok : Int32} (ha : accepts k h s op = some (ok, body)) :
    reply k h (relayStep op s).2 = some (answer (ok == 0) body) := by
  have hs : starts k h s op = false := by
    cases op <;> cases k <;> first | rfl | cases ha
  have hc : op ≠ closeOp k h := by
    intro heq
    subst heq
    cases k <;> cases ha
  simp [reply_step, replyAfter, hs, hc, ha]

/-- From an accepted successful answer on, until the handle is closed, answered again or
handed out again, its reads give the answer's body from the front and nothing else. The
length of a guest's buffer is a 32-bit one. -/
theorem chunked_reads (k : Kind) (h : Int32) (pre post : List RelayOp) (respond : RelayOp)
    (ok : Int32) (body : Bytes) (hans : accepts k h (run pre) respond = some (ok, body))
    (hok : ok ≠ 0)
    (hkeep : Run.Along relayStep (Keeps k h) post (relayStep respond (run pre)).2) :
    let s := (relayStep respond (run pre)).2
    bytesRead k h post s = body.take (min (asked k h post) body.length) ∧
      (∀ buf, 0 < buf → buf < 2 ^ 32 →
        (relayStep (readOp k h buf) (Run.final relayStep post s)).1.ret = 0 →
          bytesRead k h post s = body) ∧
      ∀ ops k h, ∀ r ∈ reply k h (run ops),
        r.pos ≤ r.body.length ∧ ∀ buf, r.pos + (r.chunk buf).length ≤ r.body.length := by
  intro s
  have hr : reply k h s = some (answer false body) := by
    have hfailed : (ok == 0) = false := by simpa using hok
    rw [reply_respond hans, hfailed]
  obtain ⟨r, hr', hgot⟩ := got_run hkeep hr (Reply.got_answer body)
  rw [Nat.zero_add, List.nil_append] at hgot
  refine ⟨?_, ?_, ?_⟩
  · rw [hgot.exact, List.take_eq_take_min]
  · intro buf hpos hlt hret
    rw [read_out, hr'] at hret
    exact hgot.whole hpos (chunk_eq_nil hlt hret)
  · intro ops k h r hr
    have hin := inRange_run ops k h r hr
    exact ⟨hin, hin.chunk⟩

theorem chunked_reads_two_chunks :
    bytesRead .http 1 [.httpBody 1 2, .persistPoll 2, .httpBody 1 2]
      (relayStep (.httpRespond 1 1 [] [10, 20, 30])
        (run [.httpRequest [7], .persistStart [0, 0, 0, 0, 0, 0, 0, 0]])).2 = [10, 20, 30] :=
  (chunked_reads .http 1 [.httpRequest [7], .persistStart [0, 0, 0, 0, 0, 0, 0, 0]]
    [.httpBody 1 2, .persistPoll 2, .httpBody 1 2] (.httpRespond 1 1 [] [10, 20, 30]) 1
    [10, 20, 30] (by decide) (by decide) (by decide)).1

end MachineNotebook.Host.RelayReads
