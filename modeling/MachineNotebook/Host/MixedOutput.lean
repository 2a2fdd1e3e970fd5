import MachineNotebook.Host.Output
import MachineNotebook.Lib.Run
import Mathlib.Data.List.Nodup

namespace MachineNotebook.Host.MixedOutput

open MachineNotebook.Lib Output

/-- A whole call: `aos_vm_take_output` with room for `cap` bytes, or
`aos_vm_take_output_ex` with room for all it drains. -/
inductive Call
  | take (cap : ℕ+)
  | ex (mask : Int32)
  deriving DecidableEq

inductive Event (α : Type*)
  | write (stream : Stream) (bytes : List α)
  | call (c : Call)
  deriving DecidableEq

section Steps

variable {α : Type*}

def callStep (c : Call) (b : Sinks α) : List α × Sinks α :=
  match c with
  | .take cap =>
    let (data, b) := b.takeDrain
    (data.take cap, if data.length > cap then b.putBack (data.drop cap) else b)
  | .ex mask => b.takeEx mask

def eventStep (e : Event α) (b : Sinks α) : List α × Sinks α :=
  match e with
  | .write stream bytes => ([], b.write stream bytes)
  | .call c => callStep c b

def delivered (events : List (Event α)) (b : Sinks α) : List α :=
  (Run.trace eventStep events b).flatMap Prod.snd

def Event.bytes : Event α → List α
  | write _ bytes => bytes
  | call _ => []

def Event.call? : Event α → Option Call
  | write _ _ => none
  | call c => some c

def written (events : List (Event α)) : List α := events.flatMap Event.bytes

def callsOf (events : List (Event α)) : List Call := events.filterMap Event.call?

end Steps

def Emptied (c : Call) {α : Type*} (b : Sinks α) : Prop :=
  match c with
  | .take cap => b.takeDrain.1.length ≤ cap
  | .ex mask => mask = 7

/-- However the guest writes between these calls, no byte is returned twice, and after a
call that has returned everything the next ones return nothing until the guest writes.
The bytes are numbered, so that each is told from all others. -/
def DeliversOnce (calls : List Call) : Prop :=
  ∀ events : List (Event ℕ), callsOf events = calls → (written events).Nodup →
    (delivered events .empty).Nodup ∧
      ∀ pre c mid c' post,
        events = pre ++ .call c :: (List.map Event.call mid ++ .call c' :: post) →
        Emptied c (Run.final eventStep pre Sinks.empty) →
        (callStep c' (Run.final eventStep (pre ++ .call c :: List.map Event.call mid)
          Sinks.empty)).1 = []

def Call.drainsStreams : Call → Bool
  | take _ => false
  | ex mask => mask &&& 1 != 0 || mask &&& 2 != 0 || mask &&& 4 != 0

def Call.drainsCombined : Call → Bool
  | take _ => false
  | ex mask => mask == 0

def Call.isTake : Call → Bool
  | take _ => true
  | ex _ => false

/-- Once bytes were taken from one side of the tee, neither the other side nor both are
taken from. -/
def Compatible (c c' : Call) : Prop :=
  (c.drainsStreams → ¬c'.isTake ∧ ¬c'.drainsCombined) ∧
    (c.drainsCombined → ¬c'.isTake ∧ ¬c'.drainsStreams)

instance : DecidableRel Compatible := fun _ _ ↦ inferInstanceAs (Decidable (_ ∧ _))

section TakeEx

variable {mask : Int32} {α : Type*}

theorem ne_zero_of_streams (h : (Call.ex mask).drainsStreams = true) : mask ≠ 0 := by
  intro heq
  subst heq
  exact absurd h (by decide)

theorem takeEx_combined (b : Sinks α) : b.takeEx 0 = (b.out, { b with out := [] }) := rfl

theorem takeEx_neutral (hs : ¬(Call.ex mask).drainsStreams = true)
    (hc : ¬(Call.ex mask).drainsCombined = true) (b : Sinks α) : b.takeEx mask = ([], b) := by
  have hmask : mask ≠ 0 := by simpa [Call.drainsCombined] using hc
  simp only [Call.drainsStreams, Bool.or_eq_true, not_or, Bool.not_eq_true] at hs
  simp [Sinks.takeEx, hmask, hs, Sinks.drainIf]

theorem takeEx_streams (hmask : mask ≠ 0) (b : Sinks α) :
    (b.takeEx mask).2.out = b.out ∧
      ((b.takeEx mask).1 ++ (b.takeEx mask).2.streams).Perm b.streams := by
  classical
  simp only [Sinks.takeEx, if_neg hmask, Sinks.streams, true_and]
  refine List.perm_iff_count.mpr (fun a ↦ ?_)
  cases mask &&& 1 != 0 <;> cases mask &&& 2 != 0 <;> cases mask &&& 4 != 0 <;>
    simp only [Sinks.drainIf, Bool.false_eq_true, if_false, if_true, List.count_append,
      List.count_nil] <;> omega

end TakeEx

/-- Which side of the tee was taken from so far. -/
inductive Phase
  | both
  | streams
  | combined

def Phase.allows (p : Phase) (c : Call) : Prop :=
  match p with
  | both => True
  | streams => ¬c.isTake ∧ ¬c.drainsCombined
  | combined => ¬c.isTake ∧ ¬c.drainsStreams

def Phase.next (p : Phase) (c : Call) : Phase :=
  if c.drainsStreams then streams else if c.drainsCombined then combined else p

theorem allows_next {p : Phase} {c c' : Call} (h : p.allows c') (hc : Compatible c c') :
    (p.next c).allows c' := by
  simp only [Phase.next]
  split
  · exact hc.1 ‹_›
  · split
    · exact hc.2 ‹_›
    · exact h

/-- The numbers written so far, those delivered so far, and the buffers: what is in the
buffers that will still be taken from was not delivered. -/
structure Once (p : Phase) (written delivered : List ℕ) (b : Sinks ℕ) : Prop where
  below : ∀ x ∈ delivered ++ b.out ++ b.streams, x ∈ written
  combined : p ≠ .streams → (delivered ++ b.out).Nodup
  streams : p ≠ .combined → (delivered ++ b.streams).Nodup
  both : p = .both → b.out = [] → b = .empty

section Once

variable {p : Phase} {w d : List ℕ} {b : Sinks ℕ}

theorem Once.nodup (h : Once p w d b) : d.Nodup := by
  by_cases hp : p = .streams
  · exact (h.streams (by simp [hp])).of_append_left
  · exact (h.combined hp).of_append_left

theorem nodup_append_new {xs bytes : List ℕ} (hx : xs.Nodup) (hsub : ∀ x ∈ xs, x ∈ w)
    (hw : (w ++ bytes).Nodup) : (xs ++ bytes).Nodup := by
  obtain ⟨-, hbytes, hdisj⟩ := List.nodup_append.mp hw
  exact List.nodup_append.mpr ⟨hx, hbytes, fun x hx y hy ↦ hdisj x (hsub x hx) y hy⟩

theorem Once.write (h : Once p w d b) {bytes : List ℕ} (hw : (w ++ bytes).Nodup)
    (stream : Stream) : Once p (w ++ bytes) d (b.write stream bytes) := by
  have hout : (b.write stream bytes).out = b.out ++ bytes := Sinks.writeStream_out ..
  have hstreams : (b.write stream bytes).streams.Perm (b.streams ++ bytes) :=
    Sinks.streams_writeStream stream bytes (b.writeCombined bytes)
  have hbelow : ∀ x, x ∈ d ∨ x ∈ b.out ∨ x ∈ b.streams → x ∈ w := by
    intro x hx
    exact h.below x (by simpa [or_assoc] using hx)
  refine ⟨?_, ?_, ?_, ?_⟩
  · intro x hx
    rw [hout] at hx
    simp only [List.mem_append, hstreams.mem_iff] at hx ⊢
    have hx' := hbelow x
    tauto
  · intro hp
    rw [hout, ← List.append_assoc]
    refine nodup_append_new (h.combined hp) (fun x hx ↦ hbelow x ?_) hw
    rcases List.mem_append.mp hx with hx | hx
    · exact Or.inl hx
    · exact Or.inr (Or.inl hx)
  · intro hp
    apply ((hstreams.append_left d).nodup_iff).mpr
    rw [← List.append_assoc]
    refine nodup_append_new (h.streams hp) (fun x hx ↦ hbelow x ?_) hw
    rcases List.mem_append.mp hx with hx | hx
    · exact Or.inl hx
    · exact Or.inr (Or.inr hx)
  · intro hp hnil
    rw [hout] at hnil
    obtain ⟨hb, rfl⟩ := List.append_eq_nil_iff.mp hnil
    rw [h.both hp hb]
    cases stream <;> rfl

theorem callStep_take (cap : ℕ+) (h : b.out = [] → b = .empty) :
    callStep (.take cap) b = (b.out.take cap, ⟨b.out.drop cap, [], [], []⟩) := by
  simp only [callStep, Sinks.takeDrain_eq h]
  split
  · simp [Sinks.putBack, Sinks.empty]
  · rename_i hle
    simp [Sinks.empty, List.drop_eq_nil_of_le (Nat.le_of_not_lt hle)]

theorem Once.take (h : Once .both w d b) (cap : ℕ+) :
    Once .both w (d ++ (callStep (.take cap) b).1) (callStep (.take cap) b).2 := by
  rw [callStep_take cap (h.both rfl)]
  have hnodup := h.combined (by simp)
  refine ⟨?_, ?_, ?_, ?_⟩
  · intro x hx
    apply h.below x
    simp only [Sinks.streams, List.append_nil, List.append_assoc, List.take_append_drop] at hx
    simp only [List.mem_append] at hx ⊢
    exact Or.inl hx
  · intro hp
    simpa [List.append_assoc] using hnodup
  · intro hp
    simp only [Sinks.streams, List.append_nil]
    exact hnodup.sublist ((List.take_sublist _ _).append_left d)
  · intro _ hnil
    simp only at hnil
    rw [hnil]
    rfl

theorem Once.exStreams {mask : Int32} (h : Once p w d b) (hp : p ≠ .combined)
    (hs : (Call.ex mask).drainsStreams = true) :
    Once .streams w (d ++ (b.takeEx mask).1) (b.takeEx mask).2 := by
  obtain ⟨hout, hperm⟩ := takeEx_streams (ne_zero_of_streams hs) b
  refine ⟨?_, fun hne ↦ absurd rfl hne, fun _ ↦ ?_, fun he ↦ nomatch he⟩
  · intro x hx
    apply h.below x
    have hmem := hperm.mem_iff (a := x)
    rw [hout] at hx
    simp only [List.mem_append] at hx hmem ⊢
    tauto
  · rw [List.append_assoc]
    exact ((hperm.append_left d).nodup_iff).mpr (h.streams hp)

theorem Once.exCombined (h : Once p w d b) (hp : p ≠ .streams) :
    Once .combined w (d ++ (b.takeEx 0).1) (b.takeEx 0).2 := by
  rw [takeEx_combined]
  refine ⟨?_, fun _ ↦ ?_, fun hne ↦ absurd rfl hne, fun he ↦ nomatch he⟩
  · intro x hx
    apply h.below x
    simpa [Sinks.streams] using hx
  · simpa using h.combined hp

theorem Once.call {c : Call} (h : Once p w d b) (hc : p.allows c) :
    Once (p.next c) w (d ++ (callStep c b).1) (callStep c b).2 := by
  cases c with
  | take cap =>
    cases p with
    | both => exact h.take cap
    | streams => exact absurd rfl hc.1
    | combined => exact absurd rfl hc.1
  | ex mask =>
    by_cases hs : (Call.ex mask).drainsStreams = true
    · have hp : p ≠ .combined := by
        intro heq
        subst heq
        exact hc.2 hs
      rw [Phase.next, if_pos hs]
      exact h.exStreams hp hs
    · by_cases hcomb : (Call.ex mask).drainsCombined = true
      · have hp : p ≠ .streams := by
          intro heq
          subst heq
          exact hc.2 hcomb
        obtain rfl : mask = 0 := by simpa [Call.drainsCombined] using hcomb
        rw [Phase.next, if_neg hs, if_pos hcomb]
        exact h.exCombined hp
      · rw [Phase.next, if_neg hs, if_neg hcomb, callStep, takeEx_neutral hs hcomb,
          List.append_nil]
        exact h

theorem Once.run {events : List (Event ℕ)} (h : Once p w d b)
    (hallow : ∀ c ∈ callsOf events, p.allows c) (hpair : (callsOf events).Pairwise Compatible)
    (hw : (w ++ written events).Nodup) : (d ++ delivered events b).Nodup := by
  induction events generalizing p w d b with
  | nil => simpa [delivered] using h.nodup
  | cons e events ih =>
    cases e with
    | write stream bytes =>
      have hw' : (w ++ bytes ++ written events).Nodup := by
        simpa [written, Event.bytes] using hw
      exact ih (h.write hw'.of_append_left stream) hallow hpair hw'
    | call c =>
      obtain ⟨hc, hrest⟩ := List.forall_mem_cons.mp hallow
      obtain ⟨hhead, htail⟩ := List.pairwise_cons.mp hpair
      have hnext := ih (h.call hc) (fun c' hc' ↦ allows_next (hrest c' hc') (hhead c' hc')) htail hw
      simpa [delivered, eventStep] using hnext

end Once

/-- No call that is still allowed finds anything. -/
def Silent (p : Phase) (b : Sinks ℕ) : Prop := b = .empty ∨ p = .streams ∧ b.streams = []

section Silent

variable {p : Phase} {b : Sinks ℕ}

theorem callStep_empty {α : Type*} (c : Call) : callStep c (.empty : Sinks α) = ([], .empty) := by
  cases c with
  | take cap => simp [callStep, Sinks.takeDrain, Sinks.empty]
  | ex mask =>
    cases h1 : mask &&& 1 != 0 <;> cases h2 : mask &&& 2 != 0 <;> cases h4 : mask &&& 4 != 0 <;>
      simp [callStep, Sinks.takeEx, Sinks.drainIf, Sinks.empty]

theorem Silent.call {c : Call} (h : Silent p b) (hc : p.allows c) :
    (callStep c b).1 = [] ∧ Silent (p.next c) (callStep c b).2 := by
  rcases h with rfl | ⟨rfl, hnil⟩
  · rw [callStep_empty]
    exact ⟨rfl, Or.inl rfl⟩
  · cases c with
    | take cap => exact absurd rfl hc.1
    | ex mask =>
      have hmask : mask ≠ 0 := by simpa [Call.drainsCombined] using hc.2
      have hnext : Phase.streams.next (.ex mask) = .streams := by
        simp [Phase.next, hc.2]
      have hperm := (takeEx_streams hmask b).2
      rw [hnil] at hperm
      obtain ⟨hdrained, hrest⟩ := List.append_eq_nil_iff.mp hperm.eq_nil
      exact ⟨hdrained, Or.inr ⟨hnext, hrest⟩⟩

theorem takeDrain_snd {α : Type*} (b : Sinks α) : b.takeDrain.2 = .empty := by
  cases hout : b.out <;> simp [Sinks.takeDrain, hout]

theorem silent_of_emptied {c : Call} (h : Emptied c b) : Silent (p.next c) (callStep c b).2 := by
  cases c with
  | take cap =>
    have hle : ¬b.takeDrain.1.length > cap := Nat.not_lt.mpr h
    left
    simp only [callStep, if_neg hle, takeDrain_snd]
  | ex mask =>
    obtain rfl : mask = 7 := h
    exact Or.inr ⟨rfl, rfl⟩

theorem Silent.run {mid : List Call} {c' : Call} (h : Silent p b)
    (hallow : ∀ c ∈ mid ++ [c'], p.allows c) (hpair : (mid ++ [c']).Pairwise Compatible) :
    (callStep c' (Run.final eventStep (mid.map .call) b)).1 = [] := by
  induction mid generalizing p b with
  | nil => exact (h.call (hallow c' (by simp))).1
  | cons c mid ih =>
    rw [List.cons_append] at hallow hpair
    obtain ⟨hc, hrest⟩ := List.forall_mem_cons.mp hallow
    obtain ⟨hhead, htail⟩ := List.pairwise_cons.mp hpair
    exact ih (h.call hc).2 (fun c hc ↦ allows_next (hrest c hc) (hhead c hc)) htail

end Silent

theorem callsOf_calls (cs : List Call) : callsOf (cs.map Event.call : List (Event ℕ)) = cs := by
  simp [callsOf, List.filterMap_map, Function.comp_def, Event.call?]

theorem written_calls (cs : List Call) : written (cs.map Event.call : List (Event ℕ)) = [] := by
  simp [written, Event.bytes]

theorem deliversOnce_of_compatible {calls : List Call} (h : calls.Pairwise Compatible) :
    DeliversOnce calls := by
  intro events hevents hw
  subst hevents
  constructor
  · have honce : Once .both [] [] (.empty : Sinks ℕ) :=
      ⟨by simp [Sinks.empty, Sinks.streams], by simp [Sinks.empty],
        by simp [Sinks.empty, Sinks.streams], fun _ _ ↦ rfl⟩
    simpa using honce.run (fun _ _ ↦ trivial) h (by simpa using hw)
  · intro pre c mid c' post hsplit hemptied
    subst hsplit
    have hcalls : (callsOf pre ++ c :: (mid ++ [c']) ++ callsOf post).Pairwise Compatible := by
      have hmid := callsOf_calls mid
      simp only [callsOf] at h hmid ⊢
      simpa [Event.call?, hmid] using h
    have hrest := (List.pairwise_append.mp (List.pairwise_append.mp hcalls).1).2.1
    obtain ⟨hhead, htail⟩ := List.pairwise_cons.mp hrest
    rw [Run.final_append]
    exact (silent_of_emptied (p := .both) hemptied).run
      (fun x hx ↦ allows_next trivial (hhead x hx)) htail

/-! A byte written right before the first of two incompatible calls comes out of both. -/

theorem exists_first {α : Type*} {R : α → α → Prop} [DecidableRel R] {l : List α}
    (h : ¬l.Pairwise R) :
    ∃ pre a mid b post, l = pre ++ a :: (mid ++ b :: post) ∧ ¬R a b ∧ ∀ m ∈ mid, R a m := by
  induction l with
  | nil => exact absurd .nil h
  | cons a l ih =>
    by_cases ha : ∀ b ∈ l, R a b
    · obtain ⟨pre, a', mid, b, post, rfl, hab, hmid⟩ :=
        ih (fun hl ↦ h (List.pairwise_cons.mpr ⟨ha, hl⟩))
      exact ⟨a :: pre, a', mid, b, post, rfl, hab, hmid⟩
    · have hfound : (l.find? fun b ↦ !decide (R a b)) ≠ none := by
        simpa [List.find?_eq_none] using ha
      obtain ⟨b, hb⟩ := Option.ne_none_iff_exists'.mp hfound
      obtain ⟨hab, mid, post, rfl, hmid⟩ := List.find?_eq_some_iff_append.mp hb
      exact ⟨[], a, mid, b, post, rfl, by simpa using hab, fun m hm ↦ by simpa using hmid m hm⟩

section Twice

variable {c c' : Call} {stream : Stream} {b : Sinks ℕ}

def Stream.bit : Stream → Int32
  | .stdout => 1
  | .stderr => 2
  | .log => 4

def oneByte (stream : Stream) : Sinks ℕ := Sinks.empty.write stream [0]

def combinedByte : Sinks ℕ := ⟨[0], [], [], []⟩

def streamByte (stream : Stream) : Sinks ℕ := Sinks.empty.writeStream stream [0]

theorem exists_bit {mask : Int32} (h : (Call.ex mask).drainsStreams = true) :
    ∃ stream, (mask &&& Stream.bit stream != 0) = true := by
  simp only [Call.drainsStreams, Bool.or_eq_true] at h
  rcases h with (h | h) | h
  · exact ⟨.stdout, h⟩
  · exact ⟨.stderr, h⟩
  · exact ⟨.log, h⟩

theorem takeEx_bit {mask : Int32} (h : (mask &&& Stream.bit stream != 0) = true)
    (out : List ℕ) :
    ({ streamByte stream with out } : Sinks ℕ).takeEx mask = ([0], ⟨out, [], [], []⟩) := by
  have hmask : mask ≠ 0 := by
    intro heq
    subst heq
    cases stream <;> exact absurd h (by decide)
  cases stream <;> simp only [Stream.bit] at h <;>
    simp [Sinks.takeEx, hmask, h, streamByte, Sinks.writeStream, Sinks.empty, Sinks.drainIf]

theorem combinedByte_stays (ht : ¬c.isTake = true) (hc : ¬c.drainsCombined = true) :
    callStep c combinedByte = ([], combinedByte) := by
  cases c with
  | take cap => exact absurd rfl ht
  | ex mask =>
    have hmask : mask ≠ 0 := by simpa [Call.drainsCombined] using hc
    simp [callStep, Sinks.takeEx, hmask, combinedByte, Sinks.drainIf]

theorem combinedByte_taken (h : ¬(¬c.isTake = true ∧ ¬c.drainsCombined = true)) :
    (callStep c combinedByte).1 = [0] := by
  cases c with
  | take cap => exact List.take_of_length_le cap.pos
  | ex mask =>
    have hmask : mask = 0 := by simpa [Call.isTake, Call.drainsCombined] using h
    rw [hmask]
    rfl

theorem streamByte_stays (ht : ¬c.isTake = true) (hs : ¬c.drainsStreams = true) :
    callStep c (streamByte stream) = ([], streamByte stream) := by
  cases c with
  | take cap => exact absurd rfl ht
  | ex mask =>
    by_cases hc : (Call.ex mask).drainsCombined = true
    · obtain rfl : mask = 0 := by simpa [Call.drainsCombined] using hc
      cases stream <;> rfl
    · exact takeEx_neutral hs hc _

theorem streamByte_taken (h : ¬(¬c.isTake = true ∧ ¬c.drainsStreams = true)) :
    ∃ stream, (callStep c (streamByte stream)).1 = [0] := by
  cases c with
  | take cap =>
    exact ⟨.stdout, List.take_of_length_le cap.pos⟩
  | ex mask =>
    have hs : (Call.ex mask).drainsStreams = true := by simpa [Call.isTake] using h
    obtain ⟨stream, hbit⟩ := exists_bit hs
    refine ⟨stream, ?_⟩
    cases stream <;> exact congrArg Prod.fst (takeEx_bit hbit [])

theorem delivered_append (es es' : List (Event ℕ)) :
    delivered (es ++ es') b = delivered es b ++ delivered es' (Run.final eventStep es b) := by
  simp [delivered, Run.trace_append]

theorem delivered_write (bytes : List ℕ) (es : List (Event ℕ)) :
    delivered (.write stream bytes :: es) b = delivered es (b.write stream bytes) := rfl

theorem delivered_call (es : List (Event ℕ)) :
    delivered (.call c :: es) b = (callStep c b).1 ++ delivered es (callStep c b).2 := rfl

theorem idle_calls (cs : List Call) (h : ∀ c ∈ cs, callStep c b = ([], b)) :
    delivered (cs.map .call) b = [] ∧ Run.final eventStep (cs.map .call) b = b := by
  induction cs with
  | nil => exact ⟨rfl, rfl⟩
  | cons c cs ih =>
    obtain ⟨hc, hcs⟩ := List.forall_mem_cons.mp h
    have hrest := ih hcs
    simpa [delivered, eventStep, hc] using hrest

theorem not_deliversOnce (stream : Stream) {pre mid post : List Call} (hc : callStep c (oneByte stream) = ([0], b))
    (hmid : ∀ m ∈ mid, callStep m b = ([], b)) (hc' : (callStep c' b).1 = [0]) :
    ¬DeliversOnce (pre ++ c :: (mid ++ c' :: post)) := by
  intro h
  let events : List (Event ℕ) := pre.map .call ++ .write stream [0] :: .call c ::
    (mid.map .call ++ .call c' :: post.map .call)
  have hcalls : callsOf events = pre ++ c :: (mid ++ c' :: post) := by
    have hall := fun cs ↦ callsOf_calls cs
    simp only [callsOf] at hall
    simp [events, callsOf, List.filterMap_cons, Event.call?, hall]
  have hwritten : written events = [0] := by
    have hall := fun cs ↦ written_calls cs
    simp only [written] at hall
    simp [events, written, Event.bytes, hall]
  have hpre := idle_calls (b := .empty) pre fun c _ ↦ callStep_empty c
  have hmid' := idle_calls mid hmid
  have hdelivered : delivered events .empty =
      [0] ++ ([0] ++ delivered (post.map .call) (callStep c' b).2) := by
    rw [delivered_append, hpre.1, hpre.2, List.nil_append, delivered_write, delivered_call, ← oneByte,
      hc, delivered_append, hmid'.1, hmid'.2, List.nil_append, delivered_call, hc']
  have hnodup := (h events hcalls (by simp [hwritten])).1
  rw [hdelivered] at hnodup
  simp at hnodup

theorem compatible_of_deliversOnce {calls : List Call} (h : DeliversOnce calls) :
    calls.Pairwise Compatible := by
  by_contra hpair
  obtain ⟨pre, c, mid, c', post, rfl, hcc', hmid⟩ := exists_first hpair
  refine absurd h ?_
  by_cases hs : c.drainsStreams = true
  · cases c with
    | take cap => cases hs
    | ex mask =>
      have hcomb : ¬(Call.ex mask).drainsCombined = true := by
        simpa [Call.drainsCombined] using ne_zero_of_streams hs
      obtain ⟨stream, hbit⟩ := exists_bit hs
      refine not_deliversOnce stream (b := combinedByte) ?_ ?_ ?_
      · cases stream <;> exact takeEx_bit hbit [0]
      · exact fun m hm ↦ combinedByte_stays ((hmid m hm).1 hs).1 ((hmid m hm).1 hs).2
      · exact combinedByte_taken fun hn ↦ hcc' ⟨fun _ ↦ hn, fun hc ↦ absurd hc hcomb⟩
  · have hcomb : c.drainsCombined = true := by
      by_contra hcomb
      exact hcc' ⟨fun h ↦ absurd h hs, fun h ↦ absurd h hcomb⟩
    obtain ⟨stream, htaken⟩ := streamByte_taken (c := c')
      fun hn ↦ hcc' ⟨fun h ↦ absurd h hs, fun _ ↦ hn⟩
    refine not_deliversOnce stream (b := streamByte stream) ?_ ?_ htaken
    · cases c with
      | take cap => cases hcomb
      | ex mask =>
        obtain rfl : mask = 0 := by simpa [Call.drainsCombined] using hcomb
        cases stream <;> rfl
    · exact fun m hm ↦ streamByte_stays ((hmid m hm).2 hcomb).1 ((hmid m hm).2 hcomb).2

end Twice

/-- The calls deliver every byte at most once, however the guest writes, exactly when no
side of the tee is taken from after the other. -/
theorem deliversOnce_iff (calls : List Call) :
    DeliversOnce calls ↔ calls.Pairwise Compatible :=
  ⟨compatible_of_deliversOnce, deliversOnce_of_compatible⟩

/-- The byte "x" comes out of the stream first and then out of the combined buffer. -/
theorem ex_then_take_delivers_twice :
    delivered [.write .stdout [120], .call (.ex 1), .call (.take 64)] (.empty : Sinks UInt8) =
        [120, 120] ∧
      ¬DeliversOnce [.ex 1, .take 64] :=
  ⟨by decide, fun h ↦ absurd (compatible_of_deliversOnce h) (by decide)⟩

end MachineNotebook.Host.MixedOutput
