import MachineNotebook.Lib.Run

namespace MachineNotebook.Vt.Compress

open MachineNotebook.Lib

structure VtCompressScheduler where
  lastActivity : UInt64 := 0
  idle : Option ℕ := none
  closed : Bool := false

/-- A timer of the event loop that is armed, with the terminal that its callback captures. -/
structure IdleTimer (T : Type) where
  id : ℕ
  term : T

structure World (T : Type) where
  scheduler : VtCompressScheduler := {}
  timers : List (IdleTimer T) := []
  next : ℕ := 0

inductive CompressResult
  | failed
  | pending
  | complete
  | unsupported

/-- A call of the scheduler, with what the library answers, or a timer that runs out. -/
inductive Event (T : Type)
  | onWrite (term : T) (activity : Option UInt64)
  | fire (id : ℕ) (result : CompressResult)
  | dispose
  | reset

variable {T : Type}

namespace World

def cancelIdle (w : World T) : World T :=
  { w with timers := w.timers.filter fun t ↦ some t.id ≠ w.scheduler.idle }

def armIdle (term : T) (w : World T) : World T :=
  { scheduler := { w.scheduler with idle := some w.next }
    timers := w.timers ++ [⟨w.next, term⟩]
    next := w.next + 1 }

def restartIdle (term : T) (w : World T) : World T := w.cancelIdle.armIdle term

def onWrite (term : T) (activity : Option UInt64) (w : World T) : World T :=
  if w.scheduler.closed then w
  else
    match activity with
    | none => w
    | some activity =>
      if activity ≠ w.scheduler.lastActivity then
        restartIdle term { w with scheduler := { w.scheduler with lastActivity := activity } }
      else w

/-- One round of the loop, which no result lets go round twice; the terminal is the one that
`terminalCompress` is called on. -/
def runIdleSteps (result : CompressResult) (term : T) (w : World T) : Option T × World T :=
  if w.scheduler.closed then (none, w)
  else
    match result with
    | .pending => (some term, w.armIdle term)
    | _ => (some term, w)

/-- A timer runs out once. -/
def fire (id : ℕ) (result : CompressResult) (w : World T) : Option T × World T :=
  match w.timers.find? fun t ↦ t.id = id with
  | none => (none, w)
  | some t => runIdleSteps result t.term { w with timers := w.timers.filter fun t ↦ t.id ≠ id }

def dispose (w : World T) : World T :=
  let w := { w with scheduler := { w.scheduler with closed := true } }
  { w.cancelIdle with scheduler := { w.scheduler with idle := none } }

def reset (w : World T) : World T := { w.cancelIdle with scheduler := {} }

end World

def step : Event T → World T → Option T × World T
  | .onWrite term activity, w => (none, w.onWrite term activity)
  | .fire id result, w => w.fire id result
  | .dispose, w => (none, w.dispose)
  | .reset, w => (none, w.reset)

/-- No timer is armed, or the one that the open scheduler holds. -/
inductive Held (w : World T) : Prop
  | idle (htimers : w.timers = [])
  | armed (t : IdleTimer T) (htimers : w.timers = [t]) (hidle : w.scheduler.idle = some t.id)
      (hopen : w.scheduler.closed = false)

/-- What an event does: a terminal is compressed only by a timer that was armed for it, and a
timer is armed only for a terminal that had one or is written. -/
structure Does (w : World T) (e : Event T) (out : Option T × World T) : Prop where
  held : Held out.2
  called : ∀ term, out.1 = some term → ∃ t ∈ w.timers, t.term = term
  armed : ∀ t ∈ out.2.timers,
    (∃ t' ∈ w.timers, t'.term = t.term) ∨ ∃ activity, e = .onWrite t.term activity
  closed : e ≠ .reset → w.scheduler.closed → out.2.scheduler.closed

variable {w : World T} {e : Event T}

theorem Held.length_le (h : Held w) : w.timers.length ≤ 1 := by
  cases h with
  | idle htimers => simp [htimers]
  | armed t htimers => simp [htimers]

theorem Held.timers_of_closed (h : Held w) (hclosed : w.scheduler.closed) : w.timers = [] := by
  cases h with
  | idle htimers => exact htimers
  | armed t htimers hidle hopen => simp [hopen] at hclosed

theorem Held.cancelIdle_timers (h : Held w) : w.cancelIdle.timers = [] := by
  cases h with
  | idle htimers => simp [World.cancelIdle, htimers]
  | armed t htimers hidle => simp [World.cancelIdle, htimers, hidle]

theorem Held.fire_cases (h : Held w) (id : ℕ) (result : CompressResult) :
    w.fire id result = (none, w) ∨
      ∃ t, w.timers = [t] ∧ w.scheduler.closed = false ∧
        w.fire id result = World.runIdleSteps result t.term { w with timers := [] } := by
  cases h with
  | idle htimers =>
    left
    simp [World.fire, htimers]
  | armed t htimers hidle hopen =>
    by_cases hid : t.id = id
    · right
      exact ⟨t, htimers, hopen, by simp [World.fire, htimers, hid]⟩
    · left
      simp [World.fire, htimers, hid]

theorem does_nothing (h : Held w) : Does w e (none, w) where
  held := h
  called _ heq := by cases heq
  armed t ht := Or.inl ⟨t, ht, rfl⟩
  closed _ hclosed := hclosed

section Timers

variable {out : Option T} {v : World T} {term : T}

theorem does_disarm (hcalled : ∀ term, out = some term → ∃ t ∈ w.timers, t.term = term)
    (htimers : v.timers = []) (hclosed : e ≠ .reset → w.scheduler.closed → v.scheduler.closed) :
    Does w e (out, v) where
  held := .idle htimers
  called := hcalled
  armed t ht := by simp [htimers] at ht
  closed := hclosed

theorem does_arm (hcalled : ∀ term, out = some term → ∃ t ∈ w.timers, t.term = term)
    (htimers : v.timers = []) (hopen : v.scheduler.closed = w.scheduler.closed)
    (hwopen : w.scheduler.closed = false)
    (hterm : (∃ t ∈ w.timers, t.term = term) ∨ ∃ activity, e = .onWrite term activity) :
    Does w e (out, v.armIdle term) where
  held := .armed ⟨v.next, term⟩ (by simp [World.armIdle, htimers]) rfl (hopen.trans hwopen)
  called := hcalled
  armed t ht := by
    have heq : t.term = term := by
      rw [World.armIdle, htimers] at ht
      rw [List.mem_singleton.mp ht]
    rwa [heq]
  closed _ hclosed := hopen.trans hclosed

end Timers

theorem does_onWrite (h : Held w) (term : T) (activity : Option UInt64) :
    Does w (.onWrite term activity) (none, w.onWrite term activity) := by
  cases hopen : w.scheduler.closed with
  | true => simpa [World.onWrite, hopen] using does_nothing h
  | false =>
    cases activity with
    | none => simpa [World.onWrite, hopen] using does_nothing h
    | some activity =>
      by_cases hsame : activity = w.scheduler.lastActivity
      · simpa [World.onWrite, hopen, hsame] using does_nothing h
      · have hwrite : w.onWrite term (some activity) = World.restartIdle term
            { w with scheduler := { w.scheduler with lastActivity := activity } } := by
          simp [World.onWrite, hopen, hsame]
        have hcancel := h.cancelIdle_timers
        rw [hwrite, World.restartIdle]
        exact does_arm (fun _ heq ↦ by cases heq) hcancel rfl hopen (Or.inr ⟨some activity, rfl⟩)

theorem does_fire (h : Held w) (id : ℕ) (result : CompressResult) :
    Does w (.fire id result) (w.fire id result) := by
  rcases h.fire_cases id result with hnone | ⟨t, htimers, hopen, hfire⟩
  · rw [hnone]
    exact does_nothing h
  · have ht : t ∈ w.timers := by simp [htimers]
    have hcalled : ∀ term, some t.term = some term → ∃ t ∈ w.timers, t.term = term :=
      fun term heq ↦ ⟨t, ht, Option.some.inj heq⟩
    rw [hfire]
    cases result with
    | pending =>
      simp only [World.runIdleSteps, hopen]
      exact does_arm hcalled rfl rfl hopen (Or.inl ⟨t, ht, rfl⟩)
    | _ =>
      simp only [World.runIdleSteps, hopen]
      exact does_disarm hcalled rfl fun _ hclosed ↦ hclosed

theorem does_step (h : Held w) (e : Event T) : Does w e (step e w) := by
  cases e with
  | onWrite term activity => exact does_onWrite h term activity
  | fire id result => exact does_fire h id result
  | dispose => exact does_disarm (fun _ heq ↦ by cases heq) h.cancelIdle_timers fun _ _ ↦ rfl
  | reset =>
    exact does_disarm (fun _ heq ↦ by cases heq) h.cancelIdle_timers fun hne ↦ absurd rfl hne

theorem held_final (events : List (Event T)) (h : Held w) : Held (Run.final step events w) :=
  Run.invariant (I := Held) (fun e _ h ↦ (does_step h e).held) events h

theorem closed_final {events : List (Event T)} (h : Held w) (hclosed : w.scheduler.closed)
    (hreset : .reset ∉ events) : (Run.final step events w).scheduler.closed := by
  induction events generalizing w with
  | nil => exact hclosed
  | cons e events ih =>
    rw [List.mem_cons, not_or] at hreset
    have hdoes := does_step h e
    exact ih hdoes.held (hdoes.closed (fun he ↦ hreset.1 he.symm) hclosed) hreset.2

theorem written_final {events : List (Event T)} (h : Held w) {t : IdleTimer T}
    (ht : t ∈ (Run.final step events w).timers) :
    (∃ t' ∈ w.timers, t'.term = t.term) ∨ ∃ activity, .onWrite t.term activity ∈ events := by
  induction events generalizing w with
  | nil => exact Or.inl ⟨t, ht, rfl⟩
  | cons e events ih =>
    have hdoes := does_step h e
    rcases ih hdoes.held ht with ⟨t', ht', hterm⟩ | ⟨activity, hmem⟩
    · rw [← hterm]
      rcases hdoes.armed t' ht' with hbefore | ⟨activity, rfl⟩
      · exact Or.inl hbefore
      · exact Or.inr ⟨activity, List.mem_cons_self⟩
    · exact Or.inr ⟨activity, List.mem_cons_of_mem e hmem⟩

theorem held_dispose (events : List (Event T)) :
    Held (Run.final step (events ++ [.dispose]) {}) ∧
      (Run.final step (events ++ [.dispose]) {}).timers = [] ∧
      (Run.final step (events ++ [.dispose]) {}).scheduler.closed := by
  have h : Held (Run.final step events ({} : World T)) := held_final events (.idle rfl)
  rw [Run.final_append]
  exact ⟨(does_step h .dispose).held, h.cancelIdle_timers, rfl⟩

/-- At most one timer is armed, a disposed scheduler compresses nothing, and afterwards only
terminals that have been written since are compressed. -/
theorem never_outlives (T : Type) :
    (∀ events, (Run.final step events ({} : World T)).timers.length ≤ 1) ∧
    (∀ before after e, .reset ∉ after →
      (step e (Run.final step (before ++ [.dispose] ++ after) ({} : World T))).1 = none) ∧
    ∀ before after e term,
      (step e (Run.final step (before ++ [.dispose] ++ after) ({} : World T))).1 = some term →
      ∃ activity, .onWrite term activity ∈ after := by
  refine ⟨fun events ↦ (held_final events (.idle rfl)).length_le, ?_, ?_⟩
  · intro before after e hreset
    obtain ⟨hheld, -, hclosed⟩ := held_dispose before
    rw [Run.final_append]
    have hafter := held_final after hheld
    have htimers := hafter.timers_of_closed (closed_final hheld hclosed hreset)
    rw [Option.eq_none_iff_forall_ne_some]
    intro term hterm
    obtain ⟨t, ht, -⟩ := (does_step hafter e).called term hterm
    simp [htimers] at ht
  · intro before after e term hterm
    obtain ⟨hheld, htimers, -⟩ := held_dispose before
    rw [Run.final_append] at hterm
    obtain ⟨t, ht, rfl⟩ := (does_step (held_final after hheld) e).called term hterm
    rcases written_final hheld ht with ⟨t', ht', -⟩ | hwritten
    · simp [htimers] at ht'
    · exact hwritten

end MachineNotebook.Vt.Compress
