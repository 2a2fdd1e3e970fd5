import MachineNotebook.Lib.Run
import Mathlib.Data.List.Induction
import Mathlib.Logic.Function.Basic

namespace MachineNotebook.Lib.Guards

open MachineNotebook.Lib

variable {L A C T D : Type*}

/-- A thread takes locks, gives them back, and does things while it has some. -/
inductive Instr (L A : Type*)
  | acquire (l : L)
  | release (l : L)
  | act (a : A)

/-- What an action does: it waits, goes on, or leaves, which drops all guards. -/
inductive Effect (D : Type*)
  | wait
  | go (d : D)
  | leave (d : D)

/-- A program that starts with `held` locked, the last taken first: its guards are nested,
and none is taken before the outer one. -/
def Scoped (outer : L) : List L → List (Instr L A) → Prop
  | held, [] => held = []
  | held, .acquire l :: p => l ∉ held ∧ (held = [] → l = outer) ∧ Scoped outer (l :: held) p
  | held, .release l :: p => held.head? = some l ∧ Scoped outer held.tail p
  | held, .act _ :: p => held ≠ [] ∧ Scoped outer held p

def Nested (outer : L) : List L → Prop
  | [] => True
  | l :: held => l ∉ held ∧ (held = [] → l = outer) ∧ Nested outer held

structure System (L A C D : Type*) where
  outer : L
  program : C → List (Instr L A)
  exec : A → D → Effect D
  wellScoped : ∀ c, Scoped outer [] (program c)

structure Thread (L A C : Type*) where
  call : Option C
  held : List L
  rest : List (Instr L A)

structure State (L A C T D : Type*) where
  threads : T → Thread L A C
  owner : L → Option T
  data : D

def State.start (d : D) : State L A C T D := ⟨fun _ ↦ ⟨none, [], []⟩, fun _ ↦ none, d⟩

inductive Event (T C : Type*)
  | issue (t : T) (c : C)
  | advance (t : T)

section Step

variable [DecidableEq L] [DecidableEq T] (sys : System L A C D)

def State.put (s : State L A C T D) (t : T) (th : Thread L A C) (owner : L → Option T) (d : D) :
    State L A C T D :=
  ⟨Function.update s.threads t th, owner, d⟩

def issue (t : T) (c : C) (s : State L A C T D) : State L A C T D :=
  match (s.threads t).rest with
  | [] => s.put t ⟨some c, [], sys.program c⟩ s.owner s.data
  | _ :: _ => s

/-- A thread that would have to wait stays where it is. -/
def advance (t : T) (s : State L A C T D) : State L A C T D :=
  let ⟨call, held, rest⟩ := s.threads t
  match rest with
  | [] => s
  | .acquire l :: p =>
    if s.owner l = none then
      s.put t ⟨call, l :: held, p⟩ (Function.update s.owner l (some t)) s.data
    else s
  | .release l :: p => s.put t ⟨call, held.tail, p⟩ (Function.update s.owner l none) s.data
  | .act a :: p =>
    match sys.exec a s.data with
    | .wait => s
    | .go d => s.put t ⟨call, held, p⟩ s.owner d
    | .leave d => s.put t ⟨call, held, held.map .release⟩ s.owner d

/-- What the callers see of a run: a call that has something to do, and its return. -/
inductive Seen (T C : Type*)
  | entered (t : T) (c : C)
  | returned (t : T)

def step (e : Event T C) (s : State L A C T D) : Option (Seen T C) × State L A C T D :=
  match e with
  | .issue t c =>
    (if (s.threads t).rest = [] ∧ sys.program c ≠ [] then some (.entered t c) else none,
      issue sys t c s)
  | .advance t =>
    let s' := advance sys t s
    (if (s.threads t).rest ≠ [] ∧ (s'.threads t).rest = [] then some (.returned t) else none, s')

/-- The calls that have been entered and have not returned. -/
def inProgress (h : List (Seen T C)) : T → Option C :=
  h.foldl (fun p e ↦ match e with
    | .entered t c => Function.update p t (some c)
    | .returned t => Function.update p t none) fun _ ↦ none

/-- No two threads are in calls that `R` holds of. -/
def Apart (R : C → C → Prop) (h : List (Seen T C)) : Prop :=
  ∀ v u c c', v ≠ u → inProgress h v = some c → inProgress h u = some c' → ¬R c c'

variable (d : D)

def run (es : List (Event T C)) : State L A C T D := Run.final (step sys) es (.start d)

def seen (es : List (Event T C)) : List (Seen T C) :=
  (Run.trace (step sys) es (.start d)).filterMap (·.2)

end Step

section Nested

variable {outer l : L} {held : List L} {p : List (Instr L A)}

theorem Nested.outer_mem (h : Nested outer held) (hne : held ≠ []) : outer ∈ held := by
  induction held with
  | nil => exact absurd rfl hne
  | cons l held ih =>
    obtain ⟨-, hfirst, hnested⟩ := h
    by_cases hnil : held = []
    · exact List.mem_cons.mpr (Or.inl (hfirst hnil).symm)
    · exact List.mem_cons_of_mem l (ih hnested hnil)

theorem scoped_releases (held : List L) : Scoped outer held (held.map (Instr.release (A := A))) := by
  induction held with
  | nil => rfl
  | cons l held ih => exact ⟨rfl, ih⟩

def Balanced (outer : L) (held : List L) (p : List (Instr L A)) : Prop :=
  ∀ q, Scoped outer held q → Scoped outer held (p ++ q)

theorem Balanced.scoped (h : Balanced outer [] p) : Scoped outer [] p := by
  simpa using h [] rfl

theorem balanced_nil : Balanced outer held ([] : List (Instr L A)) := fun _ h ↦ h

theorem balanced_act (hne : held ≠ []) (a : A) : Balanced outer held [.act a] :=
  fun _ h ↦ ⟨hne, h⟩

theorem Balanced.append {q : List (Instr L A)} (hp : Balanced outer held p)
    (hq : Balanced outer held q) : Balanced outer held (p ++ q) := by
  intro r hr
  rw [List.append_assoc]
  exact hp _ (hq r hr)

theorem balanced_flatMap {α : Type*} {f : α → List (Instr L A)} {l : List α}
    (h : ∀ a ∈ l, Balanced outer held (f a)) : Balanced outer held (l.flatMap f) := by
  induction l with
  | nil => exact balanced_nil
  | cons a l ih =>
    rw [List.flatMap_cons]
    exact (h a List.mem_cons_self).append (ih fun b hb ↦ h b (List.mem_cons_of_mem a hb))

def guarded (l : L) (body : List (Instr L A)) : List (Instr L A) :=
  .acquire l :: (body ++ [.release l])

theorem balanced_guarded {body : List (Instr L A)} (hnew : l ∉ held)
    (hfirst : held = [] → l = outer) (hbody : Balanced outer (l :: held) body) :
    Balanced outer held (guarded l body) := by
  intro q hq
  have hrelease : Scoped outer (l :: held) (.release l :: q) := ⟨rfl, hq⟩
  refine ⟨hnew, hfirst, ?_⟩
  simpa using hbody _ hrelease

end Nested

/-- Each thread's guards are nested and fit what it still has to do, and the locks know
their owners. -/
structure Inv (sys : System L A C D) (s : State L A C T D) : Prop where
  wellScoped : ∀ t, Scoped sys.outer (s.threads t).held (s.threads t).rest
  nested : ∀ t, Nested sys.outer (s.threads t).held
  owned : ∀ l t, s.owner l = some t ↔ l ∈ (s.threads t).held

variable {sys : System L A C D} {s : State L A C T D} {t u : T} {l : L}

theorem inv_start (d : D) : Inv sys (State.start d : State L A C T D) where
  wellScoped _ := rfl
  nested _ := trivial
  owned l t := by simp [State.start]

theorem Inv.owns_outer (h : Inv sys s) (hheld : (s.threads t).held ≠ []) :
    s.owner sys.outer = some t :=
  (h.owned _ _).mpr ((h.nested t).outer_mem hheld)

def AtAcquire (l : L) (s : State L A C T D) (t : T) : Prop :=
  ∃ p, (s.threads t).rest = .acquire l :: p

def Blocked (s : State L A C T D) (t u : T) : Prop := ∃ l, AtAcquire l s t ∧ s.owner l = some u

theorem Inv.blocked_ne (h : Inv sys s) (hb : Blocked s t u) : t ≠ u := by
  intro heq
  subst heq
  obtain ⟨l, ⟨p, hrest⟩, howner⟩ := hb
  have hscoped := h.wellScoped t
  rw [hrest] at hscoped
  exact hscoped.1 ((h.owned l t).mp howner)

section Advance

variable [DecidableEq T]

theorem Inv.put (h : Inv sys s) {th : Thread L A C} {owner : L → Option T} (d : D)
    (hscoped : Scoped sys.outer th.held th.rest) (hnested : Nested sys.outer th.held)
    (howned : ∀ l u, owner l = some u ↔ if u = t then l ∈ th.held else s.owner l = some u) :
    Inv sys (s.put t th owner d) where
  wellScoped u := by
    by_cases hu : u = t
    · subst u
      simpa [State.put] using hscoped
    · simpa [State.put, hu] using h.wellScoped u
  nested u := by
    by_cases hu : u = t
    · subst u
      simpa [State.put] using hnested
    · simpa [State.put, hu] using h.nested u
  owned l u := by
    rw [State.put, howned]
    by_cases hu : u = t
    · subst u
      simp
    · simpa [hu] using h.owned l u

theorem Inv.issue (h : Inv sys s) (t : T) (c : C) : Inv sys (issue sys t c s) := by
  cases hrest : (s.threads t).rest with
  | cons i p => simpa [Guards.issue, hrest] using h
  | nil =>
    have hheld : (s.threads t).held = [] := by simpa [hrest, Scoped] using h.wellScoped t
    simp only [Guards.issue, hrest]
    refine h.put s.data (sys.wellScoped c) trivial ?_
    intro l u
    by_cases hu : u = t
    · subst u
      simp [h.owned, hheld]
    · simp [hu]

variable [DecidableEq L]

theorem advance_cases (sys : System L A C D) {call : Option C} {held : List L}
    {rest : List (Instr L A)} (hthread : s.threads t = ⟨call, held, rest⟩) :
    advance sys t s = s ∨
      (∃ l p, rest = .acquire l :: p ∧ s.owner l = none ∧ advance sys t s =
        s.put t ⟨call, l :: held, p⟩ (Function.update s.owner l (some t)) s.data) ∨
      (∃ l p, rest = .release l :: p ∧ advance sys t s =
        s.put t ⟨call, held.tail, p⟩ (Function.update s.owner l none) s.data) ∨
      ∃ a p next d, rest = .act a :: p ∧ (next = p ∨ next = held.map .release) ∧
        advance sys t s = s.put t ⟨call, held, next⟩ s.owner d := by
  cases rest with
  | nil => simp [advance, hthread]
  | cons i p =>
    cases i with
    | acquire l =>
      by_cases howner : s.owner l = none
      · exact Or.inr (Or.inl ⟨l, p, rfl, howner, by simp [advance, hthread, howner]⟩)
      · exact Or.inl (by simp [advance, hthread, howner])
    | release l => exact Or.inr (Or.inr (Or.inl ⟨l, p, rfl, by simp [advance, hthread]⟩))
    | act a =>
      refine (em (sys.exec a s.data = .wait)).imp (fun hwait ↦ ?_) fun hgo ↦ Or.inr (Or.inr ?_)
      · simp [advance, hthread, hwait]
      · cases hexec : sys.exec a s.data with
        | wait => exact absurd hexec hgo
        | go d => exact ⟨a, p, p, d, rfl, Or.inl rfl, by simp [advance, hthread, hexec]⟩
        | leave d => exact ⟨a, p, _, d, rfl, Or.inr rfl, by simp [advance, hthread, hexec]⟩

theorem Inv.advance (h : Inv sys s) (t : T) : Inv sys (advance sys t s) := by
  obtain ⟨⟨call, held, rest⟩, hthread⟩ : ∃ th, s.threads t = th := ⟨_, rfl⟩
  have hscoped := h.wellScoped t
  have hnested := h.nested t
  have howned (l : L) := h.owned l t
  rw [hthread] at hscoped hnested
  simp only [hthread] at howned
  rcases advance_cases sys hthread with hs | ⟨l, p, rfl, hfree, hs⟩ | ⟨l, p, rfl, hs⟩ |
    ⟨a, p, next, d, rfl, hnext, hs⟩
  · rw [hs]
    exact h
  · rw [hs]
    obtain ⟨hnew, hfirst, hscoped⟩ := hscoped
    refine h.put _ hscoped ⟨hnew, hfirst, hnested⟩ ?_
    intro m u
    by_cases hm : m = l
    · subst m
      by_cases hu : u = t
      · simp [hu]
      · simp [hu, hfree, Ne.symm hu]
    · by_cases hu : u = t
      · subst u
        simp [hm, howned]
      · simp [hm, hu]
  · rw [hs]
    obtain ⟨hhead, hscoped⟩ := hscoped
    obtain ⟨inner, rfl⟩ := List.head?_eq_some_iff.mp hhead
    refine h.put _ hscoped hnested.2.2 ?_
    intro m u
    have hlast : l ∉ inner := hnested.1
    by_cases hm : m = l
    · subst m
      have hmine : s.owner l = some t := (howned l).mpr List.mem_cons_self
      by_cases hu : u = t
      · simp [hu, hlast]
      · simp [hu, hmine, Ne.symm hu]
    · by_cases hu : u = t
      · subst u
        simp [hm, howned]
      · simp [hm, hu]
  · rw [hs]
    refine h.put d ?_ hnested fun m u ↦ ?_
    · rcases hnext with rfl | rfl
      · exact hscoped.2
      · exact scoped_releases held
    · by_cases hu : u = t
      · subst u
        simp [howned]
      · simp [hu]

theorem inv_step (h : Inv sys s) (e : Event T C) : Inv sys (step sys e s).2 := by
  cases e with
  | issue t c => exact h.issue t c
  | advance t => exact h.advance t

theorem advance_other {v : T} (hv : v ≠ t) : (advance sys t s).threads v = s.threads v := by
  obtain ⟨⟨call, held, rest⟩, hthread⟩ : ∃ th, s.threads t = th := ⟨_, rfl⟩
  rcases advance_cases sys hthread with hs | ⟨l, p, -, -, hs⟩ | ⟨l, p, -, hs⟩ |
    ⟨a, p, next, d, -, -, hs⟩ <;> simp [hs, State.put, hv]

theorem call_advance (t : T) (v : T) : ((advance sys t s).threads v).call = (s.threads v).call := by
  by_cases hv : v = t
  · subst v
    obtain ⟨⟨call, held, rest⟩, hthread⟩ : ∃ th, s.threads t = th := ⟨_, rfl⟩
    rcases advance_cases sys hthread with hs | ⟨l, p, -, -, hs⟩ | ⟨l, p, -, hs⟩ |
      ⟨a, p, next, d, -, -, hs⟩ <;> simp [hs, State.put, hthread]
  · rw [advance_other hv]

omit [DecidableEq L] in
theorem atAcquire_put {v : T} {th : Thread L A C} {owner : L → Option T} {d : D} (hv : v ≠ t) :
    AtAcquire l (s.put t th owner d) v ↔ AtAcquire l s v := by
  simp [AtAcquire, State.put, hv]

/-- Inside the outer lock, a thread is the only one that moves. -/
theorem frozen_step (h : Inv sys s) {u : T} (howner : s.owner sys.outer = some t) (hu : u ≠ t) :
    Guards.advance sys u s = s := by
  obtain ⟨⟨call, held, rest⟩, hthread⟩ : ∃ th, s.threads u = th := ⟨_, rfl⟩
  have hscoped := h.wellScoped u
  rw [hthread] at hscoped
  have hheld : held = [] := by
    by_contra hne
    have hmine := h.owns_outer (t := u) (by simpa [hthread] using hne)
    exact hu (Option.some.inj (hmine.symm.trans howner))
  subst held
  rcases advance_cases sys hthread with hs | ⟨l, p, rfl, hfree, hs⟩ | ⟨l, p, rfl, hs⟩ |
    ⟨a, p, next, d, rfl, -, hs⟩
  · exact hs
  · rw [hscoped.2.1 rfl, howner] at hfree
    cases hfree
  · exact absurd hscoped.1 (by simp)
  · exact absurd rfl hscoped.1

theorem waiting_step (h : Inv sys s) {a : A} {p : List (Instr L A)}
    (hrest : (s.threads t).rest = .act a :: p) (hwait : sys.exec a s.data = .wait)
    (e : Event T C) :
    (step sys e s).2.threads t = s.threads t ∧ (step sys e s).2.data = s.data := by
  have howner : s.owner sys.outer = some t := by
    have hscoped := h.wellScoped t
    rw [hrest] at hscoped
    exact h.owns_outer hscoped.1
  cases e with
  | issue u c =>
    by_cases hu : u = t
    · subst u
      simp [step, Guards.issue, hrest]
    · cases hidle : (s.threads u).rest with
      | nil => simp [step, Guards.issue, hidle, State.put, Ne.symm hu]
      | cons i p => simp [step, Guards.issue, hidle]
  | advance u =>
    by_cases hu : u = t
    · subst u
      have hstay : Guards.advance sys t s = s := by simp [Guards.advance, hrest, hwait]
      simp [step, hstay]
    · simp [step, frozen_step h howner hu]

/-- Who waits inside the outer lock waits for ever: no other thread gets to act. -/
theorem stays_waiting (h : Inv sys s) {a : A} {p : List (Instr L A)}
    (hrest : (s.threads t).rest = .act a :: p) (hwait : sys.exec a s.data = .wait)
    (es : List (Event T C)) :
    (Run.final (step sys) es s).threads t = s.threads t ∧
      (Run.final (step sys) es s).data = s.data := by
  induction es generalizing s with
  | nil => exact ⟨rfl, rfl⟩
  | cons e es ih =>
    obtain ⟨hthread, hdata⟩ := waiting_step h hrest hwait e
    obtain ⟨hthread', hdata'⟩ := ih (inv_step h e) (by rw [hthread, hrest]) (by rw [hdata, hwait])
    exact ⟨hthread'.trans hthread, hdata'.trans hdata⟩

end Advance

/-- No thread in a call `c` waits for one in a call `c'` with `R c c'`. -/
def Unhindered (R : C → C → Prop) (s : State L A C T D) : Prop :=
  ∀ v u c c', Blocked s v u → (s.threads v).call = some c → (s.threads u).call = some c' → ¬R c c'

section Waiting

variable [DecidableEq L] [DecidableEq T] {d : D} {R : C → C → Prop}

theorem inv_run (es : List (Event T C)) : Inv sys (run sys d es : State L A C T D) :=
  Run.invariant (I := Inv sys) (fun e _ h ↦ inv_step h e) es (inv_start d)

theorem run_concat (es : List (Event T C)) (e : Event T C) :
    run sys d (es ++ [e]) = (step sys e (run sys d es)).2 := by
  simp [run, Run.final_append]

theorem seen_concat (es : List (Event T C)) (e : Event T C) :
    seen sys d (es ++ [e]) = seen sys d es ++ (step sys e (run sys d es)).1.toList := by
  rw [seen, Run.trace_append, List.filterMap_append, Run.trace_cons, Run.trace_nil, ← run, ← seen]
  cases hstep : (step sys e (run sys d es)).1 <;> simp

theorem inProgress_concat (h : List (Seen T C)) (e : Seen T C) (t : T) :
    inProgress (h ++ [e]) t = match e with
      | .entered u c => if t = u then some c else inProgress h t
      | .returned u => if t = u then none else inProgress h t := by
  cases e <;> simp [inProgress, Function.update_apply]

omit [DecidableEq L] in
theorem issue_busy (hbusy : (s.threads t).rest ≠ []) (c : C) : issue sys t c s = s := by
  cases hrest : (s.threads t).rest with
  | nil => exact absurd hrest hbusy
  | cons i p => simp [issue, hrest]

omit [DecidableEq L] in
theorem issue_idle (hidle : (s.threads t).rest = []) (c : C) :
    issue sys t c s = s.put t ⟨some c, [], sys.program c⟩ s.owner s.data := by
  simp [issue, hidle]

def State.busy (s : State L A C T D) (t : T) : Option C :=
  if (s.threads t).rest = [] then none else (s.threads t).call

omit [DecidableEq L] [DecidableEq T] in
theorem busy_eq_some {c : C} :
    s.busy t = some c ↔ (s.threads t).rest ≠ [] ∧ (s.threads t).call = some c := by
  by_cases hidle : (s.threads t).rest = [] <;> simp [State.busy, hidle]

theorem busy_step {h : List (Seen T C)} (hb : ∀ t, inProgress h t = s.busy t) (e : Event T C)
    (t : T) : inProgress (h ++ (step sys e s).1.toList) t = (step sys e s).2.busy t := by
  cases e with
  | issue u c =>
    cases hrest : (s.threads u).rest with
    | cons i p => simp [step, issue, hrest, hb]
    | nil =>
      by_cases ht : t = u
      · subst t
        by_cases hprogram : sys.program c = []
        · simp [step, issue, hrest, hprogram, hb, State.busy, State.put]
        · simp [step, issue, hrest, hprogram, inProgress_concat, State.busy, State.put]
      · by_cases hprogram : sys.program c = [] <;>
          simp [step, issue, hrest, hprogram, inProgress_concat, hb, State.busy, State.put, ht]
  | advance u =>
    by_cases ht : t = u
    · subst t
      by_cases hrest : (s.threads u).rest = []
      · have hstay : advance sys u s = s := by simp [advance, hrest]
        simp [step, hstay, hrest, hb]
      · by_cases hreturn : ((advance sys u s).threads u).rest = []
        · simp [step, hrest, hreturn, inProgress_concat, State.busy]
        · simp [step, hrest, hreturn, hb, State.busy, call_advance]
    · have hother : (advance sys u s).threads t = s.threads t := advance_other ht
      by_cases hreturn : (s.threads u).rest ≠ [] ∧ ((advance sys u s).threads u).rest = []
      · simp [step, if_pos hreturn, inProgress_concat, ht, hb, State.busy, hother]
      · simp [step, if_neg hreturn, hb, State.busy, hother]

/-- The callers know who is in which call. -/
theorem inProgress_seen (es : List (Event T C)) (t : T) :
    inProgress (seen sys d es) t = (run sys d es).busy t := by
  induction es using List.reverseRecOn generalizing t with
  | nil => simp [seen, run, inProgress, State.busy, State.start]
  | append_singleton es e ih => rw [seen_concat, run_concat, busy_step ih]

theorem exists_seen {es : List (Event T C)} {h : List (Seen T C)} (hh : h <+: seen sys d es) :
    ∃ es', seen sys d es' = h := by
  induction es using List.reverseRecOn with
  | nil => exact ⟨[], (List.prefix_nil.mp hh).symm⟩
  | append_singleton es e ih =>
    have hlast := hh
    rw [seen_concat] at hlast
    cases hstep : (step sys e (run sys d es)).1 with
    | none => exact ih (by simpa [hstep] using hlast)
    | some o =>
      rw [hstep, Option.toList_some, List.prefix_concat_iff] at hlast
      rcases hlast with hall | hbefore
      · exact ⟨es ++ [e], by rw [seen_concat, hstep, hall, Option.toList_some]⟩
      · exact ih hbefore

omit [DecidableEq L] [DecidableEq T] in
theorem Inv.rest_of_owns (h : Inv sys s) (howner : s.owner l = some t) :
    (s.threads t).rest ≠ [] := by
  intro hnil
  have hscoped := h.wellScoped t
  rw [hnil] at hscoped
  have hheld : (s.threads t).held = [] := hscoped
  simpa [hheld] using (h.owned l t).mp howner

omit [DecidableEq L] [DecidableEq T] in
theorem Inv.busy_of_blocked (h : Inv sys s) (hb : Blocked s t u) :
    s.busy t = (s.threads t).call ∧ s.busy u = (s.threads u).call := by
  obtain ⟨l, ⟨p, hrest⟩, howner⟩ := hb
  exact ⟨by simp [State.busy, hrest], by simp [State.busy, h.rest_of_owns howner]⟩

omit [DecidableEq L] [DecidableEq T] in
/-- Who is in a call and has no lock stands at the outer one. -/
theorem Inv.atAcquire (h : Inv sys s) (hheld : (s.threads t).held = [])
    (hrest : (s.threads t).rest ≠ []) : AtAcquire sys.outer s t := by
  have hscoped := h.wellScoped t
  rw [hheld] at hscoped
  cases hp : (s.threads t).rest with
  | nil => exact absurd hp hrest
  | cons i p =>
    rw [hp] at hscoped
    cases i with
    | acquire l => exact ⟨p, by rw [hp, hscoped.2.1 rfl]⟩
    | release l => exact absurd hscoped.1 (by simp)
    | act a => exact absurd rfl hscoped.1

omit [DecidableEq L] [DecidableEq T] in
theorem Inv.atAcquire_of_free (h : Inv sys s) (hfree : s.owner sys.outer = none)
    (hrest : (s.threads t).rest ≠ []) : AtAcquire sys.outer s t := by
  refine h.atAcquire ?_ hrest
  by_contra hheld
  rw [h.owns_outer hheld] at hfree
  cases hfree

theorem owner_advance {u : T} (hu : u ≠ t) (howner : (advance sys u s).owner l = some t) :
    s.owner l = some t := by
  obtain ⟨⟨call, held, rest⟩, hthread⟩ : ∃ th, s.threads u = th := ⟨_, rfl⟩
  rcases advance_cases sys hthread with hs | ⟨m, p, -, -, hs⟩ | ⟨m, p, -, hs⟩ |
    ⟨a, p, next, d, -, -, hs⟩
  · rwa [hs] at howner
  · rw [hs] at howner
    by_cases hm : l = m
    · simp [State.put, hm, hu] at howner
    · simpa [State.put, hm] using howner
  · rw [hs] at howner
    by_cases hm : l = m
    · simp [State.put, hm] at howner
    · simpa [State.put, hm] using howner
  · rwa [hs] at howner

/-- The owner of the outer lock can as well not have taken it yet: no caller sees a difference. -/
theorem rewind {es : List (Event T C)} (howner : (run sys d es).owner sys.outer = some t) :
    ∃ es', seen sys d es' = seen sys d es ∧ (run sys d es').owner sys.outer = none ∧
      AtAcquire sys.outer (run sys d es') t ∧
      ((run sys d es').threads t).call = ((run sys d es).threads t).call ∧
      ∀ v, v ≠ t → (run sys d es').threads v = (run sys d es).threads v := by
  induction es using List.reverseRecOn with
  | nil => cases howner
  | append_singleton es e ih =>
    have h : Inv sys (run sys d es : State L A C T D) := inv_run es
    have hin := (inv_run (es ++ [e])).rest_of_owns howner
    rw [run_concat] at howner hin
    rw [run_concat, seen_concat]
    cases e with
    | issue u c =>
      have hbefore : (run sys d es).owner sys.outer = some t := by
        simp only [step, issue] at howner
        split at howner <;> exact howner
      obtain ⟨es', hseen, hfree, ⟨p, hat⟩, hcall, hothers⟩ := ih hbefore
      refine ⟨es' ++ [.issue u c], ?_⟩
      rw [run_concat, seen_concat, hseen]
      by_cases hidle : ((run sys d es).threads u).rest = []
      · have hu : u ≠ t := fun hu ↦ h.rest_of_owns hbefore (hu ▸ hidle)
        have hidle' : ((run sys d es').threads u).rest = [] := by rw [hothers u hu, hidle]
        simp only [step, issue_idle hidle, issue_idle hidle', hidle, hidle']
        refine ⟨trivial, hfree, (atAcquire_put (Ne.symm hu)).mpr ⟨p, hat⟩, ?_, fun v hv ↦ ?_⟩
        · simpa [State.put, Ne.symm hu] using hcall
        · by_cases hv' : v = u <;> simp [State.put, hv', hothers v hv]
      · have hidle' : ((run sys d es').threads u).rest ≠ [] := by
          by_cases hu : u = t
          · simp [hu, hat]
          · rwa [hothers u hu]
        simp only [step, issue_busy hidle, issue_busy hidle', hidle, hidle', false_and, if_false]
        exact ⟨trivial, hfree, ⟨p, hat⟩, hcall, hothers⟩
    | advance u =>
      by_cases hu : u = t
      · subst u
        have hseen : (step sys (.advance t) (run sys d es)).1 = none := by
          simp only [step]
          exact if_neg fun hreturn ↦ hin hreturn.2
        rw [hseen, Option.toList_none, List.append_nil]
        simp only [step, call_advance]
        cases hbefore : (run sys d es).owner sys.outer with
        | none =>
          refine ⟨es, rfl, hbefore, h.atAcquire_of_free hbefore fun hnil ↦ ?_, rfl,
            fun v hv ↦ (advance_other hv).symm⟩
          simp [step, advance, hnil, hbefore] at howner
        | some w =>
          obtain rfl : w = t := by
            by_contra hw
            rw [step, frozen_step h hbefore (Ne.symm hw), hbefore] at howner
            exact hw (Option.some.inj howner)
          obtain ⟨es', hseen', hfree, hat, hcall, hothers⟩ := ih hbefore
          refine ⟨es', hseen', hfree, hat, hcall, fun v hv ↦ ?_⟩
          rw [hothers v hv, advance_other hv]
      · have hbefore := owner_advance hu howner
        have hstay := frozen_step h hbefore hu
        simpa [step, hstay] using ih hbefore

/-- Who takes the outer lock first makes the other wait. -/
theorem blocked_advance {es : List (Event T C)} {v : T}
    (hfree : (run sys d es).owner sys.outer = none) (hne : v ≠ t)
    (hv : AtAcquire sys.outer (run sys d es) v) (ht : AtAcquire sys.outer (run sys d es) t) :
    seen sys d (es ++ [.advance t]) = seen sys d es ∧
      Blocked (run sys d (es ++ [.advance t])) v t := by
  obtain ⟨p, hrest⟩ := ht
  have hstep : advance sys t (run sys d es) =
      (run sys d es).put t
        ⟨((run sys d es).threads t).call, sys.outer :: ((run sys d es).threads t).held, p⟩
        (Function.update (run sys d es).owner sys.outer (some t)) (run sys d es).data := by
    simp [advance, hrest, hfree]
  have howner : (run sys d (es ++ [.advance t])).owner sys.outer = some t := by
    simp [run_concat, step, hstep, State.put]
  have hin := (inv_run (es ++ [.advance t])).rest_of_owns howner
  rw [run_concat] at hin howner ⊢
  rw [seen_concat]
  constructor
  · simp only [step] at hin ⊢
    rw [if_neg fun hreturn ↦ hin hreturn.2, Option.toList_none, List.append_nil]
  · refine ⟨sys.outer, ?_, howner⟩
    simp only [step, hstep]
    exact (atAcquire_put hne).mpr hv

/-- Where two threads are in calls, each can be made to wait for the other. -/
theorem exists_blocked {es : List (Event T C)} {v : T} {c c' : C} (hne : v ≠ t)
    (hv : (run sys d es).busy v = some c) (ht : (run sys d es).busy t = some c') :
    ∃ es', seen sys d es' = seen sys d es ∧ Blocked (run sys d es') v t ∧
      ((run sys d es').threads v).call = some c ∧ ((run sys d es').threads t).call = some c' := by
  obtain ⟨hv, hcall⟩ := busy_eq_some.mp hv
  obtain ⟨ht, hcall'⟩ := busy_eq_some.mp ht
  have h : Inv sys (run sys d es : State L A C T D) := inv_run es
  -- with the lock free, `t` takes it
  have htake {es₁ : List (Event T C)} (hseen : seen sys d es₁ = seen sys d es)
      (hfree : (run sys d es₁).owner sys.outer = none)
      (hv₁ : AtAcquire sys.outer (run sys d es₁) v) (ht₁ : AtAcquire sys.outer (run sys d es₁) t)
      (hcalls : ∀ w, ((run sys d es₁).threads w).call = ((run sys d es).threads w).call) :
      ∃ es', seen sys d es' = seen sys d es ∧ Blocked (run sys d es') v t ∧
        ((run sys d es').threads v).call = some c ∧
        ((run sys d es').threads t).call = some c' := by
    obtain ⟨hsame, hblocked⟩ := blocked_advance hfree hne hv₁ ht₁
    refine ⟨es₁ ++ [.advance t], hsame.trans hseen, hblocked, ?_, ?_⟩
    · rw [run_concat, step, call_advance, hcalls, hcall]
    · rw [run_concat, step, call_advance, hcalls, hcall']
  cases howner : (run sys d es).owner sys.outer with
  | none =>
    exact htake rfl howner (h.atAcquire_of_free howner hv) (h.atAcquire_of_free howner ht)
      fun _ ↦ rfl
  | some w =>
    by_cases hw : w = t
    · -- `t` has it already
      subst w
      have hheld : ((run sys d es).threads v).held = [] := by
        by_contra hheld
        rw [h.owns_outer hheld] at howner
        exact hne (Option.some.inj howner)
      exact ⟨es, rfl, ⟨sys.outer, h.atAcquire hheld hv, howner⟩, hcall, hcall'⟩
    · obtain ⟨es₁, hseen, hfree, hat, hcallw, hothers⟩ := rewind howner
      have h₁ : Inv sys (run sys d es₁ : State L A C T D) := inv_run es₁
      refine htake hseen hfree ?_ (h₁.atAcquire_of_free hfree (by rwa [hothers t (Ne.symm hw)]))
        fun u ↦ ?_
      · by_cases hvw : v = w
        · rwa [hvw]
        · exact h₁.atAcquire_of_free hfree (by rwa [hothers v hvw])
      · by_cases hu : u = w
        · rw [hu, hcallw]
        · rw [hothers u hu]

/-- All that the callers see being as it is, no thread need wait for one it must not wait for
exactly when no two such threads are in calls at one time. -/
theorem unhindered_iff (es : List (Event T C)) :
    (∀ es', seen sys d es' <+: seen sys d es → Unhindered R (run sys d es' : State L A C T D)) ↔
      ∀ h, h <+: seen sys d es → Apart R h := by
  constructor
  · intro hall h hh v t c c' hne hv ht
    obtain ⟨es₁, rfl⟩ := exists_seen hh
    rw [inProgress_seen] at hv ht
    obtain ⟨es', hseen, hblocked, hcall, hcall'⟩ := exists_blocked hne hv ht
    exact hall es' (by rwa [hseen]) v t c c' hblocked hcall hcall'
  · intro hall es' hh v t c c' hblocked hcall hcall'
    have h : Inv sys (run sys d es' : State L A C T D) := inv_run es'
    obtain ⟨hv, ht⟩ := h.busy_of_blocked hblocked
    rw [hcall, ← inProgress_seen] at hv
    rw [hcall', ← inProgress_seen] at ht
    exact hall _ hh v t c c' (h.blocked_ne hblocked) hv ht

end Waiting

end MachineNotebook.Lib.Guards
