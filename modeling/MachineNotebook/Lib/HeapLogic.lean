import Mathlib.Data.List.Perm.Basic
import Mathlib.Logic.Function.Basic

namespace MachineNotebook.Lib.HeapLogic

variable {β ω ε α γ : Type}

/-- What is allocated where. An address is given out once, and `grants` says at which ones the
allocator does not refuse. -/
structure Heap (β : Type) where
  cells : ℕ → Option β
  next : ℕ
  grants : ℕ → Bool
  fresh : ∀ a, next ≤ a → cells a = none

abbrev Ptr := Option ℕ

/-- What ends a program early: an exception, or a use of memory that is not there. -/
inductive Stop (ε : Type)
  | thrown (e : ε)
  | fault

/-- A program over a heap and a world that the heap knows nothing of. -/
def Prog (β ω ε α : Type) := ω → Heap β → Except (Stop ε) α × ω × Heap β

namespace Heap

def empty (grants : ℕ → Bool) : Heap β where
  cells _ := none
  next := 0
  grants := grants
  fresh _ _ := rfl

def refuse (h : Heap β) : Heap β where
  cells := h.cells
  next := h.next + 1
  grants := h.grants
  fresh a ha := h.fresh a (by omega)

def alloc (h : Heap β) (b : β) : Heap β where
  cells := Function.update h.cells h.next (some b)
  next := h.next + 1
  grants := h.grants
  fresh a ha := by rw [Function.update_of_ne (by omega), h.fresh a (by omega)]

theorem lt_next {h : Heap β} {a : ℕ} {b : β} (hb : h.cells a = some b) : a < h.next := by
  by_contra ha
  rw [h.fresh a (Nat.le_of_not_lt ha)] at hb
  cases hb

def put (h : Heap β) (a : ℕ) (b : Option β) (hlt : a < h.next) : Heap β where
  cells := Function.update h.cells a b
  next := h.next
  grants := h.grants
  fresh x hx := by rw [Function.update_of_ne (by omega), h.fresh x hx]

end Heap

namespace Prog

instance : Monad (Prog β ω ε) where
  pure a := fun w h ↦ (.ok a, w, h)
  bind p f := fun w h ↦
    match p w h with
    | (.ok a, w, h) => f a w h
    | (.error e, w, h) => (.error e, w, h)

def throw (e : ε) : Prog β ω ε α := fun w h ↦ (.error (.thrown e), w, h)

def world (f : ω → α × ω) : Prog β ω ε α := fun w h ↦ (.ok (f w).1, (f w).2, h)

def malloc (refused : ε) (b : β) : Prog β ω ε ℕ := fun w h ↦
  if h.grants h.next then (.ok h.next, w, h.alloc b) else (.error (.thrown refused), w, h.refuse)

/-- An allocation whose caller looks at the pointer. -/
def tryMalloc (b : β) : Prog β ω ε Ptr := fun w h ↦
  if h.grants h.next then (.ok (some h.next), w, h.alloc b) else (.ok none, w, h.refuse)

def load (a : ℕ) : Prog β ω ε β := fun w h ↦
  match h.cells a with
  | some b => (.ok b, w, h)
  | none => (.error .fault, w, h)

def modify (a : ℕ) (f : β → β) : Prog β ω ε Unit := fun w h ↦
  match hb : h.cells a with
  | some b => (.ok (), w, h.put a (some (f b)) (Heap.lt_next hb))
  | none => (.error .fault, w, h)

def free (a : ℕ) : Prog β ω ε Unit := fun w h ↦
  match hb : h.cells a with
  | some _ => (.ok (), w, h.put a none (Heap.lt_next hb))
  | none => (.error .fault, w, h)

/-- What a partial reader makes of a block that is not of its shape is a fault. -/
def expect (o : Option α) : Prog β ω ε α := fun w h ↦
  match o with
  | some a => (.ok a, w, h)
  | none => (.error .fault, w, h)

/-- `try p finally f`. -/
def ensure (p : Prog β ω ε α) (f : Prog β ω ε Unit) : Prog β ω ε α := fun w h ↦
  match p w h with
  | (.error .fault, w, h) => (.error .fault, w, h)
  | (r, w, h) =>
    match f w h with
    | (.ok (), w, h) => (r, w, h)
    | (.error e, w, h) => (.error e, w, h)

/-- `try p catch (e) f; rethrow`. -/
def rescue (p : Prog β ω ε α) (f : Prog β ω ε Unit) : Prog β ω ε α := fun w h ↦
  match p w h with
  | (.error (.thrown e), w, h) =>
    match f w h with
    | (.ok (), w, h) => (.error (.thrown e), w, h)
    | (.error e, w, h) => (.error e, w, h)
  | r => r

/-- A program with a variable of its own, which its clean-up sees as it was left. -/
def withVar {ν : Type} (x : ν) (p : Prog β (ω × ν) ε α) : Prog β ω ε α := fun w h ↦
  match p (w, x) h with
  | (r, s, h) => (r, s.1, h)

def lift {ν : Type} (p : Prog β ω ε α) : Prog β (ω × ν) ε α := fun s h ↦
  match p s.1 h with
  | (r, w, h) => (r, (w, s.2), h)

def readVar {ν : Type} : Prog β (ω × ν) ε ν := fun s h ↦ (.ok s.2, s, h)

def assign {ν : Type} (x : ν) : Prog β (ω × ν) ε Unit := fun s h ↦ (.ok (), (s.1, x), h)

def forEach {ι : Type} (f : ι → Prog β ω ε Unit) : List ι → Prog β ω ε Unit
  | [] => pure ()
  | i :: is => do
    f i
    forEach f is

def freeAll : List ℕ → Prog β ω ε Unit
  | [] => pure ()
  | a :: as => do
    free a
    freeAll as

/-- From here the program returns in `Q` or throws in `E`: it does not fault. -/
def Spec (p : Prog β ω ε α) (Q : α → ω → Heap β → Prop) (E : ε → ω → Heap β → Prop) (w : ω)
    (h : Heap β) : Prop :=
  match p w h with
  | (.ok a, w, h) => Q a w h
  | (.error (.thrown e), w, h) => E e w h
  | (.error .fault, _, _) => False

/-- From here the program uses memory that is not there. -/
def Faults (p : Prog β ω ε α) (w : ω) (h : Heap β) : Prop := (p w h).1 = .error .fault

section Rules

variable {p : Prog β ω ε α} {Q Q' : α → ω → Heap β → Prop} {E E' : ε → ω → Heap β → Prop}
  {w w' : ω} {h h' : Heap β}

theorem spec_ok {a : α} (hp : p w h = (.ok a, w', h')) : Spec p Q E w h ↔ Q a w' h' := by
  unfold Spec
  rw [hp]

theorem spec_thrown {e : ε} (hp : p w h = (.error (.thrown e), w', h')) :
    Spec p Q E w h ↔ E e w' h' := by
  unfold Spec
  rw [hp]

theorem spec_fault (hp : p w h = (.error .fault, w', h')) : ¬Spec p Q E w h := by
  unfold Spec
  rw [hp]
  exact not_false

theorem Spec.cases (hp : Spec p Q E w h) :
    (∃ a w' h', p w h = (.ok a, w', h') ∧ Q a w' h') ∨
      ∃ e w' h', p w h = (.error (.thrown e), w', h') ∧ E e w' h' := by
  obtain ⟨w', h', hout⟩ : ∃ w' h', p w h = ((p w h).1, w', h') := ⟨_, _, rfl⟩
  cases hr : (p w h).1 with
  | ok a =>
    rw [hr] at hout
    exact Or.inl ⟨a, w', h', hout, (spec_ok hout).mp hp⟩
  | error e =>
    rw [hr] at hout
    cases e with
    | thrown e => exact Or.inr ⟨e, w', h', hout, (spec_thrown hout).mp hp⟩
    | fault => exact absurd hp (spec_fault hout)

theorem spec_pure {a : α} (ha : Q a w h) : Spec (pure a : Prog β ω ε α) Q E w h := ha

theorem spec_throw {e : ε} (he : E e w h) : Spec (throw e : Prog β ω ε α) Q E w h := he

theorem spec_world {f : ω → α × ω} (hf : Q (f w).1 (f w).2 h) :
    Spec (world f : Prog β ω ε α) Q E w h := hf

theorem Spec.mono (hp : Spec p Q E w h) (hQ : ∀ a w h, Q a w h → Q' a w h)
    (hE : ∀ e w h, E e w h → E' e w h) : Spec p Q' E' w h := by
  obtain ⟨a, w', h', hout, ha⟩ | ⟨e, w', h', hout, he⟩ := hp.cases
  · exact (spec_ok hout).mpr (hQ _ _ _ ha)
  · exact (spec_thrown hout).mpr (hE _ _ _ he)

theorem spec_bind {f : α → Prog β ω ε γ} {R : γ → ω → Heap β → Prop}
    (hp : Spec p (fun a ↦ Spec (f a) R E) E w h) : Spec (p >>= f) R E w h := by
  have hbind : (p >>= f) w h = match p w h with
      | (.ok a, w, h) => f a w h
      | (.error e, w, h) => (.error e, w, h) := rfl
  obtain ⟨a, w', h', hout, hnext⟩ | ⟨e, w', h', hout, he⟩ := hp.cases
  · rw [hout] at hbind
    unfold Spec at hnext ⊢
    rwa [hbind]
  · rw [hout] at hbind
    exact (spec_thrown hbind).mpr he

theorem Spec.bind {f : α → Prog β ω ε γ} {R : γ → ω → Heap β → Prop} (hp : Spec p Q E w h)
    (hf : ∀ a w h, Q a w h → Spec (f a) R E w h) : Spec (p >>= f) R E w h :=
  spec_bind (hp.mono hf fun _ _ _ he ↦ he)

/-- A loop by what still holds with these steps to come. -/
theorem spec_forEach {ι : Type} {f : ι → Prog β ω ε Unit} (I : List ι → ω → Heap β → Prop)
    (hstep : ∀ i is w h, I (i :: is) w h → Spec (f i) (fun _ w h ↦ I is w h) E w h) {is : List ι}
    (hI : I is w h) : Spec (forEach f is) (fun _ w h ↦ I [] w h) E w h := by
  induction is generalizing w h with
  | nil => exact spec_pure hI
  | cons i is ih => exact (hstep i is w h hI).bind fun _ w h hnext ↦ ih hnext

theorem spec_ensure {f : Prog β ω ε Unit}
    (hp : Spec p (fun a ↦ Spec f (fun _ ↦ Q a) E) (fun e ↦ Spec f (fun _ ↦ E e) E) w h) :
    Spec (ensure p f) Q E w h := by
  obtain ⟨a, w', h', hout, hf⟩ | ⟨e, w', h', hout, hf⟩ := hp.cases
  · obtain ⟨_, w'', h'', hclean, ha⟩ | ⟨e, w'', h'', hclean, he⟩ := hf.cases
    · exact (spec_ok (a := a) (by simp only [ensure, hout, hclean])).mpr ha
    · exact (spec_thrown (e := e) (by simp only [ensure, hout, hclean])).mpr he
  · obtain ⟨_, w'', h'', hclean, he⟩ | ⟨e', w'', h'', hclean, he⟩ := hf.cases
    · exact (spec_thrown (e := e) (by simp only [ensure, hout, hclean])).mpr he
    · exact (spec_thrown (e := e') (by simp only [ensure, hout, hclean])).mpr he

theorem spec_rescue {f : Prog β ω ε Unit} (hp : Spec p Q (fun e ↦ Spec f (fun _ ↦ E e) E) w h) :
    Spec (rescue p f) Q E w h := by
  obtain ⟨a, w', h', hout, ha⟩ | ⟨e, w', h', hout, hf⟩ := hp.cases
  · exact (spec_ok (a := a) (by simp only [rescue, hout])).mpr ha
  · obtain ⟨_, w'', h'', hclean, he⟩ | ⟨e', w'', h'', hclean, he⟩ := hf.cases
    · exact (spec_thrown (e := e) (by simp only [rescue, hout, hclean])).mpr he
    · exact (spec_thrown (e := e') (by simp only [rescue, hout, hclean])).mpr he

theorem Spec.not_faults (hp : Spec p Q E w h) : ¬Faults p w h := by
  unfold Faults
  obtain ⟨a, w', h', hout, -⟩ | ⟨e, w', h', hout, -⟩ := hp.cases
  · rw [hout]
    simp
  · rw [hout]
    simp

/-- A program that gets to a fault. -/
theorem faults_bind {f : α → Prog β ω ε γ}
    (hp : Spec p (fun a w h ↦ Faults (f a) w h) (fun _ _ _ ↦ False) w h) :
    Faults (p >>= f) w h := by
  have hbind : (p >>= f) w h = match p w h with
      | (.ok a, w, h) => f a w h
      | (.error e, w, h) => (.error e, w, h) := rfl
  obtain ⟨a, w', h', hout, hnext⟩ | ⟨e, w', h', hout, he⟩ := hp.cases
  · rw [hout] at hbind
    unfold Faults at hnext ⊢
    rwa [hbind]
  · exact he.elim

theorem faults_bind_left {f : α → Prog β ω ε γ} (hp : Faults p w h) : Faults (p >>= f) w h := by
  obtain ⟨w', h', hout⟩ : ∃ w' h', p w h = (.error .fault, w', h') := ⟨_, _, Prod.ext hp rfl⟩
  have hbind : (p >>= f) w h = match p w h with
      | (.ok a, w, h) => f a w h
      | (.error e, w, h) => (.error e, w, h) := rfl
  rw [hout] at hbind
  unfold Faults
  rw [hbind]

theorem faults_ensure_left {f : Prog β ω ε Unit} (hp : Faults p w h) : Faults (ensure p f) w h := by
  obtain ⟨w', h', hout⟩ : ∃ w' h', p w h = (.error .fault, w', h') := ⟨_, _, Prod.ext hp rfl⟩
  simp only [Faults, ensure, hout]

theorem faults_ensure {f : Prog β ω ε Unit}
    (hp : Spec p (fun _ w h ↦ Faults f w h) (fun _ w h ↦ Faults f w h) w h) :
    Faults (ensure p f) w h := by
  obtain ⟨a, w', h', hout, hf⟩ | ⟨e, w', h', hout, hf⟩ := hp.cases
  · obtain ⟨w'', h'', hclean⟩ : ∃ w'' h'', f w' h' = (.error .fault, w'', h'') :=
      ⟨_, _, Prod.ext hf rfl⟩
    simp only [Faults, ensure, hout, hclean]
  · obtain ⟨w'', h'', hclean⟩ : ∃ w'' h'', f w' h' = (.error .fault, w'', h'') :=
      ⟨_, _, Prod.ext hf rfl⟩
    simp only [Faults, ensure, hout, hclean]

section Variable

variable {ν : Type} {x : ν}

theorem spec_withVar {p : Prog β (ω × ν) ε α}
    (hp : Spec p (fun a s h ↦ Q a s.1 h) (fun e s h ↦ E e s.1 h) (w, x) h) :
    Spec (withVar x p) Q E w h := by
  obtain ⟨a, s, h', hout, ha⟩ | ⟨e, s, h', hout, he⟩ := hp.cases
  · exact (spec_ok (a := a) (by simp only [withVar, hout])).mpr ha
  · exact (spec_thrown (e := e) (by simp only [withVar, hout])).mpr he

theorem spec_lift {Q : α → ω × ν → Heap β → Prop} {E : ε → ω × ν → Heap β → Prop}
    (hp : Spec p (fun a w h ↦ Q a (w, x) h) (fun e w h ↦ E e (w, x) h) w h) :
    Spec (lift p) Q E (w, x) h := by
  obtain ⟨a, w', h', hout, ha⟩ | ⟨e, w', h', hout, he⟩ := hp.cases
  · exact (spec_ok (a := a) (by simp only [lift, hout])).mpr ha
  · exact (spec_thrown (e := e) (by simp only [lift, hout])).mpr he

theorem spec_readVar {Q : ν → ω × ν → Heap β → Prop} {E : ε → ω × ν → Heap β → Prop}
    (hQ : Q x (w, x) h) : Spec (readVar : Prog β (ω × ν) ε ν) Q E (w, x) h := hQ

theorem spec_assign {y : ν} {Q : Unit → ω × ν → Heap β → Prop} {E : ε → ω × ν → Heap β → Prop}
    (hQ : Q () (w, y) h) : Spec (assign y : Prog β (ω × ν) ε Unit) Q E (w, x) h := hQ

theorem faults_withVar {p : Prog β (ω × ν) ε α} (hp : Faults p (w, x) h) :
    Faults (withVar x p) w h := hp

theorem faults_lift (hp : Faults p w h) : Faults (lift p) (w, x) h := hp

end Variable

end Rules

end Prog

/-- Besides what `base` had, the heap has just these blocks. -/
structure Owns (base : Heap β) (ps : List (ℕ × β)) (h : Heap β) : Prop where
  nodup : (ps.map Prod.fst).Nodup
  new : ∀ p ∈ ps, base.cells p.1 = none
  held : ∀ p ∈ ps, h.cells p.1 = some p.2
  rest : ∀ a ∉ ps.map Prod.fst, h.cells a = base.cells a
  grants : h.grants = base.grants

/-- An allocation was refused when the heap had these blocks. -/
structure Refused (base : Heap β) (ps : List (ℕ × β)) (h : Heap β) : Prop where
  owns : Owns base ps h
  refused : ∃ a, base.grants a = false

section Owns

variable {base : Heap β} {ps qs : List (ℕ × β)} {h : Heap β} {a : ℕ} {b : β}

theorem Owns.start (h : Heap β) : Owns h [] h where
  nodup := List.nodup_nil
  new _ hp := absurd hp List.not_mem_nil
  held _ hp := absurd hp List.not_mem_nil
  rest _ _ := rfl
  grants := rfl

theorem Owns.perm (ho : Owns base ps h) (hperm : ps.Perm qs) : Owns base qs h where
  nodup := (hperm.map Prod.fst).nodup_iff.mp ho.nodup
  new p hp := ho.new p (hperm.mem_iff.mpr hp)
  held p hp := ho.held p (hperm.mem_iff.mpr hp)
  rest a ha := ho.rest a fun hmem ↦ ha ((hperm.map Prod.fst).mem_iff.mp hmem)
  grants := ho.grants

theorem Owns.trans {h' : Heap β} (ho : Owns base ps h) (ho' : Owns h qs h') :
    Owns base (ps ++ qs) h' where
  nodup := by
    rw [List.map_append]
    refine List.nodup_append.mpr ⟨ho.nodup, ho'.nodup, fun a hps b hqs hab ↦ ?_⟩
    subst hab
    obtain ⟨p, hp, rfl⟩ := List.mem_map.mp hps
    obtain ⟨q, hq, hpq⟩ := List.mem_map.mp hqs
    have hnone := ho'.new q hq
    rw [hpq, ho.held p hp] at hnone
    cases hnone
  new p hp := by
    obtain hp | hp := List.mem_append.mp hp
    · exact ho.new p hp
    · by_cases hmem : p.1 ∈ ps.map Prod.fst
      · obtain ⟨q, hq, hqp⟩ := List.mem_map.mp hmem
        rw [← hqp]
        exact ho.new q hq
      · rw [← ho.rest _ hmem]
        exact ho'.new p hp
  held p hp := by
    obtain hp | hp := List.mem_append.mp hp
    · have hnot : p.1 ∉ qs.map Prod.fst := by
        intro hmem
        obtain ⟨q, hq, hqp⟩ := List.mem_map.mp hmem
        have hnone := ho'.new q hq
        rw [hqp, ho.held p hp] at hnone
        cases hnone
      exact (ho'.rest _ hnot).trans (ho.held p hp)
    · exact ho'.held p hp
  rest a ha := by
    rw [List.map_append, List.mem_append, not_or] at ha
    exact (ho'.rest a ha.2).trans (ho.rest a ha.1)
  grants := ho'.grants.trans ho.grants

theorem Owns.next_notMem (ho : Owns base ps h) : h.next ∉ ps.map Prod.fst := by
  intro hmem
  obtain ⟨p, hp, hnext⟩ := List.mem_map.mp hmem
  have hlt := Heap.lt_next (ho.held p hp)
  omega

theorem Owns.alloc (ho : Owns base ps h) (b : β) : Owns base ((h.next, b) :: ps) (h.alloc b) where
  nodup := List.nodup_cons.mpr ⟨ho.next_notMem, ho.nodup⟩
  new p hp := by
    obtain rfl | hp := List.mem_cons.mp hp
    · rw [← ho.rest _ ho.next_notMem]
      exact h.fresh _ (Nat.le_refl _)
    · exact ho.new p hp
  held p hp := by
    obtain rfl | hp := List.mem_cons.mp hp
    · exact Function.update_self ..
    · have hne : p.1 ≠ h.next := Nat.ne_of_lt (Heap.lt_next (ho.held p hp))
      exact (Function.update_of_ne hne ..).trans (ho.held p hp)
  rest x hx := by
    obtain ⟨hne, hx⟩ := not_or.mp (fun hmem ↦ hx (List.mem_cons.mpr hmem))
    exact (Function.update_of_ne hne ..).trans (ho.rest x hx)
  grants := ho.grants

theorem Owns.refuse (ho : Owns base ps h) : Owns base ps h.refuse :=
  ⟨ho.nodup, ho.new, ho.held, ho.rest, ho.grants⟩

theorem Owns.ne_head (ho : Owns base ((a, b) :: ps) h) {p : ℕ × β} (hp : p ∈ ps) : p.1 ≠ a := by
  rintro rfl
  exact (List.nodup_cons.mp ho.nodup).1 (List.mem_map.mpr ⟨p, hp, rfl⟩)

theorem Owns.put (ho : Owns base ((a, b) :: ps) h) (b' : β) (hlt : a < h.next) :
    Owns base ((a, b') :: ps) (h.put a (some b') hlt) where
  nodup := ho.nodup
  new p hp := by
    obtain rfl | hp := List.mem_cons.mp hp
    · exact ho.new (a, b) List.mem_cons_self
    · exact ho.new p (List.mem_cons_of_mem _ hp)
  held p hp := by
    obtain rfl | hp := List.mem_cons.mp hp
    · exact Function.update_self ..
    · have hne : p.1 ≠ a := ho.ne_head hp
      exact (Function.update_of_ne hne ..).trans (ho.held p (List.mem_cons_of_mem _ hp))
  rest x hx := by
    have hne : x ≠ a := fun heq ↦ hx (heq ▸ List.mem_cons_self)
    exact (Function.update_of_ne hne ..).trans (ho.rest x hx)
  grants := ho.grants

theorem Owns.drop (ho : Owns base ((a, b) :: ps) h) (hlt : a < h.next) :
    Owns base ps (h.put a none hlt) where
  nodup := (List.nodup_cons.mp ho.nodup).2
  new p hp := ho.new p (List.mem_cons_of_mem _ hp)
  held p hp := by
    have hne : p.1 ≠ a := ho.ne_head hp
    exact (Function.update_of_ne hne ..).trans (ho.held p (List.mem_cons_of_mem _ hp))
  rest x hx := by
    by_cases heq : x = a
    · subst x
      exact (Function.update_self ..).trans (ho.new (a, b) List.mem_cons_self).symm
    · refine (Function.update_of_ne heq ..).trans (ho.rest x fun hmem ↦ ?_)
      exact (List.mem_cons.mp hmem).elim heq hx
  grants := ho.grants

end Owns

namespace Prog

section OwnsRules

variable {base : Heap β} {ps : List (ℕ × β)} {w : ω} {h : Heap β} {a : ℕ} {b : β}

theorem spec_malloc {refused : ε} {Q : ℕ → ω → Heap β → Prop} {E : ε → ω → Heap β → Prop}
    (ho : Owns base ps h) (hQ : ∀ a h', Owns base ((a, b) :: ps) h' → Q a w h')
    (hE : ∀ h', Refused base ps h' → E refused w h') : Spec (malloc refused b) Q E w h := by
  unfold Spec malloc
  by_cases hgrant : h.grants h.next
  · simp only [if_pos hgrant]
    exact hQ _ _ (ho.alloc b)
  · simp only [if_neg hgrant]
    exact hE _ ⟨ho.refuse, h.next, by simpa [ho.grants] using hgrant⟩

theorem spec_tryMalloc {Q : Ptr → ω → Heap β → Prop} {E : ε → ω → Heap β → Prop}
    (ho : Owns base ps h) (hQ : ∀ a h', Owns base ((a, b) :: ps) h' → Q (some a) w h')
    (hnone : ∀ h', Refused base ps h' → Q none w h') : Spec (tryMalloc b) Q E w h := by
  unfold Spec tryMalloc
  by_cases hgrant : h.grants h.next
  · simp only [if_pos hgrant]
    exact hQ _ _ (ho.alloc b)
  · simp only [if_neg hgrant]
    exact hnone _ ⟨ho.refuse, h.next, by simpa [ho.grants] using hgrant⟩

theorem spec_mallocNext {refused : ε} {Q : ℕ → ω → Heap β → Prop} {E : ε → ω → Heap β → Prop}
    (ho : Owns base ps h)
    (hQ : base.grants h.next = true → ∀ h', Owns base ((h.next, b) :: ps) h' →
      h'.next = h.next + 1 → Q h.next w h')
    (hE : base.grants h.next = false → ∀ h', Owns base ps h' → h'.next = h.next + 1 →
      E refused w h') : Spec (malloc refused b) Q E w h := by
  unfold Spec malloc
  rw [ho.grants]
  by_cases hgrant : base.grants h.next
  · simp only [if_pos hgrant]
    exact hQ hgrant _ (ho.alloc b) rfl
  · simp only [if_neg hgrant]
    exact hE (by simpa using hgrant) _ ho.refuse rfl

theorem faults_free (ho : Owns base ps h) (hnew : base.cells a = none)
    (ha : a ∉ ps.map Prod.fst) : Faults (free a : Prog β ω ε Unit) w h := by
  have hnone : h.cells a = none := (ho.rest a ha).trans hnew
  unfold Faults free
  split
  · rename_i hb
    rw [hnone] at hb
    cases hb
  · rfl

theorem spec_load {Q : β → ω → Heap β → Prop} {E : ε → ω → Heap β → Prop} (ho : Owns base ps h)
    (hmem : (a, b) ∈ ps) (hQ : Q b w h) : Spec (load a) Q E w h := by
  have hb := ho.held _ hmem
  simp only at hb
  unfold Spec load
  simpa only [hb] using hQ

theorem spec_expect {o : Option α} {x : α} {Q : α → ω → Heap β → Prop}
    {E : ε → ω → Heap β → Prop} (ho : o = some x) (hQ : Q x w h) : Spec (expect o) Q E w h := by
  subst ho
  exact hQ

theorem modify_eq {f : β → β} (hb : h.cells a = some b) :
    (modify a f : Prog β ω ε Unit) w h = (.ok (), w, h.put a (some (f b)) (Heap.lt_next hb)) := by
  unfold modify
  split
  · rename_i b' hb'
    obtain rfl : b' = b := Option.some_inj.mp (hb'.symm.trans hb)
    rfl
  · rename_i hnone
    rw [hnone] at hb
    cases hb

theorem free_eq (hb : h.cells a = some b) :
    (free a : Prog β ω ε Unit) w h = (.ok (), w, h.put a none (Heap.lt_next hb)) := by
  unfold free
  split
  · rfl
  · rename_i hnone
    rw [hnone] at hb
    cases hb

theorem spec_modifyNext {f : β → β} {Q : Unit → ω → Heap β → Prop} {E : ε → ω → Heap β → Prop}
    (ho : Owns base ((a, b) :: ps) h)
    (hQ : ∀ h', Owns base ((a, f b) :: ps) h' → h'.next = h.next → Q () w h') :
    Spec (modify a f) Q E w h := by
  unfold Spec
  rw [modify_eq (ho.held (a, b) List.mem_cons_self)]
  exact hQ _ (ho.put _ _) rfl

theorem spec_freeNext {Q : Unit → ω → Heap β → Prop} {E : ε → ω → Heap β → Prop}
    (ho : Owns base ((a, b) :: ps) h)
    (hQ : ∀ h', Owns base ps h' → h'.next = h.next → Q () w h') :
    Spec (free a) Q E w h := by
  unfold Spec
  rw [free_eq (ho.held (a, b) List.mem_cons_self)]
  exact hQ _ (ho.drop _) rfl

theorem spec_modify {f : β → β} {Q : Unit → ω → Heap β → Prop} {E : ε → ω → Heap β → Prop}
    (ho : Owns base ((a, b) :: ps) h) (hQ : ∀ h', Owns base ((a, f b) :: ps) h' → Q () w h') :
    Spec (modify a f) Q E w h :=
  spec_modifyNext ho fun h' ho' _ ↦ hQ h' ho'

theorem spec_free {Q : Unit → ω → Heap β → Prop} {E : ε → ω → Heap β → Prop}
    (ho : Owns base ((a, b) :: ps) h) (hQ : ∀ h', Owns base ps h' → Q () w h') :
    Spec (free a) Q E w h :=
  spec_freeNext ho fun h' ho' _ ↦ hQ h' ho'

/-- Freeing owned blocks, each once and in any order, leaves the others. -/
theorem spec_freeAll {as : List ℕ} {Q : Unit → ω → Heap β → Prop} {E : ε → ω → Heap β → Prop}
    {qs : List (ℕ × β)} (ho : Owns base (ps ++ qs) h) (has : (ps.map Prod.fst).Perm as)
    (hQ : ∀ h', Owns base qs h' → Q () w h') : Spec (freeAll as) Q E w h := by
  induction as generalizing ps h with
  | nil =>
    rw [List.map_eq_nil_iff.mp has.eq_nil] at ho
    exact hQ h ho
  | cons a as ih =>
    obtain ⟨⟨a', b⟩, hmem, ha⟩ := List.mem_map.mp (has.mem_iff.mpr List.mem_cons_self)
    obtain rfl : a' = a := ha
    obtain ⟨left, right, rfl⟩ := List.append_of_mem hmem
    have hperm : (left ++ (a', b) :: right).Perm ((a', b) :: (left ++ right)) :=
      List.perm_middle
    have hrest : ((left ++ right).map Prod.fst).Perm as :=
      ((hperm.map Prod.fst).symm.trans has).cons_inv
    exact spec_bind (spec_free (ho.perm (hperm.append_right qs)) fun h' ho' ↦ ih ho' hrest)

end OwnsRules

end Prog

end MachineNotebook.Lib.HeapLogic
