import MachineNotebook.Lib.HeapLogic

namespace MachineNotebook.Lib.ForeignCall

open HeapLogic HeapLogic.Prog

variable {β ω ε A B S R R' α γ : Type}

/-- An allocation was refused before anything was done to the world. -/
def RanOut (refused : ε) (base : Heap β) (w : ω) (e : ε) (w' : ω) (h : Heap β) : Prop :=
  e = refused ∧ w' = w ∧ ∃ ps, Refused base ps h

def Fetches (blocks : List (ℕ × β)) (p : Prog β ω ε α) (x : α) : Prop :=
  ∀ base ps w h E, Owns base ps h → blocks ⊆ ps →
    Spec p (fun a w' h' ↦ a = x ∧ w' = w ∧ h' = h) E w h

/-- This gives the blocks back, and changes nothing else. -/
def Frees (blocks : List (ℕ × β)) (p : Prog β ω ε Unit) : Prop :=
  ∀ base ps w h (Q : Unit → ω → Heap β → Prop) E, Owns base (blocks ++ ps) h →
    (∀ h', Owns base ps h' → Q () w h') → Spec p Q E w h

/-- This makes new blocks of which `Held` is true, unless it runs out of memory. -/
def Makes (refused : ε) (p : Prog β ω ε α) (Held : α → List (ℕ × β) → Prop) : Prop :=
  ∀ base ps w h, Owns base ps h →
    Spec p (fun a w' h' ↦ w' = w ∧ ∃ blocks, Held a blocks ∧ Owns base (blocks ++ ps) h')
      (RanOut refused base w) w h

/-- A value that the caller lays out in memory, where the callee reads it. -/
structure Argument (β ω : Type) {ε : Type} (refused : ε) (A : Type) where
  Handle : Type
  value : A
  pack : Prog β ω ε Handle
  read : Handle → Prog β ω ε A
  free : Handle → Prog β ω ε Unit
  Packed : Handle → List (ℕ × β) → Prop
  packs : Makes refused pack Packed
  reads : ∀ p blocks, Packed p blocks → Fetches blocks (read p) value
  frees : ∀ p blocks, Packed p blocks → Frees blocks (free p)

/-- Room that the caller makes for an answer `R`: the callee stores it there, which may fail with
a status, and the caller reads what it makes of it. -/
structure Result (β ω : Type) {ε : Type} (refused : ε) (S R α : Type) where
  Handle : Type
  status : R → S
  value : R → α
  alloc : Prog β ω ε Handle
  store : Handle → R → Prog β ω ε S
  read : Handle → Prog β ω ε α
  free : Handle → Prog β ω ε Unit
  Held : Handle → Option R → List (ℕ × β) → Prop
  allocs : Makes refused alloc fun s ↦ Held s none
  stores : ∀ s r blocks base ps w h E, Held s none blocks → Owns base (blocks ++ ps) h →
    Spec (store s r) (fun rc w' h' ↦ rc = status r ∧ w' = w ∧
      ∃ blocks', Held s (some r) blocks' ∧ Owns base (blocks' ++ ps) h') E w h
  reads : ∀ s r blocks, Held s (some r) blocks → Fetches blocks (read s) (value r)
  frees : ∀ s o blocks, Held s o blocks → Frees blocks (free s)

section Rules

variable {refused : ε}

theorem Fetches.mono {blocks qs : List (ℕ × β)} {p : Prog β ω ε α} {x : α}
    (hp : Fetches blocks p x) (hsub : blocks ⊆ qs) : Fetches qs p x :=
  fun base ps w h E ho hqs ↦ hp base ps w h E ho (List.Subset.trans hsub hqs)

theorem fetches_pure (blocks : List (ℕ × β)) (x : α) :
    Fetches blocks (pure x : Prog β ω ε α) x :=
  fun _ _ _ _ _ _ _ ↦ spec_pure ⟨rfl, rfl, rfl⟩

theorem Fetches.bind {blocks : List (ℕ × β)} {p : Prog β ω ε α} {f : α → Prog β ω ε γ} {x : α}
    {y : γ} (hp : Fetches blocks p x) (hf : Fetches blocks (f x) y) :
    Fetches blocks (p >>= f) y := by
  intro base ps w h E ho hsub
  refine (hp base ps w h E ho hsub).bind fun a w' h' hr ↦ ?_
  obtain ⟨rfl, rfl, rfl⟩ := hr
  exact hf base ps w' h' E ho hsub

theorem frees_pure : Frees [] (pure () : Prog β ω ε Unit) :=
  fun _ _ _ h _ _ ho hQ ↦ spec_pure (hQ h ho)

def Split (P Q : List (ℕ × β) → Prop) (blocks : List (ℕ × β)) : Prop :=
  ∃ xs ys, blocks.Perm (xs ++ ys) ∧ P xs ∧ Q ys

variable {P Q : List (ℕ × β) → Prop} {blocks : List (ℕ × β)}

theorem Split.fetches_left (hsplit : Split P Q blocks) {p : Prog β ω ε α} {x : α}
    (hp : ∀ xs, P xs → Fetches xs p x) : Fetches blocks p x := by
  obtain ⟨xs, ys, hperm, hxs, -⟩ := hsplit
  exact (hp xs hxs).mono (List.Subset.trans (List.subset_append_left ..) hperm.symm.subset)

theorem Split.fetches_right (hsplit : Split P Q blocks) {q : Prog β ω ε α} {x : α}
    (hq : ∀ ys, Q ys → Fetches ys q x) : Fetches blocks q x := by
  obtain ⟨xs, ys, hperm, -, hys⟩ := hsplit
  exact (hq ys hys).mono (List.Subset.trans (List.subset_append_right ..) hperm.symm.subset)

theorem Split.frees (hsplit : Split P Q blocks) {p q : Prog β ω ε Unit}
    (hp : ∀ xs, P xs → Frees xs p) (hq : ∀ ys, Q ys → Frees ys q) :
    Frees blocks
      (do
        p
        q) := by
  obtain ⟨xs, ys, hperm, hxs, hys⟩ := hsplit
  intro base ps w h R E ho hR
  have ho := ho.perm (hperm.append_right ps)
  rw [List.append_assoc] at ho
  exact spec_bind (hp xs hxs base (ys ++ ps) w h _ E ho fun h' ho' ↦
    hq ys hys base ps w h' R E ho' hR)

theorem Makes.pair {p : Prog β ω ε α} {q : Prog β ω ε γ} {Held : α → List (ℕ × β) → Prop}
    {Held' : γ → List (ℕ × β) → Prop} (hp : Makes refused p Held) (hq : Makes refused q Held') :
    Makes refused
      (do
        let a ← p
        let b ← q
        return (a, b)) fun ab ↦ Split (Held ab.1) (Held' ab.2) := by
  intro base ps w h ho
  refine (hp base ps w h ho).bind fun a w' h' hmade ↦ ?_
  obtain ⟨rfl, xs, hheld, ho'⟩ := hmade
  refine spec_bind ((hq base (xs ++ ps) w' h' ho').mono ?_ fun _ _ _ hout ↦ hout)
  intro b w' h' hmade
  obtain ⟨rfl, ys, hheld', ho'⟩ := hmade
  rw [← List.append_assoc] at ho'
  exact spec_pure ⟨rfl, ys ++ xs, ⟨xs, ys, List.perm_append_comm, hheld, hheld'⟩, ho'⟩

theorem makes_malloc (b : β) :
    Makes (ω := ω) refused (malloc refused b) fun a blocks ↦ blocks = [(a, b)] := by
  intro base ps w h ho
  refine spec_malloc ho (fun a h' ho' ↦ ⟨rfl, [(a, b)], rfl, ho'⟩) fun h' hrefused ↦ ?_
  exact ⟨rfl, rfl, ps, hrefused⟩

theorem frees_free (a : ℕ) (b : β) : Frees (ω := ω) (ε := ε) [(a, b)] (free a) :=
  fun _ _ _ _ _ _ ho hQ ↦ spec_free ho hQ

end Rules

section Combinators

variable {refused : ε}

namespace Argument

def none : Argument β ω refused Unit where
  Handle := Unit
  value := ()
  pack := pure ()
  read _ := pure ()
  free _ := pure ()
  Packed _ blocks := blocks = []
  packs _ _ _ h ho := spec_pure ⟨rfl, [], rfl, ho⟩
  reads _ _ _ := fetches_pure _ _
  frees := by
    intro _ blocks hblocks
    subst hblocks
    exact frees_pure

def pair (a : Argument β ω refused A) (b : Argument β ω refused B) :
    Argument β ω refused (A × B) where
  Handle := a.Handle × b.Handle
  value := (a.value, b.value)
  pack := do
    let p ← a.pack
    let q ← b.pack
    return (p, q)
  read p := do
    let x ← a.read p.1
    let y ← b.read p.2
    return (x, y)
  free p := do
    a.free p.1
    b.free p.2
  Packed p := Split (a.Packed p.1) (b.Packed p.2)
  packs := a.packs.pair b.packs
  reads p _ hpacked :=
    (hpacked.fetches_left (a.reads p.1)).bind
      ((hpacked.fetches_right (b.reads p.2)).bind (fetches_pure _ _))
  frees p _ hpacked := hpacked.frees (a.frees p.1) (b.frees p.2)

end Argument

namespace Result

variable (r : Result β ω refused S R α)

def unit (done : S) : Result β ω refused S R Unit where
  Handle := Unit
  status _ := done
  value _ := ()
  alloc := pure ()
  store _ _ := pure done
  read _ := pure ()
  free _ := pure ()
  Held _ _ blocks := blocks = []
  allocs _ _ _ h ho := spec_pure ⟨rfl, [], rfl, ho⟩
  stores _ _ _ _ _ _ _ _ hheld ho := spec_pure ⟨rfl, rfl, [], rfl, hheld ▸ ho⟩
  reads _ _ _ _ := fetches_pure _ _
  frees := by
    intro _ _ blocks hblocks
    subst hblocks
    exact frees_pure

def on (f : R' → R) : Result β ω refused S R' α where
  Handle := r.Handle
  status x := r.status (f x)
  value x := r.value (f x)
  alloc := r.alloc
  store s x := r.store s (f x)
  read := r.read
  free := r.free
  Held s o := r.Held s (o.map f)
  allocs := r.allocs
  stores s x := r.stores s (f x)
  reads s x := r.reads s (f x)
  frees s o := r.frees s (o.map f)

def map (f : α → γ) : Result β ω refused S R γ where
  Handle := r.Handle
  status := r.status
  value x := f (r.value x)
  alloc := r.alloc
  store := r.store
  read s := do return f (← r.read s)
  free := r.free
  Held := r.Held
  allocs := r.allocs
  stores := r.stores
  reads s x blocks hheld := (r.reads s x blocks hheld).bind (fetches_pure _ _)
  frees := r.frees

def silent (done : S) : Result β ω refused S R α where
  Handle := r.Handle
  status _ := done
  value := r.value
  alloc := r.alloc
  store s x := do
    let _ ← r.store s x
    return done
  read := r.read
  free := r.free
  Held := r.Held
  allocs := r.allocs
  stores := by
    intro s x blocks base ps w h E hheld ho
    refine (r.stores s x blocks base ps w h E hheld ho).bind fun rc w' h' hr ↦ ?_
    exact spec_pure ⟨rfl, hr.2⟩
  reads := r.reads
  frees := r.frees

theorem stores_left {r : Result β ω refused S R α} {s : r.Handle} {x : R}
    {P : List (ℕ × β) → Prop} {blocks : List (ℕ × β)} {base : Heap β} {ps : List (ℕ × β)} {w : ω}
    {h : Heap β} {f : S → Prog β ω ε γ} {Q : γ → ω → Heap β → Prop} {E : ε → ω → Heap β → Prop}
    (hheld : Split (r.Held s Option.none) P blocks) (ho : Owns base (blocks ++ ps) h)
    (hf : ∀ xs ys w' h', r.Held s (some x) xs → P ys → Owns base (ys ++ (xs ++ ps)) h' →
      w' = w → Spec (f (r.status x)) Q E w' h') : Spec (r.store s x >>= f) Q E w h := by
  obtain ⟨xs, ys, hperm, hs, hys⟩ := hheld
  have ho₁ : Owns base (xs ++ (ys ++ ps)) h := by
    rw [← List.append_assoc]
    exact ho.perm (hperm.append_right ps)
  refine (r.stores s x xs base (ys ++ ps) w h E hs ho₁).bind fun rc w' h' hr ↦ ?_
  obtain ⟨rfl, rfl, xs', hs', ho₂⟩ := hr
  refine hf xs' ys w' h' hs' hys (ho₂.perm ?_) rfl
  rw [← List.append_assoc, ← List.append_assoc]
  exact List.perm_append_comm.append_right ps

def both (join : S → S → S) (q : Result β ω refused S R γ) :
    Result β ω refused S R (α × γ) where
  Handle := r.Handle × q.Handle
  status x := join (r.status x) (q.status x)
  value x := (r.value x, q.value x)
  alloc := do
    let s ← r.alloc
    let t ← q.alloc
    return (s, t)
  store s x := do
    let rc ← r.store s.1 x
    let rc' ← q.store s.2 x
    return join rc rc'
  read s := do
    let a ← r.read s.1
    let b ← q.read s.2
    return (a, b)
  free s := do
    r.free s.1
    q.free s.2
  Held s o := Split (r.Held s.1 o) (q.Held s.2 o)
  allocs := r.allocs.pair q.allocs
  stores := by
    intro s x blocks base ps w h E hheld ho
    refine stores_left (r := r) hheld ho fun xs' ys w' h' hs ht ho' hw ↦ ?_
    subst hw
    refine (q.stores s.2 x ys base (xs' ++ ps) w' h' E ht ho').bind fun rc w' h' hr ↦ ?_
    obtain ⟨rfl, rfl, ys', ht', ho'⟩ := hr
    refine spec_pure ⟨rfl, rfl, ys' ++ xs', ⟨xs', ys', List.perm_append_comm, hs, ht'⟩, ?_⟩
    rwa [List.append_assoc]
  reads s x _ hheld :=
    (hheld.fetches_left (r.reads s.1 x)).bind
      ((hheld.fetches_right (q.reads s.2 x)).bind (fetches_pure _ _))
  frees s o _ hheld := hheld.frees (r.frees s.1 o) (q.frees s.2 o)

/-- A second place, which is written and read only where the first one says so. -/
def gate (isOpen : α → Bool) (sel : R → Option R') (q : Result β ω refused S R' γ)
    (hopen : ∀ x, isOpen (r.value x) = (sel x).isSome) :
    Result β ω refused S R (Option γ) where
  Handle := r.Handle × q.Handle
  status x := ((sel x).map q.status).getD (r.status x)
  value x := (sel x).map q.value
  alloc := do
    let s ← r.alloc
    let t ← q.alloc
    return (s, t)
  store s x := do
    let rc ← r.store s.1 x
    match sel x with
    | none => return rc
    | some y => q.store s.2 y
  read s := do
    let a ← r.read s.1
    if isOpen a then do return some (← q.read s.2) else return none
  free s := do
    r.free s.1
    q.free s.2
  Held s o := Split (r.Held s.1 o) (q.Held s.2 (o.bind sel))
  allocs := r.allocs.pair q.allocs
  stores := by
    intro s x blocks base ps w h E hheld ho
    refine stores_left (r := r) hheld ho fun xs' ys w' h' hs ht ho' hw ↦ ?_
    subst hw
    cases hsel : sel x with
    | none =>
      refine spec_pure ⟨rfl, rfl, ys ++ xs', ⟨xs', ys, List.perm_append_comm, hs, ?_⟩, ?_⟩
      · simpa only [Option.bind_some, Option.bind_none, hsel] using ht
      · rwa [List.append_assoc]
    | some y =>
      refine (q.stores s.2 y ys base (xs' ++ ps) w' h' E ht ho').mono ?_ fun _ _ _ hend ↦ hend
      intro rc w' h' hr
      obtain ⟨rfl, rfl, ys', ht', ho'⟩ := hr
      refine ⟨rfl, rfl, ys' ++ xs', ⟨xs', ys', List.perm_append_comm, hs, ?_⟩, ?_⟩
      · simpa only [Option.bind_some, hsel] using ht'
      · rwa [List.append_assoc]
  reads := by
    intro s x blocks hheld
    refine (hheld.fetches_left (r.reads s.1 x)).bind ?_
    rw [hopen]
    cases hsel : sel x with
    | none => exact fetches_pure _ _
    | some y =>
      refine Fetches.bind (hheld.fetches_right fun ys ht ↦ q.reads s.2 y ys ?_) (fetches_pure _ _)
      simpa only [Option.bind_some, hsel] using ht
  frees s o _ hheld := hheld.frees (r.frees s.1 o) (q.frees s.2 (o.bind sel))

end Result

end Combinators

section Exchange

variable {refused : ε} (arg : Argument β ω refused A) (res : Result β ω refused S R α)
  (serve : A → ω → Except S R × ω) (failure : S → ω → Option ε)

/-- The callee reads its arguments, serves the request and stores its answer. The caller looks at
the status and then reads, and gives all memory back on every way out. -/
def exchange : Prog β ω ε α := do
  let p ← arg.pack
  let s ← res.alloc
  ensure
    (do
      let a ← arg.read p
      let r ← world (serve a)
      let rc ← match r with
        | .ok x => res.store s x
        | .error rc => pure rc
      let e ← world fun w ↦ (failure rc w, w)
      match e with
      | some e => throw e
      | none => res.read s)
    (do
      arg.free p
      res.free s)

def plainExchange (w : ω) : Except ε α × ω :=
  match serve arg.value w with
  | (.ok x, w) =>
    match failure (res.status x) w with
    | some e => (.error e, w)
    | none => (.ok (res.value x), w)
  | (.error rc, w) => (.error ((failure rc w).getD refused), w)

/-- Memory only carries the arguments and the answer, where a request that was turned down does
not look like one that was served. -/
theorem exchange_refines
    (hfails : ∀ a w rc w', serve a w = (.error rc, w') → failure rc w' ≠ none) (w : ω)
    (h : Heap β) :
    Spec (exchange arg res serve failure)
      (fun a w' h' ↦ Owns h [] h' ∧ plainExchange arg res serve failure w = (.ok a, w'))
      (fun e w' h' ↦ (Owns h [] h' ∧ plainExchange arg res serve failure w = (.error e, w')) ∨
        RanOut refused h w e w' h') w h := by
  have hprepare {γ : Type} {step : Prog β ω ε γ} {Held : γ → List (ℕ × β) → Prop}
      {f : γ → Prog β ω ε α} {Q : α → ω → Heap β → Prop} {E : ε → ω → Heap β → Prop}
      {ps : List (ℕ × β)} {h₀ : Heap β} (hstep : Makes refused step Held)
      (ho : Owns h ps h₀)
      (hf : ∀ s blocks h', Held s blocks → Owns h (blocks ++ ps) h' →
        Spec (f s) Q (fun e w' h' ↦ E e w' h' ∨ RanOut refused h w e w' h') w h') :
      Spec (step >>= f) Q (fun e w' h' ↦ E e w' h' ∨ RanOut refused h w e w' h') w h₀ := by
    refine spec_bind ((hstep h ps w h₀ ho).mono ?_ fun _ _ _ hout ↦ Or.inr hout)
    intro s w' h' hmade
    obtain ⟨rfl, blocks, hheld, ho'⟩ := hmade
    exact hf s blocks h' hheld ho'
  refine hprepare arg.packs (Owns.start h) fun p xs h₁ hp ho₁ ↦ ?_
  refine hprepare res.allocs ho₁ fun s ys h₂ hs ho₂ ↦ ?_
  -- whatever became of the answer, its room and the arguments are given back
  have hfree (o : Option R) (ys : List (ℕ × β)) (w' : ω) (h' : Heap β) (Q : Unit → ω → Heap β → Prop)
      (E : ε → ω → Heap β → Prop) (hheld : res.Held s o ys) (ho : Owns h (ys ++ (xs ++ [])) h')
      (hQ : ∀ h', Owns h [] h' → Q () w' h') :
      Spec
        (do
          arg.free p
          res.free s) Q E w' h' := by
    have hsplit : Split (arg.Packed p) (res.Held s o) (ys ++ xs) :=
      ⟨xs, ys, List.perm_append_comm, hp, hheld⟩
    rw [← List.append_assoc] at ho
    exact hsplit.frees (arg.frees p) (res.frees s o) h [] w' h' Q E ho hQ
  refine spec_ensure ?_
  refine (arg.reads p xs hp h _ w h₂ _ ho₂ fun x hx ↦ by simp [hx]).bind fun a w' h' hr ↦ ?_
  obtain ⟨rfl, rfl, rfl⟩ := hr
  refine spec_bind (spec_world ?_)
  obtain ⟨r, w₁, hserve⟩ : ∃ r w₁, serve arg.value w' = (r, w₁) := ⟨_, _, rfl⟩
  simp only [hserve]
  cases r with
  | error rc =>
    refine spec_bind (spec_pure (spec_bind (spec_world ?_)))
    obtain ⟨e, he⟩ := Option.ne_none_iff_exists'.mp (hfails _ _ _ _ hserve)
    simp only [he]
    refine spec_throw (hfree none ys w₁ h' _ _ hs ho₂ fun h₃ ho₃ ↦ Or.inl ⟨ho₃, ?_⟩)
    simp only [plainExchange, hserve, he, Option.getD_some]
  | ok x =>
    refine (res.stores s x ys h _ w₁ h' _ hs ho₂).bind fun rc w₂ h₃ hr ↦ ?_
    obtain ⟨rfl, rfl, ys', hs', ho₃⟩ := hr
    refine spec_bind (spec_world ?_)
    cases he : failure (res.status x) w₂ with
    | some e =>
      refine spec_throw (hfree (some x) ys' w₂ h₃ _ _ hs' ho₃ fun h₄ ho₄ ↦ Or.inl ⟨ho₄, ?_⟩)
      simp only [plainExchange, hserve, he]
    | none =>
      refine (res.reads s x ys' hs' h _ w₂ h₃ _ ho₃ (List.subset_append_left ..)).mono ?_
        fun _ _ _ hend ↦ hend
      intro a w₃ h₄ hr
      obtain ⟨rfl, rfl, rfl⟩ := hr
      refine hfree (some x) ys' w₃ h₄ _ _ hs' ho₃ fun h₅ ho₅ ↦ ⟨ho₅, ?_⟩
      simp only [plainExchange, hserve, he]

end Exchange

end MachineNotebook.Lib.ForeignCall
