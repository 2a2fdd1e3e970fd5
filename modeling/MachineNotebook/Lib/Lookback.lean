import Mathlib.Data.List.Basic

namespace MachineNotebook.Lib.Lookback

variable {α β : Type*} (emit : Option α → α → List β)

/-- A pass over a list that sees each element with the one before it. -/
def scan : Option α → List α → List β
  | _, [] => []
  | prev, a :: as => emit prev a ++ scan (some a) as

def scanChunks (chunks : List (List α)) : List β := chunks.flatMap (scan emit none)

theorem getLast?_or (as bs : List α) (prev : Option α) :
    (as ++ bs).getLast?.or prev = bs.getLast?.or (as.getLast?.or prev) := by
  rw [List.getLast?_append, Option.or_assoc]

theorem scan_append (prev : Option α) (as bs : List α) :
    scan emit prev (as ++ bs) = scan emit prev as ++ scan emit (as.getLast?.or prev) bs := by
  induction as generalizing prev with
  | nil => rfl
  | cons a as ih =>
    have hlast : (a :: as).getLast?.or prev = as.getLast?.or (some a) := by
      simpa using getLast?_or [a] as prev
    simp only [List.cons_append, scan, ih, hlast, List.append_assoc]

/-- What an element emits at the front of a chunk is what it emits behind `p`, or shows
that it is not whatever follows. -/
def Separated : Prop := ∀ p a, emit none a = emit (some p) a ∨
  ∀ bs bs', emit none a ++ bs ≠ emit (some p) a ++ bs'

/-- No chunk ends before an element that emits something else behind the last one. -/
def CutsApart (prev : Option α) (chunks : List (List α)) : Prop :=
  ∀ pre post, chunks = pre ++ post → ∀ p ∈ pre.flatten.getLast?.or prev,
    ∀ a ∈ post.flatten.head?, emit none a = emit (some p) a

variable {emit}

theorem cutsApart_cons {prev : Option α} {c : List α} {chunks : List (List α)} :
    CutsApart emit prev (c :: chunks) ↔
      (∀ p ∈ prev, ∀ a ∈ (c ++ chunks.flatten).head?, emit none a = emit (some p) a) ∧
        CutsApart emit (c.getLast?.or prev) chunks := by
  constructor
  · intro h
    refine ⟨h [] (c :: chunks) rfl, fun pre post hsplit ↦ ?_⟩
    rw [← getLast?_or]
    exact h (c :: pre) post (by rw [hsplit, List.cons_append])
  · intro h pre post hsplit
    obtain ⟨hfront, hrest⟩ := h
    cases pre with
    | nil =>
      rw [List.nil_append] at hsplit
      subst hsplit
      exact hfront
    | cons c' pre =>
      obtain ⟨rfl, hsplit'⟩ := List.cons_eq_cons.mp hsplit
      rw [List.flatten_cons, getLast?_or]
      exact hrest pre post hsplit'

theorem scan_front (hsep : Separated emit) (prev : Option α) (a : α) (as : List α)
    (bs bs' : List β) :
    scan emit none (a :: as) ++ bs = scan emit prev (a :: as) ++ bs' ↔
      (∀ p ∈ prev, emit none a = emit (some p) a) ∧ bs = bs' := by
  cases prev with
  | none => simp
  | some p =>
    simp only [scan, Option.mem_def, Option.some.injEq, forall_eq']
    rcases hsep p a with heq | hne
    · simp [heq]
    · constructor
      · intro h
        rw [List.append_assoc, List.append_assoc] at h
        exact absurd h (hne _ _)
      · intro h
        rw [h.1, h.2]

theorem scan_eq_iff (hsep : Separated emit) (prev : Option α) (as : List α) :
    scan emit none as = scan emit prev as ↔
      ∀ p ∈ prev, ∀ a ∈ as.head?, emit none a = emit (some p) a := by
  cases as with
  | nil => simp [scan]
  | cons a as => simpa using scan_front hsep prev a as [] []

/-- The passes over the chunks are the pass over the whole exactly when every chunk ends
where the next element emits the same as at the front. -/
theorem scanChunks_iff (hsep : Separated emit) (prev : Option α) (chunks : List (List α)) :
    scanChunks emit chunks = scan emit prev chunks.flatten ↔ CutsApart emit prev chunks := by
  induction chunks generalizing prev with
  | nil => simp [scanChunks, scan, CutsApart]
  | cons c chunks ih =>
    rw [cutsApart_cons, ← ih, List.flatten_cons, scan_append]
    cases c with
    | nil =>
      have hcuts := fun h ↦ (ih prev).mp h [] chunks rfl
      simp only [scanChunks, List.flatMap_cons, scan, List.nil_append, List.getLast?_nil,
        Option.none_or]
      exact ⟨fun h ↦ ⟨hcuts h, h⟩, And.right⟩
    | cons a as =>
      have hpasses : scanChunks emit ((a :: as) :: chunks) =
          scan emit none (a :: as) ++ scanChunks emit chunks := rfl
      rw [hpasses, scan_front hsep]
      simp

end MachineNotebook.Lib.Lookback
