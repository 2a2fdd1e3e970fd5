import MachineNotebook.Lib.Run
import Mathlib.Data.List.Perm.Basic

namespace MachineNotebook.Lib.SelectiveQueue

open MachineNotebook.Lib

variable {α : Type*}

def popFront : List α → Option (α × List α)
  | [] => none
  | a :: q => some (a, q)

/-- The first element that a selective consumer accepts, taken out of its place. -/
def popFirst (p : α → Bool) (q : List α) : Option (α × List α) :=
  match q.findIdx? p with
  | none => none
  | some i => q[i]?.map fun a ↦ (a, q.eraseIdx i)

/-- One queue, read by one consumer that takes whatever stands first and by one
that takes the first element it selects. -/
def pop (p : α → Bool) (selective : Bool) (q : List α) : Option (α × List α) :=
  if selective then popFirst p q else popFront q

theorem popFirst_split {p : α → Bool} {q r : List α} {a : α} (h : popFirst p q = some (a, r)) :
    ∃ l₁ l₂, q = l₁ ++ a :: l₂ ∧ r = l₁ ++ l₂ ∧ p a ∧ ∀ b ∈ l₁, ¬p b := by
  induction q generalizing r with
  | nil => simp [popFirst] at h
  | cons b q ih =>
    by_cases hb : p b
    · simp only [popFirst, List.findIdx?_cons, hb, if_true, List.getElem?_cons_zero,
        Option.map_some, List.eraseIdx_cons_zero, Option.some.injEq, Prod.mk.injEq] at h
      obtain ⟨rfl, rfl⟩ := h
      exact ⟨[], q, rfl, rfl, hb, by simp⟩
    · cases hi : q.findIdx? p with
      | none => simp [popFirst, List.findIdx?_cons, hb, hi] at h
      | some i =>
        simp only [popFirst, List.findIdx?_cons, hb, hi, Option.map_some, Bool.false_eq_true,
          if_false, List.getElem?_cons_succ, List.eraseIdx_cons_succ, Option.map_eq_some_iff,
          Prod.mk.injEq] at h
        obtain ⟨c, hc, rfl, rfl⟩ := h
        obtain ⟨l₁, l₂, rfl, hr, ha, hl⟩ := ih (r := q.eraseIdx i) (by simp [popFirst, hi, hc])
        refine ⟨b :: l₁, l₂, rfl, by simp [hr], ha, ?_⟩
        intro d hd
        rcases List.mem_cons.mp hd with rfl | hd
        · exact hb
        · exact hl d hd

theorem pop_split {p : α → Bool} {sel : Bool} {q r : List α} {a : α}
    (h : pop p sel q = some (a, r)) :
    ∃ l₁ l₂, q = l₁ ++ a :: l₂ ∧ r = l₁ ++ l₂ ∧ (sel → p a) ∧
      ∀ b ∈ l₁, sel ∧ ¬p b := by
  cases sel with
  | true =>
    obtain ⟨l₁, l₂, hq, hr, ha, hl⟩ := popFirst_split (by simpa [pop] using h)
    exact ⟨l₁, l₂, hq, hr, fun _ ↦ ha, fun b hb ↦ ⟨rfl, hl b hb⟩⟩
  | false =>
    cases q with
    | nil => simp [pop, popFront] at h
    | cons b q =>
      simp only [pop, popFront, Bool.false_eq_true, if_false, Option.some.injEq,
        Prod.mk.injEq] at h
      obtain ⟨rfl, rfl⟩ := h
      exact ⟨[], q, rfl, rfl, by simp, by simp⟩

theorem pop_sum {p : α → Bool} {sel : Bool} {q r : List α} {a : α} (w : α → ℕ)
    (h : pop p sel q = some (a, r)) : (q.map w).sum = w a + (r.map w).sum := by
  obtain ⟨l₁, l₂, rfl, rfl, -, -⟩ := pop_split h
  simp only [List.map_append, List.map_cons, List.sum_append, List.sum_cons]
  omega

/-- A queue with its past: everything ever put in, and everything taken out with
the consumer that took it. -/
structure Delivery (α : Type*) where
  queue : List α
  enqueued : List α
  popped : List (Bool × α)

inductive Action (α : Type*)
  | push (a : α)
  | pop (selective : Bool)

def Delivery.act (p : α → Bool) : Action α → Delivery α → Delivery α
  | .push a, d => { d with queue := d.queue ++ [a], enqueued := d.enqueued ++ [a] }
  | .pop sel, d =>
    match SelectiveQueue.pop p sel d.queue with
    | none => d
    | some (a, q) => { d with queue := q, popped := d.popped ++ [(sel, a)] }

variable {p : α → Bool}

/-- Nothing is lost and nothing is delivered twice. -/
structure Delivery.Conserved (p : α → Bool) (d : Delivery α) : Prop where
  perm : (d.popped.map Prod.snd ++ d.queue).Perm d.enqueued
  selected : ∀ a, (true, a) ∈ d.popped → p a

theorem Delivery.conserved_step (i : Action α) (d : Delivery α) (h : d.Conserved p) :
    (d.act p i).Conserved p := by
  cases i with
  | push a =>
    refine ⟨?_, h.selected⟩
    simpa only [Delivery.act, List.append_assoc] using h.perm.append_right [a]
  | pop sel =>
    cases hp : SelectiveQueue.pop p sel d.queue with
    | none => simpa only [Delivery.act, hp] using h
    | some ar =>
      obtain ⟨a, r⟩ := ar
      obtain ⟨l₁, l₂, hq, hr, ha, -⟩ := pop_split hp
      simp only [Delivery.act, hp]
      constructor
      · have hm : (a :: (l₁ ++ l₂)).Perm d.queue := hq ▸ List.perm_middle.symm
        simpa [hr] using (hm.append_left (d.popped.map Prod.snd)).trans h.perm
      · intro b hb
        rcases List.mem_append.mp hb with hb | hb
        · exact h.selected b hb
        · simp only [List.mem_singleton, Prod.mk.injEq] at hb
          exact hb.2 ▸ ha hb.1.symm

theorem Delivery.act_enqueued (i : Action α) (d : Delivery α) :
    d.enqueued <+: (d.act p i).enqueued := by
  cases i with
  | push a => exact List.prefix_append d.enqueued [a]
  | pop sel =>
    cases hp : SelectiveQueue.pop p sel d.queue with
    | none => simp only [Delivery.act, hp, List.prefix_refl]
    | some ar => simp only [Delivery.act, hp, List.prefix_refl]

/-- In the class `f`, no selected element stands behind one that is not selected. -/
def Sorted (p f : α → Bool) (l : List α) : Prop := l.Pairwise fun a b ↦ f a → f b → p b → p a

instance (p f : α → Bool) (l : List α) : Decidable (Sorted p f l) :=
  inferInstanceAs (Decidable (List.Pairwise _ l))

theorem sorted_append {f : α → Bool} {l : List α} {a : α} :
    Sorted p f (l ++ [a]) ↔ Sorted p f l ∧ (f a → p a → ∀ b ∈ l, f b → p b) := by
  simp only [Sorted, List.pairwise_append, List.pairwise_singleton, true_and, List.mem_singleton,
    forall_eq]
  exact and_congr_right fun _ ↦ ⟨fun h ha hpa b hb hfb ↦ h b hb hfb ha hpa,
    fun h b hb hfb ha hpa ↦ h ha hpa b hb hfb⟩

/-- In the class `f`, what was taken followed by what is queued is what was put in. -/
structure Delivery.InOrder (p f : α → Bool) (d : Delivery α) : Prop where
  sorted : Sorted p f d.queue
  order : (d.popped.map Prod.snd).filter f ++ d.queue.filter f = d.enqueued.filter f

/-- A class stays in order as long as all that was ever put in is sorted. -/
theorem Delivery.inOrder_step {f : α → Bool} (i : Action α) (d : Delivery α)
    (hc : d.Conserved p) (hs : Sorted p f (d.act p i).enqueued) (h : d.InOrder p f) :
    (d.act p i).InOrder p f := by
  cases i with
  | push a =>
    constructor
    · refine sorted_append.mpr ⟨h.sorted, fun hfa hpa b hb hfb ↦ ?_⟩
      have hb' : b ∈ d.enqueued := hc.perm.subset (List.mem_append_right _ hb)
      exact (sorted_append.mp hs).2 hfa hpa b hb' hfb
    · simp only [Delivery.act, List.filter_append, ← h.order, List.append_assoc]
  | pop sel =>
    cases hp : SelectiveQueue.pop p sel d.queue with
    | none => simpa only [Delivery.act, hp] using h
    | some ar =>
      obtain ⟨a, r⟩ := ar
      obtain ⟨l₁, l₂, hq, hr, ha, hl⟩ := pop_split hp
      simp only [Delivery.act, hp]
      constructor
      · apply List.Pairwise.sublist _ h.sorted
        rw [hr, hq]
        exact (List.sublist_cons_self a l₂).append_left l₁
      -- an element of the class left in front would be unselected, against `sorted`
      · have hfront : f a → ∀ b ∈ l₁, f b = false := by
          intro hfa b hb
          have hs := h.sorted
          rw [hq, Sorted, List.pairwise_append] at hs
          by_contra hfb
          have hfb : f b = true := by simpa using hfb
          exact (hl b hb).2 (hs.2.2 b hb a (by simp) hfb hfa (ha (hl b hb).1))
        have ho := h.order
        by_cases hfa : f a
        · have hnil : l₁.filter f = [] := by
            simpa [List.filter_eq_nil_iff] using hfront hfa
          simpa [hq, hr, hfa, hnil, List.filter_append, List.append_assoc] using ho
        · simpa [hq, hr, hfa, List.filter_append] using ho

end MachineNotebook.Lib.SelectiveQueue
