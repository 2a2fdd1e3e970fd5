import Mathlib.Data.List.Basic
import Mathlib.Tactic.Linarith

namespace MachineNotebook.Lib.Run

variable {ι σ ω : Type*} (step : ι → σ → ω × σ)

/-- The state a deterministic machine reaches on a list of inputs. -/
def final : List ι → σ → σ
  | [], s => s
  | i :: is, s => final is (step i s).2

/-- The inputs of a run, each with the output it got. -/
def trace : List ι → σ → List (ι × ω)
  | [], _ => []
  | i :: is, s => (i, (step i s).1) :: trace is (step i s).2

/-- Every step of the run meets a condition on its input and the state before it. -/
def Along (P : ι → σ → Prop) : List ι → σ → Prop
  | [], _ => True
  | i :: is, s => P i s ∧ Along P is (step i s).2

instance Along.decidable (P : ι → σ → Prop) [∀ i s, Decidable (P i s)] :
    ∀ is s, Decidable (Along step P is s)
  | [], _ => isTrue trivial
  | i :: is, s =>
    have := Along.decidable P is (step i s).2
    inferInstanceAs (Decidable (P i s ∧ Along step P is (step i s).2))

def total (f : ι → σ → ℕ) : List ι → σ → ℕ
  | [], _ => 0
  | i :: is, s => f i s + total f is (step i s).2

@[simp] theorem final_nil (s : σ) : final step [] s = s := rfl

@[simp] theorem final_cons (i : ι) (is : List ι) (s : σ) :
    final step (i :: is) s = final step is (step i s).2 := rfl

@[simp] theorem trace_nil (s : σ) : trace step [] s = [] := rfl

@[simp] theorem trace_cons (i : ι) (is : List ι) (s : σ) :
    trace step (i :: is) s = (i, (step i s).1) :: trace step is (step i s).2 := rfl

@[simp] theorem total_nil (f : ι → σ → ℕ) (s : σ) : total step f [] s = 0 := rfl

@[simp] theorem total_cons (f : ι → σ → ℕ) (i : ι) (is : List ι) (s : σ) :
    total step f (i :: is) s = f i s + total step f is (step i s).2 := rfl

theorem final_append (is js : List ι) (s : σ) :
    final step (is ++ js) s = final step js (final step is s) := by
  induction is generalizing s with
  | nil => rfl
  | cons i is ih => exact ih (step i s).2

theorem trace_append (is js : List ι) (s : σ) :
    trace step (is ++ js) s = trace step is s ++ trace step js (final step is s) := by
  induction is generalizing s with
  | nil => rfl
  | cons i is ih => simp only [List.cons_append, trace_cons, final_cons, ih]

variable {step}

theorem along_append {P : ι → σ → Prop} {is js : List ι} {s : σ} :
    Along step P (is ++ js) s ↔ Along step P is s ∧ Along step P js (final step is s) := by
  induction is generalizing s with
  | nil => simp [Along]
  | cons i is ih => simp only [List.cons_append, Along, final_cons, ih, and_assoc]

theorem Along.and {P Q : ι → σ → Prop} {is : List ι} {s : σ}
    (hp : Along step P is s) (hq : Along step Q is s) :
    Along step (fun i s ↦ P i s ∧ Q i s) is s := by
  induction is generalizing s with
  | nil => trivial
  | cons i is ih => exact ⟨⟨hp.1, hq.1⟩, ih hp.2 hq.2⟩

/-- What every step preserves under its condition, a run of such steps preserves. -/
theorem Along.invariant {P : ι → σ → Prop} {I : σ → Prop}
    (hstep : ∀ i s, P i s → I s → I (step i s).2) {is : List ι} {s : σ}
    (hp : Along step P is s) (hs : I s) : I (final step is s) := by
  induction is generalizing s with
  | nil => exact hs
  | cons i is ih => exact ih hp.2 (hstep i s hp.1 hs)

theorem trace_invariant {I : List (ι × ω) → σ → Prop}
    (hstep : ∀ tr i s, I tr s → I (tr ++ [(i, (step i s).1)]) (step i s).2) (is : List ι)
    {tr : List (ι × ω)} {s : σ} (hs : I tr s) : I (tr ++ trace step is s) (final step is s) := by
  induction is generalizing tr s with
  | nil => simpa using hs
  | cons i is ih =>
    have h := ih (hstep tr i s hs)
    rwa [List.append_assoc, List.singleton_append] at h

/-- A condition that holds in every state of an invariant holds along the run. -/
theorem Along.of_invariant {P Q : ι → σ → Prop} {I : σ → Prop}
    (hstep : ∀ i s, P i s → I s → I (step i s).2) (hQ : ∀ i s, P i s → I s → Q i s)
    {is : List ι} {s : σ} (hp : Along step P is s) (hs : I s) : Along step Q is s := by
  induction is generalizing s with
  | nil => trivial
  | cons i is ih => exact ⟨hQ i s hp.1 hs, ih hp.2 (hstep i s hp.1 hs)⟩

theorem invariant {I : σ → Prop} (hstep : ∀ i s, I s → I (step i s).2)
    (is : List ι) {s : σ} (hs : I s) : I (final step is s) := by
  induction is generalizing s with
  | nil => exact hs
  | cons i is ih => exact ih (hstep i s hs)

/-- Where a step leads to `J` exactly under its condition, which keeps the invariant, a run stays in
`J` exactly if its steps meet the condition. -/
theorem along_iff_prefixes_of_kept {P : ι → σ → Prop} {I J : σ → Prop}
    (hstep : ∀ i s, I s → P i s → I (step i s).2) (hJ : ∀ i s, I s → (J (step i s).2 ↔ P i s))
    {is : List ι} {s : σ} (hs : I s) (hs' : J s) :
    (∀ pre, pre <+: is → J (final step pre s)) ↔ Along step P is s := by
  induction is generalizing s with
  | nil => simpa [Along] using hs'
  | cons i is ih =>
    constructor
    · intro h
      have hi : J (step i s).2 := h [i] (by simp)
      have hcond := (hJ i s hs).mp hi
      refine ⟨hcond, (ih (hstep i s hs hcond) hi).mp fun pre hpre ↦ ?_⟩
      exact h (i :: pre) (List.cons_prefix_cons.mpr ⟨rfl, hpre⟩)
    · intro halong pre hpre
      obtain ⟨hi, his⟩ := halong
      cases pre with
      | nil => exact hs'
      | cons j pre =>
        obtain ⟨rfl, htail⟩ := List.cons_prefix_cons.mp hpre
        exact (ih (hstep j s hs hi) ((hJ j s hs).mpr hi)).mpr his pre htail

theorem along_iff_prefixes {P : ι → σ → Prop} {I J : σ → Prop}
    (hstep : ∀ i s, I s → I (step i s).2) (hJ : ∀ i s, I s → J s → (J (step i s).2 ↔ P i s))
    {is : List ι} {s : σ} (hs : I s) (hs' : J s) :
    (∀ pre, pre <+: is → J (final step pre s)) ↔ Along step P is s := by
  refine along_iff_prefixes_of_kept (I := fun s ↦ I s ∧ J s) (fun i s h hi ↦ ?_)
    (fun i s h ↦ hJ i s h.1 h.2) ⟨hs, hs'⟩ hs'
  exact ⟨hstep i s h.1, (hJ i s h.1 h.2).mpr hi⟩

/-- What a run meets at every step, read off the ways to split its inputs at one of them. -/
theorem along_iff_splits {P : ι → σ → Prop} {is : List ι} {s : σ} :
    Along step P is s ↔ ∀ pre i post, is = pre ++ i :: post → P i (final step pre s) := by
  induction is generalizing s with
  | nil => simp [Along]
  | cons i is ih =>
    rw [Along, ih]
    constructor
    · rintro ⟨hi, his⟩ pre j post heq
      cases pre with
      | nil =>
        obtain ⟨rfl, -⟩ := List.cons.inj heq
        exact hi
      | cons k pre =>
        obtain ⟨rfl, htail⟩ := List.cons.inj heq
        exact his pre j post htail
    · intro h
      refine ⟨h [] i is rfl, fun pre j post heq ↦ ?_⟩
      exact h (i :: pre) j post (by rw [heq, List.cons_append])

theorem along_congr {P Q : ι → σ → Prop} {I : σ → Prop}
    (hstep : ∀ i s, I s → P i s → I (step i s).2) (hPQ : ∀ i s, I s → (P i s ↔ Q i s))
    {is : List ι} {s : σ} (hs : I s) : Along step P is s ↔ Along step Q is s := by
  induction is generalizing s with
  | nil => exact Iff.rfl
  | cons i is ih =>
    constructor
    · intro h
      obtain ⟨hi, his⟩ := h
      exact ⟨(hPQ i s hs).mp hi, (ih (hstep i s hs hi)).mp his⟩
    · intro h
      obtain ⟨hi, his⟩ := h
      have hp := (hPQ i s hs).mpr hi
      exact ⟨hp, (ih (hstep i s hs hp)).mpr his⟩

section Projection

variable {τ ξ : Type*} {step' : ι → τ → ξ × τ} {π : τ → σ}

theorem final_proj (hπ : ∀ i t, π (step' i t).2 = (step i (π t)).2) (is : List ι) (t : τ) :
    π (final step' is t) = final step is (π t) := by
  induction is generalizing t with
  | nil => rfl
  | cons i is ih => rw [final_cons, final_cons, ih, hπ]

/-- A run with more in its state meets what the run it contains meets. -/
theorem Along.lift {P : ι → σ → Prop} (hπ : ∀ i t, π (step' i t).2 = (step i (π t)).2)
    {is : List ι} {t : τ} (h : Along step P is (π t)) :
    Along step' (fun i t ↦ P i (π t)) is t := by
  induction is generalizing t with
  | nil => trivial
  | cons i is ih => exact ⟨h.1, ih (by rw [hπ]; exact h.2)⟩

end Projection

/-- A counter that every step raises by the step's own amount stays within the
bound that the whole run keeps to. -/
theorem along_of_total {f : ι → σ → ℕ} {c : σ → ℕ} {bound : ℕ} {I : σ → Prop}
    (hstep : ∀ i s, I s → c s + f i s < bound →
      I (step i s).2 ∧ c (step i s).2 = c s + f i s)
    {is : List ι} {s : σ} (hs : I s) (h : c s + total step f is s < bound) :
    Along step (fun i s ↦ I s ∧ c s + f i s < bound) is s := by
  induction is generalizing s with
  | nil => trivial
  | cons i is ih =>
    simp only [total_cons] at h
    have hlt : c s + f i s < bound := by omega
    obtain ⟨hs', hc⟩ := hstep i s hs hlt
    exact ⟨⟨hs, hlt⟩, ih hs' (by omega)⟩

end MachineNotebook.Lib.Run
