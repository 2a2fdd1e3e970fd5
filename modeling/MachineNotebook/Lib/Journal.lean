import MachineNotebook.Lib.Run
import Mathlib.Data.List.Infix

namespace MachineNotebook.Lib.Journal

open Run

variable {ι σ ω α : Type*}

/-- A log that every step leaves in place, with what the step adds at its end. -/
def Appends (step : ι → σ → ω × σ) (log : σ → List α) (added : ι → σ → List α) : Prop :=
  ∀ i s, log (step i s).2 = log s ++ added i s

variable {step : ι → σ → ω × σ} {log : σ → List α} {added : ι → σ → List α}

theorem Appends.mono (h : Appends step log added) (is : List ι) (s : σ) :
    log s <+: log (final step is s) := by
  induction is generalizing s with
  | nil => exact List.prefix_refl _
  | cons i is ih =>
    refine List.IsPrefix.trans ?_ (ih (step i s).2)
    rw [h]
    exact List.prefix_append _ _

theorem getElem?_of_isPrefix {l l' : List α} (h : l <+: l') {k : ℕ} (hk : k < l.length) :
    l'[k]? = l[k]? := by
  obtain ⟨rest, rfl⟩ := h
  exact List.getElem?_append_left hk

/-- An entry that the run made was added by one of its steps, at the place it still has. -/
theorem Appends.origin (h : Appends step log added) {is : List ι} {s : σ} {k : ℕ} {a : α}
    (hs : (log s).length ≤ k) (hk : (log (final step is s))[k]? = some a) :
    ∃ pre i post j, is = pre ++ i :: post ∧ (log (final step pre s)).length + j = k ∧
      (added i (final step pre s))[j]? = some a := by
  induction is generalizing s with
  | nil =>
    rw [final_nil, List.getElem?_eq_none hs] at hk
    cases hk
  | cons i is ih =>
    by_cases hnext : (log (step i s).2).length ≤ k
    · obtain ⟨pre, i', post, j, rfl, hj, ha⟩ := ih hnext hk
      exact ⟨i :: pre, i', post, j, rfl, hj, ha⟩
    · rw [final_cons, getElem?_of_isPrefix (h.mono is (step i s).2) (by omega), h,
        List.getElem?_append_right hs] at hk
      exact ⟨[], i, is, k - (log s).length, rfl, Nat.add_sub_cancel' hs, hk⟩

theorem Appends.kept (h : Appends step log added) {pre post : List ι} {i : ι} {s : σ} {j : ℕ} {a : α}
    (ha : (added i (final step pre s))[j]? = some a) :
    (log (final step (pre ++ i :: post) s))[(log (final step pre s)).length + j]? = some a := by
  have hj : j < (added i (final step pre s)).length := (List.getElem?_eq_some_iff.mp ha).1
  rw [final_append, final_cons, getElem?_of_isPrefix (h.mono post _), h,
    List.getElem?_append_right (by omega), Nat.add_sub_cancel_left]
  · exact ha
  · rw [h, List.length_append]
    omega

end MachineNotebook.Lib.Journal
