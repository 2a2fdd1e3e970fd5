import MachineNotebook.Lib.Run

namespace MachineNotebook.Lib.Isolation

open Run

variable {ι σ ω δ : Type*} {step : ι → σ → ω × σ} {part : σ → δ} {mine : ι → Bool}

/-- A part of the state that the steps of others leave alone, and that decides what its own steps
do to it and answer. `I` is what the frame condition needs of a state. -/
structure Isolated (step : ι → σ → ω × σ) (part : σ → δ) (mine : ι → Bool) (I : σ → Prop) :
    Prop where
  frame : ∀ i s, I s → mine i = false → part (step i s).2 = part s
  own : ∀ i s t, mine i = true → part s = part t →
    (step i s).1 = (step i t).1 ∧ part (step i s).2 = part (step i t).2

/-- Without the steps of others, the part comes to the same and its own steps answer the same. -/
theorem Isolated.run {I : σ → Prop} (hiso : Isolated step part mine I) {is : List ι} {s t : σ}
    (hI : Along step (fun _ s ↦ I s) is s) (hst : part s = part t) :
    part (final step is s) = part (final step (is.filter mine) t) ∧
      (trace step is s).filter (fun io ↦ mine io.1) = trace step (is.filter mine) t := by
  induction is generalizing s t with
  | nil => exact ⟨hst, rfl⟩
  | cons i is ih =>
    by_cases hmine : mine i = true
    · obtain ⟨hout, hpart⟩ := hiso.own i s t hmine hst
      obtain ⟨hfinal, htrace⟩ := ih hI.2 hpart
      simp only [List.filter_cons, hmine, if_true, trace_cons, final_cons]
      exact ⟨hfinal, by rw [htrace, hout]⟩
    · have hothers : mine i = false := eq_false_of_ne_true hmine
      have hpart := hiso.frame i s hI.1 hothers
      obtain ⟨hfinal, htrace⟩ := ih hI.2 (hpart.trans hst)
      simp only [List.filter_cons, hothers, Bool.false_eq_true, if_false, trace_cons, final_cons]
      exact ⟨hfinal, htrace⟩

end MachineNotebook.Lib.Isolation
