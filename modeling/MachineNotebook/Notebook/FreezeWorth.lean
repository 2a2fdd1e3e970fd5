import MachineNotebook.Notebook.FreezeCrop

namespace MachineNotebook.Notebook.FreezeWorth

open MachineNotebook.Vt.Frame FreezePolicy FreezeCrop

def HasReal (f : VtFrame) : Prop := ∃ y < f.rows, isReal f y = true

/-- A frame is worth freezing for a row that is neither blank nor a bare prompt, and what it is
frozen to is worth as much. -/
structure Judged (f : VtFrame) (worth : Bool) : Prop where
  decided : isWorthFreezing f = some worth
  real : worth = true ↔ HasReal f
  frozen : ∃ g, apply f = some g ∧ isWorthFreezing g = some worth

variable {f g : VtFrame} {y : ℕ}

theorem hasInk_iff : hasInk f = true ↔ HasText f := by simp [hasInk, HasText]

theorem HasReal.text (hwf : WellFormed f) (hreal : HasReal f) : HasText f := by
  obtain ⟨y, hy, hreal⟩ := hreal
  rw [inked_iff hwf]
  intro hzero
  rw [isReal_of_not_inked (countTo_eq_zero.mp hzero y hy)] at hreal
  cases hreal

theorem rowWorth_eq (hwf : WellFormed f) (hy : y < f.rows) :
    (do
      let t := Dart.Text.trim (← rowText f y)
      if t = [] then return false
      return !(← rowIsBarePrompt f y)) = some (isReal f y) := by
  obtain ⟨text, htext, hline⟩ := rowText_eq hwf hy
  rw [htext]
  simp only [Option.bind_eq_bind, Option.bind_some, hline, rowIsBarePrompt_eq hwf hy]
  by_cases hempty : rowLine f y = []
  · simp [isReal, hempty]
  · simp [hempty]

theorem one_le_rows (hwf : WellFormed f) (htext : HasText f) : 1 ≤ f.rows := by
  have hle := countTo_le (isInked f) f.rows
  have hne := (inked_iff hwf).mp htext
  omega

theorem any_kept_iff (hrows : 1 ≤ f.rows) :
    (List.range (max 1 (realRows f))).any (isReal f) = true ↔ HasReal f := by
  rw [List.any_eq_true]
  constructor
  · intro h
    obtain ⟨y, hy, hreal⟩ := h
    have hle : realRows f ≤ f.rows := countTo_le _ _
    have hlt := List.mem_range.mp hy
    exact ⟨y, by omega, hreal⟩
  · intro h
    obtain ⟨y, hy, hreal⟩ := h
    have hlt : y < realRows f := by
      by_contra hle
      have hfalse : isReal f y = false := false_of_countTo_le (Nat.le_of_not_lt hle) hy
      rw [hfalse] at hreal
      cases hreal
    exact ⟨y, List.mem_range.mpr (by omega), hreal⟩

theorem isWorthFreezing_text (hwf : WellFormed f) (htext : HasText f) :
    isWorthFreezing f = some ((List.range (max 1 (realRows f))).any (isReal f)) := by
  have hrows := one_le_rows hwf htext
  have hle : realRows f ≤ f.rows := countTo_le _ _
  have hrow : ∀ y ∈ List.range (max 1 (realRows f)), _ = some (isReal f y) := fun y hy ↦
    rowWorth_eq hwf (by have := List.mem_range.mp hy; omega)
  rw [isWorthFreezing, hasInk_iff.mpr htext, (usedRowsForFreeze_eq hwf).1 htext]
  simp only [Bool.not_true, Bool.false_eq_true, if_false, Option.bind_eq_bind, Option.bind_some]
  rw [if_neg (by omega)]
  exact anyM_some hrow

theorem isWorthFreezing_noText (hnone : ¬HasText f) : isWorthFreezing f = some false := by
  have hink : hasInk f = false := by rwa [← Bool.not_eq_true, hasInk_iff]
  rw [isWorthFreezing, hink]
  rfl

theorem exists_worth (hwf : WellFormed f) :
    ∃ worth, isWorthFreezing f = some worth ∧ (worth = true ↔ HasReal f) := by
  by_cases htext : HasText f
  · exact ⟨_, isWorthFreezing_text hwf htext, any_kept_iff (one_le_rows hwf htext)⟩
  · refine ⟨false, isWorthFreezing_noText htext, ?_⟩
    have hnone : ¬HasReal f := fun hreal ↦ htext (hreal.text hwf)
    simpa using hnone

theorem hasReal_cropped (hwf : WellFormed f) (htext : HasText f) (hcrop : Cropped f g) :
    HasReal g ↔ HasReal f := by
  rw [← any_kept_iff (one_le_rows hwf htext), ← hcrop.rows, List.any_eq_true]
  constructor
  · intro h
    obtain ⟨y, hy, hreal⟩ := h
    rw [hcrop.isReal_eq hy] at hreal
    exact ⟨y, List.mem_range.mpr hy, hreal⟩
  · intro h
    obtain ⟨y, hy, hreal⟩ := h
    have hlt := List.mem_range.mp hy
    rw [← hcrop.isReal_eq hlt] at hreal
    exact ⟨y, hlt, hreal⟩

/-- A well-formed frame is worth freezing exactly if one of its rows is real, and cropping it
changes nothing about that. -/
theorem worth_iff_real (f : VtFrame) (hwf : WellFormed f) : ∃ worth, Judged f worth := by
  obtain ⟨worth, hworth, hreal⟩ := exists_worth hwf
  refine ⟨worth, hworth, hreal, ?_⟩
  by_cases htext : HasText f
  · obtain ⟨g, hg, hcrop⟩ := apply_cropped hwf htext
    obtain ⟨worth', hworth', hreal'⟩ := exists_worth (hcrop.wellFormed hwf)
    have hsame : worth' = worth := by
      rw [Bool.eq_iff_iff, hreal', hreal, hasReal_cropped hwf htext hcrop]
    exact ⟨g, hg, hsame ▸ hworth'⟩
  · have hnone : ¬HasText (withoutCursor f) := htext
    have hfalse := isWorthFreezing_noText htext
    obtain rfl : false = worth := Option.some.inj (hfalse.symm.trans hworth)
    exact ⟨withoutCursor f, apply_withoutCursor hwf htext, isWorthFreezing_noText hnone⟩

theorem worth_promptFrame : WellFormed promptFrame ∧ ∃ worth, Judged promptFrame worth :=
  ⟨⟨by decide, rfl⟩, worth_iff_real promptFrame ⟨by decide, rfl⟩⟩

end MachineNotebook.Notebook.FreezeWorth
