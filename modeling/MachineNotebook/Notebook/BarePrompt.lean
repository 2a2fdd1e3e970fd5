import MachineNotebook.Notebook.FreezePolicy
import Mathlib.Data.List.Flatten
import Mathlib.Data.List.Sublists

namespace MachineNotebook.Notebook.BarePrompt

open MachineNotebook.Dart.Bindings Dart.Text Vt.Frame FreezePolicy

def frameText (f : VtFrame) : DartString := (f.cells.map VtCell.text).flatten

/-- No cell has text. -/
def Blank (f : VtFrame) : Prop := ∀ c ∈ f.cells, c.text = []

def PromptOnly (f : VtFrame) : Prop :=
  ∃ c₁ c₂ rest, f.cells = c₁ :: c₂ :: rest ∧ c₁.text = [0x24] ∧ c₂.text = [0x20] ∧
    ∀ c ∈ rest, c.text = []

def Bare (f : VtFrame) : Prop := Blank f ∨ PromptOnly f

theorem flatten_blank {cells : List VtCell} (h : ∀ c ∈ cells, c.text = []) :
    (cells.map VtCell.text).flatten = [] := by
  rw [List.flatten_eq_nil_iff]
  intro text hmem
  obtain ⟨c, hc, rfl⟩ := List.mem_map.mp hmem
  exact h c hc

theorem Bare.text {f : VtFrame} (h : Bare f) : (frameText f).Sublist [0x24, 0x20] := by
  rcases h with hblank | ⟨c₁, c₂, rest, hcells, h₁, h₂, hrest⟩
  · rw [frameText, flatten_blank hblank]
    exact List.nil_sublist _
  · rw [frameText, hcells, List.map_cons, List.map_cons, List.flatten_cons, List.flatten_cons,
      flatten_blank hrest, h₁, h₂]
    exact List.Sublist.refl _

theorem Bare.of_cells {f g : VtFrame} (h : Bare f) (hcells : g.cells = f.cells) : Bare g := by
  unfold Bare Blank PromptOnly
  rw [hcells]
  exact h

theorem mapM_cellText (f : VtFrame) (base n : ℕ) {texts : List DartString}
    (h : (List.range n).mapM (fun x ↦ cellText f (base + x)) = some texts) :
    texts = ((f.cells.drop base).take n).map VtCell.text := by
  induction n generalizing texts with
  | zero =>
    obtain rfl := Option.some.inj h
    rfl
  | succ n ih =>
    rw [List.range_succ, List.mapM_append] at h
    obtain ⟨init, hinit, h⟩ := Option.bind_eq_some_iff.mp h
    obtain ⟨last, hlast, h⟩ := Option.bind_eq_some_iff.mp h
    obtain rfl := Option.some.inj h
    rw [ih hinit, List.take_add_one, List.map_append, List.getElem?_drop]
    cases hcell : f.cells[base + n]? with
    | none =>
      rw [List.mapM_cons, cellText, hcell] at hlast
      cases hlast
    | some c =>
      rw [List.mapM_cons, cellText, hcell] at hlast
      obtain rfl := Option.some.inj hlast
      rfl

theorem rowText_sublist {f : VtFrame} {y : ℕ} {text : DartString} (h : rowText f y = some text) :
    text.Sublist (frameText f) := by
  unfold rowText at h
  split at h
  · obtain rfl := Option.some.inj h
    exact List.nil_sublist _
  · obtain ⟨texts, htexts, h⟩ := Option.bind_eq_some_iff.mp h
    obtain rfl := Option.some.inj h
    rw [mapM_cellText f _ _ htexts]
    refine (List.rdropWhile_prefix _ _).sublist.trans ?_
    exact (((List.take_sublist _ _).trans (List.drop_sublist _ _)).map _).flatten

theorem Bare.rowIsBarePrompt {f : VtFrame} (h : Bare f) (y : ℕ) :
    rowIsBarePrompt f y ≠ some false := by
  have hall : ∀ text ∈ List.sublists ([0x24, 0x20] : DartString), trim text ≠ [] →
      ((trim text).length ≤ 3 && (trim text).all fun u ↦ promptUnits.contains u) = true := by
    decide
  intro hrow
  obtain ⟨text, htext, hrow⟩ := Option.bind_eq_some_iff.mp hrow
  have hsub := (rowText_sublist htext).trans h.text
  dsimp only at hrow
  split at hrow
  · cases hrow
  · next hne =>
    have hprompt := hall text (List.mem_sublists.mpr hsub) hne
    obtain hno := Option.some.inj hrow
    rw [hprompt] at hno
    cases hno

theorem anyM_eq_true {α : Type} {p : α → Option Bool} {l : List α} (h : l.anyM p = some true) :
    ∃ a ∈ l, p a = some true := by
  induction l with
  | nil => cases h
  | cons a l ih =>
    rw [List.anyM_cons] at h
    obtain ⟨b, hb, h⟩ := Option.bind_eq_some_iff.mp h
    cases b with
    | true => exact ⟨a, List.mem_cons_self, hb⟩
    | false =>
      obtain ⟨a', hmem, ha'⟩ := ih h
      exact ⟨a', List.mem_cons_of_mem a hmem, ha'⟩

theorem Bare.not_worth {f : VtFrame} (h : Bare f) : isWorthFreezing f ≠ some true := by
  intro hworth
  unfold isWorthFreezing at hworth
  split at hworth
  · cases hworth
  · obtain ⟨used, -, hworth⟩ := Option.bind_eq_some_iff.mp hworth
    dsimp only at hworth
    split at hworth
    · cases hworth
    · obtain ⟨y, -, hy⟩ := anyM_eq_true hworth
      obtain ⟨text, -, hy⟩ := Option.bind_eq_some_iff.mp hy
      split at hy
      · cases hy
      · obtain ⟨bare, hbare, hy⟩ := Option.bind_eq_some_iff.mp hy
        have hno : bare = false := by simpa using Option.some.inj hy
        rw [hno] at hbare
        exact h.rowIsBarePrompt y hbare

end MachineNotebook.Notebook.BarePrompt
