import Mathlib.Data.List.Basic

namespace MachineNotebook.Lib.Lines

variable {α : Type*} {nl : α}

def IsLine (nl : α) (l : List α) : Prop := ∃ w, nl ∉ w ∧ l = w ++ [nl]

theorem IsLine.cons {a : α} {l : List α} (ha : a ≠ nl) (hl : IsLine nl l) : IsLine nl (a :: l) := by
  obtain ⟨w, hw, rfl⟩ := hl
  exact ⟨a :: w, by simp [hw, Ne.symm ha], rfl⟩

theorem IsLine.append {w l : List α} (hw : nl ∉ w) (hl : IsLine nl l) : IsLine nl (w ++ l) := by
  induction w with
  | nil => exact hl
  | cons a w ih =>
    simp only [List.mem_cons, not_or] at hw
    exact (ih hw.2).cons (Ne.symm hw.1)

variable [DecidableEq α]

/-- The complete lines of a text, each with the separator at its end, and what is left. -/
def cut (nl : α) : List α → List (List α) × List α
  | [] => ([], [])
  | a :: as =>
    if a = nl then ([a] :: (cut nl as).1, (cut nl as).2)
    else
      match cut nl as with
      | ([], r) => ([], a :: r)
      | (l :: ls, r) => ((a :: l) :: ls, r)

theorem cut_of_notMem {r : List α} (hr : nl ∉ r) : cut nl r = ([], r) := by
  induction r with
  | nil => rfl
  | cons a r ih =>
    simp only [List.mem_cons, not_or] at hr
    rw [cut, if_neg (Ne.symm hr.1), ih hr.2]

theorem cut_line_append {l : List α} (hl : IsLine nl l) (as : List α) :
    cut nl (l ++ as) = (l :: (cut nl as).1, (cut nl as).2) := by
  obtain ⟨w, hw, rfl⟩ := hl
  induction w with
  | nil => simp [cut]
  | cons a w ih =>
    simp only [List.mem_cons, not_or] at hw
    rw [List.cons_append, List.cons_append, cut, if_neg (Ne.symm hw.1), ih hw.2]

/-- A text falls into lines in one way only. -/
theorem cut_eq {ls : List (List α)} {r : List α} (hls : ∀ l ∈ ls, IsLine nl l) (hr : nl ∉ r) :
    cut nl (ls.flatten ++ r) = (ls, r) := by
  induction ls with
  | nil => exact cut_of_notMem hr
  | cons l ls ih =>
    rw [List.flatten_cons, List.append_assoc, cut_line_append (hls l List.mem_cons_self),
      ih (fun l hl ↦ hls l (List.mem_cons_of_mem _ hl))]

theorem cut_spec (nl : α) (as : List α) :
    (cut nl as).1.flatten ++ (cut nl as).2 = as ∧ (∀ l ∈ (cut nl as).1, IsLine nl l) ∧
      nl ∉ (cut nl as).2 := by
  induction as with
  | nil => simp [cut]
  | cons a as ih =>
    obtain ⟨hflat, hlines, hrest⟩ := ih
    rw [cut]
    split
    · rename_i ha
      subst a
      refine ⟨by simp [hflat], ?_, hrest⟩
      intro l hl
      rcases List.mem_cons.mp hl with rfl | hl
      · exact ⟨[], by simp, rfl⟩
      · exact hlines l hl
    · rename_i ha
      split
      · rename_i r heq
        rw [heq] at hflat hrest
        exact ⟨by simpa using hflat, by simp, by simpa [Ne.symm ha] using hrest⟩
      · rename_i l ls r heq
        rw [heq] at hflat hlines hrest
        refine ⟨by simpa using hflat, ?_, hrest⟩
        intro l' hl'
        rcases List.mem_cons.mp hl' with rfl | hl'
        · exact (hlines l List.mem_cons_self).cons ha
        · exact hlines l' (List.mem_cons_of_mem _ hl')

theorem cut_flatten (nl : α) (as : List α) : (cut nl as).1.flatten ++ (cut nl as).2 = as :=
  (cut_spec nl as).1

theorem isLine_of_cut {as l : List α} (hl : l ∈ (cut nl as).1) : IsLine nl l :=
  (cut_spec nl as).2.1 l hl

theorem notMem_cut (nl : α) (as : List α) : nl ∉ (cut nl as).2 := (cut_spec nl as).2.2

theorem cut_append (as bs : List α) :
    cut nl (as ++ bs) =
      ((cut nl as).1 ++ (cut nl ((cut nl as).2 ++ bs)).1, (cut nl ((cut nl as).2 ++ bs)).2) := by
  obtain ⟨hflat, hlines, hrest⟩ := cut_spec nl ((cut nl as).2 ++ bs)
  have hall : as ++ bs = ((cut nl as).1 ++ (cut nl ((cut nl as).2 ++ bs)).1).flatten ++
      (cut nl ((cut nl as).2 ++ bs)).2 := by
    rw [List.flatten_append, List.append_assoc, hflat, ← List.append_assoc, cut_flatten]
  rw [hall]
  apply cut_eq _ hrest
  intro l hl
  rcases List.mem_append.mp hl with hl | hl
  · exact isLine_of_cut hl
  · exact hlines l hl

theorem cut_append_nil {p bs q : List α} (hp : nl ∉ p) (hbs : cut nl bs = ([], q)) :
    cut nl (p ++ bs) = ([], p ++ q) := by
  have hflat := cut_flatten nl bs
  have hrest := notMem_cut nl bs
  simp only [hbs, List.flatten_nil, List.nil_append] at hflat hrest
  rw [← hflat]
  exact cut_of_notMem (by simp [hp, hrest])

theorem cut_append_cons {p bs q l : List α} {ls : List (List α)} (hp : nl ∉ p)
    (hbs : cut nl bs = (l :: ls, q)) : cut nl (p ++ bs) = ((p ++ l) :: ls, q) := by
  obtain ⟨hflat, hlines, hrest⟩ := cut_spec nl bs
  simp only [hbs] at hflat hlines hrest
  rw [← hflat, ← List.append_assoc]
  have hflat' : p ++ (l :: ls).flatten = ((p ++ l) :: ls).flatten := by
    simp
  rw [hflat']
  apply cut_eq _ hrest
  intro l' hl'
  rcases List.mem_cons.mp hl' with rfl | hl'
  · exact (hlines l List.mem_cons_self).append hp
  · exact hlines l' (List.mem_cons_of_mem _ hl')

theorem lines_eq_iff {ls ls' : List (List α)} {r r' : List α} (hls : ∀ l ∈ ls, IsLine nl l)
    (hls' : ∀ l ∈ ls', IsLine nl l) (hr : nl ∉ r) (hr' : nl ∉ r') :
    ls.flatten ++ r = ls'.flatten ++ r' ↔ ls = ls' ∧ r = r' := by
  constructor
  · intro h
    have hcut := congrArg (cut nl) h
    rw [cut_eq hls hr, cut_eq hls' hr'] at hcut
    exact Prod.mk.inj hcut
  · intro hboth
    obtain ⟨rfl, rfl⟩ := hboth
    rfl

/-- Text that stands in front of a line becomes part of it. -/
theorem front_lines_eq_iff {p l r r' : List α} {ls ls' : List (List α)} (hp : nl ∉ p)
    (hl : IsLine nl l) (hls : ∀ l ∈ ls, IsLine nl l) (hls' : ∀ l ∈ ls', IsLine nl l) (hr : nl ∉ r)
    (hr' : nl ∉ r') :
    p ++ ((l :: ls).flatten ++ r) = ls'.flatten ++ r' ↔ (p ++ l) :: ls = ls' ∧ r = r' := by
  have hall : p ++ ((l :: ls).flatten ++ r) = ((p ++ l) :: ls).flatten ++ r := by
    simp
  rw [hall]
  apply lines_eq_iff _ hls' hr hr'
  intro l' hl'
  rcases List.mem_cons.mp hl' with rfl | hl'
  · exact hl.append hp
  · exact hls l' hl'

theorem length_of_front {p r r' : List α} {ls ls' : List (List α)} (hp : nl ∉ p)
    (hls : ∀ l ∈ ls, IsLine nl l) (hls' : ∀ l ∈ ls', IsLine nl l) (hr : nl ∉ r) (hr' : nl ∉ r')
    (h : p ++ (ls.flatten ++ r) = ls'.flatten ++ r') : ls.length = ls'.length := by
  cases ls with
  | nil =>
    have hnone : ∀ l ∈ ([] : List (List α)), IsLine nl l := by simp
    have hpr : nl ∉ p ++ r := by simp [hp, hr]
    rw [((lines_eq_iff hnone hls' hpr hr').mp h).1]
  | cons l ls =>
    obtain ⟨hl, hls⟩ := List.forall_mem_cons.mp hls
    rw [← ((front_lines_eq_iff hp hl hls hls' hr hr').mp h).1, List.length_cons, List.length_cons]

end MachineNotebook.Lib.Lines
