import MachineNotebook.Notebook.FreezePolicy
import Mathlib.Data.Nat.Find

namespace MachineNotebook.Notebook.FreezeCrop

open MachineNotebook.Dart.Bindings Dart.Text Vt.Frame FreezePolicy

/-- One more than the last index below `n` at which `p` holds, and zero where there is none. -/
def countTo (p : ℕ → Bool) (n : ℕ) : ℕ := Nat.findGreatest (fun k ↦ p (k - 1) = true) n

section Count

variable {p q : ℕ → Bool} {m n : ℕ}

theorem countTo_zero (p : ℕ → Bool) : countTo p 0 = 0 := Nat.findGreatest_zero

theorem countTo_succ (p : ℕ → Bool) (n : ℕ) :
    countTo p (n + 1) = if p n then n + 1 else countTo p n := Nat.findGreatest_succ n

theorem countTo_le (p : ℕ → Bool) (n : ℕ) : countTo p n ≤ n := Nat.findGreatest_le n

theorem countTo_congr (h : ∀ i < n, p i = q i) : countTo p n = countTo q n := by
  induction n with
  | zero => rw [countTo_zero, countTo_zero]
  | succ n ih =>
    rw [countTo_succ, countTo_succ, h n n.lt_succ_self, ih fun i hi ↦ h i (hi.trans n.lt_succ_self)]

theorem countTo_eq_zero : countTo p n = 0 ↔ ∀ i < n, p i = false := by
  induction n with
  | zero => simp [countTo_zero]
  | succ n ih =>
    rw [countTo_succ, Nat.forall_lt_succ_right, ← ih]
    cases p n <;> simp

theorem countTo_mono (hmn : m ≤ n) (h : ∀ i < n, m ≤ i → p i = false) :
    countTo p n = countTo p m := by
  induction n, hmn using Nat.le_induction with
  | base => rfl
  | succ n hmn ih =>
    rw [countTo_succ, h n n.lt_succ_self hmn, if_neg Bool.false_ne_true]
    exact ih fun i hi ↦ h i (hi.trans n.lt_succ_self)

theorem false_of_countTo_le (h : countTo p n ≤ m) (hmn : m < n) : p m = false := by
  induction n with
  | zero => exact absurd hmn m.not_lt_zero
  | succ n ih =>
    rw [countTo_succ] at h
    cases hp : p n with
    | true =>
      rw [hp, if_pos rfl] at h
      omega
    | false =>
      rw [hp, if_neg Bool.false_ne_true] at h
      rcases Nat.lt_succ_iff_lt_or_eq.mp hmn with hlt | rfl
      · exact ih h hlt
      · exact hp

theorem countTo_countTo (p : ℕ → Bool) (n : ℕ) : countTo p (countTo p n) = countTo p n :=
  (countTo_mono (countTo_le p n) fun _ hi hle ↦ false_of_countTo_le hle hi).symm

end Count

section Statements

/-- `cols >= 1` and `cells.length == cols * rows`. -/
structure WellFormed (f : VtFrame) : Prop where
  cols : 1 ≤ f.cols
  cells : f.cells.length = f.cols * f.rows

def HasText (f : VtFrame) : Prop := ∃ c ∈ f.cells, c.text ≠ []

def cellAt (f : VtFrame) (x y : ℕ) : VtCell := f.cells.getD (y * f.cols + x) {}

def rowLine (f : VtFrame) (y : ℕ) : DartString :=
  trim ((List.range f.cols).map fun x ↦ (cellAt f x y).text).flatten

/-- A row that is neither blank nor one to three prompt characters. -/
def isReal (f : VtFrame) (y : ℕ) : Bool :=
  rowLine f y ≠ [] && !((rowLine f y).length ≤ 3 && (rowLine f y).all fun u ↦ promptUnits.contains u)

/-- The number of rows up to the last one that is neither blank nor a bare prompt. -/
def realRows (f : VtFrame) : ℕ := countTo (isReal f) f.rows

/-- The rows that are kept, without a cursor. -/
structure Cropped (f g : VtFrame) : Prop where
  cols : g.cols = f.cols
  rows : g.rows = max 1 (realRows f)
  cells : g.cells = f.cells.take (g.rows * g.cols)
  length : g.cells.length = g.rows * g.cols
  invisible : g.cursorVisible = false
  noPosition : g.cursorX = none ∧ g.cursorY = none
  noColor : g.cursorColor = none

def withoutCursor (f : VtFrame) : VtFrame :=
  { f with
    cursorVisible := false, cursorX := none, cursorY := none, cursorColor := none,
    cursorBlink := false, dirty := .full }

def SameCells (f g : VtFrame) : Prop := f.cols = g.cols ∧ f.rows = g.rows ∧ f.cells = g.cells

structure Crops (f : VtFrame) : Prop where
  text : HasText f → ∃ g, apply f = some g ∧ Cropped f g
  noText : ¬HasText f → apply f = some (withoutCursor f)
  twice : ∃ g h, apply f = some g ∧ apply g = some h ∧ SameCells h g

end Statements

section Loops

variable {α β : Type} {l : List α}

theorem mapM_some {p : α → Option β} {q : α → β} (h : ∀ a ∈ l, p a = some (q a)) :
    l.mapM p = some (l.map q) := by
  induction l with
  | nil => rfl
  | cons a l ih =>
    rw [List.mapM_cons, h a List.mem_cons_self, ih fun b hb ↦ h b (List.mem_cons_of_mem a hb)]
    rfl

theorem anyM_some {p : α → Option Bool} {q : α → Bool} (h : ∀ a ∈ l, p a = some (q a)) :
    l.anyM p = some (l.any q) := by
  induction l with
  | nil => rfl
  | cons a l ih =>
    rw [List.anyM_cons, h a List.mem_cons_self, ih fun b hb ↦ h b (List.mem_cons_of_mem a hb),
      List.any_cons]
    cases q a <;> rfl

theorem foldlM_countTo {p : ℕ → Option Bool} {q : ℕ → Bool} {n : ℕ}
    (h : ∀ i < n, p i = some (q i)) :
    (List.range n).foldlM (fun used i ↦ do if ← p i then return i + 1 else return used) 0 =
      some (countTo q n) := by
  induction n with
  | zero => rfl
  | succ n ih =>
    rw [List.range_succ, List.foldlM_append, ih fun i hi ↦ h i (hi.trans n.lt_succ_self),
      countTo_succ]
    simp only [List.foldlM_cons, List.foldlM_nil, Option.bind_eq_bind, Option.bind_some,
      h n n.lt_succ_self]
    cases q n <;> rfl

theorem trim_rdropWhile (s : DartString) : trim (s.rdropWhile isSpace) = trim s := by
  induction s using List.reverseRecOn with
  | nil => rfl
  | append_singleton s u ih =>
    by_cases hu : isSpace u
    · have htrimmed : isTrimmed u = true := by
        rw [isSpace, Bool.and_eq_true] at hu
        exact hu.1
      rw [List.rdropWhile_concat_pos _ _ _ hu, ih, trim, trim, List.dropWhile_append]
      cases hfront : s.dropWhile isTrimmed with
      | nil => simp [htrimmed]
      | cons v rest =>
        rw [List.isEmpty_cons, if_neg Bool.false_ne_true, List.rdropWhile_concat_pos _ _ _ htrimmed]
    · rw [List.rdropWhile_concat_neg _ _ _ hu]

end Loops

section Rows

variable {f : VtFrame} {x y : ℕ}

theorem cell_bound (hwf : WellFormed f) (hx : x < f.cols) (hy : y < f.rows) :
    y * f.cols + x < f.cells.length := by
  have hrow : (y + 1) * f.cols ≤ f.rows * f.cols := Nat.mul_le_mul_right _ hy
  rw [Nat.succ_mul] at hrow
  rw [hwf.cells, Nat.mul_comm f.cols]
  omega

theorem cellText_eq (hwf : WellFormed f) (hx : x < f.cols) (hy : y < f.rows) :
    cellText f (y * f.cols + x) = some (cellAt f x y).text := by
  have hbound := cell_bound hwf hx hy
  rw [cellText, cellAt, List.getD_eq_getElem?_getD, List.getElem?_eq_getElem hbound,
    Option.map_some, Option.getD_some]

theorem rowText_eq (hwf : WellFormed f) (hy : y < f.rows) :
    ∃ text, rowText f y = some text ∧ trim text = rowLine f y := by
  have hcols := hwf.cols
  have htexts : (List.range f.cols).mapM (fun x ↦ cellText f (y * f.cols + x)) =
      some ((List.range f.cols).map fun x ↦ (cellAt f x y).text) :=
    mapM_some fun x hx ↦ cellText_eq hwf (List.mem_range.mp hx) hy
  rw [rowText, if_neg (by omega)]
  dsimp only
  rw [htexts]
  exact ⟨_, rfl, trim_rdropWhile _⟩

theorem rowIsBarePrompt_eq (hwf : WellFormed f) (hy : y < f.rows) :
    rowIsBarePrompt f y = some !isReal f y := by
  obtain ⟨text, htext, hline⟩ := rowText_eq hwf hy
  rw [rowIsBarePrompt, htext]
  simp only [Option.bind_eq_bind, Option.bind_some, hline, isReal]
  by_cases hempty : rowLine f y = []
  · simp [hempty]
  · simp [hempty]

def isInked (f : VtFrame) (y : ℕ) : Bool := (List.range f.cols).any fun x ↦ (cellAt f x y).text ≠ []

theorem rowHasInk_eq (hwf : WellFormed f) (hy : y < f.rows) :
    rowHasInk f y = some (isInked f y) := by
  rw [rowHasInk, isInked]
  apply anyM_some
  intro x hx
  rw [cellText_eq hwf (List.mem_range.mp hx) hy]
  rfl

theorem usedRows_eq (hwf : WellFormed f) : usedRows f = some (countTo (isInked f) f.rows) := by
  have hcols := hwf.cols
  rw [usedRows, if_neg (by omega)]
  exact foldlM_countTo fun y hy ↦ rowHasInk_eq hwf hy

theorem isReal_of_not_inked (h : isInked f y = false) : isReal f y = false := by
  have hnil : ((List.range f.cols).map fun x ↦ (cellAt f x y).text).flatten = [] := by
    rw [List.flatten_eq_nil_iff]
    intro text htext
    obtain ⟨x, hx, rfl⟩ := List.mem_map.mp htext
    have hx' := List.any_eq_false.mp h x hx
    simpa using hx'
  rw [isReal, rowLine, hnil]
  rfl

theorem dropBarePrompts_eq (hwf : WellFormed f) {used : ℕ} (hused : used ≤ f.rows) :
    dropBarePrompts f used = some (if used = 0 then 0 else max 1 (countTo (isReal f) used)) := by
  induction used with
  | zero => rfl
  | succ n ih =>
    cases n with
    | zero =>
      have hle := countTo_le (isReal f) 1
      rw [dropBarePrompts, if_neg (Nat.succ_ne_zero 0), Nat.max_eq_left hle]
      intro n hn
      omega
    | succ n =>
      rw [dropBarePrompts, rowIsBarePrompt_eq hwf (by omega), countTo_succ]
      simp only [Option.bind_eq_bind, Option.bind_some]
      cases hreal : isReal f (n + 1) with
      | true => simp
      | false =>
        rw [Bool.not_false, if_pos rfl, ih (by omega)]
        simp

theorem inked_iff (hwf : WellFormed f) : HasText f ↔ countTo (isInked f) f.rows ≠ 0 := by
  rw [ne_eq, countTo_eq_zero]
  push Not
  constructor
  · intro h
    obtain ⟨c, hc, htext⟩ := h
    obtain ⟨i, hi, rfl⟩ := List.getElem_of_mem hc
    have hcols : 0 < f.cols := hwf.cols
    have hcell : cellAt f (i % f.cols) (i / f.cols) = f.cells[i] := by
      rw [cellAt, Nat.div_add_mod', List.getD_eq_getElem?_getD, List.getElem?_eq_getElem hi,
        Option.getD_some]
    refine ⟨i / f.cols, Nat.div_lt_of_lt_mul (hwf.cells ▸ hi), ?_⟩
    rw [isInked, Bool.ne_false_iff, List.any_eq_true]
    exact ⟨_, List.mem_range.mpr (Nat.mod_lt i hcols), by simpa [hcell] using htext⟩
  · intro h
    obtain ⟨y, hy, hinked⟩ := h
    rw [isInked, Bool.ne_false_iff, List.any_eq_true] at hinked
    obtain ⟨x, hx, htext⟩ := hinked
    have hbound := cell_bound hwf (List.mem_range.mp hx) hy
    refine ⟨f.cells[y * f.cols + x], List.getElem_mem hbound, ?_⟩
    simpa [cellAt, List.getElem?_eq_getElem hbound] using htext

/-- With text there are rows to keep, without there are none. -/
theorem usedRowsForFreeze_eq (hwf : WellFormed f) :
    (HasText f → usedRowsForFreeze f = some (max 1 (realRows f))) ∧
      (¬HasText f → usedRowsForFreeze f = some 0) := by
  have hused := usedRows_eq hwf
  have hle := countTo_le (isInked f) f.rows
  have hdrop := dropBarePrompts_eq hwf hle
  constructor
  · intro htext
    rw [inked_iff hwf] at htext
    have hreal : countTo (isReal f) (countTo (isInked f) f.rows) = realRows f := by
      refine (countTo_mono hle fun y hy hcount ↦ ?_).symm
      exact isReal_of_not_inked (false_of_countTo_le hcount hy)
    rw [if_neg htext, hreal] at hdrop
    rw [usedRowsForFreeze, hused]
    simp only [Option.bind_eq_bind, Option.bind_some, hdrop]
    rw [if_neg (by omega)]
    rfl
  · intro hnone
    rw [inked_iff hwf, not_not] at hnone
    rw [hnone] at hdrop hused
    rw [usedRowsForFreeze, hused]
    simp only [Option.bind_eq_bind, Option.bind_some, hdrop]
    rfl

theorem apply_cropped (hwf : WellFormed f) (htext : HasText f) :
    ∃ g, apply f = some g ∧ Cropped f g := by
  have hrows : 1 ≤ f.rows := by
    have hle := countTo_le (isInked f) f.rows
    have hne := (inked_iff hwf).mp htext
    omega
  have hle : max 1 (realRows f) ≤ f.rows := Nat.max_le.mpr ⟨hrows, countTo_le _ _⟩
  have hlen : max 1 (realRows f) * f.cols ≤ f.cells.length := by
    rw [hwf.cells, Nat.mul_comm f.cols]
    exact Nat.mul_le_mul_right _ hle
  have hcells : f.cells.take (max 1 (realRows f) * f.cols) ++
      List.replicate (max 1 (realRows f) * f.cols - f.cells.length) ({} : VtCell) =
        f.cells.take (max 1 (realRows f) * f.cols) := by
    rw [Nat.sub_eq_zero_of_le hlen, List.replicate_zero, List.append_nil]
  rw [apply, (usedRowsForFreeze_eq hwf).1 htext]
  simp only [Option.bind_eq_bind, Option.bind_some]
  rw [if_neg (by omega), hcells]
  refine ⟨_, rfl, rfl, rfl, rfl, ?_, rfl, ⟨rfl, rfl⟩, rfl⟩
  exact List.length_take_of_le hlen

theorem apply_withoutCursor (hwf : WellFormed f) (hnone : ¬HasText f) :
    apply f = some (withoutCursor f) := by
  rw [apply, (usedRowsForFreeze_eq hwf).2 hnone]
  rfl

end Rows

section Twice

variable {f g : VtFrame} {x y : ℕ}

theorem Cropped.wellFormed (hwf : WellFormed f) (h : Cropped f g) : WellFormed g :=
  ⟨h.cols ▸ hwf.cols, by rw [h.length, Nat.mul_comm]⟩

theorem Cropped.cellAt_eq (h : Cropped f g) (hx : x < f.cols) (hy : y < g.rows) :
    cellAt g x y = cellAt f x y := by
  have hrow : (y + 1) * f.cols ≤ g.rows * f.cols := Nat.mul_le_mul_right _ hy
  rw [Nat.succ_mul] at hrow
  rw [cellAt, cellAt, h.cells, h.cols, List.getD_eq_getElem?_getD, List.getD_eq_getElem?_getD,
    List.getElem?_take_of_lt (by omega)]

theorem Cropped.isReal_eq (h : Cropped f g) (hy : y < g.rows) : isReal g y = isReal f y := by
  have hline : rowLine g y = rowLine f y := by
    rw [rowLine, rowLine, h.cols]
    congr 2
    apply List.map_congr_left
    intro x hx
    rw [h.cellAt_eq (List.mem_range.mp hx) hy]
  rw [isReal, isReal, hline]

theorem Cropped.rows_eq (h : Cropped f g) : max 1 (realRows g) = g.rows := by
  have hcount : realRows g = countTo (isReal f) g.rows :=
    countTo_congr fun y hy ↦ h.isReal_eq hy
  rw [hcount, h.rows]
  rcases Nat.eq_zero_or_pos (realRows f) with hzero | hpos
  · rw [hzero]
    have hle := countTo_le (isReal f) (max 1 0)
    omega
  · rw [Nat.max_eq_right hpos, realRows, countTo_countTo]
    exact Nat.max_eq_right hpos

theorem Cropped.same {h : VtFrame} (hfg : Cropped f g) (hgh : Cropped g h) : SameCells h g := by
  have hrows : h.rows = g.rows := hgh.rows.trans hfg.rows_eq
  refine ⟨hgh.cols, hrows, ?_⟩
  rw [hgh.cells, hrows, hgh.cols, ← hfg.length, List.take_length]

end Twice

/-- A well-formed frame is frozen to its rows up to the last that is neither blank nor a bare
prompt, once and for all. -/
theorem crops (f : VtFrame) (hwf : WellFormed f) : Crops f := by
  refine ⟨apply_cropped hwf, apply_withoutCursor hwf, ?_⟩
  by_cases htext : HasText f
  · obtain ⟨g, hg, hcrop⟩ := apply_cropped hwf htext
    by_cases htext' : HasText g
    · obtain ⟨h, hh, hcrop'⟩ := apply_cropped (hcrop.wellFormed hwf) htext'
      exact ⟨g, h, hg, hh, hcrop.same hcrop'⟩
    · have happly := apply_withoutCursor (hcrop.wellFormed hwf) htext'
      exact ⟨g, withoutCursor g, hg, happly, rfl, rfl, rfl⟩
  · have hnone : ¬HasText (withoutCursor f) := htext
    have hwf' : WellFormed (withoutCursor f) := ⟨hwf.cols, hwf.cells⟩
    exact ⟨withoutCursor f, _, apply_withoutCursor hwf htext, apply_withoutCursor hwf' hnone,
      rfl, rfl, rfl⟩

def promptFrame : VtFrame where
  cols := 2
  rows := 3
  cells := [{ text := [0x6C] }, { text := [0x73] }, {}, {}, { text := [0x24] }, {}]
  background := ⟨0, 0, 0⟩
  foreground := ⟨255, 255, 255⟩
  cursorX := some 1
  cursorY := some 2
  cursorVisible := true

theorem crops_promptFrame : WellFormed promptFrame ∧ HasText promptFrame ∧ Crops promptFrame :=
  ⟨⟨by decide, rfl⟩, ⟨_, List.mem_cons_self, by decide⟩, crops promptFrame ⟨by decide, rfl⟩⟩

end MachineNotebook.Notebook.FreezeCrop
