import Mathlib.Data.List.Basic

namespace MachineNotebook.Lib.CheckedList

inductive Fault (ε : Type)
  | thrown (e : ε)
  | outOfRange

abbrev Checked (ε α : Type) := Except (Fault ε) α

variable {ε α β σ : Type}

def throwing (e : ε) : Checked ε α := .error (.thrown e)

def get (l : List α) (i : ℕ) : Checked ε α :=
  match l[i]? with
  | some a => .ok a
  | none => .error .outOfRange

def put (l : List α) (i : ℕ) (a : α) : Checked ε (List α) :=
  if i < l.length then .ok (l.set i a) else .error .outOfRange

def sublist (l : List α) (start stop : ℕ) : Checked ε (List α) :=
  if start ≤ stop ∧ stop ≤ l.length then .ok ((l.drop start).take (stop - start))
  else .error .outOfRange

def setRange (l : List α) (start stop : ℕ) (src : List α) : Checked ε (List α) :=
  if start ≤ stop ∧ stop ≤ l.length ∧ stop - start ≤ src.length then
    .ok (l.take start ++ src.take (stop - start) ++ l.drop stop)
  else .error .outOfRange

def setAll (l : List α) (start : ℕ) (src : List α) : Checked ε (List α) :=
  setRange l start (start + src.length) src

def forRange (n : ℕ) (body : σ → ℕ → Checked ε σ) (s : σ) : Checked ε σ :=
  (List.range n).foldlM body s

section Rules

variable {P : α → Prop} {Q : β → Prop} {x : Checked ε α} {f : α → Checked ε β}

/-- The computation gives a value for which `P` holds. -/
def Returns (P : α → Prop) (x : Checked ε α) : Prop := ∃ a, x = .ok a ∧ P a

/-- No index is out of range, and `P` holds of the value if there is one. -/
def Within (P : α → Prop) (x : Checked ε α) : Prop :=
  Returns P x ∨ ∃ e, x = throwing e

theorem returns_ok {a : α} (h : P a) : Returns P (.ok a : Checked ε α) := ⟨a, rfl, h⟩

theorem ok_bind (a : α) (f : α → Checked ε β) : (.ok a : Checked ε α) >>= f = f a := rfl

theorem Returns.bind (h : Returns P x) (hf : ∀ a, P a → Returns Q (f a)) : Returns Q (x >>= f) := by
  obtain ⟨a, rfl, ha⟩ := h
  exact hf a ha

theorem Returns.imp {P' : α → Prop} (h : Returns P x) (hp : ∀ a, P a → P' a) : Returns P' x := by
  obtain ⟨a, ha, hpa⟩ := h
  exact ⟨a, ha, hp a hpa⟩

theorem Returns.eq {a : α} (h : Returns (· = a) x) : x = .ok a := by
  obtain ⟨b, hb, rfl⟩ := h
  exact hb

theorem Returns.within (h : Returns P x) : Within P x := Or.inl h

theorem within_throwing (P : α → Prop) (e : ε) : Within P (throwing e) := Or.inr ⟨e, rfl⟩

theorem within_ok {a : α} (h : P a) : Within P (.ok a : Checked ε α) := (returns_ok h).within

theorem Within.bind (h : Within P x) (hf : ∀ a, P a → Within Q (f a)) : Within Q (x >>= f) := by
  rcases h with ⟨a, rfl, ha⟩ | ⟨e, rfl⟩
  · exact hf a ha
  · exact within_throwing Q e

theorem get_returns {l : List α} {i : ℕ} (h : i < l.length) :
    Returns (· = l[i]) (get l i : Checked ε α) := by
  refine ⟨l[i], ?_, rfl⟩
  rw [get, List.getElem?_eq_getElem h]

theorem put_returns {l : List α} {i : ℕ} (a : α) (h : i < l.length) :
    Returns (· = l.set i a) (put l i a : Checked ε (List α)) :=
  ⟨_, if_pos h, rfl⟩

theorem sublist_returns {l : List α} {start stop : ℕ} (h : start ≤ stop) (hstop : stop ≤ l.length) :
    Returns (· = (l.drop start).take (stop - start)) (sublist l start stop : Checked ε (List α)) :=
  ⟨_, if_pos ⟨h, hstop⟩, rfl⟩

theorem setRange_returns {l src : List α} {start stop : ℕ} (h : stop ≤ l.length)
    (hsrc : stop = start + src.length) :
    Returns (· = l.take start ++ src ++ l.drop stop)
      (setRange l start stop src : Checked ε (List α)) := by
  subst hsrc
  have hlen : start + src.length - start = src.length := Nat.add_sub_cancel_left ..
  refine ⟨_, if_pos ⟨Nat.le_add_right _ _, h, Nat.le_of_eq hlen⟩, ?_⟩
  rw [hlen, List.take_length]

theorem setAll_returns {l src : List α} (h : src.length = l.length) :
    Returns (· = src) (setAll l 0 src : Checked ε (List α)) := by
  refine (setRange_returns (by omega) rfl).imp fun l' hl' ↦ ?_
  rw [hl', List.take_zero, List.nil_append, Nat.zero_add, h, List.drop_length, List.append_nil]

theorem forRange_returns {n : ℕ} {body : σ → ℕ → Checked ε σ} {inv : ℕ → σ → Prop} {s : σ}
    (hstart : inv 0 s) (hstep : ∀ i < n, ∀ s, inv i s → Returns (inv (i + 1)) (body s i)) :
    Returns (inv n) (forRange n body s) := by
  induction n with
  | zero => exact returns_ok hstart
  | succ n ih =>
    rw [forRange, List.range_succ, List.foldlM_append]
    refine Returns.bind (ih fun i hi ↦ hstep i (Nat.lt_trans hi n.lt_succ_self)) fun s hs ↦ ?_
    rw [List.foldlM_cons]
    exact Returns.bind (hstep n n.lt_succ_self s hs) fun s hs ↦ returns_ok hs

theorem forRange_within {n : ℕ} {body : σ → ℕ → Checked ε σ} {inv : ℕ → σ → Prop} {s : σ}
    (hstart : inv 0 s) (hstep : ∀ i < n, ∀ s, inv i s → Within (inv (i + 1)) (body s i)) :
    Within (inv n) (forRange n body s) := by
  induction n with
  | zero => exact within_ok hstart
  | succ n ih =>
    rw [forRange, List.range_succ, List.foldlM_append]
    refine Within.bind (ih fun i hi ↦ hstep i (Nat.lt_trans hi n.lt_succ_self)) fun s hs ↦ ?_
    rw [List.foldlM_cons]
    exact Within.bind (hstep n n.lt_succ_self s hs) fun s hs ↦ within_ok hs

end Rules

section Lists

theorem put_next {l : List α} {a b : α} {i k : ℕ} (hi : i = l.length) :
    Returns (· = l ++ [b] ++ List.replicate k a)
      (put (l ++ List.replicate (k + 1) a) i b : Checked ε (List α)) := by
  subst hi
  have hlt : l.length < (l ++ List.replicate (k + 1) a).length := by
    rw [List.length_append, List.length_replicate]
    omega
  refine (put_returns b hlt).imp fun buffer hbuffer ↦ ?_
  rw [hbuffer, List.set_append_right _ _ (Nat.le_refl _), Nat.sub_self, List.replicate_succ,
    List.set_cons_zero, List.append_assoc]
  rfl

theorem get_of_getElem? {l : List α} {a : α} {i : ℕ} (h : l[i]? = some a) :
    Returns (· = a) (get l i : Checked ε α) := by
  refine ⟨a, ?_, rfl⟩
  rw [get, h]

theorem sublist_append {pre l rest : List α} {start stop : ℕ} (hstart : start = pre.length)
    (hstop : stop = pre.length + l.length) :
    Returns (· = l) (sublist (pre ++ l ++ rest) start stop : Checked ε (List α)) := by
  subst hstart hstop
  have hle : pre.length + l.length ≤ (pre ++ l ++ rest).length := by
    simp only [List.length_append]
    omega
  refine (sublist_returns (Nat.le_add_right _ _) hle).imp fun part hpart ↦ ?_
  rw [hpart, Nat.add_sub_cancel_left, List.append_assoc, List.drop_left' rfl, List.take_left' rfl]

end Lists

end MachineNotebook.Lib.CheckedList
