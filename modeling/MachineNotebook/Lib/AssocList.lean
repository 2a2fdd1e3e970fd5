import Mathlib.Data.List.Basic

namespace MachineNotebook.Lib.AssocList

/-! Maps as lists of entries in the order their keys came in. -/

variable {κ α : Type*}

def keys (m : List (κ × α)) : List κ := m.map Prod.fst

def values (m : List (κ × α)) : List α := m.map Prod.snd

theorem values_filter_perm (p : κ → Bool) (m : List (κ × α)) :
    (values (m.filter fun e ↦ p e.1) ++ values (m.filter fun e ↦ !p e.1)).Perm (values m) := by
  rw [values, values, ← List.map_append]
  exact (List.filter_append_perm (fun e ↦ p e.1) m).map Prod.snd

theorem mem_keys_filter {p : κ → Bool} {k : κ} {m : List (κ × α)} :
    k ∈ keys (m.filter fun e ↦ p e.1) ↔ k ∈ keys m ∧ p k = true := by
  simp only [keys, List.mem_map, List.mem_filter]
  constructor
  · intro h
    obtain ⟨e, ⟨he, hp⟩, rfl⟩ := h
    exact ⟨⟨e, he, rfl⟩, hp⟩
  · intro h
    obtain ⟨⟨e, he, rfl⟩, hp⟩ := h
    exact ⟨e, ⟨he, hp⟩, rfl⟩

variable [DecidableEq κ]

def get (k : κ) : List (κ × α) → Option α
  | [] => none
  | (k', a) :: m => if k' = k then some a else get k m

def put (k : κ) (a : α) : List (κ × α) → List (κ × α)
  | [] => [(k, a)]
  | (k', a') :: m => if k' = k then (k, a) :: m else (k', a') :: put k a m

theorem get_isSome {k : κ} {m : List (κ × α)} : (get k m).isSome ↔ k ∈ keys m := by
  induction m with
  | nil => simp [get, keys]
  | cons e m ih =>
    obtain ⟨k', a⟩ := e
    by_cases hk : k' = k
    · simp [get, keys, hk]
    · rw [get, if_neg hk, ih]
      simp [keys, Ne.symm hk]

theorem get_put_self (k : κ) (a : α) (m : List (κ × α)) : get k (put k a m) = some a := by
  induction m with
  | nil => simp [put, get]
  | cons e m ih =>
    obtain ⟨k', a'⟩ := e
    by_cases hk : k' = k
    · simp [put, get, hk]
    · simp [put, get, hk, ih]

theorem get_put_of_ne {k k' : κ} (h : k ≠ k') (a : α) (m : List (κ × α)) :
    get k' (put k a m) = get k' m := by
  induction m with
  | nil => simp [put, get, h]
  | cons e m ih =>
    obtain ⟨k₀, a₀⟩ := e
    by_cases hk : k₀ = k
    · simp [put, get, hk, h]
    · by_cases hk' : k₀ = k'
      · subst hk'
        simp [put, get, hk]
      · simp [put, get, hk, hk', ih]

theorem mem_keys_put {k k' : κ} {a : α} {m : List (κ × α)} :
    k' ∈ keys (put k a m) ↔ k' = k ∨ k' ∈ keys m := by
  by_cases hk : k = k'
  · subst hk
    simp [← get_isSome, get_put_self]
  · rw [← get_isSome, get_put_of_ne hk, get_isSome]
    simp [Ne.symm hk]

theorem mem_values_of_get {k : κ} {a : α} {m : List (κ × α)} (h : get k m = some a) :
    a ∈ values m := by
  induction m with
  | nil => cases h
  | cons e m ih =>
    obtain ⟨k', a'⟩ := e
    by_cases hk : k' = k
    · rw [get, if_pos hk] at h
      simp [values, Option.some.inj h]
    · rw [get, if_neg hk] at h
      exact List.mem_cons_of_mem _ (ih h)

theorem values_put_perm (k : κ) (a : α) (m : List (κ × α)) :
    (values (put k a m) ++ (get k m).toList).Perm (values m ++ [a]) := by
  induction m with
  | nil => exact List.Perm.refl _
  | cons e m ih =>
    obtain ⟨k', a'⟩ := e
    by_cases hk : k' = k
    · have hput : values (put k a ((k', a') :: m)) ++ (get k ((k', a') :: m)).toList =
          a :: (values m ++ [a']) := by
        simp [put, get, values, hk]
      have hold : values ((k', a') :: m) ++ [a] = a' :: (values m ++ [a]) := rfl
      rw [hput, hold]
      calc (a :: (values m ++ [a'])).Perm (a :: a' :: values m) :=
            (List.perm_append_singleton a' (values m)).cons a
        _ |>.Perm (a' :: a :: values m) := List.Perm.swap a' a _
        _ |>.Perm (a' :: (values m ++ [a])) := (List.perm_append_singleton a (values m)).symm.cons a'
    · have hput : values (put k a ((k', a') :: m)) ++ (get k ((k', a') :: m)).toList =
          a' :: (values (put k a m) ++ (get k m).toList) := by
        simp [put, get, values, hk]
      rw [hput]
      exact ih.cons a'

end MachineNotebook.Lib.AssocList
