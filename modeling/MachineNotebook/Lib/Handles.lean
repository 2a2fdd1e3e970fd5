import Mathlib.Data.List.Nodup
import Mathlib.Logic.Function.Basic

namespace MachineNotebook.Lib.Handles

variable {κ : Type*} {opened : ℕ} {closed : List ℕ} {slot : κ → Option ℕ}

/-- Handles are numbered as they are opened. Each one closed was closed once, and a slot holds an
open one that no other slot holds. -/
structure Owns (opened : ℕ) (closed : List ℕ) (slot : κ → Option ℕ) : Prop where
  once : closed.Nodup
  closed_lt : ∀ h ∈ closed, h < opened
  held_lt : ∀ k h, slot k = some h → h < opened
  held_open : ∀ k h, slot k = some h → h ∉ closed
  held_once : ∀ k k' h, slot k = some h → slot k' = some h → k = k'

def Accounted (opened : ℕ) (closed : List ℕ) (slot : κ → Option ℕ) : Prop :=
  ∀ h < opened, h ∈ closed ∨ ∃ k, slot k = some h

theorem Owns.start : Owns 0 [] (fun _ : κ ↦ none) where
  once := List.nodup_nil
  closed_lt _ h := by cases h
  held_lt _ _ h := by cases h
  held_open _ _ h := by cases h
  held_once _ _ _ h := by cases h

theorem Owns.lose (h : Owns opened closed slot) : Owns (opened + 1) closed slot where
  once := h.once
  closed_lt x hx := Nat.lt_succ_of_lt (h.closed_lt x hx)
  held_lt k x hx := Nat.lt_succ_of_lt (h.held_lt k x hx)
  held_open := h.held_open
  held_once := h.held_once

theorem Owns.closeAll (h : Owns opened closed slot) {slots : List κ} (hslots : slots.Nodup) :
    Owns opened (closed ++ slots.filterMap slot) (fun _ : κ ↦ none) where
  once := by
    have hheld : (slots.filterMap slot).Nodup :=
      hslots.filterMap fun k k' x hk hk' ↦ h.held_once k k' x hk hk'
    refine List.nodup_append'.mpr ⟨h.once, hheld, fun x hx hx' ↦ ?_⟩
    obtain ⟨k, -, hk⟩ := List.mem_filterMap.mp hx'
    exact h.held_open k x hk hx
  closed_lt x hx := by
    obtain hx | hx := List.mem_append.mp hx
    · exact h.closed_lt x hx
    · obtain ⟨k, -, hk⟩ := List.mem_filterMap.mp hx
      exact h.held_lt k x hk
  held_lt _ _ hx := by cases hx
  held_open _ _ hx := by cases hx
  held_once _ _ _ hx := by cases hx

theorem Accounted.closeAll (h : Accounted opened closed slot) {slots : List κ}
    (hall : ∀ k, k ∈ slots) :
    Accounted opened (closed ++ slots.filterMap slot) (fun _ : κ ↦ none) := by
  intro x hx
  obtain hx | ⟨k, hk⟩ := h x hx
  · exact .inl (List.mem_append_left _ hx)
  · exact .inl (List.mem_append_right _ (List.mem_filterMap.mpr ⟨k, hall k, hk⟩))

variable [DecidableEq κ]

theorem update_some {k k' : κ} {n h : ℕ} (he : Function.update slot k (some n) k' = some h) :
    k' = k ∧ h = n ∨ k' ≠ k ∧ slot k' = some h := by
  by_cases hk : k' = k
  · subst hk
    rw [Function.update_self] at he
    exact .inl ⟨rfl, (Option.some.inj he).symm⟩
  · rw [Function.update_of_ne hk] at he
    exact .inr ⟨hk, he⟩

theorem Owns.store (h : Owns opened closed slot) (k : κ) :
    Owns (opened + 1) closed (Function.update slot k (some opened)) where
  once := h.once
  closed_lt x hx := Nat.lt_succ_of_lt (h.closed_lt x hx)
  held_lt k' x hx := by
    obtain ⟨-, rfl⟩ | ⟨-, hx⟩ := update_some hx
    · exact Nat.lt_succ_self _
    · exact Nat.lt_succ_of_lt (h.held_lt k' x hx)
  held_open k' x hx hmem := by
    obtain ⟨-, rfl⟩ | ⟨-, hx⟩ := update_some hx
    · exact absurd (h.closed_lt _ hmem) (Nat.lt_irrefl _)
    · exact h.held_open k' x hx hmem
  held_once k₁ k₂ x h₁ h₂ := by
    have hfresh (k' : κ) : slot k' ≠ some opened :=
      fun hk ↦ absurd (h.held_lt k' opened hk) (Nat.lt_irrefl _)
    obtain ⟨hk₁, hx₁⟩ | ⟨-, hs₁⟩ := update_some h₁
    · obtain ⟨hk₂, -⟩ | ⟨-, hs₂⟩ := update_some h₂
      · rw [hk₁, hk₂]
      · rw [hx₁] at hs₂
        exact absurd hs₂ (hfresh k₂)
    · obtain ⟨-, hx₂⟩ | ⟨-, hs₂⟩ := update_some h₂
      · rw [hx₂] at hs₁
        exact absurd hs₁ (hfresh k₁)
      · exact h.held_once k₁ k₂ x hs₁ hs₂

theorem Accounted.store (h : Accounted opened closed slot) {k : κ} (hk : slot k = none) :
    Accounted (opened + 1) closed (Function.update slot k (some opened)) := by
  intro x hx
  obtain hx | rfl := Nat.lt_succ_iff_lt_or_eq.mp hx
  · refine (h x hx).imp_right fun ⟨k', hk'⟩ ↦ ⟨k', ?_⟩
    have hne : k' ≠ k := by
      rintro rfl
      rw [hk] at hk'
      cases hk'
    rwa [Function.update_of_ne hne]
  · exact .inr ⟨k, Function.update_self ..⟩

end MachineNotebook.Lib.Handles
