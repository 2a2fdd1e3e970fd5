import Mathlib.Data.Rat.Floor
import Mathlib.Tactic.Linarith

namespace MachineNotebook.Lib.Rounding

/-- Rounding to the nearest integer, halves away from zero. -/
def roundAway (q : ℚ) : ℤ := if 0 ≤ q then ⌊q + 1 / 2⌋ else -⌊-q + 1 / 2⌋

variable {q : ℚ}

theorem roundAway_of_nonneg (hq : 0 ≤ q) : roundAway q = ⌊q + 1 / 2⌋ := if_pos hq

@[simp] theorem roundAway_intCast (n : ℤ) : roundAway n = n := by
  have hhalf (k : ℤ) : ⌊(k : ℚ) + 1 / 2⌋ = k := by
    rw [Int.floor_eq_iff]
    constructor <;> linarith
  rw [roundAway]
  split
  · exact hhalf n
  · have hneg := hhalf (-n)
    rw [Int.cast_neg] at hneg
    rw [hneg, neg_neg]

theorem roundAway_le (hq : 0 ≤ q) : (roundAway q : ℚ) ≤ q + 1 / 2 := by
  rw [roundAway_of_nonneg hq]
  exact Int.floor_le _

theorem lt_roundAway (hq : 0 ≤ q) : q - 1 / 2 < roundAway q := by
  have hlt := Int.lt_floor_add_one (q + 1 / 2)
  rw [roundAway_of_nonneg hq]
  linarith

end MachineNotebook.Lib.Rounding
