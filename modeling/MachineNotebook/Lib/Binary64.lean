import Mathlib.Algebra.Group.Nat.Defs
import Mathlib.Tactic.Linarith

namespace MachineNotebook.Lib.Binary64

/-- The distance of the doubles around a natural number: they have 53 significant bits. -/
def ulp (n : ℕ) : ℕ := 2 ^ (n.log2 - 52)

/-- The double nearest to a natural number, of two as near the one that is even. -/
def ofNat (n : ℕ) : ℕ :=
  let q := n / ulp n
  let r := n % ulp n
  (if 2 * r < ulp n ∨ 2 * r = ulp n ∧ q % 2 = 0 then q else q + 1) * ulp n

variable {n : ℕ}

theorem ulp_pos (n : ℕ) : 0 < ulp n := Nat.two_pow_pos _

theorem ofNat_eq_iff : ofNat n = n ↔ ulp n ∣ n := by
  constructor
  · intro h
    have hdvd : ulp n ∣ ofNat n := Dvd.intro_left _ rfl
    rwa [h] at hdvd
  · intro h
    have hr : n % ulp n = 0 := Nat.mod_eq_zero_of_dvd h
    have hpos := ulp_pos n
    rw [ofNat, hr, if_pos (.inl (by simpa using hpos)), Nat.div_mul_cancel h]

end MachineNotebook.Lib.Binary64
