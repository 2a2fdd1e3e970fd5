import MachineNotebook.Lib.Utf8

namespace MachineNotebook.Host.Error

open MachineNotebook.Lib.Utf8

def cstrBytes (p : Bytes) : Bytes := p.takeWhile (· ≠ 0)

def cstrToStr (p : Option Bytes) : Option String := p.bind fun p ↦ fromUtf8 (cstrBytes p)

/-- The error text as a C string. A text with a NUL inside is replaced. -/
def aosLastError (lastError : String) : Bytes :=
  if 0 ∈ toUtf8 lastError then toUtf8 "invalid error string" ++ [0] else toUtf8 lastError ++ [0]

theorem cstrBytes_append {bs : Bytes} (h : 0 ∉ bs) : cstrBytes (bs ++ [0]) = bs := by
  have hall : ∀ b ∈ bs, decide (b ≠ 0) = true := by
    intro b hb
    refine decide_eq_true (fun hzero ↦ h ?_)
    rwa [hzero] at hb
  rw [cstrBytes, List.takeWhile_append_of_pos hall]
  simp

theorem mapError_ok {α ε ε' : Type} {f : ε → ε'} {x : Except ε α} {r : α} :
    x.mapError f = .ok r ↔ x = .ok r := by
  cases x <;> simp [Except.mapError]

theorem bind_ok {α β ε : Type} {x : Except ε α} {f : α → Except ε β} {r : β} :
    x >>= f = .ok r ↔ ∃ a, x = .ok a ∧ f a = .ok r := by
  cases x <;> simp [bind, Except.bind]

end MachineNotebook.Host.Error
