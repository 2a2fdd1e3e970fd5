import Mathlib.Data.List.Basic

namespace MachineNotebook.Lib.MessageStream

/-- A queue of messages, read as a stream through a cursor into the front one. -/
structure Messages (α : Type*) where
  messages : List (List α)
  pos : ℕ

variable {α : Type*}

namespace Messages

def unread : Messages α → List α
  | ⟨[], _⟩ => []
  | ⟨front :: rest, pos⟩ => front.drop pos ++ rest.flatten

def push (m : Messages α) (message : List α) : Messages α :=
  { m with messages := m.messages ++ [message] }

def chunk (m : Messages α) (n : ℕ) : List α :=
  match m.messages with
  | [] => []
  | front :: _ => (front.drop m.pos).take n

def read (m : Messages α) (n : ℕ) : Messages α :=
  match m.messages with
  | [] => m
  | front :: rest =>
    let pos := m.pos + min (front.length - m.pos) n
    if pos ≥ front.length then ⟨rest, 0⟩ else { m with pos }

def InFront (m : Messages α) : Prop :=
  m.pos = 0 ∨ ∃ front ∈ m.messages.head?, m.pos < front.length

variable {m : Messages α}

theorem InFront.pos_le (hm : m.InFront) : ∀ front ∈ m.messages.head?, m.pos ≤ front.length := by
  intro front hfront
  rcases hm with hzero | ⟨front', hfront', hlt⟩
  · omega
  · rw [Option.mem_unique hfront hfront']
    exact Nat.le_of_lt hlt

theorem InFront.push (hm : m.InFront) (message : List α) : (m.push message).InFront := by
  rcases hm with hzero | ⟨front, hfront, hlt⟩
  · exact Or.inl hzero
  · refine Or.inr ⟨front, ?_, hlt⟩
    obtain ⟨rest, hmessages⟩ := List.head?_eq_some_iff.mp (Option.mem_def.mp hfront)
    simp [Messages.push, hmessages]

theorem InFront.read (hm : m.InFront) (n : ℕ) : (m.read n).InFront := by
  obtain ⟨messages, pos⟩ := m
  cases messages with
  | nil => exact hm
  | cons front rest =>
    simp only [Messages.read]
    split
    · exact Or.inl rfl
    · rename_i hlt
      exact Or.inr ⟨front, rfl, Nat.not_le.mp hlt⟩

theorem unread_push (hm : m.InFront) (message : List α) :
    (m.push message).unread = m.unread ++ message := by
  obtain ⟨messages, pos⟩ := m
  cases messages with
  | nil =>
    have hzero : pos = 0 := by
      rcases hm with hzero | ⟨front, hfront, -⟩
      · exact hzero
      · cases hfront
    simp [push, unread, hzero]
  | cons front rest => simp [push, unread]

theorem chunk_append_unread (m : Messages α) (n : ℕ) :
    m.chunk n ++ (m.read n).unread = m.unread := by
  obtain ⟨messages, pos⟩ := m
  cases messages with
  | nil => rfl
  | cons front rest =>
    simp only [chunk, read]
    split
    · rename_i hge
      have hall : (front.drop pos).take n = front.drop pos := by
        apply List.take_of_length_le
        rw [List.length_drop]
        omega
      have hrest : (⟨rest, 0⟩ : Messages α).unread = rest.flatten := by
        cases rest <;> rfl
      rw [hall, hrest, unread]
    · rename_i hlt
      have hdrop : front.drop (pos + min (front.length - pos) n) = (front.drop pos).drop n := by
        rw [List.drop_drop]
        congr 1
        omega
      rw [unread, unread, hdrop, ← List.append_assoc, List.take_append_drop]

theorem length_chunk {front : List α} {rest : List (List α)} {pos : ℕ} (n : ℕ) :
    ((⟨front :: rest, pos⟩ : Messages α).chunk n).length = min (front.length - pos) n := by
  rw [chunk, List.length_take, List.length_drop, Nat.min_comm]

end Messages

end MachineNotebook.Lib.MessageStream
