import Mathlib.Data.List.Basic

namespace MachineNotebook.Lib.ChunkedReply

/-- One answer, kept for a reader that fetches its body in chunks. -/
structure Reply (α : Type*) where
  done : Bool
  failed : Bool
  body : List α
  pos : ℕ

variable {α : Type*}

def pending : Reply α := ⟨false, false, [], 0⟩

def answer (failed : Bool) (body : List α) : Reply α := ⟨true, failed, body, 0⟩

namespace Reply

def chunk (r : Reply α) (n : ℕ) : List α :=
  if r.done ∧ ¬r.failed then (r.body.drop r.pos).take n else []

def read (r : Reply α) (n : ℕ) : Reply α := { r with pos := r.pos + (r.chunk n).length }

@[simp] theorem chunk_zero (r : Reply α) : r.chunk 0 = [] := by simp [chunk]

@[simp] theorem read_zero (r : Reply α) : r.read 0 = r := by simp [read]

@[simp] theorem chunk_pending (n : ℕ) : (pending : Reply α).chunk n = [] := by
  simp [chunk, pending]

theorem read_idle {r : Reply α} (h : ¬(r.done ∧ r.failed = false)) (n : ℕ) : r.read n = r := by
  have hc : r.chunk n = [] := if_neg (by simpa using h)
  simp [read, hc]

def outcome (r : Reply α) : Option Bool := if r.done then some r.failed else none

@[simp] theorem outcome_read (r : Reply α) (n : ℕ) : (r.read n).outcome = r.outcome := rfl

@[simp] theorem outcome_answer (failed : Bool) (body : List α) :
    (answer failed body).outcome = some failed := rfl

@[simp] theorem outcome_pending : (pending : Reply α).outcome = none := rfl

theorem outcome_of_chunk {r : Reply α} {n : ℕ} (h : r.chunk n ≠ []) : r.outcome = some false := by
  simp only [chunk] at h
  split at h
  · rename_i hdone
    simp [outcome, hdone.1, hdone.2]
  · exact absurd rfl h

def InRange (r : Reply α) : Prop := r.pos ≤ r.body.length

theorem inRange_pending : (pending : Reply α).InRange := Nat.le_refl _

theorem inRange_answer (failed : Bool) (body : List α) : (answer failed body).InRange :=
  Nat.zero_le _

theorem InRange.chunk {r : Reply α} (h : r.InRange) (n : ℕ) :
    r.pos + (r.chunk n).length ≤ r.body.length := by
  have h : r.pos ≤ r.body.length := h
  simp only [Reply.chunk]
  split
  · simp only [List.length_take, List.length_drop]
    omega
  · simpa using h

theorem InRange.read {r : Reply α} (h : r.InRange) (n : ℕ) : (r.read n).InRange := h.chunk n

theorem chunk_failed (body : List α) (pos n : ℕ) : Reply.chunk ⟨true, true, body, pos⟩ n = [] := by
  simp [Reply.chunk]

theorem prefix_chunk {got body : List α} (h : got <+: body) (failed : Bool) (n : ℕ) :
    got ++ Reply.chunk ⟨true, failed, body, got.length⟩ n <+: body := by
  obtain ⟨rest, rfl⟩ := h
  cases failed with
  | true => simp [chunk_failed]
  | false =>
    have hchunk : Reply.chunk ⟨true, false, got ++ rest, got.length⟩ n = rest.take n := by
      simp [Reply.chunk]
    rw [hchunk]
    exact (List.prefix_append_right_inj got).mpr (List.take_prefix n rest)

/-- What a reader of a successful answer holds after asking for `asked` elements in all. -/
structure Got (body : List α) (asked : ℕ) (got : List α) (r : Reply α) : Prop where
  eq : r = ⟨true, false, body, got.length⟩
  exact : got = body.take asked

theorem got_answer (body : List α) : Got body 0 [] (answer false body) := ⟨rfl, by simp⟩

theorem Got.read {body got : List α} {asked : ℕ} {r : Reply α} (h : Got body asked got r) (n : ℕ) :
    Got body (asked + n) (got ++ r.chunk n) (r.read n) := by
  obtain ⟨rfl, hgot⟩ := h
  have hlen : got.length = min asked body.length := by rw [hgot, List.length_take]
  have hchunk : Reply.chunk ⟨true, false, body, got.length⟩ n = (body.drop got.length).take n := by
    simp [Reply.chunk]
  refine ⟨by simp [Reply.read], ?_⟩
  rw [hchunk, hgot, List.length_take]
  rcases Nat.le_total asked body.length with hle | hle
  · rw [Nat.min_eq_left hle, List.take_add]
  · rw [Nat.min_eq_right hle, List.drop_length, List.take_nil, List.append_nil,
      List.take_of_length_le hle, List.take_of_length_le (by omega)]

/-- A reader with room that gets nothing has got everything. -/
theorem Got.whole {body got : List α} {asked n : ℕ} {r : Reply α} (h : Got body asked got r)
    (hn : 0 < n) (hempty : r.chunk n = []) : got = body := by
  obtain ⟨rfl, hgot⟩ := h
  have hle : body.length ≤ got.length := by
    simp only [Reply.chunk, and_self, Bool.false_eq_true, not_false_eq_true, if_true,
      List.take_eq_nil_iff, List.drop_eq_nil_iff] at hempty
    omega
  rw [hgot, List.length_take] at hle
  rw [hgot, List.take_of_length_le (by omega)]

end Reply

end MachineNotebook.Lib.ChunkedReply
