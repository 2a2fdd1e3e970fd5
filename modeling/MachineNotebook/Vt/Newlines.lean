import MachineNotebook.Lib.Lookback
import MachineNotebook.Lib.Utf8

namespace MachineNotebook.Vt.Newlines

open MachineNotebook.Lib MachineNotebook.Lib.Utf8

def CR : UInt8 := 0x0d

def LF : UInt8 := 0x0a

/-- What one byte becomes, given the byte before it in the same call. -/
def normalizeByte (prev : Option UInt8) (b : UInt8) : Bytes :=
  if b = LF ∧ prev ≠ some CR then [CR, b] else [b]

def normalizeNewlines (data : Bytes) : Bytes := Lookback.scan normalizeByte none data

/-- An open terminal, by the bytes that libghostty-vt was fed. -/
structure VtTerminal where
  fed : Bytes := []
  deriving DecidableEq

namespace VtTerminal

def write (data : Bytes) (vt : VtTerminal) : VtTerminal :=
  if data = [] then vt else { vt with fed := vt.fed ++ data }

def writeText (text : String) (vt : VtTerminal) : VtTerminal :=
  vt.write (normalizeNewlines (toUtf8 text))

def writeGuest (data : Bytes) (vt : VtTerminal) : VtTerminal := vt.write (normalizeNewlines data)

end VtTerminal

theorem normalizeByte_front (p b : UInt8) :
    normalizeByte none b = normalizeByte (some p) b ↔ ¬(p = CR ∧ b = LF) := by
  by_cases hb : b = LF
  · by_cases hp : p = CR <;> simp [normalizeByte, hb, hp]
  · simp [normalizeByte, hb]

theorem fronts_iff (x y : Option UInt8) :
    (∀ p ∈ x, ∀ b ∈ y, normalizeByte none b = normalizeByte (some p) b) ↔
      ¬(x = some CR ∧ y = some LF) := by
  simp only [normalizeByte_front, Option.mem_def]
  constructor
  · intro h hcrlf
    exact h CR hcrlf.1 LF hcrlf.2 ⟨rfl, rfl⟩
  · intro h p hp b hb hcrlf
    obtain ⟨rfl, rfl⟩ := hcrlf
    exact h ⟨hp, hb⟩

theorem separated_normalizeByte : Lookback.Separated normalizeByte := by
  intro p b
  by_cases h : p = CR ∧ b = LF
  · refine Or.inr (fun bs bs' heq ↦ ?_)
    obtain ⟨rfl, rfl⟩ := h
    simp only [normalizeByte, ne_eq, reduceCtorEq, not_false_eq_true, and_self, if_true,
      not_true_eq_false, and_false, if_false, List.cons_append] at heq
    exact absurd (List.cons.inj heq).1 (by decide)
  · exact Or.inl ((normalizeByte_front p b).mpr h)

/-- No call's data ends in a CR whose LF is the next byte of the stream. -/
def KeepsCrLf (chunks : List Bytes) : Prop :=
  ∀ pre post, chunks = pre ++ post →
    ¬(pre.flatten.getLast? = some CR ∧ post.flatten.head? = some LF)

theorem keepsCrLf_iff (chunks : List Bytes) :
    KeepsCrLf chunks ↔ Lookback.CutsApart normalizeByte none chunks := by
  simp only [KeepsCrLf, Lookback.CutsApart, fronts_iff, Option.or_none]

theorem chunked_iff (chunks : List Bytes) :
    chunks.flatMap normalizeNewlines = normalizeNewlines chunks.flatten ↔ KeepsCrLf chunks := by
  rw [keepsCrLf_iff]
  exact Lookback.scanChunks_iff separated_normalizeByte none chunks

theorem write_fed (data : Bytes) (vt : VtTerminal) : (vt.write data).fed = vt.fed ++ data := by
  by_cases h : data = []
  · simp [VtTerminal.write, h]
  · simp [VtTerminal.write, h]

theorem writeGuest_fed (chunks : List Bytes) (vt : VtTerminal) :
    (chunks.foldl (fun vt data ↦ vt.writeGuest data) vt).fed =
      vt.fed ++ chunks.flatMap normalizeNewlines := by
  induction chunks generalizing vt with
  | nil => simp
  | cons data chunks ih =>
    rw [List.foldl_cons, ih, VtTerminal.writeGuest, write_fed, List.flatMap_cons,
      List.append_assoc]

/-- Normalizing piece by piece gives what normalizing the whole gives exactly when no cut
falls between a CR and its LF, for two pieces and for any run of `writeGuest` calls. -/
theorem newlines_chunked_iff (a b : Bytes) (chunks : List Bytes) (vt : VtTerminal) :
    (normalizeNewlines (a ++ b) = normalizeNewlines a ++ normalizeNewlines b ↔
        ¬(a.getLast? = some CR ∧ b.head? = some LF)) ∧
      ((chunks.foldl (fun vt data ↦ vt.writeGuest data) vt).fed =
          vt.fed ++ normalizeNewlines chunks.flatten ↔ KeepsCrLf chunks) := by
  constructor
  · simp only [normalizeNewlines, Lookback.scan_append, List.append_cancel_left_eq]
    rw [eq_comm, Lookback.scan_eq_iff separated_normalizeByte, fronts_iff, Option.or_none]
  · rw [writeGuest_fed, List.append_cancel_left_eq, chunked_iff]

/-- A guest's CR LF that is cut in two reaches the terminal with a second CR. -/
theorem cut_crlf_doubled :
    normalizeNewlines ([CR] ++ [LF]) = [CR, LF] ∧
      normalizeNewlines [CR] ++ normalizeNewlines [LF] = [CR, CR, LF] ∧
      (VtTerminal.writeGuest [LF] (VtTerminal.writeGuest [CR] {})).fed ≠
        normalizeNewlines ([[CR], [LF]] : List Bytes).flatten := by
  decide

end MachineNotebook.Vt.Newlines
