import MachineNotebook.Session.BootDiary

namespace MachineNotebook.Session.Transparency

open MachineNotebook.Lib MachineNotebook.Lib.Utf8 BootFilter Tick BootDiary

/-- A tick that begins with the shell ready gives the terminal the bytes it takes. -/
def Through (op : SessionOp) (s : ProductSession) : Prop :=
  s.shellReady = true →
    (sessionStep op s).1.written.flatten = (sessionStep op s).1.taken.getD []

/-- No disposal comes between the output and the terminal, and the boot filter finds nothing in
the output. -/
def Unfiltered : SessionOp → ProductSession → Prop
  | .tick i, s =>
    s.shellReady = true → i.reaches s = true → ∀ c, i.takeOutput.result = some c → c ≠ [] →
      i.takeOutput.ending = none ∧ Passes c
  | .ending _, _ => True

theorem stripTaken_eq_iff (chunk : Option Bytes) :
    (stripTaken chunk []).1 = chunk.getD [] ↔ ∀ c, chunk = some c → c ≠ [] → Passes c := by
  cases chunk with
  | none => simp [stripTaken]
  | some c =>
    by_cases hc : c = []
    · simp [stripTaken, hc]
    · simp [stripTaken, hc, strip_eq_iff]

theorem stripTaken_held {chunk : Option Bytes} (h : (stripTaken chunk []).1 = chunk.getD []) :
    (stripTaken chunk []).2 = [] := by
  cases chunk with
  | none => rfl
  | some c =>
    by_cases hc : c = []
    · simp [stripTaken, hc]
    · rw [stripTaken, if_neg hc] at h ⊢
      exact ((strip_eq_iff c).mp h).held

variable {s s₁ : ProductSession}

theorem shown_ready {chunk : Option Bytes} {o : TickOut × ProductSession} (hk : Kept s s₁)
    (hs : Shown chunk s₁ o) (hready : s.shellReady = true) (hcarry : s.bootLineCarry = []) :
    o.1.written.flatten = (stripTaken chunk []).1 ∧ o.2.bootLineCarry = (stripTaken chunk []).2 := by
  have hgets : getsReady s₁ = false := by rw [getsReady, hk.shellReady, hready]; rfl
  rw [hs.written, hs.bootLineCarry, hgets, hk.bootLineCarry, hcarry]
  exact ⟨List.append_nil _, rfl⟩

def Released (s : ProductSession) : Prop := s.shellReady = true → s.bootLineCarry = []

theorem released_step (op : SessionOp) (s : ProductSession) (h : Released s) (ht : Through op s) :
    Released (sessionStep op s).2 := by
  have ho := effect_step op s
  rw [Through] at ht
  generalize sessionStep op s = o at *
  intro hready
  cases ho with
  | keeps hk => exact hk.bootLineCarry.trans (h (hk.shellReady ▸ hready))
  | ends he =>
    obtain ⟨hs, hcarry⟩ := he.shellReady hready
    exact hcarry.trans (h hs)
  | @shows chunk s₁ _ hk =>
    have hs := shown_showOutput chunk s₁
    cases hbefore : s.shellReady with
    | false =>
      have hgets := hs.shellReady.symm.trans hready
      rw [hk.shellReady, hbefore, Bool.false_or] at hgets
      rw [hs.bootLineCarry, if_pos hgets]
    | true =>
      obtain ⟨hwritten, hcarry⟩ := shown_ready hk hs hbefore (h hbefore)
      have hthrough := ht hbefore
      rw [hwritten, hs.taken] at hthrough
      rw [hcarry, stripTaken_held hthrough]

theorem through_iff (op : SessionOp) (s : ProductSession) (h : Released s) :
    Through op s ↔ Unfiltered op s := by
  cases op with
  | ending e => exact iff_of_true (fun _ ↦ rfl) trivial
  | tick i =>
    have ho := outcome_tick i s
    rw [Through, Unfiltered]
    generalize sessionStep (.tick i) s = o at *
    generalize i.reaches s = r at *
    refine forall_congr' fun hready ↦ ?_
    cases ho with
    | stops _ => simp
    | loses hending _ =>
      cases hres : i.takeOutput.result with
      | none => simp
      | some c => simp [hending, eq_comm]
    | @shows s₁ hending hk =>
      have hs := shown_showOutput i.takeOutput.result s₁
      obtain ⟨hwritten, -⟩ := shown_ready hk hs hready (h hready)
      rw [hwritten, hs.taken, stripTaken_eq_iff]
      simp [hending]

/-- Every tick of a run that begins with the shell ready passes its output through to the terminal
exactly when none of them takes output that the boot filter changes. -/
theorem transparent_iff (ops : List SessionOp) :
    Run.Along sessionStep Through ops {} ↔ Run.Along sessionStep Unfiltered ops {} :=
  Run.along_congr released_step through_iff (show Released {} from fun _ ↦ rfl)

/-- With the shell ready, a line the user prints that begins like a banner never reaches the
terminal, the beginning of one is held back, and a byte that is not UTF-8 comes out as three. -/
theorem shell_output_stripped :
    let ready := session [ticking true []]
    ready.shellReady = true ∧
      (sessionStep (ticking true (toUtf8 "Booting x\n")) ready).1.written = [] ∧
      (sessionStep (ticking true (toUtf8 "Mounti")) ready).1.written = [] ∧
      (sessionStep (ticking true [0xFF]) ready).1.written = [[0xEF, 0xBF, 0xBD]] ∧
      ¬Run.Along sessionStep Through [ticking true [], ticking true [0xFF]] {} := by
  refine ⟨rfl, rfl, rfl, rfl, ?_⟩
  intro h
  obtain ⟨-, hthrough, -⟩ := h
  exact absurd (hthrough rfl) (by decide)

end MachineNotebook.Session.Transparency
