import MachineNotebook.Session.Tick

namespace MachineNotebook.Session.BootDiary

open MachineNotebook.Lib MachineNotebook.Lib.Utf8 BootFilter Tick

abbrev History := List (SessionOp × TickOut)

def history (ops : List SessionOp) : History := Run.trace sessionStep ops {}

def session (ops : List SessionOp) : ProductSession := Run.final sessionStep ops {}

def chunksOf (h : History) : List Bytes := h.filterMap fun x ↦ x.2.taken

def paintedBy (h : History) : Bytes := (h.flatMap fun x ↦ x.2.written).flatten

def droppedBy (h : History) : List Char := h.flatMap fun x ↦ x.2.dropped

section Append

variable (h : History) (op : SessionOp) (o : TickOut)

theorem chunksOf_append : chunksOf (h ++ [(op, o)]) = chunksOf h ++ o.taken.toList := by
  cases ho : o.taken with
  | none => simp [chunksOf, ho]
  | some c => simp [chunksOf, ho]

theorem paintedBy_append : paintedBy (h ++ [(op, o)]) = paintedBy h ++ o.written.flatten := by
  simp [paintedBy]

theorem droppedBy_append : droppedBy (h ++ [(op, o)]) = droppedBy h ++ o.dropped := by
  simp [droppedBy]

end Append

theorem filterAll_snoc (cs : List Bytes) (c : Bytes) :
    filterAll (cs ++ [c]) = (take c (filterAll cs)).2 := Run.final_append take cs [c] {}

theorem carried_filterAll (cs : List Bytes) : Carried (filterAll cs).bootLineCarry :=
  Run.invariant (I := fun s : Filtered ↦ Carried s.bootLineCarry)
    (fun c s _ ↦ carried_strip s.bootLineCarry c) cs (Or.inl rfl)

theorem filterAll_taken (cs : List Bytes) (chunk : Option Bytes) :
    (filterAll (cs ++ chunk.toList)).bootLineCarry =
        (stripTaken chunk (filterAll cs).bootLineCarry).2 ∧
      (filterAll (cs ++ chunk.toList)).written =
        (filterAll cs).written ++ (stripTaken chunk (filterAll cs).bootLineCarry).1 := by
  cases chunk with
  | none => simp [stripTaken]
  | some c =>
    rw [Option.toList_some, filterAll_snoc]
    by_cases hc : c = []
    · subst hc
      simp [take, stripTaken, (carried_filterAll cs).strip_nil]
    · simp [take, stripTaken, hc]

/-- While the shell is not ready, the session is the boot filter on the chunks it took. -/
structure Linked (h : History) (s : ProductSession) : Prop where
  bootLineCarry : s.bootLineCarry = (filterAll (chunksOf h)).bootLineCarry
  painted : paintedBy h = (filterAll (chunksOf h)).written
  dropped : droppedBy h = []
  counted : (chunksOf h).length ≤ s.readyTicks
  waiting : s.readyTicks < 100

def Booting (h : History) (s : ProductSession) : Prop :=
  s.closed = false → s.shellReady = false → Linked h s

variable {h : History} {s s₁ : ProductSession}

theorem Linked.shown (hl : Linked h s) (hk : Kept s s₁) (op : SessionOp) {chunk : Option Bytes}
    {o : TickOut × ProductSession} (hs : Shown chunk s₁ o) :
    paintedBy (h ++ [(op, o.1)]) = (filterAll (chunksOf (h ++ [(op, o.1)]))).written ∧
      (chunksOf (h ++ [(op, o.1)])).length ≤ o.2.readyTicks ∧
      droppedBy (h ++ [(op, o.1)]) ++ o.2.bootLineCarry =
        (filterAll (chunksOf (h ++ [(op, o.1)]))).bootLineCarry := by
  have hcarry := hk.bootLineCarry.trans hl.bootLineCarry
  obtain ⟨hnext, hwritten⟩ := filterAll_taken (chunksOf h) chunk
  have hflush := (carried_filterAll (chunksOf h ++ chunk.toList)).flush
  rw [chunksOf_append, paintedBy_append, droppedBy_append, hs.taken, hs.written, hs.dropped,
    hs.bootLineCarry, hs.readyTicks, hk.readyTicks, hl.painted, hl.dropped, hcarry, ← hnext, hflush,
    hwritten]
  refine ⟨by simp, ?_, ?_⟩
  · have hlen : chunk.toList.length ≤ 1 := by cases chunk <;> simp
    have hcounted := hl.counted
    rw [List.length_append]
    omega
  · cases getsReady s₁
    · simp
    · simp

theorem Linked.kept (hl : Linked h s) (hk : Kept s s₁) (op : SessionOp) :
    Linked (h ++ [(op, ({} : TickOut))]) s₁ := by
  have hchunks : chunksOf (h ++ [(op, ({} : TickOut))]) = chunksOf h := by simp [chunksOf]
  constructor
  · rw [hchunks, hk.bootLineCarry, hl.bootLineCarry]
  · rw [hchunks, paintedBy_append, hl.painted]
    simp
  · rw [droppedBy_append, hl.dropped]
    rfl
  · rw [hchunks, hk.readyTicks]
    exact hl.counted
  · rw [hk.readyTicks]
    exact hl.waiting

theorem booting_step (h : History) (op : SessionOp) (s : ProductSession) (hb : Booting h s) :
    Booting (h ++ [(op, (sessionStep op s).1)]) (sessionStep op s).2 := by
  intro hclosed hready
  have ho := effect_step op s
  generalize sessionStep op s = o at *
  cases ho with
  | keeps hk => exact (hb (hk.closed ▸ hclosed) (hk.shellReady ▸ hready)).kept hk op
  | ends he => exact absurd (he.closed.symm.trans hclosed) (by simp)
  | @shows chunk s₁ hopen hk =>
    have hs := shown_showOutput chunk s₁
    obtain ⟨hready₁, hgets⟩ := Bool.or_eq_false_iff.mp (hs.shellReady.symm.trans hready)
    have hl := hb hopen (hk.shellReady ▸ hready₁)
    obtain ⟨hpainted, hcounted, hcarry⟩ := hl.shown hk op hs
    have hdropped : droppedBy (h ++ [(op, (showOutput chunk s₁).1)]) = [] := by
      rw [droppedBy_append, hl.dropped, hs.dropped, hgets]
      rfl
    have hwaiting : ¬100 ≤ s₁.readyTicks + 1 := by
      intro hticks
      rw [getsReady, hready₁, decide_eq_true hticks] at hgets
      exact absurd hgets (by simp)
    rw [hdropped, List.nil_append] at hcarry
    refine ⟨hcarry, hpainted, hdropped, hcounted, ?_⟩
    rw [hs.readyTicks]
    omega

theorem linked_start : Linked [] {} := ⟨rfl, rfl, rfl, Nat.le_refl 0, by decide⟩

theorem booting_run (ops : List SessionOp) : Booting (history ops) (session ops) :=
  Run.trace_invariant booting_step ops (show Booting [] {} from fun _ _ ↦ linked_start)

/-- Up to the tick that makes the shell ready, the filter's output is what is painted, and its
carry is what that tick loses. -/
theorem ready_shown {op : SessionOp} (hb : Booting h s) (hs : s.shellReady = false)
    (hs' : (sessionStep op s).2.shellReady = true) :
    paintedBy (h ++ [(op, (sessionStep op s).1)]) =
        (filterAll (chunksOf (h ++ [(op, (sessionStep op s).1)]))).written ∧
      droppedBy (h ++ [(op, (sessionStep op s).1)]) =
        (filterAll (chunksOf (h ++ [(op, (sessionStep op s).1)]))).bootLineCarry ∧
      (chunksOf (h ++ [(op, (sessionStep op s).1)])).length ≤ 100 := by
  have ho := effect_step op s
  generalize sessionStep op s = o at *
  cases ho with
  | keeps hk => exact absurd (hk.shellReady.symm.trans hs') (by simp [hs])
  | ends he => exact absurd ((he.shellReady hs').1.symm.trans hs) (by simp)
  | @shows chunk s₁ hopen hk =>
    have hshown := shown_showOutput chunk s₁
    have hgets : getsReady s₁ = true := by
      have h := hshown.shellReady.symm.trans hs'
      rwa [hk.shellReady, hs, Bool.false_or] at h
    have hl := hb hopen hs
    obtain ⟨hpainted, hcounted, hcarry⟩ := hl.shown hk op hshown
    rw [hshown.bootLineCarry, if_pos hgets, List.append_nil] at hcarry
    have hwaiting := hl.waiting
    rw [hshown.readyTicks, hk.readyTicks] at hcounted
    exact ⟨hpainted, hcarry, by omega⟩

/-- A tick that nothing stops: it takes `c`, and `status` says whether the shell is at its prompt. -/
def ticking (atPrompt : Bool) (c : Bytes) : SessionOp :=
  .tick { status := ⟨some atPrompt, none⟩, takeOutput := ⟨some c, none⟩ }

theorem ticking_step (hloop : s.loop = true) (hclosed : s.closed = false) (b : Bool) (c : Bytes) :
    sessionStep (ticking b c) s = showOutput (some c) { s with atPrompt := b } := by
  simp [sessionStep, ticking, hloop, hclosed, tickOnce, runTicks, readStatus, takeOutput, Await.after]

structure Waiting (n : ℕ) (s : ProductSession) : Prop where
  loop : s.loop = true
  closed : s.closed = false
  shellReady : s.shellReady = false
  readyTicks : s.readyTicks = n

theorem Waiting.tick {n : ℕ} (hw : Waiting n s) (hn : n + 1 < 100) (c : Bytes) :
    Waiting (n + 1) (sessionStep (ticking false c) s).2 ∧
      (sessionStep (ticking false c) s).1.taken = some c := by
  rw [ticking_step hw.loop hw.closed]
  have hs := shown_showOutput (some c) { s with atPrompt := false }
  have hgets : getsReady { s with atPrompt := false } = false := by
    simp only [getsReady, hw.shellReady, hw.readyTicks, Bool.not_false, Bool.false_or, Bool.true_and,
      decide_eq_false_iff_not]
    omega
  refine ⟨⟨hs.loop.trans hw.loop, hs.closed.trans hw.closed, ?_, ?_⟩, hs.taken⟩
  · rw [hs.shellReady, hgets, Bool.or_false]
    exact hw.shellReady
  · rw [hs.readyTicks]
    exact congrArg (· + 1) hw.readyTicks

theorem Waiting.run {n : ℕ} (hw : Waiting n s) (cs : List Bytes) (hn : n + cs.length < 100) :
    Waiting (n + cs.length) (Run.final sessionStep (cs.map (ticking false)) s) ∧
      chunksOf (Run.trace sessionStep (cs.map (ticking false)) s) = cs := by
  induction cs generalizing n s with
  | nil => exact ⟨hw, rfl⟩
  | cons c cs ih =>
    rw [List.length_cons] at hn
    obtain ⟨hw', htaken⟩ := hw.tick (by omega) c
    obtain ⟨hfinal, hchunks⟩ := ih hw' (by omega)
    refine ⟨?_, ?_⟩
    · rw [List.length_cons, show n + (cs.length + 1) = n + 1 + cs.length by omega]
      exact hfinal
    · rw [List.map_cons, Run.trace_cons, chunksOf, List.filterMap_cons, htaken]
      exact congrArg (c :: ·) hchunks

/-- Chunks that do not outlast the wait for the prompt can be all that a booting session takes. -/
theorem exists_ready (cs : List Bytes) (c : Bytes) (hlen : cs.length < 100) :
    ∃ ops op, (session ops).shellReady = false ∧
      (sessionStep op (session ops)).2.shellReady = true ∧
      chunksOf (history ops ++ [(op, (sessionStep op (session ops)).1)]) = cs ++ [c] := by
  have hw : Waiting 0 ({} : ProductSession) := ⟨rfl, rfl, rfl, rfl⟩
  obtain ⟨hwaiting, hchunks⟩ : Waiting (0 + cs.length) (session (cs.map (ticking false))) ∧
      chunksOf (history (cs.map (ticking false))) = cs := hw.run cs (by omega)
  refine ⟨cs.map (ticking false), ticking true c, hwaiting.shellReady, ?_, ?_⟩
  · rw [ticking_step hwaiting.loop hwaiting.closed, (shown_showOutput _ _).shellReady]
    simp [getsReady]
  · rw [chunksOf_append, ticking_step hwaiting.loop hwaiting.closed, (shown_showOutput _ _).taken]
    exact congrArg (· ++ [c]) hchunks

/-- Whatever tick makes the shell ready, the terminal has been given the stream without its boot
banners, and no text was lost, exactly when the first hundred chunks are cut fairly. -/
theorem boot_filter_iff (chunks : List Bytes) :
    (∀ ops op, (session ops).shellReady = false → (session (ops ++ [op])).shellReady = true →
        chunksOf (history (ops ++ [op])) <+: chunks →
        paintedBy (history (ops ++ [op])) =
            withoutBanners (chunksOf (history (ops ++ [op]))).flatten ∧
          droppedBy (history (ops ++ [op])) = []) ↔
      FairCuts (chunks.take 100) := by
  have hsnoc (ops : List SessionOp) (op : SessionOp) :
      history (ops ++ [op]) = history ops ++ [(op, (sessionStep op (session ops)).1)] ∧
        session (ops ++ [op]) = (sessionStep op (session ops)).2 :=
    ⟨Run.trace_append sessionStep ops [op] {}, Run.final_append sessionStep ops [op] {}⟩
  rw [← exact_iff]
  constructor
  · intro h pre hpre
    rcases List.eq_nil_or_concat pre with rfl | ⟨cs, c, rfl⟩
    · exact ⟨rfl, rfl⟩
    · rw [List.concat_eq_append] at hpre ⊢
      have hlen := hpre.length_le
      rw [List.length_append, List.length_singleton, List.length_take] at hlen
      obtain ⟨ops, op, hs, hs', hchunks⟩ := exists_ready cs c (by omega)
      obtain ⟨hhistory, hsession⟩ := hsnoc ops op
      obtain ⟨hpainted, hdropped, -⟩ := ready_shown (booting_run ops) hs hs'
      rw [← hsession] at hs'
      rw [← hhistory] at hpainted hdropped hchunks
      have hpre : chunksOf (history (ops ++ [op])) <+: chunks :=
        hchunks ▸ hpre.trans (List.take_prefix 100 chunks)
      obtain ⟨hall, hnone⟩ := h ops op hs hs' hpre
      rw [hchunks] at hpainted hdropped hall
      rw [Filtered.Exact, ← hdropped, ← hpainted, taken_filterAll]
      exact ⟨hnone, hall⟩
  · intro h ops op hs hs' hpre
    obtain ⟨hhistory, hsession⟩ := hsnoc ops op
    rw [hsession] at hs'
    obtain ⟨hpainted, hdropped, hlen⟩ := ready_shown (booting_run ops) hs hs'
    rw [hhistory] at hpre ⊢
    have hexact := h _ (List.prefix_take_iff.mpr ⟨hpre, hlen⟩)
    refine ⟨?_, hdropped.trans hexact.1⟩
    rw [hpainted, hexact.2, taken_filterAll]

/-- A banner that is cut in two is painted, one that is not cut is dropped, and text that only
begins like a banner is lost at the prompt. -/
theorem cut_banner_painted :
    let uncut := [ticking true (toUtf8 "Booting kernel\n")]
    let cut := [ticking false (toUtf8 "Booting ker"), ticking true (toUtf8 "nel\n")]
    let begun := [ticking true (toUtf8 "Bootin")]
    (session (cut.take 1)).shellReady = false ∧ (session cut).shellReady = true ∧
      (session uncut).shellReady = true ∧ (session begun).shellReady = true ∧
      (chunksOf (history cut)).flatten = (chunksOf (history uncut)).flatten ∧
      paintedBy (history uncut) = [] ∧
      paintedBy (history cut) = toUtf8 "Booting kernel\n" ∧
      withoutBanners (chunksOf (history cut)).flatten = [] ∧
      paintedBy (history begun) = [] ∧ droppedBy (history begun) = "Bootin".toList ∧
      withoutBanners (chunksOf (history begun)).flatten = toUtf8 "Bootin" := by
  decide

end MachineNotebook.Session.BootDiary
