import MachineNotebook.Lib.Journal
import MachineNotebook.Notebook.Controller
import Mathlib.Data.List.Nodup

namespace MachineNotebook.Notebook.History

open MachineNotebook.Lib Run Dart.Bindings Dart.Text Vt.Frame Document FreezePolicy Controller
open NotebookController

section Ids

theorem toString_injective {m n : ℕ} (h : toString m = toString n) : m = n := by
  have hdigits : Nat.toDigits 10 m = Nat.toDigits 10 n := by
    simpa only [Nat.toString_eq_repr, Nat.toList_repr] using congrArg String.toList h
  have hvalue := congrArg (fun digits ↦ Nat.ofDigitChars 10 digits 0) hdigits
  simpa only [Nat.ofDigitChars_ten_toDigits] using hvalue

/-- The three ways an id is made of the counter. -/
def IsId (id : String) (n : ℕ) : Prop := id = termId n ∨ id = msgId n ∨ id = agentId n

theorem append_ne_append {a b : String} {x y : Char} {as bs : List Char} (ha : a.toList = x :: as)
    (hb : b.toList = y :: bs) (hxy : x ≠ y) (s t : String) : a ++ s ≠ b ++ t := by
  intro h
  have hlist := congrArg String.toList h
  rw [String.toList_append, String.toList_append, ha, hb] at hlist
  exact hxy (List.cons.inj hlist).1

theorem termId_ne_msgId (m n : ℕ) : termId m ≠ msgId n :=
  append_ne_append (x := 't') (y := 'm') rfl rfl (by decide) _ _

theorem termId_ne_agentId (m n : ℕ) : termId m ≠ agentId n :=
  append_ne_append (x := 't') (y := 'a') rfl rfl (by decide) _ _

theorem msgId_ne_agentId (m n : ℕ) : msgId m ≠ agentId n :=
  append_ne_append (x := 'm') (y := 'a') rfl rfl (by decide) _ _

theorem IsId.unique {id : String} {m n : ℕ} (hm : IsId id m) (hn : IsId id n) : m = n := by
  rcases hm with rfl | rfl | rfl
  · rcases hn with h | h | h
    · exact toString_injective ((String.append_right_inj _).mp h)
    · exact absurd h (termId_ne_msgId m n)
    · exact absurd h (termId_ne_agentId m n)
  · rcases hn with h | h | h
    · exact absurd h.symm (termId_ne_msgId n m)
    · exact toString_injective ((String.append_right_inj _).mp h)
    · exact absurd h (msgId_ne_agentId m n)
  · rcases hn with h | h | h
    · exact absurd h.symm (termId_ne_agentId n m)
    · exact absurd h.symm (msgId_ne_agentId n m)
    · exact toString_injective ((String.append_right_inj _).mp h)

def ids (c : NotebookController) : List String := c.timeline.map NotebookCell.id

/-- The ids of the history are distinct and made from counters that have been used. -/
structure IdsOk (c : NotebookController) : Prop where
  nodup : (ids c).Nodup
  issued : ∀ id ∈ ids c, ∃ n, n ≤ c.seq ∧ IsId id n

theorem IdsOk.fresh {c : NotebookController} (h : IdsOk c) {id : String} {n : ℕ} (hid : IsId id n)
    (hn : c.seq < n) : id ∉ ids c := by
  intro hmem
  obtain ⟨m, hm, hid'⟩ := h.issued id hmem
  have hmn := hid'.unique hid
  omega

theorem IdsOk.append {c c' : NotebookController} {cells : List NotebookCell} (h : IdsOk c)
    (ht : c'.timeline = c.timeline ++ cells) (hseq : c.seq ≤ c'.seq)
    (hnodup : (cells.map NotebookCell.id).Nodup)
    (hnew : ∀ cell ∈ cells, ∃ n, c.seq < n ∧ n ≤ c'.seq ∧ IsId cell.id n) : IdsOk c' := by
  have hids : ids c' = ids c ++ cells.map NotebookCell.id := by rw [ids, ht, List.map_append, ids]
  constructor
  · rw [hids]
    refine h.nodup.append hnodup fun id hold hid ↦ ?_
    obtain ⟨cell, hcell, rfl⟩ := List.mem_map.mp hid
    obtain ⟨n, hn, -, hcellId⟩ := hnew cell hcell
    exact h.fresh hcellId hn hold
  · intro id hmem
    rw [hids, List.mem_append] at hmem
    rcases hmem with hold | hid
    · obtain ⟨n, hn, hid⟩ := h.issued id hold
      exact ⟨n, by omega, hid⟩
    · obtain ⟨cell, hcell, rfl⟩ := List.mem_map.mp hid
      obtain ⟨n, -, hn, hcellId⟩ := hnew cell hcell
      exact ⟨n, hn, hcellId⟩

theorem idsOk_step (op : NotebookOp) (c : NotebookController) (h : IdsOk c) :
    IdsOk (notebookStep op c).2 := by
  have happ := appended_step op c
  generalize (notebookStep op c).2 = c' at happ
  cases happ with
  | nothing _ ht _ hs =>
    refine ⟨?_, ?_⟩
    · rw [ids, ht]
      exact h.nodup
    · rw [ids, ht, hs]
      exact h.issued
  | freeze _ _ _ _ _ ht _ hs _ =>
    refine h.append ht (by omega) (List.nodup_singleton _) fun cell hcell ↦ ?_
    obtain rfl := List.mem_singleton.mp hcell
    exact ⟨c.seq + 1, by omega, by omega, Or.inl rfl⟩
  | message _ _ hcells _ ht _ hs =>
    subst hcells
    refine h.append ht (by omega) ?_ fun cell hcell ↦ ?_
    · simpa [NotebookCell.id] using msgId_ne_agentId _ _
    · rcases List.mem_pair.mp hcell with rfl | rfl
      · exact ⟨c.seq + 1, by omega, by omega, Or.inr (Or.inl rfl)⟩
      · exact ⟨c.seq + 2, by omega, by omega, Or.inr (Or.inr rfl)⟩

end Ids

section Timeline

theorem appends_addedCells : Journal.Appends notebookStep timeline addedCells := by
  intro op c
  have happ := appended_step op c
  generalize (notebookStep op c).2 = c' at happ
  cases happ with
  | nothing hadded ht _ _ => rw [ht, hadded, List.append_nil]
  | freeze _ _ _ _ hadded ht _ _ _ => rw [ht, hadded]
  | message _ _ _ hadded ht _ _ => rw [ht, hadded]

/-- The notebook after some operations, from the start. -/
def after (ops : List NotebookOp) : NotebookController := final notebookStep ops {}

/-- One of the operations found `k` cells in the history and appended these to it. -/
def AppendedAt (ops : List NotebookOp) (k : ℕ) (op : NotebookOp) (cells : List NotebookCell) : Prop :=
  ∃ pre post, ops = pre ++ op :: post ∧ (after pre).timeline.length = k ∧
    (after (pre ++ [op])).timeline = (after pre).timeline ++ cells

/-- A message at `k`, with the agent turn that was appended with it. -/
def SentAt (ops : List NotebookOp) (k : ℕ) (you agent : NotebookCell) : Prop :=
  (after ops).timeline[k]? = some you ∧ (after ops).timeline[k + 1]? = some agent ∧
    ∃ typed, trim typed ≠ [] ∧ AppendedAt ops k (.submitUserMessage typed) [you, agent] ∧
      (∃ id, you = .userMessage id (trim typed)) ∧ ∃ id summary, agent = .agentTurn id summary

/-- A freeze at `k`, by a way out of the terminal that found a frame worth one. -/
def FrozenAt (ops : List NotebookOp) (k : ℕ) (id : String) (frame : VtFrame) : Prop :=
  ∃ live, isWorthFreezing live = some true ∧ apply live = some frame ∧
    ∃ pre post, ops = pre ++ .enterAsk (some live) :: post ∧ (after pre).timeline.length = k ∧
      (after pre).mode = .terminal ∧
      (after (pre ++ [.enterAsk (some live)])).mode = .naturalLanguage ∧
      (after (pre ++ [.enterAsk (some live)])).timeline =
        (after pre).timeline ++ [.terminalFreeze id frame]

/-- What a cell of the history at `k` stands for. -/
def Explained (ops : List NotebookOp) (k : ℕ) : NotebookCell → Prop
  | .terminalFreeze id frame => FrozenAt ops k id frame
  | .userMessage id text => ∃ agent, SentAt ops k (.userMessage id text) agent
  | .agentTurn id summary => ∃ j you, k = j + 1 ∧ SentAt ops j you (.agentTurn id summary)

theorem after_concat (pre : List NotebookOp) (op : NotebookOp) :
    after (pre ++ [op]) = (notebookStep op (after pre)).2 := by
  rw [after, final_append]
  rfl

/-- Every cell came with one operation, in the place where that operation put it. -/
theorem explained (ops : List NotebookOp) {k : ℕ} {cell : NotebookCell}
    (h : (after ops).timeline[k]? = some cell) : Explained ops k cell := by
  obtain ⟨pre, op, post, j, rfl, hk, hcell⟩ := appends_addedCells.origin (Nat.zero_le k) h
  have hlen : (after pre).timeline.length + j = k := hk
  have happ := appended_step op (after pre)
  rw [← after_concat] at happ
  have hcell : (addedCells op (after pre))[j]? = some cell := hcell
  cases happ with
  | nothing hadded _ _ _ =>
    rw [hadded] at hcell
    cases hcell
  | freeze hop hm hworth hframe hadded ht _ _ hm' =>
    subst hop
    rw [hadded] at hcell
    match j, hcell with
    | 0, hcell =>
      obtain rfl := Option.some.inj hcell
      exact ⟨_, hworth, hframe, pre, post, rfl, hlen, hm, hm', ht⟩
  | @message text cells hop hne hcells hadded ht _ _ =>
    subst hop
    have hkept (i : ℕ) (a : NotebookCell) (ha : cells[i]? = some a) :
        (after (pre ++ .submitUserMessage text :: post)).timeline[(after pre).timeline.length + i]? =
          some a := by
      refine appends_addedCells.kept ?_
      exact hadded ▸ ha
    rw [hadded] at hcell
    subst hcells
    have hsent : SentAt (pre ++ .submitUserMessage text :: post) (after pre).timeline.length
        (.userMessage (msgId ((after pre).seq + 1)) (trim text))
        (.agentTurn (agentId ((after pre).seq + 2)) agentSummary) :=
      ⟨hkept 0 _ rfl, hkept 1 _ rfl, text, hne, ⟨pre, post, rfl, rfl, ht⟩, ⟨_, rfl⟩, ⟨_, _, rfl⟩⟩
    match j, hcell with
    | 0, hcell =>
      obtain rfl := Option.some.inj hcell
      rw [← hlen]
      exact ⟨_, hsent⟩
    | 1, hcell =>
      obtain rfl := Option.some.inj hcell
      exact ⟨_, _, hlen.symm, hsent⟩

theorem revision_step (op : NotebookOp) (c : NotebookController) :
    (notebookStep op c).2.revision =
      if (notebookStep op c).2.timeline = c.timeline then c.revision else c.revision + 1 := by
  have happ := appended_step op c
  generalize (notebookStep op c).2 = c' at happ
  cases happ with
  | nothing _ ht hr _ => rw [if_pos ht, hr]
  | freeze _ _ _ _ _ ht hr _ _ =>
    have hgrows : c'.timeline ≠ c.timeline := by simp [ht]
    rw [if_neg hgrows, hr]
  | message _ _ hcells _ ht hr _ =>
    have hgrows : c'.timeline ≠ c.timeline := by simp [ht, hcells]
    rw [if_neg hgrows, hr]

/-- The history of the notebook after any operations: nothing of it is ever taken away or changed,
the revision counts its extensions, its ids are distinct, and each cell is explained by one
operation. -/
theorem append_only_history (ops : List NotebookOp) :
    (∀ op, (after ops).timeline <+: (after (ops ++ [op])).timeline ∧
        (after (ops ++ [op])).revision =
          if (after (ops ++ [op])).timeline = (after ops).timeline then (after ops).revision
          else (after ops).revision + 1) ∧
      (ids (after ops)).Nodup ∧
      (∀ k id text, (after ops).timeline[k]? = some (.userMessage id text) →
        text ≠ [] ∧ trim text = text ∧ ∃ agent, SentAt ops k (.userMessage id text) agent) ∧
      (∀ k id summary, (after ops).timeline[k]? = some (.agentTurn id summary) →
        ∃ j you, k = j + 1 ∧ SentAt ops j you (.agentTurn id summary)) ∧
      ∀ k id frame, (after ops).timeline[k]? = some (.terminalFreeze id frame) →
        FrozenAt ops k id frame := by
  refine ⟨fun op ↦ ?_, ?_, fun k id text h ↦ ?_, fun k id summary h ↦ explained ops h,
    fun k id frame h ↦ explained ops h⟩
  · rw [after_concat]
    refine ⟨?_, revision_step op (after ops)⟩
    rw [appends_addedCells]
    exact List.prefix_append _ _
  · have hstart : IdsOk {} := ⟨List.nodup_nil, fun id h ↦ absurd h List.not_mem_nil⟩
    exact (invariant idsOk_step ops hstart).nodup
  · obtain ⟨agent, hsent⟩ := explained ops h
    refine and_assoc.mp ⟨?_, agent, hsent⟩
    obtain ⟨-, -, typed, hne, -, ⟨id', hyou⟩, -⟩ := hsent
    obtain ⟨-, htext⟩ := NotebookCell.userMessage.inj hyou
    rw [htext]
    exact ⟨hne, trim_trim typed⟩

end Timeline

end MachineNotebook.Notebook.History
