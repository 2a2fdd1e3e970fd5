import MachineNotebook.Vt.Snapshot

namespace MachineNotebook.Vt.FailedReads

open MachineNotebook.Lib Vt.Frame Render Snapshot

section Failing

variable {T M : Type}

/-- The rows from row `y` on, where the cells of some rows cannot be read. -/
def failRows (fails : ℕ → Bool) : ℕ → List NativeRow → List NativeRow
  | _, [] => []
  | y, row :: rows =>
    (if fails y then { row with cells := none } else row) :: failRows fails (y + 1) rows

def failReads (fails : ℕ → Bool) (state : RenderState) : RenderState :=
  { state with rowIterator := state.rowIterator.map (failRows fails 0) }

def failing (native : GhosttyVt T M) (fails : ℕ → Bool) : GhosttyVt T M :=
  { native with
    renderStateUpdate := fun terminal state ↦
      (native.renderStateUpdate terminal state).map (Prod.map id (failReads fails)) }

theorem length_failRows (fails : ℕ → Bool) (y : ℕ) (rows : List NativeRow) :
    (failRows fails y rows).length = rows.length := by
  induction rows generalizing y with
  | nil => rfl
  | cons row rows ih => simp only [failRows, List.length_cons, ih]

theorem failRows_none {fails : ℕ → Bool} (hnone : ∀ y, fails y = false) (y : ℕ)
    (rows : List NativeRow) : failRows fails y rows = rows := by
  induction rows generalizing y with
  | nil => rfl
  | cons row rows ih => simp [failRows, hnone, ih]

theorem failReads_none {fails : ℕ → Bool} (hnone : ∀ y, fails y = false) (state : RenderState) :
    failReads fails state = state := by
  have hrows : state.rowIterator.map (failRows fails 0) = state.rowIterator := by
    cases state.rowIterator with
    | error rc => rfl
    | ok rows => exact congrArg Except.ok (failRows_none hnone 0 rows)
  rw [failReads, hrows]

theorem failing_update {native : GhosttyVt T M} {t t' : T} {state state' : RenderState}
    (fails : ℕ → Bool) (hupdate : native.renderStateUpdate t state = .ok (t', state')) :
    (failing native fails).renderStateUpdate t state = .ok (t', failReads fails state') := by
  simp only [failing, hupdate]
  rfl

end Failing

section Reads

variable {previous : Option VtFrame} {state : RenderState} {c r : ℕ} {rows : List NativeRow}
  {base lastRead : Option Cleared} {d : Cleared}

theorem answers_failReads (fails : ℕ → Bool) (ha : Answers state c r rows) :
    Answers (failReads fails state) c r (failRows fails 0 rows) := by
  refine ⟨ha.readCols, ha.readRows, ?_⟩
  rw [failReads, ha.readIterator]
  rfl

def latestRead (isPartial : Bool) (row : NativeRow) (old : Option (List NativeCell)) :
    Option (List NativeCell) :=
  if rowDirty isPartial row then row.cells.or old else old

/-- The last reads that a pass goes on from: of no row, where it starts from blanks. -/
def startReads (isPartial : Bool) (lastRead : Option Cleared) (n : ℕ) :
    List (Option (List NativeCell)) :=
  if isPartial then (lastRead.map Cleared.cells).getD [] else List.replicate n none

def readBy (previous : Option VtFrame) (state : RenderState) (lastRead : Option Cleared) :
    Option Cleared :=
  match state.cols, state.rows, state.rowIterator with
  | .ok c, .ok r, .ok rows =>
    let isPartial := (merged c r previous state).isSome
    if globalDirty state = .clean ∧ (sameSize c r previous).isSome then lastRead
    else some ⟨c, r,
      List.zipWith (latestRead isPartial) rows (startReads isPartial lastRead rows.length)⟩
  | _, _, _ => lastRead

def TakenOver (previous : Option VtFrame) (state : RenderState) (c r : ℕ) (row : NativeRow) : Prop :=
  globalDirty state = .clean ∧ (sameSize c r previous).isSome ∨
    (merged c r previous state).isSome ∧ row.dirty = some false

theorem readBy_reuse (ha : Answers state c r rows)
    (hreuse : globalDirty state = .clean ∧ (sameSize c r previous).isSome) :
    readBy previous state lastRead = lastRead := by
  simp only [readBy, ha.readCols, ha.readRows, ha.readIterator, if_pos hreuse]

theorem readBy_walk (ha : Answers state c r rows)
    (hwalk : ¬(globalDirty state = .clean ∧ (sameSize c r previous).isSome)) :
    readBy previous state lastRead = some ⟨c, r,
      List.zipWith (latestRead (merged c r previous state).isSome) rows
        (startReads (merged c r previous state).isSome lastRead rows.length)⟩ := by
  simp only [readBy, ha.readCols, ha.readRows, ha.readIterator, if_neg hwalk]

theorem readRow_rowCells (isPartial : Bool) (row : NativeRow) (old : Option (List NativeCell)) :
    readRow c isPartial row (rowCells c (old.getD [])) =
      rowCells c ((latestRead isPartial row old).getD []) := by
  rw [readRow, latestRead]
  split
  · cases row.cells with
    | none => rfl
    | some cells => rfl
  · rfl

theorem readRows_rowCells (isPartial : Bool) (rows : List NativeRow)
    (old : List (Option (List NativeCell))) :
    List.zipWith (readRow c isPartial) rows (old.map fun cells ↦ rowCells c (cells.getD [])) =
      (List.zipWith (latestRead isPartial) rows old).map fun cells ↦ rowCells c (cells.getD []) := by
  rw [List.zipWith_map_right, List.map_zipWith]
  simp only [readRow_rowCells]

theorem startBlocks_eq (c : ℕ) (state : RenderState) (hlen : rows.length = r)
    (hshows : ∀ p ∈ previous, ∃ a ∈ lastRead, Shows p a) :
    let old := startReads (merged c r previous state).isSome lastRead rows.length
    ((merged c r previous state).map VtFrame.cells).getD (List.replicate (c * r) blankCell) =
      (old.map fun cells ↦ rowCells c (cells.getD [])).flatten ∧ old.length = rows.length := by
  cases hmerged : merged c r previous state with
  | none =>
    have hblank : rowCells c [] = List.replicate c blankCell := by simp [rowCells]
    simp only [startReads, Option.isSome_none, Bool.false_eq_true, if_false, Option.map_none,
      Option.getD_none, List.map_replicate, hblank, List.flatten_replicate_replicate, hlen,
      Nat.mul_comm r c, List.length_replicate, and_self]
  | some p =>
    obtain ⟨-, hsame⟩ := Option.ite_none_right_eq_some.mp hmerged
    obtain ⟨hprev, hc, hr⟩ := sameSize_eq_some hsame
    obtain ⟨a, ha, hp⟩ := hshows p hprev
    cases ha
    have hac : a.cols = c := hp.cols.symm.trans hc
    have hcells : p.cells = (a.cells.map fun cells ↦ rowCells c (cells.getD [])).flatten := by
      rw [hp.cells, Cleared.blocks, hac]
    refine ⟨hcells, ?_⟩
    exact hp.length.trans (hp.rows.symm.trans (hr.trans hlen.symm))

/-- Whatever reads fail, a frame shows what was last read of each row. -/
theorem projectUpdated_reads (ha : Answers state c r rows) (hlen : rows.length = r)
    (hshows : ∀ p ∈ previous, ∃ a ∈ lastRead, Shows p a) :
    ∃ frame state', projectUpdated previous state = .ok (frame, state') ∧
      frame.cols = c ∧ frame.rows = r ∧ ∃ a ∈ readBy previous state lastRead, Shows frame a := by
  by_cases hreuse : globalDirty state = .clean ∧ (sameSize c r previous).isSome
  · obtain ⟨p, hsame⟩ := Option.isSome_iff_exists.mp hreuse.2
    obtain ⟨frame, hframe, hcols, hrows, hcells, -⟩ := projectUpdated_reuse ha hreuse.1 hsame
    obtain ⟨hprev, hc, hr⟩ := sameSize_eq_some hsame
    obtain ⟨a, hlast, hp⟩ := hshows p hprev
    refine ⟨frame, _, hframe, hcols.trans hc, hrows.trans hr, a, ?_, ?_⟩
    · rwa [readBy_reuse ha hreuse]
    · exact ⟨hcols.trans hp.cols, hrows.trans hp.rows, hcells.trans hp.cells, hp.length⟩
  · have hwalk : globalDirty state = .clean → sameSize c r previous = none := by
      intro hclean
      by_contra hne
      exact hreuse ⟨hclean, Option.isSome_iff_ne_none.mpr hne⟩
    obtain ⟨frame, hframe, hcols, hrows, hcells, -⟩ := projectUpdated_walk ha hwalk
    obtain ⟨hstart, hold⟩ := startBlocks_eq c state hlen hshows
    refine ⟨frame, _, hframe, hcols, hrows, _, readBy_walk ha hreuse, hcols, hrows, ?_, ?_⟩
    · rw [hcells, hstart, ← List.nil_append (List.flatten _),
        projectRows_read [] (by rw [List.length_map, hold]) _ (by simp) (by omega),
        List.nil_append, readRows_rowCells]
      · rfl
      · intro block hblock
        obtain ⟨cells, -, rfl⟩ := List.mem_map.mp hblock
        exact length_rowCells c _
    · rw [List.length_zipWith, hold, min_self, hlen]

theorem flatten_eq_screen_iff {blocks : List (List VtCell)} (hlen : blocks.length = rows.length)
    (hwidth : ∀ block ∈ blocks, block.length = c) :
    blocks.flatten = screenCells c rows ↔ blocks = rows.map (shownRow c) := by
  have hwidths : blocks.map List.length = (rows.map (shownRow c)).map List.length := by
    rw [List.map_eq_replicate_iff.mpr hwidth, List.map_eq_replicate_iff.mpr (length_shownRow rows),
      List.length_map, hlen]
  rw [screenCells, List.eq_iff_flatten_eq]
  exact (and_iff_left hwidths).symm

theorem rowDirty_eq_false (row : NativeRow) : rowDirty true row = false ↔ row.dirty = some false := by
  cases hrow : row.dirty with
  | none => simp [rowDirty, hrow]
  | some flag => simp [rowDirty, hrow]

theorem walked_block {old : List (Option (List NativeCell))} (isPartial : Bool) {y : ℕ}
    {row : NativeRow} (hy : rows[y]? = some row) (hold : old.length = rows.length) :
    ∃ cells, old[y]? = some cells ∧
      (Cleared.mk c r (List.zipWith (latestRead isPartial) rows old)).blocks[y]? =
        some (rowCells c ((latestRead isPartial row cells).getD [])) := by
  have hlt : y < old.length := by
    obtain ⟨hlt, -⟩ := List.getElem?_eq_some_iff.mp hy
    omega
  refine ⟨_, List.getElem?_eq_getElem hlt, ?_⟩
  rw [Cleared.blocks, List.getElem?_map, List.getElem?_zipWith, hy, List.getElem?_eq_getElem hlt]
  rfl

/-- A row taken over keeps what was last read of it. -/
theorem block_of_takenOver (ha : Answers state c r rows) (hlen : rows.length = r)
    (hshows : ∀ p ∈ previous, ∃ a ∈ lastRead, Shows p a) {y : ℕ} {row : NativeRow}
    (hy : rows[y]? = some row) (htaken : TakenOver previous state c r row)
    (hd : d ∈ readBy previous state lastRead) :
    ∃ a ∈ lastRead, d.blocks[y]? = a.blocks[y]? := by
  by_cases hreuse : globalDirty state = .clean ∧ (sameSize c r previous).isSome
  · rw [readBy_reuse ha hreuse] at hd
    exact ⟨d, hd, rfl⟩
  · obtain ⟨hmerged, hflag⟩ := htaken.resolve_left hreuse
    obtain ⟨p, hp⟩ := Option.isSome_iff_exists.mp hmerged
    obtain ⟨-, hsame⟩ := Option.ite_none_right_eq_some.mp hp
    obtain ⟨hprev, hc, hr⟩ := sameSize_eq_some hsame
    obtain ⟨a, hlast, hpa⟩ := hshows p hprev
    have hac : a.cols = c := hpa.cols.symm.trans hc
    have hold : a.cells.length = rows.length :=
      hpa.length.trans (hpa.rows.symm.trans (hr.trans hlen.symm))
    obtain ⟨cells, hcells, hblock⟩ := walked_block (c := c) (r := r) true hy hold
    rw [readBy_walk ha hreuse, hmerged, Option.mem_some_iff] at hd
    cases hlast
    simp only [startReads, if_true, Option.map_some, Option.getD_some] at hd
    refine ⟨a, rfl, ?_⟩
    rw [← hd, hblock, latestRead, (rowDirty_eq_false row).mpr hflag, Cleared.blocks,
      List.getElem?_map, hcells, hac]
    rfl

theorem block_of_read (hr : Readable state c r rows)
    (hshows : ∀ p ∈ previous, ∃ a ∈ lastRead, Shows p a) {y : ℕ} {row : NativeRow}
    (hy : rows[y]? = some row) (htaken : ¬TakenOver previous state c r row)
    (hd : d ∈ readBy previous state lastRead) : d.blocks[y]? = some (shownRow c row) := by
  have hreuse : ¬(globalDirty state = .clean ∧ (sameSize c r previous).isSome) :=
    fun h ↦ htaken (.inl h)
  have hdirty : rowDirty (merged c r previous state).isSome row = true := by
    cases hmerged : (merged c r previous state).isSome with
    | false => rfl
    | true =>
      by_contra hclean
      exact htaken (.inr ⟨hmerged, (rowDirty_eq_false row).mp (Bool.not_eq_true _ ▸ hclean)⟩)
  obtain ⟨-, hold⟩ := startBlocks_eq c state hr.length hshows
  obtain ⟨cells, -, hblock⟩ :=
    walked_block (c := c) (r := r) (merged c r previous state).isSome hy hold
  rw [readBy_walk hr.answers hreuse, Option.mem_some_iff] at hd
  obtain ⟨read, hread⟩ := Option.isSome_iff_exists.mp (hr.readCells row (List.mem_of_getElem? hy))
  rw [← hd, hblock, latestRead, if_pos hdirty, shownRow, hread]
  rfl

/-- Where all reads succeed, a snapshot shows a row as it is exactly if it reads it, or it was last
read as it was when its flag was cleared. -/
theorem block_shown_iff (hp : Promised base state c r rows)
    (hheld : ∀ p ∈ previous, ∃ a ∈ lastRead, Shows p a ∧
      ∃ b ∈ base, a.cols = b.cols ∧ a.rows = b.rows)
    {y : ℕ} {row : NativeRow} (hy : rows[y]? = some row) (hd : d ∈ readBy previous state lastRead) :
    d.blocks[y]? = some (shownRow c row) ↔ (TakenOver previous state c r row →
      ∀ a ∈ lastRead, ∀ b ∈ base, a.blocks[y]? = b.blocks[y]?) := by
  have hshows : ∀ p ∈ previous, ∃ a ∈ lastRead, Shows p a := by
    intro p hprev
    obtain ⟨a, ha, hpa, -⟩ := hheld p hprev
    exact ⟨a, ha, hpa⟩
  by_cases htaken : TakenOver previous state c r row
  · obtain ⟨a, ha, hblock⟩ := block_of_takenOver hp.toReadable.answers hp.length hshows hy htaken hd
    have hsame : (sameSize c r previous).isSome := by
      cases htaken with
      | inl h => exact h.2
      | inr h =>
        obtain ⟨p, hmerged⟩ := Option.isSome_iff_exists.mp h.1
        rw [(Option.ite_none_right_eq_some.mp hmerged).2]
        rfl
    have hflag : globalDirty state ≠ .full ∧ row.dirty = some false := by
      cases htaken with
      | inl h => exact ⟨by simp [h.1], hp.clean h.1 row (List.mem_of_getElem? hy)⟩
      | inr h =>
        obtain ⟨p, hmerged⟩ := Option.isSome_iff_exists.mp h.1
        exact ⟨by simp [(Option.ite_none_right_eq_some.mp hmerged).1], h.2⟩
    obtain ⟨p, hsame⟩ := Option.isSome_iff_exists.mp hsame
    obtain ⟨hprev, hc, hr⟩ := sameSize_eq_some hsame
    obtain ⟨a', ha', hpa, b, hb, hab, har⟩ := hheld p hprev
    cases ha
    cases ha'
    have hbc : b.cols = c := hab.symm.trans (hpa.cols.symm.trans hc)
    have hbr : b.rows = r := har.symm.trans (hpa.rows.symm.trans hr)
    have hshown := hp.unflagged hb hbc hbr hflag.1 hy hflag.2
    cases hb
    rw [hblock, ← hshown]
    constructor
    · intro h _ a' ha' b' hb'
      cases ha'
      cases hb'
      exact h
    · intro h
      exact h htaken a rfl b rfl
  · simp only [block_of_read hp.toReadable hshows hy htaken hd, htaken, false_imp_iff]

end Reads

section Runs

variable {T M : Type}

structure ReadSession (T : Type) extends Session T where
  lastRead : Option Cleared

def ReadSession.start (vt : VtTerminal T) : ReadSession T := ⟨Session.start vt, none⟩

/-- A step in which the cells of some rows cannot be read. -/
def failingStep (native : GhosttyVt T M) (op : VtOp M × (ℕ → Bool)) (s : ReadSession T) :
    Unit × ReadSession T :=
  let seen := failing native op.2
  let session := (sessionStep seen op.1 s.toSession).2
  ((), { session with
    base := (sessionStep native op.1 s.toSession).2.base
    lastRead :=
      match op.1 with
      | .mutate _ => s.lastRead
      | .snapshot reuse =>
        match seen.renderStateUpdate s.vt.terminal s.vt.renderState with
        | .ok (_, state) => readBy (s.previous reuse) state s.lastRead
        | .error _ => s.lastRead })

/-- A snapshot whose reads all succeed has the cells that a projection of the whole screen has. -/
def Repaired (native : GhosttyVt T M) (op : VtOp M × (ℕ → Bool)) (s : ReadSession T) : Prop :=
  match op with
  | (.mutate _, _) => True
  | (.snapshot reuse, fails) => (∀ y, fails y = false) →
    ∃ frame plain,
      (VtTerminal.snapshot (failing native fails) (s.previous reuse) s.vt).1 = .ok frame ∧
      (VtTerminal.snapshot native none s.vt).1 = .ok plain ∧ frame.cells = plain.cells

/-- Each row that a snapshot whose reads all succeed takes over from the frame before was last
read as it was when its flag was cleared. -/
def ReadWhenCleared (native : GhosttyVt T M) (op : VtOp M × (ℕ → Bool)) (s : ReadSession T) : Prop :=
  match op with
  | (.mutate _, _) => True
  | (.snapshot reuse, fails) => (∀ y, fails y = false) →
    ∀ t state c r rows,
      native.renderStateUpdate s.vt.terminal s.vt.renderState = .ok (t, state) →
      Answers state c r rows →
      ∀ (y : ℕ) (row : NativeRow), rows[y]? = some row →
        TakenOver (s.previous reuse) state c r row →
        ∀ a ∈ s.lastRead, ∀ b ∈ s.base, a.blocks[y]? = b.blocks[y]?

/-- The last frame shows what was last read of each row. -/
def Held (s : ReadSession T) : Prop :=
  ∀ p ∈ s.last, ∃ a ∈ s.lastRead, Shows p a ∧ ∃ b ∈ s.base, a.cols = b.cols ∧ a.rows = b.rows

variable {native : GhosttyVt T M} {s : ReadSession T}

theorem Held.previous (hs : Held s) (reuse : Bool) :
    ∀ p ∈ s.previous reuse, ∃ a ∈ s.lastRead, Shows p a ∧
      ∃ b ∈ s.base, a.cols = b.cols ∧ a.rows = b.rows := by
  cases reuse with
  | true => exact hs
  | false =>
    intro p hp
    cases hp

theorem Held.shows (hs : Held s) (reuse : Bool) :
    ∀ p ∈ s.previous reuse, ∃ a ∈ s.lastRead, Shows p a := by
  intro p hp
  obtain ⟨a, ha, hshows, -⟩ := hs.previous reuse p hp
  exact ⟨a, ha, hshows⟩

theorem size_cleared {previous : Option VtFrame} {state : RenderState} {c r : ℕ}
    {rows : List NativeRow} {base lastRead : Option Cleared} {d : Cleared} (fails : ℕ → Bool)
    (ha : Answers state c r rows)
    (hheld : ∀ p ∈ previous, ∃ a ∈ lastRead, Shows p a ∧
      ∃ b ∈ base, a.cols = b.cols ∧ a.rows = b.rows)
    (hd : d ∈ readBy previous (failReads fails state) lastRead) :
    ∃ b ∈ clearedBy previous state base, d.cols = b.cols ∧ d.rows = b.rows := by
  have hfail := answers_failReads fails ha
  by_cases hreuse : globalDirty state = .clean ∧ (sameSize c r previous).isSome
  · obtain ⟨p, hsame⟩ := Option.isSome_iff_exists.mp hreuse.2
    obtain ⟨a, hlast, -, b, hb, hsize⟩ := hheld p (sameSize_eq_some hsame).1
    rw [readBy_reuse hfail hreuse] at hd
    cases hlast
    cases hd
    refine ⟨b, ?_, hsize⟩
    simpa only [clearedBy, ha.readCols, ha.readRows, ha.readIterator, if_pos hreuse] using hb
  · rw [readBy_walk hfail hreuse, Option.mem_some_iff] at hd
    cases hd
    simp only [clearedBy, ha.readCols, ha.readRows, ha.readIterator, if_neg hreuse]
    exact ⟨_, rfl, rfl, rfl⟩

theorem Held.step (op : VtOp M × (ℕ → Bool)) (s : ReadSession T)
    (hop : KeepsPromise native op.1 s.toSession) (hs : Held s) :
    Held (failingStep native op s).2 := by
  obtain ⟨op, fails⟩ := op
  cases op with
  | mutate m => exact hs
  | snapshot reuse =>
    obtain ⟨t, state, c, r, rows, hupdate, hp⟩ := hop
    have hfail := answers_failReads fails hp.toReadable.answers
    obtain ⟨frame, state', hframe, -, -, a, ha, hshows⟩ := projectUpdated_reads hfail
      ((length_failRows fails 0 rows).trans hp.length) (hs.shows reuse)
    have hseen := failing_update fails hupdate
    intro p hlast
    simp only [failingStep, sessionStep, snapshot_eq hseen hframe, hseen, hupdate, Except.toOption,
      Option.some_or, Option.mem_some_iff] at hlast ⊢
    subst p
    exact ⟨a, ha, hshows, size_cleared fails hp.toReadable.answers (hs.previous reuse) ha⟩

theorem snapshot_whole_iff {reuse : Bool} {fails : ℕ → Bool} {t : T} {state : RenderState}
    {c r : ℕ} {rows : List NativeRow} (hs : Held s) (hnone : ∀ y, fails y = false)
    (hupdate : native.renderStateUpdate s.vt.terminal s.vt.renderState = .ok (t, state))
    (hp : Promised s.base state c r rows) :
    (∃ frame plain,
      (VtTerminal.snapshot (failing native fails) (s.previous reuse) s.vt).1 = .ok frame ∧
      (VtTerminal.snapshot native none s.vt).1 = .ok plain ∧ frame.cells = plain.cells) ↔
    ∀ (y : ℕ) (row : NativeRow), rows[y]? = some row →
      TakenOver (s.previous reuse) state c r row →
      ∀ a ∈ s.lastRead, ∀ b ∈ s.base, a.blocks[y]? = b.blocks[y]? := by
  obtain ⟨frame, state', hframe, hcols, hrows, d, hd, hshows⟩ :=
    projectUpdated_reads hp.toReadable.answers hp.length (hs.shows reuse)
  have hnothing : ∀ p ∈ (none : Option VtFrame), ∃ b ∈ s.base, Shows p b := fun p hp ↦ by cases hp
  obtain ⟨plain, state'', hplain, hfull⟩ := projectUpdated_projects hp hnothing
  have hseen : (failing native fails).renderStateUpdate s.vt.terminal s.vt.renderState =
      .ok (t, state) := by
    rw [failing_update fails hupdate, failReads_none hnone]
  have hlen : d.blocks.length = rows.length := by
    rw [Cleared.blocks, List.length_map, hshows.length, ← hshows.rows, hrows, hp.length]
  have hwidth : ∀ block ∈ d.blocks, block.length = c := by
    rw [← hcols, hshows.cols]
    exact length_blocks d
  have hcells : frame.cells = plain.cells ↔ ∀ (y : ℕ) (row : NativeRow), rows[y]? = some row →
      TakenOver (s.previous reuse) state c r row →
      ∀ a ∈ s.lastRead, ∀ b ∈ s.base, a.blocks[y]? = b.blocks[y]? := by
    rw [hshows.cells, hfull.cells, flatten_eq_screen_iff hlen hwidth, blocks_eq_iff hlen]
    refine forall_congr' fun y ↦ forall_congr' fun row ↦ imp_congr_right fun hy ↦ ?_
    exact block_shown_iff hp (hs.previous reuse) hy hd
  rw [← hcells, congrArg Prod.fst (snapshot_eq hseen hframe),
    congrArg Prod.fst (snapshot_eq hupdate hplain)]
  constructor
  · intro h
    obtain ⟨frame', plain', hf, hpl, heq⟩ := h
    cases hf
    cases hpl
    exact heq
  · intro heq
    exact ⟨frame, plain, rfl, rfl, heq⟩

theorem repaired_iff_readWhenCleared (op : VtOp M × (ℕ → Bool)) (s : ReadSession T)
    (hop : KeepsPromise native op.1 s.toSession) (hs : Held s) :
    Repaired native op s ↔ ReadWhenCleared native op s := by
  obtain ⟨op, fails⟩ := op
  cases op with
  | mutate m => exact Iff.rfl
  | snapshot reuse =>
    obtain ⟨t, state, c, r, rows, hupdate, hp⟩ := hop
    constructor
    · intro h hnone t' state' c' r' rows' hupdate' ha'
      have hrows := (snapshot_whole_iff hs hnone hupdate hp).mp (h hnone)
      rw [hupdate] at hupdate'
      cases hupdate'
      cases hp.readCols.symm.trans ha'.readCols
      cases hp.readRows.symm.trans ha'.readRows
      cases hp.readIterator.symm.trans ha'.readIterator
      exact hrows
    · intro h hnone
      apply (snapshot_whole_iff hs hnone hupdate hp).mpr
      exact h hnone t state c r rows hupdate hp.toReadable.answers

/-- Along any run, the snapshots whose reads all succeed show the whole screen exactly if the rows
they take over were last read as they were when their flags were cleared. -/
theorem failed_read_repaired_iff (native : GhosttyVt T M) (vt : VtTerminal T)
    (ops : List (VtOp M × (ℕ → Bool)))
    (hpromise : Run.Along (failingStep native) (fun op s ↦ KeepsPromise native op.1 s.toSession) ops
      (ReadSession.start vt)) :
    Run.Along (failingStep native) (Repaired native) ops (ReadSession.start vt) ↔
      Run.Along (failingStep native) (ReadWhenCleared native) ops (ReadSession.start vt) := by
  have hstart : Held (ReadSession.start vt) := fun p hp ↦ by cases hp
  constructor
  · intro h
    refine (hpromise.and h).of_invariant (fun op s hop hs ↦ hs.step op s hop.1) ?_ hstart
    exact fun op s hop hs ↦ (repaired_iff_readWhenCleared op s hop.1 hs).mp hop.2
  · intro h
    refine (hpromise.and h).of_invariant (fun op s hop hs ↦ hs.step op s hop.1) ?_ hstart
    exact fun op s hop hs ↦ (repaired_iff_readWhenCleared op s hop.1 hs).mpr hop.2

end Runs

section Grid

/-- The second row of the grid changes, and the snapshot that should show it cannot read it. -/
def gridOps : List (VtOp (ℕ × List NativeCell) × (ℕ → Bool)) :=
  [(.snapshot true, fun _ ↦ false), (.mutate (1, [{ selected := some true }]), fun _ ↦ false),
    (.snapshot true, fun y ↦ y = 1), (.snapshot true, fun _ ↦ false)]

theorem gridOps_promise : Run.Along (failingStep gridVt)
    (fun op s ↦ KeepsPromise gridVt op.1 s.toSession) gridOps (ReadSession.start gridTerminal) := by
  refine ⟨⟨_, _, 2, 2, _, rfl, ⟨rfl, rfl, rfl, by decide, rfl⟩, ?_, by decide⟩, trivial,
    ⟨_, _, 2, 2, _, rfl, ⟨rfl, rfl, rfl, by decide, rfl⟩, ?_, by decide⟩,
    ⟨_, _, 2, 2, _, rfl, ⟨rfl, rfl, rfl, by decide, rfl⟩, ?_, by decide⟩, trivial⟩
  · intro _ b hb
    cases hb
  · intro _ b hb _ _ y row hy hd
    cases hb
    match y, hy with
    | 0, hy => cases hy; rfl
    | 1, hy => cases hy; cases hd
  · intro _ b hb _ _ y row hy _
    cases hb
    match y, hy with
    | 0, hy => cases hy; rfl
    | 1, hy => cases hy; rfl

/-- The last snapshot reads nothing and shows the row as it was. -/
theorem failed_read_not_repaired : ¬∀ ops : List (VtOp (ℕ × List NativeCell) × (ℕ → Bool)),
    Run.Along (failingStep gridVt) (fun op s ↦ KeepsPromise gridVt op.1 s.toSession) ops
      (ReadSession.start gridTerminal) →
    Run.Along (failingStep gridVt) (Repaired gridVt) ops (ReadSession.start gridTerminal) := by
  intro h
  obtain ⟨-, -, -, hlast, -⟩ := h gridOps gridOps_promise
  obtain ⟨frame, plain, hframe, hplain, heq⟩ := hlast fun _ ↦ rfl
  cases hframe
  cases hplain
  revert heq
  decide

theorem failed_read_repaired_iff_grid :
    Run.Along (failingStep gridVt) (Repaired gridVt) gridOps (ReadSession.start gridTerminal) ↔
      Run.Along (failingStep gridVt) (ReadWhenCleared gridVt) gridOps
        (ReadSession.start gridTerminal) :=
  failed_read_repaired_iff gridVt gridTerminal gridOps gridOps_promise

end Grid

end MachineNotebook.Vt.FailedReads
