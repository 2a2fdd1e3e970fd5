import MachineNotebook.Lib.Run
import MachineNotebook.Vt.Render

namespace MachineNotebook.Vt.Snapshot

open MachineNotebook.Lib Vt.Frame Render

/-! What the library shows, whatever its flags say. -/

def rowCells (c : ℕ) (cells : List NativeCell) : List VtCell :=
  (cells.take c).map readCell ++ List.replicate (c - cells.length) blankCell

def shownRow (c : ℕ) (row : NativeRow) : List VtCell := rowCells c (row.cells.getD [])

def screenCells (c : ℕ) (rows : List NativeRow) : List VtCell :=
  (rows.map (shownRow c)).flatten

/-- The projection without flags: each cell that the iterators of a render state yield is read. -/
def plainCells (state : RenderState) : Except Int32 (List VtCell) := do
  let c ← state.cols
  let rows ← state.rowIterator
  return screenCells c rows

theorem length_rowCells (c : ℕ) (cells : List NativeCell) : (rowCells c cells).length = c := by
  simp only [rowCells, List.length_append, List.length_map, List.length_take,
    List.length_replicate]
  omega

section Walk

variable {c r y x : ℕ} {pre post : List VtCell}

theorem set_front (pre : List VtCell) (b b' : VtCell) (post : List VtCell) {i : ℕ}
    (hi : pre.length = i) : (pre ++ b :: post).set i b' = pre ++ b' :: post := by
  subst hi
  simp

theorem writeCells_eq (cells : List NativeCell) (rest : List VtCell)
    (hpre : pre.length = y * c + x) (hrest : x + rest.length = c) :
    writeCells c y x cells (pre ++ rest ++ post) =
      (x + min cells.length rest.length,
        pre ++ ((cells.take rest.length).map readCell ++ rest.drop cells.length) ++ post) := by
  induction cells generalizing x pre rest with
  | nil => simp [writeCells]
  | cons cell cells ih =>
    cases rest with
    | nil =>
      have hx : ¬x < c := by simp at hrest; omega
      simp [writeCells, hx]
    | cons b rest =>
      have hx : x < c := by simp at hrest; omega
      have hset : (pre ++ b :: rest ++ post).set (y * c + x) (readCell cell) =
          pre ++ [readCell cell] ++ rest ++ post := by
        simpa using set_front pre b (readCell cell) (rest ++ post) hpre
      simp only [writeCells, if_pos hx, hset]
      rw [ih rest (by simp [hpre]; omega) (by simp at hrest; omega)]
      simp only [List.length_cons, List.take_succ_cons, List.map_cons, List.drop_succ_cons,
        List.append_assoc, List.cons_append, List.nil_append, Prod.mk.injEq, and_true]
      omega

theorem blankCells_eq (rest : List VtCell) (hpre : pre.length = y * c + x) :
    blankCells c y rest.length x (pre ++ rest ++ post) =
      pre ++ List.replicate rest.length blankCell ++ post := by
  induction rest generalizing x pre with
  | nil => rfl
  | cons b rest ih =>
    have hset : (pre ++ b :: rest ++ post).set (y * c + x) blankCell =
        pre ++ [blankCell] ++ rest ++ post := by
      simpa using set_front pre b blankCell (rest ++ post) hpre
    simp only [List.length_cons, blankCells, hset]
    rw [ih (by simp [hpre]; omega)]
    simp [List.replicate_succ]

theorem writeRow_eq (cells : List NativeCell) {block : List VtCell} (hpre : pre.length = y * c)
    (hblock : block.length = c) :
    writeRow c y cells (pre ++ block ++ post) = pre ++ rowCells c cells ++ post := by
  have hwrite : writeCells c y 0 cells (pre ++ block ++ post) = (min cells.length c,
      pre ++ (cells.take c).map readCell ++ block.drop cells.length ++ post) := by
    rw [writeCells_eq cells block hpre (by omega), hblock, Nat.zero_add]
    simp only [List.append_assoc]
  have hrest : (block.drop cells.length).length = c - min cells.length c := by
    rw [List.length_drop, hblock]
    omega
  have hcount : c - min cells.length c = c - cells.length := by omega
  simp only [writeRow, hwrite]
  rw [← hrest, blankCells_eq (block.drop cells.length) (by simp [hpre, Nat.min_comm]), hrest,
    hcount, rowCells, List.append_assoc pre]

/-- What the walk leaves in the place of a row. -/
def mergeRow (c : ℕ) (isPartial : Bool) (row : NativeRow) (block : List VtCell) : List VtCell :=
  if rowDirty isPartial row then shownRow c row else block

def writtenRows (isPartial : Bool) : ℕ → List NativeRow → List ℕ
  | _, [] => []
  | y, row :: rows =>
    (if rowDirty isPartial row then [y] else []) ++ writtenRows isPartial (y + 1) rows

def readRow (c : ℕ) (isPartial : Bool) (row : NativeRow) (block : List VtCell) : List VtCell :=
  if rowDirty isPartial row then (row.cells.map (rowCells c)).getD block else block

theorem length_readRow {isPartial : Bool} (row : NativeRow) {block : List VtCell}
    (hblock : block.length = c) : (readRow c isPartial row block).length = c := by
  rw [readRow]
  split
  · cases row.cells with
    | none => exact hblock
    | some cells => exact length_rowCells c cells
  · exact hblock

theorem projectRows_cons {isPartial : Bool} (row : NativeRow) (rows : List NativeRow)
    {block : List VtCell} (dirtyRows : List ℕ) (hy : y < r) (hpre : pre.length = y * c)
    (hblock : block.length = c) :
    projectRows c r isPartial y (row :: rows) (pre ++ block ++ post) dirtyRows =
      let walk := projectRows c r isPartial (y + 1) rows
        (pre ++ readRow c isPartial row block ++ post)
        (if rowDirty isPartial row then dirtyRows ++ [y] else dirtyRows)
      (walk.1, walk.2.1, clearRowDirty row :: walk.2.2) := by
  cases hcells : row.cells with
  | none => simp only [projectRows, if_pos hy, readRow, hcells, Option.map_none, Option.getD_none,
      ite_self]
  | some cells =>
    have hread : (if rowDirty isPartial row then writeRow c y cells (pre ++ block ++ post)
        else pre ++ block ++ post) = pre ++ readRow c isPartial row block ++ post := by
      rw [readRow, hcells]
      split
      · exact writeRow_eq cells hpre hblock
      · rfl
    simp only [projectRows, if_pos hy, hcells, hread]

theorem projectRows_read {isPartial : Bool} {rows : List NativeRow} {blocks : List (List VtCell)}
    (dirtyRows : List ℕ) (hblocks : blocks.length = rows.length)
    (hlen : ∀ block ∈ blocks, block.length = c) (hpre : pre.length = y * c)
    (hr : y + rows.length ≤ r) :
    projectRows c r isPartial y rows (pre ++ blocks.flatten) dirtyRows =
      (pre ++ (List.zipWith (readRow c isPartial) rows blocks).flatten,
        dirtyRows ++ writtenRows isPartial y rows, rows.map clearRowDirty) := by
  induction rows generalizing y pre blocks dirtyRows with
  | nil =>
    have hnil : blocks = [] := List.eq_nil_of_length_eq_zero hblocks
    simp [projectRows, writtenRows, hnil]
  | cons row rows ih =>
    obtain ⟨block, blocks, rfl⟩ := List.exists_cons_of_length_eq_add_one hblocks
    have hblock : block.length = c := hlen block List.mem_cons_self
    have hy : y < r := by simp at hr; omega
    have hreadLen : (readRow c isPartial row block).length = c := length_readRow row hblock
    rw [List.flatten_cons, ← List.append_assoc, projectRows_cons row rows dirtyRows hy hpre hblock,
      ih _ (by simpa using hblocks) (fun block h ↦ hlen block (List.mem_cons_of_mem _ h))
        (by simp [hpre, hreadLen, Nat.succ_mul]) (by simp at hr; omega)]
    simp only [writtenRows, List.zipWith_cons_cons, List.flatten_cons, List.append_assoc,
      List.map_cons, Prod.mk.injEq, and_true, true_and]
    split <;> simp

theorem readRows_eq {isPartial : Bool} {rows : List NativeRow} {blocks : List (List VtCell)}
    (hread : ∀ row ∈ rows, row.cells.isSome) :
    List.zipWith (readRow c isPartial) rows blocks =
      List.zipWith (mergeRow c isPartial) rows blocks := by
  induction rows generalizing blocks with
  | nil => rfl
  | cons row rows ih =>
    cases blocks with
    | nil => rfl
    | cons block blocks =>
      obtain ⟨cells, hcells⟩ := Option.isSome_iff_exists.mp (hread row List.mem_cons_self)
      have hrow : readRow c isPartial row block = mergeRow c isPartial row block := by
        simp only [readRow, mergeRow, shownRow, hcells, Option.map_some, Option.getD_some]
      rw [List.zipWith_cons_cons, List.zipWith_cons_cons, hrow,
        ih fun row h ↦ hread row (List.mem_cons_of_mem _ h)]

theorem projectRows_eq {isPartial : Bool} {rows : List NativeRow} {blocks : List (List VtCell)}
    (dirtyRows : List ℕ) (hread : ∀ row ∈ rows, row.cells.isSome)
    (hblocks : blocks.length = rows.length) (hlen : ∀ block ∈ blocks, block.length = c)
    (hpre : pre.length = y * c) (hr : y + rows.length ≤ r) :
    projectRows c r isPartial y rows (pre ++ blocks.flatten) dirtyRows =
      (pre ++ (List.zipWith (mergeRow c isPartial) rows blocks).flatten,
        dirtyRows ++ writtenRows isPartial y rows, rows.map clearRowDirty) := by
  rw [projectRows_read dirtyRows hblocks hlen hpre hr, readRows_eq hread]

theorem mem_writtenRows {isPartial : Bool} {rows : List NativeRow} {row : NativeRow} {i : ℕ}
    (hi : rows[i]? = some row) (hdirty : rowDirty isPartial row = true) :
    y + i ∈ writtenRows isPartial y rows := by
  induction rows generalizing y i with
  | nil => cases hi
  | cons row' rows ih =>
    rw [writtenRows, List.mem_append]
    cases i with
    | zero =>
      cases hi
      simp [hdirty]
    | succ i =>
      right
      have hnext := ih (y := y + 1) hi
      rwa [Nat.add_assoc, Nat.add_comm 1 i] at hnext

end Walk

section Blocks

variable {c : ℕ} {blocks : List (List VtCell)}

theorem row_flatten (hlen : ∀ block ∈ blocks, block.length = c) (y : ℕ) :
    (blocks.flatten.drop (y * c)).take c = blocks[y]?.getD [] := by
  induction blocks generalizing y with
  | nil => simp
  | cons block blocks ih =>
    have hblock : block.length = c := hlen block List.mem_cons_self
    cases y with
    | zero => simp [hblock]
    | succ y =>
      have hdrop : (block ++ blocks.flatten).drop ((y + 1) * c) = blocks.flatten.drop (y * c) := by
        rw [Nat.succ_mul, Nat.add_comm, ← List.drop_drop, List.drop_left' hblock]
      rw [List.flatten_cons, hdrop, ih (fun block h ↦ hlen block (List.mem_cons_of_mem _ h))]
      rfl

theorem length_flatten (hlen : ∀ block ∈ blocks, block.length = c) :
    blocks.flatten.length = c * blocks.length := by
  induction blocks with
  | nil => simp
  | cons block blocks ih =>
    rw [List.flatten_cons, List.length_append, hlen block List.mem_cons_self,
      ih (fun block h ↦ hlen block (List.mem_cons_of_mem _ h)), List.length_cons, Nat.mul_succ,
      Nat.add_comm]

theorem length_shownRow (rows : List NativeRow) :
    ∀ block ∈ rows.map (shownRow c), block.length = c := by
  intro block hblock
  obtain ⟨row, -, rfl⟩ := List.mem_map.mp hblock
  exact length_rowCells c _

theorem length_screenCells (rows : List NativeRow) :
    (screenCells c rows).length = c * rows.length := by
  rw [screenCells, length_flatten (length_shownRow rows), List.length_map]

end Blocks

section Project

variable {previous : Option VtFrame} {state : RenderState} {c r : ℕ} {rows : List NativeRow}

/-- The reads of the render state succeed, and its iterator has a row for each row. -/
structure Readable (state : RenderState) (c r : ℕ) (rows : List NativeRow) : Prop where
  readCols : state.cols = .ok c
  readRows : state.rows = .ok r
  readIterator : state.rowIterator = .ok rows
  readCells : ∀ row ∈ rows, row.cells.isSome
  length : rows.length = r

structure Answers (state : RenderState) (c r : ℕ) (rows : List NativeRow) : Prop where
  readCols : state.cols = .ok c
  readRows : state.rows = .ok r
  readIterator : state.rowIterator = .ok rows

theorem Readable.answers (hr : Readable state c r rows) : Answers state c r rows :=
  ⟨hr.readCols, hr.readRows, hr.readIterator⟩

theorem Readable.plainCells (hr : Readable state c r rows) :
    plainCells state = .ok (screenCells c rows) := by
  simp only [Snapshot.plainCells, hr.readCols, hr.readIterator, bind, Except.bind, pure, Except.pure]

def globalDirty (state : RenderState) : VtDirtyKind := dirtyKind (state.dirty.getD kRenderDirtyFull)

def sameSize (c r : ℕ) (previous : Option VtFrame) : Option VtFrame :=
  previous.filter fun prev ↦ prev.cols = c ∧ prev.rows = r

def merged (c r : ℕ) (previous : Option VtFrame) (state : RenderState) : Option VtFrame :=
  if globalDirty state = .partly then sameSize c r previous else none

theorem projectUpdated_reuse {prev : VtFrame} (hr : Answers state c r rows)
    (hclean : globalDirty state = .clean) (hsame : sameSize c r previous = some prev) :
    ∃ frame, projectUpdated previous state = .ok (frame, clearDirty state) ∧
      frame.cols = prev.cols ∧ frame.rows = prev.rows ∧ frame.cells = prev.cells ∧
      frame.dirtyRows = some [] := by
  have hclean : dirtyKind (state.dirty.getD kRenderDirtyFull) = .clean := hclean
  have hsame : previous.filter (fun prev ↦ prev.cols = c ∧ prev.rows = r) = some prev := hsame
  simp only [projectUpdated, check, hr.readCols, hr.readRows, Except.mapError, bind, Except.bind, hclean,
    hsame]
  exact ⟨_, rfl, rfl, rfl, rfl, rfl⟩

theorem projectUpdated_walk (hr : Answers state c r rows)
    (hwalk : globalDirty state = .clean → sameSize c r previous = none) :
    let walk := projectRows c r (merged c r previous state).isSome 0 rows
      (((merged c r previous state).map VtFrame.cells).getD (List.replicate (c * r) blankCell)) []
    ∃ frame, projectUpdated previous state =
        .ok (frame, clearDirty { state with rowIterator := .ok walk.2.2 }) ∧
      frame.cols = c ∧ frame.rows = r ∧ frame.cells = walk.1 ∧
      frame.dirtyRows = (merged c r previous state).map fun _ ↦ walk.2.1 := by
  simp only [projectUpdated, check, hr.readCols, hr.readRows, hr.readIterator, Except.mapError, bind,
    Except.bind]
  split
  · rename_i hclean hsame
    exact absurd (hwalk hclean) (by rw [sameSize, hsame]; exact Option.some_ne_none _)
  · exact ⟨_, rfl, rfl, rfl, rfl, rfl⟩

end Project

section Promise

/-- The rows of a render state when their flags were last cleared. -/
structure Cleared where
  cols : ℕ
  rows : ℕ
  cells : List (Option (List NativeCell))

def Cleared.blocks (b : Cleared) : List (List VtCell) :=
  b.cells.map fun cells ↦ rowCells b.cols (cells.getD [])

/-- What the library promises of an updated render state: unless a resize or another global
change made it fully dirty, a row that differs from what it was when its flag was last cleared
is flagged, and the state is clean only if no row is. -/
structure Promised (base : Option Cleared) (state : RenderState) (c r : ℕ)
    (rows : List NativeRow) : Prop extends Readable state c r rows where
  flagged : globalDirty state ≠ .full → ∀ b ∈ base, b.cols = c → b.rows = r →
    ∀ (y : ℕ) (row : NativeRow), rows[y]? = some row → row.dirty = some false →
      b.cells[y]? = some row.cells
  clean : globalDirty state = .clean → ∀ row ∈ rows, row.dirty = some false

/-- A frame with the cells of the rows as they were when their flags were cleared. -/
structure Shows (frame : VtFrame) (b : Cleared) : Prop where
  cols : frame.cols = b.cols
  rows : frame.rows = b.rows
  cells : frame.cells = b.blocks.flatten
  length : b.cells.length = b.rows

variable {base : Option Cleared} {b : Cleared} {previous : Option VtFrame} {state : RenderState}
  {c r : ℕ} {rows : List NativeRow} {p : VtFrame}

theorem length_blocks (b : Cleared) : ∀ block ∈ b.blocks, block.length = b.cols := by
  intro block hblock
  obtain ⟨cells, -, rfl⟩ := List.mem_map.mp hblock
  exact length_rowCells b.cols _

theorem Promised.unflagged (hp : Promised base state c r rows) (hb : b ∈ base) (hc : b.cols = c)
    (hr : b.rows = r) (hfull : globalDirty state ≠ .full) {y : ℕ} {row : NativeRow}
    (hy : rows[y]? = some row) (hd : row.dirty = some false) :
    b.blocks[y]? = some (shownRow c row) := by
  rw [Cleared.blocks, List.getElem?_map, hp.flagged hfull b hb hc hr y row hy hd, hc]
  rfl

theorem sameSize_eq_some (hs : sameSize c r previous = some p) :
    p ∈ previous ∧ p.cols = c ∧ p.rows = r := by
  obtain ⟨hp, hsize⟩ := Option.filter_eq_some_iff.mp hs
  exact ⟨hp, by simpa using hsize⟩

theorem merge_full (blocks : List (List VtCell)) (hblocks : blocks.length = rows.length) :
    List.zipWith (mergeRow c false) rows blocks = rows.map (shownRow c) := by
  induction rows generalizing blocks with
  | nil => rfl
  | cons row rows ih =>
    obtain ⟨block, blocks, rfl⟩ := List.exists_cons_of_length_eq_add_one hblocks
    rw [List.zipWith_cons_cons, ih blocks (by simpa using hblocks)]
    rfl

theorem merge_partial {blocks : List (List VtCell)} (hblocks : blocks.length = rows.length)
    (hkept : ∀ (y : ℕ) (row : NativeRow), rows[y]? = some row → row.dirty = some false →
      blocks[y]? = some (shownRow c row)) :
    List.zipWith (mergeRow c true) rows blocks = rows.map (shownRow c) := by
  induction rows generalizing blocks with
  | nil => rfl
  | cons row rows ih =>
    obtain ⟨block, blocks, rfl⟩ := List.exists_cons_of_length_eq_add_one hblocks
    have hrest := ih (by simpa using hblocks) fun y row hy hd ↦ hkept (y + 1) row hy hd
    have hmerge : mergeRow c true row block = shownRow c row := by
      rw [mergeRow]
      split
      · rfl
      · rename_i hd
        have hd : row.dirty = some false := by
          cases hrow : row.dirty with
          | none => simp [rowDirty, hrow] at hd
          | some flag => simpa [rowDirty, hrow] using hd
        exact Option.some_inj.mp (hkept 0 row rfl hd)
    rw [List.zipWith_cons_cons, hrest, hmerge, List.map_cons]

theorem blocks_eq_iff {blocks : List (List VtCell)} (hlen : blocks.length = rows.length) :
    blocks = rows.map (shownRow c) ↔
      ∀ (y : ℕ) (row : NativeRow), rows[y]? = some row → blocks[y]? = some (shownRow c row) := by
  constructor
  · intro h y row hy
    rw [h, List.getElem?_map, hy]
    rfl
  · intro h
    apply List.ext_getElem?
    intro y
    cases hy : rows[y]? with
    | none =>
      have hle : rows.length ≤ y := List.getElem?_eq_none_iff.mp hy
      rw [List.getElem?_map, hy, Option.map_none, List.getElem?_eq_none_iff, hlen]
      exact hle
    | some row =>
      rw [h y row hy, List.getElem?_map, hy]
      rfl

theorem shown_of_clean (hp : Promised base state c r rows) (hb : b ∈ base) (hc : b.cols = c)
    (hr : b.rows = r) (hlen : b.cells.length = b.rows) (hclean : globalDirty state = .clean) :
    b.blocks.flatten = screenCells c rows := by
  have hlength : b.blocks.length = rows.length := by
    rw [Cleared.blocks, List.length_map, hlen, hr, hp.length]
  have hblocks : b.blocks = rows.map (shownRow c) := by
    apply (blocks_eq_iff hlength).mpr
    intro y row hy
    exact hp.unflagged hb hc hr (by simp [hclean]) hy (hp.clean hclean row (List.mem_of_getElem? hy))
  rw [screenCells, hblocks]

/-- A frame projected from a promised state has the cells of the screen, whichever path it came
by, and names the rows in which it differs from the frame before. -/
structure Projects (previous : Option VtFrame) (c r : ℕ) (rows : List NativeRow)
    (frame : VtFrame) : Prop where
  cols : frame.cols = c
  rowCount : frame.rows = r
  cells : frame.cells = screenCells c rows
  dirtyRows : ∀ dirtyRows ∈ frame.dirtyRows, ∃ p ∈ previous,
    ∀ y, frame.row y ≠ p.row y → y ∈ dirtyRows

theorem projects_reuse (hp : Promised base state c r rows)
    (hsync : ∀ p ∈ previous, ∃ b ∈ base, Shows p b) (hclean : globalDirty state = .clean)
    (hsame : sameSize c r previous = some p) :
    ∃ frame state', projectUpdated previous state = .ok (frame, state') ∧
      Projects previous c r rows frame := by
  obtain ⟨frame, hframe, hcols, hrows, hcells, hdirty⟩ :=
    projectUpdated_reuse hp.toReadable.answers hclean hsame
  obtain ⟨hprev, hc, hr⟩ := sameSize_eq_some hsame
  obtain ⟨b, hb, hshows⟩ := hsync p hprev
  refine ⟨frame, _, hframe, hcols.trans hc, hrows.trans hr, ?_, ?_⟩
  · rw [hcells, hshows.cells]
    exact shown_of_clean hp hb (hshows.cols.symm.trans hc) (hshows.rows.symm.trans hr)
      hshows.length hclean
  · intro dirtyRows hrowsOut
    refine ⟨p, hprev, fun y hne ↦ absurd ?_ hne⟩
    rw [VtFrame.row, VtFrame.row, hcells, hcols]

theorem projects_full (hp : Promised base state c r rows)
    (hwalk : globalDirty state = .clean → sameSize c r previous = none)
    (hmerged : merged c r previous state = none) :
    ∃ frame state', projectUpdated previous state = .ok (frame, state') ∧
      Projects previous c r rows frame := by
  obtain ⟨frame, hframe, hcols, hrows, hcells, hdirty⟩ :=
    projectUpdated_walk hp.toReadable.answers hwalk
  have hblank : List.replicate (c * r) blankCell =
      [] ++ (List.replicate r (List.replicate c blankCell)).flatten := by
    rw [List.nil_append, List.flatten_replicate_replicate, Nat.mul_comm]
  rw [hmerged] at hcells hdirty
  simp only [Option.isSome_none, Option.map_none, Option.getD_none, hblank] at hcells hdirty
  rw [projectRows_eq [] hp.readCells (by simp [hp.length]) (by simp) (by simp) (by simp [hp.length]),
    merge_full _ (by simp [hp.length])] at hcells
  refine ⟨frame, _, hframe, hcols, hrows, hcells, ?_⟩
  intro dirtyRows hrowsOut
  rw [hdirty] at hrowsOut
  cases hrowsOut

theorem mem_writtenRows_of_changed {blocks : List (List VtCell)}
    (hlen : blocks.length = rows.length)
    (hkept : ∀ (y : ℕ) (row : NativeRow), rows[y]? = some row → row.dirty = some false →
      blocks[y]? = some (shownRow c row))
    {y : ℕ} (hne : (rows.map (shownRow c))[y]?.getD [] ≠ blocks[y]?.getD []) :
    y ∈ writtenRows true 0 rows := by
  cases hy : rows[y]? with
  | none =>
    have hnone : blocks[y]? = none := by
      rw [List.getElem?_eq_none_iff, hlen]
      exact List.getElem?_eq_none_iff.mp hy
    rw [hnone, List.getElem?_map, hy] at hne
    exact absurd rfl hne
  | some row =>
    by_cases hd : row.dirty = some false
    · rw [hkept y row hy hd, List.getElem?_map, hy] at hne
      exact absurd rfl hne
    · have hwritten : rowDirty true row = true := by
        cases hflag : row.dirty with
        | none => simp [rowDirty, hflag]
        | some flag => simpa [rowDirty, hflag] using hd
      simpa using mem_writtenRows (y := 0) hy hwritten

theorem projects_partial (hp : Promised base state c r rows)
    (hsync : ∀ p ∈ previous, ∃ b ∈ base, Shows p b)
    (hmerged : merged c r previous state = some p) :
    ∃ frame state', projectUpdated previous state = .ok (frame, state') ∧
      Projects previous c r rows frame := by
  obtain ⟨hpartly, hsame⟩ := Option.ite_none_right_eq_some.mp hmerged
  have hwalk : globalDirty state = .clean → sameSize c r previous = none := by simp [hpartly]
  obtain ⟨frame, hframe, hcols, hrows, hcells, hdirty⟩ := projectUpdated_walk hp.toReadable.answers hwalk
  obtain ⟨hprev, hc, hr⟩ := sameSize_eq_some hsame
  obtain ⟨b, hb, hshows⟩ := hsync p hprev
  have hbc : b.cols = c := hshows.cols.symm.trans hc
  have hbr : b.rows = r := hshows.rows.symm.trans hr
  have hlen : b.blocks.length = rows.length := by
    rw [Cleared.blocks, List.length_map, hshows.length, hbr, hp.length]
  have hblocks : ∀ block ∈ b.blocks, block.length = c := hbc ▸ length_blocks b
  have hkept : ∀ (y : ℕ) (row : NativeRow), rows[y]? = some row → row.dirty = some false →
      b.blocks[y]? = some (shownRow c row) :=
    fun y row hy hd ↦ hp.unflagged hb hbc hbr (by simp [hpartly]) hy hd
  rw [hmerged] at hcells hdirty
  have hmerge : projectRows c r true 0 rows b.blocks.flatten [] =
      ((rows.map (shownRow c)).flatten, writtenRows true 0 rows, rows.map clearRowDirty) := by
    rw [← List.nil_append b.blocks.flatten,
      projectRows_eq [] hp.readCells hlen hblocks (by simp) (by simp [hp.length]),
      merge_partial hlen hkept, List.nil_append, List.nil_append]
  simp only [Option.isSome_some, Option.map_some, Option.getD_some, hshows.cells, hmerge]
    at hcells hdirty
  refine ⟨frame, _, hframe, hcols, hrows, hcells, ?_⟩
  intro dirtyRows hrowsOut
  rw [hdirty, Option.mem_some_iff] at hrowsOut
  subst dirtyRows
  refine ⟨p, hprev, fun y hne ↦ mem_writtenRows_of_changed hlen hkept ?_⟩
  have hrow : frame.row y = (rows.map (shownRow c))[y]?.getD [] := by
    rw [VtFrame.row, hcols, hcells, row_flatten (length_shownRow rows)]
  have hprow : p.row y = b.blocks[y]?.getD [] := by
    rw [VtFrame.row, hc, hshows.cells, row_flatten hblocks]
  rwa [hrow, hprow] at hne

theorem projectUpdated_projects (hp : Promised base state c r rows)
    (hsync : ∀ p ∈ previous, ∃ b ∈ base, Shows p b) :
    ∃ frame state', projectUpdated previous state = .ok (frame, state') ∧
      Projects previous c r rows frame := by
  cases hmerged : merged c r previous state with
  | some p => exact projects_partial hp hsync hmerged
  | none =>
    by_cases hreuse : globalDirty state = .clean ∧ (sameSize c r previous).isSome
    · obtain ⟨p, hsame⟩ := Option.isSome_iff_exists.mp hreuse.2
      exact projects_reuse hp hsync hreuse.1 hsame
    · apply projects_full hp _ hmerged
      intro hclean
      by_contra hne
      exact hreuse ⟨hclean, Option.isSome_iff_ne_none.mpr hne⟩

end Promise

section Runs

variable {T M : Type}

/-- What happens to a terminal: a change by the library, or a snapshot, with or without the
frame of the snapshot before. -/
inductive VtOp (M : Type)
  | mutate (m : M)
  | snapshot (reuse : Bool)

/-- A terminal with the frame of its last snapshot, and the rows as they were when their flags
were last cleared. -/
structure Session (T : Type) where
  vt : VtTerminal T
  last : Option VtFrame
  base : Option Cleared

def Session.previous (reuse : Bool) (s : Session T) : Option VtFrame :=
  if reuse then s.last else none

/-- A walk clears the flag of every row; a reused frame leaves the flags as they are. -/
def clearedBy (previous : Option VtFrame) (state : RenderState) (base : Option Cleared) :
    Option Cleared :=
  match state.cols, state.rows, state.rowIterator with
  | .ok c, .ok r, .ok rows =>
    if globalDirty state = .clean ∧ (sameSize c r previous).isSome then base
    else some ⟨c, r, rows.map NativeRow.cells⟩
  | _, _, _ => base

def sessionStep (native : GhosttyVt T M) (op : VtOp M) (s : Session T) : Unit × Session T :=
  ((), match op with
  | .mutate m => { s with vt := { s.vt with terminal := native.mutate m s.vt.terminal } }
  | .snapshot reuse =>
    let (frame, vt) := VtTerminal.snapshot native (s.previous reuse) s.vt
    let base :=
      match native.renderStateUpdate s.vt.terminal s.vt.renderState with
      | .ok (_, state) => clearedBy (s.previous reuse) state s.base
      | .error _ => s.base
    { vt, base, last := frame.toOption.or s.last })

def KeepsPromise (native : GhosttyVt T M) (op : VtOp M) (s : Session T) : Prop :=
  match op with
  | .mutate _ => True
  | .snapshot _ => ∃ t state c r rows,
    native.renderStateUpdate s.vt.terminal s.vt.renderState = .ok (t, state) ∧
      Promised s.base state c r rows

def Synced (s : Session T) : Prop := ∀ p ∈ s.last, ∃ b ∈ s.base, Shows p b

variable {native : GhosttyVt T M} {s : Session T}

theorem snapshot_eq {previous : Option VtFrame} {vt : VtTerminal T} {t : T}
    {state state' : RenderState} {frame : VtFrame}
    (hupdate : native.renderStateUpdate vt.terminal vt.renderState = .ok (t, state))
    (hframe : projectUpdated previous state = .ok (frame, state')) :
    VtTerminal.snapshot native previous vt = (.ok frame, ⟨t, state', frame.cols, frame.rows⟩) := by
  simp only [VtTerminal.snapshot, projectRenderState, hupdate, hframe]

theorem shows_cleared {previous : Option VtFrame} {state : RenderState} {c r : ℕ}
    {rows : List NativeRow} {frame : VtFrame} {base : Option Cleared}
    (hp : Promised base state c r rows) (hf : Projects previous c r rows frame)
    (hsync : ∀ p ∈ previous, ∃ b ∈ base, Shows p b) :
    ∃ b ∈ clearedBy previous state base, Shows frame b := by
  simp only [clearedBy, hp.readCols, hp.readRows, hp.readIterator]
  split
  · rename_i hreuse
    obtain ⟨p, hsame⟩ := Option.isSome_iff_exists.mp hreuse.2
    obtain ⟨hprev, hc, hr⟩ := sameSize_eq_some hsame
    obtain ⟨b, hb, hshows⟩ := hsync p hprev
    have hbc : b.cols = c := hshows.cols.symm.trans hc
    have hbr : b.rows = r := hshows.rows.symm.trans hr
    refine ⟨b, hb, hf.cols.trans hbc.symm, hf.rowCount.trans hbr.symm, ?_, hshows.length⟩
    rw [hf.cells, shown_of_clean hp hb hbc hbr hshows.length hreuse.1]
  · refine ⟨_, rfl, hf.cols, hf.rowCount, ?_, by simp [hp.length]⟩
    rw [hf.cells, screenCells, Cleared.blocks, List.map_map]
    rfl

theorem Synced.previous (hs : Synced s) (reuse : Bool) :
    ∀ p ∈ s.previous reuse, ∃ b ∈ s.base, Shows p b := by
  cases reuse with
  | true => exact hs
  | false =>
    intro p hp
    cases hp

theorem Synced.step (op : VtOp M) (s : Session T) (hop : KeepsPromise native op s)
    (hs : Synced s) : Synced (sessionStep native op s).2 := by
  cases op with
  | mutate m => exact hs
  | snapshot reuse =>
    obtain ⟨t, state, c, r, rows, hupdate, hp⟩ := hop
    obtain ⟨frame, state', hframe, hf⟩ := projectUpdated_projects hp (hs.previous reuse)
    intro p hlast
    simp only [sessionStep, snapshot_eq hupdate hframe, hupdate, Except.toOption, Option.some_or,
      Option.mem_some_iff] at hlast ⊢
    subst p
    exact shows_cleared hp hf (hs.previous reuse)

def Session.start (vt : VtTerminal T) : Session T := ⟨vt, none, none⟩

/-- After any run, a snapshot gives the cells that the updated render state has when every row is
read, as a projection without a frame to go on from does, and names every row in which it differs
from the frame it went on from. -/
theorem snapshot_projects (native : GhosttyVt T M) (vt : VtTerminal T) (ops : List (VtOp M))
    (reuse : Bool)
    (hpromise : Run.Along (sessionStep native) (KeepsPromise native) (ops ++ [.snapshot reuse])
      (Session.start vt)) :
    let s := Run.final (sessionStep native) ops (Session.start vt)
    ∃ t state frame plain,
      native.renderStateUpdate s.vt.terminal s.vt.renderState = .ok (t, state) ∧
      (VtTerminal.snapshot native (s.previous reuse) s.vt).1 = .ok frame ∧
      state.cols = .ok frame.cols ∧ state.rows = .ok frame.rows ∧
      plainCells state = .ok frame.cells ∧
      (VtTerminal.snapshot native none s.vt).1 = .ok plain ∧ frame.cells = plain.cells ∧
      frame.cells.length = frame.cols * frame.rows ∧
      ∀ dirtyRows ∈ frame.dirtyRows, ∃ p ∈ s.previous reuse,
        ∀ y, frame.row y ≠ p.row y → y ∈ dirtyRows := by
  intro s
  obtain ⟨hops, hlast, -⟩ := Run.along_append.mp hpromise
  have hs : Synced s := hops.invariant Synced.step (fun p hp ↦ by cases hp)
  obtain ⟨t, state, c, r, rows, hupdate, hp⟩ := hlast
  obtain ⟨frame, state', hframe, hf⟩ := projectUpdated_projects hp (hs.previous reuse)
  obtain ⟨plain, state'', hplain, hfplain⟩ := projectUpdated_projects hp (hs.previous false)
  refine ⟨t, state, frame, plain, hupdate, ?_, ?_, ?_, ?_, ?_, ?_, ?_, hf.dirtyRows⟩
  · rw [snapshot_eq hupdate hframe]
  · rw [hf.cols, hp.readCols]
  · rw [hf.rowCount, hp.readRows]
  · rw [hf.cells, hp.plainCells]
  · exact congrArg Prod.fst (snapshot_eq hupdate hplain)
  · rw [hf.cells, hfplain.cells]
  · rw [hf.cells, length_screenCells, hf.cols, hf.rowCount, hp.length]

end Runs

section Grid

structure Grid where
  cols : ℕ
  rows : List NativeRow
  dirty : Int32

def gridVt : GhosttyVt Grid (ℕ × List NativeCell) where
  mutate := fun (y, cells) g ↦ { g with rows := g.rows.set y ⟨some true, some cells⟩, dirty := 1 }
  renderStateUpdate := fun g state ↦
    .ok ({ g with rows := g.rows.map clearRowDirty, dirty := 0 },
      { state with
        cols := .ok g.cols
        rows := .ok g.rows.length
        dirty := some g.dirty
        rowIterator := .ok g.rows })

def grid : Grid := ⟨2, [⟨some true, some [{ selected := some true }]⟩, ⟨some true, some []⟩], 2⟩

def gridTerminal : VtTerminal Grid := ⟨grid, ⟨.ok 0, .ok 0, none, none, none, none, none, none, none,
  none, none, 0, 0, none, .ok []⟩, 2, 2⟩

theorem snapshot_projects_grid :
    let s := Run.final (sessionStep gridVt)
      [.snapshot false, .mutate (1, [{ selected := some true }])] (Session.start gridTerminal)
    ∃ frame, (VtTerminal.snapshot gridVt (s.previous true) s.vt).1 = .ok frame ∧
      frame.cells.length = frame.cols * frame.rows := by
  obtain ⟨t, state, frame, plain, -, hframe, -, -, -, -, -, hlen, -⟩ :=
    snapshot_projects gridVt gridTerminal [.snapshot false, .mutate (1, [{ selected := some true }])]
      true (by
        refine ⟨⟨_, _, 2, 2, _, rfl, ⟨rfl, rfl, rfl, by decide, rfl⟩, ?_, by decide⟩, trivial,
          ⟨_, _, 2, 2, _, rfl, ⟨rfl, rfl, rfl, by decide, rfl⟩, ?_, by decide⟩, trivial⟩
        · intro _ b hb
          cases hb
        · intro _ b hb _ _ y row hy hd
          cases hb
          match y, hy with
          | 0, hy => cases hy; rfl
          | 1, hy => cases hy; cases hd)
  exact ⟨frame, hframe, hlen⟩

end Grid

end MachineNotebook.Vt.Snapshot
