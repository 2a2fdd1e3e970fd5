import MachineNotebook.Lib.Run
import MachineNotebook.Vt.TerminalLife

namespace MachineNotebook.Vt.Terminals

open MachineNotebook.Lib MachineNotebook.Lib.Utf8 MachineNotebook.Lib.HeapLogic
open MachineNotebook.Lib.HeapLogic.Prog NativeBlocks TerminalMethods TerminalLife
open Dart.Bindings (DartString)

variable {ω α : Type}

/-- The terminals that have been made in an isolate, each with what the emulator keeps of it. -/
structure Terms (ω : Type) where
  terms : List (ω × VtTerminal) := []
  decoder : Ptr := none

inductive TermCall
  | write (data : Bytes)
  | writeGuest (data : Bytes)
  | resize (newCols newRows cellW cellH : ℤ)
  | title
  | pwd
  | scrollViewport (deltaRows : Option ℤ) (top bottom : Bool)
  | setDefaultTheme (fg bg cursor : Rgb)
  | enableKittyGraphics (limitBytes : Int64)
  | installEffects
  | takePtyOutput
  | takeChromeEvents
  | close

inductive Answer
  | done
  | text (s : DartString)
  | pty (out : List Bytes)
  | chrome (events : List VtChromeEvent)

/-- A terminal is made, with a world of its own, or the one at `i` is called. -/
inductive Call (ω : Type)
  | «open» (w : ω) (cols rows : ℤ)
  | on (i : ℕ) (call : TermCall)

section Source

variable (lib : TerminalLib ω)

def answer (f : α → Answer) (m : Method ω α) : Method ω Answer := do
  let a ← m
  return f a

def TermCall.method : TermCall → Method ω Answer
  | write data => answer (fun _ ↦ .done) (TerminalMethods.write lib data)
  | writeGuest data => answer (fun _ ↦ .done) (TerminalMethods.writeGuest lib data)
  | resize newCols newRows cellW cellH =>
    answer (fun _ ↦ .done) (TerminalMethods.resize lib newCols newRows cellW cellH)
  | title => answer .text (TerminalMethods.title lib)
  | pwd => answer .text (TerminalMethods.pwd lib)
  | scrollViewport deltaRows top bottom =>
    answer (fun _ ↦ .done) (TerminalMethods.scrollViewport lib deltaRows top bottom)
  | setDefaultTheme fg bg cursor =>
    answer (fun _ ↦ .done) (TerminalMethods.setDefaultTheme lib fg bg cursor)
  | enableKittyGraphics limitBytes =>
    answer (fun _ ↦ .done) (TerminalMethods.enableKittyGraphics lib limitBytes)
  | installEffects => answer (fun _ ↦ .done) (TerminalMethods.installEffects lib)
  | takePtyOutput => answer .pty TerminalMethods.takePtyOutput
  | takeChromeEvents => answer .chrome TerminalMethods.takeChromeEvents
  | close => answer (fun _ ↦ .done) (TerminalMethods.close lib)

def unmade : VtTerminal := closedTerm 0 0

def step : Call ω → Terms ω × Heap Block →
    Except (Stop DartString) Answer × (Terms ω × Heap Block)
  | .open w cols rows, (ts, h) =>
    match VtTerminal.open lib cols rows (w, ⟨unmade, ts.decoder⟩) h with
    | (.ok (), (w, s), h) => (.ok .done, ⟨ts.terms ++ [(w, s.term)], s.decoder⟩, h)
    | (.error e, (_, s), h) => (.error e, { ts with decoder := s.decoder }, h)
  | .on i call, (ts, h) =>
    match ts.terms[i]? with
    | none => (.ok .done, ts, h)
    | some (w, term) =>
      match call.method lib (w, ⟨term, ts.decoder⟩) h with
      | (r, (w, s), h) => (r, ⟨ts.terms.set i (w, s.term), s.decoder⟩, h)

end Source

section Calls

variable {lib : TerminalLib ω} {base h : Heap Block} {ps : List (ℕ × Block)} {w : ω}
  {s : Isolate} {E : DartString → ω × Isolate → Heap Block → Prop}

theorem spec_answer {f : α → Answer} {m : Method ω α} (hm : Spec m
      (fun _ s' h' ↦ Stays base ps s' h') (fun _ s' h' ↦ Stays base ps s' h') (w, s) h) :
    Spec (answer f m) (fun _ s' h' ↦ Stays base ps s' h') (fun _ s' h' ↦ Stays base ps s' h')
      (w, s) h :=
  hm.bind fun _ _ _ hend ↦ spec_pure hend

theorem spec_closed {f : VtTerminal → Method ω α} {Q : α → ω × Isolate → Heap Block → Prop}
    (hclosed : s.term.closed = true) (hE : ∀ e, E e (w, s) h) :
    Spec (ensureOpen >>= f) Q E (w, s) h := by
  refine spec_bind (spec_bind (spec_readVar ?_))
  simp only [hclosed, if_true]
  exact spec_lift (spec_throw (hE _))

theorem spec_take {f : VtTerminal → α} {g : VtTerminal → VtTerminal}
    (hg : Queued s { s with term := g s.term }) (hstays : Stays base ps (w, s) h)
    (hsettled : Settled (g s.term)) :
    Spec (do
        let s ← readVar
        modifyTerm g
        return f s.term : Method ω α)
      (fun _ s' h' ↦ Stays base ps s' h') E (w, s) h := by
  refine spec_bind (spec_readVar (spec_bind (spec_modifyTerm (spec_pure ?_))))
  exact ⟨hsettled, hg.kept hstays.2⟩

theorem settled_take {term : VtTerminal} (hsettled : Settled term) :
    Settled { term with ptyOut := [] } ∧ Settled { term with chrome := [] } := by
  obtain ⟨cols, rows, rfl⟩ | hopen := hsettled
  · exact ⟨Or.inl ⟨cols, rows, rfl⟩, Or.inl ⟨cols, rows, rfl⟩⟩
  · exact ⟨Or.inr hopen, Or.inr hopen⟩

theorem stays_takePtyOutput (hstays : Stays base ps (w, s) h) :
    Spec (TermCall.takePtyOutput.method lib) (fun _ s' h' ↦ Stays base ps s' h')
      (fun _ s' h' ↦ Stays base ps s' h') (w, s) h :=
  spec_answer (spec_take ⟨[], s.term.chrome, rfl⟩ hstays (settled_take hstays.1).1)

theorem stays_takeChromeEvents (hstays : Stays base ps (w, s) h) :
    Spec (TermCall.takeChromeEvents.method lib) (fun _ s' h' ↦ Stays base ps s' h')
      (fun _ s' h' ↦ Stays base ps s' h') (w, s) h :=
  spec_answer (spec_take ⟨s.term.ptyOut, [], rfl⟩ hstays (settled_take hstays.1).2)

theorem call_stays_closed {cols rows : ℤ} (hterm : s.term = closedTerm cols rows)
    (hkept : Kept base ps s h) (call : TermCall) :
    Spec (call.method lib) (fun _ s' h' ↦ Stays base ps s' h')
      (fun _ s' h' ↦ Stays base ps s' h') (w, s) h := by
  have hclosed : s.term.closed = true := by rw [hterm]; rfl
  have hstays : Stays base ps (w, s) h := ⟨Or.inl ⟨cols, rows, hterm⟩, hkept⟩
  cases call with
  | close =>
    refine spec_answer (spec_bind (spec_readVar ?_))
    simp only [hclosed, if_true]
    exact spec_pure hstays
  | takePtyOutput => exact stays_takePtyOutput hstays
  | takeChromeEvents => exact stays_takeChromeEvents hstays
  | title | pwd => exact spec_answer (spec_bind (spec_closed hclosed fun _ ↦ hstays))
  | _ => exact spec_answer (spec_closed hclosed fun _ ↦ hstays)

theorem spec_scratch {p : ℕ → Native ω α} {b : Block} {t : ℕ} (ht : s.term.terminal = some t)
    (hkept : Kept base ps s h)
    (hp : ∀ a set qs h', Owns base ((a, b) :: qs) h' → (t, .terminal set) ∈ qs → Spec (p a)
      (fun _ _ h' ↦ Owns base ((a, b) :: qs) h') (fun _ _ h' ↦ Owns base ((a, b) :: qs) h') w h') :
    Spec (lift (do
        let a ← mallocBytes b
        ensure (p a) (free a)))
      (fun _ s' h' ↦ s'.2 = s ∧ Kept base ps s h') (fun _ s' h' ↦ s'.2 = s ∧ Kept base ps s h')
      (w, s) h := by
  refine spec_liftKept ht hkept fun set qs ho hmem ↦ ?_
  refine spec_bind (spec_malloc ho (fun a h₁ ho₁ ↦ ?_) fun h' hno ↦
    Or.inr ⟨hno.refused, [], hno.owns⟩)
  refine spec_ensure ((hp a set qs h₁ ho₁ hmem).mono ?_ ?_)
  · exact fun _ _ h₂ ho₂ ↦ spec_free ho₂ fun h₃ ho₃ ↦ ho₃
  · exact fun _ _ h₂ ho₂ ↦ spec_free ho₂ fun h₃ ho₃ ↦ Or.inl ho₃

theorem spec_getString {t : ℕ} {dataId : Int32} (hopen : s.term.closed = false)
    (ht : s.term.terminal = some t) (hkept : Kept base ps s h) :
    Spec (getString lib dataId) (fun _ s' h' ↦ s'.2 = s ∧ Kept base ps s h')
      (fun _ s' h' ↦ s'.2 = s ∧ Kept base ps s h') (w, s) h := by
  unfold getString
  refine spec_bind (spec_ensureOpen hopen (spec_bind (spec_lift (spec_expect ht ?_))))
  refine spec_scratch ht hkept fun a set qs h' ho hmem ↦ ?_
  refine spec_bind (spec_useObject (ho.held _ (List.mem_cons_of_mem _ hmem)) rfl ?_)
  refine spec_bind (spec_useObject (ho.held _ List.mem_cons_self) rfl (spec_bind (spec_world ?_)))
  split
  · exact spec_pure ho
  · exact spec_pure ho

theorem spec_scrollViewport {t : ℕ} {deltaRows : Option ℤ} {top bottom : Bool}
    (hopen : s.term.closed = false) (ht : s.term.terminal = some t) (hkept : Kept base ps s h) :
    Spec (scrollViewport lib deltaRows top bottom) (fun _ s' h' ↦ s'.2 = s ∧ Kept base ps s h')
      (fun _ s' h' ↦ s'.2 = s ∧ Kept base ps s h') (w, s) h := by
  unfold scrollViewport
  refine spec_bind (spec_ensureOpen hopen (spec_bind (spec_lift (spec_expect ht ?_))))
  refine spec_scratch ht hkept fun a set qs h' ho hmem ↦ ?_
  refine spec_bind (spec_useObject (ho.held _ (List.mem_cons_of_mem _ hmem)) rfl ?_)
  exact spec_bind (spec_useObject (ho.held _ List.mem_cons_self) rfl (spec_world ho))

theorem spec_resize {t : ℕ} {newCols newRows cellW cellH : ℤ} (hopen : s.term.closed = false)
    (ht : s.term.terminal = some t) (hkept : Kept base ps s h) :
    Spec (resize lib newCols newRows cellW cellH) (fun _ s' h' ↦ Stays base ps s' h')
      (fun _ s' h' ↦ Stays base ps s' h') (w, s) h := by
  have hstays (w' : ω) : Stays base ps (w', s) h := ⟨Or.inr ⟨hopen, t, ht⟩, hkept⟩
  unfold resize
  refine spec_bind (spec_ensureOpen hopen ?_)
  by_cases hsize : newCols < 1 ∨ newRows < 1
  · rw [if_pos hsize]
    exact spec_pure (hstays w)
  · rw [if_neg hsize]
    obtain ⟨set, hset, leaked, hleaked, ho⟩ := id hkept
    refine spec_bind (spec_lift (spec_expect ht (spec_bind (spec_lift ?_))))
    refine spec_useObject (ho.held _ (mem_blocks ht _)) rfl (spec_bind (spec_lift (spec_world ?_)))
    split
    · exact spec_lift (spec_throw (hstays _))
    · exact spec_modifyTerm ⟨Or.inr ⟨hopen, t, ht⟩, hkept⟩

theorem call_stays_open {t : ℕ} (hforgets : Forgets lib) (hopen : s.term.closed = false)
    (ht : s.term.terminal = some t) (hkept : Kept base ps s h) (call : TermCall) :
    Spec (call.method lib) (fun _ s' h' ↦ Stays base ps s' h')
      (fun _ s' h' ↦ Stays base ps s' h') (w, s) h := by
  have hsettled : Settled s.term := Or.inr ⟨hopen, t, ht⟩
  have hsame {β : Type} {m : Method ω β}
      (hm : Spec m (fun _ s' h' ↦ s'.2 = s ∧ Kept base ps s h')
        (fun _ s' h' ↦ s'.2 = s ∧ Kept base ps s h') (w, s) h) :
      Spec m (fun _ s' h' ↦ Stays base ps s' h') (fun _ s' h' ↦ Stays base ps s' h') (w, s) h := by
    refine hm.mono ?_ ?_
    · exact fun _ s' h' hend ↦ ⟨hend.1 ▸ hsettled, hend.1 ▸ hend.2⟩
    · exact fun _ s' h' hend ↦ ⟨hend.1 ▸ hsettled, hend.1 ▸ hend.2⟩
  have hqueued {data : Bytes} : Spec (write lib data) (fun _ s' h' ↦ Stays base ps s' h')
      (fun _ s' h' ↦ Stays base ps s' h') (w, s) h :=
    (spec_write hopen ht hkept).mono (fun _ _ _ hend ↦ ⟨hend.1.settled hopen ht, hend.2⟩)
      fun _ _ _ hend ↦ ⟨hend.1.settled hopen ht, hend.2⟩
  cases call with
  | write data => exact spec_answer hqueued
  | writeGuest data => exact spec_answer hqueued
  | resize newCols newRows cellW cellH => exact spec_answer (spec_resize hopen ht hkept)
  | title | pwd =>
    refine spec_answer ((hsame (spec_getString hopen ht hkept)).bind ?_)
    exact fun _ _ _ hend ↦ spec_pure hend
  | scrollViewport deltaRows top bottom =>
    exact spec_answer (hsame (spec_scrollViewport hopen ht hkept))
  | setDefaultTheme fg bg cursor => exact spec_answer (hsame (spec_setDefaultTheme hopen ht hkept))
  | enableKittyGraphics limitBytes =>
    exact spec_answer (hsame (spec_enableKittyGraphics hopen ht hkept))
  | installEffects =>
    have hcalls {s' : ω × Isolate} {h' : Heap Block}
        (hend : (∃ c, s'.2 = withCalls s c) ∧ Kept base ps s'.2 h') : Stays base ps s' h' := by
      obtain ⟨⟨c, hc⟩, hkept'⟩ := hend
      exact ⟨Or.inr ⟨by rw [hc]; exact hopen, t, by rw [hc]; exact ht⟩, hkept'⟩
    exact spec_answer ((spec_installEffects hforgets hopen ht hkept).mono
      (fun _ _ _ hend ↦ hcalls hend) fun _ _ _ hend ↦ hcalls hend)
  | takePtyOutput => exact stays_takePtyOutput ⟨hsettled, hkept⟩
  | takeChromeEvents => exact stays_takeChromeEvents ⟨hsettled, hkept⟩
  | close =>
    refine spec_answer ((spec_close hforgets hopen ht hkept).mono ?_ fun _ _ _ hend ↦ hend)
    exact fun _ s' h' hend ↦ ⟨Or.inl ⟨_, _, by rw [hend.1]⟩, hend.2.kept_none⟩

theorem call_stays (hforgets : Forgets lib) (hstays : Stays base ps (w, s) h) (call : TermCall) :
    Spec (call.method lib) (fun _ s' h' ↦ Stays base ps s' h')
      (fun _ s' h' ↦ Stays base ps s' h') (w, s) h := by
  obtain ⟨⟨cols, rows, hterm⟩ | ⟨hopen, t, ht⟩, hkept⟩ := hstays
  · exact call_stays_closed hterm hkept call
  · exact call_stays_open hforgets hopen ht hkept call

end Calls

section Run

abbrev Held (ω : Type) := (ω × VtTerminal) × (Effect → Ptr)

def termBlocks (x : Held ω) : List (ℕ × Block) := blocks ⟨x.1.2, none⟩ x.2

/-- Memory holds what the terminals own, and nothing else is left behind unless memory ran out. -/
def Good (base : Heap Block) (ts : Terms ω) (h : Heap Block) : Prop :=
  ∃ held : List (Held ω), held.map Prod.fst = ts.terms ∧
    (∀ x ∈ held, Settled x.1.2 ∧ ∀ e a, x.2 e = some a → x.1.2.calls e = some a) ∧
    ∃ leaked, ((∃ a, base.grants a = false) ∨ leaked = []) ∧
      Owns base (ptrBlock ts.decoder .pngDecoder ++ (held.flatMap termBlocks ++ leaked)) h

variable {lib : TerminalLib ω} {base h : Heap Block} {w : ω} {s : Isolate} {ts : Terms ω}

theorem blocks_decoder (s : Isolate) (set : Effect → Ptr) :
    (blocks s set).Perm (ptrBlock s.decoder .pngDecoder ++ blocks ⟨s.term, none⟩ set) := by
  classical
  refine List.perm_iff_count.mpr fun x ↦ ?_
  simp only [blocks, otherBlocks, ptrBlock, Option.map_none, Option.toList_none, List.count_append,
    List.count_nil]
  omega

theorem Good.of_stays (left right : List (Held ω)) {leaked : List (ℕ × Block)}
    (hothers : ∀ x ∈ left ++ right,
      Settled x.1.2 ∧ ∀ e a, x.2 e = some a → x.1.2.calls e = some a)
    (hleaked : (∃ a, base.grants a = false) ∨ leaked = [])
    (hstays : Stays base ((left ++ right).flatMap termBlocks ++ leaked) (w, s) h) :
    Good base ⟨left.map Prod.fst ++ (w, s.term) :: right.map Prod.fst, s.decoder⟩ h := by
  obtain ⟨hsettled, set, hset, more, hmore, ho⟩ := hstays
  refine ⟨left ++ ((w, s.term), set) :: right, by simp, fun x hx ↦ ?_, more ++ leaked, ?_,
    ho.perm ?_⟩
  · obtain hx | hx := List.mem_append.mp hx
    · exact hothers x (List.mem_append_left _ hx)
    · obtain rfl | hx := List.mem_cons.mp hx
      · exact ⟨hsettled, hset⟩
      · exact hothers x (List.mem_append_right _ hx)
  · obtain hrefused | rfl := hleaked
    · exact Or.inl hrefused
    · simpa using hmore
  · classical
    refine List.perm_iff_count.mpr fun x ↦ ?_
    have hcount := (blocks_decoder s set).count_eq x
    simp only [List.count_append] at hcount
    simp only [termBlocks, List.flatMap_append, List.flatMap_cons, List.count_append, hcount]
    omega

theorem Good.of_unmade {leaked : List (ℕ × Block)} {held : List (Held ω)}
    (hheld : ∀ x ∈ held, Settled x.1.2 ∧ ∀ e a, x.2 e = some a → x.1.2.calls e = some a)
    (hleaked : (∃ a, base.grants a = false) ∨ leaked = [])
    (hclosed : ∃ cols rows, s.term = closedTerm cols rows)
    (hkept : Kept base (held.flatMap termBlocks ++ leaked) s h) :
    Good base ⟨held.map Prod.fst, s.decoder⟩ h := by
  obtain ⟨cols, rows, hterm⟩ := hclosed
  obtain ⟨set, hset, more, hmore, ho⟩ := hkept
  refine ⟨held, rfl, hheld, more ++ leaked, ?_, ho.perm ?_⟩
  · obtain hrefused | rfl := hleaked
    · exact Or.inl hrefused
    · simpa using hmore
  · classical
    refine List.perm_iff_count.mpr fun x ↦ ?_
    simp only [blocks, otherBlocks, hterm, closedTerm, callBlocks, effects, ptrBlock,
      Option.map_none, Option.toList_none, List.flatMap_cons, List.flatMap_nil, List.count_append,
      List.count_nil]
    omega

theorem step_good (hforgets : Forgets lib) (hgood : Good base ts h) (call : Call ω) :
    (step lib call (ts, h)).1 ≠ .error .fault ∧
      Good base (step lib call (ts, h)).2.1 (step lib call (ts, h)).2.2 := by
  obtain ⟨held, hterms, hheld, leaked, hleaked, ho⟩ := hgood
  cases call with
  | «open» w cols rows =>
    have hopen : Spec (VtTerminal.open lib cols rows)
        (fun _ s' h' ↦ Stays base (held.flatMap termBlocks ++ leaked) s' h')
        (fun _ s' h' ↦ (∃ cols rows, s'.2.term = closedTerm cols rows) ∧
          Kept base (held.flatMap termBlocks ++ leaked) s'.2 h') (w, ⟨unmade, ts.decoder⟩) h :=
      spec_open hforgets ⟨0, 0, rfl⟩ ho
    obtain ⟨_, s', h', hout, hstays⟩ | ⟨e, s', h', hout, hclosed, hkept⟩ := hopen.cases
    · obtain ⟨w', s'⟩ := s'
      simp only [step, hout, ← hterms]
      refine ⟨by simp, Good.of_stays held [] ?_ hleaked ?_⟩
      · simpa using hheld
      · simpa using hstays
    · obtain ⟨w', s'⟩ := s'
      simp only [step, hout, ← hterms]
      exact ⟨by simp, Good.of_unmade hheld hleaked hclosed hkept⟩
  | on i call =>
    cases hi : ts.terms[i]? with
    | none =>
      simp only [step, hi]
      exact ⟨by simp, held, hterms, hheld, leaked, hleaked, ho⟩
    | some x =>
      obtain ⟨w, term⟩ := x
      rw [← hterms, List.getElem?_map] at hi
      obtain ⟨⟨_, set⟩, hget, rfl⟩ := Option.map_eq_some_iff.mp hi
      obtain ⟨hlt, hget⟩ := List.getElem?_eq_some_iff.mp hget
      have hsplit : held = held.take i ++ ((w, term), set) :: held.drop (i + 1) := by
        rw [← hget, List.getElem_cons_drop hlt, List.take_append_drop]
      have hothers (x : Held ω) (hx : x ∈ held.take i ++ held.drop (i + 1)) :
          Settled x.1.2 ∧ ∀ e a, x.2 e = some a → x.1.2.calls e = some a := by
        refine hheld x ?_
        rw [hsplit]
        obtain hx | hx := List.mem_append.mp hx
        · exact List.mem_append_left _ hx
        · exact List.mem_append_right _ (List.mem_cons_of_mem _ hx)
      have hset (y : ω × VtTerminal) : ts.terms.set i y =
          (held.take i).map Prod.fst ++ y :: (held.drop (i + 1)).map Prod.fst := by
        rw [← hterms, List.set_eq_take_append_cons_drop, if_pos (by simpa using hlt),
          List.map_take, List.map_drop]
      have hthis := hheld ((w, term), set) (hget ▸ List.getElem_mem hlt)
      have hstays : Stays base ((held.take i ++ held.drop (i + 1)).flatMap termBlocks ++ leaked)
          (w, ⟨term, ts.decoder⟩) h := by
        refine ⟨hthis.1, set, hthis.2, [], Or.inr rfl, ho.perm ?_⟩
        classical
        refine List.perm_iff_count.mpr fun x ↦ ?_
        have hcount := (blocks_decoder ⟨term, ts.decoder⟩ set).count_eq x
        have hheld := congrArg (fun held ↦ (held.flatMap termBlocks).count x) hsplit
        simp only [List.flatMap_append, List.flatMap_cons, List.count_append, termBlocks] at hheld
        simp only [List.count_append] at hcount
        simp only [List.flatMap_append, List.count_append, List.count_nil, hcount]
        omega
      have hterm : ts.terms[i]? = some (w, term) := by
        rw [← hterms, List.getElem?_map, List.getElem?_eq_getElem hlt, hget]
        rfl
      obtain ⟨_, ⟨w', s'⟩, h', hout, hstays'⟩ | ⟨_, ⟨w', s'⟩, h', hout, hstays'⟩ :=
        (call_stays hforgets hstays call).cases
      · simp only [step, hterm, hout, hset]
        exact ⟨by simp, Good.of_stays _ _ hothers hleaked hstays'⟩
      · simp only [step, hterm, hout, hset]
        exact ⟨by simp, Good.of_stays _ _ hothers hleaked hstays'⟩

theorem run_good (hforgets : Forgets lib) (calls : List (Call ω)) (hgood : Good base ts h) :
    (∀ io ∈ Run.trace (step lib) calls (ts, h), io.2 ≠ .error .fault) ∧
      Good base (Run.final (step lib) calls (ts, h)).1 (Run.final (step lib) calls (ts, h)).2 := by
  induction calls generalizing ts h with
  | nil => exact ⟨fun _ hio ↦ absurd hio List.not_mem_nil, hgood⟩
  | cons call calls ih =>
    obtain ⟨hnot, hnext⟩ := step_good hforgets hgood call
    obtain ⟨htrace, hfinal⟩ := ih hnext
    refine ⟨fun io hio ↦ ?_, hfinal⟩
    obtain rfl | hio := List.mem_cons.mp hio
    · exact hnot
    · exact htrace io hio

theorem Good.all_closed (hgood : Good base ts h) (hclosed : ∀ x ∈ ts.terms, x.2.closed = true) :
    ∃ leaked, ((∃ a, base.grants a = false) ∨ leaked = []) ∧
      Owns base (ptrBlock ts.decoder .pngDecoder ++ leaked) h := by
  obtain ⟨held, hterms, hheld, leaked, hleaked, ho⟩ := hgood
  have hnone : held.flatMap termBlocks = [] := by
    refine List.flatMap_eq_nil_iff.mpr fun x hx ↦ ?_
    have hx' : x.1 ∈ ts.terms := hterms ▸ List.mem_map_of_mem hx
    obtain ⟨cols, rows, hterm⟩ | ⟨hopen, -⟩ := (hheld x hx).1
    · simp [termBlocks, blocks, otherBlocks, hterm, closedTerm, callBlocks, effects, ptrBlock]
    · rw [hclosed x.1 hx'] at hopen
      cases hopen
  rw [hnone] at ho
  exact ⟨leaked, hleaked, ho⟩

/-- Over any calls of any terminals in any order no memory is used that is gone, by Dart or by an
emulator that calls back. When all terminals are closed there is the decoder left, and what refused
allocations have left behind. -/
theorem terminals_run (hforgets : Forgets lib) (calls : List (Call ω)) (h : Heap Block) :
    let last := Run.final (step lib) calls ({}, h)
    (∀ io ∈ Run.trace (step lib) calls ({}, h), io.2 ≠ .error .fault) ∧
      ((∀ x ∈ last.1.terms, x.2.closed = true) →
        ∃ leaked, ((∃ a, h.grants a = false) ∨ leaked = []) ∧
          Owns h (ptrBlock last.1.decoder .pngDecoder ++ leaked) last.2) := by
  have hstart : Good h ({} : Terms ω) h :=
    ⟨[], rfl, fun _ hx ↦ absurd hx List.not_mem_nil, [], Or.inr rfl, Owns.start h⟩
  obtain ⟨htrace, hfinal⟩ := run_good hforgets calls hstart
  exact ⟨htrace, hfinal.all_closed⟩

end Run

section Example

def echoing : TerminalLib Unit where
  terminalNew _ _ _ := 0
  renderStateNew _ := 0
  rowIteratorNew _ := 0
  rowCellsNew _ := 0
  sysSet _ := 0
  terminalSet _ w := (0, w)
  vtWrite data w := (data.flatMap fun b ↦ [.bell, .writePty (some [b])], w)
  resize _ _ _ _ w := (0, w)
  terminalGet _ _ := (0, [])
  scrollViewport _ w := w

def echoRun : List (Call Unit) :=
  [.open () 80 24, .open () 40 12, .on 0 (.write [97]), .on 1 .close, .on 0 .takePtyOutput,
    .on 0 .close]

theorem terminals_run_echo :
    let h : Heap Block := Heap.empty fun _ ↦ true
    let last := Run.final (step echoing) echoRun ({}, h)
    ∃ leaked, ((∃ a, h.grants a = false) ∨ leaked = []) ∧
      Owns h (ptrBlock last.1.decoder .pngDecoder ++ leaked) last.2 :=
  (terminals_run (fun _ _ ↦ rfl) echoRun _).2 (by decide +kernel)

end Example

end MachineNotebook.Vt.Terminals
