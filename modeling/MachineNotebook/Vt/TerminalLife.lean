import MachineNotebook.Vt.TerminalMethods

namespace MachineNotebook.Vt.TerminalLife

open MachineNotebook.Lib MachineNotebook.Lib.Utf8 MachineNotebook.Lib.HeapLogic
open MachineNotebook.Lib.HeapLogic.Prog NativeBlocks NativeObjects TerminalMethods
open Dart.Bindings (DartString)

variable {ω α : Type}

def refusal (lib : TerminalLib ω) : List (Setting × String) → ω → Option DartString
  | [], _ => none
  | (setting, failed) :: rest, w =>
    let answer := lib.terminalSet setting w
    if answer.1 ≠ kGhosttySuccess then some (Utf16.encode (failed ++ toString answer.1))
    else refusal lib rest answer.2

def themeSettings (fg bg cursor : Rgb) (failed : String → String) : List (Setting × String) :=
  [(.background bg, failed "COLOR_BACKGROUND"), (.foreground fg, failed "COLOR_FOREGROUND"),
    (.cursor cursor, failed "COLOR_CURSOR"), (.palette, failed "COLOR_PALETTE")]

section Settings

variable {lib : TerminalLib ω} {base h : Heap Block} {ps : List (ℕ × Block)} {w : ω}
  {t : ℕ} {set : Effect → Ptr} {E : DartString → ω → Heap Block → Prop}

theorem spec_terminalSet {setting : Setting} {Q : Int32 → ω → Heap Block → Prop}
    (ho : Owns base ps h) (hmem : (t, .terminal set) ∈ ps)
    (hQ : Q (lib.terminalSet setting w).1 (lib.terminalSet setting w).2 h) :
    Spec (terminalSet lib t setting) Q E w h :=
  spec_bind (spec_useObject (ho.held _ hmem) rfl (spec_world hQ))

theorem spec_check {rc : Int32} {failed : String} {Q : Unit → ω → Heap Block → Prop}
    (hok : rc = kGhosttySuccess → Q () w h)
    (hno : rc ≠ kGhosttySuccess → E (Utf16.encode (failed ++ toString rc)) w h) :
    Spec (check rc failed) Q E w h := by
  unfold check
  by_cases hrc : rc = kGhosttySuccess
  · rw [if_neg (not_not.mpr hrc)]
    exact spec_pure (hok hrc)
  · rw [if_pos hrc]
    exact spec_throw (hno hrc)

/-- A setting among others: where it is refused, so is the list. -/
theorem spec_set {setting : Setting} {failed : String} {rest : List (Setting × String)}
    {Q : Unit → ω → Heap Block → Prop} (ho : Owns base ps h) (hmem : (t, .terminal set) ∈ ps)
    (hQ : ∀ w', refusal lib ((setting, failed) :: rest) w = refusal lib rest w' → Q () w' h)
    (hE : ∀ e w', refusal lib ((setting, failed) :: rest) w = some e → E e w' h) :
    Spec (do
      let rc ← terminalSet lib t setting
      check rc failed) Q E w h := by
  refine spec_bind (spec_terminalSet ho hmem (spec_check (fun hrc ↦ hQ _ ?_) fun hrc ↦ hE _ _ ?_))
  · simp [refusal, hrc]
  · simp [refusal, hrc]

theorem spec_setColor {setting : Rgb → Setting} {failed : String} {c : Rgb} {a : ℕ}
    {rest : List (Setting × String)} {Q : Unit → ω → Heap Block → Prop} (ho : Owns base ps h)
    (hmem : (t, .terminal set) ∈ ps) (hcolor : (a, .rgb (some c)) ∈ ps)
    (hQ : ∀ w', refusal lib ((setting c, failed) :: rest) w = refusal lib rest w' → Q () w' h)
    (hE : ∀ e w', refusal lib ((setting c, failed) :: rest) w = some e → E e w' h) :
    Spec (setColor lib t setting a failed) Q E w h := by
  refine spec_bind (spec_load ho hcolor (spec_bind (spec_expect (x := c) rfl ?_)))
  exact spec_set ho hmem hQ hE

theorem spec_applyTheme {fg bg cursor : Rgb} {failed : String → String} (ho : Owns base ps h)
    (hmem : (t, .terminal set) ∈ ps) :
    Spec (applyTheme lib t fg bg cursor failed)
      (fun _ _ h' ↦ refusal lib (themeSettings fg bg cursor failed) w = none ∧ Owns base ps h')
      (fun e _ h' ↦ (refusal lib (themeSettings fg bg cursor failed) w = some e ∧
        Owns base ps h') ∨ LeftBehind base ps h') w h := by
  unfold applyTheme mallocBytes
  refine spec_bind (spec_malloc ho (fun bgPtr h₁ ho₁ ↦ ?_) fun h' hno ↦
    Or.inr ⟨hno.refused, [], hno.owns⟩)
  refine spec_bind (spec_malloc ho₁ (fun fgPtr h₂ ho₂ ↦ ?_) fun h' hno ↦
    Or.inr ⟨hno.refused, [_], hno.owns⟩)
  refine spec_bind (spec_malloc ho₂ (fun curPtr h₃ ho₃ ↦ ?_) fun h' hno ↦
    Or.inr ⟨hno.refused, [_, _], hno.owns⟩)
  refine spec_bind (spec_malloc ho₃ (fun palette h₄ ho₄ ↦ ?_) fun h' hno ↦
    Or.inr ⟨hno.refused, [_, _, _], hno.owns⟩)
  let colors : List (ℕ × Block) :=
    [(bgPtr, .rgb (some bg)), (fgPtr, .rgb (some fg)), (curPtr, .rgb (some cursor)),
      (palette, .record)]
  have hback : ([(palette, .record), (curPtr, .rgb none), (fgPtr, .rgb none),
      (bgPtr, .rgb none)] : List (ℕ × Block)).Perm
      [(bgPtr, .rgb none), (fgPtr, .rgb none), (curPtr, .rgb none), (palette, .record)] :=
    (List.reverse_perm _).symm
  refine spec_ensure (spec_bind (spec_modify (ho₄.perm (hback.append_right ps)) fun h₅ ho₅ ↦ ?_))
  refine spec_bind (spec_modify (ho₅.perm (List.Perm.swap ..)) fun h₆ ho₆ ↦ ?_)
  have hcur : ((fgPtr, Block.rgb (some fg)) :: (bgPtr, .rgb (some bg)) :: (curPtr, .rgb none) ::
      (palette, .record) :: ps).Perm ((curPtr, .rgb none) :: (bgPtr, .rgb (some bg)) ::
        (fgPtr, .rgb (some fg)) :: (palette, .record) :: ps) := by
    classical
    refine List.perm_iff_count.mpr fun x ↦ ?_
    simp only [List.count_cons]
    omega
  have hall : ((curPtr, Block.rgb (some cursor)) :: (bgPtr, .rgb (some bg)) ::
      (fgPtr, .rgb (some fg)) :: (palette, .record) :: ps).Perm (colors ++ ps) := by
    classical
    refine List.perm_iff_count.mpr fun x ↦ ?_
    simp only [colors, List.cons_append, List.nil_append, List.count_cons]
    omega
  refine spec_bind (spec_modify (ho₆.perm hcur) fun h₇ ho₇ ↦ ?_)
  have ho₇ := ho₇.perm hall
  have hterm : (t, Block.terminal set) ∈ colors ++ ps := List.mem_append_right _ hmem
  have hfree {Q : Unit → ω → Heap Block → Prop} {E : DartString → ω → Heap Block → Prop} {w' : ω}
      (hQ : ∀ h', Owns base ps h' → Q () w' h') :
      Spec (freeAll [bgPtr, fgPtr, curPtr, palette]) Q E w' h₇ :=
    spec_freeAll ho₇ (List.Perm.refl _) hQ
  have hrefused {e : DartString} {w' : ω}
      (he : refusal lib (themeSettings fg bg cursor failed) w = some e) :
      Spec (freeAll [bgPtr, fgPtr, curPtr, palette])
        (fun _ _ h' ↦ (refusal lib (themeSettings fg bg cursor failed) w = some e ∧
          Owns base ps h') ∨ LeftBehind base ps h')
        (fun e _ h' ↦ (refusal lib (themeSettings fg bg cursor failed) w = some e ∧
          Owns base ps h') ∨ LeftBehind base ps h') w' h₇ :=
    hfree fun h' ho' ↦ Or.inl ⟨he, ho'⟩
  refine spec_bind (spec_setColor ho₇ hterm (by simp [colors]) (fun w₁ hw₁ ↦ ?_)
    fun e _ he ↦ hrefused he)
  refine spec_bind (spec_setColor ho₇ hterm (by simp [colors]) (fun w₂ hw₂ ↦ ?_)
    fun e _ he ↦ hrefused (hw₁.trans he))
  refine spec_bind (spec_setColor ho₇ hterm (by simp [colors]) (fun w₃ hw₃ ↦ ?_)
    fun e _ he ↦ hrefused (hw₁.trans (hw₂.trans he)))
  refine spec_bind (spec_useObject (ho₇.held (palette, .record) (by simp [colors])) rfl ?_)
  refine spec_set ho₇ hterm (fun w₄ hw₄ ↦ ?_)
    fun e _ he ↦ hrefused (hw₁.trans (hw₂.trans (hw₃.trans he)))
  exact hfree fun h' ho' ↦ ⟨hw₁.trans (hw₂.trans (hw₃.trans hw₄)), ho'⟩

end Settings

section Session

variable {lib : TerminalLib ω} {h : Heap Block} {w : ω}

def objectBlocks (set : Effect → Ptr) (terminal renderState rowIter cells : ℕ) :
    List (ℕ × Block) :=
  [(terminal, .terminal set), (renderState, .object .renderState),
    (rowIter, .object .rowIterator), (cells, .object .rowCells)]

theorem made_four {σ : Type} {get : σ → ω} {cols rows : ℤ} {made : List (Wanted σ × ℕ)}
    (hmade : made.map Prod.fst = terminalObjects lib get cols rows) :
    ∃ terminal renderState rowIter cells,
      made.map Prod.snd = [terminal, renderState, rowIter, cells] ∧
        heldBlocks made = objectBlocks (fun _ ↦ none) terminal renderState rowIter cells := by
  obtain _ | ⟨⟨o₁, a₁⟩, _ | ⟨⟨o₂, a₂⟩, _ | ⟨⟨o₃, a₃⟩, _ | ⟨⟨o₄, a₄⟩, _ | ⟨x, rest⟩⟩⟩⟩⟩ := made
  all_goals simp only [terminalObjects, List.map_nil, List.map_cons, List.cons.injEq, reduceCtorEq,
    and_false, and_true] at hmade
  obtain ⟨rfl, rfl, rfl, rfl⟩ := hmade
  exact ⟨a₁, a₂, a₃, a₄, rfl, rfl⟩

def defaultTheme : List (Setting × String) :=
  themeSettings kDefaultFg kDefaultBg kDefaultCursor themeFailed

/-- A session whose colors are refused leaves its four objects behind, and nobody knows them. -/
theorem session_open (cols rows : ℤ) :
    Spec (GhosttyVtSession.open lib cols rows)
      (fun s _ h' ↦ firstFailure (terminalObjects lib id cols rows) w = none ∧
        refusal lib defaultTheme w = none ∧
        Owns h (objectBlocks (fun _ ↦ none) s.terminal s.renderState s.rowIter s.cells) h')
      (fun e _ h' ↦
        (firstFailure (terminalObjects lib id cols rows) w = some e ∧ Owns h [] h') ∨
        (firstFailure (terminalObjects lib id cols rows) w = none ∧
          refusal lib defaultTheme w = some e ∧
          ∃ terminal renderState rowIter cells,
            Owns h (objectBlocks (fun _ ↦ none) terminal renderState rowIter cells) h') ∨
        LeftBehind h [] h') w h := by
  let objects := terminalObjects lib id cols rows
  let theme := defaultTheme
  let E (e : DartString) (_ : ω) (blocks : List (ℕ × Block)) : Prop :=
    (firstFailure objects w = none ∧ refusal lib theme w = some e ∧
      ∃ terminal renderState rowIter cells,
        blocks = objectBlocks (fun _ ↦ none) terminal renderState rowIter cells) ∨
      ∃ a, h.grants a = false
  refine (spec_openNative (E := E) (Q := fun s _ blocks ↦ firstFailure objects w = none ∧
    refusal lib theme w = none ∧ blocks = objectBlocks (fun _ ↦ none) s.terminal s.renderState
      s.rowIter s.cells) (Owns.start h) ?_).mono ?_ ?_
  · intro made slots h₁ hmade hnone ho
    obtain ⟨terminal, renderState, rowIter, cells, hsnd, hblocks⟩ := made_four hmade
    rw [hblocks, List.append_nil] at ho
    rw [hsnd]
    have hmem : (terminal, Block.terminal fun _ ↦ none) ∈
        slots ++ objectBlocks (fun _ ↦ none) terminal renderState rowIter cells :=
      List.mem_append_right _ List.mem_cons_self
    refine spec_bind ((spec_applyTheme ho hmem).mono ?_ ?_)
    · intro _ w' h₂ hend
      exact spec_pure ⟨_, ⟨hnone, hend.1, rfl⟩, hend.2⟩
    · intro e w' h₂ hend
      obtain ⟨hrefused, ho₂⟩ | ⟨hrefused, leaked, ho₂⟩ := hend
      · exact ⟨_, Or.inl ⟨hnone, hrefused, _, _, _, _, rfl⟩, ho₂⟩
      · refine ⟨leaked ++ objectBlocks (fun _ ↦ none) terminal renderState rowIter cells,
          Or.inr hrefused, ho₂.perm ?_⟩
        rw [← List.append_assoc, ← List.append_assoc]
        exact (List.perm_append_comm).append_right _
  · intro s w' h' hend
    obtain ⟨blocks, ⟨hnone, hset, rfl⟩, ho⟩ := hend
    exact ⟨hnone, hset, ho⟩
  · intro e w' h' hend
    obtain ⟨blocks, ⟨hnone, hset, _, _, _, _, rfl⟩ | hrefused, ho⟩ | ⟨-, ⟨hfirst, ho⟩ | hleft⟩ :=
      hend
    · exact Or.inr (Or.inl ⟨hnone, hset, _, _, _, _, ho⟩)
    · exact Or.inr (Or.inr ⟨hrefused, blocks, by simpa using ho⟩)
    · exact Or.inl ⟨hfirst, ho⟩
    · exact Or.inr (Or.inr hleft)

end Session

section Kept

def ptrBlock (p : Ptr) (b : Block) : List (ℕ × Block) := (p.map fun a ↦ (a, b)).toList

def callBlocks (calls : Effect → Ptr) : List (ℕ × Block) :=
  effects.flatMap fun e ↦ ptrBlock (calls e) (.callable e)

def otherBlocks (s : Isolate) : List (ℕ × Block) :=
  ptrBlock s.term.renderState (.object .renderState) ++
    (ptrBlock s.term.rowIter (.object .rowIterator) ++
      (ptrBlock s.term.cells (.object .rowCells) ++
        (callBlocks s.term.calls ++ ptrBlock s.decoder .pngDecoder)))

def blocks (s : Isolate) (set : Effect → Ptr) : List (ℕ × Block) :=
  ptrBlock s.term.terminal (.terminal set) ++ otherBlocks s

/-- Memory holds what the isolate owns, and nothing else is left behind unless memory ran out. -/
def KeptAs (base : Heap Block) (ps : List (ℕ × Block)) (s : Isolate) (set : Effect → Ptr)
    (h : Heap Block) : Prop :=
  ∃ leaked, ((∃ a, base.grants a = false) ∨ leaked = []) ∧
    Owns base (blocks s set ++ (leaked ++ ps)) h

/-- The functions that the terminal was given are there. -/
def Kept (base : Heap Block) (ps : List (ℕ × Block)) (s : Isolate) (h : Heap Block) : Prop :=
  ∃ set, (∀ e a, set e = some a → s.term.calls e = some a) ∧ KeptAs base ps s set h

variable {lib : TerminalLib ω} {base h : Heap Block} {ps : List (ℕ × Block)} {w : ω}
  {s : Isolate} {set : Effect → Ptr}

theorem callBlocks_update (calls : Effect → Ptr) (e : Effect) (p : Ptr) :
    (callBlocks (Function.update calls e p)).Perm
      (ptrBlock p (.callable e) ++ callBlocks (Function.update calls e none)) := by
  classical
  refine List.perm_iff_count.mpr fun x ↦ ?_
  cases e <;> simp [callBlocks, effects, ptrBlock, List.count_append, Function.update] <;> omega

theorem KeptAs.of_left {leaked : List (ℕ × Block)}
    (hleft : LeftBehind base (blocks s set ++ (leaked ++ ps)) h) : KeptAs base ps s set h := by
  obtain ⟨hrefused, left, ho⟩ := hleft
  refine ⟨left ++ leaked, Or.inl hrefused, ho.perm ?_⟩
  classical
  refine List.perm_iff_count.mpr fun x ↦ ?_
  simp only [List.count_append]
  omega

theorem KeptAs.kept_none (hkept : KeptAs base ps s (fun _ ↦ none) h) : Kept base ps s h :=
  ⟨fun _ ↦ none, fun _ _ hno ↦ absurd hno (Option.some_ne_none _).symm, hkept⟩

/-- What the emulator does not refuse: to forget a function. -/
def Forgets (lib : TerminalLib ω) : Prop :=
  ∀ e w, (lib.terminalSet (.effect e false) w).1 = kGhosttySuccess

theorem mem_effects (e : Effect) : e ∈ effects := by cases e <;> decide

theorem blocks_eq {t : ℕ} (ht : s.term.terminal = some t) (set : Effect → Ptr) :
    blocks s set = (t, .terminal set) :: otherBlocks s := by
  unfold blocks
  rw [ht]
  rfl

theorem spec_setEffect {t : ℕ} {e : Effect} {v : Ptr} {E : DartString → ω → Heap Block → Prop}
    (ho : Owns base ((t, .terminal set) :: ps) h) :
    Spec (setEffect lib t e v)
      (fun rc _ h' ↦ (rc = kGhosttySuccess ∧
          Owns base ((t, .terminal (Function.update set e v)) :: ps) h') ∨
        (rc ≠ kGhosttySuccess ∧ rc = (lib.terminalSet (.effect e v.isSome) w).1 ∧
          Owns base ((t, .terminal set) :: ps) h')) E w h := by
  unfold setEffect
  refine spec_bind (spec_terminalSet ho List.mem_cons_self ?_)
  by_cases hrc : (lib.terminalSet (.effect e v.isSome) w).1 = kGhosttySuccess
  · rw [if_pos hrc]
    refine spec_bind (spec_load ho List.mem_cons_self (spec_bind (spec_expect rfl ?_)))
    exact spec_bind (spec_modify ho fun h' ho' ↦ spec_pure (Or.inl ⟨hrc, ho'⟩))
  · rw [if_neg hrc]
    exact spec_pure (Or.inr ⟨hrc, rfl, ho⟩)

theorem spec_clearEffectOpts {t : ℕ} {E : DartString → ω × Isolate → Heap Block → Prop}
    (hforgets : Forgets lib) (ht : s.term.terminal = some t) (hkept : KeptAs base ps s set h) :
    Spec (clearEffectOpts lib)
      (fun _ s' h' ↦ s'.2 = s ∧ KeptAs base ps s (fun _ ↦ none) h') E (w, s) h := by
  unfold clearEffectOpts
  refine spec_bind (spec_readVar ?_)
  simp only [ht]
  let I (rest : List Effect) (s' : ω × Isolate) (h' : Heap Block) : Prop :=
    s'.2 = s ∧ ∃ set, (∀ e ∉ rest, set e = none) ∧ KeptAs base ps s set h'
  have hstart : I effects (w, s) h :=
    ⟨rfl, set, fun e he ↦ absurd (mem_effects e) he, hkept⟩
  refine spec_bind ((spec_forEach I ?_ hstart).mono ?_ fun _ _ _ hend ↦ hend)
  · intro e rest s' h' hI
    obtain ⟨w', s'⟩ := s'
    obtain ⟨rfl, set, hnone, leaked, hleaked, ho⟩ := hI
    rw [blocks_eq ht] at ho
    refine spec_bind (spec_lift ((spec_setEffect (e := e) (v := none) ho).mono ?_
      fun _ _ _ hend ↦ hend))
    intro rc w'' h'' hend
    obtain ⟨-, ho'⟩ | ⟨hrc, hsame, -⟩ := hend
    · refine spec_pure ⟨rfl, Function.update set e none, fun e' he' ↦ ?_, leaked, hleaked, ?_⟩
      · by_cases heq : e' = e
        · rw [heq, Function.update_self]
        · rw [Function.update_of_ne heq]
          exact hnone e' fun hmem ↦ (List.mem_cons.mp hmem).elim heq he'
      · rw [blocks_eq ht]
        exact ho'
    · exact absurd (hsame.trans (hforgets e w')) hrc
  · intro _ s' h' hend
    obtain ⟨w', s'⟩ := s'
    obtain ⟨rfl, set, hnone, hkept⟩ := hend
    obtain rfl : set = fun _ ↦ none := funext fun e ↦ hnone e List.not_mem_nil
    obtain ⟨leaked, hleaked, ho⟩ := hkept
    rw [blocks_eq ht] at ho
    refine spec_bind (spec_lift (spec_terminalSet ho List.mem_cons_self (spec_pure ?_)))
    exact ⟨rfl, leaked, hleaked, by rw [blocks_eq ht]; exact ho⟩

def withCalls (s : Isolate) (calls : Effect → Ptr) : Isolate :=
  { s with term := { s.term with calls := calls } }

theorem blocks_withCalls (s : Isolate) (set calls : Effect → Ptr) (e : Effect) (p : Ptr) :
    (blocks (withCalls s (Function.update calls e p)) set).Perm
      (ptrBlock p (.callable e) ++ blocks (withCalls s (Function.update calls e none)) set) := by
  classical
  refine List.perm_iff_count.mpr fun x ↦ ?_
  have hcount := (callBlocks_update calls e p).count_eq x
  simp only [List.count_append] at hcount
  simp only [blocks, otherBlocks, withCalls, List.count_append]
  omega

theorem spec_modifyTerm {f : VtTerminal → VtTerminal} {Q : Unit → ω × Isolate → Heap Block → Prop}
    {E : DartString → ω × Isolate → Heap Block → Prop}
    (hQ : Q () (w, { s with term := f s.term }) h) : Spec (modifyTerm f) Q E (w, s) h :=
  spec_bind (spec_readVar (spec_assign hQ))

theorem spec_closeCallables {E : DartString → ω × Isolate → Heap Block → Prop}
    (hkept : KeptAs base ps s (fun _ ↦ none) h) :
    Spec closeCallables
      (fun _ s' h' ↦ s'.2 = withCalls s (fun _ ↦ none) ∧ KeptAs base ps s'.2 (fun _ ↦ none) h')
      E (w, s) h := by
  let I (rest : List Effect) (s' : ω × Isolate) (h' : Heap Block) : Prop :=
    ∃ calls, s'.2 = withCalls s calls ∧ (∀ e ∉ rest, calls e = none) ∧
      KeptAs base ps s'.2 (fun _ ↦ none) h'
  refine (spec_forEach I ?_ (w := (w, s)) ⟨s.term.calls, rfl,
    fun e he ↦ absurd (mem_effects e) he, hkept⟩).mono ?_ fun _ _ _ hend ↦ hend
  · intro e rest s' h' hI
    obtain ⟨w', s'⟩ := s'
    obtain ⟨calls, rfl, hnone, hkept⟩ := hI
    have hrest (hcall : calls e = none) (e' : Effect) (he' : e' ∉ rest) : calls e' = none := by
      by_cases heq : e' = e
      · rw [heq, hcall]
      · exact hnone e' fun hmem ↦ (List.mem_cons.mp hmem).elim heq he'
    refine spec_bind (spec_readVar ?_)
    cases hcall : calls e with
    | none =>
      simp only [withCalls, hcall]
      exact spec_pure ⟨calls, rfl, hrest hcall, hkept⟩
    | some a =>
      simp only [withCalls, hcall]
      obtain ⟨leaked, hleaked, ho⟩ := hkept
      have hself : Function.update calls e (some a) = calls := by
        rw [← hcall]
        exact Function.update_eq_self e calls
      have hperm := (blocks_withCalls s (fun _ ↦ none) calls e (some a)).append_right (leaked ++ ps)
      rw [hself] at hperm
      refine spec_bind (spec_lift (spec_freeObject (ho.perm hperm) (by simp [Block.isCallable])
        fun h'' ho'' ↦ spec_modifyTerm ?_))
      refine ⟨Function.update calls e none, rfl, fun e' he' ↦ ?_, leaked, hleaked, ho''⟩
      by_cases heq : e' = e
      · rw [heq, Function.update_self]
      · rw [Function.update_of_ne heq]
        exact hnone e' fun hmem ↦ (List.mem_cons.mp hmem).elim heq he'
  · intro _ s' h' hend
    obtain ⟨calls, hs, hnone, hkept⟩ := hend
    obtain rfl : calls = fun _ ↦ none := funext fun e ↦ hnone e List.not_mem_nil
    exact ⟨hs, hkept⟩

theorem spec_makeCallables {es : List Effect} (hnodup : es.Nodup)
    (hnone : ∀ e ∈ es, s.term.calls e = none) (hkept : KeptAs base ps s (fun _ ↦ none) h) :
    Spec (forEach makeCallable es)
      (fun _ s' h' ↦ ∃ calls, s'.2 = withCalls s calls ∧ KeptAs base ps s'.2 (fun _ ↦ none) h')
      (fun _ s' h' ↦ ∃ calls, s'.2 = withCalls s calls ∧ KeptAs base ps s'.2 (fun _ ↦ none) h')
      (w, s) h := by
  let I (rest : List Effect) (s' : ω × Isolate) (h' : Heap Block) : Prop :=
    rest.Nodup ∧ ∃ calls, s'.2 = withCalls s calls ∧ (∀ e ∈ rest, calls e = none) ∧
      KeptAs base ps s'.2 (fun _ ↦ none) h'
  refine (spec_forEach I ?_ (w := (w, s)) ⟨hnodup, s.term.calls, rfl, hnone, hkept⟩).mono ?_
    fun _ _ _ hend ↦ hend
  · intro e rest s' h' hI
    obtain ⟨w', s'⟩ := s'
    obtain ⟨hnodup, calls, rfl, hnone, leaked, hleaked, ho⟩ := hI
    obtain ⟨hnot, hnodup⟩ := List.nodup_cons.mp hnodup
    refine spec_bind (spec_lift (spec_malloc ho (fun a h'' ho'' ↦ spec_modifyTerm ?_)
      fun h'' hrefused ↦ ⟨calls, rfl, leaked, Or.inl hrefused.refused, hrefused.owns⟩))
    refine ⟨hnodup, Function.update calls e (some a), rfl, fun e' he' ↦ ?_, leaked, hleaked, ?_⟩
    · rw [Function.update_of_ne (ne_of_mem_of_not_mem he' hnot)]
      exact hnone e' (List.mem_cons_of_mem _ he')
    · refine ho''.perm ?_
      have hself : Function.update calls e none = calls := by
        rw [← hnone e List.mem_cons_self]
        exact Function.update_eq_self e calls
      have hperm := (blocks_withCalls s (fun _ ↦ none) calls e (some a)).append_right (leaked ++ ps)
      rw [hself] at hperm
      exact hperm.symm
  · intro _ s' h' hend
    obtain ⟨-, calls, hs, -, hkept⟩ := hend
    exact ⟨calls, hs, hkept⟩

theorem spec_installEffect {t : ℕ} {e : Effect} (ht : s.term.terminal = some t)
    (hkept : Kept base ps s h) :
    Spec (installEffect lib t e) (fun _ s' h' ↦ s'.2 = s ∧ Kept base ps s h')
      (fun _ s' h' ↦ s'.2 = s ∧ Kept base ps s h') (w, s) h := by
  obtain ⟨set, hset, leaked, hleaked, ho⟩ := hkept
  rw [blocks_eq ht] at ho
  refine spec_bind (spec_readVar (spec_bind (spec_lift ((spec_setEffect ho).mono ?_
    fun _ _ _ hend ↦ hend))))
  intro rc w' h' hend
  obtain ⟨hrc, ho'⟩ | ⟨hrc, -, ho'⟩ := hend
  · refine spec_lift (spec_check (fun _ ↦ ⟨rfl, Function.update set e (s.term.calls e), ?_, leaked,
      hleaked, ?_⟩) fun hne ↦ absurd hrc hne)
    · intro e' a ha
      by_cases heq : e' = e
      · rw [heq, Function.update_self] at ha
        rw [heq, ha]
      · rw [Function.update_of_ne heq] at ha
        exact hset e' a ha
    · rw [blocks_eq ht]
      exact ho'
  · refine spec_lift (spec_check (fun heq ↦ absurd heq hrc) fun _ ↦ ⟨rfl, set, hset, leaked,
      hleaked, ?_⟩)
    rw [blocks_eq ht]
    exact ho'

theorem spec_installAll {t : ℕ} {es : List Effect} (ht : s.term.terminal = some t)
    (hkept : Kept base ps s h) :
    Spec (forEach (installEffect lib t) es) (fun _ s' h' ↦ s'.2 = s ∧ Kept base ps s h')
      (fun _ s' h' ↦ s'.2 = s ∧ Kept base ps s h') (w, s) h := by
  let I (_ : List Effect) (s' : ω × Isolate) (h' : Heap Block) : Prop :=
    s'.2 = s ∧ Kept base ps s h'
  refine spec_forEach I (fun e es s' h' hI ↦ ?_) ⟨rfl, hkept⟩
  obtain ⟨w', s'⟩ := s'
  obtain ⟨rfl, hkept'⟩ := hI
  exact spec_installEffect ht hkept'

theorem spec_ensureOpen {Q : VtTerminal → ω × Isolate → Heap Block → Prop}
    {E : DartString → ω × Isolate → Heap Block → Prop} (hopen : s.term.closed = false)
    (hQ : Q s.term (w, s) h) : Spec ensureOpen Q E (w, s) h := by
  refine spec_bind (spec_readVar ?_)
  simp only [hopen]
  exact spec_pure hQ

/-- Wherever it ends, no function of the old ones is left in the terminal. -/
theorem spec_installEffects {t : ℕ} (hforgets : Forgets lib) (hopen : s.term.closed = false)
    (ht : s.term.terminal = some t) (hkept : Kept base ps s h) :
    Spec (installEffects lib) (fun _ s' h' ↦ (∃ c, s'.2 = withCalls s c) ∧ Kept base ps s'.2 h')
      (fun _ s' h' ↦ (∃ c, s'.2 = withCalls s c) ∧ Kept base ps s'.2 h') (w, s) h := by
  obtain ⟨set, -, hkept⟩ := hkept
  unfold installEffects
  refine spec_bind (spec_ensureOpen hopen (spec_bind (spec_lift (spec_expect ht ?_))))
  refine (spec_clearEffectOpts hforgets ht hkept).bind fun _ s₁ h₁ hend ↦ ?_
  obtain ⟨w₁, s₁⟩ := s₁
  obtain ⟨rfl, hkept₁⟩ := hend
  refine (spec_closeCallables hkept₁).bind fun _ s₂ h₂ hend ↦ ?_
  obtain ⟨w₂, s₂⟩ := s₂
  obtain ⟨rfl, hkept₂⟩ := hend
  refine spec_bind ((spec_makeCallables (by decide) (fun _ _ ↦ rfl) hkept₂).mono ?_ ?_)
  · intro _ s₃ h₃ hend
    obtain ⟨w₃, s₃⟩ := s₃
    obtain ⟨calls, rfl, hkept₃⟩ := hend
    have hcalls : ∃ c, withCalls (withCalls s₁ fun _ ↦ none) calls = withCalls s₁ c := ⟨calls, rfl⟩
    have ht₃ : (withCalls (withCalls s₁ fun _ ↦ none) calls).term.terminal = some t := ht
    obtain ⟨leaked, hleaked, ho⟩ := hkept₃
    have hkept : Kept base ps (withCalls (withCalls s₁ fun _ ↦ none) calls) h₃ :=
      KeptAs.kept_none ⟨leaked, hleaked, ho⟩
    rw [blocks_eq ht₃] at ho
    refine spec_bind (spec_lift (spec_terminalSet ho List.mem_cons_self ?_))
    refine spec_bind (spec_lift (spec_check (fun _ ↦ ?_) fun _ ↦ ⟨hcalls, hkept⟩))
    refine (spec_installAll ht₃ hkept).mono ?_ ?_
    · intro _ s' h' hend
      exact ⟨⟨calls, hend.1⟩, hend.1 ▸ hend.2⟩
    · intro _ s' h' hend
      exact ⟨⟨calls, hend.1⟩, hend.1 ▸ hend.2⟩
  · intro _ s₃ h₃ hend
    obtain ⟨calls, hs, hkept₃⟩ := hend
    exact ⟨⟨calls, hs⟩, hkept₃.kept_none⟩

def fieldBlock : Field → Block
  | .cells => .object .rowCells
  | .rowIter => .object .rowIterator
  | .renderState => .object .renderState
  | .terminal => .terminal fun _ ↦ none

theorem blocks_clear {field : Field} {a : ℕ} (ha : field.get s.term = some a) :
    (blocks s fun _ ↦ none).Perm
      ((a, fieldBlock field) :: blocks { s with term := field.clear s.term } fun _ ↦ none) := by
  classical
  refine List.perm_iff_count.mpr fun x ↦ ?_
  cases field
  all_goals
    simp only [Field.get] at ha
    simp only [blocks, otherBlocks, Field.clear, fieldBlock, ha, ptrBlock, Option.map_some,
      Option.map_none, Option.toList_some, Option.toList_none, List.count_append, List.count_cons,
      List.count_nil]
    omega

theorem clear_none {field : Field} {term : VtTerminal} (hnone : field.get term = none) :
    field.clear term = term := by
  cases field
  all_goals
    simp only [Field.get] at hnone
    rw [Field.clear, ← hnone]

theorem spec_freeField (field : Field) {E : DartString → ω × Isolate → Heap Block → Prop}
    (hkept : KeptAs base ps s (fun _ ↦ none) h) :
    Spec (freeField field)
      (fun _ s' h' ↦ s'.2 = { s with term := field.clear s.term } ∧
        KeptAs base ps s'.2 (fun _ ↦ none) h') E (w, s) h := by
  have his : field.is (fieldBlock field) = true := by
    cases field
    all_goals rfl
  refine spec_bind (spec_readVar ?_)
  cases hfield : field.get s.term with
  | none =>
    refine spec_pure ?_
    rw [clear_none hfield]
    exact ⟨rfl, hkept⟩
  | some a =>
    obtain ⟨leaked, hleaked, ho⟩ := hkept
    refine spec_bind (spec_lift (spec_freeObject
      (ho.perm ((blocks_clear hfield).append_right (leaked ++ ps))) his fun h' ho' ↦ ?_))
    exact spec_modifyTerm ⟨rfl, leaked, hleaked, ho'⟩

def closedTerm (cols rows : ℤ) : VtTerminal := { cols := cols, rows := rows, closed := true }

/-- Closing forgets the functions first, then closes them, and frees the objects last. -/
theorem spec_close {t : ℕ} {E : DartString → ω × Isolate → Heap Block → Prop}
    (hforgets : Forgets lib) (hopen : s.term.closed = false) (ht : s.term.terminal = some t)
    (hkept : Kept base ps s h) :
    Spec (close lib)
      (fun _ s' h' ↦ s'.2 = { s with term := closedTerm s.term.cols s.term.rows } ∧
        KeptAs base ps s'.2 (fun _ ↦ none) h') E (w, s) h := by
  obtain ⟨set, -, hkept⟩ := hkept
  unfold close
  refine spec_bind (spec_readVar ?_)
  simp only [hopen]
  refine spec_bind (spec_modifyTerm ?_)
  let closing : Isolate := { s with term := { s.term with closed := true } }
  have hkept₀ : KeptAs base ps closing set h := hkept
  refine (spec_clearEffectOpts hforgets (s := closing) ht hkept₀).bind fun _ s₁ h₁ hend ↦ ?_
  obtain ⟨w₁, s₁⟩ := s₁
  obtain ⟨rfl, hkept₁⟩ := hend
  refine (spec_closeCallables hkept₁).bind fun _ s₂ h₂ hend ↦ ?_
  obtain ⟨w₂, s₂⟩ := s₂
  obtain ⟨rfl, hkept₂⟩ := hend
  refine (spec_freeField .cells hkept₂).bind fun _ s₃ h₃ hend ↦ ?_
  obtain ⟨w₃, s₃⟩ := s₃
  obtain ⟨rfl, hkept₃⟩ := hend
  refine (spec_freeField .rowIter hkept₃).bind fun _ s₄ h₄ hend ↦ ?_
  obtain ⟨w₄, s₄⟩ := s₄
  obtain ⟨rfl, hkept₄⟩ := hend
  refine (spec_freeField .renderState hkept₄).bind fun _ s₅ h₅ hend ↦ ?_
  obtain ⟨w₅, s₅⟩ := s₅
  obtain ⟨rfl, hkept₅⟩ := hend
  refine (spec_freeField .terminal hkept₅).bind fun _ s₆ h₆ hend ↦ ?_
  obtain ⟨w₆, s₆⟩ := s₆
  obtain ⟨rfl, hkept₆⟩ := hend
  exact spec_modifyTerm ⟨rfl, hkept₆⟩

theorem mem_blocks {t : ℕ} (ht : s.term.terminal = some t) (qs : List (ℕ × Block)) :
    (t, Block.terminal set) ∈ blocks s set ++ qs := by
  rw [blocks_eq ht]
  exact List.mem_append_left _ List.mem_cons_self

theorem spec_liftKept {p : Native ω α} {t : ℕ} (ht : s.term.terminal = some t)
    (hkept : Kept base ps s h)
    (hp : ∀ set qs, Owns base qs h → (t, .terminal set) ∈ qs → Spec p
      (fun _ _ h' ↦ Owns base qs h') (fun _ _ h' ↦ Owns base qs h' ∨ LeftBehind base qs h') w h) :
    Spec (lift p) (fun _ s' h' ↦ s'.2 = s ∧ Kept base ps s h')
      (fun _ s' h' ↦ s'.2 = s ∧ Kept base ps s h') (w, s) h := by
  obtain ⟨set, hset, leaked, hleaked, ho⟩ := hkept
  refine spec_lift ((hp set _ ho (mem_blocks ht _)).mono ?_ ?_)
  · intro _ w' h' ho'
    exact ⟨rfl, set, hset, leaked, hleaked, ho'⟩
  · intro e w' h' hend
    obtain ho' | hleft := hend
    · exact ⟨rfl, set, hset, leaked, hleaked, ho'⟩
    · exact ⟨rfl, set, hset, KeptAs.of_left hleft⟩

theorem spec_enableKittyGraphics {t : ℕ} {limitBytes : Int64} (hopen : s.term.closed = false)
    (ht : s.term.terminal = some t) (hkept : Kept base ps s h) :
    Spec (enableKittyGraphics lib limitBytes) (fun _ s' h' ↦ s'.2 = s ∧ Kept base ps s h')
      (fun _ s' h' ↦ s'.2 = s ∧ Kept base ps s h') (w, s) h := by
  unfold enableKittyGraphics
  refine spec_bind (spec_ensureOpen hopen ?_)
  by_cases hlimit : limitBytes ≤ 0
  · rw [if_pos hlimit]
    exact spec_lift (spec_throw ⟨rfl, hkept⟩)
  · rw [if_neg hlimit]
    refine spec_bind (spec_lift (spec_expect ht (spec_liftKept ht hkept fun set qs ho hmem ↦ ?_)))
    refine spec_bind (spec_malloc ho (fun lim h₁ ho₁ ↦ ?_) fun h' hno ↦
      Or.inr ⟨hno.refused, [], hno.owns⟩)
    refine spec_ensure (spec_bind (spec_modify ho₁ fun h₂ ho₂ ↦ ?_))
    refine spec_bind (spec_readSize ho₂ List.mem_cons_self ?_)
    refine spec_bind (spec_terminalSet ho₂ (List.mem_cons_of_mem _ hmem) ?_)
    refine spec_check (fun _ ↦ spec_free ho₂ fun h₃ ho₃ ↦ ho₃) fun _ ↦ ?_
    exact spec_free ho₂ fun h₃ ho₃ ↦ Or.inl ho₃

theorem spec_setDefaultTheme {t : ℕ} {fg bg cursor : Rgb} (hopen : s.term.closed = false)
    (ht : s.term.terminal = some t) (hkept : Kept base ps s h) :
    Spec (setDefaultTheme lib fg bg cursor) (fun _ s' h' ↦ s'.2 = s ∧ Kept base ps s h')
      (fun _ s' h' ↦ s'.2 = s ∧ Kept base ps s h') (w, s) h := by
  unfold setDefaultTheme
  refine spec_bind (spec_ensureOpen hopen (spec_bind (spec_lift (spec_expect ht ?_))))
  refine spec_liftKept ht hkept fun set qs ho hmem ↦ ?_
  exact (spec_applyTheme ho hmem).mono (fun _ _ _ hend ↦ hend.2) fun _ _ _ hend ↦
    hend.imp_left fun hset ↦ hset.2

def SameTerminal (base : Heap Block) (ps : List (ℕ × Block)) (s : Isolate) (s' : ω × Isolate)
    (h : Heap Block) : Prop :=
  (∃ c, s'.2.term = { s.term with calls := c }) ∧ Kept base ps s'.2 h

theorem spec_installPngDecoderOnce (hkept : Kept base ps s h) :
    Spec (installPngDecoderOnce lib) (fun _ s' h' ↦ SameTerminal base ps s s' h')
      (fun _ s' h' ↦ SameTerminal base ps s s' h') (w, s) h := by
  refine spec_bind (spec_readVar ?_)
  cases hdecoder : s.decoder with
  | some _ => exact spec_pure ⟨⟨s.term.calls, rfl⟩, hkept⟩
  | none =>
    have hsame : SameTerminal base ps s (w, s) h := ⟨⟨s.term.calls, rfl⟩, hkept⟩
    obtain ⟨set, hset, leaked, hleaked, ho⟩ := hkept
    refine spec_bind (spec_lift (spec_malloc ho (fun a h₁ ho₁ ↦ ?_) fun h' hno ↦
      ⟨⟨s.term.calls, rfl⟩, set, hset, leaked, Or.inl hno.refused, hno.owns⟩))
    refine spec_bind (spec_lift (spec_world ?_))
    by_cases hrc : lib.sysSet w = kGhosttySuccess
    · rw [if_neg (not_not.mpr hrc)]
      refine spec_assign ⟨⟨s.term.calls, rfl⟩, set, hset, leaked, hleaked, ho₁.perm ?_⟩
      classical
      refine List.perm_iff_count.mpr fun x ↦ ?_
      simp only [blocks, otherBlocks, hdecoder, ptrBlock, Option.map_some, Option.map_none,
        Option.toList_some, Option.toList_none, List.count_append, List.count_cons, List.count_nil]
      omega
    · rw [if_pos hrc]
      refine spec_bind (spec_lift (spec_free ho₁ fun h₂ ho₂ ↦ spec_lift (spec_throw ?_)))
      exact ⟨⟨s.term.calls, rfl⟩, set, hset, leaked, hleaked, ho₂⟩

theorem spec_setUp {t : ℕ} (hforgets : Forgets lib) (hopen : s.term.closed = false)
    (ht : s.term.terminal = some t) (hkept : Kept base ps s h) :
    Spec (VtTerminal.setUp lib) (fun _ s' h' ↦ SameTerminal base ps s s' h')
      (fun _ s' h' ↦ SameTerminal base ps s s' h') (w, s) h := by
  unfold VtTerminal.setUp
  refine (spec_installPngDecoderOnce hkept).bind fun _ s₁ h₁ hend ↦ ?_
  obtain ⟨w₁, s₁⟩ := s₁
  obtain ⟨⟨c, hc⟩, hkept₁⟩ := hend
  have hopen₁ : s₁.term.closed = false := by rw [hc]; exact hopen
  have ht₁ : s₁.term.terminal = some t := by rw [hc]; exact ht
  have hsame {s' : ω × Isolate} {h' : Heap Block} (hs : s'.2 = s₁) (hkept : Kept base ps s₁ h') :
      SameTerminal base ps s s' h' := ⟨⟨c, by rw [hs, hc]⟩, hs ▸ hkept⟩
  refine spec_bind ((spec_enableKittyGraphics hopen₁ ht₁ hkept₁).mono ?_ fun _ _ _ hend ↦
    hsame hend.1 hend.2)
  intro _ s₂ h₂ hend
  obtain ⟨w₂, s₂⟩ := s₂
  obtain ⟨rfl, hkept₂⟩ := hend
  refine spec_bind ((spec_setDefaultTheme hopen₁ ht₁ hkept₂).mono ?_ fun _ _ _ hend ↦
    hsame hend.1 hend.2)
  intro _ s₃ h₃ hend
  obtain ⟨w₃, s₃⟩ := s₃
  obtain ⟨rfl, hkept₃⟩ := hend
  refine (spec_installEffects hforgets hopen₁ ht₁ hkept₃).mono ?_ ?_
  · intro _ s₄ h₄ hend
    obtain ⟨⟨c', hc'⟩, hkept₄⟩ := hend
    exact ⟨⟨c', by rw [hc', withCalls, hc]⟩, hkept₄⟩
  · intro _ s₄ h₄ hend
    obtain ⟨⟨c', hc'⟩, hkept₄⟩ := hend
    exact ⟨⟨c', by rw [hc', withCalls, hc]⟩, hkept₄⟩

def Queued (s s' : Isolate) : Prop :=
  ∃ ptyOut chrome, s' = { s with term := { s.term with ptyOut := ptyOut, chrome := chrome } }

theorem queued_enqueue (c : Callback) (s : Isolate) :
    Queued s { s with term := enqueue c s.term } := by
  have hchrome : Queued s { s with term :=
      { s.term with chrome := s.term.chrome ++ (chromeEvent c).toList } } := ⟨_, _, rfl⟩
  cases c with
  | writePty data =>
    obtain _ | _ | ⟨b, data⟩ := data
    · exact ⟨s.term.ptyOut, s.term.chrome, rfl⟩
    · exact ⟨s.term.ptyOut, s.term.chrome, rfl⟩
    · exact ⟨_, _, rfl⟩
  | _ => exact hchrome

theorem Queued.trans {s s' s'' : Isolate} (h : Queued s s') (h' : Queued s' s'') :
    Queued s s'' := by
  obtain ⟨_, _, rfl⟩ := h
  obtain ⟨ptyOut, chrome, rfl⟩ := h'
  exact ⟨ptyOut, chrome, rfl⟩

theorem Queued.kept {s' : Isolate} (hqueued : Queued s s') (hkept : Kept base ps s h) :
    Kept base ps s' h := by
  obtain ⟨_, _, rfl⟩ := hqueued
  exact hkept

theorem Queued.terminal_eq {s' : Isolate} (hqueued : Queued s s') :
    s'.term.terminal = s.term.terminal := by
  obtain ⟨_, _, rfl⟩ := hqueued
  rfl

theorem spec_mallocKept {b : Block} {Q : ℕ → ω × Isolate → Heap Block → Prop}
    {E : DartString → ω × Isolate → Heap Block → Prop} (hkept : Kept base ps s h)
    (hQ : ∀ a h', Kept base ((a, b) :: ps) s h' → Q a (w, s) h')
    (hE : ∀ h', Kept base ps s h' → E mallocFailed (w, s) h') :
    Spec (lift (mallocBytes b)) Q E (w, s) h := by
  obtain ⟨set, hset, leaked, hleaked, ho⟩ := hkept
  refine spec_lift (spec_malloc ho (fun a h' ho' ↦ ?_) fun h' hno ↦
    hE h' ⟨set, hset, leaked, hleaked, hno.owns⟩)
  refine hQ a h' ⟨set, hset, leaked, hleaked, ho'.perm ?_⟩
  rw [← List.append_assoc, ← List.append_assoc]
  exact List.perm_middle.symm

theorem spec_freeKept {a : ℕ} {b : Block} {Q : Unit → ω × Isolate → Heap Block → Prop}
    {E : DartString → ω × Isolate → Heap Block → Prop} (hkept : Kept base ((a, b) :: ps) s h)
    (hQ : ∀ h', Kept base ps s h' → Q () (w, s) h') : Spec (lift (free a)) Q E (w, s) h := by
  obtain ⟨set, hset, leaked, hleaked, ho⟩ := hkept
  rw [← List.append_assoc] at ho
  refine spec_lift (spec_free (ho.perm List.perm_middle) fun h' ho' ↦ ?_)
  exact hQ h' ⟨set, hset, leaked, hleaked, by rwa [List.append_assoc] at ho'⟩

theorem callable_mem_blocks (set : Effect → Ptr) {e : Effect} {a : ℕ}
    (hcall : s.term.calls e = some a) (qs : List (ℕ × Block)) :
    (a, Block.callable e) ∈ blocks s set ++ qs := by
  refine List.mem_append_left _ (List.mem_append_right _ ?_)
  refine List.mem_append_right _ (List.mem_append_right _ (List.mem_append_right _ ?_))
  refine List.mem_append_left _ (List.mem_flatMap.mpr ⟨e, mem_effects e, ?_⟩)
  rw [hcall]
  exact List.mem_singleton_self _

/-- A function that the terminal calls is there, and only queues. -/
theorem spec_fire {t : ℕ} {c : Callback} {E : DartString → ω × Isolate → Heap Block → Prop}
    (ht : s.term.terminal = some t) (hkept : Kept base ps s h) :
    Spec (fire t c) (fun _ s' h' ↦ Queued s s'.2 ∧ Kept base ps s'.2 h') E (w, s) h := by
  have hsame : Queued s s := ⟨_, _, rfl⟩
  obtain ⟨set, hset, leaked, hleaked, ho⟩ := id hkept
  refine spec_bind (spec_lift (spec_load ho (mem_blocks ht _) ?_))
  refine spec_bind (spec_lift (spec_expect rfl ?_))
  cases hcall : set c.effect with
  | none => exact spec_pure ⟨hsame, hkept⟩
  | some a =>
    have hmem := callable_mem_blocks set (hset _ a hcall) (leaked ++ ps)
    refine spec_bind (spec_lift (spec_useObject (ho.held _ hmem) (by simp [Block.isCallable]) ?_))
    exact spec_modifyTerm ⟨queued_enqueue c s, (queued_enqueue c s).kept hkept⟩

theorem spec_write {t : ℕ} {data : Bytes} (hopen : s.term.closed = false)
    (ht : s.term.terminal = some t) (hkept : Kept base ps s h) :
    Spec (write lib data) (fun _ s' h' ↦ Queued s s'.2 ∧ Kept base ps s'.2 h')
      (fun _ s' h' ↦ Queued s s'.2 ∧ Kept base ps s'.2 h') (w, s) h := by
  have hsame : Queued s s := ⟨_, _, rfl⟩
  unfold write
  refine spec_bind (spec_ensureOpen hopen ?_)
  by_cases hempty : data = []
  · rw [if_pos hempty]
    exact spec_pure ⟨hsame, hkept⟩
  · rw [if_neg hempty]
    refine spec_bind (spec_lift (spec_expect ht (spec_bind ?_)))
    refine spec_mallocKept hkept (fun buf h₁ hkept₁ ↦ ?_) fun h' hkept' ↦ ⟨hsame, hkept'⟩
    obtain ⟨set, hset, leaked, hleaked, ho⟩ := id hkept₁
    have hbuf : (buf, Block.bytes data) ∈
        blocks s set ++ (leaked ++ (buf, Block.bytes data) :: ps) :=
      List.mem_append_right _ (List.mem_append_right _ List.mem_cons_self)
    refine spec_ensure (spec_bind (spec_lift (spec_load ho hbuf (spec_bind ?_))))
    refine spec_lift (spec_expect rfl (spec_bind (spec_lift ?_)))
    refine spec_useObject (ho.held _ (mem_blocks ht _)) rfl (spec_bind (spec_lift (spec_world ?_)))
    let I (_ : List Callback) (s' : ω × Isolate) (h' : Heap Block) : Prop :=
      Queued s s'.2 ∧ Kept base ((buf, .bytes data) :: ps) s'.2 h'
    refine (spec_forEach I (fun c cs s' h' hI ↦ ?_) ⟨hsame, hkept₁⟩).mono ?_ fun _ _ _ hend ↦ hend
    · obtain ⟨w', s'⟩ := s'
      obtain ⟨hqueued, hkept'⟩ := hI
      refine (spec_fire (hqueued.terminal_eq.trans ht) hkept').mono ?_ fun _ _ _ hend ↦ hend
      exact fun _ _ _ hend ↦ ⟨hqueued.trans hend.1, hend.2⟩
    · intro _ s' h' hI
      obtain ⟨w', s'⟩ := s'
      exact spec_freeKept hI.2 fun h'' hkept'' ↦ ⟨hI.1, hkept''⟩

/-- A terminal that is closed has nothing left; another one has its terminal. -/
def Settled (term : VtTerminal) : Prop :=
  (∃ cols rows, term = closedTerm cols rows) ∨ term.closed = false ∧ ∃ t, term.terminal = some t

/-- What a method leaves, however it ends. -/
def Stays (base : Heap Block) (ps : List (ℕ × Block)) (s : ω × Isolate) (h : Heap Block) : Prop :=
  Settled s.2.term ∧ Kept base ps s.2 h

theorem Queued.settled {s' : Isolate} (hqueued : Queued s s') (hopen : s.term.closed = false)
    {t : ℕ} (ht : s.term.terminal = some t) : Settled s'.term := by
  obtain ⟨_, _, rfl⟩ := hqueued
  exact Or.inr ⟨hopen, t, ht⟩

theorem SameTerminal.settled {s' : ω × Isolate} (hsame : SameTerminal base ps s s' h)
    (hopen : s.term.closed = false) {t : ℕ} (ht : s.term.terminal = some t) :
    Settled s'.2.term := by
  obtain ⟨⟨c, hc⟩, -⟩ := hsame
  rw [hc]
  exact Or.inr ⟨hopen, t, ht⟩

def madeTerm (terminal renderState rowIter cells : ℕ) (cols rows : ℤ) : VtTerminal where
  terminal := some terminal
  renderState := some renderState
  rowIter := some rowIter
  cells := some cells
  cols := cols
  rows := rows

theorem kept_made {terminal renderState rowIter cells : ℕ} {cols rows : ℤ}
    (ho : Owns base (ps ++ (objectBlocks (fun _ ↦ none) terminal renderState rowIter cells ++
      ptrBlock s.decoder .pngDecoder)) h) :
    Kept base ps { s with term := madeTerm terminal renderState rowIter cells cols rows } h := by
  refine KeptAs.kept_none ⟨[], Or.inr rfl, ho.perm ?_⟩
  classical
  refine List.perm_iff_count.mpr fun x ↦ ?_
  simp only [blocks, otherBlocks, madeTerm, objectBlocks, callBlocks, effects, ptrBlock,
    Option.map_some, Option.map_none, Option.toList_some, Option.toList_none, List.flatMap_cons,
    List.flatMap_nil, List.count_append, List.count_cons, List.count_nil]
  omega

theorem spec_open {cols rows : ℤ} (hforgets : Forgets lib)
    (hclosed : ∃ cols rows, s.term = closedTerm cols rows)
    (ho : Owns base (ptrBlock s.decoder .pngDecoder ++ ps) h) :
    Spec (VtTerminal.open lib cols rows) (fun _ s' h' ↦ Stays base ps s' h')
      (fun _ s' h' ↦ (∃ cols rows, s'.2.term = closedTerm cols rows) ∧ Kept base ps s'.2 h')
      (w, s) h := by
  have hkept {h' : Heap Block} {leaked : List (ℕ × Block)}
      (hleaked : (∃ a, base.grants a = false) ∨ leaked = [])
      (ho : Owns base (leaked ++ (ptrBlock s.decoder .pngDecoder ++ ps)) h') :
      Kept base ps s h' := by
    obtain ⟨cols, rows, hterm⟩ := hclosed
    refine KeptAs.kept_none ⟨leaked, hleaked, ho.perm ?_⟩
    classical
    refine List.perm_iff_count.mpr fun x ↦ ?_
    simp only [blocks, otherBlocks, hterm, closedTerm, callBlocks, effects, ptrBlock,
      Option.map_none, Option.toList_none, List.flatMap_cons, List.flatMap_nil, List.count_append,
      List.count_nil]
    omega
  unfold VtTerminal.open
  by_cases hsize : cols < 1 ∨ rows < 1
  · rw [if_pos hsize]
    exact spec_throw ⟨hclosed, hkept (Or.inr rfl) ho⟩
  · rw [if_neg hsize]
    let Holds (s' : ω × Isolate) (bs : List (ℕ × Block)) : Prop :=
      ∃ set, (∀ e a, set e = some a → s'.2.term.calls e = some a) ∧ ∃ leaked,
        ((∃ a, base.grants a = false) ∨ leaked = []) ∧ bs = blocks s'.2 set ++ (leaked ++ ps)
    let Q (_ : Unit) (s' : ω × Isolate) (bs : List (ℕ × Block)) : Prop :=
      Settled s'.2.term ∧ Holds s' bs
    let E (_ : DartString) (s' : ω × Isolate) (bs : List (ℕ × Block)) : Prop :=
      (∃ cols rows, s'.2.term = closedTerm cols rows) ∧ Holds s' bs
    have hopens {slots : List (ℕ × Block)} {s' : ω × Isolate} {h' : Heap Block}
        (hkept : Kept base (ps ++ slots) s'.2 h') :
        ∃ bs, Holds s' bs ∧ Owns base (slots ++ bs) h' := by
      obtain ⟨set, hset, leaked, hleaked, ho⟩ := hkept
      refine ⟨_, ⟨set, hset, leaked, hleaked, rfl⟩, ho.perm ?_⟩
      rw [← List.append_assoc, ← List.append_assoc]
      exact List.perm_append_comm.trans (by rw [List.append_assoc])
    refine (spec_openNative (Q := Q) (E := E) ho ?_).mono ?_ ?_
    · intro made slots h₁ hmade _ ho₁
      obtain ⟨terminal, renderState, rowIter, cells, hsnd, hblocks⟩ := made_four hmade
      rw [hblocks] at ho₁
      rw [hsnd]
      refine spec_bind (spec_modifyTerm ?_)
      have hperm : (slots ++ (objectBlocks (fun _ ↦ none) terminal renderState rowIter cells ++
          (ptrBlock s.decoder .pngDecoder ++ ps))).Perm ((ps ++ slots) ++ (objectBlocks
            (fun _ ↦ none) terminal renderState rowIter cells ++
              ptrBlock s.decoder .pngDecoder)) := by
        classical
        refine List.perm_iff_count.mpr fun x ↦ ?_
        simp only [List.count_append]
        omega
      have hkept₁ : Kept base (ps ++ slots)
          { s with term := madeTerm terminal renderState rowIter cells cols rows } h₁ :=
        kept_made (ho₁.perm hperm)
      refine spec_rescue ((spec_setUp hforgets (s := { s with term := _ }) rfl rfl hkept₁).mono
        ?_ ?_)
      · intro _ s₂ h₂ hsame
        obtain ⟨bs, hholds, ho₂⟩ := hopens hsame.2
        exact ⟨bs, ⟨hsame.settled rfl rfl, hholds⟩, ho₂⟩
      · intro e s₂ h₂ hsame
        obtain ⟨w₂, s₂⟩ := s₂
        obtain ⟨⟨c, hc⟩, hkept₂⟩ := hsame
        refine (spec_close hforgets (congrArg VtTerminal.closed hc)
          (congrArg VtTerminal.terminal hc) hkept₂).mono ?_ fun _ _ _ hend ↦ hend
        intro _ s₃ h₃ hend
        obtain ⟨hs₃, hkept₃⟩ := hend
        obtain ⟨bs, hholds, ho₃⟩ := hopens hkept₃.kept_none
        exact ⟨bs, ⟨⟨_, _, by rw [hs₃]⟩, hholds⟩, ho₃⟩
    · intro _ s' h' hend
      obtain ⟨bs, ⟨hsettled, set, hset, leaked, hleaked, rfl⟩, ho'⟩ := hend
      exact ⟨hsettled, set, hset, leaked, hleaked, ho'⟩
    · intro e s' h' hend
      obtain ⟨bs, ⟨hclosed', set, hset, leaked, hleaked, rfl⟩, ho'⟩ | ⟨rfl, hno⟩ := hend
      · exact ⟨hclosed', set, hset, leaked, hleaked, ho'⟩
      · obtain ⟨-, ho'⟩ | ⟨hrefused, leaked, ho'⟩ := hno
        · exact ⟨hclosed, hkept (Or.inr (Eq.refl [])) ho'⟩
        · exact ⟨hclosed, hkept (Or.inl hrefused) ho'⟩

end Kept

end MachineNotebook.Vt.TerminalLife
