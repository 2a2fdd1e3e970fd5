import MachineNotebook.Vt.Encoder

namespace MachineNotebook.Vt.NativeObjects

open MachineNotebook.Lib MachineNotebook.Lib.Utf8 MachineNotebook.Lib.HeapLogic
open MachineNotebook.Lib.HeapLogic.Prog NativeBlocks
open Dart.Bindings (DartString)
open Encoder (VtEncoder Alive)

variable {ω α : Type}

/-- An object that a factory asks the emulator for. Its free function knows it. -/
structure Wanted (ω : Type) where
  block : Block
  is : Block → Bool
  verdict : ω → Int32
  failed : String
  his : is block = true

section Source

def mallocSlots : ℕ → Native ω (List ℕ)
  | 0 => return []
  | count + 1 => do
    let a ← mallocBytes (.handle none)
    let outs ← mallocSlots count
    return a :: outs

def freeHeld : List (Wanted ω × ℕ) → Native ω Unit
  | [] => return ()
  | (wanted, a) :: held => do
    freeObject wanted.is a
    freeHeld held

/-- The objects of a factory, one after the other. Where one cannot be had, those before it are
freed, the last one first. -/
def openObjects : List (Wanted ω) → List ℕ → List (Wanted ω × ℕ) →
    Native ω (List (Wanted ω × ℕ))
  | [], _, held => return held.reverse
  | _ :: _, [], _ => expect none
  | wanted :: rest, out :: outs, held => do
    let rc ← newObject wanted.block wanted.verdict out
    if rc ≠ kGhosttySuccess then do
      freeHeld held
      throwRc wanted.failed rc
    else do
      let p ← readHandle out
      let a ← expect p
      openObjects rest outs ((wanted, a) :: held)

/-- The shape of all factories: the pointers go through slots that are freed in the end. -/
def openNative (objects : List (Wanted ω)) (finish : List ℕ → Native ω α) : Native ω α := do
  let outs ← mallocSlots objects.length
  ensure (do
      let made ← openObjects objects outs []
      finish (made.map Prod.snd))
    (freeAll outs)

structure Verdicts (ω : Type) where
  keyEncoderNew : ω → Int32
  keyEventNew : ω → Int32
  mouseEncoderNew : ω → Int32
  mouseEventNew : ω → Int32
  selectionGestureNew : ω → Int32
  selectionGestureEventNew : ω → Int32

variable (v : Verdicts ω)

def VtEncoder.open : Native ω VtEncoder :=
  openNative [⟨.object .keyEncoder, Block.isObject .keyEncoder, v.keyEncoderNew,
      "ghostty_key_encoder_new failed: ", rfl⟩,
    ⟨.keyEvent {}, Block.isKeyEvent, v.keyEventNew, "ghostty_key_event_new failed: ", rfl⟩]
    fun made ↦
      match made with
      | [encoder, keyEvent] => return ⟨some encoder, some keyEvent, false⟩
      | _ => expect none

structure VtMouseEncoder where
  encoder : Ptr
  event : Ptr
  closed : Bool := false

def VtMouseEncoder.open : Native ω VtMouseEncoder :=
  openNative [⟨.object .mouseEncoder, Block.isObject .mouseEncoder, v.mouseEncoderNew,
      "ghostty_mouse_encoder_new failed: ", rfl⟩,
    ⟨.object .mouseEvent, Block.isObject .mouseEvent, v.mouseEventNew,
      "ghostty_mouse_event_new failed: ", rfl⟩]
    fun made ↦
      match made with
      | [encoder, event] => return ⟨some encoder, some event, false⟩
      | _ => expect none

structure VtSelectionController where
  gesture : Ptr
  press : Ptr
  drag : Ptr
  release : Ptr
  closed : Bool := false

def VtSelectionController.open : Native ω VtSelectionController :=
  let event (failed : String) : Wanted ω := ⟨.object .selectionGestureEvent,
    Block.isObject .selectionGestureEvent, v.selectionGestureEventNew, failed, rfl⟩
  openNative [⟨.object .selectionGesture, Block.isObject .selectionGesture, v.selectionGestureNew,
      "ghostty_selection_gesture_new failed: ", rfl⟩,
    event "selection_gesture_event_new(press) failed: ",
    event "selection_gesture_event_new(drag) failed: ",
    event "selection_gesture_event_new(release) failed: "]
    fun made ↦
      match made with
      | [gesture, press, drag, release] =>
        return ⟨some gesture, some press, some drag, some release, false⟩
      | _ => expect none

end Source

/-- The text of the first object that cannot be had. -/
def firstFailure (objects : List (Wanted ω)) (w : ω) : Option DartString :=
  (objects.find? fun wanted ↦ wanted.verdict w ≠ kGhosttySuccess).map fun wanted ↦
    Utf16.encode (wanted.failed ++ toString (wanted.verdict w))

def heldBlocks (held : List (Wanted ω × ℕ)) : List (ℕ × Block) :=
  held.map fun x ↦ (x.2, x.1.block)

/-- An allocation was refused: what was there before is still there, besides what is left behind. -/
def LeftBehind (base : Heap Block) (ps : List (ℕ × Block)) (h : Heap Block) : Prop :=
  (∃ a, base.grants a = false) ∧ ∃ leaked, Owns base (leaked ++ ps) h

section Rules

variable {base h : Heap Block} {ps : List (ℕ × Block)} {w : ω}
  {E : DartString → ω → Heap Block → Prop}

theorem spec_mallocSlots {count : ℕ} (ho : Owns base ps h) :
    Spec (mallocSlots count)
      (fun outs w' h' ↦ w' = w ∧ outs.length = count ∧
        Owns base (outs.map (fun a ↦ (a, .handle none)) ++ ps) h')
      (fun _ w' h' ↦ w' = w ∧ LeftBehind base ps h') w h := by
  induction count generalizing ps h with
  | zero => exact spec_pure ⟨rfl, rfl, ho⟩
  | succ count ih =>
    unfold mallocSlots mallocBytes
    refine spec_bind (spec_malloc ho (fun a h₁ ho₁ ↦ ?_) fun h' hrefused ↦
      ⟨rfl, hrefused.refused, [], hrefused.owns⟩)
    refine ((ih ho₁).mono (fun _ _ _ hend ↦ hend) ?_).bind fun outs w' h₂ hend ↦ ?_
    · intro e w' h' hout
      obtain ⟨rfl, hrefused, leaked, ho'⟩ := hout
      refine ⟨rfl, hrefused, leaked ++ [(a, .handle none)], ?_⟩
      simpa using ho'
    · obtain ⟨rfl, hlen, ho₂⟩ := hend
      exact spec_pure ⟨rfl, by rw [List.length_cons, hlen], ho₂.perm List.perm_middle⟩

theorem spec_freeHeld {held : List (Wanted ω × ℕ)} {Q : Unit → ω → Heap Block → Prop}
    (ho : Owns base (heldBlocks held ++ ps) h) (hQ : ∀ h', Owns base ps h' → Q () w h') :
    Spec (freeHeld held) Q E w h := by
  induction held generalizing h with
  | nil => exact spec_pure (hQ h ho)
  | cons head held ih => exact spec_bind (spec_freeObject ho head.1.his fun h₁ ho₁ ↦ ih ho₁)

theorem spec_openObjects {objects : List (Wanted ω)} {outs : List ℕ} {held : List (Wanted ω × ℕ)}
    {done : List (ℕ × Block)} (hlen : outs.length = objects.length)
    (ho : Owns base (outs.map (fun a ↦ (a, .handle none)) ++ (done ++ (heldBlocks held ++ ps))) h) :
    Spec (openObjects objects outs held)
      (fun made w' h' ↦ w' = w ∧ firstFailure objects w = none ∧
        made.map Prod.fst = held.reverse.map Prod.fst ++ objects ∧ ∃ slots,
          (slots.map Prod.fst).Perm (outs ++ done.map Prod.fst) ∧
            Owns base (slots ++ (heldBlocks made ++ ps)) h')
      (fun e w' h' ↦ w' = w ∧ (firstFailure objects w = some e ∨ ∃ a, base.grants a = false) ∧
        ∃ slots, (slots.map Prod.fst).Perm (outs ++ done.map Prod.fst) ∧
          Owns base (slots ++ ps) h') w h := by
  induction objects generalizing outs held done h with
  | nil =>
    obtain rfl := List.length_eq_zero_iff.mp hlen
    refine spec_pure ⟨rfl, rfl, by simp, done, List.Perm.refl _, ho.perm ?_⟩
    exact (((List.reverse_perm held).symm.map _).append_right ps).append_left done
  | cons wanted rest ih =>
    obtain ⟨out, outs, rfl⟩ := List.exists_cons_of_length_eq_add_one hlen
    unfold openObjects
    refine (spec_newObject ho).bind fun rc w' h₁ hend ↦ ?_
    obtain ⟨rfl, ⟨rfl, hverdict, made, ho₁⟩ | ⟨hrc, ho₁, hwhy⟩⟩ := hend
    · have hfirst : firstFailure (wanted :: rest) w' = firstFailure rest w' := by
        simp [firstFailure, hverdict]
      have hperm (slots : List (ℕ × Block)) (hslots : (slots.map Prod.fst).Perm
          (outs ++ ((out, Block.handle (some (some made))) :: done).map Prod.fst)) :
          (slots.map Prod.fst).Perm ((out :: outs) ++ done.map Prod.fst) :=
        hslots.trans List.perm_middle
      have hfront : ((out, Block.handle (some (some made))) :: (made, wanted.block) ::
          (outs.map (fun a ↦ (a, Block.handle none)) ++ (done ++ (heldBlocks held ++ ps)))).Perm
          (outs.map (fun a ↦ (a, .handle none)) ++
            ((out, .handle (some (some made))) :: done ++
              (heldBlocks ((wanted, made) :: held) ++ ps))) := by
        classical
        refine List.perm_iff_count.mpr fun x ↦ ?_
        simp only [heldBlocks, List.map_cons, List.count_append, List.count_cons]
        omega
      rw [if_neg (not_not.mpr rfl)]
      refine spec_bind (spec_bind (spec_load ho₁ List.mem_cons_self (spec_expect rfl ?_)))
      refine spec_bind (spec_expect rfl ?_)
      rw [hfirst]
      refine (ih (Nat.succ_inj.mp hlen) (ho₁.perm hfront)).mono ?_ ?_
      · intro all w'' h' hend
        obtain ⟨rfl, hnone, hall, slots, hslots, ho'⟩ := hend
        exact ⟨rfl, hnone, by simpa using hall, slots, hperm slots hslots, ho'⟩
      · intro e w'' h' hend
        obtain ⟨rfl, hwhy, slots, hslots, ho'⟩ := hend
        exact ⟨rfl, hwhy, slots, hperm slots hslots, ho'⟩
    · have hfront : ((out, Block.handle none) ::
          (outs.map (fun a ↦ (a, Block.handle none)) ++ (done ++ (heldBlocks held ++ ps)))).Perm
          (heldBlocks held ++ (((out :: outs).map (fun a ↦ (a, .handle none)) ++ done) ++ ps)) := by
        classical
        refine List.perm_iff_count.mpr fun x ↦ ?_
        simp only [List.map_cons, List.count_append, List.count_cons]
        omega
      rw [if_pos hrc]
      refine spec_bind (spec_freeHeld (ho₁.perm hfront) fun h₂ ho₂ ↦ spec_throw ⟨rfl, ?_, ?_⟩)
      · obtain rfl | hrefused := hwhy
        · exact Or.inl (by simp [firstFailure, hrc])
        · exact Or.inr hrefused
      · refine ⟨_, ?_, ho₂⟩
        simp [List.map_map, Function.comp_def]

/-- A factory has all its objects, or none: what it does with them is up to `finish`. -/
theorem spec_openNative {objects : List (Wanted ω)} {finish : List ℕ → Native ω α}
    {Q : α → ω → List (ℕ × Block) → Prop} {E : DartString → ω → List (ℕ × Block) → Prop}
    (ho : Owns base ps h)
    (hfinish : ∀ made slots h', made.map Prod.fst = objects → firstFailure objects w = none →
      Owns base (slots ++ (heldBlocks made ++ ps)) h' → Spec (finish (made.map Prod.snd))
        (fun a w' h'' ↦ ∃ blocks, Q a w' blocks ∧ Owns base (slots ++ blocks) h'')
        (fun e w' h'' ↦ ∃ blocks, E e w' blocks ∧ Owns base (slots ++ blocks) h'') w h') :
    Spec (openNative objects finish)
      (fun a w' h' ↦ ∃ blocks, Q a w' blocks ∧ Owns base blocks h')
      (fun e w' h' ↦ (∃ blocks, E e w' blocks ∧ Owns base blocks h') ∨
        w' = w ∧ (firstFailure objects w = some e ∧ Owns base ps h' ∨ LeftBehind base ps h'))
      w h := by
  unfold openNative
  refine ((spec_mallocSlots ho).mono (fun _ _ _ hend ↦ hend)
    fun _ _ _ hout ↦ Or.inr ⟨hout.1, Or.inr hout.2⟩).bind fun outs w' h₁ hend ↦ ?_
  obtain ⟨rfl, hlen, ho₁⟩ := hend
  have hclean {slots blocks : List (ℕ × Block)} {w'' : ω} {h' : Heap Block}
      {Q : Unit → ω → Heap Block → Prop} {E : DartString → ω → Heap Block → Prop}
      (hslots : (slots.map Prod.fst).Perm outs) (ho : Owns base (slots ++ blocks) h')
      (hQ : ∀ h'', Owns base blocks h'' → Q () w'' h'') : Spec (freeAll outs) Q E w'' h' :=
    spec_freeAll ho hslots hQ
  have ho₁ : Owns base (outs.map (fun a ↦ (a, .handle none)) ++
      ([] ++ (heldBlocks ([] : List (Wanted ω × ℕ)) ++ ps))) h₁ := by simpa [heldBlocks] using ho₁
  refine spec_ensure (spec_bind ((spec_openObjects hlen ho₁).mono ?_ ?_))
  · intro made w'' h₂ hend
    obtain ⟨rfl, hnone, hmade, slots, hslots, ho₂⟩ := hend
    have hslots : (slots.map Prod.fst).Perm outs := by simpa using hslots
    refine (hfinish made slots h₂ (by simpa using hmade) hnone ho₂).mono ?_ ?_
    · intro a w' h₃ hend
      obtain ⟨blocks, ha, ho₃⟩ := hend
      exact hclean hslots ho₃ fun h₄ ho₄ ↦ ⟨blocks, ha, ho₄⟩
    · intro e w' h₃ hend
      obtain ⟨blocks, he, ho₃⟩ := hend
      exact hclean hslots ho₃ fun h₄ ho₄ ↦ Or.inl ⟨blocks, he, ho₄⟩
  · intro e w'' h₂ hend
    obtain ⟨rfl, hwhy, slots, hslots, ho₂⟩ := hend
    have hslots : (slots.map Prod.fst).Perm outs := by simpa using hslots
    refine hclean hslots ho₂ fun h₃ ho₃ ↦ Or.inr ⟨rfl, ?_⟩
    obtain hfirst | hrefused := hwhy
    · exact Or.inl ⟨hfirst, ho₃⟩
    · exact Or.inr ⟨hrefused, [], ho₃⟩

end Rules

end MachineNotebook.Vt.NativeObjects
