import MachineNotebook.Lib.Run
import MachineNotebook.Lib.Utf8Lines
import MachineNotebook.Vt.Export

namespace MachineNotebook.Vt.Encoder

open MachineNotebook.Lib MachineNotebook.Lib.Utf8 MachineNotebook.Lib.HeapLogic
open MachineNotebook.Lib.HeapLogic.Prog NativeBlocks ScratchBuffers
open Dart.Bindings (DartString)

def chars : DartString → List Char
  | [] => []
  | [u] => [if 0xD800 ≤ u ∧ u < 0xE000 then '\uFFFD' else Char.ofNat u.toNat]
  | u :: v :: rest =>
    if 0xD800 ≤ u ∧ u < 0xDC00 ∧ 0xDC00 ≤ v ∧ v < 0xE000 then
      Char.ofNat (0x10000 + (u.toNat - 0xD800) * 1024 + (v.toNat - 0xDC00)) :: chars rest
    else (if 0xD800 ≤ u ∧ u < 0xE000 then '\uFFFD' else Char.ofNat u.toNat) :: chars (v :: rest)

def utf8Convert (text : DartString) : Bytes := encode (chars text)

def kFocusGained : Int32 := 0
def kFocusLost : Int32 := 1

structure KeyInput where
  action : Int32
  key : Int32
  mods : UInt16
  text : Bytes

/-- The encoder of the emulator, with the modes that it has been told of in the world. -/
structure KeyEncoder (ω : Type) where
  setoptFromTerminal : ℕ → ω → ω
  encode : KeyInput → ℕ → ω → Written
  focusEncode : Int32 → ℕ → Written
  /-- It works in the memory of the text, which it leaves changed. -/
  pasteEncode : Bytes → Bool → ℕ → Written × Bytes

structure VtEncoder where
  encoder : Ptr
  keyEvent : Ptr
  closed : Bool := false

variable {ω : Type}

abbrev Method (ω : Type) := Prog Block (ω × VtEncoder) DartString

section Source

variable (lib : KeyEncoder ω)

/-- The text of an event, from where it lies. -/
def readText (e : KeyEvent) : Native ω Bytes :=
  match e.utf8 with
  | none => return []
  | some a => do
    let block ← load a
    expect (block.asBytes.bind fun text ↦
      if e.utf8Len ≤ text.length then some (text.take e.utf8Len) else none)

def keyEncoderEncode (encoder keyEvent : ℕ) (cap : ℕ) : Native ω Written := do
  useObject (Block.isObject .keyEncoder) encoder
  let block ← load keyEvent
  let e ← expect block.asKeyEvent
  let text ← readText e
  world fun w ↦ (lib.encode ⟨e.action, e.key, e.mods, text⟩ cap w, w)

def pasteEncode (data : ℕ) (bracketed : Bool) (cap : ℕ) : Native ω Written := do
  let block ← load data
  let text ← expect block.asBytes
  let (answer, left) := lib.pasteEncode text bracketed cap
  modify data fun _ ↦ .bytes left
  return answer

def setEvent (keyEvent : ℕ) (f : KeyEvent → KeyEvent) : Native ω Unit := do
  let block ← load keyEvent
  let e ← expect block.asKeyEvent
  modify keyEvent fun _ ↦ .keyEvent (f e)

def ensureOpen (f : ℕ → ℕ → Native ω Bytes) : Method ω Bytes := do
  let s ← readVar
  if s.closed then lift (throwText "VtEncoder is closed")
  else do
    let encoder ← lift (expect s.encoder)
    let keyEvent ← lift (expect s.keyEvent)
    lift (f encoder keyEvent)

/-- The text lies in memory of its own while the event points to it. -/
def encodeKey (terminal : Ptr) (ghosttyKey : Int32) (mods : UInt16) (action : Int32)
    (utf8 : Option DartString) : Method ω Bytes :=
  ensureOpen fun encoder keyEvent ↦
    match terminal with
    | none => throwText "terminal must not be null"
    | some terminal => do
      useObject Block.isTerminal terminal
      useObject (Block.isObject .keyEncoder) encoder
      world fun w ↦ ((), lib.setoptFromTerminal terminal w)
      setEvent keyEvent fun e ↦ { e with action := action }
      setEvent keyEvent fun e ↦ { e with key := ghosttyKey }
      setEvent keyEvent fun e ↦ { e with mods := mods }
      let units := utf8Convert (utf8.getD [])
      let utf8Ptr ← packText (utf8.getD []) units
      ensure (do
          setEvent keyEvent fun e ↦ { e with utf8 := utf8Ptr, utf8Len := textLen utf8Ptr units }
          encodeIntoBuffer (keyEncoderEncode lib encoder keyEvent))
        (freeText utf8Ptr)
where
  packText (text : DartString) (units : Bytes) : Native ω Ptr :=
    if text = [] then return none
    else do
      let a ← mallocBytes (.bytes units)
      return some a
  textLen (utf8Ptr : Ptr) (units : Bytes) : ℕ := if utf8Ptr = none then 0 else units.length
  freeText (utf8Ptr : Ptr) : Native ω Unit :=
    match utf8Ptr with
    | none => pure ()
    | some a => free a

def encodeFocus (gained : Bool) : Method ω Bytes :=
  ensureOpen fun _ _ ↦ encodeIntoBuffer fun cap ↦
    return lib.focusEncode (if gained then kFocusGained else kFocusLost) cap

/-- The check whether the text is safe changes nothing, and its answer is not looked at. -/
def encodePaste (text : DartString) (bracketed : Bool) : Method ω Bytes :=
  ensureOpen fun _ _ ↦
    if text = [] then return []
    else do
      let data ← mallocBytes (.bytes (utf8Convert text))
      ensure (encodeIntoBuffer (pasteEncode lib data bracketed)) (free data)

def freeHandle (is : Block → Bool) (p : Ptr) : Native ω Unit :=
  match p with
  | none => pure ()
  | some a => freeObject is a

def close : Method ω Bytes := do
  let s ← readVar
  if s.closed then return []
  else do
    lift (freeHandle Block.isKeyEvent s.keyEvent)
    lift (freeHandle (Block.isObject .keyEncoder) s.encoder)
    assign ⟨none, none, true⟩
    return []

inductive EncoderCall
  | encodeKey (terminal : Ptr) (ghosttyKey : Int32) (mods : UInt16) (action : Int32)
    (utf8 : Option DartString)
  | encodeFocus (gained : Bool)
  | encodePaste (text : DartString) (bracketed : Bool)
  | close

def EncoderCall.method : EncoderCall → Method ω Bytes
  | .encodeKey terminal ghosttyKey mods action utf8 =>
    Encoder.encodeKey lib terminal ghosttyKey mods action utf8
  | .encodeFocus gained => Encoder.encodeFocus lib gained
  | .encodePaste text bracketed => Encoder.encodePaste lib text bracketed
  | .close => Encoder.close

def step (call : EncoderCall) (s : (ω × VtEncoder) × Heap Block) :
    Except (Stop DartString) Bytes × (ω × VtEncoder) × Heap Block :=
  call.method lib s.1 s.2

end Source

structure Sequences (ω : Type) where
  key : KeyInput → ω → Bytes
  focus : Int32 → Bytes
  paste : Bytes → Bool → Bytes

/-- The emulator writes these sequences. A text that it has worked on gives the same again. -/
structure Encodes (lib : KeyEncoder ω) (seqs : Sequences ω) : Prop where
  key (k : KeyInput) (w : ω) (cap : ℕ) : AnswersNeed (seqs.key k w) cap (lib.encode k cap w)
  focus (event : Int32) (cap : ℕ) : AnswersNeed (seqs.focus event) cap (lib.focusEncode event cap)
  paste (text : Bytes) (bracketed : Bool) (cap : ℕ) :
    AnswersNeed (seqs.paste text bracketed) cap (lib.pasteEncode text bracketed cap).1
  again (text : Bytes) (bracketed : Bool) (cap : ℕ) :
    seqs.paste (lib.pasteEncode text bracketed cap).2 bracketed = seqs.paste text bracketed

def EncoderCall.plain (lib : KeyEncoder ω) (seqs : Sequences ω) (call : EncoderCall)
    (s : ω × Bool) : Except DartString Bytes × ω × Bool :=
  let closedText := Utf16.encode "VtEncoder is closed"
  match call with
  | .encodeKey terminal ghosttyKey mods action utf8 =>
    if s.2 then (.error closedText, s)
    else
      match terminal with
      | none => (.error (Utf16.encode "terminal must not be null"), s)
      | some terminal =>
        let w := lib.setoptFromTerminal terminal s.1
        (.ok (seqs.key ⟨action, ghosttyKey, mods, utf8Convert (utf8.getD [])⟩ w), w, s.2)
  | .encodeFocus gained =>
    if s.2 then (.error closedText, s)
    else (.ok (seqs.focus (if gained then kFocusGained else kFocusLost)), s)
  | .encodePaste text bracketed =>
    if s.2 then (.error closedText, s)
    else (.ok (if text = [] then [] else seqs.paste (utf8Convert text) bracketed), s)
  | .close => (.ok [], s.1, true)

/-- The terminal of a call is there. -/
def EncoderCall.Reaches (base : Heap Block) : EncoderCall → Prop
  | .encodeKey (some terminal) _ _ _ _ => ∃ effects, base.cells terminal = some (.terminal effects)
  | _ => True

/-- An open encoder has its two objects, whatever its event points to. A closed one has none. -/
def Alive (base : Heap Block) (s : VtEncoder) (h : Heap Block) : Prop :=
  (s = ⟨none, none, true⟩ ∧ Owns base [] h) ∨ ∃ encoder keyEvent e,
    s = ⟨some encoder, some keyEvent, false⟩ ∧
      Owns base [(keyEvent, .keyEvent e), (encoder, .object .keyEncoder)] h

section Rules

variable {base h : Heap Block} {ps : List (ℕ × Block)} {w : ω} {a : ℕ}
  {E : DartString → ω → Heap Block → Prop}

theorem spec_setEvent {e : KeyEvent} {f : KeyEvent → KeyEvent} {Q : Unit → ω → Heap Block → Prop}
    (ho : Owns base ((a, .keyEvent e) :: ps) h)
    (hQ : ∀ h', Owns base ((a, .keyEvent (f e)) :: ps) h' → Q () w h') :
    Spec (setEvent a f) Q E w h := by
  refine spec_bind (spec_load ho List.mem_cons_self (spec_bind (spec_expect (x := e) rfl ?_)))
  exact spec_modify ho hQ

theorem spec_encodeAll {content : Bytes} {K : List (ℕ × Block) → Prop}
    {produce : ℕ → Native ω Written} {Q : Bytes → ω → Heap Block → Prop}
    (hproduce : Produces (AnswersNeed content) K produce w) (hps : K ps) (ho : Owns base ps h)
    (hgrants : ∀ a, base.grants a = true)
    (hQ : ∀ ps' h', K ps' → Owns base ps' h' → Q content w h') :
    Spec (encodeIntoBuffer produce) Q E w h := by
  refine (spec_encodeIntoBuffer hproduce hps ho fun hgrowth ↦ ?_).mono ?_ ?_
  · have hrefused := hgrowth.2.2.2
    rw [ho.grants, hgrants] at hrefused
    cases hrefused
  · intro bytes w' h' hend
    obtain ⟨rfl, rfl, ps', hps', ho'⟩ := hend
    exact hQ ps' h' hps' ho'
  · intro e w' h' hend
    obtain ⟨-, -, ⟨a, hrefused⟩, -⟩ := hend
    rw [hgrants] at hrefused
    cases hrefused

theorem spec_mallocGranted {b : Block} {Q : ℕ → ω → Heap Block → Prop} (ho : Owns base ps h)
    (hgrants : ∀ a, base.grants a = true)
    (hQ : ∀ a h', Owns base ((a, b) :: ps) h' → Q a w h') : Spec (mallocBytes b) Q E w h := by
  refine spec_malloc ho hQ fun h' hrefused ↦ ?_
  obtain ⟨a, ha⟩ := hrefused.refused
  rw [hgrants] at ha
  cases ha

end Rules

section Calls

variable {lib : KeyEncoder ω} {seqs : Sequences ω} {base h : Heap Block} {w : ω}
  {encoder keyEvent : ℕ} {e : KeyEvent} {E : DartString → ω → Heap Block → Prop}

theorem produces_key (text : Bytes) {ps : List (ℕ × Block)} (hencodes : Encodes lib seqs)
    (hencoder : (encoder, .object .keyEncoder) ∈ ps) (hevent : (keyEvent, .keyEvent e) ∈ ps)
    (htext : (e.utf8 = none ∧ text = []) ∨ ∃ a, e.utf8 = some a ∧ e.utf8Len = text.length ∧
      (a, .bytes text) ∈ ps) :
    Produces (AnswersNeed (seqs.key ⟨e.action, e.key, e.mods, text⟩ w)) (fun qs ↦ qs = ps)
      (keyEncoderEncode lib encoder keyEvent) w := by
  intro base h cap front qs hqs ho
  subst hqs
  unfold keyEncoderEncode
  refine spec_bind (spec_useObject (ho.held _ (List.mem_append_right _ hencoder)) rfl ?_)
  refine spec_bind (spec_load ho (List.mem_append_right _ hevent) (spec_bind (spec_expect rfl ?_)))
  refine spec_bind ?_
  unfold readText
  obtain ⟨hnone, rfl⟩ | ⟨a, hsome, hlen, hmem⟩ := htext
  · simp only [hnone]
    exact spec_pure (spec_world ⟨hencodes.key .., rfl, rfl, _, rfl, ho⟩)
  · simp only [hsome]
    refine spec_bind (spec_load ho (List.mem_append_right _ hmem) (spec_expect (x := text) ?_ ?_))
    · simp [Block.asBytes, hlen]
    · exact spec_world ⟨hencodes.key .., rfl, rfl, _, rfl, ho⟩

theorem produces_focus (event : Int32) {ps : List (ℕ × Block)} (hencodes : Encodes lib seqs) :
    Produces (AnswersNeed (seqs.focus event)) (fun qs ↦ qs = ps)
      (fun cap ↦ (return lib.focusEncode event cap : Native ω Written)) w :=
  fun _ _ _ _ qs hqs ho ↦ spec_pure ⟨hencodes.focus .., rfl, rfl, qs, hqs, ho⟩

theorem produces_paste {data : ℕ} {bracketed : Bool} {content : Bytes} {ps : List (ℕ × Block)}
    (hencodes : Encodes lib seqs) :
    Produces (AnswersNeed content)
      (fun qs ↦ ∃ text, qs = (data, .bytes text) :: ps ∧ seqs.paste text bracketed = content)
      (pasteEncode lib data bracketed) w := by
  intro base h cap front qs hqs ho
  obtain ⟨text, rfl, rfl⟩ := hqs
  unfold pasteEncode
  refine spec_bind (spec_load ho (List.mem_append_right _ List.mem_cons_self) ?_)
  refine spec_bind (spec_expect rfl (spec_bind ?_))
  refine spec_modifyNext (ho.perm List.perm_middle) fun h' ho' hnext ↦ spec_pure ?_
  refine ⟨hencodes.paste .., rfl, hnext, _, ⟨_, rfl, hencodes.again text bracketed cap⟩, ?_⟩
  exact ho'.perm List.perm_middle.symm

/-- What a call comes to: the answer that it has with the memory left out, and its memory given
back. -/
def Comes (lib : KeyEncoder ω) (seqs : Sequences ω) (base : Heap Block) (call : EncoderCall)
    (s : ω × VtEncoder) (h : Heap Block) : Prop :=
  Spec (call.method lib)
    (fun bytes s' h' ↦ call.plain lib seqs (s.1, s.2.closed) = (.ok bytes, s'.1, s'.2.closed) ∧
      Alive base s'.2 h')
    (fun e s' h' ↦ call.plain lib seqs (s.1, s.2.closed) = (.error e, s'.1, s'.2.closed) ∧
      Alive base s'.2 h') s h

theorem closed_comes (call : EncoderCall) (ho : Owns base [] h) :
    Comes lib seqs base call (w, ⟨none, none, true⟩) h := by
  unfold Comes
  have halive : Alive base ⟨none, none, true⟩ h := Or.inl ⟨rfl, ho⟩
  cases call with
  | close => exact spec_bind (spec_readVar (spec_pure ⟨rfl, halive⟩))
  | encodeKey | encodeFocus | encodePaste =>
    exact spec_bind (spec_readVar (spec_lift (spec_throw ⟨rfl, halive⟩)))

/-- The event is left pointing to the text, which is freed: the next call sets another one before
the event is read. -/
theorem encodeKey_comes (hencodes : Encodes lib seqs) (hgrants : ∀ a, base.grants a = true)
    {terminal : Ptr} {ghosttyKey : Int32} {mods : UInt16} {action : Int32}
    {utf8 : Option DartString}
    (hreaches : (EncoderCall.encodeKey terminal ghosttyKey mods action utf8).Reaches base)
    (ho : Owns base [(keyEvent, .keyEvent e), (encoder, .object .keyEncoder)] h) :
    Comes lib seqs base (.encodeKey terminal ghosttyKey mods action utf8)
      (w, ⟨some encoder, some keyEvent, false⟩) h := by
  unfold Comes
  have halive {e : KeyEvent} {h' : Heap Block}
      (ho : Owns base [(keyEvent, .keyEvent e), (encoder, .object .keyEncoder)] h') :
      Alive base ⟨some encoder, some keyEvent, false⟩ h' := Or.inr ⟨_, _, _, rfl, ho⟩
  refine spec_bind (spec_readVar (spec_bind (spec_lift (spec_expect rfl ?_))))
  refine spec_bind (spec_lift (spec_expect rfl (spec_lift ?_)))
  cases terminal with
  | none => exact spec_throw ⟨rfl, halive ho⟩
  | some terminal =>
    obtain ⟨effects, hreaches⟩ := hreaches
    have hterminal : h.cells terminal = some (.terminal effects) := by
      refine (ho.rest terminal fun hmem ↦ ?_).trans hreaches
      obtain ⟨p, hp, rfl⟩ := List.mem_map.mp hmem
      have hnone := ho.new p hp
      rw [hreaches] at hnone
      cases hnone
    refine spec_bind (spec_useObject hterminal rfl ?_)
    refine spec_bind (spec_useObject (ho.held _ (List.mem_cons_of_mem _ List.mem_cons_self)) rfl ?_)
    refine spec_bind (spec_world ?_)
    refine spec_bind (spec_setEvent ho fun h₁ ho₁ ↦ spec_bind (spec_setEvent ho₁ fun h₂ ho₂ ↦ ?_))
    refine spec_bind (spec_setEvent ho₂ fun h₃ ho₃ ↦ spec_bind ?_)
    by_cases hempty : utf8.getD [] = []
    · simp only [encodeKey.packText, if_pos hempty]
      refine spec_pure (spec_ensure (spec_bind (spec_setEvent ho₃ fun h₄ ho₄ ↦ ?_)))
      refine spec_encodeAll (produces_key [] hencodes
        (List.mem_cons_of_mem _ List.mem_cons_self) List.mem_cons_self (Or.inl ⟨rfl, rfl⟩)) rfl ho₄
        hgrants fun ps' h₅ hps ho₅ ↦ ?_
      subst hps
      refine spec_pure ⟨?_, halive ho₅⟩
      simp [EncoderCall.plain, hempty, utf8Convert, chars, encode]
    · simp only [encodeKey.packText, if_neg hempty]
      refine spec_bind (spec_mallocGranted ho₃ hgrants fun a h₄ ho₄ ↦ ?_)
      refine spec_pure (spec_ensure (spec_bind ?_))
      refine spec_setEvent (ho₄.perm (List.Perm.swap ..)) fun h₅ ho₅ ↦ ?_
      refine spec_encodeAll (produces_key (utf8Convert (utf8.getD [])) hencodes
        (by simp) List.mem_cons_self (Or.inr ⟨a, rfl, ?_, by simp⟩)) rfl ho₅
        hgrants fun ps' h₆ hps ho₆ ↦ ?_
      · simp [encodeKey.textLen]
      · subst hps
        refine spec_free (ho₆.perm (List.Perm.swap ..)) fun h₇ ho₇ ↦ ⟨rfl, halive ho₇⟩

theorem call_comes (hencodes : Encodes lib seqs) (hgrants : ∀ a, base.grants a = true)
    {call : EncoderCall} (hreaches : call.Reaches base) {s : ω × VtEncoder}
    (halive : Alive base s.2 h) : Comes lib seqs base call s h := by
  obtain ⟨w, enc⟩ := s
  obtain ⟨rfl, ho⟩ | ⟨encoder, keyEvent, e, rfl, ho⟩ := halive
  · exact closed_comes call ho
  · have hopen {h' : Heap Block}
        (ho : Owns base [(keyEvent, .keyEvent e), (encoder, .object .keyEncoder)] h') :
        Alive base ⟨some encoder, some keyEvent, false⟩ h' := Or.inr ⟨_, _, _, rfl, ho⟩
    cases call with
    | encodeKey => exact encodeKey_comes hencodes hgrants hreaches ho
    | encodeFocus gained =>
      refine spec_bind (spec_readVar (spec_bind (spec_lift (spec_expect rfl ?_))))
      refine spec_bind (spec_lift (spec_expect rfl (spec_lift ?_)))
      refine spec_encodeAll (produces_focus _ hencodes) rfl ho hgrants fun ps' h' hps ho' ↦ ?_
      subst hps
      exact ⟨rfl, hopen ho'⟩
    | encodePaste text bracketed =>
      refine spec_bind (spec_readVar (spec_bind (spec_lift (spec_expect rfl ?_))))
      refine spec_bind (spec_lift (spec_expect rfl (spec_lift ?_)))
      by_cases hempty : text = []
      · simp only [hempty, if_true]
        refine spec_pure ⟨?_, hopen ho⟩
        simp [EncoderCall.plain]
      · simp only [if_neg hempty]
        refine spec_bind (spec_mallocGranted ho hgrants fun data h₁ ho₁ ↦ spec_ensure ?_)
        refine spec_encodeAll (produces_paste hencodes) ⟨_, rfl, rfl⟩ ho₁ hgrants
          fun ps' h₂ hps ho₂ ↦ ?_
        obtain ⟨left, rfl, -⟩ := hps
        refine spec_free ho₂ fun h₃ ho₃ ↦ ⟨?_, hopen ho₃⟩
        simp [EncoderCall.plain, hempty]
    | close =>
      refine spec_bind (spec_readVar (spec_bind (spec_lift ?_)))
      refine spec_freeObject ho rfl fun h₁ ho₁ ↦ spec_bind (spec_lift ?_)
      refine spec_freeObject ho₁ rfl fun h₂ ho₂ ↦ ?_
      exact spec_bind (spec_assign (spec_pure ⟨rfl, Or.inl ⟨rfl, ho₂⟩⟩))

/-- Over any calls in any order an encoder answers as if there were no memory: no event is read
while its text is gone, and what is left at the end are the two objects of an open encoder. -/
theorem encoder_run (hencodes : Encodes lib seqs) (hgrants : ∀ a, base.grants a = true)
    (calls : List EncoderCall) (hreaches : ∀ call ∈ calls, call.Reaches base)
    (s : ω × VtEncoder) (halive : Alive base s.2 h) :
    Run.trace (step lib) calls (s, h) =
        (Run.trace (fun call t ↦ call.plain lib seqs t) calls (s.1, s.2.closed)).map
          (fun io ↦ (io.1, io.2.mapError .thrown)) ∧
      Alive base (Run.final (step lib) calls (s, h)).1.2 (Run.final (step lib) calls (s, h)).2 := by
  induction calls generalizing s h with
  | nil => exact ⟨rfl, halive⟩
  | cons call calls ih =>
    have hcall := call_comes hencodes hgrants (hreaches call List.mem_cons_self) halive
    have hrest (c : EncoderCall) (hc : c ∈ calls) : c.Reaches base :=
      hreaches c (List.mem_cons_of_mem _ hc)
    simp only [Run.trace_cons, Run.final_cons, List.map_cons]
    obtain ⟨bytes, s', h', hout, hplain, halive'⟩ | ⟨e, s', h', hout, hplain, halive'⟩ :=
      Spec.cases hcall
    · have hstep : step lib call (s, h) = (.ok bytes, s', h') := hout
      obtain ⟨htrace, hfinal⟩ := ih hrest s' halive'
      simp only [hstep, hplain]
      exact ⟨congrArg _ htrace, hfinal⟩
    · have hstep : step lib call (s, h) = (.error (.thrown e), s', h') := hout
      obtain ⟨htrace, hfinal⟩ := ih hrest s' halive'
      simp only [hstep, hplain]
      exact ⟨congrArg _ htrace, hfinal⟩

end Calls

section Example

def shortSequences : Sequences Unit where
  key k _ := [27, k.key.toUInt32.toUInt8]
  focus _ := [27, 91, 73]
  paste text _ := text.take 3

def shortKeys : KeyEncoder Unit where
  setoptFromTerminal _ w := w
  encode k cap w := honest (shortSequences.key k w) cap
  focusEncode event cap := honest (shortSequences.focus event) cap
  pasteEncode text bracketed cap := (honest (shortSequences.paste text bracketed) cap, text.take 3)

theorem shortKeys_encodes : Encodes shortKeys shortSequences where
  key _ _ cap := honest_answersNeed (by simp [shortSequences]) cap
  focus _ cap := honest_answersNeed (by simp [shortSequences]) cap
  paste text _ cap := by
    refine honest_answersNeed (Nat.lt_of_le_of_lt (List.length_take_le 3 text) (by decide)) cap
  again text _ _ := by simp [shortKeys, shortSequences, List.take_take]

def withTerminal : Heap Block := (Heap.empty fun _ ↦ true).alloc (.terminal fun _ ↦ none)

theorem encoder_run_reopened :
    (Run.trace (step shortKeys)
      [.encodeKey (some 0) 20 0 1 (some [97]), .encodeFocus true, .close, .encodeFocus false]
      (((), ⟨some 1, some 2, false⟩), (withTerminal.alloc (.object .keyEncoder)).alloc
        (.keyEvent {}))).map Prod.snd =
      [.ok [27, 20], .ok [27, 91, 73], .ok [],
        .error (.thrown (Utf16.encode "VtEncoder is closed"))] := by
  have halive : Alive withTerminal ⟨some 1, some 2, false⟩
      ((withTerminal.alloc (.object .keyEncoder)).alloc (.keyEvent {})) :=
    Or.inr ⟨1, 2, {}, rfl, ((Owns.start _).alloc _).alloc _⟩
  rw [(encoder_run shortKeys_encodes (fun _ ↦ rfl) _ ?_ ((), _) halive).1]
  · rfl
  · intro call hcall
    simp only [List.mem_cons, List.not_mem_nil, or_false] at hcall
    obtain rfl | rfl | rfl | rfl := hcall
    · exact ⟨_, rfl⟩
    · trivial
    · trivial
    · trivial

end Example

end MachineNotebook.Vt.Encoder
