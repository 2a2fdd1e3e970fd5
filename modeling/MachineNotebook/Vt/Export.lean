import MachineNotebook.Dart.Text
import MachineNotebook.Vt.ScratchBuffers

namespace MachineNotebook.Vt.Export

open MachineNotebook.Lib MachineNotebook.Lib.Utf8 MachineNotebook.Lib.HeapLogic
open MachineNotebook.Lib.HeapLogic.Prog NativeBlocks ScratchBuffers
open Dart.Bindings (DartString)
open Dart.Text (ofChars utf8Decode)

inductive VtFormatKind
  | plain
  | vt
  | html

structure GhosttyVtNative (ω : Type) where
  formatterTerminalNew : FormatterOptions → ω → Int32
  formatterFormatBuf : FormatterOptions → ℕ → ω → Written
  snapshotEncodeBuf : ℕ → ω → Written
  selectionFormatBuf : SelectionFormatOptions → ℕ → ω → Written

variable {ω : Type}

section Source

variable (n : GhosttyVtNative ω)

def formatterTerminalNew (out : ℕ) (o : FormatterOptions) : Native ω Int32 :=
  newObject (.formatter o) (n.formatterTerminalNew o) out

def formatterFormatBuf (formatter : ℕ) (cap : ℕ) : Native ω Written := do
  let block ← load formatter
  let o ← expect block.asFormatter
  world fun w ↦ (n.formatterFormatBuf o cap w, w)

def snapshotEncodeBuf (cap : ℕ) : Native ω Written := world fun w ↦ (n.snapshotEncodeBuf cap w, w)

def selectionFormatBuf (opts : ℕ) (cap : ℕ) : Native ω Written := do
  let block ← load opts
  let o ← expect block.asSelectionOptions
  world fun w ↦ (n.selectionFormatBuf o cap w, w)

def emitOf : VtFormatKind → Int32
  | .plain => 0
  | .vt => 1
  | .html => 2

def formatAll (formatter outLen : ℕ) : Native ω DartString :=
  ensure (do
      let bytes ← growLoop (formatterFormatBuf n formatter)
        "ghostty_formatter_format_buf failed: "
        "ghostty_formatter_format_buf: growth exhausted" outLen 10 4096
      return ofChars (utf8Decode bytes))
    (free formatter)

def formatTerminal (format : VtFormatKind) (unwrap trim : Bool) : Native ω DartString := do
  let fmtOut ← mallocBytes (.handle none)
  let opts ← mallocBytes .record
  let outLen ← mallocBytes (.size none)
  ensure (do
      modify opts fun _ ↦ .formatterOptions ⟨emitOf format, unwrap, trim⟩
      let rc ← formatterTerminalNew n fmtOut ⟨emitOf format, unwrap, trim⟩
      if rc ≠ kGhosttySuccess then throwRc "ghostty_formatter_terminal_new failed: " rc
      else do
        let handle ← readHandle fmtOut
        match handle with
        | none => throwRc "ghostty_formatter_terminal_new failed: " rc
        | some formatter => formatAll n formatter outLen)
    (do
      free fmtOut
      free opts
      free outLen)

def snapshotEncode : Native ω Bytes := do
  let outLen ← mallocBytes (.size none)
  ensure (do
      writeSize outLen 0
      let rc ← writeInto (snapshotEncodeBuf n) none 0 outLen
      let need ← readSize outLen
      if rc = kGhosttySuccess ∧ need = 0 then return []
      else if rc ≠ kGhosttyOutOfSpace ∧ rc ≠ kGhosttySuccess then
        throwRc "ghostty_snapshot_encode_buf size query failed: " rc
      else
        growLoop (snapshotEncodeBuf n) "ghostty_snapshot_encode_buf failed: "
          "ghostty_snapshot_encode_buf: buffer growth exhausted" outLen 8
          (if need ≤ 0 then 4096 else need))
    (free outLen)

def copySelectionText (selection : Ptr) (format : Int32) (unwrap trim : Bool) :
    Native ω (Option DartString) := do
  let opts ← mallocBytes .record
  let outLen ← mallocBytes (.size none)
  ensure (do
      modify opts fun _ ↦ .selectionOptions ⟨format, unwrap, trim, selection⟩
      let rc ← writeInto (selectionFormatBuf n opts) none 0 outLen
      if rc = kGhosttyNoValue then return none
      else if rc ≠ kGhosttyOutOfSpace ∧ rc ≠ kGhosttySuccess then
        throwRc "selection_format_buf size query failed: " rc
      else do
        let need ← readSize outLen
        if need ≤ 0 then return some []
        else do
          let buf ← mallocScratch need
          ensure (do
              let rc ← writeInto (selectionFormatBuf n opts) (some buf) need outLen
              if rc = kGhosttyNoValue then return none
              else if rc ≠ kGhosttySuccess then throwRc "selection_format_buf failed: " rc
              else do
                let written ← readSize outLen
                if written ≤ 0 then return some []
                else do
                  let bytes ← readFront buf written
                  return some (ofChars (utf8Decode bytes)))
            (free buf))
    (do
      free opts
      free outLen)

end Source

section Rules

variable {content : Bytes} {A : ℕ → Written → Prop} {K : List (ℕ × Block) → Prop}
  {produce : ℕ → Native ω Written} {base h : Heap Block} {ps : List (ℕ × Block)} {w : ω}
  {outLen : ℕ} {slot : Option Int64} {E : DartString → ω → Heap Block → Prop}

theorem produces_world {f : ℕ → ω → Written} (hf : ∀ cap, A cap (f cap w)) :
    Produces A (fun qs ↦ qs = ps) (fun cap ↦ (world fun w ↦ (f cap w, w) : Native ω Written)) w :=
  fun _ _ cap _ qs hqs ho ↦ spec_world ⟨hf cap, rfl, rfl, qs, hqs, ho⟩

theorem produces_load {α : Type} {a : ℕ} {b : Block} {read : Block → Option α} {o : α}
    {f : α → ℕ → ω → Written} (hmem : (a, b) ∈ ps) (hread : read b = some o)
    (hf : ∀ cap, A cap (f o cap w)) :
    Produces A (fun qs ↦ qs = ps) (fun cap ↦ (do
      let block ← load a
      let o ← expect (read block)
      world fun w ↦ (f o cap w, w) : Native ω Written)) w := by
  intro base h cap front qs hqs ho
  subst hqs
  refine spec_bind (spec_load ho (List.mem_append_right _ hmem) ?_)
  refine spec_bind (spec_expect hread (spec_world ⟨hf cap, rfl, rfl, _, rfl, ho⟩))

theorem spec_query (hproduce : Produces A K produce w)
    (hA : ∀ answer, A 0 answer → answer.data = []) (hps : K ps)
    (ho : Owns base ((outLen, .size slot) :: ps) h) :
    Spec (writeInto produce none 0 outLen)
      (fun rc w' h' ↦ ∃ answer ps', rc = answer.rc ∧ A 0 answer ∧ w' = w ∧ K ps' ∧
        Owns base ((outLen, .size (some answer.outLen)) :: ps') h') E w h := by
  unfold writeInto
  refine ((hproduce base h _ [_] ps hps ho).mono (fun _ _ _ hend ↦ hend)
    fun _ _ _ hend ↦ hend.elim).bind fun answer w' h₁ hend ↦ ?_
  obtain ⟨ha, rfl, -, ps', hps', ho₁⟩ := hend
  refine spec_bind (spec_expect (x := ()) (if_pos (hA answer ha)) ?_)
  refine spec_bind (spec_modify ho₁ fun h₂ ho₂ ↦ ?_)
  exact spec_pure ⟨answer, ps', rfl, ha, rfl, hps', ho₂⟩

end Rules

section Results

variable (n : GhosttyVtNative ω) {content : Bytes} {w : ω}

/-- The buffers of a growing loop reach the content: it fits into the last of them, or its size is
asked for. -/
def Reaches (content : Bytes) (start : ℕ) (doublings : ℕ) (answer : ℕ → Written) : Prop :=
  content.length ≤ start * 2 ^ doublings ∨ ∀ cap, AnswersNeed content cap (answer cap)

theorem le_start {doublings : ℕ} (hle : content.length ≤ 4096 * 2 ^ doublings) :
    (content.length : ℤ) ≤ (4096 : Int64).toInt * 2 ^ doublings := by
  have hstart : (4096 : Int64).toInt = 4096 := rfl
  rw [hstart]
  exact_mod_cast hle

theorem spec_formatAll {o : FormatterOptions} {base h : Heap Block} {ps : List (ℕ × Block)}
    {formatter outLen : ℕ} {slot : Option Int64}
    (hanswers : ∀ cap, Hinted content cap (n.formatterFormatBuf o cap w))
    (hreaches : Reaches content 4096 9 fun cap ↦ n.formatterFormatBuf o cap w)
    (ho : Owns base ((outLen, .size slot) :: (formatter, .formatter o) :: ps) h) :
    Spec (formatAll n formatter outLen)
      (fun text w' h' ↦ text = ofChars (utf8Decode content) ∧ w' = w ∧
        ∃ slot, Owns base ((outLen, .size slot) :: ps) h')
      (fun _ w' h' ↦ w' = w ∧ (∃ a, base.grants a = false) ∧
        ∃ slot, Owns base ((outLen, .size slot) :: ps) h') w h := by
  let qs := (formatter, Block.formatter o) :: ps
  have hheld : Held (fun rs ↦ rs = qs) base outLen h := ⟨slot, qs, rfl, ho⟩
  have hgrow : Spec (growLoop (formatterFormatBuf n formatter)
      "ghostty_formatter_format_buf failed: " "ghostty_formatter_format_buf: growth exhausted"
      outLen 10 4096)
      (fun bytes w' h' ↦ bytes = content ∧ w' = w ∧ Held (fun rs ↦ rs = qs) base outLen h')
      (NoRoom (fun rs ↦ rs = qs) base outLen w) w h := by
    have hmem : (formatter, Block.formatter o) ∈ qs := List.mem_cons_self
    obtain hle | hneed := hreaches
    · exact spec_growLoop (produces_load hmem rfl hanswers) (by decide)
        (le_start hle) (hle.trans (by decide)) hheld
    · exact spec_growLoop_need (produces_load hmem rfl hneed) (by decide) hheld
  have hfree {h' : Heap Block} {Q : Unit → ω → Heap Block → Prop}
      {E : DartString → ω → Heap Block → Prop} (hheld : Held (fun rs ↦ rs = qs) base outLen h')
      (hQ : ∀ slot h'', Owns base ((outLen, .size slot) :: ps) h'' → Q () w h'') :
      Spec (free formatter) Q E w h' := by
    obtain ⟨slot, rs, rfl, ho'⟩ := hheld
    exact spec_free (ho'.perm (List.Perm.swap ..)) (hQ slot)
  unfold formatAll
  refine spec_ensure ((spec_bind (hgrow.mono ?_ fun _ _ _ hend ↦ hend)).mono
    (fun _ _ _ hend ↦ hend) ?_)
  · intro bytes w' h' hend
    obtain ⟨rfl, rfl, hheld'⟩ := hend
    exact spec_pure (hfree hheld' fun slot h'' ho'' ↦ ⟨rfl, rfl, slot, ho''⟩)
  · intro e w' h' hend
    obtain ⟨rfl, rfl, hheld', hrefused⟩ := hend
    exact hfree hheld' fun slot h'' ho'' ↦ ⟨rfl, hrefused, slot, ho''⟩

/-- Whatever sizes the emulator asks for, as long as none is too small, the text comes whole. The
formatter and all buffers are given back, and the slots too unless a later one is refused. -/
theorem formatTerminal_returns (format : VtFormatKind) (unwrap trim : Bool) (h : Heap Block)
    (hanswers : ∀ cap, Hinted content cap
      (n.formatterFormatBuf ⟨emitOf format, unwrap, trim⟩ cap w))
    (hreaches : Reaches content 4096 9 fun cap ↦
      n.formatterFormatBuf ⟨emitOf format, unwrap, trim⟩ cap w) :
    let refusal := n.formatterTerminalNew ⟨emitOf format, unwrap, trim⟩ w
    Spec (formatTerminal n format unwrap trim)
      (fun text w' h' ↦ text = ofChars (utf8Decode content) ∧ w' = w ∧ Owns h [] h')
      (fun e w' h' ↦ (w' = w ∧ Owns h [] h' ∧ refusal ≠ kGhosttySuccess ∧
        e = Utf16.encode ("ghostty_formatter_terminal_new failed: " ++ toString refusal)) ∨
        RanOut [.handle none, .record, .size none] h w w' h') w h := by
  intro refusal
  unfold formatTerminal
  refine spec_bind ((spec_mallocSlot [] [.record, .size none] (Owns.start h) rfl rfl
    fun fmtOut h₁ ho₁ hnext₁ ↦ ?_).mono (fun _ _ _ hend ↦ hend) fun _ _ _ hout ↦ Or.inr hout.2)
  refine spec_bind ((spec_mallocSlot [.handle none] [.size none] ho₁ rfl hnext₁
    fun opts h₂ ho₂ hnext₂ ↦ ?_).mono (fun _ _ _ hend ↦ hend) fun _ _ _ hout ↦ Or.inr hout.2)
  refine spec_bind ((spec_mallocSlot [.handle none, .record] [] ho₂ rfl hnext₂
    fun outLen h₃ ho₃ _ ↦ ?_).mono (fun _ _ _ hend ↦ hend) fun _ _ _ hout ↦ Or.inr hout.2)
  have hclean {b b' b'' : Block} {h' : Heap Block} {Q : Unit → ω → Heap Block → Prop}
      {E : DartString → ω → Heap Block → Prop}
      (ho : Owns h [(outLen, b), (fmtOut, b'), (opts, b'')] h')
      (hQ : ∀ h'', Owns h [] h'' → Q () w h'') :
      Spec (do
        free fmtOut
        free opts
        free outLen) Q E w h' := by
    refine spec_bind (spec_free (ho.perm (List.Perm.swap ..)) fun h₅ ho₅ ↦ ?_)
    exact spec_bind (spec_free (ho₅.perm (List.Perm.swap ..)) fun h₆ ho₆ ↦ spec_free ho₆ hQ)
  refine spec_ensure (spec_bind (spec_modify (ho₃.perm (List.Perm.swap ..)) fun h₄ ho₄ ↦ ?_))
  refine spec_bind ((spec_newObject (ho₄.perm (List.reverse_perm _).symm)).mono ?_
    fun _ _ _ hend ↦ hend)
  intro rc w' h₅ hend
  obtain ⟨rfl, ⟨rfl, -, formatter, ho₅⟩ | ⟨hrc, ho₅, hwhy⟩⟩ := hend
  · rw [if_neg (not_not.mpr rfl)]
    refine spec_bind (spec_bind (spec_load ho₅ List.mem_cons_self (spec_expect rfl ?_)))
    have hfront : ([(fmtOut, .handle (some (some formatter))), (formatter, .formatter
        ⟨emitOf format, unwrap, trim⟩), (outLen, .size none), (opts, .formatterOptions
        ⟨emitOf format, unwrap, trim⟩)] : List (ℕ × Block)).Perm
        [(outLen, .size none), (formatter, .formatter ⟨emitOf format, unwrap, trim⟩),
          (fmtOut, .handle (some (some formatter))), (opts, .formatterOptions
        ⟨emitOf format, unwrap, trim⟩)] := by
      classical
      refine List.perm_iff_count.mpr fun x ↦ ?_
      simp only [List.count_cons, List.count_nil]
      omega
    refine (spec_formatAll n hanswers hreaches (ho₅.perm hfront)).mono ?_ ?_
    · intro text w'' h' hend
      obtain ⟨htext, rfl, slot, ho⟩ := hend
      exact hclean ho fun h'' ho' ↦ ⟨htext, rfl, ho'⟩
    · intro e w'' h' hend
      obtain ⟨rfl, hrefused, slot, ho⟩ := hend
      exact hclean ho fun h'' ho' ↦ Or.inr ⟨rfl, Or.inr ⟨hrefused, ho'⟩⟩
  · rw [if_pos hrc]
    refine spec_throw (hclean (ho₅.perm (List.Perm.swap ..)) fun h'' ho'' ↦ ?_)
    obtain rfl | hrefused := hwhy
    · exact Or.inl ⟨rfl, ho'', hrc, rfl⟩
    · exact Or.inr ⟨rfl, Or.inr ⟨hrefused, ho''⟩⟩

def saysHi : GhosttyVtNative Unit where
  formatterTerminalNew _ _ := kGhosttySuccess
  formatterFormatBuf _ cap _ := honest [104, 105] cap
  snapshotEncodeBuf cap _ := honest [104, 105] cap
  selectionFormatBuf _ cap _ := honest [104, 105] cap

theorem honest_hi (cap : ℕ) : AnswersNeed [104, 105] cap (honest [104, 105] cap) :=
  honest_answersNeed (by decide) cap

theorem formatTerminal_returns_hi :
    ¬Faults (formatTerminal saysHi .plain false true) () (Heap.empty fun a ↦ a ≠ 4) :=
  (formatTerminal_returns saysHi .plain false true _ (fun cap ↦ (honest_hi cap).hinted)
    (Or.inr honest_hi)).not_faults

/-- The loop that starts from the size that the query gave, or from a guess. -/
theorem spec_growLoop_query {failed exhausted : String} {outLen : ℕ} {base h : Heap Block}
    (hanswers : ∀ cap, Hinted content cap (n.snapshotEncodeBuf cap w))
    (hreaches : Reaches content 4096 7 fun cap ↦ n.snapshotEncodeBuf cap w)
    (hshort : 0 < content.length) (hheld : Held (fun qs ↦ qs = []) base outLen h) :
    Spec (growLoop (snapshotEncodeBuf n) failed exhausted outLen 8
      (if (n.snapshotEncodeBuf 0 w).outLen ≤ 0 then 4096 else (n.snapshotEncodeBuf 0 w).outLen))
      (fun bytes w' h' ↦ bytes = content ∧ w' = w ∧ Held (fun qs ↦ qs = []) base outLen h')
      (NoRoom (fun qs ↦ qs = []) base outLen w) w h := by
  have hzero : (0 : Int64).toInt = 0 := rfl
  obtain hle | hneed := hreaches
  · have hgrow {need : Int64} (hneed : 0 ≤ need.toInt)
        (hroom : (content.length : ℤ) ≤ need.toInt * 2 ^ 7) :
        Spec (growLoop (snapshotEncodeBuf n) failed exhausted outLen 8 need)
          (fun bytes w' h' ↦ bytes = content ∧ w' = w ∧ Held (fun qs ↦ qs = []) base outLen h')
          (NoRoom (fun qs ↦ qs = []) base outLen w) w h :=
      spec_growLoop (produces_world hanswers) hneed hroom (hle.trans (by decide)) hheld
    split
    · exact hgrow (by decide) (le_start hle)
    · rename_i hsome
      rw [Int64.le_iff_toInt_le, hzero] at hsome
      obtain hle | hge := (hanswers 0).2 hshort
      · exact absurd hle hsome
      · exact hgrow (by omega) (by omega)
  · have hlen : (n.snapshotEncodeBuf 0 w).outLen.toInt = content.length := (hneed 0).need hshort
    have hsome : ¬(n.snapshotEncodeBuf 0 w).outLen ≤ 0 := by
      rw [Int64.le_iff_toInt_le, hzero, hlen]
      omega
    rw [if_neg hsome]
    exact spec_growLoop_need (produces_world hneed) (by omega) hheld

/-- Memory ran out, with nothing done to the emulator and nothing left. -/
def NoMemory (base : Heap Block) (w : ω) (e : DartString) (w' : ω) (h : Heap Block) : Prop :=
  e = mallocFailed ∧ w' = w ∧ (∃ a, base.grants a = false) ∧ Owns base [] h

/-- The snapshot comes whole, and its buffers are given back. -/
theorem snapshotEncode_returns (h : Heap Block)
    (hanswers : ∀ cap, Hinted content cap (n.snapshotEncodeBuf cap w))
    (hreaches : Reaches content 4096 7 fun cap ↦ n.snapshotEncodeBuf cap w) :
    Spec (snapshotEncode n)
      (fun bytes w' h' ↦ bytes = content ∧ w' = w ∧ Owns h [] h')
      (NoMemory h w) w h := by
  let A : ℕ → Written → Prop := fun cap answer ↦ answer = n.snapshotEncodeBuf cap w
  have hproduce : Produces A (fun qs ↦ qs = []) (snapshotEncodeBuf n) w :=
    produces_world fun _ ↦ rfl
  unfold snapshotEncode
  refine spec_bind (spec_malloc (Owns.start h) (fun outLen h₁ ho₁ ↦ ?_) fun h₁ hrefused ↦
    ⟨rfl, rfl, hrefused.refused, hrefused.owns⟩)
  refine spec_ensure (spec_bind (spec_modify ho₁ fun h₂ ho₂ ↦ ?_))
  refine spec_bind ((spec_query hproduce (fun answer ha ↦ ?_) rfl ho₂).mono ?_
    fun _ _ _ hend ↦ hend)
  · exact List.length_eq_zero_iff.mp (Nat.le_zero.mp (ha ▸ (hanswers 0).1.length_le))
  intro rc w' h₃ hend
  obtain ⟨answer, ps, rfl, rfl, rfl, rfl, ho₃⟩ := hend
  have hheld : Held (fun qs ↦ qs = []) h outLen h₃ := ⟨_, [], rfl, ho₃⟩
  have hdone {bytes : Bytes} {w'' : ω} {h' : Heap Block}
      (hend : bytes = content ∧ w'' = w' ∧ Held (fun qs ↦ qs = []) h outLen h') :
      Spec (free outLen) (fun _ w'' h' ↦ bytes = content ∧ w'' = w' ∧ Owns h [] h')
        (NoMemory h w') w'' h' := by
    obtain ⟨rfl, rfl, slot, qs, rfl, ho⟩ := hend
    exact spec_free ho fun h'' ho' ↦ ⟨rfl, rfl, ho'⟩
  have hrefused {e : DartString} {w'' : ω} {h' : Heap Block}
      (hend : NoRoom (fun qs ↦ qs = []) h outLen w' e w'' h') :
      Spec (free outLen) (fun _ ↦ NoMemory h w' e) (NoMemory h w') w'' h' := by
    obtain ⟨rfl, rfl, ⟨slot, qs, rfl, ho⟩, hrefused⟩ := hend
    exact spec_free ho fun h'' ho' ↦ ⟨rfl, rfl, hrefused, ho'⟩
  refine spec_bind (spec_readSize ho₃ List.mem_cons_self ?_)
  by_cases hempty : content.length ≤ 0
  · obtain ⟨hrc, hlen, -⟩ := (hanswers 0).1.fits hempty
    obtain rfl : content = [] := List.length_eq_zero_iff.mp (Nat.le_zero.mp hempty)
    have hzero : (n.snapshotEncodeBuf 0 w').outLen = 0 := Int64.toInt_inj.mp hlen
    rw [if_pos ⟨hrc, hzero⟩]
    exact spec_pure (hdone ⟨rfl, rfl, hheld⟩)
  · have hshort : 0 < content.length := Nat.lt_of_not_le hempty
    have hrc := ((hanswers 0).1.short hshort).1
    have hne : ¬kGhosttyOutOfSpace = kGhosttySuccess := by decide
    rw [hrc, if_neg fun hboth ↦ hne hboth.1, if_neg fun hboth ↦ hboth.1 rfl]
    exact (spec_growLoop_query n hanswers hreaches hshort hheld).mono
      (fun _ _ _ hend ↦ hdone hend) fun _ _ _ hend ↦ hrefused hend

theorem snapshotEncode_returns_hi :
    ¬Faults (snapshotEncode saysHi) () (Heap.empty fun a ↦ a ≠ 1) :=
  (snapshotEncode_returns saysHi _ (fun cap ↦ (honest_hi cap).hinted)
    (Or.inr honest_hi)).not_faults

/-- What the emulator answers about a selection, or where nothing is selected. -/
def Selected : Option Bytes → ℕ → Written → Prop
  | none, _, answer => answer.rc = kGhosttyNoValue ∧ answer.data = []
  | some bytes, cap, answer => AnswersNeed bytes cap answer

theorem Selected.length_le {selected : Option Bytes} {cap : ℕ} {answer : Written}
    (ha : Selected selected cap answer) : answer.data.length ≤ cap := by
  cases selected with
  | none => simp [ha.2]
  | some bytes => exact ha.toAnswers.length_le

/-- The selected text, read into a buffer of its size. Only a refused length slot leaves the
options behind. -/
theorem copySelectionText_returns (selected : Option Bytes) (selection : Ptr) (format : Int32)
    (unwrap trim : Bool) (h : Heap Block)
    (hanswers : ∀ cap, Selected selected cap
      (n.selectionFormatBuf ⟨format, unwrap, trim, selection⟩ cap w)) :
    Spec (copySelectionText n selection format unwrap trim)
      (fun text w' h' ↦ text = selected.map (fun bytes ↦ ofChars (utf8Decode bytes)) ∧ w' = w ∧
        Owns h [] h')
      (fun e w' h' ↦ e = mallocFailed ∧ RanOut [.record, .size none] h w w' h') w h := by
  unfold copySelectionText
  refine spec_bind (spec_mallocSlot [] [.size none] (Owns.start h) rfl rfl
    fun opts h₁ ho₁ hnext₁ ↦ ?_)
  refine spec_bind (spec_mallocSlot [.record] [] ho₁ rfl hnext₁ fun outLen h₂ ho₂ _ ↦ ?_)
  set o : SelectionFormatOptions := ⟨format, unwrap, trim, selection⟩
  have hproduce : Produces (Selected selected) (fun qs ↦ qs = [(opts, .selectionOptions o)])
      (selectionFormatBuf n opts) w :=
    produces_load List.mem_cons_self rfl hanswers
  have hclean {slot : Option Int64} {h' : Heap Block} {Q : Unit → ω → Heap Block → Prop}
      {E : DartString → ω → Heap Block → Prop}
      (ho : Owns h [(outLen, .size slot), (opts, .selectionOptions o)] h')
      (hQ : ∀ h'', Owns h [] h'' → Q () w h'') :
      Spec (do
        free opts
        free outLen) Q E w h' :=
    spec_bind (spec_free (ho.perm (List.Perm.swap ..)) fun h'' ho'' ↦ spec_free ho'' hQ)
  refine spec_ensure (spec_bind (spec_modify (ho₂.perm (List.Perm.swap ..)) fun h₃ ho₃ ↦ ?_))
  refine spec_bind ((spec_query hproduce (fun answer ha ↦ ?_) rfl
    (ho₃.perm (List.Perm.swap ..))).mono ?_ fun _ _ _ hend ↦ hend)
  · exact List.length_eq_zero_iff.mp (Nat.le_zero.mp ha.length_le)
  intro rc w' h₄ hend
  obtain ⟨answer, ps, rfl, ha, rfl, rfl, ho₄⟩ := hend
  cases selected with
  | none =>
    rw [if_pos ha.1]
    exact spec_pure (hclean ho₄ fun h'' ho'' ↦ ⟨rfl, rfl, ho''⟩)
  | some content =>
    by_cases hempty : content.length ≤ 0
    · obtain ⟨hrc, hlen, -⟩ := ha.fits hempty
      obtain rfl : content = [] := List.length_eq_zero_iff.mp (Nat.le_zero.mp hempty)
      rw [hrc, if_neg (by decide), if_neg (by decide)]
      refine spec_bind (spec_readSize ho₄ List.mem_cons_self ?_)
      rw [if_pos ((le_zero_iff hlen).mpr rfl)]
      exact spec_pure (hclean ho₄ fun h'' ho'' ↦ ⟨rfl, rfl, ho''⟩)
    · have hshort : 0 < content.length := Nat.lt_of_not_le hempty
      have hlen := ha.need hshort
      have hsome : ¬answer.outLen ≤ 0 := by
        rw [le_zero_iff hlen]
        exact Nat.ne_of_gt hshort
      rw [(ha.short hshort).1, if_neg (by decide), if_neg (by decide)]
      refine spec_bind (spec_readSize ho₄ List.mem_cons_self ?_)
      rw [if_neg hsome]
      refine spec_bind (spec_malloc ho₄ (fun buf h₅ ho₅ ↦ ?_) fun h₅ hrefused ↦
        hclean hrefused.owns fun h'' ho'' ↦ ⟨rfl, rfl, Or.inr ⟨hrefused.refused, ho''⟩⟩)
      refine spec_ensure ((spec_bind ((spec_writeInto hproduce (fun cap answer ha ↦ ha.toAnswers)
        rfl ho₅).mono ?_ fun _ _ _ hend ↦ hend)))
      intro rc w'' h₆ hend
      obtain ⟨filled, ps, rfl, hfilled, rfl, -, rfl, ho₆⟩ := hend
      obtain ⟨hrc, hwritten, hdata⟩ := hfilled.fits (toNat_of_toInt hlen).ge
      have hmany : ¬filled.outLen ≤ 0 := by
        rw [le_zero_iff hwritten]
        exact Nat.ne_of_gt hshort
      rw [hrc, if_neg (by decide), if_neg (by decide)]
      refine spec_bind (spec_readSize (n := filled.outLen) ho₆ (by simp) ?_)
      rw [if_neg hmany]
      refine spec_bind (spec_readFront ho₆ List.mem_cons_self ?_ (spec_pure ?_))
      · rw [toNat_of_toInt hwritten, hdata]
      · refine spec_free ho₆ fun h₇ ho₇ ↦ hclean ho₇ fun h'' ho'' ↦ ⟨?_, rfl, ho''⟩
        rw [hdata]
        rfl

theorem copySelectionText_returns_hi :
    ¬Faults (copySelectionText saysHi none 0 true true) () (Heap.empty fun a ↦ a ≠ 2) :=
  (copySelectionText_returns saysHi (some [104, 105]) none 0 true true _ honest_hi).not_faults

end Results

end MachineNotebook.Vt.Export
