import MachineNotebook.Vt.NativeBlocks
import Mathlib.Algebra.Order.Ring.Int
import Mathlib.Tactic.Linarith

namespace MachineNotebook.Vt.ScratchBuffers

open MachineNotebook.Lib MachineNotebook.Lib.Utf8 MachineNotebook.Lib.HeapLogic
open MachineNotebook.Lib.HeapLogic.Prog NativeBlocks
open Dart.Bindings (DartString)

variable {ω : Type}

/-- What the emulator answers where it is given a buffer: a status, what it puts into `out_len`,
and the bytes that it writes. -/
structure Written where
  rc : Int32
  outLen : Int64
  data : Bytes

/-- A call of the emulator that fills a buffer. `produce` is what it does besides. -/
def writeInto (produce : ℕ → Native ω Written) (buf : Ptr) (cap : Int64) (outLen : ℕ) :
    Native ω Int32 := do
  let answer ← produce cap.toUInt64.toNat
  match buf with
  | some a => store a answer.data
  | none => expect (if answer.data = [] then some () else none)
  writeSize outLen answer.outLen
  return answer.rc

section Encoder

/-- The attempts of `_encodeIntoBuffer`, whose variable is `buf`. -/
def encodeAttempts (encode : ℕ → Native ω Written) (outLen : ℕ) :
    ℕ → Int64 → Prog Block (ω × ℕ) DartString Bytes
  | 0, _ => lift (throwText "libghostty encode: buffer growth exhausted")
  | attempts + 1, cap => do
    lift (writeSize outLen 0)
    let buf ← readVar
    let rc ← lift (writeInto encode (some buf) cap outLen)
    if rc = kGhosttySuccess then do
      let n ← lift (readSize outLen)
      if n ≤ 0 then return [] else lift (readFront buf n)
    else if rc = kGhosttyOutOfSpace then do
      let need ← lift (readSize outLen)
      if need ≤ 0 then return []
      else do
        lift (free buf)
        let grown ← lift (mallocScratch need)
        assign grown
        encodeAttempts encode outLen attempts need
    else lift (throwRc "libghostty encode failed: " rc)

/-- `finally` frees the buffer that the variable holds then. -/
def encodeIntoBuffer (encode : ℕ → Native ω Written) : Native ω Bytes := do
  let outLen ← mallocBytes (.size none)
  let buf ← mallocScratch 128
  withVar buf (ensure (encodeAttempts encode outLen 3 128) do
    let buf ← readVar
    lift (free buf)
    lift (free outLen))

end Encoder

section Growth

def growAttempt (produce : ℕ → Native ω Written) (failed : String) (outLen : ℕ) (need : Int64) :
    Native ω (Bytes ⊕ Int64) := do
  let buf ← mallocScratch need
  ensure (do
      writeSize outLen 0
      let rc ← writeInto produce (some buf) need outLen
      if rc = kGhosttySuccess then do
        let n ← readSize outLen
        if n ≤ 0 then return .inl []
        else do
          let bytes ← readFront buf n
          return .inl bytes
      else if rc = kGhosttyOutOfSpace then do
        let n ← readSize outLen
        return .inr (if need < n then n else need * 2)
      else throwRc failed rc)
    (free buf)

def growLoop (produce : ℕ → Native ω Written) (failed exhausted : String) (outLen : ℕ) :
    ℕ → Int64 → Native ω Bytes
  | 0, _ => throwText exhausted
  | attempts + 1, need => do
    let tried ← growAttempt produce failed outLen need
    match tried with
    | .inl bytes => return bytes
    | .inr need => growLoop produce failed exhausted outLen attempts need

end Growth

/-- The emulator has `content` to write: it does where there is room, and else says that there is
not. -/
structure Answers (content : Bytes) (cap : ℕ) (answer : Written) : Prop where
  fits : content.length ≤ cap → answer.rc = kGhosttySuccess ∧
    answer.outLen.toInt = content.length ∧ answer.data = content
  short : cap < content.length → answer.rc = kGhosttyOutOfSpace ∧ answer.data.length ≤ cap

/-- Where there is no room it says how much it takes. -/
structure AnswersNeed (content : Bytes) (cap : ℕ) (answer : Written) : Prop
    extends Answers content cap answer where
  need : cap < content.length → answer.outLen.toInt = content.length

def honest (content : Bytes) (cap : ℕ) : Written :=
  if content.length ≤ cap then ⟨kGhosttySuccess, Int64.ofNat content.length, content⟩
  else ⟨kGhosttyOutOfSpace, Int64.ofNat content.length, []⟩

theorem honest_answersNeed {content : Bytes} (hlen : content.length < 2 ^ 63) (cap : ℕ) :
    AnswersNeed content cap (honest content cap) := by
  have hint : (Int64.ofNat content.length).toInt = content.length := Int64.toInt_ofNat_of_lt hlen
  unfold honest
  by_cases hfits : content.length ≤ cap
  · rw [if_pos hfits]
    exact ⟨⟨fun _ ↦ ⟨rfl, hint, rfl⟩, fun hlt ↦ absurd hfits (Nat.not_le_of_lt hlt)⟩, fun _ ↦ hint⟩
  · rw [if_neg hfits]
    exact ⟨⟨fun hle ↦ absurd hle hfits, fun _ ↦ ⟨rfl, Nat.zero_le _⟩⟩, fun _ ↦ hint⟩

/-- A call of the emulator answers like this, and leaves everything else as it is, but for what it
keeps in the blocks of `K`. -/
def Produces (A : ℕ → Written → Prop) (K : List (ℕ × Block) → Prop)
    (produce : ℕ → Native ω Written) (w : ω) : Prop :=
  ∀ base h cap front ps, K ps → Owns base (front ++ ps) h →
    Spec (produce cap) (fun answer w' h' ↦ A cap answer ∧ w' = w ∧ h'.next = h.next ∧
      ∃ ps', K ps' ∧ Owns base (front ++ ps') h') (fun _ _ _ ↦ False) w h

section Rules

variable {content : Bytes} {A : ℕ → Written → Prop} {K : List (ℕ × Block) → Prop}
  {produce : ℕ → Native ω Written} {base h : Heap Block} {ps : List (ℕ × Block)} {w : ω}
  {buf outLen : ℕ} {cap : Int64} {slot : Option Int64} {E : DartString → ω → Heap Block → Prop}

theorem Answers.length_le {answer : Written} {cap : ℕ} (ha : Answers content cap answer) :
    answer.data.length ≤ cap := by
  by_cases hfits : content.length ≤ cap
  · obtain ⟨-, -, hdata⟩ := ha.fits hfits
    rwa [hdata]
  · exact (ha.short (Nat.lt_of_not_le hfits)).2

theorem spec_writeInto (hproduce : Produces A K produce w)
    (hA : ∀ cap answer, A cap answer → Answers content cap answer) (hps : K ps)
    (ho : Owns base ((buf, .scratch cap.toUInt64.toNat []) :: (outLen, .size slot) :: ps) h) :
    Spec (writeInto produce (some buf) cap outLen)
      (fun rc w' h' ↦ ∃ answer ps', rc = answer.rc ∧ A cap.toUInt64.toNat answer ∧ w' = w ∧
        h'.next = h.next ∧ K ps' ∧
        Owns base ((buf, .scratch cap.toUInt64.toNat answer.data) ::
          (outLen, .size (some answer.outLen)) :: ps') h') E w h := by
  unfold writeInto
  refine ((hproduce base h cap.toUInt64.toNat [_, _] ps hps ho).mono (fun _ _ _ hend ↦ hend)
    fun _ _ _ hend ↦ hend.elim).bind fun answer w' h₁ hend ↦ ?_
  obtain ⟨ha, rfl, hnext₁, ps', hps', ho₁⟩ := hend
  refine spec_bind (spec_store ho₁ (hA _ _ ha).length_le fun h₂ ho₂ hnext₂ ↦ ?_)
  refine spec_bind (spec_modifyNext (ho₂.perm (List.Perm.swap ..)) fun h₃ ho₃ hnext₃ ↦ ?_)
  refine spec_pure ⟨answer, ps', rfl, ha, rfl, ?_, hps', ho₃.perm (List.Perm.swap ..)⟩
  rw [hnext₃, hnext₂, hnext₁]

def Held (K : List (ℕ × Block) → Prop) (base : Heap Block) (outLen : ℕ) (h : Heap Block) : Prop :=
  ∃ slot ps, K ps ∧ Owns base ((outLen, .size slot) :: ps) h

def NoRoom (K : List (ℕ × Block) → Prop) (base : Heap Block) (outLen : ℕ) (w : ω)
    (e : DartString) (w' : ω) (h : Heap Block) : Prop :=
  e = mallocFailed ∧ w' = w ∧ Held K base outLen h ∧ ∃ a, base.grants a = false

theorem toNat_of_toInt {n : Int64} {len : ℕ} (hn : n.toInt = len) : n.toUInt64.toNat = len := by
  have h := toNat_of_nonneg (n := n) (by omega)
  omega

theorem le_zero_iff {n : Int64} {len : ℕ} (hn : n.toInt = len) : n ≤ 0 ↔ len = 0 := by
  have h0 : (0 : Int64).toInt = 0 := rfl
  rw [Int64.le_iff_toInt_le, hn, h0]
  omega

theorem spec_growAttempt {failed : String} {need : Int64} (hproduce : Produces A K produce w)
    (hA : ∀ cap answer, A cap answer → Answers content cap answer)
    (hheld : Held K base outLen h) :
    Spec (growAttempt produce failed outLen need)
      (fun tried w' h' ↦ w' = w ∧ Held K base outLen h' ∧
        (content.length ≤ need.toUInt64.toNat ∧ tried = .inl content ∨
          need.toUInt64.toNat < content.length ∧ ∃ answer, A need.toUInt64.toNat answer ∧
            tried = .inr (if need < answer.outLen then answer.outLen else need * 2)))
      (NoRoom K base outLen w) w h := by
  obtain ⟨slot, ps, hps, ho⟩ := hheld
  unfold growAttempt mallocScratch mallocBytes
  refine spec_bind (spec_malloc ho (fun buf h₁ ho₁ ↦ ?_) fun h' hrefused ↦
    ⟨rfl, rfl, ⟨slot, ps, hps, hrefused.owns⟩, hrefused.refused⟩)
  refine spec_ensure (spec_bind ?_)
  refine spec_modify (ho₁.perm (List.Perm.swap ..)) fun h₂ ho₂ ↦ ?_
  refine (spec_writeInto hproduce hA hps (ho₂.perm (List.Perm.swap ..))).bind fun rc w' h₃ hend ↦ ?_
  obtain ⟨answer, ps', rfl, ha, rfl, -, hps', ho₃⟩ := hend
  have hslot : (outLen, Block.size (some answer.outLen)) ∈
      (buf, Block.scratch need.toUInt64.toNat answer.data) ::
        (outLen, .size (some answer.outLen)) :: ps' := by simp
  by_cases hfits : content.length ≤ need.toUInt64.toNat
  · obtain ⟨hrc, hlen, hdata⟩ := (hA _ _ ha).fits hfits
    rw [if_pos hrc]
    refine spec_bind (spec_readSize ho₃ hslot ?_)
    have hback : Spec (free buf) (fun _ w'' h' ↦ w'' = w' ∧ Held K base outLen h' ∧
        (content.length ≤ need.toUInt64.toNat ∧
            (Sum.inl content : Bytes ⊕ Int64) = .inl content ∨
          need.toUInt64.toNat < content.length ∧ ∃ answer, A need.toUInt64.toNat answer ∧
            Sum.inl content = .inr (if need < answer.outLen then answer.outLen else need * 2)))
        (NoRoom K base outLen w') w' h₃ :=
      spec_free ho₃ fun h' ho' ↦ ⟨rfl, ⟨_, _, hps', ho'⟩, Or.inl ⟨hfits, rfl⟩⟩
    by_cases hempty : answer.outLen ≤ 0
    · rw [if_pos hempty]
      obtain rfl : content = [] := List.length_eq_zero_iff.mp ((le_zero_iff hlen).mp hempty)
      exact spec_pure hback
    · rw [if_neg hempty]
      refine spec_bind (spec_readFront ho₃ List.mem_cons_self ?_ ?_)
      · rw [toNat_of_toInt hlen, hdata]
      · rw [hdata]
        exact spec_pure hback
  · have hshort := Nat.lt_of_not_le hfits
    have hrc := ((hA _ _ ha).short hshort).1
    have hne : ¬answer.rc = kGhosttySuccess := by
      rw [hrc]
      decide
    rw [if_neg hne, if_pos hrc]
    refine spec_bind (spec_readSize ho₃ hslot (spec_pure ?_))
    exact spec_free ho₃ fun h' ho' ↦
      ⟨rfl, ⟨_, _, hps', ho'⟩, Or.inr ⟨hshort, answer, ha, rfl⟩⟩

section Loop

variable {failed exhausted : String} {attempts : ℕ} {need : Int64}

/-- A size that the emulator asks for may be too small only where it asks for nothing more. -/
def Hinted (content : Bytes) (cap : ℕ) (answer : Written) : Prop :=
  Answers content cap answer ∧ (cap < content.length →
    answer.outLen.toInt ≤ cap ∨ content.length ≤ answer.outLen.toInt)

theorem AnswersNeed.hinted {cap : ℕ} {answer : Written} (ha : AnswersNeed content cap answer) :
    Hinted content cap answer :=
  ⟨ha.toAnswers, fun hshort ↦ Or.inr (ha.need hshort).ge⟩

theorem spec_growLoop (hproduce : Produces (Hinted content) K produce w)
    (hneed : 0 ≤ need.toInt) (hroom : content.length ≤ need.toInt * 2 ^ attempts)
    (hbound : content.length ≤ 2 ^ 62) (hheld : Held K base outLen h) :
    Spec (growLoop produce failed exhausted outLen (attempts + 1) need)
      (fun bytes w' h' ↦ bytes = content ∧ w' = w ∧ Held K base outLen h')
      (NoRoom K base outLen w) w h := by
  have hnat : (need.toUInt64.toNat : ℤ) = need.toInt := toNat_of_nonneg hneed
  induction attempts generalizing need h with
  | zero =>
    unfold growLoop
    refine (spec_growAttempt hproduce (fun _ _ ha ↦ ha.1) hheld).bind fun tried w' h' hend ↦ ?_
    obtain ⟨rfl, hheld', ⟨-, rfl⟩ | ⟨hshort, -⟩⟩ := hend
    · exact spec_pure ⟨rfl, rfl, hheld'⟩
    · simp only [pow_zero, mul_one] at hroom
      omega
  | succ attempts ih =>
    unfold growLoop
    refine (spec_growAttempt hproduce (fun _ _ ha ↦ ha.1) hheld).bind fun tried w' h' hend ↦ ?_
    obtain ⟨rfl, hheld', ⟨-, rfl⟩ | ⟨hshort, answer, ha, rfl⟩⟩ := hend
    · exact spec_pure ⟨rfl, rfl, hheld'⟩
    · have hpow : (1 : ℤ) ≤ 2 ^ attempts := one_le_pow₀ (by decide)
      by_cases hmore : need < answer.outLen
      · simp only [if_pos hmore]
        have hlt : need.toInt < answer.outLen.toInt := Int64.lt_iff_toInt_lt.mp hmore
        have hlen : (content.length : ℤ) ≤ answer.outLen.toInt := by
          obtain hle | hle := ha.2 hshort
          · omega
          · exact hle
        have h0 : 0 ≤ answer.outLen.toInt := by omega
        exact ih h0 (hlen.trans (le_mul_of_one_le_right h0 hpow)) hheld' (toNat_of_nonneg h0)
      · simp only [if_neg hmore]
        have hdouble := toInt_double hneed (by omega)
        have h0 : 0 ≤ (need * 2).toInt := by omega
        refine ih h0 ?_ hheld' (toNat_of_nonneg h0)
        rw [hdouble]
        rw [pow_succ] at hroom
        linarith

theorem spec_growLoop_need (hproduce : Produces (AnswersNeed content) K produce w)
    (hneed : 0 ≤ need.toInt) (hheld : Held K base outLen h) :
    Spec (growLoop produce failed exhausted outLen (attempts + 2) need)
      (fun bytes w' h' ↦ bytes = content ∧ w' = w ∧ Held K base outLen h')
      (NoRoom K base outLen w) w h := by
  have hnat : (need.toUInt64.toNat : ℤ) = need.toInt := toNat_of_nonneg hneed
  have hA (cap : ℕ) (answer : Written) (ha : AnswersNeed content cap answer) := ha.toAnswers
  unfold growLoop
  refine (spec_growAttempt hproduce hA hheld).bind fun tried w' h' hend ↦ ?_
  obtain ⟨rfl, hheld', ⟨-, rfl⟩ | ⟨hshort, answer, ha, rfl⟩⟩ := hend
  · exact spec_pure ⟨rfl, rfl, hheld'⟩
  · have hlen := ha.need hshort
    have hmore : need < answer.outLen := Int64.lt_iff_toInt_lt.mpr (by omega)
    simp only [if_pos hmore]
    unfold growLoop
    refine (spec_growAttempt hproduce hA hheld').bind fun tried w' h' hend ↦ ?_
    obtain ⟨rfl, hheld'', ⟨-, rfl⟩ | ⟨hshort', -⟩⟩ := hend
    · exact spec_pure ⟨rfl, rfl, hheld''⟩
    · rw [toNat_of_toInt hlen] at hshort'
      omega

end Loop

section Attempts

variable {attempts : ℕ} {data : Bytes} {F : DartString → ω × ℕ → Heap Block → Prop}

def HeldVar (K : List (ℕ × Block) → Prop) (base : Heap Block) (outLen : ℕ) (s : ω × ℕ)
    (h : Heap Block) : Prop :=
  ∃ cap data slot ps, K ps ∧
    Owns base ((s.2, .scratch cap data) :: (outLen, .size slot) :: ps) h

theorem spec_encodeAttempts_fits (hproduce : Produces (AnswersNeed content) K produce w)
    (hps : K ps) (hfits : content.length ≤ cap.toUInt64.toNat)
    (ho : Owns base ((buf, .scratch cap.toUInt64.toNat []) :: (outLen, .size slot) :: ps) h) :
    Spec (encodeAttempts produce outLen (attempts + 1) cap)
      (fun bytes s h' ↦ bytes = content ∧ s.1 = w ∧ HeldVar K base outLen s h') F (w, buf) h := by
  unfold encodeAttempts
  refine spec_bind (spec_lift (spec_modify (ho.perm (List.Perm.swap ..)) fun h₁ ho₁ ↦ ?_))
  refine spec_bind (spec_readVar (spec_bind (spec_lift ?_)))
  refine (spec_writeInto hproduce (fun _ _ ha ↦ ha.toAnswers) hps
    (ho₁.perm (List.Perm.swap ..))).mono ?_ fun _ _ _ hend ↦ hend
  intro rc w' h₂ hend
  obtain ⟨answer, ps', rfl, ha, rfl, -, hps', ho₂⟩ := hend
  obtain ⟨hrc, hlen, hdata⟩ := ha.fits hfits
  have hslot : (outLen, Block.size (some answer.outLen)) ∈
      (buf, Block.scratch cap.toUInt64.toNat answer.data) ::
        (outLen, .size (some answer.outLen)) :: ps' := by simp
  have hheld : HeldVar K base outLen (w', buf) h₂ := ⟨_, _, _, ps', hps', ho₂⟩
  rw [if_pos hrc]
  refine spec_bind (spec_lift (spec_readSize ho₂ hslot ?_))
  by_cases hempty : answer.outLen ≤ 0
  · rw [if_pos hempty]
    obtain rfl : content = [] := List.length_eq_zero_iff.mp ((le_zero_iff hlen).mp hempty)
    exact spec_pure ⟨rfl, rfl, hheld⟩
  · rw [if_neg hempty]
    refine spec_lift (spec_readFront ho₂ List.mem_cons_self ?_ ⟨hdata, rfl, hheld⟩)
    rw [toNat_of_toInt hlen, hdata]

/-- Up to the allocation of the larger buffer, when the old one is gone already. -/
theorem spec_encodeAttempts_short {Q : Bytes → ω × ℕ → Heap Block → Prop}
    (hproduce : Produces (AnswersNeed content) K produce w) (hps : K ps)
    (hshort : cap.toUInt64.toNat < content.length)
    (ho : Owns base ((buf, .scratch cap.toUInt64.toNat []) :: (outLen, .size slot) :: ps) h)
    (hgrown : base.grants h.next = true → ∀ (need : Int64) slot ps' grown h',
      need.toInt = content.length → K ps' →
        Owns base ((grown, .scratch need.toUInt64.toNat []) :: (outLen, .size slot) :: ps') h' →
          Spec (encodeAttempts produce outLen attempts need) Q F (w, grown) h')
    (hrefused : base.grants h.next = false → ∀ slot ps' h', K ps' → base.cells buf = none →
      buf ∉ (outLen :: ps'.map Prod.fst) → Owns base ((outLen, .size slot) :: ps') h' →
      F mallocFailed (w, buf) h') :
    Spec (encodeAttempts produce outLen (attempts + 1) cap) Q F (w, buf) h := by
  unfold encodeAttempts
  refine spec_bind (spec_lift (spec_modifyNext (ho.perm (List.Perm.swap ..))
    fun h₁ ho₁ hnext₁ ↦ ?_))
  refine spec_bind (spec_readVar (spec_bind (spec_lift ?_)))
  refine (spec_writeInto hproduce (fun _ _ ha ↦ ha.toAnswers) hps
    (ho₁.perm (List.Perm.swap ..))).mono ?_ fun _ _ _ hend ↦ hend
  intro rc w' h₂ hend
  obtain ⟨answer, ps', rfl, ha, rfl, hnext₂, hps', ho₂⟩ := hend
  have hrc := (ha.short hshort).1
  have hlen := ha.need hshort
  have hne : ¬answer.rc = kGhosttySuccess := by
    rw [hrc]
    decide
  have hslot : (outLen, Block.size (some answer.outLen)) ∈
      (buf, Block.scratch cap.toUInt64.toNat answer.data) ::
        (outLen, .size (some answer.outLen)) :: ps' := by simp
  have hsome : ¬answer.outLen ≤ 0 := by
    rw [le_zero_iff hlen]
    omega
  rw [if_neg hne, if_pos hrc]
  refine spec_bind (spec_lift (spec_readSize ho₂ hslot ?_))
  rw [if_neg hsome]
  refine spec_bind (spec_lift (spec_freeNext ho₂ fun h₃ ho₃ hnext₃ ↦ ?_))
  have hnext : h₃.next = h.next := by rw [hnext₃, hnext₂, hnext₁]
  refine spec_bind (spec_lift (spec_mallocNext ho₃ (fun hgrant h₄ ho₄ _ ↦ ?_)
    fun hrefuse h₄ ho₄ _ ↦ ?_))
  · refine spec_bind (spec_assign ?_)
    exact hgrown (hnext ▸ hgrant) _ _ ps' _ h₄ hlen hps' ho₄
  · refine hrefused (hnext ▸ hrefuse) _ ps' h₄ hps' ?_ ?_ ho₄
    · exact ho₂.new _ List.mem_cons_self
    · exact (List.nodup_cons.mp ho₂.nodup).1

end Attempts

section EncodeIntoBuffer

/-- The growth of the buffer is refused: after its 128 bytes, and the slot of the length, were
granted. -/
def GrowthRefused (content : Bytes) (h : Heap Block) : Prop :=
  h.grants h.next = true ∧ h.grants (h.next + 1) = true ∧ 128 < content.length ∧
    h.grants (h.next + 2) = false

def Leaked (K : List (ℕ × Block) → Prop) (base : Heap Block) (w : ω) (e : DartString) (w' : ω)
    (h : Heap Block) : Prop :=
  e = mallocFailed ∧ w' = w ∧ (∃ a, base.grants a = false) ∧
    ∃ leaked ps, K ps ∧ Owns base (leaked ++ ps) h

theorem spec_encodeIntoBuffer (hproduce : Produces (AnswersNeed content) K produce w) (hps : K ps)
    (ho : Owns base ps h) (hgrowth : ¬GrowthRefused content h) :
    Spec (encodeIntoBuffer produce)
      (fun bytes w' h' ↦ bytes = content ∧ w' = w ∧ ∃ ps', K ps' ∧ Owns base ps' h')
      (Leaked K base w) w h := by
  unfold encodeIntoBuffer
  refine spec_bind (spec_mallocNext ho (fun hgrant₁ h₁ ho₁ hnext₁ ↦ ?_) fun hrefused h₁ ho₁ _ ↦
    ⟨rfl, rfl, ⟨_, hrefused⟩, [], ps, hps, ho₁⟩)
  refine spec_bind (spec_mallocNext ho₁ (fun hgrant₂ h₂ ho₂ hnext₂ ↦ ?_) fun hrefused h₂ ho₂ _ ↦
    ⟨rfl, rfl, ⟨_, hrefused⟩, [_], ps, hps, ho₂⟩)
  have hclean (s : ω × ℕ) (h' : Heap Block) (hheld : HeldVar K base h.next s h')
      {Q : Unit → ω × ℕ → Heap Block → Prop} {F : DartString → ω × ℕ → Heap Block → Prop}
      (hQ : ∀ ps' h'', K ps' → Owns base ps' h'' → Q () s h'') :
      Spec (do
        let buf ← readVar
        lift (free buf)
        lift (free h.next)) Q F s h' := by
    obtain ⟨_, _, _, ps', hps', ho'⟩ := hheld
    refine spec_bind (spec_readVar (spec_bind (spec_lift (spec_free ho' fun h'' ho'' ↦ ?_))))
    exact spec_lift (spec_free ho'' fun h₃ ho₃ ↦ hQ ps' h₃ hps' ho₃)
  refine spec_withVar (spec_ensure ?_)
  have hdone {bytes : Bytes} {s : ω × ℕ} {h' : Heap Block}
      (hend : bytes = content ∧ s.1 = w ∧ HeldVar K base h.next s h') :
      Spec (do
        let buf ← readVar
        lift (free buf)
        lift (free h.next))
        (fun _ s h' ↦ bytes = content ∧ s.1 = w ∧ ∃ ps', K ps' ∧ Owns base ps' h')
        (fun e s h' ↦ Leaked K base w e s.1 h') s h' :=
    hclean s h' hend.2.2 fun ps' h'' hps' ho' ↦ ⟨hend.1, hend.2.1, ps', hps', ho'⟩
  by_cases hfits : content.length ≤ 128
  · have hfits : content.length ≤ (128 : Int64).toUInt64.toNat := hfits
    exact (spec_encodeAttempts_fits hproduce hps hfits ho₂).mono
      (fun _ _ _ hend ↦ hdone hend) fun _ _ _ hend ↦ hend
  · have hshort : (128 : Int64).toUInt64.toNat < content.length := Nat.lt_of_not_le hfits
    refine (spec_encodeAttempts_short (Q := fun bytes s h' ↦ bytes = content ∧ s.1 = w ∧
      HeldVar K base h.next s h') (F := fun _ _ _ ↦ False) hproduce hps hshort ho₂ ?_ ?_).mono
      (fun _ _ _ hend ↦ hdone hend) fun _ _ _ hend ↦ hend.elim
    · intro _ need slot ps' grown h' hneed hps' ho'
      exact spec_encodeAttempts_fits hproduce hps' (toNat_of_toInt hneed).ge ho'
    · intro hrefused
      refine absurd ⟨?_, ?_, Nat.lt_of_not_le hfits, ?_⟩ hgrowth
      · rwa [ho.grants]
      · rwa [ho.grants, ← hnext₁]
      · rwa [ho.grants, show h.next + 2 = h₂.next by omega]

/-- The old buffer has been freed, and `finally` frees it once more. -/
theorem encodeIntoBuffer_faults (hproduce : Produces (AnswersNeed content) K produce w)
    (hps : K ps) (ho : Owns base ps h) (hgrowth : GrowthRefused content h) :
    Faults (encodeIntoBuffer produce) w h := by
  obtain ⟨hgrant₁, hgrant₂, hshort, hrefused⟩ := hgrowth
  rw [ho.grants] at hgrant₁ hgrant₂ hrefused
  unfold encodeIntoBuffer
  refine faults_bind (spec_mallocNext ho (fun _ h₁ ho₁ hnext₁ ↦ ?_) fun hno ↦ ?_)
  · refine faults_bind (spec_mallocNext ho₁ (fun _ h₂ ho₂ hnext₂ ↦ ?_) fun hno ↦ ?_)
    · refine faults_withVar (faults_ensure ?_)
      refine spec_encodeAttempts_short hproduce hps hshort ho₂ ?_ ?_
      · intro hgrant
        rw [show h₂.next = h.next + 2 by omega, hrefused] at hgrant
        cases hgrant
      · intro _ slot ps' h' _ hnew hnot ho'
        refine faults_bind (spec_readVar (faults_bind_left ?_))
        exact faults_lift (faults_free ho' hnew hnot)
    · rw [hnext₁, hgrant₂] at hno
      cases hno
  · rw [hgrant₁] at hno
    cases hno

/-- Memory that is not there is used exactly where the growth of the buffer is refused. -/
theorem encodeIntoBuffer_faults_iff (hproduce : Produces (AnswersNeed content) K produce w)
    (hps : K ps) (ho : Owns base ps h) :
    Faults (encodeIntoBuffer produce) w h ↔ GrowthRefused content h := by
  refine ⟨fun hfaults ↦ ?_, encodeIntoBuffer_faults hproduce hps ho⟩
  by_contra hgrowth
  exact (spec_encodeIntoBuffer hproduce hps ho hgrowth).not_faults hfaults

theorem produces_honest (hlen : content.length < 2 ^ 63) :
    Produces (AnswersNeed content) (fun qs ↦ qs = ps)
      (fun cap ↦ (return honest content cap : Native ω Written)) w :=
  fun _ _ cap _ qs hqs ho ↦ spec_pure ⟨honest_answersNeed hlen cap, rfl, rfl, qs, hqs, ho⟩

theorem encodeIntoBuffer_faults_paste :
    Faults (encodeIntoBuffer fun cap ↦ return honest (List.replicate 129 65) cap) ()
      (Heap.empty fun a ↦ a ≠ 2) := by
  have hlen : (List.replicate 129 (65 : UInt8)).length = 129 := List.length_replicate
  refine (encodeIntoBuffer_faults_iff (produces_honest ?_) rfl (Owns.start _)).mpr
    ⟨rfl, rfl, ?_, rfl⟩
  · omega
  · omega

end EncodeIntoBuffer

end Rules

end MachineNotebook.Vt.ScratchBuffers
