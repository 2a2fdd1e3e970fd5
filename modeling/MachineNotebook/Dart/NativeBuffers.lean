import MachineNotebook.Dart.NativeMemory

namespace MachineNotebook.Dart.NativeBuffers

open MachineNotebook.Lib MachineNotebook.Lib.Utf8 MachineNotebook.Lib.HeapLogic
open MachineNotebook.Lib.HeapLogic.Prog NativeMemory
open Host.Boot (Process)
open Host.Buf (AosBuf)
open Bindings (Fresh DartString)

variable {H : Type}

section Host

def writeFront (a : ℕ) (src : Bytes) : Native H Unit := do
  let block ← load a
  let old ← expect block.asBytes
  if old.length < src.length then expect none
  else modify a fun _ ↦ .bytes (src ++ old.drop src.length)

def fillBuf (out : Ptr) (src : Bytes) : Native H Int32 :=
  match out with
  | none => pure (-1)
  | some out => do
    modify out (Block.setLen src.length)
    let block ← load out
    let (ptr, cap, _) ← expect block.asBuf
    if src = [] then pure 0
    else
      match ptr with
      | none => pure (-1)
      | some a =>
        if cap < src.length then pure (-1)
        else do
          writeFront a src
          return 0

end Host

section Dart

def allocAosBuf (capacity : Int64) (fresh : Fresh) : Native H ℕ := do
  let p ← mallocBytes (.buf none capacity.toUInt64.toNat 0)
  if 0 < capacity then do
    let r ← mallocBytes (.bytes ((List.range capacity.toUInt64.toNat).map fresh))
    modify p fun _ ↦ .buf (some r) capacity.toUInt64.toNat 0
    return p
  else return p

def freeAosBuf (p : ℕ) : Native H Unit := do
  let block ← load p
  let (ptr, _, _) ← expect block.asBuf
  freeNonNull ptr
  free p

def copyFromAosBuf (p : ℕ) : Native H Bytes := do
  let block ← load p
  let (ptr, cap, len) ← expect block.asBuf
  match ptr with
  | none => pure []
  | some a =>
    if len = 0 ∨ cap = 0 then pure [] else readFront a (if len > cap then cap else len)
where
  /-- `asTypedList`, which is not to reach behind the region. -/
  readFront (a take : ℕ) : Native H Bytes := do
    let block ← load a
    let data ← expect block.asBytes
    if data.length < take then expect none else pure (data.take take)

end Dart

section Specs

variable {base h : Heap Block} {ps qs : List (ℕ × Block)} {w : Process H} {p r : ℕ} {b : AosBuf}
  {E : DartString → Process H → Heap Block → Prop}

def bufBlocks (p r : ℕ) (b : AosBuf) : List (ℕ × Block) :=
  (p, .buf (b.ptr.map fun _ ↦ r) b.cap b.len) :: (b.ptr.map fun bytes ↦ (r, .bytes bytes)).toList

theorem spec_allocAosBuf {capacity : Int64} {fresh : Fresh}
    {Q : ℕ → Process H → Heap Block → Prop} (ho : Owns base ps h)
    (hQ : ∀ p r h', Owns base (bufBlocks p r (Bindings.allocAosBuf capacity fresh) ++ ps) h' →
      Q p w h') :
    Spec (allocAosBuf capacity fresh) Q (OutOfMemory base w) w h := by
  unfold allocAosBuf
  refine spec_bind (spec_mallocBytes ho fun p h₁ ho₁ ↦ ?_)
  by_cases hcap : 0 < capacity
  · rw [if_pos hcap]
    refine spec_bind (spec_mallocBytes ho₁ fun r h₂ ho₂ ↦ ?_)
    refine spec_bind (spec_modify (ho₂.perm (List.Perm.swap ..)) fun h₃ ho₃ ↦ ?_)
    refine spec_pure (hQ p r h₃ ?_)
    simpa [bufBlocks, Bindings.allocAosBuf, hcap] using ho₃
  · rw [if_neg hcap]
    refine spec_pure (hQ p 0 h₁ ?_)
    simpa [bufBlocks, Bindings.allocAosBuf, hcap] using ho₁

theorem spec_freeAosBuf {Q : Unit → Process H → Heap Block → Prop}
    (ho : Owns base (bufBlocks p r b ++ ps) h) (hQ : ∀ h', Owns base ps h' → Q () w h') :
    Spec (freeAosBuf p) Q E w h := by
  unfold freeAosBuf
  refine spec_bind (spec_load ho (List.mem_append_left _ List.mem_cons_self) ?_)
  refine spec_bind (spec_expect rfl ?_)
  cases hptr : b.ptr with
  | none =>
    simp only [bufBlocks, hptr] at ho
    exact spec_bind (spec_pure (spec_free ho hQ))
  | some bytes =>
    simp only [bufBlocks, hptr] at ho
    refine spec_bind (spec_free (ho.perm (List.Perm.swap ..)) fun h₁ ho₁ ↦ ?_)
    exact spec_free ho₁ hQ

theorem spec_copyFromAosBuf (ho : Owns base ps h) (hsub : bufBlocks p r b ⊆ ps) :
    Spec (copyFromAosBuf p) (fun bytes w' h' ↦ bytes = Bindings.copyFromAosBuf b ∧ w' = w ∧ h' = h)
      E w h := by
  unfold copyFromAosBuf
  refine spec_bind (spec_load ho (hsub List.mem_cons_self) (spec_bind (spec_expect rfl ?_)))
  cases hptr : b.ptr with
  | none => exact spec_pure ⟨by simp [Bindings.copyFromAosBuf, hptr], rfl, rfl⟩
  | some bytes =>
    have hlen := b.region bytes (by simp [hptr])
    have hmem : (r, Block.bytes bytes) ∈ ps := hsub (by simp [bufBlocks, hptr])
    simp only [Option.map_some]
    by_cases hempty : b.len = 0 ∨ b.cap = 0
    · rw [if_pos hempty]
      refine spec_pure ⟨?_, rfl, rfl⟩
      simp only [Bindings.copyFromAosBuf, hptr]
      rcases hempty with hzero | hzero
      · simp [hzero]
      · have hnil : bytes = [] := List.length_eq_zero_iff.mp (hlen.trans hzero)
        simp [hnil]
    · rw [if_neg hempty]
      unfold copyFromAosBuf.readFront
      refine spec_bind (spec_load ho hmem (spec_bind (spec_expect rfl ?_)))
      rw [if_neg (by split <;> omega)]
      exact spec_pure ⟨by simp only [Bindings.copyFromAosBuf, hptr], rfl, rfl⟩

theorem spec_writeFront {bytes src : Bytes} {Q : Unit → Process H → Heap Block → Prop}
    (ho : Owns base ((r, .bytes bytes) :: ps) h) (hroom : src.length ≤ bytes.length)
    (hQ : ∀ h', Owns base ((r, .bytes (src ++ bytes.drop src.length)) :: ps) h' → Q () w h') :
    Spec (writeFront r src) Q E w h := by
  unfold writeFront
  refine spec_bind (spec_load ho List.mem_cons_self (spec_bind (spec_expect rfl ?_)))
  rw [if_neg (by omega)]
  exact spec_modify ho hQ

theorem spec_fillBuf {src : Bytes} {Q : Int32 → Process H → Heap Block → Prop}
    (ho : Owns base (bufBlocks p r b ++ ps) h)
    (hQ : ∀ rc b' h', Host.Buf.fillBuf (some b) src = (rc, some b') →
      Owns base (bufBlocks p r b' ++ ps) h' → Q rc w h') :
    Spec (fillBuf (some p) src) Q E w h := by
  let b₁ : AosBuf := { b with len := src.length }
  unfold fillBuf
  refine spec_bind (spec_modify ho fun h₁ ho₁ ↦ ?_)
  have ho₁ : Owns base (bufBlocks p r b₁ ++ ps) h₁ := ho₁
  refine spec_bind (spec_load ho₁ List.mem_cons_self (spec_bind (spec_expect rfl ?_)))
  by_cases hempty : src = []
  · simp only [if_pos hempty]
    exact spec_pure (hQ 0 b₁ h₁ (by simp [Host.Buf.fillBuf, hempty, b₁]) ho₁)
  · simp only [if_neg hempty]
    cases hptr : b.ptr with
    | none => exact spec_pure (hQ (-1) b₁ h₁ (by simp [Host.Buf.fillBuf, hempty, hptr, b₁]) ho₁)
    | some bytes =>
      simp only [b₁, Option.map_some]
      by_cases hfull : b.cap < src.length
      · rw [if_pos hfull]
        exact spec_pure (hQ (-1) b₁ h₁ (by simp [Host.Buf.fillBuf, hempty, hfull, b₁]) ho₁)
      · rw [if_neg hfull]
        have hlen := b.region bytes (by simp [hptr])
        have hroom : src.length ≤ b₁.cap := Nat.le_of_not_lt hfull
        simp only [bufBlocks, b₁, hptr] at ho₁
        refine spec_bind (spec_writeFront (ho₁.perm (List.Perm.swap ..)) (by omega) fun h₂ ho₂ ↦ ?_)
        refine spec_pure (hQ 0 (b₁.write src hroom) h₂ ?_ ?_)
        · simp [Host.Buf.fillBuf, hempty, hfull, hptr, b₁]
        · simp only [bufBlocks, AosBuf.write, b₁, hptr]
          exact ho₂.perm (List.Perm.swap ..)

end Specs

end MachineNotebook.Dart.NativeBuffers
