import MachineNotebook.Dart.ExecCalls

namespace MachineNotebook.Dart.SnapshotCalls

open MachineNotebook.Lib MachineNotebook.Lib.Utf8 MachineNotebook.Lib.HeapLogic
open MachineNotebook.Lib.HeapLogic.Prog Bindings NativeMemory NativeBuffers
open Host.Boot (Process)
open Host.VmTable
open ExecCalls (liftWorld liftWorld_eq ensureOpen)
open Vm (AgentOsVm)

variable {H : Type}

structure Snapshots (H : Type) where
  snapshot : Vm H → Except String Bytes × Vm H
  snapshotIncremental : Bytes → Vm H → Except String Bytes × Vm H
  /-- The layer and its digest in hexadecimal. -/
  commitLayer : Vm H → Except String (Bytes × Bytes) × Vm H

structure AgentOsCommitLayerResult where
  tar : Bytes
  digestHex : Bytes

section Host

variable (k : Snapshots H)

def snapshotRequest (vm : UInt64) (w : World H) : Except String Bytes × World H :=
  if vm = 0 then (.error "aos_vm_snapshot: invalid args", w)
  else w.withHostMut vm "snapshot" k.snapshot

def snapshotIntoRequest (vm : UInt64) (w : World H) : Except String Bytes × World H :=
  if vm = 0 then (.error "aos_vm_snapshot_into: invalid args", w)
  else w.withHostMut vm "snapshot" k.snapshot

def incrementalRequest (vm : UInt64) (base : Option Bytes) (w : World H) :
    Except String Bytes × World H :=
  match base with
  | none => (.error "aos_vm_snapshot_incremental: invalid args", w)
  | some base =>
    if vm = 0 ∨ base = [] then (.error "aos_vm_snapshot_incremental: invalid args", w)
    else w.withHostMut vm "snapshot_incremental" (k.snapshotIncremental base)

def commitRequest (vm : UInt64) (w : World H) : Except String (Bytes × Bytes) × World H :=
  if vm = 0 then (.error "aos_vm_commit_layer: invalid args", w)
  else w.withHostMut vm "commit_layer" k.commitLayer

/-- `alloc_bytes`: where memory runs out the pointer is null and the length 0. -/
def allocOwned (src : Bytes) : Native H (Ptr × ℕ) :=
  if src = [] then pure (none, 0)
  else do
    let p ← tryMalloc (.bytes src)
    return (p, if p = none then 0 else src.length)

/-- A copy of the bytes for the caller, who has to give it back. -/
def handOut (out : ℕ) (refusal : String) (bytes : Bytes) (rest : Native H Unit) :
    Native H Int32 := do
  let (ptr, len) ← allocOwned bytes
  if len ≠ bytes.length ∧ bytes ≠ [] then refuseCall refusal
  else do
    modify out fun _ ↦ .ownedBytes ptr len
    rest
    return 0

def answer {R : Type} (out : ℕ) (refusal : String) (copied : R → Bytes) (rest : R → Native H Unit)
    (r : Except String R) : Native H Int32 :=
  match r with
  | .ok x => handOut out refusal (copied x) (rest x)
  | .error e => refuseCall e

def aosVmSnapshot (vm : UInt64) (out : ℕ) : Native H Int32 := do
  let r ← world (liftWorld fun w ↦ snapshotRequest k vm w.clearError)
  answer out "snapshot alloc failed" id (fun _ ↦ pure ()) r

def aosVmSnapshotIncremental (vm : UInt64) (base : Ptr) (baseLen : ℕ) (out : ℕ) :
    Native H Int32 := do
  let base ← ExecCalls.derefSlice base baseLen
  let r ← world (liftWorld fun w ↦ incrementalRequest k vm base w.clearError)
  answer out "alloc failed" id (fun _ ↦ pure ()) r

def aosVmCommitLayer (vm : UInt64) (outTar : ℕ) (outDigestHex : Ptr) : Native H Int32 := do
  let r ← world (liftWorld fun w ↦ commitRequest k vm w.clearError)
  answer outTar "alloc failed" Prod.fst
    (fun layer ↦ do
      let _ ← fillBuf outDigestHex layer.2
      return ()) r

/-- `dealloc`, whose layout has to be that of the allocation. -/
def dealloc (a len : ℕ) : Native H Unit := do
  let block ← load a
  let data ← expect block.asBytes
  if data.length ≠ len then expect none else free a

def aosBytesFree (b : ℕ) : Native H Unit := do
  let block ← load b
  let (ptr, len) ← expect block.asOwnedBytes
  match ptr with
  | none => pure ()
  | some a => if 0 < len then dealloc a len else pure ()
  modify b fun _ ↦ .ownedBytes none 0

end Host

section Dart

def takeAosBytes (p : ℕ) : Native H Bytes := do
  let block ← load p
  let (ptr, len) ← expect block.asOwnedBytes
  let out ← match ptr with
    | none => pure []
    | some a => if len = 0 then pure [] else readSlice a len
  aosBytesFree p
  return out

/-- What the `catch` does before it throws again. -/
def freeOwned (p : ℕ) : Native H Unit := do
  let block ← load p
  let (ptr, _) ← expect block.asOwnedBytes
  if ptr = none then pure () else aosBytesFree p

variable (k : Snapshots H)

def snapshot (vm : AgentOsVm) : Native H Bytes :=
  ensureOpen vm do
    let out ← mallocBytes (.ownedBytes none 0)
    ensure
      (rescue
        (do
          let rc ← aosVmSnapshot k vm.handle out
          checkRc rc "aos_vm_snapshot"
          takeAosBytes out)
        (freeOwned out))
      (free out)

def snapshotIncremental (vm : AgentOsVm) (base : Bytes) : Native H Bytes :=
  ensureOpen vm do
    let basePtr ← allocData base
    let out ← mallocBytes (.ownedBytes none 0)
    ensure
      (rescue
        (do
          let rc ← aosVmSnapshotIncremental k vm.handle basePtr base.length out
          checkRc rc "aos_vm_snapshot_incremental"
          takeAosBytes out)
        (freeOwned out))
      (do
        freeNonNull basePtr
        free out)

def commitLayer (vm : AgentOsVm) (digestCap : Int64) (fresh : Fresh) :
    Native H AgentOsCommitLayerResult :=
  ensureOpen vm do
    let outTar ← mallocBytes (.ownedBytes none 0)
    let outDigest ← NativeBuffers.allocAosBuf digestCap fresh
    ensure
      (rescue
        (do
          let rc ← aosVmCommitLayer k vm.handle outTar (some outDigest)
          checkRc rc "aos_vm_commit_layer"
          let tar ← takeAosBytes outTar
          let digestHex ← NativeBuffers.copyFromAosBuf outDigest
          return { tar, digestHex })
        (freeOwned outTar))
      (do
        free outTar
        freeAosBuf outDigest)

end Dart

/-! What the calls come to, memory apart. The library may have run out of memory for its copy. -/

section Plain

variable (k : Snapshots H) {R S : Type}

def handedOut (refusal : String) (copied : R → Bytes) (granted : Bool)
    (r : Except String R × World H) : Except String R × World H :=
  match r with
  | (.ok x, w) => if granted = true ∨ copied x = [] then (.ok x, w) else (.error refusal, w)
  | (.error e, w) => (.error e, w)

def checked (op : String) (read : R → S) (r : Except String R × World H) : Vm.Outcome H S :=
  match r with
  | (.ok x, w) => (.ok (read x), w)
  | (.error e, w) =>
    (.error (Utf16.encode (op ++ " failed: ") ++ errorMessage e), w.setError e)

def plainSnapshot (vm : AgentOsVm) (granted : Bool) : World H → Vm.Outcome H Bytes :=
  Vm.ensureOpen vm fun w ↦ checked "aos_vm_snapshot" id
    (handedOut "snapshot alloc failed" id granted (snapshotRequest k vm.handle w.clearError))

def plainIncremental (vm : AgentOsVm) (base : Bytes) (granted : Bool) :
    World H → Vm.Outcome H Bytes :=
  Vm.ensureOpen vm fun w ↦ checked "aos_vm_snapshot_incremental" id
    (handedOut "alloc failed" id granted
      (incrementalRequest k vm.handle (allocBytes base) w.clearError))

def readCommit (digestCap : Int64) (fresh : Fresh) (layer : Bytes × Bytes) :
    AgentOsCommitLayerResult where
  tar := layer.1
  digestHex := Vm.readBuf
    (Host.Buf.fillBuf (some (Bindings.allocAosBuf digestCap fresh)) layer.2).2

def plainCommit (vm : AgentOsVm) (digestCap : Int64) (fresh : Fresh) (granted : Bool) :
    World H → Vm.Outcome H AgentOsCommitLayerResult :=
  Vm.ensureOpen vm fun w ↦ checked "aos_vm_commit_layer" (readCommit digestCap fresh)
    (handedOut "alloc failed" Prod.fst granted (commitRequest k vm.handle w.clearError))

end Plain

section Specs

variable {base h : Heap Block} {ps : List (ℕ × Block)} {w : Process H} {out : ℕ} {ptr : Ptr}
  {data : Bytes} {E : DartString → Process H → Heap Block → Prop}

def ownedBlocks (out : ℕ) (ptr : Ptr) (data : Bytes) : List (ℕ × Block) :=
  (out, .ownedBytes ptr data.length) :: dataBlocks ptr data

theorem spec_handOut {refusal : String} {rest : Native H Unit}
    {Q : Int32 → Process H → Heap Block → Prop}
    (ho : Owns base ((out, .ownedBytes none 0) :: ps) h)
    (hrest : ∀ ptr h', Owns base (ownedBlocks out ptr data ++ ps) h' →
      (ptr = none ↔ data = []) → Spec rest (fun _ w' h'' ↦ Q 0 w' h'') E w h')
    (hrefused : ∀ h', Owns base ((out, .ownedBytes none 0) :: ps) h' → data ≠ [] →
      (∃ a, base.grants a = false) → Q (-1) { w with lastError := refusal } h') :
    Spec (handOut out refusal data rest) Q E w h := by
  unfold handOut allocOwned
  by_cases hempty : data = []
  · subst hempty
    simp only [if_true, List.length_nil, ne_eq, not_true_eq_false, and_false, if_false]
    refine spec_bind (spec_pure (spec_bind (spec_modify ho fun h₁ ho₁ ↦ spec_bind ?_)))
    exact (hrest none h₁ ho₁ (iff_of_true rfl rfl)).mono (fun _ _ _ hq ↦ hq) fun _ _ _ he ↦ he
  · simp only [if_neg hempty]
    refine spec_bind (spec_bind (spec_tryMalloc ho (fun a h₁ ho₁ ↦ spec_pure ?_)
      fun h₁ hr ↦ spec_pure ?_))
    · have hkept : ¬((if (some a : Ptr) = none then 0 else data.length) ≠ data.length ∧
          data ≠ []) := by simp
      rw [if_neg hkept]
      refine spec_bind (spec_modify (ho₁.perm (List.Perm.swap ..)) fun h₂ ho₂ ↦ spec_bind ?_)
      exact (hrest (some a) h₂ ho₂ (iff_of_false (Option.some_ne_none a) hempty)).mono
        (fun _ _ _ hq ↦ hq) fun _ _ _ he ↦ he
    · have hlost : (if (none : Ptr) = none then 0 else data.length) ≠ data.length ∧ data ≠ [] := by
        have hpos : 0 < data.length := List.length_pos_of_ne_nil hempty
        exact ⟨by simp only [if_true]; omega, hempty⟩
      rw [if_pos hlost]
      unfold refuseCall setError
      exact spec_bind (spec_world (spec_pure (hrefused h₁ hr.owns hempty hr.refused)))

theorem spec_aosBytesFree {Q : Unit → Process H → Heap Block → Prop}
    (ho : Owns base (ownedBlocks out ptr data ++ ps) h) (hptr : ptr = none ↔ data = [])
    (hQ : ∀ h', Owns base ((out, .ownedBytes none 0) :: ps) h' → Q () w h') :
    Spec (aosBytesFree out) Q E w h := by
  unfold aosBytesFree
  refine spec_bind (spec_load ho List.mem_cons_self (spec_bind (spec_expect rfl ?_)))
  cases ptr with
  | none => exact spec_bind (spec_pure (spec_modify ho hQ))
  | some a =>
    have hne : data ≠ [] := fun hnil ↦ Option.some_ne_none a (hptr.mpr hnil)
    have hpos : 0 < data.length := List.length_pos_of_ne_nil hne
    simp only [if_pos hpos]
    unfold dealloc
    have ho₁ : Owns base ((a, .bytes data) :: (out, .ownedBytes (some a) data.length) :: ps) h :=
      ho.perm (List.Perm.swap ..)
    refine spec_bind (spec_bind (spec_load ho₁ List.mem_cons_self ?_))
    refine spec_bind (spec_expect rfl ?_)
    rw [if_neg (not_not.mpr rfl)]
    exact spec_free ho₁ fun h₂ ho₂ ↦ spec_modify ho₂ hQ

theorem spec_takeAosBytes {Q : Bytes → Process H → Heap Block → Prop}
    (ho : Owns base (ownedBlocks out ptr data ++ ps) h) (hptr : ptr = none ↔ data = [])
    (hQ : ∀ h', Owns base ((out, .ownedBytes none 0) :: ps) h' → Q data w h') :
    Spec (takeAosBytes out) Q E w h := by
  unfold takeAosBytes
  refine spec_bind (spec_load ho List.mem_cons_self (spec_bind (spec_expect rfl ?_)))
  have hfree : Spec (aosBytesFree out) (fun _ ↦ Spec (pure data : Native H Bytes) Q E) E w h :=
    spec_aosBytesFree ho hptr fun h' ho' ↦ spec_pure (hQ h' ho')
  cases ptr with
  | none =>
    refine spec_bind (spec_pure (spec_bind ?_))
    rw [← hptr.mp rfl]
    exact hfree
  | some a =>
    have hne : data ≠ [] := fun hnil ↦ Option.some_ne_none a (hptr.mpr hnil)
    have hlen : data.length ≠ 0 := fun hzero ↦ hne (List.length_eq_zero_iff.mp hzero)
    simp only [if_neg hlen]
    have hmem : (a, Block.bytes data) ∈ ownedBlocks out (some a) data ++ ps :=
      List.mem_append_left _ (List.mem_cons_of_mem _ List.mem_cons_self)
    exact spec_bind (spec_readSlice ho hmem rfl (spec_bind hfree))

theorem spec_freeOwned {Q : Unit → Process H → Heap Block → Prop}
    (ho : Owns base ((out, .ownedBytes none 0) :: ps) h) (hQ : Q () w h) :
    Spec (freeOwned out) Q E w h := by
  unfold freeOwned
  refine spec_bind (spec_load ho List.mem_cons_self (spec_bind (spec_expect rfl ?_)))
  exact spec_pure hQ

/-- A call comes to what `plain` says and leaves memory as it was, unless memory runs out: in the
call, or in the library's copy. -/
def RefinesOr {α : Type} (call : Native H α)
    (plain : Bool → Process H → Except DartString α × Process H) : Prop :=
  ∀ p h, Spec call (fun a p' h' ↦ Owns h [] h' ∧ plain true p = (.ok a, p'))
    (fun e p' h' ↦ (Owns h [] h' ∧ (plain true p = (.error e, p') ∨
      (∃ a, h.grants a = false) ∧ plain false p = (.error e, p'))) ∨ OutOfMemory h p e p' h') p h

theorem refinesOr_ensureOpen {α : Type} {vm : AgentOsVm} {body : Native H α}
    {plain : Bool → World H → Vm.Outcome H α}
    (hbody : RefinesOr body fun granted ↦ liftWorld (plain granted)) :
    RefinesOr (ensureOpen vm body) fun granted ↦ liftWorld (Vm.ensureOpen vm (plain granted)) := by
  intro p h
  unfold ensureOpen Vm.ensureOpen
  by_cases hclosed : vm.closed = true
  · simp only [hclosed, if_true]
    exact spec_throw (Or.inl ⟨Owns.start h, Or.inl rfl⟩)
  · simp only [hclosed]
    exact hbody p h

section Answer

variable {R S α : Type} {op refusal : String} {copied : R → Bytes} {read : R → S}
  {f : World H → Except String R × World H} {p : Process H} {w' : World H} {r : Except String R}

def Throws (base : Heap Block) (op refusal : String) (copied : R → Bytes) (read : R → S)
    (f : World H → Except String R × World H) (p : Process H) (e : DartString) (p' : Process H) :
    Prop :=
  let plain := fun granted ↦ liftWorld (fun w ↦
    checked op read (handedOut refusal copied granted (f w))) p
  plain true = (.error e, p') ∨ (∃ a, base.grants a = false) ∧ plain false = (.error e, p')

theorem throws_error {e : String} (hf : f p.toWorld = (.error e, w')) :
    Throws base op refusal copied read f p (Utf16.encode (op ++ " failed: ") ++ errorMessage e)
      { p with toWorld := { w' with lastError := e } } :=
  Or.inl (by simp [liftWorld, hf, checked, handedOut, World.setError])

theorem throws_refusal {x : R} (hf : f p.toWorld = (.ok x, w')) (hx : copied x ≠ [])
    (hrefused : ∃ a, base.grants a = false) :
    Throws base op refusal copied read f p
      (Utf16.encode (op ++ " failed: ") ++ errorMessage refusal)
      { p with toWorld := { w' with lastError := refusal } } :=
  Or.inr ⟨hrefused, by simp [liftWorld, hf, checked, handedOut, hx, World.setError]⟩

theorem returns_ok {x : R} (hf : f p.toWorld = (.ok x, w')) :
    liftWorld (fun w ↦ checked op read (handedOut refusal copied true (f w))) p =
      (.ok (read x), { p with toWorld := w' }) := by
  simp [liftWorld, hf, checked, handedOut]

theorem spec_answer {rest : R → Native H Unit} {next : Native H α}
    {Q : α → Process H → Heap Block → Prop} {K : Heap Block → Prop}
    (hf : f p.toWorld = (r, w')) (ho : Owns base ((out, .ownedBytes none 0) :: ps) h)
    (hkept : ∀ h', Owns base ((out, .ownedBytes none 0) :: ps) h' → K h')
    (hrest : ∀ x, r = .ok x → ∀ ptr h', Owns base (ownedBlocks out ptr (copied x) ++ ps) h' →
      (ptr = none ↔ copied x = []) →
      Spec (rest x) (fun _ ↦ Spec next Q fun e p' h' ↦
        Throws base op refusal copied read f p e p' ∧ K h') (fun e p' h' ↦
        Throws base op refusal copied read f p e p' ∧ K h') { p with toWorld := w' } h') :
    Spec (answer out refusal copied rest r)
      (fun rc ↦ Spec (do checkRc rc op; next) Q fun e p' h' ↦
        Throws base op refusal copied read f p e p' ∧ K h')
      (fun e p' h' ↦ Throws base op refusal copied read f p e p' ∧ K h')
      { p with toWorld := w' } h := by
  cases r with
  | error e =>
    unfold answer refuseCall setError
    refine spec_bind (spec_world (spec_pure (spec_bind (spec_checkRc (fun hok ↦ ?_) fun _ ↦ ?_))))
    · exact absurd hok (by decide)
    · exact ⟨throws_error hf, hkept h ho⟩
  | ok x =>
    refine spec_handOut ho (fun ptr h' ho' hptr ↦ ?_) fun h' ho' hne hrefused ↦ ?_
    · refine (hrest x rfl ptr h' ho' hptr).mono (fun _ p' h'' hnext ↦ ?_) fun _ _ _ he ↦ he
      exact spec_bind (spec_checkRc (fun _ ↦ hnext) fun hne ↦ absurd rfl hne)
    · refine spec_bind (spec_checkRc (fun hok ↦ absurd hok (by decide)) fun _ ↦ ?_)
      exact ⟨throws_refusal hf hne hrefused, hkept h' ho'⟩

/-- The `catch` and the `finally` around it. -/
theorem spec_guarded {body : Native H S} {clean : Native H Unit} (K : Heap Block → Prop)
    (hheld : ∀ h', K h' → ∃ qs, Owns base ((out, .ownedBytes none 0) :: qs) h')
    (hbody : Spec body
      (fun a p' h' ↦ liftWorld (fun w ↦
        checked op read (handedOut refusal copied true (f w))) p = (.ok a, p') ∧ K h')
      (fun e p' h' ↦ Throws base op refusal copied read f p e p' ∧ K h') w h)
    (hclean : ∀ w' h', K h' →
      Spec clean (fun _ w'' h'' ↦ w'' = w' ∧ Owns base [] h'') (fun _ _ _ ↦ False) w' h') :
    Spec (ensure (rescue body (freeOwned out)) clean)
      (fun a p' h' ↦ Owns base [] h' ∧ liftWorld (fun w ↦
        checked op read (handedOut refusal copied true (f w))) p = (.ok a, p'))
      (fun e p' h' ↦ (Owns base [] h' ∧ Throws base op refusal copied read f p e p') ∨
        OutOfMemory base p e p' h') w h := by
  refine (spec_finally K (spec_rescue (hbody.mono (fun _ _ _ hend ↦ hend) ?_)) hclean).mono
    (fun _ _ _ hend ↦ hend) fun _ _ _ hend ↦ Or.inl hend
  intro e p' h' hthrown
  obtain ⟨qs, ho⟩ := hheld h' hthrown.2
  exact spec_freeOwned ho hthrown

end Answer

variable (k : Snapshots H)

theorem snapshot_refines (vm : AgentOsVm) :
    RefinesOr (snapshot k vm) fun granted ↦ liftWorld (plainSnapshot k vm granted) := by
  refine refinesOr_ensureOpen fun p h ↦ ?_
  refine spec_prepare (spec_mallocBytes (Owns.start h) fun out h₁ ho₁ ↦ ?_)
  refine spec_guarded (fun h' ↦ Owns h [(out, .ownedBytes none 0)] h') (fun h' ho ↦ ⟨[], ho⟩) ?_ ?_
  · unfold aosVmSnapshot
    refine spec_bind (spec_bind (spec_world ?_))
    refine spec_answer (K := fun h' ↦ Owns h [(out, .ownedBytes none 0)] h') rfl ho₁
      (fun h' ho ↦ ho) fun bytes hbytes ptr h' ho hptr ↦ spec_pure ?_
    exact spec_takeAosBytes ho hptr fun h'' ho' ↦ ⟨returns_ok (Prod.ext hbytes rfl), ho'⟩
  · exact fun p' h' ho ↦ spec_free ho fun h'' ho' ↦ ⟨rfl, ho'⟩

theorem copyAt_of_dataBlocks {qs : List (ℕ × Block)} (hsub : dataBlocks ptr data ⊆ qs)
    (hptr : ptr = none ↔ data = []) : ExecCalls.CopyAt qs (allocBytes data) ptr := by
  cases ptr with
  | none => exact Or.inl ⟨if_pos (hptr.mp rfl), rfl⟩
  | some a =>
    have hne : data ≠ [] := fun hnil ↦ Option.some_ne_none a (hptr.mpr hnil)
    exact Or.inr ⟨a, data, if_neg hne, rfl, hsub List.mem_cons_self⟩

theorem snapshotIncremental_refines (vm : AgentOsVm) (base : Bytes) :
    RefinesOr (snapshotIncremental k vm base) fun granted ↦
      liftWorld (plainIncremental k vm base granted) := by
  refine refinesOr_ensureOpen fun p h ↦ ?_
  refine spec_prepare (spec_allocData (Owns.start h) fun basePtr h₁ ho₁ hbase ↦ ?_)
  refine spec_prepare (spec_mallocBytes ho₁ fun out h₂ ho₂ ↦ ?_)
  let ps := dataBlocks basePtr base ++ []
  refine spec_guarded (fun h' ↦ Owns h ((out, .ownedBytes none 0) :: ps) h')
    (fun h' ho ↦ ⟨ps, ho⟩) ?_ ?_
  · unfold aosVmSnapshotIncremental
    have hcopy : ExecCalls.CopyAt ((out, .ownedBytes none 0) :: ps) (allocBytes base) basePtr :=
      copyAt_of_dataBlocks (fun x hx ↦ by simp [ps, hx]) hbase
    have hlen (bytes : Bytes) (hbytes : bytes ∈ allocBytes base) : base.length = bytes.length := by
      obtain ⟨-, hdata⟩ := Option.ite_none_left_eq_some.mp (Option.mem_def.mp hbytes)
      rw [Option.some_inj.mp hdata]
    refine spec_bind ((ExecCalls.spec_derefSlice ho₂ hcopy hlen).bind fun data p' h' hr ↦ ?_)
    obtain ⟨rfl, rfl, rfl⟩ := hr
    refine spec_bind (spec_world ?_)
    refine spec_answer (K := fun h' ↦ Owns h ((out, .ownedBytes none 0) :: ps) h') rfl ho₂
      (fun h' ho ↦ ho) fun bytes hbytes ptr h' ho hptr ↦ spec_pure ?_
    exact spec_takeAosBytes ho hptr fun h'' ho' ↦ ⟨returns_ok (Prod.ext hbytes rfl), ho'⟩
  · intro p' h' ho
    have hfront : ((out, Block.ownedBytes none 0) :: ps).Perm
        (dataBlocks basePtr base ++ [(out, .ownedBytes none 0)]) := by
      unfold ps
      rw [List.append_nil]
      exact (List.perm_append_singleton ..).symm
    refine spec_bind (spec_freeNonNull (ho.perm hfront) fun h₃ ho₃ ↦ ?_)
    exact spec_free ho₃ fun h'' ho' ↦ ⟨rfl, ho'⟩

/-- The layer and its digest: the copy of the layer is given back also where the buffer of the
digest is too small. -/
theorem commitLayer_refines (vm : AgentOsVm) (digestCap : Int64) (fresh : Fresh) :
    RefinesOr (commitLayer k vm digestCap fresh) fun granted ↦
      liftWorld (plainCommit k vm digestCap fresh granted) := by
  refine refinesOr_ensureOpen fun p h ↦ ?_
  refine spec_prepare (spec_mallocBytes (Owns.start h) fun out h₁ ho₁ ↦ ?_)
  refine spec_prepare (spec_allocAosBuf ho₁ fun dp dr h₂ ho₂ ↦ ?_)
  let K (h' : Heap Block) : Prop :=
    ∃ b, Owns h ((out, .ownedBytes none 0) :: bufBlocks dp dr b) h'
  have hback {b : Host.Buf.AosBuf} {h' : Heap Block} {o : Block}
      (ho : Owns h (bufBlocks dp dr b ++ [(out, o)]) h') :
      Owns h ((out, o) :: bufBlocks dp dr b) h' := ho.perm (List.perm_append_singleton ..)
  refine spec_guarded K (fun h' ⟨b, ho⟩ ↦ ⟨_, ho⟩) ?_ ?_
  · unfold aosVmCommitLayer
    refine spec_bind (spec_bind (spec_world ?_))
    refine spec_answer (K := K) rfl (hback ho₂) (fun h' ho ↦ ⟨_, ho⟩)
      fun layer hlayer ptr h' ho hptr ↦ ?_
    refine spec_bind (spec_fillBuf (ho.perm List.perm_append_comm) fun _ b h₃ hfill ho₃ ↦ ?_)
    refine spec_pure ?_
    refine spec_bind (spec_takeAosBytes (ho₃.perm List.perm_append_comm) hptr fun h₄ ho₄ ↦ ?_)
    refine (spec_copyFromAosBuf ho₄ (List.subset_cons_self ..)).bind fun bytes p' h₅ hr ↦ ?_
    obtain ⟨rfl, rfl, rfl⟩ := hr
    have hread : readCommit digestCap fresh layer = ⟨layer.1, Bindings.copyFromAosBuf b⟩ := by
      simp only [readCommit, hfill]
      rfl
    refine spec_pure ⟨?_, b, ho₄⟩
    rw [← hread]
    exact returns_ok (Prod.ext hlayer rfl)
  · intro p' h' hheld
    obtain ⟨b, ho⟩ := hheld
    refine spec_bind (spec_free ho fun h₃ ho₃ ↦ ?_)
    exact spec_freeAosBuf (by simpa using ho₃) fun h'' ho' ↦ ⟨rfl, ho'⟩

end Specs

end MachineNotebook.Dart.SnapshotCalls
