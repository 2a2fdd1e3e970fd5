import MachineNotebook.Dart.NativeBuffers
import MachineNotebook.Dart.Vm

namespace MachineNotebook.Dart.ExecCalls

open MachineNotebook.Lib MachineNotebook.Lib.Utf8 MachineNotebook.Lib.HeapLogic
open MachineNotebook.Lib.HeapLogic.Prog Bindings NativeMemory NativeBuffers
open Host.Boot (Process)
open Host.VmTable Host.KernelHost Host.Exec
open Vm (AgentOsVm AgentOsExecOptions AgentOsExecResult FreshExec Outcome)

structure ExecOptsNative where
  ptr : ℕ
  owned : List ℕ

structure ArgvNative where
  ptr : ℕ
  argc : ℕ
  owned : List ℕ

variable {H : Type}

section Pack

def setCwd (a : ℕ) (o : NativeMemory.AosExecOpts) : NativeMemory.AosExecOpts :=
  { o with cwd := some a }

def setEnvBlob (len a : ℕ) (o : NativeMemory.AosExecOpts) : NativeMemory.AosExecOpts :=
  { o with envBlob := some a, envBlobLen := len }

def setStdinData (len a : ℕ) (o : NativeMemory.AosExecOpts) : NativeMemory.AosExecOpts :=
  { o with stdinData := some a, stdinLen := len }

def packCopy (p : ℕ) (data : Option Bytes)
    (set : ℕ → NativeMemory.AosExecOpts → NativeMemory.AosExecOpts) (owned : List ℕ) :
    Native H (List ℕ) :=
  match data with
  | none => pure owned
  | some data => do
    let a ← mallocBytes (.bytes data)
    modify p (Block.mapExecOpts (set a))
    return owned ++ [a]

def cwdCString (opts : AgentOsExecOptions) : Option Bytes :=
  opts.cwd.bind fun s ↦ if s = [] then none else some (allocCString s)

def packExecOpts (opts : Option AgentOsExecOptions) : Native H (Option ExecOptsNative) :=
  match opts with
  | none => pure none
  | some opts => do
    let p ← mallocBytes (.execOpts { maxTicks := opts.maxTicks.toUInt64 })
    let owned ← packCopy p (cwdCString opts) setCwd []
    let owned ← packCopy p (opts.envBlob.bind allocBytes)
      (setEnvBlob (opts.envBlob.getD []).length) owned
    let owned ← packCopy p (opts.stdinData.bind allocBytes)
      (setStdinData (opts.stdinData.getD []).length) owned
    return some ⟨p, owned⟩

def freePacked (packed : Option ExecOptsNative) : Native H Unit :=
  match packed with
  | none => pure ()
  | some packed => freeAll (packed.owned ++ [packed.ptr])

def packArgvLoop (p : ℕ) : ℕ → List DartString → List ℕ → Native H (List ℕ)
  | _, [], owned => pure owned
  | i, arg :: rest, owned => do
    let s ← mallocBytes (.bytes (allocCString arg))
    modify p (Block.setPointer i (some s))
    packArgvLoop p (i + 1) rest (owned ++ [s])

def packArgv (argv : List DartString) : Native H ArgvNative := do
  let p ← mallocBytes (.pointers (List.replicate argv.length none))
  let owned ← packArgvLoop p 0 argv []
  return ⟨p, argv.length, owned⟩

def freeArgv (packed : ArgvNative) : Native H Unit := freeAll (packed.owned ++ [packed.ptr])

end Pack

/-! The library looks at the memory of its arguments, and then does as `Host.Exec` says. -/

section Host

def derefCString (p : Ptr) : Native H (Option Bytes) :=
  match p with
  | none => pure none
  | some a => do
    let s ← readCString a
    return some s

def derefSlice (p : Ptr) (len : ℕ) : Native H (Option Bytes) :=
  match p with
  | none => pure none
  | some a => do
    let data ← readSlice a len
    return some data

def derefExecOpts (p : Ptr) : Native H (Option Host.Exec.AosExecOpts) :=
  match p with
  | none => pure none
  | some p => do
    let block ← load p
    let o ← expect block.asExecOpts
    let cwd ← derefCString o.cwd
    let envBlob ← derefSlice o.envBlob o.envBlobLen
    let stdinData ← derefSlice o.stdinData o.stdinLen
    return some
      { cwd, envBlob, envBlobLen := o.envBlobLen, stdinData, stdinLen := o.stdinLen,
        maxTicks := o.maxTicks }

def derefArgv (argv : ℕ) : ℕ → ℕ → List (Option Bytes) → Native H (List (Option Bytes))
  | 0, _, out => pure out
  | count + 1, i, out => do
    let slots ← load argv
    let p ← expect (slots.pointerAt i)
    let s ← derefCString p
    derefArgv argv count (i + 1) (out ++ [s])

def liftWorld {α : Type} (f : World H → α × World H) (p : Process H) : α × Process H :=
  ((f p.toWorld).1, { p with toWorld := (f p.toWorld).2 })

def storeInt32 (out : Ptr) (n : Int32) : Native H Unit :=
  match out with
  | none => pure ()
  | some a => modify a fun _ ↦ .int32 (some n)

def answerExec (stdoutB stderrB outExit : Ptr) (r : Except String ExecResult) : Native H Int32 :=
  match r with
  | .ok result => do
    let _ ← fillBuf stdoutB result.stdout
    let _ ← fillBuf stderrB result.stderr
    storeInt32 outExit result.exitCode
    return 0
  | .error e => refuseCall e

variable (k : Kernel H)

def requestExecEx (vm : UInt64) (cmd opts : Ptr) : Native H (Except String ExecResult) := do
  let cmd ← derefCString cmd
  let opts ← derefExecOpts opts
  world (liftWorld fun w ↦ execExRequest k vm cmd opts w.clearError)

def requestRun (vm : UInt64) (program : Ptr) (argv argc : ℕ) (opts : Ptr) :
    Native H (Except String ExecResult) := do
  let program ← derefCString program
  let args ← derefArgv argv argc 0 []
  let opts ← derefExecOpts opts
  world (liftWorld fun w ↦ runRequest k vm program (some args) argc opts w.clearError)

def aosVmExecEx (vm : UInt64) (cmd opts stdoutB stderrB outExit : Ptr) : Native H Int32 := do
  let r ← requestExecEx k vm cmd opts
  answerExec stdoutB stderrB outExit r

def aosVmRun (vm : UInt64) (program : Ptr) (argv argc : ℕ) (opts stdoutB stderrB outExit : Ptr) :
    Native H Int32 := do
  let r ← requestRun k vm program argv argc opts
  answerExec stdoutB stderrB outExit r

end Host

section Dart

def readInt32 (out : ℕ) : Native H Int32 := do
  let slot ← load out
  expect slot.asInt32

def readResult (stdoutB stderrB outExit : ℕ) : Native H AgentOsExecResult := do
  let exitCode ← readInt32 outExit
  let stdout ← copyFromAosBuf stdoutB
  let stderr ← copyFromAosBuf stderrB
  return { exitCode, stdout, stderr }

/-- What `execEx` and `run` do once their arguments are packed. -/
def collect (op : String) (call : Ptr → Ptr → Ptr → Native H Int32) (freeArgs : Native H Unit)
    (stdoutCap stderrCap : Int64) (fresh : FreshExec) : Native H AgentOsExecResult := do
  let stdoutB ← NativeBuffers.allocAosBuf stdoutCap fresh.stdoutB
  let stderrB ← NativeBuffers.allocAosBuf stderrCap fresh.stderrB
  let outExit ← mallocBytes (.int32 none)
  ensure
    (do
      let rc ← call (some stdoutB) (some stderrB) (some outExit)
      checkRc rc op
      readResult stdoutB stderrB outExit)
    (do
      freeArgs
      freeAosBuf stdoutB
      freeAosBuf stderrB
      free outExit)

def ensureOpen {α : Type} (vm : AgentOsVm) (body : Native H α) : Native H α :=
  if vm.closed then throw (Utf16.encode "AgentOsVm is closed") else body

variable (k : Kernel H)

def execEx (vm : AgentOsVm) (cmd : DartString) (opts : Option AgentOsExecOptions)
    (stdoutCap stderrCap : Int64) (fresh : FreshExec) : Native H AgentOsExecResult :=
  ensureOpen vm do
    let cmdPtr ← mallocBytes (.bytes (allocCString cmd))
    let packed ← packExecOpts opts
    collect "aos_vm_exec_ex" (aosVmExecEx k vm.handle (some cmdPtr) (packed.map ExecOptsNative.ptr))
      (do
        free cmdPtr
        freePacked packed)
      stdoutCap stderrCap fresh

def run (vm : AgentOsVm) (program : DartString) (argv : List DartString)
    (opts : Option AgentOsExecOptions) (stdoutCap stderrCap : Int64) (fresh : FreshExec) :
    Native H AgentOsExecResult :=
  ensureOpen vm do
    let progPtr ← mallocBytes (.bytes (allocCString program))
    let packedArgv ← packArgv argv
    let packed ← packExecOpts opts
    collect "aos_vm_run"
      (aosVmRun k vm.handle (some progPtr) packedArgv.ptr packedArgv.argc
        (packed.map ExecOptsNative.ptr))
      (do
        free progPtr
        freeArgv packedArgv
        freePacked packed)
      stdoutCap stderrCap fresh

end Dart

/-- A copy lies where a pointer says, or there is none and the pointer is null. -/
def CopyAt (ps : List (ℕ × Block)) (data : Option Bytes) (ptr : Ptr) : Prop :=
  (data = none ∧ ptr = none) ∨ ∃ a bytes, data = some bytes ∧ ptr = some a ∧ (a, .bytes bytes) ∈ ps

section PackSpec

variable {base h : Heap Block} {ps qs : List (ℕ × Block)} {w : Process H} {p : ℕ}
  {o o' : NativeMemory.AosExecOpts} {owned : List ℕ} {new : List (ℕ × Block)}
  {set : ℕ → NativeMemory.AosExecOpts → NativeMemory.AosExecOpts} {data : Option Bytes}

theorem CopyAt.mono {ptr : Ptr} (hc : CopyAt ps data ptr) (hsub : ps ⊆ qs) : CopyAt qs data ptr :=
  hc.imp_right fun ⟨a, bytes, hdata, hptr, hmem⟩ ↦ ⟨a, bytes, hdata, hptr, hsub hmem⟩

def CopySet (data : Option Bytes) (set : ℕ → NativeMemory.AosExecOpts → NativeMemory.AosExecOpts)
    (o o' : NativeMemory.AosExecOpts) (new : List (ℕ × Block)) : Prop :=
  (data = none ∧ o' = o ∧ new = []) ∨
    ∃ a bytes, data = some bytes ∧ o' = set a o ∧ new = [(a, .bytes bytes)]

theorem CopySet.proj {α : Type} (hs : CopySet data set o o' new)
    (f : NativeMemory.AosExecOpts → α) (hf : ∀ a, f (set a o) = f o) : f o' = f o := by
  rcases hs with ⟨-, rfl, -⟩ | ⟨a, bytes, -, rfl, -⟩
  · rfl
  · exact hf a

theorem CopySet.copyAt (hs : CopySet data set o o' new) (ptr : NativeMemory.AosExecOpts → Ptr)
    (hptr : ∀ a, ptr (set a o) = some a) (hnull : ptr o = none) : CopyAt new data (ptr o') := by
  rcases hs with ⟨hdata, rfl, -⟩ | ⟨a, bytes, hdata, rfl, rfl⟩
  · exact Or.inl ⟨hdata, hnull⟩
  · exact Or.inr ⟨a, bytes, hdata, hptr a, List.mem_cons_self⟩

theorem spec_packCopy (ho : Owns base ((p, .execOpts o) :: qs) h) :
    Spec (packCopy p data set owned)
      (fun owned' w' h' ↦ w' = w ∧ ∃ o' new, Owns base ((p, .execOpts o') :: (new ++ qs)) h' ∧
        owned' = owned ++ new.map Prod.fst ∧ CopySet data set o o' new)
      (OutOfMemory base w) w h := by
  cases data with
  | none => exact spec_pure ⟨rfl, o, [], ho, (List.append_nil _).symm, Or.inl ⟨rfl, rfl, rfl⟩⟩
  | some bytes =>
    unfold packCopy
    refine spec_bind (spec_mallocBytes ho fun a h₁ ho₁ ↦ ?_)
    refine spec_bind (spec_modify (ho₁.perm (List.Perm.swap ..)) fun h₂ ho₂ ↦ ?_)
    exact spec_pure ⟨rfl, _, [(a, .bytes bytes)], ho₂, rfl, Or.inr ⟨a, bytes, rfl, rfl, rfl⟩⟩

structure OptsAt (ps : List (ℕ × Block)) (opts : AgentOsExecOptions)
    (o : NativeMemory.AosExecOpts) : Prop where
  cwd : CopyAt ps (cwdCString opts) o.cwd
  envBlob : CopyAt ps (opts.envBlob.bind allocBytes) o.envBlob
  stdinData : CopyAt ps (opts.stdinData.bind allocBytes) o.stdinData
  envBlobLen : o.envBlobLen = (opts.envBlob.getD []).length
  stdinLen : o.stdinLen = (opts.stdinData.getD []).length
  maxTicks : o.maxTicks = opts.maxTicks.toUInt64

theorem CopySet.length {blob : Option Bytes} (hs : CopySet (blob.bind allocBytes) set o o' new)
    (len : NativeMemory.AosExecOpts → ℕ) (hlen : ∀ a, len (set a o) = (blob.getD []).length)
    (hzero : len o = 0) : len o' = (blob.getD []).length := by
  rcases hs with ⟨hdata, rfl, -⟩ | ⟨a, bytes, -, rfl, -⟩
  · cases blob with
    | none => exact hzero
    | some bytes =>
      have hnil : bytes = [] := by simpa [allocBytes] using hdata
      rw [hzero, hnil, Option.getD_some, List.length_nil]
  · exact hlen a

def PackedAs (opts : Option AgentOsExecOptions) (packed : Option ExecOptsNative)
    (blocks : List (ℕ × Block)) : Prop :=
  match opts, packed with
  | none, none => blocks = []
  | some opts, some packed =>
    ∃ o new, blocks = (packed.ptr, .execOpts o) :: new ∧ packed.owned.Perm (new.map Prod.fst) ∧
      OptsAt new opts o
  | _, _ => False

theorem spec_packExecOpts {opts : Option AgentOsExecOptions} (ho : Owns base qs h) :
    Spec (packExecOpts opts)
      (fun packed w' h' ↦ w' = w ∧ ∃ blocks, Owns base (blocks ++ qs) h' ∧
        PackedAs opts packed blocks)
      (OutOfMemory base w) w h := by
  cases opts with
  | none => exact spec_pure ⟨rfl, [], ho, rfl⟩
  | some opts =>
    unfold packExecOpts
    refine spec_bind (spec_mallocBytes ho fun p h₀ ho₀ ↦ ?_)
    refine (spec_packCopy ho₀).bind fun owned₁ w' h₁ hcwd ↦ ?_
    obtain ⟨rfl, o₁, new₁, ho₁, rfl, hcwd⟩ := hcwd
    refine (spec_packCopy ho₁).bind fun owned₂ w' h₂ henv ↦ ?_
    obtain ⟨rfl, o₂, new₂, ho₂, rfl, henv⟩ := henv
    refine (spec_packCopy ho₂).bind fun owned₃ w' h₃ hstdin ↦ ?_
    obtain ⟨rfl, o₃, new₃, ho₃, rfl, hstdin⟩ := hstdin
    refine spec_pure ⟨rfl, (p, .execOpts o₃) :: (new₃ ++ new₂ ++ new₁), ?_, o₃, _, rfl, ?_, ?_⟩
    · simpa using ho₃
    · refine List.perm_iff_count.mpr fun a ↦ ?_
      simp only [List.map_append, List.count_append, List.count_nil]
      omega
    · have hcwdAt : CopyAt new₁ (cwdCString opts) o₃.cwd := by
        rw [hstdin.proj AosExecOpts.cwd fun _ ↦ rfl, henv.proj AosExecOpts.cwd fun _ ↦ rfl]
        exact hcwd.copyAt AosExecOpts.cwd (fun _ ↦ rfl) rfl
      have henvAt : CopyAt new₂ (opts.envBlob.bind allocBytes) o₃.envBlob := by
        rw [hstdin.proj AosExecOpts.envBlob fun _ ↦ rfl]
        refine henv.copyAt AosExecOpts.envBlob (fun _ ↦ rfl) ?_
        exact hcwd.proj AosExecOpts.envBlob fun _ ↦ rfl
      have hstdinAt : CopyAt new₃ (opts.stdinData.bind allocBytes) o₃.stdinData := by
        refine hstdin.copyAt AosExecOpts.stdinData (fun _ ↦ rfl) ?_
        rw [henv.proj AosExecOpts.stdinData fun _ ↦ rfl]
        exact hcwd.proj AosExecOpts.stdinData fun _ ↦ rfl
      refine ⟨hcwdAt.mono fun x hx ↦ by simp [hx], henvAt.mono fun x hx ↦ by simp [hx],
        hstdinAt.mono fun x hx ↦ by simp [hx], ?_, ?_, ?_⟩
      · rw [hstdin.proj AosExecOpts.envBlobLen fun _ ↦ rfl]
        refine henv.length AosExecOpts.envBlobLen (fun _ ↦ rfl) ?_
        exact hcwd.proj AosExecOpts.envBlobLen fun _ ↦ rfl
      · refine hstdin.length AosExecOpts.stdinLen (fun _ ↦ rfl) ?_
        rw [henv.proj AosExecOpts.stdinLen fun _ ↦ rfl]
        exact hcwd.proj AosExecOpts.stdinLen fun _ ↦ rfl
      · rw [hstdin.proj AosExecOpts.maxTicks fun _ ↦ rfl, henv.proj AosExecOpts.maxTicks fun _ ↦ rfl]
        exact hcwd.proj AosExecOpts.maxTicks fun _ ↦ rfl

theorem spec_freePacked {opts : Option AgentOsExecOptions} {packed : Option ExecOptsNative}
    {blocks : List (ℕ × Block)} {Q : Unit → Process H → Heap Block → Prop}
    {E : DartString → Process H → Heap Block → Prop} (ho : Owns base (blocks ++ qs) h)
    (hpacked : PackedAs opts packed blocks) (hQ : ∀ h', Owns base qs h' → Q () w h') :
    Spec (freePacked packed) Q E w h := by
  cases packed with
  | none =>
    cases opts with
    | none =>
      obtain rfl : blocks = [] := hpacked
      exact spec_pure (hQ h ho)
    | some opts => exact hpacked.elim
  | some packed =>
    cases opts with
    | none => exact hpacked.elim
    | some opts =>
      obtain ⟨o, new, rfl, hperm, -⟩ := hpacked
      have haddresses : (packed.ptr :: new.map Prod.fst).Perm (packed.owned ++ [packed.ptr]) :=
        (hperm.symm.cons packed.ptr).trans (List.perm_append_singleton ..).symm
      exact spec_freeAll ho haddresses hQ

def ArgvAt (ps : List (ℕ × Block)) (slots : List Ptr) (argv : List DartString) : Prop :=
  List.Forall₂ (fun slot arg ↦ CopyAt ps (some (allocCString arg)) slot) slots argv

theorem spec_packArgvLoop (front : List (Option Ptr)) {i : ℕ} {argv : List DartString}
    (ho : Owns base ((p, .pointers (front ++ List.replicate argv.length none)) :: qs) h)
    (hfront : front.length = i) :
    Spec (packArgvLoop p i argv owned)
      (fun owned' w' h' ↦ w' = w ∧ ∃ filled new,
        Owns base ((p, .pointers (front ++ filled.map some)) :: (new ++ qs)) h' ∧
        owned'.Perm (owned ++ new.map Prod.fst) ∧ ArgvAt new filled argv)
      (OutOfMemory base w) w h := by
  induction argv generalizing i front qs owned h with
  | nil => exact spec_pure ⟨rfl, [], [], by simpa using ho, by simp, List.Forall₂.nil⟩
  | cons arg rest ih =>
    have hset (slot : Ptr) : Block.setPointer i slot
        (.pointers (front ++ List.replicate (arg :: rest).length none)) =
          .pointers ((front ++ [some slot]) ++ List.replicate rest.length none) := by
      simp [Block.setPointer, ← hfront, List.replicate_succ]
    unfold packArgvLoop
    refine spec_bind (spec_mallocBytes ho fun s h₁ ho₁ ↦ ?_)
    refine spec_bind (spec_modify (ho₁.perm (List.Perm.swap ..)) fun h₂ ho₂ ↦ ?_)
    rw [hset] at ho₂
    refine (ih _ ho₂ (by simp [hfront])).mono ?_ fun _ _ _ he ↦ he
    intro owned' w' h' hpacked
    obtain ⟨rfl, filled, new, ho', hperm, hfilled⟩ := hpacked
    refine ⟨rfl, some s :: filled, new ++ [(s, .bytes (allocCString arg))], ?_, ?_, ?_⟩
    · simpa using ho'
    · refine hperm.trans ?_
      simp only [List.append_assoc, List.map_append, List.map_cons, List.map_nil]
      exact List.perm_append_comm.append_left owned
    · refine List.Forall₂.cons (Or.inr ⟨s, _, rfl, rfl, by simp⟩) (hfilled.imp fun _ _ hl ↦ ?_)
      exact hl.mono (List.subset_append_left _ _)

def ArgvPackedAs (argv : List DartString) (packed : ArgvNative) (blocks : List (ℕ × Block)) :
    Prop :=
  ∃ slots new, blocks = (packed.ptr, .pointers (slots.map some)) :: new ∧
    packed.owned.Perm (new.map Prod.fst) ∧ packed.argc = argv.length ∧ ArgvAt new slots argv

theorem spec_packArgv {argv : List DartString} (ho : Owns base qs h) :
    Spec (packArgv argv)
      (fun packed w' h' ↦ w' = w ∧ ∃ blocks, Owns base (blocks ++ qs) h' ∧
        ArgvPackedAs argv packed blocks)
      (OutOfMemory base w) w h := by
  unfold packArgv
  refine spec_bind (spec_mallocBytes ho fun p h₁ ho₁ ↦ ?_)
  refine (spec_packArgvLoop [] ho₁ rfl).bind fun owned w' h' hpacked ↦ ?_
  obtain ⟨rfl, filled, new, ho', hperm, hfilled⟩ := hpacked
  exact spec_pure ⟨rfl, _, ho', filled, new, rfl, hperm, rfl, hfilled⟩

theorem spec_freeArgv {argv : List DartString} {packed : ArgvNative} {blocks : List (ℕ × Block)}
    {Q : Unit → Process H → Heap Block → Prop} {E : DartString → Process H → Heap Block → Prop}
    (ho : Owns base (blocks ++ qs) h) (hpacked : ArgvPackedAs argv packed blocks)
    (hQ : ∀ h', Owns base qs h' → Q () w h') : Spec (freeArgv packed) Q E w h := by
  obtain ⟨slots, new, rfl, hperm, -, -⟩ := hpacked
  have haddresses : (packed.ptr :: new.map Prod.fst).Perm (packed.owned ++ [packed.ptr]) :=
    (hperm.symm.cons packed.ptr).trans (List.perm_append_singleton ..).symm
  exact spec_freeAll ho haddresses hQ

end PackSpec

section ReadSpec

variable {base h : Heap Block} {ps qs : List (ℕ × Block)} {w : Process H}
  {E : DartString → Process H → Heap Block → Prop}

theorem spec_derefCString {data : Option Bytes} {ptr : Ptr} (ho : Owns base ps h)
    (hat : CopyAt ps data ptr) (hnul : ∀ bytes ∈ data, 0 ∈ bytes) :
    Spec (derefCString ptr) (Reads w h data) E w h := by
  rcases hat with ⟨rfl, rfl⟩ | ⟨a, bytes, rfl, rfl, hmem⟩
  · exact spec_pure ⟨rfl, rfl, rfl⟩
  · have hzero : (0 : UInt8) ∈ bytes := hnul bytes rfl
    unfold derefCString readCString
    refine spec_bind (spec_bind (spec_load ho hmem ?_))
    exact spec_expect (by simp [Block.asBytes, hzero]) (spec_pure ⟨rfl, rfl, rfl⟩)

theorem spec_derefSlice {data : Option Bytes} {ptr : Ptr} {len : ℕ} (ho : Owns base ps h)
    (hat : CopyAt ps data ptr) (hlen : ∀ bytes ∈ data, len = bytes.length) :
    Spec (derefSlice ptr len) (Reads w h data) E w h := by
  rcases hat with ⟨rfl, rfl⟩ | ⟨a, bytes, rfl, rfl, hmem⟩
  · exact spec_pure ⟨rfl, rfl, rfl⟩
  · exact spec_bind (spec_readSlice ho hmem (hlen bytes rfl) (spec_pure ⟨rfl, rfl, rfl⟩))

theorem nul_mem_allocCString (s : DartString) : 0 ∈ allocCString s := by simp [allocCString]

theorem nul_mem_cwdCString {opts : AgentOsExecOptions} {bytes : Bytes}
    (hcwd : bytes ∈ cwdCString opts) : 0 ∈ bytes := by
  obtain ⟨s, -, hs⟩ := Option.bind_eq_some_iff.mp (Option.mem_def.mp hcwd)
  obtain ⟨-, hs⟩ := Option.ite_none_left_eq_some.mp hs
  rw [← Option.some_inj.mp hs]
  exact nul_mem_allocCString s

theorem length_of_allocBytes {blob : Option Bytes} {bytes : Bytes}
    (hblob : bytes ∈ blob.bind allocBytes) : (blob.getD []).length = bytes.length := by
  obtain ⟨data, rfl, hdata⟩ := Option.bind_eq_some_iff.mp (Option.mem_def.mp hblob)
  obtain ⟨-, hdata⟩ := Option.ite_none_left_eq_some.mp hdata
  rw [Option.getD_some, Option.some_inj.mp hdata]

theorem spec_derefExecOpts {opts : Option AgentOsExecOptions} {packed : Option ExecOptsNative}
    {blocks : List (ℕ × Block)} (ho : Owns base ps h) (hpacked : PackedAs opts packed blocks)
    (hsub : blocks ⊆ ps) :
    Spec (derefExecOpts (packed.map ExecOptsNative.ptr)) (Reads w h (opts.map Vm.packExecOpts)) E w
      h := by
  cases packed with
  | none =>
    cases opts with
    | none => exact spec_pure ⟨rfl, rfl, rfl⟩
    | some opts => exact hpacked.elim
  | some packed =>
    cases opts with
    | none => exact hpacked.elim
    | some opts =>
      obtain ⟨o, new, rfl, -, hat⟩ := hpacked
      have hnew : new ⊆ ps := List.Subset.trans (List.subset_cons_self ..) hsub
      unfold derefExecOpts
      refine spec_bind (spec_load ho (hsub List.mem_cons_self) (spec_bind (spec_expect rfl ?_)))
      refine (spec_derefCString ho (hat.cwd.mono hnew) fun _ ↦ nul_mem_cwdCString).bind
        fun cwd w' h' hread ↦ ?_
      obtain ⟨rfl, rfl, rfl⟩ := hread
      refine (spec_derefSlice ho (hat.envBlob.mono hnew) fun bytes hbytes ↦
        hat.envBlobLen.trans (length_of_allocBytes hbytes)).bind fun env w' h' hread ↦ ?_
      obtain ⟨rfl, rfl, rfl⟩ := hread
      refine (spec_derefSlice ho (hat.stdinData.mono hnew) fun bytes hbytes ↦
        hat.stdinLen.trans (length_of_allocBytes hbytes)).bind fun stdin w' h' hread ↦ ?_
      obtain ⟨rfl, rfl, rfl⟩ := hread
      refine spec_pure ⟨?_, rfl, rfl⟩
      rw [hat.envBlobLen, hat.stdinLen, hat.maxTicks]
      rfl

theorem spec_derefArgv (front : List Ptr) (out : List (Option Bytes)) {p i : ℕ} {slots : List Ptr}
    {argv : List DartString} (ho : Owns base ps h)
    (hp : (p, .pointers ((front ++ slots).map some)) ∈ ps) (hat : ArgvAt ps slots argv)
    (hfront : front.length = i) :
    Spec (derefArgv p argv.length i out) (Reads w h (out ++ Vm.packArgv argv)) E w h := by
  induction hat generalizing i front out with
  | nil => exact spec_pure ⟨(List.append_nil out).symm, rfl, rfl⟩
  | @cons slot arg slots argv hslot hat ih =>
    have hread : (Block.pointers ((front ++ slot :: slots).map some)).pointerAt i = some slot := by
      simp [Block.pointerAt, ← hfront]
    have htail := ih (i := i + 1) (front ++ [slot]) (out ++ [some (allocCString arg)])
      (by simpa using hp) (by simp [hfront])
    unfold derefArgv
    refine spec_bind (spec_load ho hp (spec_bind (spec_expect hread ?_)))
    refine (spec_derefCString ho hslot fun bytes hbytes ↦ ?_).bind fun s w' h' hs ↦ ?_
    · rw [← Option.some_inj.mp hbytes]
      exact nul_mem_allocCString arg
    · obtain ⟨rfl, rfl, rfl⟩ := hs
      rw [List.append_assoc] at htail
      exact htail

end ReadSpec

section CallSpec

variable {base h : Heap Block} {ps : List (ℕ × Block)} {p : Process H}
  {request : Native H (Except String ExecResult)}
  {f : World H → Except String ExecResult × World H}

/-- A request that does to the VM table what `f` does, and nothing to memory, wherever it finds
its arguments. -/
def Requests (args : List (ℕ × Block)) (request : Native H (Except String ExecResult))
    (f : World H → Except String ExecResult × World H) : Prop :=
  ∀ base ps p h E, Owns base ps h → args ⊆ ps →
    Spec request (fun r p' h' ↦ (r, p') = liftWorld f p ∧ h' = h) E p h

def FreesArgs (args : List (ℕ × Block)) (freeArgs : Native H Unit) : Prop :=
  ∀ base rest p h (Q : Unit → Process H → Heap Block → Prop) E,
    Owns base (args ++ rest) h → (∀ h', Owns base rest h' → Q () p h') → Spec freeArgs Q E p h

/-- What a command's call comes to, memory apart. -/
def plainCommand (op : String) (f : World H → Except String ExecResult × World H)
    (stdoutCap stderrCap : Int64) (fresh : FreshExec) (p : Process H) :
    Except DartString AgentOsExecResult × Process H :=
  liftWorld (fun w ↦ Vm.check op Vm.readExec
    (finish ExecSlots.put (Vm.execSlots stdoutCap stderrCap fresh) (f w))) p

def slotBlocks (so ro se re ex : ℕ) (b₁ b₂ : Host.Buf.AosBuf) (exit : Option Int32) :
    List (ℕ × Block) :=
  bufBlocks so ro b₁ ++ bufBlocks se re b₂ ++ [(ex, .int32 exit)]

theorem spec_storeInt32 {a : ℕ} {slot : Option Int32} {n : Int32}
    {Q : Unit → Process H → Heap Block → Prop} {E : DartString → Process H → Heap Block → Prop}
    (ho : Owns base ((a, .int32 slot) :: ps) h)
    (hQ : ∀ h', Owns base ((a, .int32 (some n)) :: ps) h' → Q () p h') :
    Spec (storeInt32 (some a) n) Q E p h :=
  spec_modify ho hQ

theorem spec_answerExec {so ro se re ex : ℕ} {b₁ b₂ : Host.Buf.AosBuf} {result : ExecResult}
    {Q : Int32 → Process H → Heap Block → Prop} {E : DartString → Process H → Heap Block → Prop}
    (ho : Owns base (slotBlocks so ro se re ex b₁ b₂ none ++ ps) h)
    (hQ : ∀ b₁' b₂' h', (Host.Buf.fillBuf (some b₁) result.stdout).2 = some b₁' →
      (Host.Buf.fillBuf (some b₂) result.stderr).2 = some b₂' →
      Owns base (slotBlocks so ro se re ex b₁' b₂' (some result.exitCode) ++ ps) h' → Q 0 p h') :
    Spec (answerExec (some so) (some se) (some ex) (.ok result)) Q E p h := by
  unfold answerExec
  unfold slotBlocks at ho hQ
  have hswap (x y : List (ℕ × Block)) (z : ℕ × Block) :
      (x ++ (y ++ (z :: ps))).Perm (y ++ (x ++ (z :: ps))) := by
    rw [← List.append_assoc, ← List.append_assoc]
    exact List.perm_append_comm.append_right _
  have hlast (x y : List (ℕ × Block)) (z : ℕ × Block) :
      (y ++ (x ++ (z :: ps))).Perm (z :: (x ++ (y ++ ps))) := by
    refine (hswap y x z).trans ?_
    rw [← List.append_assoc, ← List.append_assoc]
    exact List.perm_middle
  simp only [List.append_assoc, List.singleton_append] at ho hQ
  refine spec_bind (spec_fillBuf ho fun _ b₁' h₁ hfill₁ ho₁ ↦ ?_)
  refine spec_bind (spec_fillBuf (ho₁.perm (hswap ..)) fun _ b₂' h₂ hfill₂ ho₂ ↦ ?_)
  refine spec_bind (spec_storeInt32 (ho₂.perm (hlast ..)) fun h₃ ho₃ ↦ ?_)
  refine spec_pure (hQ b₁' b₂' h₃ (congrArg Prod.snd hfill₁) (congrArg Prod.snd hfill₂)
    (ho₃.perm ?_))
  exact (hlast ..).symm.trans (hswap ..)

theorem spec_readResult {so ro se re ex : ℕ} {b₁ b₂ : Host.Buf.AosBuf} {exit : Int32}
    {E : DartString → Process H → Heap Block → Prop} (ho : Owns base ps h)
    (hsub : slotBlocks so ro se re ex b₁ b₂ (some exit) ⊆ ps) :
    Spec (readResult so se ex)
      (Reads p h ⟨exit, Bindings.copyFromAosBuf b₁, Bindings.copyFromAosBuf b₂⟩) E p h := by
  unfold readResult readInt32
  unfold slotBlocks at hsub
  have hexit : (ex, Block.int32 (some exit)) ∈ ps := hsub (by simp)
  refine spec_bind (spec_bind (spec_load ho hexit (spec_expect rfl ?_)))
  have hstdout : bufBlocks so ro b₁ ⊆ ps := fun x hx ↦ hsub (by simp [hx])
  have hstderr : bufBlocks se re b₂ ⊆ ps := fun x hx ↦ hsub (by simp [hx])
  refine (spec_copyFromAosBuf ho hstdout).bind fun out w' h' hr ↦ ?_
  obtain ⟨rfl, rfl, rfl⟩ := hr
  refine (spec_copyFromAosBuf ho hstderr).bind fun out w' h' hr ↦ ?_
  obtain ⟨rfl, rfl, rfl⟩ := hr
  exact spec_pure ⟨rfl, rfl, rfl⟩

theorem liftWorld_eq {α : Type} {g : World H → α × World H} {r : α} {p' : Process H}
    (hr : (r, p') = liftWorld g p) :
    ∃ w', g p.toWorld = (r, w') ∧ p' = { p with toWorld := w' } := by
  obtain ⟨rfl, rfl⟩ := Prod.mk.inj hr
  exact ⟨(g p.toWorld).2, rfl, rfl⟩

/-- From the request to what `_check` and the reads make of its answer. -/
theorem spec_commandBody {so ro se re ex : ℕ} {stdoutCap stderrCap : Int64} {fresh : FreshExec}
    {op : String} {args : List (ℕ × Block)} (hrequest : Requests args request f)
    (ho : Owns base (slotBlocks so ro se re ex (Bindings.allocAosBuf stdoutCap fresh.stdoutB)
      (Bindings.allocAosBuf stderrCap fresh.stderrB) none ++ args) h) :
    Spec
      (do
        let rc ← request >>= answerExec (some so) (some se) (some ex)
        checkRc rc op
        readResult so se ex)
      (fun a p' h' ↦ plainCommand op f stdoutCap stderrCap fresh p = (.ok a, p') ∧
        ∃ b₁ b₂ exit, Owns base (slotBlocks so ro se re ex b₁ b₂ exit ++ args) h')
      (fun e p' h' ↦ plainCommand op f stdoutCap stderrCap fresh p = (.error e, p') ∧
        ∃ b₁ b₂ exit, Owns base (slotBlocks so ro se re ex b₁ b₂ exit ++ args) h') p h := by
  refine spec_bind (spec_bind ((hrequest base _ p h _ ho (List.subset_append_right ..)).mono ?_
    fun _ _ _ he ↦ he))
  intro r p' h' hr
  obtain ⟨hr, rfl⟩ := hr
  obtain ⟨w', hf, rfl⟩ := liftWorld_eq hr
  cases r with
  | ok result =>
    refine spec_answerExec ho fun b₁ b₂ h₁ hfill₁ hfill₂ ho₁ ↦ ?_
    refine spec_bind (spec_checkRc (fun _ ↦ ?_) fun hne ↦ absurd rfl hne)
    refine (spec_readResult ho₁ (List.subset_append_left ..)).mono ?_ fun _ _ _ he ↦ he
    intro a p' h' hread
    obtain ⟨rfl, rfl, rfl⟩ := hread
    refine ⟨?_, b₁, b₂, _, ho₁⟩
    simp [plainCommand, liftWorld, hf, finish, Vm.check, Vm.readExec, ExecSlots.put, Vm.execSlots,
      kAosOk, Vm.readBuf, hfill₁, hfill₂]
  | error e =>
    unfold answerExec refuseCall setError
    refine spec_bind (spec_world (spec_pure (spec_bind (spec_checkRc (fun hok ↦ ?_) fun _ ↦ ?_))))
    · exact absurd hok (by decide)
    · refine ⟨?_, _, _, none, ho⟩
      simp [plainCommand, liftWorld, hf, finish, Vm.check, kAosOk, World.setError]

theorem spec_collect {op : String} {freeArgs : Native H Unit} {args : List (ℕ × Block)}
    {stdoutCap stderrCap : Int64} {fresh : FreshExec} (ho : Owns base args h)
    (hrequest : Requests args request f) (hfree : FreesArgs args freeArgs) :
    Spec
      (collect op (fun so se ex ↦ request >>= answerExec so se ex) freeArgs stdoutCap stderrCap
        fresh)
      (fun a p' h' ↦ Owns base [] h' ∧
        plainCommand op f stdoutCap stderrCap fresh p = (.ok a, p'))
      (fun e p' h' ↦ (Owns base [] h' ∧
        plainCommand op f stdoutCap stderrCap fresh p = (.error e, p')) ∨
          OutOfMemory base p e p' h') p h := by
  unfold collect
  refine spec_prepare (spec_allocAosBuf ho fun so ro h₁ ho₁ ↦ ?_)
  refine spec_prepare (spec_allocAosBuf ho₁ fun se re h₂ ho₂ ↦ ?_)
  refine spec_prepare (spec_mallocBytes ho₂ fun ex h₃ ho₃ ↦ ?_)
  have horder (b₁ b₂ : Host.Buf.AosBuf) (exit : Option Int32) :
      (slotBlocks so ro se re ex b₁ b₂ exit ++ args).Perm
        (args ++ (bufBlocks so ro b₁ ++ (bufBlocks se re b₂ ++ [(ex, Block.int32 exit)]))) := by
    unfold slotBlocks
    rw [List.append_assoc (bufBlocks so ro b₁)]
    exact List.perm_append_comm
  refine spec_tryFinally
    (fun h' ↦ ∃ b₁ b₂ exit, Owns base (slotBlocks so ro se re ex b₁ b₂ exit ++ args) h') ?_ ?_
  · refine spec_commandBody hrequest (ho₃.perm ?_)
    unfold slotBlocks
    classical
    refine List.perm_iff_count.mpr fun x ↦ ?_
    simp only [List.count_append, List.count_cons, List.count_nil]
    omega
  · intro p' h' hheld
    obtain ⟨b₁, b₂, exit, ho₄⟩ := hheld
    refine spec_bind (hfree _ _ _ _ _ _ (ho₄.perm (horder ..)) fun h₅ ho₅ ↦ ?_)
    refine spec_bind (spec_freeAosBuf ho₅ fun h₆ ho₆ ↦ ?_)
    refine spec_bind (spec_freeAosBuf ho₆ fun h₇ ho₇ ↦ ?_)
    exact spec_free ho₇ fun h₈ ho₈ ↦ ⟨rfl, ho₈⟩

theorem refines_ensureOpen {α : Type} {vm : AgentOsVm} {body : Native H α}
    {plain : World H → Outcome H α} (hbody : Refines body (liftWorld plain)) :
    Refines (ensureOpen vm body) (liftWorld (Vm.ensureOpen vm plain)) := by
  intro p h
  unfold ensureOpen Vm.ensureOpen
  by_cases hclosed : vm.closed = true
  · simp only [hclosed, if_true]
    exact spec_throw (Or.inl ⟨Owns.start h, rfl⟩)
  · simp only [hclosed]
    exact hbody p h

variable (k : Kernel H)

/-- Over real memory a command is what it is without. -/
theorem execEx_refines (vm : AgentOsVm) (cmd : DartString) (opts : Option AgentOsExecOptions)
    (stdoutCap stderrCap : Int64) (fresh : FreshExec) :
    Refines (execEx k vm cmd opts stdoutCap stderrCap fresh)
      (liftWorld (Vm.execEx k vm cmd opts stdoutCap stderrCap fresh)) := by
  refine refines_ensureOpen fun p h ↦ ?_
  refine spec_prepare (spec_mallocBytes (Owns.start h) fun cmdPtr h₁ ho₁ ↦ ?_)
  refine spec_prepare ((spec_packExecOpts ho₁).mono ?_ fun _ _ _ he ↦ he)
  intro packed p' h₂ hpack
  obtain ⟨rfl, blocks, ho₂, hpacked⟩ := hpack
  refine spec_collect ho₂ ?_ ?_
  · intro base ps p h E ho hsub
    unfold requestExecEx
    have hcmd : CopyAt ps (some (allocCString cmd)) (some cmdPtr) :=
      Or.inr ⟨cmdPtr, _, rfl, rfl, hsub (by simp)⟩
    refine (spec_derefCString ho hcmd fun bytes hbytes ↦ ?_).bind fun s w' h' hs ↦ ?_
    · rw [← Option.some_inj.mp hbytes]
      exact nul_mem_allocCString cmd
    · obtain ⟨rfl, rfl, rfl⟩ := hs
      refine (spec_derefExecOpts ho hpacked fun x hx ↦ hsub (by simp [hx])).bind
        fun o w' h' hopts ↦ ?_
      obtain ⟨rfl, rfl, rfl⟩ := hopts
      exact spec_world ⟨rfl, rfl⟩
  · intro base rest p h Q E ho hQ
    have hfront : (blocks ++ [(cmdPtr, Block.bytes (allocCString cmd))] ++ rest).Perm
        ((cmdPtr, Block.bytes (allocCString cmd)) :: (blocks ++ rest)) := by
      rw [List.append_assoc]
      exact List.perm_middle
    exact spec_bind (spec_free (ho.perm hfront) fun h₃ ho₃ ↦ spec_freePacked ho₃ hpacked hQ)

theorem run_refines (vm : AgentOsVm) (program : DartString) (argv : List DartString)
    (opts : Option AgentOsExecOptions) (stdoutCap stderrCap : Int64) (fresh : FreshExec) :
    Refines (run k vm program argv opts stdoutCap stderrCap fresh)
      (liftWorld (Vm.run k vm program argv opts stdoutCap stderrCap fresh)) := by
  refine refines_ensureOpen fun p h ↦ ?_
  refine spec_prepare (spec_mallocBytes (Owns.start h) fun progPtr h₁ ho₁ ↦ ?_)
  refine spec_prepare ((spec_packArgv ho₁).mono ?_ fun _ _ _ he ↦ he)
  intro packedArgv p' h₂ hpack
  obtain ⟨rfl, argvBlocks, ho₂, hargv⟩ := hpack
  refine spec_prepare ((spec_packExecOpts ho₂).mono ?_ fun _ _ _ he ↦ he)
  intro packed p' h₃ hpack
  obtain ⟨rfl, blocks, ho₃, hpacked⟩ := hpack
  refine spec_collect ho₃ ?_ ?_
  · intro base ps p h E ho hsub
    unfold requestRun
    have hprogram : CopyAt ps (some (allocCString program)) (some progPtr) :=
      Or.inr ⟨progPtr, _, rfl, rfl, hsub (by simp)⟩
    refine (spec_derefCString ho hprogram fun bytes hbytes ↦ ?_).bind fun s w' h' hs ↦ ?_
    · rw [← Option.some_inj.mp hbytes]
      exact nul_mem_allocCString program
    · obtain ⟨rfl, rfl, rfl⟩ := hs
      obtain ⟨slots, new, rfl, -, hargc, hat⟩ := hargv
      have hslots : (packedArgv.ptr, Block.pointers (([] ++ slots).map some)) ∈ ps :=
        hsub (by simp)
      have hat : ArgvAt ps slots argv := hat.imp fun _ _ hl ↦
        hl.mono fun x hx ↦ hsub (by simp [hx])
      rw [hargc]
      refine (spec_derefArgv [] [] ho hslots hat rfl).bind fun args w' h' hs ↦ ?_
      obtain ⟨rfl, rfl, rfl⟩ := hs
      refine (spec_derefExecOpts ho hpacked fun x hx ↦ hsub (by simp [hx])).bind
        fun o w' h' hopts ↦ ?_
      obtain ⟨rfl, rfl, rfl⟩ := hopts
      exact spec_world ⟨rfl, rfl⟩
  · intro base rest p h Q E ho hQ
    have hfront : (blocks ++ (argvBlocks ++ [(progPtr, Block.bytes (allocCString program))]) ++
        rest).Perm ((progPtr, Block.bytes (allocCString program)) ::
          (argvBlocks ++ (blocks ++ rest))) := by
      classical
      refine List.perm_iff_count.mpr fun x ↦ ?_
      simp only [List.count_append, List.count_cons, List.count_nil]
      omega
    refine spec_bind (spec_free (ho.perm hfront) fun h₄ ho₄ ↦ ?_)
    refine spec_bind (spec_freeArgv ho₄ hargv fun h₅ ho₅ ↦ ?_)
    exact spec_freePacked ho₅ hpacked hQ

end CallSpec

end MachineNotebook.Dart.ExecCalls
