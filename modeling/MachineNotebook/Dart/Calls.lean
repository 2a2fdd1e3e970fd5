import MachineNotebook.Dart.BootCalls
import MachineNotebook.Dart.VmCalls
import MachineNotebook.Lib.Isolation

namespace MachineNotebook.Dart.Calls

open MachineNotebook.Lib MachineNotebook.Lib.Utf8 MachineNotebook.Lib.HeapLogic
open MachineNotebook.Lib.HeapLogic.Prog Bindings NativeMemory
open Host.Boot Host.Error Host.VmTable Host.KernelHost Host.Exec Host.OneVm
open VmMethods (VmKernel addressed_ensureOpen)
open VmCalls (VmCall VmAnswer plainTakeOutput)
open Vm (AgentOsVm AgentOsExecOptions AgentOsExecResult FreshExec)
open BootOptions (AgentOsBootOptions)
open SnapshotCalls (Snapshots AgentOsCommitLayerResult RefinesOr)
open ExecCalls (liftWorld)

/-- What the host library is built from that is not part of this repository. -/
structure Library (R Err H : Type) where
  boot : BootLib R Err H
  methods : VmKernel H

abbrev Library.kernel {R Err H : Type} (lib : Library R Err H) : Kernel H :=
  lib.methods.jobs.toKernel

abbrev Library.snapshots {R Err H : Type} (lib : Library R Err H) : Snapshots H :=
  lib.methods.snapshots

inductive DartCall
  | boot (kernel : Bytes) (image : Option Bytes)
  | bootEx (kernel : Bytes) (opts : Option AgentOsBootOptions)
  | restore (kernel snapshot : Bytes) (base : Option Bytes) (opts : Option AgentOsBootOptions)
  | execEx (vm : AgentOsVm) (cmd : DartString) (opts : Option AgentOsExecOptions)
    (stdoutCap stderrCap : Int64) (fresh : FreshExec)
  | run (vm : AgentOsVm) (program : DartString) (argv : List DartString)
    (opts : Option AgentOsExecOptions) (stdoutCap stderrCap : Int64) (fresh : FreshExec)
  | snapshot (vm : AgentOsVm)
  | snapshotIncremental (vm : AgentOsVm) (base : Bytes)
  | commitLayer (vm : AgentOsVm) (digestCap : Int64) (fresh : Fresh)
  | takeOutput (vm : AgentOsVm) (capacity : Int64) (fresh : Fresh)
  | method (vm : AgentOsVm) (call : VmCall)
  | close (vm : AgentOsVm)

inductive Answer
  | opened (handle : UInt64)
  | ran (result : AgentOsExecResult)
  | bytes (data : Bytes)
  | layer (result : AgentOsCommitLayerResult)
  | answered (answer : VmAnswer)
  | done

variable {R Err H : Type} (lib : Library R Err H)

def close (vm : AgentOsVm) : Native H Unit :=
  if vm.closed then pure ()
  else do
    let rc ← world (aosVmClose vm.handle)
    checkRc rc "aos_vm_close"

def plainClose (vm : AgentOsVm) (p : Process H) : Except DartString Unit × Process H :=
  if vm.closed then (.ok (), p)
  else
    let (rc, p) := aosVmClose vm.handle p
    if rc ≠ kAosOk then
      (.error (Utf16.encode "aos_vm_close failed: " ++ errorMessage p.lastError), p)
    else (.ok (), p)

/-- A call over memory. -/
def DartCall.native : DartCall → Native H Answer
  | .boot kernel image => do return .opened (← BootCalls.boot lib.boot kernel image)
  | .bootEx kernel opts => do return .opened (← BootCalls.bootEx lib.boot kernel opts)
  | .restore kernel snap base opts => do
    return .opened (← BootCalls.restore lib.boot kernel snap base opts)
  | .execEx vm cmd opts stdoutCap stderrCap fresh => do
    return .ran (← ExecCalls.execEx lib.kernel vm cmd opts stdoutCap stderrCap fresh)
  | .run vm program argv opts stdoutCap stderrCap fresh => do
    return .ran (← ExecCalls.run lib.kernel vm program argv opts stdoutCap stderrCap fresh)
  | .snapshot vm => do return .bytes (← SnapshotCalls.snapshot lib.snapshots vm)
  | .snapshotIncremental vm base => do
    return .bytes (← SnapshotCalls.snapshotIncremental lib.snapshots vm base)
  | .commitLayer vm digestCap fresh => do
    return .layer (← SnapshotCalls.commitLayer lib.snapshots vm digestCap fresh)
  | .takeOutput vm capacity fresh => do return .bytes (← VmCalls.takeOutput vm capacity fresh)
  | .method vm call => do return .answered (← call.native lib.methods vm)
  | .close vm => do
    Calls.close vm
    return .done

def answerOf {α : Type} (f : α → Answer) (r : Except DartString α × Process H) :
    Except DartString Answer × Process H :=
  (r.1.map f, r.2)

/-- A call with the memory left out. -/
def DartCall.plain (call : DartCall) (p : Process H) : Except DartString Answer × Process H :=
  match call with
  | .boot kernel image => answerOf .opened (BootCalls.plainBoot lib.boot kernel image p)
  | .bootEx kernel opts => answerOf .opened (BootCalls.plainBootEx lib.boot kernel opts p)
  | .restore kernel snap base opts =>
    answerOf .opened (BootCalls.plainRestore lib.boot kernel snap base opts p)
  | .execEx vm cmd opts stdoutCap stderrCap fresh =>
    answerOf .ran (liftWorld (Vm.execEx lib.kernel vm cmd opts stdoutCap stderrCap fresh) p)
  | .run vm program argv opts stdoutCap stderrCap fresh =>
    answerOf .ran (liftWorld (Vm.run lib.kernel vm program argv opts stdoutCap stderrCap fresh) p)
  | .snapshot vm =>
    answerOf .bytes (liftWorld (SnapshotCalls.plainSnapshot lib.snapshots vm true) p)
  | .snapshotIncremental vm base =>
    answerOf .bytes (liftWorld (SnapshotCalls.plainIncremental lib.snapshots vm base true) p)
  | .commitLayer vm digestCap fresh =>
    answerOf .layer (liftWorld (SnapshotCalls.plainCommit lib.snapshots vm digestCap fresh true) p)
  | .takeOutput vm capacity _ => answerOf .bytes (liftWorld (plainTakeOutput vm capacity) p)
  | .method vm call => answerOf .answered (liftWorld (call.plain lib.methods vm) p)
  | .close vm => answerOf (fun _ ↦ .done) (plainClose vm p)

def step (call : DartCall) (s : Process H × Heap Block) :
    Except (Stop DartString) Answer × Process H × Heap Block :=
  call.native lib s.1 s.2

section Memory

variable {α : Type}

/-- A call comes to what `plain` says and gives back all its memory, or memory ran out: then it
throws, and may leave blocks of its own behind. -/
def Safe (call : Native H α) (plain : Process H → Except DartString α × Process H) : Prop :=
  ∀ p h, Spec call (fun a p' h' ↦ Owns h [] h' ∧ plain p = (.ok a, p'))
    (fun e p' h' ↦ (Owns h [] h' ∧ plain p = (.error e, p')) ∨
      (∃ a, h.grants a = false) ∧ ∃ leaked, Owns h leaked h') p h

variable {call : Native H α} {plain : Process H → Except DartString α × Process H}

theorem Safe.of_refines (hcall : Refines call plain) : Safe call plain := by
  refine fun p h ↦ (hcall p h).mono (fun _ _ _ hok ↦ hok) fun e p' h' hend ↦ hend.imp_right ?_
  intro hout
  obtain ⟨-, -, leaked, hrefused⟩ := hout
  exact ⟨hrefused.refused, leaked, hrefused.owns⟩

theorem Safe.of_refinesOr {plain : Bool → Process H → Except DartString α × Process H}
    (hcall : RefinesOr call plain) : Safe call (plain true) := by
  refine fun p h ↦ (hcall p h).mono (fun _ _ _ hok ↦ hok) fun e p' h' hend ↦ ?_
  rcases hend with ⟨ho, hthrown | ⟨hrefused, -⟩⟩ | ⟨-, -, leaked, hrefused⟩
  · exact Or.inl ⟨ho, hthrown⟩
  · exact Or.inr ⟨hrefused, [], ho⟩
  · exact Or.inr ⟨hrefused.refused, leaked, hrefused.owns⟩

theorem Safe.map (hcall : Safe call plain) (f : α → Answer) :
    Safe (do return f (← call)) fun p ↦ answerOf f (plain p) := by
  intro p h
  refine spec_bind ((hcall p h).mono ?_ ?_)
  · intro a p' h' hok
    exact spec_pure ⟨hok.1, by simp only [answerOf, hok.2, Except.map]⟩
  · intro e p' h' hend
    exact hend.imp_left fun hthrown ↦ ⟨hthrown.1, by simp only [answerOf, hthrown.2, Except.map]⟩

theorem close_safe (vm : AgentOsVm) : Safe (H := H) (close vm) (plainClose vm) := by
  intro p h
  unfold close plainClose
  by_cases hclosed : vm.closed = true
  · simp only [hclosed, if_true]
    exact spec_pure ⟨Owns.start h, rfl⟩
  · simp only [hclosed]
    refine spec_bind (spec_world (spec_checkRc (fun hok ↦ ?_) fun hne ↦ ?_))
    · exact ⟨Owns.start h, by simp [hok]⟩
    · exact Or.inl ⟨Owns.start h, by simp [hne]⟩

/-- A `takeOutput` without any room reads behind its buffer. -/
def DartCall.HasRoom : DartCall → Prop
  | .takeOutput _ capacity _ => capacity ≠ 0
  | _ => True

theorem DartCall.safe {call : DartCall} (hroom : call.HasRoom) :
    Safe (call.native lib) (call.plain lib) := by
  cases call with
  | boot kernel image => exact (Safe.of_refines (BootCalls.boot_refines _ _ _)).map _
  | bootEx kernel opts => exact (Safe.of_refines (BootCalls.bootEx_refines _ _ _)).map _
  | restore kernel snapshot base opts =>
    exact (Safe.of_refines (BootCalls.restore_refines _ _ _ _ _)).map _
  | execEx vm cmd opts stdoutCap stderrCap fresh =>
    exact (Safe.of_refines (ExecCalls.execEx_refines _ _ _ _ _ _ _)).map _
  | run vm program argv opts stdoutCap stderrCap fresh =>
    exact (Safe.of_refines (ExecCalls.run_refines _ _ _ _ _ _ _ _)).map _
  | snapshot vm => exact (Safe.of_refinesOr (SnapshotCalls.snapshot_refines _ _)).map _
  | snapshotIncremental vm base =>
    exact (Safe.of_refinesOr (SnapshotCalls.snapshotIncremental_refines _ _ _)).map _
  | commitLayer vm digestCap fresh =>
    exact (Safe.of_refinesOr (SnapshotCalls.commitLayer_refines _ _ _ _)).map _
  | takeOutput vm capacity fresh =>
    exact (Safe.of_refines (VmCalls.takeOutput_refines hroom)).map _
  | method vm call => exact (Safe.of_refines (VmCalls.vmCall_refines _ _ _)).map _
  | close vm => exact (close_safe vm).map fun _ ↦ .done

end Memory

section Runs

/-- Whatever the app calls, in whatever order and however often memory runs out: no call uses
memory that is not there, and what was there before is untouched. -/
theorem calls_memory_safe (calls : List DartCall) (hroom : ∀ call ∈ calls, call.HasRoom)
    (p : Process H) (h : Heap Block) :
    (∀ io ∈ Run.trace (step lib) calls (p, h), io.2 ≠ .error .fault) ∧
      ∃ leaked, Owns h leaked (Run.final (step lib) calls (p, h)).2 := by
  induction calls generalizing p h with
  | nil => exact ⟨fun io hio ↦ absurd hio List.not_mem_nil, [], Owns.start h⟩
  | cons call calls ih =>
    obtain ⟨hcall, hcalls⟩ := List.forall_mem_cons.mp hroom
    have hstep : (step lib call (p, h)).1 ≠ .error .fault ∧
        ∃ leaked, Owns h leaked (step lib call (p, h)).2.2 := by
      obtain ⟨a, p', h', hout, ho, -⟩ | ⟨e, p', h', hout, hend⟩ := (DartCall.safe lib hcall p h).cases
      · simp only [step, hout]
        exact ⟨by simp, [], ho⟩
      · simp only [step, hout]
        refine ⟨by simp, ?_⟩
        obtain ⟨ho, -⟩ | ⟨-, hleaked⟩ := hend
        · exact ⟨[], ho⟩
        · exact hleaked
    obtain ⟨hfault, leaked, ho⟩ := hstep
    obtain ⟨hfaults, leaked', ho'⟩ := ih hcalls (step lib call (p, h)).2.1 (step lib call (p, h)).2.2
    refine ⟨fun io hio ↦ ?_, leaked ++ leaked', ho.trans ho'⟩
    obtain rfl | hio := List.mem_cons.mp hio
    · exact hfault
    · exact hfaults io hio

def plainStep (call : DartCall) (p : Process H) : Except DartString Answer × Process H :=
  call.plain lib p

/-- Where memory does not run out, a run answers and does what it would without memory, and all
memory is given back. -/
theorem calls_refine (calls : List DartCall) (hroom : ∀ call ∈ calls, call.HasRoom)
    (p : Process H) (h : Heap Block) (hgrants : ∀ a, h.grants a = true) :
    Run.trace (step lib) calls (p, h) =
        (Run.trace (plainStep lib) calls p).map (fun io ↦ (io.1, io.2.mapError .thrown)) ∧
      (Run.final (step lib) calls (p, h)).1 = Run.final (plainStep lib) calls p ∧
      Owns h [] (Run.final (step lib) calls (p, h)).2 := by
  induction calls generalizing p h with
  | nil => exact ⟨rfl, rfl, Owns.start h⟩
  | cons call calls ih =>
    obtain ⟨hcall, hcalls⟩ := List.forall_mem_cons.mp hroom
    have hstep : (step lib call (p, h)).1 = (plainStep lib call p).1.mapError .thrown ∧
        (step lib call (p, h)).2.1 = (plainStep lib call p).2 ∧
        Owns h [] (step lib call (p, h)).2.2 := by
      obtain ⟨a, p', h', hout, ho, hplain⟩ | ⟨e, p', h', hout, hend⟩ := (DartCall.safe lib hcall p h).cases
      · simpa only [step, plainStep, hout, hplain, Except.mapError, true_and] using ho
      · obtain ⟨ho, hplain⟩ | ⟨⟨a, hrefused⟩, -⟩ := hend
        · simpa only [step, plainStep, hout, hplain, Except.mapError, true_and] using ho
        · rw [hgrants a] at hrefused
          cases hrefused
    obtain ⟨hout, hp, ho⟩ := hstep
    obtain ⟨htrace, hfinal, ho'⟩ := ih hcalls (step lib call (p, h)).2.1 (step lib call (p, h)).2.2
      fun a ↦ by rw [ho.grants, hgrants a]
    refine ⟨?_, ?_, ho.trans ho'⟩
    · simp only [Run.trace_cons, List.map_cons]
      rw [hout, ← hp]
      exact congrArg _ htrace
    · simp only [Run.final_cons]
      rw [← hp]
      exact hfinal

/-- A host library whose guests do nothing: they are at their prompt at once. -/
def idleLibrary : Library Unit Unit ℕ where
  boot :=
    { jsonParse := fun _ ↦ none
      registryNew := ()
      insert := fun _ _ _ _ ↦ .ok ()
      deriveConnectionOrigins := fun _ ↦ []
      debugStr := id
      debugErr := fun _ ↦ ""
      withConnectionPolicies := fun _ _ ↦ .ok ()
      build := fun _ ↦ .ok 0
      restore := fun _ _ ↦ .ok 0
      restoreIncremental := fun _ _ _ ↦ .ok 0
      tick := fun vm ↦ (.ok .runnable, vm)
      atPrompt := fun _ ↦ true }
  methods := VmCalls.idleKernel

def bootTwo : List DartCall :=
  [.boot [0] none, .boot [1] none, .snapshot ⟨1, false⟩, .close ⟨2, false⟩]

theorem calls_refine_bootTwo :
    (∀ call ∈ bootTwo, call.HasRoom) ∧ Owns (Heap.empty fun _ ↦ true) []
      (Run.final (step idleLibrary) bootTwo (Process.start, Heap.empty fun _ ↦ true)).2 := by
  have hroom : ∀ call ∈ bootTwo, call.HasRoom := by simp [bootTwo, DartCall.HasRoom]
  exact ⟨hroom, (calls_refine idleLibrary bootTwo hroom Process.start (Heap.empty fun _ ↦ true)
    fun _ ↦ rfl).2.2⟩

/-- The second boot gets no memory. -/
theorem calls_memory_safe_bootTwo :
    (∀ call ∈ bootTwo, call.HasRoom) ∧
      ∀ io ∈ Run.trace (step idleLibrary) bootTwo
        (Process.start, Heap.empty fun a ↦ decide (a < 2)), io.2 ≠ .error .fault := by
  have hroom : ∀ call ∈ bootTwo, call.HasRoom := by simp [bootTwo, DartCall.HasRoom]
  exact ⟨hroom, (calls_memory_safe idleLibrary bootTwo hroom Process.start
    (Heap.empty fun a ↦ decide (a < 2))).1⟩

end Runs

/-! What a call does to the table: it reaches the VM of its handle alone. -/

section Addressed

variable {α S R : Type} {vm : UInt64}

def thrownBy (op : String) (read : R → α) : Except String R → Except DartString α
  | .ok x => .ok (read x)
  | .error e => .error (Utf16.encode (op ++ " failed: ") ++ errorMessage e)

def errorAfter (r : Except String R) (lastError : String) : String :=
  match r with
  | .ok _ => lastError
  | .error e => e

theorem check_eq (op : String) (read : S → α) (put : R → S → S) (slots : S)
    (r : Except String R × World H) :
    Vm.check op read (finish put slots r) =
      (thrownBy op (fun x ↦ read (put x slots)) r.1,
        { r.2 with lastError := errorAfter r.1 r.2.lastError }) := by
  rcases r with ⟨e | x, w⟩
  · simp [Vm.check, finish, thrownBy, errorAfter, kAosOk, World.setError]
  · simp [Vm.check, finish, thrownBy, errorAfter, kAosOk]

theorem addressed_check {f : World H → Except String R × World H} (hf : Reaches vm f)
    (op : String) (read : S → α) (put : R → S → S) (slots : S) :
    Addressed vm fun w ↦ Vm.check op read (finish put slots (f w.clearError)) := by
  refine (hf.post (fun r _ ↦ thrownBy op (fun x ↦ read (put x slots)) r) errorAfter).congr fun w ↦ ?_
  exact check_eq ..

theorem checked_eq (op refusal : String) (copied : R → Bytes) (read : R → α)
    (r : Except String R × World H) :
    SnapshotCalls.checked op read (SnapshotCalls.handedOut refusal copied true r) =
      (thrownBy op read r.1, { r.2 with lastError := errorAfter r.1 r.2.lastError }) := by
  rcases r with ⟨e | x, w⟩
  · simp [SnapshotCalls.checked, SnapshotCalls.handedOut, thrownBy, errorAfter, World.setError]
  · simp [SnapshotCalls.checked, SnapshotCalls.handedOut, thrownBy, errorAfter]

theorem addressed_checked {f : World H → Except String R × World H} (hf : Reaches vm f)
    (op refusal : String) (copied : R → Bytes) (read : R → α) :
    Addressed vm fun w ↦ SnapshotCalls.checked op read
      (SnapshotCalls.handedOut refusal copied true (f w.clearError)) := by
  refine (hf.post (fun r _ ↦ thrownBy op read r) errorAfter).congr fun w ↦ ?_
  exact checked_eq ..

variable (s : Snapshots H)

theorem reaches_snapshot : Reaches vm (SnapshotCalls.snapshotRequest s vm) :=
  reaches_ite _ fun _ ↦ reaches_withHostMut _ _

theorem reaches_incremental (base : Option Bytes) :
    Reaches vm (SnapshotCalls.incrementalRequest s vm base) := by
  unfold SnapshotCalls.incrementalRequest
  cases base with
  | none => exact reaches_const _
  | some base => exact reaches_ite _ fun _ ↦ reaches_withHostMut _ _

theorem reaches_commit : Reaches vm (SnapshotCalls.commitRequest s vm) :=
  reaches_ite _ fun _ ↦ reaches_withHostMut _ _

end Addressed

section Isolation

def DartCall.target : DartCall → Option UInt64
  | .boot .. | .bootEx .. | .restore .. => none
  | .execEx vm .. | .run vm .. | .snapshot vm | .snapshotIncremental vm _ | .commitLayer vm ..
  | .takeOutput vm .. | .method vm _ | .close vm => some vm.handle

/-- A call that is made on a VM is answered by that VM, and reaches no other. -/
structure OnTarget (vm : UInt64) (f : Process H → α × Process H) : Prop where
  own : ∀ p p', p.vms vm = p'.vms vm → (f p).1 = (f p').1 ∧ (f p).2.vms vm = (f p').2.vms vm
  others : ∀ p g, g ≠ vm → (f p).2.vms g = p.vms g
  nextId : ∀ p, (f p).2.nextId = p.nextId

theorem onTarget_of_addressed {α : Type} {vm : UInt64} {f : World H → Except DartString α × World H}
    (hf : Addressed vm f) (answer : α → Answer) :
    OnTarget vm fun p ↦ answerOf answer (liftWorld f p) where
  own p p' hp :=
    ⟨congrArg (Except.map answer) (hf.own p.toWorld p'.toWorld hp).1, (hf.own _ _ hp).2⟩
  others p g hg := hf.others p.toWorld g hg
  nextId _ := rfl

theorem close_onTarget (vm : AgentOsVm) :
    OnTarget (H := H) vm.handle fun p ↦ answerOf (fun _ ↦ .done) (plainClose vm p) := by
  unfold plainClose
  by_cases hclosed : vm.closed = true
  · simp only [hclosed, if_true]
    exact ⟨fun p p' hp ↦ ⟨rfl, hp⟩, fun p g hg ↦ rfl, fun p ↦ rfl⟩
  · simp only [hclosed]
    by_cases hzero : vm.handle = 0
    · simp only [aosVmClose, if_pos hzero]
      exact ⟨fun p p' hp ↦ ⟨rfl, hp⟩, fun p g hg ↦ rfl, fun p ↦ rfl⟩
    · simp only [aosVmClose, if_neg hzero]
      constructor
      · intro p p' hp
        cases hentry : p.vms vm.handle with
        | none => simp [Process.removeVm, ← hp, hentry, answerOf, kAosOk]
        | some entry => simp [Process.removeVm, ← hp, hentry, answerOf, kAosOk]
      · intro p g hg
        cases hentry : p.vms vm.handle with
        | none => simp [Process.removeVm, hentry, answerOf, kAosOk, Function.update_of_ne hg]
        | some entry => simp [Process.removeVm, hentry, answerOf, kAosOk, Function.update_of_ne hg]
      · intro p
        cases hentry : p.vms vm.handle with
        | none => simp [Process.removeVm, hentry, answerOf, kAosOk]
        | some entry => simp [Process.removeVm, hentry, answerOf, kAosOk]

/-- A call that a VM answers is a step on the table, with no answer that opens a VM. -/
def Answers (vm : UInt64) (f : Process H → Except DartString Answer × Process H) : Prop :=
  ∃ (α : Type) (answer : α → Answer) (g : World H → Except DartString α × World H),
    (∀ a h, answer a ≠ .opened h) ∧ Addressed vm g ∧ f = fun p ↦ answerOf answer (liftWorld g p)

theorem DartCall.answers {call : DartCall} {vm : UInt64} (htarget : call.target = some vm)
    (hclose : ∀ c, call ≠ .close c) : Answers vm (call.plain lib) := by
  cases call with
  | boot | bootEx | restore => cases htarget
  | execEx c cmd opts stdoutCap stderrCap fresh =>
    obtain rfl := Option.some_inj.mp htarget
    exact ⟨_, .ran, _, fun a h heq ↦ (by cases heq),
      addressed_ensureOpen (addressed_check (reaches_execEx ..) ..), rfl⟩
  | run c program argv opts stdoutCap stderrCap fresh =>
    obtain rfl := Option.some_inj.mp htarget
    exact ⟨_, .ran, _, fun a h heq ↦ (by cases heq),
      addressed_ensureOpen (addressed_check (reaches_run ..) ..), rfl⟩
  | snapshot c =>
    obtain rfl := Option.some_inj.mp htarget
    exact ⟨_, .bytes, _, fun a h heq ↦ (by cases heq),
      addressed_ensureOpen (addressed_checked (reaches_snapshot ..) ..), rfl⟩
  | snapshotIncremental c base =>
    obtain rfl := Option.some_inj.mp htarget
    exact ⟨_, .bytes, _, fun a h heq ↦ (by cases heq),
      addressed_ensureOpen (addressed_checked (reaches_incremental ..) ..), rfl⟩
  | commitLayer c digestCap fresh =>
    obtain rfl := Option.some_inj.mp htarget
    exact ⟨_, .layer, _, fun a h heq ↦ (by cases heq),
      addressed_ensureOpen (addressed_checked (reaches_commit ..) ..), rfl⟩
  | takeOutput c capacity fresh =>
    obtain rfl := Option.some_inj.mp htarget
    exact ⟨_, .bytes, _, fun a h heq ↦ (by cases heq), VmCalls.addressed_takeOutput, rfl⟩
  | method c call =>
    obtain rfl := Option.some_inj.mp htarget
    exact ⟨_, .answered, _, fun a h heq ↦ (by cases heq),
      (call.method lib.methods).plain_addressed c, rfl⟩
  | close c => exact absurd rfl (hclose c)

theorem DartCall.onTarget {call : DartCall} {vm : UInt64} (htarget : call.target = some vm) :
    OnTarget vm (call.plain lib) := by
  by_cases hclose : ∀ c, call ≠ .close c
  · obtain ⟨α, answer, g, -, hg, hplain⟩ := call.answers lib htarget hclose
    rw [hplain]
    exact onTarget_of_addressed hg answer
  · obtain ⟨c, hc⟩ := not_forall_not.mp hclose
    subst hc
    obtain rfl := Option.some_inj.mp htarget
    exact close_onTarget c

/-- A boot or a restore either fails and leaves the table as it is, or puts a VM under the next
handle. -/
def Opens (p : Process H) (r : Except DartString Answer × Process H) : Prop :=
  (∃ e, r.1 = .error e ∧ r.2.vms = p.vms ∧ r.2.nextId = p.nextId) ∨
    ∃ vm, r.1 = .ok (.opened p.nextId) ∧ r.2.vms = Function.update p.vms p.nextId (some vm) ∧
      r.2.nextId = max (p.nextId + 1) 1

/-- What the library's part of it comes to. -/
def Makes (p : Process H) (r : Except String UInt64 × Process H) : Prop :=
  (∃ e, r = (.error e, p)) ∨ ∃ vm, r = (.ok p.nextId, (p.insertVm vm).2)

theorem Makes.opens {p : Process H} {op : String} {r : Except String UInt64 × Process H}
    (hr : Makes (BootCalls.cleared p) r) : Opens p (answerOf .opened (BootCalls.answered op r)) := by
  obtain ⟨e, rfl⟩ | ⟨vm, rfl⟩ := hr
  · exact Or.inl ⟨_, rfl, rfl, rfl⟩
  · exact Or.inr ⟨vm, rfl, rfl, rfl⟩

theorem finishBoot_makes (b : BootLib R Err H) (wasm : Bytes) (plan : BootPlan) (p : Process H) :
    Makes p (finishBoot b wasm plan p) := by
  unfold finishBoot
  cases buildHost b wasm plan with
  | error e => exact Or.inl ⟨e, rfl⟩
  | ok host => exact Or.inr ⟨_, rfl⟩

theorem finishRestore_makes (b : BootLib R Err H) (builder : Builder R) (snap : Bytes)
    (base : Option Bytes) (p : Process H) : Makes p (finishRestore b builder snap base p) := by
  unfold finishRestore
  cases base with
  | none =>
    simp only
    cases b.restore builder snap with
    | error e => exact Or.inl ⟨_, rfl⟩
    | ok host => exact Or.inr ⟨_, rfl⟩
  | some base =>
    simp only
    cases b.restoreIncremental builder snap base with
    | error e => exact Or.inl ⟨_, rfl⟩
    | ok host => exact Or.inr ⟨_, rfl⟩

theorem bootExAnswer_makes (b : BootLib R Err H) (kernel : Bytes)
    (opts : Option AgentOsBootOptions) (p : Process H) :
    Makes p (BootCalls.bootExAnswer b kernel opts p) := by
  unfold BootCalls.bootExAnswer
  split
  · exact Or.inl ⟨_, rfl⟩
  · split
    · exact Or.inl ⟨_, rfl⟩
    · exact finishBoot_makes b kernel _ p

theorem restoreAnswer_makes (b : BootLib R Err H) (kernel snap : Bytes) (base : Option Bytes)
    (opts : Option AgentOsBootOptions) (p : Process H) :
    Makes p (BootCalls.restoreAnswer b kernel snap base opts p) := by
  unfold BootCalls.restoreAnswer
  split
  · exact Or.inl ⟨_, rfl⟩
  · split
    · exact Or.inl ⟨_, rfl⟩
    · split
      · exact Or.inl ⟨_, rfl⟩
      · exact finishRestore_makes b _ snap _ p

theorem DartCall.opens {call : DartCall} (htarget : call.target = none) (p : Process H) :
    Opens p (call.plain lib p) := by
  cases call with
  | boot kernel image =>
    refine Makes.opens ?_
    unfold BootCalls.bootAnswer
    split
    · exact Or.inl ⟨_, rfl⟩
    · exact finishBoot_makes lib.boot kernel _ _
  | bootEx kernel opts => exact (bootExAnswer_makes lib.boot kernel opts _).opens
  | restore kernel snap base opts => exact (restoreAnswer_makes lib.boot kernel snap base opts _).opens
  | _ => cases htarget

theorem DartCall.isolated (vm : UInt64) :
    Isolation.Isolated (plainStep lib) (fun p ↦ p.vms vm) (fun call ↦ call.target = some vm)
      (fun p ↦ vm ≠ p.nextId) where
  frame call p hp hothers := by
    cases htarget : call.target with
    | none =>
      obtain ⟨e, -, hvms, -⟩ | ⟨entry, -, hvms, -⟩ := call.opens lib htarget p
      · exact congrFun hvms vm
      · exact (congrFun hvms vm).trans (Function.update_of_ne hp ..)
    | some g =>
      have hne : vm ≠ g := by
        rintro rfl
        exact absurd htarget (by simpa using hothers)
      exact (call.onTarget lib htarget).others p vm hne
  own call p t hmine hpt := (call.onTarget lib (of_decide_eq_true hmine)).own p t hpt

/-- How far a call moves the counter of the handles. -/
def handleStep (call : DartCall) (p : Process H) : ℕ :=
  match (call.plain lib p).1 with
  | .ok (.opened _) => 1
  | _ => 0

theorem DartCall.ne_opened {call : DartCall} (htarget : call.target ≠ none) (p : Process H)
    (h : UInt64) : (call.plain lib p).1 ≠ .ok (.opened h) := by
  obtain ⟨vm, hvm⟩ := Option.ne_none_iff_exists'.mp htarget
  have hmap {α : Type} {answer : α → Answer} (r : Except DartString α)
      (hanswer : ∀ a h, answer a ≠ .opened h) : r.map answer ≠ .ok (.opened h) := by
    cases r with
    | error e => exact fun heq ↦ by cases heq
    | ok a => exact fun heq ↦ hanswer a h (Except.ok.inj heq)
  by_cases hclose : ∀ c, call ≠ .close c
  · obtain ⟨α, answer, g, hanswer, -, hplain⟩ := call.answers lib hvm hclose
    rw [hplain]
    exact hmap _ hanswer
  · obtain ⟨c, hc⟩ := not_forall_not.mp hclose
    subst hc
    exact hmap (plainClose c p).1 fun _ _ heq ↦ by cases heq

theorem nextId_step (call : DartCall) (p : Process H)
    (hroom : p.nextId.toNat + handleStep lib call p < 2 ^ 64) :
    (plainStep lib call p).2.nextId.toNat = p.nextId.toNat + handleStep lib call p := by
  unfold handleStep plainStep at *
  cases htarget : call.target with
  | some vm =>
    rw [(call.onTarget lib htarget).nextId p]
    have hne := call.ne_opened lib (htarget ▸ Option.some_ne_none vm) p
    split
    · rename_i heq
      exact absurd heq (hne _)
    · rfl
  | none =>
    obtain ⟨e, hout, -, hnext⟩ | ⟨entry, hout, -, hnext⟩ := call.opens lib htarget p
    · rw [hout, hnext]
      rfl
    · simp only [hout] at hroom ⊢
      rw [hnext]
      have hsucc : (p.nextId + 1).toNat = p.nextId.toNat + 1 := by
        rw [UInt64.toNat_add]
        exact Nat.mod_eq_of_lt hroom
      have hmax : max (p.nextId + 1) 1 = if p.nextId + 1 ≤ 1 then 1 else p.nextId + 1 := rfl
      rw [hmax]
      split
      · rename_i hle
        have hone : (p.nextId + 1).toNat ≤ 1 := UInt64.le_iff_toNat_le.mp hle
        rw [UInt64.toNat_one]
        omega
      · exact hsucc

/-- While handles do not run out, a VM that has been opened is on its own: what it is, and what
the calls on it answer, does not depend on the calls on other VMs, nor on boots and restores. -/
theorem calls_isolated (vm : UInt64) (calls : List DartCall) (p t : Process H)
    (hgiven : vm < p.nextId)
    (hroom : p.nextId.toNat + Run.total (plainStep lib) (handleStep lib) calls p < 2 ^ 64)
    (hsame : p.vms vm = t.vms vm) :
    let own := calls.filter fun call ↦ call.target = some vm
    (Run.final (plainStep lib) calls p).vms vm = (Run.final (plainStep lib) own t).vms vm ∧
      (Run.trace (plainStep lib) calls p).filter (fun io ↦ io.1.target = some vm) =
        Run.trace (plainStep lib) own t := by
  have hstep (call : DartCall) (q : Process H) (hq : vm < q.nextId)
      (hlt : q.nextId.toNat + handleStep lib call q < 2 ^ 64) :
      vm < (plainStep lib call q).2.nextId := by
    refine UInt64.lt_iff_toNat_lt.mpr ?_
    rw [nextId_step lib call q hlt]
    exact Nat.lt_add_right _ (UInt64.lt_iff_toNat_lt.mp hq)
  have halong : Run.Along (plainStep lib)
      (fun call q ↦ vm < q.nextId ∧ q.nextId.toNat + handleStep lib call q < 2 ^ 64) calls p :=
    Run.along_of_total
      (fun call q hq hlt ↦ ⟨hstep call q hq hlt, nextId_step lib call q hlt⟩) hgiven hroom
  refine (DartCall.isolated lib vm).run (halong.of_invariant (I := fun _ ↦ True)
    (fun _ _ _ _ ↦ trivial) (fun call q hq _ ↦ ?_) trivial) hsame
  exact UInt64.ne_of_lt hq.1

theorem total_bootTwo :
    Run.total (plainStep idleLibrary) (handleStep idleLibrary) bootTwo Process.start = 2 := by
  rfl

theorem calls_isolated_bootTwo :
    ((Run.final (plainStep idleLibrary) [.boot [1] none, .snapshot ⟨1, false⟩]
        (plainStep idleLibrary (.boot [0] none) Process.start).2).vms 1).isSome = true := by
  have hisolated := calls_isolated idleLibrary 1 [.boot [1] none, .snapshot ⟨1, false⟩]
    (plainStep idleLibrary (.boot [0] none) Process.start).2
    (plainStep idleLibrary (.boot [0] none) Process.start).2 (by decide) (by decide) rfl
  rw [hisolated.1]
  rfl

def opened (out : Except DartString Answer) : Option UInt64 :=
  match out with
  | .ok (.opened h) => some h
  | _ => none

theorem opened_step (call : DartCall) (p : Process H) :
    (opened (call.plain lib p).1).toList.map UInt64.toNat =
      List.range' p.nextId.toNat (handleStep lib call p) := by
  unfold handleStep opened
  cases htarget : call.target with
  | some vm =>
    have hne := call.ne_opened lib (htarget ▸ Option.some_ne_none vm) p
    split
    · rename_i heq
      exact absurd heq (hne _)
    · rfl
  | none =>
    obtain ⟨e, hout, -, -⟩ | ⟨entry, hout, -, -⟩ := call.opens lib htarget p
    · rw [hout]
      rfl
    · rw [hout]
      rfl

/-- Handles are numbered one after the other, so none is given out twice. -/
theorem handles_numbered (calls : List DartCall) (p : Process H)
    (hroom : p.nextId.toNat + Run.total (plainStep lib) (handleStep lib) calls p < 2 ^ 64) :
    ((Run.trace (plainStep lib) calls p).filterMap fun io ↦ opened io.2).map UInt64.toNat =
      List.range' p.nextId.toNat (Run.total (plainStep lib) (handleStep lib) calls p) := by
  induction calls generalizing p with
  | nil => rfl
  | cons call calls ih =>
    simp only [Run.total_cons] at hroom
    have hnext := nextId_step lib call p (by omega)
    have hrest := ih (plainStep lib call p).2 (by omega)
    have hfirst := opened_step lib call p
    simp only [Run.trace_cons, Run.total_cons]
    rw [← List.range'_append_1, ← hfirst, ← hnext, ← hrest]
    unfold plainStep
    cases hopened : opened (call.plain lib p).1 with
    | none => simp [hopened]
    | some h => simp [hopened]

theorem handles_numbered_bootTwo :
    ((Run.trace (plainStep idleLibrary) bootTwo Process.start).filterMap
      fun io ↦ opened io.2).map UInt64.toNat = [1, 2] :=
  handles_numbered idleLibrary bootTwo Process.start (by rw [total_bootTwo]; decide)

end Isolation

section Live

def live (p : Process H) : Set UInt64 := { h | p.vms h ≠ none }

/-- What a call and its answer say about which VMs there are: an opened one is new, and one that
was closed is gone. -/
def liveAfter (handles : Set UInt64) (io : DartCall × Except DartString Answer) : Set UInt64 :=
  match io with
  | (.close vm, .ok _) => if vm.closed then handles else handles \ {vm.handle}
  | (_, .ok (.opened h)) => insert h handles
  | _ => handles

theorem live_of_addressed {α : Type} {vm : UInt64} {f : World H → Except DartString α × World H}
    (hf : Addressed vm f) (answer : α → Answer) (p : Process H) :
    live (answerOf answer (liftWorld f p)).2 = live p := by
  ext g
  by_cases hg : g = vm
  · rw [hg]
    exact not_congr (hf.kept p.toWorld)
  · exact not_congr (by rw [show (answerOf answer (liftWorld f p)).2.vms g = p.vms g from
      hf.others p.toWorld g hg])

theorem Opens.live_eq {p : Process H} {r : Except DartString Answer × Process H} (hr : Opens p r)
    {call : DartCall} (htarget : call.target = none) :
    live r.2 = liveAfter (live p) (call, r.1) := by
  obtain ⟨out, q⟩ := r
  obtain ⟨e, rfl, hvms, -⟩ | ⟨entry, rfl, hvms, -⟩ := hr
  · have hsame : live q = live p := by
      unfold live
      rw [hvms]
    cases call <;> exact hsame
  · have hadded : live q = insert p.nextId (live p) := by
      ext g
      unfold live
      rw [Set.mem_ofPred_eq, hvms]
      by_cases hg : g = p.nextId
      · simp [hg]
      · simp [hg]
    cases call <;> first | exact hadded | cases htarget

theorem live_removeVm (vm : UInt64) (p : Process H) :
    live (p.removeVm vm).2 = live p \ {vm} := by
  ext g
  unfold live Process.removeVm
  rw [Set.mem_sdiff, Set.mem_singleton_iff, Set.mem_ofPred_eq, Set.mem_ofPred_eq]
  by_cases hg : g = vm
  · simp [hg]
  · simp [hg]

theorem close_live (vm : AgentOsVm) (p : Process H) :
    live (DartCall.plain lib (.close vm) p).2 =
      liveAfter (live p) (.close vm, (DartCall.plain lib (.close vm) p).1) := by
  unfold DartCall.plain answerOf plainClose
  by_cases hclosed : vm.closed = true
  · simp [hclosed, liveAfter, Except.map]
  · by_cases hzero : vm.handle = 0
    · simp [hclosed, aosVmClose, hzero, liveAfter, Except.map, kAosOk, live]
    · have hlive := live_removeVm vm.handle p
      cases hentry : p.vms vm.handle with
      | none =>
        have hgone : live p \ {vm.handle} = live p :=
          Set.sdiff_singleton_eq_self fun hmem ↦ hmem hentry
        simp only [hclosed, aosVmClose, hzero, Process.removeVm, hentry, liveAfter, Except.map,
          kAosOk]
        exact hlive.trans hgone
      | some entry =>
        simp only [hclosed, aosVmClose, hzero, Process.removeVm, hentry, liveAfter, Except.map,
          kAosOk, Bool.false_eq_true, ne_eq, not_true_eq_false, if_false]
        exact hlive

theorem liveAfter_same {call : DartCall} {out : Except DartString Answer} (handles : Set UInt64)
    (hclose : ∀ vm, call ≠ .close vm) (hout : ∀ h, out ≠ .ok (.opened h)) :
    liveAfter handles (call, out) = handles := by
  cases out with
  | error e => cases call <;> rfl
  | ok a =>
    cases a with
    | opened h => exact absurd rfl (hout h)
    | ran | bytes | layer | answered | done =>
      cases call with
      | close vm => exact absurd rfl (hclose vm)
      | _ => rfl

theorem live_step (call : DartCall) (p : Process H) :
    live (plainStep lib call p).2 = liveAfter (live p) (call, (plainStep lib call p).1) := by
  unfold plainStep
  cases htarget : call.target with
  | none => exact (call.opens lib htarget p).live_eq htarget
  | some vm =>
    by_cases hclose : ∀ c, call ≠ .close c
    · rw [liveAfter_same _ hclose (call.ne_opened lib (htarget ▸ Option.some_ne_none vm) p)]
      obtain ⟨α, answer, g, -, hg, hplain⟩ := call.answers lib htarget hclose
      rw [hplain]
      exact live_of_addressed hg answer p
    · obtain ⟨c, hc⟩ := not_forall_not.mp hclose
      subst hc
      exact close_live lib c p

/-- After any run there are the VMs that the calls and their answers say: those opened and not
closed since. -/
theorem live_run (calls : List DartCall) (p : Process H) :
    live (Run.final (plainStep lib) calls p) =
      (Run.trace (plainStep lib) calls p).foldl liveAfter (live p) := by
  induction calls generalizing p with
  | nil => rfl
  | cons call calls ih =>
    rw [Run.final_cons, Run.trace_cons, List.foldl_cons, ih, live_step]

end Live

end MachineNotebook.Dart.Calls
