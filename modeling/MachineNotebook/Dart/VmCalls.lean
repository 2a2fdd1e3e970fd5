import MachineNotebook.Dart.VmMethods

namespace MachineNotebook.Dart.VmCalls

open MachineNotebook.Lib MachineNotebook.Lib.Utf8 MachineNotebook.Lib.HeapLogic
open MachineNotebook.Lib.HeapLogic.Prog Bindings NativeMemory NativeBuffers Marshal VmMethods
open Host.Boot (Process)
open Host.VmTable Host.OneVm
open Session.Tick (AgentOsTickState)
open ExecCalls (ensureOpen liftWorld)
open Vm (AgentOsVm AgentOsExecOptions AgentOsExecResult AgentOsExecPollResult AgentOsSvcResult
  FreshExec FreshSvc Outcome)

variable {H : Type}

section TakeOutput

def aosVmTakeOutput (vm : UInt64) (buf cap : ℕ) : Native H Int32 := do
  let r ← world (liftWorld fun w ↦
    let (n, data, w) := Host.Consume.aosVmTakeOutput vm false cap w
    ((n, data), w))
  if 0 < r.2.length then writeFront buf r.2 else pure ()
  return r.1

def takeOutput (vm : AgentOsVm) (capacity : Int64) (fresh : Fresh) : Native H Bytes :=
  ensureOpen vm do
    let buf ← mallocBytes (.bytes (region capacity fresh))
    ensure
      (do
        let n ← aosVmTakeOutput vm.handle buf capacity.toUInt64.toNat
        if n < 0 then throwStateError "aos_vm_take_output"
        else readRegion buf n.toNatClampNeg)
      (free buf)

def plainTakeOutput (vm : AgentOsVm) (capacity : Int64) : World H → Outcome H Bytes :=
  Vm.ensureOpen vm fun w ↦
    let (n, data, w) := Host.Consume.aosVmTakeOutput vm.handle false capacity.toUInt64.toNat w
    if n < 0 then
      (.error (Utf16.encode "aos_vm_take_output failed: " ++ errorMessage w.lastError), w)
    else (.ok (data.take n.toNatClampNeg), w)

/-- There is no room at all, and the library says how many bytes it took. -/
def Overreads (vm : AgentOsVm) (capacity : Int64) (w : World H) : Prop :=
  vm.closed = false ∧ capacity = 0 ∧ vm.handle ≠ 0 ∧
    ∃ entry, w.vms vm.handle = some entry ∧ 0 < Int32.ofNat entry.sinks.takeDrain.1.length

theorem toNatClampNeg_ofNat_le (n : ℕ) : (Int32.ofNat n).toNatClampNeg ≤ n := by
  change (Int32.ofNat n).toInt.toNat ≤ n
  have hsize : Int32.size = 4294967296 := rfl
  rw [Int32.toInt_ofNat', Int.bmod_def, hsize]
  split
  · omega
  · omega

theorem toNatClampNeg_of_nonpos {n : Int32} (hn : ¬0 < n) : n.toNatClampNeg = 0 := by
  change n.toInt.toNat = 0
  have hint : ¬(0 : Int32).toInt < n.toInt := fun hlt ↦ hn (Int32.lt_iff_toInt_lt.mpr hlt)
  rw [Int32.toInt_zero] at hint
  omega

/-- No more is written than there is room for, and none without a VM. With room, the answer is
what was written. -/
theorem taken_bounds (vm : UInt64) (cap : ℕ) (w : World H) :
    (Host.Consume.aosVmTakeOutput vm false cap w).2.1.length ≤ cap ∧
      ((Host.Consume.aosVmTakeOutput vm false cap w).1.toNatClampNeg ≤
          (Host.Consume.aosVmTakeOutput vm false cap w).2.1.length ∨
        cap = 0 ∧ vm ≠ 0 ∧ ∃ entry, w.vms vm = some entry ∧
          (Host.Consume.aosVmTakeOutput vm false cap w).1 =
            Int32.ofNat entry.sinks.takeDrain.1.length) := by
  by_cases hvm : vm = 0
  · have hfails : Host.Consume.aosVmTakeOutput vm false cap w =
        (-1, [], w.clearError.setError "invalid handle") := by
      simp only [Host.Consume.aosVmTakeOutput, World.withVm, if_pos hvm]
    rw [hfails]
    exact ⟨Nat.zero_le cap, Or.inl le_rfl⟩
  · cases hentry : w.vms vm with
    | none =>
      have hfails : Host.Consume.aosVmTakeOutput vm false cap w =
          (-1, [], w.clearError.setError "unknown handle") := by
        have hclear : w.clearError.vms vm = none := hentry
        simp only [Host.Consume.aosVmTakeOutput, World.withVm, if_neg hvm, hclear]
      rw [hfails]
      exact ⟨Nat.zero_le cap, Or.inl le_rfl⟩
    | some entry =>
      cases cap with
      | zero =>
        rw [Host.Consume.aosVmTakeOutput_zero false hvm hentry]
        exact ⟨le_rfl, Or.inr ⟨rfl, hvm, entry, rfl, rfl⟩⟩
      | succ cap =>
        have htake : Host.Consume.aosVmTakeOutput vm false (cap + 1) w = _ :=
          Host.Consume.aosVmTakeOutput_take ⟨cap + 1, Nat.succ_pos cap⟩ hvm hentry
        rw [htake]
        exact ⟨List.length_take_le .., Or.inl (toNatClampNeg_ofNat_le _)⟩

variable {vm : AgentOsVm} {capacity : Int64} {fresh : Fresh}

section Memory

variable {base h : Heap Block} {ps : List (ℕ × Block)} {p : Process H} {buf cap : ℕ} {old : Bytes}
  {Q : Int32 → Process H → Heap Block → Prop} {E : DartString → Process H → Heap Block → Prop}

theorem spec_aosVmTakeOutput {handle : UInt64} (ho : Owns base ((buf, .bytes old) :: ps) h)
    (hcap : old.length = cap)
    (hQ : ∀ h', Owns base ((buf, .bytes (written old
        (Host.Consume.aosVmTakeOutput handle false cap p.toWorld).2.1)) :: ps) h' →
      Q (Host.Consume.aosVmTakeOutput handle false cap p.toWorld).1
        { p with toWorld := (Host.Consume.aosVmTakeOutput handle false cap p.toWorld).2.2 } h') :
    Spec (aosVmTakeOutput handle buf cap) Q E p h := by
  obtain ⟨hroom, -⟩ := taken_bounds handle cap p.toWorld
  unfold aosVmTakeOutput
  refine spec_bind (spec_world ?_)
  obtain ⟨n, data, w, hr⟩ : ∃ n data w,
      Host.Consume.aosVmTakeOutput handle false cap p.toWorld = (n, data, w) := ⟨_, _, _, rfl⟩
  simp only [liftWorld, hr] at hQ hroom ⊢
  by_cases hsome : 0 < data.length
  · rw [if_pos hsome]
    refine spec_bind (spec_writeAt [] ho (hcap ▸ hroom) fun h' ho' ↦ ?_)
    exact spec_pure (hQ h' ho')
  · rw [if_neg hsome]
    have hnil : data = [] := List.length_eq_zero_iff.mp (by omega)
    subst hnil
    exact spec_bind (spec_pure (spec_pure (hQ h ho)))

end Memory

theorem toNat_eq_zero_iff : capacity.toUInt64.toNat = 0 ↔ capacity = 0 := by
  refine ⟨fun hzero ↦ ?_, fun hzero ↦ by rw [hzero]; rfl⟩
  obtain ⟨c⟩ := capacity
  exact congrArg Int64.ofUInt64 (UInt64.toNat_inj.mp hzero)

/-- Unless there is no room at all, `takeOutput` is over memory what it is without. -/
theorem spec_takeOutput {p : Process H} (hfits : ¬Overreads vm capacity p.toWorld)
    (h : Heap Block) :
    Spec (takeOutput vm capacity fresh)
      (fun a p' h' ↦ Owns h [] h' ∧ liftWorld (plainTakeOutput vm capacity) p = (.ok a, p'))
      (fun e p' h' ↦ (Owns h [] h' ∧ liftWorld (plainTakeOutput vm capacity) p = (.error e, p')) ∨
        OutOfMemory h p e p' h') p h := by
  unfold takeOutput plainTakeOutput ensureOpen Vm.ensureOpen
  by_cases hclosed : vm.closed = true
  · simp only [hclosed, if_true]
    exact spec_throw (Or.inl ⟨Owns.start h, rfl⟩)
  · simp only [hclosed]
    have hbounds := taken_bounds vm.handle capacity.toUInt64.toNat p.toWorld
    refine spec_prepare (spec_mallocBytes (Owns.start h) fun buf h₁ ho₁ ↦ ?_)
    refine spec_tryFinally (fun h' ↦ ∃ bytes, Owns h [(buf, .bytes bytes)] h') ?_ ?_
    · refine spec_bind (spec_aosVmTakeOutput ho₁ (length_region ..) fun h₂ ho₂ ↦ ?_)
      obtain ⟨n, data, w, hr⟩ : ∃ n data w, Host.Consume.aosVmTakeOutput vm.handle false
          capacity.toUInt64.toNat p.toWorld = (n, data, w) := ⟨_, _, _, rfl⟩
      simp only [hr] at hbounds ho₂ ⊢
      by_cases hneg : n < 0
      · rw [if_pos hneg]
        unfold throwStateError readError
        refine spec_bind (spec_world (spec_throw ⟨?_, _, ho₂⟩))
        simp [liftWorld, hr, hneg]
      · rw [if_neg hneg]
        have hread : n.toNatClampNeg ≤ data.length := by
          obtain ⟨-, hread | ⟨hcap, hvm, entry, hentry, hn⟩⟩ := hbounds
          · exact hread
          · rw [toNatClampNeg_of_nonpos fun hpos ↦ hfits ⟨by simpa using hclosed,
              toNat_eq_zero_iff.mp hcap, hvm, entry, hentry, hn ▸ hpos⟩]
            exact Nat.zero_le _
        refine spec_readRegion ho₂ List.mem_cons_self hread ⟨?_, _, ho₂⟩
        simp [liftWorld, hr, hneg]
    · intro p' h' hheld
      obtain ⟨bytes, ho'⟩ := hheld
      exact spec_free ho' fun h'' ho'' ↦ ⟨rfl, ho''⟩

theorem takeOutput_refines (hcap : capacity ≠ 0) :
    Refines (takeOutput (H := H) vm capacity fresh) (liftWorld (plainTakeOutput vm capacity)) :=
  fun _ h ↦ spec_takeOutput (fun hover ↦ hcap hover.2.1) h

theorem faults_readRegion {base h : Heap Block} {ps : List (ℕ × Block)} {p : Process H} {a n : ℕ}
    {data : Bytes} (ho : Owns base ps h) (hmem : (a, .bytes data) ∈ ps) (hn : data.length < n) :
    Faults (readRegion a n) p h := by
  unfold readRegion
  rw [if_neg (by omega)]
  unfold copyFromAosBuf.readFront
  refine faults_bind (spec_load ho hmem (faults_bind (spec_expect rfl ?_)))
  rw [if_pos hn]
  rfl

/-- `takeOutput` reads behind its buffer exactly where there is no room at all and something was
taken, unless there is no memory for the empty buffer. -/
theorem takeOutput_faults_iff (p : Process H) (h : Heap Block) :
    Faults (takeOutput vm capacity fresh) p h ↔
      h.grants h.next = true ∧ Overreads vm capacity p.toWorld := by
  constructor
  · intro hfaults
    by_contra hnot
    by_cases hover : Overreads vm capacity p.toWorld
    · have hrefused : h.grants h.next = false :=
        Bool.eq_false_iff.mpr fun hgrant ↦ hnot ⟨hgrant, hover⟩
      refine Spec.not_faults (Q := fun _ _ _ ↦ True) (E := fun _ _ _ ↦ True) ?_ hfaults
      unfold takeOutput ensureOpen
      rw [hover.1]
      refine spec_bind (spec_mallocNext (Owns.start h) (fun hgrant ↦ ?_) fun _ _ _ _ ↦ trivial)
      rw [hrefused] at hgrant
      cases hgrant
    · exact (spec_takeOutput hover h).not_faults hfaults
  · intro hover
    obtain ⟨hgrant, hclosed, hcap, hvm, entry, hentry, hsome⟩ := hover
    unfold takeOutput ensureOpen
    rw [hclosed]
    refine faults_bind (spec_mallocNext (Owns.start h) (fun _ h₁ ho₁ _ ↦ ?_) fun hno ↦ ?_)
    · refine faults_ensure_left (faults_bind ?_)
      refine spec_aosVmTakeOutput ho₁ (length_region ..) fun h₂ ho₂ ↦ ?_
      have hzero : capacity.toUInt64.toNat = 0 := toNat_eq_zero_iff.mpr hcap
      rw [hzero, Host.Consume.aosVmTakeOutput_zero false hvm hentry] at ho₂ ⊢
      have hint := Int32.lt_iff_toInt_lt.mp hsome
      have hneg : ¬Int32.ofNat entry.sinks.takeDrain.1.length < 0 := fun hneg ↦ by
        have hlt := Int32.lt_iff_toInt_lt.mp hneg
        omega
      rw [if_neg hneg]
      refine faults_readRegion ho₂ List.mem_cons_self ?_
      rw [written, List.nil_append, List.length_drop, length_region, hzero]
      change 0 - 0 < (Int32.ofNat entry.sinks.takeDrain.1.length).toInt.toNat
      rw [Int32.toInt_zero] at hint
      omega
    · rw [hgrant] at hno
      cases hno

theorem taken_own (handle : UInt64) (cap : ℕ) (w : World H) :
    ∃ n data entry e, (entry = none ↔ w.vms handle = none) ∧
      ∀ w' : World H, w'.vms handle = w.vms handle →
        Host.Consume.aosVmTakeOutput handle false cap w' =
          (n, data, { vms := Function.update w'.vms handle entry, lastError := e }) := by
  by_cases hvm : handle = 0
  · refine ⟨-1, [], w.vms handle, "invalid handle", Iff.rfl, fun w' hw ↦ ?_⟩
    simp only [Host.Consume.aosVmTakeOutput, World.withVm, if_pos hvm]
    rw [← hw, Function.update_eq_self]
    rfl
  · cases hentry : w.vms handle with
    | none =>
      refine ⟨-1, [], none, "unknown handle", Iff.rfl, fun w' hw ↦ ?_⟩
      have hclear : w'.clearError.vms handle = none := hw
      simp only [Host.Consume.aosVmTakeOutput, World.withVm, if_neg hvm, hclear]
      rw [← hw, Function.update_eq_self]
      rfl
    | some entry =>
      cases cap with
      | zero =>
        refine ⟨_, _, _, _, ?_, fun w' hw ↦ Host.Consume.aosVmTakeOutput_zero false hvm hw⟩
        exact iff_of_false (Option.some_ne_none _) (Option.some_ne_none _)
      | succ cap =>
        refine ⟨_, _, _, _, ?_, fun w' hw ↦
          Host.Consume.aosVmTakeOutput_take ⟨cap + 1, Nat.succ_pos cap⟩ hvm hw⟩
        exact iff_of_false (Option.some_ne_none _) (Option.some_ne_none _)

theorem addressed_takeOutput : Addressed (H := H) vm.handle (plainTakeOutput vm capacity) := by
  refine addressed_ensureOpen ?_
  constructor
  · intro w w' hw
    obtain ⟨n, data, entry, e, -, hall⟩ := taken_own vm.handle capacity.toUInt64.toNat w
    rw [hall w rfl, hall w' hw.symm]
    by_cases hneg : n < 0
    · simp [hneg]
    · simp [hneg]
  · intro w g hg
    obtain ⟨n, data, entry, e, -, hall⟩ := taken_own vm.handle capacity.toUInt64.toNat w
    rw [hall w rfl]
    by_cases hneg : n < 0
    · simp [hneg, Function.update_of_ne hg]
    · simp [hneg, Function.update_of_ne hg]
  · intro w
    obtain ⟨n, data, entry, e, hkept, hall⟩ := taken_own vm.handle capacity.toUInt64.toNat w
    rw [hall w rfl, ← hkept]
    by_cases hneg : n < 0
    · simp [hneg]
    · simp [hneg]

end TakeOutput

section Calls

/-- A call of a method on a VM, with all that the app passes. -/
inductive VmCall
  | tick
  | tickN (n : Int64)
  | sendInput (data : Bytes)
  | takeOutputEx (streamMask capacity : Int64) (fresh : Fresh)
  | status
  | exec (cmd : DartString) (maxTicks stdoutCap stderrCap : Int64) (fresh : FreshExec)
  | execStart (cmd : DartString) (opts : Option AgentOsExecOptions)
  | runStart (program : DartString) (args : List DartString) (opts : Option AgentOsExecOptions)
  | execPoll (job stdoutCap stderrCap : Int64) (fresh : FreshExec)
  | execStdoutPeek (job capacity : Int64) (fresh : Fresh)
  | execCancel (job : Int64)
  | autocomplete (source : DartString) (cursorByte : Int64) (opts : Option AgentOsExecOptions)
    (capacity : Int64) (fresh : Fresh)
  | svcCall (service : DartString) (request : Bytes) (bodyCap : Int64) (fresh : FreshSvc)
  | readFile (path : DartString) (capacity : Int64) (fresh : Fresh)
  | writeFile (path : DartString) (data : Bytes)
  | readdir (path : DartString) (capacity : Int64) (fresh : Fresh)
  | stat (path : DartString)
  | readlink (path : DartString) (capacity : Int64) (fresh : Fresh)
  | mkdir (path : DartString)
  | unlink (path : DartString)
  | chmod (path : DartString) (mode : Int64)
  | symlink (target linkPath : DartString)
  | mount (path : DartString) (readOnly : Bool)
  | unmount (path : DartString)
  | snapshotInto (capacity : Int64) (fresh : Fresh)
  | relayNext (capacity : Int64) (fresh : Fresh)
  | relayNextSidecar (capacity : Int64) (fresh : Fresh)
  | relayHttpRespond (relayHandle : Int64) (ok : Bool) (head body : Option Bytes)
  | relayHostCallRespond (relayHandle : Int64) (ok : Bool) (result : Option Bytes)
  | relayPersistRespond (relayHandle : Int64) (ok : Bool) (body : Option Bytes)
  | relayToolApprovalRespond (relayHandle : Int64) (allow rememberSession : Bool)
  | relayWsOpen (relayHandle : Int64) (ok : Bool)
  | relayWsPush (relayHandle : Int64) (data : Bytes)
  | relayWsClose (relayHandle : Int64)
  | injectCatalog (compilerWasm catalogBlob : Bytes) (generation statusCap : Int64) (fresh : Fresh)
  | setPerfEnabled (on : Bool)
  | scrubPerf
  | takeCommandPerf (capacity : Int64) (fresh : Fresh)

inductive VmAnswer
  | done
  | tickState (state : AgentOsTickState)
  | bytes (data : Bytes)
  | status (info : AgentOsVmStatusInfo)
  | ran (result : AgentOsExecResult)
  | job (id : Int64)
  | polled (result : AgentOsExecPollResult)
  | svc (result : AgentOsSvcResult)
  | stat (st : AgentOsFileStat)

def silently (m : Method H Unit) : Method H VmAnswer := m.map fun _ ↦ .done

variable (k : VmKernel H)

def VmCall.method : VmCall → Method H VmAnswer
  | .tick => (VmMethods.tick k).map .tickState
  | .tickN n => (VmMethods.tickN k n).map .tickState
  | .sendInput data => silently (VmMethods.sendInput k data)
  | .takeOutputEx mask capacity fresh => (VmMethods.takeOutputEx mask capacity fresh).map .bytes
  | .status => (VmMethods.status k).map .status
  | .exec cmd maxTicks stdoutCap stderrCap fresh =>
    (VmMethods.exec k cmd maxTicks stdoutCap stderrCap fresh).map .ran
  | .execStart cmd opts => (VmMethods.execStart k cmd opts).map .job
  | .runStart program args opts => (VmMethods.runStart k program args opts).map .job
  | .execPoll job stdoutCap stderrCap fresh =>
    (VmMethods.execPoll k job stdoutCap stderrCap fresh).map .polled
  | .execStdoutPeek job capacity fresh => (VmMethods.execStdoutPeek k job capacity fresh).map .bytes
  | .execCancel job => silently (VmMethods.execCancel k job)
  | .autocomplete source cursorByte opts capacity fresh =>
    (VmMethods.autocomplete k source cursorByte opts capacity fresh).map .bytes
  | .svcCall service request bodyCap fresh =>
    (VmMethods.svcCall k service request bodyCap fresh).map .svc
  | .readFile path capacity fresh => (VmMethods.readFile k path capacity fresh).map .bytes
  | .writeFile path data => silently (VmMethods.writeFile k path data)
  | .readdir path capacity fresh => (VmMethods.readdir k path capacity fresh).map .bytes
  | .stat path => (VmMethods.stat k path).map .stat
  | .readlink path capacity fresh => (VmMethods.readlink k path capacity fresh).map .bytes
  | .mkdir path => silently (VmMethods.mkdir k path)
  | .unlink path => silently (VmMethods.unlink k path)
  | .chmod path mode => silently (VmMethods.chmod k path mode)
  | .symlink target linkPath => silently (VmMethods.symlink k target linkPath)
  | .mount path readOnly => silently (VmMethods.mount k path readOnly)
  | .unmount path => silently (VmMethods.unmount k path)
  | .snapshotInto capacity fresh => (VmMethods.snapshotInto k capacity fresh).map .bytes
  | .relayNext capacity fresh => (VmMethods.relayNext k capacity fresh).map .bytes
  | .relayNextSidecar capacity fresh => (VmMethods.relayNextSidecar k capacity fresh).map .bytes
  | .relayHttpRespond handle ok head body =>
    silently (VmMethods.relayHttpRespond handle ok head body)
  | .relayHostCallRespond handle ok result =>
    silently (VmMethods.relayHostCallRespond handle ok result)
  | .relayPersistRespond handle ok body => silently (VmMethods.relayPersistRespond handle ok body)
  | .relayToolApprovalRespond handle allow rememberSession =>
    silently (VmMethods.relayToolApprovalRespond handle allow rememberSession)
  | .relayWsOpen handle ok => silently (VmMethods.relayWsOpen handle ok)
  | .relayWsPush handle data => silently (VmMethods.relayWsPush handle data)
  | .relayWsClose handle => silently (VmMethods.relayWsClose handle)
  | .injectCatalog compilerWasm catalogBlob generation statusCap fresh =>
    (VmMethods.injectCatalog k compilerWasm catalogBlob generation statusCap fresh).map .bytes
  | .setPerfEnabled on => silently (VmMethods.setPerfEnabled k on)
  | .scrubPerf => silently (VmMethods.scrubPerf k)
  | .takeCommandPerf capacity fresh => (VmMethods.takeCommandPerf k capacity fresh).map .bytes

def VmCall.native (vm : AgentOsVm) (call : VmCall) : Native H VmAnswer := (call.method k).native vm

def VmCall.plain (vm : AgentOsVm) (call : VmCall) : World H → Outcome H VmAnswer :=
  (call.method k).plain vm

/-- Every method comes over real memory to what it is without, and gives all of it back. -/
theorem vmCall_refines (vm : AgentOsVm) (call : VmCall) :
    Refines (call.native k vm) (liftWorld (call.plain k vm)) :=
  (call.method k).native_refines vm

end Calls

/-! The methods without memory are what they were where their calls of the library were written
out as one. -/

section Agree

variable (k : VmKernel H) (vm : AgentOsVm) {α : Type}

theorem finish_eq_check (m : Method H α) {S : Type} (read : S → α) (put : m.R → S → S) (slots : S)
    (hstatus : ∀ x, m.res.status x = kAosOk) (hvalue : ∀ x, m.res.value x = read (put x slots))
    (r : Except String m.R × World H) :
    m.finish r = Vm.check m.op read (Host.Exec.finish put slots r) := by
  obtain ⟨e | x, w⟩ := r
  · rfl
  · simp [Method.finish, Vm.check, Host.Exec.finish, hstatus, hvalue, kAosOk]

theorem svcCall_plain (service : DartString) (request : Bytes) (bodyCap : Int64)
    (fresh : FreshSvc) :
    (VmMethods.svcCall k service request bodyCap fresh).plain vm =
      Vm.svcCall k.jobs.toKernel vm service request bodyCap fresh := by
  refine congrArg (Vm.ensureOpen vm) (funext fun w ↦ ?_)
  exact finish_eq_check (VmMethods.svcCall k service request bodyCap fresh) Vm.readSvc
    Host.Exec.SvcSlots.put ⟨some fresh.outStatus, some (allocAosBuf bodyCap fresh.outBody)⟩
    (fun _ ↦ rfl) (fun _ ↦ rfl) _

theorem execPoll_plain (job stdoutCap stderrCap : Int64) (fresh : FreshExec) :
    (VmMethods.execPoll k job stdoutCap stderrCap fresh).plain vm =
      Vm.execPoll k.jobs.toKernel vm job stdoutCap stderrCap fresh := by
  refine congrArg (Vm.ensureOpen vm) (funext fun w ↦ ?_)
  refine finish_eq_check (VmMethods.execPoll k job stdoutCap stderrCap fresh) Vm.readExecPoll
    Host.Exec.ExecSlots.putPoll
    { Vm.execSlots stdoutCap stderrCap fresh with outDone := some fresh.outDone }
    (fun r ↦ ?_) (fun r ↦ ?_) _
  · cases r with
    | none => rfl
    | some result => rfl
  · cases r with
    | none => rfl
    | some result => rfl

theorem fetching_plain (op : String) (fetch : UInt64 → Host.Consume.Fetch H)
    (hfetch : ∀ vm, Reaches vm (fetch vm)) (capacity : Int64) (fresh : Fresh) :
    (fetching op fetch hfetch capacity fresh).plain vm = Vm.ensureOpen vm fun w ↦
      Vm.check op Vm.readBuf
        (Host.Consume.deliver op (fetch vm.handle) (some (allocAosBuf capacity fresh)) w) := by
  refine congrArg (Vm.ensureOpen vm) (funext fun w ↦ ?_)
  unfold Host.Consume.deliver
  change (fetching op fetch hfetch capacity fresh).finish (fetch vm.handle w.clearError) = _
  obtain ⟨r, w', hr⟩ : ∃ r w', fetch vm.handle w.clearError = (r, w') := ⟨_, _, rfl⟩
  simp only [hr]
  cases r with
  | error e => rfl
  | ok data =>
    cases data with
    | none =>
      have hempty (b : Host.Buf.AosBuf) : Bindings.copyFromAosBuf { b with len := 0 } = [] := by
        obtain ⟨ptr, cap, len, hregion⟩ := b
        cases ptr with
        | none => rfl
        | some bytes => simp [Bindings.copyFromAosBuf]
      simp [Method.finish, Vm.check, Vm.readBuf, fetching, fetchBuf, hempty, kAosOk]
    | some data =>
      by_cases hrc : (Host.Buf.fillBuf (some (allocAosBuf capacity fresh)) data).1 = kAosOk
      · simp [Method.finish, Vm.check, fetching, fetchBuf, Marshal.buf, readFilled, hrc]
      · simp [Method.finish, Method.thrown, Vm.check, fetching, fetchBuf, Marshal.buf, hrc]

end Agree

section Ticks

variable (k : VmKernel H) {vm : AgentOsVm}

def turns (n : Int64) : ℕ := n.toUInt64.toUInt32.toNat

theorem turns_eq {n : Int64} (hn : 0 ≤ n) (hlt : n.toInt < UInt32.size) :
    (turns n : ℤ) = n.toInt := by
  have hnat : n.toUInt64.toNat = n.toInt.toNat := Int64.toNat_toUInt64_of_le hn
  have hint := Int64.le_iff_toInt_le.mp hn
  have hsize : UInt32.size = 4294967296 := rfl
  unfold turns
  rw [UInt64.toNat_toUInt32, hnat]
  rw [Int64.toInt_zero] at hint
  rw [hsize] at hlt
  omega

theorem turns_pos {n : Int64} (hn : 0 < n) (hlt : n.toInt < UInt32.size) : 0 < turns n := by
  have hturns := turns_eq (Int64.le_of_lt hn) hlt
  have hint := Int64.lt_iff_toInt_lt.mp hn
  rw [Int64.toInt_zero] at hint
  omega

theorem turns_add {m n : Int64} (hm : 0 ≤ m) (hn : 0 ≤ n)
    (hroom : m.toInt + n.toInt < UInt32.size) : turns (m + n) = turns m + turns n := by
  have hm' := Int64.le_iff_toInt_le.mp hm
  have hn' := Int64.le_iff_toInt_le.mp hn
  rw [Int64.toInt_zero] at hm' hn'
  have hturns := turns_eq hm (by omega)
  have hturns' := turns_eq hn (by omega)
  have hsize : UInt32.size = 4294967296 := rfl
  have hsum : turns (m + n) = (turns m + turns n) % UInt32.size := by
    unfold turns
    rw [Int64.toUInt64_add, UInt64.toUInt32_add, UInt32.toNat_add]
  rw [hsum, hsize]
  rw [hsize] at hroom
  omega

/-- What the loop over the turns of a VM comes to. -/
def ticked (vm : UInt64) (w : World H) (r : Except String Int32 × Vm H) :
    Outcome H AgentOsTickState :=
  match r with
  | (.ok last, entry) =>
    (.ok (tickStateFromInt last), { vms := Function.update w.vms vm (some entry), lastError := "" })
  | (.error e, entry) =>
    (.error (Utf16.encode "aos_vm_tick_n failed: " ++ errorMessage ("tick failed: " ++ e)),
      { vms := Function.update w.vms vm (some entry), lastError := "tick failed: " ++ e })

theorem ticked_ticked (handle : UInt64) (w : World H) (r r' : Except String Int32 × Host.VmTable.Vm H) :
    ticked handle (ticked handle w r).2 r' = ticked handle w r' := by
  obtain ⟨e | last, entry⟩ := r
  · obtain ⟨e' | last', entry'⟩ := r'
    · simp [ticked]
    · simp [ticked]
  · obtain ⟨e' | last', entry'⟩ := r'
    · simp [ticked]
    · simp [ticked]

theorem tickN_plain {w : World H} {entry : Host.VmTable.Vm H} (n : Int64)
    (hopen : vm.closed = false) (hvm : vm.handle ≠ 0) (hentry : w.vms vm.handle = some entry) :
    (tickN k n).plain vm w = ticked vm.handle w (Host.Tty.tickLoop k.tty (turns n) 1 entry) := by
  have hclear : w.clearError.vms vm.handle = some entry := hentry
  have hplain : (tickN k n).plain vm w =
      (tickN k n).finish (Host.Tty.tickNRequest k.tty vm.handle n.toUInt64.toUInt32 w.clearError) := by
    simp only [Method.plain, Vm.ensureOpen, hopen]
    rfl
  rw [hplain, Host.Tty.tickNRequest, World.withHostMut, World.withVm_some hvm hclear]
  unfold turns
  obtain ⟨r, entry', hr⟩ : ∃ r entry',
      Host.Tty.tickLoop k.tty n.toUInt64.toUInt32.toNat 1 entry = (r, entry') := ⟨_, _, rfl⟩
  rw [hr]
  cases r with
  | error e => rfl
  | ok last => rfl

theorem tickN_missing {w : World H}
    (hgone : vm.closed = true ∨ vm.handle = 0 ∨ w.vms vm.handle = none) :
    ∃ e w', ∀ n, (tickN k n).plain vm w = (.error e, w') := by
  by_cases hclosed : vm.closed = true
  · exact ⟨_, w, fun n ↦ if_pos hclosed⟩
  · have hplain (n : Int64) : (tickN k n).plain vm w = (tickN k n).finish
        (Host.Tty.tickNRequest k.tty vm.handle n.toUInt64.toUInt32 w.clearError) :=
      if_neg hclosed
    by_cases hvm : vm.handle = 0
    · refine ⟨(tickN k 0).thrown "invalid handle", w.clearError.setError "invalid handle",
        fun n ↦ ?_⟩
      rw [hplain, Host.Tty.tickNRequest, World.withHostMut, World.withVm, if_pos hvm]
      rfl
    · have hnone : w.clearError.vms vm.handle = none :=
        (hgone.resolve_left hclosed).resolve_left hvm
      refine ⟨(tickN k 0).thrown "unknown handle", w.clearError.setError "unknown handle",
        fun n ↦ ?_⟩
      rw [hplain, Host.Tty.tickNRequest, World.withHostMut, World.withVm, if_neg hvm, hnone]
      rfl

theorem tickState_runnable (last : Int32) : tickStateFromInt last = .runnable ↔ last = 0 := by
  unfold tickStateFromInt
  by_cases hzero : last = 0
  · simp [hzero]
  · by_cases htwo : last = 2
    · simp [htwo]
    · simp [hzero, htwo]

/-- Turns asked for at once are turns asked for one part after the other, for as long as the guest
is runnable. -/
theorem tickN_add {m n : Int64} (hm : 0 < m) (hn : 0 < n) (hroom : m.toInt + n.toInt < UInt32.size)
    (w : World H) :
    (tickN k (m + n)).plain vm w =
      match (tickN k m).plain vm w with
      | (.ok .runnable, w) => (tickN k n).plain vm w
      | r => r := by
  by_cases hgone : vm.closed = true ∨ vm.handle = 0 ∨ w.vms vm.handle = none
  · obtain ⟨e, w', hall⟩ := tickN_missing k hgone
    rw [hall, hall]
  · simp only [not_or] at hgone
    obtain ⟨hopen, hvm, hsome⟩ := hgone
    have hopen : vm.closed = false := Bool.eq_false_iff.mpr hopen
    obtain ⟨entry, hentry⟩ := Option.ne_none_iff_exists'.mp hsome
    have hsum := turns_add (Int64.le_of_lt hm) (Int64.le_of_lt hn) hroom
    have hm' := Int64.lt_iff_toInt_lt.mp hm
    have hn' := Int64.lt_iff_toInt_lt.mp hn
    rw [Int64.toInt_zero] at hm' hn'
    have hmpos := turns_pos hm (by omega)
    have hnpos := turns_pos hn (by omega)
    rw [tickN_plain k _ hopen hvm hentry, tickN_plain k _ hopen hvm hentry, hsum,
      Host.Tty.tickLoop_add k.tty hmpos]
    obtain ⟨r, entry', hr⟩ : ∃ r entry',
        Host.Tty.tickLoop k.tty (turns m) 1 entry = (r, entry') := ⟨_, _, rfl⟩
    rw [hr]
    cases r with
    | error e => rfl
    | ok last =>
      by_cases hlast : last = 0
      · subst hlast
        have hnext : (ticked vm.handle w (.ok 0, entry')).2.vms vm.handle = some entry' :=
          Function.update_self ..
        have hrest := tickN_plain k n hopen hvm hnext
        rw [Host.Tty.tickLoop_last k.tty hnpos 1 0, ticked_ticked] at hrest
        exact hrest.symm
      · simp only [ticked, ne_eq, hlast, not_false_eq_true, if_true]
        split
        · rename_i heq
          have hstate := Except.ok.inj (congrArg Prod.fst heq)
          exact absurd ((tickState_runnable last).mp hstate) hlast
        · rfl

def idleKernel : VmKernel ℕ where
  jobs :=
    { exec := fun _ _ _ vm ↦ (.ok ⟨[], [], 0⟩, vm)
      run := fun _ _ _ _ vm ↦ (.ok ⟨[], [], 0⟩, vm)
      execPoll := fun _ vm ↦ (.ok none, vm)
      serviceCall := fun _ _ vm ↦ (.ok ⟨0, []⟩, vm)
      takeCommandPerf := fun host ↦ (none, host)
      execStdoutPeek := fun _ vm ↦ (.ok [], vm)
      execCancel := fun _ vm ↦ (.ok (), vm) }
  files :=
    { readFile := fun _ vm ↦ (.ok [], vm)
      writeFile := fun _ _ vm ↦ (.ok (), vm)
      readdir := fun _ vm ↦ (.ok [], vm)
      stat := fun _ vm ↦ (.ok ⟨0, true, false, 1, 0⟩, vm)
      readlink := fun _ vm ↦ (.ok "", vm)
      mkdir := fun _ vm ↦ (.ok (), vm)
      unlink := fun _ vm ↦ (.ok (), vm)
      unmount := fun _ vm ↦ (.ok (), vm)
      chmod := fun _ _ vm ↦ (.ok (), vm)
      symlink := fun _ _ vm ↦ (.ok (), vm)
      mount := fun _ _ vm ↦ (.ok (), vm) }
  tty :=
    { tick := fun vm ↦ (.ok .runnable, { vm with host := vm.host + 1 })
      sendInput := fun _ vm ↦ (.ok (), vm)
      counters := fun vm ↦ (⟨0, none, true, 0, false, none, none⟩, vm) }
  starts :=
    { execStart := fun _ _ vm ↦ (.ok 1, vm)
      runStart := fun _ _ _ vm ↦ (.ok 1, vm)
      autocomplete := fun _ _ _ vm ↦ (.ok ⟨0, 0, "", false, []⟩, vm) }
  perf :=
    { setPerfEnabled := fun _ vm ↦ (.ok (), vm)
      scrubPerf := fun vm ↦ (.ok (), vm) }
  catalog :=
    { jsonParse := fun _ ↦ .error .parse
      debugStr := id
      debugChar := Char.toString
      injectCatalog := fun _ vm ↦ (.ok none, vm) }
  snapshots :=
    { snapshot := fun vm ↦ (.ok [], vm)
      snapshotIncremental := fun base vm ↦ (.ok base, vm)
      commitLayer := fun vm ↦ (.ok ([], []), vm) }
  tables :=
    { graphemeExtended := fun _ ↦ false
      printable := fun c ↦ decide (' ' ≤ c)
      ascii := fun _ _ ↦ ⟨rfl, rfl⟩ }
  jsonToString _ := ""
  encodeEvent _ := []

def idleWorld : World ℕ where
  vms handle := if handle = 1 then some ⟨0, .empty, .new⟩ else none
  lastError := ""

theorem tickN_add_five :
    (((tickN idleKernel (3 + 2)).plain ⟨1, false⟩ idleWorld).2.vms 1).map Host.VmTable.Vm.host =
      some 5 := by
  rw [tickN_add idleKernel (by decide) (by decide) (by decide)]
  rfl

end Ticks

end MachineNotebook.Dart.VmCalls
