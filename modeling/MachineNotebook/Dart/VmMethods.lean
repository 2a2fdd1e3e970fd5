import MachineNotebook.Dart.Marshal
import MachineNotebook.Dart.SnapshotCalls
import MachineNotebook.Host.OneVm
import MachineNotebook.Session.Tick

namespace MachineNotebook.Dart.VmMethods

open MachineNotebook.Lib MachineNotebook.Lib.Utf8 MachineNotebook.Lib.HeapLogic
open MachineNotebook.Lib.HeapLogic.Prog MachineNotebook.Lib.ForeignCall
open Bindings NativeMemory NativeBuffers Marshal
open Host.Boot (Process)
open Host.VmTable Host.KernelHost Host.Exec Host.Jobs Host.Files Host.Tty Host.Requests Host.OneVm
open Host.Consume (Fetch fetchEvent fetchOutput fetchPerf)
open Host.JsonText (UnicodeTables aosVmReaddir aosVmAutocomplete encodeStatus)
open ExecCalls (ensureOpen liftWorld refines_ensureOpen)
open SnapshotCalls (Snapshots snapshotIntoRequest)
open Session.Tick (AgentOsTickState)
open Vm (AgentOsVm AgentOsExecOptions AgentOsExecResult AgentOsExecPollResult AgentOsSvcResult
  FreshExec FreshSvc Outcome)

variable {H α γ : Type}

/-- A method of `AgentOsVm`: the call of the host library that it makes, what it passes to it,
and where the answer goes. -/
structure Method (H α : Type) where
  A : Type
  R : Type
  op : String
  arg : Passed H A
  res : Answered H R α
  request : UInt64 → A → World H → Except String R × World H
  reaches : ∀ vm a, Reaches vm (request vm a)

namespace Method

variable (m : Method H α)

def serve (vm : UInt64) (a : m.A) (w : World H) : Except Int32 m.R × World H :=
  match m.request vm a w.clearError with
  | (.ok r, w) => (.ok r, w)
  | (.error e, w) => (.error (-1), w.setError e)

def thrown (lastError : String) : DartString :=
  Utf16.encode (m.op ++ " failed: ") ++ errorMessage lastError

def failure (rc : Int32) (p : Process H) : Option DartString :=
  if rc ≠ kAosOk then some (m.thrown p.lastError) else none

def native (vm : AgentOsVm) : Native H α :=
  ensureOpen vm (exchange m.arg m.res (fun a ↦ liftWorld (m.serve vm.handle a)) m.failure)

def finish (r : Except String m.R × World H) : Outcome H α :=
  match r with
  | (.ok x, w) =>
    (if m.res.status x ≠ kAosOk then .error (m.thrown w.lastError) else .ok (m.res.value x), w)
  | (.error e, w) => (.error (m.thrown e), w.setError e)

/-- The method with the memory left out. -/
def plain (vm : AgentOsVm) : World H → Outcome H α :=
  Vm.ensureOpen vm fun w ↦ m.finish (m.request vm.handle m.arg.value w.clearError)

def map (f : α → γ) : Method H γ where
  A := m.A
  R := m.R
  op := m.op
  arg := m.arg
  res := m.res.map f
  request := m.request
  reaches := m.reaches

end Method

section Refines

variable (m : Method H α) (vm : AgentOsVm)

/-- Over real memory a method is what it is without. -/
theorem Method.native_refines : Refines (m.native vm) (liftWorld (m.plain vm)) := by
  refine refines_ensureOpen fun p h ↦ ?_
  have hplain : plainExchange m.arg m.res (fun a ↦ liftWorld (m.serve vm.handle a)) m.failure p =
      liftWorld (fun w ↦ m.finish (m.request vm.handle m.arg.value w.clearError)) p := by
    obtain ⟨r, w, hr⟩ : ∃ r w, m.request vm.handle m.arg.value p.toWorld.clearError = (r, w) :=
      ⟨_, _, rfl⟩
    cases r with
    | error e => simp [plainExchange, liftWorld, Method.serve, Method.finish, Method.failure, hr,
        kAosOk, World.setError]
    | ok x =>
      by_cases hrc : m.res.status x = kAosOk
      · simp [plainExchange, liftWorld, Method.serve, Method.finish, Method.failure, hr, hrc]
      · simp [plainExchange, liftWorld, Method.serve, Method.finish, Method.failure, hr, hrc]
  rw [← hplain]
  refine exchange_refines m.arg m.res _ _ (fun a p rc p' hserve ↦ ?_) p h
  obtain ⟨r, w, hr⟩ : ∃ r w, m.request vm.handle a p.toWorld.clearError = (r, w) := ⟨_, _, rfl⟩
  cases r with
  | error e =>
    simp only [liftWorld, Method.serve, hr, Prod.mk.injEq, Except.error.injEq] at hserve
    obtain ⟨rfl, -⟩ := hserve
    simp [Method.failure, kAosOk]
  | ok x => simp [liftWorld, Method.serve, hr] at hserve

theorem addressed_ensureOpen {c : AgentOsVm} {f : World H → Outcome H α}
    (hf : Addressed c.handle f) : Addressed c.handle (Vm.ensureOpen c f) := by
  unfold Vm.ensureOpen
  by_cases hclosed : c.closed = true
  · simp only [hclosed, if_true]
    exact (reaches_const _).toAddressed
  · simp only [hclosed]
    exact hf

theorem Method.finish_eq (r : Except String m.R × World H) :
    m.finish r = ((m.finish (r.1, ⟨fun _ ↦ none, r.2.lastError⟩)).1,
      { r.2 with lastError := (m.finish (r.1, ⟨fun _ ↦ none, r.2.lastError⟩)).2.lastError }) := by
  obtain ⟨e | x, w⟩ := r
  · rfl
  · rfl

theorem Method.plain_addressed : Addressed vm.handle (m.plain vm) := by
  refine addressed_ensureOpen ?_
  have hpost := (m.reaches vm.handle m.arg.value).post
    (fun r e ↦ (m.finish (r, ⟨fun _ ↦ none, e⟩)).1)
    (fun r e ↦ (m.finish (r, ⟨fun _ ↦ none, e⟩)).2.lastError)
  refine hpost.congr fun w ↦ ?_
  exact m.finish_eq _

end Refines

structure VmKernel (H : Type) where
  jobs : JobKernel H
  files : FileKernel H
  tty : TtyKernel H
  starts : StartKernel H
  perf : PerfKernel H
  catalog : CatalogKernel H
  snapshots : Snapshots H
  tables : UnicodeTables
  jsonToString : Json.Value → String
  encodeEvent : Host.Relay.WireRelayEvent → Bytes

/-- A method that fetches a payload, if there is one, into a buffer of its own. -/
def fetching (op : String) (fetch : UInt64 → Fetch H) (reaches : ∀ vm, Reaches vm (fetch vm))
    (capacity : Int64) (fresh : Fresh) : Method H Bytes where
  A := Unit
  R := Option Bytes
  op := op
  arg := .none
  res := fetchBuf capacity fresh
  request vm _ := fetch vm
  reaches vm _ := reaches vm

section Tty

variable (k : VmKernel H)

def tickStateFromInt (v : Int32) : AgentOsTickState :=
  if v = 0 then .runnable else if v = 2 then .exited else .waiting

def tick : Method H AgentOsTickState where
  A := Unit
  R := Int32
  op := "aos_vm_tick"
  arg := .none
  res := int32.map tickStateFromInt
  request vm _ := tickRequest k.tty vm
  reaches _ _ := reaches_withHostMut _ _

def tickN (n : Int64) : Method H AgentOsTickState where
  A := Unit
  R := Int32
  op := "aos_vm_tick_n"
  arg := .none
  res := int32.map tickStateFromInt
  request vm _ := tickNRequest k.tty vm n.toUInt64.toUInt32
  reaches _ _ := reaches_withHostMut _ _

def sendInput (data : Bytes) : Method H Unit where
  A := Option Bytes
  R := Unit
  op := "aos_vm_send_input"
  arg := bytes data
  res := .unit kAosOk
  request vm a := sendInputRequest k.tty vm a data.length
  reaches _ _ := reaches_sendInput _ _ _

def takeOutputEx (streamMask : Int64) (capacity : Int64) (fresh : Fresh) : Method H Bytes :=
  fetching "aos_vm_take_output_ex" (fun vm ↦ fetchOutput vm streamMask.toInt32)
    (fun _ ↦ reaches_withVm _) capacity fresh

structure AgentOsVmStatusInfo where
  bytesWritten : Int64
  exitCode : Int32
  atPrompt : Bool
  workers : UInt32
  hasWorkerEntry : Bool
  inflightEgress : UInt32
  pendingCommits : UInt32

def statusInfo (st : AosVmStatus) : AgentOsVmStatusInfo where
  bytesWritten := st.bytesWritten.toInt64
  exitCode := st.exitCode
  atPrompt := st.atPrompt != 0
  workers := st.workers
  hasWorkerEntry := st.hasWorkerEntry != 0
  inflightEgress := st.inflightEgress
  pendingCommits := st.pendingCommits

def status : Method H AgentOsVmStatusInfo where
  A := Unit
  R := AosVmStatus
  op := "aos_vm_status"
  arg := .none
  res := vmStatus.map statusInfo
  request vm _ := statusRequest k.tty vm false
  reaches _ _ := reaches_ite _ fun _ ↦ reaches_withVm _

end Tty

section Jobs

variable (k : VmKernel H)

def exec (cmd : DartString) (maxTicks : Int64) (stdoutCap stderrCap : Int64) (fresh : FreshExec) :
    Method H AgentOsExecResult where
  A := Option Bytes
  R := ExecResult
  op := "aos_vm_exec"
  arg := cstring cmd
  res := command stdoutCap stderrCap fresh
  request vm a := execRequest vm k.jobs.toKernel a maxTicks.toUInt64
  reaches _ _ := reaches_exec _ _ _

def execStart (cmd : DartString) (opts : Option AgentOsExecOptions) : Method H Int64 where
  A := Option Bytes × Option Host.Exec.AosExecOpts
  R := Int32
  op := "aos_vm_exec_start"
  arg := (cstring cmd).pair (execOpts opts)
  res := int64.on Int32.toInt64
  request vm a := execStartRequest k.starts vm a.1 a.2 false
  reaches _ _ := reaches_withArgs _ _ <| reaches_withStr _ _ fun _ ↦
    reaches_withOpts _ fun _ ↦ reaches_withHostMut _ _

def runStart (program : DartString) (args : List DartString) (opts : Option AgentOsExecOptions) :
    Method H Int64 where
  A := Option Bytes × List (Option Bytes) × Option Host.Exec.AosExecOpts
  R := Int32
  op := "aos_vm_run_start"
  arg := (cstring program).pair ((argv args).pair (execOpts opts))
  res := int64.on Int32.toInt64
  request vm a := runStartRequest k.starts vm a.1 (some a.2.1) args.length a.2.2 false
  reaches _ _ := reaches_runStart _ _ _ _ _ _

def commandResult (stdoutCap stderrCap : Int64) (fresh : FreshExec) :
    Answered H ExecResult (Int32 × Bytes × Bytes) :=
  (int32.on ExecResult.exitCode).both (fun _ _ ↦ kAosOk)
    (((buf stdoutCap fresh.stdoutB).on ExecResult.stdout).both (fun _ _ ↦ kAosOk)
      ((buf stderrCap fresh.stderrB).on ExecResult.stderr))

def isDone (result : Option ExecResult) : Int32 := if result.isSome then 1 else 0

theorem isDone_open (result : Option ExecResult) :
    (isDone result != 0) = (id result).isSome := by
  cases result with
  | none => rfl
  | some result => rfl

def pollResult (r : Option (Int32 × Bytes × Bytes)) : AgentOsExecPollResult :=
  match r with
  | none => { done := false }
  | some (exitCode, stdout, stderr) =>
    { done := true, exitCode := some exitCode, stdout := some stdout, stderr := some stderr }

def execPoll (job : Int64) (stdoutCap stderrCap : Int64) (fresh : FreshExec) :
    Method H AgentOsExecPollResult where
  A := Unit
  R := Option ExecResult
  op := "aos_vm_exec_poll"
  arg := .none
  res := ((int32.on isDone).gate (· != 0) id (commandResult stdoutCap stderrCap fresh)
    isDone_open).map pollResult
  request vm _ := execPollRequest k.jobs.toKernel vm job
  reaches _ _ := reaches_execPoll _ _

def execStdoutPeek (job : Int64) (capacity : Int64) (fresh : Fresh) : Method H Bytes where
  A := Unit
  R := Bytes
  op := "aos_vm_exec_stdout_peek"
  arg := .none
  res := buf capacity fresh
  request vm _ := execStdoutPeekRequest k.jobs vm job false
  reaches _ _ := reaches_ite _ fun _ ↦ reaches_withHostMut _ _

def execCancel (job : Int64) : Method H Unit where
  A := Unit
  R := Unit
  op := "aos_vm_exec_cancel"
  arg := .none
  res := .unit kAosOk
  request vm _ := execCancelRequest k.jobs vm job
  reaches _ _ := reaches_ite _ fun _ ↦ reaches_withHostMut _ _

def autocomplete (source : DartString) (cursorByte : Int64) (opts : Option AgentOsExecOptions)
    (capacity : Int64) (fresh : Fresh) : Method H Bytes where
  A := Option Bytes × Option Host.Exec.AosExecOpts
  R := Host.JsonText.AutocompleteResult
  op := "aos_vm_autocomplete"
  arg := (cstring source).pair (execOpts opts)
  res := (buf capacity fresh).on (aosVmAutocomplete k.tables)
  request vm a := autocompleteRequest k.starts vm a.1 cursorByte.toUInt64 a.2 false
  reaches _ _ := reaches_withArgs _ _ <| reaches_withStr _ _ fun _ ↦
    reaches_withOpts _ fun _ ↦ reaches_withHostMut _ _

end Jobs

section Files

variable (k : VmKernel H)

def svcResult (r : Int32 × Bytes) : AgentOsSvcResult := ⟨r.1, r.2⟩

def svcCall (service : DartString) (request : Bytes) (bodyCap : Int64) (fresh : FreshSvc) :
    Method H AgentOsSvcResult where
  A := Option Bytes × Option Bytes
  R := ServiceReply
  op := "aos_vm_svc_call"
  arg := (cstring service).pair (bytes request)
  res := ((int32.on ServiceReply.status).both (fun _ _ ↦ kAosOk)
    ((buf bodyCap fresh.outBody).on ServiceReply.body)).map svcResult
  request vm a := svcCallRequest k.jobs.toKernel vm a.1 a.2 request.length
  reaches _ _ := reaches_svcCall _ _ _ _

def readFile (path : DartString) (capacity : Int64) (fresh : Fresh) : Method H Bytes where
  A := Option Bytes
  R := Bytes
  op := "aos_vm_read_file"
  arg := cstring path
  res := buf capacity fresh
  request vm a := readFileRequest k.files vm a false
  reaches _ _ := reaches_path _ _ _ _ _ _

def writeFile (path : DartString) (data : Bytes) : Method H Unit where
  A := Option Bytes × Option Bytes
  R := Unit
  op := "aos_vm_write_file"
  arg := (cstring path).pair (bytes data)
  res := .unit kAosOk
  request vm a := writeFileRequest k.files vm a.1 a.2 data.length
  reaches _ _ := reaches_withArgs _ _ <| reaches_withStr _ _ fun _ ↦
    reaches_withHostMut _ _

def readdir (path : DartString) (capacity : Int64) (fresh : Fresh) : Method H Bytes where
  A := Option Bytes
  R := List Host.JsonText.DirEntry
  op := "aos_vm_readdir"
  arg := cstring path
  res := (buf capacity fresh).on (aosVmReaddir k.tables)
  request vm a := readdirRequest k.files vm a false
  reaches _ _ := reaches_path _ _ _ _ _ _

structure AgentOsFileStat where
  size : Int64
  isDir : Bool
  isSymlink : Bool
  nlink : UInt32
  mode : UInt32

def fileStat (st : AosStat) : AgentOsFileStat where
  size := st.size.toInt64
  isDir := st.isDir != 0
  isSymlink := st.isSymlink != 0
  nlink := st.nlink
  mode := st.mode

def stat (path : DartString) : Method H AgentOsFileStat where
  A := Option Bytes
  R := FileStat
  op := "aos_vm_stat"
  arg := cstring path
  res := (Marshal.stat.on statOf).map fileStat
  request vm a := statRequest k.files vm a false
  reaches _ _ := reaches_path _ _ _ _ _ _

def readlink (path : DartString) (capacity : Int64) (fresh : Fresh) : Method H Bytes where
  A := Option Bytes
  R := String
  op := "aos_vm_readlink"
  arg := cstring path
  res := (buf capacity fresh).on toUtf8
  request vm a := readlinkRequest k.files vm a false
  reaches _ _ := reaches_path _ _ _ _ _ _

def mkdir (path : DartString) : Method H Unit where
  A := Option Bytes
  R := Unit
  op := "aos_vm_mkdir"
  arg := cstring path
  res := .unit kAosOk
  request vm a := mkdirRequest k.files vm a
  reaches _ _ := reaches_path _ _ _ _ _ _

def unlink (path : DartString) : Method H Unit where
  A := Option Bytes
  R := Unit
  op := "aos_vm_unlink"
  arg := cstring path
  res := .unit kAosOk
  request vm a := unlinkRequest k.files vm a
  reaches _ _ := reaches_path _ _ _ _ _ _

def chmod (path : DartString) (mode : Int64) : Method H Unit where
  A := Option Bytes
  R := Unit
  op := "aos_vm_chmod"
  arg := cstring path
  res := .unit kAosOk
  request vm a := chmodRequest k.files vm a mode.toUInt64.toUInt32
  reaches _ _ := reaches_withArgs _ _ <| reaches_withStr _ _ fun _ ↦
    reaches_withHostMut _ _

def symlink (target linkPath : DartString) : Method H Unit where
  A := Option Bytes × Option Bytes
  R := Unit
  op := "aos_vm_symlink"
  arg := (cstring target).pair (cstring linkPath)
  res := .unit kAosOk
  request vm a := symlinkRequest k.files vm a.1 a.2
  reaches _ _ := reaches_withArgs _ _ <| reaches_withStr _ _ fun _ ↦
    reaches_withStr _ _ fun _ ↦ reaches_withHostMut _ _

def mount (path : DartString) (readOnly : Bool) : Method H Unit where
  A := Option Bytes
  R := Unit
  op := "aos_vm_mount"
  arg := cstring path
  res := .unit kAosOk
  request vm a := mountRequest k.files vm a (if readOnly then 1 else 0)
  reaches _ _ := reaches_withArgs _ _ <| reaches_withStr _ _ fun _ ↦
    reaches_withHostMut _ _

def unmount (path : DartString) : Method H Unit where
  A := Option Bytes
  R := Unit
  op := "aos_vm_unmount"
  arg := cstring path
  res := .unit kAosOk
  request vm a := unmountRequest k.files vm a
  reaches _ _ := reaches_path _ _ _ _ _ _

end Files

section Relay

variable (k : VmKernel H) (relayHandle : Int64)

def relayPull (sidecar : Bool) (capacity : Int64) (fresh : Fresh) : Method H Bytes :=
  fetching (if sidecar then "aos_vm_relay_next_sidecar" else "aos_vm_relay_next")
    (fun vm ↦ fetchEvent k.encodeEvent vm sidecar) (fun _ ↦ reaches_withVm _) capacity fresh

def relayNext (capacity : Int64) (fresh : Fresh) : Method H Bytes :=
  relayPull k false capacity fresh

def relayNextSidecar (capacity : Int64) (fresh : Fresh) : Method H Bytes :=
  relayPull k true capacity fresh

def boolFlag (b : Bool) : Int32 := if b then 1 else 0

def relayHttpRespond (ok : Bool) (head body : Option Bytes) : Method H Unit where
  A := Option Bytes × Option Bytes
  R := Unit
  op := "aos_vm_relay_http_respond"
  arg := (bytes (head.getD [])).pair (bytes (body.getD []))
  res := .unit kAosOk
  request vm a := httpRespondRequest vm relayHandle (boolFlag ok) (a.1.getD []) (a.2.getD [])
  reaches _ _ := reaches_relay _ _ _

def relayHostCallRespond (ok : Bool) (result : Option Bytes) : Method H Unit where
  A := Option Bytes
  R := Unit
  op := "aos_vm_relay_host_call_respond"
  arg := bytes (result.getD [])
  res := .unit kAosOk
  request vm a := hostCallRespondRequest vm relayHandle (boolFlag ok) (a.getD [])
  reaches _ _ := reaches_relay _ _ _

def relayPersistRespond (ok : Bool) (body : Option Bytes) : Method H Unit where
  A := Option Bytes
  R := Unit
  op := "aos_vm_relay_persist_respond"
  arg := bytes (body.getD [])
  res := .unit kAosOk
  request vm a := persistRespondRequest vm relayHandle (boolFlag ok) (a.getD [])
  reaches _ _ := reaches_relay _ _ _

def relayToolApprovalRespond (allow rememberSession : Bool) : Method H Unit where
  A := Unit
  R := Option (Host.Table.Sender × Host.Table.ToolApprovalDecision)
  op := "aos_vm_relay_tool_approval_respond"
  arg := .none
  res := .unit kAosOk
  request vm _ :=
    toolApprovalRespondRequest vm relayHandle (boolFlag allow) (boolFlag rememberSession)
  reaches _ _ := reaches_relay _ _ _

def relayWsOpen (ok : Bool) : Method H Unit where
  A := Unit
  R := Unit
  op := "aos_vm_relay_ws_open"
  arg := .none
  res := .unit kAosOk
  request vm _ := wsOpenRequest vm relayHandle (boolFlag ok)
  reaches _ _ := reaches_relay _ _ _

def relayWsPush (data : Bytes) : Method H Unit where
  A := Option Bytes
  R := Unit
  op := "aos_vm_relay_ws_push"
  arg := bytes data
  res := .unit kAosOk
  request vm a := wsPushRequest vm relayHandle (a.getD [])
  reaches _ _ := reaches_relay _ _ _

def relayWsClose : Method H Unit where
  A := Unit
  R := Unit
  op := "aos_vm_relay_ws_close"
  arg := .none
  res := .unit kAosOk
  request vm _ := wsCloseRequest vm relayHandle
  reaches _ _ := reaches_relay _ _ _

end Relay

section Control

variable (k : VmKernel H)

def snapshotInto (capacity : Int64) (fresh : Fresh) : Method H Bytes where
  A := Unit
  R := Bytes
  op := "aos_vm_snapshot_into"
  arg := .none
  res := wholeBuf capacity fresh
  request vm _ := snapshotIntoRequest k.snapshots vm
  reaches _ _ := reaches_ite _ fun _ ↦ reaches_withHostMut _ _

def injectCatalog (compilerWasm catalogBlob : Bytes) (generation statusCap : Int64)
    (fresh : Fresh) : Method H Bytes where
  A := Option Bytes × Option Bytes
  R := Option Host.JsonText.CatalogApplyStatus
  op := "aos_vm_inject_catalog"
  arg := (bytes compilerWasm).pair (bytes catalogBlob)
  res := (buf statusCap fresh).on (encodeStatus k.jsonToString)
  request vm a := injectCatalogRequest k.catalog vm a.1 compilerWasm.length generation.toUInt64
    a.2 catalogBlob.length
  reaches _ _ := reaches_injectCatalog _ _ _ _ _ _

def setPerfEnabled (on : Bool) : Method H Unit where
  A := Unit
  R := Unit
  op := "aos_vm_set_perf_enabled"
  arg := .none
  res := .unit kAosOk
  request vm _ := setPerfEnabledRequest k.perf vm (boolFlag on)
  reaches _ _ := reaches_withHostMut _ _

def scrubPerf : Method H Unit where
  A := Unit
  R := Unit
  op := "aos_vm_scrub_perf"
  arg := .none
  res := .unit kAosOk
  request vm _ := scrubPerfRequest k.perf vm
  reaches _ _ := reaches_withHostMut _ _

def takeCommandPerf (capacity : Int64) (fresh : Fresh) : Method H Bytes :=
  fetching "aos_vm_take_command_perf" (fetchPerf k.jobs.toKernel) (fun _ ↦ reaches_withVm _)
    capacity fresh

end Control

end MachineNotebook.Dart.VmMethods
