import MachineNotebook.Host.KernelHost
import MachineNotebook.Host.Policies

namespace MachineNotebook.Host.Boot

open MachineNotebook.Lib.Utf8 (Bytes)
open MachineNotebook.Host.Connections Policies VmTable

structure BootPlan where
  base : Option Bytes := none
  layers : List Bytes := []
  deterministic : Bool := false
  contract : Option (Int32 × Int32 × Int64) := none
  workers : Option Int32 := none
  net : Int32 := 0
  hostCall : Int32 := 0
  hostCallSidecarOnly : Bool := false
  persist : Int32 := 0
  toolApproval : Int32 := 0
  connections : Option Bytes := none
  policies : Option Bytes := none
  deriving DecidableEq

inductive NetCapability (R : Type)
  | flutterNet
  | realNet (registry : R) (rules : List ConnectionPolicyRule) (approver : Bool)

/-- What a `KernelHostBuilder` has been told. A capability it has not been given is denied. -/
structure Builder (R : Type) where
  wasm : Bytes
  layers : List Bytes := []
  baseImage : Option Bytes := none
  deterministic : Bool := false
  contract : Option (Int32 × Int32 × Int64) := none
  workers : Option Int32 := none
  net : Option (NetCapability R) := none
  /-- `sidecar_only` of the `FlutterHostCall`. -/
  hostCall : Option Bool := none
  persist : Bool := false

inductive TickState
  | runnable
  | waiting
  | exited
  deriving DecidableEq

structure BootLib (R E H : Type) extends HostLib R E where
  withConnectionPolicies : R → List ConnectionPolicyRule → Except String Unit
  build : Builder R → Except String H
  restore : Builder R → Bytes → Except String H
  restoreIncremental : Builder R → Bytes → Bytes → Except String H
  tick : Vm H → Except String TickState × Vm H
  atPrompt : H → Bool

/-- The process: the VM table with its counter, and the error of the calling thread. -/
structure Process (H : Type) extends World H where
  nextId : UInt64

def Process.start {H : Type} : Process H where
  vms _ := none
  lastError := ""
  nextId := 1

variable {R E H : Type} (lib : BootLib R E H)

def nonEmpty (blob : Option Bytes) : Bool := (blob.getD []) ≠ []

def applyNet (builder : Builder R) (plan : BootPlan) : Except String (Builder R) :=
  if plan.net = 0 then
    if nonEmpty plan.connections ∨ nonEmpty plan.policies ∨ plan.toolApproval ≠ 0 then
      .error "connections, connection_policies, and tool_approval require AOS_NET_REAL (net=2)"
    else .ok builder
  else if plan.net = 1 then
    if nonEmpty plan.connections ∨ nonEmpty plan.policies then
      .error ("connection credentials/policies require AOS_NET_REAL (net=2); use relay for " ++
        "app-owned HTTP")
    else if plan.toolApproval ≠ 0 then
      .error "tool_approval requires AOS_NET_REAL (net=2); relay net does not run the gate"
    else .ok { builder with net := some .flutterNet }
  else if plan.net = 2 then do
    let registry ← parseConnectionsBlob lib.toHostLib (plan.connections.getD [])
    let rules ← parsePoliciesBlob lib.toHostLib (plan.policies.getD [])
    (lib.withConnectionPolicies registry rules).mapError fun e ↦
      "invalid connection policies: " ++ e
    return { builder with net := some (.realNet registry rules (plan.toolApproval ≠ 0)) }
  else
    .error ("unknown net capability " ++ toString plan.net ++ " (0=deny, 1=relay, 2=real)")

def applyHostCall (builder : Builder R) (plan : BootPlan) : Except String (Builder R) :=
  if plan.hostCall = 1 then .ok { builder with hostCall := some plan.hostCallSidecarOnly }
  else if plan.hostCall ≠ 0 then
    .error ("unknown host_call capability " ++ toString plan.hostCall ++ " (0=deny, 1=relay)")
  else .ok builder

def applyPersist (builder : Builder R) (plan : BootPlan) : Except String (Builder R) :=
  if plan.persist = 1 then .ok { builder with persist := true }
  else if plan.persist ≠ 0 then
    .error ("unknown persist capability " ++ toString plan.persist ++ " (0=deny, 1=relay)")
  else .ok builder

def applyBootCaps (builder : Builder R) (plan : BootPlan) : Except String (Builder R) := do
  let builder ← applyNet lib builder plan
  let builder ← applyHostCall builder plan
  applyPersist builder plan

def buildHost (wasm : Bytes) (plan : BootPlan) : Except String H := do
  let builder : Builder R :=
    { wasm
      layers := plan.layers
      baseImage := if plan.layers ≠ [] then none else plan.base
      deterministic := plan.deterministic
      contract := plan.contract
      workers := plan.workers }
  let builder ← applyBootCaps lib builder plan
  (lib.build builder).mapError fun e ↦ "boot failed: " ++ e

/-- The bounded loop of `tick_toward_prompt`, with the ticks it has left. -/
def tickToward : ℕ → Vm H → Vm H
  | 0, vm => vm
  | n + 1, vm =>
    match lib.tick vm with
    | (.ok .runnable, vm) => if lib.atPrompt vm.host then vm else tickToward n vm
    | (_, vm) => vm

def tickTowardPrompt (vm : Vm H) : Vm H := tickToward lib 64 vm

def Process.insertVm (p : Process H) (vm : Vm H) : UInt64 × Process H :=
  (p.nextId,
    { p with
      vms := Function.update p.vms p.nextId (some vm)
      nextId := max (p.nextId + 1) 1 })

def Process.removeVm (p : Process H) (id : UInt64) : Option (Vm H) × Process H :=
  (p.vms id, { p with vms := Function.update p.vms id none })

def finishBoot (wasm : Bytes) (plan : BootPlan) (p : Process H) :
    Except String UInt64 × Process H :=
  match buildHost lib wasm plan with
  | .error e => (.error e, p)
  | .ok host =>
    let (id, p) := p.insertVm (tickTowardPrompt lib ⟨host, .empty, .new⟩)
    (.ok id, p)

/-- The builder of `aos_vm_restore`: the base image, the layers and the contract of the plan are
not passed on. -/
def restoreBuilder (wasm : Bytes) (plan : BootPlan) : Except String (Builder R) :=
  applyBootCaps lib { wasm, deterministic := plan.deterministic, workers := plan.workers } plan

/-- The end of `aos_vm_restore`. -/
def finishRestore (builder : Builder R) (snapshot : Bytes) (base : Option Bytes) (p : Process H) :
    Except String UInt64 × Process H :=
  let host := match base with
    | some base => lib.restoreIncremental builder snapshot base
    | none => lib.restore builder snapshot
  match host with
  | .error e => (.error ("restore failed: " ++ e), p)
  | .ok host =>
    let (id, p) := p.insertVm ⟨host, .empty, .new⟩
    (.ok id, p)

def aosVmClose (vm : UInt64) (p : Process H) : Int32 × Process H :=
  let p := { p with lastError := "" }
  if vm = 0 then (-1, { p with lastError := "aos_vm_close: invalid handle" })
  else
    match p.removeVm vm with
    | (some _, p) => (0, p)
    | (none, p) => (-1, { p with lastError := "aos_vm_close: unknown handle" })

end MachineNotebook.Host.Boot
