import MachineNotebook.Host.Catalog
import MachineNotebook.Host.Consume
import MachineNotebook.Host.Exec
import MachineNotebook.Host.Files

namespace MachineNotebook.Host.Requests

open MachineNotebook.Lib.Utf8 Table Error VmTable KernelHost Exec Relay
open Files (withStr withArgs)
open Catalog (CatalogLib CatalogInjectOptions)
open JsonText (AutocompleteResult CatalogApplyStatus)

variable {H : Type}

section Jobs

structure AutocompleteOptions where
  cwd : Option String
  env : String → Option String

structure StartKernel (H : Type) where
  execStart : String → ExecOptions → Vm H → Except String Int32 × Vm H
  runStart : String → List String → ExecOptions → Vm H → Except String Int32 × Vm H
  autocomplete : Bytes → UInt32 → AutocompleteOptions → Vm H →
    Except String AutocompleteResult × Vm H

def withOpts {R : Type} (opts : Option AosExecOpts)
    (use : ExecOptions → World H → Except String R × World H) (w : World H) :
    Except String R × World H :=
  match readExecOpts opts with
  | .error e => (.error e, w)
  | .ok (eo, _) => use eo w

def readStartArg (p : Option Bytes) : Except String String :=
  if p = none then .error "argv element null"
  else
    match cstrToStr p with
    | none => .error "argv not utf8"
    | some s => .ok s

def readStartArgv (argv : Option (List (Option Bytes))) (argc : ℕ) :
    Except String (List String) :=
  if argc = 0 then .ok []
  else
    match argv with
    | none => .error "argv null"
    | some argv => (argv.take argc).mapM readStartArg

variable (k : StartKernel H) (vm : UInt64)

def execStartRequest (cmd : Option Bytes) (opts : Option AosExecOpts) (null : Bool) :
    World H → Except String Int32 × World H :=
  withArgs "aos_vm_exec_start" vm (cmd.isNone || null) <| withStr "cmd" cmd fun cmd ↦
    withOpts opts fun eo w ↦ w.withHostMut vm "exec_start" (k.execStart cmd eo)

def runStartRequest (program : Option Bytes) (argv : Option (List (Option Bytes))) (argc : ℕ)
    (opts : Option AosExecOpts) (null : Bool) : World H → Except String Int32 × World H :=
  withArgs "aos_vm_run_start" vm (program.isNone || null) <|
    withStr "program" program fun program w ↦
      match readStartArgv argv argc with
      | .error e => (.error e, w)
      | .ok args =>
        withOpts opts (fun eo w ↦ w.withHostMut vm "run_start" (k.runStart program args eo)) w

def autocompleteRequest (source : Option Bytes) (cursorByte : UInt64) (opts : Option AosExecOpts)
    (null : Bool) : World H → Except String AutocompleteResult × World H :=
  withArgs "aos_vm_autocomplete" vm (source.isNone || null) <|
    withStr "source" source fun source ↦ withOpts opts fun eo w ↦
      w.withHostMut vm "autocomplete"
        (k.autocomplete (toUtf8 source) cursorByte.toUInt32 ⟨eo.cwd, eo.env⟩)

def execRequest (k : Kernel H) (cmd : Option Bytes) (maxTicks : UInt64) :
    World H → Except String ExecResult × World H :=
  withArgs "aos_vm_exec" vm cmd.isNone fun w ↦
    match cstrToStr cmd with
    | none => (.error "aos_vm_exec: cmd is not UTF-8", w)
    | some cmd =>
      w.withHostMut vm "exec"
        (k.exec cmd (if maxTicks = 0 then 5_000_000 else maxTicks.toNat) {})

end Jobs

section Perf

structure PerfKernel (H : Type) where
  setPerfEnabled : Bool → Vm H → Except String Unit × Vm H
  scrubPerf : Vm H → Except String Unit × Vm H

variable (k : PerfKernel H) (vm : UInt64)

def setPerfEnabledRequest (on : Int32) (w : World H) : Except String Unit × World H :=
  w.withHostMut vm "set_perf_enabled" (k.setPerfEnabled (on != 0))

def scrubPerfRequest (w : World H) : Except String Unit × World H :=
  w.withHostMut vm "scrub_perf" k.scrubPerf

end Perf

section Inject

structure CatalogKernel (H : Type) extends CatalogLib where
  injectCatalog : CatalogInjectOptions → Vm H → Except String (Option CatalogApplyStatus) × Vm H

variable (k : CatalogKernel H) (vm : UInt64)

def injectCatalogRequest (compilerWasm : Option Bytes) (compilerLen : ℕ) (generation : UInt64)
    (catalogBlob : Option Bytes) (catalogLen : ℕ) (w : World H) :
    Except String (Option CatalogApplyStatus) × World H :=
  if vm = 0 then (.error "aos_vm_inject_catalog: invalid handle", w)
  else if 0 < compilerLen ∧ compilerWasm = none then
    (.error "aos_vm_inject_catalog: compiler_wasm null with non-zero len", w)
  else if 0 < catalogLen ∧ catalogBlob = none then
    (.error "aos_vm_inject_catalog: catalog_blob null with non-zero len", w)
  else
    let compiler := (compilerWasm.getD []).take compilerLen
    let catalog := (catalogBlob.getD []).take catalogLen
    match Catalog.parseCatalogBlob k.toCatalogLib catalog compiler generation with
    | .error e => (.error e, w)
    | .ok opts => w.withHostMut vm "inject_catalog" (k.injectCatalog opts)

end Inject

/-! The host's answers to the relay, which do not reach the kernel. -/

section Respond

def relayRequest {R : Type} (call : String) (vm : UInt64) (handle : Int64)
    (f : RelayState → Except String (R × RelayState)) (w : World H) :
    Except String R × World H :=
  if vm = 0 ∨ handle ≤ 0 then (.error (call ++ ": invalid args"), w)
  else
    w.withVm vm fun entry ↦
      match f entry.relay with
      | .error e => (.error e, entry)
      | .ok (r, relay) => (.ok r, { entry with relay })

def onRelay (r : Except String RelayState) : Except String (Unit × RelayState) :=
  r.map fun s ↦ ((), s)

variable (vm : UInt64) (handle : Int64)

def httpRespondRequest (ok : Int32) (head body : Bytes) :
    World H → Except String Unit × World H :=
  relayRequest "aos_vm_relay_http_respond" vm handle fun s ↦
    onRelay (relayHttpRespond handle ok head body s)

def hostCallRespondRequest (ok : Int32) (result : Bytes) :
    World H → Except String Unit × World H :=
  relayRequest "aos_vm_relay_host_call_respond" vm handle fun s ↦
    onRelay (relayHostCallRespond handle ok result s)

def persistRespondRequest (ok : Int32) (body : Bytes) :
    World H → Except String Unit × World H :=
  relayRequest "aos_vm_relay_persist_respond" vm handle fun s ↦
    onRelay (relayPersistRespond handle ok body s)

/-- The answer is what goes to the waiting approval, if there is one. -/
def toolApprovalRespondRequest (allow rememberSession : Int32) :
    World H → Except String (Option (Sender × ToolApprovalDecision)) × World H :=
  relayRequest "aos_vm_relay_tool_approval_respond" vm handle
    (relayToolApprovalRespond handle allow rememberSession)

def wsOpenRequest (ok : Int32) : World H → Except String Unit × World H :=
  relayRequest "aos_vm_relay_ws_open" vm handle fun s ↦ onRelay (relayWsOpen handle ok s)

def wsPushRequest (data : Bytes) : World H → Except String Unit × World H :=
  relayRequest "aos_vm_relay_ws_push" vm handle fun s ↦ onRelay (relayWsPush handle data s)

def wsCloseRequest : World H → Except String Unit × World H :=
  relayRequest "aos_vm_relay_ws_close" vm handle fun s ↦ onRelay (relayWsClose handle s)

end Respond

end MachineNotebook.Host.Requests
