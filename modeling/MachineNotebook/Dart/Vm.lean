import MachineNotebook.Dart.Bindings
import MachineNotebook.Host.Exec
import MachineNotebook.Lib.Utf16

namespace MachineNotebook.Dart.Vm

open MachineNotebook.Lib MachineNotebook.Lib.Utf8 Bindings
open Host.Buf Host.VmTable Host.KernelHost Host.Exec

structure AgentOsVm where
  handle : UInt64
  closed : Bool := false

structure AgentOsExecOptions where
  cwd : Option DartString := none
  envBlob : Option Bytes := none
  stdinData : Option Bytes := none
  maxTicks : Int64 := 0

structure AgentOsExecResult where
  exitCode : Int32
  stdout : Bytes
  stderr : Bytes
  deriving DecidableEq

structure AgentOsExecPollResult where
  done : Bool
  exitCode : Option Int32 := none
  stdout : Option Bytes := none
  stderr : Option Bytes := none
  deriving DecidableEq

structure AgentOsSvcResult where
  status : Int32
  body : Bytes
  deriving DecidableEq

def packExecOpts (opts : AgentOsExecOptions) : AosExecOpts where
  cwd := opts.cwd.bind fun s ↦ if s = [] then none else some (allocCString s)
  envBlob := opts.envBlob.bind allocBytes
  envBlobLen := (opts.envBlob.getD []).length
  stdinData := opts.stdinData.bind allocBytes
  stdinLen := (opts.stdinData.getD []).length
  maxTicks := opts.maxTicks.toUInt64

def packArgv (argv : List DartString) : List (Option Bytes) := argv.map fun s ↦ some (allocCString s)

variable {H : Type} (k : Kernel H)

/-- A `StateError` carries the text; the world is as the native call left it. -/
abbrev Outcome (H R : Type) := Except DartString R × World H

def ensureOpen (vm : AgentOsVm) {R : Type} (body : World H → Outcome H R) (w : World H) :
    Outcome H R :=
  if vm.closed then (.error (Utf16.encode "AgentOsVm is closed"), w) else body w

/-- `_check`, and what is read back from the slots when it does not throw. -/
def check {R S : Type} (op : String) (read : S → R) (native : Int32 × S × World H) :
    Outcome H R :=
  let (rc, slots, w) := native
  if rc ≠ kAosOk then
    (.error (Utf16.encode (op ++ " failed: ") ++ errorMessage w.lastError), w)
  else (.ok (read slots), w)

structure FreshExec where
  outDone : Int32
  outExit : Int32
  stdoutB : Fresh
  stderrB : Fresh

structure FreshSvc where
  outStatus : Int32
  outBody : Fresh

def execSlots (stdoutCap stderrCap : Int64) (fresh : FreshExec) : ExecSlots where
  outDone := none
  outExit := some fresh.outExit
  stdoutB := some (allocAosBuf stdoutCap fresh.stdoutB)
  stderrB := some (allocAosBuf stderrCap fresh.stderrB)

def readBuf (b : Option AosBuf) : Bytes := (b.map copyFromAosBuf).getD []

def readExec (slots : ExecSlots) : AgentOsExecResult where
  exitCode := slots.outExit.getD 0
  stdout := readBuf slots.stdoutB
  stderr := readBuf slots.stderrB

def readExecPoll (slots : ExecSlots) : AgentOsExecPollResult :=
  if slots.outDone.getD 0 ≠ 0 then
    { done := true
      exitCode := slots.outExit
      stdout := some (readBuf slots.stdoutB)
      stderr := some (readBuf slots.stderrB) }
  else { done := false }

def readSvc (slots : SvcSlots) : AgentOsSvcResult where
  status := slots.outStatus.getD 0
  body := readBuf slots.outBody

def execEx (vm : AgentOsVm) (cmd : DartString) (opts : Option AgentOsExecOptions := none)
    (stdoutCap : Int64 := 256 * 1024) (stderrCap : Int64 := 64 * 1024) (fresh : FreshExec) :
    World H → Outcome H AgentOsExecResult :=
  ensureOpen vm fun w ↦
    check "aos_vm_exec_ex" readExec
      (aosVmExecEx k vm.handle (some (allocCString cmd)) (opts.map packExecOpts)
        (execSlots stdoutCap stderrCap fresh) w)

def run (vm : AgentOsVm) (program : DartString) (argv : List DartString)
    (opts : Option AgentOsExecOptions := none) (stdoutCap : Int64 := 256 * 1024)
    (stderrCap : Int64 := 64 * 1024) (fresh : FreshExec) : World H → Outcome H AgentOsExecResult :=
  ensureOpen vm fun w ↦
    check "aos_vm_run" readExec
      (aosVmRun k vm.handle (some (allocCString program)) (some (packArgv argv)) argv.length
        (opts.map packExecOpts) (execSlots stdoutCap stderrCap fresh) w)

def execPoll (vm : AgentOsVm) (job : Int64) (stdoutCap : Int64 := 256 * 1024)
    (stderrCap : Int64 := 64 * 1024) (fresh : FreshExec) :
    World H → Outcome H AgentOsExecPollResult :=
  ensureOpen vm fun w ↦
    check "aos_vm_exec_poll" readExecPoll
      (aosVmExecPoll k vm.handle job
        { execSlots stdoutCap stderrCap fresh with outDone := some fresh.outDone } w)

def svcCall (vm : AgentOsVm) (service : DartString) (request : Bytes)
    (bodyCap : Int64 := 256 * 1024) (fresh : FreshSvc) : World H → Outcome H AgentOsSvcResult :=
  ensureOpen vm fun w ↦
    check "aos_vm_svc_call" readSvc
      (aosVmSvcCall k vm.handle (some (allocCString service)) (allocBytes request) request.length
        { outStatus := some fresh.outStatus, outBody := some (allocAosBuf bodyCap fresh.outBody) }
        w)

end MachineNotebook.Dart.Vm
