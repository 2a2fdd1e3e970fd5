import MachineNotebook.Host.VmTable

namespace MachineNotebook.Host.KernelHost

open MachineNotebook.Lib.Utf8 (Bytes)
open VmTable

structure ExecOptions where
  cwd : Option String := none
  env : String → Option String := fun _ ↦ none
  stdin : Option Bytes := none

structure ExecResult where
  stdout : Bytes
  stderr : Bytes
  exitCode : Int32
  deriving DecidableEq

structure ServiceReply where
  status : Int32
  body : Bytes
  deriving DecidableEq

structure CommandPerf where
  wallMs : String
  tickMs : String
  paceMs : String
  hostTicks : String
  hostRunnable : String
  hostWaiting : String
  kernelTicks : String
  kernelRunnable : String
  kernelWaiting : String
  tasksSpawned : String
  pipesCreated : String
  moduleCacheHits : String
  moduleCacheMisses : String
  blockedPoll : String
  blockedPipe : String
  blockedWaitChild : String
  kernelMemoryLen : String

/-- The calls of the kernel, which is not part of this repository. A call that runs the
guest reaches the sinks and the relay of its VM. -/
structure Kernel (H : Type) where
  exec : String → ℕ → ExecOptions → Vm H → Except String ExecResult × Vm H
  run : String → List String → ℕ → ExecOptions → Vm H → Except String ExecResult × Vm H
  execPoll : Int32 → Vm H → Except String (Option ExecResult) × Vm H
  serviceCall : String → Bytes → Vm H → Except String ServiceReply × Vm H
  takeCommandPerf : H → Option CommandPerf × H

end MachineNotebook.Host.KernelHost
