import MachineNotebook.Host.Buf
import MachineNotebook.Host.Error
import MachineNotebook.Host.KernelHost

namespace MachineNotebook.Host.Exec

open MachineNotebook.Lib.Utf8 Buf Error VmTable KernelHost

structure AosExecOpts where
  cwd : Option Bytes
  envBlob : Option Bytes
  envBlobLen : ℕ
  stdinData : Option Bytes
  stdinLen : ℕ
  maxTicks : UInt64

def envOf (pairs : List (String × String)) : String → Option String :=
  pairs.foldl (fun map pair ↦ Function.update map pair.1 (some pair.2)) fun _ ↦ none

def readCwd (cwd : Option Bytes) : Except String (Option String) :=
  if cwd = none then .ok none
  else
    match cstrToStr cwd with
    | none => .error "cwd not utf8"
    | some s => .ok (if s = "" then none else some s)

def readEnv (envBlob : Option Bytes) (len : ℕ) : Except String (String → Option String) :=
  if len = 0 then .ok fun _ ↦ none
  else
    match envBlob with
    | none => .error "env_blob_len > 0 but null"
    | some blob => (parseEnvBlob (blob.take len)).map envOf

def readStdin (stdinData : Option Bytes) (len : ℕ) : Except String (Option Bytes) :=
  if len = 0 then .ok none
  else
    match stdinData with
    | none => .error "stdin_len > 0 but null"
    | some data => .ok (some (data.take len))

def readExecOpts (opts : Option AosExecOpts) : Except String (ExecOptions × ℕ) :=
  match opts with
  | none => .ok ({}, 5_000_000)
  | some o => do
    let cwd ← readCwd o.cwd
    let env ← readEnv o.envBlob o.envBlobLen
    let stdin ← readStdin o.stdinData o.stdinLen
    return ({ cwd, env, stdin }, if o.maxTicks ≠ 0 then o.maxTicks.toNat else 5_000_000)

def readArg (p : Option Bytes) : Except String String :=
  if p = none then .error "aos_vm_run: argv element null"
  else
    match cstrToStr p with
    | none => .error "aos_vm_run: argv not utf8"
    | some s => .ok s

def readArgv (argv : Option (List (Option Bytes))) (argc : ℕ) : Except String (List String) :=
  if argc = 0 then .ok []
  else
    match argv with
    | none => .error "aos_vm_run: argv null"
    | some argv => (argv.take argc).mapM readArg

variable {H : Type} (k : Kernel H)

/-! A call is a request to the kernel, made once the arguments are read, and what it does
with the answer. -/

section Request

def execExRequest (vm : UInt64) (cmd : Option Bytes) (opts : Option AosExecOpts) (w : World H) :
    Except String ExecResult × World H :=
  if vm = 0 ∨ cmd = none then (.error "aos_vm_exec_ex: invalid args", w)
  else
    match cstrToStr cmd with
    | none => (.error "aos_vm_exec_ex: cmd not utf8", w)
    | some cmd =>
      match readExecOpts opts with
      | .error e => (.error e, w)
      | .ok (eo, ticks) => w.withHostMut vm "exec" (k.exec cmd ticks eo)

def runRequest (vm : UInt64) (program : Option Bytes) (argv : Option (List (Option Bytes)))
    (argc : ℕ) (opts : Option AosExecOpts) (w : World H) : Except String ExecResult × World H :=
  if vm = 0 ∨ program = none then (.error "aos_vm_run: invalid args", w)
  else
    match cstrToStr program with
    | none => (.error "aos_vm_run: program not utf8", w)
    | some program =>
      match readArgv argv argc with
      | .error e => (.error e, w)
      | .ok args =>
        match readExecOpts opts with
        | .error e => (.error e, w)
        | .ok (eo, ticks) => w.withHostMut vm "run" (k.run program args ticks eo)

def execPollRequest (vm : UInt64) (job : Int64) (w : World H) :
    Except String (Option ExecResult) × World H :=
  if vm = 0 ∨ job ≤ 0 then (.error "aos_vm_exec_poll: invalid args", w)
  else w.withHostMut vm "exec_poll" (k.execPoll job.toInt32)

def svcCallRequest (vm : UInt64) (service : Option Bytes) (req : Option Bytes) (reqLen : ℕ)
    (w : World H) : Except String ServiceReply × World H :=
  if vm = 0 ∨ service = none then (.error "aos_vm_svc_call: invalid args", w)
  else
    match cstrToStr service with
    | none => (.error "service not utf8", w)
    | some service =>
      w.withHostMut vm "svc_call" (k.serviceCall service ((req.getD []).take reqLen))

end Request

/-- Where a call leaves a command's result. Each place may be null, and holds whatever was
there before. -/
structure ExecSlots where
  outDone : Option Int32
  outExit : Option Int32
  stdoutB : Option AosBuf
  stderrB : Option AosBuf

/-- The status of `fill_buf` is dropped. -/
def ExecSlots.put (result : ExecResult) (slots : ExecSlots) : ExecSlots :=
  { slots with
    outExit := slots.outExit.map fun _ ↦ result.exitCode
    stdoutB := (fillBuf slots.stdoutB result.stdout).2
    stderrB := (fillBuf slots.stderrB result.stderr).2 }

def ExecSlots.putPoll (result : Option ExecResult) (slots : ExecSlots) : ExecSlots :=
  match result with
  | none => { slots with outDone := slots.outDone.map fun _ ↦ 0 }
  | some result => { slots with outDone := slots.outDone.map fun _ ↦ 1 }.put result

structure SvcSlots where
  outStatus : Option Int32
  outBody : Option AosBuf

def SvcSlots.put (reply : ServiceReply) (slots : SvcSlots) : SvcSlots where
  outStatus := slots.outStatus.map fun _ ↦ reply.status
  outBody := (fillBuf slots.outBody reply.body).2

def finish {R S : Type} (put : R → S → S) (slots : S) (request : Except String R × World H) :
    Int32 × S × World H :=
  match request with
  | (.ok r, w) => (0, put r slots, w)
  | (.error e, w) => (-1, slots, w.setError e)

def aosVmExecEx (vm : UInt64) (cmd : Option Bytes) (opts : Option AosExecOpts) (slots : ExecSlots)
    (w : World H) : Int32 × ExecSlots × World H :=
  finish ExecSlots.put slots (execExRequest k vm cmd opts w.clearError)

def aosVmRun (vm : UInt64) (program : Option Bytes) (argv : Option (List (Option Bytes)))
    (argc : ℕ) (opts : Option AosExecOpts) (slots : ExecSlots) (w : World H) :
    Int32 × ExecSlots × World H :=
  finish ExecSlots.put slots (runRequest k vm program argv argc opts w.clearError)

def aosVmExecPoll (vm : UInt64) (job : Int64) (slots : ExecSlots) (w : World H) :
    Int32 × ExecSlots × World H :=
  finish ExecSlots.putPoll slots (execPollRequest k vm job w.clearError)

def aosVmSvcCall (vm : UInt64) (service : Option Bytes) (req : Option Bytes) (reqLen : ℕ)
    (slots : SvcSlots) (w : World H) : Int32 × SvcSlots × World H :=
  finish SvcSlots.put slots (svcCallRequest k vm service req reqLen w.clearError)

end MachineNotebook.Host.Exec
