import Mathlib.Data.List.Basic

namespace MachineNotebook.Host.Output

/-- The streams a guest writes to, each through a `TeeSink` of its own. -/
inductive Stream
  | stdout
  | stderr
  | log
  deriving DecidableEq

/-- The output buffers of a VM: the combined one and one for each stream. -/
structure Sinks (α : Type*) where
  out : List α
  outStdout : List α
  outStderr : List α
  outLog : List α
  deriving DecidableEq

namespace Sinks

variable {α : Type*}

def empty : Sinks α := ⟨[], [], [], []⟩

def writeCombined (bytes : List α) (b : Sinks α) : Sinks α := { b with out := b.out ++ bytes }

def writeStream (stream : Stream) (bytes : List α) (b : Sinks α) : Sinks α :=
  match stream with
  | .stdout => { b with outStdout := b.outStdout ++ bytes }
  | .stderr => { b with outStderr := b.outStderr ++ bytes }
  | .log => { b with outLog := b.outLog ++ bytes }

def write (stream : Stream) (bytes : List α) (b : Sinks α) : Sinks α :=
  writeStream stream bytes (writeCombined bytes b)

/-- The drain of `aos_vm_take_output`. -/
def takeDrain (b : Sinks α) : List α × Sinks α :=
  match b.out with
  | [] => (b.outStdout ++ b.outStderr ++ b.outLog, empty)
  | data => (data, empty)

def putBack (rest : List α) (b : Sinks α) : Sinks α := { b with out := rest ++ b.out }

def drainIf (p : Bool) (bytes : List α) : List α × List α := if p then (bytes, []) else ([], bytes)

/-- The drain of `aos_vm_take_output_ex`. -/
def takeEx (mask : Int32) (b : Sinks α) : List α × Sinks α :=
  let (so, outStdout) := drainIf (mask &&& 1 != 0) b.outStdout
  let (se, outStderr) := drainIf (mask &&& 2 != 0) b.outStderr
  let (lg, outLog) := drainIf (mask &&& 4 != 0) b.outLog
  if mask = 0 then (b.out, ⟨[], outStdout, outStderr, outLog⟩)
  else (so ++ se ++ lg, ⟨b.out, outStdout, outStderr, outLog⟩)

def streams (b : Sinks α) : List α := b.outStdout ++ b.outStderr ++ b.outLog

/-- While an empty combined buffer means empty streams, the combined buffer is all there is. -/
theorem takeDrain_eq {b : Sinks α} (h : b.out = [] → b = empty) : b.takeDrain = (b.out, empty) := by
  cases hout : b.out with
  | nil =>
    rw [h hout]
    rfl
  | cons a out => simp only [takeDrain, hout]

theorem writeStream_out (stream : Stream) (bytes : List α) (b : Sinks α) :
    (b.writeStream stream bytes).out = b.out := by
  cases stream <;> rfl

@[simp] theorem writeStream_nil (stream : Stream) (b : Sinks α) :
    b.writeStream stream [] = b := by
  cases stream <;> simp [writeStream]

theorem streams_writeStream (stream : Stream) (bytes : List α) (b : Sinks α) :
    (b.writeStream stream bytes).streams.Perm (b.streams ++ bytes) := by
  cases stream with
  | stdout =>
    have h : (bytes ++ (b.outStderr ++ b.outLog)).Perm (b.outStderr ++ b.outLog ++ bytes) :=
      List.perm_append_comm
    simpa [writeStream, streams] using h.append_left b.outStdout
  | stderr =>
    have h : (bytes ++ b.outLog).Perm (b.outLog ++ bytes) := List.perm_append_comm
    simpa [writeStream, streams] using h.append_left (b.outStdout ++ b.outStderr)
  | log => simp [writeStream, streams]

end Sinks

end MachineNotebook.Host.Output
