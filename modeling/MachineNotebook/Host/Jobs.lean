import MachineNotebook.Host.Exec

namespace MachineNotebook.Host.Jobs

open MachineNotebook.Lib.Utf8 Buf Error VmTable KernelHost Exec

structure JobKernel (H : Type) extends Kernel H where
  execStdoutPeek : Int32 → Vm H → Except String Bytes × Vm H
  execCancel : Int32 → Vm H → Except String Unit × Vm H

section EntryPoints

variable {H : Type} (k : JobKernel H)

def execStdoutPeekRequest (vm : UInt64) (job : Int64) (null : Bool) (w : World H) :
    Except String Bytes × World H :=
  if vm = 0 ∨ job ≤ 0 ∨ null then (.error "aos_vm_exec_stdout_peek: invalid args", w)
  else w.withHostMut vm "exec_stdout_peek" (k.execStdoutPeek job.toInt32)

def execCancelRequest (vm : UInt64) (job : Int64) (w : World H) : Except String Unit × World H :=
  if vm = 0 ∨ job ≤ 0 then (.error "aos_vm_exec_cancel: invalid args", w)
  else w.withHostMut vm "exec_cancel" (k.execCancel job.toInt32)

def aosVmExecStdoutPeek (vm : UInt64) (job : Int64) (out : Option AosBuf) (w : World H) :
    Int32 × Option AosBuf × World H :=
  match execStdoutPeekRequest k vm job out.isNone w.clearError with
  | (.ok data, w) =>
    let (rc, out) := fillBuf out data
    (rc, out, w)
  | (.error e, w) => (-1, out, w.setError e)

def aosVmExecCancel (vm : UInt64) (job : Int64) (w : World H) : Int32 × World H :=
  match execCancelRequest k vm job w.clearError with
  | (.ok (), w) => (0, w)
  | (.error e, w) => (-1, w.setError e)

/-- A call on a job, with the places its result goes to. -/
inductive JobCall
  | execPoll (slots : ExecSlots)
  | execStdoutPeek (out : Option AosBuf)
  | execCancel

def JobCall.run (vm : UInt64) (job : Int64) (w : World H) : JobCall → World H
  | .execPoll slots => (aosVmExecPoll k.toKernel vm job slots w).2.2
  | .execStdoutPeek out => (aosVmExecStdoutPeek k vm job out w).2.2
  | .execCancel => (aosVmExecCancel k vm job w).2

end EntryPoints

/-! A kernel that keeps, beside its state, the jobs it was asked about. -/

section Recorded

variable {H R : Type}

def record (jobs : List Int32) (f : Vm H → R × Vm H) (entry : Vm (H × List Int32)) :
    R × Vm (H × List Int32) :=
  let (r, entry') := f { entry with host := entry.host.1 }
  (r, { entry' with host := (entry'.host, entry.host.2 ++ jobs) })

def JobKernel.recorded (k : JobKernel H) : JobKernel (H × List Int32) where
  exec cmd ticks eo := record [] (k.exec cmd ticks eo)
  run program args ticks eo := record [] (k.run program args ticks eo)
  execPoll job := record [job] (k.execPoll job)
  serviceCall service req := record [] (k.serviceCall service req)
  takeCommandPerf host :=
    let (perf, host') := k.takeCommandPerf host.1
    (perf, (host', host.2))
  execStdoutPeek job := record [job] (k.execStdoutPeek job)
  execCancel job := record [job] (k.execCancel job)

def unrecorded (w : World H) : World (H × List Int32) where
  vms vm := (w.vms vm).map fun entry ↦ { entry with host := (entry.host, []) }
  lastError := w.lastError

variable {vm : UInt64} {w : World H}

def recordOf (w : World (H × List Int32)) (vm : UInt64) : List Int32 :=
  ((w.vms vm).map fun entry ↦ entry.host.2).getD []

/-- The jobs that the kernel of a VM is asked about in the course of a call. -/
def consulted (k : JobKernel H) (vm : UInt64) (job : Int64) (w : World H) (call : JobCall) :
    UInt64 → List Int32 :=
  recordOf (call.run k.recorded vm job (unrecorded w))

theorem recordOf_unrecorded (vm' : UInt64) : recordOf (unrecorded w).clearError vm' = [] := by
  cases h : w.vms vm' <;> simp [recordOf, unrecorded, World.clearError, h]

theorem recordOf_withHostMut (op : String) (job : Int32) (f : Vm H → Except String R × Vm H)
    (hvm : vm ≠ 0) (vm' : UInt64) :
    recordOf ((unrecorded w).clearError.withHostMut vm op (record [job] f)).2 vm' =
      if vm' = vm ∧ w.vms vm ≠ none then [job] else [] := by
  have hempty := recordOf_unrecorded (w := w) vm'
  cases hentry : w.vms vm with
  | none =>
    have hnone : (unrecorded w).clearError.vms vm = none := by
      simp [unrecorded, World.clearError, hentry]
    simp [World.withHostMut, World.withVm, hvm, hnone, hempty]
  | some entry =>
    have hsome : (unrecorded w).clearError.vms vm =
        some { entry with host := (entry.host, []) } := by
      simp [unrecorded, World.clearError, hentry]
    by_cases hvm' : vm' = vm
    · subst hvm'
      simp [World.withHostMut, World.withVm, hvm, hsome, record, recordOf]
    · have hother : recordOf ((unrecorded w).clearError.withHostMut vm op (record [job] f)).2 vm' =
          recordOf (unrecorded w).clearError vm' := by
        simp [World.withHostMut, World.withVm, hvm, hsome, recordOf, hvm']
      simp [hother, hempty, hvm']

/-- The arguments with which a call reaches the kernel, if the VM exists. -/
def JobCall.Accepted (vm : UInt64) (job : Int64) : JobCall → Prop
  | .execPoll _ | .execCancel => vm ≠ 0 ∧ 0 < job
  | .execStdoutPeek out => vm ≠ 0 ∧ 0 < job ∧ out.isSome

instance (vm : UInt64) (job : Int64) : (call : JobCall) → Decidable (call.Accepted vm job)
  | .execPoll _ | .execCancel => inferInstanceAs (Decidable (_ ∧ _))
  | .execStdoutPeek _ => inferInstanceAs (Decidable (_ ∧ _ ∧ _))

theorem JobCall.Accepted.pos {vm : UInt64} {job : Int64} {call : JobCall}
    (h : call.Accepted vm job) : 0 < job := by
  cases call with
  | execPoll slots => exact h.2
  | execStdoutPeek out => exact h.2.1
  | execCancel => exact h.2

/-- The world as the call's request leaves it; what follows reports to the caller. -/
def JobCall.requested (k : JobKernel H) (vm : UInt64) (job : Int64) (w : World H) :
    JobCall → World H
  | .execPoll _ => (execPollRequest k.toKernel vm job w.clearError).2
  | .execStdoutPeek out => (execStdoutPeekRequest k vm job out.isNone w.clearError).2
  | .execCancel => (execCancelRequest k vm job w.clearError).2

theorem JobCall.run_vms (k : JobKernel H) (job : Int64) (call : JobCall) (w : World H) :
    (call.run k vm job w).vms = (call.requested k vm job w).vms := by
  cases call with
  | execPoll slots =>
    simp only [JobCall.run, JobCall.requested, aosVmExecPoll]
    rcases execPollRequest k.toKernel vm job w.clearError with ⟨_ | _, w'⟩ <;> rfl
  | execStdoutPeek out =>
    simp only [JobCall.run, JobCall.requested, aosVmExecStdoutPeek]
    rcases execStdoutPeekRequest k vm job out.isNone w.clearError with ⟨_ | _, w'⟩ <;> rfl
  | execCancel =>
    simp only [JobCall.run, JobCall.requested, aosVmExecCancel]
    rcases execCancelRequest k vm job w.clearError with ⟨_ | _, w'⟩ <;> rfl

theorem consulted_eq_requested (k : JobKernel H) (job : Int64) (call : JobCall) (vm' : UInt64) :
    consulted k vm job w call vm' =
      recordOf (call.requested k.recorded vm job (unrecorded w)) vm' := by
  rw [consulted, recordOf, JobCall.run_vms, recordOf]

theorem invalid_args {job : Int64} : (vm = 0 ∨ job ≤ 0) ↔ ¬(vm ≠ 0 ∧ 0 < job) := by
  rw [← Int64.not_lt]
  tauto

theorem invalid_peek_args {job : Int64} {out : Option AosBuf} :
    (vm = 0 ∨ job ≤ 0 ∨ out.isNone = true) ↔ ¬(vm ≠ 0 ∧ 0 < job ∧ out.isSome) := by
  rw [← Int64.not_lt, Option.isNone_iff_eq_none, Option.isSome_iff_ne_none]
  tauto

/-- The only call on a kernel is about the low word of the job id, and needs valid
arguments. -/
theorem consulted_eq (k : JobKernel H) (job : Int64) (call : JobCall) (vm' : UInt64) :
    consulted k vm job w call vm' =
      if call.Accepted vm job ∧ vm' = vm ∧ w.vms vm ≠ none then [job.toInt32] else [] := by
  have hempty := recordOf_unrecorded (w := w) vm'
  rw [consulted_eq_requested]
  by_cases h : call.Accepted vm job
  · simp only [h, true_and]
    cases call with
    | execPoll slots =>
      simp only [JobCall.requested, execPollRequest, if_neg (fun hinvalid ↦ invalid_args.mp hinvalid h)]
      exact recordOf_withHostMut "exec_poll" job.toInt32 _ h.1 vm'
    | execStdoutPeek out =>
      simp only [JobCall.requested, execStdoutPeekRequest,
        if_neg (fun hinvalid ↦ invalid_peek_args.mp hinvalid h)]
      exact recordOf_withHostMut "exec_stdout_peek" job.toInt32 _ h.1 vm'
    | execCancel =>
      simp only [JobCall.requested, execCancelRequest, if_neg (fun hinvalid ↦ invalid_args.mp hinvalid h)]
      exact recordOf_withHostMut "exec_cancel" job.toInt32 _ h.1 vm'
  · simp only [h, false_and, if_false, ← hempty]
    cases call with
    | execPoll slots =>
      simp only [JobCall.requested, execPollRequest, if_pos (invalid_args.mpr h)]
    | execStdoutPeek out =>
      simp only [JobCall.requested, execStdoutPeekRequest, if_pos (invalid_peek_args.mpr h)]
    | execCancel =>
      simp only [JobCall.requested, execCancelRequest, if_pos (invalid_args.mpr h)]

end Recorded

end MachineNotebook.Host.Jobs
