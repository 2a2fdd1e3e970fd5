import MachineNotebook.Lib.Guards

namespace MachineNotebook.Host.Locks

open MachineNotebook.Lib MachineNotebook.Lib.Guards

/-- The mutex of the VM table, and those of a VM's kernel and of its relay. -/
inductive Lock
  | table
  | host (vm : UInt64)
  | relay (vm : UInt64)
  deriving DecidableEq

inductive Act
  | lookup (vm : UInt64)
  | insert (vm : UInt64)
  | remove (vm : UInt64)
  | work
  | recv (approval : ℕ)
  | send (approval : ℕ)

structure Shared where
  vms : UInt64 → Bool
  sent : ℕ → Bool

def exec (act : Act) (d : Shared) : Effect Shared :=
  match act with
  | .lookup vm => if d.vms vm then .go d else .leave d
  | .insert vm => .go { d with vms := Function.update d.vms vm true }
  | .remove vm => .go { d with vms := Function.update d.vms vm false }
  | .work => .go d
  | .recv approval => if d.sent approval then .go d else .wait
  | .send approval => .go { d with sent := Function.update d.sent approval true }

abbrev Program := List (Instr Lock Act)

def withVm (vm : UInt64) (f : Program) : Program :=
  if vm = 0 then [] else guarded .table (.act (.lookup vm) :: f)

def withHostMut (vm : UInt64) (f : Program) : Program := withVm vm (guarded (.host vm) f)

def withRelay (vm : UInt64) (f : Program) : Program := withVm vm (guarded (.relay vm) f)

/-- What a guest does with its capabilities: the approver waits on its channel once the
relay is unlocked again, and the others only have the relay locked. -/
inductive Use
  | capability
  | approve (approval : ℕ)
  deriving DecidableEq

def useProgram (vm : UInt64) (use : Use) : Program :=
  match use with
  | .capability => guarded (.relay vm) [.act .work]
  | .approve approval => guarded (.relay vm) [.act .work] ++ [.act (.recv approval)]

def guest (vm : UInt64) (uses : List Use) : Program :=
  .act .work :: uses.flatMap (useProgram vm)

/-- The calls that run the guest. The last three come with whether their arguments pass the
checks they make before they go to the VM table. -/
inductive Long
  | tick
  | tickN
  | exec (valid : Bool)
  | execEx (valid : Bool)
  | run (valid : Bool)
  deriving DecidableEq

def Long.valid : Long → Bool
  | .tick => true
  | .tickN => true
  | .exec valid => valid
  | .execEx valid => valid
  | .run valid => valid

/-- The entry points, with what their checks look at and how the guest behaves in those that
have the kernel at work. `built` tells that a boot or a restore got its kernel, and `hostCall`
is any other call that goes through `with_host_mut`. -/
inductive Entry
  | boot (built : Bool)
  | close
  | long (call : Long) (uses : List Use)
  | hostCall (valid : Bool) (uses : List Use)
  | relayNext (nullOut : Bool)
  | relayNextSidecar (nullOut : Bool)
  | httpRespond (handle : Int64)
  | hostCallRespond (handle : Int64)
  | persistRespond (handle : Int64)
  | toolApprovalRespond (handle : Int64) (approval : ℕ)
  | wsOpen (handle : Int64)
  | wsPush (handle : Int64)
  | wsClose (handle : Int64)
  | takeOutput (truncated : Bool)
  | takeOutputEx (nullOut : Bool)
  deriving DecidableEq

structure Call where
  entry : Entry
  vm : UInt64
  deriving DecidableEq

/-- A call returns before it locks anything when its arguments fail a check. -/
def checked (failed : Bool) (p : Program) : Program := if failed then [] else p

def respond (vm : UInt64) (handle : Int64) (act : Act) : Program :=
  checked (vm = 0 ∨ handle ≤ 0) (withRelay vm [.act act])

def program (c : Call) : Program :=
  match c.entry with
  | .boot built => checked (!built) (guarded .table [.act (.insert c.vm)])
  | .close => checked (c.vm = 0) (guarded .table [.act (.remove c.vm)])
  | .long call uses => checked (!call.valid) (withHostMut c.vm (guest c.vm uses))
  | .hostCall valid uses => checked (!valid) (withHostMut c.vm (guest c.vm uses))
  | .relayNext nullOut => checked nullOut (withRelay c.vm [.act .work])
  | .relayNextSidecar nullOut => checked nullOut (withRelay c.vm [.act .work])
  | .httpRespond handle => respond c.vm handle .work
  | .hostCallRespond handle => respond c.vm handle .work
  | .persistRespond handle => respond c.vm handle .work
  | .toolApprovalRespond handle approval => respond c.vm handle (.send approval)
  | .wsOpen handle => respond c.vm handle .work
  | .wsPush handle => respond c.vm handle .work
  | .wsClose handle => respond c.vm handle .work
  | .takeOutput truncated =>
    withVm c.vm [.act .work] ++ if truncated then withVm c.vm [.act .work] else []
  | .takeOutputEx nullOut => checked nullOut (withVm c.vm [.act .work])

section Scoped

variable {vm : UInt64} {held : List Lock} {f : Program}

theorem balanced_withVm (h : Balanced .table [.table] f) : Balanced .table [] (withVm vm f) := by
  rw [withVm]
  split
  · exact balanced_nil
  · apply balanced_guarded (by simp) (fun _ ↦ rfl)
    exact (balanced_act (by simp) (.lookup vm)).append h

theorem balanced_withHostMut (h : Balanced .table [.host vm, .table] f) :
    Balanced .table [] (withHostMut vm f) :=
  balanced_withVm (balanced_guarded (by simp) (by simp) h)

theorem balanced_withRelay (h : Balanced .table [.relay vm, .table] f) :
    Balanced .table [] (withRelay vm f) :=
  balanced_withVm (balanced_guarded (by simp) (by simp) h)

theorem balanced_guest (uses : List Use) :
    Balanced .table [.host vm, .table] (guest vm uses) := by
  refine (balanced_act (by simp) Act.work).append (balanced_flatMap fun use _ ↦ ?_)
  have hrelay : Balanced .table [.host vm, .table] (guarded (.relay vm) [.act .work] : Program) :=
    balanced_guarded (by simp) (by simp) (balanced_act (by simp) _)
  cases use with
  | capability => exact hrelay
  | approve approval => exact hrelay.append (balanced_act (by simp) _)

theorem balanced_checked {failed : Bool} (h : Balanced .table [] f) :
    Balanced .table [] (checked failed f) := by
  cases failed with
  | false => exact h
  | true => exact balanced_nil

theorem balanced_respond (vm : UInt64) (handle : Int64) (act : Act) :
    Balanced .table [] (respond vm handle act) :=
  balanced_checked (balanced_withRelay (balanced_act (by simp) act))

theorem balanced_program (c : Call) : Balanced .table [] (program c) := by
  have htable (a : Act) : Balanced .table [] (guarded .table [.act a] : Program) :=
    balanced_guarded (by simp) (fun _ ↦ rfl) (balanced_act (by simp) a)
  have hwork : Balanced .table [] (withVm c.vm [.act .work]) :=
    balanced_withVm (balanced_act (by simp) _)
  have hrelay : Balanced .table [] (withRelay c.vm [.act .work]) :=
    balanced_withRelay (balanced_act (by simp) _)
  obtain ⟨entry, vm⟩ := c
  cases entry with
  | boot => exact balanced_checked (htable _)
  | close => exact balanced_checked (htable _)
  | long call uses => exact balanced_checked (balanced_withHostMut (balanced_guest uses))
  | hostCall valid uses => exact balanced_checked (balanced_withHostMut (balanced_guest uses))
  | relayNext => exact balanced_checked hrelay
  | relayNextSidecar => exact balanced_checked hrelay
  | takeOutputEx => exact balanced_checked hwork
  | takeOutput truncated =>
    cases truncated with
    | false => exact hwork.append balanced_nil
    | true => exact hwork.append hwork
  | _ => exact balanced_respond _ _ _

end Scoped

def locks : System Lock Act Call Shared where
  outer := .table
  program := program
  exec := exec
  wellScoped c := (balanced_program c).scoped

/-- The calls that bring the guest its answers. -/
def Call.answers (c : Call) : Bool :=
  match c.entry with
  | .relayNext _ => true
  | .httpRespond _ => true
  | .hostCallRespond _ => true
  | .persistRespond _ => true
  | .toolApprovalRespond _ _ => true
  | _ => false

def Call.runsGuest (c : Call) : Bool :=
  match c.entry with
  | .long _ _ => true
  | _ => false

/-- `c` must go on while a thread is inside `c'`. -/
def GoesOn (c c' : Call) : Prop := c'.runsGuest ∧ (c.answers ∨ c.vm ≠ c'.vm)

variable {T : Type*} [DecidableEq T]

/-- From boot on, and however the threads go on between them, the calls that are made and return
let answers and other VMs wait for no call that runs a guest exactly when none of the former is
in progress together with one of the latter. -/
theorem answers_go_on_iff (d : Shared) (es : List (Event T Call)) :
    (∀ es', seen locks d es' <+: seen locks d es → Unhindered GoesOn (run locks d es')) ↔
      ∀ h, h <+: seen locks d es → Apart GoesOn h :=
  unhindered_iff es

/-- A tool approval that is not answered when its guest starts to wait is never answered. -/
theorem approval_never_sent {es : List (Event T Call)} {d : Shared} {t : T} {approval : ℕ}
    {p : Program} (hrest : ((run locks d es).threads t).rest = .act (.recv approval) :: p)
    (hsent : (run locks d es).data.sent approval = false) (es' : List (Event T Call)) :
    (run locks d (es ++ es')).data.sent approval = false := by
  have hwait : exec (.recv approval) (run locks d es).data = .wait := by simp [exec, hsent]
  obtain ⟨-, hdata⟩ := stays_waiting (inv_run es) hrest hwait es'
  rw [run, Run.final_append, ← run, hdata, hsent]

def oneVm : Shared := ⟨fun vm ↦ vm == 1, fun _ ↦ false⟩

/-- Thread 0 runs a command whose guest asks for an approval, and thread 1 answers it. -/
def askThenAnswer : List (Event ℕ Call) :=
  .issue 0 ⟨.long (.execEx true) [.approve 0], 1⟩ :: List.replicate 7 (.advance 0) ++
    [.issue 1 ⟨.toolApprovalRespond 1 0, 1⟩]

/-- The answer stands at the table, which the waiting command has locked, for ever. -/
theorem approval_deadlocks :
    ¬Unhindered GoesOn (run locks oneVm askThenAnswer) ∧
      ∀ es, (run locks oneVm (askThenAnswer ++ es)).data.sent 0 = false := by
  constructor
  · intro h
    refine h 1 0 ⟨.toolApprovalRespond 1 0, 1⟩ ⟨.long (.execEx true) [.approve 0], 1⟩ ?_ rfl rfl
      ⟨rfl, Or.inl rfl⟩
    exact ⟨.table, ⟨_, rfl⟩, rfl⟩
  · intro es
    have hrest : ((run locks oneVm askThenAnswer).threads 0).rest =
        [.act (.recv 0), .release (.host 1), .release .table] := rfl
    exact approval_never_sent hrest rfl es

end MachineNotebook.Host.Locks
