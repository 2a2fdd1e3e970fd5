import MachineNotebook.Host.Boot

namespace MachineNotebook.Host.Tty

open MachineNotebook.Lib.Utf8 (Bytes)
open VmTable Boot

structure Counters where
  bytesWritten : UInt64
  exitCode : Option Int32
  atPrompt : Bool
  workers : Int32
  hasWorkerEntry : Bool
  inflightEgress : Option Int32
  pendingCommits : Option Int32

structure AosVmStatus where
  bytesWritten : UInt64
  exitCode : Int32
  atPrompt : Int32
  workers : UInt32
  hasWorkerEntry : Int32
  inflightEgress : UInt32
  pendingCommits : UInt32

structure TtyKernel (H : Type) where
  tick : Vm H → Except String TickState × Vm H
  sendInput : Bytes → Vm H → Except String Unit × Vm H
  counters : Vm H → Counters × Vm H

variable {H : Type} (k : TtyKernel H)

def tickState : TickState → Int32
  | .runnable => 0
  | .waiting => 1
  | .exited => 2

def tickOne (entry : Vm H) : Except String Int32 × Vm H :=
  let (r, entry) := k.tick entry
  (r.map tickState, entry)

def tickRequest (vm : UInt64) (w : World H) : Except String Int32 × World H :=
  w.withHostMut vm "tick" (tickOne k)

/-- The loop of `aos_vm_tick_n`, with this many turns to come. -/
def tickLoop : ℕ → Int32 → Vm H → Except String Int32 × Vm H
  | 0, last, entry => (.ok last, entry)
  | n + 1, _, entry =>
    match tickOne k entry with
    | (.error e, entry) => (.error e, entry)
    | (.ok last, entry) => if last ≠ 0 then (.ok last, entry) else tickLoop n last entry

theorem tickLoop_add {m : ℕ} (hm : 0 < m) (n : ℕ) (last : Int32) (entry : Vm H) :
    tickLoop k (m + n) last entry =
      match tickLoop k m last entry with
      | (.error e, entry) => (.error e, entry)
      | (.ok last, entry) => if last ≠ 0 then (.ok last, entry) else tickLoop k n last entry := by
  induction m generalizing last entry with
  | zero => exact absurd hm (lt_irrefl 0)
  | succ m ih =>
    obtain ⟨r, entry', hr⟩ : ∃ r entry', tickOne k entry = (r, entry') := ⟨_, _, rfl⟩
    rw [Nat.add_right_comm, tickLoop, tickLoop, hr]
    cases r with
    | error e => rfl
    | ok next =>
      by_cases hnext : next ≠ 0
      · simp only [if_pos hnext]
      · simp only [if_neg hnext]
        cases m with
        | zero => simp only [tickLoop, if_neg hnext, Nat.zero_add]
        | succ m => exact ih (Nat.succ_pos m) next entry'

theorem tickLoop_last {n : ℕ} (hn : 0 < n) (last last' : Int32) (entry : Vm H) :
    tickLoop k n last entry = tickLoop k n last' entry := by
  cases n with
  | zero => exact absurd hn (lt_irrefl 0)
  | succ n => rfl

def tickNRequest (vm : UInt64) (n : UInt32) (w : World H) : Except String Int32 × World H :=
  w.withHostMut vm "tick" (tickLoop k n.toNat 1)

def sendInputRequest (vm : UInt64) (data : Option Bytes) (len : ℕ) (w : World H) :
    Except String Unit × World H :=
  if len = 0 then w.withHostMut vm "send_input" (k.sendInput [])
  else
    match data with
    | none => (.error "aos_vm_send_input: null data", w)
    | some data => w.withHostMut vm "send_input" (k.sendInput (data.take len))

def countOf (n : Int32) : UInt32 := (max n 0).toUInt32

def statusOf (c : Counters) : AosVmStatus where
  bytesWritten := c.bytesWritten
  exitCode := c.exitCode.getD Int32.minValue
  atPrompt := if c.atPrompt then 1 else 0
  workers := countOf c.workers
  hasWorkerEntry := if c.hasWorkerEntry then 1 else 0
  inflightEgress := countOf (c.inflightEgress.getD 0)
  pendingCommits := countOf (c.pendingCommits.getD 0)

def statusRequest (vm : UInt64) (null : Bool) (w : World H) :
    Except String AosVmStatus × World H :=
  if null then (.error "aos_vm_status: null out", w)
  else
    w.withVm vm fun entry ↦
      let (c, entry) := k.counters entry
      (.ok (statusOf c), entry)

end MachineNotebook.Host.Tty
