import MachineNotebook.Host.Output
import MachineNotebook.Host.Relay

namespace MachineNotebook.Host.VmTable

open MachineNotebook.Lib.Utf8 (Bytes)
open Table Output

/-- A VM of the table. `H` is the state of its kernel. -/
structure Vm (H : Type) where
  host : H
  sinks : Sinks UInt8
  relay : RelayState

structure World (H : Type) where
  vms : UInt64 → Option (Vm H)
  lastError : String

namespace World

variable {H R : Type}

def clearError (w : World H) : World H := { w with lastError := "" }

def setError (w : World H) (msg : String) : World H := { w with lastError := msg }

def withVm (vm : UInt64) (f : Vm H → Except String R × Vm H) (w : World H) :
    Except String R × World H :=
  if vm = 0 then (.error "invalid handle", w)
  else
    match w.vms vm with
    | none => (.error "unknown handle", w)
    | some entry =>
      let (r, entry) := f entry
      (r, { w with vms := Function.update w.vms vm (some entry) })

def withHostMut (vm : UInt64) (op : String) (f : Vm H → Except String R × Vm H) (w : World H) :
    Except String R × World H :=
  w.withVm vm fun entry ↦
    let (r, entry) := f entry
    (r.mapError fun e ↦ op ++ " failed: " ++ e, entry)

theorem withVm_some {vm : UInt64} {f : Vm H → Except String R × Vm H} {w : World H} {entry : Vm H}
    (hvm : vm ≠ 0) (hentry : w.vms vm = some entry) :
    w.withVm vm f =
      ((f entry).1, { w with vms := Function.update w.vms vm (some (f entry).2) }) := by
  simp only [withVm, if_neg hvm, hentry]

end World

end MachineNotebook.Host.VmTable
