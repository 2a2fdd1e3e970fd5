import MachineNotebook.Host.Buf
import MachineNotebook.Host.KernelHost
import MachineNotebook.Host.MixedOutput

namespace MachineNotebook.Host.Consume

open MachineNotebook.Lib MachineNotebook.Lib.Utf8 Table Relay Output Buf VmTable KernelHost

variable {H : Type}

abbrev Fetch (H : Type) := World H → Except String (Option Bytes) × World H

/-- A call that fetches a payload from a VM, and then fills a caller's buffer with it. -/
def deliver (call : String) (fetch : Fetch H) (out : Option AosBuf) (w : World H) :
    Int32 × Option AosBuf × World H :=
  let w := w.clearError
  match out with
  | none => (-1, none, w.setError (call ++ ": null out"))
  | some b =>
    match fetch w with
    | (.ok none, w) => (0, some { b with len := 0 }, w)
    | (.ok (some bytes), w) =>
      let (rc, out) := fillBuf (some b) bytes
      (rc, out, w)
    | (.error e, w) => (-1, some b, w.setError e)

section Relay

variable (encode : WireRelayEvent → Bytes)

def fetchEvent (vm : UInt64) (sidecarOnly : Bool) : Fetch H := fun w ↦
  w.withVm vm fun entry ↦
    let (frame, relay) := popEvent sidecarOnly entry.relay
    (.ok (frame.map encode), { entry with relay })

def aosVmRelayNext (vm : UInt64) (out : Option AosBuf) (w : World H) :
    Int32 × Option AosBuf × World H :=
  deliver "aos_vm_relay_next" (fetchEvent encode vm false) out w

def aosVmRelayNextSidecar (vm : UInt64) (out : Option AosBuf) (w : World H) :
    Int32 × Option AosBuf × World H :=
  deliver "aos_vm_relay_next_sidecar" (fetchEvent encode vm true) out w

end Relay

section Tty

def fetchOutput (vm : UInt64) (mask : Int32) : Fetch H := fun w ↦
  w.withVm vm fun entry ↦
    let (data, sinks) := entry.sinks.takeEx mask
    (.ok (some data), { entry with sinks })

def aosVmTakeOutputEx (vm : UInt64) (mask : Int32) (out : Option AosBuf) (w : World H) :
    Int32 × Option AosBuf × World H :=
  deliver "aos_vm_take_output_ex" (fetchOutput vm mask) out w

/-- The buffer is given by whether it is null and by its capacity. -/
def aosVmTakeOutput (vm : UInt64) (null : Bool) (cap : ℕ) (w : World H) :
    Int32 × Bytes × World H :=
  let w := w.clearError
  match w.withVm vm fun entry ↦
    let (data, sinks) := entry.sinks.takeDrain
    (.ok data, { entry with sinks }) with
  | (.error e, w) => (-1, [], w.setError e)
  | (.ok data, w) =>
    if cap = 0 ∨ null then (Int32.ofNat data.length, [], w)
    else
      let n := min data.length cap
      let w :=
        if data.length > n then
          (w.withVm vm fun entry ↦
            (.ok (), { entry with sinks := entry.sinks.putBack (data.drop n) })).2
        else w
      (Int32.ofNat n, data.take n, w)

section

variable {vm : UInt64} {w : World H} {entry : Vm H}

theorem aosVmTakeOutput_zero (null : Bool) (hvm : vm ≠ 0) (hentry : w.vms vm = some entry) :
    aosVmTakeOutput vm null 0 w =
      (Int32.ofNat entry.sinks.takeDrain.1.length, [],
        { vms := Function.update w.vms vm (some { entry with sinks := .empty }),
          lastError := "" }) := by
  have hclear : w.clearError.vms vm = some entry := hentry
  have hdrain : entry.sinks.takeDrain.2 = .empty := by
    cases hout : entry.sinks.out <;> simp only [Sinks.takeDrain, hout]
  simp only [aosVmTakeOutput, World.withVm_some hvm hclear, true_or, if_true, hdrain]
  rfl

/-- With room, a call that no other thread comes between is one step on the buffers. -/
theorem aosVmTakeOutput_take (cap : ℕ+) (hvm : vm ≠ 0) (hentry : w.vms vm = some entry) :
    aosVmTakeOutput vm false cap w =
      (Int32.ofNat (MixedOutput.callStep (.take cap) entry.sinks).1.length,
        (MixedOutput.callStep (.take cap) entry.sinks).1,
        { vms := Function.update w.vms vm
            (some { entry with sinks := (MixedOutput.callStep (.take cap) entry.sinks).2 }),
          lastError := "" }) := by
  have hclear : w.clearError.vms vm = some entry := hentry
  obtain ⟨data, hdata⟩ : ∃ data, data = entry.sinks.takeDrain.1 := ⟨_, rfl⟩
  have hcap : ¬((cap : ℕ) = 0 ∨ false = true) := by simp
  simp only [aosVmTakeOutput, World.withVm_some hvm hclear, if_neg hcap, MixedOutput.callStep,
    ← hdata, List.length_take]
  by_cases hlong : data.length > cap
  · have hmin : min data.length cap = cap := Nat.min_eq_right (by omega)
    simp only [hmin, if_pos hlong, Nat.min_comm (cap : ℕ)]
    rw [World.withVm_some hvm (Function.update_self ..)]
    simp only [Function.update_idem]
    rfl
  · have hmin : min data.length cap = data.length := Nat.min_eq_left (by omega)
    simp only [hmin, if_neg hlong, Nat.min_comm (cap : ℕ), gt_iff_lt, lt_irrefl, if_false]
    rw [List.take_of_length_le le_rfl, List.take_of_length_le (Nat.le_of_not_lt hlong)]
    rfl

end

end Tty

section Perf

variable (k : Kernel H)

def commandPerfJson (p : CommandPerf) : String :=
  "\x7b\"wall_ms\":" ++ p.wallMs ++ ",\"tick_ms\":" ++ p.tickMs ++
    ",\"pace_ms\":" ++ p.paceMs ++ ",\"host_ticks\":" ++ p.hostTicks ++
    ",\"host_runnable\":" ++ p.hostRunnable ++ ",\"host_waiting\":" ++ p.hostWaiting ++
    ",\"kernel_ticks\":" ++ p.kernelTicks ++ ",\"kernel_runnable\":" ++ p.kernelRunnable ++
    ",\"kernel_waiting\":" ++ p.kernelWaiting ++ ",\"tasks_spawned\":" ++ p.tasksSpawned ++
    ",\"pipes_created\":" ++ p.pipesCreated ++
    ",\"module_cache_hits\":" ++ p.moduleCacheHits ++
    ",\"module_cache_misses\":" ++ p.moduleCacheMisses ++
    ",\"blocked_poll\":" ++ p.blockedPoll ++ ",\"blocked_pipe\":" ++ p.blockedPipe ++
    ",\"blocked_wait_child\":" ++ p.blockedWaitChild ++
    ",\"kernel_memory_len\":" ++ p.kernelMemoryLen ++ "\x7d"

def fetchPerf (vm : UInt64) : Fetch H := fun w ↦
  w.withVm vm fun entry ↦
    let (perf, host) := k.takeCommandPerf entry.host
    (.ok (perf.map fun p ↦ toUtf8 (commandPerfJson p)), { entry with host })

def aosVmTakeCommandPerf (vm : UInt64) (out : Option AosBuf) (w : World H) :
    Int32 × Option AosBuf × World H :=
  deliver "aos_vm_take_command_perf" (fetchPerf k vm) out w

end Perf

end MachineNotebook.Host.Consume
