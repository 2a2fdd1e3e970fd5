import MachineNotebook.Host.Consume

namespace MachineNotebook.Host.Overflow

open MachineNotebook.Lib MachineNotebook.Lib.Utf8
open Table Relay Output Buf VmTable KernelHost Consume

inductive Consumer
  | relayNext
  | relayNextSidecar
  | takeOutputEx (mask : Int32)
  | takeCommandPerf
  deriving DecidableEq

variable {H : Type} (k : Kernel H) (encode : WireRelayEvent → Bytes)

def nextFrame (sidecarOnly : Bool) (relay : RelayState) : Option Bytes :=
  (SelectiveQueue.pop isSidecarEvent sidecarOnly relay.events).map fun ev ↦
    encode (wireRelayEvent relay ev.1).1

def selectedOutput (mask : Int32) (b : Sinks UInt8) : Bytes :=
  if mask = 0 then b.out
  else
    (if mask &&& 1 ≠ 0 then b.outStdout else []) ++ (if mask &&& 2 ≠ 0 then b.outStderr else []) ++
      (if mask &&& 4 ≠ 0 then b.outLog else [])

namespace Consumer

def call (c : Consumer) (vm : UInt64) (out : Option AosBuf) (w : World H) :
    Int32 × Option AosBuf × World H :=
  match c with
  | relayNext => aosVmRelayNext encode vm out w
  | relayNextSidecar => aosVmRelayNextSidecar encode vm out w
  | takeOutputEx mask => aosVmTakeOutputEx vm mask out w
  | takeCommandPerf => aosVmTakeCommandPerf k vm out w

/-- What stands ready in the VM for the call. -/
def pending (c : Consumer) (entry : Vm H) : Option Bytes :=
  match c with
  | relayNext => nextFrame encode false entry.relay
  | relayNextSidecar => nextFrame encode true entry.relay
  | takeOutputEx mask => some (selectedOutput mask entry.sinks)
  | takeCommandPerf =>
    (k.takeCommandPerf entry.host).1.map fun p ↦ toUtf8 (commandPerfJson p)

def after (c : Consumer) (entry : Vm H) : Vm H :=
  match c with
  | relayNext => { entry with relay := (popEvent false entry.relay).2 }
  | relayNextSidecar => { entry with relay := (popEvent true entry.relay).2 }
  | takeOutputEx mask => { entry with sinks := (entry.sinks.takeEx mask).2 }
  | takeCommandPerf => { entry with host := (k.takeCommandPerf entry.host).2 }

end Consumer

def buffers (entry : Vm H) : RelayState × Sinks UInt8 := (entry.relay, entry.sinks)

/-- When the buffer is too small for the payload, every VM keeps what it had, and the same
call with a buffer of the reported length gets this payload. -/
def Retains (c : Consumer) (vm : UInt64) (b : AosBuf) (w : World H) : Prop :=
  ∀ entry bytes out w', vm ≠ 0 → w.vms vm = some entry → c.pending k encode entry = some bytes →
    b.room < bytes.length → c.call k encode vm (some b) w = (-1, some out, w') →
    (∀ v, (w'.vms v).map buffers = (w.vms v).map buffers) ∧
      ∀ b' : AosBuf, b'.room = out.len →
        ∃ out' w'', c.call k encode vm (some b') w' = (0, some out', w'') ∧ out'.contents = bytes

def Fits (c : Consumer) (vm : UInt64) (b : AosBuf) (w : World H) : Prop :=
  ∀ entry bytes, vm ≠ 0 → w.vms vm = some entry → c.pending k encode entry = some bytes →
    bytes.length ≤ b.room

/-- With a capacity of zero, `aos_vm_take_output` says how much output there is, and leaves it. -/
def Queries (vm : UInt64) (null : Bool) (w : World H) : Prop :=
  ∀ entry rc bytes w', vm ≠ 0 → w.vms vm = some entry →
    aosVmTakeOutput vm null 0 w = (rc, bytes, w') →
    rc.toInt = entry.sinks.takeDrain.1.length ∧
      ∀ v, (w'.vms v).map buffers = (w.vms v).map buffers

def NoOutput (vm : UInt64) (w : World H) : Prop :=
  ∀ entry, vm ≠ 0 → w.vms vm = some entry → entry.sinks = .empty

section Pending

theorem popEvent_fst (sidecarOnly : Bool) (relay : RelayState) :
    (popEvent sidecarOnly relay).1.map encode = nextFrame encode sidecarOnly relay := by
  cases h : SelectiveQueue.pop isSidecarEvent sidecarOnly relay.events with
  | none => simp [popEvent, nextFrame, h]
  | some ev =>
    obtain ⟨ev, events⟩ := ev
    have hframe : (dispatchRelayEvent { relay with events } ev).1 = (wireRelayEvent relay ev).1 := by
      cases ev <;> rfl
    simp [popEvent, nextFrame, h, hframe]

theorem dispatch_events (relay : RelayState) (ev : EgressRelayEvent) :
    (dispatchRelayEvent relay ev).2.events = relay.events := by
  cases ev with
  | hostCall h name body => rw [dispatch_hostCall]
  | wsSend h data => rw [dispatch_wsSend]
  | _ => rfl

theorem popEvent_ne {sidecarOnly : Bool} {relay : RelayState} {bytes : Bytes}
    (h : nextFrame encode sidecarOnly relay = some bytes) :
    (popEvent sidecarOnly relay).2 ≠ relay := by
  obtain ⟨⟨ev, events⟩, hpop, -⟩ := Option.map_eq_some_iff.mp h
  obtain ⟨l₁, l₂, hq, hr, -, -⟩ := SelectiveQueue.pop_split hpop
  intro heq
  have hevents : events = relay.events := by
    have hlen := congrArg RelayState.events heq
    simpa only [popEvent, hpop, dispatch_events] using hlen
  have hlen : events.length + 1 = relay.events.length := by
    simp only [hq, hr, List.length_append, List.length_cons]
    omega
  rw [hevents] at hlen
  omega

theorem takeEx_fst (mask : Int32) (b : Sinks UInt8) : (b.takeEx mask).1 = selectedOutput mask b := by
  have hdrain (p : Int32) (bytes : Bytes) :
      (Sinks.drainIf (p != 0) bytes).1 = if p ≠ 0 then bytes else [] := by
    by_cases hp : p = 0 <;> simp [Sinks.drainIf, hp]
  by_cases hmask : mask = 0
  · simp [Sinks.takeEx, selectedOutput, hmask]
  · simp only [Sinks.takeEx, selectedOutput, if_neg hmask, hdrain]

theorem takeEx_ne {mask : Int32} {b : Sinks UInt8} (h : selectedOutput mask b ≠ []) :
    (b.takeEx mask).2 ≠ b := by
  intro heq
  apply h
  rw [← takeEx_fst]
  by_cases hmask : mask = 0
  · subst mask
    have hout : b.out = [] := (congrArg Sinks.out heq).symm
    simpa [Sinks.takeEx] using hout
  · have hlen := (MixedOutput.takeEx_streams hmask b).2.length_eq
    rw [heq, List.length_append] at hlen
    exact List.length_eq_zero_iff.mp (by omega)

end Pending

def filled (b : AosBuf) : Option Bytes → Int32 × Option AosBuf
  | none => (0, some { b with len := 0 })
  | some bytes => fillBuf (some b) bytes

section Call

variable {k encode} {c : Consumer} {vm : UInt64} {entry : Vm H} {w : World H}

theorem deliver_withVm {f : Vm H → Except String (Option Bytes) × Vm H} {payload : Option Bytes}
    (name : String) (b : AosBuf) (hvm : vm ≠ 0) (hentry : w.vms vm = some entry)
    (hf : (f entry).1 = .ok payload) :
    deliver name (fun w ↦ w.withVm vm f) (some b) w =
      ((filled b payload).1, (filled b payload).2,
        { vms := Function.update w.vms vm (some (f entry).2), lastError := "" }) := by
  have hclear : w.clearError.vms vm = some entry := hentry
  simp only [deliver, World.withVm_some hvm hclear, hf]
  cases payload <;> rfl

theorem call_eq (k : Kernel H) (encode : WireRelayEvent → Bytes) (c : Consumer) (b : AosBuf)
    (hvm : vm ≠ 0) (hentry : w.vms vm = some entry) :
    c.call k encode vm (some b) w =
      ((filled b (c.pending k encode entry)).1, (filled b (c.pending k encode entry)).2,
        { vms := Function.update w.vms vm (some (c.after k entry)), lastError := "" }) := by
  cases c with
  | relayNext =>
    apply deliver_withVm "aos_vm_relay_next" b hvm hentry
    exact congrArg Except.ok (popEvent_fst encode false entry.relay)
  | relayNextSidecar =>
    apply deliver_withVm "aos_vm_relay_next_sidecar" b hvm hentry
    exact congrArg Except.ok (popEvent_fst encode true entry.relay)
  | takeOutputEx mask =>
    apply deliver_withVm "aos_vm_take_output_ex" b hvm hentry
    exact congrArg (fun bytes ↦ Except.ok (some bytes)) (takeEx_fst mask entry.sinks)
  | takeCommandPerf => exact deliver_withVm "aos_vm_take_command_perf" b hvm hentry rfl

/-- A call that had a payload has changed a buffer, or has none the next time. -/
theorem after_consumed
    (hTake : ∀ h p, (k.takeCommandPerf h).1 = some p →
      (k.takeCommandPerf (k.takeCommandPerf h).2).1 = none)
    {bytes : Bytes} (hpending : c.pending k encode entry = some bytes) (hne : bytes ≠ []) :
    buffers (c.after k entry) ≠ buffers entry ∨ c.pending k encode (c.after k entry) = none := by
  cases c with
  | relayNext =>
    exact Or.inl fun h ↦ popEvent_ne encode hpending (congrArg Prod.fst h)
  | relayNextSidecar =>
    exact Or.inl fun h ↦ popEvent_ne encode hpending (congrArg Prod.fst h)
  | takeOutputEx mask =>
    have hselected : selectedOutput mask entry.sinks ≠ [] := by
      rwa [Option.some.inj hpending]
    exact Or.inl fun h ↦ takeEx_ne hselected (congrArg Prod.snd h)
  | takeCommandPerf =>
    obtain ⟨p, hp, -⟩ := Option.map_eq_some_iff.mp hpending
    apply Or.inr
    simp only [Consumer.pending, Consumer.after, hTake _ p hp, Option.map_none]

theorem retains_of_fits {b : AosBuf} (h : Fits k encode c vm b w) : Retains k encode c vm b w := by
  intro entry bytes out w' hvm hentry hpending hroom
  exact absurd (h entry bytes hvm hentry hpending) (Nat.not_le.mpr hroom)

theorem fits_of_retains
    (hTake : ∀ h p, (k.takeCommandPerf h).1 = some p →
      (k.takeCommandPerf (k.takeCommandPerf h).2).1 = none)
    {b : AosBuf} (h : Retains k encode c vm b w) : Fits k encode c vm b w := by
  intro entry bytes hvm hentry hpending
  by_contra hlong
  have hroom : b.room < bytes.length := Nat.not_le.mp hlong
  have hne : bytes ≠ [] := by
    intro heq
    subst heq
    exact absurd hroom (Nat.not_lt_zero _)
  have hcall := call_eq k encode c b hvm hentry
  simp only [hpending, filled, fillBuf_overflow hroom] at hcall
  obtain ⟨hbuffers, hretry⟩ := h entry bytes _ _ hvm hentry hpending hroom hcall
  rcases after_consumed hTake hpending hne with hchanged | hnone
  · have hkept := hbuffers vm
    simp only [Function.update_self, hentry, Option.map_some, Option.some.injEq] at hkept
    exact hchanged hkept
  · let b' : AosBuf := ⟨some (List.replicate bytes.length 0), bytes.length, 0, by simp⟩
    obtain ⟨out', w'', hagain, hcontents⟩ := hretry b' (if_neg (by simp [b']))
    rw [call_eq k encode c b' hvm (Function.update_self ..), hnone] at hagain
    simp only [filled, Prod.mk.injEq, Option.some.injEq, true_and] at hagain
    apply hne
    rw [← hcontents, ← hagain.1]
    simp [AosBuf.contents]

end Call

theorem queries_iff {vm : UInt64} {null : Bool} {w : World H} :
    Queries vm null w ↔ NoOutput vm w := by
  constructor
  · intro h entry hvm hentry
    obtain ⟨-, hbuffers⟩ := h entry _ _ _ hvm hentry (aosVmTakeOutput_zero null hvm hentry)
    have hkept := hbuffers vm
    simp only [Function.update_self, hentry, Option.map_some, Option.some.injEq] at hkept
    exact (congrArg Prod.snd hkept).symm
  · intro h entry rc bytes w' hvm hentry hcall
    rw [aosVmTakeOutput_zero null hvm hentry] at hcall
    simp only [Prod.mk.injEq] at hcall
    obtain ⟨rfl, -, rfl⟩ := hcall
    have hempty := h entry hvm hentry
    refine ⟨by rw [hempty]; rfl, fun v ↦ ?_⟩
    by_cases hv : v = vm
    · subst v
      simp only [Function.update_self, hentry, Option.map_some, buffers, hempty]
    · simp only [Function.update_of_ne hv]

/-- A call leaves what does not fit exactly when nothing is left over, and a size query
leaves the output exactly when there is none. -/
theorem overflow_keeps_iff
    (hTake : ∀ h p, (k.takeCommandPerf h).1 = some p →
      (k.takeCommandPerf (k.takeCommandPerf h).2).1 = none)
    (vm : UInt64) (w : World H) :
    (∀ c b, Retains k encode c vm b w ↔ Fits k encode c vm b w) ∧
      ∀ null, Queries vm null w ↔ NoOutput vm w :=
  ⟨fun _ _ ↦ ⟨fits_of_retains hTake, retains_of_fits⟩, fun _ ↦ queries_iff⟩

def perfKernel : Kernel (Option CommandPerf) where
  exec _ _ _ entry := (.ok ⟨[], [], 0⟩, entry)
  run _ _ _ _ entry := (.ok ⟨[], [], 0⟩, entry)
  execPoll _ entry := (.ok none, entry)
  serviceCall _ _ entry := (.ok ⟨0, []⟩, entry)
  takeCommandPerf host := (host, none)

def twoBytes : World (Option CommandPerf) where
  vms vm := if vm = 1 then some ⟨none, Sinks.empty.write .stdout [120, 121], .new⟩ else none
  lastError := ""

def oneByteBuf : AosBuf := ⟨some [0], 1, 0, by simp⟩

theorem overflow_keeps_iff_two_bytes :
    (∀ c b, Retains perfKernel (fun _ ↦ []) c 1 b twoBytes ↔
        Fits perfKernel (fun _ ↦ []) c 1 b twoBytes) ∧
      ∀ null, Queries 1 null twoBytes ↔ NoOutput 1 twoBytes :=
  overflow_keeps_iff perfKernel (fun _ ↦ []) (fun _ _ _ ↦ rfl) 1 twoBytes

/-- One byte of room for two: the call reports two and has dropped both; so has a size query. -/
theorem overflow_drops_output :
    ¬Retains perfKernel (fun _ ↦ []) (.takeOutputEx 0) 1 oneByteBuf twoBytes ∧
      ¬Queries 1 true twoBytes := by
  constructor
  · intro h
    have hfits := fits_of_retains (fun _ _ _ ↦ rfl) h _ _ (by decide) rfl rfl
    exact absurd hfits (by decide)
  · intro h
    have hempty := queries_iff.mp h _ (by decide) rfl
    exact absurd hempty (by decide)

end MachineNotebook.Host.Overflow
