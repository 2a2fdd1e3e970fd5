import MachineNotebook.Host.Jobs
import MachineNotebook.Host.Requests
import MachineNotebook.Host.Tty

namespace MachineNotebook.Host.OneVm

open MachineNotebook.Lib.Utf8 Error VmTable KernelHost Exec Jobs Files Tty Requests Consume

variable {H α β R : Type} {vm : UInt64}

/-- A step that answers from the VM under one handle, and changes no other. -/
structure Addressed (vm : UInt64) (f : World H → α × World H) : Prop where
  own : ∀ w w', w.vms vm = w'.vms vm → (f w).1 = (f w').1 ∧ (f w).2.vms vm = (f w').2.vms vm
  others : ∀ w g, g ≠ vm → (f w).2.vms g = w.vms g
  kept : ∀ w, (f w).2.vms vm = none ↔ w.vms vm = none

theorem Addressed.congr {f g : World H → α × World H} (hf : Addressed vm f)
    (hgf : ∀ w, g w = f w) : Addressed vm g := by
  rw [funext hgf]
  exact hf

/-- A request, which leaves it to the call to report an error. -/
structure Reaches (vm : UInt64) (f : World H → α × World H) : Prop extends Addressed vm f where
  lastError : ∀ w, (f w).2.lastError = w.lastError

theorem reaches_const (r : α) : Reaches vm fun w : World H ↦ (r, w) where
  own _ _ hw := ⟨rfl, hw⟩
  others _ _ _ := rfl
  kept _ := Iff.rfl
  lastError _ := rfl

theorem reaches_withVm (f : Vm H → Except String α × Vm H) :
    Reaches vm fun w : World H ↦ w.withVm vm f := by
  by_cases hzero : vm = 0
  · simp only [World.withVm, if_pos hzero]
    exact reaches_const _
  · simp only [World.withVm, if_neg hzero]
    refine ⟨⟨?_, ?_, ?_⟩, ?_⟩
    · intro w w' hw
      cases hentry : w.vms vm with
      | none => simp [← hw, hentry]
      | some entry => simp [← hw, hentry]
    · intro w g hg
      cases w.vms vm with
      | none => rfl
      | some entry => exact Function.update_of_ne hg ..
    · intro w
      cases hentry : w.vms vm with
      | none => simp [hentry]
      | some entry => simp
    · intro w
      cases w.vms vm with
      | none => rfl
      | some entry => rfl

theorem reaches_withHostMut (op : String) (f : Vm H → Except String α × Vm H) :
    Reaches vm fun w : World H ↦ w.withHostMut vm op f :=
  reaches_withVm _

theorem Reaches.post {f : World H → α × World H} (hf : Reaches vm f) (out : α → String → β)
    (err : α → String → String) :
    Addressed vm fun w ↦
      (out (f w.clearError).1 (f w.clearError).2.lastError,
        { (f w.clearError).2 with
          lastError := err (f w.clearError).1 (f w.clearError).2.lastError }) where
  own w w' hw := by
    obtain ⟨hout, hvms⟩ := hf.own w.clearError w'.clearError hw
    have hleft : (f w.clearError).2.lastError = (f w'.clearError).2.lastError :=
      (hf.lastError w.clearError).trans (hf.lastError w'.clearError).symm
    refine ⟨?_, hvms⟩
    dsimp only
    rw [hout, hleft]
  others w g hg := hf.others w.clearError g hg
  kept w := hf.kept w.clearError

theorem reaches_ite {p : Prop} [Decidable p] (r : α) {f : World H → α × World H}
    (hf : ¬p → Reaches vm f) : Reaches vm fun w ↦ if p then (r, w) else f w := by
  by_cases hp : p
  · simp only [if_pos hp]
    exact reaches_const r
  · simp only [if_neg hp]
    exact hf hp

section Parts

variable {use : World H → Except String R × World H}

theorem reaches_withArgs (call : String) (null : Bool) (huse : Reaches vm use) :
    Reaches vm (withArgs call vm null use) :=
  reaches_ite _ fun _ ↦ huse

theorem reaches_withStr (what : String) (p : Option Bytes)
    {use : String → World H → Except String R × World H} (huse : ∀ s, Reaches vm (use s)) :
    Reaches vm (withStr what p use) := by
  unfold withStr
  cases cstrToStr p with
  | none => exact reaches_const _
  | some s => exact huse s

theorem reaches_withOpts (opts : Option AosExecOpts)
    {use : ExecOptions → World H → Except String R × World H} (huse : ∀ eo, Reaches vm (use eo)) :
    Reaches vm (withOpts opts use) := by
  unfold withOpts
  cases readExecOpts opts with
  | error e => exact reaches_const _
  | ok o => exact huse o.1

theorem reaches_path (call op what : String) (null : Bool) (path : Option Bytes)
    (f : String → Vm H → Except String R × Vm H) :
    Reaches vm (withArgs call vm null <| withStr what path fun path w ↦
      w.withHostMut vm op (f path)) :=
  reaches_withArgs _ _ (reaches_withStr _ _ fun _ ↦ reaches_withHostMut _ _)

end Parts

section Requests

variable (k : Kernel H)

theorem reaches_execEx (cmd : Option Bytes) (opts : Option AosExecOpts) :
    Reaches vm (execExRequest k vm cmd opts) := by
  unfold execExRequest
  refine reaches_ite _ fun _ ↦ ?_
  cases cstrToStr cmd with
  | none => exact reaches_const _
  | some text =>
    cases readExecOpts opts with
    | error e => exact reaches_const _
    | ok o => exact reaches_withHostMut _ _

theorem reaches_run (program : Option Bytes) (argv : Option (List (Option Bytes))) (argc : ℕ)
    (opts : Option AosExecOpts) : Reaches vm (runRequest k vm program argv argc opts) := by
  unfold runRequest
  refine reaches_ite _ fun _ ↦ ?_
  cases cstrToStr program with
  | none => exact reaches_const _
  | some text =>
    cases readArgv argv argc with
    | error e => exact reaches_const _
    | ok args =>
      cases readExecOpts opts with
      | error e => exact reaches_const _
      | ok o => exact reaches_withHostMut _ _

theorem reaches_execPoll (job : Int64) : Reaches vm (execPollRequest k vm job) :=
  reaches_ite _ fun _ ↦ reaches_withHostMut _ _

theorem reaches_svcCall (service req : Option Bytes) (len : ℕ) :
    Reaches vm (svcCallRequest k vm service req len) := by
  unfold svcCallRequest
  refine reaches_ite _ fun _ ↦ ?_
  cases cstrToStr service with
  | none => exact reaches_const _
  | some text => exact reaches_withHostMut _ _

theorem reaches_exec (cmd : Option Bytes) (maxTicks : UInt64) :
    Reaches vm (execRequest vm k cmd maxTicks) := by
  unfold execRequest
  refine reaches_withArgs _ _ ?_
  cases cstrToStr cmd with
  | none => exact reaches_const _
  | some text => exact reaches_withHostMut _ _

theorem reaches_runStart (s : StartKernel H) (program : Option Bytes)
    (argv : Option (List (Option Bytes))) (argc : ℕ) (opts : Option AosExecOpts) (null : Bool) :
    Reaches vm (runStartRequest s vm program argv argc opts null) := by
  refine reaches_withArgs _ _ (reaches_withStr _ _ fun text ↦ ?_)
  cases readStartArgv argv argc with
  | error e => exact reaches_const _
  | ok args => exact reaches_withOpts _ fun _ ↦ reaches_withHostMut _ _

theorem reaches_sendInput (t : TtyKernel H) (data : Option Bytes) (len : ℕ) :
    Reaches vm (sendInputRequest t vm data len) := by
  unfold sendInputRequest
  by_cases hlen : len = 0
  · simp only [if_pos hlen]
    exact reaches_withHostMut _ _
  · simp only [if_neg hlen]
    cases data with
    | none => exact reaches_const _
    | some data => exact reaches_withHostMut _ _

theorem reaches_injectCatalog (c : CatalogKernel H) (compilerWasm : Option Bytes)
    (compilerLen : ℕ) (generation : UInt64) (catalogBlob : Option Bytes) (catalogLen : ℕ) :
    Reaches vm (injectCatalogRequest c vm compilerWasm compilerLen generation catalogBlob
      catalogLen) := by
  unfold injectCatalogRequest
  refine reaches_ite _ fun _ ↦ reaches_ite _ fun _ ↦ reaches_ite _ fun _ ↦ ?_
  dsimp only
  cases Catalog.parseCatalogBlob c.toCatalogLib ((catalogBlob.getD []).take catalogLen)
    ((compilerWasm.getD []).take compilerLen) generation with
  | error e => exact reaches_const _
  | ok opts => exact reaches_withHostMut _ _

theorem reaches_relay (call : String) (handle : Int64)
    (f : Table.RelayState → Except String (R × Table.RelayState)) :
    Reaches vm (relayRequest (H := H) call vm handle f) :=
  reaches_ite _ fun _ ↦ reaches_withVm _

end Requests

end MachineNotebook.Host.OneVm
