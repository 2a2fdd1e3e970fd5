import MachineNotebook.Host.Jobs
import MachineNotebook.Host.RelayRun

namespace MachineNotebook.Host.Handles

open MachineNotebook.Lib.Utf8 Table Relay RelayRun VmTable Jobs

inductive HostCall
  | httpRespond (ok : Int32) (head body : Bytes)
  | hostCallRespond (ok : Int32) (result : Bytes)
  | persistRespond (ok : Int32) (body : Bytes)
  | toolApprovalRespond (allow rememberSession : Int32)
  | wsOpen (ok : Int32)
  | wsPush (data : Bytes)
  | wsClose

namespace HostCall

def op (handle : Int64) : HostCall → RelayOp
  | httpRespond ok head body => .httpRespond handle ok head body
  | hostCallRespond ok result => .hostCallRespond handle ok result
  | persistRespond ok body => .persistRespond handle ok body
  | toolApprovalRespond allow remember => .toolApprovalRespond handle allow remember
  | wsOpen ok => .wsOpen handle ok
  | wsPush data => .wsPush handle data
  | wsClose => .wsHostClose handle

/-- A slot, or an approval that waits, of the kind the call answers. -/
def live (call : HostCall) (h : Int32) (s : RelayState) : Bool :=
  match call with
  | httpRespond _ _ _ => (s.http h).isSome
  | hostCallRespond _ _ => (s.hostCalls h).isSome
  | persistRespond _ _ => (s.persist h).isSome
  | toolApprovalRespond _ _ => (s.pendingToolApprovals h).isSome
  | wsOpen _ | wsPush _ | wsClose => (s.ws h).isSome

/-- Under `h` there is no slot of the call's kind, or one that holds already what the
call would put into it. -/
def Idle (call : HostCall) (h : Int32) (s : RelayState) : Prop :=
  match call with
  | httpRespond ok head body => ∀ slot ∈ s.http h, slot = ⟨true, ok == 0, head, body, 0⟩
  | hostCallRespond ok result => ∀ slot ∈ s.hostCalls h,
    slot = ⟨slot.dispatched, slot.sidecar, true, ok == 0, result, 0⟩
  | persistRespond ok body => ∀ slot ∈ s.persist h, slot = ⟨true, ok == 0, body, 0⟩
  | toolApprovalRespond _ _ => s.pendingToolApprovals h = none
  | wsOpen ok => ∀ slot ∈ s.ws h, slot.isOpen = (ok != 0) ∧ slot.failed = (ok == 0)
  | wsPush _ => s.ws h = none
  | wsClose => ∀ slot ∈ s.ws h, slot.isOpen = false

end HostCall

section Unchanged

variable {s : RelayState} {handle : Int64}

theorem answer_eq_self {α : Type} {call kind : String} {f : α → α} (get : RelayState → Slots α)
    (upd : Slots α → RelayState) (hget : ∀ m, get (upd m) = m) (hupd : upd (get s) = s)
    (hpos : 0 < handle) :
    (hostStatus s ((answerSlot call kind (get s) handle f).map upd)).2 = s ↔
      ∀ slot ∈ get s handle.toInt32, f slot = slot := by
  have hneg : ¬handle ≤ 0 := Int64.not_le.mpr hpos
  cases hs : get s handle.toInt32 with
  | none => simp [answerSlot, hneg, hs, hostStatus, Except.map]
  | some slot =>
    simp only [answerSlot, if_neg hneg, hs, hostStatus, Except.map, Option.mem_def,
      Option.some.injEq, forall_eq']
    rw [← Slots.insert_eq_self hs]
    constructor
    · intro he
      rw [← hget ((get s).insert handle.toInt32 (f slot)), he]
    · intro he
      rw [he, hupd]

theorem answer_invalid {α : Type} {call kind : String} {f : α → α} {m : Slots α}
    (upd : Slots α → RelayState) (hneg : handle ≤ 0) :
    (hostStatus s ((answerSlot call kind m handle f).map upd)).2 = s := by
  simp [answerSlot, hneg, hostStatus, Except.map]

theorem invalid_unchanged (call : HostCall) (hneg : handle ≤ 0) :
    (relayStep (call.op handle) s).2 = s := by
  cases call with
  | httpRespond ok head body => exact answer_invalid _ hneg
  | hostCallRespond ok result => exact answer_invalid _ hneg
  | persistRespond ok body => exact answer_invalid _ hneg
  | toolApprovalRespond allow remember =>
    simp [HostCall.op, relayStep, relayToolApprovalRespond, hneg]
  | wsOpen ok => exact answer_invalid _ hneg
  | wsPush data => exact answer_invalid _ hneg
  | wsClose => simp [HostCall.op, relayStep, relayWsClose, hneg, hostStatus]

theorem reopen_eq_self (slot : WsSlot) {isOpen failed : Bool} :
    { slot with isOpen, failed } = slot ↔ slot.isOpen = isOpen ∧ slot.failed = failed := by
  cases slot
  simp [eq_comm]

theorem push_ne_self (slot : WsSlot) (data : Bytes) :
    { slot with incoming := slot.incoming ++ [data] } ≠ slot := by
  intro he
  have hlen := congrArg (List.length ∘ WsSlot.incoming) he
  simp at hlen

/-- With a positive handle, a call leaves the relay as it is exactly when it finds nothing
to do under the handle's low word. -/
theorem unchanged_iff (call : HostCall) (hpos : 0 < handle) :
    (relayStep (call.op handle) s).2 = s ↔ call.Idle handle.toInt32 s := by
  have hneg : ¬handle ≤ 0 := Int64.not_le.mpr hpos
  cases call with
  | httpRespond ok head body =>
    refine (answer_eq_self RelayState.http (fun http ↦ { s with http }) (fun _ ↦ rfl) rfl
      hpos).trans ?_
    simp only [HostCall.Idle, eq_comm]
  | hostCallRespond ok result =>
    refine (answer_eq_self RelayState.hostCalls (fun hostCalls ↦ { s with hostCalls })
      (fun _ ↦ rfl) rfl hpos).trans ?_
    simp only [HostCall.Idle, eq_comm]
  | persistRespond ok body =>
    refine (answer_eq_self RelayState.persist (fun persist ↦ { s with persist }) (fun _ ↦ rfl)
      rfl hpos).trans ?_
    simp only [HostCall.Idle, eq_comm]
  | toolApprovalRespond allow remember =>
    cases hs : s.pendingToolApprovals handle.toInt32 with
    | none => simp [HostCall.op, HostCall.Idle, relayStep, relayToolApprovalRespond, hneg, hs]
    | some tx =>
      simp only [HostCall.op, HostCall.Idle, relayStep, relayToolApprovalRespond, if_neg hneg, hs,
        reduceCtorEq, iff_false]
      intro he
      have hgone := congrFun (congrArg RelayState.pendingToolApprovals he) handle.toInt32
      simp [hs] at hgone
  | wsOpen ok =>
    refine (answer_eq_self RelayState.ws (fun ws ↦ { s with ws }) (fun _ ↦ rfl) rfl
      hpos).trans ?_
    exact forall₂_congr fun slot _ ↦ reopen_eq_self slot
  | wsPush data =>
    refine (answer_eq_self RelayState.ws (fun ws ↦ { s with ws }) (fun _ ↦ rfl) rfl
      hpos).trans ?_
    rw [HostCall.Idle, Option.eq_none_iff_forall_not_mem]
    exact forall₂_congr fun slot _ ↦ iff_false_intro (push_ne_self slot data)
  | wsClose =>
    cases hs : s.ws handle.toInt32 with
    | none => simp [HostCall.op, HostCall.Idle, relayStep, relayWsClose, hneg, hs, hostStatus]
    | some slot =>
      simp only [HostCall.op, HostCall.Idle, relayStep, relayWsClose, if_neg hneg, hs, hostStatus,
        Option.mem_def, Option.some.injEq, forall_eq']
      constructor
      · intro he
        have hws := (Slots.insert_eq_self hs).mp (congrArg RelayState.ws he)
        rw [← hws]
      · intro hopen
        rw [(Slots.insert_eq_self hs).mpr (by rw [← hopen])]

end Unchanged

/-- A handle of 32 bits is its own low word. -/
theorem toInt32_exact {handle : Int64} (hpos : 0 < handle) (hlt : handle.toInt < 2 ^ 31) :
    handle.toInt32.toInt = handle.toInt := by
  have hpos' : 0 < handle.toInt := Int64.lt_iff_toInt_lt.mp hpos
  rw [Int64.toInt_toInt32, Int.bmod_eq_of_le] <;> omega

/-- The call changes the relay only where the whole handle is that of something live. -/
def ChangesNamed (call : HostCall) (handle : Int64) (s : RelayState) : Prop :=
  (relayStep (call.op handle) s).2 ≠ s → ∃ h : Int32, call.live h s ∧ h.toInt = handle.toInt

theorem live_of_not_idle {call : HostCall} {h : Int32} {s : RelayState} (hidle : ¬call.Idle h s) :
    call.live h s := by
  by_contra hlive
  apply hidle
  cases call <;> simp_all [HostCall.live, HostCall.Idle]

theorem changesNamed_iff (call : HostCall) (handle : Int64) (s : RelayState) :
    ChangesNamed call handle s ↔ handle.toInt < 2 ^ 31 ∨ call.Idle handle.toInt32 s := by
  by_cases hpos : 0 < handle
  · rw [ChangesNamed, ne_eq, unchanged_iff call hpos]
    constructor
    · intro h
      by_contra hnot
      obtain ⟨hlarge, hidle⟩ := not_or.mp hnot
      obtain ⟨h', -, heq⟩ := h hidle
      have := h'.toInt_lt
      omega
    · intro h hidle
      exact ⟨handle.toInt32, live_of_not_idle hidle,
        toInt32_exact hpos (h.resolve_right hidle)⟩
  · have hneg : handle ≤ 0 := Int64.not_lt.mp hpos
    have hsmall : handle.toInt ≤ 0 := Int64.le_iff_toInt_le.mp hneg
    constructor
    · intro _
      exact Or.inl (by omega)
    · intro _ hchanged
      exact absurd (invalid_unchanged call hneg) hchanged

variable {H : Type}

/-- Every job that any kernel is asked about has the id that was passed. -/
def ConsultsNamed (k : JobKernel H) (call : JobCall) (vm : UInt64) (job : Int64) (w : World H) :
    Prop :=
  ∀ vm', ∀ j ∈ consulted k vm job w call vm', j.toInt = job.toInt

theorem consultsNamed_iff (k : JobKernel H) (call : JobCall) (vm : UInt64) (job : Int64)
    (w : World H) :
    ConsultsNamed k call vm job w ↔
      job.toInt < 2 ^ 31 ∨ ¬call.Accepted vm job ∨ w.vms vm = none := by
  simp only [ConsultsNamed, consulted_eq]
  constructor
  · intro h
    by_contra hnot
    simp only [not_or, not_not] at hnot
    obtain ⟨hlarge, hargs, hvm⟩ := hnot
    have hj := h vm job.toInt32 (by simp [hargs, hvm])
    have := job.toInt32.toInt_lt
    omega
  · intro h vm' j hj
    split at hj
    · rename_i hasked
      obtain ⟨hargs, -, hvm⟩ := hasked
      have hlt := h.resolve_right (not_or.mpr ⟨not_not.mpr hargs, hvm⟩)
      rw [List.mem_singleton.mp hj, toInt32_exact hargs.pos hlt]
    · cases hj

/-- The host's calls reach only what their whole handle or job id names, exactly when that
is below `2 ^ 31` or nothing under its low word can be reached. -/
theorem answers_named_iff (ops : List RelayOp) (call : HostCall) (handle : Int64) (k : JobKernel H)
    (jobCall : JobCall) (vm : UInt64) (job : Int64) (w : World H) :
    (ChangesNamed call handle (run ops) ↔
        handle.toInt < 2 ^ 31 ∨ call.Idle handle.toInt32 (run ops)) ∧
      (ConsultsNamed k jobCall vm job w ↔
        job.toInt < 2 ^ 31 ∨ ¬jobCall.Accepted vm job ∨ w.vms vm = none) :=
  ⟨changesNamed_iff call handle (run ops), consultsNamed_iff k jobCall vm job w⟩

def facts : ToolApprovalFacts := ⟨"github", "POST", "/repos", "https://api.github.com", none⟩

/-- An answer for 4294967297 authorises the request that waits under 1, and a cancellation of
job 4294967299 goes to job 3. -/
theorem low_word_answered :
    ¬ChangesNamed (.toolApprovalRespond 1 0) 4294967297 (run [.approve 7 facts]) ∧
      (relayStep (.toolApprovalRespond 4294967297 1 0) (run [.approve 7 facts])).1.sent =
        some (7, ⟨true, false⟩) ∧
      ∀ (k : JobKernel Unit) (entry : Vm Unit),
        ¬ConsultsNamed k .execCancel 1 4294967299 ⟨fun _ ↦ some entry, ""⟩ ∧
          consulted k 1 4294967299 ⟨fun _ ↦ some entry, ""⟩ .execCancel 1 = [3] := by
  refine ⟨?_, by decide, fun k entry ↦ ⟨?_, ?_⟩⟩
  · have hwaits : (run [.approve 7 facts]).pendingToolApprovals 1 = some 7 := by decide
    rw [changesNamed_iff]
    exact fun h ↦ h.elim (by decide) fun hidle ↦ Option.some_ne_none 7 (hwaits.symm.trans hidle)
  · rw [consultsNamed_iff]
    simp [JobCall.Accepted]
  · rw [consulted_eq]
    rfl

end MachineNotebook.Host.Handles
