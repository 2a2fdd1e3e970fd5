import MachineNotebook.Host.Approvals

namespace MachineNotebook.Host.Ownership

open MachineNotebook.Lib Table Relay RelayRun Approvals

/-- Dropping the state of a relay drops the senders of its map, and with them the last sender of
each channel. -/
def dropState (s : System) : System :=
  { s with
    relay := { s.relay with pendingToolApprovals := Slots.empty }
    channels := s.channels.map Channel.hangUp }

/-- The shared state of a relay with its approve calls, its reference count, and the capability
objects that hold a clone. -/
structure Shared where
  system : System
  strong : ℕ
  capabilities : ℕ

namespace Shared

/-- `boot` keeps one reference for the table and clones one for each capability. -/
def new (capabilities : ℕ) : Shared := ⟨System.new, 1 + capabilities, capabilities⟩

def clone (x : Shared) : Shared := { x with strong := x.strong + 1 }

def release (x : Shared) : Shared :=
  if x.strong = 1 then { x with strong := 0, system := dropState x.system }
  else { x with strong := x.strong - 1 }

end Shared

/-- The calls that the guest makes on a capability object; the others come from the host. -/
def byCapability : RelayOp → Bool
  | .relayNext _ | .httpRespond _ _ _ _ | .hostCallRespond _ _ _ | .persistRespond _ _ _
  | .toolApprovalRespond _ _ _ | .wsOpen _ _ | .wsPush _ _ | .wsHostClose _ => false
  | _ => true

def startsCall : RelayOp → Bool
  | .approve _ _ => true
  | _ => false

def capabilityAct (op : RelayOp) (x : Shared) : Shared :=
  if x.capabilities = 0 ∨ !byCapability op then x
  else
    let x' := { x with system := relayAct op x.system }
    if startsCall op then x'.clone else x'

def cloneCapability (x : Shared) : Shared :=
  if x.capabilities = 0 then x else { x.clone with capabilities := x.capabilities + 1 }

def dropCapability (x : Shared) : Shared :=
  if x.capabilities = 0 then x else { x.release with capabilities := x.capabilities - 1 }

/-- The call has something to receive, or no sender is left. -/
def returns (i : ℕ) (s : System) : Bool :=
  match s.calls[i]?, s.channels[i]?.bind Channel.recv with
  | some (.waiting _), some _ => true
  | _, _ => false

/-- A call that returns gives its reference back. -/
def recvCall (i : ℕ) (x : Shared) : Shared :=
  let x' := { x with system := recvAct i x.system }
  if returns i x.system then x'.release else x'

def hostAct (op : RelayOp) (x : Shared) : Shared :=
  if byCapability op then x else { x with system := relayAct op x.system }

/-- The VM table, and the relays that were ever made; an entry of the table is the relay's index. -/
structure World where
  nextId : UInt64
  vms : UInt64 → Option ℕ
  relays : List Shared

def World.new : World := ⟨1, fun _ ↦ none, []⟩

def dropEntry (w : World) : Option ℕ → List Shared
  | some r => w.relays.modify r Shared.release
  | none => w.relays

def insertVm (capabilities : ℕ) (w : World) : World :=
  let id := w.nextId
  { nextId := max (id + 1) 1
    vms := Function.update w.vms id (some w.relays.length)
    relays := dropEntry w (w.vms id) ++ [Shared.new capabilities] }

def vmClose (vm : UInt64) (w : World) : Int32 × World :=
  if vm = 0 then (-1, w)
  else
    match w.vms vm with
    | some r =>
      (0, { w with vms := Function.update w.vms vm none, relays := dropEntry w (some r) })
    | none => (-1, w)

inductive Move
  | boot (capabilities : ℕ)
  | close (vm : UInt64)
  | host (vm : UInt64) (op : RelayOp)
  | capability (r : ℕ) (op : RelayOp)
  | cloneCapability (r : ℕ)
  | dropCapability (r : ℕ)
  | recv (r i : ℕ)

def worldStep (act : Move) (w : World) : Unit × World :=
  ((), match act with
  | .boot capabilities => insertVm capabilities w
  | .close vm => (vmClose vm w).2
  | .host vm op =>
    match w.vms vm with
    | some r => if vm = 0 then w else { w with relays := w.relays.modify r (hostAct op) }
    | none => w
  | .capability r op => { w with relays := w.relays.modify r (capabilityAct op) }
  | .cloneCapability r => { w with relays := w.relays.modify r cloneCapability }
  | .dropCapability r => { w with relays := w.relays.modify r dropCapability }
  | .recv r i => { w with relays := w.relays.modify r (recvCall i) })

def world (acts : List Move) : World := Run.final worldStep acts World.new

def isWaiting : ApproveCall → Bool
  | .waiting _ => true
  | .returned _ _ => false

def waitingCalls (s : System) : ℕ := s.calls.countP isWaiting

/-- The owners of the state besides an entry of the table. -/
def Shared.holders (x : Shared) : ℕ := x.capabilities + waitingCalls x.system

/-- The count is that of the holders and `entries` entries of the table. -/
def Balanced (entries : ℕ) (x : Shared) : Prop := x.strong = x.holders + entries

section Calls

variable {i : ℕ} {s : System} {op : RelayOp}

theorem relayAct_calls (hop : startsCall op = false) : (relayAct op s).calls = s.calls := by
  cases op with
  | approve tx facts => cases hop
  | _ => rfl

theorem relayAct_calls_approve (tx : Sender) (facts : ToolApprovalFacts) :
    (relayAct (.approve tx facts) s).calls = s.calls ++ [.waiting s.relay.allocHandle.1] := rfl

theorem relayAct_channels_approve (tx : Sender) (facts : ToolApprovalFacts) :
    (relayAct (.approve tx facts) s).channels =
      deliver { ret := s.relay.allocHandle.1,
                dropped := s.relay.pendingToolApprovals s.relay.allocHandle.1 }
        (s.channels ++ [Channel.new]) := rfl

theorem waitingCalls_relayAct (op : RelayOp) (s : System) :
    waitingCalls (relayAct op s) = waitingCalls s + if startsCall op then 1 else 0 := by
  cases hop : startsCall op with
  | false =>
    simp only [waitingCalls, relayAct_calls hop, Bool.false_eq_true, if_false, Nat.add_zero]
  | true =>
    cases op with
    | approve tx facts => simp [waitingCalls, relayAct_calls_approve, isWaiting]
    | _ => cases hop

theorem recvAct_of_not_returns (hi : returns i s = false) : recvAct i s = s := by
  simp only [returns] at hi
  simp only [recvAct]
  split
  · rename_i h d c hcall hchannel
    rw [hcall, hchannel] at hi
    cases hi
  · rfl

theorem waitingCalls_pos {h : Int32} (hi : s.calls[i]? = some (.waiting h)) : 0 < waitingCalls s :=
  List.countP_pos_iff.mpr ⟨_, List.mem_of_getElem? hi, rfl⟩

theorem waitingCalls_recvAct (hi : returns i s = true) :
    waitingCalls s = waitingCalls (recvAct i s) + 1 := by
  simp only [returns] at hi
  split at hi
  · rename_i h r hcall hchannel
    obtain ⟨hlt, hget⟩ := List.getElem?_eq_some_iff.mp hcall
    have hpos : 0 < s.calls.countP isWaiting := waitingCalls_pos hcall
    simp only [recvAct, hcall, hchannel, waitingCalls]
    rw [List.countP_set hlt, hget]
    simp only [isWaiting, if_true, Bool.false_eq_true, if_false]
    omega
  · cases hi

end Calls

section Balance

variable {entries : ℕ} {x : Shared}

@[simp] theorem release_strong (x : Shared) : x.release.strong = x.strong - 1 := by
  rw [Shared.release]
  split
  · simp [*]
  · rfl

@[simp] theorem release_capabilities (x : Shared) : x.release.capabilities = x.capabilities := by
  rw [Shared.release]
  split <;> rfl

@[simp] theorem release_calls (x : Shared) : x.release.system.calls = x.system.calls := by
  rw [Shared.release]
  split <;> rfl

theorem release_system (hx : 1 < x.strong) : x.release.system = x.system := by
  rw [Shared.release, if_neg (by omega)]

theorem holders_release (x : Shared) : x.release.holders = x.holders := by
  simp only [Shared.holders, waitingCalls, release_capabilities, release_calls]

theorem balanced_new (capabilities : ℕ) : Balanced 1 (Shared.new capabilities) :=
  Nat.add_comm 1 capabilities

theorem Balanced.release (hx : Balanced 1 x) : Balanced 0 x.release := by
  rw [Balanced, release_strong, holders_release, hx]
  rfl

theorem Balanced.relayAct {op : RelayOp} (hop : startsCall op = false) (hx : Balanced entries x) :
    Balanced entries { x with system := Approvals.relayAct op x.system } := by
  have hcalls := relayAct_calls (s := x.system) hop
  simpa only [Balanced, Shared.holders, waitingCalls, hcalls] using hx

theorem Balanced.hostAct (op : RelayOp) (hx : Balanced entries x) :
    Balanced entries (hostAct op x) := by
  rw [Ownership.hostAct]
  split
  · exact hx
  · rename_i hop
    apply hx.relayAct
    cases op with
    | approve tx facts => exact absurd rfl hop
    | _ => rfl

theorem Balanced.capabilityAct (op : RelayOp) (hx : Balanced entries x) :
    Balanced entries (capabilityAct op x) := by
  rw [Ownership.capabilityAct]
  split
  · exact hx
  · cases hop : startsCall op with
    | false => exact hx.relayAct hop
    | true =>
      have hcalls := waitingCalls_relayAct op x.system
      simp only [Balanced, Shared.holders, hop, if_true, Shared.clone] at hx hcalls ⊢
      omega

theorem Balanced.cloneCapability (hx : Balanced entries x) :
    Balanced entries (cloneCapability x) := by
  rw [Ownership.cloneCapability]
  split
  · exact hx
  · simp only [Balanced, Shared.holders, Shared.clone] at hx ⊢
    omega

theorem Balanced.dropCapability (hx : Balanced entries x) :
    Balanced entries (dropCapability x) := by
  rw [Ownership.dropCapability]
  split
  · exact hx
  · simp only [Balanced, Shared.holders, release_strong, waitingCalls, release_calls] at hx ⊢
    omega

theorem Balanced.recvCall (i : ℕ) (hx : Balanced entries x) : Balanced entries (recvCall i x) := by
  rw [Ownership.recvCall]
  cases hi : returns i x.system with
  | false =>
    rw [recvAct_of_not_returns hi]
    exact hx
  | true =>
    have hcalls := waitingCalls_recvAct hi
    simp only [if_true, Balanced, Shared.holders, release_strong, release_capabilities,
      waitingCalls, release_calls] at hx hcalls ⊢
    omega

end Balance

/-- Each relay is in the table once at most, and its count is that of its owners. -/
structure Owned (w : World) : Prop where
  bound : ∀ vm r, w.vms vm = some r → r < w.relays.length
  single : ∀ vm vm' r, w.vms vm = some r → w.vms vm' = some r → vm = vm'
  listed : ∀ vm r x, w.vms vm = some r → w.relays[r]? = some x → Balanced 1 x
  unlisted : ∀ r x, (∀ vm, w.vms vm ≠ some r) → w.relays[r]? = some x → Balanced 0 x

section Owned

variable {w : World} {r : ℕ} {x : Shared}

theorem getElem?_modify_eq_some {f : Shared → Shared} {relays : List Shared} {r' : ℕ}
    (hx : (relays.modify r' f)[r]? = some x) :
    ∃ y, relays[r]? = some y ∧ x = if r' = r then f y else y := by
  rw [List.getElem?_modify, Option.map_eq_map, Option.map_eq_some_iff] at hx
  obtain ⟨y, hy, rfl⟩ := hx
  refine ⟨y, hy, ?_⟩
  split <;> rfl

theorem Owned.modify {f : Shared → Shared} (hw : Owned w) (r' : ℕ)
    (hf : ∀ entries x, Balanced entries x → Balanced entries (f x)) :
    Owned { w with relays := w.relays.modify r' f } := by
  refine ⟨?_, hw.single, ?_, ?_⟩
  · intro vm r hr
    simpa using hw.bound vm r hr
  · intro vm r x hr hx
    obtain ⟨y, hy, rfl⟩ := getElem?_modify_eq_some hx
    have hbal := hw.listed vm r y hr hy
    split
    · exact hf 1 y hbal
    · exact hbal
  · intro r x hr hx
    obtain ⟨y, hy, rfl⟩ := getElem?_modify_eq_some hx
    have hbal := hw.unlisted r y hr hy
    split
    · exact hf 0 y hbal
    · exact hbal

theorem Owned.remove (hw : Owned w) (vm : UInt64) :
    Owned { w with vms := Function.update w.vms vm none, relays := dropEntry w (w.vms vm) } := by
  have hother {vm' : UInt64} {r : ℕ} (hr : Function.update w.vms vm none vm' = some r) :
      vm' ≠ vm ∧ w.vms vm' = some r := by
    by_cases hne : vm' = vm
    · simp [hne] at hr
    · exact ⟨hne, by simpa [hne] using hr⟩
  cases hvm : w.vms vm with
  | none =>
    have hsame : Function.update w.vms vm none = w.vms := by
      rw [← hvm, Function.update_eq_self]
    simpa only [dropEntry, hsame] using hw
  | some r₀ =>
    refine ⟨?_, ?_, ?_, ?_⟩
    · intro vm' r hr
      simpa [dropEntry] using hw.bound vm' r (hother hr).2
    · intro vm' vm'' r hr hr'
      exact hw.single vm' vm'' r (hother hr).2 (hother hr').2
    · intro vm' r x hr hx
      obtain ⟨hne, hr⟩ := hother hr
      obtain ⟨y, hy, rfl⟩ := getElem?_modify_eq_some hx
      have hr₀ : r₀ ≠ r := by
        intro he
        exact hne (hw.single vm' vm r hr (he ▸ hvm))
      rw [if_neg hr₀]
      exact hw.listed vm' r y hr hy
    · intro r x hr hx
      obtain ⟨y, hy, rfl⟩ := getElem?_modify_eq_some hx
      split
      · rename_i he
        subst he
        exact (hw.listed vm r₀ y hvm hy).release
      · rename_i hne
        apply hw.unlisted r y _ hy
        intro vm' hvm'
        apply hr vm'
        by_cases he : vm' = vm
        · rw [he, hvm, Option.some_inj] at hvm'
          exact absurd hvm' hne
        · simpa [he] using hvm'

theorem Owned.insert (hw : Owned w) (vm : UInt64) (capabilities : ℕ) (nextId : UInt64)
    (hvm : w.vms vm = none) :
    Owned ⟨nextId, Function.update w.vms vm (some w.relays.length),
      w.relays ++ [Shared.new capabilities]⟩ := by
  have hentry {vm' : UInt64} {r : ℕ}
      (hr : Function.update w.vms vm (some w.relays.length) vm' = some r) :
      (vm' = vm ∧ r = w.relays.length) ∨ (w.vms vm' = some r ∧ r < w.relays.length) := by
    by_cases he : vm' = vm
    · exact .inl ⟨he, by simpa [he] using hr.symm⟩
    · have hr' : w.vms vm' = some r := by simpa [he] using hr
      exact .inr ⟨hr', hw.bound vm' r hr'⟩
  refine ⟨?_, ?_, ?_, ?_⟩
  · intro vm' r hr
    rw [List.length_append, List.length_singleton]
    cases hentry hr with
    | inl h => omega
    | inr h => omega
  · intro vm' vm'' r hr hr'
    rcases hentry hr with ⟨he, hlen⟩ | ⟨hr, hlt⟩
    · rcases hentry hr' with ⟨he', -⟩ | ⟨-, hlt⟩
      · rw [he, he']
      · omega
    · rcases hentry hr' with ⟨-, hlen⟩ | ⟨hr', -⟩
      · omega
      · exact hw.single vm' vm'' r hr hr'
  · intro vm' r x hr hx
    rcases hentry hr with ⟨-, hlen⟩ | ⟨hr, hlt⟩
    · subst hlen
      rw [List.getElem?_concat_length, Option.some_inj] at hx
      exact hx ▸ balanced_new capabilities
    · rw [List.getElem?_append_left hlt] at hx
      exact hw.listed vm' r x hr hx
  · intro r x hr hx
    have hne : r ≠ w.relays.length := by
      intro he
      apply hr vm
      exact he ▸ Function.update_self ..
    have hlt : r < w.relays.length := by
      have hlen := (List.getElem?_eq_some_iff.mp hx).1
      simp only [List.length_append, List.length_singleton] at hlen
      omega
    rw [List.getElem?_append_left hlt] at hx
    apply hw.unlisted r x _ hx
    intro vm' hvm'
    have hvm'' : vm' ≠ vm := by
      intro he
      rw [he, hvm] at hvm'
      cases hvm'
    exact hr vm' (by simpa [hvm''] using hvm')

theorem Owned.step (act : Move) (w : World) (hw : Owned w) : Owned (worldStep act w).2 := by
  cases act with
  | boot capabilities =>
    have hremoved := (hw.remove w.nextId).insert w.nextId capabilities (max (w.nextId + 1) 1)
      (Function.update_self ..)
    have hlength : (dropEntry w (w.vms w.nextId)).length = w.relays.length := by
      cases w.vms w.nextId <;> simp [dropEntry]
    simpa only [worldStep, insertVm, Function.update_idem, hlength] using hremoved
  | close vm =>
    simp only [worldStep, vmClose]
    split
    · exact hw
    · have hremoved := hw.remove vm
      split
      · rename_i r hr
        rwa [hr] at hremoved
      · exact hw
  | host vm op =>
    simp only [worldStep]
    split
    · split
      · exact hw
      · exact hw.modify _ fun entries x hx ↦ hx.hostAct op
    · exact hw
  | capability r op => exact hw.modify r fun entries x hx ↦ hx.capabilityAct op
  | cloneCapability r => exact hw.modify r fun entries x hx ↦ hx.cloneCapability
  | dropCapability r => exact hw.modify r fun entries x hx ↦ hx.dropCapability
  | recv r i => exact hw.modify r fun entries x hx ↦ hx.recvCall i

theorem owned_new : Owned World.new := by
  refine ⟨?_, ?_, ?_, ?_⟩
  · intro vm r hr
    cases hr
  · intro vm vm' r hr
    cases hr
  · intro vm r x hr
    cases hr
  · intro r x hr hx
    cases hx

end Owned

def Waits (i : ℕ) (x : Shared) : Prop :=
  (∃ h, x.system.calls[i]? = some (.waiting h)) ∧ x.system.channels[i]? = some Channel.new

/-- The approval takes the handle under which the sender of the call stands, and drops it. -/
def Replaces (i : ℕ) (op : RelayOp) (x : Shared) : Prop :=
  startsCall op ∧
    x.system.relay.pendingToolApprovals x.system.relay.allocHandle.1 = some i

section Waits

variable {i : ℕ} {x : Shared}

theorem Waits.lt (hx : Waits i x) : i < x.system.calls.length := by
  obtain ⟨⟨h, hcall⟩, -⟩ := hx
  exact (List.getElem?_eq_some_iff.mp hcall).1

theorem Waits.pos (hx : Waits i x) : 0 < waitingCalls x.system := by
  obtain ⟨⟨h, hcall⟩, -⟩ := hx
  exact waitingCalls_pos hcall

theorem Waits.not_returns (hx : Waits i x) : returns i x.system = false := by
  obtain ⟨⟨h, hcall⟩, hchannel⟩ := hx
  simp only [returns, hcall, hchannel, Option.bind_some]
  rfl

theorem Waits.release (hx : Waits i x) (hstrong : 1 < x.strong) : Waits i x.release := by
  rw [Waits, release_system hstrong]
  exact hx

theorem Waits.relayAct_other {op : RelayOp} (hx : Waits i x) (hstarts : startsCall op = false)
    (hcap : byCapability op = true) : Waits i { x with system := relayAct op x.system } := by
  have ha : ∀ tx facts, op ≠ .approve tx facts := by
    intro tx facts he
    subst he
    cases hstarts
  have hr : ∀ h allow remember, op ≠ .toolApprovalRespond h allow remember := by
    intro h allow remember he
    subst he
    cases hcap
  simpa only [Waits, Approvals.relayAct_other ha hr] using hx

theorem Waits.relayAct_approve (tx : Sender) (facts : ToolApprovalFacts) (hx : Waits i x)
    (hkept : x.system.relay.pendingToolApprovals x.system.relay.allocHandle.1 ≠ some i) :
    Waits i { x with system := relayAct (.approve tx facts) x.system } := by
  obtain ⟨⟨h, hcall⟩, hchannel⟩ := hx
  have hlt : i < x.system.channels.length := (List.getElem?_eq_some_iff.mp hchannel).1
  refine ⟨⟨h, ?_⟩, ?_⟩
  · rw [relayAct_calls_approve, List.getElem?_append_left (List.getElem?_eq_some_iff.mp hcall).1]
    exact hcall
  · rw [relayAct_channels_approve, deliver_dropped hkept, List.getElem?_append_left hlt]
    exact hchannel

theorem Waits.recvAct {j : ℕ} (hx : Waits i x) (hne : j ≠ i) :
    Waits i { x with system := recvAct j x.system } := by
  simp only [Waits, Approvals.recvAct]
  split
  · simp only [List.getElem?_set_ne hne]
    exact hx
  · exact hx

theorem Waits.capabilityAct {op : RelayOp} (hx : Waits i x) (hop : ¬Replaces i op x) :
    Waits i (capabilityAct op x) := by
  rw [Ownership.capabilityAct]
  split
  · exact hx
  · rename_i hcap
    cases hstarts : startsCall op with
    | false => exact hx.relayAct_other hstarts (by simpa using (not_or.mp hcap).2)
    | true =>
      cases op with
      | approve tx facts => exact hx.relayAct_approve tx facts fun hpending ↦ hop ⟨rfl, hpending⟩
      | _ => cases hstarts

theorem Waits.cloneCapability (hx : Waits i x) : Waits i (cloneCapability x) := by
  rw [Ownership.cloneCapability]
  split
  · exact hx
  · exact hx

theorem Waits.dropCapability (hx : Waits i x) (hbal : Balanced 0 x) :
    Waits i (dropCapability x) := by
  rw [Ownership.dropCapability]
  split
  · exact hx
  · have hpos := hx.pos
    simp only [Balanced, Shared.holders] at hbal
    exact hx.release (by omega)

theorem Waits.recvCall (j : ℕ) (hx : Waits i x) (hbal : Balanced 0 x) : Waits i (recvCall j x) := by
  rw [Ownership.recvCall]
  cases hj : returns j x.system with
  | false =>
    rw [recvAct_of_not_returns hj]
    exact hx
  | true =>
    have hne : j ≠ i := by
      intro he
      rw [he, hx.not_returns] at hj
      cases hj
    have hwaits := hx.recvAct hne
    have hpos : 0 < waitingCalls (Approvals.recvAct j x.system) := hwaits.pos
    have hcalls := waitingCalls_recvAct hj
    simp only [Balanced, Shared.holders] at hbal
    exact hwaits.release (by simp only; omega)

end Waits

/-- The call `i` of the relay `r` waits for an answer. -/
def Waiting (r i : ℕ) (w : World) : Prop := ∃ x, w.relays[r]? = some x ∧ Waits i x

/-- The call `i` of the relay `r` returns at once and denies. -/
def Released (r i : ℕ) (w : World) : Prop :=
  ∃ x h, (worldStep (.recv r i) w).2.relays[r]? = some x ∧
    x.system.calls[i]? = some (.returned h deny)

def KeepsSender (r i : ℕ) (act : Move) (w : World) : Prop :=
  ∀ op x, act = .capability r op → w.relays[r]? = some x → ¬Replaces i op x

/-- The relay `r` is in the table no more, and the call `i` of it waits. -/
structure Stranded (r i : ℕ) (w : World) : Prop where
  owned : Owned w
  gone : ∀ vm, w.vms vm ≠ some r
  waiting : Waiting r i w

section Stranded

variable {r i : ℕ} {w : World}

theorem Stranded.lt (hw : Stranded r i w) : r < w.relays.length := by
  obtain ⟨x, hx, -⟩ := hw.waiting
  exact (List.getElem?_eq_some_iff.mp hx).1

theorem Waiting.not_released (hw : Waiting r i w) : ¬Released r i w := by
  obtain ⟨x, hx, hwaits⟩ := hw
  intro hgiven
  obtain ⟨x', h', hx', hcall'⟩ := hgiven
  obtain ⟨y, hy, rfl⟩ := getElem?_modify_eq_some hx'
  cases hx.symm.trans hy
  rw [if_pos rfl, recvCall, hwaits.not_returns, recvAct_of_not_returns hwaits.not_returns] at hcall'
  obtain ⟨⟨h, hcall⟩, -⟩ := hwaits
  cases hcall.symm.trans hcall'

theorem Waiting.modify_other {f : Shared → Shared} {r' : ℕ} (hw : Waiting r i w) (hne : r' ≠ r) :
    Waiting r i { w with relays := w.relays.modify r' f } := by
  obtain ⟨x, hx, hwaits⟩ := hw
  refine ⟨x, ?_, hwaits⟩
  simpa [List.getElem?_modify, hne] using hx

theorem Stranded.modify {f : Shared → Shared} {r' : ℕ} (hw : Stranded r i w)
    (hf : ∀ x, r' = r → w.relays[r]? = some x → Balanced 0 x → Waits i x → Waits i (f x)) :
    Waiting r i { w with relays := w.relays.modify r' f } := by
  by_cases hne : r' = r
  · obtain ⟨x, hx, hwaits⟩ := hw.waiting
    subst hne
    refine ⟨f x, ?_, hf x rfl hx (hw.owned.unlisted r' x hw.gone hx) hwaits⟩
    simp [hx]
  · exact hw.waiting.modify_other hne

theorem Stranded.gone_step (act : Move) (w : World) (hw : Stranded r i w) :
    ∀ vm, (worldStep act w).2.vms vm ≠ some r := by
  intro vm
  cases act with
  | boot capabilities =>
    have hlt := hw.lt
    have hgone := hw.gone vm
    simp only [worldStep, insertVm, Function.update_apply]
    split
    · intro he
      cases he
      omega
    · exact hgone
  | close vm' =>
    have hgone := hw.gone vm
    simp only [worldStep, vmClose]
    split
    · exact hgone
    · split
      · simp only [Function.update_apply]
        split
        · intro he
          cases he
        · exact hgone
      · exact hgone
  | host vm' op =>
    have hgone := hw.gone vm
    simp only [worldStep]
    split
    · split <;> exact hgone
    · exact hgone
  | _ => exact hw.gone vm

theorem Stranded.dropEntry (hw : Stranded r i w) (vm : UInt64) :
    Waiting r i { w with relays := dropEntry w (w.vms vm) } := by
  cases hvm : w.vms vm with
  | none => exact hw.waiting
  | some r' => exact hw.waiting.modify_other fun he ↦ hw.gone vm (he ▸ hvm)

/-- Nobody can answer the call any more, and its own reference keeps its sender alive. -/
theorem Stranded.waiting_step (act : Move) (w : World) (hact : KeepsSender r i act w)
    (hw : Stranded r i w) : Waiting r i (worldStep act w).2 := by
  cases act with
  | boot capabilities =>
    obtain ⟨x, hx, hwaits⟩ := hw.dropEntry w.nextId
    have hlt := (List.getElem?_eq_some_iff.mp hx).1
    refine ⟨x, ?_, hwaits⟩
    exact (List.getElem?_append_left hlt).trans hx
  | close vm =>
    have hdropped := hw.dropEntry vm
    simp only [worldStep, vmClose]
    split
    · exact hw.waiting
    · split
      · rename_i r' hr'
        rwa [hr'] at hdropped
      · exact hw.waiting
  | host vm op =>
    simp only [worldStep]
    split
    · rename_i r' hr'
      split
      · exact hw.waiting
      · exact hw.waiting.modify_other fun he ↦ hw.gone vm (he ▸ hr')
    · exact hw.waiting
  | capability r' op =>
    apply hw.modify
    intro x he hx _ hwaits
    exact hwaits.capabilityAct (hact op x (he ▸ rfl) hx)
  | cloneCapability r' =>
    apply hw.modify
    intro x _ _ _ hwaits
    exact hwaits.cloneCapability
  | dropCapability r' =>
    apply hw.modify
    intro x _ _ hbal hwaits
    exact hwaits.dropCapability hbal
  | recv r' j =>
    apply hw.modify
    intro x _ _ hbal hwaits
    exact hwaits.recvCall j hbal

theorem Stranded.step (act : Move) (w : World) (hact : KeepsSender r i act w)
    (hw : Stranded r i w) : Stranded r i (worldStep act w).2 :=
  ⟨hw.owned.step act w, hw.gone_step act w, hw.waiting_step act w hact⟩

/-- The close takes the entry of the table, and not the last reference. -/
theorem stranded_close {vm : UInt64} (hw : Owned w) (hclose : (vmClose vm w).1 = 0)
    (hr : w.vms vm = some r) (hwait : Waiting r i w) :
    Stranded r i (worldStep (.close vm) w).2 := by
  have hvm : vm ≠ 0 := by
    intro he
    simp [vmClose, he] at hclose
  have hclosed : (vmClose vm w).2 =
      { w with
        vms := Function.update w.vms vm none
        relays := w.relays.modify r Shared.release } := by
    simp only [vmClose, if_neg hvm, hr]
    rfl
  obtain ⟨x, hx, hwaits⟩ := hwait
  have hstrong : 1 < x.strong := by
    have hbal := hw.listed vm r x hr hx
    have hpos := hwaits.pos
    simp only [Balanced, Shared.holders] at hbal
    omega
  refine ⟨hw.step (.close vm) w, ?_, x.release, ?_, hwaits.release hstrong⟩
  · intro vm' hvm'
    simp only [worldStep, hclosed, Function.update_apply] at hvm'
    split at hvm'
    · cases hvm'
    · rename_i hne
      exact hne (hw.single vm' vm r hvm' hr)
  · simp [worldStep, hclosed, hx]

end Stranded

/-- Closing a VM releases none of its waiting approvals: what waits when the table drops the VM
still waits after it, and whatever is done then. -/
theorem close_releases_none (pre : List Move) (vm : UInt64) (r i : ℕ)
    (hclose : (vmClose vm (world pre)).1 = 0) (hr : (world pre).vms vm = some r)
    (hwait : Waiting r i (world pre)) :
    ¬Released r i (world (pre ++ [.close vm])) ∧
      ∀ post, Run.Along worldStep (KeepsSender r i) post (world (pre ++ [.close vm])) →
        Waiting r i (world (pre ++ .close vm :: post)) ∧
          ¬Released r i (world (pre ++ .close vm :: post)) := by
  have howned : Owned (world pre) := Run.invariant Owned.step pre owned_new
  have hclosed : Stranded r i (world (pre ++ [.close vm])) := by
    have hw := stranded_close howned hclose hr hwait
    rwa [world, Run.final_append]
  refine ⟨hclosed.waiting.not_released, fun post hpost ↦ ?_⟩
  have hw : Stranded r i (world (pre ++ .close vm :: post)) := by
    have hrun := hpost.invariant Stranded.step hclosed
    rwa [world, ← Run.final_append, List.append_assoc] at hrun
  exact ⟨hw.waiting, hw.waiting.not_released⟩

def asked : List Move := [.boot 1, .capability 0 (.approve 0 ⟨"a", "GET", "/", "o", none⟩)]

theorem waiting_asked : Waiting 0 0 (world asked) := ⟨_, rfl, ⟨_, rfl⟩, rfl⟩

/-- With the entry of the table and the capability objects dropped, the call still waits. -/
theorem closed_not_released : ¬∀ (pre post : List Move) (vm : UInt64) (r i : ℕ),
    (vmClose vm (world pre)).1 = 0 → (world pre).vms vm = some r → Waiting r i (world pre) →
    (∀ x, (world (pre ++ .close vm :: post)).relays[r]? = some x → x.capabilities = 0) →
    Released r i (world (pre ++ .close vm :: post)) := by
  intro h
  have hdropped : ∀ x, (world (asked ++ [.close 1, .dropCapability 0])).relays[0]? = some x →
      x.capabilities = 0 := by
    intro x hx
    cases hx
    rfl
  obtain ⟨x, h, hx, hcall⟩ := h asked [.dropCapability 0] 1 0 0 rfl rfl waiting_asked hdropped
  cases hx
  cases hcall

theorem close_releases_none_asked :
    Waiting 0 0 (world (asked ++ [.close 1, .dropCapability 0, .recv 0 0])) :=
  ((close_releases_none asked 1 0 0 rfl rfl waiting_asked).2 [.dropCapability 0, .recv 0 0]
    ⟨fun _ _ he ↦ (by cases he), fun _ _ he ↦ (by cases he), trivial⟩).1

end MachineNotebook.Host.Ownership
