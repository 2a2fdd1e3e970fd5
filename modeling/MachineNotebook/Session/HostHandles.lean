import MachineNotebook.Lib.Handles
import MachineNotebook.Session.Reopening

namespace MachineNotebook.Session.HostHandles

open MachineNotebook.Lib Run Handles Lifecycle Reopening

/-- No call is in progress and nothing waits for a tick. -/
structure AtRest (s : HostSession) : Prop where
  tick : s.tick = none
  starts : s.starts = []
  disposes : s.disposes = []

/-- When its owner is done with the session and no call is left, every handle has been closed. -/
def ClosesAll (s : HostSession) : Prop :=
  s.ended = true → AtRest s → ∀ h < s.opened, h ∈ closedHandles s

/-- A call of `start` goes on that loses a handle: it reopens a session that its owner is done with,
a call throws between the opening of the terminal and the two assignments, or the VM comes after the
session was released or when it has another one. -/
def losesHandle : LifeOp → HostSession → Bool
  | .resumeStart i r, s =>
    match s.starts[i]? with
    | some .disposed => s.ended || (r.notifies && r.terminal && !(r.resizes && r.encoder))
    | some .boot => r.returns && (s.nativeReleased || s.vm.isSome)
    | _ => false
  | _, _ => false

variable {s s' : HostSession} {stage : Stage} {i : ℕ}

section Slots

inductive Slot
  | selection
  | encoder
  | vt
  | vm
  deriving DecidableEq

def slots : List Slot := [.selection, .encoder, .vt, .vm]

def slot (s : HostSession) : Slot → Option ℕ
  | .selection => s.selection
  | .encoder => s.encoder
  | .vt => s.vt
  | .vm => s.vm

theorem mem_slots (k : Slot) : k ∈ slots := by cases k <;> decide

theorem nodup_slots : slots.Nodup := by decide

theorem held_eq (s : HostSession) : held s = slots.filterMap (slot s) := rfl

theorem slot_empty (ht : s.vt = none ∧ s.encoder = none ∧ s.selection = none) (hv : s.vm = none) :
    slot s = fun _ ↦ none := by
  funext k
  cases k with
  | selection => exact ht.2.2
  | encoder => exact ht.2.1
  | vt => exact ht.1
  | vm => exact hv

theorem slot_of_kept (k : HostsKept s s') : slot s' = slot s := by
  funext j
  cases j with
  | selection => exact k.selection
  | encoder => exact k.encoder
  | vt => exact k.vt
  | vm => exact k.vm

theorem closedHandles_of_kept (k : HostsKept s s') : closedHandles s' = closedHandles s := by
  rw [closedHandles, k.closings, closedHandles]

theorem closedHandles_release (hr : s.nativeReleased = false) :
    closedHandles (releaseNative s) = closedHandles s ++ slots.filterMap (slot s) := by
  rw [releaseNative, hr, ← held_eq]
  simp [closedHandles, Function.comp_def]

theorem slot_release (hr : s.nativeReleased = false) :
    slot (releaseNative s) = fun _ ↦ none := by
  rw [releaseNative, hr]
  exact slot_empty ⟨rfl, rfl, rfl⟩ rfl

theorem slot_vm (s : HostSession) :
    slot { s with vm := some s.opened, opened := s.opened + 1 } =
      Function.update (slot s) .vm (some s.opened) := by
  funext k
  cases k <;> rfl

theorem slot_pair (s : HostSession) :
    slot { s with vt := some s.opened, encoder := some (s.opened + 1), opened := s.opened + 1 + 1 } =
      Function.update (Function.update (slot s) .vt (some s.opened)) .encoder
        (some (s.opened + 1)) := by
  funext k
  cases k <;> rfl

theorem slot_all (s : HostSession) (starts : List Stage) :
    slot { s with
        vt := some s.opened
        encoder := some (s.opened + 1)
        selection := some (s.opened + 1 + 1)
        opened := s.opened + 1 + 1 + 1
        starts } =
      Function.update (Function.update (Function.update (slot s) .vt (some s.opened)) .encoder
        (some (s.opened + 1))) .selection (some (s.opened + 1 + 1)) := by
  funext k
  cases k <;> rfl

end Slots

section Once

def Owned (s : HostSession) : Prop := Owns s.opened (closedHandles s) (slot s)

theorem Owned.of_kept (h : Owned s) (k : HostsKept s s') : Owned s' := by
  rw [Owned, k.opened, closedHandles_of_kept k, slot_of_kept k]
  exact h

theorem Owned.release (h : Owned s) : Owned (releaseNative s) := by
  cases hr : s.nativeReleased with
  | true =>
    rw [releaseNative, hr]
    exact h
  | false =>
    have hopened : (releaseNative s).opened = s.opened := by rw [releaseNative, hr]; rfl
    rw [Owned, hopened, closedHandles_release hr, slot_release hr]
    exact h.closeAll nodup_slots

theorem Owned.opens (h : Owned s) (r : StartReply) : Owned (openHosts r s) := by
  refine openHosts_step fun s' hopens ↦ ?_
  cases hopens with
  | none => exact h
  | lost => exact h.lose
  | pair =>
    rw [Owned, slot_pair]
    exact (h.store .vt).store .encoder
  | all _ starts =>
    rw [Owned, slot_all]
    exact ((h.store .vt).store .encoder).store .selection

theorem Owned.goesOn (h : Owned s) (r : StartReply) (stage : Stage) :
    Owned (resumeStart r stage s) := by
  cases stage with
  | tickIdle waitsFor => exact h.release
  | disposed => exact Owned.opens (s := reopen s) h r
  | firstImages =>
    simp only [resumeStart]
    split <;> exact h
  | boot =>
    have hvm : Owned { s with vm := some s.opened, opened := s.opened + 1 } := by
      rw [Owned, slot_vm]
      exact h.store .vm
    simp only [resumeStart]
    split
    · exact h
    · split <;> exact hvm
  | secondImages =>
    have hloop : Owned { s with loop := true, timers := s.timers + 1 } := h
    simp only [resumeStart]
    split
    · exact h
    · exact hloop.of_kept (hostsKept_tickOnce ..)

theorem Owned.close (h : Owned s) : Owned (shut s) := by
  have hloop := h.of_kept (hostsKept_cancelLoop s)
  exact hloop

theorem Owned.step (h : Owned s) (op : LifeOp) : Owned (lifeStep op s).2 := by
  cases op with
  | start => exact start_step h fun _ ↦ h.close
  | resumeStart i r =>
    have ht : Owned (taken i s) := h
    exact resumeStart_step h fun stage _ _ ↦ ht.goesOn r stage
  | timer r => exact timer_step h (h.of_kept (hostsKept_tickOnce r s))
  | resumeTick r => exact h.of_kept (hostsKept_resumeTick r s)
  | disposeAsync => exact h.close
  | dispose =>
    have hend : Owned (endSession s) := h.close
    exact dispose_step hend fun _ ↦ hend.release
  | resumeDispose i timedOut =>
    have ht : Owned { s with disposes := s.disposes.eraseIdx i } := h
    exact resumeDispose_step h fun _ _ _ ↦ ht.release

end Once

section Accounting

/-- Every handle that `start` opened has been closed or is in a field, there is none in the fields
of a released session, and a session that its owner is done with is released, or a call waits to
release it. -/
structure Accounted (s : HostSession) : Prop where
  opened : Handles.Accounted s.opened (closedHandles s) (slot s)
  empty : s.nativeReleased = true → s.vm = none
  ended : s.ended = true → s.nativeReleased = true ∨ s.disposes ≠ []

theorem Accounted.of_kept (h : Accounted s) (k : HostsKept s s') : Accounted s' where
  opened := by
    rw [k.opened, closedHandles_of_kept k, slot_of_kept k]
    exact h.opened
  empty := by
    rw [k.nativeReleased, k.vm]
    exact h.empty
  ended := by
    rw [k.ended, k.nativeReleased, k.disposes]
    exact h.ended

theorem accounted_release (h : Handles.Accounted s.opened (closedHandles s) (slot s))
    (hempty : s.nativeReleased = true → s.vm = none) : Accounted (releaseNative s) := by
  cases hr : s.nativeReleased with
  | true =>
    rw [releaseNative, hr]
    exact ⟨h, hempty, fun _ ↦ .inl hr⟩
  | false =>
    have hopened : (releaseNative s).opened = s.opened := by rw [releaseNative, hr]; rfl
    have hreleased : (releaseNative s).nativeReleased = true := by rw [releaseNative, hr]; rfl
    refine ⟨?_, fun _ ↦ congrFun (slot_release hr) .vm, fun _ ↦ .inl hreleased⟩
    rw [hopened, closedHandles_release hr, slot_release hr]
    exact h.closeAll mem_slots

theorem accounted_opens (h : Handles.Accounted s.opened (closedHandles s) (slot s))
    (hempty : slot s = fun _ ↦ none) (hr : s.nativeReleased = false) (hended : s.ended = false)
    {r : StartReply} (hkeeps : (r.notifies && r.terminal && !(r.resizes && r.encoder)) = false) :
    Accounted (openHosts r s) := by
  have hvt : slot s .vt = none := by rw [hempty]
  have hencoder : Function.update (slot s) .vt (some s.opened) .encoder = none := by
    rw [Function.update_of_ne (by decide), hempty]
  have hselection : Function.update (Function.update (slot s) .vt (some s.opened)) .encoder
      (some (s.opened + 1)) .selection = none := by
    rw [Function.update_of_ne (by decide), Function.update_of_ne (by decide), hempty]
  have hopen {b : HostSession} (hb : b.nativeReleased = s.nativeReleased)
      (he : b.ended = s.ended)
      (ho : Handles.Accounted b.opened (closedHandles b) (slot b)) : Accounted b := by
    refine ⟨ho, fun h ↦ ?_, fun h ↦ ?_⟩
    · rw [hb, hr] at h
      cases h
    · rw [he, hended] at h
      cases h
  refine openHosts_step fun s' hopens ↦ ?_
  cases hopens with
  | none => exact hopen rfl rfl h
  | lost hopened hthrow =>
    rw [hopened, hthrow] at hkeeps
    cases hkeeps
  | pair =>
    refine hopen rfl rfl ?_
    rw [slot_pair]
    exact (h.store hvt).store hencoder
  | all _ starts =>
    refine hopen rfl rfl ?_
    rw [slot_all]
    exact ((h.store hvt).store hencoder).store hselection

theorem accounted_boot (h : Accounted s) (hopen : s.nativeReleased = false)
    (hvm : s.vm.isSome = false) :
    Accounted { s with vm := some s.opened, opened := s.opened + 1 } := by
  refine ⟨?_, fun hr ↦ ?_, h.ended⟩
  · rw [slot_vm]
    exact h.opened.store (Option.isSome_eq_false_iff.mp hvm |> Option.isNone_iff_eq_none.mp)
  · have hr' : s.nativeReleased = true := hr
    rw [hopen] at hr'
    cases hr'

theorem Accounted.goesOn (h : Accounted s) (hrestart : Restarting s)
    (hi : s.starts[i]? = some stage) {r : StartReply}
    (hkeeps : losesHandle (.resumeStart i r) s = false) :
    Accounted (resumeStart r stage (taken i s)) := by
  have ht : Accounted (taken i s) := ⟨h.opened, h.empty, h.ended⟩
  simp only [losesHandle, hi] at hkeeps
  cases stage with
  | tickIdle waitsFor =>
    have hrelease := accounted_release ht.opened ht.empty
    exact ⟨hrelease.opened, hrelease.empty, hrelease.ended⟩
  | disposed =>
    obtain ⟨hended, hkeeps⟩ := Bool.or_eq_false_iff.mp hkeeps
    have hreleased := hrestart.released (List.mem_of_getElem? hi)
    have hempty : slot s = fun _ ↦ none :=
      slot_empty (hrestart.empty hreleased) (h.empty hreleased)
    exact accounted_opens (s := reopen (taken i s)) h.opened hempty rfl hended hkeeps
  | firstImages =>
    simp only [resumeStart]
    split
    · exact ⟨h.opened, h.empty, h.ended⟩
    · exact ht
  | boot =>
    simp only [resumeStart]
    split
    · exact ht
    · next hreturns =>
      rw [Bool.not_eq_true', Bool.not_eq_false] at hreturns
      rw [hreturns, Bool.true_and] at hkeeps
      obtain ⟨hopen, hvm⟩ := Bool.or_eq_false_iff.mp hkeeps
      have hboot := accounted_boot (s := taken i s) ht hopen hvm
      split
      · exact ⟨hboot.opened, hboot.empty, hboot.ended⟩
      · exact hboot
  | secondImages =>
    simp only [resumeStart]
    split
    · exact ht
    · have hloop : Accounted { taken i s with loop := true, timers := s.timers + 1 } :=
        ⟨h.opened, h.empty, h.ended⟩
      exact hloop.of_kept (hostsKept_tickOnce ..)

theorem Accounted.step (h : Accounted s) (hrestart : Restarting s) {op : LifeOp}
    (hkeeps : losesHandle op s = false) : Accounted (lifeStep op s).2 := by
  have hclose := h.of_kept (hostsKept_cancelLoop s)
  have hwaits : s.disposes ++ [tickIdle s] ≠ [] :=
    List.append_ne_nil_of_right_ne_nil _ (List.cons_ne_nil _ _)
  cases op with
  | start => exact start_step h fun _ ↦ ⟨hclose.opened, hclose.empty, hclose.ended⟩
  | resumeStart i r => exact resumeStart_step h fun stage hi _ ↦ h.goesOn hrestart hi hkeeps
  | timer r => exact timer_step h (h.of_kept (hostsKept_tickOnce r s))
  | resumeTick r => exact h.of_kept (hostsKept_resumeTick r s)
  | disposeAsync => exact ⟨hclose.opened, hclose.empty, fun _ ↦ .inr hwaits⟩
  | dispose =>
    refine dispose_step ⟨hclose.opened, hclose.empty, fun _ ↦ .inr hwaits⟩ fun _ ↦ ?_
    exact accounted_release (s := endSession s) hclose.opened hclose.empty
  | resumeDispose i timedOut =>
    exact resumeDispose_step h fun _ _ _ ↦
      accounted_release (s := { s with disposes := s.disposes.eraseIdx i }) h.opened h.empty

end Accounting

/-- No handle is closed twice, and in a run that loses none each one is closed. -/
theorem closes_handles_once (ops : List LifeOp) :
    (closedHandles (final lifeStep ops {})).Nodup ∧
      (Along lifeStep (fun op s ↦ losesHandle op s = false) ops {} →
        ClosesAll (final lifeStep ops {})) := by
  have howned : Owned {} := by
    rw [Owned, slot_empty ⟨rfl, rfl, rfl⟩ rfl]
    exact .start
  have hrestart : Restarting {} := .of_open (fun _ h ↦ by cases h) rfl
  constructor
  · have hfinal : Owned (final lifeStep ops {}) :=
      invariant (fun op _ h ↦ h.step op) ops howned
    exact hfinal.once
  · intro hkeeps hended hrest h hlt
    have haccounted : Accounted {} := by
      refine ⟨fun _ h ↦ ?_, fun _ ↦ rfl, fun h ↦ ?_⟩
      · exact absurd h (Nat.not_lt_zero _)
      · cases h
    obtain ⟨hrestart, haccounted⟩ := hkeeps.invariant
      (I := fun s ↦ Restarting s ∧ Accounted s)
      (fun op s hkeeps hs ↦ ⟨hs.1.step op, hs.2.step hs.1 hkeeps⟩) ⟨hrestart, haccounted⟩
    have hreleased := (haccounted.ended hended).resolve_right (not_not.mpr hrest.disposes)
    have hempty := slot_empty (hrestart.empty hreleased) (haccounted.empty hreleased)
    refine (haccounted.opened h hlt).resolve_right fun ⟨k, hk⟩ ↦ ?_
    rw [hempty] at hk
    cases hk

def started : List LifeOp :=
  [.start, .resumeStart 0 {}, .resumeStart 0 {}, .resumeStart 0 {}, .resumeStart 0 {},
    .resumeStart 0 {}]

theorem closes_handles_once_vm :
    3 ∈ closedHandles (final lifeStep
      (started ++ [.dispose, .resumeTick {}, .resumeDispose 0 false]) {}) :=
  (closes_handles_once (started ++ [.dispose, .resumeTick {}, .resumeDispose 0 false])).2
    (by decide) rfl ⟨rfl, rfl, rfl⟩ 3 (by decide)

def encoderThrows : List LifeOp :=
  [.start, .resumeStart 0 {}, .resumeStart 0 { encoder := false }, .dispose]

def disposedInBoot : List LifeOp :=
  [.start, .resumeStart 0 {}, .resumeStart 0 {}, .resumeStart 0 {}, .dispose,
    .resumeStart 0 { snapshot := false }]

theorem handles_left_open :
    ¬ClosesAll (final lifeStep encoderThrows {}) ∧ ¬ClosesAll (final lifeStep disposedInBoot {}) := by
  constructor
  · intro h
    have hterminal : 0 ∈ closedHandles (final lifeStep encoderThrows {}) :=
      h rfl ⟨rfl, rfl, rfl⟩ 0 (by decide)
    revert hterminal
    decide
  · intro h
    have hvm : 3 ∈ closedHandles (final lifeStep disposedInBoot {}) :=
      h rfl ⟨rfl, rfl, rfl⟩ 3 (by decide)
    revert hvm
    decide

end MachineNotebook.Session.HostHandles
