import MachineNotebook.Session.Lifecycle
import Mathlib.Data.List.Perm.Basic

namespace MachineNotebook.Session.Reopening

open MachineNotebook.Lib Run Lifecycle

variable {s s' : HostSession} {stage : Stage} {i : ℕ}

section Ticks

structure HostsKept (s s' : HostSession) : Prop where
  vt : s'.vt = s.vt
  encoder : s'.encoder = s.encoder
  selection : s'.selection = s.selection
  vm : s'.vm = s.vm
  closed : s'.closed = s.closed
  nativeReleased : s'.nativeReleased = s.nativeReleased
  starts : s'.starts = s.starts
  disposes : s'.disposes = s.disposes
  opened : s'.opened = s.opened
  generation : s'.generation = s.generation
  ended : s'.ended = s.ended
  closings : s'.closings = s.closings

theorem HostsKept.refl (s : HostSession) : HostsKept s s := by constructor <;> rfl

theorem HostsKept.trans {s'' : HostSession} (h : HostsKept s s') (h' : HostsKept s' s'') :
    HostsKept s s'' where
  vt := h'.vt.trans h.vt
  encoder := h'.encoder.trans h.encoder
  selection := h'.selection.trans h.selection
  vm := h'.vm.trans h.vm
  closed := h'.closed.trans h.closed
  nativeReleased := h'.nativeReleased.trans h.nativeReleased
  starts := h'.starts.trans h.starts
  disposes := h'.disposes.trans h.disposes
  opened := h'.opened.trans h.opened
  generation := h'.generation.trans h.generation
  ended := h'.ended.trans h.ended
  closings := h'.closings.trans h.closings

theorem hostsKept_cancelLoop (s : HostSession) : HostsKept s (cancelLoop s) := by
  unfold cancelLoop
  split <;> constructor <;> rfl

theorem hostsKept_runSegment (t : Tick) (segment : Segment) (s : HostSession) :
    HostsKept s (runSegment t segment s) := by
  constructor <;> rfl

theorem hostsKept_resumeTick (r : TickReply) (s : HostSession) : HostsKept s (resumeTick r s) := by
  unfold resumeTick
  split
  · exact .refl s
  · split
    · exact (hostsKept_cancelLoop s).trans (hostsKept_runSegment ..)
    · exact hostsKept_runSegment ..

theorem hostsKept_tickOnce (r : TickReply) (s : HostSession) : HostsKept s (tickOnce r s) := by
  unfold tickOnce
  split
  · exact .refl s
  · split
    · constructor <;> rfl
    · exact .refl s

end Ticks

section Reopening

/-- A call of `start` that has still to open the session again. -/
def reopens : Stage → Bool
  | .tickIdle _ => true
  | .disposed => true
  | _ => false

/-- At most one call of `start` has still to reopen the session, which is closed until it does, and
released once its `disposeAsync` is over. A released session holds no terminal. -/
structure Restarting (s : HostSession) : Prop where
  closed : ∀ stage ∈ s.starts, reopens stage = true → s.closed = true
  one : s.starts.countP reopens ≤ 1
  released : .disposed ∈ s.starts → s.nativeReleased = true
  empty : s.nativeReleased = true → s.vt = none ∧ s.encoder = none ∧ s.selection = none

theorem Restarting.of_kept (h : Restarting s) (k : HostsKept s s') : Restarting s' where
  closed := by
    rw [k.starts, k.closed]
    exact h.closed
  one := by
    rw [k.starts]
    exact h.one
  released := by
    rw [k.starts, k.nativeReleased]
    exact h.released
  empty := by
    rw [k.nativeReleased, k.vt, k.encoder, k.selection]
    exact h.empty

def taken (i : ℕ) (s : HostSession) : HostSession := { s with starts := s.starts.eraseIdx i }

theorem mem_of_mem_taken (h : stage ∈ (taken i s).starts) : stage ∈ s.starts :=
  List.mem_of_mem_eraseIdx h

theorem countP_taken (hi : s.starts[i]? = some stage) :
    (taken i s).starts.countP reopens + (if reopens stage then 1 else 0) =
      s.starts.countP reopens := by
  obtain ⟨hlt, rfl⟩ := List.getElem?_eq_some_iff.mp hi
  have hperm := (List.getElem_cons_eraseIdx_perm hlt).countP_eq reopens
  rwa [List.countP_cons] at hperm

theorem Restarting.take (h : Restarting s) (hi : s.starts[i]? = some stage) :
    Restarting (taken i s) where
  closed stage' hs := h.closed stage' (mem_of_mem_taken hs)
  one := by
    have hc := countP_taken hi
    have hone := h.one
    omega
  released hs := h.released (mem_of_mem_taken hs)
  empty := h.empty

/-- Once the call that reopens the session is taken up, no other waits to. -/
theorem Restarting.none_left (h : Restarting s) (hi : s.starts[i]? = some stage)
    (hr : reopens stage = true) : ∀ stage' ∈ (taken i s).starts, reopens stage' = false := by
  have hc := countP_taken hi
  have hone := h.one
  rw [if_pos hr] at hc
  have hzero : (taken i s).starts.countP reopens = 0 := by omega
  intro stage' hs
  simpa using List.countP_eq_zero.mp hzero stage' hs

theorem Restarting.of_open (hs : ∀ stage ∈ s.starts, reopens stage = false)
    (hr : s.nativeReleased = false) : Restarting s where
  closed stage hmem hreopens := by
    rw [hs stage hmem] at hreopens
    cases hreopens
  one := by
    rw [List.countP_eq_zero.mpr fun stage hmem ↦ by simp [hs stage hmem]]
    exact Nat.zero_le 1
  released hmem := by cases hs _ hmem
  empty h := by
    rw [hr] at h
    cases h

theorem Restarting.await (h : Restarting s)
    (hr : reopens stage = true →
      s.closed = true ∧ ∀ stage' ∈ s.starts, reopens stage' = false)
    (hd : stage = .disposed → s.nativeReleased = true) : Restarting (awaits stage s) where
  closed stage' hmem hreopens := by
    obtain hmem | hmem := List.mem_append.mp hmem
    · exact h.closed stage' hmem hreopens
    · obtain rfl := List.mem_singleton.mp hmem
      exact (hr hreopens).1
  one := by
    rw [awaits, List.countP_append]
    cases hstage : reopens stage with
    | true =>
      rw [List.countP_eq_zero.mpr fun stage' hmem ↦ by simp [(hr hstage).2 stage' hmem],
        Nat.zero_add]
      exact List.countP_le_length
    | false =>
      rw [List.countP_singleton, hstage]
      exact h.one
  released hmem := by
    obtain hmem | hmem := List.mem_append.mp hmem
    · exact h.released hmem
    · exact hd (List.mem_singleton.mp hmem).symm
  empty := h.empty

theorem Restarting.release (h : Restarting s) : Restarting (releaseNative s) := by
  unfold releaseNative
  split
  · exact h
  · exact ⟨h.closed, h.one, fun _ ↦ rfl, fun _ ↦ ⟨rfl, rfl, rfl⟩⟩

theorem Restarting.close (h : Restarting s) : Restarting (shut s) :=
  have hloop := h.of_kept (hostsKept_cancelLoop s)
  ⟨fun _ _ _ ↦ rfl, hloop.one, hloop.released, hloop.empty⟩

theorem Restarting.ends (h : Restarting s) : Restarting (endSession s) :=
  ⟨h.close.closed, h.close.one, h.close.released, h.close.empty⟩

end Reopening

section Steps

/-- What `start` has done by its next await, of the handles that it opens once the session is
reopened. -/
inductive OpensHosts (r : StartReply) (s : HostSession) : HostSession → Prop
  | none : OpensHosts r s s
  | lost (hopen : (r.notifies && r.terminal) = true) (hthrow : (r.resizes && r.encoder) = false) :
    OpensHosts r s { s with opened := s.opened + 1 }
  | pair (hopen : (r.notifies && r.terminal) = true) :
    OpensHosts r s
      { s with vt := some s.opened, encoder := some (s.opened + 1), opened := s.opened + 1 + 1 }
  | all (hopen : (r.notifies && r.terminal) = true) (starts : List Stage)
      (hstarts : starts = s.starts ∨ starts = s.starts ++ [.firstImages]) :
    OpensHosts r s
      { s with
        vt := some s.opened
        encoder := some (s.opened + 1)
        selection := some (s.opened + 1 + 1)
        opened := s.opened + 1 + 1 + 1
        starts }

theorem openHosts_cases (r : StartReply) (s : HostSession) : OpensHosts r s (openHosts r s) := by
  unfold openHosts
  cases hopen : r.notifies && r.terminal with
  | false =>
    have hthrow : (!r.notifies || !r.terminal) = true := by
      rw [← Bool.not_and, hopen, Bool.not_false]
    rw [if_pos hthrow]
    exact .none
  | true =>
    have hopens : ¬(!r.notifies || !r.terminal) = true := by
      rw [← Bool.not_and, hopen]
      exact Bool.false_ne_true
    rw [if_neg hopens]
    cases hboth : r.resizes && r.encoder with
    | false =>
      have hthrow : (!r.resizes || !r.encoder) = true := by
        rw [← Bool.not_and, hboth, Bool.not_false]
      simp only [hthrow, if_true]
      exact .lost hopen hboth
    | true =>
      have hstored : (!r.resizes || !r.encoder) = false := by
        rw [← Bool.not_and, hboth, Bool.not_true]
      simp only [hstored, Bool.false_eq_true, if_false]
      split
      · exact .pair hopen
      · split
        · exact .all hopen s.starts (.inl rfl)
        · exact .all hopen (s.starts ++ [.firstImages]) (.inr rfl)

theorem openHosts_step {I : HostSession → Prop} {r : StartReply}
    (h : ∀ s', OpensHosts r s s' → I s') : I (openHosts r s) :=
  h (openHosts r s) (openHosts_cases r s)

theorem Restarting.opens (h : ∀ stage ∈ s.starts, reopens stage = false)
    (hr : s.nativeReleased = false) (r : StartReply) : Restarting (openHosts r s) := by
  refine openHosts_step fun s' hopens ↦ ?_
  cases hopens with
  | none => exact .of_open h hr
  | lost => exact .of_open h hr
  | pair => exact .of_open h hr
  | all _ starts hstarts =>
    refine .of_open (fun stage hmem ↦ ?_) hr
    obtain rfl | rfl := hstarts
    · exact h stage hmem
    · obtain hmem | hmem := List.mem_append.mp hmem
      · exact h stage hmem
      · rw [List.mem_singleton.mp hmem]
        rfl

theorem Restarting.goesOn (h : Restarting s) (hi : s.starts[i]? = some stage)
    (r : StartReply) : Restarting (resumeStart r stage (taken i s)) := by
  have ht := h.take hi
  cases stage with
  | tickIdle waitsFor =>
    have hnone := h.none_left hi rfl
    have hclosed : s.closed = true := h.closed _ (List.mem_of_getElem? hi) rfl
    refine ht.release.await (fun _ ↦ ?_) fun _ ↦ ?_
    · unfold releaseNative
      split <;> exact ⟨hclosed, hnone⟩
    · unfold releaseNative
      split
      · assumption
      · rfl
  | disposed =>
    have hnone : ∀ stage ∈ (reopen (taken i s)).starts, reopens stage = false := h.none_left hi rfl
    exact .opens hnone rfl r
  | firstImages =>
    simp only [resumeStart]
    split
    · exact ht.await nofun nofun
    · exact ht
  | boot =>
    simp only [resumeStart]
    split
    · exact ht
    · have hboot : Restarting
          { taken i s with vm := some s.opened, opened := s.opened + 1 } :=
        ⟨ht.closed, ht.one, ht.released, ht.empty⟩
      split
      · exact hboot.await nofun nofun
      · exact hboot
  | secondImages =>
    simp only [resumeStart]
    split
    · exact ht
    · have hloop : Restarting
          { taken i s with loop := true, timers := s.timers + 1 } :=
        ⟨ht.closed, ht.one, ht.released, ht.empty⟩
      exact hloop.of_kept (hostsKept_tickOnce ..)

theorem start_step {I : HostSession → Prop} (hs : I s)
    (hgo : s.closed = false → I (awaits (.tickIdle (tickIdle s)) (shut s))) : I (start s) := by
  unfold start
  split
  · exact hs
  · next hopen => exact hgo (Bool.eq_false_iff.mpr hopen)

theorem timer_step {I : HostSession → Prop} {r : TickReply} (hs : I s) (htick : I (tickOnce r s)) :
    I (runOp (.timer r) s) := by
  simp only [runOp]
  split
  · exact hs
  · exact htick

theorem dispose_step {I : HostSession → Prop}
    (hwait : I { endSession s with disposes := s.disposes ++ [tickIdle s] })
    (hrelease : s.tick = none → I (releaseNative (endSession s))) : I (dispose s) := by
  unfold dispose
  split
  · exact hwait
  · next hidle => exact hrelease (Option.not_isSome_iff_eq_none.mp hidle)

theorem resumeStart_step {I : HostSession → Prop} {r : StartReply} (hs : I s)
    (hgo : ∀ stage, s.starts[i]? = some stage → goesOn r stage s = true →
      I (resumeStart r stage (taken i s))) : I (runOp (.resumeStart i r) s) := by
  simp only [runOp]
  split
  · exact hs
  · next stage hi =>
    split
    · next hover => exact hgo stage hi hover
    · exact hs

theorem resumeDispose_step {I : HostSession → Prop} {timedOut : Bool} (hs : I s)
    (hgo : ∀ waitsFor, s.disposes[i]? = some waitsFor → waited timedOut waitsFor s = true →
      I (releaseNative { s with disposes := s.disposes.eraseIdx i })) :
    I (runOp (.resumeDispose i timedOut) s) := by
  simp only [runOp]
  split
  · exact hs
  · next waitsFor hi =>
    split
    · next hover => exact hgo waitsFor hi hover
    · exact hs

theorem Restarting.step (h : Restarting s) (op : LifeOp) : Restarting (lifeStep op s).2 := by
  cases op with
  | start =>
    refine start_step h fun hopen ↦ h.close.await (fun _ ↦ ⟨rfl, ?_⟩) nofun
    intro stage hmem
    have hstarts : (shut s).starts = s.starts := (hostsKept_cancelLoop s).starts
    rw [hstarts] at hmem
    by_contra hr
    have hclosed := h.closed stage hmem (Bool.not_eq_false _ ▸ hr)
    rw [hopen] at hclosed
    cases hclosed
  | resumeStart i r => exact resumeStart_step h fun stage hi _ ↦ h.goesOn hi r
  | timer r => exact timer_step h (h.of_kept (hostsKept_tickOnce r s))
  | resumeTick r => exact h.of_kept (hostsKept_resumeTick r s)
  | disposeAsync => exact ⟨h.ends.closed, h.ends.one, h.ends.released, h.ends.empty⟩
  | dispose =>
    refine dispose_step ?_ fun _ ↦ h.ends.release
    exact ⟨h.ends.closed, h.ends.one, h.ends.released, h.ends.empty⟩
  | resumeDispose i timedOut =>
    have ht : Restarting { s with disposes := s.disposes.eraseIdx i } :=
      ⟨h.closed, h.one, h.released, h.empty⟩
    exact resumeDispose_step h fun _ _ _ ↦ ht.release

end Steps

end MachineNotebook.Session.Reopening
