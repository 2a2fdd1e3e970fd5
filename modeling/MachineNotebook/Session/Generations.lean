import MachineNotebook.Session.Reopening
import Mathlib.Data.List.ReduceOption

namespace MachineNotebook.Session.Generations

open MachineNotebook.Lib Run Lifecycle Reopening

/-- No handle was closed that the tick in flight went on using, and no tick did anything after a
generation later than its own had begun. -/
structure KeepsGenerations (s : HostSession) : Prop where
  closings : ∀ c ∈ s.closings, c.handle ∉ c.inUse
  acts : ∀ a ∈ s.acts, a.done ≤ a.begun

/-- A wait of `disposeAsync`, of `start` in it or of `dispose` is over. -/
def endsWait : LifeOp → HostSession → Bool
  | .resumeStart i r, s =>
    match s.starts[i]? with
    | some (.tickIdle waitsFor) => waited r.timedOut waitsFor s
    | _ => false
  | .resumeDispose i timedOut, s =>
    match s.disposes[i]? with
    | some waitsFor => waited timedOut waitsFor s
    | none => false
  | _, _ => false

/-- A wait for a tick ends while one is in flight. -/
def EndsUnderTick (op : LifeOp) (s : HostSession) : Prop :=
  endsWait op s = true ∧ s.tick.isSome = true

instance (op : LifeOp) (s : HostSession) : Decidable (EndsUnderTick op s) :=
  inferInstanceAs (Decidable (_ ∧ _))

theorem idle_of_endsWait {op : LifeOp} {s : HostSession} (hends : endsWait op s = true)
    (hend : ¬EndsUnderTick op s) : s.tick = none := by
  by_contra htick
  exact hend ⟨hends, Option.isSome_iff_ne_none.mpr htick⟩

/-- The tick in flight is of this generation, whose terminal it has. -/
structure Within (s : HostSession) : Prop where
  keeps : KeepsGenerations s
  generation : ∀ t, s.tick = some t → t.generation = s.generation
  vt : ∀ t, s.tick = some t → s.vt = some t.vt

variable {s s' : HostSession} {stage : Stage} {i : ℕ}

theorem Within.of_idle (h : KeepsGenerations s) (htick : s.tick = none) : Within s where
  keeps := h
  generation t ht := by
    rw [htick] at ht
    cases ht
  vt t ht := by
    rw [htick] at ht
    cases ht

section Ticks

theorem within_cancelLoop (h : Within s) : Within (cancelLoop s) := by
  unfold cancelLoop
  split
  · exact ⟨⟨h.keeps.closings, h.keeps.acts⟩, h.generation, h.vt⟩
  · exact h

theorem tick_cancelLoop (s : HostSession) : (cancelLoop s).tick = s.tick := by
  unfold cancelLoop
  split <;> rfl

theorem within_runSegment (h : KeepsGenerations s) {t : Tick} (hg : t.generation = s.generation)
    (hvt : s.vt = some t.vt) (segment : Segment) : Within (runSegment t segment s) := by
  have hawait (t' : Tick) (ht : (runSegment t segment s).tick = some t') :
      t'.generation = t.generation ∧ t'.vt = t.vt := by
    obtain ⟨await, -, rfl⟩ := Option.map_eq_some_iff.mp ht
    exact ⟨rfl, rfl⟩
  refine ⟨⟨h.closings, fun a ha ↦ ?_⟩, fun t' ht ↦ ?_, fun t' ht ↦ ?_⟩
  · obtain ha | ha := List.mem_append.mp ha
    · exact h.acts a ha
    · obtain ⟨effect, -, rfl⟩ := List.mem_map.mp ha
      exact hg.ge
  · exact (hawait t' ht).1.trans hg
  · rw [(hawait t' ht).2]
    exact hvt

theorem within_resumeTick (h : Within s) (r : TickReply) : Within (resumeTick r s) := by
  unfold resumeTick
  split
  · exact h
  · next t ht =>
    split
    · have hk := hostsKept_cancelLoop s
      refine within_runSegment (within_cancelLoop h).keeps ?_ ?_ _
      · rw [hk.generation]
        exact h.generation t ht
      · rw [hk.vt]
        exact h.vt t ht
    · exact within_runSegment h.keeps (h.generation t ht) (h.vt t ht) _

theorem within_tickOnce (h : Within s) (r : TickReply) : Within (tickOnce r s) := by
  unfold tickOnce
  split
  · exact h
  · split
    · next vt vm hvt hvm =>
      exact within_runSegment (s := { s with ticksBegun := s.ticksBegun + 1 })
        ⟨h.keeps.closings, h.keeps.acts⟩ rfl hvt _
    · exact h

end Ticks

section Release

theorem within_releaseNative (h : KeepsGenerations s) (htick : s.tick = none) :
    Within (releaseNative s) := by
  unfold releaseNative
  split
  · exact .of_idle h htick
  · refine .of_idle ⟨fun c hc ↦ ?_, h.acts⟩ htick
    obtain hc | hc := List.mem_append.mp hc
    · exact h.closings c hc
    · obtain ⟨handle, -, rfl⟩ := List.mem_map.mp hc
      simp [inUse, htick]

theorem releaseNative_underTick {t : Tick} (ht : s.tick = some t) (hvt : s.vt = some t.vt)
    (hr : s.nativeReleased = false) : ¬KeepsGenerations (releaseNative s) := by
  intro h
  have hmem : { handle := t.vt, inUse := [t.vt, t.vm] } ∈ (releaseNative s).closings := by
    simp [releaseNative, hr, held, inUse, ht, hvt, List.reduceOption_mem_iff]
  exact h.closings _ hmem List.mem_cons_self

end Release

section Steps

theorem within_openHosts (h : KeepsGenerations s) (htick : s.tick = none) (r : StartReply) :
    Within (openHosts r s) := by
  refine openHosts_step fun s' hopens ↦ ?_
  cases hopens with
  | none => exact .of_idle h htick
  | lost => exact .of_idle ⟨h.closings, h.acts⟩ htick
  | pair => exact .of_idle ⟨h.closings, h.acts⟩ htick
  | all => exact .of_idle ⟨h.closings, h.acts⟩ htick

theorem Within.idle_of_released (h : Within s) (hrestart : Restarting s)
    (hr : s.nativeReleased = true) : s.tick = none := by
  cases ht : s.tick with
  | none => rfl
  | some t =>
    have hvt := h.vt t ht
    rw [(hrestart.empty hr).1] at hvt
    cases hvt

theorem Within.goesOn (h : Within s) (hrestart : Restarting s) (hi : s.starts[i]? = some stage)
    {r : StartReply} (hover : goesOn r stage s = true)
    (hend : ¬EndsUnderTick (.resumeStart i r) s) : Within (resumeStart r stage (taken i s)) := by
  have ht : Within (taken i s) := ⟨⟨h.keeps.closings, h.keeps.acts⟩, h.generation, h.vt⟩
  cases stage with
  | tickIdle waitsFor =>
    have hends : endsWait (.resumeStart i r) s = true := by
      simp only [endsWait, hi]
      exact hover
    have htick := idle_of_endsWait hends hend
    have hrelease := within_releaseNative (s := taken i s) ht.keeps htick
    exact ⟨⟨hrelease.keeps.closings, hrelease.keeps.acts⟩, hrelease.generation, hrelease.vt⟩
  | disposed =>
    have htick := h.idle_of_released hrestart (hrestart.released (List.mem_of_getElem? hi))
    exact within_openHosts (s := reopen (taken i s)) ⟨ht.keeps.closings, ht.keeps.acts⟩ htick r
  | firstImages =>
    simp only [resumeStart]
    split
    · exact ⟨⟨ht.keeps.closings, ht.keeps.acts⟩, ht.generation, ht.vt⟩
    · exact ht
  | boot =>
    simp only [resumeStart]
    split
    · exact ht
    · split <;> exact ⟨⟨ht.keeps.closings, ht.keeps.acts⟩, ht.generation, ht.vt⟩
  | secondImages =>
    simp only [resumeStart]
    split
    · exact ht
    · have hloop : Within { taken i s with loop := true, timers := s.timers + 1 } :=
        ⟨⟨ht.keeps.closings, ht.keeps.acts⟩, ht.generation, ht.vt⟩
      exact within_tickOnce hloop _

theorem Within.step (h : Within s) (hrestart : Restarting s) {op : LifeOp}
    (hend : ¬EndsUnderTick op s) : Within (lifeStep op s).2 := by
  have hclose := within_cancelLoop h
  cases op with
  | start =>
    refine start_step h fun _ ↦ ?_
    exact ⟨⟨hclose.keeps.closings, hclose.keeps.acts⟩, hclose.generation, hclose.vt⟩
  | resumeStart i r => exact resumeStart_step h fun stage hi hover ↦ h.goesOn hrestart hi hover hend
  | timer r => exact timer_step h (within_tickOnce h r)
  | resumeTick r => exact within_resumeTick h r
  | disposeAsync => exact ⟨⟨hclose.keeps.closings, hclose.keeps.acts⟩, hclose.generation, hclose.vt⟩
  | dispose =>
    refine dispose_step ?_ fun htick ↦ ?_
    · exact ⟨⟨hclose.keeps.closings, hclose.keeps.acts⟩, hclose.generation, hclose.vt⟩
    · refine within_releaseNative ⟨hclose.keeps.closings, hclose.keeps.acts⟩ ?_
      exact (tick_cancelLoop s).trans htick
  | resumeDispose i timedOut =>
    refine resumeDispose_step h fun waitsFor hi hover ↦ ?_
    have hends : endsWait (.resumeDispose i timedOut) s = true := by
      simp only [endsWait, hi]
      exact hover
    have htick := idle_of_endsWait hends hend
    exact within_releaseNative (s := { s with disposes := s.disposes.eraseIdx i })
      ⟨h.keeps.closings, h.keeps.acts⟩ htick

theorem Within.released (h : Within s) (hrestart : Restarting s) {op : LifeOp}
    (hend : EndsUnderTick op s) : ¬KeepsGenerations (lifeStep op s).2 := by
  obtain ⟨hends, htick⟩ := hend
  obtain ⟨t, ht⟩ := Option.isSome_iff_exists.mp htick
  have hr : s.nativeReleased = false := by
    by_contra hr
    rw [h.idle_of_released hrestart (by simpa using hr)] at ht
    cases ht
  have hvt := h.vt t ht
  cases op with
  | resumeStart i r =>
    change ¬KeepsGenerations (runOp (.resumeStart i r) s)
    simp only [endsWait] at hends
    split at hends
    · next waitsFor hi =>
      have hnot := releaseNative_underTick (s := taken i s) ht hvt hr
      simp only [runOp, hi, Lifecycle.goesOn, hends, if_true]
      exact fun hk ↦ hnot ⟨hk.closings, hk.acts⟩
    · cases hends
  | resumeDispose i timedOut =>
    change ¬KeepsGenerations (runOp (.resumeDispose i timedOut) s)
    simp only [endsWait] at hends
    split at hends
    · next waitsFor hi =>
      simp only [runOp, hi, hends, if_true]
      exact releaseNative_underTick (s := { s with disposes := s.disposes.eraseIdx i }) ht hvt hr
    · cases hends
  | _ => cases hends

end Steps

/-- A run keeps to its generations in every state exactly if no wait for a tick ends while one is in
flight. -/
theorem keeps_generations_iff (ops : List LifeOp) :
    (∀ pre, pre <+: ops → KeepsGenerations (final lifeStep pre {})) ↔
      Along lifeStep (fun op s ↦ ¬EndsUnderTick op s) ops {} := by
  have hkeeps : KeepsGenerations {} := ⟨fun _ h ↦ (by cases h), fun _ h ↦ (by cases h)⟩
  have hrestart : Restarting {} := .of_open (fun _ h ↦ by cases h) rfl
  refine along_iff_prefixes_of_kept (I := fun s ↦ Restarting s ∧ Within s)
    (fun op s h hend ↦ ⟨h.1.step op, h.2.step h.1 hend⟩) (fun op s h ↦ ⟨fun hk hend ↦ ?_, ?_⟩)
    ⟨hrestart, .of_idle hkeeps rfl⟩ hkeeps
  · exact h.2.released h.1 hend hk
  · exact fun hend ↦ (h.2.step h.1 hend).keeps

/-- `tickN` takes longer than the wait of a restart. -/
def slowTick : List LifeOp :=
  [.start, .resumeStart 0 {}, .resumeStart 0 {}, .resumeStart 0 {}, .resumeStart 0 {},
    .resumeStart 0 {}, .start, .resumeStart 0 { timedOut := true }, .resumeStart 0 {},
    .resumeTick {}]

/-- The hosts are released under the tick, which then writes `_lastTick` of the next generation. -/
theorem slow_tick_outlives :
    ¬(∀ c ∈ (final lifeStep slowTick {}).closings, c.handle ∉ c.inUse) ∧
      ¬(∀ a ∈ (final lifeStep slowTick {}).acts, a.done ≤ a.begun) := by
  constructor <;> decide

end MachineNotebook.Session.Generations
