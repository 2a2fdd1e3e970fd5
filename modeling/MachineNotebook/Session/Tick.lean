import MachineNotebook.Session.BootFilter
import MachineNotebook.Vt.Newlines

namespace MachineNotebook.Session.Tick

open MachineNotebook.Lib MachineNotebook.Lib.Utf8 BootFilter Vt.Newlines

inductive AgentOsTickState
  | runnable
  | waiting
  | exited
  deriving DecidableEq

/-- A session that has been started, by what its ticks read and write of it. `loop` is whether the
timer is set, `closed` whether the session was disposed. -/
structure ProductSession where
  closed : Bool := false
  loop : Bool := true
  atPrompt : Bool := false
  shellReady : Bool := false
  readyTicks : ℕ := 0
  bootLineCarry : List Char := []
  vt : VtTerminal := {}

namespace ProductSession

def dispose (s : ProductSession) : ProductSession := { s with closed := true, loop := false }

def disposeAsync (s : ProductSession) : ProductSession :=
  { s with
    closed := true
    loop := false
    shellReady := false
    readyTicks := 0
    bootLineCarry := []
    atPrompt := false }

end ProductSession

inductive Ending
  | dispose
  | disposeAsync

def Ending.apply : Ending → ProductSession → ProductSession
  | .dispose => ProductSession.dispose
  | .disposeAsync => ProductSession.disposeAsync

/-- A call that a tick awaits: its result, none when it throws, and the disposal of the session
that came before it returned, if one did. -/
structure Await (α : Type) where
  result : Option α
  ending : Option Ending := none

def Await.after {α : Type} (a : Await α) (s : ProductSession) : ProductSession :=
  match a.ending with
  | none => s
  | some e => e.apply s

/-- The calls of one tick. There is a `sendInput` where input was pending; `status` is by its
`atPrompt`. -/
structure TickInput where
  sendInput : Option (Await Unit) := none
  tickN : Await AgentOsTickState := ⟨some .runnable, none⟩
  status : Await Bool
  takeOutput : Await Bytes

/-- What a tick took from the VM, the data of its `writeGuest` calls, and what was lost with the
carry. -/
structure TickOut where
  taken : Option Bytes := none
  written : List Bytes := []
  dropped : List Char := []

def writeGuest (data : Bytes) (s : ProductSession) : List Bytes × ProductSession :=
  if data = [] then ([], s) else ([data], { s with vt := s.vt.writeGuest data })

def paint (out : Bytes) (s : ProductSession) : List Bytes × ProductSession :=
  if out = [] then ([], s)
  else
    let (cleaned, carry) := stripBootNoise s.bootLineCarry out
    writeGuest cleaned { s with bootLineCarry := carry }

/-- The part of `_tickOnce` from the output on. A `takeOutput` that throws does not end the tick. -/
def showOutput (taken : Option Bytes) (s : ProductSession) : TickOut × ProductSession :=
  let (painted, s) := (taken.map fun out ↦ paint out s).getD ([], s)
  let s := { s with readyTicks := s.readyTicks + 1 }
  if !s.shellReady && (s.atPrompt || decide (100 ≤ s.readyTicks)) then
    let (bytes, dropped) := flushBootCarry s.bootLineCarry
    let (flushed, s) := writeGuest bytes { s with bootLineCarry := [], shellReady := true }
    (⟨taken, painted ++ flushed, dropped⟩, s)
  else (⟨taken, painted, []⟩, s)

def takeOutput (i : TickInput) (s : ProductSession) : TickOut × ProductSession :=
  let s := i.takeOutput.after s
  if s.closed then ({ taken := i.takeOutput.result }, s) else showOutput i.takeOutput.result s

def readStatus (i : TickInput) (s : ProductSession) : TickOut × ProductSession :=
  let s := i.status.after s
  if s.closed then ({}, s)
  else takeOutput i { s with atPrompt := i.status.result.getD s.atPrompt }

def runTicks (i : TickInput) (s : ProductSession) : TickOut × ProductSession :=
  let s := i.tickN.after s
  match i.tickN.result with
  | none => ({}, s)
  | some state =>
    if s.closed then ({}, s)
    else readStatus i (if state = .exited then { s with loop := false } else s)

def tickOnce (i : TickInput) (s : ProductSession) : TickOut × ProductSession :=
  if s.closed then ({}, s)
  else
    match i.sendInput with
    | none => runTicks i s
    | some sent =>
      let s := sent.after s
      if sent.result = none then ({}, s)
      else if s.closed then ({}, s)
      else runTicks i s

/-- What can happen to a started session: its timer fires, or it is disposed. -/
inductive SessionOp
  | tick (i : TickInput)
  | ending (e : Ending)

def sessionStep : SessionOp → ProductSession → TickOut × ProductSession
  | .tick i, s => if s.loop then tickOnce i s else ({}, s)
  | .ending e, s => ({}, e.apply s)

def TickInput.reaches (i : TickInput) (s : ProductSession) : Bool :=
  s.loop && !s.closed &&
    (i.sendInput.all fun sent ↦ sent.result.isSome && sent.ending.isNone) &&
    i.tickN.result.isSome && i.tickN.ending.isNone && i.status.ending.isNone

structure Kept (s s' : ProductSession) : Prop where
  closed : s'.closed = s.closed
  shellReady : s'.shellReady = s.shellReady
  readyTicks : s'.readyTicks = s.readyTicks
  bootLineCarry : s'.bootLineCarry = s.bootLineCarry

structure Ended (s s' : ProductSession) : Prop where
  closed : s'.closed = true
  shellReady : s'.shellReady = true → s.shellReady = true ∧ s'.bootLineCarry = s.bootLineCarry

/-- What a timer tick can do, by whether it reaches the output: stop before it, lose what it took
to a disposal, or show it. -/
inductive Outcome (i : TickInput) (s : ProductSession) : Bool → TickOut × ProductSession → Prop
  | stops {s' : ProductSession} : Kept s s' ∨ Ended s s' → Outcome i s false ({}, s')
  | loses {s' : ProductSession} : i.takeOutput.ending ≠ none → Ended s s' →
      Outcome i s true ({ taken := i.takeOutput.result }, s')
  | shows {s₁ : ProductSession} : i.takeOutput.ending = none → Kept s s₁ →
      Outcome i s true (showOutput i.takeOutput.result s₁)

theorem Kept.refl (s : ProductSession) : Kept s s := ⟨rfl, rfl, rfl, rfl⟩

theorem Kept.trans {s s₁ s₂ : ProductSession} (h : Kept s s₁) (h' : Kept s₁ s₂) : Kept s s₂ :=
  ⟨h'.closed.trans h.closed, h'.shellReady.trans h.shellReady, h'.readyTicks.trans h.readyTicks,
    h'.bootLineCarry.trans h.bootLineCarry⟩

theorem Ended.of_kept {s s₁ s₂ : ProductSession} (h : Kept s s₁) (h' : Ended s₁ s₂) :
    Ended s s₂ := by
  refine ⟨h'.closed, fun hready ↦ ?_⟩
  obtain ⟨hready₁, hcarry⟩ := h'.shellReady hready
  exact ⟨h.shellReady ▸ hready₁, hcarry.trans h.bootLineCarry⟩

theorem ended_apply (e : Ending) (s : ProductSession) : Ended s (e.apply s) := by
  cases e with
  | dispose => exact ⟨rfl, fun h ↦ ⟨h, rfl⟩⟩
  | disposeAsync =>
    exact ⟨rfl, fun h ↦ absurd h (by simp [Ending.apply, ProductSession.disposeAsync])⟩

theorem Await.after_none {α : Type} {a : Await α} (h : a.ending = none) (s : ProductSession) :
    a.after s = s := by
  rw [Await.after, h]

theorem Await.after_some {α : Type} {a : Await α} (h : a.ending ≠ none) (s : ProductSession) :
    Ended s (a.after s) := by
  obtain ⟨e, he⟩ := Option.ne_none_iff_exists'.mp h
  rw [Await.after, he]
  exact ended_apply e s

variable {i : TickInput} {s s' : ProductSession}

theorem Outcome.of_kept {r : Bool} {o : TickOut × ProductSession} (h : Kept s s')
    (ho : Outcome i s' r o) : Outcome i s r o := by
  cases ho with
  | stops hstop => exact .stops (hstop.imp h.trans (.of_kept h))
  | loses hending hended => exact .loses hending (.of_kept h hended)
  | shows hending hkept => exact .shows hending (h.trans hkept)

theorem outcome_takeOutput (hs : s.closed = false) : Outcome i s true (takeOutput i s) := by
  rw [takeOutput]
  by_cases h : i.takeOutput.ending = none
  · rw [Await.after_none h, hs]
    exact .shows h (.refl s)
  · have hended := Await.after_some h s
    rw [hended.closed]
    exact .loses h hended

theorem outcome_readStatus (hs : s.closed = false) :
    Outcome i s i.status.ending.isNone (readStatus i s) := by
  rw [readStatus]
  by_cases h : i.status.ending = none
  · rw [Await.after_none h, hs, h, if_neg Bool.false_ne_true]
    refine .of_kept ?_ (outcome_takeOutput rfl)
    exact ⟨hs.symm, rfl, rfl, rfl⟩
  · have hended := Await.after_some h s
    rw [hended.closed, Option.isNone_eq_false_iff.mpr (Option.isSome_iff_ne_none.mpr h)]
    exact .stops (Or.inr hended)

theorem outcome_runTicks (hs : s.closed = false) :
    Outcome i s (i.tickN.result.isSome && i.tickN.ending.isNone && i.status.ending.isNone)
      (runTicks i s) := by
  rw [runTicks]
  cases hres : i.tickN.result with
  | none =>
    by_cases h : i.tickN.ending = none
    · rw [Await.after_none h]
      exact .stops (Or.inl (.refl s))
    · exact .stops (Or.inr (Await.after_some h s))
  | some state =>
    by_cases h : i.tickN.ending = none
    · simp only [Await.after_none h, hs, h, if_neg Bool.false_ne_true]
      by_cases hexit : state = .exited
      · rw [if_pos hexit]
        refine .of_kept ?_ (outcome_readStatus rfl)
        exact ⟨hs.symm, rfl, rfl, rfl⟩
      · rw [if_neg hexit]
        exact outcome_readStatus hs
    · have hended := Await.after_some h s
      simp only [hended.closed, Option.isNone_eq_false_iff.mpr (Option.isSome_iff_ne_none.mpr h)]
      exact .stops (Or.inr hended)

theorem outcome_tick (i : TickInput) (s : ProductSession) :
    Outcome i s (i.reaches s) (sessionStep (.tick i) s) := by
  rw [sessionStep, TickInput.reaches]
  cases hloop : s.loop with
  | false => exact .stops (Or.inl (.refl s))
  | true =>
    rw [if_pos rfl, tickOnce]
    cases hs : s.closed with
    | true => exact .stops (Or.inl (.refl s))
    | false =>
      cases hsent : i.sendInput with
      | none => exact outcome_runTicks hs
      | some sent =>
        simp only [Option.all_some]
        cases hres : sent.result with
        | none =>
          by_cases h : sent.ending = none
          · rw [Await.after_none h]
            exact .stops (Or.inl (.refl s))
          · exact .stops (Or.inr (Await.after_some h s))
        | some u =>
          by_cases h : sent.ending = none
          · simp only [Await.after_none h, hs, h]
            exact outcome_runTicks hs
          · have hended := Await.after_some h s
            simp only [hended.closed, Option.isNone_eq_false_iff.mpr (Option.isSome_iff_ne_none.mpr h)]
            exact .stops (Or.inr hended)

inductive Effect (s : ProductSession) : TickOut × ProductSession → Prop
  | keeps {s' : ProductSession} : Kept s s' → Effect s ({}, s')
  | ends {o : TickOut × ProductSession} : Ended s o.2 → Effect s o
  | shows {chunk : Option Bytes} {s₁ : ProductSession} : s.closed = false → Kept s s₁ →
      Effect s (showOutput chunk s₁)

theorem effect_step (op : SessionOp) (s : ProductSession) : Effect s (sessionStep op s) := by
  cases op with
  | ending e => exact .ends (ended_apply e s)
  | tick i =>
    have ho := outcome_tick i s
    generalize sessionStep (.tick i) s = o at ho
    generalize hr : i.reaches s = r at ho
    cases ho with
    | stops hstop =>
      rcases hstop with hk | he
      · exact .keeps hk
      · exact .ends he
    | loses _ he => exact .ends he
    | shows _ hk =>
      have hclosed : s.closed = false := by
        simp only [TickInput.reaches, Bool.and_eq_true, Bool.not_eq_true'] at hr
        exact hr.1.1.1.1.2
      exact .shows hclosed hk

/-- What the boot filter makes of the output of a tick. -/
def stripTaken (taken : Option Bytes) (carry : List Char) : Bytes × List Char :=
  match taken with
  | none => ([], carry)
  | some out => if out = [] then ([], carry) else stripBootNoise carry out

def getsReady (s : ProductSession) : Bool :=
  !s.shellReady && (s.atPrompt || decide (100 ≤ s.readyTicks + 1))

theorem writeGuest_flatten (data : Bytes) (s : ProductSession) :
    (writeGuest data s).1.flatten = data := by
  by_cases h : data = []
  · simp [writeGuest, h]
  · simp [writeGuest, h]

theorem writeGuest_kept (data : Bytes) (s : ProductSession) :
    Kept s (writeGuest data s).2 ∧ (writeGuest data s).2.atPrompt = s.atPrompt ∧
      (writeGuest data s).2.loop = s.loop := by
  by_cases h : data = []
  · rw [writeGuest, if_pos h]
    exact ⟨.refl s, rfl, rfl⟩
  · rw [writeGuest, if_neg h]
    exact ⟨⟨rfl, rfl, rfl, rfl⟩, rfl, rfl⟩

theorem paint_spec (taken : Option Bytes) (s : ProductSession) :
    let r := (taken.map fun out ↦ paint out s).getD ([], s)
    r.1.flatten = (stripTaken taken s.bootLineCarry).1 ∧
      r.2.bootLineCarry = (stripTaken taken s.bootLineCarry).2 ∧ r.2.closed = s.closed ∧
      r.2.shellReady = s.shellReady ∧ r.2.readyTicks = s.readyTicks ∧ r.2.atPrompt = s.atPrompt ∧
      r.2.loop = s.loop := by
  cases taken with
  | none => exact ⟨rfl, rfl, rfl, rfl, rfl, rfl, rfl⟩
  | some out =>
    simp only [Option.map_some, Option.getD_some, paint, stripTaken]
    by_cases hout : out = []
    · simp [hout]
    · rw [if_neg hout, if_neg hout]
      obtain ⟨hkept, hprompt, hloop⟩ := writeGuest_kept (stripBootNoise s.bootLineCarry out).1
        { s with bootLineCarry := (stripBootNoise s.bootLineCarry out).2 }
      exact ⟨writeGuest_flatten _ _, hkept.bootLineCarry, hkept.closed, hkept.shellReady,
        hkept.readyTicks, hprompt, hloop⟩

structure Shown (chunk : Option Bytes) (s : ProductSession) (o : TickOut × ProductSession) :
    Prop where
  taken : o.1.taken = chunk
  closed : o.2.closed = s.closed
  loop : o.2.loop = s.loop
  readyTicks : o.2.readyTicks = s.readyTicks + 1
  shellReady : o.2.shellReady = (s.shellReady || getsReady s)
  bootLineCarry : o.2.bootLineCarry =
    if getsReady s then [] else (stripTaken chunk s.bootLineCarry).2
  written : o.1.written.flatten = (stripTaken chunk s.bootLineCarry).1 ++
    if getsReady s then (flushBootCarry (stripTaken chunk s.bootLineCarry).2).1 else []
  dropped : o.1.dropped =
    if getsReady s then (flushBootCarry (stripTaken chunk s.bootLineCarry).2).2 else []

theorem shown_showOutput (chunk : Option Bytes) (s : ProductSession) :
    Shown chunk s (showOutput chunk s) := by
  obtain ⟨hpainted, hcarry, hclosed, hready, hticks, hprompt, hloop⟩ := paint_spec chunk s
  unfold showOutput
  generalize (chunk.map fun out ↦ paint out s).getD ([], s) = r at *
  obtain ⟨painted, s₁⟩ := r
  simp only at hpainted hcarry hclosed hready hticks hprompt hloop
  have hgets : (!s₁.shellReady && (s₁.atPrompt || decide (100 ≤ s₁.readyTicks + 1))) =
      getsReady s := by
    rw [getsReady, hready, hprompt, hticks]
  simp only [hgets]
  cases hg : getsReady s with
  | false =>
    constructor
    all_goals simp [hg, hpainted, hcarry, hclosed, hready, hticks, hloop]
  | true =>
    obtain ⟨hkept, -, hloop'⟩ := writeGuest_kept (flushBootCarry s₁.bootLineCarry).1
      { s₁ with readyTicks := s₁.readyTicks + 1, bootLineCarry := [], shellReady := true }
    constructor
    · simp
    · exact hkept.closed.trans hclosed
    · exact hloop'.trans hloop
    · exact hkept.readyTicks.trans (congrArg (· + 1) hticks)
    · simp [hkept.shellReady, hg]
    · simp [hkept.bootLineCarry, hg]
    · simp [writeGuest_flatten, hpainted, hcarry, hg]
    · simp [hcarry, hg]

end MachineNotebook.Session.Tick
