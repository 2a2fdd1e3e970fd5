import MachineNotebook.Host.Output
import MachineNotebook.Lib.Run

namespace MachineNotebook.Host.TakeOutput

open MachineNotebook.Lib Output

variable {α : Type*}

/-- A call of `aos_vm_take_output` between its critical sections: it holds a remainder,
first without and then with the combined buffer at hand. -/
inductive Taker (α : Type*)
  | idle
  | holding (rest : List α)
  | splicing (rest : List α)

def Taker.held : Taker α → List α
  | idle => []
  | holding rest => rest
  | splicing rest => rest

/-- The sinks of a VM with a taker and a guest, which writes only inside a call that has
the VM table locked. `half` is a write that has reached the combined sink alone. -/
structure TakeState (α : Type*) where
  sinks : Sinks α
  tableHeld : Bool
  half : Option (Stream × List α)
  taker : Taker α
  written : List α
  returned : List α

def TakeState.start : TakeState α := ⟨.empty, true, none, .idle, [], []⟩

inductive TakeStep (α : Type*)
  | enter
  | leave
  | writeFirst (stream : Stream) (bytes : List α)
  | writeSecond
  | drain (cap : ℕ+)
  | clone
  | splice

/-- A step that would have to wait does nothing. -/
def takeStep (step : TakeStep α) (s : TakeState α) : TakeState α :=
  match step, s.half, s.taker with
  | .enter, _, _ => { s with tableHeld := true }
  | .leave, none, _ => { s with tableHeld := false }
  | .writeFirst stream bytes, none, _ =>
    if s.tableHeld then
      { s with
        sinks := s.sinks.writeCombined bytes
        half := some (stream, bytes)
        written := s.written ++ bytes }
    else s
  | .writeSecond, some (stream, bytes), _ =>
    { s with sinks := s.sinks.writeStream stream bytes, half := none }
  | .drain cap, _, .idle =>
    if s.tableHeld then s
    else
      let (data, sinks) := s.sinks.takeDrain
      { s with
        sinks
        taker := if data.length > cap then .holding (data.drop cap) else .idle
        returned := s.returned ++ data.take cap }
  | .clone, _, .holding rest => if s.tableHeld then s else { s with taker := .splicing rest }
  | .splice, _, .splicing rest => { s with sinks := s.sinks.putBack rest, taker := .idle }
  | _, _, _ => s

def run (steps : List (TakeStep α)) : TakeState α :=
  Run.final (fun step s ↦ ((), takeStep step s)) steps .start

/-- The combined buffer decides: while it is empty, so are the streams. -/
structure Exact (s : TakeState α) : Prop where
  exact : s.returned ++ s.taker.held ++ s.sinks.out = s.written
  streams : s.sinks.out = [] → s.sinks = .empty
  half : ∀ p ∈ s.half, s.tableHeld = true ∧ (s.sinks.out = [] → p.2 = [])

section Steps

variable {s : TakeState α}

theorem Exact.writeFirst (hs : Exact s) (stream : Stream) (bytes : List α)
    (hheld : s.tableHeld = true) :
    Exact { s with
      sinks := s.sinks.writeCombined bytes
      half := some (stream, bytes)
      written := s.written ++ bytes } := by
  refine ⟨?_, ?_, ?_⟩
  · simp [Sinks.writeCombined, ← hs.exact]
  · intro hout
    obtain ⟨hnil, rfl⟩ := List.append_eq_nil_iff.mp hout
    simpa [Sinks.writeCombined] using hs.streams hnil
  · intro p hp
    cases hp
    exact ⟨hheld, fun hout ↦ (List.append_eq_nil_iff.mp hout).2⟩

theorem Exact.writeSecond (hs : Exact s) {stream : Stream} {bytes : List α}
    (hhalf : s.half = some (stream, bytes)) :
    Exact { s with sinks := s.sinks.writeStream stream bytes, half := none } := by
  refine ⟨?_, ?_, fun p hp ↦ nomatch hp⟩
  · rw [Sinks.writeStream_out]
    exact hs.exact
  · rw [Sinks.writeStream_out]
    intro hout
    have hbytes : bytes = [] := (hs.half _ hhalf).2 hout
    rw [hbytes, Sinks.writeStream_nil]
    exact hs.streams hout

theorem Exact.drain (hs : Exact s) (cap : ℕ+) (htaker : s.taker = .idle)
    (hfree : ¬s.tableHeld = true) :
    Exact { s with
      sinks := s.sinks.takeDrain.2
      taker := if s.sinks.takeDrain.1.length > cap then .holding (s.sinks.takeDrain.1.drop cap)
        else .idle
      returned := s.returned ++ s.sinks.takeDrain.1.take cap } := by
  rw [Sinks.takeDrain_eq hs.streams]
  refine ⟨?_, fun _ ↦ rfl, fun p hp ↦ absurd (hs.half p hp).1 hfree⟩
  have hexact := hs.exact
  rw [htaker] at hexact
  rw [← hexact]
  split
  · simp [Taker.held, Sinks.empty]
  · rename_i hle
    simp [Taker.held, Sinks.empty, List.take_of_length_le (Nat.le_of_not_lt hle)]

theorem Exact.splice (hs : Exact s) {rest : List α} (htaker : s.taker = .splicing rest) :
    Exact { s with sinks := s.sinks.putBack rest, taker := .idle } := by
  have hexact := hs.exact
  rw [htaker] at hexact
  refine ⟨?_, ?_, ?_⟩
  · simpa [Taker.held, Sinks.putBack] using hexact
  · intro hout
    obtain ⟨rfl, hnil⟩ := List.append_eq_nil_iff.mp hout
    simpa [Sinks.putBack] using hs.streams hnil
  · intro p hp
    exact ⟨(hs.half p hp).1, fun hout ↦ (hs.half p hp).2 (List.append_eq_nil_iff.mp hout).2⟩

theorem Exact.step (step : TakeStep α) (s : TakeState α) (hs : Exact s) :
    Exact (takeStep step s) := by
  unfold takeStep
  split
  · exact ⟨hs.exact, hs.streams, fun p hp ↦ ⟨rfl, (hs.half p hp).2⟩⟩
  · rename_i hhalf
    exact ⟨hs.exact, hs.streams, fun p hp ↦ by simp [hhalf] at hp⟩
  · rename_i stream bytes hhalf
    split
    · exact hs.writeFirst stream bytes ‹_›
    · exact hs
  · rename_i stream bytes hhalf
    exact hs.writeSecond hhalf
  · rename_i cap htaker
    split
    · exact hs
    · exact hs.drain cap htaker ‹_›
  · rename_i rest htaker
    split
    · exact hs
    · exact ⟨by simpa [htaker, Taker.held] using hs.exact, hs.streams, hs.half⟩
  · rename_i rest htaker
    exact hs.splice htaker
  · exact hs

end Steps

/-- In every state of every run, what was returned, what the call in progress holds and
what the combined buffer has are what was written, and an empty combined buffer leaves
the streams nothing to deliver. -/
theorem take_output_exact (steps : List (TakeStep α)) :
    (run steps).returned ++ (run steps).taker.held ++ (run steps).sinks.out = (run steps).written ∧
      ((run steps).sinks.out = [] →
        (run steps).sinks = .empty ∧ (run steps).sinks.takeDrain = ([], .empty)) := by
  have hrun : Exact (run steps) := by
    apply Run.invariant (I := Exact) Exact.step steps
    exact ⟨rfl, fun _ ↦ rfl, fun p hp ↦ nomatch hp⟩
  refine ⟨hrun.exact, fun hout ↦ ⟨hrun.streams hout, ?_⟩⟩
  rw [Sinks.takeDrain_eq hrun.streams, hout]

/-- The guest writes on while a call holds a remainder, and the next call goes on where the
first one stopped. -/
example : (run [.writeFirst .stdout [1, 2, 3], .writeSecond, .leave, .drain 2, .enter,
    .writeFirst .log [4], .splice, .writeSecond, .leave, .clone, .splice, .drain 9]).returned =
      [1, 2, 3, 4] := by decide

end MachineNotebook.Host.TakeOutput
