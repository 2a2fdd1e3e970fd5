import MachineNotebook.Lib.Utf8
import Mathlib.Algebra.Group.Int.Defs
import Mathlib.Logic.Function.Basic

namespace MachineNotebook.Host.Table

open MachineNotebook.Lib.Utf8 (Bytes)

def Slots (α : Type) := Int32 → Option α

namespace Slots

variable {α : Type}

def empty : Slots α := fun _ ↦ none

def insert (m : Slots α) (h : Int32) (a : α) : Slots α := Function.update m h (some a)

def remove (m : Slots α) (h : Int32) : Slots α := Function.update m h none

@[simp] theorem empty_apply (h : Int32) : (empty : Slots α) h = none := rfl

@[simp] theorem insert_self (m : Slots α) (h : Int32) (a : α) : m.insert h a h = some a :=
  Function.update_self ..

@[simp] theorem insert_of_ne (m : Slots α) {h k : Int32} (a : α) (hk : k ≠ h) :
    m.insert h a k = m k := Function.update_of_ne hk ..

@[simp] theorem remove_self (m : Slots α) (h : Int32) : m.remove h h = none :=
  Function.update_self ..

@[simp] theorem remove_of_ne (m : Slots α) {h k : Int32} (hk : k ≠ h) :
    m.remove h k = m k := Function.update_of_ne hk ..

theorem insert_eq_self {m : Slots α} {h : Int32} {a a' : α} (ha : m h = some a) :
    m.insert h a' = m ↔ a' = a := by
  constructor
  · intro he
    have hh := congrFun he h
    rw [insert_self, ha] at hh
    exact Option.some_inj.mp hh
  · rintro rfl
    funext k
    by_cases hk : k = h
    · subst k; simp [ha]
    · simp [hk]

def modify (m : Slots α) (h : Int32) (f : α → α) : Slots α :=
  match m h with
  | none => m
  | some a => m.insert h (f a)

theorem modify_none {m : Slots α} {h : Int32} (f : α → α) (hm : m h = none) :
    m.modify h f = m := by
  simp only [modify, hm]

theorem modify_some {m : Slots α} {h : Int32} {a : α} (f : α → α) (hm : m h = some a) :
    m.modify h f = m.insert h (f a) := by
  simp only [modify, hm]

theorem modify_eq_self {m : Slots α} {h : Int32} {f : α → α} (hf : ∀ a ∈ m h, f a = a) :
    m.modify h f = m := by
  cases hm : m h with
  | none => exact modify_none f hm
  | some a =>
    rw [modify_some f hm]
    exact (insert_eq_self hm).mpr (hf a hm)

theorem modify_apply (m : Slots α) (h k : Int32) (f : α → α) :
    m.modify h f k = (m k).map fun a ↦ if h = k then f a else a := by
  cases hm : m h with
  | none =>
    rw [modify_none f hm]
    by_cases hk : h = k
    · subst k; simp [hm]
    · simp [hk]
  | some a =>
    rw [modify_some f hm]
    by_cases hk : h = k
    · subst k; simp [hm]
    · simp [hk, Ne.symm hk]

theorem modify_of_ne {m : Slots α} {h k : Int32} {f : α → α} (hne : h ≠ k) :
    m.modify h f k = m k := by simp [modify_apply, hne]

theorem modify_self {m : Slots α} {h : Int32} {f : α → α} :
    m.modify h f h = (m h).map f := by simp [modify_apply]

end Slots

inductive EgressRelayEvent
  | httpRequest (handle : Int32) (request : Bytes)
  | hostCall (handle : Int32) (name : String) (body : Bytes)
  | hostCallClose (handle : Int32) (sidecar : Bool)
  | persistGet (handle : Int32) (key : Bytes)
  | persistPut (handle : Int32) (key value : Bytes)
  | persistDelete (handle : Int32) (key : Bytes)
  | persistList (handle : Int32) (pfx : Bytes)
  | wsConnect (handle : Int32) (url : String)
  | wsSend (handle : Int32) (data : Bytes)
  | wsClose (handle : Int32)
  | toolApproval (handle : Int32) (connection method url origin : String)
      (argsDigest : Option String)
  deriving DecidableEq

def EgressRelayEvent.handle : EgressRelayEvent → Int32
  | httpRequest h _ | hostCall h _ _ | hostCallClose h _ | persistGet h _ | persistPut h _ _
  | persistDelete h _ | persistList h _ | wsConnect h _ | wsSend h _ | wsClose h
  | toolApproval h _ _ _ _ _ => h

structure HttpSlot where
  done : Bool := false
  failed : Bool := false
  head : Bytes := []
  body : Bytes := []
  bodyPos : ℕ := 0
  deriving DecidableEq

structure HostCallSlot where
  dispatched : Bool := false
  sidecar : Bool := false
  done : Bool := false
  failed : Bool := false
  result : Bytes := []
  offset : ℕ := 0
  deriving DecidableEq

structure PersistSlot where
  done : Bool := false
  failed : Bool := false
  result : Bytes := []
  offset : ℕ := 0
  deriving DecidableEq

structure WsSlot where
  isOpen : Bool := false
  failed : Bool := false
  incoming : List Bytes := []
  incomingPos : ℕ := 0
  queuedBytes : ℕ := 0
  deriving DecidableEq

structure ToolApprovalDecision where
  allow : Bool
  rememberSession : Bool
  deriving DecidableEq

abbrev Sender := ℕ

structure RelayState where
  next : Int32
  events : List EgressRelayEvent
  http : Slots HttpSlot
  hostCalls : Slots HostCallSlot
  persist : Slots PersistSlot
  ws : Slots WsSlot
  pendingToolApprovals : Slots Sender

namespace RelayState

def new : RelayState :=
  ⟨1, [], .empty, .empty, .empty, .empty, .empty⟩

def allocHandle (s : RelayState) : Int32 × RelayState :=
  let handle := if s.next ≤ 0 then 1 else s.next
  (handle, { s with next := max (handle + 1) 1 })

def pushBack (s : RelayState) (ev : EgressRelayEvent) : RelayState :=
  { s with events := s.events ++ [ev] }

theorem not_le_zero {n : Int32} (hpos : 0 < n.toInt) : ¬n ≤ 0 := by
  rw [Int32.le_iff_toInt_le, Int32.toInt_zero]
  omega

theorem allocHandle_eq {s : RelayState} (hpos : 0 < s.next.toInt)
    (hlt : s.next.toInt + 1 < 2 ^ 31) :
    s.allocHandle = (s.next, { s with next := s.next + 1 }) ∧
      (s.next + 1).toInt = s.next.toInt + 1 := by
  have hsucc : (s.next + 1).toInt = s.next.toInt + 1 := by
    rw [Int32.toInt_add, Int.bmod_eq_of_le] <;> simp <;> omega
  refine ⟨?_, hsucc⟩
  have hle := not_le_zero hpos
  have hmax : max (s.next + 1) 1 = s.next + 1 := by
    refine if_neg (fun h ↦ ?_)
    rw [Int32.le_iff_toInt_le, hsucc] at h
    simp only [Int32.toInt_one] at h
    omega
  simp only [allocHandle, if_neg hle, hmax]

theorem next_eq_last {s : RelayState} (h : ¬s.next.toInt + 1 < 2 ^ 31) : s.next = 2147483647 := by
  apply Int32.toInt_inj.mp
  have hlt := s.next.toInt_lt
  simp only [Int32.reduceToInt]
  omega

theorem allocHandle_moves {s : RelayState} (hpos : 0 < s.next.toInt) :
    s.allocHandle.2.next ≠ s.next := by
  have hle := not_le_zero hpos
  intro he
  have hmax : max (s.next + 1) 1 = s.next := by simpa only [allocHandle, if_neg hle] using he
  by_cases h : s.next.toInt + 1 < 2 ^ 31
  · have hsucc := (allocHandle_eq hpos h).2
    have hnext : s.next + 1 = s.next := by
      have hd := congrArg (fun p ↦ p.2.next) (allocHandle_eq hpos h).1
      exact hd.symm.trans he
    rw [hnext] at hsucc
    omega
  · rw [next_eq_last h] at hmax
    exact absurd hmax (by decide)

end RelayState

end MachineNotebook.Host.Table
