import MachineNotebook.Dart.Bindings
import MachineNotebook.Lib.HeapLogic
import MachineNotebook.Lib.Utf16
import Mathlib.Data.Int.Notation

namespace MachineNotebook.Vt.NativeBlocks

open MachineNotebook.Lib MachineNotebook.Lib.Utf8 MachineNotebook.Lib.HeapLogic
open MachineNotebook.Lib.HeapLogic.Prog
open Dart.Bindings (DartString)

def kGhosttySuccess : Int32 := 0
def kGhosttyOutOfMemory : Int32 := -1
def kGhosttyOutOfSpace : Int32 := -3
def kGhosttyNoValue : Int32 := -4

inductive Effect
  | writePty
  | bell
  | titleChanged
  | pwdChanged
  | clipboardWrite
  | progressReport
  | desktopNotification
  deriving DecidableEq

inductive Kind
  | renderState
  | rowIterator
  | rowCells
  | keyEncoder
  | mouseEncoder
  | mouseEvent
  | selectionGesture
  | selectionGestureEvent
  deriving DecidableEq

/-- A key event. Its text is not its own: it lies where Dart has put it. -/
structure KeyEvent where
  action : Int32 := 0
  key : Int32 := 0
  mods : UInt16 := 0
  utf8 : Ptr := none
  utf8Len : ℕ := 0

structure FormatterOptions where
  emit : Int32
  unwrap : Bool
  trim : Bool

structure SelectionFormatOptions where
  emit : Int32
  unwrap : Bool
  trim : Bool
  selection : Ptr

structure Rgb where
  r : UInt8
  g : UInt8
  b : UInt8

/-- What a block of native memory is used as. A slot that nothing was written to holds `none`. -/
inductive Block
  | bytes (data : Bytes)
  /-- A buffer, of which only the front that was written to can be read. -/
  | scratch (cap : ℕ) (written : Bytes)
  | size (slot : Option Int64)
  | handle (slot : Option Ptr)
  /-- A record that is handed over by value, or read by nobody. -/
  | record
  | rgb (slot : Option Rgb)
  | formatterOptions (o : FormatterOptions)
  | selectionOptions (o : SelectionFormatOptions)
  | object (kind : Kind)
  | keyEvent (e : KeyEvent)
  | formatter (o : FormatterOptions)
  /-- A terminal, with the function that it calls for each effect. -/
  | terminal (effects : Effect → Ptr)
  /-- A `NativeCallable` of Dart. -/
  | callable (e : Effect)
  | pngDecoder

namespace Block

def asBytes : Block → Option Bytes
  | bytes data => some data
  | _ => none

def asSize : Block → Option Int64
  | size slot => slot
  | _ => none

def asHandle : Block → Option Ptr
  | handle slot => slot
  | _ => none

def asRgb : Block → Option Rgb
  | rgb slot => slot
  | _ => none

def isRecord : Block → Bool
  | record => true
  | _ => false

def isObject (kind : Kind) : Block → Bool
  | object k => k = kind
  | _ => false

def isKeyEvent : Block → Bool
  | keyEvent _ => true
  | _ => false

def isTerminal : Block → Bool
  | terminal _ => true
  | _ => false

def asTerminal : Block → Option (Effect → Ptr)
  | terminal effects => some effects
  | _ => none

def isCallable (e : Effect) : Block → Bool
  | callable f => f = e
  | _ => false

def asKeyEvent : Block → Option KeyEvent
  | keyEvent e => some e
  | _ => none

def asFormatter : Block → Option FormatterOptions
  | formatter o => some o
  | _ => none

def asSelectionOptions : Block → Option SelectionFormatOptions
  | selectionOptions o => some o
  | _ => none

/-- A buffer after a write to its front, if the bytes have the room. -/
def overwrite (data : Bytes) : Block → Option Block
  | scratch cap written =>
    if data.length ≤ cap then some (scratch cap (data ++ written.drop data.length)) else none
  | _ => none

def front (n : ℕ) : Block → Option Bytes
  | scratch _ written => if n ≤ written.length then some (written.take n) else none
  | _ => none

end Block

variable {ω α : Type}

abbrev Native (ω : Type) := Prog Block ω DartString

def mallocFailed : DartString := Utf16.encode "malloc failed"

def mallocBytes (b : Block) : Native ω ℕ := malloc mallocFailed b

def mallocScratch (n : Int64) : Native ω ℕ := mallocBytes (.scratch n.toUInt64.toNat [])

def throwText (msg : String) : Native ω α := throw (Utf16.encode msg)

def throwRc (msg : String) (rc : Int32) : Native ω α := throwText (msg ++ toString rc)

def readSize (a : ℕ) : Native ω Int64 := do
  let block ← load a
  expect block.asSize

def writeSize (a : ℕ) (n : Int64) : Native ω Unit := modify a fun _ ↦ .size (some n)

def readFront (a : ℕ) (n : Int64) : Native ω Bytes := do
  let block ← load a
  expect (block.front n.toUInt64.toNat)

def readHandle (a : ℕ) : Native ω Ptr := do
  let block ← load a
  expect block.asHandle

def useObject (is : Block → Bool) (a : ℕ) : Native ω Unit := do
  let block ← load a
  expect (if is block then some () else none)

def freeObject (is : Block → Bool) (a : ℕ) : Native ω Unit := do
  useObject is a
  free a

/-- The emulator makes an object: it fails for reasons of its own, or for want of memory. -/
def newObject (b : Block) (verdict : ω → Int32) (out : ℕ) : Native ω Int32 := do
  let rc ← world fun w ↦ (verdict w, w)
  if rc = kGhosttySuccess then do
    let made ← tryMalloc b
    if made = none then return kGhosttyOutOfMemory
    else do
      modify out fun _ ↦ .handle (some made)
      return kGhosttySuccess
  else return rc

def store (a : ℕ) (data : Bytes) : Native ω Unit := do
  let block ← load a
  let written ← expect (block.overwrite data)
  modify a fun _ ↦ written

/-- A slot was refused that a call allocates before its `try`: the ones before it are left. -/
def SlotsLeft (slots : List Block) (base h : Heap Block) : Prop :=
  ∃ k < slots.length, base.grants (base.next + k) = false ∧
    ∃ left, left.map Prod.snd = (slots.take k).reverse ∧ Owns base left h

/-- Memory ran out, with nothing done to the emulator: past its slots a call gives all back. -/
def RanOut (slots : List Block) (base : Heap Block) (w w' : ω) (h : Heap Block) : Prop :=
  w' = w ∧ (SlotsLeft slots base h ∨ (∃ a, base.grants a = false) ∧ Owns base [] h)

section Rules

variable {base h : Heap Block} {ps : List (ℕ × Block)} {w : ω} {a : ℕ} {data : Bytes}
  {E : DartString → ω → Heap Block → Prop}

theorem spec_mallocSlot {b : Block} {Q : ℕ → ω → Heap Block → Prop} (front back : List Block)
    (ho : Owns base ps h) (hps : ps.map Prod.snd = front.reverse)
    (hnext : h.next = base.next + front.length)
    (hQ : ∀ a h', Owns base ((a, b) :: ps) h' → h'.next = base.next + (front.length + 1) →
      Q a w h') :
    Spec (mallocBytes b) Q
      (fun e w' h' ↦ e = mallocFailed ∧ RanOut (front ++ b :: back) base w w' h') w h := by
  refine spec_mallocNext ho (fun _ h' ho' hnext' ↦ hQ _ h' ho' ?_) fun hrefused h' ho' _ ↦ ?_
  · rw [hnext', hnext, Nat.add_assoc]
  · refine ⟨rfl, rfl, Or.inl ⟨front.length, by simp, hnext ▸ hrefused, ps, ?_, ho'⟩⟩
    rw [hps, List.take_left]

theorem spec_readSize {n : Int64} {Q : Int64 → ω → Heap Block → Prop} (ho : Owns base ps h)
    (hmem : (a, .size (some n)) ∈ ps) (hQ : Q n w h) : Spec (readSize a) Q E w h :=
  spec_bind (spec_load ho hmem (spec_expect rfl hQ))

theorem spec_readFront {cap : ℕ} {n : Int64} {Q : Bytes → ω → Heap Block → Prop}
    (ho : Owns base ps h) (hmem : (a, .scratch cap data) ∈ ps)
    (hn : n.toUInt64.toNat = data.length) (hQ : Q data w h) : Spec (readFront a n) Q E w h := by
  refine spec_bind (spec_load ho hmem (spec_expect (x := data) ?_ hQ))
  simp [Block.front, hn]

theorem spec_store {cap : ℕ} {Q : Unit → ω → Heap Block → Prop}
    (ho : Owns base ((a, .scratch cap []) :: ps) h) (hroom : data.length ≤ cap)
    (hQ : ∀ h', Owns base ((a, .scratch cap data) :: ps) h' → h'.next = h.next → Q () w h') :
    Spec (store a data) Q E w h := by
  refine spec_bind (spec_load ho List.mem_cons_self ?_)
  refine spec_bind (spec_expect (x := .scratch cap data) ?_ ?_)
  · simp [Block.overwrite, hroom]
  · exact spec_modifyNext ho hQ

theorem spec_useObject {is : Block → Bool} {b : Block} {Q : Unit → ω → Heap Block → Prop}
    (hb : h.cells a = some b) (his : is b = true) (hQ : Q () w h) :
    Spec (useObject is a) Q E w h := by
  unfold useObject
  refine spec_bind ?_
  unfold Spec load
  simp only [hb]
  exact spec_expect (if_pos his) hQ

theorem spec_freeObject {is : Block → Bool} {b : Block} {Q : Unit → ω → Heap Block → Prop}
    (ho : Owns base ((a, b) :: ps) h) (his : is b = true)
    (hQ : ∀ h', Owns base ps h' → Q () w h') : Spec (freeObject is a) Q E w h :=
  spec_bind (spec_useObject (ho.held _ List.mem_cons_self) his (spec_free ho hQ))

theorem spec_newObject {b : Block} {verdict : ω → Int32} {out : ℕ} {slot : Option Ptr}
    (ho : Owns base ((out, .handle slot) :: ps) h) :
    Spec (newObject b verdict out)
      (fun rc w' h' ↦ w' = w ∧
        ((rc = kGhosttySuccess ∧ verdict w = kGhosttySuccess ∧ ∃ made,
            Owns base ((out, .handle (some (some made))) :: (made, b) :: ps) h') ∨
          rc ≠ kGhosttySuccess ∧ Owns base ((out, .handle slot) :: ps) h' ∧
            (rc = verdict w ∨ ∃ a, base.grants a = false))) E w h := by
  unfold newObject
  refine spec_bind (spec_world ?_)
  by_cases hrc : verdict w = kGhosttySuccess
  · rw [if_pos hrc]
    refine spec_bind (spec_tryMalloc ho (fun made h₁ ho₁ ↦ ?_) fun h₁ hrefused ↦ ?_)
    · rw [if_neg (Option.some_ne_none made)]
      refine spec_bind (spec_modify (ho₁.perm (List.Perm.swap ..)) fun h₂ ho₂ ↦ ?_)
      exact spec_pure ⟨rfl, Or.inl ⟨rfl, hrc, made, ho₂⟩⟩
    · rw [if_pos rfl]
      exact spec_pure ⟨rfl, Or.inr ⟨by decide, hrefused.owns, Or.inr hrefused.refused⟩⟩
  · rw [if_neg hrc]
    exact spec_pure ⟨rfl, Or.inr ⟨hrc, ho, Or.inl rfl⟩⟩

end Rules

section Sizes

variable {n : Int64}

theorem toNat_of_nonneg (hn : 0 ≤ n.toInt) : (n.toUInt64.toNat : ℤ) = n.toInt := by
  have h := Int64.toInt_toBitVec n
  have hnat := BitVec.toInt_eq_toNat_cond n.toBitVec
  rw [h] at hnat
  have hlt : n.toBitVec.toNat < 2 ^ 64 := n.toBitVec.isLt
  have heq : n.toUInt64.toNat = n.toBitVec.toNat := rfl
  rw [heq]
  split at hnat
  · omega
  · omega

theorem toInt_double (h0 : 0 ≤ n.toInt) (hn : n.toInt < 0x4000000000000000) :
    (n * 2).toInt = 2 * n.toInt := by
  rw [Int64.toInt_mul]
  have h2 : (2 : Int64).toInt = 2 := rfl
  rw [h2, Int.bmod_eq_of_le]
  · omega
  · omega
  · omega

end Sizes

end MachineNotebook.Vt.NativeBlocks
