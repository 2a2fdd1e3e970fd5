import MachineNotebook.Dart.Bindings
import MachineNotebook.Host.Files
import MachineNotebook.Host.Tty
import MachineNotebook.Lib.HeapLogic
import MachineNotebook.Lib.Utf16

namespace MachineNotebook.Dart.NativeMemory

open MachineNotebook.Lib MachineNotebook.Lib.Utf8 MachineNotebook.Lib.HeapLogic
open MachineNotebook.Lib.HeapLogic.Prog Bindings Host.Boot

structure AosBootOpts where
  baseImage : Ptr := none
  baseImageLen : ℕ := 0
  layers : Ptr := none
  layerLens : Ptr := none
  layerCount : ℕ := 0
  deterministic : Int32 := 0
  hasContract : Int32 := 0
  contractTier : Int32 := 0
  contractBudgetMib : Int32 := 0
  contractFuel : Int64 := 0
  workers : UInt32 := 0
  net : Int32 := 0
  hostCall : Int32 := 0
  hostCallSidecarOnly : Int32 := 0
  persist : Int32 := 0
  toolApproval : Int32 := 0
  connectionsBlob : Ptr := none
  connectionsLen : ℕ := 0
  connectionPoliciesBlob : Ptr := none
  connectionPoliciesLen : ℕ := 0

structure AosExecOpts where
  cwd : Ptr := none
  envBlob : Ptr := none
  envBlobLen : ℕ := 0
  stdinData : Ptr := none
  stdinLen : ℕ := 0
  maxTicks : UInt64 := 0

/-- What a block of native memory is used as. A slot that nothing was written to holds `none`. -/
inductive Block
  | bytes (data : Bytes)
  | pointers (slots : List (Option Ptr))
  | sizes (slots : List (Option ℕ))
  | bootOpts (o : AosBootOpts)
  | execOpts (o : AosExecOpts)
  | uint64 (slot : Option UInt64)
  | int32 (slot : Option Int32)
  | int64 (slot : Option Int64)
  | stat (slot : Option Host.Files.AosStat)
  | vmStatus (slot : Option Host.Tty.AosVmStatus)
  /-- An `aos_buf_t`. -/
  | buf (ptr : Ptr) (cap len : ℕ)
  /-- An `aos_bytes_t`. -/
  | ownedBytes (ptr : Ptr) (len : ℕ)

namespace Block

def asBytes : Block → Option Bytes
  | bytes data => some data
  | _ => none

def asBootOpts : Block → Option AosBootOpts
  | bootOpts o => some o
  | _ => none

def asUint64 : Block → Option UInt64
  | uint64 slot => slot
  | _ => none

def asExecOpts : Block → Option AosExecOpts
  | execOpts o => some o
  | _ => none

def asInt32 : Block → Option Int32
  | int32 slot => slot
  | _ => none

def asInt64 : Block → Option Int64
  | int64 slot => slot
  | _ => none

def asStat : Block → Option Host.Files.AosStat
  | stat slot => slot
  | _ => none

def asVmStatus : Block → Option Host.Tty.AosVmStatus
  | vmStatus slot => slot
  | _ => none

def asBuf : Block → Option (Ptr × ℕ × ℕ)
  | buf ptr cap len => some (ptr, cap, len)
  | _ => none

def asOwnedBytes : Block → Option (Ptr × ℕ)
  | ownedBytes ptr len => some (ptr, len)
  | _ => none

def pointerAt (i : ℕ) : Block → Option Ptr
  | pointers slots => (slots[i]?).join
  | _ => none

def sizeAt (i : ℕ) : Block → Option ℕ
  | sizes slots => (slots[i]?).join
  | _ => none

def setPointer (i : ℕ) (p : Ptr) : Block → Block
  | pointers slots => pointers (slots.set i (some p))
  | b => b

def setSize (i n : ℕ) : Block → Block
  | sizes slots => sizes (slots.set i (some n))
  | b => b

def setLen (n : ℕ) : Block → Block
  | buf ptr cap _ => buf ptr cap n
  | b => b

def mapExecOpts (f : AosExecOpts → AosExecOpts) : Block → Block
  | execOpts o => execOpts (f o)
  | b => b

def mapBootOpts (f : AosBootOpts → AosBootOpts) : Block → Block
  | bootOpts o => bootOpts (f o)
  | b => b

end Block

variable {H : Type}

/-- A call of Dart and what it calls in the host library. A `StateError` carries its text. -/
abbrev Native (H : Type) := Prog Block (Process H) DartString

def mallocFailed : DartString := Utf16.encode "malloc failed"

def mallocBytes (b : Block) : Native H ℕ := malloc mallocFailed b

def allocData (data : Bytes) : Native H Ptr :=
  if data = [] then pure none
  else do
    let a ← mallocBytes (.bytes data)
    return some a

def freeNonNull (p : Ptr) : Native H Unit :=
  match p with
  | none => pure ()
  | some a => free a

def readCString (a : ℕ) : Native H Bytes := do
  let block ← load a
  expect (block.asBytes.bind fun data ↦ if 0 ∈ data then some data else none)

def readSlice (a len : ℕ) : Native H Bytes := do
  let block ← load a
  expect (block.asBytes.bind fun data ↦ if len ≤ data.length then some (data.take len) else none)

def clearError : Native H Unit := world fun p ↦ ((), { p with lastError := "" })

def setError (msg : String) : Native H Unit := world fun p ↦ ((), { p with lastError := msg })

def readError : Native H DartString := world fun p ↦ (errorMessage p.lastError, p)

def refuseCall (msg : String) : Native H Int32 := do
  setError msg
  return -1

def throwStateError {α : Type} (op : String) : Native H α := do
  let msg ← readError
  throw (Utf16.encode (op ++ " failed: ") ++ msg)

def checkRc (rc : Int32) (op : String) : Native H Unit :=
  if rc ≠ kAosOk then throwStateError op else pure ()

/-- A blob lies where a pointer and a length say, or there is none. -/
def BlobAt (ps : List (ℕ × Block)) (blob : Option Bytes) (ptr : Ptr) (len : ℕ) : Prop :=
  (blob.getD [] = [] ∧ ptr = none ∧ len = 0) ∨
    ∃ a data, blob = some data ∧ data ≠ [] ∧ ptr = some a ∧ len = data.length ∧
      (a, .bytes data) ∈ ps

/-- Memory ran out, with nothing done to the world or to what was there before. -/
def OutOfMemory (base : Heap Block) (w : Process H) (e : DartString) (w' : Process H)
    (h : Heap Block) : Prop :=
  e = mallocFailed ∧ w' = w ∧ ∃ ps, Refused base ps h

/-- A reader that changes nothing returns this. -/
def Reads {α : Type} (w : Process H) (h : Heap Block) (x : α) (r : α) (w' : Process H)
    (h' : Heap Block) : Prop :=
  r = x ∧ w' = w ∧ h' = h

def dataBlocks (ptr : Ptr) (data : Bytes) : List (ℕ × Block) :=
  (ptr.map fun a ↦ (a, Block.bytes data)).toList

/-- A call comes to what `plain` says and leaves memory as it was, unless memory runs out. -/
def Refines {α : Type} (call : Native H α)
    (plain : Process H → Except DartString α × Process H) : Prop :=
  ∀ p h, Spec call (fun a p' h' ↦ Owns h [] h' ∧ plain p = (.ok a, p'))
    (fun e p' h' ↦ (Owns h [] h' ∧ plain p = (.error e, p')) ∨ OutOfMemory h p e p' h') p h

section Rules

variable {base h : Heap Block} {ps : List (ℕ × Block)} {w : Process H} {a : ℕ} {data : Bytes}

theorem BlobAt.mono {blob : Option Bytes} {ptr : Ptr} {len : ℕ} {qs : List (ℕ × Block)}
    (hb : BlobAt ps blob ptr len) (hsub : ps ⊆ qs) : BlobAt qs blob ptr len :=
  hb.imp_right fun ⟨a, data, hblob, hne, hptr, hlen, hmem⟩ ↦
    ⟨a, data, hblob, hne, hptr, hlen, hsub hmem⟩

theorem spec_mallocBytes {b : Block} {Q : ℕ → Process H → Heap Block → Prop}
    (ho : Owns base ps h) (hQ : ∀ a h', Owns base ((a, b) :: ps) h' → Q a w h') :
    Spec (mallocBytes b) Q (OutOfMemory base w) w h :=
  spec_malloc ho hQ fun _ hrefused ↦ ⟨rfl, rfl, ps, hrefused⟩

theorem spec_prepare {α γ : Type} {step : Native H α} {f : α → Native H γ}
    {Q : γ → Process H → Heap Block → Prop} {E : DartString → Process H → Heap Block → Prop}
    (hstep : Spec step
      (fun a w' h' ↦ Spec (f a) Q (fun e w' h' ↦ E e w' h' ∨ OutOfMemory base w e w' h') w' h')
      (OutOfMemory base w) w h) :
    Spec (step >>= f) Q (fun e w' h' ↦ E e w' h' ∨ OutOfMemory base w e w' h') w h :=
  spec_bind (hstep.mono (fun _ _ _ hnext ↦ hnext) fun _ _ _ he ↦ Or.inr he)

theorem spec_readSlice {Q : Bytes → Process H → Heap Block → Prop}
    {E : DartString → Process H → Heap Block → Prop} {len : ℕ} (ho : Owns base ps h)
    (hmem : (a, .bytes data) ∈ ps) (hlen : len = data.length) (hQ : Q data w h) :
    Spec (readSlice a len) Q E w h := by
  exact spec_bind (spec_load ho hmem (spec_expect (by simp [Block.asBytes, hlen]) hQ))

theorem spec_allocDataOr {Q : Ptr → Process H → Heap Block → Prop}
    {E : DartString → Process H → Heap Block → Prop} (ho : Owns base ps h)
    (hQ : ∀ ptr h', Owns base (dataBlocks ptr data ++ ps) h' → (ptr = none ↔ data = []) →
      Q ptr w h')
    (hE : ∀ h', Refused base ps h' → E mallocFailed w h') : Spec (allocData data) Q E w h := by
  unfold allocData
  by_cases hne : data = []
  · rw [if_pos hne]
    exact spec_pure (hQ none h ho (iff_of_true rfl hne))
  · rw [if_neg hne]
    refine spec_bind (spec_malloc ho (fun a h' ho' ↦ ?_) hE)
    exact spec_pure (hQ (some a) h' ho' (iff_of_false (Option.some_ne_none a) hne))

theorem spec_allocData {Q : Ptr → Process H → Heap Block → Prop} (ho : Owns base ps h)
    (hQ : ∀ ptr h', Owns base (dataBlocks ptr data ++ ps) h' → (ptr = none ↔ data = []) →
      Q ptr w h') :
    Spec (allocData data) Q (OutOfMemory base w) w h :=
  spec_allocDataOr ho hQ fun _ hrefused ↦ ⟨rfl, rfl, ps, hrefused⟩

theorem spec_freeNonNull {ptr : Ptr} {Q : Unit → Process H → Heap Block → Prop}
    {E : DartString → Process H → Heap Block → Prop}
    (ho : Owns base (dataBlocks ptr data ++ ps) h) (hQ : ∀ h', Owns base ps h' → Q () w h') :
    Spec (freeNonNull ptr) Q E w h := by
  cases ptr with
  | none => exact spec_pure (hQ h ho)
  | some a => exact spec_free ho hQ

theorem spec_checkRc {rc : Int32} {op : String} {Q : Unit → Process H → Heap Block → Prop}
    {E : DartString → Process H → Heap Block → Prop} (hok : rc = kAosOk → Q () w h)
    (hfail : rc ≠ kAosOk → E (Utf16.encode (op ++ " failed: ") ++ errorMessage w.lastError) w h) :
    Spec (checkRc rc op) Q E w h := by
  unfold checkRc
  by_cases hrc : rc = kAosOk
  · rw [if_neg (not_not.mpr hrc)]
    exact spec_pure (hok hrc)
  · rw [if_pos hrc]
    unfold throwStateError readError
    exact spec_bind (spec_world (spec_throw (hfail hrc)))

/-- A `finally` that frees what the `try` was left with, on either way out of it. -/
theorem spec_finally {α : Type} {body : Native H α} {clean : Native H Unit}
    {Good : α → Process H → Prop} {Bad : DartString → Process H → Prop} (Held : Heap Block → Prop)
    (hbody : Spec body (fun a w' h' ↦ Good a w' ∧ Held h') (fun e w' h' ↦ Bad e w' ∧ Held h') w h)
    (hclean : ∀ w' h', Held h' →
      Spec clean (fun _ w'' h'' ↦ w'' = w' ∧ Owns base [] h'') (fun _ _ _ ↦ False) w' h') :
    Spec (ensure body clean) (fun a w' h' ↦ Owns base [] h' ∧ Good a w')
      (fun e w' h' ↦ Owns base [] h' ∧ Bad e w') w h := by
  refine spec_ensure (hbody.mono ?_ ?_)
  · intro a w' h' hend
    refine (hclean w' h' hend.2).mono ?_ fun _ _ _ hfalse ↦ hfalse.elim
    intro _ w'' h'' hfreed
    exact ⟨hfreed.2, hfreed.1 ▸ hend.1⟩
  · intro e w' h' hend
    refine (hclean w' h' hend.2).mono ?_ fun _ _ _ hfalse ↦ hfalse.elim
    intro _ w'' h'' hfreed
    exact ⟨hfreed.2, hfreed.1 ▸ hend.1⟩

theorem spec_tryFinally {α : Type} {body : Native H α} {clean : Native H Unit}
    {r : Except DartString α × Process H} {p : Process H} (Held : Heap Block → Prop)
    (hbody : Spec body (fun a w' h' ↦ r = (.ok a, w') ∧ Held h')
      (fun e w' h' ↦ r = (.error e, w') ∧ Held h') w h)
    (hclean : ∀ w' h', Held h' →
      Spec clean (fun _ w'' h'' ↦ w'' = w' ∧ Owns base [] h'') (fun _ _ _ ↦ False) w' h') :
    Spec (ensure body clean) (fun a w' h' ↦ Owns base [] h' ∧ r = (.ok a, w'))
      (fun e w' h' ↦ (Owns base [] h' ∧ r = (.error e, w')) ∨ OutOfMemory base p e w' h') w h :=
  (spec_finally Held hbody hclean).mono (fun _ _ _ hend ↦ hend) fun _ _ _ hend ↦ Or.inl hend

end Rules

end MachineNotebook.Dart.NativeMemory
