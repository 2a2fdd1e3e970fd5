import MachineNotebook.Dart.ExecCalls
import MachineNotebook.Lib.ForeignCall

namespace MachineNotebook.Dart.Marshal

open MachineNotebook.Lib MachineNotebook.Lib.Utf8 MachineNotebook.Lib.HeapLogic
open MachineNotebook.Lib.HeapLogic.Prog MachineNotebook.Lib.ForeignCall
open Bindings NativeMemory NativeBuffers ExecCalls
open Host.Boot (Process)
open Host.KernelHost Host.Exec
open Vm (AgentOsExecOptions AgentOsExecResult AgentOsExecPollResult FreshExec)

/-- What a method passes to the host library. -/
abbrev Passed (H A : Type) := Argument Block (Process H) mallocFailed A

/-- Where the host library leaves its answer. -/
abbrev Answered (H R α : Type) := Result Block (Process H) mallocFailed Int32 R α

variable {H : Type}

section Passed

def cstring (s : DartString) : Passed H (Option Bytes) where
  Handle := ℕ
  value := some (allocCString s)
  pack := mallocBytes (.bytes (allocCString s))
  read p := derefCString (some p)
  free p := free p
  Packed p blocks := blocks = [(p, .bytes (allocCString s))]
  packs := makes_malloc _
  reads := by
    intro p blocks hblocks base ps w h E ho hsub
    subst hblocks
    refine spec_derefCString ho (Or.inr ⟨p, _, rfl, rfl, hsub List.mem_cons_self⟩) ?_
    intro bytes hbytes
    rw [← Option.some_inj.mp hbytes]
    exact nul_mem_allocCString s
  frees := by
    intro p blocks hblocks
    subst hblocks
    exact frees_free p _

def bytes (data : Bytes) : Passed H (Option Bytes) where
  Handle := Ptr
  value := Bindings.allocBytes data
  pack := allocData data
  read p := derefSlice p data.length
  free := freeNonNull
  Packed p blocks := blocks = dataBlocks p data ∧ (p = none ↔ data = [])
  packs := by
    intro base ps w h ho
    exact spec_allocData ho fun ptr h' ho' hnull ↦ ⟨rfl, _, ⟨rfl, hnull⟩, ho'⟩
  reads := by
    intro p blocks hpacked base ps w h E ho hsub
    obtain ⟨rfl, hnull⟩ := hpacked
    refine spec_derefSlice ho ?_ ?_
    · cases p with
      | none =>
        have hnil : data = [] := hnull.mp rfl
        exact Or.inl ⟨if_pos hnil, rfl⟩
      | some a =>
        have hne : data ≠ [] := fun hnil ↦ Option.some_ne_none a (hnull.mpr hnil)
        exact Or.inr ⟨a, data, if_neg hne, rfl, hsub List.mem_cons_self⟩
    · intro copy hcopy
      obtain ⟨-, hcopy⟩ := Option.ite_none_left_eq_some.mp hcopy
      rw [Option.some_inj.mp hcopy]
  frees := by
    intro p blocks hpacked
    obtain ⟨rfl, -⟩ := hpacked
    intro base ps w h Q E ho hQ
    exact spec_freeNonNull ho hQ

def execOpts (opts : Option AgentOsExecOptions) : Passed H (Option Host.Exec.AosExecOpts) where
  Handle := Option ExecOptsNative
  value := opts.map Vm.packExecOpts
  pack := packExecOpts opts
  read p := derefExecOpts (p.map ExecOptsNative.ptr)
  free := freePacked
  Packed := PackedAs opts
  packs := by
    intro base ps w h ho
    refine (spec_packExecOpts ho).mono ?_ fun _ _ _ hout ↦ hout
    intro p w' h' hpack
    obtain ⟨hw, blocks, ho', hpacked⟩ := hpack
    exact ⟨hw, blocks, hpacked, ho'⟩
  reads p blocks hpacked base ps w h E ho hsub := spec_derefExecOpts ho hpacked hsub
  frees p blocks hpacked base ps w h Q E ho hQ := spec_freePacked ho hpacked hQ

def argv (args : List DartString) : Passed H (List (Option Bytes)) where
  Handle := ArgvNative
  value := Vm.packArgv args
  pack := packArgv args
  read p := derefArgv p.ptr p.argc 0 []
  free := freeArgv
  Packed := ArgvPackedAs args
  packs := by
    intro base ps w h ho
    refine (spec_packArgv ho).mono ?_ fun _ _ _ hout ↦ hout
    intro p w' h' hpack
    obtain ⟨hw, blocks, ho', hpacked⟩ := hpack
    exact ⟨hw, blocks, hpacked, ho'⟩
  reads := by
    intro p blocks hpacked base ps w h E ho hsub
    obtain ⟨slots, new, rfl, -, hargc, hat⟩ := hpacked
    have hslots : (p.ptr, Block.pointers (([] ++ slots).map some)) ∈ ps :=
      hsub List.mem_cons_self
    have hat : ArgvAt ps slots args := hat.imp fun _ _ hl ↦
      hl.mono fun x hx ↦ hsub (List.mem_cons_of_mem _ hx)
    rw [hargc]
    exact spec_derefArgv [] [] ho hslots hat rfl
  frees p blocks hpacked base ps w h Q E ho hQ := spec_freeArgv ho hpacked hQ

end Passed

section Answered

variable {R α : Type}

def slot (blank : Block) (put : R → Block) (get : Block → Option α) (value : R → α)
    (hget : ∀ x, get (put x) = some (value x)) : Answered H R α where
  Handle := ℕ
  status _ := kAosOk
  value := value
  alloc := mallocBytes blank
  store a x := do
    modify a fun _ ↦ put x
    return kAosOk
  read a := do
    let block ← load a
    expect (get block)
  free a := free a
  Held a o blocks := blocks = [(a, (o.map put).getD blank)]
  allocs := makes_malloc _
  stores := by
    intro a x blocks base ps w h E hheld ho
    subst hheld
    refine spec_bind (spec_modify ho fun h' ho' ↦ ?_)
    exact spec_pure ⟨rfl, rfl, _, rfl, ho'⟩
  reads := by
    intro a x blocks hheld base ps w h E ho hsub
    subst hheld
    refine spec_bind (spec_load ho (hsub List.mem_cons_self) ?_)
    exact spec_expect (hget x) ⟨rfl, rfl, rfl⟩
  frees := by
    intro a o blocks hheld
    subst hheld
    exact frees_free a _

def int32 : Answered H Int32 Int32 :=
  slot (.int32 none) (fun n ↦ .int32 (some n)) Block.asInt32 id fun _ ↦ rfl

def int64 : Answered H Int64 Int64 :=
  slot (.int64 none) (fun n ↦ .int64 (some n)) Block.asInt64 id fun _ ↦ rfl

def stat : Answered H Host.Files.AosStat Host.Files.AosStat :=
  slot (.stat none) (fun st ↦ .stat (some st)) Block.asStat id fun _ ↦ rfl

def vmStatus : Answered H Host.Tty.AosVmStatus Host.Tty.AosVmStatus :=
  slot (.vmStatus none) (fun st ↦ .vmStatus (some st)) Block.asVmStatus id fun _ ↦ rfl

def BufIs (capacity : Int64) (fresh : Fresh) (src : Option Bytes) (b : Host.Buf.AosBuf) : Prop :=
  match src with
  | none => b = Bindings.allocAosBuf capacity fresh
  | some src => (Host.Buf.fillBuf (some (Bindings.allocAosBuf capacity fresh)) src).2 = some b

def readFilled (capacity : Int64) (fresh : Fresh) (src : Bytes) : Bytes :=
  Vm.readBuf (Host.Buf.fillBuf (some (Bindings.allocAosBuf capacity fresh)) src).2

theorem BufIs.read {capacity : Int64} {fresh : Fresh} {src : Bytes} {b : Host.Buf.AosBuf}
    (hb : BufIs capacity fresh (some src) b) :
    Bindings.copyFromAosBuf b = readFilled capacity fresh src := by
  have hb : (Host.Buf.fillBuf (some (Bindings.allocAosBuf capacity fresh)) src).2 = some b := hb
  simp only [readFilled, Vm.readBuf, hb, Option.map_some, Option.getD_some]

theorem makes_buf (capacity : Int64) (fresh : Fresh) :
    Makes (ω := Process H) mallocFailed (NativeBuffers.allocAosBuf capacity fresh)
      fun p blocks ↦ ∃ r b, BufIs capacity fresh none b ∧ blocks = bufBlocks p r b :=
  fun _ _ _ _ ho ↦ spec_allocAosBuf ho fun _ r _ ho' ↦ ⟨rfl, _, ⟨r, _, rfl, rfl⟩, ho'⟩

theorem fetches_buf (p r : ℕ) (b : Host.Buf.AosBuf) :
    Fetches (ω := Process H) (ε := DartString) (bufBlocks p r b) (NativeBuffers.copyFromAosBuf p)
      (Bindings.copyFromAosBuf b) :=
  fun _ _ _ _ _ ho hsub ↦ spec_copyFromAosBuf ho hsub

theorem frees_buf (p r : ℕ) (b : Host.Buf.AosBuf) :
    Frees (ω := Process H) (ε := DartString) (bufBlocks p r b) (freeAosBuf p) :=
  fun _ _ _ _ _ _ ho hQ ↦ spec_freeAosBuf ho hQ

/-- A buffer that the library fills, with the status of `fill_buf`. -/
def buf (capacity : Int64) (fresh : Fresh) : Answered H Bytes Bytes where
  Handle := ℕ
  status src := (Host.Buf.fillBuf (some (Bindings.allocAosBuf capacity fresh)) src).1
  value := readFilled capacity fresh
  alloc := NativeBuffers.allocAosBuf capacity fresh
  store p src := NativeBuffers.fillBuf (some p) src
  read := NativeBuffers.copyFromAosBuf
  free := freeAosBuf
  Held p src blocks := ∃ r b, BufIs capacity fresh src b ∧ blocks = bufBlocks p r b
  allocs := makes_buf capacity fresh
  stores := by
    intro p src blocks base ps w h E hheld ho
    obtain ⟨r, b, rfl, rfl⟩ := hheld
    refine spec_fillBuf ho fun rc b' h' hfill ho' ↦ ?_
    exact ⟨(congrArg Prod.fst hfill).symm, rfl, _, ⟨r, b', congrArg Prod.snd hfill, rfl⟩, ho'⟩
  reads := by
    intro p src blocks hheld
    obtain ⟨r, b, hb, rfl⟩ := hheld
    rw [← hb.read]
    exact fetches_buf p r b
  frees := by
    intro p src blocks hheld
    obtain ⟨r, b, -, rfl⟩ := hheld
    exact frees_buf p r b

/-- A buffer that is left empty where there is nothing to fetch. -/
def fetchBuf (capacity : Int64) (fresh : Fresh) : Answered H (Option Bytes) Bytes where
  Handle := ℕ
  status src := ((src.map (buf (H := H) capacity fresh).status).getD kAosOk)
  value src := (src.map (readFilled capacity fresh)).getD []
  alloc := NativeBuffers.allocAosBuf capacity fresh
  store p src :=
    match src with
    | none => do
      modify p (Block.setLen 0)
      return kAosOk
    | some src => NativeBuffers.fillBuf (some p) src
  read := NativeBuffers.copyFromAosBuf
  free := freeAosBuf
  Held p src blocks := (buf (H := H) capacity fresh).Held p src.join blocks
  allocs := makes_buf capacity fresh
  stores := by
    intro p src blocks base ps w h E hheld ho
    cases src with
    | none =>
      obtain ⟨r, b, rfl, rfl⟩ := hheld
      refine spec_bind (spec_modify ho fun h' ho' ↦ ?_)
      exact spec_pure ⟨rfl, rfl, _, ⟨r, _, rfl, rfl⟩, ho'⟩
    | some src => exact (buf capacity fresh).stores p src blocks base ps w h E hheld ho
  reads := by
    intro p src blocks hheld
    cases src with
    | none =>
      obtain ⟨r, b, rfl, rfl⟩ := hheld
      have hempty : Bindings.copyFromAosBuf (Bindings.allocAosBuf capacity fresh) = [] := by
        unfold Bindings.copyFromAosBuf Bindings.allocAosBuf
        by_cases hcap : 0 < capacity
        · simp [hcap]
        · simp [hcap]
      have hread := fetches_buf (H := H) p r (Bindings.allocAosBuf capacity fresh)
      rw [hempty] at hread
      exact hread
    | some src => exact (buf capacity fresh).reads p src blocks hheld
  frees p src blocks hheld := (buf capacity fresh).frees p src.join blocks hheld

/-- `aos_vm_snapshot_into` fills the buffer itself, and wants a region even for no bytes. -/
def snapshotInto (out : ℕ) (src : Bytes) : Native H Int32 := do
  modify out (Block.setLen src.length)
  let block ← load out
  let (ptr, cap, _) ← expect block.asBuf
  match ptr with
  | none => pure (-1)
  | some a =>
    if cap < src.length then pure (-1)
    else do
      writeFront a src
      return 0

def plainInto (b : Host.Buf.AosBuf) (src : Bytes) : Int32 × Host.Buf.AosBuf :=
  let b := { b with len := src.length }
  if hroom : b.cap < src.length ∨ b.ptr = none then (-1, b)
  else (0, b.write src (Nat.le_of_not_lt fun hlt ↦ hroom (Or.inl hlt)))

theorem spec_snapshotInto {src : Bytes} {base h : Heap Block} {ps : List (ℕ × Block)}
    {w : Process H} {p r : ℕ} {b : Host.Buf.AosBuf} {Q : Int32 → Process H → Heap Block → Prop}
    {E : DartString → Process H → Heap Block → Prop} (ho : Owns base (bufBlocks p r b ++ ps) h)
    (hQ : ∀ h', Owns base (bufBlocks p r (plainInto b src).2 ++ ps) h' →
      Q (plainInto b src).1 w h') : Spec (snapshotInto p src) Q E w h := by
  let b₁ : Host.Buf.AosBuf := { b with len := src.length }
  unfold snapshotInto
  refine spec_bind (spec_modify ho fun h₁ ho₁ ↦ ?_)
  have ho₁ : Owns base (bufBlocks p r b₁ ++ ps) h₁ := ho₁
  refine spec_bind (spec_load ho₁ List.mem_cons_self (spec_bind (spec_expect rfl ?_)))
  cases hptr : b.ptr with
  | none =>
    have hinto : plainInto b src = (-1, b₁) := dif_pos (Or.inr hptr)
    rw [hinto] at hQ
    exact spec_pure (hQ h₁ ho₁)
  | some bytes =>
    simp only [b₁, Option.map_some]
    by_cases hfull : b.cap < src.length
    · have hinto : plainInto b src = (-1, b₁) := dif_pos (Or.inl hfull)
      rw [hinto] at hQ
      rw [if_pos hfull]
      exact spec_pure (hQ h₁ ho₁)
    · have hroom : src.length ≤ b₁.cap := Nat.le_of_not_lt hfull
      have hinto : plainInto b src = (0, b₁.write src hroom) := dif_neg (by simp [hptr, hfull])
      have hlen := b.region bytes (by simp [hptr])
      rw [hinto] at hQ
      rw [if_neg hfull]
      simp only [bufBlocks, b₁, hptr] at ho₁
      refine spec_bind (spec_writeFront (ho₁.perm (List.Perm.swap ..)) (by omega) fun h₂ ho₂ ↦ ?_)
      refine spec_pure (hQ h₂ ?_)
      simp only [bufBlocks, Host.Buf.AosBuf.write, b₁, hptr]
      exact ho₂.perm (List.Perm.swap ..)

def wholeBuf (capacity : Int64) (fresh : Fresh) : Answered H Bytes Bytes where
  Handle := ℕ
  status src := (plainInto (Bindings.allocAosBuf capacity fresh) src).1
  value src := Bindings.copyFromAosBuf (plainInto (Bindings.allocAosBuf capacity fresh) src).2
  alloc := NativeBuffers.allocAosBuf capacity fresh
  store := snapshotInto
  read := NativeBuffers.copyFromAosBuf
  free := freeAosBuf
  Held p src blocks := ∃ r, blocks = bufBlocks p r
    ((src.map fun src ↦ (plainInto (Bindings.allocAosBuf capacity fresh) src).2).getD
      (Bindings.allocAosBuf capacity fresh))
  allocs _ _ _ _ ho := spec_allocAosBuf ho fun _ r _ ho' ↦ ⟨rfl, _, ⟨r, rfl⟩, ho'⟩
  stores := by
    intro p src blocks base ps w h E hheld ho
    obtain ⟨r, rfl⟩ := hheld
    exact spec_snapshotInto ho fun h' ho' ↦ ⟨rfl, rfl, _, ⟨r, rfl⟩, ho'⟩
  reads := by
    intro p src blocks hheld
    obtain ⟨r, rfl⟩ := hheld
    exact fetches_buf p r _
  frees := by
    intro p src blocks hheld
    obtain ⟨r, rfl⟩ := hheld
    exact frees_buf p r _

end Answered

section Regions

def region (capacity : Int64) (fresh : Fresh) : Bytes :=
  (List.range capacity.toUInt64.toNat).map fresh

theorem length_region (capacity : Int64) (fresh : Fresh) :
    (region capacity fresh).length = capacity.toUInt64.toNat := by
  rw [region, List.length_map, List.length_range]

def written (old src : Bytes) : Bytes := src ++ old.drop src.length

def copyOut (src : Bytes) (buf cap len : ℕ) : Native H Unit := do
  let n := min src.length cap
  modify len (Block.setSize 0 n)
  if 0 < n then writeFront buf (src.take n) else pure ()

/-- `asTypedList`, copied, unless there is nothing to copy. -/
def readRegion (buf n : ℕ) : Native H Bytes :=
  if n = 0 then pure [] else copyFromAosBuf.readFront buf n

variable {base h : Heap Block} {ps ys : List (ℕ × Block)} {w : Process H}
  {E : DartString → Process H → Heap Block → Prop}

theorem spec_modifyAt (xs : List (ℕ × Block)) {a : ℕ} {b : Block} {f : Block → Block}
    {Q : Unit → Process H → Heap Block → Prop} (ho : Owns base (xs ++ (a, b) :: ys) h)
    (hQ : ∀ h', Owns base (xs ++ (a, f b) :: ys) h' → Q () w h') : Spec (modify a f) Q E w h :=
  spec_modify (ho.perm List.perm_middle) fun h' ho' ↦ hQ h' (ho'.perm List.perm_middle.symm)

theorem spec_writeAt (xs : List (ℕ × Block)) {a : ℕ} {old src : Bytes}
    {Q : Unit → Process H → Heap Block → Prop}
    (ho : Owns base (xs ++ (a, .bytes old) :: ys) h) (hroom : src.length ≤ old.length)
    (hQ : ∀ h', Owns base (xs ++ (a, .bytes (written old src)) :: ys) h' → Q () w h') :
    Spec (writeFront a src) Q E w h :=
  spec_writeFront (ho.perm List.perm_middle) hroom fun h' ho' ↦
    hQ h' (ho'.perm List.perm_middle.symm)

theorem spec_readRegion {a n : ℕ} {old src : Bytes} {Q : Bytes → Process H → Heap Block → Prop}
    (ho : Owns base ps h) (hmem : (a, .bytes (written old src)) ∈ ps) (hn : n ≤ src.length)
    (hQ : Q (src.take n) w h) : Spec (readRegion a n) Q E w h := by
  unfold readRegion
  by_cases hempty : n = 0
  · rw [if_pos hempty]
    rw [hempty, List.take_zero] at hQ
    exact spec_pure hQ
  · rw [if_neg hempty]
    unfold copyFromAosBuf.readFront
    refine spec_bind (spec_load ho hmem (spec_bind (spec_expect rfl ?_)))
    have hlong : n ≤ (written old src).length := by
      rw [written, List.length_append]
      exact Nat.le_add_right_of_le hn
    rw [if_neg (Nat.not_lt.mpr hlong)]
    refine spec_pure ?_
    rwa [written, List.take_append_of_le_length hn]

theorem spec_copyOut {buf len cap : ℕ} {old src : Bytes} {slot : Option ℕ}
    {Q : Unit → Process H → Heap Block → Prop}
    (ho : Owns base ((len, .sizes [slot]) :: (buf, .bytes old) :: ps) h) (hcap : old.length = cap)
    (hQ : ∀ h', Owns base ((len, .sizes [some (src.take cap).length]) ::
      (buf, .bytes (written old (src.take cap))) :: ps) h' → Q () w h') :
    Spec (copyOut src buf cap len) Q E w h := by
  have htake : src.take (min src.length cap) = src.take cap := by
    rw [Nat.min_comm, ← List.take_eq_take_min]
  unfold copyOut
  refine spec_bind (spec_modify ho fun h₁ ho₁ ↦ ?_)
  have ho₁ : Owns base ((len, .sizes [some (min src.length cap)]) :: (buf, .bytes old) :: ps) h₁ :=
    ho₁
  rw [List.length_take, Nat.min_comm] at hQ
  by_cases hn : 0 < min src.length cap
  · rw [if_pos hn, htake]
    have hroom : (src.take cap).length ≤ old.length := by
      rw [hcap]
      exact List.length_take_le ..
    exact spec_writeAt [(len, .sizes [some (min src.length cap)])] ho₁ hroom hQ
  · rw [if_neg hn]
    have hnil : src.take cap = [] := by
      rw [← List.length_eq_zero_iff, List.length_take]
      omega
    refine spec_pure (hQ h₁ ?_)
    rw [hnil]
    exact ho₁

structure CommandBufs where
  stdoutBuf : ℕ
  stderrBuf : ℕ
  stdoutLen : ℕ
  stderrLen : ℕ
  outExit : ℕ

/-- A region with the bytes that found room in it. -/
def captured (capacity : Int64) (fresh : Fresh) (src : Option Bytes) : Bytes :=
  match src with
  | none => region capacity fresh
  | some src => written (region capacity fresh) (src.take capacity.toUInt64.toNat)

variable (stdoutCap stderrCap : Int64) (fresh : FreshExec)

def CommandBufs.blocks (s : CommandBufs) (r : Option ExecResult) : List (ℕ × Block) :=
  [(s.stdoutBuf, .bytes (captured stdoutCap fresh.stdoutB (r.map ExecResult.stdout))),
    (s.stderrBuf, .bytes (captured stderrCap fresh.stderrB (r.map ExecResult.stderr))),
    (s.stdoutLen, .sizes [r.map fun r ↦ (r.stdout.take stdoutCap.toUInt64.toNat).length]),
    (s.stderrLen, .sizes [r.map fun r ↦ (r.stderr.take stderrCap.toUInt64.toNat).length]),
    (s.outExit, .int32 (r.map ExecResult.exitCode))]

def CommandBufs.alloc : Native H CommandBufs := do
  let stdoutBuf ← mallocBytes (.bytes (region stdoutCap fresh.stdoutB))
  let stderrBuf ← mallocBytes (.bytes (region stderrCap fresh.stderrB))
  let stdoutLen ← mallocBytes (.sizes [none])
  let stderrLen ← mallocBytes (.sizes [none])
  let outExit ← mallocBytes (.int32 none)
  return ⟨stdoutBuf, stderrBuf, stdoutLen, stderrLen, outExit⟩

def CommandBufs.store (s : CommandBufs) (r : ExecResult) : Native H Int32 := do
  copyOut r.stdout s.stdoutBuf stdoutCap.toUInt64.toNat s.stdoutLen
  copyOut r.stderr s.stderrBuf stderrCap.toUInt64.toNat s.stderrLen
  modify s.outExit fun _ ↦ .int32 (some r.exitCode)
  return kAosOk

def CommandBufs.read (s : CommandBufs) : Native H AgentOsExecResult := do
  let so ← (load s.stdoutLen >>= fun block ↦ expect (block.sizeAt 0))
  let se ← (load s.stderrLen >>= fun block ↦ expect (block.sizeAt 0))
  let exitCode ← (load s.outExit >>= fun block ↦ expect block.asInt32)
  let stdout ← readRegion s.stdoutBuf so
  let stderr ← readRegion s.stderrBuf se
  return { exitCode, stdout, stderr }

def CommandBufs.free (s : CommandBufs) : Native H Unit :=
  freeAll [s.stdoutBuf, s.stderrBuf, s.stdoutLen, s.stderrLen, s.outExit]

theorem perm_front (a b c d e : ℕ × Block) (ps : List (ℕ × Block)) :
    (a :: b :: c :: d :: e :: ps).Perm (c :: a :: b :: d :: e :: ps) := by
  classical
  refine List.perm_iff_count.mpr fun x ↦ ?_
  simp only [List.count_cons]
  omega

theorem perm_next (a b c d e : ℕ × Block) (ps : List (ℕ × Block)) :
    (a :: b :: c :: d :: e :: ps).Perm (d :: b :: a :: c :: e :: ps) := by
  classical
  refine List.perm_iff_count.mpr fun x ↦ ?_
  simp only [List.count_cons]
  omega

/-- The regions that `exec` makes for the output of its command, of which the library fills as
much as there is room for. -/
def command : Answered H ExecResult AgentOsExecResult where
  Handle := CommandBufs
  status _ := kAosOk
  value r :=
    { exitCode := r.exitCode
      stdout := r.stdout.take stdoutCap.toUInt64.toNat
      stderr := r.stderr.take stderrCap.toUInt64.toNat }
  alloc := CommandBufs.alloc stdoutCap stderrCap fresh
  store := CommandBufs.store stdoutCap stderrCap
  read := CommandBufs.read
  free := CommandBufs.free
  Held s r blocks := blocks = s.blocks stdoutCap stderrCap fresh r
  allocs := by
    intro base ps w h ho
    unfold CommandBufs.alloc
    refine spec_bind (spec_mallocBytes ho fun stdoutBuf h₁ ho₁ ↦ ?_)
    refine spec_bind (spec_mallocBytes ho₁ fun stderrBuf h₂ ho₂ ↦ ?_)
    refine spec_bind (spec_mallocBytes ho₂ fun stdoutLen h₃ ho₃ ↦ ?_)
    refine spec_bind (spec_mallocBytes ho₃ fun stderrLen h₄ ho₄ ↦ ?_)
    refine spec_bind (spec_mallocBytes ho₄ fun outExit h₅ ho₅ ↦ ?_)
    let s : CommandBufs := ⟨stdoutBuf, stderrBuf, stdoutLen, stderrLen, outExit⟩
    have hperm := (List.reverse_perm (s.blocks stdoutCap stderrCap fresh none)).append_right ps
    exact spec_pure ⟨rfl, _, rfl, ho₅.perm hperm⟩
  stores := by
    intro s r blocks base ps w h E hheld ho
    subst hheld
    unfold CommandBufs.store
    refine spec_bind (spec_copyOut (ho.perm (perm_front ..)) (length_region ..) fun h₁ ho₁ ↦ ?_)
    refine spec_bind (spec_copyOut ((ho₁.perm (perm_front ..).symm).perm (perm_next ..))
      (length_region ..) fun h₂ ho₂ ↦ ?_)
    have ho₂ := ho₂.perm (perm_next ..).symm
    refine spec_bind (spec_modifyAt ((s.blocks stdoutCap stderrCap fresh (some r)).take 4) ho₂
      fun h₃ ho₃ ↦ ?_)
    exact spec_pure ⟨rfl, rfl, _, rfl, ho₃⟩
  reads := by
    intro s r blocks hheld base ps w h E ho hsub
    subst hheld
    have hmem {p : ℕ × Block} (i : ℕ)
        (hp : (s.blocks stdoutCap stderrCap fresh (some r))[i]? = some p) : p ∈ ps :=
      hsub (List.mem_of_getElem? hp)
    unfold CommandBufs.read
    refine spec_bind (spec_bind (spec_load ho (hmem 2 rfl) (spec_expect rfl ?_)))
    refine spec_bind (spec_bind (spec_load ho (hmem 3 rfl) (spec_expect rfl ?_)))
    refine spec_bind (spec_bind (spec_load ho (hmem 4 rfl) (spec_expect rfl ?_)))
    refine spec_bind (spec_readRegion ho (hmem 0 rfl) le_rfl ?_)
    refine spec_bind (spec_readRegion ho (hmem 1 rfl) le_rfl ?_)
    refine spec_pure ⟨?_, rfl, rfl⟩
    rw [List.take_length, List.take_length]
  frees := by
    intro s r blocks hheld base ps w h Q E ho hQ
    subst hheld
    exact spec_freeAll ho (List.Perm.refl _) hQ

end Regions

end MachineNotebook.Dart.Marshal
