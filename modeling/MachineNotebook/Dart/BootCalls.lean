import MachineNotebook.Dart.BootOptions

namespace MachineNotebook.Dart.BootCalls

open MachineNotebook.Lib MachineNotebook.Lib.Utf8 MachineNotebook.Lib.HeapLogic
open MachineNotebook.Lib.HeapLogic.Prog Bindings NativeMemory BootOptions Host.Boot

variable {R Err H : Type} (lib : BootLib R Err H)

section Host

def answerVm (outVm : ℕ) (r : Except String UInt64) : Native H Int32 :=
  match r with
  | .ok id => do
    modify outVm fun _ ↦ .uint64 (some id)
    return 0
  | .error e => refuseCall e

def aosVmBoot (kernel : Ptr) (kernelLen : ℕ) (image : Ptr) (imageLen : ℕ) (outVm : Ptr) :
    Native H Int32 := do
  clearError
  match kernel, outVm with
  | some kernel, some outVm =>
    if kernelLen = 0 then refuseCall "aos_vm_boot: null or empty kernel"
    else if 0 < imageLen ∧ image = none then
      refuseCall "aos_vm_boot: image_len > 0 but image is null"
    else do
      let wasm ← readSlice kernel kernelLen
      let base ← readBlob image imageLen
      let r ← world (finishBoot lib wasm { base })
      answerVm outVm r
  | _, _ => refuseCall "aos_vm_boot: null or empty kernel"

def aosVmBootEx (kernel : Ptr) (kernelLen : ℕ) (opts outVm : Ptr) : Native H Int32 := do
  clearError
  match kernel, outVm with
  | some kernel, some outVm =>
    if kernelLen = 0 then refuseCall "aos_vm_boot_ex: null or empty kernel"
    else do
      let wasm ← readSlice kernel kernelLen
      let plan ← readOpts opts
      match plan with
      | .error e => refuseCall e
      | .ok plan => do
        let r ← world (finishBoot lib wasm plan)
        answerVm outVm r
  | _, _ => refuseCall "aos_vm_boot_ex: null or empty kernel"

def aosVmRestore (kernel : Ptr) (kernelLen : ℕ) (snapshot : Ptr) (snapshotLen : ℕ)
    (baseSnapshot : Ptr) (baseSnapshotLen : ℕ) (opts outVm : Ptr) : Native H Int32 := do
  clearError
  match kernel, snapshot, outVm with
  | some kernel, some snapshot, some outVm =>
    if kernelLen = 0 ∨ snapshotLen = 0 then refuseCall "aos_vm_restore: invalid args"
    else do
      let wasm ← readSlice kernel kernelLen
      let snap ← readSlice snapshot snapshotLen
      let plan ← readOpts opts
      match plan with
      | .error e => refuseCall e
      | .ok plan =>
        match restoreBuilder lib wasm plan with
        | .error e => refuseCall e
        | .ok builder =>
          if 0 < baseSnapshotLen ∧ baseSnapshot = none then
            refuseCall "base_snapshot_len > 0 but pointer null"
          else do
            let base ← readBlob baseSnapshot baseSnapshotLen
            let r ← world (finishRestore lib builder snap base)
            answerVm outVm r
  | _, _, _ => refuseCall "aos_vm_restore: invalid args"

end Host

section Dart

def readHandle (out : ℕ) : Native H UInt64 := do
  let slot ← load out
  expect slot.asUint64

/-- The image is copied inside of the `try`: where that throws, the `finally` finds a null
pointer. -/
def boot (kernel : Bytes) (image : Option Bytes) : Native H UInt64 := do
  let kPtr ← mallocBytes (.bytes kernel)
  let out ← mallocBytes (.uint64 none)
  let iPtr ← rescue (allocData (image.getD [])) (do
    free kPtr
    free out)
  ensure
    (do
      let rc ← aosVmBoot lib (some kPtr) kernel.length iPtr (image.getD []).length (some out)
      checkRc rc "aos_vm_boot"
      readHandle out)
    (do
      free kPtr
      free out
      freeNonNull iPtr)

def bootEx (kernel : Bytes) (opts : Option AgentOsBootOptions) : Native H UInt64 := do
  let kPtr ← allocData kernel
  let out ← mallocBytes (.uint64 none)
  let packed ← packBootOpts opts
  ensure
    (do
      let rc ← aosVmBootEx lib kPtr kernel.length (packed.map BootOptsNative.ptr) (some out)
      checkRc rc "aos_vm_boot_ex"
      readHandle out)
    (do
      freeNonNull kPtr
      free out
      freePacked packed)

def restore (kernel snapshot : Bytes) (base : Option Bytes) (opts : Option AgentOsBootOptions) :
    Native H UInt64 := do
  let kPtr ← allocData kernel
  let sPtr ← allocData snapshot
  let bPtr ← allocData (base.getD [])
  let out ← mallocBytes (.uint64 none)
  let packed ← packBootOpts opts
  ensure
    (do
      let rc ← aosVmRestore lib kPtr kernel.length sPtr snapshot.length bPtr
        (base.getD []).length (packed.map BootOptsNative.ptr) (some out)
      checkRc rc "aos_vm_restore"
      readHandle out)
    (do
      freeNonNull kPtr
      freeNonNull sPtr
      freeNonNull bPtr
      free out
      freePacked packed)

end Dart

/-! What the calls come to, memory apart. -/

section Plain

def answered (op : String) (r : Except String UInt64 × Process H) :
    Except DartString UInt64 × Process H :=
  match r with
  | (.ok id, p) => (.ok id, p)
  | (.error e, p) =>
    (.error (Utf16.encode (op ++ " failed: ") ++ errorMessage e), { p with lastError := e })

def cleared (p : Process H) : Process H := { p with lastError := "" }

def bootAnswer (kernel : Bytes) (image : Option Bytes) (p : Process H) :
    Except String UInt64 × Process H :=
  if kernel = [] then (.error "aos_vm_boot: null or empty kernel", p)
  else finishBoot lib kernel { base := nonEmptyBlob image } p

def bootExAnswer (kernel : Bytes) (opts : Option AgentOsBootOptions) (p : Process H) :
    Except String UInt64 × Process H :=
  if kernel = [] then (.error "aos_vm_boot_ex: null or empty kernel", p)
  else
    match planOf opts with
    | .error e => (.error e, p)
    | .ok plan => finishBoot lib kernel plan p

def restoreAnswer (kernel snapshot : Bytes) (base : Option Bytes)
    (opts : Option AgentOsBootOptions) (p : Process H) : Except String UInt64 × Process H :=
  if kernel = [] ∨ snapshot = [] then (.error "aos_vm_restore: invalid args", p)
  else
    match planOf opts with
    | .error e => (.error e, p)
    | .ok plan =>
      match restoreBuilder lib kernel plan with
      | .error e => (.error e, p)
      | .ok builder => finishRestore lib builder snapshot (nonEmptyBlob base) p

def plainBoot (kernel : Bytes) (image : Option Bytes) (p : Process H) :
    Except DartString UInt64 × Process H :=
  answered "aos_vm_boot" (bootAnswer lib kernel image (cleared p))

def plainBootEx (kernel : Bytes) (opts : Option AgentOsBootOptions) (p : Process H) :
    Except DartString UInt64 × Process H :=
  answered "aos_vm_boot_ex" (bootExAnswer lib kernel opts (cleared p))

def plainRestore (kernel snapshot : Bytes) (base : Option Bytes)
    (opts : Option AgentOsBootOptions) (p : Process H) : Except DartString UInt64 × Process H :=
  answered "aos_vm_restore" (restoreAnswer lib kernel snapshot base opts (cleared p))

end Plain

section Specs

variable {base h : Heap Block} {ps : List (ℕ × Block)} {p p' : Process H} {out : ℕ}
  {slot : Option UInt64}

/-- What the library leaves in the slot and in the process, if its answer is `r`. -/
def Answers (base : Heap Block) (ps : List (ℕ × Block)) (out : ℕ)
    (r : Except String UInt64 × Process H) (rc : Int32) (p' : Process H) (h' : Heap Block) :
    Prop :=
  match r with
  | (.ok id, p) => rc = kAosOk ∧ p' = p ∧ Owns base ((out, .uint64 (some id)) :: ps) h'
  | (.error e, p) => rc ≠ kAosOk ∧ p' = { p with lastError := e } ∧
      ∃ slot, Owns base ((out, .uint64 slot) :: ps) h'

theorem spec_refuseCall {msg : String} {E : DartString → Process H → Heap Block → Prop}
    (ho : Owns base ((out, .uint64 slot) :: ps) h) :
    Spec (refuseCall msg) (Answers base ps out (.error msg, p)) E p h := by
  unfold refuseCall setError
  exact spec_bind (spec_world (spec_pure ⟨by decide, rfl, slot, ho⟩))

theorem spec_answerVm {r : Except String UInt64} {E : DartString → Process H → Heap Block → Prop}
    (ho : Owns base ((out, .uint64 slot) :: ps) h) :
    Spec (answerVm out r) (Answers base ps out (r, p)) E p h := by
  cases r with
  | ok id => exact spec_bind (spec_modify ho fun h' ho' ↦ spec_pure ⟨rfl, rfl, ho'⟩)
  | error e => exact spec_refuseCall ho

theorem spec_checked {rc : Int32} {op : String} {r : Except String UInt64 × Process H}
    (hr : Answers base ps out r rc p h) :
    Spec (do checkRc rc op; readHandle out)
      (fun id p' h' ↦ answered op r = (.ok id, p') ∧
        ∃ slot, Owns base ((out, .uint64 slot) :: ps) h')
      (fun e p' h' ↦ answered op r = (.error e, p') ∧
        ∃ slot, Owns base ((out, .uint64 slot) :: ps) h') p h := by
  rcases r with ⟨id | id, q⟩
  · obtain ⟨hrc, rfl, slot, ho⟩ := hr
    exact spec_bind (spec_checkRc (fun hok ↦ absurd hok hrc) fun _ ↦ ⟨rfl, slot, ho⟩)
  · obtain ⟨hrc, rfl, ho⟩ := hr
    refine spec_bind (spec_checkRc (fun _ ↦ ?_) fun hne ↦ absurd hrc hne)
    unfold readHandle
    exact spec_bind (spec_load ho List.mem_cons_self (spec_expect rfl ⟨rfl, some id, ho⟩))

theorem spec_clearError {Q : Unit → Process H → Heap Block → Prop}
    {E : DartString → Process H → Heap Block → Prop} (hQ : Q () (cleared p) h) :
    Spec clearError Q E p h :=
  spec_world hQ

variable {kernel snapshot : Bytes} {kPtr sPtr bPtr : Ptr} {opts : Option AgentOsBootOptions}
  {packed : Option BootOptsNative} {blocks : List (ℕ × Block)}
  {E : DartString → Process H → Heap Block → Prop}

theorem mem_of_dataBlocks {ptr : Ptr} {data : Bytes} (hsub : dataBlocks ptr data ⊆ ps)
    (hptr : ptr = none ↔ data = []) (hne : data ≠ []) :
    ∃ a, ptr = some a ∧ (a, .bytes data) ∈ ps := by
  cases ptr with
  | none => exact absurd (hptr.mp rfl) hne
  | some a => exact ⟨a, rfl, hsub List.mem_cons_self⟩

theorem blobAt_of_dataBlocks {ptr : Ptr} {blob : Option Bytes}
    (hsub : dataBlocks ptr (blob.getD []) ⊆ ps) (hptr : ptr = none ↔ blob.getD [] = []) :
    BlobAt ps blob ptr (blob.getD []).length := by
  by_cases hne : blob.getD [] = []
  · exact Or.inl ⟨hne, hptr.mpr hne, by rw [hne, List.length_nil]⟩
  · obtain ⟨a, rfl, hmem⟩ := mem_of_dataBlocks hsub hptr hne
    cases blob with
    | none => exact absurd rfl hne
    | some data => exact Or.inr ⟨a, data, rfl, hne, rfl, rfl, hmem⟩

theorem spec_aosVmBootEx (ho : Owns base ((out, .uint64 slot) :: ps) h)
    (hk : dataBlocks kPtr kernel ⊆ ps) (hkPtr : kPtr = none ↔ kernel = [])
    (hpacked : PackedAs opts packed blocks) (hblocks : blocks ⊆ ps) :
    Spec (aosVmBootEx lib kPtr kernel.length (packed.map BootOptsNative.ptr) (some out))
      (Answers base ps out (bootExAnswer lib kernel opts (cleared p))) E p h := by
  unfold aosVmBootEx bootExAnswer
  refine spec_bind (spec_clearError ?_)
  by_cases hkernel : kernel = []
  · rw [if_pos hkernel, hkPtr.mpr hkernel]
    exact spec_refuseCall ho
  · obtain ⟨a, rfl, ha⟩ := mem_of_dataBlocks hk hkPtr hkernel
    have hlen : kernel.length ≠ 0 := fun hzero ↦ hkernel (List.length_eq_zero_iff.mp hzero)
    simp only [if_neg hkernel, if_neg hlen]
    refine spec_bind (spec_readSlice ho (List.mem_cons_of_mem _ ha) rfl ?_)
    refine (spec_readPacked ho hpacked (List.subset_cons_of_subset _ hblocks)).bind
      fun plan p' h' hread ↦ ?_
    obtain ⟨rfl, rfl, rfl⟩ := hread
    cases planOf opts with
    | error e => exact spec_refuseCall ho
    | ok plan => exact spec_bind (spec_world (spec_answerVm ho))

theorem spec_aosVmBoot {a : ℕ} {image : Option Bytes} {iPtr : Ptr}
    (ho : Owns base ((out, .uint64 slot) :: ps) h) (hk : (a, .bytes kernel) ∈ ps)
    (hi : dataBlocks iPtr (image.getD []) ⊆ ps) (hiPtr : iPtr = none ↔ image.getD [] = []) :
    Spec (aosVmBoot lib (some a) kernel.length iPtr (image.getD []).length (some out))
      (Answers base ps out (bootAnswer lib kernel image (cleared p))) E p h := by
  unfold aosVmBoot bootAnswer
  refine spec_bind (spec_clearError ?_)
  by_cases hkernel : kernel = []
  · simp only [hkernel, List.length_nil, if_true]
    exact spec_refuseCall ho
  · have hlen : kernel.length ≠ 0 := fun hzero ↦ hkernel (List.length_eq_zero_iff.mp hzero)
    have hnull : ¬(0 < (image.getD []).length ∧ iPtr = none) := fun hboth ↦
      absurd (hiPtr.mp hboth.2) (List.ne_nil_of_length_pos hboth.1)
    simp only [if_neg hkernel, if_neg hlen, if_neg hnull]
    refine spec_bind (spec_readSlice ho (List.mem_cons_of_mem _ hk) rfl ?_)
    have hblob := (blobAt_of_dataBlocks hi hiPtr).mono (List.subset_cons_of_subset (out,
      Block.uint64 slot) (List.Subset.refl ps))
    refine (spec_readBlob ho hblob).bind fun image' p' h' hread ↦ ?_
    obtain ⟨rfl, rfl, rfl⟩ := hread
    exact spec_bind (spec_world (spec_answerVm ho))

theorem spec_aosVmRestore {baseSnapshot : Option Bytes}
    (ho : Owns base ((out, .uint64 slot) :: ps) h) (hk : dataBlocks kPtr kernel ⊆ ps)
    (hkPtr : kPtr = none ↔ kernel = []) (hs : dataBlocks sPtr snapshot ⊆ ps)
    (hsPtr : sPtr = none ↔ snapshot = []) (hb : dataBlocks bPtr (baseSnapshot.getD []) ⊆ ps)
    (hbPtr : bPtr = none ↔ baseSnapshot.getD [] = []) (hpacked : PackedAs opts packed blocks)
    (hblocks : blocks ⊆ ps) :
    Spec (aosVmRestore lib kPtr kernel.length sPtr snapshot.length bPtr
      (baseSnapshot.getD []).length (packed.map BootOptsNative.ptr) (some out))
      (Answers base ps out (restoreAnswer lib kernel snapshot baseSnapshot opts (cleared p))) E p
      h := by
  unfold aosVmRestore restoreAnswer
  refine spec_bind (spec_clearError ?_)
  by_cases hempty : kernel = [] ∨ snapshot = []
  · rw [if_pos hempty]
    rcases hempty with hkernel | hsnapshot
    · rw [hkPtr.mpr hkernel]
      exact spec_refuseCall ho
    · rw [hsPtr.mpr hsnapshot]
      cases kPtr with
      | none => exact spec_refuseCall ho
      | some a => exact spec_refuseCall ho
  · obtain ⟨hkernel, hsnapshot⟩ := not_or.mp hempty
    obtain ⟨a, rfl, ha⟩ := mem_of_dataBlocks hk hkPtr hkernel
    obtain ⟨b, rfl, hb'⟩ := mem_of_dataBlocks hs hsPtr hsnapshot
    have hlen : ¬(kernel.length = 0 ∨ snapshot.length = 0) := by
      simpa only [List.length_eq_zero_iff] using hempty
    simp only [if_neg hempty, if_neg hlen]
    refine spec_bind (spec_readSlice ho (List.mem_cons_of_mem _ ha) rfl ?_)
    refine spec_bind (spec_readSlice ho (List.mem_cons_of_mem _ hb') rfl ?_)
    refine (spec_readPacked ho hpacked (List.subset_cons_of_subset _ hblocks)).bind
      fun plan p' h' hread ↦ ?_
    obtain ⟨rfl, rfl, rfl⟩ := hread
    cases planOf opts with
    | error e => exact spec_refuseCall ho
    | ok plan =>
      simp only
      cases restoreBuilder lib kernel plan with
      | error e => exact spec_refuseCall ho
      | ok builder =>
        have hnull : ¬(0 < (baseSnapshot.getD []).length ∧ bPtr = none) := fun hboth ↦
          absurd (hbPtr.mp hboth.2) (List.ne_nil_of_length_pos hboth.1)
        simp only [if_neg hnull]
        have hblob := (blobAt_of_dataBlocks hb hbPtr).mono (List.subset_cons_of_subset (out,
          Block.uint64 slot) (List.Subset.refl ps))
        refine (spec_readBlob ho hblob).bind fun snap p' h' hread ↦ ?_
        obtain ⟨rfl, rfl, rfl⟩ := hread
        exact spec_bind (spec_world (spec_answerVm ho))

theorem bootEx_refines (kernel : Bytes) (opts : Option AgentOsBootOptions) :
    Refines (bootEx lib kernel opts) (plainBootEx lib kernel opts) := by
  intro p h
  unfold bootEx
  refine spec_prepare (spec_allocData (Owns.start h) fun kPtr h₁ ho₁ hkPtr ↦ ?_)
  refine spec_prepare (spec_mallocBytes ho₁ fun out h₂ ho₂ ↦ ?_)
  refine spec_prepare ((spec_packOpts ho₂).mono ?_ fun _ _ _ he ↦ he)
  intro packed p' h₃ hpack
  obtain ⟨rfl, blocks, ho₃, hpacked⟩ := hpack
  let ps := blocks ++ (dataBlocks kPtr kernel ++ [])
  have hk : dataBlocks kPtr kernel ⊆ ps := fun x hx ↦ by simp [ps, hx]
  have hblocks : blocks ⊆ ps := fun x hx ↦ by simp [ps, hx]
  refine spec_tryFinally (fun h' ↦ ∃ slot, Owns h ((out, .uint64 slot) :: ps) h') ?_ ?_
  · refine (spec_aosVmBootEx lib (ho₃.perm List.perm_middle) hk hkPtr hpacked hblocks).bind ?_
    exact fun rc p' h' hanswer ↦ spec_checked hanswer
  · intro p' h' hheld
    obtain ⟨slot, ho⟩ := hheld
    have hfront : ((out, Block.uint64 slot) :: blocks ++ dataBlocks kPtr kernel).Perm
        (dataBlocks kPtr kernel ++ ((out, Block.uint64 slot) :: blocks)) :=
      List.perm_append_comm
    have ho' := (ho.perm (by simp [ps])).perm hfront
    refine spec_bind (spec_freeNonNull ho' fun h₁ ho₁ ↦ spec_bind (spec_free ho₁ fun h₂ ho₂ ↦ ?_))
    exact spec_freePacked (by simpa using ho₂) hpacked fun h'' ho'' ↦ ⟨rfl, ho''⟩

theorem boot_refines (kernel : Bytes) (image : Option Bytes) :
    Refines (boot lib kernel image) (plainBoot lib kernel image) := by
  intro p h
  unfold boot
  refine spec_prepare (spec_mallocBytes (Owns.start h) fun kPtr h₁ ho₁ ↦ ?_)
  refine spec_prepare (spec_mallocBytes ho₁ fun out h₂ ho₂ ↦ ?_)
  have hback (iPtr : Ptr) (slot : Option UInt64) :
      ((out, Block.uint64 slot) :: (kPtr, Block.bytes kernel) ::
        dataBlocks iPtr (image.getD [])).Perm
      ((kPtr, Block.bytes kernel) :: (out, Block.uint64 slot) ::
        (dataBlocks iPtr (image.getD []) ++ [])) := by
    rw [List.append_nil]
    exact List.Perm.swap ..
  refine spec_prepare (spec_rescue (spec_allocDataOr ho₂ (fun iPtr h₃ ho₃ hiPtr ↦ ?_) ?_))
  · have ho₃ := ho₃.perm List.perm_append_comm
    refine spec_tryFinally (fun h' ↦ ∃ slot, Owns h ((out, .uint64 slot) ::
      (kPtr, .bytes kernel) :: dataBlocks iPtr (image.getD [])) h') ?_ ?_
    · refine (spec_aosVmBoot lib ho₃ List.mem_cons_self (List.subset_cons_self ..) hiPtr).bind ?_
      exact fun rc p' h' hanswer ↦ spec_checked hanswer
    · intro p' h' hheld
      obtain ⟨slot, ho⟩ := hheld
      refine spec_bind (spec_free (ho.perm (hback iPtr slot)) fun h₁ ho₁ ↦ ?_)
      refine spec_bind (spec_free ho₁ fun h₂ ho₂ ↦ ?_)
      exact spec_freeNonNull ho₂ fun h'' ho'' ↦ ⟨rfl, ho''⟩
  · intro h' hrefused
    refine spec_bind (spec_free (hrefused.owns.perm (List.Perm.swap ..)) fun h₁ ho₁ ↦ ?_)
    exact spec_free ho₁ fun h₂ ho₂ ↦ ⟨rfl, rfl, [], ho₂, hrefused.refused⟩

theorem restore_refines (kernel snapshot : Bytes) (baseSnapshot : Option Bytes)
    (opts : Option AgentOsBootOptions) :
    Refines (restore lib kernel snapshot baseSnapshot opts)
      (plainRestore lib kernel snapshot baseSnapshot opts) := by
  intro p h
  unfold restore
  refine spec_prepare (spec_allocData (Owns.start h) fun kPtr h₁ ho₁ hkPtr ↦ ?_)
  refine spec_prepare (spec_allocData ho₁ fun sPtr h₂ ho₂ hsPtr ↦ ?_)
  refine spec_prepare (spec_allocData ho₂ fun bPtr h₃ ho₃ hbPtr ↦ ?_)
  refine spec_prepare (spec_mallocBytes ho₃ fun out h₄ ho₄ ↦ ?_)
  refine spec_prepare ((spec_packOpts ho₄).mono ?_ fun _ _ _ he ↦ he)
  intro packed p' h₅ hpack
  obtain ⟨rfl, blocks, ho₅, hpacked⟩ := hpack
  let ps := blocks ++ (dataBlocks bPtr (baseSnapshot.getD []) ++
    (dataBlocks sPtr snapshot ++ (dataBlocks kPtr kernel ++ [])))
  have hk : dataBlocks kPtr kernel ⊆ ps := fun x hx ↦ by simp [ps, hx]
  have hs : dataBlocks sPtr snapshot ⊆ ps := fun x hx ↦ by simp [ps, hx]
  have hb : dataBlocks bPtr (baseSnapshot.getD []) ⊆ ps := fun x hx ↦ by simp [ps, hx]
  have hblocks : blocks ⊆ ps := fun x hx ↦ by simp [ps, hx]
  refine spec_tryFinally (fun h' ↦ ∃ slot, Owns h ((out, .uint64 slot) :: ps) h') ?_ ?_
  · refine (spec_aosVmRestore lib (ho₅.perm List.perm_middle) hk hkPtr hs hsPtr hb hbPtr hpacked
      hblocks).bind ?_
    exact fun rc p' h' hanswer ↦ spec_checked hanswer
  · intro p' h' hheld
    obtain ⟨slot, ho⟩ := hheld
    have horder : ((out, Block.uint64 slot) :: ps).Perm
        (dataBlocks kPtr kernel ++ (dataBlocks sPtr snapshot ++
          (dataBlocks bPtr (baseSnapshot.getD []) ++ ((out, .uint64 slot) :: (blocks ++ []))))) := by
      classical
      refine List.perm_iff_count.mpr fun x ↦ ?_
      simp only [ps, List.count_append, List.count_cons, List.count_nil]
      omega
    refine spec_bind (spec_freeNonNull (ho.perm horder) fun h₁ ho₁ ↦ ?_)
    refine spec_bind (spec_freeNonNull ho₁ fun h₂ ho₂ ↦ ?_)
    refine spec_bind (spec_freeNonNull ho₂ fun h₃ ho₃ ↦ ?_)
    refine spec_bind (spec_free ho₃ fun h₄ ho₄ ↦ ?_)
    exact spec_freePacked ho₄ hpacked fun h'' ho'' ↦ ⟨rfl, ho''⟩

end Specs

end MachineNotebook.Dart.BootCalls
