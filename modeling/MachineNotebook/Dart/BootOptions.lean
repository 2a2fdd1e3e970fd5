import MachineNotebook.Dart.NativeMemory

namespace MachineNotebook.Dart.BootOptions

open MachineNotebook.Lib MachineNotebook.Lib.Utf8 MachineNotebook.Lib.HeapLogic
open MachineNotebook.Lib.HeapLogic.Prog Bindings NativeMemory Host.Boot

inductive AgentOsNetMode
  | deny
  | relay
  | real
  deriving DecidableEq

inductive AgentOsCapMode
  | deny
  | relay
  deriving DecidableEq

def netModeToInt : AgentOsNetMode → Int32
  | .deny => 0
  | .relay => 1
  | .real => 2

def capModeToInt : AgentOsCapMode → Int32
  | .deny => 0
  | .relay => 1

structure AgentOsBootOptions where
  baseImage : Option Bytes := none
  layers : Option (List Bytes) := none
  deterministic : Bool := false
  contractTier : Option Int64 := none
  contractBudgetMib : Option Int64 := none
  contractFuel : Option Int64 := none
  workers : Int64 := 0
  net : AgentOsNetMode := .deny
  hostCall : AgentOsCapMode := .deny
  hostCallSidecarOnly : Bool := false
  persist : AgentOsCapMode := .deny
  toolApproval : AgentOsCapMode := .deny
  connectionsBlob : Option Bytes := none
  connectionPoliciesBlob : Option Bytes := none

structure BootOptsNative where
  ptr : ℕ
  owned : List ℕ

variable {H : Type}

section Pack

def boolToInt (b : Bool) : Int32 := if b then 1 else 0

/-- The fields that hold no memory. A contract is there once one of its three parts is. -/
def plainFields (opts : AgentOsBootOptions) : AosBootOpts :=
  let contract := opts.contractTier ≠ none ∨ opts.contractBudgetMib ≠ none ∨ opts.contractFuel ≠ none
  { deterministic := boolToInt opts.deterministic
    hasContract := if contract then 1 else 0
    contractTier := (opts.contractTier.getD 0).toInt32
    contractBudgetMib := (opts.contractBudgetMib.getD 0).toInt32
    contractFuel := opts.contractFuel.getD 0
    workers := opts.workers.toUInt64.toUInt32
    net := netModeToInt opts.net
    hostCall := capModeToInt opts.hostCall
    hostCallSidecarOnly := boolToInt opts.hostCallSidecarOnly
    persist := capModeToInt opts.persist
    toolApproval := capModeToInt opts.toolApproval }

def setBaseImage (ptr : Ptr) (len : ℕ) (o : AosBootOpts) : AosBootOpts :=
  { o with baseImage := ptr, baseImageLen := len }

def setConnections (ptr : Ptr) (len : ℕ) (o : AosBootOpts) : AosBootOpts :=
  { o with connectionsBlob := ptr, connectionsLen := len }

def setPolicies (ptr : Ptr) (len : ℕ) (o : AosBootOpts) : AosBootOpts :=
  { o with connectionPoliciesBlob := ptr, connectionPoliciesLen := len }

def setLayers (layers lens count : ℕ) (o : AosBootOpts) : AosBootOpts :=
  { o with layers := some layers, layerLens := some lens, layerCount := count }

def packBlob (p : ℕ) (blob : Option Bytes) (set : Ptr → ℕ → AosBootOpts → AosBootOpts)
    (owned : List ℕ) : Native H (List ℕ) :=
  match blob with
  | none => pure owned
  | some data =>
    if data = [] then pure owned
    else do
      let b ← mallocBytes (.bytes data)
      modify p (Block.mapBootOpts (set (some b) data.length))
      return owned ++ [b]

/-- The loop over the layers, from layer `i` on. -/
def packLayerLoop (layerPtrs lens : ℕ) : ℕ → List Bytes → List ℕ → Native H (List ℕ)
  | _, [], owned => pure owned
  | i, layer :: rest, owned =>
    if layer = [] then do
      modify layerPtrs (Block.setPointer i none)
      modify lens (Block.setSize i 0)
      packLayerLoop layerPtrs lens (i + 1) rest owned
    else do
      let lp ← mallocBytes (.bytes layer)
      modify layerPtrs (Block.setPointer i (some lp))
      modify lens (Block.setSize i layer.length)
      packLayerLoop layerPtrs lens (i + 1) rest (owned ++ [lp])

def packLayers (p : ℕ) (layers : Option (List Bytes)) (owned : List ℕ) : Native H (List ℕ) :=
  match layers with
  | none => pure owned
  | some layers =>
    if layers = [] then pure owned
    else do
      let layerPtrs ← mallocBytes (.pointers (List.replicate layers.length none))
      let lens ← mallocBytes (.sizes (List.replicate layers.length none))
      let owned ← packLayerLoop layerPtrs lens 0 layers (owned ++ [layerPtrs, lens])
      modify p (Block.mapBootOpts (setLayers layerPtrs lens layers.length))
      return owned

def packBootOpts (opts : Option AgentOsBootOptions) : Native H (Option BootOptsNative) :=
  match opts with
  | none => pure none
  | some opts => do
    let p ← mallocBytes (.bootOpts (plainFields opts))
    let owned ← packBlob p opts.baseImage setBaseImage []
    let owned ← packLayers p opts.layers owned
    let owned ← packBlob p opts.connectionsBlob setConnections owned
    let owned ← packBlob p opts.connectionPoliciesBlob setPolicies owned
    return some ⟨p, owned⟩

def freePacked (packed : Option BootOptsNative) : Native H Unit :=
  match packed with
  | none => pure ()
  | some packed => freeAll (packed.owned ++ [packed.ptr])

end Pack

section Read

def readBase (o : AosBootOpts) : Native H (Except String (Option Bytes)) :=
  if 0 < o.baseImageLen then
    match o.baseImage with
    | none => pure (.error "base_image_len > 0 but pointer null")
    | some a => do
      let data ← readSlice a o.baseImageLen
      return .ok (some data)
  else pure (.ok none)

/-- The loop over the layers, with those it has pushed and the number of those to come. -/
def readLayerLoop (layers lens : ℕ) : ℕ → ℕ → List Bytes → Native H (Except String (List Bytes))
  | 0, _, out => pure (.ok out)
  | count + 1, i, out => do
    let slots ← load layers
    let p ← expect (slots.pointerAt i)
    let sizes ← load lens
    let n ← expect (sizes.sizeAt i)
    if n = 0 then readLayerLoop layers lens count (i + 1) (out ++ [[]])
    else
      match p with
      | none => pure (.error "layer pointer null")
      | some a => do
        let layer ← readSlice a n
        readLayerLoop layers lens count (i + 1) (out ++ [layer])

def readLayers (o : AosBootOpts) : Native H (Except String (List Bytes)) :=
  if 0 < o.layerCount then
    match o.layers, o.layerLens with
    | some layers, some lens => readLayerLoop layers lens o.layerCount 0 []
    | _, _ => pure (.error "layers set but pointers null")
  else pure (.ok [])

/-- A blob that the plan leaves out where its pointer is null. -/
def readBlob (ptr : Ptr) (len : ℕ) : Native H (Option Bytes) :=
  match ptr with
  | none => pure none
  | some a =>
    if 0 < len then do
      let data ← readSlice a len
      return some data
    else pure none

def planWith (o : AosBootOpts) (base : Option Bytes) (layers : List Bytes)
    (connections policies : Option Bytes) : BootPlan where
  base := base
  layers := layers
  deterministic := o.deterministic ≠ 0
  contract :=
    if o.hasContract ≠ 0 then some (o.contractTier, o.contractBudgetMib, o.contractFuel) else none
  workers := if 0 < o.workers then some o.workers.toInt32 else none
  net := o.net
  hostCall := o.hostCall
  hostCallSidecarOnly := o.hostCallSidecarOnly ≠ 0
  persist := o.persist
  toolApproval := o.toolApproval
  connections := connections
  policies := policies

def readOpts (opts : Ptr) : Native H (Except String BootPlan) :=
  match opts with
  | none => pure (.ok {})
  | some p => do
    let block ← load p
    let o ← expect block.asBootOpts
    let base ← readBase o
    match base with
    | .error e => return .error e
    | .ok base =>
      let layers ← readLayers o
      match layers with
      | .error e => return .error e
      | .ok layers =>
        if base ≠ none ∧ layers ≠ [] then
          return .error "base_image and layers are mutually exclusive"
        else
          let connections ← readBlob o.connectionsBlob o.connectionsLen
          let policies ← readBlob o.connectionPoliciesBlob o.connectionPoliciesLen
          return .ok (planWith o base layers connections policies)

end Read

section Plan

def nonEmptyBlob (blob : Option Bytes) : Option Bytes := blob.bind allocBytes

def contractOf (opts : AgentOsBootOptions) : Option (Int32 × Int32 × Int64) :=
  if opts.contractTier ≠ none ∨ opts.contractBudgetMib ≠ none ∨ opts.contractFuel ≠ none then
    some ((opts.contractTier.getD 0).toInt32, (opts.contractBudgetMib.getD 0).toInt32,
      opts.contractFuel.getD 0)
  else none

def workersOf (opts : AgentOsBootOptions) : Option Int32 :=
  if opts.workers.toUInt64.toUInt32 = 0 then none
  else some opts.workers.toUInt64.toUInt32.toInt32

def planOf (opts : Option AgentOsBootOptions) : Except String BootPlan :=
  match opts with
  | none => .ok {}
  | some opts =>
    let base := nonEmptyBlob opts.baseImage
    let layers := opts.layers.getD []
    if base ≠ none ∧ layers ≠ [] then
      .error "base_image and layers are mutually exclusive"
    else
      .ok
        { base, layers
          deterministic := opts.deterministic
          contract := contractOf opts
          workers := workersOf opts
          net := netModeToInt opts.net
          hostCall := capModeToInt opts.hostCall
          hostCallSidecarOnly := opts.hostCallSidecarOnly
          persist := capModeToInt opts.persist
          toolApproval := capModeToInt opts.toolApproval
          connections := nonEmptyBlob opts.connectionsBlob
          policies := nonEmptyBlob opts.connectionPoliciesBlob }

end Plan

section Layout

/-- A layer lies where its slot points, or is empty and has a null pointer. -/
def LayerAt (ps : List (ℕ × Block)) (slot : Ptr) (layer : Bytes) : Prop :=
  (layer = [] ∧ slot = none) ∨ ∃ a, layer ≠ [] ∧ slot = some a ∧ (a, .bytes layer) ∈ ps

def LayersAt (ps : List (ℕ × Block)) (layers : List Bytes) (o : AosBootOpts) : Prop :=
  (layers = [] ∧ o.layerCount = 0) ∨
    ∃ a b slots, layers ≠ [] ∧ o.layers = some a ∧ o.layerLens = some b ∧
      o.layerCount = layers.length ∧ (a, .pointers (slots.map some)) ∈ ps ∧
      (b, .sizes (layers.map fun layer ↦ some layer.length)) ∈ ps ∧
      List.Forall₂ (LayerAt ps) slots layers

/-- The memory that the fields of the options point to holds what the options say. -/
structure OptsAt (ps : List (ℕ × Block)) (opts : AgentOsBootOptions) (o : AosBootOpts) : Prop where
  base : BlobAt ps opts.baseImage o.baseImage o.baseImageLen
  layers : LayersAt ps (opts.layers.getD []) o
  connections : BlobAt ps opts.connectionsBlob o.connectionsBlob o.connectionsLen
  policies : BlobAt ps opts.connectionPoliciesBlob o.connectionPoliciesBlob o.connectionPoliciesLen
  plain : ∀ base layers connections policies,
    planWith o base layers connections policies =
      planWith (plainFields opts) base layers connections policies

variable {ps qs : List (ℕ × Block)}

theorem LayerAt.mono {slot : Ptr} {layer : Bytes} (h : LayerAt ps slot layer) (hsub : ps ⊆ qs) :
    LayerAt qs slot layer :=
  h.imp_right fun ⟨a, hne, hslot, hmem⟩ ↦ ⟨a, hne, hslot, hsub hmem⟩

theorem LayersAt.mono {layers : List Bytes} {o : AosBootOpts} (h : LayersAt ps layers o)
    (hsub : ps ⊆ qs) : LayersAt qs layers o := by
  refine h.imp_right fun ⟨a, b, slots, hne, ha, hb, hcount, hptrs, hlens, hslots⟩ ↦ ?_
  exact ⟨a, b, slots, hne, ha, hb, hcount, hsub hptrs, hsub hlens,
    hslots.imp fun _ _ hlayer ↦ hlayer.mono hsub⟩

theorem OptsAt.mono {opts : AgentOsBootOptions} {o : AosBootOpts} (h : OptsAt ps opts o)
    (hsub : ps ⊆ qs) : OptsAt qs opts o := by
  obtain ⟨hbase, hlayers, hconnections, hpolicies, hplain⟩ := h
  exact ⟨hbase.mono hsub, hlayers.mono hsub, hconnections.mono hsub, hpolicies.mono hsub, hplain⟩

def BlobSet (blob : Option Bytes) (set : Ptr → ℕ → AosBootOpts → AosBootOpts)
    (o o' : AosBootOpts) (new : List (ℕ × Block)) : Prop :=
  (blob.getD [] = [] ∧ o' = o) ∨
    ∃ a data, blob = some data ∧ data ≠ [] ∧ o' = set (some a) data.length o ∧
      (a, .bytes data) ∈ new

def LayersSet (layers : List Bytes) (o o' : AosBootOpts) (new : List (ℕ × Block)) : Prop :=
  (layers = [] ∧ o' = o) ∨
    ∃ layerPtrs lens, o' = setLayers layerPtrs lens layers.length o ∧ LayersAt new layers o'

section Set

variable {o o' : AosBootOpts} {new : List (ℕ × Block)} {α : Type}

theorem BlobSet.proj {blob : Option Bytes} {set : Ptr → ℕ → AosBootOpts → AosBootOpts}
    (h : BlobSet blob set o o' new) (f : AosBootOpts → α) (hf : ∀ ptr len, f (set ptr len o) = f o) :
    f o' = f o := by
  rcases h with ⟨-, rfl⟩ | ⟨a, data, -, -, rfl, -⟩
  · rfl
  · exact hf _ _

theorem LayersSet.proj {layers : List Bytes} (h : LayersSet layers o o' new) (f : AosBootOpts → α)
    (hf : ∀ layerPtrs lens count, f (setLayers layerPtrs lens count o) = f o) : f o' = f o := by
  rcases h with ⟨-, rfl⟩ | ⟨layerPtrs, lens, rfl, -⟩
  · rfl
  · exact hf _ _ _

theorem BlobSet.blobAt {blob : Option Bytes} {set : Ptr → ℕ → AosBootOpts → AosBootOpts}
    (h : BlobSet blob set o o' new) (ptr : AosBootOpts → Ptr) (len : AosBootOpts → ℕ)
    (hptr : ∀ p n, ptr (set p n o) = p) (hlen : ∀ p n, len (set p n o) = n)
    (hnull : ptr o = none) (hzero : len o = 0) : BlobAt new blob (ptr o') (len o') := by
  rcases h with ⟨hblob, rfl⟩ | ⟨a, data, hblob, hne, rfl, hmem⟩
  · exact Or.inl ⟨hblob, hnull, hzero⟩
  · exact Or.inr ⟨a, data, hblob, hne, hptr _ _, hlen _ _, hmem⟩

end Set

end Layout

section PackSpec

variable {base h : Heap Block} {qs : List (ℕ × Block)} {w : Process H} {p : ℕ} {o : AosBootOpts}
  {owned : List ℕ}

/-- What a packing step leaves: the options changed, and new blocks that they own. -/
def Packed (base : Heap Block) (w : Process H) (p : ℕ) (qs : List (ℕ × Block)) (owned : List ℕ)
    (P : AosBootOpts → List (ℕ × Block) → Prop) (owned' : List ℕ) (w' : Process H)
    (h : Heap Block) : Prop :=
  w' = w ∧ ∃ o' new, Owns base ((p, .bootOpts o') :: (new ++ qs)) h ∧
    owned'.Perm (owned ++ new.map Prod.fst) ∧ P o' new

theorem spec_packBlob {blob : Option Bytes} {set : Ptr → ℕ → AosBootOpts → AosBootOpts}
    (ho : Owns base ((p, .bootOpts o) :: qs) h) :
    Spec (packBlob p blob set owned) (Packed base w p qs owned (BlobSet blob set o))
      (OutOfMemory base w) w h := by
  have hsame (hblob : blob.getD [] = []) :
      Packed base w p qs owned (BlobSet blob set o) owned w h :=
    ⟨rfl, o, [], ho, by simp, Or.inl ⟨hblob, rfl⟩⟩
  cases blob with
  | none => exact spec_pure (hsame rfl)
  | some data =>
    unfold packBlob
    by_cases hne : data = []
    · simp only [if_pos hne]
      exact spec_pure (hsame hne)
    · simp only [if_neg hne]
      refine spec_bind (spec_mallocBytes ho fun b h' ho' ↦ ?_)
      refine spec_bind (spec_modify (ho'.perm (List.Perm.swap ..)) fun h'' ho'' ↦ ?_)
      exact spec_pure ⟨rfl, _, [(b, .bytes data)], ho'', by simp,
        Or.inr ⟨b, data, rfl, hne, rfl, by simp⟩⟩

theorem spec_packLayerLoop (slots : List (Option Ptr)) (sizes : List (Option ℕ))
    {layerPtrs lens i : ℕ} {layers : List Bytes} {r : List (ℕ × Block)}
    (ho : Owns base ((layerPtrs, .pointers (slots ++ List.replicate layers.length none)) ::
      (lens, .sizes (sizes ++ List.replicate layers.length none)) :: r) h)
    (hslots : slots.length = i) (hsizes : sizes.length = i) :
    Spec (packLayerLoop layerPtrs lens i layers owned)
      (fun owned' w' h' ↦ w' = w ∧ ∃ filled new,
        Owns base ((layerPtrs, .pointers (slots ++ filled.map some)) ::
          (lens, .sizes (sizes ++ layers.map fun layer ↦ some layer.length)) :: (new ++ r)) h' ∧
        owned'.Perm (owned ++ new.map Prod.fst) ∧ List.Forall₂ (LayerAt new) filled layers)
      (OutOfMemory base w) w h := by
  induction layers generalizing i slots sizes r owned h with
  | nil => exact spec_pure ⟨rfl, [], [], by simpa using ho, by simp, List.Forall₂.nil⟩
  | cons layer rest ih =>
    have hset (slot : Ptr) : Block.setPointer i slot
        (.pointers (slots ++ List.replicate (layer :: rest).length none)) =
          .pointers ((slots ++ [some slot]) ++ List.replicate rest.length none) := by
      simp [Block.setPointer, ← hslots, List.replicate_succ]
    have hsize (n : ℕ) : Block.setSize i n
        (.sizes (sizes ++ List.replicate (layer :: rest).length none)) =
          .sizes ((sizes ++ [some n]) ++ List.replicate rest.length none) := by
      simp [Block.setSize, ← hsizes, List.replicate_succ]
    unfold packLayerLoop
    by_cases hne : layer = []
    · simp only [if_pos hne]
      refine spec_bind (spec_modify ho fun h₁ ho₁ ↦ ?_)
      rw [hset] at ho₁
      refine spec_bind (spec_modify (ho₁.perm (List.Perm.swap ..)) fun h₂ ho₂ ↦ ?_)
      rw [hsize] at ho₂
      refine (ih _ _ (ho₂.perm (List.Perm.swap ..)) (by simp [hslots]) (by simp [hsizes])).mono ?_
        fun _ _ _ he ↦ he
      intro owned' w' h' hpacked
      obtain ⟨rfl, filled, new, ho', hperm, hfilled⟩ := hpacked
      refine ⟨rfl, none :: filled, new, ?_, hperm, List.Forall₂.cons (Or.inl ⟨hne, rfl⟩) hfilled⟩
      simpa [hne] using ho'
    · simp only [if_neg hne]
      refine spec_bind (spec_mallocBytes ho fun lp h₀ ho₀ ↦ ?_)
      have hback : ((lp, Block.bytes layer) :: (layerPtrs, Block.pointers (slots ++
          List.replicate (layer :: rest).length none)) :: (lens, Block.sizes (sizes ++
          List.replicate (layer :: rest).length none)) :: r).Perm
          ((layerPtrs, Block.pointers (slots ++ List.replicate (layer :: rest).length none)) ::
          (lens, Block.sizes (sizes ++ List.replicate (layer :: rest).length none)) ::
          (lp, Block.bytes layer) :: r) :=
        (List.Perm.swap ..).trans ((List.Perm.swap ..).cons _)
      refine spec_bind (spec_modify (ho₀.perm hback) fun h₁ ho₁ ↦ ?_)
      rw [hset] at ho₁
      refine spec_bind (spec_modify (ho₁.perm (List.Perm.swap ..)) fun h₂ ho₂ ↦ ?_)
      rw [hsize] at ho₂
      refine (ih _ _ (ho₂.perm (List.Perm.swap ..)) (by simp [hslots]) (by simp [hsizes])).mono ?_
        fun _ _ _ he ↦ he
      intro owned' w' h' hpacked
      obtain ⟨rfl, filled, new, ho', hperm, hfilled⟩ := hpacked
      refine ⟨rfl, some lp :: filled, new ++ [(lp, .bytes layer)], ?_, ?_, ?_⟩
      · simpa using ho'
      · refine hperm.trans ?_
        simp only [List.append_assoc, List.map_append, List.map_cons, List.map_nil]
        exact List.perm_append_comm.append_left owned
      · refine List.Forall₂.cons (Or.inr ⟨lp, hne, rfl, by simp⟩) (hfilled.imp fun _ _ hl ↦ ?_)
        exact hl.mono (List.subset_append_left _ _)

theorem spec_packLayers {layers : Option (List Bytes)} (ho : Owns base ((p, .bootOpts o) :: qs) h) :
    Spec (packLayers p layers owned) (Packed base w p qs owned (LayersSet (layers.getD []) o))
      (OutOfMemory base w) w h := by
  have hsame (hlayers : layers.getD [] = []) :
      Packed base w p qs owned (LayersSet (layers.getD []) o) owned w h :=
    ⟨rfl, o, [], ho, by simp, Or.inl ⟨hlayers, rfl⟩⟩
  cases layers with
  | none => exact spec_pure (hsame rfl)
  | some layers =>
    unfold packLayers
    by_cases hne : layers = []
    · simp only [if_pos hne]
      exact spec_pure (hsame hne)
    · simp only [if_neg hne]
      refine spec_bind (spec_mallocBytes ho fun layerPtrs h₁ ho₁ ↦ ?_)
      refine spec_bind (spec_mallocBytes ho₁ fun lens h₂ ho₂ ↦ ?_)
      refine (spec_packLayerLoop [] [] (ho₂.perm (List.Perm.swap ..)) rfl rfl).bind fun owned' w' h' hloop ↦ ?_
      obtain ⟨rfl, filled, new, ho', hperm, hfilled⟩ := hloop
      let blocks := (layerPtrs, Block.pointers (filled.map some)) ::
        (lens, Block.sizes (layers.map fun layer ↦ some layer.length)) :: new
      have hlift : (blocks ++ (p, Block.bootOpts o) :: qs).Perm
          ((p, Block.bootOpts o) :: (blocks ++ qs)) := List.perm_middle
      refine spec_bind (spec_modify (ho'.perm hlift) fun h₃ ho₃ ↦ ?_)
      refine spec_pure ⟨rfl, _, blocks, ho₃, ?_, Or.inr ⟨layerPtrs, lens, rfl, Or.inr ?_⟩⟩
      · simpa [blocks] using hperm
      · exact ⟨layerPtrs, lens, filled, hne, rfl, rfl, rfl, by simp [blocks], by simp [blocks],
          hfilled.imp fun _ _ hl ↦ hl.mono fun x hx ↦ by simp [blocks, hx]⟩

/-- The blocks of the options are those they own, and hold what the options say. -/
theorem spec_packBootOpts {opts : AgentOsBootOptions} (ho : Owns base qs h) :
    Spec (packBootOpts (some opts))
      (fun packed w' h' ↦ w' = w ∧ ∃ p owned o new, packed = some ⟨p, owned⟩ ∧
        Owns base ((p, .bootOpts o) :: (new ++ qs)) h' ∧ owned.Perm (new.map Prod.fst) ∧
        OptsAt new opts o)
      (OutOfMemory base w) w h := by
  unfold packBootOpts
  refine spec_bind (spec_mallocBytes ho fun p h₀ ho₀ ↦ ?_)
  refine (spec_packBlob ho₀).bind fun owned₁ w' h₁ hbase ↦ ?_
  obtain ⟨rfl, o₁, new₁, ho₁, hperm₁, hbase⟩ := hbase
  refine (spec_packLayers ho₁).bind fun owned₂ w' h₂ hlayers ↦ ?_
  obtain ⟨rfl, o₂, new₂, ho₂, hperm₂, hlayers⟩ := hlayers
  refine (spec_packBlob ho₂).bind fun owned₃ w' h₃ hconns ↦ ?_
  obtain ⟨rfl, o₃, new₃, ho₃, hperm₃, hconns⟩ := hconns
  refine (spec_packBlob ho₃).bind fun owned₄ w' h₄ hpolicies ↦ ?_
  obtain ⟨rfl, o₄, new₄, ho₄, hperm₄, hpolicies⟩ := hpolicies
  refine spec_pure ⟨rfl, p, owned₄, o₄, new₄ ++ new₃ ++ new₂ ++ new₁, rfl, ?_, ?_, ?_⟩
  · simpa using ho₄
  · refine (hperm₄.trans ((hperm₃.trans ((hperm₂.trans (hperm₁.append_right _)).append_right
      _)).append_right _)).trans (List.perm_iff_count.mpr fun a ↦ ?_)
    simp only [List.map_append, List.count_append, List.count_nil]
    omega
  · have hfields : planWith o₄ = planWith (plainFields opts) := by
      rw [hpolicies.proj planWith fun _ _ ↦ rfl, hconns.proj planWith fun _ _ ↦ rfl,
        hlayers.proj planWith fun _ _ _ ↦ rfl, hbase.proj planWith fun _ _ ↦ rfl]
    have hlayersAt : LayersAt new₂ (opts.layers.getD []) o₂ := by
      rcases hlayers with ⟨hnone, rfl⟩ | ⟨layerPtrs, lens, -, hat⟩
      · exact Or.inl ⟨hnone, hbase.proj AosBootOpts.layerCount fun _ _ ↦ rfl⟩
      · exact hat
    refine ⟨?_, ?_, ?_, ?_, fun _ _ _ _ ↦ by rw [hfields]⟩
    · have hat := hbase.blobAt AosBootOpts.baseImage AosBootOpts.baseImageLen (fun _ _ ↦ rfl)
        (fun _ _ ↦ rfl) rfl rfl
      let At (o : AosBootOpts) : Prop := BlobAt new₁ opts.baseImage o.baseImage o.baseImageLen
      have hat₄ : At o₄ := (hpolicies.proj At fun _ _ ↦ rfl).mpr
        ((hconns.proj At fun _ _ ↦ rfl).mpr ((hlayers.proj At fun _ _ _ ↦ rfl).mpr hat))
      exact BlobAt.mono hat₄ fun x hx ↦ by simp [hx]
    · have hat₄ : LayersAt new₂ (opts.layers.getD []) o₄ :=
        (hpolicies.proj (LayersAt _ _) fun _ _ ↦ rfl).mpr
          ((hconns.proj (LayersAt _ _) fun _ _ ↦ rfl).mpr hlayersAt)
      exact hat₄.mono fun x hx ↦ by simp [hx]
    · let Null (o : AosBootOpts) : Prop := o.connectionsBlob = none ∧ o.connectionsLen = 0
      have hnull : Null o₂ :=
        (hlayers.proj Null fun _ _ _ ↦ rfl).mpr ((hbase.proj Null fun _ _ ↦ rfl).mpr ⟨rfl, rfl⟩)
      have hat := hconns.blobAt AosBootOpts.connectionsBlob AosBootOpts.connectionsLen
        (fun _ _ ↦ rfl) (fun _ _ ↦ rfl) hnull.1 hnull.2
      let At (o : AosBootOpts) : Prop :=
        BlobAt new₃ opts.connectionsBlob o.connectionsBlob o.connectionsLen
      have hat₄ : At o₄ := (hpolicies.proj At fun _ _ ↦ rfl).mpr hat
      exact BlobAt.mono hat₄ fun x hx ↦ by simp [hx]
    · let Null (o : AosBootOpts) : Prop :=
        o.connectionPoliciesBlob = none ∧ o.connectionPoliciesLen = 0
      have hnull : Null o₃ := (hconns.proj Null fun _ _ ↦ rfl).mpr
        ((hlayers.proj Null fun _ _ _ ↦ rfl).mpr ((hbase.proj Null fun _ _ ↦ rfl).mpr ⟨rfl, rfl⟩))
      have hat := hpolicies.blobAt AosBootOpts.connectionPoliciesBlob
        AosBootOpts.connectionPoliciesLen (fun _ _ ↦ rfl) (fun _ _ ↦ rfl) hnull.1 hnull.2
      exact hat.mono fun x hx ↦ by simp [hx]

def PackedAs (opts : Option AgentOsBootOptions) (packed : Option BootOptsNative)
    (blocks : List (ℕ × Block)) : Prop :=
  match opts, packed with
  | none, none => blocks = []
  | some opts, some packed =>
    ∃ o new, blocks = (packed.ptr, .bootOpts o) :: new ∧ packed.owned.Perm (new.map Prod.fst) ∧
      OptsAt new opts o
  | _, _ => False

theorem spec_packOpts {opts : Option AgentOsBootOptions} (ho : Owns base qs h) :
    Spec (packBootOpts opts)
      (fun packed w' h' ↦ w' = w ∧ ∃ blocks, Owns base (blocks ++ qs) h' ∧
        PackedAs opts packed blocks)
      (OutOfMemory base w) w h := by
  cases opts with
  | none => exact spec_pure ⟨rfl, [], ho, rfl⟩
  | some opts =>
    refine (spec_packBootOpts ho).mono ?_ fun _ _ _ he ↦ he
    intro packed w' h' hpacked
    obtain ⟨rfl, p, owned, o, new, rfl, ho', hperm, hat⟩ := hpacked
    exact ⟨rfl, (p, .bootOpts o) :: new, ho', o, new, rfl, hperm, hat⟩

theorem spec_freePacked {opts : Option AgentOsBootOptions} {packed : Option BootOptsNative}
    {blocks : List (ℕ × Block)} {Q : Unit → Process H → Heap Block → Prop}
    {E : DartString → Process H → Heap Block → Prop} (ho : Owns base (blocks ++ qs) h)
    (hpacked : PackedAs opts packed blocks) (hQ : ∀ h', Owns base qs h' → Q () w h') :
    Spec (freePacked packed) Q E w h := by
  cases packed with
  | none =>
    cases opts with
    | none =>
      obtain rfl : blocks = [] := hpacked
      exact spec_pure (hQ h ho)
    | some opts => exact hpacked.elim
  | some packed =>
    cases opts with
    | none => exact hpacked.elim
    | some opts =>
      obtain ⟨o, new, rfl, hperm, -⟩ := hpacked
      have haddresses : (packed.ptr :: new.map Prod.fst).Perm (packed.owned ++ [packed.ptr]) :=
        (hperm.symm.cons packed.ptr).trans (List.perm_append_singleton ..).symm
      exact spec_freeAll ho haddresses hQ

end PackSpec

section ReadSpec

variable {base h : Heap Block} {ps : List (ℕ × Block)} {w : Process H}
  {E : DartString → Process H → Heap Block → Prop}

theorem nonEmptyBlob_eq_none {blob : Option Bytes} (hblob : blob.getD [] = []) :
    nonEmptyBlob blob = none := by
  cases blob with
  | none => rfl
  | some data => exact if_pos hblob

theorem nonEmptyBlob_some {data : Bytes} (hne : data ≠ []) : nonEmptyBlob (some data) = some data :=
  if_neg hne

theorem spec_readBase {blob : Option Bytes} {o : AosBootOpts} (ho : Owns base ps h)
    (hat : BlobAt ps blob o.baseImage o.baseImageLen) :
    Spec (readBase o) (Reads w h (.ok (nonEmptyBlob blob))) E w h := by
  unfold readBase
  rcases hat with ⟨hblob, -, hlen⟩ | ⟨a, data, rfl, hne, hptr, hlen, hmem⟩
  · rw [if_neg (by omega), nonEmptyBlob_eq_none hblob]
    exact spec_pure ⟨rfl, rfl, rfl⟩
  · have hpos : 0 < data.length := List.length_pos_of_ne_nil hne
    rw [if_pos (by omega), hptr, nonEmptyBlob_some hne]
    exact spec_bind (spec_readSlice ho hmem hlen (spec_pure ⟨rfl, rfl, rfl⟩))

theorem spec_readBlob {blob : Option Bytes} {ptr : Ptr} {len : ℕ} (ho : Owns base ps h)
    (hat : BlobAt ps blob ptr len) :
    Spec (readBlob ptr len) (Reads w h (nonEmptyBlob blob)) E w h := by
  unfold readBlob
  rcases hat with ⟨hblob, rfl, -⟩ | ⟨a, data, rfl, hne, rfl, hlen, hmem⟩
  · rw [nonEmptyBlob_eq_none hblob]
    exact spec_pure ⟨rfl, rfl, rfl⟩
  · have hpos : 0 < data.length := List.length_pos_of_ne_nil hne
    simp only [nonEmptyBlob_some hne]
    rw [if_pos (by omega)]
    exact spec_bind (spec_readSlice ho hmem hlen (spec_pure ⟨rfl, rfl, rfl⟩))

theorem spec_readLayerLoop (front : List Ptr) (frontSizes : List (Option ℕ)) (out : List Bytes)
    {layerPtrs lens i : ℕ} {filled : List Ptr} {layers : List Bytes} (ho : Owns base ps h)
    (hptrs : (layerPtrs, .pointers ((front ++ filled).map some)) ∈ ps)
    (hlens : (lens, .sizes (frontSizes ++ layers.map fun layer ↦ some layer.length)) ∈ ps)
    (hfilled : List.Forall₂ (LayerAt ps) filled layers) (hfront : front.length = i)
    (hsizes : frontSizes.length = i) :
    Spec (readLayerLoop layerPtrs lens layers.length i out) (Reads w h (.ok (out ++ layers))) E w
      h := by
  induction hfilled generalizing i front frontSizes out with
  | nil => exact spec_pure ⟨by simp, rfl, rfl⟩
  | @cons slot layer filled rest hslot hfilled ih =>
    have hp : (Block.pointers ((front ++ slot :: filled).map some)).pointerAt i = some slot := by
      simp [Block.pointerAt, ← hfront]
    have hn : (Block.sizes (frontSizes ++ (layer :: rest).map fun layer ↦ some layer.length)).sizeAt
        i = some layer.length := by
      simp [Block.sizeAt, ← hsizes]
    have htail (out : List Bytes) := ih (i := i + 1) (front ++ [slot])
      (frontSizes ++ [some layer.length]) out (by simpa using hptrs) (by simpa using hlens)
      (by simp [hfront]) (by simp [hsizes])
    unfold readLayerLoop
    refine spec_bind (spec_load ho hptrs (spec_bind (spec_expect hp ?_)))
    refine spec_bind (spec_load ho hlens (spec_bind (spec_expect hn ?_)))
    rcases hslot with ⟨rfl, rfl⟩ | ⟨a, hne, rfl, hmem⟩
    · rw [if_pos List.length_nil]
      have hread := htail (out ++ [[]])
      rw [List.append_assoc] at hread
      exact hread
    · rw [if_neg (by simpa using hne)]
      refine spec_bind (spec_readSlice ho hmem rfl ?_)
      have hread := htail (out ++ [layer])
      rw [List.append_assoc] at hread
      exact hread

theorem spec_readLayers {layers : List Bytes} {o : AosBootOpts} (ho : Owns base ps h)
    (hat : LayersAt ps layers o) : Spec (readLayers o) (Reads w h (.ok layers)) E w h := by
  unfold readLayers
  rcases hat with ⟨rfl, hcount⟩ | ⟨a, b, filled, hne, ha, hb, hcount, hptrs, hlens, hfilled⟩
  · rw [if_neg (by omega)]
    exact spec_pure ⟨rfl, rfl, rfl⟩
  · have hpos : 0 < layers.length := List.length_pos_of_ne_nil hne
    rw [if_pos (by omega), ha, hb, hcount]
    exact spec_readLayerLoop [] [] [] ho hptrs hlens hfilled rfl rfl

theorem decide_boolToInt (b : Bool) : decide (boolToInt b ≠ 0) = b := by
  cases b <;> rfl

theorem contract_plainFields (opts : AgentOsBootOptions) :
    (if (plainFields opts).hasContract ≠ 0 then
      some ((plainFields opts).contractTier, (plainFields opts).contractBudgetMib,
        (plainFields opts).contractFuel)
    else none) = contractOf opts := by
  unfold plainFields contractOf
  by_cases hparts : opts.contractTier ≠ none ∨ opts.contractBudgetMib ≠ none ∨
      opts.contractFuel ≠ none
  · simp only [if_pos hparts, if_pos (show (1 : Int32) ≠ 0 by decide)]
  · simp only [if_neg hparts, ne_eq, not_true_eq_false, if_false]

theorem workers_plainFields (opts : AgentOsBootOptions) :
    (if 0 < (plainFields opts).workers then some (plainFields opts).workers.toInt32 else none) =
      workersOf opts := by
  unfold plainFields workersOf
  by_cases hzero : opts.workers.toUInt64.toUInt32 = 0
  · simp only [hzero, if_pos, UInt32.lt_irrefl, if_false]
  · rw [if_neg hzero, if_pos (UInt32.pos_iff_ne_zero.mpr hzero)]

theorem planOf_some (opts : AgentOsBootOptions) :
    planOf (some opts) =
      if nonEmptyBlob opts.baseImage ≠ none ∧ opts.layers.getD [] ≠ [] then
        .error "base_image and layers are mutually exclusive"
      else .ok (planWith (plainFields opts) (nonEmptyBlob opts.baseImage) (opts.layers.getD [])
        (nonEmptyBlob opts.connectionsBlob) (nonEmptyBlob opts.connectionPoliciesBlob)) := by
  have hdeterministic : decide ((plainFields opts).deterministic ≠ 0) = opts.deterministic :=
    decide_boolToInt _
  have hsidecar : decide ((plainFields opts).hostCallSidecarOnly ≠ 0) = opts.hostCallSidecarOnly :=
    decide_boolToInt _
  unfold planWith
  rw [contract_plainFields, workers_plainFields, hdeterministic, hsidecar]
  rfl

theorem spec_readOpts {opts : AgentOsBootOptions} {o : AosBootOpts} {p : ℕ} (ho : Owns base ps h)
    (hp : (p, .bootOpts o) ∈ ps) (hat : OptsAt ps opts o) :
    Spec (readOpts (some p)) (Reads w h (planOf (some opts))) E w h := by
  unfold readOpts
  refine spec_bind (spec_load ho hp (spec_bind (spec_expect rfl ?_)))
  refine (spec_readBase ho hat.base).bind fun r w' h' hr ↦ ?_
  obtain ⟨rfl, rfl, rfl⟩ := hr
  refine (spec_readLayers ho hat.layers).bind fun r w' h' hr ↦ ?_
  obtain ⟨rfl, rfl, rfl⟩ := hr
  rw [planOf_some]
  by_cases hboth : nonEmptyBlob opts.baseImage ≠ none ∧ opts.layers.getD [] ≠ []
  · simp only [if_pos hboth]
    exact spec_pure ⟨rfl, rfl, rfl⟩
  · simp only [if_neg hboth]
    refine (spec_readBlob ho hat.connections).bind fun r w' h' hr ↦ ?_
    obtain ⟨rfl, rfl, rfl⟩ := hr
    refine (spec_readBlob ho hat.policies).bind fun r w' h' hr ↦ ?_
    obtain ⟨rfl, rfl, rfl⟩ := hr
    exact spec_pure ⟨by rw [hat.plain], rfl, rfl⟩

theorem spec_readPacked {opts : Option AgentOsBootOptions} {packed : Option BootOptsNative}
    {blocks : List (ℕ × Block)} (ho : Owns base ps h) (hpacked : PackedAs opts packed blocks)
    (hsub : blocks ⊆ ps) :
    Spec (readOpts (packed.map BootOptsNative.ptr)) (Reads w h (planOf opts)) E w h := by
  cases packed with
  | none =>
    cases opts with
    | none => exact spec_pure ⟨rfl, rfl, rfl⟩
    | some opts => exact hpacked.elim
  | some packed =>
    cases opts with
    | none => exact hpacked.elim
    | some opts =>
      obtain ⟨o, new, rfl, -, hat⟩ := hpacked
      exact spec_readOpts ho (hsub List.mem_cons_self)
        (hat.mono fun x hx ↦ hsub (List.mem_cons_of_mem _ hx))

end ReadSpec

end MachineNotebook.Dart.BootOptions
