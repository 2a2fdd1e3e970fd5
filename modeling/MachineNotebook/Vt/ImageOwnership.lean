import MachineNotebook.Vt.ImageCache
import Mathlib.Data.List.Nodup
import Mathlib.Data.List.Range

namespace MachineNotebook.Vt.ImageOwnership

open MachineNotebook.Lib AssocList Run ImageCache

section Ownership

/-- Every image that a call was given is the value of a key or was disposed, and only once. -/
def Owned (w : World) : Prop :=
  (values w.cache.images ++ w.disposed).Perm (List.range w.decoded)

theorem Owned.congr {w w' : World} (h : Owned w) (hi : w'.cache.images = w.cache.images)
    (hd : w'.disposed = w.disposed) (hn : w'.decoded = w.decoded) : Owned w' := by
  rw [Owned, hi, hd, hn]
  exact h

theorem owned_finish (layers : List VtImageLayer) (needed : List String) {w : World}
    (h : Owned w) : Owned (finish layers needed w) := by
  let keep := fun k ↦ needed.contains k
  have hsplit := values_filter_perm keep w.cache.images
  calc (values (w.cache.images.filter fun e ↦ keep e.1) ++
          (w.disposed ++ values (w.cache.images.filter fun e ↦ !keep e.1))).Perm
        (values (w.cache.images.filter fun e ↦ keep e.1) ++
          (values (w.cache.images.filter fun e ↦ !keep e.1) ++ w.disposed)) :=
        (List.perm_append_comm).append_left _
    _ |>.Perm (values w.cache.images ++ w.disposed) := by
        rw [← List.append_assoc]
        exact hsplit.append_right _
    _ |>.Perm (List.range w.decoded) := h

theorem owned_segment {token : ℕ} {layers : List VtImageLayer} {needed : List String}
    {rest : List VtImageLayer} {w : World} (h : Owned w) :
    Owned (syncSegment token layers needed rest w) := by
  unfold syncSegment
  split
  · exact h.congr rfl rfl rfl
  · exact owned_finish layers _ h

theorem owned_install (layer : VtImageLayer) {w w' : World} (h : Owned w)
    (hc : w'.cache = w.cache) (hd : w'.disposed = w.disposed) (hn : w'.decoded = w.decoded + 1) :
    Owned (install layer w.decoded w') := by
  rw [Owned, install, hc, hd, hn, List.range_succ]
  calc (values (put layer.key w.decoded w.cache.images) ++
          (w.disposed ++ (get layer.key w.cache.images).toList)).Perm
        ((values (put layer.key w.decoded w.cache.images) ++
          (get layer.key w.cache.images).toList) ++ w.disposed) := by
        rw [List.append_assoc]
        exact List.perm_append_comm.append_left _
    _ |>.Perm ((values w.cache.images ++ [w.decoded]) ++ w.disposed) :=
        (values_put_perm _ _ _).append_right _
    _ |>.Perm ((values w.cache.images ++ w.disposed) ++ [w.decoded]) := by
        rw [List.append_assoc, List.append_assoc]
        exact List.perm_append_comm.append_left _
    _ |>.Perm (List.range w.decoded ++ [w.decoded]) := h.append_right _

theorem owned_disposeNew {w w' : World} (h : Owned w) (hc : w'.cache = w.cache)
    (hd : w'.disposed = w.disposed ++ [w.decoded]) (hn : w'.decoded = w.decoded + 1) : Owned w' := by
  rw [Owned, hc, hd, hn, List.range_succ, ← List.append_assoc]
  exact h.append_right _

inductive Resumed (engine : Bool) (call : SyncCall) (w : World) : World → Prop
  | overtaken {w' : World} : call.token ≠ w.cache.syncGen → w'.cache = w.cache →
      w'.awaiting = w.awaiting → (w'.disposed = w.disposed ∧ w'.decoded = w.decoded ∨
        w'.disposed = w.disposed ++ [w.decoded] ∧ w'.decoded = w.decoded + 1) →
      Resumed engine call w w'
  | missed : call.token = w.cache.syncGen → (call.awaited.decodable && engine) = false →
      Resumed engine call w (syncSegment call.token call.layers call.needed call.rest w)
  | installed : call.token = w.cache.syncGen → (call.awaited.decodable && engine) = true →
      Resumed engine call w (syncSegment call.token call.layers call.needed call.rest
        (install call.awaited w.decoded { w with decoded := w.decoded + 1 }))

theorem resumed (engine : Bool) (call : SyncCall) (w : World) :
    Resumed engine call w (resume engine call w) := by
  unfold resume decodeLayer
  by_cases hdec : (call.awaited.decodable && engine) = true
  · simp only [hdec, if_true]
    by_cases htoken : call.token = w.cache.syncGen
    · rw [if_neg (not_not.mpr htoken)]
      exact .installed htoken hdec
    · rw [if_pos htoken]
      exact .overtaken htoken rfl rfl (Or.inr ⟨rfl, rfl⟩)
  · simp only [hdec, if_false, Bool.false_eq_true]
    by_cases htoken : call.token = w.cache.syncGen
    · rw [if_neg (not_not.mpr htoken)]
      exact .missed htoken (Bool.eq_false_of_not_eq_true hdec)
    · rw [if_pos htoken]
      exact .overtaken htoken rfl rfl (Or.inl ⟨List.append_nil _, rfl⟩)

theorem owned_resume {engine : Bool} {call : SyncCall} {w : World} (h : Owned w) :
    Owned (resume engine call w) := by
  have hres := resumed engine call w
  generalize resume engine call w = w' at hres
  cases hres with
  | overtaken _ hc _ himg =>
    rcases himg with ⟨hd, hn⟩ | ⟨hd, hn⟩
    · exact h.congr (congrArg _ hc) hd hn
    · exact owned_disposeNew h hc hd hn
  | missed => exact owned_segment h
  | installed => exact owned_segment (owned_install _ h rfl rfl rfl)

theorem owned_step (engine : ℕ → ℕ → Bool) (op : CacheOp) (w : World) (h : Owned w) :
    Owned (cacheStep engine op w).2 := by
  cases op with
  | sync layers => exact owned_segment h
  | resume token =>
    rw [cacheStep]
    cases w.awaiting.find? fun call ↦ call.token = token with
    | none => exact h
    | some call => exact owned_resume (h.congr rfl rfl rfl)
  | dispose =>
    have hall : (w.disposed ++ values w.cache.images).Perm (List.range w.decoded) :=
      List.perm_append_comm.trans h
    exact hall

theorem Owned.disposed_nodup {w : World} (h : Owned w) : w.disposed.Nodup :=
  (List.nodup_append.mp (h.nodup_iff.mpr List.nodup_range)).2.1

theorem Owned.mem_values_iff {w : World} (h : Owned w) (img : Image) :
    img ∈ values w.cache.images ↔ img < w.decoded ∧ img ∉ w.disposed := by
  have hmem : img ∈ values w.cache.images ∨ img ∈ w.disposed ↔ img < w.decoded := by
    rw [← List.mem_append, h.mem_iff, List.mem_range]
  have hdisj := (List.nodup_append.mp (h.nodup_iff.mpr List.nodup_range)).2.2
  constructor
  · intro himg
    exact ⟨hmem.mp (Or.inl himg), fun hd ↦ hdisj img himg img hd rfl⟩
  · intro hboth
    obtain ⟨hlt, hd⟩ := hboth
    exact (hmem.mpr hlt).resolve_right hd

end Ownership

section Tokens

def callCount (ops : List CacheOp) : ℕ := ops.countP CacheOp.isCall

def awaitingTokens (w : World) : List ℕ := w.awaiting.map SyncCall.token

/-- The tokens of the calls that await are distinct, and none is newer than the last call's. -/
structure TokensOk (w : World) : Prop where
  nodup : (awaitingTokens w).Nodup
  le : ∀ t ∈ awaitingTokens w, t ≤ w.cache.syncGen

theorem segment_syncGen (token : ℕ) (layers : List VtImageLayer) (needed : List String)
    (rest : List VtImageLayer) (w : World) :
    (syncSegment token layers needed rest w).cache.syncGen = w.cache.syncGen := by
  unfold syncSegment
  split
  · rfl
  · rfl

theorem segment_tokens (token : ℕ) (layers : List VtImageLayer) (needed : List String)
    (rest : List VtImageLayer) (w : World) :
    awaitingTokens (syncSegment token layers needed rest w) = awaitingTokens w ∨
      awaitingTokens (syncSegment token layers needed rest w) = awaitingTokens w ++ [token] := by
  unfold syncSegment
  split
  · exact Or.inr (by simp [awaitingTokens])
  · exact Or.inl rfl

theorem TokensOk.segment {token : ℕ} {layers : List VtImageLayer} {needed : List String}
    {rest : List VtImageLayer} {w : World} (h : TokensOk w) (hnew : token ∉ awaitingTokens w)
    (hle : token ≤ w.cache.syncGen) : TokensOk (syncSegment token layers needed rest w) := by
  constructor
  · rcases segment_tokens token layers needed rest w with heq | heq
    · rw [heq]
      exact h.nodup
    · rw [heq]
      exact h.nodup.append (List.nodup_singleton token) (by simpa using hnew)
  · intro t ht
    rw [segment_syncGen]
    rcases segment_tokens token layers needed rest w with heq | heq
    · exact h.le t (heq ▸ ht)
    · rw [heq, List.mem_append, List.mem_singleton] at ht
      rcases ht with ht | rfl
      · exact h.le t ht
      · exact hle

theorem find_token {w : World} {token : ℕ} {call : SyncCall}
    (h : w.awaiting.find? (fun call ↦ call.token = token) = some call) :
    call ∈ w.awaiting ∧ call.token = token :=
  ⟨List.mem_of_find?_eq_some h, by simpa using List.find?_some h⟩

/-- The world when a call with this token goes on: it awaits no more. -/
def taken (token : ℕ) (w : World) : World :=
  { w with awaiting := w.awaiting.filter fun call ↦ call.token ≠ token }

theorem mem_taken {token t : ℕ} {w : World} :
    t ∈ awaitingTokens (taken token w) ↔ t ∈ awaitingTokens w ∧ t ≠ token := by
  simp only [awaitingTokens, taken, List.mem_map, List.mem_filter, decide_eq_true_eq]
  constructor
  · intro h
    obtain ⟨call, ⟨hmem, hne⟩, rfl⟩ := h
    exact ⟨⟨call, hmem, rfl⟩, hne⟩
  · intro h
    obtain ⟨⟨call, hmem, rfl⟩, hne⟩ := h
    exact ⟨call, ⟨hmem, hne⟩, rfl⟩

theorem TokensOk.taken {w : World} (h : TokensOk w) (token : ℕ) : TokensOk (taken token w) := by
  constructor
  · exact h.nodup.sublist (List.filter_sublist.map _)
  · intro t ht
    exact h.le t (mem_taken.mp ht).1

theorem cacheStep_resume (engine : ℕ → ℕ → Bool) (token : ℕ) (w : World) :
    (cacheStep engine (.resume token) w).2 = w ∧
        w.awaiting.find? (fun call ↦ call.token = token) = none ∨
      ∃ call, w.awaiting.find? (fun call ↦ call.token = token) = some call ∧
        Resumed (engine token call.rest.length) call (taken token w)
          (cacheStep engine (.resume token) w).2 := by
  rw [cacheStep]
  cases hfind : w.awaiting.find? fun call ↦ call.token = token with
  | none => exact Or.inl ⟨rfl, rfl⟩
  | some call => exact Or.inr ⟨call, rfl, resumed _ call (taken token w)⟩

theorem step_syncGen (engine : ℕ → ℕ → Bool) (op : CacheOp) (w : World) :
    (cacheStep engine op w).2.cache.syncGen = w.cache.syncGen + if op.isCall then 1 else 0 := by
  cases op with
  | sync layers => exact segment_syncGen _ _ _ _ _
  | resume token =>
    rcases cacheStep_resume engine token w with ⟨hsame, -⟩ | ⟨call, -, hres⟩
    · rw [hsame]
      rfl
    · generalize (cacheStep engine (.resume token) w).2 = w' at hres
      cases hres with
      | overtaken _ hc => exact congrArg _ hc
      | missed => exact segment_syncGen _ _ _ _ _
      | installed => exact segment_syncGen _ _ _ _ _
  | dispose => rfl

theorem tokensOk_step (engine : ℕ → ℕ → Bool) (op : CacheOp) (w : World) (h : TokensOk w) :
    TokensOk (cacheStep engine op w).2 := by
  cases op with
  | sync layers =>
    refine TokensOk.segment ⟨h.nodup, fun t ht ↦ Nat.le_succ_of_le (h.le t ht)⟩ ?_ le_rfl
    intro hmem
    have hle : w.cache.syncGen + 1 ≤ w.cache.syncGen := h.le _ hmem
    omega
  | resume token =>
    rcases cacheStep_resume engine token w with ⟨hsame, -⟩ | ⟨call, hfind, hres⟩
    · rw [hsame]
      exact h
    · obtain ⟨hmem, rfl⟩ := find_token hfind
      have htaken := h.taken call.token
      have hnew : call.token ∉ awaitingTokens (taken call.token w) :=
        fun hmem ↦ (mem_taken.mp hmem).2 rfl
      have hle : call.token ≤ w.cache.syncGen := h.le _ (List.mem_map_of_mem hmem)
      generalize (cacheStep engine (.resume call.token) w).2 = w' at hres
      cases hres with
      | overtaken _ hc ha _ =>
        refine ⟨?_, fun t ht ↦ ?_⟩
        · rw [awaitingTokens, ha]
          exact htaken.nodup
        · rw [awaitingTokens, ha] at ht
          rw [hc]
          exact htaken.le t ht
      | missed => exact htaken.segment hnew hle
      | installed => exact TokensOk.segment ⟨htaken.nodup, htaken.le⟩ hnew hle
  | dispose => exact ⟨h.nodup, fun t ht ↦ Nat.le_succ_of_le (h.le t ht)⟩

theorem overtaken_cache (engine : ℕ → ℕ → Bool) {token : ℕ} {w : World}
    (h : token ≠ w.cache.syncGen) :
    (cacheStep engine (.resume token) w).2.cache = w.cache := by
  rcases cacheStep_resume engine token w with ⟨hsame, -⟩ | ⟨call, hfind, hres⟩
  · rw [hsame]
  · obtain ⟨-, rfl⟩ := find_token hfind
    generalize (cacheStep engine (.resume call.token) w).2 = w' at hres
    cases hres with
    | overtaken _ hc => exact hc
    | missed hlast => exact absurd hlast h
    | installed hlast => exact absurd hlast h

theorem syncGen_final (engine : ℕ → ℕ → Bool) (ops : List CacheOp) (w : World) :
    (final (cacheStep engine) ops w).cache.syncGen = w.cache.syncGen + callCount ops := by
  induction ops generalizing w with
  | nil => rfl
  | cons op ops ih =>
    rw [final_cons, ih, step_syncGen, callCount, callCount, List.countP_cons]
    omega

end Tokens

section LastSync

variable (engine : ℕ → ℕ → Bool) (token : ℕ) (layers : List VtImageLayer)

/-- The layers with at least `n` behind them whose decoding yields an image have one. -/
def Kept (images : List (String × Image)) (n : ℕ) : Prop :=
  ∀ done layer rest, layers = done ++ layer :: rest → n ≤ rest.length →
    (layer.decodable && engine token rest.length) = true → layer.key ∈ keys images

/-- What the painter is to draw of a layer. -/
def entryOf (images : List (String × Image)) (layer : VtImageLayer) : Option VtPaintImage :=
  if layer.viewportVisible then (get layer.key images).map fun image ↦ ⟨image, layer⟩ else none

/-- The cache that a sync with these layers leaves. -/
structure Settled (cache : VtImageCache) : Prop where
  keys : ∀ k ∈ keys cache.images, ∃ layer ∈ layers, layer.key = k
  kept : ∀ done layer rest, layers = done ++ layer :: rest →
    (layer.decodable && engine token rest.length) = true → layer.key ∈ AssocList.keys cache.images
  below : cache.paintBelow = (layers.filter fun layer ↦ layer.z < 0).filterMap (entryOf cache.images)
  above : cache.paintAbove =
    (layers.filter fun layer ↦ !decide (layer.z < 0)).filterMap (entryOf cache.images)

/-- How far a sync with these layers is: it awaits a decode, or it has left its result. -/
inductive Progress (w : World) : Prop
  | waiting {call : SyncCall} {done : List VtImageLayer} : call ∈ w.awaiting →
      call.token = token → call.layers = layers → layers = done ++ call.awaited :: call.rest →
      call.needed = (done ++ [call.awaited]).map VtImageLayer.key →
      Kept engine token layers w.cache.images (call.rest.length + 1) → Progress w
  | settled : token ∉ awaitingTokens w → Settled engine token layers w.cache → Progress w

variable {engine token layers}

theorem Kept.mono {images images' : List (String × Image)} {n : ℕ}
    (h : Kept engine token layers images n) (hsub : ∀ k ∈ keys images, k ∈ keys images') :
    Kept engine token layers images' n :=
  fun done layer rest heq hn hyield ↦ hsub _ (h done layer rest heq hn hyield)

/-- One layer more: the one that stands before the last `n`. -/
theorem Kept.extend {images : List (String × Image)} {done rest : List VtImageLayer}
    {layer : VtImageLayer} (hlayers : layers = done ++ layer :: rest)
    (h : Kept engine token layers images (rest.length + 1))
    (hlayer : (layer.decodable && engine token rest.length) = true → layer.key ∈ keys images) :
    Kept engine token layers images rest.length := by
  intro done' layer' rest' heq hn hyield
  by_cases hlen : rest'.length = rest.length
  · obtain ⟨-, hcons⟩ := List.append_inj' (hlayers.symm.trans heq) (by simp [hlen])
    obtain ⟨rfl, rfl⟩ := List.cons.inj hcons
    exact hlayer hyield
  · exact h done' layer' rest' heq (by omega) hyield

theorem paintLists_eq (images : List (String × Image)) (layers : List VtImageLayer) :
    paintLists images layers =
      ((layers.filter fun layer ↦ layer.z < 0).filterMap (entryOf images),
        (layers.filter fun layer ↦ !decide (layer.z < 0)).filterMap (entryOf images)) := by
  induction layers with
  | nil => rfl
  | cons layer rest ih =>
    simp only [paintLists, ih]
    cases hvis : layer.viewportVisible with
    | false =>
      by_cases hz : layer.z < 0
      · simp [hz, entryOf, hvis]
      · simp [hz, entryOf, hvis]
    | true =>
      cases hget : get layer.key images with
      | none =>
        by_cases hz : layer.z < 0
        · simp [hz, entryOf, hvis, hget]
        · simp [hz, entryOf, hvis, hget]
      | some image =>
        by_cases hz : layer.z < 0
        · simp [hz, entryOf, hvis, hget]
        · simp [hz, entryOf, hvis, hget]

theorem settled_finish {needed : List String} {w : World}
    (hneeded : needed = layers.map VtImageLayer.key)
    (hkept : Kept engine token layers w.cache.images 0) :
    Settled engine token layers (finish layers needed w).cache := by
  subst hneeded
  have hkeys (k : String) : k ∈ keys (finish layers (layers.map VtImageLayer.key) w).cache.images ↔
      k ∈ keys w.cache.images ∧ (layers.map VtImageLayer.key).contains k = true :=
    mem_keys_filter (p := fun k ↦ (layers.map VtImageLayer.key).contains k)
  have hlists := paintLists_eq (finish layers (layers.map VtImageLayer.key) w).cache.images layers
  constructor
  · intro k hk
    simpa using ((hkeys k).mp hk).2
  · intro done layer rest heq hyield
    refine (hkeys _).mpr ⟨hkept done layer rest heq (Nat.zero_le _) hyield, ?_⟩
    simp [heq]
  · exact congrArg Prod.fst hlists
  · exact congrArg Prod.snd hlists

theorem progress_segment {done rest : List VtImageLayer} {needed : List String} {w : World}
    (hlayers : layers = done ++ rest) (hneeded : needed = done.map VtImageLayer.key)
    (hkept : Kept engine token layers w.cache.images rest.length)
    (hnew : token ∉ awaitingTokens w) :
    Progress engine token layers (syncSegment token layers needed rest w) := by
  induction rest generalizing done needed with
  | nil =>
    rw [List.append_nil] at hlayers
    refine .settled hnew ?_
    exact settled_finish (by rw [hneeded, hlayers]) hkept
  | cons layer rest ih =>
    have hdone : layers = (done ++ [layer]) ++ rest := by simp [hlayers]
    have hneeded' : needed ++ [layer.key] = (done ++ [layer]).map VtImageLayer.key := by
      simp [hneeded]
    by_cases hcached : cached w.cache layer = true
    · have hstep : syncSegment token layers needed (layer :: rest) w =
          syncSegment token layers (needed ++ [layer.key]) rest w := by
        unfold syncSegment
        rw [syncLoop, if_pos hcached]
      rw [hstep]
      refine ih hdone hneeded' (hkept.extend hlayers fun _ ↦ ?_)
      rw [cached, Bool.and_eq_true] at hcached
      exact get_isSome.mp hcached.2
    · unfold syncSegment
      rw [syncLoop, if_neg hcached]
      exact .waiting (List.mem_append_right _ (List.mem_singleton_self _)) rfl rfl hlayers hneeded'
        hkept

theorem unique_call {w : World} (h : TokensOk w) {call call' : SyncCall} (hc : call ∈ w.awaiting)
    (hc' : call' ∈ w.awaiting) (heq : call.token = call'.token) : call = call' :=
  List.inj_on_of_nodup_map h.nodup hc hc' heq

theorem progress_resume (t : ℕ) {w : World} (htokens : TokensOk w)
    (hlast : token = w.cache.syncGen) (h : Progress engine token layers w) :
    Progress engine token layers (cacheStep engine (.resume t) w).2 := by
  rcases cacheStep_resume engine t w with ⟨hsame, -⟩ | ⟨call, hfind, hres⟩
  · rw [hsame]
    exact h
  · obtain ⟨hmem, rfl⟩ := find_token hfind
    have hcache : call.token ≠ w.cache.syncGen →
        (cacheStep engine (.resume call.token) w).2.cache = w.cache := overtaken_cache engine
    generalize (cacheStep engine (.resume call.token) w).2 = w' at hres hcache
    by_cases ht : call.token = token
    · subst ht
      cases h with
      | settled hnone _ => exact absurd (List.mem_map_of_mem hmem) hnone
      | @waiting call' done hmem' htoken hlayers hsplit hneeded hkept =>
        obtain rfl := unique_call htokens hmem hmem' htoken.symm
        have hnew : call.token ∉ awaitingTokens (taken call.token w) :=
          fun hin ↦ (mem_taken.mp hin).2 rfl
        have hdone : layers = (done ++ [call.awaited]) ++ call.rest := by simp [hsplit]
        cases hres with
        | overtaken hne => exact absurd hlast hne
        | missed _ hno =>
          rw [hlayers]
          refine progress_segment hdone hneeded (hkept.extend hsplit fun hyes ↦ ?_) hnew
          exact absurd (hno.symm.trans hyes) Bool.false_ne_true
        | installed _ _ =>
          rw [hlayers]
          refine progress_segment hdone hneeded ?_ hnew
          have hput : ∀ k ∈ keys w.cache.images,
              k ∈ keys (put call.awaited.key w.decoded w.cache.images) :=
            fun k hk ↦ mem_keys_put.mpr (Or.inr hk)
          exact (hkept.mono hput).extend hsplit fun _ ↦ mem_keys_put.mpr (Or.inl rfl)
    · have hc := hcache (hlast ▸ ht)
      have hawaiting : w'.awaiting = (taken call.token w).awaiting := by
        cases hres with
        | overtaken _ _ ha _ => exact ha
        | missed hlast' => exact absurd (hlast'.trans hlast.symm) ht
        | installed hlast' => exact absurd (hlast'.trans hlast.symm) ht
      cases h with
      | @waiting call' done hmem' htoken hlayers hsplit hneeded hkept =>
        have hstill : call' ∈ w'.awaiting := by
          rw [hawaiting]
          exact List.mem_filter.mpr ⟨hmem', by simpa [htoken] using Ne.symm ht⟩
        exact .waiting hstill htoken hlayers hsplit hneeded (by rwa [hc])
      | settled hnone hsettled =>
        refine .settled (fun hin ↦ hnone ?_) (by rwa [hc])
        rw [awaitingTokens, hawaiting] at hin
        exact (mem_taken.mp hin).1

theorem kept_start (images : List (String × Image)) :
    Kept engine token layers images layers.length := by
  intro done layer rest heq hn _
  have hlen := congrArg List.length heq
  simp only [List.length_append, List.length_cons] at hlen
  omega

theorem progress_run {post : List CacheOp} {w : World} (htokens : TokensOk w)
    (hlast : token = w.cache.syncGen) (hpost : ∀ op ∈ post, op.isCall = false)
    (h : Progress engine token layers w) :
    Progress engine token layers (final (cacheStep engine) post w) := by
  induction post generalizing w with
  | nil => exact h
  | cons op post ih =>
    have hop := hpost op List.mem_cons_self
    have hgen := step_syncGen engine op w
    rw [hop, if_neg Bool.false_ne_true, Nat.add_zero] at hgen
    refine ih (tokensOk_step engine op w htokens) (hlast.trans hgen.symm)
      (fun op h ↦ hpost op (List.mem_cons_of_mem _ h)) ?_
    cases op with
    | resume t => exact progress_resume t htokens hlast h
    | sync _ => cases hop
    | dispose => cases hop

end LastSync

def after (engine : ℕ → ℕ → Bool) (ops : List CacheOp) : World := final (cacheStep engine) ops {}

/-- Who owns the images, and that the last call wins: each image is disposed at most once, those
that are not are the values of the map, a call that was overtaken changes nothing, and when no
call is under way the cache is what the last sync asks for. -/
theorem images_owned (engine : ℕ → ℕ → Bool) (ops : List CacheOp) :
    let w := after engine ops
    w.disposed.Nodup ∧
      (∀ img, img ∈ values w.cache.images ↔ img < w.decoded ∧ img ∉ w.disposed) ∧
      (∀ pre layers mid, ops = pre ++ .sync layers :: mid → (∃ op ∈ mid, op.isCall = true) →
        (cacheStep engine (.resume (callCount pre + 1)) w).2.cache = w.cache) ∧
      ∀ pre layers post, ops = pre ++ .sync layers :: post → (∀ op ∈ post, op.isCall = false) →
        w.awaiting = [] → Settled engine (callCount pre + 1) layers w.cache := by
  have howned : Owned (after engine ops) := invariant (owned_step engine) ops (List.Perm.refl _)
  refine ⟨howned.disposed_nodup, howned.mem_values_iff, ?_, ?_⟩
  · rintro pre layers mid rfl ⟨op, hmem, hop⟩
    apply overtaken_cache
    rw [after, syncGen_final, callCount, callCount, List.countP_append, List.countP_cons]
    have hpos : 0 < mid.countP CacheOp.isCall := List.countP_pos_iff.mpr ⟨op, hmem, hop⟩
    simp only [CacheOp.isCall, if_true]
    omega
  · rintro pre layers post rfl hpost hnone
    have hpre : TokensOk (after engine pre) :=
      invariant (tokensOk_step engine) pre ⟨List.nodup_nil, fun t ht ↦ absurd ht List.not_mem_nil⟩
    have hgen : (after engine pre).cache.syncGen = callCount pre := by
      rw [after, syncGen_final]
      exact Nat.zero_add _
    have hsync : Progress engine (callCount pre + 1) layers
        (cacheStep engine (.sync layers) (after engine pre)).2 := by
      rw [← hgen]
      have hall : layers = [] ++ layers := rfl
      refine progress_segment hall rfl (kept_start _) fun hin ↦ ?_
      have hle : (after engine pre).cache.syncGen + 1 ≤ (after engine pre).cache.syncGen :=
        hpre.le _ hin
      omega
    have hrun := progress_run (tokensOk_step engine (.sync layers) _ hpre)
      (by rw [step_syncGen, hgen]; rfl) hpost hsync
    have hfinal : final (cacheStep engine) post (cacheStep engine (.sync layers)
        (after engine pre)).2 = after engine (pre ++ .sync layers :: post) := by
      rw [after, after, final_append, final_cons]
    rw [hfinal] at hrun
    cases hrun with
    | waiting hmem =>
      rw [hnone] at hmem
      exact absurd hmem List.not_mem_nil
    | settled _ hsettled => exact hsettled

end MachineNotebook.Vt.ImageOwnership
