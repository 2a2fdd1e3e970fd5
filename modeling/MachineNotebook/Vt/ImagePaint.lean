import MachineNotebook.Vt.ImageOwnership

namespace MachineNotebook.Vt.ImagePaint

open MachineNotebook.Lib AssocList Run ImageCache ImageOwnership

def painted (cache : VtImageCache) : List Image :=
  (cache.paintBelow ++ cache.paintAbove).map VtPaintImage.image

/-- No image in a paint list was disposed. -/
def Live (w : World) : Prop := ∀ img ∈ painted w.cache, img ∉ w.disposed

def cachedAfter (cache : VtImageCache) (layer' layer : VtImageLayer) : Bool :=
  if layer.key = layer'.key then decide (layer.generation = layer'.generation)
  else cached cache layer

/-- The resumed sync is the last call, its decode gave an image, the image that this replaces is in
a paint list, and the sync has another layer to decode before it makes the lists anew. -/
def Severs (engine : ℕ → ℕ → Bool) : CacheOp → World → Prop
  | .resume token, w =>
    token = w.cache.syncGen ∧ ∃ call ∈ w.awaiting, call.token = token ∧
      (call.awaited.decodable && engine token call.rest.length) = true ∧
      (∃ old ∈ get call.awaited.key w.cache.images, old ∈ painted w.cache) ∧
      ∃ layer ∈ call.rest, cachedAfter w.cache call.awaited layer = false
  | _, _ => False

section Segments

theorem syncLoop_cases (cache : VtImageCache) (needed : List String) (rest : List VtImageLayer) :
    (∀ layer ∈ rest, cached cache layer = true) ∧
        (∃ needed', syncLoop cache needed rest = (needed', none)) ∨
      (∃ layer ∈ rest, cached cache layer = false) ∧
        ∃ needed' next, syncLoop cache needed rest = (needed', some next) := by
  induction rest generalizing needed with
  | nil => exact Or.inl ⟨fun layer h ↦ absurd h List.not_mem_nil, needed, rfl⟩
  | cons layer rest ih =>
    cases hcached : cached cache layer with
    | false =>
      refine Or.inr ⟨⟨layer, List.mem_cons_self, hcached⟩, needed ++ [layer.key], (layer, rest), ?_⟩
      rw [syncLoop, if_neg (by simp [hcached])]
    | true =>
      rw [syncLoop, if_pos hcached]
      rcases ih (needed ++ [layer.key]) with ⟨hall, hloop⟩ | ⟨⟨other, hmem, hother⟩, hloop⟩
      · exact Or.inl ⟨List.forall_mem_cons.mpr ⟨hcached, hall⟩, hloop⟩
      · exact Or.inr ⟨⟨other, List.mem_cons_of_mem _ hmem, hother⟩, hloop⟩

theorem segment_cases (token : ℕ) (layers : List VtImageLayer) (needed : List String)
    (rest : List VtImageLayer) (w : World) :
    (∀ layer ∈ rest, cached w.cache layer = true) ∧
        (∃ needed', syncSegment token layers needed rest w = finish layers needed' w) ∨
      (∃ layer ∈ rest, cached w.cache layer = false) ∧
        ∃ call, syncSegment token layers needed rest w =
          { w with awaiting := w.awaiting ++ [call] } := by
  rcases syncLoop_cases w.cache needed rest with ⟨hall, needed', hloop⟩ | ⟨hsome, needed', next, hloop⟩
  · refine Or.inl ⟨hall, needed', ?_⟩
    rw [syncSegment, hloop]
  · refine Or.inr ⟨hsome, ⟨token, layers, needed', next.1, next.2⟩, ?_⟩
    rw [syncSegment, hloop]

theorem mem_values_of_entry {images : List (String × Image)} {layers : List VtImageLayer}
    {p : VtPaintImage} (h : p ∈ layers.filterMap (entryOf images)) : p.image ∈ values images := by
  obtain ⟨layer, -, hentry⟩ := List.mem_filterMap.mp h
  unfold entryOf at hentry
  split at hentry
  · obtain ⟨image, hget, rfl⟩ := Option.map_eq_some_iff.mp hentry
    exact mem_values_of_get hget
  · cases hentry

theorem painted_finish (layers : List VtImageLayer) (needed : List String) (w : World) :
    ∀ img ∈ painted (finish layers needed w).cache,
      img ∈ values (finish layers needed w).cache.images := by
  intro img himg
  obtain ⟨p, hp, rfl⟩ := List.mem_map.mp himg
  have hlists := paintLists_eq (finish layers needed w).cache.images layers
  have hbelow : (finish layers needed w).cache.paintBelow = _ := congrArg Prod.fst hlists
  have habove : (finish layers needed w).cache.paintAbove = _ := congrArg Prod.snd hlists
  rw [hbelow, habove] at hp
  rcases List.mem_append.mp hp with hp | hp
  · exact mem_values_of_entry hp
  · exact mem_values_of_entry hp

theorem cached_install (layer' layer : VtImageLayer) (img : Image) (w : World) :
    cached (install layer' img w).cache layer = cachedAfter w.cache layer' layer := by
  unfold cachedAfter cached install
  by_cases hk : layer.key = layer'.key
  · simp [hk, get_put_self, eq_comm]
  · have hk' : layer'.key ≠ layer.key := Ne.symm hk
    simp [hk, get_put_of_ne hk']

end Segments

structure PaintOk (w : World) : Prop where
  owned : Owned w
  tokens : TokensOk w
  drawn : ∀ img ∈ painted w.cache, img < w.decoded

theorem live_of_values {w : World} (h : Owned w)
    (hp : ∀ img ∈ painted w.cache, img ∈ values w.cache.images) : Live w :=
  fun img himg ↦ ((h.mem_values_iff img).mp (hp img himg)).2

theorem painted_segment (token : ℕ) (layers : List VtImageLayer) (needed : List String)
    (rest : List VtImageLayer) (w : World) :
    (∀ img ∈ painted (syncSegment token layers needed rest w).cache,
        img ∈ values (syncSegment token layers needed rest w).cache.images) ∨
      (syncSegment token layers needed rest w).cache = w.cache := by
  rcases segment_cases token layers needed rest w with ⟨-, needed', heq⟩ | ⟨-, call, heq⟩
  · rw [heq]
    exact Or.inl (painted_finish layers needed' w)
  · rw [heq]
    exact Or.inr rfl

theorem segment_decoded (token : ℕ) (layers : List VtImageLayer) (needed : List String)
    (rest : List VtImageLayer) (w : World) :
    (syncSegment token layers needed rest w).decoded = w.decoded := by
  unfold syncSegment
  split
  · rfl
  · rfl

theorem drawn_segment {token : ℕ} {layers : List VtImageLayer} {needed : List String}
    {rest : List VtImageLayer} {w : World} (howned : Owned w)
    (h : ∀ img ∈ painted w.cache, img < w.decoded) :
    ∀ img ∈ painted (syncSegment token layers needed rest w).cache,
      img < (syncSegment token layers needed rest w).decoded := by
  intro img himg
  rcases painted_segment token layers needed rest w with hvalues | hsame
  · exact (((owned_segment howned).mem_values_iff img).mp (hvalues img himg)).1
  · rw [segment_decoded]
    exact h img (hsame ▸ himg)

theorem paintOk_step (engine : ℕ → ℕ → Bool) (op : CacheOp) (w : World) (h : PaintOk w) :
    PaintOk (cacheStep engine op w).2 := by
  refine ⟨owned_step engine op w h.owned, tokensOk_step engine op w h.tokens, ?_⟩
  cases op with
  | sync layers =>
    refine drawn_segment (h.owned.congr rfl rfl rfl) ?_
    exact h.drawn
  | resume token =>
    rcases cacheStep_resume engine token w with ⟨hsame, -⟩ | ⟨call, -, hres⟩
    · rw [hsame]
      exact h.drawn
    · have howned : Owned (taken token w) := h.owned
      generalize (cacheStep engine (.resume token) w).2 = w' at hres
      cases hres with
      | overtaken _ hc _ himg =>
        intro img hdrawn
        have hlt : img < w.decoded := h.drawn img (hc ▸ hdrawn)
        rcases himg with ⟨-, hn⟩ | ⟨-, hn⟩
        · exact hn ▸ hlt
        · exact hn ▸ Nat.lt_succ_of_lt hlt
      | missed => exact drawn_segment howned h.drawn
      | installed =>
        refine drawn_segment (owned_install _ howned rfl rfl rfl) fun img himg ↦ ?_
        exact Nat.lt_succ_of_lt (h.drawn img himg)
  | dispose => exact fun img himg ↦ absurd himg List.not_mem_nil

theorem live_segment {token : ℕ} {layers : List VtImageLayer} {needed : List String}
    {rest : List VtImageLayer} {w : World} (howned : Owned w) (h : Live w) :
    Live (syncSegment token layers needed rest w) := by
  rcases segment_cases token layers needed rest w with ⟨-, needed', heq⟩ | ⟨-, call, heq⟩
  · rw [heq]
    exact live_of_values (owned_finish layers needed' howned) (painted_finish layers needed' w)
  · rw [heq]
    exact h

theorem live_append_iff {w w' : World} {img : Option Image} (h : Live w)
    (hp : painted w'.cache = painted w.cache) (hd : w'.disposed = w.disposed ++ img.toList) :
    Live w' ↔ ∀ old ∈ img, old ∉ painted w.cache := by
  rw [Live, hp, hd]
  constructor
  · intro hlive old hold hmem
    exact hlive old hmem (List.mem_append_right _ (Option.mem_toList.mpr hold))
  · intro hnone old hmem hdisposed
    rcases List.mem_append.mp hdisposed with hold | hnew
    · exact h old hmem hold
    · exact hnone old (Option.mem_toList.mp hnew) hmem

theorem live_installed_iff {call : SyncCall} {w : World} (howned : Owned w) (h : Live w) :
    Live (syncSegment call.token call.layers call.needed call.rest
        (install call.awaited w.decoded { w with decoded := w.decoded + 1 })) ↔
      ¬((∃ old ∈ get call.awaited.key w.cache.images, old ∈ painted w.cache) ∧
        ∃ layer ∈ call.rest, cachedAfter w.cache call.awaited layer = false) := by
  have hinstalled : Owned (install call.awaited w.decoded { w with decoded := w.decoded + 1 }) :=
    owned_install _ howned rfl rfl rfl
  have hcached (layer : VtImageLayer) := cached_install call.awaited layer w.decoded
    { w with decoded := w.decoded + 1 }
  rcases segment_cases call.token call.layers call.needed call.rest
    (install call.awaited w.decoded { w with decoded := w.decoded + 1 }) with
    ⟨hall, needed', heq⟩ | ⟨⟨layer, hlayer, huncached⟩, next, heq⟩
  · rw [heq]
    refine iff_of_true ?_ ?_
    · exact live_of_values (owned_finish _ needed' hinstalled) (painted_finish _ needed' _)
    · intro hgiven
      obtain ⟨-, layer, hlayer, huncached⟩ := hgiven
      exact absurd ((hcached layer).symm.trans (hall layer hlayer)) (by
        rw [huncached]
        exact Bool.false_ne_true)
  · have hlive : Live (syncSegment call.token call.layers call.needed call.rest
        (install call.awaited w.decoded { w with decoded := w.decoded + 1 })) ↔
        ∀ old ∈ get call.awaited.key w.cache.images, old ∉ painted w.cache := by
      rw [heq]
      exact live_append_iff h rfl rfl
    rw [hlive]
    constructor
    · rintro hnone ⟨⟨old, hold, hdrawn⟩, -⟩
      exact hnone old hold hdrawn
    · intro hno old hold hdrawn
      exact hno ⟨⟨old, hold, hdrawn⟩, layer, hlayer, (hcached layer).symm.trans huncached⟩

theorem live_step_iff (engine : ℕ → ℕ → Bool) (op : CacheOp) (w : World) (hok : PaintOk w)
    (h : Live w) : Live (cacheStep engine op w).2 ↔ ¬Severs engine op w := by
  cases op with
  | sync layers =>
    refine iff_of_true ?_ not_false
    exact live_segment (hok.owned.congr rfl rfl rfl) h
  | dispose => exact iff_of_true (fun img himg ↦ absurd himg List.not_mem_nil) not_false
  | resume token =>
    rcases cacheStep_resume engine token w with ⟨hsame, hnone⟩ | ⟨call, hfind, hres⟩
    · rw [hsame]
      refine iff_of_true h ?_
      intro hgiven
      obtain ⟨-, call, hmem, htoken, -⟩ := hgiven
      exact absurd htoken (by simpa using List.find?_eq_none.mp hnone call hmem)
    · obtain ⟨hmem, rfl⟩ := find_token hfind
      have howned : Owned (taken call.token w) := hok.owned
      have hunique (call' : SyncCall) (hmem' : call' ∈ w.awaiting)
          (ht : call'.token = call.token) : call' = call := unique_call hok.tokens hmem' hmem ht
      generalize (cacheStep engine (.resume call.token) w).2 = w' at hres
      cases hres with
      | overtaken hne hc _ himg =>
        refine iff_of_true ?_ fun hsevers ↦ hne hsevers.1
        intro img hdrawn
        rw [hc] at hdrawn
        rcases himg with ⟨hd, -⟩ | ⟨hd, -⟩
        · rw [hd]
          exact h img hdrawn
        · rw [hd, List.mem_append, List.mem_singleton]
          rintro (hold | rfl)
          · exact h img hdrawn hold
          · exact absurd (hok.drawn _ hdrawn) (lt_irrefl _)
      | missed _ hno =>
        refine iff_of_true (live_segment howned h) ?_
        intro hgiven
        obtain ⟨-, call', hmem', ht, hyes, -⟩ := hgiven
        rw [hunique call' hmem' ht] at hyes
        exact absurd (hno.symm.trans hyes) Bool.false_ne_true
      | installed hlast hyes =>
        rw [live_installed_iff howned h, not_iff_not]
        constructor
        · intro hboth
          obtain ⟨hold, hlayer⟩ := hboth
          exact ⟨hlast, call, hmem, rfl, hyes, hold, hlayer⟩
        · intro hgiven
          obtain ⟨-, call', hmem', ht, -, hold, hlayer⟩ := hgiven
          rw [hunique call' hmem' ht] at hold hlayer
          exact ⟨hold, hlayer⟩

/-- The painter sees live images only, in every state of a run, exactly when no step of the run
takes a painted image away before the lists are made anew. -/
theorem painted_live_iff (engine : ℕ → ℕ → Bool) (ops : List CacheOp) :
    (∀ pre, pre <+: ops → Live (after engine pre)) ↔
      Along (cacheStep engine) (fun op w ↦ ¬Severs engine op w) ops {} := by
  have hstart : PaintOk {} := by
    refine ⟨List.Perm.refl _, ⟨List.nodup_nil, fun t ht ↦ absurd ht List.not_mem_nil⟩, ?_⟩
    exact fun img himg ↦ absurd himg List.not_mem_nil
  refine along_iff_prefixes (paintOk_step engine) (live_step_iff engine) hstart ?_
  exact fun img himg ↦ absurd himg List.not_mem_nil

def pixel (imageId generation : ℤ) : VtImageLayer where
  imageId
  placementId := 0
  widthPx := 1
  heightPx := 1
  rgba := [0, 0, 0, 0]
  z := 0
  generation

/-- The second sync has replaced the first image and awaits its next layer: the painter still has
the image that was disposed. -/
theorem regenerated_painted :
    let w := after (fun _ _ ↦ true)
      [.sync [pixel 1 1], .resume 1, .sync [pixel 1 2, pixel 2 1], .resume 2]
    painted w.cache = [0] ∧ w.disposed = [0] ∧ ¬Live w := by
  have hrun : painted (after (fun _ _ ↦ true)
      [.sync [pixel 1 1], .resume 1, .sync [pixel 1 2, pixel 2 1], .resume 2]).cache = [0] ∧
      (after (fun _ _ ↦ true)
      [.sync [pixel 1 1], .resume 1, .sync [pixel 1 2, pixel 2 1], .resume 2]).disposed = [0] := by
    decide
  refine ⟨hrun.1, hrun.2, fun hlive ↦ ?_⟩
  refine hlive 0 (by rw [hrun.1]; exact List.mem_singleton_self 0) ?_
  rw [hrun.2]
  exact List.mem_singleton_self 0

end MachineNotebook.Vt.ImagePaint
