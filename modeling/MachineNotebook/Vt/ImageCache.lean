import MachineNotebook.Lib.AssocList
import MachineNotebook.Lib.Run
import MachineNotebook.Lib.Utf8

namespace MachineNotebook.Vt.ImageCache

open MachineNotebook.Lib MachineNotebook.Lib.Utf8 AssocList Run

/-- A `ui.Image`, by how many were decoded before it. -/
abbrev Image := ℕ

/-- A layer, without what only its rectangles are computed from. -/
structure VtImageLayer where
  imageId : ℤ
  placementId : ℤ
  widthPx : ℤ
  heightPx : ℤ
  rgba : Bytes
  z : ℤ
  imageWidth : ℤ := 0
  imageHeight : ℤ := 0
  generation : ℤ := 0
  viewportVisible : Bool := true
  deriving DecidableEq

namespace VtImageLayer

def bufferWidth (layer : VtImageLayer) : ℤ :=
  if layer.imageWidth > 0 then layer.imageWidth else layer.widthPx

def bufferHeight (layer : VtImageLayer) : ℤ :=
  if layer.imageHeight > 0 then layer.imageHeight else layer.heightPx

def key (layer : VtImageLayer) : String :=
  toString layer.imageId ++ ":" ++ toString layer.placementId

def decodable (layer : VtImageLayer) : Bool :=
  let w := layer.bufferWidth
  let h := layer.bufferHeight
  if w ≤ 0 ∨ h ≤ 0 then false else decide (w * h * 4 ≤ layer.rgba.length)

end VtImageLayer

/-- An entry of a paint list; its rectangles are those of its layer. -/
structure VtPaintImage where
  image : Image
  layer : VtImageLayer
  deriving DecidableEq

structure VtImageCache where
  images : List (String × Image) := []
  gens : List (String × ℤ) := []
  paintBelow : List VtPaintImage := []
  paintAbove : List VtPaintImage := []
  syncGen : ℕ := 0
  deriving DecidableEq

structure SyncCall where
  token : ℕ
  layers : List VtImageLayer
  needed : List String
  awaited : VtImageLayer
  rest : List VtImageLayer
  deriving DecidableEq

/-- The cache with the calls that are under way, the number of images they were given, and the
images that were disposed, in that order. -/
structure World where
  cache : VtImageCache := {}
  awaiting : List SyncCall := []
  decoded : ℕ := 0
  disposed : List Image := []
  deriving DecidableEq

def cached (cache : VtImageCache) (layer : VtImageLayer) : Bool :=
  decide (get layer.key cache.gens = some layer.generation) && (get layer.key cache.images).isSome

/-- The loop over the layers, up to the first one that has to be decoded. -/
def syncLoop (cache : VtImageCache) (needed : List String) :
    List VtImageLayer → List String × Option (VtImageLayer × List VtImageLayer)
  | [] => (needed, none)
  | layer :: rest =>
    if cached cache layer then syncLoop cache (needed ++ [layer.key]) rest
    else (needed ++ [layer.key], some (layer, rest))

/-- The loop that fills the two paint lists. -/
def paintLists (images : List (String × Image)) :
    List VtImageLayer → List VtPaintImage × List VtPaintImage
  | [] => ([], [])
  | layer :: rest =>
    let (below, above) := paintLists images rest
    if !layer.viewportVisible then (below, above)
    else
      match get layer.key images with
      | none => (below, above)
      | some image =>
        if layer.z < 0 then (⟨image, layer⟩ :: below, above) else (below, ⟨image, layer⟩ :: above)

/-- The part of `sync` after its loop. -/
def finish (layers : List VtImageLayer) (needed : List String) (w : World) : World :=
  let stale := values (w.cache.images.filter fun e ↦ !needed.contains e.1)
  let images := w.cache.images.filter fun e ↦ needed.contains e.1
  let lists := paintLists images layers
  { w with
    disposed := w.disposed ++ stale
    cache :=
      { w.cache with
        images
        gens := w.cache.gens.filter fun e ↦
          needed.contains e.1 || !(keys w.cache.images).contains e.1
        paintBelow := lists.1
        paintAbove := lists.2 } }

/-- A segment of `sync`: it ends at an await or with the call. -/
def syncSegment (token : ℕ) (layers : List VtImageLayer) (needed : List String)
    (rest : List VtImageLayer) (w : World) : World :=
  match syncLoop w.cache needed rest with
  | (needed, some (awaited, rest)) =>
    { w with awaiting := w.awaiting ++ [⟨token, layers, needed, awaited, rest⟩] }
  | (needed, none) => finish layers needed w

def sync (layers : List VtImageLayer) (w : World) : World :=
  let token := w.cache.syncGen + 1
  syncSegment token layers [] layers { w with cache := { w.cache with syncGen := token } }

def install (layer : VtImageLayer) (img : Image) (w : World) : World :=
  { w with
    disposed := w.disposed ++ (get layer.key w.cache.images).toList
    cache :=
      { w.cache with
        images := put layer.key img w.cache.images
        gens := put layer.key layer.generation w.cache.gens } }

def decodeLayer (engine : Bool) (layer : VtImageLayer) (w : World) : Option Image × World :=
  if layer.decodable && engine then (some w.decoded, { w with decoded := w.decoded + 1 })
  else (none, w)

def resume (engine : Bool) (call : SyncCall) (w : World) : World :=
  let (img, w) := decodeLayer engine call.awaited w
  if call.token ≠ w.cache.syncGen then { w with disposed := w.disposed ++ img.toList }
  else
    let w := match img with
      | none => w
      | some img => install call.awaited img w
    syncSegment call.token call.layers call.needed call.rest w

def dispose (w : World) : World :=
  { w with
    disposed := w.disposed ++ values w.cache.images
    cache := { syncGen := w.cache.syncGen + 1 } }

/-- What happens to the cache: a call, or the end of the decode that the call with this token
awaits. -/
inductive CacheOp
  | sync (layers : List VtImageLayer)
  | resume (token : ℕ)
  | dispose

def CacheOp.isCall : CacheOp → Bool
  | .resume _ => false
  | _ => true

/-- `engine` says whether a decode gives an image, by the token of its call and how many layers
the call has left after it. -/
def cacheStep (engine : ℕ → ℕ → Bool) : CacheOp → World → Unit × World
  | .sync layers, w => ((), sync layers w)
  | .resume token, w =>
    match w.awaiting.find? fun call ↦ call.token = token with
    | none => ((), w)
    | some call =>
      ((), resume (engine token call.rest.length) call
        { w with awaiting := w.awaiting.filter fun call ↦ call.token ≠ token })
  | .dispose, w => ((), dispose w)

end MachineNotebook.Vt.ImageCache
