import MachineNotebook.Host.PersistRequests

namespace MachineNotebook.Host.RelayFrames

open MachineNotebook.Lib.Utf8 Table Relay PersistRequests

def eventOf (w : WireRelayEvent) : Option EgressRelayEvent :=
  if w.kind = "http" then w.request.map (.httpRequest w.handle)
  else if w.kind = "host_call" then do return .hostCall w.handle (← w.name) (← w.body)
  else if w.kind = "host_call_close" then some (.hostCallClose w.handle w.name.isSome)
  else if w.kind = "persist_get" then w.key.map (.persistGet w.handle)
  else if w.kind = "persist_put" then do return .persistPut w.handle (← w.key) (← w.value)
  else if w.kind = "persist_delete" then w.key.map (.persistDelete w.handle)
  else if w.kind = "persist_list" then w.pfx.map (.persistList w.handle)
  else if w.kind = "ws_connect" then w.url.map (.wsConnect w.handle)
  else if w.kind = "ws_send" then w.data.map (.wsSend w.handle)
  else if w.kind = "ws_close" then some (.wsClose w.handle)
  else if w.kind = "tool_approval" then do
    return .toolApproval w.handle (← w.connection) (← w.method) (← w.url) (← w.origin) w.argsDigest
  else none

/-- A dispatched call is marked as such in its slot, a message that is sent is taken off what its
socket has queued, and all else stays. -/
structure Framed (s : RelayState) (ev : EgressRelayEvent) (s' : RelayState) : Prop where
  next : s'.next = s.next
  events : s'.events = s.events
  http : s'.http = s.http
  persist : s'.persist = s.persist
  pendingToolApprovals : s'.pendingToolApprovals = s.pendingToolApprovals
  hostCalls : ∀ h, (∀ name body, ev ≠ .hostCall h name body) → s'.hostCalls h = s.hostCalls h
  dispatched : ∀ h name body, ev = .hostCall h name body →
    s'.hostCalls h = (s.hostCalls h).map fun slot ↦ { slot with dispatched := true }
  ws : ∀ h, (∀ data, ev ≠ .wsSend h data) → s'.ws h = s.ws h
  queued : ∀ h data, ev = .wsSend h data →
    s'.ws h = (s.ws h).map fun slot ↦ { slot with queuedBytes := slot.queuedBytes - data.length }

variable {s s' : RelayState} {ev ev' : EgressRelayEvent}

theorem eventOf_dispatch (s : RelayState) (ev : EgressRelayEvent) :
    eventOf (dispatchRelayEvent s ev).1 = some ev := by
  cases ev with
  | hostCallClose h sidecar =>
    cases sidecar with
    | false => rfl
    | true => rfl
  | _ => rfl

theorem framed_refl (hcall : ∀ h name body, ev ≠ .hostCall h name body)
    (hsend : ∀ h data, ev ≠ .wsSend h data) : Framed s ev s where
  next := rfl
  events := rfl
  http := rfl
  persist := rfl
  pendingToolApprovals := rfl
  hostCalls _ _ := rfl
  dispatched h name body he := absurd he (hcall h name body)
  ws _ _ := rfl
  queued h data he := absurd he (hsend h data)

theorem dispatch_framed (s : RelayState) (ev : EgressRelayEvent) :
    Framed s ev (dispatchRelayEvent s ev).2 := by
  cases ev with
  | hostCall h name body =>
    rw [dispatch_hostCall]
    refine ⟨rfl, rfl, rfl, rfl, rfl, ?_, ?_, fun _ _ ↦ rfl, ?_⟩
    · intro h' hne
      exact Slots.modify_of_ne fun he ↦ hne name body (he ▸ rfl)
    · intro h' name' body' he
      cases he
      exact Slots.modify_self
    · intro h' data he
      cases he
  | wsSend h data =>
    rw [dispatch_wsSend]
    refine ⟨rfl, rfl, rfl, rfl, rfl, fun _ _ ↦ rfl, ?_, ?_, ?_⟩
    · intro h' name body he
      cases he
    · intro h' hne
      exact Slots.modify_of_ne fun he ↦ hne data (he ▸ rfl)
    · intro h' data' he
      cases he
      exact Slots.modify_self
  | _ => exact framed_refl (fun _ _ _ he ↦ by cases he) fun _ _ he ↦ by cases he

/-- The bytes that an event is dispatched as are those of no other event, and its dispatch leaves
the rest of the state alone. -/
theorem frame_determines (encode : WireRelayEvent → Bytes)
    (decode : Bytes → Option WireRelayEvent) (hround : ∀ w, decode (encode w) = some w) :
    (∀ s s' ev ev', encode (dispatchRelayEvent s ev).1 = encode (dispatchRelayEvent s' ev').1 →
      ev = ev') ∧
    ∀ s ev, Framed s ev (dispatchRelayEvent s ev).2 := by
  refine ⟨?_, dispatch_framed⟩
  intro s s' ev ev' hbytes
  have hframe : (dispatchRelayEvent s ev).1 = (dispatchRelayEvent s' ev').1 := by
    have hdecode := congrArg decode hbytes
    rw [hround, hround] at hdecode
    exact Option.some.inj hdecode
  have hevent := eventOf_dispatch s ev
  rw [hframe, eventOf_dispatch] at hevent
  exact (Option.some.inj hevent).symm

section Codec

/-! A codec for frames: each field in its turn, a one before each byte of it and a zero behind. -/

def put (field : Bytes) : Bytes := field.flatMap (fun b ↦ [1, b]) ++ [0]

def take : Bytes → Option (Bytes × Bytes)
  | 0 :: rest => some ([], rest)
  | 1 :: b :: rest => (take rest).map fun p ↦ (b :: p.1, p.2)
  | _ => none

def putField : Option Bytes → Bytes
  | none => [0]
  | some field => 1 :: put field

def takeField : Bytes → Option (Option Bytes × Bytes)
  | 0 :: rest => some (none, rest)
  | 1 :: rest => (take rest).map fun p ↦ (some p.1, p.2)
  | _ => none

def takeFields : ℕ → Bytes → Option (List (Option Bytes))
  | 0, _ => some []
  | n + 1, bytes => do
    let (field, rest) ← takeField bytes
    return field :: (← takeFields n rest)

def fieldsOf (w : WireRelayEvent) : List (Option Bytes) :=
  [some (toUtf8 w.kind), some (toLeBytes 4 w.handle.toUInt32.toNat), w.request, w.name.map toUtf8,
    w.body, w.key, w.value, w.pfx, w.url.map toUtf8, w.data, w.connection.map toUtf8,
    w.method.map toUtf8, w.origin.map toUtf8, w.argsDigest.map toUtf8]

def textOf : Option Bytes → Option (Option String)
  | none => some none
  | some field => (fromUtf8 field).map some

def frameOf : List (Option Bytes) → Option WireRelayEvent
  | [some kind, some handle, request, name, body, key, value, pfx, url, data, connection, method,
      origin, argsDigest] => do
    return {
      kind := ← fromUtf8 kind
      handle := (UInt32.ofNat (fromLeBytes handle)).toInt32
      request, body, key, value, pfx, data
      name := ← textOf name
      url := ← textOf url
      connection := ← textOf connection
      method := ← textOf method
      origin := ← textOf origin
      argsDigest := ← textOf argsDigest }
  | _ => none

def encodeFields (w : WireRelayEvent) : Bytes := (fieldsOf w).flatMap putField

def decodeFields (bytes : Bytes) : Option WireRelayEvent := (takeFields 14 bytes).bind frameOf

theorem take_put (field rest : Bytes) : take (put field ++ rest) = some (field, rest) := by
  induction field with
  | nil => rfl
  | cons b field ih =>
    have hput : put (b :: field) ++ rest = 1 :: b :: (put field ++ rest) := by simp [put]
    rw [hput, take, ih]
    rfl

theorem takeField_put (field : Option Bytes) (rest : Bytes) :
    takeField (putField field ++ rest) = some (field, rest) := by
  cases field with
  | none => rfl
  | some field => simp [putField, takeField, take_put]

theorem takeFields_put (fields : List (Option Bytes)) :
    takeFields fields.length (fields.flatMap putField) = some fields := by
  induction fields with
  | nil => rfl
  | cons field fields ih => simp [takeFields, takeField_put, ih]

theorem textOf_toUtf8 (s : Option String) : textOf (s.map toUtf8) = some s := by
  cases s with
  | none => rfl
  | some s => simp [textOf, fromUtf8_toUtf8]

theorem decodeFields_encodeFields (w : WireRelayEvent) :
    decodeFields (encodeFields w) = some w := by
  have htake : takeFields 14 (encodeFields w) = some (fieldsOf w) := takeFields_put (fieldsOf w)
  have hhandle : (UInt32.ofNat (fromLeBytes (toLeBytes 4 w.handle.toUInt32.toNat))).toInt32 =
      w.handle := by
    rw [fromLeBytes_toLeBytes w.handle.toUInt32.toNat_lt, UInt32.ofNat_toNat,
      Int32.toInt32_toUInt32]
  rw [decodeFields, htake, Option.bind_some, fieldsOf]
  simp only [frameOf, fromUtf8_toUtf8, textOf_toUtf8, hhandle, Option.bind_eq_bind,
    Option.bind_some, Option.pure_def]

end Codec

theorem frame_determines_fields :
    (∀ w, decodeFields (encodeFields w) = some w) ∧
    (∀ s s' ev ev', encodeFields (dispatchRelayEvent s ev).1 =
      encodeFields (dispatchRelayEvent s' ev').1 → ev = ev') ∧
    ∀ s ev, Framed s ev (dispatchRelayEvent s ev).2 :=
  ⟨decodeFields_encodeFields,
    frame_determines encodeFields decodeFields decodeFields_encodeFields⟩

end MachineNotebook.Host.RelayFrames
