import MachineNotebook.Host.Table
import MachineNotebook.Lib.SelectiveQueue

namespace MachineNotebook.Host.Relay

open MachineNotebook.Lib MachineNotebook.Lib.Utf8 Table

def WS_SEND_MARK : ℕ := 256 * 1024

def SIDECAR_HOST_BINDING : String := "mc.sidecar"

/-! The guest's capabilities. Each function holds the relay lock from its first read
to its last write. A buffer is given by its length, and what is copied into it is
returned. -/

section FlutterNet

def httpRequest (req : Bytes) (s : RelayState) : Int32 × RelayState :=
  let (handle, s) := s.allocHandle
  (handle, { s with http := s.http.insert handle {} }.pushBack (.httpRequest handle req))

def httpPoll (handle : Int32) (buf : ℕ) (s : RelayState) : Int32 × Bytes :=
  match s.http handle with
  | none => (-1, [])
  | some slot =>
    if !slot.done then (0, [])
    else if slot.failed then (-1, [])
    else
      let n := min slot.head.length buf
      (Int32.ofNat n, slot.head.take n)

def bodyRange (slot : HttpSlot) (buf : ℕ) : ℕ × ℕ :=
  let start := min slot.bodyPos slot.body.length
  (start, min (slot.body.length - start) buf)

def httpBody (handle : Int32) (buf : ℕ) (s : RelayState) : Int32 × Bytes × RelayState :=
  match s.http handle with
  | none => (-1, [], s)
  | some slot =>
    if !slot.done then (0, [], s)
    else if slot.failed then (-1, [], s)
    else
      let (start, n) := bodyRange slot buf
      (Int32.ofNat n, (slot.body.drop start).take n,
        { s with http := s.http.insert handle { slot with bodyPos := slot.bodyPos + n } })

def httpClose (handle : Int32) (s : RelayState) : RelayState :=
  { s with http := s.http.remove handle }

def wsConnect (url : String) (s : RelayState) : Int32 × RelayState :=
  let (handle, s) := s.allocHandle
  (handle, { s with ws := s.ws.insert handle {} }.pushBack (.wsConnect handle url))

def wsSend (handle : Int32) (data : Bytes) (s : RelayState) : Int32 × RelayState :=
  match s.ws handle with
  | none => (-1, s)
  | some slot =>
    if slot.failed then (-1, s)
    else if data.length > WS_SEND_MARK then (-1, s)
    else if !slot.isOpen ∨ slot.queuedBytes + data.length > WS_SEND_MARK then (-1, s)
    else
      let slot := { slot with queuedBytes := slot.queuedBytes + data.length }
      (Int32.ofNat data.length,
        { s with ws := s.ws.insert handle slot }.pushBack (.wsSend handle data))

def wsReady (handle : Int32) (s : RelayState) : Int32 :=
  match s.ws handle with
  | none => 1
  | some slot =>
    if slot.failed ∨ (slot.isOpen ∧ slot.queuedBytes < WS_SEND_MARK) then 1 else 0

def wsRecv (handle : Int32) (buf : ℕ) (s : RelayState) : Int32 × Bytes × RelayState :=
  match s.ws handle with
  | none => (-1, [], s)
  | some slot =>
    if slot.failed then (-1, [], s)
    else
      match slot.incoming with
      | [] => (0, [], s)
      | front :: rest =>
        let n := min (front.length - slot.incomingPos) buf
        let pos := slot.incomingPos + n
        let slot' :=
          if pos ≥ front.length then { slot with incoming := rest, incomingPos := 0 }
          else { slot with incomingPos := pos }
        (Int32.ofNat n, (front.drop slot.incomingPos).take n,
          { s with ws := s.ws.insert handle slot' })

def wsClose (handle : Int32) (s : RelayState) : RelayState :=
  { s with ws := s.ws.remove handle }.pushBack (.wsClose handle)

end FlutterNet

section FlutterToolApprover

structure ToolApprovalFacts where
  connection : String
  method : String
  url : String
  origin : String
  argsDigest : Option String
  deriving DecidableEq

/-- The locked part of `approve`: the handle, and the sender that the insertion drops. -/
def approveRequest (tx : Sender) (facts : ToolApprovalFacts) (s : RelayState) :
    Int32 × Option Sender × RelayState :=
  let (handle, s) := s.allocHandle
  let dropped := s.pendingToolApprovals handle
  (handle, dropped,
    { s with pendingToolApprovals := s.pendingToolApprovals.insert handle tx }.pushBack
      (.toolApproval handle facts.connection facts.method facts.url facts.origin facts.argsDigest))

end FlutterToolApprover

/-! `host_call` and `persist` keep their answers alike. -/

def pollAnswer (done failed : Bool) : Int32 :=
  if failed then -1 else if done then 1 else 0

/-- The return value, the bytes copied and the new offset. -/
def readAnswer (done failed : Bool) (result : Bytes) (offset buf : ℕ) : Int32 × Bytes × ℕ :=
  if !done then (0, [], offset)
  else if failed then (-1, [], offset)
  else
    let remaining := result.length - offset
    if remaining = 0 then (0, [], offset)
    else
      let n := min remaining buf
      (Int32.ofNat n, (result.drop offset).take n, offset + n)

section FlutterHostCall

/-- The name before the first NUL of a request, and the body after it. -/
def splitRequest (req : Bytes) : String × Bytes :=
  let nul := (req.findIdx? (· == 0)).getD req.length
  (fromUtf8Lossy (req.take nul), if nul < req.length then req.drop (nul + 1) else [])

def hostCallStart (sidecarOnly : Bool) (req : Bytes) (s : RelayState) : Int32 × RelayState :=
  let (name, body) := splitRequest req
  if sidecarOnly ∧ name ≠ SIDECAR_HOST_BINDING then (-1, s)
  else
    let (handle, s) := s.allocHandle
    let slot : HostCallSlot := { sidecar := name == SIDECAR_HOST_BINDING }
    (handle,
      { s with hostCalls := s.hostCalls.insert handle slot }.pushBack (.hostCall handle name body))

def hostCallPoll (handle : Int32) (s : RelayState) : Int32 :=
  match s.hostCalls handle with
  | none => -1
  | some slot => pollAnswer slot.done slot.failed

def hostCallBody (handle : Int32) (buf : ℕ) (s : RelayState) : Int32 × Bytes × RelayState :=
  match s.hostCalls handle with
  | none => (-1, [], s)
  | some slot =>
    let (n, bytes, offset) := readAnswer slot.done slot.failed slot.result slot.offset buf
    (n, bytes, { s with hostCalls := s.hostCalls.insert handle { slot with offset } })

def hostCallClose (handle : Int32) (s : RelayState) : RelayState :=
  let sidecar := ((s.hostCalls handle).map HostCallSlot.sidecar).getD false
  { s with hostCalls := s.hostCalls.remove handle }.pushBack (.hostCallClose handle sidecar)

end FlutterHostCall

section FlutterPersist

def fromLeBytes : Bytes → ℕ
  | [] => 0
  | b :: bs => b.toNat + 256 * fromLeBytes bs

/-- The operation, key and value of a request long enough to hold them. -/
def splitPersist (req : Bytes) : Option (ℕ × Bytes × Bytes) :=
  if req.length < 8 then none
  else
    let op := fromLeBytes (req.take 4)
    let keyLen := fromLeBytes ((req.drop 4).take 4)
    if req.length < 8 + keyLen then none
    else some (op, (req.drop 8).take keyLen, req.drop (8 + keyLen))

def persistEvent (op : ℕ) (handle : Int32) (key value : Bytes) : Option EgressRelayEvent :=
  match op with
  | 0 => some (.persistGet handle key)
  | 1 => some (.persistPut handle key value)
  | 2 => some (.persistDelete handle key)
  | 3 => some (.persistList handle key)
  | _ => none

def persistStart (req : Bytes) (s : RelayState) : Int32 × RelayState :=
  match splitPersist req with
  | none => (-1, s)
  | some (op, key, value) =>
    let (handle, s) := s.allocHandle
    -- the slot is inserted before the operation is looked at
    let s := { s with persist := s.persist.insert handle {} }
    match persistEvent op handle key value with
    | none => (-1, s)
    | some ev => (handle, s.pushBack ev)

def persistPoll (handle : Int32) (s : RelayState) : Int32 :=
  match s.persist handle with
  | none => -1
  | some slot => pollAnswer slot.done slot.failed

def persistBody (handle : Int32) (buf : ℕ) (s : RelayState) : Int32 × Bytes × RelayState :=
  match s.persist handle with
  | none => (-1, [], s)
  | some slot =>
    let (n, bytes, offset) := readAnswer slot.done slot.failed slot.result slot.offset buf
    (n, bytes, { s with persist := s.persist.insert handle { slot with offset } })

def persistClose (handle : Int32) (s : RelayState) : RelayState :=
  { s with persist := s.persist.remove handle }

end FlutterPersist

/-! The wire side: what the host pulls. -/

structure WireRelayEvent where
  kind : String
  handle : Int32
  request : Option Bytes := none
  name : Option String := none
  body : Option Bytes := none
  key : Option Bytes := none
  value : Option Bytes := none
  pfx : Option Bytes := none
  url : Option String := none
  data : Option Bytes := none
  connection : Option String := none
  method : Option String := none
  origin : Option String := none
  argsDigest : Option String := none
  deriving DecidableEq

def relayFrame (kind : String) (handle : Int32) : WireRelayEvent := { kind, handle }

def wireRelayEvent (s : RelayState) : EgressRelayEvent → WireRelayEvent × RelayState
  | .httpRequest h request => ({ relayFrame "http" h with request := some request }, s)
  | .hostCall h name body =>
    ({ relayFrame "host_call" h with name := some name, body := some body }, s)
  | .hostCallClose h sidecar =>
    (if sidecar then { relayFrame "host_call_close" h with name := some SIDECAR_HOST_BINDING }
      else relayFrame "host_call_close" h, s)
  | .persistGet h key => ({ relayFrame "persist_get" h with key := some key }, s)
  | .persistPut h key value =>
    ({ relayFrame "persist_put" h with key := some key, value := some value }, s)
  | .persistDelete h key => ({ relayFrame "persist_delete" h with key := some key }, s)
  | .persistList h pfx => ({ relayFrame "persist_list" h with pfx := some pfx }, s)
  | .wsConnect h url => ({ relayFrame "ws_connect" h with url := some url }, s)
  | .wsSend h data =>
    let s :=
      match s.ws h with
      | none => s
      | some slot =>
        { s with ws := s.ws.insert h { slot with queuedBytes := slot.queuedBytes - data.length } }
    ({ relayFrame "ws_send" h with data := some data }, s)
  | .wsClose h => (relayFrame "ws_close" h, s)
  | .toolApproval h connection method url origin argsDigest =>
    ({ relayFrame "tool_approval" h with
        connection := some connection, method := some method, url := some url,
        origin := some origin, argsDigest }, s)

def dispatchRelayEvent (s : RelayState) (ev : EgressRelayEvent) : WireRelayEvent × RelayState :=
  let s :=
    match ev with
    | .hostCall h _ _ =>
      match s.hostCalls h with
      | none => s
      | some slot => { s with hostCalls := s.hostCalls.insert h { slot with dispatched := true } }
    | _ => s
  wireRelayEvent s ev

theorem dispatch_hostCall (s : RelayState) (h : Int32) (name : String) (body : Bytes) :
    (dispatchRelayEvent s (.hostCall h name body)).2 =
      { s with hostCalls := s.hostCalls.modify h fun slot ↦ { slot with dispatched := true } } := by
  cases hslot : s.hostCalls h with
  | none => simp only [dispatchRelayEvent, wireRelayEvent, hslot, Slots.modify]
  | some slot => simp only [dispatchRelayEvent, wireRelayEvent, hslot, Slots.modify]

theorem dispatch_wsSend (s : RelayState) (h : Int32) (data : Bytes) :
    (dispatchRelayEvent s (.wsSend h data)).2 =
      { s with ws := s.ws.modify h fun slot ↦
          { slot with queuedBytes := slot.queuedBytes - data.length } } := by
  cases hslot : s.ws h with
  | none => simp only [dispatchRelayEvent, wireRelayEvent, hslot, Slots.modify]
  | some slot => simp only [dispatchRelayEvent, wireRelayEvent, hslot, Slots.modify]

def isSidecarEvent : EgressRelayEvent → Bool
  | .hostCall _ name _ => name == SIDECAR_HOST_BINDING
  | .hostCallClose _ sidecar => sidecar
  | _ => false

def popEvent (sidecarOnly : Bool) (s : RelayState) : Option WireRelayEvent × RelayState :=
  match SelectiveQueue.pop isSidecarEvent sidecarOnly s.events with
  | none => (none, s)
  | some (ev, events) =>
    let (frame, s) := dispatchRelayEvent { s with events } ev
    (some frame, s)

/-! The host's answers. A handle comes as `i64` and is looked up as `i32`. -/

section Respond

/-- The argument check and the slot update that the answers share. -/
def answerSlot {α : Type} (call kind : String) (slots : Slots α) (handle : Int64)
    (answer : α → α) : Except String (Slots α) :=
  if handle ≤ 0 then .error (call ++ ": invalid args")
  else
    match slots handle.toInt32 with
    | none => .error ("unknown " ++ kind ++ " handle")
    | some slot => .ok (slots.insert handle.toInt32 (answer slot))

def relayHttpRespond (handle : Int64) (ok : Int32) (head body : Bytes) (s : RelayState) :
    Except String RelayState :=
  (answerSlot "aos_vm_relay_http_respond" "http" s.http handle fun slot ↦
    { slot with done := true, failed := ok == 0, head, body, bodyPos := 0 }).map
    fun http ↦ { s with http }

def relayHostCallRespond (handle : Int64) (ok : Int32) (result : Bytes) (s : RelayState) :
    Except String RelayState :=
  (answerSlot "aos_vm_relay_host_call_respond" "host_call" s.hostCalls handle fun slot ↦
    { slot with done := true, failed := ok == 0, result, offset := 0 }).map
    fun hostCalls ↦ { s with hostCalls }

def relayPersistRespond (handle : Int64) (ok : Int32) (body : Bytes) (s : RelayState) :
    Except String RelayState :=
  (answerSlot "aos_vm_relay_persist_respond" "persist" s.persist handle fun slot ↦
    { slot with done := true, failed := ok == 0, result := body, offset := 0 }).map
    fun persist ↦ { s with persist }

/-- The sender taken out of the map with the decision sent on it, if one waited. -/
def relayToolApprovalRespond (handle : Int64) (allow rememberSession : Int32) (s : RelayState) :
    Except String (Option (Sender × ToolApprovalDecision) × RelayState) :=
  if handle ≤ 0 then .error "aos_vm_relay_tool_approval_respond: invalid args"
  else
    match s.pendingToolApprovals handle.toInt32 with
    | none => .ok (none, s)
    | some tx =>
      .ok (some (tx, ⟨allow != 0, rememberSession != 0⟩),
        { s with pendingToolApprovals := s.pendingToolApprovals.remove handle.toInt32 })

def relayWsOpen (handle : Int64) (ok : Int32) (s : RelayState) : Except String RelayState :=
  (answerSlot "aos_vm_relay_ws_open" "ws" s.ws handle fun slot ↦
    { slot with isOpen := ok != 0, failed := ok == 0 }).map
    fun ws ↦ { s with ws }

def relayWsPush (handle : Int64) (data : Bytes) (s : RelayState) : Except String RelayState :=
  (answerSlot "aos_vm_relay_ws_push" "ws" s.ws handle fun slot ↦
    { slot with incoming := slot.incoming ++ [data] }).map
    fun ws ↦ { s with ws }

def relayWsClose (handle : Int64) (s : RelayState) : Except String RelayState :=
  if handle ≤ 0 then .error "aos_vm_relay_ws_close: invalid args"
  else
    match s.ws handle.toInt32 with
    | none => .ok s
    | some slot => .ok { s with ws := s.ws.insert handle.toInt32 { slot with isOpen := false } }

end Respond

end MachineNotebook.Host.Relay
