/-
# The source side

`MediaFlowController`, the source endpoint, the source's state and the source controller:
`remote_adapter`, `remote_adapter_transport` and `remote_nested_service` in the source role.

A captured frame passes three windows.  The controller counts what it has sent and what was
acknowledged to it, and keeps one frame, the newest, while two are out; the endpoint's flow
controller keeps the frames that were offered and not acknowledged; the decoder's window is at
the viewer.
-/
import QDistro.RemoteEndpoint
import QDistro.LocalRecords

open JsonText

namespace RemoteNested

/-! ## Flow control -/

/-- `MediaFlowController` with its default window. -/
structure MediaFlowController where
  nextSeq : ℕ := 1
  ackedSeq : ℕ := 0
  /-- the frames in flight, by sequence number, with their sizes -/
  inflight : List (ℕ × ℕ) := []
  deriving DecidableEq, Repr

/-- `max_inflight` -/
def maxInflight : ℕ := 2

namespace MediaFlowController

variable (flow : MediaFlowController)

/-- `offer(frame)` -/
def offer (frame : Bytes) : Checked (ℕ × MediaFlowController) := do
  guardError frame.isEmpty .flowControl "frame must be non-empty bytes"
  guardError (frame.length > Channel.media.payloadLimit) .flowControl
    "frame exceeds negotiated size"
  guardError (flow.inflight.length ≥ maxInflight) .flowControl "media window is full"
  return (flow.nextSeq, { flow with
    nextSeq := flow.nextSeq + 1
    inflight := flow.inflight ++ [(flow.nextSeq, frame.length)] })

/-- `acknowledge(seq)` -/
def acknowledge (seq : ℕ) : Checked MediaFlowController := do
  guardError (seq < flow.ackedSeq ∨ seq ≥ flow.nextSeq) .flowControl
    "media acknowledgement is stale or unsent"
  return { flow with
    ackedSeq := seq
    inflight := flow.inflight.filter (seq < ·.1) }

end MediaFlowController

/-! ## Endpoint -/

/-- `RemoteInputState.record` -/
def RemoteInputState.record (i : RemoteInputState) (epoch : ℕ) (kind : InputKind) (code : ℤ)
    (pressed : Bool) : Checked RemoteInputState := do
  guardError (epoch < i.epoch) .replay "input epoch is stale"
  guardError (epoch ≠ i.epoch) .authentication "input epoch is not attached"
  guardError (!i.attached) .authentication "input is disabled while detached"
  guardError (kind ≠ .key ∧ kind ≠ .button) .adapter "input kind must be key or button"
  guardError (code ≤ 0) .adapter "input code must be a positive integer"
  let update (held : List ℕ) :=
    if pressed then held.insert code.toNat else held.erase code.toNat
  return if kind = .key then { i with heldKeys := update i.heldKeys }
    else { i with heldButtons := update i.heldButtons }

/-- `RemoteAdapterEndpoint` in the source role, while a connection is up. -/
structure SourceEndpoint where
  runtime : EndpointRuntime
  binding : RemoteSessionBinding
  life : RemoteProxyLifecycle := {}
  nextSeq : PerChannel := ⟨1, 1, 1⟩
  lastSeq : PerChannel := ⟨0, 0, 0⟩
  flow : MediaFlowController := {}
  deriving DecidableEq, Repr

namespace SourceEndpoint

variable (u : UnicodeDb) (jsonLoads : Bytes → Option Json) (ep : SourceEndpoint)

/-- `self.codec` -/
def codec : Codec := ⟨ep.binding, ep.runtime.sessionKey⟩

/-- The flow control of `_handle_local`. -/
def offerMedia (r : EndpointRequest) : Checked MediaFlowController :=
  if r.channel = .media then do
    let (seq, flow) ← ep.flow.offer r.payload
    guardError (seq ≠ ep.nextSeq.media) .flowControl "media sequence state diverged"
    return flow
  else .ok ep.flow

/-- `_handle_local` of a `send` request, once the envelope is on the wire. -/
def handleLocal (now : ℤ) (r : EndpointRequest) :
    Checked (SourceEndpoint × Envelope × EndpointEvent) := do
  guardError (r.channel = .input) .adapter "source endpoint cannot send this channel"
  guardError (r.payload.length > r.channel.payloadLimit) .adapter
    "local adapter payload exceeds size limit"
  let seq := ep.nextSeq.get r.channel
  let flow ← ep.offerMedia r
  let envelope ← ep.codec.sealMessage now .sourceToViewer r.channel r.kind seq r.payload r.ack
  return ({ ep with flow, nextSeq := ep.nextSeq.set (seq + 1) r.channel }, envelope,
    .sent r.channel seq)

/-- The input that `_handle_remote` records. -/
def recordInput (m : Envelope) : Checked RemoteProxyLifecycle :=
  if m.channel = .input then do
    match ← decodeInputEvent m.kind (jsonLoads m.payload) with
    | .key code pressed => do
      let input ← ep.life.input.record ep.binding.epoch .key code pressed
      return { ep.life with input }
    | .button code pressed => do
      let input ← ep.life.input.record ep.binding.epoch .button code pressed
      return { ep.life with input }
    | _ => .ok ep.life
  else .ok ep.life

/-- `_handle_remote` -/
def handleRemote (now : ℤ) (wire : Option Envelope) :
    Checked (SourceEndpoint × EndpointEvent) := do
  let (m, lastSeq) ← receive u ep.codec ep.runtime.allowInput ep.lastSeq now .viewerToSource wire
  let flow ← if m.channel = .control ∧ m.kind = "media_ack" then ep.flow.acknowledge m.ack
    else .ok ep.flow
  let life ← ep.recordInput jsonLoads m
  return ({ ep with lastSeq, flow, life }, .received m.channel m.kind m.seq m.ack m.payload)

end SourceEndpoint

/-! ## Source state -/

/-- `SourceNestedState` -/
structure SourceNestedState where
  epoch : ℕ := 0
  connected : Bool := false
  sourceRevision : ℕ := 0
  announcement : Option StreamAnnouncement := none
  closed : Bool := false
  deriving DecidableEq, Repr

namespace SourceNestedState

variable (jsonLoads : Bytes → Option Json) (s : SourceNestedState)

/-- `announce(announcement)` -/
def announce (a : StreamAnnouncement) : Checked (SourceNestedState × EndpointRequest) := do
  guardError s.closed .adapter "source cannot announce after source closed"
  guardError (!s.connected) .adapter "source cannot announce while detached"
  a.validate
  guardError (a.sourceRevision ≤ s.sourceRevision) .replay
    "source announcement revision is stale"
  return ({ s with sourceRevision := a.sourceRevision, announcement := some a },
    { channel := .control, kind := "announce", payload := a.encode })

/-- `capture_frame(frame)` -/
def captureFrame (frame : RawFrame) : Checked EndpointRequest := do
  guardError s.closed .adapter "source cannot send a frame after source closed"
  match s.connected, s.announcement with
  | true, some a =>
    frame.validate
    guardError (!frame.matchesStream a) .adapter
      "captured frame does not match announced geometry"
    return { channel := .media, kind := "frame_bgrx", payload := frame.encode }
  | _, _ => reject "source cannot send a frame while detached"

/-- `receive_input(kind, payload)` -/
def receiveInput (kind : String) (payload : Bytes) : Checked InputEvent := do
  guardError s.closed .adapter "source input is disabled after source closed"
  guardError (!s.connected) .adapter "source input is disabled while detached"
  decodeInputEvent kind (jsonLoads payload)

/-- `receive_close_request(source_revision)` -/
def receiveCloseRequest (revision : ℕ) : Checked ℕ := do
  guardError (s.closed || !s.connected || decide (s.announcement = none)) .adapter
    "source close request arrived without a live stream"
  let revision ← positiveInteger "source_revision" (.int revision)
  guardError (revision ≠ s.sourceRevision) .replay "close request source revision is stale"
  return revision

/-- `source_closed(source_revision)` -/
def sourceClosed (revision : ℕ) : Checked (SourceNestedState × EndpointRequest) := do
  guardError (!s.connected || s.closed) .adapter "source cannot close while detached or closed"
  let revision ← positiveInteger "source_revision" (.int revision)
  guardError (revision ≤ s.sourceRevision) .replay "source close revision is stale"
  let payload ← sourceClosedPayload revision
  return ({ s with sourceRevision := revision, closed := true, announcement := none },
    { channel := .control, kind := "source_closed", payload })

end SourceNestedState

/-! ## Source controller -/

/-- `RemoteNestedController` in the source role. -/
structure SourceController where
  state : SourceNestedState := {}
  mediaSent : ℕ := 0
  mediaAcked : ℕ := 0
  pendingFrame : Option RawFrame := none
  closingAfterSend : Bool := false
  deriving DecidableEq, Repr

/-- What a handler of the source controller leaves. -/
structure SourceReply where
  controller : SourceController
  toHelper : List LocalBoundaryMessage := []
  toEndpoint : List LocalRequest := []
  deriving DecidableEq, Repr

namespace SourceController

variable (jsonLoads : Bytes → Option Json) (c : SourceController)

/-- `_send_source_frame(frame)` -/
def sendSourceFrame (frame : RawFrame) : Checked (SourceController × EndpointRequest) := do
  let request ← c.state.captureFrame frame
  return ({ c with mediaSent := c.mediaSent + 1 }, request)

/-- `_flush_pending_frame()` -/
def flushPendingFrame : Checked (SourceController × List LocalRequest) :=
  match c.pendingFrame with
  | none => .ok (c, [])
  | some frame =>
    if c.mediaSent - c.mediaAcked < maxLocalDecodePending then do
      let (c, request) ← { c with pendingFrame := none }.sendSourceFrame frame
      return (c, [.send request])
    else .ok (c, [])

/-- `_handle_source_received` -/
def handleSourceReceived (channel : Channel) (kind : String) (seq ack : ℕ) (payload : Bytes) :
    Checked SourceReply := do
  let _ ← positiveInteger "received sequence" (.int seq)
  match channel, InputKind.ofName kind with
  | .input, some inputKind => do
    let event ← c.state.receiveInput jsonLoads kind payload
    let message : LocalBoundaryMessage :=
      { kind := .input inputKind, payload := encodeLocalInputEvent event }
    message.check
    return { controller := c, toHelper := [message] }
  | _, _ =>
    if channel = .control ∧ kind = "close_request" then do
      let revision ← decodeSourceClosed (jsonLoads payload)
      let revision ← c.state.receiveCloseRequest revision
      let message : LocalBoundaryMessage := { kind := .closeRequest, seq := revision }
      message.check
      return { controller := c, toHelper := [message] }
    else if channel = .control ∧ kind = "media_ack" then do
      let ack ← positiveInteger "media acknowledgement" (.int ack)
      guardError (ack ≤ c.mediaAcked ∨ ack > c.mediaSent) .flowControl
        "source controller media acknowledgement is invalid"
      let message : LocalBoundaryMessage := { kind := .mediaAck, seq := ack }
      message.check
      let (c, requests) ← { c with mediaAcked := ack }.flushPendingFrame
      return { controller := c, toHelper := [message], toEndpoint := requests }
    else reject "source received unsupported remote message"

/-- `_handle_endpoint` of the events of a connection that is up. -/
def handleEvent : EndpointEvent → Except Halt SourceReply
  | .sent channel _ =>
    if c.closingAfterSend ∧ channel = .control then .error .shutdown
    else .ok { controller := c }
  | .transportDropRequested _ => .ok { controller := c }
  | .error message => .error (.raised ⟨.adapter, s!"remote endpoint failed: {message}"⟩)
  | .received channel kind seq ack payload =>
    (c.handleSourceReceived jsonLoads channel kind seq ack payload).mapError .raised
  | .connected _ _ | .detached _ _ => .ok { controller := c }

/-- `_handle_source_helper` -/
def handleSourceHelper (message : LocalBoundaryMessage) : Checked SourceReply :=
  match message.kind with
  | .dropTransport => do
    guardError (message.seq ≠ 0 || !message.payload.isEmpty) .adapter
      "drop_transport helper message must be empty"
    return { controller := c, toEndpoint := [.dropTransport] }
  | .announce => do
    let a ← decodeLocalAnnouncement message.payload
    let (state, request) ← c.state.announce a
    return { controller := { c with state }, toEndpoint := [.send request] }
  | .frame => do
    let frame ← RawFrame.decode message.payload
    if !c.state.connected then return { controller := c }
    else if c.mediaSent - c.mediaAcked ≥ maxLocalDecodePending then
      return { controller := { c with pendingFrame := some frame } }
    else
      let (c, request) ← c.sendSourceFrame frame
      return { controller := c, toEndpoint := [.send request] }
  | .sourceClosed => do
    guardError (!message.payload.isEmpty) .adapter "source_closed helper payload must be empty"
    let (state, request) ← c.state.sourceClosed message.seq
    return { controller := { c with state, closingAfterSend := true }
             toEndpoint := [.send request] }
  | _ => reject "source helper message is not allowed"

end SourceController

end RemoteNested
