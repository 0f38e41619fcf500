/-
# The viewer controller

`remote_nested_service`: the viewer's attachment state and the controller that multiplexes
the socket of its endpoint and the socket of its C helper.  An exception ends a controller
and closes both sockets, so a handler returns either what the controller becomes and sends,
or why it stops.

The frames of the endpoint socket are represented by what they encode.  The fields that
only the source role reads (`_media_sent`, `_media_acked`, `_pending_frame` and
`_closing_after_send`) are left out.
-/
import QDistro.RemoteAdapter

open JsonText

namespace RemoteNested

/-! ## Frames between a controller and its endpoint -/

/-- `EndpointRequest` -/
structure EndpointRequest where
  channel : Channel
  kind : String
  payload : Bytes := []
  ack : ℕ := 0
  deriving DecidableEq, Repr

/-- A frame from the controller to its endpoint. -/
inductive LocalRequest where
  | send (request : EndpointRequest)
  | dropTransport
  deriving DecidableEq, Repr

/-- Whether a frame asks for an input message. -/
def LocalRequest.isInput : LocalRequest → Bool
  | .send r => r.channel == .input
  | .dropTransport => false

/-- A frame from the endpoint to its controller. -/
inductive EndpointEvent where
  | connected (epoch : ℕ) (displayIdentity : RemoteDisplayIdentity)
  | detached (epoch : ℕ) (releases : List InputRelease)
  | sent (channel : Channel) (seq : ℕ)
  | transportDropRequested (epoch : ℕ)
  | error (message : String)
  | received (channel : Channel) (kind : String) (seq ack : ℕ) (payload : Bytes)
  deriving DecidableEq, Repr

/-! ## Attachment state -/

/-- `ViewerNestedState` -/
structure ViewerNestedState where
  epoch : ℕ := 0
  connected : Bool := false
  attached : Bool := false
  sourceAlive : Bool := false
  sourceRevision : ℕ := 0
  announcement : Option StreamAnnouncement := none
  lastMediaSeq : ℕ := 0
  decoderPending : List ℕ := []
  decoderAcked : ℕ := 0
  deriving DecidableEq, Repr

/-- `MAX_LOCAL_DECODE_PENDING` -/
def maxLocalDecodePending : ℕ := 2

namespace ViewerNestedState

variable (s : ViewerNestedState)

/-- `transport_connected` -/
def transportConnected (epoch : ℕ) : Checked ViewerNestedState := do
  let epoch ← positiveInteger "connection epoch" (.int epoch)
  guardError (epoch ≤ s.epoch) .replay "connection epoch is stale"
  return { s with
    epoch := epoch
    connected := true
    attached := false
    lastMediaSeq := 0
    decoderPending := []
    decoderAcked := 0 }

/-- `receive_control` of `announce` and `reconcile`. -/
def receiveAnnouncement (kind : String) (payload : Option Json) :
    Checked (ViewerNestedState × StreamAnnouncement) := do
  let announcement ← decodeAnnouncement payload
  guardError (kind = "announce" ∧ s.sourceRevision ≠ 0) .replay "duplicate source announcement"
  guardError (announcement.sourceRevision < s.sourceRevision) .replay
    "source reconciliation revision is stale"
  guardError (announcement.sourceRevision = s.sourceRevision ∧ s.announcement ≠ none ∧
    some announcement ≠ s.announcement) .replay
    "source reconciliation changed without a new revision"
  return ({ s with
    sourceRevision := announcement.sourceRevision
    announcement := some announcement
    sourceAlive := true
    attached := true }, announcement)

/-- `receive_control` of `source_closed`. -/
def receiveSourceClosed (payload : Option Json) : Checked ViewerNestedState := do
  let revision ← decodeSourceClosed payload
  guardError (revision ≤ s.sourceRevision) .replay "source close revision is stale"
  return { s with
    sourceRevision := revision
    sourceAlive := false
    attached := false
    announcement := none
    decoderPending := [] }

/-- `receive_control` -/
def receiveControl (kind : String) (payload : Option Json) :
    Checked (ViewerNestedState × Option StreamAnnouncement) := do
  guardError (!s.connected) .adapter "viewer control arrived while detached"
  if kind = "announce" ∨ kind = "reconcile" then
    let r ← s.receiveAnnouncement kind payload
    return (r.1, some r.2)
  else if kind = "source_closed" then
    let s' ← s.receiveSourceClosed payload
    return (s', none)
  else reject "unsupported nested control kind"

/-- `receive_media` -/
def receiveMedia (seq : ℕ) (payload : Bytes) : Checked (ViewerNestedState × RawFrame) := do
  match s.announcement with
  | none => reject "viewer media arrived without a live attachment"
  | some announcement =>
    guardError (!s.connected || !s.attached) .adapter
      "viewer media arrived without a live attachment"
    let seq ← positiveInteger "media sequence" (.int seq)
    guardError (seq ≠ s.lastMediaSeq + 1) .replay
      "local decoder media sequence is not contiguous"
    guardError (s.decoderPending.length ≥ maxLocalDecodePending) .flowControl
      "local decoder window is full"
    let frame ← RawFrame.decode payload
    guardError (!frame.matchesStream announcement) .adapter
      "remote frame does not match announced geometry"
    return ({ s with lastMediaSeq := seq, decoderPending := s.decoderPending ++ [seq] }, frame)

/-- `decoder_acknowledged` -/
def decoderAcknowledged (seq : ℕ) : Checked (ViewerNestedState × EndpointRequest) := do
  let seq ← positiveInteger "decoder acknowledgement" (.int seq)
  guardError (seq ≤ s.decoderAcked ∨ seq > s.lastMediaSeq ∨ seq ∉ s.decoderPending) .flowControl
    "decoder acknowledgement is stale or undelivered"
  return ({ s with
    decoderAcked := seq
    decoderPending := s.decoderPending.filter (seq < ·) },
    { channel := .control, kind := "media_ack", ack := seq })

/-- Whether input and close requests are enabled. -/
def inputEnabled : Bool := s.connected && s.attached && s.sourceAlive

/-- `send_input` -/
def sendInput (kind : InputKind) (event : InputEvent) : Checked EndpointRequest := do
  guardError (!s.inputEnabled) .adapter "viewer input is disabled while detached"
  let payload ← encodeInputEvent event
  return { channel := .input, kind := kind.name, payload := payload }

/-- `request_close` -/
def requestClose (sourceRevision : ℕ) : Checked EndpointRequest := do
  guardError (!s.inputEnabled) .adapter "viewer close is disabled while detached"
  let sourceRevision ← positiveInteger "source_revision" (.int sourceRevision)
  guardError (sourceRevision ≠ s.sourceRevision) .replay "viewer close source revision is stale"
  let payload ← sourceClosedPayload sourceRevision
  return { channel := .control, kind := "close_request", payload := payload }

/-- `transport_detached` -/
def transportDetached (epoch : ℕ) : Checked ViewerNestedState := do
  guardError (epoch ≠ s.epoch || !s.connected) .replay "detach epoch is stale or not attached"
  return { s with connected := false, attached := false, decoderPending := [] }

end ViewerNestedState

/-! ## Controller -/

/-- `RemoteNestedController` in the viewer role. -/
structure Controller where
  state : ViewerNestedState := {}
  displayIdentity : Option RemoteDisplayIdentity := none
  deriving DecidableEq, Repr

/-- Why `run` ends: an exception, or `_ControllerShutdown`. -/
inductive Halt where
  | raised (e : RemoteError)
  | shutdown
  deriving DecidableEq, Repr

/-- What a handler leaves: the controller, the messages for the helper and the frames for
the endpoint. -/
structure Reply where
  controller : Controller
  toHelper : List LocalBoundaryMessage := []
  toEndpoint : List LocalRequest := []
  deriving DecidableEq, Repr

/-- The messages of a handler, each of which `_send_helper` encodes. -/
def Reply.checked (r : Reply) : Checked Reply := do
  r.toHelper.forM LocalBoundaryMessage.check
  return r

namespace Controller

variable (u : UnicodeDb) (jsonLoads : Bytes → Option Json) (c : Controller)

/-- `_handle_viewer_received` -/
def handleViewerReceived (channel : Channel) (kind : String) (seq : ℕ) (payload : Bytes) :
    Checked Reply := do
  if channel = .control ∧ (kind = "announce" ∨ kind = "reconcile" ∨ kind = "source_closed") then
    match ← c.state.receiveControl kind (jsonLoads payload) with
    | (state, none) =>
      Reply.checked ⟨{ c with state := state },
        [{ kind := .sourceClosed, seq := state.sourceRevision }], []⟩
    | (state, some announcement) =>
      Reply.checked ⟨{ c with state := state },
        [{ kind := .announce, seq := announcement.sourceRevision,
           payload := encodeLocalAnnouncement announcement }], []⟩
  else if channel = .media ∧ kind = "frame_bgrx" then
    let r ← c.state.receiveMedia seq payload
    Reply.checked ⟨{ c with state := r.1 },
      [{ kind := .frame, seq := seq, payload := r.2.encode }], []⟩
  else reject "viewer received unsupported remote message"

/-- `_handle_endpoint` -/
def handleEndpoint : EndpointEvent → Checked Reply
  | .connected epoch identity => do
    let _ ← positiveInteger "connection epoch" (.int epoch)
    identity.validate u
    guardError (c.displayIdentity ≠ none ∧ c.displayIdentity ≠ some identity) .adapter
      "endpoint display identity changed across reconnect"
    let state ← c.state.transportConnected epoch
    Reply.checked ⟨{ state := state, displayIdentity := some identity },
      [{ kind := .connected, seq := epoch },
       { kind := .identity, seq := identity.generation, payload := identity.encode }], []⟩
  | .detached epoch releases => do
    let _ ← positiveInteger "detach epoch" (.int epoch)
    guardError (!releases.isEmpty) .adapter "viewer endpoint must not report held input"
    let state ← c.state.transportDetached epoch
    Reply.checked ⟨{ c with state := state }, [{ kind := .detached, seq := epoch }], []⟩
  | .sent _ _ => .ok { controller := c }
  | .transportDropRequested _ => .ok { controller := c }
  | .error message => reject s!"remote endpoint failed: {message}"
  | .received channel kind seq _ payload => c.handleViewerReceived jsonLoads channel kind seq payload

/-- `_handle_viewer_helper` -/
def handleViewerHelper (message : LocalBoundaryMessage) : Checked Reply :=
  match message.kind with
  | .dropTransport => do
    guardError (message.seq ≠ 0 || !message.payload.isEmpty) .adapter
      "drop_transport helper message must be empty"
    return { controller := c, toEndpoint := [.dropTransport] }
  | .decoderAck => do
    guardError (!message.payload.isEmpty) .adapter "decoder_ack helper payload must be empty"
    let r ← c.state.decoderAcknowledged message.seq
    return { controller := { c with state := r.1 }, toEndpoint := [.send r.2] }
  | .closeRequest => do
    guardError (!message.payload.isEmpty) .adapter "close_request helper payload must be empty"
    let request ← c.state.requestClose message.seq
    return { controller := c, toEndpoint := [.send request] }
  | .input kind => do
    let event ← decodeLocalInputEvent kind message.payload
    let request ← c.state.sendInput kind event
    return { controller := c, toEndpoint := [.send request] }
  | _ => reject "viewer helper message is not allowed"

/-- `_handle_helper` on a frame of the helper socket. -/
def handleHelper (frame : Bytes) : Except Halt Reply :=
  match LocalBoundaryMessage.decode frame with
  | .error e => .error (.raised e)
  | .ok message =>
    if message.kind = .shutdown then
      if message.seq ≠ 0 || !message.payload.isEmpty then
        .error (.raised ⟨.adapter, "shutdown helper message must be empty"⟩)
      else .error .shutdown
    else (c.handleViewerHelper message).mapError .raised

end Controller

end RemoteNested
