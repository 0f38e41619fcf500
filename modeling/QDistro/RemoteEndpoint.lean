/-
# The viewer endpoint and its controller

`remote_adapter_transport.RemoteAdapterEndpoint` in the viewer role, and the system of a
viewer controller and its endpoint joined by two local sockets.

A socket is the list of the frames that were sent and not yet read.  A closed peer keeps
what it sent before: its frames can still be read, then the reader sees the end of the
stream, and a frame sent to it raises.  Each step of the system is one iteration of one of
the two loops, with what the network, the clock and the helper did as the action.

The link also keeps a history that no step reads: for a frame in flight the epoch the
controller's state had when it sent the frame, and the envelopes the endpoint sealed.
-/
import QDistro.RemoteViewer
import QDistro.TransitionSystem

open JsonText

namespace RemoteNested

/-! ## Endpoint -/

/-- `EndpointRuntime`: what a viewer endpoint is configured with. -/
structure EndpointRuntime where
  allowInput : Bool
  binding : RemoteSessionBinding
  sessionKey : RemoteSessionKey
  deriving DecidableEq, Repr

/-- Where `run` stands. -/
inductive Phase where
  | connecting
  | online
  | stopped
  deriving DecidableEq, Repr

/-- `RemoteAdapterEndpoint` in the viewer role. -/
structure Endpoint where
  runtime : EndpointRuntime
  binding : RemoteSessionBinding
  life : RemoteProxyLifecycle := {}
  nextSeq : PerChannel := ⟨1, 1, 1⟩
  lastSeq : PerChannel := ⟨0, 0, 0⟩
  lastMediaReceived : ℕ := 0
  phase : Phase := .connecting
  established : Bool := false
  deriving DecidableEq, Repr

namespace Endpoint

variable (u : UnicodeDb) (ep : Endpoint)

/-- `self.codec` -/
def codec : Codec := ⟨ep.binding, ep.runtime.sessionKey⟩

/-- `_reset_wire_epoch` -/
def resetWireEpoch : Checked Endpoint := do
  let _ ← Codec.make u ep.binding ep.runtime.sessionKey
  return { ep with nextSeq := ⟨1, 1, 1⟩, lastSeq := ⟨0, 0, 0⟩, lastMediaReceived := 0 }

/-- `__init__` -/
def make (runtime : EndpointRuntime) : Checked Endpoint := do
  let life ← RemoteProxyLifecycle.announce {} runtime.binding.epoch 1
  resetWireEpoch u { runtime := runtime, binding := runtime.binding, life := life }

/-- `_advance_epoch` -/
def advanceEpoch : Checked Endpoint := do
  let epoch := ep.binding.epoch + 1
  let life ← ep.life.reconcile epoch 1 true
  resetWireEpoch u { ep with binding := { ep.binding with epoch := epoch }, life := life }

/-- The `connected` event. -/
def connectedEvent : EndpointEvent :=
  .connected ep.binding.epoch
    ⟨ep.binding.sourceMachine, ep.binding.trustDomainId, ep.binding.streamId, ep.binding.generation⟩

/-- `_handle_local` of a `send` request, up to the sealed envelope. -/
def sealRequest (now : ℤ) (r : EndpointRequest) : Checked Envelope := do
  guardError (r.channel = .media) .adapter "viewer endpoint cannot send this channel"
  guardError (r.channel = .input ∧ !ep.runtime.allowInput) .adapter
    "viewer endpoint lacks input capability"
  guardError (r.payload.length > r.channel.payloadLimit) .adapter
    "local adapter payload exceeds size limit"
  guardError (r.kind = "media_ack" ∧ (r.channel ≠ .control ∨ r.ack > ep.lastMediaReceived))
    .flowControl "media acknowledgement is unsent"
  ep.codec.sealMessage now .viewerToSource r.channel r.kind (ep.nextSeq.get r.channel) r.payload
    r.ack

/-- What `_handle_local` does once the envelope is on the wire. -/
def requestSent (channel : Channel) : Endpoint :=
  { ep with nextSeq := ep.nextSeq.set (ep.nextSeq.get channel + 1) channel }

/-- `_handle_remote` -/
def handleRemote (now : ℤ) (wire : Option Envelope) : Checked (Endpoint × EndpointEvent) := do
  let (m, lastSeq) ← receive u ep.codec ep.runtime.allowInput ep.lastSeq now .sourceToViewer wire
  return ({ ep with
      lastSeq := lastSeq
      lastMediaReceived := if m.channel = .media then m.seq else ep.lastMediaReceived },
    .received m.channel m.kind m.seq m.ack m.payload)

end Endpoint

/-! ## The link -/

/-- A frame in flight, with the epoch of the controller's state when it was sent. -/
structure Emitted where
  epoch : ℕ
  request : LocalRequest
  deriving DecidableEq, Repr

/-- A sealed envelope, with the epoch of the controller's state when it was asked for. -/
structure Delivery where
  emittedAt : ℕ
  envelope : Envelope
  deriving DecidableEq, Repr

/-- A viewer controller, its endpoint and the sockets between them. -/
structure Link where
  controller : Controller := {}
  controllerUp : Bool := true
  endpoint : Endpoint
  toController : List EndpointEvent := []
  toEndpoint : List Emitted := []
  toHelper : List LocalBoundaryMessage := []
  deliveries : List Delivery := []
  deriving DecidableEq, Repr

/-- What happens next. -/
inductive Action where
  /-- the controller reads a frame of the helper socket -/
  | helper (frame : Bytes)
  /-- the helper closes its socket -/
  | helperClosed
  /-- the controller reads a frame of the endpoint socket -/
  | endpointEvent
  /-- `_connect_tls` returns -/
  | connect
  /-- `_connect_tls` raises; `fatal` unless it is one of the errors `run` retries -/
  | connectFailed (fatal : Bool) (message : String)
  /-- the endpoint reads a frame of the controller; `onWire` unless the TLS send raises -/
  | localRequest (now : ℤ) (onWire : Bool)
  /-- the endpoint reads a frame of the network -/
  | wire (now : ℤ) (frame : Option Envelope)
  /-- the network is lost -/
  | networkLost
  deriving DecidableEq, Repr

namespace Link

variable (u : UnicodeDb) (jsonLoads : Bytes → Option Json) (s : Link)

/-- The endpoint leaves `run`. -/
def stopEndpoint : Link := { s with endpoint := { s.endpoint with phase := .stopped } }

/-- `_send_local_event`; an error on the socket of a closed controller ends the endpoint. -/
def sendLocalEvent (event : EndpointEvent) : Link :=
  if s.controllerUp then { s with toController := s.toController ++ [event] }
  else s.stopEndpoint

/-- An exception of the endpoint: the `error` event, if it can be sent, and the end. -/
def endpointRaised (message : String) : Link :=
  stopEndpoint (s.sendLocalEvent (.error message))

/-- What `run` does after the event loop: the `detached` event and the next epoch. -/
def transportLost : Link :=
  let releases := s.endpoint.life.input.releases
  let ep := { s.endpoint with life := s.endpoint.life.transportLost }
  let told := sendLocalEvent { s with endpoint := ep } (.detached ep.binding.epoch releases)
  if told.endpoint.phase = .stopped then told
  else
    match told.endpoint.advanceEpoch u with
    | .error e => told.endpointRaised e.message
    | .ok ep => { told with endpoint := { ep with phase := .connecting } }

/-- The controller leaves `run` and closes its sockets. -/
def stopController : Link := { s with controllerUp := false }

/-- What a handler of the controller sends.  A frame for a stopped endpoint raises. -/
def controllerReply (r : Reply) : Link :=
  let s : Link := { s with toHelper := s.toHelper ++ r.toHelper }
  if s.endpoint.phase = .stopped ∧ r.toEndpoint ≠ [] then s.stopController
  else
    { s with
      controller := r.controller
      toEndpoint := s.toEndpoint ++ r.toEndpoint.map (Emitted.mk s.controller.state.epoch) }

/-- The endpoint reads one frame of the controller. -/
def readRequest (now : ℤ) (onWire : Bool) : Link :=
  match s.toEndpoint with
  | [] => if s.controllerUp then s else s.stopEndpoint
  | ⟨_, .dropTransport⟩ :: rest =>
    let s := sendLocalEvent { s with toEndpoint := rest }
      (.transportDropRequested s.endpoint.binding.epoch)
    if s.endpoint.phase = .stopped then s else s.transportLost u
  | ⟨epoch, .send r⟩ :: rest =>
    let s : Link := { s with toEndpoint := rest }
    match s.endpoint.sealRequest now r with
    | .error e => s.endpointRaised e.message
    | .ok envelope =>
      let s : Link := { s with deliveries := s.deliveries ++ [⟨epoch, envelope⟩] }
      if onWire then
        sendLocalEvent { s with endpoint := s.endpoint.requestSent r.channel }
          (.sent r.channel (s.endpoint.nextSeq.get r.channel))
      else s.transportLost u

/-- The endpoint reads one frame of the network. -/
def readWire (now : ℤ) (frame : Option Envelope) : Link :=
  match s.endpoint.handleRemote u now frame with
  | .error e => s.endpointRaised e.message
  | .ok (ep, event) => sendLocalEvent { s with endpoint := ep } event

/-- The controller reads one frame of the helper. -/
def readHelper (frame : Bytes) : Link :=
  match s.controller.handleHelper frame with
  | .error _ => s.stopController
  | .ok r => s.controllerReply r

/-- The controller reads one frame of the endpoint. -/
def readEvent : Link :=
  match s.toController with
  | [] => if s.endpoint.phase = .stopped then s.stopController else s
  | event :: rest =>
    let s : Link := { s with toController := rest }
    match s.controller.handleEndpoint u jsonLoads event with
    | .error _ => s.stopController
    | .ok r => s.controllerReply r

/-- One step of the link; an action that its party cannot take changes nothing. -/
def step (s : Link) : Action → Link
  | .helper frame => if s.controllerUp then s.readHelper frame else s
  | .helperClosed => s.stopController
  | .endpointEvent => if s.controllerUp then s.readEvent u jsonLoads else s
  | .connect =>
    if s.endpoint.phase = .connecting then
      sendLocalEvent
        { s with endpoint := { s.endpoint with phase := .online, established := true } }
        s.endpoint.connectedEvent
    else s
  | .connectFailed fatal message =>
    if s.endpoint.phase = .connecting ∧ (fatal ∨ !s.endpoint.established) then
      s.endpointRaised message
    else s
  | .localRequest now onWire =>
    if s.endpoint.phase = .online then s.readRequest u now onWire else s
  | .wire now frame => if s.endpoint.phase = .online then s.readWire u now frame else s
  | .networkLost => if s.endpoint.phase = .online then s.transportLost u else s

end Link

end RemoteNested
