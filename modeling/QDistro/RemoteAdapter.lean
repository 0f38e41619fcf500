/-
# The authenticated adapter

`remote_adapter`: the session key and binding, the envelope codec, the ordered receiver and
the lifecycle of a proxy.

An envelope is represented by the fields that its tag authenticates.  Tags are symbolic:
only `seal` makes an envelope, and a byte string from the network that is not a sealed
envelope fails authentication (`none` below).  The clock that the codec reads is an
argument.
-/
import QDistro.RemoteProtocol

open JsonText

namespace RemoteNested

/-! ## Keys and bindings -/

/-- `RemoteSessionKey`, without its secret. -/
structure RemoteSessionKey where
  keyId : String
  issuedAt : ℤ
  expiresAt : ℤ
  revoked : Bool := false
  deriving DecidableEq, Repr

/-- `require_active` -/
def RemoteSessionKey.requireActive (k : RemoteSessionKey) (now : ℤ) : Checked Unit := do
  guardError k.revoked .authentication "remote session key has been revoked"
  guardError (now < k.issuedAt) .authentication "remote session key is not valid yet"
  guardError (now ≥ k.expiresAt) .authentication "remote session key has expired"

/-- `RemoteSessionBinding` -/
structure RemoteSessionBinding where
  sourceMachine : String
  viewerMachine : String
  trustDomainId : String
  generation : ℕ
  sessionId : String
  streamId : String
  epoch : ℕ
  keyId : String
  keyExpiresAt : ℤ
  sourceTlsCertSha256 : String
  viewerTlsCertSha256 : String
  deriving DecidableEq, Repr

/-- `_SHA256_FINGERPRINT` -/
def matchFingerprint (s : String) : Bool :=
  s.toList.length == 64 && s.toList.all fun c => c.isDigit || ('a' ≤ c && c ≤ 'f')

/-- `RemoteSessionBinding.validate` -/
def RemoteSessionBinding.validate (u : UnicodeDb) (b : RemoteSessionBinding) : Checked Unit := do
  guardError (!matchIdentity b.sourceMachine) .adapter
    s!"invalid source_machine {PyText.pyRepr u b.sourceMachine}"
  guardError (!matchIdentity b.viewerMachine) .adapter
    s!"invalid viewer_machine {PyText.pyRepr u b.viewerMachine}"
  guardError (!matchIdentity b.trustDomainId) .adapter
    s!"invalid trust_domain_id {PyText.pyRepr u b.trustDomainId}"
  guardError (!matchIdentity b.sessionId) .adapter
    s!"invalid session_id {PyText.pyRepr u b.sessionId}"
  guardError (!matchIdentity b.keyId) .adapter s!"invalid key_id {PyText.pyRepr u b.keyId}"
  guardError (!matchStreamId b.streamId) .adapter
    s!"invalid stream_id {PyText.pyRepr u b.streamId}"
  guardError (!matchFingerprint b.sourceTlsCertSha256) .adapter "invalid source_tls_cert_sha256"
  guardError (!matchFingerprint b.viewerTlsCertSha256) .adapter "invalid viewer_tls_cert_sha256"
  guardError (b.generation = 0) .adapter "generation must be a positive integer"
  guardError (b.epoch = 0) .adapter "epoch must be a positive integer"
  guardError (b.keyExpiresAt ≤ 0) .adapter "key_expires_at must be a positive integer"

/-! ## Envelopes -/

inductive Direction where
  | sourceToViewer
  | viewerToSource
  deriving DecidableEq, Repr

/-- What the tag of an envelope authenticates. -/
structure Envelope where
  binding : RemoteSessionBinding
  direction : Direction
  channel : Channel
  kind : String
  seq : ℕ
  ack : ℕ
  payload : Bytes
  deriving DecidableEq, Repr

/-- `AuthenticatedEnvelopeCodec` -/
structure Codec where
  binding : RemoteSessionBinding
  sessionKey : RemoteSessionKey
  deriving DecidableEq, Repr

/-- `AuthenticatedEnvelopeCodec.__init__` -/
def Codec.make (u : UnicodeDb) (binding : RemoteSessionBinding) (key : RemoteSessionKey) :
    Checked Codec := do
  binding.validate u
  guardError (binding.keyId ≠ key.keyId ∨ binding.keyExpiresAt ≠ key.expiresAt) .authentication
    "remote binding does not match session key grant"
  return ⟨binding, key⟩

/-- `_validate_header`, for a direction and a channel that exist. -/
def validateHeader (kind : String) (seq : ℕ) : Checked Unit := do
  guardError (!matchIdentity kind) .adapter "invalid remote message kind"
  guardError (seq < 1) .adapter "seq must be an integer >= 1"

/-- The name of a channel. -/
def Channel.name : Channel → String
  | .control => "control"
  | .media => "media"
  | .input => "input"

/-- `AuthenticatedEnvelopeCodec.seal` -/
def Codec.sealMessage (c : Codec) (now : ℤ) (direction : Direction) (channel : Channel)
    (kind : String) (seq : ℕ) (payload : Bytes) (ack : ℕ) : Checked Envelope := do
  validateHeader kind seq
  guardError (payload.length > channel.payloadLimit) .adapter
    s!"{channel.name} payload exceeds limit"
  c.sessionKey.requireActive now
  return ⟨c.binding, direction, channel, kind, seq, ack, payload⟩

/-- `AuthenticatedEnvelopeCodec.open` -/
def Codec.openEnvelope (u : UnicodeDb) (c : Codec) (now : ℤ) (expected : Direction) :
    Option Envelope → Checked Envelope
  | none => .error ⟨.authentication, "remote envelope authentication failed"⟩
  | some e => do
    e.binding.validate u
    guardError (e.binding ≠ c.binding) .authentication "remote envelope binding mismatch"
    validateHeader e.kind e.seq
    guardError (e.direction ≠ expected) .authentication "remote envelope direction mismatch"
    c.sessionKey.requireActive now
    guardError (e.payload.length > e.channel.payloadLimit) .adapter
      s!"{e.channel.name} payload exceeds limit"
    return e

/-- A number for each channel. -/
structure PerChannel where
  control : ℕ
  media : ℕ
  input : ℕ
  deriving DecidableEq, Repr

def PerChannel.get (p : PerChannel) : Channel → ℕ
  | .control => p.control
  | .media => p.media
  | .input => p.input

def PerChannel.set (p : PerChannel) (n : ℕ) : Channel → PerChannel
  | .control => { p with control := n }
  | .media => { p with media := n }
  | .input => { p with input := n }

/-- `AuthenticatedReceiver.receive`: the message and the new `_last_seq`. -/
def receive (u : UnicodeDb) (c : Codec) (allowInput : Bool) (lastSeq : PerChannel) (now : ℤ)
    (direction : Direction) (wire : Option Envelope) : Checked (Envelope × PerChannel) := do
  let message ← c.openEnvelope u now direction wire
  guardError (message.channel = .input ∧ !allowInput) .authentication
    "paired session lacks input capability"
  let next := lastSeq.get message.channel + 1
  guardError (message.seq ≠ next) .replay
    s!"{message.channel.name} sequence {message.seq} != expected {next}"
  return (message, lastSeq.set message.seq message.channel)

/-! ## Lifecycle -/

/-- `InputRelease` -/
structure InputRelease where
  kind : InputKind
  code : ℕ
  deriving DecidableEq, Repr

/-- `RemoteInputState` -/
structure RemoteInputState where
  epoch : ℕ := 0
  attached : Bool := false
  heldKeys : List ℕ := []
  heldButtons : List ℕ := []
  deriving DecidableEq, Repr

namespace RemoteInputState

/-- The releases `detach` reports: the held buttons and keys, each in order. -/
def releases (i : RemoteInputState) : List InputRelease :=
  (i.heldButtons.mergeSort (· ≤ ·)).map (⟨.button, ·⟩) ++
    (i.heldKeys.mergeSort (· ≤ ·)).map (⟨.key, ·⟩)

/-- `detach` -/
def detach (i : RemoteInputState) : RemoteInputState :=
  { i with heldKeys := [], heldButtons := [], attached := false }

/-- `attach` -/
def attach (i : RemoteInputState) (epoch : ℕ) : Checked RemoteInputState := do
  guardError (epoch ≤ i.epoch) .replay "input epoch is stale"
  return { i.detach with epoch := epoch, attached := true }

end RemoteInputState

/-- `ProxyAttachmentState` -/
inductive ProxyAttachmentState where
  | absent
  | attached
  | detached
  | closed
  deriving DecidableEq, Repr

/-- `RemoteProxyLifecycle` -/
structure RemoteProxyLifecycle where
  state : ProxyAttachmentState := .absent
  sourceAlive : Bool := false
  sourceRevision : ℕ := 0
  epoch : ℕ := 0
  input : RemoteInputState := {}
  deriving DecidableEq, Repr

namespace RemoteProxyLifecycle

variable (l : RemoteProxyLifecycle)

/-- `_advance` -/
def advance (epoch sourceRevision : ℕ) : Checked RemoteProxyLifecycle := do
  guardError (epoch ≤ l.epoch) .replay "connection epoch is stale"
  guardError (sourceRevision < l.sourceRevision) .replay "source revision is stale"
  return { l with epoch := epoch, sourceRevision := sourceRevision }

/-- `announce` -/
def announce (epoch sourceRevision : ℕ) : Checked RemoteProxyLifecycle := do
  let l ← l.advance epoch sourceRevision
  let input ← l.input.attach epoch
  return { l with input := input, sourceAlive := true, state := .attached }

/-- `transport_lost` -/
def transportLost : RemoteProxyLifecycle :=
  { l with
    input := l.input.detach
    state := if l.state = .attached then .detached else l.state }

/-- `reconcile` -/
def reconcile (epoch sourceRevision : ℕ) (sourceAlive : Bool) : Checked RemoteProxyLifecycle := do
  let l ← l.advance epoch sourceRevision
  let input ← if sourceAlive then l.input.attach epoch else .ok l.input.detach
  return { l with
    input := input
    sourceAlive := sourceAlive
    state := if sourceAlive then .attached else .closed }

end RemoteProxyLifecycle

end RemoteNested
