/-
# The lease of a peer's panel

`display_panel_agent.py`, the peer's half.  A primary reserves the peer's panel and keeps it by
heartbeats; the peer gives the panel back by itself when the heartbeats stop or the grant ends.
Nothing runs at the deadline: an expired lease is noticed by the next call that looks at it.

A call reads the wall clock and the monotonic clock and runs the panel actions, any of which may
raise; `PanelEnv` is what one call meets.
-/
import QDistro.DisplaySlot
import QDistro.RemoteProtocol

namespace PanelControl

open JsonText DisplayDock RemoteNested

/-- `PanelControlError(text)` -/
def controlError (text : String) : PyError := ⟨"PanelControlError", text⟩

/-- `PanelLeaseSpec` -/
structure PanelLeaseSpec where
  sessionId : String
  generation : ℤ
  slotName : String
  heartbeatMs : ℤ
  leaseExpiresAt : ℤ
  deriving DecidableEq, Repr

/-- `PanelLeaseSpec.from_verified_payload(payload)` -/
def PanelLeaseSpec.fromVerifiedPayload (payload : Payload) : Except PyError PanelLeaseSpec := do
  let grant ← ActiveDisplayGrant.fromVerifiedPayload payload
  return ⟨grant.sessionId, grant.generation, grant.slotName, grant.heartbeatMs,
    grant.leaseExpiresAt⟩

/-- `heartbeat_ms / 1000.0` -/
def PanelLeaseSpec.heartbeat (spec : PanelLeaseSpec) : ℚ := spec.heartbeatMs / 1000

/-- `PanelLeaseState` -/
structure PanelLeaseState where
  reserved : Bool := false
  deadline : Option ℚ := none
  terminal : Bool := false
  deriving DecidableEq, Repr

/-- What one call meets: the clocks it reads, and what the panel actions do. -/
structure PanelEnv where
  /-- `clock()` -/
  wall : ℚ
  /-- `monotonic_clock()` when the call looks at the deadline. -/
  mono : ℚ
  /-- `monotonic_clock()` when the call sets the deadline. -/
  renewed : ℚ
  /-- What `blank` raises. -/
  blank : Option PyError
  /-- What `restore` raises. -/
  restore : Option PyError
  safe : Except PyError Bool
  deriving DecidableEq, Repr

inductive PanelAction where
  | blank
  | restore
  | safe
  deriving DecidableEq, Repr

/-- The texts that the calls return. -/
inductive PanelResult where
  | reserved
  | renewed
  | released
  | safe
  | unsafePanel
  deriving DecidableEq, Repr

def PanelResult.text : PanelResult → String
  | .reserved => "reserved"
  | .renewed => "renewed"
  | .released => "released"
  | .safe => "safe"
  | .unsafePanel => "unsafe"

/-- A call that has ended: the state it left, the actions it ran, and what it returned or
raised. -/
structure Outcome (α : Type) where
  state : PanelLeaseState
  performed : List PanelAction
  result : Except PyError α
  deriving Repr

namespace PanelLeaseState

variable (spec : PanelLeaseSpec) (s : PanelLeaseState) (e : PanelEnv)

/-- `_expired` -/
def expired : Bool :=
  decide ((spec.leaseExpiresAt : ℚ) ≤ e.wall) ||
    match s.deadline with
    | some deadline => decide (deadline < e.mono)
    | none => false

/-- `_renew_deadline` -/
def renewDeadline : PanelLeaseState := { s with deadline := some (e.renewed + spec.heartbeat) }

/-- The state after `restore` has returned. -/
def closed : PanelLeaseState := ⟨false, none, true⟩

/-- `reserve` -/
def reserve : Outcome PanelResult :=
  if s.terminal then ⟨s, [], .error (controlError "panel generation is already closed")⟩
  else if (spec.leaseExpiresAt : ℚ) ≤ e.wall then
    ⟨s, [], .error (controlError "panel grant lease has expired")⟩
  else if s.reserved then ⟨s.renewDeadline spec e, [], .ok .reserved⟩
  else
    match e.blank with
    | some err => ⟨s, [.blank], .error err⟩
    | none => ⟨{ s with reserved := true }.renewDeadline spec e, [.blank], .ok .reserved⟩

/-- `expire` -/
def expire : Outcome Bool :=
  if s.reserved then
    match e.restore with
    | some err => ⟨s, [.restore], .error err⟩
    | none => ⟨closed, [.restore], .ok true⟩
  else ⟨s, [], .ok false⟩

/-- `heartbeat` -/
def heartbeat : Outcome PanelResult :=
  if s.terminal || !s.reserved then ⟨s, [], .error (controlError "panel is not reserved")⟩
  else if s.expired spec e then
    let o := s.expire e
    match o.result with
    | .error err => ⟨o.state, o.performed, .error err⟩
    | .ok _ =>
      ⟨o.state, o.performed, .error (controlError "panel lease heartbeat arrived too late")⟩
  else ⟨s.renewDeadline spec e, [], .ok .renewed⟩

/-- `release` -/
def release : Outcome PanelResult :=
  if s.reserved then
    match e.restore with
    | some err => ⟨s, [.restore], .error err⟩
    | none => ⟨closed, [.restore], .ok .released⟩
  else ⟨closed, [], .ok .released⟩

/-- `tick` -/
def tick : Outcome Bool :=
  if s.reserved && s.expired spec e then s.expire e else ⟨s, [], .ok false⟩

/-- `status` -/
def status : Outcome PanelResult :=
  let o := s.tick spec e
  match o.result with
  | .error err => ⟨o.state, o.performed, .error err⟩
  | .ok _ =>
    if o.state.reserved then ⟨o.state, o.performed, .ok .reserved⟩
    else
      ⟨o.state, o.performed ++ [.safe], e.safe.map fun safe => if safe then .safe else .unsafePanel⟩

/-- `poll_timeout` -/
def pollTimeout : ℚ :=
  match s.reserved, s.deadline with
  | true, some deadline => max 0 (min (min 1 (deadline - e.mono)) (spec.leaseExpiresAt - e.wall))
  | _, _ => 1

end PanelLeaseState

/-! ## Requests -/

/-- `_KINDS` -/
inductive PanelKind where
  | reserve
  | heartbeat
  | release
  | status
  deriving DecidableEq, Repr

def PanelKind.text : PanelKind → String
  | .reserve => "reserve"
  | .heartbeat => "heartbeat"
  | .release => "release"
  | .status => "status"

/-- The kind with a text, if there is one. -/
def PanelKind.ofText (text : String) : Option PanelKind :=
  [PanelKind.reserve, .heartbeat, .release, .status].find? fun kind => kind.text = text

/-- The call that a request of a kind makes. -/
def PanelKind.run (kind : PanelKind) (spec : PanelLeaseSpec) (s : PanelLeaseState)
    (e : PanelEnv) : Outcome PanelResult :=
  match kind with
  | .reserve => s.reserve spec e
  | .heartbeat => s.heartbeat spec e
  | .release => s.release e
  | .status => s.status spec e

/-- `SCHEMA` -/
def panelSchema : String := "qdistro-mm-panel-control-v1"

/-- What the checks use of Python: `json.loads` of bytes, and a float compared with an
integer. -/
structure PyJson where
  loads : Bytes → Except PyError Json
  floatEq : FloatLit → ℤ → Bool

/-- `value == n` -/
def PyJson.eqInt (py : PyJson) (n : ℤ) : Json → Bool
  | .int m => m == n
  | .bool b => (if b then 1 else 0) == n
  | .float f => py.floatEq f n
  | _ => false

/-- `value == text` -/
def eqText (text : String) : Json → Bool
  | .str s => s == text
  | _ => false

/-- `_REQUEST_FIELDS` -/
def requestFields : List String :=
  ["schema", "seq", "kind", "session_id", "generation", "slot_name"]

/-- The kind of a request.  A set cannot be asked about a list or a dictionary. -/
def requestKind : Json → Except PyError PanelKind
  | .str text =>
    match PanelKind.ofText text with
    | some kind => .ok kind
    | none => .error (controlError "panel request kind is invalid")
  | .arr _ => .error ⟨"TypeError", "unhashable type: 'list'"⟩
  | .obj _ => .error ⟨"TypeError", "unhashable type: 'dict'"⟩
  | _ => .error (controlError "panel request kind is invalid")

/-- The checks of `PanelPeerProtocol.handle` on a decoded request: its sequence number and its
kind. -/
def acceptRequest (py : PyJson) (spec : PanelLeaseSpec) (lastSeq : ℤ) (request : Json) :
    Except PyError (ℤ × PanelKind) :=
  match request with
  | .obj fields =>
    if hasExactly fields requestFields then
      if eqText panelSchema (itemOf fields "schema") &&
          eqText spec.sessionId (itemOf fields "session_id") &&
          py.eqInt spec.generation (itemOf fields "generation") &&
          eqText spec.slotName (itemOf fields "slot_name") then
        match itemOf fields "seq" with
        | .int seq =>
          if seq = lastSeq + 1 then (requestKind (itemOf fields "kind")).map fun kind => (seq, kind)
          else .error (controlError "panel request sequence is invalid")
        | _ => .error (controlError "panel request sequence is invalid")
      else .error (controlError "panel request targets another grant")
    else .error (controlError "panel request fields do not match schema")
  | _ => .error (controlError "panel request fields do not match schema")

/-- `PanelPeerProtocol`: the lease and the last sequence number. -/
structure PanelPeer where
  lease : PanelLeaseState := {}
  lastSeq : ℤ := 0
  deriving DecidableEq, Repr

/-- `json.loads(payload)`, with its two decoding errors replaced. -/
def PyJson.decode (py : PyJson) (payload : Bytes) : Except PyError Json :=
  match py.loads payload with
  | .ok request => .ok request
  | .error err =>
    if err.name = "UnicodeDecodeError" ∨ err.name = "JSONDecodeError" then
      .error (controlError "panel request is not JSON")
    else .error err

/-- The checks of `PanelPeerProtocol.handle`. -/
def PanelPeer.accept (py : PyJson) (spec : PanelLeaseSpec) (p : PanelPeer) (payload : Bytes) :
    Except PyError (ℤ × PanelKind) := do
  acceptRequest py spec p.lastSeq (← py.decode payload)

/-- The response to a request, as a dictionary. -/
def responseJson (seq : ℤ) (kind : PanelKind) (result : PanelResult) : Json :=
  .obj [("schema", .str panelSchema), ("seq", .int seq), ("kind", .str kind.text),
    ("result", .str result.text)]

/-- `_canonical` -/
def canonical (value : Json) : Bytes := asciiBytes (dumpsSorted compactSeps value)

/-- `PanelPeerProtocol.handle`: the sequence number moves as soon as the request is accepted. -/
def PanelPeer.handle (py : PyJson) (spec : PanelLeaseSpec) (p : PanelPeer) (payload : Bytes)
    (e : PanelEnv) : PanelPeer × Except PyError Bytes :=
  match p.accept py spec payload with
  | .error err => (p, .error err)
  | .ok (seq, kind) =>
    let o := kind.run spec p.lease e
    (⟨o.state, seq⟩, o.result.map fun result => canonical (responseJson seq kind result))

end PanelControl
