/-
# One pre-created display slot

`remote_display_slot.py`: the authority of one RDP head.  A verified grant moves the
slot out of `disabled`; it stays live (`enabling`, `active`) only under a heartbeat
lease, and every way out of a live phase yields the same ordered teardown.

The slot does nothing itself: its operations return the actions that a privileged
executor has to perform.  Every reading of the clock is an argument, so one operation
that reads it twice takes two of them.
-/
import QDistro.JsonText
import Mathlib.Algebra.Order.Field.Rat

namespace DisplayDock

open JsonText

/-- A raised exception: the name of its class and its text. -/
structure PyError where
  name : String
  text : String
  deriving DecidableEq, Repr

/-- `DisplaySlotError(text)` -/
def slotError (text : String) : PyError := ⟨"DisplaySlotError", text⟩

/-! ## Grants -/

/-- A mapping with string keys, as the verifier returns it. -/
abbrev Payload := List (String × Json)

/-- `re.fullmatch(r"rdp-[0-9]{1,3}\Z", name)` -/
def isSlotName (name : String) : Bool :=
  match name.toList with
  | 'r' :: 'd' :: 'p' :: '-' :: digits =>
    digits.all Char.isDigit && decide (1 ≤ digits.length ∧ digits.length ≤ 3)
  | _ => false

/-- `re.fullmatch(r"[A-Za-z0-9][A-Za-z0-9._:-]{0,127}\Z", value)` -/
def isIdentity (value : String) : Bool :=
  match value.toList with
  | [] => false
  | c :: rest =>
    c.isAlphanum && decide (rest.length ≤ 127) &&
      rest.all fun c => c.isAlphanum || c == '.' || c == '_' || c == ':' || c == '-'

/-- The largest number of pixels of a slot or a grant. -/
def maxPixels : ℤ := 67108864

/-- `DisplaySlotSpec`, validated. -/
structure DisplaySlotSpec where
  name : String
  maxWidth : ℤ := 7680
  maxHeight : ℤ := 4320
  maxScale : ℤ := 2
  name_ok : isSlotName name = true
  mode_ok : 0 < maxWidth ∧ 0 < maxHeight ∧ maxWidth * maxHeight ≤ maxPixels
  scale_ok : 0 < maxScale ∧ maxScale ≤ 4

/-- `ActiveDisplayGrant`, validated. -/
structure ActiveDisplayGrant where
  primaryMachine : String
  peerMachine : String
  trustDomainId : String
  generation : ℤ
  sessionId : String
  slotName : String
  logicalX : ℤ
  logicalY : ℤ
  width : ℤ
  height : ℤ
  scale : ℤ
  allowInput : Bool
  leaseExpiresAt : ℤ
  heartbeatMs : ℤ
  positive : ∀ n ∈ [generation, width, height, scale, leaseExpiresAt, heartbeatMs], 0 < n
  deriving DecidableEq

/-- The fields of a grant, in their order. -/
def grantFields : List String :=
  ["primary_machine", "peer_machine", "trust_domain_id", "generation", "session_id",
    "slot_name", "logical_x", "logical_y", "width", "height", "scale", "allow_input",
    "lease_expires_at", "heartbeat_ms"]

/-- `type(value).__name__` of a decoded value. -/
def typeName : Json → String
  | .null => "NoneType"
  | .bool _ => "bool"
  | .int _ => "int"
  | .float _ => "float"
  | .str _ => "str"
  | .arr _ => "list"
  | .obj _ => "dict"

/-- An identity of a grant. -/
def grantIdentity : Json → Except PyError String
  | .str s => if isIdentity s then .ok s else .error (slotError "display grant identity is invalid")
  | _ => .error (slotError "display grant identity is invalid")

/-- The slot name of a grant.  `re` refuses anything but text. -/
def grantSlotName : Json → Except PyError String
  | .str s =>
    if isSlotName s then .ok s else .error (slotError "display grant slot name is invalid")
  | v => .error ⟨"TypeError", "expected string or bytes-like object, got '" ++ typeName v ++ "'"⟩

/-- A counter of a grant; a `bool` is not an `int` here. -/
def grantInteger : Json → Except PyError {n : ℤ // 0 < n}
  | .int n =>
    if h : 0 < n then .ok ⟨n, h⟩ else .error (slotError "display grant integer is invalid")
  | _ => .error (slotError "display grant integer is invalid")

/-- A coordinate of a grant. -/
def grantPosition : Json → Except PyError ℤ
  | .int n =>
    if n.natAbs ≤ 65535 then .ok n else .error (slotError "display grant position is invalid")
  | _ => .error (slotError "display grant position is invalid")

/-- The input policy of a grant. -/
def grantPolicy : Json → Except PyError Bool
  | .bool b => .ok b
  | _ => .error (slotError "display grant input policy is invalid")

/-- `payload[name]` of a field that is there. -/
def itemOf (payload : Payload) (name : String) : Json := (payload.lookup name).getD .null

/-- `ActiveDisplayGrant.from_verified_payload(payload)` -/
def ActiveDisplayGrant.fromVerifiedPayload (payload : Payload) :
    Except PyError ActiveDisplayGrant := do
  unless grantFields.all fun name => (payload.lookup name).isSome do
    throw (slotError "verified display grant is incomplete")
  let value := itemOf payload
  let primaryMachine ← grantIdentity (value "primary_machine")
  let peerMachine ← grantIdentity (value "peer_machine")
  let trustDomainId ← grantIdentity (value "trust_domain_id")
  let sessionId ← grantIdentity (value "session_id")
  if primaryMachine = peerMachine then
    throw (slotError "display endpoints must differ")
  let slotName ← grantSlotName (value "slot_name")
  let generation ← grantInteger (value "generation")
  let width ← grantInteger (value "width")
  let height ← grantInteger (value "height")
  let scale ← grantInteger (value "scale")
  let leaseExpiresAt ← grantInteger (value "lease_expires_at")
  let heartbeatMs ← grantInteger (value "heartbeat_ms")
  let logicalX ← grantPosition (value "logical_x")
  let logicalY ← grantPosition (value "logical_y")
  let allowInput ← grantPolicy (value "allow_input")
  return {
    primaryMachine, peerMachine, trustDomainId, sessionId, slotName, logicalX, logicalY, allowInput
    generation := generation.1, width := width.1, height := height.1, scale := scale.1
    leaseExpiresAt := leaseExpiresAt.1, heartbeatMs := heartbeatMs.1
    positive := by
      simp only [List.mem_cons, List.not_mem_nil, or_false, forall_eq_or_imp, forall_eq]
      exact ⟨generation.2, width.2, height.2, scale.2, leaseExpiresAt.2, heartbeatMs.2⟩ }

theorem ActiveDisplayGrant.generation_pos (grant : ActiveDisplayGrant) : 0 < grant.generation :=
  grant.positive _ List.mem_cons_self

/-! ## Phases and actions -/

/-- `SlotPhase` -/
inductive SlotPhase where
  | disabled
  | enabling
  | active
  | draining
  | failedSafe
  deriving DecidableEq, Repr

/-- `SlotPhase.value` -/
def SlotPhase.value : SlotPhase → String
  | .disabled => "disabled"
  | .enabling => "enabling"
  | .active => "active"
  | .draining => "draining"
  | .failedSafe => "failed-safe"

/-- The phases under a lease. -/
def SlotPhase.live : SlotPhase → Bool
  | .enabling | .active => true
  | _ => false

/-- `ActionKind` -/
inductive ActionKind where
  | peerBlankPanel
  | primaryEnableOutput
  | openAuthenticatedCarrier
  | primaryEnableInput
  | primaryDisableInput
  | synthesizeReleases
  | clearTransfers
  | closeCarrier
  | primaryDisableOutput
  | peerUnblankPanel
  deriving DecidableEq, Repr

/-- `ActionKind.value` -/
def ActionKind.value : ActionKind → String
  | .peerBlankPanel => "peer-blank-panel"
  | .primaryEnableOutput => "primary-enable-output"
  | .openAuthenticatedCarrier => "open-authenticated-carrier"
  | .primaryEnableInput => "primary-enable-input"
  | .primaryDisableInput => "primary-disable-input"
  | .synthesizeReleases => "synthesize-releases"
  | .clearTransfers => "clear-transfers"
  | .closeCarrier => "close-carrier"
  | .primaryDisableOutput => "primary-disable-output"
  | .peerUnblankPanel => "peer-unblank-panel"

/-- `HeldInput` -/
structure HeldInput where
  kind : String
  code : ℕ
  deriving DecidableEq, Repr

/-- `SlotAction` -/
structure SlotAction where
  kind : ActionKind
  releases : List HeldInput := []
  deriving DecidableEq, Repr

/-- The fixed order of a teardown. -/
def teardownKinds : List ActionKind :=
  [.primaryDisableInput, .synthesizeReleases, .clearTransfers, .closeCarrier,
    .primaryDisableOutput, .peerUnblankPanel]

/-! ## The slot -/

/-- `RemoteDisplaySlot` -/
structure RemoteDisplaySlot where
  spec : DisplaySlotSpec
  phase : SlotPhase := .disabled
  grant : Option ActiveDisplayGrant := none
  lastGeneration : ℤ := 0
  lastHeartbeat : ℚ := 0
  held : List HeldInput := []
  failureReason : Option String := none

namespace RemoteDisplaySlot

variable (s : RemoteDisplaySlot)

/-- `RemoteDisplaySlot.generation` -/
def generation : ℤ :=
  match s.grant with
  | some grant => grant.generation
  | none => s.lastGeneration

/-- `restore_last_generation(generation)` -/
def restoreLastGeneration (generation : ℤ) : Except PyError RemoteDisplaySlot :=
  if s.phase ≠ .disabled ∨ s.grant.isSome ∨ generation < 0 then
    .error (slotError "display slot generation recovery is invalid")
  else .ok { s with lastGeneration := max s.lastGeneration generation }

/-- `_check_generation(generation)`, which leaves the grant of that generation. -/
def checkGeneration (generation : ℤ) : Except PyError ActiveDisplayGrant :=
  match s.grant with
  | some grant =>
    if generation = grant.generation then .ok grant
    else .error (slotError "display slot generation is stale")
  | none => .error (slotError "display slot generation is stale")

/-- `_lease_valid()` for a held grant, at one reading of the clock. -/
def leaseValid (grant : ActiveDisplayGrant) (now : ℚ) : Bool :=
  decide (now ≤ s.lastHeartbeat + grant.heartbeatMs / 1000 ∧ now < grant.leaseExpiresAt)

/-- `begin_attach(payload)` -/
def beginAttach (payload : Payload) (now : ℚ) :
    Except PyError (RemoteDisplaySlot × List SlotAction) := do
  unless s.phase = .disabled ∨ s.phase = .failedSafe do
    throw (slotError ("cannot attach display slot from " ++ s.phase.value))
  let grant ← ActiveDisplayGrant.fromVerifiedPayload payload
  if grant.slotName ≠ s.spec.name then
    throw (slotError "display grant targets a different slot")
  if grant.generation ≤ s.lastGeneration then
    throw (slotError "display slot generation must increase")
  if s.spec.maxWidth < grant.width ∨ s.spec.maxHeight < grant.height then
    throw (slotError "display grant exceeds slot mode bound")
  if s.spec.maxScale < grant.scale then
    throw (slotError "display grant exceeds slot scale bound")
  if maxPixels < grant.width * grant.height then
    throw (slotError "display grant pixel count is out of bounds")
  if (grant.leaseExpiresAt : ℚ) ≤ now then
    throw (slotError "display lease has already expired")
  return ({ s with
      grant := some grant, lastGeneration := grant.generation, lastHeartbeat := now
      held := [], failureReason := none, phase := .enabling },
    [⟨.peerBlankPanel, []⟩, ⟨.primaryEnableOutput, []⟩, ⟨.openAuthenticatedCarrier, []⟩])

/-- `HeldInput` in the order of `(kind, code)`. -/
def heldLe (a b : HeldInput) : Bool :=
  decide (a.kind < b.kind ∨ (a.kind = b.kind ∧ a.code ≤ b.code))

/-- The actions of `_teardown_actions()`; the held inputs are cleared by its callers. -/
def teardownActions : List SlotAction :=
  [⟨.primaryDisableInput, []⟩, ⟨.synthesizeReleases, s.held.mergeSort heldLe⟩,
    ⟨.clearTransfers, []⟩, ⟨.closeCarrier, []⟩, ⟨.primaryDisableOutput, []⟩,
    ⟨.peerUnblankPanel, []⟩]

/-- `fail_safe(reason)` for a reason that is not empty. -/
def failSafe (reason : String) : RemoteDisplaySlot × List SlotAction :=
  match s.phase with
  | .disabled | .failedSafe => (s, [])
  | _ => ({ s with phase := .failedSafe, failureReason := some reason, held := [] },
      s.teardownActions)

/-- `carrier_connected(generation)` -/
def carrierConnected (generation : ℤ) (now : ℚ) :
    Except PyError (RemoteDisplaySlot × List SlotAction) := do
  let grant ← s.checkGeneration generation
  unless s.phase = .enabling do
    throw (slotError ("carrier cannot connect from " ++ s.phase.value))
  if s.leaseValid grant now then
    return ({ s with phase := .active },
      if grant.allowInput then [⟨.primaryEnableInput, []⟩] else [])
  else return s.failSafe "display lease expired during attach"

/-- `heartbeat(generation)`: the two readings are the one that is stored and the one of
`_lease_valid`. -/
def heartbeat (generation : ℤ) (now check : ℚ) : Except PyError (RemoteDisplaySlot × Bool) := do
  let grant ← s.checkGeneration generation
  if s.phase.live = true ∧ now < grant.leaseExpiresAt ∧ s.leaseValid grant check = true then
    return ({ s with lastHeartbeat := now }, true)
  else return (s, false)

/-- `input_event(generation, kind=…, code=…, pressed=…)` -/
def inputEvent (generation : ℤ) (kind : String) (code : Json) (pressed : Bool) (now : ℚ) :
    Except PyError RemoteDisplaySlot := do
  let grant ← s.checkGeneration generation
  unless s.phase = .active ∧ s.leaseValid grant now = true ∧ grant.allowInput = true do
    throw (slotError "display input is disabled")
  unless kind = "key" ∨ kind = "button" do
    throw (slotError "held input kind is invalid")
  match code with
  | .int (.ofNat code) =>
    if 65535 < code then throw (slotError "held input code is invalid")
    if pressed then return { s with held := s.held.insert ⟨kind, code⟩ }
    else return { s with held := s.held.erase ⟨kind, code⟩ }
  | _ => throw (slotError "held input code is invalid")

/-- `begin_detach(generation)` -/
def beginDetach (generation : ℤ) : Except PyError (RemoteDisplaySlot × List SlotAction) := do
  discard (s.checkGeneration generation)
  unless s.phase.live do
    throw (slotError ("cannot detach display slot from " ++ s.phase.value))
  return ({ s with phase := .draining, held := [] }, s.teardownActions)

/-- `complete_detach(generation)` -/
def completeDetach (generation : ℤ) : Except PyError RemoteDisplaySlot := do
  discard (s.checkGeneration generation)
  unless s.phase = .draining do
    throw (slotError ("cannot complete detach from " ++ s.phase.value))
  return { s with grant := none, phase := .disabled }

/-- `tick()`; a slot in a live phase holds a grant, and without one the lease is not valid. -/
def tick (now : ℚ) : RemoteDisplaySlot × List SlotAction :=
  if !s.phase.live then (s, [])
  else if s.grant.any (s.leaseValid · now) then (s, [])
  else s.failSafe "display lease heartbeat timeout"

/-- `reset_failed_safe()` -/
def resetFailedSafe : Except PyError RemoteDisplaySlot :=
  if s.phase = .failedSafe then .ok { s with grant := none, phase := .disabled }
  else .error (slotError "display slot is not failed-safe")

end RemoteDisplaySlot

/-! ## A desk and a pad -/

/-- A slot of the default size. -/
def deskSlot : DisplaySlotSpec where
  name := "rdp-0"
  name_ok := by decide
  mode_ok := by decide
  scale_ok := by decide

/-- A grant for it, renewed every second. -/
def deskGrant (generation : ℤ) (sessionId : String) : Payload :=
  [("primary_machine", .str "desk"), ("peer_machine", .str "pad"),
    ("trust_domain_id", .str "home"), ("generation", .int generation),
    ("session_id", .str sessionId), ("slot_name", .str "rdp-0"), ("logical_x", .int 0),
    ("logical_y", .int 0), ("width", .int 1280), ("height", .int 720), ("scale", .int 1),
    ("allow_input", .bool true), ("lease_expires_at", .int 100), ("heartbeat_ms", .int 1000)]

end DisplayDock
