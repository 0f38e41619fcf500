/-
# The display dock service

`display_dock_session.py` and `display_dock_service.py`: a session owns the controller of one
slot, and a service core serialises the commands of a local controller around it.  After
every command the core saves a status record; after a crash the next process starts from
the record that was saved last.

The record is put together from two places.  Phase, generation and session id come from the
session; the recovery grant is the core's own copy of the last grant it tried to attach.
`DockStatus.load` cross-checks them.
-/
import QDistro.SlotOutcomes
import QDistro.Base64

namespace DisplayDock

open JsonText TransitionSystem

/-! ## The session -/

/-- `DockSessionStatus` -/
structure DockSessionStatus where
  slotName : String
  phase : SlotPhase
  generation : ℤ
  sessionId : Option String
  nextHeartbeat : Option ℚ
  deriving DecidableEq

/-- `DisplayDockSession` -/
structure DisplayDockSession where
  controller : DisplaySlotController
  grant : Option ActiveDisplayGrant := none
  nextHeartbeat : Option ℚ := none
  nextCarrierProbe : Option ℚ := none

/-- What one `attach` of a session meets: the attach of its controller and two more readings of
the clock. -/
structure SessionAttachEnv where
  attach : AttachEnv
  renewedAt : ℚ
  probedAt : ℚ

/-- What one `poll` meets.  The carrier is asked whether it is alive, and may raise. -/
structure PollEnv where
  now : ℚ
  alive : Except PyError Bool
  tickedAt : ℚ
  dueAt : ℚ
  renewal : Renewal
  renewedAt : ℚ
  performs : Performs

namespace DisplayDockSession

variable (s : DisplayDockSession)

/-- `DisplayDockSession.phase` -/
def phase : SlotPhase := s.controller.slot.phase

/-- `status()` -/
def status : DockSessionStatus where
  slotName := s.controller.slot.spec.name
  phase := s.phase
  generation := s.controller.slot.generation
  sessionId := s.grant.map ActiveDisplayGrant.sessionId
  nextHeartbeat := s.nextHeartbeat

/-- `attach(verified_payload)` -/
def attach (payload : Payload) (env : SessionAttachEnv) : DisplayDockSession × Option PyError :=
  match ActiveDisplayGrant.fromVerifiedPayload payload with
  | .error e => (s, some e)
  | .ok grant =>
    if grant.slotName ≠ s.controller.slot.spec.name then
      (s, some ⟨"ValueError", "display grant targets another broker slot"⟩)
    else
      match s.controller.attach payload env.attach with
      | (controller, some e) => ({ s with controller }, some e)
      | (controller, none) =>
        ({ controller
           grant := some grant
           nextHeartbeat := some (env.renewedAt + grant.heartbeatMs / 2000)
           nextCarrierProbe := some env.probedAt }, none)

/-- `heartbeat(generation)` -/
def heartbeat (generation : ℤ) (env : PollEnv) : DisplayDockSession × Except PyError Bool :=
  match s.controller.heartbeat generation env.renewal env.performs with
  | (controller, .ok true) =>
    ({ s with
        controller
        nextHeartbeat := match s.grant with
          | some grant => some (env.renewedAt + grant.heartbeatMs / 2000)
          | none => s.nextHeartbeat }, .ok true)
  | (controller, accepted) => ({ s with controller }, accepted)

/-- The second half of `poll`: the lease and the scheduled renewal. -/
def pollLease (generation : ℤ) (env : PollEnv) : DisplayDockSession × Except PyError Bool :=
  match s.controller.tick env.tickedAt env.performs with
  | (controller, .error e) => ({ s with controller }, .error e)
  | (controller, .ok true) => ({ s with controller, nextHeartbeat := none }, .ok true)
  | (controller, .ok false) =>
    let s := { s with controller }
    if s.phase = .active ∧ s.nextHeartbeat.any (fun t => decide (t ≤ env.dueAt)) = true then
      match s.heartbeat generation env with
      | (s, .error e) => (s, .error e)
      | (s, .ok _) => (s, .ok (decide (s.phase = .failedSafe)))
    else (s, .ok (decide (s.phase = .failedSafe)))

/-- `poll()` -/
def poll (env : PollEnv) : DisplayDockSession × Except PyError Bool :=
  if !s.phase.live then (s, .ok false)
  else
    let generation := s.controller.slot.generation
    if s.nextCarrierProbe.all (fun t => decide (t ≤ env.now)) then
      match env.alive with
      | .error e => (s, .error e)
      | .ok false =>
        match s.controller.carrierLost generation "authenticated carrier process lost"
            env.performs with
        | (controller, some e) => ({ s with controller }, .error e)
        | (controller, none) =>
          ({ s with controller, nextHeartbeat := none, nextCarrierProbe := none }, .ok true)
      | .ok true =>
        { s with nextCarrierProbe := some (env.now + 1 / 4) }.pollLease generation env
    else s.pollLease generation env

/-- `detach(generation)` -/
def detach (generation : ℤ) (performs : Performs) : DisplayDockSession × Option PyError :=
  match s.controller.detach generation performs with
  | (controller, some e) => ({ s with controller }, some e)
  | (controller, none) => ({ controller }, none)

/-- `reset_failed_safe()` -/
def resetFailedSafe (confirmed : Except PyError Bool) : DisplayDockSession × Option PyError :=
  match s.controller.resetFailedSafe confirmed with
  | (controller, some e) => ({ s with controller }, some e)
  | (controller, none) => ({ controller }, none)

/-- `restore_last_generation(generation)` -/
def restoreLastGeneration (generation : ℤ) : DisplayDockSession × Option PyError :=
  match s.controller.slot.restoreLastGeneration generation with
  | .error e => (s, some e)
  | .ok slot => ({ s with controller := { s.controller with slot } }, none)

/-- `shutdown()` -/
def shutdown (performs : Performs) : DisplayDockSession × Option PyError :=
  let cleared (s : DisplayDockSession) := { s with nextHeartbeat := none, nextCarrierProbe := none }
  if s.phase.live then
    match s.detach s.controller.slot.generation performs with
    | (s, some e) => (s, some e)
    | (s, none) => (cleared s, none)
  else (cleared s, none)

end DisplayDockSession

/-! ## The status record -/

/-- `DockServiceError(text)` -/
def dockError (text : String) : PyError := ⟨"DockServiceError", text⟩

/-- A saved status: the fields of `_STATUS_FIELDS`, of the one schema there is. -/
structure DockStatus extends DockSessionStatus where
  accepting : Bool
  stopRequested : Bool
  lastError : Option String
  recoveryGrant : Option Payload
  updatedAt : ℚ

/-- `SecureStatusStore.load()` of a record that was saved. -/
def DockStatus.load (status : DockStatus) : Except PyError DockStatus :=
  if status.generation < 0 then .error (dockError "display dock state schema is invalid")
  else
    match status.recoveryGrant with
    | some recovery =>
      match ActiveDisplayGrant.fromVerifiedPayload recovery with
      | .error _ => .error (dockError "display dock recovery grant is invalid")
      | .ok grant =>
        if grant.generation ≠ status.generation ∨ some grant.sessionId ≠ status.sessionId ∨
            status.phase = .disabled then
          .error (dockError "display dock recovery grant does not match status")
        else .ok status
    | none =>
      if status.phase ≠ .disabled then
        .error (dockError "display dock unsafe status lacks recovery grant")
      else .ok status

/-! ## Requests -/

/-- The commands of `_COMMAND_FIELDS`. -/
inductive Command where
  | attach
  | detach
  | reset
  | status
  | shutdown
  deriving DecidableEq

/-- A command by its name. -/
def Command.ofName (name : String) : Option Command :=
  if name = "attach" then some .attach
  else if name = "detach" then some .detach
  else if name = "reset" then some .reset
  else if name = "status" then some .status
  else if name = "shutdown" then some .shutdown
  else none

/-- `_COMMAND_FIELDS[command]` -/
def Command.fields : Command → List String
  | .attach => ["schema", "request_id", "command", "receipt", "session_id", "carrier_secret"]
  | .detach => ["schema", "request_id", "command", "generation"]
  | .reset | .status | .shutdown => ["schema", "request_id", "command"]

/-- `REQUEST_SCHEMA` -/
def requestSchema : String := "qdistro-mm-display-dock-control-v1"

/-- `_request_id(value)` -/
def requestIdOf : Json → Except PyError String
  | .str s =>
    if s.length = 32 ∧ s.toList.all fun c =>
        c.isDigit || (decide ('a' ≤ c) && decide (c ≤ 'f')) then .ok s
    else .error (dockError "display dock request id is invalid")
  | _ => .error (dockError "display dock request id is invalid")

/-- `_positive_generation(value)` -/
def positiveGeneration : Json → Except PyError ℤ
  | .int n => if 0 < n then .ok n else .error (dockError "display dock generation is invalid")
  | _ => .error (dockError "display dock generation is invalid")

/-- `_session_id(value)`; `isalnum` is the interpreter's table for `str.isalnum`. -/
def sessionIdOf (isalnum : Char → Bool) : Json → Except PyError String
  | .str s =>
    match s.toList with
    | [] => .error (dockError "display dock session id is invalid")
    | c :: rest =>
      if s.length ≤ 128 ∧ isalnum c = true ∧ ((c :: rest).all fun c =>
          isalnum c || c == '.' || c == '_' || c == ':' || c == '-') = true then .ok s
      else .error (dockError "display dock session id is invalid")
  | _ => .error (dockError "display dock session id is invalid")

/-- `_secret(value)` -/
def secretOf : Json → Except PyError (List UInt8)
  | .str s =>
    let invalid := dockError "display dock carrier secret is invalid"
    let standard (c : Char) := if c = '-' then '+' else if c = '_' then '/' else c
    if s = "" ∨ '=' ∈ s.toList then .error invalid
    else
      match Base64.decode (s.toList.map standard ++
          List.replicate ((4 - s.length % 4) % 4) '=') with
      | some raw => if raw.length = 32 then .ok raw else .error invalid
      | none => .error invalid
  | _ => .error (dockError "display dock carrier secret is invalid")

/-- `_validate(request)` -/
def validateRequest (request : Json) : Except PyError (Command × String × Payload) := do
  let fields ← match request with
    | .obj fields => .ok fields
    | _ => .error (dockError "display dock request must be an object")
  let command ← match itemOf fields "command" with
    | .str name =>
      match Command.ofName name with
      | some command => .ok command
      | none => .error (dockError "display dock command is invalid")
    | .arr _ => .error ⟨"TypeError", "cannot use 'list' as a dict key (unhashable type: 'list')"⟩
    | .obj _ => .error ⟨"TypeError", "cannot use 'dict' as a dict key (unhashable type: 'dict')"⟩
    | _ => .error (dockError "display dock command is invalid")
  unless (fields.all fun f => command.fields.contains f.1) &&
      (command.fields.all fun name => (fields.lookup name).isSome) do
    throw (dockError "display dock request fields are invalid")
  match itemOf fields "schema" with
    | .str schema =>
      if schema ≠ requestSchema then
        throw (dockError "display dock request schema is invalid")
    | _ => throw (dockError "display dock request schema is invalid")
  let requestId ← requestIdOf (itemOf fields "request_id")
  return (command, requestId, fields)

/-- One item of the grant the core keeps for recovery: `name: verified[name]`. -/
def recoveryItem (verified : Payload) (name : String) : Except PyError (String × Json) :=
  match verified.lookup name with
  | some value => .ok (name, value)
  | none => .error ⟨"KeyError", "'" ++ name ++ "'"⟩

/-- The grant the core keeps for recovery: the fields of a grant and nothing else. -/
def recoveryGrantOf (verified : Payload) : Except PyError Payload :=
  grantFields.mapM (recoveryItem verified)

/-! ## The core -/

/-- `DisplayDockServiceCore` -/
structure DisplayDockServiceCore where
  owner : DisplayDockSession
  controllerUid : ℤ
  /-- The consumed request ids, oldest first. -/
  consumed : List String := []
  lastError : Option String := none
  recoveryGrant : Option Payload := none
  accepting : Bool := false
  stopRequested : Bool := false

/-- `MAX_REQUEST_IDS` -/
def maxRequestIds : ℕ := 4096

/-- What one `handle` meets: the answer of `verify_attach`, what the attach, the teardown and the
safe-state probe meet, and the readings of the clock for the two statuses. -/
structure HandleEnv where
  verified : Except PyError Payload
  attach : SessionAttachEnv
  performs : Performs
  confirmed : Except PyError Bool
  answeredAt : ℚ
  savedAt : ℚ

/-- The answers of `handle`. -/
inductive Response where
  | refused (error : String)
  | done (status : DockStatus)
  | failed (error : String) (status : DockStatus)

namespace DisplayDockServiceCore

variable (core : DisplayDockServiceCore)

/-- `_consume(request_id)` -/
def consume (requestId : String) : DisplayDockServiceCore :=
  if requestId ∈ core.consumed then core
  else
    let order := core.consumed ++ [requestId]
    { core with consumed := order.drop (order.length - maxRequestIds) }

/-- `public_status()` -/
def publicStatus (now : ℚ) : DockStatus :=
  { core.owner.status with
    accepting := core.accepting
    stopRequested := core.stopRequested
    lastError := core.lastError
    recoveryGrant := core.recoveryGrant
    updatedAt := now }

/-- `start()` against what the store holds: the core, what was saved and what was raised.
`recovered` is the answer of `recover(previous)`. -/
def start (store : Option DockStatus) (recovered : Except PyError Bool) (now : ℚ) :
    DisplayDockServiceCore × Option DockStatus × Option PyError :=
  match store.mapM DockStatus.load with
  | .error e => (core, none, some e)
  | .ok previous =>
    match recovered with
    | .error e => (core, none, some e)
    | .ok false =>
      ({ core with lastError := some "startup-recovery-unconfirmed" }, none,
        some (dockError "display dock startup recovery was not confirmed"))
    | .ok true =>
      if core.owner.status.phase ≠ .disabled then
        ({ core with lastError := some "startup-recovery-not-disabled" }, none,
          some (dockError "display dock startup recovery did not reach disabled"))
      else
        let restored := match previous with
          | none => (core.owner, none)
          | some status => core.owner.restoreLastGeneration status.generation
        match restored with
        | (owner, some e) => ({ core with owner }, none, some e)
        | (owner, none) =>
          let core := { core with
            owner, recoveryGrant := none, accepting := true, lastError := none }
          (core, some (core.publicStatus now), none)

/-- What `attach` needs from the request: the verified grant and the copy kept for recovery. -/
def attachArguments (isalnum : Char → Bool) (parsed : Payload) (env : HandleEnv) :
    Except PyError (Payload × Payload) := do
  discard (sessionIdOf isalnum (itemOf parsed "session_id"))
  discard (secretOf (itemOf parsed "carrier_secret"))
  let verified ← env.verified
  let recovery ← recoveryGrantOf verified
  return (verified, recovery)

/-- The body of `handle` for one command, up to an exception. -/
def command (isalnum : Char → Bool) (command : Command) (parsed : Payload) (env : HandleEnv) :
    DisplayDockServiceCore × Option PyError :=
  match command with
  | .attach =>
    match attachArguments isalnum parsed env with
    | .error e => (core, some e)
    | .ok (verified, recovery) =>
      let (owner, raised) := core.owner.attach verified env.attach
      ({ core with owner, recoveryGrant := some recovery }, raised)
  | .detach =>
    match positiveGeneration (itemOf parsed "generation") with
    | .error e => (core, some e)
    | .ok generation =>
      match core.owner.detach generation env.performs with
      | (owner, some e) => ({ core with owner }, some e)
      | (owner, none) => ({ core with owner, recoveryGrant := none }, none)
  | .reset =>
    match core.owner.resetFailedSafe env.confirmed with
    | (owner, some e) => ({ core with owner }, some e)
    | (owner, none) => ({ core with owner, recoveryGrant := none }, none)
  | .status => (core, none)
  | .shutdown =>
    let core := { core with accepting := false, stopRequested := true }
    match core.owner.shutdown env.performs with
    | (owner, some e) => ({ core with owner }, some e)
    | (owner, none) =>
      ({ core with
          owner
          recoveryGrant := if owner.status.phase = .disabled then none
            else core.recoveryGrant }, none)

/-- The end of `handle`: the answer, and the status that is saved after it. -/
def finish (raised : Option PyError) (requestId : Option String) (env : HandleEnv) :
    DisplayDockServiceCore × Response × Option DockStatus :=
  let core := match raised with
    | none => { core with lastError := none }
    | some e => { core with
        recoveryGrant := if core.owner.status.phase = .disabled then none else core.recoveryGrant
        lastError := some e.name }
  let response := match raised with
    | none => Response.done (core.publicStatus env.answeredAt)
    | some e => .failed (e.name ++ ":" ++ e.text) (core.publicStatus env.answeredAt)
  let core := match requestId with
    | some requestId => core.consume requestId
    | none => core
  (core, response, some (core.publicStatus env.savedAt))

/-- `handle(request, peer_uid=…)` -/
def handle (isalnum : Char → Bool) (request : Json) (peerUid : ℤ) (env : HandleEnv) :
    DisplayDockServiceCore × Response × Option DockStatus :=
  if peerUid ≠ core.controllerUid then (core, .refused "unauthorized-controller", none)
  else if !core.accepting then (core, .refused "service-not-accepting", none)
  else
    match validateRequest request with
    | .error e => core.finish (some e) none env
    | .ok (command, requestId, parsed) =>
      if requestId ∈ core.consumed then
        core.finish (some (dockError "display dock request was replayed")) (some requestId) env
      else
        let (core, raised) := core.command isalnum command parsed env
        core.finish raised (some requestId) env

/-- `poll()`, with what was saved. -/
def poll (env : PollEnv) (savedAt : ℚ) :
    DisplayDockServiceCore × Except PyError Bool × Option DockStatus :=
  match core.owner.poll env with
  | (owner, .error e) =>
    let core := { core with owner, lastError := some e.name }
    (core, .error e, some (core.publicStatus savedAt))
  | (owner, .ok changed) =>
    let core := { core with owner }
    (core, .ok changed, if changed then some (core.publicStatus savedAt) else none)

/-- The `try` block of `converge_shutdown`. -/
def converge (performs : Performs) (confirmed : Except PyError Bool) :
    DisplayDockServiceCore × Option PyError :=
  match core.owner.shutdown performs with
  | (owner, some e) => ({ core with owner }, some e)
  | (owner, none) =>
    let (owner, raised) := if owner.status.phase = .failedSafe then
        owner.resetFailedSafe confirmed else (owner, none)
    match raised with
    | some e => ({ core with owner }, some e)
    | none =>
      if owner.status.phase ≠ .disabled then
        ({ core with owner }, some (dockError "display dock shutdown did not reach disabled"))
      else ({ core with owner, lastError := none, recoveryGrant := none }, none)

/-- `converge_shutdown()`, with what was saved. -/
def convergeShutdown (performs : Performs) (confirmed : Except PyError Bool) (savedAt : ℚ) :
    DisplayDockServiceCore × Option PyError × Option DockStatus :=
  match { core with accepting := false, stopRequested := true }.converge performs confirmed with
  | (core, some e) =>
    let core := { core with lastError := some e.name }
    (core, some e, some (core.publicStatus savedAt))
  | (core, none) => (core, none, some (core.publicStatus savedAt))

end DisplayDockServiceCore

end DisplayDock
