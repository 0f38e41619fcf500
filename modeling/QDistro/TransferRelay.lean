/-
# Relayed transfers

The broker's `RelayTransfer`, `GetTransferStatus` and `_relay_message_common`, on top of the
broker itself: a transfer to another silo files a one-shot request and parks a waiter on it,
and what the waiter hears decides whether the payload is forwarded.

A `RelayTransfer` call is cut into three sections: it reserves a row, it passes the gate
(and forwards at once within one silo, or files its request), and it registers its waiter.
Its two callbacks run where the broker answers that waiter, each time it does.  A call to
another service is an oracle of the environment: `none` where it raises.

The two events of the broker's trace that a filing leaves for a caller of the bus (its
result, or the error it raises) are here internal to the call.
-/
import QDistro.TransferWire
import QDistro.BrokerStep
import QDistro.TransitionSystem

open JsonText Broker

namespace Transfer

/-! ## Peers and targets -/

/-- The environment one section of a transfer runs in. -/
structure RelayEnv where
  host : Broker.Env
  /-- The bus still knows the calling connection. -/
  peerKnown : Bool
  /-- `_silo_state` -/
  siloState : ℤ → Option String
  /-- The two readings of the ledger's clock. -/
  clock : Broker.Time
  clockLater : Broker.Time
  /-- `secrets.token_hex(32)` -/
  token : String
  /-- The owner of the relay's bus name. -/
  relayOwner : Option String
  /-- What the relay says of a receiver, and the owner of its name after that. -/
  capabilities : Option String
  relayOwnerAfter : Option String
  /-- What `ForwardTransfer` and `GetTransferStatus` of the relay return. -/
  forwardReply : Option String
  statusReply : Option String

variable (cfg : Broker.Config)

/-- `_transfer_actor` -/
def transferActor (env : RelayEnv) (sender : Sender) : Option Actor :=
  let pid := cfg.connPid sender
  let actor : Actor :=
    ⟨cfg.connUid sender, pid, (env.host.procIdentity pid).1, (env.host.procIdentity pid).2⟩
  if !env.peerKnown || actor.uid < 0 || actor.pid ≤ 0 || actor.exe == "" || actor.startTime ≤ 0 then
    none
  else some actor

/-- A part of a service name. -/
def serviceNamePart (part : List Char) : Bool :=
  !part.isEmpty && part.all fun c => c.isAlpha || c.isDigit || c == '_'

/-- Full match of `_SERVICE_NAME_RE`. -/
def serviceNameOk (name : String) : Bool :=
  match PyText.split '.' name.toList.length name.toList with
  | ['o', 'r', 'g'] :: ['q', 'd', 'i', 's', 't', 'r', 'o'] :: part :: rest =>
    (part :: rest).all serviceNamePart
  | _ => false

/-- Does the text start with a colon, as a unique bus name does? -/
def isUnique (name : String) : Bool := name.toList.head? == some ':'

/-- `_transfer_target`: the owner of the relay, the owner of the receiver and what it
accepts. -/
def transferTarget (env : RelayEnv) (uid : ℤ) (service : String) :
    Option (String × String × Capabilities) := do
  if uid < 0 || !serviceNameOk service then none
  let owner ← env.relayOwner
  if !isUnique owner then none
  let raw ← env.capabilities
  let envelope ← loadObject raw
  let receiverOwner ← identity false (PyDict.lookup envelope "owner")
  let after ← env.relayOwnerAfter
  if !isUnique receiverOwner || after ≠ owner then none
  let caps ← Transfer.capabilities (String.ofList (dumps defaultSeps
    ((PyDict.lookup envelope "capabilities").getD .null)))
  return (owner, receiverOwner, caps)

/-- Whether the silo's state stops a message to it. -/
def siloBlocked (env : RelayEnv) (uid : ℤ) : Bool :=
  match env.siloState uid with
  | none => false
  | some state => state ≠ "Active"

/-! ## The system -/

/-- Where a `RelayTransfer` call stands. -/
inductive Phase where
  /-- the row is reserved -/
  | reserved
  /-- the request is filed -/
  | filed (rid : ℕ)
  /-- the waiter is registered -/
  | waiting (w : Waiter)
  /-- the call was answered without waiting -/
  | done
  deriving DecidableEq

/-- What the closures of a `RelayTransfer` call have captured. -/
structure Closure where
  sender : Sender
  actor : Actor
  uid : ℤ
  service : String
  receiverOwner : String
  instanceId : String
  kind : String
  value : String
  phase : Phase := .reserved

/-- What can be observed. -/
inductive Event where
  /-- `ForwardTransfer` is called for the transfer of this token -/
  | forwarded (token : String)
  /-- a receipt goes to an actor; `row` is the row it was read from -/
  | answered (actor : Actor) (row : Option ℕ) (receipt : Receipt)
  /-- a call raises -/
  | refused

/-- The broker, its ledger and the transfers in progress.  The transfer with number `i` has
reserved the row with number `i`. -/
structure System where
  broker : Broker.State
  ledger : Ledger := {}
  transfers : List Closure := []
  log : List Event := []

namespace System

variable (s : System)

def emit (e : Event) : System := { s with log := e :: s.log }

/-- `row["receipt"] = ...` -/
def setReceipt (i : ℕ) (instanceId : String) (state : ReceiptState) (reason : String) : System :=
  { s with ledger := s.ledger.update i fun row =>
      { row with receipt := receipt instanceId row.token state reason } }

/-- Move a transfer to its next phase. -/
def setPhase (i : ℕ) (phase : Phase) : System :=
  { s with transfers := s.transfers.modify i fun c => { c with phase := phase } }

/-- `reply`: the receipt goes to the caller. -/
def reply (i : ℕ) (c : Closure) : System :=
  match s.ledger.rows[i]? with
  | none => s
  | some row => s.emit (.answered c.actor (some i) row.receipt)

/-- `error` -/
def replyError (i : ℕ) (c : Closure) : System :=
  (s.setReceipt i c.instanceId .rejected "approval or active gate denied").reply i c

/-- The part of `forward` after its checks: the call and what becomes of its answer. -/
def forwardCall (env : RelayEnv) (i : ℕ) (token : String) (c : Closure) : System :=
  let s := s.emit (.forwarded token)
  match env.forwardReply.bind fun raw => validateReceipt raw c.instanceId none with
  | none => s.setReceipt i c.instanceId .unknown "dispatch outcome unknown"
  | some result =>
    { s with ledger := s.ledger.update i fun row =>
        { row with
          receiverId := result.transferId
          receipt := { result with transferId := row.token } } }

/-- `forward` -/
def forward (env : RelayEnv) (i : ℕ) (c : Closure) : System :=
  let unknown : System → System :=
    fun s => s.setReceipt i c.instanceId .unknown "dispatch outcome unknown"
  match s.ledger.rows[i]? with
  | none => s
  | some row =>
    if transferActor cfg env c.sender ≠ some c.actor then unknown s
    else
      let s := { s with ledger := s.ledger.expire env.clock }
      -- the actor of the row found is compared first, but the row must be this one anyway
      if s.ledger.find row.token ≠ some i ∨ row.actor ≠ c.actor then unknown s
      else if c.actor.uid ≠ c.uid ∧ siloBlocked env c.uid = true then unknown s
      else if env.relayOwner ≠ some row.route.relayOwner then unknown s
      else s.forwardCall env i row.token c

/-- `relay_reply` -/
def relayReply (env : RelayEnv) (i : ℕ) (c : Closure) (allowed : Bool) : System :=
  if allowed then (s.forward cfg env i c).reply i c else s.replyError i c

end System

/-! ## RelayTransfer -/

/-- The arguments of `RelayTransfer`. -/
structure RelayCall where
  sender : Sender
  targetUid : ℤ
  targetService : String
  expectedInstance : String
  kind : String
  payload : String

/-- `RelayTransfer` up to the reservation. -/
def relayTransfer (env : RelayEnv) (s : System) (c : RelayCall) : System :=
  match transferActor cfg env c.sender with
  | none => s.emit .refused
  | some actor =>
    match identity false (some (.str c.expectedInstance)) with
    | none => s.emit (.answered actor none
        (receipt (firstChars 128 c.expectedInstance) "" .rejected "invalid transfer input"))
    | some instanceId =>
      if c.payload.toList.any (fun ch => ch.toNat == 0) || maxBytes < utf8Length c.payload ||
          c.targetUid < 0 || !serviceNameOk c.targetService then
        s.emit (.answered actor none
          (receipt (firstChars 128 c.expectedInstance) "" .rejected "invalid transfer input"))
      else
        match (transferTarget env c.targetUid c.targetService).filter
            fun t => t.2.2.instanceId == instanceId with
        | none => s.emit (.answered actor none
            (receipt instanceId "" .unknown "receiver capabilities unknown"))
        | some (owner, receiverOwner, caps) =>
          if !payloadAccepted c.kind c.payload caps then
            s.emit (.answered actor none
              (receipt instanceId "" .rejected "receiver does not accept transfer"))
          else
            match s.ledger.reserve env.clock env.clockLater env.token actor
                ⟨c.targetUid, c.targetService, owner, receiverOwner⟩ instanceId with
            | (ledger, none) =>
              { s with ledger := ledger }.emit (.answered actor none
                (receipt instanceId "" .rejected "receipt capacity exhausted"))
            | (ledger, some _) =>
              { s with
                ledger := ledger
                transfers := s.transfers ++
                  [{ sender := c.sender, actor := actor, uid := c.targetUid
                     service := c.targetService, receiverOwner := receiverOwner
                     instanceId := instanceId, kind := c.kind, value := c.payload }] }

/-! ## The relay gate -/

/-- `app.send-to:<uid>:<service>` -/
def sendAction (c : Closure) : String := s!"app.send-to:{c.uid}:{c.service}"

/-- The request a transfer to another silo files. -/
def relayFiling (env : RelayEnv) (c : Closure) : Filing :=
  let pid := cfg.connPid c.sender
  { uid := cfg.connUid c.sender
    pid := pid
    exe := (env.host.procIdentity pid).1
    startTime := (env.host.procIdentity pid).2
    action := sendAction c
    details := ((((∅ : Details).insert "kind" c.kind).insert "payload" c.value).insert
      "target_uid" (toString c.uid)).insert "target_service" c.service
    oneShot := true }

/-- The audit row of a transfer within one silo. -/
def sameSiloRow (env : RelayEnv) (c : Closure) : AuditRow :=
  let pid := cfg.connPid c.sender
  { callerUid := cfg.connUid c.sender, callerPid := pid
    callerExe := (env.host.procIdentity pid).1, action := sendAction c
    decision := true, scope := some "once"
    source := s!"same_silo kind={c.kind} target={c.service}" }

/-- `_enqueue` of a one-shot request: the request it creates, unless it is refused. -/
def enqueue (env : Broker.Env) (s : Broker.State) (f : Filing) : Broker.State × Option ℕ :=
  let begun := enqueueBegin cfg env s f false
  if s.tasks.length < begun.tasks.length then
    (Broker.step cfg begun (.resume env s.tasks.length), some begun.nextId)
  else (begun, none)

/-- `_relay_message_common` up to the request. -/
def relayGate (env : RelayEnv) (s : System) (i : ℕ) (c : Closure) : System :=
  let sameSilo := cfg.connUid c.sender = c.uid
  if env.peerKnown = false ∨ c.uid < 0 ∨ serviceNameOk c.service = false ∨
      (¬sameSilo ∧ siloBlocked env c.uid = true) then
    (s.setPhase i .done).replyError i c
  else if sameSilo then
    let s := (s.setPhase i .done).forward cfg env i c
    { s with broker := s.broker.audit env.host (sameSiloRow cfg env c) }.reply i c
  else
    match enqueue cfg env.host s.broker (relayFiling cfg env c) with
    | (broker, none) => ({ s with broker := broker }.setPhase i .done).replyError i c
    | (broker, some rid) => { s with broker := broker }.setPhase i (.filed rid)

/-- The waiter that `_relay_message_common` registers.  A request that is already decided
answers it at once. -/
def registerWaiter (s : Broker.State) (rid : ℕ) : Broker.State × Option Waiter :=
  match s.getPending rid with
  | none => (s, none)
  | some r =>
    let w : Waiter := ⟨rid, s.nextWaiter⟩
    let s := { s with nextWaiter := s.nextWaiter + 1 }.emit (.waiting w)
    match r.decision, r.finalizing with
    | some b, false => (s.emit (.answered w b true), some w)
    | _, _ => (s.setStatus rid (Status.joined w), some w)

/-! ## Answers -/

/-- The answer an event of the broker's trace reports. -/
def answerOf : Broker.Event → Option (Waiter × Bool)
  | .answered w b _ => some (w, b)
  | _ => none

/-- The answers among the events of the broker's trace that are newer than `old`, oldest
first. -/
def newAnswers (old new : List Broker.Event) : List (Waiter × Bool) :=
  (new.take (new.length - old.length)).reverse.filterMap answerOf

/-- The callback of one answer, if the waiter is a transfer's. -/
def deliver (env : Waiter → RelayEnv) (s : System) (answer : Waiter × Bool) : System :=
  match s.transfers.findIdx? fun c => c.phase = .waiting answer.1 with
  | none => s
  | some i =>
    match s.transfers[i]? with
    | none => s
    | some c => s.relayReply cfg (env answer.1) i c answer.2

/-- The broker has moved on: every transfer that was answered is called back. -/
def deliverAll (env : Waiter → RelayEnv) (s : System) (broker : Broker.State) : System :=
  (newAnswers s.broker.trace broker.trace).foldl (deliver cfg env) { s with broker := broker }

/-! ## GetTransferStatus -/

/-- The poll of a row whose receiver may still answer. -/
def pollStatus (env : RelayEnv) (s : System) (i : ℕ) (row : Row) (actor : Actor) : System :=
  if row.receipt.state.isTerminal || row.receiverId == "" then s
  else if env.relayOwner ≠ some row.route.relayOwner ∨
      (actor.uid ≠ row.route.uid ∧ siloBlocked env row.route.uid = true) then
    s.setReceipt i row.receipt.instanceId .unknown "status outcome unknown"
  else
    match env.statusReply.bind fun raw =>
        validateReceipt raw row.receipt.instanceId (some row.receiverId) with
    | none => s.setReceipt i row.receipt.instanceId .unknown "status outcome unknown"
    | some result =>
      { s with ledger := s.ledger.update i fun row =>
          { row with receipt := { result with transferId := row.token } } }

/-- `GetTransferStatus` -/
def getTransferStatus (env : RelayEnv) (s : System) (sender : Sender) (transferId : String) :
    System :=
  match transferActor cfg env sender with
  | none => s.emit .refused
  | some actor =>
    let s := { s with ledger := s.ledger.expire env.clock }
    match (s.ledger.find transferId).bind fun i => (s.ledger.rows[i]?).map (i, ·) with
    | none => s.emit (.answered actor none
        (receipt "" (firstChars 128 transferId) .unknown "receipt expired or unknown"))
    | some (i, row) =>
      if row.actor ≠ actor then s.emit .refused
      else
        let s := pollStatus env s i row actor
        match s.ledger.rows[i]? with
        | none => s
        | some row => s.emit (.answered actor (some i) row.receipt)

/-! ## Steps -/

/-- What happens next. -/
inductive Action where
  /-- a method of the broker runs its next section; the transfers it answers are called back -/
  | broker (a : Broker.Action) (env : Waiter → RelayEnv)
  | relayTransfer (env : RelayEnv) (c : RelayCall)
  /-- the `i`-th transfer continues -/
  | resume (env : RelayEnv) (i : ℕ)
  | getTransferStatus (env : RelayEnv) (sender : Sender) (transferId : String)

/-- The next section of a transfer. -/
def resume (env : RelayEnv) (s : System) (i : ℕ) (c : Closure) : System :=
  match c.phase with
  | .reserved => relayGate cfg env s i c
  | .filed rid =>
    match registerWaiter s.broker rid with
    | (_, none) => (s.setPhase i .done).replyError i c
    | (broker, some w) => deliverAll cfg (fun _ => env) (s.setPhase i (.waiting w)) broker
  | .waiting _ | .done => s

/-- The state after one step. -/
def step (s : System) : Action → System
  | .broker a env => deliverAll cfg env s (Broker.step cfg s.broker a)
  | .relayTransfer env c => relayTransfer cfg env s c
  | .resume env i =>
    match s.transfers[i]? with
    | none => s
    | some c => resume cfg env s i c
  | .getTransferStatus env sender transferId => getTransferStatus cfg env s sender transferId

end Transfer
