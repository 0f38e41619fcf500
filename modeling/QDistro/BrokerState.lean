/-
# The broker's state

The permission broker serves many callers at once.  Its shared state is a table of
requests, the approval cache, the rules, and two tables of polkit cookies; a method
body runs as a few lock-protected sections with unlocked work between them.

A request object outlives its entry in the table: a method that took it out of the
table before it was reaped still holds it.  The model keeps every request ever
created in `reqs`, and the identifiers of the live ones in `pending`.  A method that
has released the lock and will continue is a `Task`.  Everything observable is
recorded in `trace`, newest first.
-/
import QDistro.ApprovalCache
import QDistro.BrokerRules

namespace Broker

/-! ## Time -/

/-- Nanoseconds since the epoch. -/
abbrev Time := ℤ

/-- Nanoseconds in a second. -/
def second : Time := 1000000000

/-- `POLKIT_UNDECIDED_TTL_S` -/
def polkitUndecidedTtl : Time := 1200 * second

/-- `POLKIT_CANCELLED_MAX` -/
def polkitCancelledMax : ℕ := 512

/-- `int(time.time())` -/
def wholeSeconds (now : Time) : ℤ := now / second

/-! ## Parties and their data -/

/-- A unique bus name.  The bus assigns it, so it is never empty. -/
structure Sender where
  name : String
  nonempty : name ≠ ""
  deriving DecidableEq

/-- A polkit identity as the agent passes it on. -/
structure PolkitIdentity where
  kind : String
  uid : Option ℕ := none
  gid : Option ℕ := none
  deriving DecidableEq, Repr

/-- `_pick_polkit_identity`: the unix user with the given uid, else the first unix user,
else the first identity. -/
def pickPolkitIdentity (identities : List PolkitIdentity) (uid : ℤ) : Option PolkitIdentity :=
  let unixUsers := identities.filter fun e => e.kind == "unix-user"
  match unixUsers.find? fun e => (e.uid.map Int.ofNat).getD (-1) == uid with
  | some e => some e
  | none => unixUsers.head? <|> identities.head?

/-- What the launch records say about a live process. -/
structure Subject where
  verified : Bool
  sandboxEngine : String
  appId : String
  reason : String := ""
  deriving DecidableEq, Repr

/-- A row of the audit log. -/
structure AuditRow where
  callerUid : ℤ
  callerPid : ℤ
  callerExe : String
  action : String
  decision : Bool
  scope : Option String
  source : String
  approverUid : Option ℤ := none
  rulePath : Option String := none
  requestId : Option ℕ := none
  argv : Option (List String) := none
  context : Option String := none
  deriving DecidableEq, Repr

/-- An error raised to the caller: the name's last part and the message. -/
structure DBusError where
  name : String
  message : String
  deriving DecidableEq, Repr

/-- The answer of a synchronous check. -/
inductive Verdict where
  | allow
  | deny
  | unknown
  deriving DecidableEq, Repr

/-! ## Requests -/

/-- What is fixed when a request is filed. -/
structure Filing where
  uid : ℤ
  pid : ℤ
  exe : String
  startTime : ℤ
  action : String
  details : Details
  delegated : Bool := false
  oneShot : Bool := false
  polkitCookie : String := ""
  polkitIdentities : List PolkitIdentity := []
  filedBy : String := ""
  createdAt : Time := 0
  deriving DecidableEq

/-- One `WaitForDecision` call, with the request it waits for. -/
structure Waiter where
  rid : ℕ
  serial : ℕ
  deriving DecidableEq, Repr

/-- What changes while a request is decided. -/
structure Status where
  decision : Option Bool := none
  finalizing : Bool := false
  waiters : List Waiter := []
  decidedAt : Option Time := none
  deriving DecidableEq, Repr

namespace Status

/-- A decision that is not final until its audit row is written. -/
def provisional (b : Bool) (st : Status) : Status :=
  { st with decision := some b, finalizing := true, waiters := [] }

/-- A final decision, with the waiters taken off. -/
def settled (b : Bool) (st : Status) : Status := { st with decision := some b, waiters := [] }

/-- A decision recorded again. -/
def recorded (b : Bool) (st : Status) : Status := { st with decision := some b }

/-- A provisional decision made final. -/
def finalised (st : Status) : Status := { st with finalizing := false, waiters := [] }

/-- A provisional decision turned into a deny, unless the request has been reaped. -/
def downgraded (live : Bool) (st : Status) : Status :=
  if live then { st with decision := some false, finalizing := false, waiters := [] }
  else { st with waiters := [] }

/-- One more waiter. -/
def joined (w : Waiter) (st : Status) : Status := { st with waiters := st.waiters ++ [w] }

/-- The time the reaper first saw the decision. -/
def stamped (t : Time) (st : Status) : Status := { st with decidedAt := some t }

end Status

/-- `_Request` -/
structure Request extends Filing, Status
  deriving DecidableEq

/-- What a request was decided on before any prompt. -/
inductive Basis where
  | cancelled
  | rule (r : Rule)
  /-- A cached row, with the sandbox reading under which it was looked up. -/
  | cached (row : CacheRow) (sandboxed : Bool)
  | hook
  | prompt
  | polkit
  deriving DecidableEq, Repr

/-! ## Method bodies in progress -/

/-- `_enqueue` before it creates the request. -/
structure EnqueueFrame where
  filing : Filing
  /-- The details as the caller sent them. -/
  raw : Details
  polkit : Bool
  /-- What decides the request at once, if anything does. -/
  pre : Option Basis
  deriving DecidableEq

/-- `DecideRequest` after it recorded its decision. -/
structure DecideFrame where
  rid : ℕ
  allowed : Bool
  scope : Scope
  adminUid : ℤ
  cacheArgv : Option (List String)
  waiters : List Waiter
  deriving DecidableEq

/-- A method body that released the lock and will continue. -/
inductive Task where
  | enqueueCreate (f : EnqueueFrame)
  | enqueueRecord (rid : ℕ) (basis : Basis)
  | decideAudit (f : DecideFrame)
  /-- The audit write failed with the given error. -/
  | decideDowngrade (f : DecideFrame) (error : String)
  | decidePublish (f : DecideFrame)
  | decideFinalise (f : DecideFrame) (cachedOk : Bool)
  /-- A hook allowed a polkit request; the response goes out before the answers. -/
  | hookRelease (rid : ℕ) (waiters : List Waiter)
  | respondRelay (sender : Sender) (exe cookie : String) (identities : List PolkitIdentity)
      (req : Option ℕ)
  | respondResolve (rid : ℕ)
  | cancelHits (sender : Sender) (exe cookie : String)
  deriving DecidableEq

/-! ## Observable events -/

/-- An `AuthenticationAgentResponse2` call, with the request or the relay it is made for. -/
structure PolkitResponse where
  /-- The connection on whose behalf it is sent. -/
  owner : String
  uid : ℤ
  pid : ℤ
  action : String
  cookie : String
  identity : PolkitIdentity
  /-- Sent by `RespondPolkitAuth`, not for a decided request. -/
  relayed : Bool
  deriving DecidableEq, Repr

/-- What an outside observer of the broker can see. -/
inductive Event where
  | audited (row : AuditRow)
  | auditFailed (row : AuditRow)
  | filed (rid : ℕ) (filing : Filing) (raw : Details)
  | decided (rid : ℕ) (allowed : Bool) (basis : Basis)
  | stored (rid : ℕ) (scope : Scope) (row : CacheRow)
  | responded (r : PolkitResponse)
  | announced (sender : Sender) (cookie : String)
  | waiting (w : Waiter)
  /-- A waiter is answered; `live` tells whether its request is still in the table. -/
  | answered (w : Waiter) (allowed live : Bool)
  /-- A wait for a request that is not in the table is answered `False` at once. -/
  | gone (rid : ℕ)
  | requestPending (rid : ℕ)
  | requestDecided (rid : ℕ) (allowed : Bool)
  | checked (v : Verdict)
  | returned (text : String)
  | raised (e : DBusError)
  deriving DecidableEq

/-! ## The state -/

/-- A cancel mark: who cancelled, and when the mark was made. -/
structure CancelMark where
  senders : List Sender
  time : Time
  deriving DecidableEq

/-- The state of a broker process. -/
structure State where
  nextId : ℕ := 1
  reqs : ℕ → Option Request := fun _ => none
  /-- The keys of `_pending` in order. -/
  pending : List ℕ := []
  cancelled : PyDict String CancelMark := ∅
  announced : PyDict String (Sender × Time) := ∅
  cache : List CacheRow := []
  rules : List Rule := []
  tasks : List Task := []
  /-- Requests with a hook query in the worker pool. -/
  hookPending : List ℕ := []
  nextWaiter : ℕ := 0
  trace : List Event := []

/-- A freshly started broker with the given rules and approvals. -/
def State.init (rules : List Rule) (cache : List CacheRow) : State :=
  { rules := rules, cache := cache }

/-- The environment one step runs in: the clock, which writes succeed, and what the
kernel and the launch records say. -/
structure Env where
  now : Time
  auditOk : AuditRow → Bool
  /-- The text of the error a failed audit write raises. -/
  auditError : String
  subject : ℤ → Subject
  procIdentity : ℤ → String × ℤ
  procUid : ℤ → Option ℤ
  storeOk : Bool
  respondOk : Bool
  hookSlot : Bool
  rateOk : ℤ → String → Bool
  /-- Why a connection is not the session polkit agent, if it is not. -/
  polkitPeer : Sender → Option String
  /-- Why a connection is not a trusted admin control-plane peer, if it is not. -/
  adminPeer : Sender → Option String
  /-- Why a connection is not a trusted root helper, if it is not. -/
  rootHelperPeer : Sender → Option String

/-- What is fixed for the life of the process. -/
structure Config where
  auditRequired : Bool
  lineageEnforce : Bool
  identityStrict : Bool
  hooksEnabled : Bool
  /-- `_pending_retention_s`; zero or less disables the reaping of decided requests. -/
  retention : Time
  adminUid : ℤ
  rateLimit : ℕ
  rateWindow : ℕ
  udb : UnicodeDb
  /-- The hexadecimal SHA-256 digest of a text. -/
  sha256 : String → String
  /-- The credentials the bus recorded for a connection. -/
  connUid : Sender → ℤ
  connPid : Sender → ℤ

/-! ## State updates -/

namespace State

/-- Record an event. -/
def emit (s : State) (e : Event) : State := { s with trace := e :: s.trace }

/-- `self._pending.get(rid)` -/
def getPending (s : State) (rid : ℕ) : Option Request :=
  if rid ∈ s.pending then s.reqs rid else none

/-- Change a request's status. -/
def setStatus (s : State) (rid : ℕ) (f : Status → Status) : State :=
  { s with reqs := fun i =>
      if i = rid then (s.reqs i).map fun r => { r with toStatus := f r.toStatus }
      else s.reqs i }

/-- Leave the lock with work still to do. -/
def push (s : State) (t : Task) : State := { s with tasks := s.tasks ++ [t] }

/-- Raise an error to the caller. -/
def raise (s : State) (name message : String) : State := s.emit (.raised ⟨name, message⟩)

/-- `self.audit.log(...)` -/
def audit (s : State) (env : Env) (row : AuditRow) : State :=
  s.emit (if env.auditOk row then .audited row else .auditFailed row)

/-- Answer a list of waiters of a request. -/
def answer (s : State) (rid : ℕ) (allowed : Bool) (ws : List Waiter) : State :=
  ws.foldl (fun s w => s.emit (.answered w allowed (decide (rid ∈ s.pending)))) s

end State

end Broker
