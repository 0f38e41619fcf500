/-
# The broker's methods as lock sections

Each method is cut at the points where it holds the lock: a call runs its first
section, and what remains is a `Task` that a later step resumes.  Work between two
sections that no lock protects (an audit write, a polkit response) is a step of its
own where another section can run before it and the outcome depends on that; replies
to waiters are part of the section that took them off the request.
-/
import QDistro.BrokerPolicy

namespace Broker

variable (cfg : Config) (env : Env)

/-! ## Filing a request -/

/-- `"cookie_sha256="` and a digest of the cookie. -/
def polkitCookieRef (cookie : String) : String :=
  "cookie_sha256=" ++ PyText.slice (cfg.sha256 cookie) 16

/-- `_audit_polkit_deny` -/
def auditPolkitDeny (s : State) (rid : ℕ) (f : Filing) (source : String) : State :=
  s.audit env
    { callerUid := f.uid, callerPid := f.pid, callerExe := f.exe, action := f.action
      decision := false, scope := none, source := source
      requestId := some rid, context := some (polkitCookieRef cfg f.polkitCookie) }

/-- Is the sender named in the mark? -/
def CancelMark.names (m : CancelMark) (sender : String) : Bool :=
  m.senders.any fun s => s.name == sender

/-- Does a cancel mark of this cookie name the filing connection? -/
def filingCancelled (s : State) (f : Filing) : Bool :=
  (s.cancelled.get? f.polkitCookie).any fun m => m.names f.filedBy

/-- A polkit filing retires a mark that does not name its sender. -/
def retireForeignMark (s : State) (f : Filing) : State :=
  if filingCancelled s f then s else { s with cancelled := s.cancelled.erase f.polkitCookie }

/-- `_enqueue` up to the creation of the request.  The filing carries the raw details. -/
def enqueueBegin (s : State) (f : Filing) (polkit : Bool) : State :=
  if !env.rateOk f.uid f.action then
    (s.audit env
      { callerUid := f.uid, callerPid := f.pid, callerExe := f.exe, action := f.action
        decision := false, scope := none, source := "rate_limit" }).raise
      "RateLimited" (rateLimitText cfg f.uid f.action "Request rejected.")
  else
    let cancelled := polkit && filingCancelled s f
    let s := if polkit then retireForeignMark s f else s
    let clean := sanitizeDetails cfg.udb f.details
    if (!f.oneShot || polkit) && !cancelled then
      let claimedEngine := selectorFromDetails f.details "sandbox_engine"
      let claimedApp := selectorFromDetails f.details "app_id"
      let selectors := lineageSelectors cfg env f.pid claimedEngine claimedApp
      let s := noteLineage cfg env s f claimedEngine claimedApp
      s.push (.enqueueCreate
        { filing := { f with details := withSelectors clean selectors.2 selectors.1 }
          raw := f.details
          polkit := polkit
          pre := enqueueBasis cfg env s f polkit selectors.2 selectors.1 })
    else
      s.push (.enqueueCreate
        { filing := { f with details := clean }
          raw := f.details
          polkit := polkit
          pre := if cancelled then some .cancelled else none })

/-- The first pending request that satisfies `p`. -/
def State.findPending (s : State) (p : Request → Bool) : Option ℕ :=
  s.pending.find? fun rid => (s.reqs rid).any p

/-- The first pending filing of a non-empty cookie. -/
def State.firstFiled (s : State) (cookie : String) : Option Request :=
  (s.findPending fun r => r.polkitCookie != "" && r.polkitCookie == cookie).bind s.reqs

/-- Why a polkit filing is refused, if it is. -/
def polkitConflict (s : State) (fr : EnqueueFrame) : Option String :=
  if !fr.polkit then none
  else if (s.announced.get? fr.filing.polkitCookie).any fun b =>
      b.1.name != fr.filing.filedBy then
    some "polkit cookie is bound to another peer"
  else if (s.firstFiled fr.filing.polkitCookie).any fun r =>
      r.filedBy != fr.filing.filedBy then
    some "polkit cookie is already filed by another peer"
  else none

/-- Ask the hooks, or the admin when no hook can take the request. -/
def startHook (s : State) (rid : ℕ) (oneShot : Bool) : State :=
  if !oneShot && cfg.hooksEnabled && env.hookSlot then
    { s with hookPending := s.hookPending ++ [rid] }
  else s.emit (.requestPending rid)

/-- Enter a new request into the table. -/
def State.create (s : State) (f : Filing) (raw : Details) (decision : Option Bool) : State :=
  { s with
    nextId := s.nextId + 1
    reqs := fun i => if i = s.nextId then some { f with decision := decision } else s.reqs i
    pending := s.pending ++ [s.nextId]
    trace := .filed s.nextId f raw :: s.trace }

/-- `_enqueue`: create the request, decided when something already decides it. -/
def enqueueCreate (s : State) (fr : EnqueueFrame) : State :=
  match polkitConflict s fr with
  | some message => s.raise "AccessDenied" message
  | none =>
    let rid := s.nextId
    let f := { fr.filing with createdAt := env.now }
    let s := s.create f fr.raw (fr.pre.map Basis.allows)
    match fr.pre with
    | none => (startHook cfg env s rid f.oneShot).emit (.returned (toString rid))
    | some .cancelled =>
      (auditPolkitDeny cfg env (s.emit (.decided rid false .cancelled)) rid f
        "polkit_cancel").emit (.returned (toString rid))
    | some b => (s.emit (.decided rid b.allows b)).push (.enqueueRecord rid b)

/-- `_enqueue`: audit a rule or cache decision and record what the audit leaves of it. -/
def enqueueRecord (s : State) (rid : ℕ) (b : Basis) : State :=
  match s.reqs rid with
  | none => s
  | some r =>
    let row := basisRow cfg r.toFiling r.details b (r.decision.getD false) (some rid)
    let verdict := recordVerdict cfg env row
    ((s.audit env row).setStatus rid (Status.recorded (verdict == .allow))).emit
      (.returned (toString rid))

/-- `RequestPermission` -/
def requestPermission (s : State) (sender : Sender) (action : String) (details : Details) :
    State :=
  enqueueBegin cfg env s (peerFiling cfg env sender action details) false

/-- `int(details.get("caller_start_time") or 0)`, or zero where that raises. -/
def claimedStartTime (details : Details) : ℤ :=
  (PyText.pyInt cfg.udb ((details.get? "caller_start_time").getD "").toList).getD 0

/-- `_verify_delegated_claim`: the error that refuses the claim, if one does. -/
def delegatedClaimError (uid pid : ℤ) (exe : String) (claimedStart : ℤ) : Option DBusError :=
  let (liveExe, liveStart) := env.procIdentity pid
  let who := "delegated caller pid " ++ toString pid
  let missing := (if liveExe = "" ∨ liveExe = "?" then ["live-exe"] else [])
    ++ (if claimedStart = 0 then ["claimed-starttime"] else [])
  if pid ≤ 0 then some ⟨"BadArgument", "invalid delegated caller pid " ++ toString pid⟩
  else if liveStart = 0 then some ⟨"CallerGone", who ++ " is not a live process"⟩
  else if cfg.identityStrict ∧ missing ≠ [] then
    some ⟨"CallerIdentityMismatch", "strict profile: " ++ who
      ++ " identity not fully resolvable (missing " ++ "+".intercalate missing ++ "); refusing"⟩
  else if claimedStart ≠ 0 ∧ liveStart ≠ claimedStart then
    some ⟨"CallerIdentityMismatch", who ++ " start time mismatch"⟩
  else if exe ≠ "" ∧ exe ≠ "?" ∧ liveExe ≠ exe then
    some ⟨"CallerIdentityMismatch", who ++ " executable changed"⟩
  else
    match env.procUid pid with
    | none => some ⟨"CallerGone", who ++ " uid could not be verified"⟩
    | some liveUid =>
      if liveUid ≠ uid then some ⟨"CallerIdentityMismatch", who ++ " uid mismatch"⟩ else none

/-- `RequestPermissionAs` -/
def requestPermissionAs (s : State) (sender : Sender) (uid pid : ℤ) (exe action : String)
    (details : Details) : State :=
  match env.rootHelperPeer sender with
  | some reason => s.raise "AccessDenied" reason
  | none =>
    match delegatedClaimError cfg env uid pid exe (claimedStartTime cfg details) with
    | some e => s.raise e.name e.message
    | none =>
      enqueueBegin cfg env s
        { uid := uid, pid := pid, exe := (env.procIdentity pid).1
          startTime := (env.procIdentity pid).2, action := action, details := details
          delegated := true } false

/-- Run a polkit method's body for the session polkit agent only. -/
def requirePolkitAgent (s : State) (sender : Sender) (method : String) (body : State) : State :=
  match env.polkitPeer sender with
  | some reason =>
    s.raise "AccessDenied" (method ++ " restricted to the session polkit agent; " ++ reason)
  | none => body

/-- `RequestPolkitAuth` -/
def requestPolkitAuth (s : State) (sender : Sender) (action : String) (details : Details)
    (cookie : String) (identities : List PolkitIdentity) : State :=
  requirePolkitAgent env s sender "RequestPolkitAuth"
    (enqueueBegin cfg env s
      { peerFiling cfg env sender action details with
        oneShot := true, polkitCookie := cookie, polkitIdentities := identities
        filedBy := sender.name } true)

/-! ## Waiting and answering -/

/-- `WaitForDecision` -/
def waitForDecision (s : State) (sender : Sender) (rid : ℕ) : State :=
  match s.getPending rid with
  | none => s.emit (.gone rid)
  | some r =>
    let uid := cfg.connUid sender
    if uid ≠ 0 ∧ uid ≠ cfg.adminUid ∧ uid ≠ r.uid then
      s.raise "AccessDenied" ("WaitForDecision request " ++ toString rid ++ " belongs to uid "
        ++ toString r.uid ++ "; got uid " ++ toString uid)
    else
      let w : Waiter := ⟨rid, s.nextWaiter⟩
      let s := { s with nextWaiter := s.nextWaiter + 1 }.emit (.waiting w)
      match r.decision, r.finalizing with
      | some b, false => s.emit (.answered w b true)
      | _, _ => s.setStatus rid (Status.joined w)

/-- Decide an undecided request and answer everyone who waits for it. -/
def settle (s : State) (rid : ℕ) (allowed : Bool) : State :=
  let ws := ((s.reqs rid).map fun r => r.waiters).getD []
  (s.setStatus rid (Status.settled allowed)).answer rid allowed ws

/-! ## polkit responses -/

/-- `_polkit_cookie_cancelled` -/
def polkitCookieCancelled (s : State) (cookie sender : String) : Bool :=
  (s.cancelled.get? cookie).any fun m => sender == "" || m.names sender

/-- `_respond_polkit` -/
def respondPolkit (s : State) (r : Request) : State :=
  if polkitCookieCancelled s r.polkitCookie r.filedBy then s
  else
    match pickPolkitIdentity r.polkitIdentities r.uid with
    | none => s
    | some identity =>
      s.emit (.responded
        { owner := r.filedBy, uid := r.uid, pid := r.pid, action := r.action
          cookie := r.polkitCookie, identity := identity, relayed := false })

/-! ## The admin's decision -/

/-- `_DELEGATED_FORBIDDEN_SCOPES` -/
def delegatedForbidden (sc : Scope) : Bool :=
  [Scope.oneHour, .oneDay, .forever, .foreverExe].contains sc

/-- `_ONESHOT_FORBIDDEN_SCOPES` -/
def oneshotForbidden (sc : Scope) : Bool :=
  [Scope.oneHour, .oneDay, .forever, .foreverExe, .foreverArgv, .foreverBasename,
    .foreverPrefix].contains sc

/-- `_ARGV_REQUIRED_SCOPES` -/
def argvRequired (sc : Scope) : Bool :=
  [Scope.foreverArgv, .foreverBasename, .foreverPrefix].contains sc

/-- Why a scope is refused for a request, if it is. -/
def scopeError (r : Request) (allowed : Bool) (sc : Scope) : Option String :=
  let quoted := PyText.pyRepr cfg.udb sc.text
  if r.delegated && delegatedForbidden sc then
    some ("scope " ++ quoted ++ " not permitted for delegated requests; use 'once' or an "
      ++ "argv-pinned scope ('forever_argv', 'forever_basename', 'forever_prefix')")
  else if r.oneShot && oneshotForbidden sc then
    some ("scope " ++ quoted ++ " not permitted for one-shot requests; use 'once'")
  else if allowed && argvRequired sc && (argvFromDetails cfg.udb r.details).getD [] == [] then
    some ("scope " ++ quoted ++ " requires captured argv for "
      ++ (if r.delegated then "delegated requests" else "this request"))
  else none

/-- Has the process behind a directly authenticated request been replaced? -/
def callerRecycled (r : Request) : Bool :=
  let live := (env.procIdentity r.pid).2
  !r.delegated && decide (0 < r.pid) && r.startTime != 0 && live != 0 && live != r.startTime

/-- The forced deny of a request whose caller is gone. -/
def decideCallerGone (s : State) (rid : ℕ) (r : Request) (adminUid : ℤ) : State :=
  let s := s.audit env
    { callerUid := r.uid, callerPid := r.pid, callerExe := r.exe, action := r.action
      decision := false, scope := none, source := "prompt caller_gone"
      approverUid := some adminUid, requestId := some rid }
  (settle ((s.emit (.decided rid false .prompt)).emit (.requestDecided rid false))
      rid false).raise "CallerGone"
    ("caller pid " ++ toString r.pid
      ++ " has been recycled (start_time changed); refusing to apply decision")

/-- `DecideRequest`, under its first lock, for a decision and scope that are well formed. -/
def decideLocked (s : State) (adminUid : ℤ) (rid : ℕ) (allowed : Bool) (sc : Scope) : State :=
  match s.getPending rid with
  | none => s.emit (.returned "unknown")
  | some r =>
    match r.decision with
    | some b =>
      s.emit (.returned (if r.finalizing then "deciding"
        else if b then "already-allow" else "already-deny"))
    | none =>
      match scopeError cfg r allowed sc with
      | some message => s.raise "ScopeNotPermitted" message
      | none =>
        if callerRecycled env r then decideCallerGone env s rid r adminUid
        else
          ((s.emit (.decided rid allowed .prompt)).setStatus rid
            (Status.provisional allowed)).push
            (.decideAudit
              { rid := rid, allowed := allowed, scope := sc, adminUid := adminUid
                cacheArgv := argvFromDetails cfg.udb r.details, waiters := r.waiters })

/-- The decision a text names. -/
def decisionOf (text : String) : Option Bool :=
  if text = "allow" then some true else if text = "deny" then some false else none

/-- `sorted(_VALID_SCOPES)` as a message shows it. -/
def validScopesText : String :=
  "['1h', '24h', 'forever', 'forever_argv', 'forever_basename', 'forever_exe', "
    ++ "'forever_prefix', 'once']"

/-- `DecideRequest` -/
def decideRequest (s : State) (sender : Sender) (rid : ℕ) (decision scope : String) : State :=
  match env.adminPeer sender with
  | some reason => s.raise "AccessDenied" reason
  | none =>
    match decisionOf decision, Scope.ofText scope with
    | none, _ =>
      s.raise "BadArgument" ("decision must be 'allow' or 'deny', got "
        ++ PyText.pyRepr cfg.udb decision)
    | some _, none =>
      s.raise "BadArgument" ("scope must be one of " ++ validScopesText ++ ", got "
        ++ PyText.pyRepr cfg.udb scope)
    | some allowed, some sc => decideLocked cfg env s (cfg.connUid sender) rid allowed sc

/-- The audit row of an admin's decision. -/
def promptRow (r : Request) (f : DecideFrame) : AuditRow :=
  { callerUid := r.uid, callerPid := r.pid, callerExe := r.exe, action := r.action
    decision := f.allowed, scope := some f.scope.text, source := "prompt"
    approverUid := some f.adminUid, requestId := some f.rid, argv := f.cacheArgv }

/-- `DecideRequest`: the audit write. -/
def decideAudit (s : State) (f : DecideFrame) : State :=
  match s.reqs f.rid with
  | none => s
  | some r =>
    (s.audit env (promptRow r f)).push
      (if !env.auditOk (promptRow r f) && cfg.auditRequired then
          .decideDowngrade f env.auditError
        else .decidePublish f)

/-- `DecideRequest`: an audit failure turns the decision into a deny. -/
def decideDowngrade (s : State) (f : DecideFrame) (error : String) : State :=
  let late := ((s.reqs f.rid).map fun r => r.waiters).getD []
  let live := decide (f.rid ∈ s.pending)
  (((s.setStatus f.rid (Status.downgraded live)).answer f.rid false (f.waiters ++ late)).emit
    (.requestDecided f.rid false)).raise "AuditUnavailable"
      ("Audit log unavailable; decision not recorded (" ++ error ++ "). Request denied.")

/-- Write the cache row of an allowed decision, and tell whether caching worked. -/
def storeApproval (s : State) (r : Request) (f : DecideFrame) : State × Bool :=
  if f.allowed && !r.oneShot then
    match storeRow s.cache (wholeSeconds env.now) r.uid r.action r.exe f.scope f.allowed
        f.adminUid f.cacheArgv with
    | none => (s, true)
    | some row =>
      if env.storeOk then
        ({ s with cache := s.cache ++ [row] }.emit (.stored f.rid f.scope row), true)
      else (s, false)
  else (s, true)

/-- `DecideRequest`: the cache write and the polkit response. -/
def decidePublish (s : State) (f : DecideFrame) : State :=
  match s.reqs f.rid with
  | none => s
  | some r =>
    let (s, cachedOk) := storeApproval env s r f
    (if f.allowed && r.polkitCookie != "" then respondPolkit s r else s).push
      (.decideFinalise f cachedOk)

/-- `DecideRequest`: the decision becomes final and every waiter is answered. -/
def decideFinalise (s : State) (f : DecideFrame) (cachedOk : Bool) : State :=
  let late := ((s.reqs f.rid).map fun r => r.waiters).getD []
  (((s.setStatus f.rid Status.finalised).answer f.rid f.allowed (f.waiters ++ late)).emit (.requestDecided f.rid f.allowed)).emit
    (.returned (if cachedOk then "applied" else "applied-uncached"))

/-! ## Hooks -/

/-- A hook's verdict and reason; `none` when the hook failed. -/
abbrev HookResponse := Option (String × String)

/-- Is the process behind the request still the one that filed it? -/
def identityValid (f : Filing) : Bool :=
  decide (0 < f.startTime) && (env.procIdentity f.pid).2 == f.startTime
    && (env.procIdentity f.pid).1 == f.exe && env.procUid f.pid == some f.uid

/-- The `(sandbox_engine, app_id)` stored with a request. -/
def storedSelectors (f : Filing) : String × String :=
  ((f.details.get? "sandbox_engine").getD "", (f.details.get? "app_id").getD "")

/-- The policy re-check made when a hook answers: what decides now, and whether the
request's identity still holds. -/
def hookRecheck (s : State) (f : Filing) : Option Basis × Bool :=
  let claimed := storedSelectors f
  let selectors := lineageSelectors cfg env f.pid claimed.1 claimed.2
  if identityValid env f && selectors == claimed then
    (policyBasis cfg env s f selectors.2 selectors.1, true)
  else (none, false)

/-- The audit row of a hook completion. -/
def hookDecisionRow (f : Filing) (rid : ℕ) (recheck : Option Basis × Bool)
    (verdict reason : String) : AuditRow :=
  match recheck.1 with
  | some b => basisRow cfg f
      (withSelectors f.details (storedSelectors f).2 (storedSelectors f).1) b b.allows none
  | none => hookRow cfg f rid verdict reason recheck.2

/-- The lineage note of the re-check, made while the process is still the filing one. -/
def hookNote (s : State) (f : Filing) : State :=
  if identityValid env f then
    noteLineage cfg env s f (storedSelectors f).1 (storedSelectors f).2
  else s

/-- `_apply_hook` for an undecided request and a binary verdict. -/
def hookDecide (s : State) (rid : ℕ) (r : Request) (verdict reason : String) : State :=
  let s := hookNote cfg env s r.toFiling
  let recheck := hookRecheck cfg env s r.toFiling
  let row := hookDecisionRow cfg r.toFiling rid recheck verdict reason
  let allowed := recordVerdict cfg env row == .allow
  let s := (s.audit env row).emit (.decided rid allowed (recheck.1.getD .hook))
  if allowed && r.polkitCookie != "" then
    (s.setStatus rid (Status.settled allowed)).push (.hookRelease rid r.waiters)
  else settle (s.emit (.requestDecided rid allowed)) rid allowed

/-- `_apply_hook` -/
def applyHook (s : State) (rid : ℕ) (response : HookResponse) : State :=
  if rid ∈ s.hookPending then
    let s := { s with hookPending := s.hookPending.erase rid }
    match s.getPending rid with
    | none => s
    | some r =>
      if r.decision.isSome then s
      else
        match response with
        | some (verdict, reason) =>
          if verdict = "allow" ∨ verdict = "deny" then
            hookDecide cfg env s rid r verdict reason
          else s.emit (.requestPending rid)
        | none => s.emit (.requestPending rid)
  else s

/-- `_apply_hook`: the polkit response, then the answers. -/
def hookRelease (s : State) (rid : ℕ) (ws : List Waiter) : State :=
  match s.reqs rid with
  | none => s
  | some r => ((respondPolkit s r).emit (.requestDecided rid true)).answer rid true ws

/-! ## The polkit relay -/

/-- Is the mark or binding made at `t` still within its time to live? -/
def freshMark (now t : Time) : Bool := decide (now - t ≤ polkitUndecidedTtl)

/-- `_prune_polkit_marks` -/
def prunePolkitMarks (s : State) : State :=
  { s with
    cancelled := s.cancelled.filter fun e => freshMark env.now e.2.time
    announced := s.announced.filter fun e => freshMark env.now e.2.2 }

/-- The text of a full mark table. -/
def markRoomText (what : String) : String :=
  "too many outstanding polkit " ++ what ++ " marks; refusing new ones"

/-- The mark of a cookie is popped and put back, which only moves it to the end. -/
def repositionMark (s : State) (cookie : String) : State :=
  match s.cancelled.get? cookie with
  | none => s
  | some m => { s with cancelled := (s.cancelled.erase cookie).insert cookie m }

/-- `AnnouncePolkitAuth`, under the lock and after pruning. -/
def announceLocked (s : State) (sender : Sender) (cookie : String) : State :=
  if (s.announced.get? cookie).any fun b => b.1 != sender then
    s.raise "AccessDenied" "cookie is already bound to another peer"
  else if (s.firstFiled cookie).any fun r => r.filedBy != sender.name then
    s.raise "AccessDenied" "cookie was already filed by another peer"
  else
    let marked := (s.cancelled.get? cookie).any fun m => m.senders.contains sender
    let s := repositionMark s cookie
    if marked then s
    else if (s.announced.get? cookie).isNone ∧ polkitCancelledMax ≤ s.announced.size then
      s.raise "RateLimited" (markRoomText "announce")
    else
      { s with announced := s.announced.insert cookie (sender, env.now) }.emit
        (.announced sender cookie)

/-- `AnnouncePolkitAuth` -/
def announcePolkitAuth (s : State) (sender : Sender) (cookie : String) : State :=
  requirePolkitAgent env s sender "AnnouncePolkitAuth"
    (if cookie = "" then s else announceLocked env (prunePolkitMarks env s) sender cookie)

/-- `RespondPolkitAuth`: the lookup and the ownership check. -/
def respondPolkitAuth (s : State) (sender : Sender) (cookie : String)
    (identities : List PolkitIdentity) : State :=
  requirePolkitAgent env s sender "RespondPolkitAuth"
    (let req := s.findPending fun r => r.polkitCookie == cookie
     let owned := ((req.bind s.reqs).any fun r => r.filedBy == sender.name)
      || ((s.announced.get? cookie).any fun b => b.1 == sender)
     let cancelled := (s.cancelled.get? cookie).any fun m => m.senders.contains sender
     if cancelled then s.emit (.returned "")
     else if !owned then
       s.raise "AccessDenied" "cookie was not announced or filed by this peer"
     else
       s.push (.respondRelay sender (env.procIdentity (cfg.connPid sender)).1 cookie identities
        req))

/-- The decimal text of the identity's uid, or of its gid. -/
def identityNumber (identity : PolkitIdentity) : String :=
  match identity.uid, identity.gid with
  | some n, _ => toString n
  | none, some n => toString n
  | none, none => ""

/-- The audit row of a relayed local authentication. -/
def relayRow (s : State) (sender : Sender) (exe cookie : String) (identity : PolkitIdentity)
    (req : Option ℕ) : AuditRow :=
  { callerUid := cfg.connUid sender, callerPid := cfg.connPid sender, callerExe := exe
    action := ((req.bind s.reqs).map fun r => r.action).getD "polkit.local_auth"
    decision := true, scope := some "once", source := "polkit_local_auth"
    approverUid := some (cfg.connUid sender), requestId := req
    context := some (polkitCookieRef cfg cookie ++ " identity=" ++ identity.kind ++ ":"
      ++ identityNumber identity) }

/-- `RespondPolkitAuth`: the audited relay. -/
def respondRelay (s : State) (sender : Sender) (exe cookie : String)
    (identities : List PolkitIdentity) (req : Option ℕ) : State :=
  let decision := (req.bind s.reqs).bind fun r => r.decision
  if decision = some false then s.emit (.returned "")
  else
    match pickPolkitIdentity identities (cfg.connUid sender) with
    | none => s.raise "BadArgument" "polkit offered no identities to respond as"
    | some identity =>
      let row := relayRow cfg s sender exe cookie identity req
      let s := s.audit env row
      if !env.auditOk row && cfg.auditRequired then
        s.raise "AuditUnavailable"
          ("Audit log unavailable; polkit response not relayed (" ++ env.auditError ++ ").")
      else
        let s := s.emit (.responded
          { owner := sender.name, uid := cfg.connUid sender, pid := cfg.connPid sender
            action := row.action, cookie := cookie, identity := identity, relayed := true })
        if !env.respondOk then s.raise "" ""  -- polkitd's own error goes to the caller
        else
          match req, decision with
          | some rid, none => s.push (.respondResolve rid)
          | _, _ => s.emit (.returned "")

/-- `RespondPolkitAuth`: a request that is still open is resolved by the local verdict. -/
def respondResolve (s : State) (rid : ℕ) : State :=
  match s.reqs rid with
  | none => s
  | some r =>
    let s := if r.decision = none then settle (s.emit (.decided rid true .polkit)) rid true
      else s
    if r.decision = none ∨ r.decision = some true then s.emit (.requestDecided rid true) else s

/-- `_note_polkit_cancelled`, and `CancelPolkitAuth` after it. -/
def noteCancelled (s : State) (sender : Sender) (exe cookie : String) : State :=
  if cookie = "" then s.push (.cancelHits sender exe cookie)
  else
    let s := prunePolkitMarks env s
    match s.cancelled.get? cookie with
    | none =>
      if polkitCancelledMax ≤ s.cancelled.size then s.raise "RateLimited" (markRoomText "cancel")
      else
        { s with cancelled := s.cancelled.insert cookie ⟨[sender], env.now⟩ }.push
          (.cancelHits sender exe cookie)
    | some m =>
      let senders := if sender ∈ m.senders then m.senders else m.senders ++ [sender]
      { s with cancelled := s.cancelled.insert cookie { m with senders := senders } }.push
        (.cancelHits sender exe cookie)

/-- `CancelPolkitAuth` -/
def cancelPolkitAuth (s : State) (sender : Sender) (cookie : String) : State :=
  requirePolkitAgent env s sender "CancelPolkitAuth"
    (noteCancelled env s sender (env.procIdentity (cfg.connPid sender)).1 cookie)

/-- Decide an undecided polkit request deny, audited under `source`. -/
def denyPolkit (source : String) (s : State) (rid : ℕ) : State :=
  match s.reqs rid with
  | none => s
  | some r =>
    let s := auditPolkitDeny cfg env (s.emit (.decided rid false .polkit)) rid r.toFiling source
    (settle s rid false).emit (.requestDecided rid false)

/-- Is this an undecided filing of the cookie by the sender? -/
def cancelHit (sender : Sender) (cookie : String) (r : Request) : Bool :=
  r.polkitCookie != "" && r.polkitCookie == cookie && r.decision == none
    && r.filedBy == sender.name

/-- `CancelPolkitAuth` for one entry of the table. -/
def cancelRequest (sender : Sender) (cookie : String) (s : State) (rid : ℕ) : State :=
  if (s.reqs rid).any (cancelHit sender cookie) then denyPolkit cfg env "polkit_cancel" s rid else s

/-- Has this sender announced the cookie? -/
def announcedBy (s : State) (sender : Sender) (cookie : String) : Bool :=
  (s.announced.get? cookie).any fun b => b.1 == sender

/-- The sender's own announcement of the cookie is withdrawn. -/
def releaseBinding (s : State) (sender : Sender) (cookie : String) : State :=
  if announcedBy s sender cookie then { s with announced := s.announced.erase cookie } else s

/-- `CancelPolkitAuth`: every undecided filing of the cookie by the sender is denied. -/
def cancelHits (s : State) (sender : Sender) (exe cookie : String) : State :=
  let announced := announcedBy s sender cookie
  let s := releaseBinding s sender cookie
  if announced ∧ s.findPending (cancelHit sender cookie) = none then
    s.audit env
      { callerUid := cfg.connUid sender, callerPid := cfg.connPid sender, callerExe := exe
        action := "polkit.local_auth", decision := false, scope := none
        source := "polkit_cancel", context := some (polkitCookieRef cfg cookie) }
  else s.pending.foldl (cancelRequest cfg env sender cookie) s

/-! ## Reaping -/

/-- `_reap_pending` for one entry of the table. -/
def reapRequest (s : State) (rid : ℕ) : State :=
  match s.reqs rid with
  | none => s
  | some r =>
    match r.decision with
    | none =>
      if r.polkitCookie ≠ "" ∧ polkitUndecidedTtl ≤ env.now - r.createdAt then
        (denyPolkit cfg env "polkit_stale_reap" s rid).setStatus rid (Status.stamped env.now)
      else s
    | some _ =>
      if cfg.retention ≤ 0 then s
      else
        match r.decidedAt with
        | none => s.setStatus rid (Status.stamped env.now)
        | some t =>
          if cfg.retention ≤ env.now - t then { s with pending := s.pending.erase rid }
          else s

/-- `_reap_pending` -/
def reapPending (s : State) : State := s.pending.foldl (reapRequest cfg env) s

/-! ## The step function -/

/-- A method call, or an event of the main loop. -/
inductive Call where
  | requestPermission (sender : Sender) (action : String) (details : Details)
  | requestPermissionAs (sender : Sender) (uid pid : ℤ) (exe action : String) (details : Details)
  | requestPolkitAuth (sender : Sender) (action : String) (details : Details) (cookie : String)
      (identities : List PolkitIdentity)
  | announcePolkitAuth (sender : Sender) (cookie : String)
  | respondPolkitAuth (sender : Sender) (cookie : String) (identities : List PolkitIdentity)
  | cancelPolkitAuth (sender : Sender) (cookie : String)
  | waitForDecision (sender : Sender) (rid : ℕ)
  | decideRequest (sender : Sender) (rid : ℕ) (decision scope : String)
  | checkPermission (sender : Sender) (action : String) (details : Details)
  | applyHook (rid : ℕ) (response : HookResponse)
  | reapPending
  | reloadRules (rules : List Rule)
  | deleteApproval (id : ℕ)
  | deleteApprovalsOf (uid : ℤ)
  | gcApprovals

/-- Run the first section of a call. -/
def callStep (s : State) : Call → State
  | .requestPermission sender action details => requestPermission cfg env s sender action details
  | .requestPermissionAs sender uid pid exe action details =>
    requestPermissionAs cfg env s sender uid pid exe action details
  | .requestPolkitAuth sender action details cookie identities =>
    requestPolkitAuth cfg env s sender action details cookie identities
  | .announcePolkitAuth sender cookie => announcePolkitAuth env s sender cookie
  | .respondPolkitAuth sender cookie identities =>
    respondPolkitAuth cfg env s sender cookie identities
  | .cancelPolkitAuth sender cookie => cancelPolkitAuth cfg env s sender cookie
  | .waitForDecision sender rid => waitForDecision cfg s sender rid
  | .decideRequest sender rid decision scope => decideRequest cfg env s sender rid decision scope
  | .checkPermission sender action details => checkPermission cfg env s sender action details
  | .applyHook rid response => applyHook cfg env s rid response
  | .reapPending => reapPending cfg env s
  | .reloadRules rules => { s with rules := rules }
  | .deleteApproval id => { s with cache := s.cache.filter fun row => row.id != id }
  | .deleteApprovalsOf uid => { s with cache := s.cache.filter fun row => row.callerUid != uid }
  | .gcApprovals =>
    { s with cache := s.cache.filter fun row =>
        (row.expiresAt.all fun t => decide (wholeSeconds env.now < t)) }

/-- Run the next section of a method in progress. -/
def taskStep (s : State) : Task → State
  | .enqueueCreate f => enqueueCreate cfg env s f
  | .enqueueRecord rid basis => enqueueRecord cfg env s rid basis
  | .decideAudit f => decideAudit cfg env s f
  | .decideDowngrade f error => decideDowngrade s f error
  | .decidePublish f => decidePublish env s f
  | .decideFinalise f cachedOk => decideFinalise s f cachedOk
  | .hookRelease rid ws => hookRelease s rid ws
  | .respondRelay sender exe cookie identities req =>
    respondRelay cfg env s sender exe cookie identities req
  | .respondResolve rid => respondResolve s rid
  | .cancelHits sender exe cookie => cancelHits cfg env s sender exe cookie

/-- One step: a call arrives, or the `i`-th method in progress continues. -/
inductive Action where
  | call (env : Env) (c : Call)
  | resume (env : Env) (i : ℕ)

/-- The environment of a step. -/
def Action.environment : Action → Env
  | .call e _ => e
  | .resume e _ => e

/-- The state after one step. -/
def step (s : State) : Action → State
  | .call env c => callStep cfg env s c
  | .resume env i =>
    match s.tasks[i]? with
    | none => s
    | some t => taskStep cfg env { s with tasks := s.tasks.eraseIdx i } t

/-! ## A sample deployment -/

/-- A broker that requires audit rows, with every connection made by one process of
the admin's. -/
def sampleConfig : Config :=
  { auditRequired := true, lineageEnforce := false, identityStrict := false, hooksEnabled := true
    retention := 300 * second, adminUid := 1000, rateLimit := 30, rateWindow := 60
    udb := UnicodeDb.ascii
    sha256 := fun text =>
      if text = "c" then "2e7d2c03a9507ae265ecf5b5356885a53393a2029d241394997265a1a25aefc6" else ""
    connUid := fun _ => 1000, connPid := fun _ => 77 }

/-- An environment in which nothing is refused, with or without a working audit log. -/
def sampleEnv (now : Time) (auditOk : Bool) : Env :=
  { now := now, auditOk := fun _ => auditOk, auditError := "disk I/O error"
    subject := fun _ => { verified := false, sandboxEngine := "", appId := "" }
    procIdentity := fun _ => ("/usr/bin/app", 500), procUid := fun _ => some 1000
    storeOk := true, respondOk := true, hookSlot := true, rateOk := fun _ _ => true
    polkitPeer := fun _ => none, adminPeer := fun _ => none, rootHelperPeer := fun _ => none }

/-- Two connections. -/
def alice : Sender := ⟨":1.7", by decide⟩

def mallory : Sender := ⟨":1.9", by decide⟩

end Broker
