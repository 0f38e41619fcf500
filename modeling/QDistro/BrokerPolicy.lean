/-
# Rules, then cache

How the broker resolves a request without a human: the selectors it trusts, the rules
and cached approvals it consults, and the audit row that goes with every answer.  The
resolution is written twice in the source, once for the synchronous checks
(`policyBasis`) and once for filed requests (`enqueueBasis`); both are embedded as
they stand.
-/
import QDistro.BrokerState

namespace Broker

variable (cfg : Config) (env : Env)

/-! ## Trusted selectors -/

/-- The launcher-attested `(sandbox_engine, app_id)` of a process. -/
def attestedSelectors (pid : ℤ) : String × String :=
  let subj := env.subject pid
  if subj.verified then (subj.sandboxEngine, subj.appId) else ("", "")

/-- `_lineage_selectors`: the attested pair in enforce mode, the claimed pair otherwise. -/
def lineageSelectors (pid : ℤ) (claimedEngine claimedApp : String) : String × String :=
  if cfg.lineageEnforce then attestedSelectors env pid else (claimedEngine, claimedApp)

/-- The audit row of a claim that the launch records do not bear out. -/
def lineageRow (f : Filing) (claimedEngine claimedApp : String) : AuditRow :=
  let subj := env.subject f.pid
  let resolved := attestedSelectors env f.pid
  let quote := PyText.pyRepr cfg.udb
  { callerUid := f.uid, callerPid := f.pid, callerExe := f.exe
    action := "qdistro.lineage.mismatch:" ++ f.action
    decision := false, scope := none
    source := "lineage_ENFORCE verified=" ++ PyText.pyBool subj.verified
      ++ " claimed_engine=" ++ quote claimedEngine ++ " resolved_engine=" ++ quote resolved.1
      ++ " claimed_app=" ++ quote claimedApp ++ " resolved_app=" ++ quote resolved.2
      ++ " reason=" ++ subj.reason }

/-- Does the claim differ from what the launch records say? -/
def lineageMismatch (pid : ℤ) (claimedEngine claimedApp : String) : Bool :=
  if (env.subject pid).verified then decide ((claimedEngine, claimedApp) ≠ attestedSelectors env pid)
  else decide (claimedEngine ≠ "" ∨ claimedApp ≠ "")

/-- The audit side of `_lineage_selectors`: a mismatch is recorded in enforce mode. -/
def noteLineage (s : State) (f : Filing) (claimedEngine claimedApp : String) : State :=
  if lineageMismatch env f.pid claimedEngine claimedApp && cfg.lineageEnforce then
    s.audit env (lineageRow cfg env f claimedEngine claimedApp)
  else s

/-- `_cache_sandboxed` -/
def cacheSandboxed (pid : ℤ) : Bool :=
  (env.subject pid).verified && (env.subject pid).sandboxEngine != ""

/-! ## The two resolutions -/

/-- The action families that only a rule may decide. -/
def rulesOnlyPrefixes : List String :=
  ["qdistro.tier1.spawn:", "qdistro.tier2.spawn:", "qdistro.tier3s.spawn:",
    "qdistro.dispose.spawn:", "qdistro.dispose.open:", "qdistro.dispose.export:"]

/-- `action_s.startswith((...))` -/
def rulesOnly (action : String) : Bool := rulesOnlyPrefixes.any fun p => PyText.startswith action p

/-- What a request with these details shows to the rules. -/
def ruleQuery (f : Filing) (details : Details) (app engine : String) : RuleQuery :=
  { uid := f.uid, action := f.action, exe := f.exe
    appId := app, sandboxEngine := engine
    mimeType := selectorFromDetails details "mime_type"
    argv := argvFromDetails cfg.udb details }

/-- The cached approval for a subject, with the sandbox reading it was looked up under. -/
def cacheBasis (s : State) (f : Filing) (argv : Option (List String)) (delegated : Bool) :
    Option Basis :=
  let sandboxed := cacheSandboxed env f.pid
  (lookupDetail s.cache (wholeSeconds env.now) f.uid f.action f.exe argv delegated sandboxed).map
    fun row => .cached row sandboxed

/-- What decides a synchronous check, if anything does. -/
def policyBasis (s : State) (f : Filing) (app engine : String) : Option Basis :=
  let details := withSelectors f.details app engine
  match matchRules s.rules (ruleQuery cfg f details app engine) none with
  | some r => some (.rule r)
  | none =>
    if rulesOnly f.action then none
    else cacheBasis env s f (argvFromDetails cfg.udb details) false

/-- What decides a filed request at once, if anything does.  A polkit filing consults
the deny rules only. -/
def enqueueBasis (s : State) (f : Filing) (polkit : Bool) (app engine : String) : Option Basis :=
  match matchRules s.rules (ruleQuery cfg f f.details app engine)
      (if polkit then some .deny else none) with
  | some r => some (.rule r)
  | none =>
    if polkit then none
    else cacheBasis env s f (argvFromDetails cfg.udb f.details) f.delegated

/-- The decision a basis carries. -/
def Basis.allows : Basis → Bool
  | .rule r => r.decision == .allow
  | .cached row _ => row.decision
  | _ => false

/-! ## Audited checks -/

/-- The `context` column of a check. -/
def recordContext (details : Details) (grantId : Option ℕ) : String :=
  let text key := JsonText.Json.str (selectorFromDetails details key)
  String.ofList (JsonText.dumps JsonText.defaultSeps (.obj
    ([("app_id", text "app_id")]
      ++ (grantId.map fun n => ("grant_id", JsonText.Json.int n)).toList
      ++ [("mime_type", text "mime_type"), ("sandbox_engine", text "sandbox_engine")])))

/-- The audit row of a decision taken on a rule or a cached row. -/
def basisRow (f : Filing) (details : Details) (basis : Basis) (allowed : Bool)
    (requestId : Option ℕ) : AuditRow :=
  let row : AuditRow :=
    { callerUid := f.uid, callerPid := f.pid, callerExe := f.exe, action := f.action
      decision := allowed, scope := none, source := ""
      requestId := requestId
      argv := argvFromDetails cfg.udb details
      context := some (recordContext details none) }
  match basis with
  | .rule r => { row with source := "rule", scope := r.scope, rulePath := some r.sourcePath }
  | .cached c _ =>
    { row with
      source := "cache", scope := c.scope, approverUid := some c.approverUid
      context := some (recordContext details (some c.id)) }
  | _ => row

/-- The audit row of a hook's verdict. -/
def hookRow (f : Filing) (rid : ℕ) (verdict reason : String) (valid : Bool) : AuditRow :=
  { callerUid := f.uid, callerPid := f.pid, callerExe := f.exe, action := f.action
    decision := valid && verdict == "allow"
    scope := none
    source := "hook verdict=" ++ verdict ++ " identity_valid=" ++ PyText.pyBool valid
      ++ " reason=" ++ PyText.slice reason 256
    requestId := some rid
    argv := argvFromDetails cfg.udb f.details
    context := some (recordContext f.details none) }

/-- The answer of `_record_check`: the row's decision, or deny when a required row
cannot be written. -/
def recordVerdict (row : AuditRow) : Verdict :=
  if !env.auditOk row && cfg.auditRequired then .deny
  else if row.decision then .allow else .deny

/-- `_decide_check` -/
def decideCheck (s : State) (f : Filing) (app engine : String) : State × Verdict :=
  match policyBasis cfg env s f app engine with
  | none => (s, .unknown)
  | some b =>
    let row := basisRow cfg f (withSelectors f.details app engine) b b.allows none
    (s.audit env row, recordVerdict cfg env row)

/-- The text of a rate-limit refusal. -/
def rateLimitText (uid : ℤ) (action tail : String) : String :=
  "Rate limit exceeded for uid=" ++ toString uid ++ " action=" ++ PyText.pyRepr cfg.udb action
    ++ " (>" ++ toString cfg.rateLimit ++ "/" ++ toString cfg.rateWindow ++ "s). " ++ tail

/-- The subject behind a connection, as `_peer_info` reads it. -/
def peerFiling (sender : Sender) (action : String) (details : Details) : Filing :=
  let pid := cfg.connPid sender
  { uid := cfg.connUid sender
    pid := pid
    exe := (env.procIdentity pid).1
    startTime := (env.procIdentity pid).2
    action := action
    details := details }

/-- `CheckPermission` -/
def checkPermission (s : State) (sender : Sender) (action : String) (details : Details) : State :=
  let f := peerFiling cfg env sender action details
  if !env.rateOk f.uid action then
    s.raise "RateLimited" (rateLimitText cfg f.uid action "Check rejected.")
  else
    let claimedEngine := selectorFromDetails details "sandbox_engine"
    let claimedApp := selectorFromDetails details "app_id"
    let selectors := lineageSelectors cfg env f.pid claimedEngine claimedApp
    let s := noteLineage cfg env s f claimedEngine claimedApp
    let (s, verdict) := decideCheck cfg env s f selectors.2 selectors.1
    s.emit (.checked verdict)

end Broker
