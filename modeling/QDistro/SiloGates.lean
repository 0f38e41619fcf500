/-
# The gates between silos

`CheckClipboardTransfer`, `CheckClipboardReceive` and `CheckHandoffActivation` decide for the shell
whether data or focus may move from one silo to another.  The shell relays strings about the source
that the source may have chosen itself, and the pid and start time that the kernel vouches for.

With lineage enforced, each gate takes the source from the launch record of the relayed pid: by a
shortcut where the record's silo is the destination, or by the rules for the record's silo, app and
engine (`gates_attested`).  The start time and the record are read one after the other; nothing is
assumed about what happens in between.
-/
import QDistro.BrokerPolicy
import QDistro.LaunchRecords

namespace SiloGates

open Broker (Config Rule RuleQuery matchRules rateLimitText)
open LaunchRecords (ProcReaders RecordStore LaunchRecord resolveSubject)

/-! ## What a gate is given -/

/-- The arguments that the shell relays. -/
structure Relay where
  sourceSilo : String
  destSilo : String
  sourceApp : String
  sourceEngine : String
  identityVerified : Bool
  sourcePid : ℤ
  sourceStarttime : ℤ

/-- The shell as `_require_qdshell_peer` identifies it, and what the gate reads. -/
structure Env where
  uid : ℤ
  exe : String
  rules : List Rule
  rateOk : ℤ → String → Bool
  /-- The start time of a process, zero where it is gone, as `_read_proc_identity` finds it. -/
  liveStart : ℤ → ℤ
  /-- `/proc` and the records as `_resolve_subject` finds them, after that. -/
  fs : ProcReaders
  store : Option RecordStore
  now : ℚ
  /-- `_clipboard_receive_lineage` of a source silo, a destination silo and a type. -/
  receiveLineage : String → String → String → Bool

inductive Refusal
  | invalidArgument (message : String)
  | rateLimited (message : String)
  deriving DecidableEq

section Gates

variable (cfg : Config) (env : Env)

/-- `_resolve_subject` -/
def Env.subject (pid : ℤ) : LaunchRecords.Subject :=
  (resolveSubject cfg.udb env.fs (some pid) env.store env.now).2

/-- The live process has the start time that was relayed, if one was. -/
def Env.starttimeHolds (r : Relay) : Bool :=
  r.sourceStarttime = 0 ∨ env.liveStart r.sourcePid ≠ 0 ∧
    env.liveStart r.sourcePid = r.sourceStarttime

/-- `_cross_silo_source`: the source's silo, app and engine, or none for a hard deny. -/
def crossSiloSource (r : Relay) (src app engine : String) : Option (String × String × String) :=
  if ¬ cfg.lineageEnforce then some (src, app, engine)
  else if r.sourcePid ≤ 0 then none
  else if ¬ env.starttimeHolds r then none
  else
    let subject := env.subject cfg r.sourcePid
    if ¬ subject.verified then none
    else some (subject.silo, subject.appId, subject.sandboxEngine)

/-- `_same_silo_source_verified` -/
def sameSiloSourceVerified (r : Relay) (src app engine : String) : Bool :=
  if ¬ cfg.lineageEnforce then true
  else if r.sourcePid ≤ 0 then false
  else if ¬ env.starttimeHolds r then false
  else
    let subject := env.subject cfg r.sourcePid
    subject.verified && subject.silo == src && (app == "" || subject.appId == app) &&
      (engine == "" || subject.sandboxEngine == engine)

/-- `str(silo or "").strip()` -/
def siloName (s : String) : String := String.ofList (PyText.strip cfg.udb s.toList)

/-- The action that the rules see. -/
def actionText (gate src dst : String) : String := "qdistro." ++ gate ++ ":" ++ src ++ ":" ++ dst

/-- The body of the gates: `gate` names the action, `tail` ends the rate limiter's message, `mime` is
what the rules see as the type, and `lineage` is asked before an allow. -/
def check (gate tail mime : String) (lineage : String → String → Bool) (r : Relay) :
    Except Refusal Bool :=
  let src := siloName cfg r.sourceSilo
  let dst := siloName cfg r.destSilo
  if 80 < src.length ∨ 80 < dst.length then
    .error (.invalidArgument s!"silo identifier too long (src={src.length} dst={dst.length}, max 80)")
  else
    let app := PyText.slice r.sourceApp 128
    let engine := PyText.slice r.sourceEngine 128
    if ¬ env.rateOk env.uid (actionText gate src dst) then
      .error (.rateLimited (rateLimitText cfg env.uid (actionText gate src dst) tail))
    else if src = dst ∧ src ≠ "" ∧ r.identityVerified then
      .ok (sameSiloSourceVerified cfg env r src app engine && lineage src dst)
    else
      match crossSiloSource cfg env r src app engine with
      | none => .ok false
      | some (src, app, engine) =>
        let rule := matchRules env.rules
          ⟨env.uid, actionText gate src dst, env.exe, app, engine, mime, none⟩ none
        .ok (rule.any (·.decision == .allow) && lineage src dst)

/-- `CheckClipboardTransfer` -/
def checkClipboardTransfer (r : Relay) : Except Refusal Bool :=
  check cfg env "clipboard.transfer" "Transfer rejected." "" (fun _ _ => true) r

/-- `CheckClipboardReceive` -/
def checkClipboardReceive (mimeType : String) (r : Relay) : Except Refusal Bool :=
  let mime := PyText.slice mimeType 128
  check cfg env "clipboard.receive" "Receive rejected." mime
    (fun src dst => env.receiveLineage src dst mime) r

/-- `CheckHandoffActivation` -/
def checkHandoffActivation (r : Relay) : Except Refusal Bool :=
  check cfg env "handoff.activate" "Activation rejected." "" (fun _ _ => true) r

/-! ## Attested sources -/

/-- The rules allow a source, a destination and a type. -/
def RulesAllow (gate mime src dst app engine : String) : Prop :=
  ∃ rule, matchRules env.rules
    ⟨env.uid, actionText gate src dst, env.exe, app, engine, mime, none⟩ none = some rule ∧
    rule.decision = .allow

/-- **An attested source**: the pid is positive, its live start time is the relayed one where one is
relayed, and a launch record of the process is found, whose silo is the destination or whose silo, app
and engine the rules allow. -/
def Attested (gate mime : String) (r : Relay) : Prop :=
  0 < r.sourcePid ∧ (r.sourceStarttime ≠ 0 → env.liveStart r.sourcePid = r.sourceStarttime) ∧
    (env.subject cfg r.sourcePid).verified = true ∧
    ∃ s record, env.store = some s ∧
      (s.findByProc (r.sourcePid, (env.fs.readExeAndStarttime r.sourcePid).2) env.now).2 =
        some record ∧
      (record.silo = siloName cfg r.destSilo ∨
        RulesAllow env gate mime record.silo (siloName cfg r.destSilo) record.appId
          record.sandboxEngine)

variable {cfg env}

theorem verified_record {pid : ℤ} (h : (env.subject cfg pid).verified = true) :
    ∃ s record, env.store = some s ∧
      (s.findByProc (pid, (env.fs.readExeAndStarttime pid).2) env.now).2 = some record ∧
      (env.subject cfg pid).silo = record.silo ∧ (env.subject cfg pid).appId = record.appId ∧
      (env.subject cfg pid).sandboxEngine = record.sandboxEngine := by
  cases hstore : env.store with
  | none =>
    rw [Env.subject, hstore] at h
    unfold resolveSubject at h
    dsimp only at h
    split_ifs at h
    all_goals cases h
  | some s =>
    rw [Env.subject, hstore] at h
    obtain ⟨n, record, hn, hfind, hsilo, -, happ, hengine⟩ := LaunchRecords.verified_spec h
    cases hn
    refine ⟨s, record, rfl, hfind, ?_⟩
    rw [Env.subject, hstore]
    exact ⟨hsilo, happ, hengine⟩

theorem starttime_of_holds {r : Relay} (h : env.starttimeHolds r = true) :
    r.sourceStarttime ≠ 0 → env.liveStart r.sourcePid = r.sourceStarttime := by
  intro hne
  rcases of_decide_eq_true h with hzero | ⟨-, hlive⟩
  · exact absurd hzero hne
  · exact hlive

section

variable (henforce : cfg.lineageEnforce = true)
include henforce

theorem crossSiloSource_spec {r : Relay} {src app engine : String}
    {source : String × String × String}
    (h : crossSiloSource cfg env r src app engine = some source) :
    0 < r.sourcePid ∧ env.starttimeHolds r = true ∧ (env.subject cfg r.sourcePid).verified = true ∧
      source = ((env.subject cfg r.sourcePid).silo, (env.subject cfg r.sourcePid).appId,
        (env.subject cfg r.sourcePid).sandboxEngine) := by
  unfold crossSiloSource at h
  rw [if_neg (by simp [henforce])] at h
  dsimp only at h
  split_ifs at h with hpid hstart hverified
  cases h
  refine ⟨by omega, by simpa using hstart, by simpa using hverified, rfl⟩

theorem sameSiloSourceVerified_spec {r : Relay} {src app engine : String}
    (h : sameSiloSourceVerified cfg env r src app engine = true) :
    0 < r.sourcePid ∧ env.starttimeHolds r = true ∧ (env.subject cfg r.sourcePid).verified = true ∧
      (env.subject cfg r.sourcePid).silo = src := by
  unfold sameSiloSourceVerified at h
  rw [if_neg (by simp [henforce])] at h
  split_ifs at h with hpid hstart
  simp only [Bool.and_eq_true, beq_iff_eq] at h
  exact ⟨by omega, by simpa using hstart, h.1.1.1, h.1.1.2⟩

/-- **The body allows attested sources only.** -/
theorem check_attested {gate tail mime : String} {lineage : String → String → Bool} {r : Relay}
    (h : check cfg env gate tail mime lineage r = .ok true) : Attested cfg env gate mime r := by
  unfold check at h
  dsimp only at h
  split_ifs at h with hlong hrate hsame
  · -- the shortcut: the source's silo is the claimed one, and that is the destination
    have hsource := (Bool.and_eq_true_iff.mp (Except.ok.inj h)).1
    obtain ⟨hpid, hstart, hverified, hsilo⟩ := sameSiloSourceVerified_spec henforce hsource
    obtain ⟨s, record, hstore, hfind, hrecord, -, -⟩ := verified_record hverified
    refine ⟨hpid, starttime_of_holds hstart, hverified, s, record, hstore, hfind, .inl ?_⟩
    rw [← hrecord, hsilo]
    exact hsame.1
  · split at h
    next => cases h
    next src app engine hsource =>
      obtain ⟨hpid, hstart, hverified, heq⟩ := crossSiloSource_spec henforce hsource
      obtain ⟨s, record, hstore, hfind, hsilo, happ, hengine⟩ := verified_record hverified
      refine ⟨hpid, starttime_of_holds hstart, hverified, s, record, hstore, hfind, .inr ?_⟩
      rw [hsilo, happ, hengine] at heq
      cases heq
      have hany := (Bool.and_eq_true_iff.mp (Except.ok.inj h)).1
      rw [← Option.isSome_filter] at hany
      obtain ⟨rule, hrule⟩ := Option.isSome_iff_exists.mp hany
      obtain ⟨hmatch, hallow⟩ := Option.filter_eq_some_iff.mp hrule
      exact ⟨rule, hmatch, eq_of_beq hallow⟩

end

end Gates

/-- **Gates rest on attested sources.**  With lineage enforced, and whatever strings the shell relays
about the source, a gate allows only what comes from an attested source: none that the rules for
its recorded silo, app and engine do not allow, unless its recorded silo is the destination. -/
theorem gates_attested (cfg : Config) (env : Env) (r : Relay) (mimeType : String)
    (henforce : cfg.lineageEnforce = true) :
    (checkClipboardTransfer cfg env r = .ok true → Attested cfg env "clipboard.transfer" "" r) ∧
    (checkClipboardReceive cfg env mimeType r = .ok true →
      Attested cfg env "clipboard.receive" (PyText.slice mimeType 128) r) ∧
    (checkHandoffActivation cfg env r = .ok true → Attested cfg env "handoff.activate" "" r) := by
  refine ⟨fun h => ?_, fun h => ?_, fun h => ?_⟩
  · rw [checkClipboardTransfer] at h
    exact check_attested henforce h
  · rw [checkClipboardReceive] at h
    exact check_attested henforce h
  · rw [checkHandoffActivation] at h
    exact check_attested henforce h

/-- A terminal of `user1`, with its launch record. -/
def terminal : Env where
  uid := 1000
  exe := "/usr/bin/qdshell"
  rules := []
  rateOk _ _ := true
  liveStart _ := 50
  fs := ⟨fun _ => ("/usr/bin/foot", 50), fun _ => some 1001, fun _ => "", fun _ => ""⟩
  store := some ((RecordStore.new 60 8).register
    { silo := "user1", uid := 1001, pid := 700, starttime := 50, exe := "/usr/bin/foot"
      appId := "foot" } "r1" 0).1
  now := 1
  receiveLineage _ _ _ := true

def enforcing : Config where
  auditRequired := false
  lineageEnforce := true
  identityStrict := false
  hooksEnabled := false
  retention := 0
  adminUid := 1000
  rateLimit := 10
  rateWindow := 60
  udb := UnicodeDb.ascii
  sha256 := id
  connUid _ := 1000
  connPid _ := 1

/-- Its text may go to another window of `user1`. -/
theorem terminal_attested :
    checkClipboardTransfer enforcing terminal ⟨"user1", "user1", "foot", "", true, 700, 50⟩ =
      .ok true ∧
    Attested enforcing terminal "clipboard.transfer" ""
      ⟨"user1", "user1", "foot", "", true, 700, 50⟩ := by
  have hallow : checkClipboardTransfer enforcing terminal
      ⟨"user1", "user1", "foot", "", true, 700, 50⟩ = .ok true := by
    decide +kernel
  exact ⟨hallow, (gates_attested enforcing terminal _ "" rfl).1 hallow⟩

end SiloGates
