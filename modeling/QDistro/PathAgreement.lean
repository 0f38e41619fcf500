/-
# The two permission paths

`CheckPermission` and `RequestPermission` resolve a subject by the same rules and the
same cache, in code written twice.  Only the synchronous check keeps the cache away from
the action families reserved for rules, so the two agree except on a cached approval of
such an action.
-/
import QDistro.BrokerRefine

namespace Broker

open TransitionSystem

variable (cfg : Config) (env : Env)

/-! ## What each path answers -/

/-- The `(sandbox_engine, app_id)` the rules see for a call. -/
def callSelectors (sender : Sender) (details : Details) : String × String :=
  lineageSelectors cfg env (cfg.connPid sender) (selectorFromDetails details "sandbox_engine")
    (selectorFromDetails details "app_id")

/-- What decides a request of `RequestPermission` when it is filed. -/
def filedBasis (s : State) (sender : Sender) (action : String) (details : Details) : Option Basis :=
  enqueueBasis cfg env s (peerFiling cfg env sender action details) false
    (callSelectors cfg env sender details).2 (callSelectors cfg env sender details).1

/-- What decides a `CheckPermission`. -/
def checkBasis (s : State) (sender : Sender) (action : String) (details : Details) : Option Basis :=
  policyBasis cfg env s (peerFiling cfg env sender action details)
    (callSelectors cfg env sender details).2 (callSelectors cfg env sender details).1

/-- `RequestPermission`, run to its end. -/
def requestRun (s : State) (sender : Sender) (action : String) (details : Details) : List Action :=
  [.call env (.requestPermission sender action details), .resume env s.tasks.length,
    .resume env s.tasks.length]

/-- The decision on the request that `RequestPermission` files. -/
def filedDecision (s : State) (sender : Sender) (action : String) (details : Details) :
    Option (Option Bool) :=
  ((run (step cfg) s (requestRun env s sender action details)).reqs s.nextId).map
    fun r => r.decision

/-- The verdict that `CheckPermission` returns. -/
def checkVerdict (s : State) (sender : Sender) (action : String) (details : Details) :
    Option Verdict :=
  match (step cfg s (.call env (.checkPermission sender action details))).trace.head? with
  | some (.checked v) => some v
  | _ => none

/-- The two paths answer alike, and no cached approval decides a reserved action. -/
structure PathsAgree (s : State) (sender : Sender) (action : String) (details : Details) :
    Prop where
  allow : filedDecision cfg env s sender action details = some (some true)
    ↔ checkVerdict cfg env s sender action details = some .allow
  deny : filedDecision cfg env s sender action details = some (some false)
    ↔ checkVerdict cfg env s sender action details = some .deny
  pending : filedDecision cfg env s sender action details = some none
    ↔ checkVerdict cfg env s sender action details = some .unknown
  reserved : rulesOnly action = true → ∀ row sandboxed,
    filedBasis cfg env s sender action details ≠ some (.cached row sandboxed)
      ∧ checkBasis cfg env s sender action details ≠ some (.cached row sandboxed)

/-- A cached approval answers a reserved action on which the rules are silent. -/
structure ReservedHit (s : State) (sender : Sender) (action : String) (details : Details)
    (row : CacheRow) : Prop where
  reserved : rulesOnly action = true
  noRule : matchRules s.rules (ruleQuery cfg (peerFiling cfg env sender action details) details
    (callSelectors cfg env sender details).2 (callSelectors cfg env sender details).1) none = none
  found : lookupDetail s.cache (wholeSeconds env.now) (cfg.connUid sender) action
    (env.procIdentity (cfg.connPid sender)).1 (argvFromDetails cfg.udb details) false
    (cacheSandboxed env (cfg.connPid sender)) = some row

/-! ## The two resolutions side by side -/

variable {cfg} in
theorem ruleQuery_withSelectors (f : Filing) (details : Details) (app engine app' engine' : String) :
    ruleQuery cfg f (withSelectors details app' engine') app engine
      = ruleQuery cfg f details app engine := by
  have hmime : selectorFromDetails (withSelectors details app' engine') "mime_type"
      = selectorFromDetails details "mime_type" := by
    rw [selectorFromDetails, withSelectors, PyDict.get?_insert_of_ne _ _ (by decide),
      PyDict.get?_insert_of_ne _ _ (by decide), selectorFromDetails]
  rw [ruleQuery, ruleQuery, hmime, argvFromDetails_withSelectors]

theorem checkBasis_eq (s : State) (sender : Sender) (action : String) (details : Details) :
    checkBasis cfg env s sender action details
      = match filedBasis cfg env s sender action details with
        | some (.cached row sandboxed) =>
          if rulesOnly action then none else some (.cached row sandboxed)
        | b => b := by
  rw [checkBasis, policyBasis, filedBasis, enqueueBasis]
  rw [ruleQuery_withSelectors, argvFromDetails_withSelectors]
  simp only [Bool.false_eq_true, if_false]
  rw [show (peerFiling cfg env sender action details).details = details from rfl,
    show (peerFiling cfg env sender action details).action = action from rfl,
    show (peerFiling cfg env sender action details).delegated = false from rfl]
  cases matchRules s.rules (ruleQuery cfg (peerFiling cfg env sender action details) details
      (callSelectors cfg env sender details).2 (callSelectors cfg env sender details).1) none with
  | some r => rfl
  | none =>
    dsimp only
    rw [cacheBasis]
    cases lookupDetail s.cache (wholeSeconds env.now)
        (peerFiling cfg env sender action details).uid
        (peerFiling cfg env sender action details).action
        (peerFiling cfg env sender action details).exe (argvFromDetails cfg.udb details) false
        (cacheSandboxed env (peerFiling cfg env sender action details).pid) with
    | none => simp
    | some row => rfl

theorem filedBasis_cases (s : State) (sender : Sender) (action : String) (details : Details) :
    filedBasis cfg env s sender action details = none
      ∨ (∃ r, filedBasis cfg env s sender action details = some (.rule r))
      ∨ ∃ row sandboxed, filedBasis cfg env s sender action details
          = some (.cached row sandboxed) := by
  rw [filedBasis, enqueueBasis]
  split
  · exact Or.inr (Or.inl ⟨_, rfl⟩)
  · simp only [Bool.false_eq_true, if_false]
    rw [cacheBasis]
    cases lookupDetail s.cache (wholeSeconds env.now)
        (peerFiling cfg env sender action details).uid
        (peerFiling cfg env sender action details).action
        (peerFiling cfg env sender action details).exe
        (argvFromDetails cfg.udb (peerFiling cfg env sender action details).details)
        (peerFiling cfg env sender action details).delegated
        (cacheSandboxed env (peerFiling cfg env sender action details).pid) with
    | none => exact Or.inl rfl
    | some row => exact Or.inr (Or.inr ⟨row, _, rfl⟩)

/-! ## Running the two paths -/

theorem noteLineage_frame (s : State) (f : Filing) (engine app : String) :
    ∃ trace, noteLineage cfg env s f engine app = { s with trace := trace } := by
  rw [noteLineage]
  split
  · exact ⟨_, rfl⟩
  · exact ⟨_, rfl⟩

variable {cfg env}

theorem recordVerdict_of_audit (haudit : ∀ row, env.auditOk row = true) (row : AuditRow) :
    recordVerdict cfg env row = if row.decision then .allow else .deny := by
  rw [recordVerdict, haudit]
  rfl

/-- The verdict of a basis. -/
def basisVerdict : Option Basis → Verdict
  | none => .unknown
  | some b => if b.allows then .allow else .deny

theorem basisVerdict_iff (b : Option Basis) :
    (b.map Basis.allows = some true ↔ basisVerdict b = .allow)
      ∧ (b.map Basis.allows = some false ↔ basisVerdict b = .deny)
      ∧ (b.map Basis.allows = none ↔ basisVerdict b = .unknown) := by
  cases b with
  | none => simp [basisVerdict]
  | some b => cases hb : b.allows <;> simp [basisVerdict, hb]

variable {s : State} {sender : Sender} {action : String}

theorem checkVerdict_eq (details : Details) (hrate : env.rateOk (cfg.connUid sender) action = true)
    (haudit : ∀ row, env.auditOk row = true) :
    checkVerdict cfg env s sender action details
      = some (basisVerdict (checkBasis cfg env s sender action details)) := by
  obtain ⟨trace, hnote⟩ := noteLineage_frame cfg env s
    (peerFiling cfg env sender action details) (selectorFromDetails details "sandbox_engine")
    (selectorFromDetails details "app_id")
  have hverdict : (decideCheck cfg env { s with trace := trace }
      (peerFiling cfg env sender action details) (callSelectors cfg env sender details).2
      (callSelectors cfg env sender details).1).2
        = basisVerdict (checkBasis cfg env s sender action details) := by
    rw [decideCheck, show policyBasis cfg env { s with trace := trace }
      (peerFiling cfg env sender action details) (callSelectors cfg env sender details).2
      (callSelectors cfg env sender details).1
        = checkBasis cfg env s sender action details from rfl]
    cases checkBasis cfg env s sender action details with
    | none => rfl
    | some b =>
      dsimp only
      rw [recordVerdict_of_audit haudit, basisRow_decision]
      rfl
  rw [checkVerdict, step, callStep, checkPermission]
  simp only [show (peerFiling cfg env sender action details).uid = cfg.connUid sender from rfl,
    hrate, Bool.not_true, Bool.false_eq_true, if_false, hnote]
  rw [← hverdict]
  rfl

/-- What `_enqueue` holds for a call of `RequestPermission` when it creates the request. -/
def requestFrame (cfg : Config) (env : Env) (s : State) (sender : Sender) (action : String)
    (details : Details) : EnqueueFrame :=
  { filing :=
      { peerFiling cfg env sender action details with
        details := withSelectors (sanitizeDetails cfg.udb details)
          (callSelectors cfg env sender details).2 (callSelectors cfg env sender details).1 }
    raw := details
    polkit := false
    pre := filedBasis cfg env s sender action details }

theorem step_requestPermission (details : Details)
    (hrate : env.rateOk (cfg.connUid sender) action = true) :
    ∃ trace, step cfg s (.call env (.requestPermission sender action details))
      = { s with trace := trace }.push
          (.enqueueCreate (requestFrame cfg env s sender action details)) := by
  obtain ⟨trace, hnote⟩ := noteLineage_frame cfg env s
    (peerFiling cfg env sender action details) (selectorFromDetails details "sandbox_engine")
    (selectorFromDetails details "app_id")
  refine ⟨trace, ?_⟩
  rw [step, callStep, requestPermission, enqueueBegin]
  simp only [show (peerFiling cfg env sender action details).uid = cfg.connUid sender from rfl,
    show (peerFiling cfg env sender action details).action = action from rfl,
    show (peerFiling cfg env sender action details).details = details from rfl,
    show (peerFiling cfg env sender action details).oneShot = false from rfl,
    hrate, Bool.not_true, Bool.false_eq_true, if_false, Bool.false_and, Bool.not_false,
    Bool.true_or, Bool.and_self, if_true, hnote]
  rfl

theorem startHook_frame (s : State) (rid : ℕ) (oneShot : Bool) :
    (startHook cfg env s rid oneShot).reqs = s.reqs
      ∧ (startHook cfg env s rid oneShot).tasks = s.tasks := by
  rw [startHook]
  split
  · exact ⟨rfl, rfl⟩
  · exact ⟨rfl, rfl⟩

theorem enqueueCreate_none {fr : EnqueueFrame} (hpolkit : fr.polkit = false)
    (hpre : fr.pre = none) :
    (enqueueCreate cfg env s fr).tasks = s.tasks
      ∧ ∃ r, (enqueueCreate cfg env s fr).reqs s.nextId = some r ∧ r.decision = none := by
  rw [enqueueCreate, polkitConflict, hpolkit, hpre]
  simp only [Bool.not_false, if_true, emit_tasks, emit_reqs, startHook_frame]
  exact ⟨rfl, _, create_reqs_self s _ _ _, rfl⟩

theorem enqueueCreate_some {fr : EnqueueFrame} {b : Basis} (hpolkit : fr.polkit = false)
    (hpre : fr.pre = some b) (hb : b ≠ .cancelled) :
    ∃ s1 : State, enqueueCreate cfg env s fr = s1.push (.enqueueRecord s.nextId b)
      ∧ s1.tasks = s.tasks ∧ ∃ r, s1.reqs s.nextId = some r ∧ r.decision = some b.allows := by
  refine ⟨(s.create { fr.filing with createdAt := env.now } fr.raw (some b.allows)).emit
    (.decided s.nextId b.allows b), ?_, rfl, _, create_reqs_self s _ fr.raw _, rfl⟩
  rw [enqueueCreate, polkitConflict, hpolkit, hpre]
  cases b with
  | cancelled => exact absurd rfl hb
  | _ => rfl

theorem enqueueRecord_decision (haudit : ∀ row, env.auditOk row = true) {rid : ℕ} {r : Request}
    {b : Basis} {allowed : Bool} (hr : s.reqs rid = some r) (hd : r.decision = some allowed) :
    ((enqueueRecord cfg env s rid b).reqs rid).map (fun r => r.decision) = some (some allowed) := by
  rw [enqueueRecord, hr]
  dsimp only
  rw [recordVerdict_of_audit haudit, basisRow_decision, hd]
  rw [emit_reqs, setStatus_reqs_self (s := s.audit env _) hr]
  cases allowed <;> rfl

theorem filedDecision_eq (details : Details) (hrate : env.rateOk (cfg.connUid sender) action = true)
    (haudit : ∀ row, env.auditOk row = true) :
    filedDecision cfg env s sender action details
      = some ((filedBasis cfg env s sender action details).map Basis.allows) := by
  obtain ⟨trace, hcall⟩ := step_requestPermission (s := s) details hrate
  rw [filedDecision, requestRun, run_cons, run_cons, run_cons, run_nil, hcall]
  set s0 : State := { s with trace := trace }
  rw [step_resume_push (show s.tasks.length = s0.tasks.length from rfl), taskStep]
  cases hpre : filedBasis cfg env s sender action details with
  | none =>
    obtain ⟨htasks, r, hr, hd⟩ :
      (enqueueCreate cfg env s0 (requestFrame cfg env s sender action details)).tasks = s.tasks
        ∧ ∃ r, (enqueueCreate cfg env s0 (requestFrame cfg env s sender action details)).reqs
          s.nextId = some r ∧ r.decision = none := enqueueCreate_none rfl hpre
    rw [step_resume_none _ (by rw [htasks]), hr, Option.map_some, hd]
    rfl
  | some b =>
    have hb : b ≠ .cancelled := by
      rcases filedBasis_cases cfg env s sender action details with
        h | ⟨r, h⟩ | ⟨row, sandboxed, h⟩
      all_goals
        rw [hpre] at h
        simp_all
    obtain ⟨s1, hcreate, htasks, r, hr, hd⟩ :
      ∃ s1 : State, enqueueCreate cfg env s0 (requestFrame cfg env s sender action details)
          = s1.push (.enqueueRecord s.nextId b)
        ∧ s1.tasks = s.tasks ∧ ∃ r, s1.reqs s.nextId = some r ∧ r.decision = some b.allows :=
      enqueueCreate_some rfl hpre hb
    rw [hcreate, step_resume_push (by rw [htasks]), taskStep]
    exact enqueueRecord_decision haudit hr hd

/-! ## Agreement -/

/-- A filed request is decided by a cached row exactly when the rules are silent and the
lookup finds it. -/
theorem reservedHit_iff {details : Details} {row : CacheRow} :
    ReservedHit cfg env s sender action details row
      ↔ rulesOnly action = true ∧ filedBasis cfg env s sender action details
          = some (.cached row (cacheSandboxed env (cfg.connPid sender))) := by
  rw [filedBasis, enqueueBasis]
  simp only [Bool.false_eq_true, if_false]
  constructor
  · rintro ⟨hres, hrule, hfound⟩
    refine ⟨hres, ?_⟩
    rw [show (peerFiling cfg env sender action details).details = details from rfl, hrule]
    dsimp only
    rw [cacheBasis]
    dsimp only [peerFiling]
    rw [hfound]
    rfl
  · rintro ⟨hres, hbasis⟩
    split at hbasis
    · exact absurd hbasis (by simp)
    · next hrule =>
      rw [cacheBasis, Option.map_eq_some_iff] at hbasis
      obtain ⟨row', hrow, heq⟩ := hbasis
      injection heq with heq _
      exact ⟨hres, hrule, heq ▸ hrow⟩

theorem filedBasis_sandboxed {details : Details} {row : CacheRow} {sandboxed : Bool}
    (h : filedBasis cfg env s sender action details = some (.cached row sandboxed)) :
    sandboxed = cacheSandboxed env (cfg.connPid sender) := by
  rw [filedBasis, enqueueBasis] at h
  split at h
  · exact absurd h (by simp)
  · simp only [Bool.false_eq_true, if_false] at h
    rw [cacheBasis, Option.map_eq_some_iff] at h
    obtain ⟨row', -, heq⟩ := h
    injection heq with _ heq
    exact heq.symm

/-- **The two paths agree** on every subject, rule set and cache, with a working audit
log, if and only if no cached approval answers a reserved action on which the rules are
silent. -/
theorem paths_agree_iff (cfg : Config) (env : Env) (s : State) (sender : Sender) (action : String)
    (details : Details) (hrate : env.rateOk (cfg.connUid sender) action = true)
    (haudit : ∀ row, env.auditOk row = true) :
    PathsAgree cfg env s sender action details
      ↔ ¬ ∃ row, ReservedHit cfg env s sender action details row := by
  have hfiled := filedDecision_eq (s := s) details hrate haudit
  have hcheck := checkVerdict_eq (s := s) details hrate haudit
  have hbasis := checkBasis_eq cfg env s sender action details
  constructor
  · rintro hagree ⟨row, hhit⟩
    obtain ⟨hres, hrow⟩ := reservedHit_iff.mp hhit
    exact (hagree.reserved hres row _).1 hrow
  · intro hno
    -- without such an approval the two resolutions are the same
    have hsame : checkBasis cfg env s sender action details
        = filedBasis cfg env s sender action details := by
      rw [hbasis]
      split
      · next row sandboxed hrow =>
        cases hres : rulesOnly action with
        | false => simp [hrow]
        | true =>
          have hhit := reservedHit_iff.mpr ⟨hres, filedBasis_sandboxed hrow ▸ hrow⟩
          exact absurd ⟨row, hhit⟩ hno
      · rfl
    rw [hsame] at hcheck
    obtain ⟨hallow, hdeny, hopen⟩ := basisVerdict_iff (filedBasis cfg env s sender action details)
    refine ⟨?_, ?_, ?_, fun hres row sandboxed => ?_⟩
    · rw [hfiled, hcheck, Option.some.injEq, Option.some.injEq, hallow]
    · rw [hfiled, hcheck, Option.some.injEq, Option.some.injEq, hdeny]
    · rw [hfiled, hcheck, Option.some.injEq, Option.some.injEq, hopen]
    · rw [hsame, and_self]
      intro hrow
      exact hno ⟨row, reservedHit_iff.mpr ⟨hres, filedBasis_sandboxed hrow ▸ hrow⟩⟩

/-- On an action that is not reserved the two paths agree. -/
theorem paths_agree_iff_mount :
    PathsAgree sampleConfig (sampleEnv 0 true) (State.init [] []) alice "disk.mount" ∅ := by
  refine (paths_agree_iff sampleConfig (sampleEnv 0 true) (State.init [] []) alice "disk.mount" ∅
    rfl fun _ => rfl).mpr ?_
  rintro ⟨row, hhit⟩
  exact absurd hhit.reserved (by decide)

/-- A blanket approval of a tier launch. -/
def tierRow : CacheRow :=
  { id := 1, callerUid := 1000, action := "qdistro.tier1.spawn:shell", matchKind := .always
    matchValue := "", argv := "", decision := true, expiresAt := none, createdAt := 0
    approverUid := 1000, scope := some "forever" }

/-- `RequestPermission` is decided by the cached approval that `CheckPermission` ignores. -/
theorem tier_launch_disagrees :
    ¬ PathsAgree sampleConfig (sampleEnv 0 true) (State.init [] [tierRow]) alice
        "qdistro.tier1.spawn:shell" ∅ := by
  intro hagree
  have hfiled : filedDecision sampleConfig (sampleEnv 0 true) (State.init [] [tierRow]) alice
      "qdistro.tier1.spawn:shell" ∅ = some (some true) := by decide
  exact absurd (hagree.allow.mp hfiled) (by decide)

end Broker
