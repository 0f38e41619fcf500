/-
# The methods make only the listed moves

Each section of each method is shown to be a chain of moves, from any state that
satisfies the invariant.  `step_moves` assembles them, and `run_invariant` is the rule
by which a property of moves becomes a property of runs.
-/
import QDistro.BrokerInvariant
import QDistro.TransitionSystem

namespace Broker

open TransitionSystem List

variable {cfg : Config} {d : Discipline} {env : Env}

/-! ## Small chains -/

theorem moves_quiet (s : State) {e : Event} (h : e.quiet = true) : Moves cfg d s (s.emit e) :=
  .single (.quiet s e h)

theorem moves_audit (s : State) (env : Env) (row : AuditRow) :
    Moves cfg d s (s.audit env row) := by
  rw [State.audit]
  split
  · exact moves_quiet s rfl
  · exact moves_quiet s rfl

theorem moves_raise (s : State) (name message : String) : Moves cfg d s (s.raise name message) :=
  moves_quiet s rfl

theorem moves_noteLineage (s : State) (f : Filing) (engine app : String) :
    Moves cfg d s (noteLineage cfg env s f engine app) := by
  rw [noteLineage]
  split
  · exact moves_audit s env _
  · exact .refl

theorem moves_decideCheck (s : State) (f : Filing) (app engine : String) :
    Moves cfg d s (decideCheck cfg env s f app engine).1 := by
  rw [decideCheck]
  split
  · exact .refl
  · exact moves_audit s env _

theorem moves_checkPermission (s : State) (sender : Sender) (action : String) (details : Details) :
    Moves cfg d s (checkPermission cfg env s sender action details) := by
  rw [checkPermission]
  dsimp only
  split
  · exact moves_raise s _ _
  · exact ((moves_noteLineage s _ _ _).trans (moves_decideCheck _ _ _ _)).trans
      (moves_quiet _ rfl)

variable {s : State} {i : ℕ}

theorem moves_drop {t : Task} (hi : s.tasks[i]? = some t) (ho : t.owner = none) :
    Moves cfg d s { s with tasks := s.tasks.eraseIdx i } :=
  .single (.drop s i t hi ho)

/-! ## Filing -/

theorem clean_withSelectors (f : Filing) (raw : Details) (app engine : String) :
    CleanDetails cfg
      { f with details := withSelectors (sanitizeDetails cfg.udb raw) app engine } raw := by
  rw [CleanDetails]
  exact argvFromDetails_withSelectors _ _ _

variable {f : Filing}

theorem blindSafe_cacheBasis {argv : Option (List String)} {delegated : Bool} {b : Basis}
    (h : cacheBasis env s f argv delegated = some b) :
    BlindSafe delegated b := by
  rw [cacheBasis, Option.map_eq_some_iff] at h
  obtain ⟨row, hrow, rfl⟩ := h
  exact fun hskip => lookupDetail_argvBlind hrow hskip

theorem enqueueBasis_spec {polkit : Bool} {app engine : String} {b : Basis}
    (h : enqueueBasis cfg env s f polkit app engine = some b) :
    BlindSafe f.delegated b ∧ b ≠ .hook ∧ b ≠ .prompt ∧ b ≠ .polkit := by
  rw [enqueueBasis] at h
  split at h
  · injection h with h
    subst h
    exact ⟨trivial, by simp, by simp, by simp⟩
  · split at h
    · exact absurd h (by simp)
    · refine ⟨blindSafe_cacheBasis h, ?_⟩
      rw [cacheBasis, Option.map_eq_some_iff] at h
      obtain ⟨row, -, rfl⟩ := h
      exact ⟨by simp, by simp, by simp⟩

theorem moves_retireForeignMark (hm : d.marks s.cancelled (retireForeignMark s f).cancelled) :
    Moves cfg d s (retireForeignMark s f) := by
  rw [retireForeignMark] at hm ⊢
  split
  · exact .refl
  · next hc =>
    rw [if_neg hc] at hm
    exact .single (.marks s _ hm)

/-- A frame that `_enqueue` may leave for the filing. -/
structure FrameFor (s : State) (f : Filing) (polkit : Bool) (fr : EnqueueFrame) : Prop where
  cookie : fr.filing.polkitCookie = f.polkitCookie
  filedBy : fr.filing.filedBy = f.filedBy
  cancelled : polkit = true → filingCancelled s f = true → fr.pre = some .cancelled

theorem moves_enqueueBegin {polkit : Bool} (hs : SubjectOk cfg f)
    (hp : polkit = false → f.polkitCookie = "")
    (hm : polkit = true → env.rateOk f.uid f.action = true →
      d.marks s.cancelled (retireForeignMark s f).cancelled)
    (hpush : ∀ fr, FrameFor s f polkit fr → d.pushes (.enqueueCreate fr)) :
    Moves cfg d s (enqueueBegin cfg env s f polkit) := by
  rw [enqueueBegin]
  split
  · exact (moves_audit s env _).trans (moves_raise _ _ _)
  · next hrate =>
    dsimp only
    have hmark : Moves cfg d s (if polkit then retireForeignMark s f else s) := by
      split
      · next hpol => exact moves_retireForeignMark (hm hpol (by simpa using hrate))
      · exact .refl
    generalize (if polkit then retireForeignMark s f else s) = s1 at hmark
    split
    · next hconsult =>
      refine (hmark.trans (moves_noteLineage s1 f _ _)).tail (.push _ _ rfl ?_ (hpush _ ?_))
      · refine ⟨hs, hp, clean_withSelectors f f.details _ _, fun b hb => (enqueueBasis_spec hb).1,
          ?_⟩
        exact ⟨fun hb => (enqueueBasis_spec hb).2.1 rfl, fun hb => (enqueueBasis_spec hb).2.2.1 rfl,
          fun hb => (enqueueBasis_spec hb).2.2.2 rfl⟩
      · refine ⟨rfl, rfl, fun hpol hc => ?_⟩
        rw [hpol, hc] at hconsult
        exact absurd hconsult (by simp)
    · refine hmark.tail (.push _ _ rfl ⟨hs, hp, rfl, fun b hb => ?_, ?_⟩ (hpush _ ⟨rfl, rfl, ?_⟩))
      · split at hb
        · injection hb with hb
          subst hb
          trivial
        · exact absurd hb (by simp)
      · split <;> exact ⟨by simp, by simp, by simp⟩
      · intro hpol hc
        rw [hpol, hc]
        rfl

variable {cookie : String} {r : Request}

theorem firstFiled_eq_some (h : s.firstFiled cookie = some r) :
    ∃ rid ∈ s.pending, s.reqs rid = some r ∧ r.polkitCookie ≠ "" ∧ r.polkitCookie = cookie := by
  rw [State.firstFiled, Option.bind_eq_some_iff] at h
  obtain ⟨rid, hfind, hr⟩ := h
  have hp := find?_some hfind
  rw [hr, Option.any_some, Bool.and_eq_true, bne_iff_ne, beq_iff_eq] at hp
  exact ⟨rid, mem_of_find?_eq_some hfind, hr, hp.1, hp.2⟩

variable {rid : ℕ}

theorem firstFiled_isSome (hne : cookie ≠ "") (hrid : rid ∈ s.pending) (hr : s.reqs rid = some r)
    (hc : r.polkitCookie = cookie) : ∃ r', s.firstFiled cookie = some r' := by
  rw [State.firstFiled, State.findPending]
  cases hfind : s.pending.find? fun rid =>
      (s.reqs rid).any fun r => r.polkitCookie != "" && r.polkitCookie == cookie with
  | none =>
    have := find?_eq_none.mp hfind rid hrid
    rw [hr, Option.any_some, hc] at this
    simp [hne] at this
  | some rid' =>
    have hp := find?_some hfind
    cases hr' : s.reqs rid' with
    | none => rw [hr'] at hp; exact absurd hp (by simp)
    | some r' => exact ⟨r', by rw [Option.bind_some, hr']⟩

theorem Inv.filers_of_first (h : Inv cfg s) {name : String} (hne : cookie ≠ "")
    (hfirst : ∀ r, s.firstFiled cookie = some r → r.filedBy = name) :
    ∀ rid ∈ s.pending, ∀ r, s.reqs rid = some r → r.polkitCookie = cookie → r.filedBy = name := by
  intro rid hrid r hr hc
  obtain ⟨r1, hr1⟩ := firstFiled_isSome hne hrid hr hc
  obtain ⟨rid1, hrid1, hr1', hne1, hc1⟩ := firstFiled_eq_some hr1
  rw [← hfirst r1 hr1]
  exact h.filers rid1 hrid1 r1 hr1' hne1 rid hrid r hr (hc.trans hc1.symm)

theorem polkitConflict_none (h : Inv cfg s) {fr : EnqueueFrame} (hc : polkitConflict s fr = none)
    (hok : FrameOk cfg fr) (hne : fr.filing.polkitCookie ≠ "") :
    (∀ sender t, s.announced.get? fr.filing.polkitCookie = some (sender, t) →
        sender.name = fr.filing.filedBy)
      ∧ ∀ rid ∈ s.pending, ∀ r, s.reqs rid = some r →
        r.polkitCookie = fr.filing.polkitCookie → r.filedBy = fr.filing.filedBy := by
  rw [polkitConflict] at hc
  split at hc
  · next hp => exact absurd (hok.plain (by simpa using hp)) hne
  · split at hc
    · exact absurd hc (by simp)
    · next hann =>
      split at hc
      · exact absurd hc (by simp)
      · next hfirst =>
        refine ⟨fun sender t hb => ?_, h.filers_of_first hne fun r hr => ?_⟩
        · rw [hb, Option.any_some] at hann
          simpa using hann
        · rw [hr, Option.any_some] at hfirst
          simpa using hfirst

theorem moves_startHook (s : State) (rid : ℕ) (oneShot : Bool) :
    Moves cfg d s (startHook cfg env s rid oneShot) := by
  rw [startHook]
  split
  · exact .single (.tables s _ _ _)
  · exact moves_quiet s rfl

theorem moves_auditPolkitDeny (s : State) (rid : ℕ) (f : Filing) (source : String) :
    Moves cfg d s (auditPolkitDeny cfg env s rid f source) :=
  moves_audit s env _

theorem moves_enqueueCreate (h : Inv cfg s) {fr : EnqueueFrame} (hok : FrameOk cfg fr)
    (hf : d.files { fr.filing with createdAt := env.now } (fr.pre.map Basis.allows)) :
    Moves cfg d s (enqueueCreate cfg env s fr) := by
  rw [enqueueCreate]
  split
  · exact moves_raise s _ _
  · next hc =>
    have hann := fun hne => (polkitConflict_none h hc hok hne).1
    have hfiled := fun hne => (polkitConflict_none h hc hok hne).2
    -- the frame's facts do not depend on the creation time
    have hs : SubjectOk cfg { fr.filing with createdAt := env.now } := hok.subject
    have hclean : CleanDetails cfg { fr.filing with createdAt := env.now } fr.raw := hok.clean
    dsimp only
    split
    · next hpre =>
      rw [hpre] at hf ⊢
      refine .head (.create s _ fr.raw none (by simp) hs hclean hann hfiled hf) ?_
      exact (moves_startHook _ _ _).trans (moves_quiet _ rfl)
    · next hpre =>
      rw [hpre] at hf ⊢
      refine .head (.create s _ fr.raw (some false) (by simp) hs hclean hann hfiled hf) ?_
      refine .head (.decided _ s.nextId false .cancelled _ (create_reqs_self _ _ _ _)
        fun _ => trivial) ?_
      exact (moves_auditPolkitDeny _ _ _ _).trans (moves_quiet _ rfl)
    · next b _ hpre =>
      rw [hpre] at hf ⊢
      exact .single (.createDecided s _ fr.raw b hs hclean (hok.pinned b hpre) hann hfiled hf)

/-! ## Audited verdicts -/

theorem audited_mem {row : AuditRow} (h : env.auditOk row = true) :
    .audited row ∈ (s.audit env row).trace := by
  rw [State.audit, if_pos h]
  exact mem_cons_self

theorem recordVerdict_allow {row : AuditRow} (h : recordVerdict cfg env row = .allow) :
    row.decision = true ∧ (cfg.auditRequired = true → env.auditOk row = true) := by
  rw [recordVerdict] at h
  split at h
  · exact absurd h (by simp)
  · next hok =>
    split at h
    · next hd =>
      refine ⟨hd, fun hreq => ?_⟩
      simpa [hreq] using hok
    · exact absurd h (by simp)

/-- The row names the subject and the action of the filing. -/
structure RowFor (row : AuditRow) (f : Filing) : Prop where
  uid : row.callerUid = f.uid
  pid : row.callerPid = f.pid
  action : row.action = f.action

theorem allowAudited_record {row : AuditRow} (hrow : RowFor row f) :
    AllowAudited cfg (s.audit env row) f (recordVerdict cfg env row == .allow) := by
  intro hv hreq
  obtain ⟨hd, hok⟩ := recordVerdict_allow (beq_iff_eq.mp hv)
  exact ⟨row, audited_mem (hok hreq), hd, hrow.uid, hrow.pid, hrow.action⟩

theorem basisRow_decision (f : Filing) (details : Details) (b : Basis) (allowed : Bool)
    (rid : Option ℕ) : (basisRow cfg f details b allowed rid).decision = allowed := by
  cases b <;> rfl

theorem basisRow_for (f : Filing) (details : Details) (b : Basis) (allowed : Bool)
    (rid : Option ℕ) : RowFor (basisRow cfg f details b allowed rid) f := by
  cases b <;> exact ⟨rfl, rfl, rfl⟩

theorem moves_enqueueRecord (h : Inv cfg s) {basis : Basis}
    (hi : s.tasks[i]? = some (.enqueueRecord rid basis))
    (hsteady : d.steady → ∀ r, s.reqs rid = some r → r.decision = some true →
      cfg.auditRequired = true →
        env.auditOk (basisRow cfg r.toFiling r.details basis true (some rid)) = true) :
    Moves cfg d s (enqueueRecord cfg env { s with tasks := s.tasks.eraseIdx i } rid basis) := by
  obtain ⟨r, hr, hdec, -⟩ := h.tasks _ (mem_of_getElem? hi)
  obtain ⟨b0, hb0⟩ := Option.ne_none_iff_exists'.mp hdec
  have hrow : RowFor (basisRow cfg r.toFiling r.details basis b0 (some rid)) r.toFiling :=
    basisRow_for _ _ _ _ _
  rw [enqueueRecord]
  dsimp only
  rw [hr]
  dsimp only
  rw [hb0, Option.getD_some]
  refine (moves_audit s env (basisRow cfg r.toFiling r.details basis b0 (some rid))).tail
    (.record _ i rid basis r _ hi hr (fun hv => ?_) (fun hst => ?_) (allowAudited_record hrow))
    |>.tail (.quiet _ _ rfl)
  · have := (recordVerdict_allow (beq_iff_eq.mp hv)).1
    rw [basisRow_decision] at this
    rw [hb0, this]
  · cases b0 with
    | false =>
      rw [recordVerdict, basisRow_decision]
      split <;> exact hb0
    | true =>
      have hok := hsteady hst r hr hb0
      rw [recordVerdict, basisRow_decision, if_neg]
      · exact hb0
      · cases hreq : cfg.auditRequired with
        | false => simp
        | true => rw [hok hreq]; simp

/-! ## Waiting -/

theorem getPending_eq_some (h : s.getPending rid = some r) :
    rid ∈ s.pending ∧ s.reqs rid = some r := by
  rw [State.getPending] at h
  split at h
  · next hmem => exact ⟨hmem, h⟩
  · exact absurd h (by simp)

theorem moves_waitForDecision (s : State) (sender : Sender) (rid : ℕ) :
    Moves cfg d s (waitForDecision cfg s sender rid) := by
  rw [waitForDecision]
  split
  · exact moves_quiet s rfl
  · next r hr =>
    have hreq := (getPending_eq_some hr).2
    dsimp only
    split
    · exact moves_raise s _ _
    · split
      · next b hd hf => exact .single (.answerNow s rid r b hreq hd hf)
      · next hne =>
        refine .single (.park s rid r hreq ?_)
        rintro ⟨hd, hf⟩
        obtain ⟨b, hb⟩ := Option.ne_none_iff_exists'.mp hd
        exact hne b hb hf

/-! ## Responding -/

/-- A response that the broker may send for a decided request. -/
structure ResponseFor (s : State) (r : Request) (p : PolkitResponse) : Prop where
  owner : p.owner = r.filedBy
  cookie : p.cookie = r.polkitCookie
  live : polkitCookieCancelled s r.polkitCookie r.filedBy = false

theorem moves_respondPolkit (s : State) (r : Request)
    (ha : cfg.auditRequired = true → AuditedAllow s.trace r.uid r.pid r.action)
    (hp : ∀ p, ResponseFor s r p → d.responds p) :
    Moves cfg d s (respondPolkit s r) := by
  rw [respondPolkit]
  split
  · exact .refl
  · next hlive =>
    split
    · exact .refl
    · exact .single (.responded s _ ha (by simp) (hp _ ⟨rfl, rfl, by simpa using hlive⟩))

/-! ## Deciding -/

theorem moves_decideCallerGone (hr : s.reqs rid = some r) (hd : r.decision = none) (admin : ℤ) :
    Moves cfg d s (decideCallerGone env s rid r admin) := by
  rw [decideCallerGone]
  have haudit : Moves cfg d s (s.audit env
      { callerUid := r.uid, callerPid := r.pid, callerExe := r.exe, action := r.action
        decision := false, scope := none, source := "prompt caller_gone"
        approverUid := some admin, requestId := some rid }) := moves_audit s env _
  refine (((haudit.tail (.decided _ rid false .prompt r hr fun _ => trivial)).tail
    (.quiet _ (.requestDecided rid false) rfl)).tail (.settle _ rid r false hr hd ?_)).tail
    (.quiet _ _ rfl)
  simp [AllowAudited]

theorem moves_decideLocked (s : State) (admin : ℤ) (rid : ℕ) (allowed : Bool) (sc : Scope) :
    Moves cfg d s (decideLocked cfg env s admin rid allowed sc) := by
  rw [decideLocked]
  split
  · exact moves_quiet s rfl
  · next r hr =>
    have hreq := (getPending_eq_some hr).2
    split
    · exact moves_quiet s rfl
    · next hd =>
      split
      · exact moves_raise s _ _
      · split
        · exact moves_decideCallerGone hreq hd admin
        · exact .head (.decided s rid allowed .prompt r hreq fun _ => trivial)
            (.single (.beginDecide _
              ⟨rid, allowed, sc, admin, argvFromDetails cfg.udb r.details, r.waiters⟩ r hreq hd
              rfl rfl))

theorem moves_decideRequest (s : State) (sender : Sender) (rid : ℕ) (decision scope : String) :
    Moves cfg d s (decideRequest cfg env s sender rid decision scope) := by
  rw [decideRequest]
  split
  · exact moves_raise s _ _
  · split
    · exact moves_raise s _ _
    · exact moves_raise s _ _
    · exact moves_decideLocked s _ _ _ _

theorem moves_decideAudit (h : Inv cfg s) {f : DecideFrame}
    (hi : s.tasks[i]? = some (.decideAudit f)) :
    Moves cfg d s (decideAudit cfg env { s with tasks := s.tasks.eraseIdx i } f) := by
  obtain ⟨r, hr, hdec, hfin, hargv⟩ := h.tasks _ (mem_of_getElem? hi)
  rw [decideAudit]
  dsimp only
  rw [hr]
  dsimp only
  refine (moves_audit s env (promptRow r f)).tail (.advance _ i _ _ f hi rfl ?_ ?_)
  · split <;> rfl
  · split
    · exact ⟨r, hr, hdec, hfin, hargv⟩
    · next hok =>
      refine ⟨r, hr, hdec, hfin, hargv, fun hall hreq => ?_⟩
      have hwritten : env.auditOk (promptRow r f) = true := by simpa [hreq] using hok
      exact ⟨promptRow r f, audited_mem hwritten, hall, rfl, rfl, rfl⟩

theorem moves_storeApproval {f : DecideFrame} (hr : s.reqs f.rid = some r)
    (hargv : f.cacheArgv = argvFromDetails cfg.udb r.details)
    (ha : AllowAudited cfg s r.toFiling f.allowed) :
    Moves cfg d s (storeApproval env s r f).1 := by
  rw [storeApproval]
  split
  · next hcond =>
    have hall : f.allowed = true := by
      rw [Bool.and_eq_true] at hcond
      exact hcond.1
    split
    · exact .refl
    · next row hrow =>
      rw [hall, hargv] at hrow
      split
      · refine .head (.tables s s.rules (s.cache ++ [row]) s.hookPending) ?_
        exact .single (.stored _ f.rid f.scope row r hr (hall ▸ ha) ⟨_, _, _, hrow⟩)
      · exact .refl
  · exact .refl

theorem storeApproval_frame (s : State) (r : Request) (f : DecideFrame) :
    ∃ cache trace, (∀ e ∈ s.trace, e ∈ trace)
      ∧ (storeApproval env s r f).1 = { s with cache := cache, trace := trace } := by
  rw [storeApproval]
  split
  · split
    · exact ⟨_, _, fun _ h => h, rfl⟩
    · split
      · exact ⟨_, _, fun _ h => mem_cons_of_mem _ h, rfl⟩
      · exact ⟨_, _, fun _ h => h, rfl⟩
  · exact ⟨_, _, fun _ h => h, rfl⟩

theorem storeApproval_tasks (s : State) (r : Request) (f : DecideFrame) (ts : List Task) :
    storeApproval env { s with tasks := ts } r f
      = ({ (storeApproval env s r f).1 with tasks := ts }, (storeApproval env s r f).2) := by
  rw [storeApproval, storeApproval]
  by_cases hcond : (f.allowed && !r.oneShot) = true
  · rw [if_pos hcond, if_pos hcond]
    dsimp only
    cases storeRow s.cache (wholeSeconds env.now) r.uid r.action r.exe f.scope f.allowed f.adminUid
        f.cacheArgv with
    | none => rfl
    | some row => cases env.storeOk <;> rfl
  · rw [if_neg hcond, if_neg hcond]

theorem respondPolkit_tasks (s : State) (r : Request) (ts : List Task) :
    respondPolkit { s with tasks := ts } r = { respondPolkit s r with tasks := ts } := by
  rw [respondPolkit, respondPolkit]
  by_cases hc : polkitCookieCancelled s r.polkitCookie r.filedBy = true
  · rw [if_pos hc]
    exact if_pos hc
  · rw [if_neg hc]
    refine (if_neg hc).trans ?_
    cases pickPolkitIdentity r.polkitIdentities r.uid <;> rfl

theorem respondPolkit_frame (s : State) (r : Request) :
    ∃ trace, (∀ e ∈ s.trace, e ∈ trace) ∧ respondPolkit s r = { s with trace := trace } := by
  rw [respondPolkit]
  split
  · exact ⟨_, fun _ h => h, rfl⟩
  · split
    · exact ⟨_, fun _ h => h, rfl⟩
    · exact ⟨_, fun _ h => mem_cons_of_mem _ h, rfl⟩

theorem moves_decidePublish (h : Inv cfg s) {f : DecideFrame}
    (hi : s.tasks[i]? = some (.decidePublish f))
    (hp : ∀ r p, s.reqs f.rid = some r → ResponseFor s r p → d.responds p) :
    Moves cfg d s (decidePublish env { s with tasks := s.tasks.eraseIdx i } f) := by
  obtain ⟨r, hr, hdec, hfin, hargv, ha⟩ := h.tasks _ (mem_of_getElem? hi)
  rw [decidePublish]
  dsimp only
  rw [hr]
  dsimp only
  rw [storeApproval_tasks]
  obtain ⟨cache, trace, htrace, hstore⟩ : ∃ cache trace, (∀ e ∈ s.trace, e ∈ trace)
      ∧ (storeApproval env s r f).1 = { s with cache := cache, trace := trace } :=
    storeApproval_frame s r f
  have hmoves : Moves cfg d s (storeApproval env s r f).1 := moves_storeApproval hr hargv ha
  generalize (storeApproval env s r f).2 = cachedOk
  rw [hstore] at hmoves ⊢
  have ha1 : AllowAudited cfg { s with cache := cache, trace := trace } r.toFiling f.allowed :=
    ha.mono htrace
  -- the response, if one is due, is sent while the decision is still provisional
  split
  · next hresp =>
    have hall : f.allowed = true := by
      rw [Bool.and_eq_true] at hresp
      exact hresp.1
    have hrespond := moves_respondPolkit (d := d) { s with cache := cache, trace := trace } r
      (fun hreq => ha1 hall hreq) fun p hfor => hp r p hr ⟨hfor.owner, hfor.cookie, hfor.live⟩
    obtain ⟨trace', htrace', heq⟩ := respondPolkit_frame { s with cache := cache, trace := trace } r
    have hcomm := respondPolkit_tasks { s with cache := cache, trace := trace } r
      (s.tasks.eraseIdx i)
    rw [heq] at hrespond hcomm
    rw [hcomm]
    exact (hmoves.trans hrespond).tail (.advance _ i _ _ f hi rfl rfl
      ⟨r, hr, hdec, hfin, hargv, ha1.mono htrace'⟩)
  · exact hmoves.tail (.advance _ i _ _ f hi rfl rfl ⟨r, hr, hdec, hfin, hargv, ha1⟩)

theorem moves_decideFinalise {f : DecideFrame} {cachedOk : Bool}
    (hi : s.tasks[i]? = some (.decideFinalise f cachedOk)) :
    Moves cfg d s (decideFinalise { s with tasks := s.tasks.eraseIdx i } f cachedOk) :=
  ((Relation.ReflTransGen.single (.finalise s i f cachedOk hi)).tail
    (.quiet _ (.requestDecided f.rid f.allowed) rfl)).tail (.quiet _ _ rfl)

theorem moves_decideDowngrade {f : DecideFrame} {error : String}
    (hi : s.tasks[i]? = some (.decideDowngrade f error)) :
    Moves cfg d s (decideDowngrade { s with tasks := s.tasks.eraseIdx i } f error) :=
  ((Relation.ReflTransGen.single (.downgrade s i f error hi)).tail
    (.quiet _ (.requestDecided f.rid false) rfl)).tail (.quiet _ _ rfl)

/-! ## Hooks -/

theorem hookRow_for (f : Filing) (rid : ℕ) (verdict reason : String) (valid : Bool) :
    RowFor (hookRow cfg f rid verdict reason valid) f :=
  ⟨rfl, rfl, rfl⟩

theorem hookDecisionRow_for (f : Filing) (rid : ℕ) (recheck : Option Basis × Bool)
    (verdict reason : String) : RowFor (hookDecisionRow cfg f rid recheck verdict reason) f := by
  rw [hookDecisionRow]
  split
  · exact basisRow_for _ _ _ _ _
  · exact hookRow_for _ _ _ _ _

theorem moves_hookNote (s : State) (f : Filing) : Moves cfg d s (hookNote cfg env s f) := by
  rw [hookNote]
  split
  · exact moves_noteLineage _ _ _ _
  · exact .refl

theorem hookNote_frame (s : State) (f : Filing) :
    ∃ trace, hookNote cfg env s f = { s with trace := trace } := by
  rw [hookNote]
  split
  · rw [noteLineage]
    split
    · exact ⟨_, rfl⟩
    · exact ⟨_, rfl⟩
  · exact ⟨_, rfl⟩

theorem hookRecheck_trace (s : State) (f : Filing) (trace : List Event) :
    hookRecheck cfg env { s with trace := trace } f = hookRecheck cfg env s f := rfl

theorem blindSafe_hookRecheck {b : Basis} (h : (hookRecheck cfg env s f).1 = some b) :
    BlindSafe false b := by
  rw [hookRecheck] at h
  split at h
  · rw [policyBasis] at h
    split at h
    · injection h with h
      subst h
      trivial
    · split at h
      · exact absurd h (by simp)
      · exact blindSafe_cacheBasis h
  · exact absurd h (by simp)

theorem moves_hookDecide (hr : s.reqs rid = some r) (hd : r.decision = none)
    (verdict reason : String)
    (hpin : d.pinned → ∀ b, (hookRecheck cfg env s r.toFiling).1 = some b →
      BlindSafe r.delegated b) :
    Moves cfg d s (hookDecide cfg env s rid r verdict reason) := by
  have hnote : Moves cfg d s (hookNote cfg env s r.toFiling) := moves_hookNote s r.toFiling
  obtain ⟨trace, heq⟩ : ∃ trace, hookNote cfg env s r.toFiling = { s with trace := trace } :=
    hookNote_frame s r.toFiling
  rw [hookDecide]
  rw [heq] at hnote ⊢
  rw [hookRecheck_trace]
  generalize hrow : hookDecisionRow cfg r.toFiling rid (hookRecheck cfg env s r.toFiling) verdict
    reason = row
  have hfor : RowFor row r.toFiling := hrow ▸ hookDecisionRow_for _ _ _ _ _
  have haudit := hnote.trans (moves_audit { s with trace := trace } env row)
  have ha : AllowAudited cfg (State.audit { s with trace := trace } env row) r.toFiling
      (recordVerdict cfg env row == .allow) := allowAudited_record hfor
  generalize (recordVerdict cfg env row == .allow) = allowed at ha ⊢
  refine haudit.trans (.head (.decided _ rid allowed
    ((hookRecheck cfg env s r.toFiling).1.getD .hook) r hr fun hp => ?_) ?_)
  · cases hb : (hookRecheck cfg env s r.toFiling).1 with
    | none => trivial
    | some b => exact hpin hp b hb
  · split
    · next hcond =>
      have hall : allowed = true := by
        rw [Bool.and_eq_true] at hcond
        exact hcond.1
      subst hall
      exact .single (.hold _ rid r hr hd (ha.mono fun _ h => mem_cons_of_mem _ h))
    · refine .head (.quiet _ (.requestDecided rid allowed) rfl) (.single ?_)
      exact .settle _ rid r allowed hr hd
        (ha.mono fun _ h => mem_cons_of_mem _ (mem_cons_of_mem _ h))

/-- No hook completion decides a delegated request by an argv-blind row: the undelegated
lookup that the re-check makes does not end on one. -/
def HookPinned (cfg : Config) (env : Env) (s : State) (rid : ℕ) (response : HookResponse) : Prop :=
  ∀ r row sandboxed verdict reason, rid ∈ s.hookPending → s.getPending rid = some r →
    r.decision = none → r.delegated = true → response = some (verdict, reason) →
    (verdict = "allow" ∨ verdict = "deny") →
    (hookRecheck cfg env s r.toFiling).1 = some (.cached row sandboxed) →
    row.matchKind.argvBlind = false

theorem moves_applyHook {response : HookResponse}
    (hpin : d.pinned → HookPinned cfg env s rid response) :
    Moves cfg d s (applyHook cfg env s rid response) := by
  rw [applyHook]
  split
  · next hmem =>
    refine .head (.tables s s.rules s.cache (s.hookPending.erase rid)) ?_
    dsimp only
    split
    · exact .refl
    · next r hr =>
      have hreq := (getPending_eq_some hr).2
      split
      · exact .refl
      · next hopen =>
        have hd : r.decision = none := by simpa using hopen
        split
        · next verdict reason =>
          split
          · next hv =>
            refine moves_hookDecide hreq hd verdict reason fun hp b hb => ?_
            cases b with
            | cached row sandboxed =>
              rintro (hdel | hsand)
              · exact hpin hp r row sandboxed verdict reason hmem hr hd hdel rfl hv hb
              · exact blindSafe_hookRecheck hb (Or.inr hsand)
            | _ => trivial
          · exact moves_quiet _ rfl
        · exact moves_quiet _ rfl
  · exact .refl

theorem moves_hookRelease (h : Inv cfg s) {ws : List Waiter}
    (hi : s.tasks[i]? = some (.hookRelease rid ws))
    (hp : ∀ r p, s.reqs rid = some r → ResponseFor s r p → d.responds p) :
    Moves cfg d s (hookRelease { s with tasks := s.tasks.eraseIdx i } rid ws) := by
  obtain ⟨r, hr, hdec, hfin, ha⟩ := h.tasks _ (mem_of_getElem? hi)
  rw [hookRelease]
  dsimp only
  rw [hr]
  dsimp only
  have hrespond : Moves cfg d s (respondPolkit s r) :=
    moves_respondPolkit s r (fun hreq => ha rfl hreq) fun p hfor => hp r p hr hfor
  obtain ⟨trace, -, heq⟩ := respondPolkit_frame s r
  rw [respondPolkit_tasks, heq]
  rw [heq] at hrespond
  exact (hrespond.tail (.quiet _ (.requestDecided rid true) rfl)).tail (.release _ i rid ws hi)

/-! ## The polkit relay -/

theorem moves_requirePolkitAgent {body : State} (sender : Sender) (method : String)
    (h : env.polkitPeer sender = none → Moves cfg d s body) :
    Moves cfg d s (requirePolkitAgent env s sender method body) := by
  rw [requirePolkitAgent]
  split
  · exact moves_raise s _ _
  · next hpeer => exact h hpeer

theorem moves_prunePolkitMarks (hm : d.marks s.cancelled (prunePolkitMarks env s).cancelled) :
    Moves cfg d s (prunePolkitMarks env s) :=
  .head (.marks s (s.cancelled.filter fun e => freshMark env.now e.2.time) hm)
    (.single (.unbind _ fun e => freshMark env.now e.2.2))

theorem repositionMark_frame (s : State) (cookie : String) :
    ∃ cancelled, repositionMark s cookie = { s with cancelled := cancelled } := by
  rw [repositionMark]
  split
  · exact ⟨_, rfl⟩
  · exact ⟨_, rfl⟩

theorem moves_announceLocked (h : Inv cfg s) (sender : Sender) (hne : cookie ≠ "")
    (hm : d.marks s.cancelled (repositionMark s cookie).cancelled) :
    Moves cfg d s (announceLocked env s sender cookie) := by
  rw [announceLocked]
  split
  · exact moves_raise s _ _
  · split
    · exact moves_raise s _ _
    · next hfirst =>
      have hfirst' : ∀ r, s.firstFiled cookie = some r → r.filedBy = sender.name := by
        intro r hr
        rw [hr, Option.any_some] at hfirst
        simpa using hfirst
      have hfiled := h.filers_of_first hne hfirst'
      obtain ⟨cancelled, heq⟩ := repositionMark_frame s cookie
      rw [heq] at hm ⊢
      refine .head (.marks s cancelled hm) ?_
      dsimp only
      split
      · exact .refl
      · split
        · exact moves_raise _ _ _
        · exact .single (.bind _ sender cookie _ hne hfiled)

theorem moves_announcePolkitAuth (h : Inv cfg s) (sender : Sender) (cookie : String)
    (hm : env.polkitPeer sender = none → cookie ≠ "" →
      d.marks s.cancelled (prunePolkitMarks env s).cancelled
        ∧ d.marks (prunePolkitMarks env s).cancelled
          (repositionMark (prunePolkitMarks env s) cookie).cancelled) :
    Moves cfg d s (announcePolkitAuth env s sender cookie) := by
  refine moves_requirePolkitAgent sender _ fun hpeer => ?_
  split
  · exact .refl
  · next hne =>
    have hprune : Moves cfg d s (prunePolkitMarks env s) := moves_prunePolkitMarks (hm hpeer hne).1
    exact hprune.trans (moves_announceLocked (h.moves hprune) sender hne (hm hpeer hne).2)

theorem findPending_eq_some {p : Request → Bool} (h : s.findPending p = some rid) :
    rid ∈ s.pending ∧ ∃ r, s.reqs rid = some r ∧ p r = true := by
  have hp := find?_some h
  refine ⟨mem_of_find?_eq_some h, ?_⟩
  cases hr : s.reqs rid with
  | none => rw [hr] at hp; exact absurd hp (by simp)
  | some r => rw [hr, Option.any_some] at hp; exact ⟨r, rfl, hp⟩

variable {sender : Sender}

theorem Inv.owned (h : Inv cfg s)
    (hown : (((s.findPending fun r => r.polkitCookie == cookie).bind s.reqs).any fun r =>
        r.filedBy == sender.name) = true
      ∨ ((s.announced.get? cookie).any fun b => b.1 == sender) = true) :
    Introduced s.trace sender.name cookie
      ∧ ∀ rid, (s.findPending fun r => r.polkitCookie == cookie) = some rid →
        ∃ r, s.reqs rid = some r ∧ r.filedBy = sender.name := by
  rcases hown with hfiled | hbound
  · cases hfind : s.findPending fun r => r.polkitCookie == cookie with
    | none => rw [hfind] at hfiled; exact absurd hfiled (by simp)
    | some rid =>
      obtain ⟨-, r, hr, hc⟩ := findPending_eq_some hfind
      rw [hfind, Option.bind_some, hr, Option.any_some, beq_iff_eq] at hfiled
      obtain ⟨raw, hraw⟩ := h.filed rid r hr
      refine ⟨Or.inr ⟨rid, r.toFiling, raw, hraw, hfiled, beq_iff_eq.mp hc⟩, ?_⟩
      intro rid' hrid'
      injection hrid' with hrid'
      exact hrid' ▸ ⟨r, hr, hfiled⟩
  · cases hann : s.announced.get? cookie with
    | none => rw [hann] at hbound; exact absurd hbound (by simp)
    | some b =>
      obtain ⟨sender', t⟩ := b
      rw [hann, Option.any_some, beq_iff_eq] at hbound
      have hsame : sender' = sender := hbound
      subst hsame
      refine ⟨Or.inl ⟨sender', rfl, (h.announced cookie sender' t hann).2⟩, fun rid hrid => ?_⟩
      obtain ⟨hmem, r, hr, hc⟩ := findPending_eq_some hrid
      exact ⟨r, hr, h.bound cookie sender' t hann rid hmem r hr (beq_iff_eq.mp hc)⟩

theorem moves_respondPolkitAuth (h : Inv cfg s) (sender : Sender) (cookie : String)
    (identities : List PolkitIdentity)
    (hpush : (s.cancelled.get? cookie).any (fun m => m.senders.contains sender) = false →
      ∀ exe req, d.pushes (.respondRelay sender exe cookie identities req)) :
    Moves cfg d s (respondPolkitAuth cfg env s sender cookie identities) := by
  refine moves_requirePolkitAgent sender _ fun _ => ?_
  dsimp only
  split
  · exact moves_quiet s rfl
  · next hlive =>
    split
    · exact moves_raise s _ _
    · next hown =>
      refine .single (.push s _ rfl (h.owned ?_) (hpush (by simpa using hlive) _ _))
      rwa [Bool.not_eq_true, Bool.not_eq_eq_eq_not, Bool.not_false, Bool.or_eq_true] at hown

theorem Sender.eq_of_name {a b : Sender} (h : a.name = b.name) : a = b := by
  cases a
  cases b
  simpa using h

theorem Inv.subject_of_filedBy (h : Inv cfg s) (hr : s.reqs rid = some r)
    (hby : r.filedBy = sender.name) :
    r.uid = cfg.connUid sender ∧ r.pid = cfg.connPid sender := by
  obtain ⟨sender', hname, huid, hpid⟩ := h.subject rid r hr (by rw [hby]; exact sender.nonempty)
  have hsame := Sender.eq_of_name (hname.symm.trans hby)
  exact ⟨hsame ▸ huid, hsame ▸ hpid⟩

theorem moves_respondRelay (h : Inv cfg s) {exe : String} {identities : List PolkitIdentity}
    {req : Option ℕ} (hok : TaskOk cfg s (.respondRelay sender exe cookie identities req))
    (hp : ∀ p : PolkitResponse, p.owner = sender.name → p.cookie = cookie → d.responds p)
    (hpush : ∀ rid, d.pushes (.respondResolve rid)) :
    Moves cfg d s (respondRelay cfg env s sender exe cookie identities req) := by
  rw [respondRelay]
  dsimp only
  split
  · exact moves_quiet s rfl
  · split
    · exact moves_raise s _ _
    · next identity _ =>
      generalize hrow : relayRow cfg s sender exe cookie identity req = row
      have haudit : Moves cfg d s (s.audit env row) := moves_audit s env row
      split
      · exact haudit.trans (moves_raise _ _ _)
      · next hfail =>
        have hwritten : cfg.auditRequired = true →
            AuditedAllow (s.audit env row).trace (cfg.connUid sender) (cfg.connPid sender)
              row.action := by
          intro hreq
          have hok : env.auditOk row = true := by simpa [hreq] using hfail
          subst hrow
          exact ⟨_, audited_mem hok, rfl, rfl, rfl, rfl⟩
        have hsend := haudit.tail (.responded (d := d) _
          { owner := sender.name, uid := cfg.connUid sender, pid := cfg.connPid sender
            action := row.action, cookie := cookie, identity := identity, relayed := true }
          hwritten (fun _ => hok.1.mono fun _ hm => mem_cons_of_mem _ hm) (hp _ rfl rfl))
        split
        · exact hsend.trans (moves_raise _ _ _)
        · split
          · next _ rid _ _ =>
            refine hsend.tail (.push _ _ rfl ?_ (hpush rid))
            obtain ⟨r, hr, hby⟩ := hok.2 rid rfl
            obtain ⟨huid, hpid⟩ := h.subject_of_filedBy hr hby
            refine ⟨r, hr, fun _ hreq => ?_⟩
            have haction : row.action = r.action := by
              rw [← hrow, relayRow]
              simp only [Option.bind_some, hr, Option.map_some, Option.getD_some]
            have hthis := hwritten hreq
            rw [← huid, ← hpid, haction] at hthis
            exact hthis.mono fun _ hm => mem_cons_of_mem _ hm
          · exact hsend.trans (moves_quiet _ rfl)

theorem moves_respondResolve (hok : TaskOk cfg s (.respondResolve rid)) :
    Moves cfg d s (respondResolve s rid) := by
  obtain ⟨r, hr, ha⟩ := hok
  rw [respondResolve, hr]
  dsimp only
  have hsettle : Moves cfg d s (if r.decision = none then
      settle (s.emit (.decided rid true .polkit)) rid true else s) := by
    split
    · next hd =>
      refine .head (.decided s rid true .polkit r hr fun _ => trivial) (.single ?_)
      exact .settle _ rid r true hr hd (ha.mono fun _ hm => mem_cons_of_mem _ hm)
    · exact .refl
  split
  · exact hsettle.trans (moves_quiet _ rfl)
  · exact hsettle

/-- The mark that a cancel leaves, given the marks after pruning: the sender joins the
mark there is, which keeps its time, or a new one is made. -/
structure NotedMark (now : Time) (marks : PyDict String CancelMark) (sender : Sender)
    (cookie : String) (m : CancelMark) : Prop where
  named : sender ∈ m.senders
  kept : ∀ old, marks.get? cookie = some old →
    m.time = old.time ∧ ∀ x ∈ old.senders, x ∈ m.senders
  fresh : marks.get? cookie = none → m.time = now

theorem moves_noteCancelled {exe : String}
    (hm : cookie ≠ "" → d.marks s.cancelled (prunePolkitMarks env s).cancelled
      ∧ ∀ m, NotedMark env.now (prunePolkitMarks env s).cancelled sender cookie m →
        d.marks (prunePolkitMarks env s).cancelled
          ((prunePolkitMarks env s).cancelled.insert cookie m))
    (hpush : d.pushes (.cancelHits sender exe cookie)) :
    Moves cfg d s (noteCancelled env s sender exe cookie) := by
  rw [noteCancelled]
  split
  · exact .single (.push s _ rfl trivial hpush)
  · next hne =>
    obtain ⟨hm1, hm2⟩ := hm hne
    have hprune : Moves cfg d s (prunePolkitMarks env s) := moves_prunePolkitMarks hm1
    dsimp only
    split
    · next hnone =>
      split
      · exact hprune.trans (moves_raise _ _ _)
      · refine (hprune.tail (.marks _ _ (hm2 _ ?_))).tail (.push _ _ rfl trivial hpush)
        exact ⟨mem_singleton_self _, fun old hold => absurd (hnone.symm.trans hold) (by simp),
          fun _ => rfl⟩
    · next m hsome =>
      refine (hprune.tail (.marks _ _ (hm2 _ ?_))).tail (.push _ _ rfl trivial hpush)
      refine ⟨?_, fun old hold => ?_, fun hnone => absurd (hsome.symm.trans hnone) (by simp)⟩
      · dsimp only
        split
        · next hmem => exact hmem
        · exact mem_append_right _ (mem_singleton_self _)
      · rw [hsome] at hold
        injection hold with hold
        subst hold
        refine ⟨rfl, fun x hx => ?_⟩
        dsimp only
        split
        · exact hx
        · exact mem_append_left _ hx

theorem moves_denyPolkit (hr : s.reqs rid = some r) (hd : r.decision = none) (source : String) :
    Moves cfg d s (denyPolkit cfg env source s rid) := by
  rw [denyPolkit, hr]
  dsimp only
  have hdecided : Moves cfg d s (s.emit (.decided rid false .polkit)) :=
    .single (.decided s rid false .polkit r hr fun _ => trivial)
  refine ((hdecided.trans (moves_auditPolkitDeny _ rid r.toFiling source)).tail
    (.settle _ rid r false hr hd ?_)).tail (.quiet _ (.requestDecided rid false) rfl)
  simp [AllowAudited]

theorem moves_cancelRequest (sender : Sender) (cookie : String) (s : State) (rid : ℕ) :
    Moves cfg d s (cancelRequest cfg env sender cookie s rid) := by
  rw [cancelRequest]
  split
  · next hhit =>
    cases hr : s.reqs rid with
    | none => rw [hr] at hhit; exact absurd hhit (by simp)
    | some r =>
      rw [hr, Option.any_some, cancelHit] at hhit
      simp only [Bool.and_eq_true, beq_iff_eq] at hhit
      exact moves_denyPolkit hr hhit.1.2 _
  · exact .refl

theorem moves_foldl {α : Type*} {g : State → α → State} (hg : ∀ s a, Moves cfg d s (g s a))
    (l : List α) (s : State) : Moves cfg d s (l.foldl g s) := by
  induction l generalizing s with
  | nil => exact .refl
  | cons a rest ih => exact (hg s a).trans (ih _)

theorem moves_cancelHits (s : State) (sender : Sender) (exe cookie : String) :
    Moves cfg d s (cancelHits cfg env s sender exe cookie) := by
  have hunbind : Moves cfg d s (releaseBinding s sender cookie) := by
    rw [releaseBinding]
    split
    · exact .single (.unbind s _)
    · exact .refl
  rw [cancelHits]
  split
  · exact hunbind.trans (moves_audit _ _ _)
  · exact hunbind.trans (moves_foldl (moves_cancelRequest sender cookie) _ _)

/-! ## Reaping -/

theorem moves_reapRequest (s : State) (rid : ℕ) : Moves cfg d s (reapRequest cfg env s rid) := by
  rw [reapRequest]
  split
  · exact .refl
  · next r hr =>
    split
    · next hd =>
      split
      · exact (moves_denyPolkit hr hd _).tail (.stamp _ rid _)
      · exact .refl
    · next hd =>
      split
      · exact .refl
      · split
        · exact .single (.stamp s rid _)
        · split
          · exact .single (.reap s rid r hr (by rw [hd]; simp))
          · exact .refl

/-! ## Every step -/

/-- The condition under which no audited re-record changes a decision: the audit row of
a request that is being recorded as allowed can be written. -/
def RecordSteady (cfg : Config) (env : Env) (s : State) (rid : ℕ) (basis : Basis) : Prop :=
  ∀ r, s.reqs rid = some r → r.decision = some true → cfg.auditRequired = true →
    env.auditOk (basisRow cfg r.toFiling r.details basis true (some rid)) = true

/-- How a call may change the table of cancel marks, one move at a time. -/
def MarkChange (cfg : Config) (env : Env) (s : State) :
    Call → PyDict String CancelMark → PyDict String CancelMark → Prop
  | .requestPolkitAuth sender action _ cookie _, old, new =>
    env.polkitPeer sender = none ∧ env.rateOk (cfg.connUid sender) action = true
      ∧ old = s.cancelled ∧ ∃ f : Filing, f.polkitCookie = cookie ∧ f.filedBy = sender.name
        ∧ new = (retireForeignMark s f).cancelled
  | .announcePolkitAuth sender cookie, old, new =>
    env.polkitPeer sender = none ∧ cookie ≠ ""
      ∧ (old = s.cancelled ∧ new = (prunePolkitMarks env s).cancelled
        ∨ old = (prunePolkitMarks env s).cancelled
          ∧ new = (repositionMark (prunePolkitMarks env s) cookie).cancelled)
  | .cancelPolkitAuth sender cookie, old, new =>
    env.polkitPeer sender = none ∧ cookie ≠ ""
      ∧ (old = s.cancelled ∧ new = (prunePolkitMarks env s).cancelled
        ∨ old = (prunePolkitMarks env s).cancelled
          ∧ ∃ m, NotedMark env.now old sender cookie m ∧ new = old.insert cookie m)
  | _, _, _ => False

/-- What a call may leave in progress without owning a decision. -/
def CallPushes (s : State) : Call → Task → Prop
  | .requestPermission .., t | .requestPermissionAs .., t =>
    ∃ fr, t = .enqueueCreate fr ∧ fr.filing.polkitCookie = ""
  | .requestPolkitAuth sender _ _ cookie _, t =>
    ∃ fr f, t = .enqueueCreate fr ∧ FrameFor s f true fr ∧ f.polkitCookie = cookie
      ∧ f.filedBy = sender.name
  | .respondPolkitAuth sender cookie identities, t =>
    (s.cancelled.get? cookie).any (fun m => m.senders.contains sender) = false
      ∧ ∃ exe req, t = .respondRelay sender exe cookie identities req
  | .cancelPolkitAuth sender cookie, t => ∃ exe, t = .cancelHits sender exe cookie
  | _, _ => False

/-- The responses a method in progress may send. -/
def TaskResponds (s : State) : Task → PolkitResponse → Prop
  | .decidePublish f, p => ∃ r, s.reqs f.rid = some r ∧ ResponseFor s r p
  | .hookRelease rid _, p => ∃ r, s.reqs rid = some r ∧ ResponseFor s r p
  | .respondRelay sender _ cookie _ _, p => p.owner = sender.name ∧ p.cookie = cookie
  | _, _ => False

/-- A call that the discipline allows. -/
structure CallAllowed (cfg : Config) (env : Env) (d : Discipline) (s : State) (c : Call) :
    Prop where
  pinned : d.pinned → ∀ rid response, c = .applyHook rid response →
    HookPinned cfg env s rid response
  marks : ∀ old new, MarkChange cfg env s c old new → d.marks old new
  pushes : ∀ t, CallPushes s c t → d.pushes t

/-- A continuation that the discipline allows. -/
structure TaskAllowed (cfg : Config) (env : Env) (d : Discipline) (s : State) (t : Task) :
    Prop where
  steady : d.steady → ∀ rid basis, t = .enqueueRecord rid basis → RecordSteady cfg env s rid basis
  files : ∀ fr, t = .enqueueCreate fr →
    d.files { fr.filing with createdAt := env.now } (fr.pre.map Basis.allows)
  responds : ∀ p, TaskResponds s t p → d.responds p
  pushes : ∀ rid, d.pushes (.respondResolve rid)

/-- A step that the discipline allows. -/
def Discipline.allows (cfg : Config) (d : Discipline) (s : State) : Action → Prop
  | .call env c => CallAllowed cfg env d s c
  | .resume env i => ∀ t, s.tasks[i]? = some t → TaskAllowed cfg env d s t

theorem subject_peerFiling (sender : Sender) (action : String) (details : Details) :
    SubjectOk cfg (peerFiling cfg env sender action details) := by
  intro h
  exact absurd rfl h

theorem moves_call (h : Inv cfg s) (c : Call) (hok : CallAllowed cfg env d s c) :
    Moves cfg d s (callStep cfg env s c) := by
  cases c with
  | requestPermission sender action details =>
    exact moves_enqueueBegin (subject_peerFiling sender action details) (fun _ => rfl) (by simp)
      fun fr hfor => hok.pushes _ ⟨fr, rfl, hfor.cookie⟩
  | requestPermissionAs sender uid pid exe action details =>
    rw [callStep, requestPermissionAs]
    split
    · exact moves_raise s _ _
    · split
      · exact moves_raise s _ _
      · exact moves_enqueueBegin (fun hne => absurd rfl hne) (fun _ => rfl) (by simp)
          fun fr hfor => hok.pushes _ ⟨fr, rfl, hfor.cookie⟩
  | requestPolkitAuth sender action details cookie identities =>
    refine moves_requirePolkitAgent sender _ fun hpeer => moves_enqueueBegin (fun _ => ?_)
      (by simp) (fun _ hrate => ?_) fun fr hfor => hok.pushes _ ⟨fr, _, rfl, hfor, rfl, rfl⟩
    · exact ⟨sender, rfl, rfl, rfl⟩
    · exact hok.marks _ _ ⟨hpeer, hrate, rfl, _, rfl, rfl, rfl⟩
  | announcePolkitAuth sender cookie =>
    exact moves_announcePolkitAuth h sender cookie fun hpeer hne =>
      ⟨hok.marks _ _ ⟨hpeer, hne, Or.inl ⟨rfl, rfl⟩⟩, hok.marks _ _ ⟨hpeer, hne, Or.inr ⟨rfl, rfl⟩⟩⟩
  | respondPolkitAuth sender cookie identities =>
    exact moves_respondPolkitAuth h sender cookie identities fun hlive exe req =>
      hok.pushes _ ⟨hlive, exe, req, rfl⟩
  | cancelPolkitAuth sender cookie =>
    exact moves_requirePolkitAgent sender _ fun hpeer => moves_noteCancelled
      (fun hne => ⟨hok.marks _ _ ⟨hpeer, hne, Or.inl ⟨rfl, rfl⟩⟩, fun m hnoted =>
        hok.marks _ _ ⟨hpeer, hne, Or.inr ⟨rfl, m, hnoted, rfl⟩⟩⟩)
      (hok.pushes _ ⟨_, rfl⟩)
  | waitForDecision sender rid => exact moves_waitForDecision s sender rid
  | decideRequest sender rid decision scope => exact moves_decideRequest s sender rid decision scope
  | checkPermission sender action details => exact moves_checkPermission s sender action details
  | applyHook rid response => exact moves_applyHook fun hp => hok.pinned hp rid response rfl
  | reapPending => exact moves_foldl moves_reapRequest s.pending s
  | reloadRules rules => exact .single (.tables s rules s.cache s.hookPending)
  | deleteApproval id => exact .single (.tables s s.rules _ s.hookPending)
  | deleteApprovalsOf uid => exact .single (.tables s s.rules _ s.hookPending)
  | gcApprovals => exact .single (.tables s s.rules _ s.hookPending)

theorem moves_resume (h : Inv cfg s) {t : Task} (hi : s.tasks[i]? = some t)
    (hok : TaskAllowed cfg env d s t) :
    Moves cfg d s (taskStep cfg env { s with tasks := s.tasks.eraseIdx i } t) := by
  have htask := h.tasks t (mem_of_getElem? hi)
  cases t with
  | enqueueCreate f =>
    have hdrop : Moves cfg d s _ := moves_drop hi rfl
    exact hdrop.trans (moves_enqueueCreate (h.moves hdrop) htask (hok.files f rfl))
  | enqueueRecord rid basis =>
    exact moves_enqueueRecord h hi fun hst => hok.steady hst rid basis rfl
  | decideAudit f => exact moves_decideAudit h hi
  | decideDowngrade f error => exact moves_decideDowngrade hi
  | decidePublish f =>
    exact moves_decidePublish h hi fun r p hr hfor => hok.responds p ⟨r, hr, hfor⟩
  | decideFinalise f cachedOk => exact moves_decideFinalise hi
  | hookRelease rid ws =>
    exact moves_hookRelease h hi fun r p hr hfor => hok.responds p ⟨r, hr, hfor⟩
  | respondRelay sender exe cookie identities req =>
    have hdrop : Moves cfg d s _ := moves_drop hi rfl
    exact hdrop.trans (moves_respondRelay (h.moves hdrop) htask
      (fun p howner hcookie => hok.responds p ⟨howner, hcookie⟩) hok.pushes)
  | respondResolve rid => exact (moves_drop hi rfl).trans (moves_respondResolve htask)
  | cancelHits sender exe cookie => exact (moves_drop hi rfl).trans (moves_cancelHits _ _ _ _)

/-- **Every step of the broker is a chain of moves.** -/
theorem step_moves (h : Inv cfg s) {a : Action} (hok : d.allows cfg s a) :
    Moves cfg d s (step cfg s a) := by
  cases a with
  | call env c => exact moves_call h c hok
  | resume env i =>
    rw [step]
    split
    · exact .refl
    · next t ht => exact moves_resume h ht (hok t ht)

theorem step_resume_push {t : Task} {n : ℕ} (hn : n = s.tasks.length) :
    step cfg (s.push t) (.resume env n) = taskStep cfg env s t := by
  subst hn
  have hget : (s.push t).tasks[s.tasks.length]? = some t := getElem?_concat_length
  have herase : (s.push t).tasks.eraseIdx s.tasks.length = s.tasks := by
    rw [push_tasks, eraseIdx_append_of_length_le le_rfl, Nat.sub_self]
    exact append_nil _
  rw [step, hget]
  dsimp only
  rw [herase]
  rfl

theorem step_resume_none (s : State) {n : ℕ} (h : s.tasks.length ≤ n) :
    step cfg s (.resume env n) = s := by
  rw [step, getElem?_eq_none h]

/-! ## Properties of runs -/

/-- What every move preserves holds after every run whose steps, taken where it holds, keep
the discipline. -/
theorem run_invariant {P : State → Prop} {ok : State → Action → Prop}
    (hmove : ∀ s s', Inv cfg s → Move cfg d s s' → P s → P s')
    (hallow : ∀ s a, ok s a → Inv cfg s → P s → d.allows cfg s a) {as : List Action}
    (hm : Meets (step cfg) ok s as) (h0 : Inv cfg s) (hp : P s) :
    Inv cfg (run (step cfg) s as) ∧ P (run (step cfg) s as) := by
  refine hm.invariant (P := fun s => Inv cfg s ∧ P s) (fun s a hok ⟨hinv, hps⟩ => ?_) ⟨h0, hp⟩
  have hchain : ∀ s1, Moves cfg d s s1 → Inv cfg s1 ∧ P s1 := by
    intro s1 hmoves
    induction hmoves with
    | refl => exact ⟨hinv, hps⟩
    | tail _ m ih => exact ⟨ih.1.move m, hmove _ _ ih.1 m ih.2⟩
  exact hchain _ (step_moves hinv (hallow s a hok hinv hps))

/-- The discipline that asks for nothing. -/
def Discipline.free : Discipline := {}

theorem Discipline.free_allows (s : State) (a : Action) : Discipline.free.allows cfg s a := by
  cases a with
  | call env c =>
    exact ⟨fun hf => absurd hf not_false, fun _ _ _ => trivial, fun _ _ => trivial⟩
  | resume env i =>
    exact fun t _ => ⟨fun hf => absurd hf not_false, fun _ _ => trivial, fun _ _ => trivial,
      fun _ => trivial⟩

theorem run_invariant_free {P : State → Prop}
    (hmove : ∀ s s', Inv cfg s → Move cfg Discipline.free s s' → P s → P s') (as : List Action)
    (h0 : Inv cfg s) (hp : P s) :
    Inv cfg (run (step cfg) s as) ∧ P (run (step cfg) s as) :=
  run_invariant hmove (fun s a _ _ _ => Discipline.free_allows s a)
    (Meets.of_forall (fun _ _ => trivial) s as : Meets (step cfg) (fun _ _ => True) s as) h0 hp

end Broker
