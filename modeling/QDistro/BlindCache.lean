/-
# Blanket approvals and requests that must not use them

An argv-blind row (`always`, `exe_only`) answers whatever a caller runs.  A delegated
request, whose identity the broker never authenticated, and a sandboxed one must not be
decided by such a row.  The filing path passes both flags to the lookup.  The re-check
made when a hook answers passes the sandbox flag only.
-/
import QDistro.BrokerEffects

namespace Broker

open TransitionSystem

variable (cfg : Config) (env : Env)

/-- No request that was delegated, or sandboxed when the cache was consulted, has been
decided by an argv-blind row. -/
def NoBlindDecision (s : State) : Prop :=
  ∀ rid b row sandboxed r, .decided rid b (.cached row sandboxed) ∈ s.trace →
    s.reqs rid = some r → r.delegated = true ∨ sandboxed = true → row.matchKind.argvBlind = false

/-- The lookup that the re-check of a hook makes for a request ends on an argv-blind row:
the process and its selectors are unchanged, no rule matches, the action is not reserved
for rules, and the lookup without the delegation flag returns the row. -/
structure BlindRecheck (s : State) (f : Filing) (row : CacheRow) : Prop where
  identity : identityValid env f = true
  selectors : lineageSelectors cfg env f.pid (storedSelectors f).1 (storedSelectors f).2
    = storedSelectors f
  noRule : matchRules s.rules (ruleQuery cfg f
    (withSelectors f.details (storedSelectors f).2 (storedSelectors f).1)
    (storedSelectors f).2 (storedSelectors f).1) none = none
  notReserved : rulesOnly f.action = false
  found : lookupDetail s.cache (wholeSeconds env.now) f.uid f.action f.exe
    (argvFromDetails cfg.udb f.details) false (cacheSandboxed env f.pid) = some row
  blind : row.matchKind.argvBlind = true

/-- The hook's answer is not applied to an undecided delegated request that a blanket
approval would decide. -/
def HookSafe (s : State) : Action → Prop
  | .call env (.applyHook rid response) =>
    ∀ r verdict reason row, rid ∈ s.hookPending → s.getPending rid = some r →
      r.decision = none → r.delegated = true → response = some (verdict, reason) →
      verdict = "allow" ∨ verdict = "deny" → ¬ BlindRecheck cfg env s r.toFiling row
  | _ => True

variable {cfg env}

theorem hookRecheck_cached {s : State} {f : Filing} {row : CacheRow} {sandboxed : Bool}
    (h : (hookRecheck cfg env s f).1 = some (.cached row sandboxed))
    (hblind : row.matchKind.argvBlind = true) : BlindRecheck cfg env s f row := by
  rw [hookRecheck] at h
  split at h
  · next hvalid =>
    rw [Bool.and_eq_true, beq_iff_eq] at hvalid
    rw [hvalid.2, policyBasis] at h
    split at h
    · exact absurd h (by simp)
    · next hrule =>
      split at h
      · exact absurd h (by simp)
      · next hres =>
        rw [argvFromDetails_withSelectors, cacheBasis, Option.map_eq_some_iff] at h
        obtain ⟨row', hrow, heq⟩ := h
        injection heq with heq _
        exact ⟨hvalid.1, hvalid.2, hrule, by simpa using hres, heq ▸ hrow, hblind⟩
  · exact absurd h (by simp)

theorem hookPinned_of_hookSafe {s : State} {rid : ℕ} {response : HookResponse}
    (h : HookSafe cfg s (.call env (.applyHook rid response))) :
    HookPinned cfg env s rid response := by
  intro r row sandboxed verdict reason hmem hpend hd hdel hresp hv hcheck
  cases hblind : row.matchKind.argvBlind with
  | false => rfl
  | true =>
    exact absurd (hookRecheck_cached hcheck hblind)
      (h r verdict reason row hmem hpend hd hdel hresp hv)

/-- The discipline of runs that meet `HookSafe`. -/
def pinnedDiscipline : Discipline := { pinned := True }

theorem pinnedDiscipline_allows (s : State) (a : Action) (h : HookSafe cfg s a) :
    pinnedDiscipline.allows cfg s a := by
  cases a with
  | call env c =>
    refine ⟨fun _ rid response hc => ?_, fun _ _ _ => trivial, fun _ _ => trivial⟩
    subst hc
    exact hookPinned_of_hookSafe h
  | resume env i =>
    exact fun t _ => ⟨fun hf => absurd hf not_false, fun _ _ => trivial, fun _ _ => trivial,
      fun _ => trivial⟩

/-! ## Recorded decisions -/

/-- Every recorded decision is about a request, and respects its delegation flag. -/
def DecisionsSafe (s : State) : Prop :=
  ∀ rid b basis, .decided rid b basis ∈ s.trace →
    ∃ r, s.reqs rid = some r ∧ BlindSafe r.delegated basis

theorem DecisionsSafe.of_extends {s s' : State} (h : DecisionsSafe s) (he : Extends s s')
    (hnew : ∀ rid b basis, .decided rid b basis ∈ s'.trace → .decided rid b basis ∈ s.trace
      ∨ ∃ r, s'.reqs rid = some r ∧ BlindSafe r.delegated basis) : DecisionsSafe s' := by
  intro rid b basis hmem
  rcases hnew rid b basis hmem with hold | hsafe
  · obtain ⟨r, hr, hb⟩ := h rid b basis hold
    obtain ⟨r', hr', hfil⟩ := he.reqs rid r hr
    exact ⟨r', hr', hfil ▸ hb⟩
  · exact hsafe

theorem decided_of_cons {e : Event} {t : List Event} {rid : ℕ} {b : Bool} {basis : Basis}
    (h : Event.decided rid b basis ∈ e :: t) (he : e ≠ .decided rid b basis) :
    Event.decided rid b basis ∈ t := by
  rcases List.mem_cons.mp h with heq | hold
  · exact absurd heq.symm he
  · exact hold

theorem decided_of_answers {ws : List Waiter} {b' live : Bool} {t : List Event} {rid : ℕ} {b : Bool}
    {basis : Basis}
    (h : Event.decided rid b basis ∈ (ws.map fun w => Event.answered w b' live).reverse ++ t) :
    Event.decided rid b basis ∈ t := by
  rcases mem_answers h with ⟨w, -, heq⟩ | hold
  · exact absurd heq (by simp)
  · exact hold

theorem decisionsSafe_move {s s' : State} (h : Inv cfg s) (m : Move cfg pinnedDiscipline s s')
    (hs : DecisionsSafe s) : DecisionsSafe s' := by
  refine hs.of_extends (m.extends h) fun rid b basis hmem => ?_
  cases m with
  | quiet e he =>
    refine .inl (decided_of_cons hmem ?_)
    rintro rfl
    simp [Event.quiet] at he
  | decided rid' b' basis' r hr hsafe =>
    rcases List.mem_cons.mp hmem with heq | hold
    · injection heq with hrid hb hbasis
      subst hrid hbasis
      exact .inr ⟨r, hr, hsafe trivial⟩
    · exact .inl hold
  | stored | responded | bind | create | park =>
    exact .inl (decided_of_cons hmem (by simp))
  | createDecided f raw b' _ _ hb _ _ =>
    rcases List.mem_cons.mp hmem with heq | hold
    · injection heq with hrid _ hbasis
      subst hrid hbasis
      exact .inr ⟨_, create_reqs_self s f raw (some basis.allows), hb⟩
    · exact .inl (decided_of_cons hold (by simp))
  | answerNow => exact .inl (decided_of_cons (decided_of_cons hmem (by simp)) (by simp))
  | settle =>
    rw [Broker.settle, answer_trace] at hmem
    exact .inl (decided_of_answers hmem)
  | downgrade | finalise | release =>
    rw [answer_trace] at hmem
    exact .inl (decided_of_answers hmem)
  | tables | marks | unbind | record | beginDecide | hold | advance | push | drop | stamp | reap =>
    exact .inl hmem

/-- **No blanket decision.**  In every run that applies no hook's answer to an undecided
delegated request which a blanket approval would decide, no delegated or sandboxed request
is decided by an argv-blind row. -/
theorem no_blind_decision (cfg : Config) (rules : List Rule) (cache : List CacheRow)
    (as : List Action) (hm : Meets (step cfg) (HookSafe cfg) (State.init rules cache) as) :
    NoBlindDecision (run (step cfg) (State.init rules cache) as) := by
  have hrun := run_invariant (P := DecisionsSafe) (d := pinnedDiscipline)
    (fun _ _ hinv m hs => decisionsSafe_move hinv m hs)
    (fun s a hok _ _ => pinnedDiscipline_allows s a hok) hm (inv_init rules cache) (fun _ _ _ hmem => absurd hmem (by simp [State.init]))
  intro rid b row sandboxed r hmem hr hskip
  obtain ⟨r', hr', hsafe⟩ := hrun.2 rid b _ hmem
  rw [hr] at hr'
  injection hr' with hr'
  exact hsafe (hr' ▸ hskip)

/-! ## A blanket approval that decides a delegated request -/

/-- An approval of every `disk.mount` of uid 1000. -/
def blanketRow : CacheRow :=
  { id := 1, callerUid := 1000, action := "disk.mount", matchKind := .always, matchValue := ""
    argv := "", decision := true, expiresAt := none, createdAt := 0, approverUid := 1000
    scope := some "forever" }

/-- A delegated request is filed, and a hook denies it. -/
def delegatedHookRun : List Action :=
  [.call (sampleEnv 0 true)
      (.requestPermissionAs alice 1000 77 "/usr/bin/app" "disk.mount" ∅),
    .resume (sampleEnv 0 true) 0,
    .call (sampleEnv 0 true) (.applyHook 1 (some ("deny", "")))]

/-- Without the blanket approval the hook's answer is the one that counts. -/
theorem no_blind_decision_delegatedHookRun :
    NoBlindDecision (run (step sampleConfig) (State.init [] []) delegatedHookRun) := by
  refine no_blind_decision sampleConfig [] [] delegatedHookRun ⟨trivial, trivial, ?_, trivial⟩
  intro r verdict reason row _ _ _ _ _ _ hblind
  have hmem : row ∈ ([] : List CacheRow) := (lookupDetail_spec hblind.found).1
  exact absurd hmem List.not_mem_nil

theorem delegatedHookRun_blind :
    ¬ NoBlindDecision (run (step sampleConfig) (State.init [] [blanketRow]) delegatedHookRun) := by
  have hmem : Event.decided 1 true (.cached blanketRow false)
      ∈ (run (step sampleConfig) (State.init [] [blanketRow]) delegatedHookRun).trace := by decide
  have hreq : ∃ r, (run (step sampleConfig) (State.init [] [blanketRow]) delegatedHookRun).reqs 1
      = some r ∧ r.delegated = true := ⟨_, rfl, rfl⟩
  obtain ⟨r, hr, hdel⟩ := hreq
  intro hno
  exact absurd (hno 1 true blanketRow false r hmem hr (.inl hdel)) (by decide)

end Broker
