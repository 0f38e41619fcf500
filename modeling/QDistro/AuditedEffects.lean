/-
# No allow without its audit row

With `AUDIT_REQUIRED` on, any single audit write may fail at any time.  Five paths lead
to an allow, each with its own order of audit, decision and effect; on all of them the
allow row is in the log before the allow takes effect.
-/
import QDistro.BrokerEffects

namespace Broker

open TransitionSystem

variable (cfg : Config)

/-- The request's decision is an allow that no method in progress will still change. -/
structure FinallyAllowed (s : State) (rid : ℕ) (r : Request) : Prop where
  req : s.reqs rid = some r
  decision : r.decision = some true
  final : r.finalizing = false
  recorded : ∀ basis, Task.enqueueRecord rid basis ∉ s.tasks

/-- Every finally allowed request has its allow row. -/
def AllowsAudited (s : State) : Prop :=
  ∀ rid r, FinallyAllowed s rid r → AllowAudited cfg s r.toFiling true

variable {cfg} {d : Discipline}

variable {s : State}

/-- A request that is finally allowed after a step either was so before it, or has just
been audited. -/
theorem AllowsAudited.of_step {s' : State} (h : AllowsAudited cfg s)
    (htrace : ∀ e ∈ s.trace, e ∈ s'.trace)
    (hstep : ∀ rid r', FinallyAllowed s' rid r' → AllowAudited cfg s' r'.toFiling true
      ∨ ∃ r, FinallyAllowed s rid r ∧ r.toFiling = r'.toFiling)
    : AllowsAudited cfg s' := by
  intro rid r' hfin
  rcases hstep rid r' hfin with hnew | ⟨r, hold, hfil⟩
  · exact hnew
  · exact hfil ▸ (h rid r hold).mono htrace

theorem AllowsAudited.of_reqs {s' : State} (h : AllowsAudited cfg s)
    (htrace : ∀ e ∈ s.trace, e ∈ s'.trace) (hreqs : s'.reqs = s.reqs)
    (htasks : ∀ rid basis, Task.enqueueRecord rid basis ∈ s.tasks →
      Task.enqueueRecord rid basis ∈ s'.tasks)
    : AllowsAudited cfg s' := by
  refine h.of_step htrace fun rid r hfin => Or.inr ⟨r, ⟨hreqs ▸ hfin.req, hfin.decision, hfin.final,
    fun basis hmem => hfin.recorded basis (htasks rid basis hmem)⟩, rfl⟩

theorem mem_eraseIdx_of_ne {i : ℕ} {t t' : Task} (hi : s.tasks[i]? = some t) (hne : t' ≠ t)
    (hmem : t' ∈ s.tasks) : t' ∈ s.tasks.eraseIdx i := by
  rcases List.mem_cons.mp ((tasks_perm hi).mem_iff.mpr hmem) with heq | hrest
  · exact absurd heq hne
  · exact hrest

theorem AllowsAudited.of_setStatus {s' : State} (h : AllowsAudited cfg s) (rid : ℕ)
    (f : Status → Status) (htrace : ∀ e ∈ s.trace, e ∈ s'.trace)
    (hreqs : s'.reqs = (s.setStatus rid f).reqs)
    (htasks : ∀ i basis, i ≠ rid → Task.enqueueRecord i basis ∈ s.tasks →
      Task.enqueueRecord i basis ∈ s'.tasks)
    (hself : ∀ r, s.reqs rid = some r → (f r.toStatus).decision = some true →
      (f r.toStatus).finalizing = false → (∀ basis, Task.enqueueRecord rid basis ∉ s'.tasks) →
      AllowAudited cfg s' r.toFiling true)
    : AllowsAudited cfg s' := by
  refine h.of_step htrace fun i r' hfin => ?_
  have hreq := hfin.req
  rw [hreqs] at hreq
  obtain ⟨r, hr, hfil, hst⟩ := setStatus_reqs_inv hreq
  by_cases hi : i = rid
  · subst hi
    rw [if_pos rfl] at hst
    refine Or.inl (hfil ▸ hself r hr ?_ ?_ hfin.recorded)
    · rw [← hst]
      exact hfin.decision
    · rw [← hst]
      exact hfin.final
  · rw [if_neg hi] at hst
    refine Or.inr ⟨r, ⟨hr, ?_, ?_, fun basis hmem => hfin.recorded basis (htasks i basis hi hmem)⟩,
      hfil.symm⟩
    · have := hfin.decision
      rwa [show r'.decision = r'.toStatus.decision from rfl, hst] at this
    · have := hfin.final
      rwa [show r'.finalizing = r'.toStatus.finalizing from rfl, hst] at this

theorem allowsAudited_move {s' : State} (h : Inv cfg s) (m : Move cfg d s s')
    (ha : AllowsAudited cfg s) : AllowsAudited cfg s' := by
  cases m with
  | tables | marks | unbind | reap => exact ha.of_reqs (fun _ hm => hm) rfl fun _ _ hm => hm
  | quiet | decided | stored | responded | bind =>
    exact ha.of_reqs (fun _ hm => List.mem_cons_of_mem _ hm) rfl fun _ _ hm => hm
  | create f raw decision hd _ _ _ _ =>
    refine ha.of_step (fun _ hm => List.mem_cons_of_mem _ hm) fun rid r hfin => ?_
    rcases create_reqs_inv hfin.req with ⟨-, rfl⟩ | ⟨-, hr⟩
    · exact absurd hfin.decision hd
    · exact Or.inr ⟨r, ⟨hr, hfin.decision, hfin.final, hfin.recorded⟩, rfl⟩
  | createDecided f raw b _ _ _ _ _ =>
    refine ha.of_step (fun _ hm => List.mem_cons_of_mem _ (List.mem_cons_of_mem _ hm))
      fun rid r hfin => ?_
    have hreq : (s.create f raw (some b.allows)).reqs rid = some r := hfin.req
    rcases create_reqs_inv hreq with ⟨rfl, -⟩ | ⟨-, hr⟩
    · exact absurd (List.mem_append_right _ (List.mem_singleton_self _)) (hfin.recorded b)
    · exact Or.inr ⟨r, ⟨hr, hfin.decision, hfin.final, fun basis hmem =>
        hfin.recorded basis (List.mem_append_left _ hmem)⟩, rfl⟩
  | record i rid basis r b hi hr _ _ hok =>
    refine ha.of_setStatus rid (Status.recorded b) (fun _ hm => hm) rfl
      (fun j basis' hj hmem => mem_eraseIdx_of_ne hi (fun heq => hj (by injection heq)) hmem)
      fun r' hr' hdec _ _ => ?_
    have hb : b = true := by simpa [Status.recorded] using hdec
    rw [hr] at hr'
    injection hr' with hr'
    exact hr' ▸ hb ▸ hok
  | park rid r hr ho =>
    refine ha.of_setStatus rid (Status.joined ⟨rid, s.nextWaiter⟩)
      (fun _ hm => List.mem_cons_of_mem _ hm) rfl (fun _ _ _ hm => hm) fun r' hr' hd hf hrec => ?_
    exact (ha rid r' ⟨hr', hd, hf, hrec⟩).mono fun _ hm => List.mem_cons_of_mem _ hm
  | answerNow rid r b _ _ _ =>
    exact ha.of_reqs (fun _ hm => List.mem_cons_of_mem _ (List.mem_cons_of_mem _ hm)) rfl
      fun _ _ hm => hm
  | settle rid r b hr hd hok =>
    have htrace : ∀ e ∈ s.trace, e ∈ (Broker.settle s rid b).trace := by
      intro e hm
      rw [Broker.settle, answer_trace]
      exact List.mem_append_right _ hm
    refine ha.of_setStatus rid (Status.settled b) htrace
      (by rw [Broker.settle, answer_reqs]) (fun _ _ _ hm => by simpa [Broker.settle] using hm)
      fun r' hr' hdec _ _ => ?_
    have hb : b = true := by simpa [Status.settled] using hdec
    rw [hr] at hr'
    injection hr' with hr'
    exact (hr' ▸ hb ▸ hok : AllowAudited cfg s r'.toFiling true).mono htrace
  | beginDecide f r hr hd _ _ =>
    refine ha.of_setStatus f.rid (Status.provisional f.allowed) (fun _ hm => hm) rfl
      (fun _ _ _ hm => List.mem_append_left _ hm) fun _ _ _ hfin _ => ?_
    exact absurd hfin (by simp [Status.provisional])
  | hold rid r hr hd hok =>
    refine ha.of_setStatus rid (Status.settled true) (fun _ hm => hm) rfl
      (fun _ _ _ hm => List.mem_append_left _ hm) fun r' hr' _ _ _ => ?_
    rw [hr] at hr'
    injection hr' with hr'
    exact hr' ▸ hok
  | advance i t t' f hi ht _ _ =>
    refine ha.of_reqs (fun _ hm => hm) rfl fun rid basis hm => List.mem_append_left _ ?_
    exact mem_eraseIdx_of_ne hi (by rintro rfl; simp [Task.frame] at ht) hm
  | downgrade i f error hi =>
    obtain ⟨r0, hr0, -, hfin0, -⟩ := h.tasks _ (List.mem_of_getElem? hi)
    refine ha.of_setStatus f.rid (Status.downgraded (decide (f.rid ∈ s.pending))) (fun _ hm => ?_)
      (by rw [answer_reqs]; rfl) (fun j basis _ hm => ?_) fun r hr hdec hfin _ => ?_
    · rw [answer_trace]
      exact List.mem_append_right _ hm
    · rw [answer_tasks]
      exact mem_eraseIdx_of_ne hi (by simp) hm
    · rw [Status.downgraded] at hdec hfin
      rw [hr0] at hr
      injection hr with hr
      subst hr
      split at hdec
      · exact absurd hdec (by simp)
      · next hlive =>
        rw [if_neg hlive] at hfin
        exact absurd (hfin0.symm.trans hfin) (by simp)
  | finalise i f cachedOk hi =>
    obtain ⟨r0, hr0, hdec0, -, -, hok⟩ := h.tasks _ (List.mem_of_getElem? hi)
    refine ha.of_setStatus f.rid Status.finalised (fun _ hm => ?_)
      (by rw [answer_reqs]; rfl) (fun j basis _ hm => ?_) fun r hr hdec _ _ => ?_
    · rw [answer_trace]
      exact List.mem_append_right _ hm
    · rw [answer_tasks]
      exact mem_eraseIdx_of_ne hi (by simp) hm
    · rw [hr0] at hr
      injection hr with hr
      subst hr
      have hall : f.allowed = true := by
        have : r0.decision = some true := hdec
        rw [hdec0] at this
        simpa using this
      refine (hall ▸ hok).mono fun _ hm => ?_
      rw [answer_trace]
      exact List.mem_append_right _ hm
  | release i rid ws hi =>
    refine ha.of_reqs (fun _ hm => ?_) (by simp) fun j basis hm => ?_
    · rw [answer_trace]
      exact List.mem_append_right _ hm
    · rw [answer_tasks]
      exact mem_eraseIdx_of_ne hi (by simp) hm
  | push t ho hok =>
    exact ha.of_reqs (fun _ hm => hm) rfl fun _ _ hm => List.mem_append_left _ hm
  | drop i t hi ho =>
    refine ha.of_reqs (fun _ hm => hm) rfl fun _ _ hm => ?_
    exact mem_eraseIdx_of_ne hi (by rintro rfl; simp [Task.owner] at ho) hm
  | stamp rid t =>
    refine ha.of_setStatus rid (Status.stamped t) (fun _ hm => hm) rfl (fun _ _ _ hm => hm)
      fun r' hr' hd hf hrec => ?_
    exact ha rid r' ⟨hr', hd, hf, hrec⟩

/-- Every allow of a state is covered by a written audit row: the final allows of
requests, the stored cache rows and the responses sent to polkitd. -/
structure EffectsAudited (s : State) : Prop where
  allowed : ∀ rid r, FinallyAllowed s rid r → AuditedAllow s.trace r.uid r.pid r.action
  stored : ∀ newer older rid scope row, s.trace = newer ++ .stored rid scope row :: older →
    ∃ r, s.reqs rid = some r ∧ row.callerUid = r.uid ∧ row.action = r.action
      ∧ AuditedAllow older r.uid r.pid r.action
  responded : ∀ newer older p, s.trace = newer ++ .responded p :: older →
    AuditedAllow older p.uid p.pid p.action

theorem storeRow_subject {rows : List CacheRow} {now uid : ℤ} {action exe : String} {scope : Scope}
    {b : Bool} {admin : ℤ} {argv : Option (List String)} {row : CacheRow}
    (h : storeRow rows now uid action exe scope b admin argv = some row) :
    row.callerUid = uid ∧ row.action = action := by
  rw [storeRow, Option.bind_eq_some_iff] at h
  obtain ⟨⟨kind, ttl⟩, -, h⟩ := h
  rw [Option.map_eq_some_iff] at h
  obtain ⟨kind', -, rfl⟩ := h
  exact ⟨rfl, rfl⟩

/-- **Audited effects.**  When audit rows are required, then in every run, whichever
audit writes fail, every final allow, every stored row and every response to polkitd is
preceded by a written allow row for its subject and action. -/
theorem allow_effects_audited (cfg : Config) (hreq : cfg.auditRequired = true) (rules : List Rule)
    (cache : List CacheRow) (as : List Action) :
    EffectsAudited (run (step cfg) (State.init rules cache) as) := by
  have hrun := run_invariant_free (P := AllowsAudited cfg)
    (fun _ _ hinv m ha => allowsAudited_move hinv m ha) as (inv_init rules cache)
    (fun rid r hfin => absurd hfin.req (by simp [State.init]))
  have hj : Justified (EffectOk cfg) _ := effects_justified rules cache as
  refine ⟨fun rid r hfin => hrun.2 rid r hfin rfl hreq, ?_, ?_⟩
  · intro newer older rid scope row htrace
    have hmem : ∀ e ∈ older, e ∈ (run (step cfg) (State.init rules cache) as).trace := by
      intro e he
      rw [htrace]
      exact List.mem_append_right _ (List.mem_cons_of_mem _ he)
    rw [htrace] at hj
    obtain ⟨f, raw, hfiled, ha, rows, now, admin, hrow⟩ := hj.of_append
    obtain ⟨-, r, hr, hfil⟩ := hrun.1.filing rid f raw (hmem _ hfiled)
    obtain ⟨huid, haction⟩ := storeRow_subject hrow
    subst hfil
    exact ⟨r, hr, huid, haction, ha hreq⟩
  · intro newer older p htrace
    rw [htrace] at hj
    exact hj.of_append.1 hreq

/-- An admin approves a request for an hour. -/
def approvalRun : List Action :=
  [.call (sampleEnv 0 true) (.requestPermission alice "disk.mount" ∅), .resume (sampleEnv 0 true) 0,
    .call (sampleEnv 0 true) (.decideRequest alice 1 "allow" "1h"),
    .resume (sampleEnv 0 true) 0, .resume (sampleEnv 0 true) 0, .resume (sampleEnv 0 true) 0]

theorem allow_effects_audited_approval :
    sampleConfig.auditRequired = true
      ∧ ((run (step sampleConfig) (State.init [] []) approvalRun).reqs 1).map
          (fun r => (r.decision, r.finalizing)) = some (some true, false)
      ∧ EffectsAudited (run (step sampleConfig) (State.init [] []) approvalRun) :=
  ⟨rfl, by decide, allow_effects_audited sampleConfig rfl [] [] approvalRun⟩

end Broker
