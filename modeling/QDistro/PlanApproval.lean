/-
# The approved plan is the executed plan

A run of a workflow without `auto_run` executes a step only after `approve_run` returned true for
the digest of its plan, and the definition with that digest was loaded under its name from the
approval to the dispatch without a gap (`executed_plan_approved`).

The invariant follows a run through the three lock sections.  A pending run is not queued; a
running run that has not started was approved, and no reload since then has changed its
definition, because a reload fails every such run that no longer matches; a started run was
dispatched while it matched.
-/
import QDistro.WorkflowRuns
import Mathlib.Data.List.Perm.Basic

namespace Workflow

open Engine List

/-! ## What is loaded -/

/-- A definition with the digest of the plan is loaded under the name. -/
def Engine.Loads (e : Engine) (name : String) (plan : WorkflowPlan) : Prop :=
  ∃ d, e.loaded name = some d ∧ d.plan.digest = plan.digest

variable {e : Engine} {r : WorkflowRun}

theorem Engine.planMatches_iff :
    e.planMatches r = true ↔ e.Loads r.workflowName r.plan := by
  unfold planMatches Engine.Loads
  cases e.loaded r.workflowName with
  | none => simp
  | some d => simp

variable {e' : Engine}

theorem Engine.Loads.of_workflows {name : String} {plan : WorkflowPlan} (h : e.Loads name plan)
    (hsame : e'.workflows = e.workflows) : e'.Loads name plan := by
  unfold Engine.Loads loaded at h ⊢
  rw [hsame]
  exact h

/-- A run of a workflow without `auto_run`. -/
def WorkflowRun.Manual (r : WorkflowRun) : Prop :=
  ∃ wf, r.plan.definition = some wf ∧ wf.autoRun = false

/-! ## Histories -/

/-- The record of an approval. -/
def Record.Approves (rec : Record) (id : ℕ) (plan : WorkflowPlan) : Prop :=
  (∃ audited poolOpen, rec.event = .approve id plan.digest audited poolOpen) ∧
    rec.output = .approved true

/-- The run was approved while its definition was loaded, and the definition has been loaded ever
since. -/
def Approved (past : List Record) (id : ℕ) (name : String) (plan : WorkflowPlan) : Prop :=
  ∃ a approval b, past = a ++ approval :: b ∧ approval.Approves id plan ∧
    approval.before.Loads name plan ∧ ∀ rec ∈ approval :: b, rec.after.Loads name plan

/-- The run was dispatched while its definition was loaded, after its approval. -/
def Dispatched (past : List Record) (id : ℕ) (name : String) (plan : WorkflowPlan) : Prop :=
  ∃ a dispatch b, past = a ++ dispatch :: b ∧ dispatch.output = .dispatched id ∧
    dispatch.before.Loads name plan ∧ Approved a id name plan

variable {past : List Record} {rec : Record}

theorem Approved.snoc {id : ℕ} {name : String} {plan : WorkflowPlan}
    (h : Approved past id name plan) (hloads : rec.after.Loads name plan) :
    Approved (past ++ [rec]) id name plan := by
  obtain ⟨a, approval, b, rfl, happroves, hbefore, hafter⟩ := h
  refine ⟨a, approval, b ++ [rec], by simp, happroves, hbefore, ?_⟩
  intro x hx
  rw [← cons_append, mem_append, mem_singleton] at hx
  rcases hx with hx | rfl
  · exact hafter x hx
  · exact hloads

theorem Dispatched.snoc {id : ℕ} {name : String} {plan : WorkflowPlan}
    (h : Dispatched past id name plan) (rec : Record) :
    Dispatched (past ++ [rec]) id name plan := by
  obtain ⟨a, dispatch, b, rfl, hrest⟩ := h
  exact ⟨a, dispatch, b ++ [rec], by simp, hrest⟩

structure Inv (past : List Record) (e : Engine) : Prop where
  captured : ∀ r ∈ e.runs, ∃ d : LoadedDef, d.plan = r.plan
  waiting : ∀ r ∈ e.runs, r.state = .pending → r.executionStarted = false
  queued : ∀ t ∈ e.queue, ∃ r, e.runs[t.run]? = some r ∧ r.executionStarted = false ∧
    (r.state = .running ∨ r.state = .failed)
  once : (e.queue.map Task.run).Nodup
  working : ∀ w ∈ e.workers, ∃ r, e.runs[w.run]? = some r ∧ r.executionStarted = true ∧
    r.plan.definition = some w.definition
  approved : ∀ (id : ℕ) r, e.runs[id]? = some r → r.Manual → r.state = .running →
    r.executionStarted = false →
    e.Loads r.workflowName r.plan ∧ Approved past id r.workflowName r.plan
  started : ∀ (id : ℕ) r, e.runs[id]? = some r → r.Manual → r.executionStarted = true →
    Dispatched past id r.workflowName r.plan

/-! ## Events that neither approve nor dispatch -/

/-- The run keeps its plan, and leaves its state only to fail or once it has started. -/
def Settles (r r' : WorkflowRun) : Prop :=
  r'.plan = r.plan ∧ r'.workflowName = r.workflowName ∧
    r'.executionStarted = r.executionStarted ∧
    (r'.state = r.state ∨ r'.state = .failed ∨
      (r'.state = .completed ∧ r.executionStarted = true))

theorem Settles.refl (r : WorkflowRun) : Settles r r := ⟨rfl, rfl, rfl, .inl rfl⟩

theorem Settles.invalidate (r : WorkflowRun) : Settles r (invalidate r) :=
  ⟨rfl, rfl, rfl, .inr (.inl rfl)⟩

/-- A run that was just created and waits for approval, or needs none. -/
def Fresh (r : WorkflowRun) : Prop :=
  r.executionStarted = false ∧ (∃ d : LoadedDef, d.plan = r.plan) ∧
    (r.state = .pending ∨ ¬r.Manual)

/-- The runs of an engine settle, and new ones are fresh. -/
def RunsSettle (runs runs' : List WorkflowRun) : Prop :=
  runs.length ≤ runs'.length ∧ ∀ (id : ℕ) r', runs'[id]? = some r' →
    (∃ r, runs[id]? = some r ∧ Settles r r') ∨ (runs[id]? = none ∧ Fresh r')

/-- A worker may have gone on or left. -/
def WorkersSettle (workers workers' : List Worker) : Prop :=
  ∀ w' ∈ workers', ∃ w ∈ workers, w'.run = w.run ∧ w'.definition = w.definition

structure Calm (e e' : Engine) : Prop where
  workflows : e'.workflows = e.workflows
  queue : e'.queue.Sublist e.queue
  workers : WorkersSettle e.workers e'.workers
  runs : RunsSettle e.runs e'.runs

theorem RunsSettle.refl (runs : List WorkflowRun) : RunsSettle runs runs :=
  ⟨le_rfl, fun _ r' hr' => .inl ⟨r', hr', .refl r'⟩⟩

theorem WorkersSettle.refl (workers : List Worker) : WorkersSettle workers workers :=
  fun w' hw' => ⟨w', hw', rfl, rfl⟩

theorem Settles.manual {r' : WorkflowRun} (h : Settles r r') (hmanual : r'.Manual) : r.Manual := by
  unfold WorkflowRun.Manual at hmanual ⊢
  rw [← h.1]
  exact hmanual

theorem RunsSettle.of_old {runs runs' : List WorkflowRun} (h : RunsSettle runs runs') {id : ℕ}
    (hr : runs[id]? = some r) : ∃ r', runs'[id]? = some r' ∧ Settles r r' := by
  have hlt : id < runs'.length := by
    obtain ⟨hlt, -⟩ := List.getElem?_eq_some_iff.mp hr
    have := h.1
    omega
  obtain ⟨r', hr'⟩ : ∃ r', runs'[id]? = some r' := ⟨runs'[id], List.getElem?_eq_getElem hlt⟩
  rcases h.2 id r' hr' with ⟨r₀, hr₀, hsettles⟩ | ⟨hnone, -⟩
  · rw [hr] at hr₀
    obtain rfl := Option.some.inj hr₀
    exact ⟨r', hr', hsettles⟩
  · rw [hr] at hnone
    cases hnone

theorem Inv.settle (h : Inv past e) (hruns : RunsSettle e.runs e'.runs)
    (hqueue : e'.queue.Sublist e.queue) (hworkers : WorkersSettle e.workers e'.workers)
    (hafter : rec.after.workflows = e'.workflows)
    (hloads : ∀ (id : ℕ) r', e'.runs[id]? = some r' → r'.state = .running →
      r'.executionStarted = false → e.Loads r'.workflowName r'.plan →
      e'.Loads r'.workflowName r'.plan)
    : Inv (past ++ [rec]) e' := by
  refine ⟨?_, ?_, ?_, ?_, ?_, ?_, ?_⟩
  · intro r' hr'
    obtain ⟨id, hid⟩ := mem_iff_getElem?.mp hr'
    rcases hruns.2 id r' hid with ⟨r, hr, hsettles⟩ | ⟨-, hfresh⟩
    · rw [hsettles.1]
      exact h.captured r (mem_of_getElem? hr)
    · exact hfresh.2.1
  · intro r' hr' hpending
    obtain ⟨id, hid⟩ := mem_iff_getElem?.mp hr'
    rcases hruns.2 id r' hid with ⟨r, hr, -, -, hstarted, hmoves⟩ | ⟨-, hfresh⟩
    · rw [hstarted]
      rcases hmoves with heq | heq | ⟨heq, -⟩
      · exact h.waiting r (mem_of_getElem? hr) (heq.symm.trans hpending)
      · rw [hpending] at heq
        cases heq
      · rw [hpending] at heq
        cases heq
    · exact hfresh.1
  · intro t ht
    obtain ⟨r, hr, hnot, hstate⟩ := h.queued t (hqueue.subset ht)
    obtain ⟨r', hr', -, -, hstarted, hmoves⟩ := hruns.of_old hr
    refine ⟨r', hr', hstarted.trans hnot, ?_⟩
    rcases hmoves with heq | heq | ⟨-, hstarted⟩
    · rw [heq]
      exact hstate
    · exact .inr heq
    · rw [hnot] at hstarted
      cases hstarted
  · exact h.once.sublist (hqueue.map Task.run)
  · intro w' hw'
    obtain ⟨w, hw, hrun, hdefinition⟩ := hworkers w' hw'
    obtain ⟨r, hr, hstarted, hplan⟩ := h.working w hw
    obtain ⟨r', hr', hplan', -, hstarted', -⟩ := hruns.of_old hr
    refine ⟨r', by rw [hrun]; exact hr', hstarted'.trans hstarted, ?_⟩
    rw [hplan', hplan, hdefinition]
  · intro id r' hr' hmanual hstate hnot
    rcases hruns.2 id r' hr' with ⟨r, hr, hsettles⟩ | ⟨-, -, -, hpending | hauto⟩
    · obtain ⟨hplan, hname, hstarted, hmoves⟩ := hsettles
      have hnot' : r.executionStarted = false := hstarted.symm.trans hnot
      have hrunning : r.state = .running := by
        rcases hmoves with heq | heq | ⟨heq, -⟩
        · exact heq.symm.trans hstate
        · rw [hstate] at heq
          cases heq
        · rw [hstate] at heq
          cases heq
      obtain ⟨hloaded, happroved⟩ :=
        h.approved id r hr (Settles.manual ⟨hplan, hname, hstarted, hmoves⟩ hmanual) hrunning hnot'
      rw [← hplan, ← hname] at hloaded happroved
      have hloaded' := hloads id r' hr' hstate hnot hloaded
      exact ⟨hloaded', happroved.snoc (hloaded'.of_workflows hafter)⟩
    · rw [hstate] at hpending
      cases hpending
    · exact absurd hmanual hauto
  · intro id r' hr' hmanual hstarted
    rcases hruns.2 id r' hr' with ⟨r, hr, hsettles⟩ | ⟨-, hnot, -⟩
    · have hdispatched := h.started id r hr (hsettles.manual hmanual)
        (hsettles.2.2.1.symm.trans hstarted)
      rw [hsettles.1, hsettles.2.1]
      exact hdispatched.snoc rec
    · rw [hstarted] at hnot
      cases hnot

theorem Inv.calm (h : Inv past e) (hcalm : Calm e e')
    (hafter : rec.after.workflows = e'.workflows) : Inv (past ++ [rec]) e' :=
  h.settle hcalm.runs hcalm.queue hcalm.workers hafter fun _ _ _ _ _ hloads =>
    hloads.of_workflows hcalm.workflows

theorem runsSettle_modify {runs : List WorkflowRun} {id : ℕ} {f : WorkflowRun → WorkflowRun}
    (h : ∀ r, runs[id]? = some r → Settles r (f r)) : RunsSettle runs (runs.modify id f) := by
  refine ⟨by rw [length_modify], ?_⟩
  intro j r' hr'
  left
  rw [getElem?_modify] at hr'
  obtain ⟨r, hr, heq⟩ := Option.map_eq_some_iff.mp hr'
  refine ⟨r, hr, ?_⟩
  by_cases hid : id = j
  · subst hid
    rw [if_pos rfl] at heq
    rw [← heq]
    exact h r hr
  · rw [if_neg hid] at heq
    rw [← heq]
    exact .refl r

section

variable (e : Engine)

theorem calm_markFailed (id : ℕ) (error : String) :
    Calm e (e.update id fun r => r.markFailed error) :=
  ⟨rfl, .refl _, .refl _, runsSettle_modify fun _ _ => ⟨rfl, rfl, rfl, .inr (.inl rfl)⟩⟩

theorem Calm.refl : Calm e e := ⟨rfl, .refl _, .refl _, .refl _⟩

theorem validatePlan_cases (id : ℕ) (r : WorkflowRun) :
    (e.validatePlan id r = (e, true) ∧ e.Loads r.workflowName r.plan) ∨
      e.validatePlan id r = (e.update id invalidate, false) := by
  unfold validatePlan
  by_cases h : e.planMatches r = true
  · exact .inl ⟨by rw [if_pos h], planMatches_iff.mp h⟩
  · exact .inr (by rw [if_neg h])

theorem calm_previewRun (id : ℕ) : Calm e (e.previewRun id).1 := by
  unfold previewRun
  cases e.runs[id]? with
  | none => exact .refl e
  | some r =>
    dsimp only
    split
    · rcases validatePlan_cases e id r with ⟨hvalid, -⟩ | hvalid
      · rw [hvalid]
        exact .refl e
      · rw [hvalid]
        exact calm_markFailed e id _
    · exact .refl e

theorem length_scanPending (name : String) (key : Option (String × String))
    (runs : List WorkflowRun) : (e.scanPending name key runs).1.length = runs.length := by
  induction runs with
  | nil => rfl
  | cons r rest ih =>
    rw [scanPending]
    split
    · split
      · rfl
      · simp [ih]
    · simp [ih]

theorem scanPending_settle (name : String) (key : Option (String × String))
    (runs : List WorkflowRun) : RunsSettle runs (e.scanPending name key runs).1 := by
  refine ⟨(length_scanPending e name key runs).ge, ?_⟩
  intro id r' hr'
  left
  induction runs generalizing id with
  | nil => cases hr'
  | cons r rest ih =>
    rw [scanPending] at hr'
    split at hr'
    · split at hr'
      · exact ⟨r', hr', .refl r'⟩
      · cases id with
        | zero =>
          obtain rfl := Option.some.inj hr'
          exact ⟨r, rfl, .invalidate r⟩
        | succ id => exact ih id hr'
    · cases id with
      | zero =>
        obtain rfl := Option.some.inj hr'
        exact ⟨r, rfl, .refl r⟩
      | succ id => exact ih id hr'

end

theorem RunsSettle.append {runs runs' : List WorkflowRun} (h : RunsSettle runs runs')
    (hlength : runs'.length = runs.length) (hfresh : Fresh r) :
    RunsSettle runs (runs' ++ [r]) := by
  refine ⟨by rw [length_append]; omega, ?_⟩
  intro id r' hr'
  rw [getElem?_append] at hr'
  split at hr'
  · exact h.2 id r' hr'
  · next hge =>
    have hnone : runs[id]? = none := getElem?_eq_none (by omega)
    rw [getElem?_singleton] at hr'
    split at hr'
    · obtain rfl := Option.some.inj hr'
      exact .inr ⟨hnone, hfresh⟩
    · cases hr'

theorem calm_enqueuePending (e : Engine) (name : String) (context : Context) :
    Calm e (e.enqueuePending name context) := by
  have hscan := scanPending_settle e name (dedupKey name context) e.runs
  have hlength := length_scanPending e name (dedupKey name context) e.runs
  unfold enqueuePending
  rcases hfound : e.scanPending name (dedupKey name context) e.runs with ⟨runs, found⟩
  rw [hfound] at hscan hlength
  dsimp only at hscan hlength ⊢
  split
  · exact ⟨rfl, .refl _, .refl _, hscan⟩
  · split
    · exact ⟨rfl, .refl _, .refl _, hscan⟩
    · next d _ => exact ⟨rfl, .refl _, .refl _, hscan.append hlength ⟨rfl, ⟨d, rfl⟩, .inl rfl⟩⟩

theorem not_manual_of_autoRun {d : LoadedDef} (h : d.wf.autoRun = true) (hplan : r.plan = d.plan) :
    ¬r.Manual := by
  rintro ⟨wf, hdefinition, hmanual⟩
  rw [hplan, (definition_capture d.dicts d.captured).1] at hdefinition
  obtain rfl := Option.some.inj hdefinition
  rw [show d.wf.sorted.autoRun = d.wf.autoRun from rfl, h] at hmanual
  cases hmanual

theorem modify_append_length {α : Type} (l : List α) (a : α) (f : α → α) :
    (l ++ [a]).modify l.length f = l ++ [f a] := by
  induction l with
  | nil => rfl
  | cons b l ih =>
    rw [cons_append, length_cons, modify_succ_cons, ih, cons_append]

theorem Inv.addTask {t : Task} (h : Inv past e)
    (ht : ∃ r, e.runs[t.run]? = some r ∧ r.executionStarted = false ∧
      (r.state = .running ∨ r.state = .failed))
    (hnew : t.run ∉ e.queue.map Task.run) : Inv past { e with queue := e.queue ++ [t] } := by
  refine { h with queued := ?_, once := ?_, approved := ?_ }
  · intro u hu
    rcases mem_append.mp hu with hu | hu
    · exact h.queued u hu
    · rw [mem_singleton.mp hu]
      exact ht
  · show ((e.queue ++ [t]).map Task.run).Nodup
    rw [map_append]
    refine h.once.append (nodup_singleton _) ?_
    intro x hx hx'
    rw [map_singleton, mem_singleton] at hx'
    rw [hx'] at hx
    exact hnew hx
  · exact h.approved

theorem Inv.queued_lt (h : Inv past e) {id : ℕ} (hid : id ∈ e.queue.map Task.run) :
    id < e.runs.length := by
  obtain ⟨t, ht, rfl⟩ := mem_map.mp hid
  obtain ⟨r, hr, -⟩ := h.queued t ht
  exact (List.getElem?_eq_some_iff.mp hr).1

theorem Inv.admitRun (h : Inv past e) (maxInflight : ℕ) {d : LoadedDef}
    (hauto : d.wf.autoRun = true) (name : String) (context : Context) (audited poolOpen : Bool)
    (hafter : rec.after.workflows = e.workflows) :
    Inv (past ++ [rec]) (e.admitRun maxInflight d name context audited poolOpen) := by
  have hfresh : ∀ r : WorkflowRun, r.executionStarted = false → r.plan = d.plan → Fresh r :=
    fun r hnot hplan => ⟨hnot, ⟨d, hplan.symm⟩, .inr (not_manual_of_autoRun hauto hplan)⟩
  unfold Engine.admitRun
  dsimp only
  split
  · exact h.calm (.refl e) hafter
  split
  · exact h.calm (.refl e) hafter
  have hadd : ∀ r : WorkflowRun, r.executionStarted = false → r.plan = d.plan →
      RunsSettle e.runs (e.runs ++ [r]) := fun r hnot hplan =>
    (RunsSettle.refl e.runs).append rfl (hfresh r hnot hplan)
  split
  · refine h.calm ⟨rfl, .refl _, .refl _, ?_⟩ hafter
    show RunsSettle e.runs ((e.runs ++ [_]).modify e.runs.length _)
    rw [modify_append_length]
    exact hadd _ rfl rfl
  split
  · have hbase : Inv (past ++ [rec]) { e with
        inflight := e.inflight + 1
        activeKeys := e.activeKeys ++ (dedupKey name context).toList
        runs := e.runs ++ [{ workflowName := name, context, plan := d.plan, state := .running }] } :=
      h.calm ⟨rfl, .refl _, .refl _, hadd _ rfl rfl⟩ hafter
    refine hbase.addTask ?_ ?_
    · exact ⟨_, getElem?_concat_length, rfl, .inl rfl⟩
    · intro hmem
      exact absurd (h.queued_lt hmem) (lt_irrefl _)
  · refine h.calm ⟨rfl, .refl _, .refl _, ?_⟩ hafter
    show RunsSettle e.runs ((e.runs ++ [_]).modify e.runs.length _)
    rw [modify_append_length]
    exact hadd _ rfl rfl

theorem Inv.reload (h : Inv past e) (defs : List LoadedDef) (hafter : rec.after.workflows = defs) :
    Inv (past ++ [rec]) (e.loadWorkflows defs) := by
  set f : WorkflowRun → WorkflowRun := fun r =>
    if !r.executionStarted && (r.state = .pending || r.state = .running) &&
        !{ e with workflows := defs }.planMatches r then invalidate r
    else r with hf
  have hsettles : ∀ r, Settles r (f r) := by
    intro r
    rw [hf]
    dsimp only
    split
    · exact .invalidate r
    · exact .refl r
  have hruns : RunsSettle e.runs (e.runs.map f) := by
    refine ⟨by rw [length_map], ?_⟩
    intro id r' hr'
    rw [getElem?_map] at hr'
    obtain ⟨r, hr, rfl⟩ := Option.map_eq_some_iff.mp hr'
    exact .inl ⟨r, hr, hsettles r⟩
  refine h.settle hruns (.refl _) (.refl _) hafter ?_
  intro id r' hr' hstate hnot _
  have hr' : (e.runs.map f)[id]? = some r' := hr'
  rw [getElem?_map] at hr'
  obtain ⟨r, -, rfl⟩ := Option.map_eq_some_iff.mp hr'
  -- a run that still runs was not invalidated, so it matches the new definitions
  rw [hf] at hstate hnot ⊢
  dsimp only at hstate hnot ⊢
  split at hstate
  · cases hstate
  · next hkept =>
    rw [if_neg hkept] at hnot ⊢
    simp only [hnot, hstate, Bool.not_false, Bool.true_and, Bool.not_eq_true', decide_true,
      Bool.or_true, Bool.not_eq_false] at hkept
    exact planMatches_iff.mp hkept

variable {i : ℕ}

theorem eraseIdx_tasks {queue : List Task} {task : Task} (htask : queue[i]? = some task)
    (hnodup : (queue.map Task.run).Nodup) :
    ∀ t ∈ queue.eraseIdx i, t.run ≠ task.run := by
  intro t ht heq
  have hperm : queue.Perm (task :: queue.eraseIdx i) := by
    obtain ⟨hlt, hget⟩ := List.getElem?_eq_some_iff.mp htask
    rw [← hget]
    exact (List.getElem_cons_eraseIdx_perm hlt).symm
  have hnodup' := ((hperm.map Task.run).nodup_iff).mp hnodup
  rw [List.map_cons, List.nodup_cons] at hnodup'
  exact hnodup'.1 (List.mem_map.mpr ⟨t, ht, heq⟩)

theorem getElem?_modify_cases {α : Type} {l : List α} {j : ℕ} {a b : α} {f : α → α}
    (ha : l[i]? = some a) (hb : (l.modify i f)[j]? = some b) :
    (j = i ∧ b = f a) ∨ (j ≠ i ∧ l[j]? = some b) := by
  rw [getElem?_modify] at hb
  obtain ⟨a', ha', heq⟩ := Option.map_eq_some_iff.mp hb
  by_cases hij : i = j
  · subst hij
    rw [ha] at ha'
    obtain rfl := Option.some.inj ha'
    rw [if_pos rfl] at heq
    exact .inl ⟨rfl, heq.symm⟩
  · rw [if_neg hij] at heq
    rw [heq] at ha'
    exact .inr ⟨fun hji => hij hji.symm, ha'⟩

theorem getElem?_modify_self {α : Type} {l : List α} {a : α} {f : α → α} (ha : l[i]? = some a) :
    (l.modify i f)[i]? = some (f a) := by
  simp [ha]

theorem getElem?_modify_of_ne {α : Type} {l : List α} {j : ℕ} {a : α} {f : α → α} (hij : j ≠ i)
    (ha : l[j]? = some a) : (l.modify i f)[j]? = some a := by
  have hji : ¬i = j := fun h => hij h.symm
  simp [ha, hji]

theorem Inv.move (h : Inv past e) {id : ℕ} {r' : WorkflowRun} {f : WorkflowRun → WorkflowRun}
    (hr : e.runs[id]? = some r) (hf : f r = r') (hplan : r'.plan = r.plan)
    (hstate : r'.state ≠ .pending) :
    (∀ x ∈ (e.update id f).runs, ∃ d : LoadedDef, d.plan = x.plan) ∧
      ∀ x ∈ (e.update id f).runs, x.state = .pending → x.executionStarted = false := by
  constructor
  · intro x hx
    obtain ⟨j, hj⟩ := mem_iff_getElem?.mp hx
    rcases getElem?_modify_cases hr hj with ⟨-, rfl⟩ | ⟨-, hj⟩
    · rw [hf, hplan]
      exact h.captured r (mem_of_getElem? hr)
    · exact h.captured x (mem_of_getElem? hj)
  · intro x hx hpending
    obtain ⟨j, hj⟩ := mem_iff_getElem?.mp hx
    rcases getElem?_modify_cases hr hj with ⟨-, rfl⟩ | ⟨-, hj⟩
    · rw [hf] at hpending
      exact absurd hpending hstate
    · exact h.waiting x (mem_of_getElem? hj) hpending

theorem Inv.approve (h : Inv past e) {id : ℕ} (hr : e.runs[id]? = some r)
    (hpending : r.state = .pending) (hloads : e.Loads r.workflowName r.plan)
    (happroves : rec.Approves id r.plan) (hbefore : rec.before = e)
    (hafter : rec.after.workflows = e.workflows) (inflight : ℕ) :
    Inv (past ++ [rec]) { e.update id WorkflowRun.markRunning with
      inflight := inflight
      queue := e.queue ++ [⟨id, none⟩] } := by
  have hnot := h.waiting r (mem_of_getElem? hr) hpending
  obtain ⟨hcaptured, hwaiting⟩ := h.move (f := WorkflowRun.markRunning) hr rfl rfl
    (fun heq => by cases heq)
  -- a pending run is neither queued nor taken by a worker
  have hqueue : ∀ t ∈ e.queue, t.run ≠ id := by
    rintro t ht rfl
    obtain ⟨r₀, hr₀, -, hstate⟩ := h.queued t ht
    rw [hr] at hr₀
    obtain rfl := Option.some.inj hr₀
    rw [hpending] at hstate
    rcases hstate with hstate | hstate <;> cases hstate
  have hworker : ∀ w ∈ e.workers, w.run ≠ id := by
    rintro w hw rfl
    obtain ⟨r₀, hr₀, hstarted, -⟩ := h.working w hw
    rw [hr] at hr₀
    obtain rfl := Option.some.inj hr₀
    rw [hnot] at hstarted
    cases hstarted
  refine ⟨hcaptured, hwaiting, ?_, ?_, ?_, ?_, ?_⟩
  · intro t ht
    rcases mem_append.mp ht with ht | ht
    · obtain ⟨r₀, hr₀, hrest⟩ := h.queued t ht
      exact ⟨r₀, getElem?_modify_of_ne (hqueue t ht) hr₀, hrest⟩
    · rw [mem_singleton.mp ht]
      exact ⟨_, getElem?_modify_self hr, hnot, .inl rfl⟩
  · show ((e.queue ++ [(⟨id, none⟩ : Task)]).map Task.run).Nodup
    rw [map_append]
    refine h.once.append (nodup_singleton _) ?_
    intro x hx hx'
    rw [map_singleton, mem_singleton] at hx'
    obtain ⟨t, ht, rfl⟩ := mem_map.mp hx
    exact hqueue t ht hx'
  · intro w hw
    obtain ⟨r₀, hr₀, hrest⟩ := h.working w hw
    exact ⟨r₀, getElem?_modify_of_ne (hworker w hw) hr₀, hrest⟩
  · intro j r' hr' hmanual hstate hnot'
    rcases getElem?_modify_cases hr hr' with ⟨rfl, rfl⟩ | ⟨-, hj⟩
    · refine ⟨hloads.of_workflows rfl, past, rec, [], rfl, happroves, ?_, ?_⟩
      · rw [hbefore]
        exact hloads
      · intro x hx
        rw [mem_singleton.mp hx]
        exact hloads.of_workflows hafter
    · obtain ⟨hloaded, happroved⟩ := h.approved j r' hj hmanual hstate hnot'
      exact ⟨hloaded.of_workflows rfl, happroved.snoc (hloaded.of_workflows hafter)⟩
  · intro j r' hr' hmanual hstarted
    rcases getElem?_modify_cases hr hr' with ⟨rfl, rfl⟩ | ⟨-, hj⟩
    · have hstarted : r.executionStarted = true := hstarted
      rw [hnot] at hstarted
      cases hstarted
    · exact (h.started j r' hj hmanual hstarted).snoc rec

theorem Inv.dispatch (h : Inv past e) {task : Task} (htask : e.queue[i]? = some task)
    (hr : e.runs[task.run]? = some r) (hfailed : r.state ≠ .failed)
    (hloads : e.Loads r.workflowName r.plan) {wf : WorkflowDef}
    (hdefinition : r.plan.definition = some wf) (hdispatched : rec.output = .dispatched task.run)
    (hbefore : rec.before = e) (hafter : rec.after.workflows = e.workflows) :
    Inv (past ++ [rec]) { { e with queue := e.queue.eraseIdx i }.update task.run fun r =>
        { r.markRunning with executionStarted := true } with
      workers := e.workers ++ [⟨task.run, wf, .bound, task.key⟩] } := by
  obtain ⟨r₀, hr₀, hnot, hrunning⟩ := h.queued task (mem_of_getElem? htask)
  rw [hr] at hr₀
  obtain rfl := Option.some.inj hr₀
  replace hrunning : r.state = .running := hrunning.resolve_right hfailed
  have hothers := eraseIdx_tasks htask h.once
  have hmove := h.move hr (f := fun r => { r.markRunning with executionStarted := true }) rfl rfl
    (fun heq => by cases heq)
  obtain ⟨hcaptured, hwaiting⟩ := hmove
  refine ⟨hcaptured, hwaiting, ?_, ?_, ?_, ?_, ?_⟩
  · intro t ht
    obtain ⟨r₀, hr₀, hrest⟩ := h.queued t (mem_of_mem_eraseIdx ht)
    exact ⟨r₀, getElem?_modify_of_ne (hothers t ht) hr₀, hrest⟩
  · exact h.once.sublist ((eraseIdx_sublist _ _).map Task.run)
  · intro w hw
    rcases mem_append.mp hw with hw | hw
    · obtain ⟨r₀, hr₀, hstarted, hrest⟩ := h.working w hw
      by_cases heq : w.run = task.run
      · rw [heq, hr] at hr₀
        obtain rfl := Option.some.inj hr₀
        rw [hnot] at hstarted
        cases hstarted
      · exact ⟨r₀, getElem?_modify_of_ne heq hr₀, hstarted, hrest⟩
    · rw [mem_singleton.mp hw]
      exact ⟨_, getElem?_modify_self hr, rfl, hdefinition⟩
  · intro j r' hr' hmanual hstate hnot'
    rcases getElem?_modify_cases hr hr' with ⟨rfl, rfl⟩ | ⟨-, hj⟩
    · cases hnot'
    · obtain ⟨hloaded, happroved⟩ := h.approved j r' hj hmanual hstate hnot'
      exact ⟨hloaded.of_workflows rfl, happroved.snoc (hloaded.of_workflows hafter)⟩
  · intro j r' hr' hmanual hstarted
    rcases getElem?_modify_cases hr hr' with ⟨rfl, rfl⟩ | ⟨-, hj⟩
    · obtain ⟨-, happroved⟩ := h.approved task.run r hr hmanual hrunning hnot
      refine ⟨past, rec, [], rfl, hdispatched, ?_, happroved⟩
      rw [hbefore]
      exact hloads
    · exact (h.started j r' hj hmanual hstarted).snoc rec

/-! ## Whole runs -/

theorem workflows_admit (maxInflight : ℕ) (e : Engine) (d : LoadedDef) (name : String)
    (context : Context) (audited poolOpen : Bool) :
    (e.admitRun maxInflight d name context audited poolOpen).workflows = e.workflows := by
  unfold admitRun
  dsimp only
  split_ifs <;> rfl

theorem Inv.trigger (h : Inv past e) (maxInflight : ℕ) (name : String) (context : Context)
    (audited poolOpen : Bool)
    (hafter : rec.after = e.onTrigger maxInflight name context audited poolOpen) :
    Inv (past ++ [rec]) (e.onTrigger maxInflight name context audited poolOpen) := by
  unfold onTrigger at hafter ⊢
  cases hloaded : e.loaded name with
  | none =>
    rw [hloaded] at hafter
    exact h.calm (.refl e) (by rw [hafter])
  | some d =>
    rw [hloaded] at hafter
    dsimp only at hafter ⊢
    by_cases hauto : d.wf.autoRun = true
    · rw [if_pos hauto] at hafter ⊢
      exact h.admitRun maxInflight hauto name context audited poolOpen
        (by rw [hafter, workflows_admit])
    · rw [if_neg hauto] at hafter ⊢
      exact h.calm ⟨rfl, .refl _, .refl _, .refl _⟩ (by rw [hafter])

theorem approveRun_cases (maxInflight : ℕ) (e : Engine) (id : ℕ) (expected : List Char)
    (audited poolOpen : Bool) :
    ((∃ e', Calm e e' ∧ e.approveRun maxInflight id expected audited poolOpen = (e', false))) ∨
      ∃ r, e.runs[id]? = some r ∧ r.state = .pending ∧ e.Loads r.workflowName r.plan ∧
        expected = r.plan.digest ∧
        e.approveRun maxInflight id expected audited poolOpen =
          ({ e.update id WorkflowRun.markRunning with
              inflight := e.inflight + 1
              queue := e.queue ++ [⟨id, none⟩] }, true) := by
  unfold approveRun
  cases hr : e.runs[id]? with
  | none => exact .inl ⟨e, .refl e, rfl⟩
  | some r =>
    dsimp only
    by_cases hpending : r.state = .pending
    · rw [if_pos hpending]
      rcases validatePlan_cases e id r with ⟨hvalid, hloads⟩ | hvalid
      · rw [hvalid]
        dsimp only
        split_ifs with hdigest hfull hopen
        · exact .inl ⟨e, .refl e, rfl⟩
        · exact .inl ⟨e, .refl e, rfl⟩
        · rw [not_or, not_not] at hdigest
          exact .inr ⟨r, rfl, hpending, hloads, hdigest.2, rfl⟩
        · exact .inl ⟨e, .refl e, rfl⟩
      · rw [hvalid]
        exact .inl ⟨_, calm_markFailed e id _, rfl⟩
    · rw [if_neg hpending]
      exact .inl ⟨e, .refl e, rfl⟩

theorem Calm.releaseInflight (h : Calm e e') (key : Option (String × String)) :
    Calm e (e'.releaseInflight key) :=
  ⟨h.workflows, h.queue, h.workers, h.runs⟩

theorem dispatch_cases (e : Engine) (task : Task) :
    ((∃ e', Calm e e' ∧ e.dispatch task = (e', false))) ∨
      ∃ r wf, e.runs[task.run]? = some r ∧ r.state ≠ .failed ∧ e.Loads r.workflowName r.plan ∧
        r.plan.definition = some wf ∧
        e.dispatch task =
          ({ e.update task.run fun r => { r.markRunning with executionStarted := true } with
              workers := e.workers ++ [⟨task.run, wf, .bound, task.key⟩] }, true) := by
  unfold dispatch
  cases hr : e.runs[task.run]? with
  | none => exact .inl ⟨_, (Calm.refl e).releaseInflight task.key, rfl⟩
  | some r =>
    dsimp only
    by_cases hfailed : r.state = .failed
    · rw [if_pos hfailed]
      exact .inl ⟨_, (Calm.refl e).releaseInflight task.key, rfl⟩
    · rw [if_neg hfailed]
      rcases validatePlan_cases e task.run r with ⟨hvalid, hloads⟩ | hvalid
      · rw [hvalid]
        cases hdefinition : r.plan.definition with
        | none => exact .inl ⟨_, (Calm.refl e).releaseInflight task.key, rfl⟩
        | some wf => exact .inr ⟨r, wf, rfl, hfailed, hloads, hdefinition, rfl⟩
      · rw [hvalid]
        exact .inl ⟨_, (calm_markFailed e task.run _).releaseInflight task.key, rfl⟩

theorem workersSettle_eraseIdx (workers : List Worker) (i : ℕ) :
    WorkersSettle workers (workers.eraseIdx i) :=
  fun w' hw' => ⟨w', mem_of_mem_eraseIdx hw', rfl, rfl⟩

theorem calm_advance {w : Worker} (hw : e.workers[i]? = some w) (phase : Phase) :
    Calm e (e.advance i w phase) := by
  refine ⟨rfl, .refl _, ?_, .refl _⟩
  intro w' hw'
  rcases mem_or_eq_of_mem_set hw' with hmem | rfl
  · exact ⟨w', hmem, rfl, rfl⟩
  · exact ⟨w, mem_of_getElem? hw, rfl, rfl⟩

theorem calm_leave (e : Engine) (i : ℕ) (w : Worker) : Calm e (e.leave i w) :=
  ⟨rfl, .refl _, workersSettle_eraseIdx e.workers i, .refl _⟩

theorem calm_failRun (e : Engine) (i : ℕ) (w : Worker) (error : String) :
    Calm e (e.failRun i w error) :=
  ⟨rfl, .refl _, workersSettle_eraseIdx e.workers i, (calm_markFailed e w.run error).runs⟩

theorem Inv.calm_complete (h : Inv past e) {w : Worker} (hw : e.workers[i]? = some w) :
    Calm e ((e.update w.run WorkflowRun.markCompleted).leave i w) := by
  refine ⟨rfl, .refl _, workersSettle_eraseIdx e.workers i, ?_⟩
  refine runsSettle_modify fun r hr => ⟨rfl, rfl, rfl, .inr (.inr ⟨rfl, ?_⟩)⟩
  obtain ⟨r₀, hr₀, hstarted, -⟩ := h.working w (mem_of_getElem? hw)
  rw [hr] at hr₀
  obtain rfl := Option.some.inj hr₀
  exact hstarted

theorem Inv.calm_work (h : Inv past e) {w : Worker} (hw : e.workers[i]? = some w)
    (what : Engine.Work) :
    Calm e (e.work i w what).1 ∧ ∀ step, (e.work i w what).2 = some step →
      step ∈ w.definition.steps := by
  unfold work
  split
  · split
    · exact ⟨calm_advance hw _, fun step hstep => by cases hstep⟩
    · exact ⟨calm_leave e i w, fun step hstep => by cases hstep⟩
  · exact ⟨calm_advance hw _, fun step hstep => by cases hstep⟩
  · exact ⟨calm_failRun e i w _, fun step hstep => by cases hstep⟩
  · next done ends _ =>
    cases hstep : w.definition.steps[done]? with
    | none => exact ⟨h.calm_complete hw, fun step hnone => by cases hnone⟩
    | some step =>
      have hmem : ∀ step', some step = some step' → step' ∈ w.definition.steps := by
        intro step' heq
        obtain rfl := Option.some.inj heq
        exact mem_of_getElem? hstep
      cases ends with
      | succeeded => exact ⟨calm_advance hw _, hmem⟩
      | failed error => exact ⟨calm_failRun e i w _, hmem⟩
      | raised repr => exact ⟨calm_failRun e i w _, hmem⟩
  · exact ⟨.refl e, fun step hstep => by cases hstep⟩

theorem Inv.step (h : Inv past e) {maxInflight : ℕ} {ev : Event} {output : Output}
    (hstep : e.step maxInflight ev = (e', output)) :
    Inv (past ++ [⟨e, ev, e', output⟩]) e' := by
  cases ev with
  | reload defs =>
    obtain ⟨rfl, rfl⟩ := Prod.mk.inj hstep
    exact h.reload defs rfl
  | trigger name context audited poolOpen =>
    obtain ⟨rfl, rfl⟩ := Prod.mk.inj hstep
    exact h.trigger maxInflight name context audited poolOpen rfl
  | enqueue i =>
    simp only [Engine.step] at hstep
    cases hfire : e.fires[i]? with
    | none =>
      rw [hfire] at hstep
      obtain ⟨rfl, rfl⟩ := Prod.mk.inj hstep
      exact h.calm (.refl e) rfl
    | some fire =>
      rw [hfire] at hstep
      obtain ⟨rfl, rfl⟩ := Prod.mk.inj hstep
      have hcalm := calm_enqueuePending { e with fires := e.fires.eraseIdx i } fire.1 fire.2
      exact h.calm ⟨hcalm.workflows, hcalm.queue, hcalm.workers, hcalm.runs⟩ rfl
  | preview id =>
    obtain ⟨rfl, rfl⟩ := Prod.mk.inj hstep
    exact h.calm (calm_previewRun e id) rfl
  | approve id expected audited poolOpen =>
    simp only [Engine.step] at hstep
    rcases approveRun_cases maxInflight e id expected audited poolOpen with
      ⟨e₁, hcalm, heq⟩ | ⟨r, hr, hpending, hloads, rfl, heq⟩
    · rw [heq] at hstep
      obtain ⟨rfl, rfl⟩ := Prod.mk.inj hstep
      exact h.calm hcalm rfl
    · rw [heq] at hstep
      obtain ⟨rfl, rfl⟩ := Prod.mk.inj hstep
      exact h.approve hr hpending hloads ⟨⟨audited, poolOpen, rfl⟩, rfl⟩ rfl rfl (e.inflight + 1)
  | dispatch i =>
    simp only [Engine.step] at hstep
    cases htask : e.queue[i]? with
    | none =>
      rw [htask] at hstep
      obtain ⟨rfl, rfl⟩ := Prod.mk.inj hstep
      exact h.calm (.refl e) rfl
    | some task =>
      rw [htask] at hstep
      dsimp only at hstep
      rcases dispatch_cases { e with queue := e.queue.eraseIdx i } task with
        ⟨e₁, hcalm, heq⟩ | ⟨r, wf, hr, hfailed, hloads, hdefinition, heq⟩
      · rw [heq] at hstep
        obtain ⟨rfl, rfl⟩ := Prod.mk.inj hstep
        exact h.calm ⟨hcalm.workflows, hcalm.queue.trans (eraseIdx_sublist _ _),
          hcalm.workers, hcalm.runs⟩ rfl
      · rw [heq] at hstep
        obtain ⟨rfl, rfl⟩ := Prod.mk.inj hstep
        exact h.dispatch htask hr hfailed (hloads.of_workflows rfl) hdefinition rfl rfl rfl
  | work i what =>
    simp only [Engine.step] at hstep
    cases hw : e.workers[i]? with
    | none =>
      rw [hw] at hstep
      obtain ⟨rfl, rfl⟩ := Prod.mk.inj hstep
      exact h.calm (.refl e) rfl
    | some w =>
      have hcalm := (h.calm_work hw what).1
      rw [hw] at hstep
      dsimp only at hstep
      rcases hwork : e.work i w what with ⟨e₁, _ | step⟩
      · rw [hwork] at hstep hcalm
        obtain ⟨rfl, rfl⟩ := Prod.mk.inj hstep
        exact h.calm hcalm rfl
      · rw [hwork] at hstep hcalm
        obtain ⟨rfl, rfl⟩ := Prod.mk.inj hstep
        exact h.calm hcalm rfl

theorem History.inv {maxInflight : ℕ} (h : History maxInflight past e) : Inv past e := by
  induction h with
  | start =>
    refine ⟨?_, ?_, ?_, nodup_nil, ?_, ?_, ?_⟩
    · intro r hr
      cases hr
    · intro r hr
      cases hr
    · intro t ht
      cases ht
    · intro w hw
      cases hw
    · intro id r hr
      cases hr
    · intro id r hr
      cases hr
  | step _ ev ih => exact ih.step rfl

/-- Two texts with one digest. -/
def Collision (a b : List Char) : Prop := a ≠ b ∧ Sha256.hexdigest a = Sha256.hexdigest b

theorem definition_of_digest {d : LoadedDef} {plan : WorkflowPlan} {wf : WorkflowDef}
    (hdefinition : plan.definition = some wf) (hdigest : d.plan.digest = plan.digest) :
    d.wf.sorted = wf ∨ Collision d.plan.definitionJson plan.definitionJson := by
  by_cases htext : d.plan.definitionJson = plan.definitionJson
  · left
    have hloaded := (definition_capture d.dicts d.captured).1
    have hplan : d.plan.definition = plan.definition := by
      unfold WorkflowPlan.definition
      rw [htext]
    rw [hplan, hdefinition] at hloaded
    exact (Option.some.inj hloaded).symm
  · exact .inr ⟨htext, hdigest⟩

theorem Inv.executed {maxInflight : ℕ} (h : Inv past e) {ev : Event} {id : ℕ} {step : StepDef}
    (hstep : e.step maxInflight ev = (e', .executed id step)) :
    ∃ r wf, e.runs[id]? = some r ∧ r.executionStarted = true ∧ r.plan.definition = some wf ∧
      step ∈ wf.steps := by
  cases ev with
  | reload defs => cases (Prod.mk.inj hstep).2
  | trigger name context audited poolOpen => cases (Prod.mk.inj hstep).2
  | enqueue i =>
    simp only [Engine.step] at hstep
    cases hfire : e.fires[i]? with
    | none =>
      rw [hfire] at hstep
      cases (Prod.mk.inj hstep).2
    | some fire =>
      rw [hfire] at hstep
      cases (Prod.mk.inj hstep).2
  | preview id => cases (Prod.mk.inj hstep).2
  | approve id expected audited poolOpen => cases (Prod.mk.inj hstep).2
  | dispatch i =>
    simp only [Engine.step] at hstep
    cases htask : e.queue[i]? with
    | none =>
      rw [htask] at hstep
      cases (Prod.mk.inj hstep).2
    | some task =>
      rw [htask] at hstep
      dsimp only at hstep
      rcases hdispatch : Engine.dispatch { e with queue := e.queue.eraseIdx i } task with
        ⟨e₁, _ | _⟩
      · rw [hdispatch] at hstep
        cases (Prod.mk.inj hstep).2
      · rw [hdispatch] at hstep
        cases (Prod.mk.inj hstep).2
  | work i what =>
    simp only [Engine.step] at hstep
    cases hw : e.workers[i]? with
    | none =>
      rw [hw] at hstep
      cases (Prod.mk.inj hstep).2
    | some w =>
      rw [hw] at hstep
      dsimp only at hstep
      have hmem := (h.calm_work hw what).2
      rcases hwork : e.work i w what with ⟨e₁, _ | step'⟩
      · rw [hwork] at hstep
        cases (Prod.mk.inj hstep).2
      · rw [hwork] at hstep hmem
        obtain ⟨rfl, rfl⟩ := Output.executed.inj (Prod.mk.inj hstep).2
        obtain ⟨r, hr, hstarted, hdefinition⟩ := h.working w (mem_of_getElem? hw)
        exact ⟨r, w.definition, hr, hstarted, hdefinition, hmem step' rfl⟩

/-- In every history: when a step of a run is executed whose definition is not `auto_run`, then
the history splits at an approval and at a later dispatch of the run.  `approve_run` returned
true for the digest of the plan that the step comes from; a definition with this digest was
loaded under the name of the workflow at the approval, after every event up to the dispatch, and
at the dispatch; and such a definition is the executed one, unless its text collides with it. -/
theorem executed_plan_approved {maxInflight : ℕ} {past : List Record} {e e' : Engine}
    (h : History maxInflight past e) {ev : Event} {id : ℕ} {step : StepDef}
    (hstep : e.step maxInflight ev = (e', .executed id step)) :
    ∃ r wf, e.runs[id]? = some r ∧ r.plan.definition = some wf ∧ step ∈ wf.steps ∧
      WorkflowPlan.capture wf = .ok r.plan ∧
      (wf.autoRun = false → ∃ a approval b dispatch c, past = a ++ approval :: b ++ dispatch :: c ∧
        approval.Approves id r.plan ∧ dispatch.output = .dispatched id ∧
        approval.before.Loads r.workflowName r.plan ∧
        (∀ rec ∈ approval :: b, rec.after.Loads r.workflowName r.plan) ∧
        dispatch.before.Loads r.workflowName r.plan) ∧
      ∀ d : LoadedDef, d.plan.digest = r.plan.digest →
        d.wf.sorted = wf ∨ Collision d.plan.definitionJson r.plan.definitionJson := by
  have hinv := h.inv
  obtain ⟨r, wf, hr, hstarted, hdefinition, hmem⟩ := hinv.executed hstep
  have hcapture : WorkflowPlan.capture wf = .ok r.plan := by
    obtain ⟨d, hd⟩ := hinv.captured r (List.mem_of_getElem? hr)
    obtain ⟨hplan, hagain⟩ := definition_capture d.dicts d.captured
    rw [hd, hdefinition] at hplan
    obtain rfl := Option.some.inj hplan
    rw [hagain, hd]
  refine ⟨r, wf, hr, hdefinition, hmem, hcapture, ?_,
    fun d hdigest => definition_of_digest hdefinition hdigest⟩
  intro hmanual
  obtain ⟨a', dispatch, c, rfl, hdispatch, hloads, happroved⟩ :=
    hinv.started id r hr ⟨wf, hdefinition, hmanual⟩ hstarted
  obtain ⟨a, approval, b, rfl, happroves, hbefore, hafter⟩ := happroved
  exact ⟨a, approval, b, dispatch, c, rfl, happroves, hdispatch, hbefore, hafter, hloads⟩

/-- The engine after a list of events, with the records of them. -/
def Engine.replay (maxInflight : ℕ) (past : List Record) (e : Engine) :
    List Event → List Record × Engine
  | [] => (past, e)
  | ev :: rest =>
    Engine.replay maxInflight
      (past ++ [⟨e, ev, (e.step maxInflight ev).1, (e.step maxInflight ev).2⟩])
      (e.step maxInflight ev).1 rest

theorem History.replay {maxInflight : ℕ} (h : History maxInflight past e) (events : List Event) :
    History maxInflight (e.replay maxInflight past events).1
      (e.replay maxInflight past events).2 := by
  induction events generalizing past e with
  | nil => exact h
  | cons ev rest ih => exact ih (h.step ev)

/-- A workflow with one hook. -/
def hookWorkflow : WorkflowDef where
  name := "hook"
  trigger := ⟨.processSpawn, []⟩
  steps := [⟨.runHook, "", []⟩]

theorem hookWorkflow_dicts : JsonText.Distinct hookWorkflow.data := by
  refine ⟨by decide, ?_⟩
  simp [JsonText.DistinctFields, JsonText.Distinct, JsonText.DistinctItems, hookWorkflow,
    TriggerDef.data, StepDef.data, rolesFields]

def hookDef : LoadedDef where
  wf := hookWorkflow
  dicts := hookWorkflow_dicts
  plan := ⟨JsonText.dumpsSorted JsonText.compactSeps hookWorkflow.data⟩
  captured := by decide +kernel

/-- The hook is triggered, approved and dispatched. -/
def hookEvents : List Event :=
  [.reload [hookDef], .trigger "hook" ⟨none, []⟩ true true, .enqueue 0,
    .approve 0 hookDef.plan.digest true true, .dispatch 0, .work 0 (.audit true),
    .work 0 (.conditions none)]

theorem hexdigest_ne_nil (text : List Char) : Sha256.hexdigest text ≠ [] := by
  unfold Sha256.hexdigest Sha256.digest
  simp [Sha256.hexWord, Sha256.beBytes]

theorem replay_hookEvents :
    (replay 1 [] {} hookEvents).2.runs.map WorkflowRun.plan = [hookDef.plan] ∧
      ((replay 1 [] {} hookEvents).2.step 1 (.work 0 (.step .succeeded))).2 =
        .executed 0 ⟨.runHook, "", []⟩ := by
  have hdefinition : hookDef.plan.definition = some hookDef.wf.sorted :=
    (definition_capture hookDef.dicts hookDef.captured).1
  have hdigest : ¬hookDef.plan.digest = [] := hexdigest_ne_nil _
  have hname : hookDef.wf.name = "hook" := rfl
  have hmanual : hookDef.wf.autoRun = false := rfl
  have hsteps : hookDef.wf.sorted.steps = [⟨.runHook, "", []⟩] := rfl
  simp [hookEvents, replay, step, loadWorkflows, onTrigger,
    loaded, hname, hmanual, enqueuePending, scanPending, approveRun,
    validatePlan, planMatches, hdigest, update, dispatch, hdefinition,
    WorkflowRun.markRunning, work, advance, hsteps]

/-- The run of the hook was approved. -/
theorem executed_hook_approved :
    ∃ a approval b dispatch c, (Engine.replay 1 [] {} hookEvents).1 =
        a ++ approval :: b ++ dispatch :: c ∧
      approval.Approves 0 hookDef.plan ∧ dispatch.output = .dispatched 0 := by
  obtain ⟨hplans, hexecuted⟩ := replay_hookEvents
  obtain ⟨r, wf, hr, hdefinition, -, -, hsplit, -⟩ :=
    executed_plan_approved (History.start.replay hookEvents) (Prod.ext rfl hexecuted)
  have hplan : r.plan = hookDef.plan := by
    have hmem := List.mem_map_of_mem (f := WorkflowRun.plan) (List.mem_of_getElem? hr)
    rw [hplans] at hmem
    exact List.mem_singleton.mp hmem
  rw [hplan, (definition_capture hookDef.dicts hookDef.captured).1] at hdefinition
  obtain rfl := Option.some.inj hdefinition
  obtain ⟨a, approval, b, dispatch, c, hpast, happroves, hdispatched, -⟩ := hsplit rfl
  rw [hplan] at happroves
  exact ⟨a, approval, b, dispatch, c, hpast, happroves, hdispatched⟩

end Workflow
