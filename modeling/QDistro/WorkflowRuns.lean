/-
# Runs of the workflow engine

`workflow_engine.py`, the part that admits, approves and dispatches runs.  A trigger of an
`auto_run` workflow queues a run at once; any other trigger leaves a pending run, which an
administrator previews and approves by the digest of its plan.  A worker takes a queued run and
executes the steps of the definition that the run captured.

Every section under `_runs_lock` is one event here, and what a thread does between two sections is
an event of its own.  So a trigger is two events (the lock is released before `_enqueue_pending`),
and a worker takes one event to start and one for each step.  The events of different threads
interleave in any order.  Run ids are positions in the list of runs.
-/
import QDistro.WorkflowPlans

namespace Workflow

/-- `RunState` -/
inductive RunState where
  | pending
  | running
  | failed
  | completed
  | interrupted
  | expired
  deriving DecidableEq, Repr

/-- The trigger context: its control group as text, if it has one, and the rest. -/
structure Context where
  cgroup : Option String
  fields : Fields

/-- `WorkflowRun` -/
structure WorkflowRun where
  workflowName : String
  context : Context
  plan : WorkflowPlan
  state : RunState := .pending
  executionStarted : Bool := false
  error : String := ""

def WorkflowRun.markRunning (r : WorkflowRun) : WorkflowRun := { r with state := .running }

def WorkflowRun.markCompleted (r : WorkflowRun) : WorkflowRun := { r with state := .completed }

def WorkflowRun.markFailed (r : WorkflowRun) (error : String) : WorkflowRun :=
  { r with state := .failed, error := error }

/-- `_dedup_key` -/
def dedupKey (name : String) (context : Context) : Option (String × String) :=
  context.cgroup.map fun cgroup => (name, cgroup)

/-- How far a worker has come with its run. -/
inductive Phase where
  /-- The plan is bound; the start of the run is not audited yet. -/
  | bound
  /-- The conditions are to be evaluated. -/
  | gate
  /-- A number of steps is done. -/
  | steps (done : ℕ)
  deriving DecidableEq

/-- A worker that executes a run. -/
structure Worker where
  run : ℕ
  definition : WorkflowDef
  phase : Phase
  key : Option (String × String)

/-- A task of the worker pool: a run, and the key that its end releases. -/
structure Task where
  run : ℕ
  key : Option (String × String)

structure Engine where
  workflows : List LoadedDef := []
  runs : List WorkflowRun := []
  /-- Triggers that fired for a workflow without `auto_run` and still have to leave a run. -/
  fires : List (String × Context) := []
  queue : List Task := []
  workers : List Worker := []
  inflight : ℕ := 0
  activeKeys : List (String × String) := []

namespace Engine

/-- `self._workflows.get(name)`; of two definitions with one name the later counts. -/
def loaded (e : Engine) (name : String) : Option LoadedDef :=
  e.workflows.reverse.find? fun d => d.wf.name = name

/-- `_plan_matches` -/
def planMatches (e : Engine) (r : WorkflowRun) : Bool :=
  match e.loaded r.workflowName with
  | some d => decide (d.plan.digest = r.plan.digest)
  | none => false

/-- What `_invalidate_runs` does to a run. -/
def invalidate (r : WorkflowRun) : WorkflowRun :=
  r.markFailed "workflow definition changed or was removed; approval invalidated"

/-- A run with one of its runs replaced. -/
def update (e : Engine) (id : ℕ) (f : WorkflowRun → WorkflowRun) : Engine :=
  { e with runs := e.runs.modify id f }

/-- `_validate_plan`: the engine after it, and its answer. -/
def validatePlan (e : Engine) (id : ℕ) (r : WorkflowRun) : Engine × Bool :=
  if e.planMatches r then (e, true) else (e.update id invalidate, false)

/-- `load_workflows`, with what the loader returned. -/
def loadWorkflows (e : Engine) (defs : List LoadedDef) : Engine :=
  let e := { e with workflows := defs }
  { e with
    runs := e.runs.map fun r =>
      if !r.executionStarted && (r.state = .pending || r.state = .running) && !e.planMatches r then
        invalidate r
      else r }

/-- `_release_inflight` -/
def releaseInflight (e : Engine) (key : Option (String × String)) : Engine :=
  { e with
    inflight := e.inflight - 1
    activeKeys := e.activeKeys.filter fun k => some k ≠ key }

/-- The first section of `_on_trigger`, for a workflow with `auto_run`. -/
def admitRun (maxInflight : ℕ) (e : Engine) (d : LoadedDef) (name : String) (context : Context)
    (audited poolOpen : Bool) : Engine :=
  let key := dedupKey name context
  if maxInflight ≤ e.inflight then e
  else if key.any fun k => e.activeKeys.elem k then e
  else
    let id := e.runs.length
    let e' : Engine := { e with
      inflight := e.inflight + 1
      activeKeys := e.activeKeys ++ key.toList
      runs := e.runs ++ [{ workflowName := name, context, plan := d.plan, state := .running }] }
    if !audited then
      (e'.update id fun r => r.markFailed "automatic run admission audit failed").releaseInflight key
    else if poolOpen then { e' with queue := e'.queue ++ [⟨id, key⟩] }
    else (e'.update id fun r => r.markFailed "worker pool unavailable").releaseInflight key

/-- `_on_trigger`, up to `_enqueue_pending`. -/
def onTrigger (maxInflight : ℕ) (e : Engine) (name : String) (context : Context)
    (audited poolOpen : Bool) : Engine :=
  match e.loaded name with
  | none => e
  | some d =>
    if d.wf.autoRun then e.admitRun maxInflight d name context audited poolOpen
    else { e with fires := e.fires ++ [(name, context)] }

/-- The loop of `_enqueue_pending` over the runs: stale pending runs are invalidated until one
that still stands is found. -/
def scanPending (e : Engine) (name : String) (key : Option (String × String)) :
    List WorkflowRun → List WorkflowRun × Bool
  | [] => ([], false)
  | r :: rest =>
    if r.state = .pending ∧ r.workflowName = name ∧ dedupKey name r.context = key then
      if e.planMatches r then (r :: rest, true)
      else
        let (rest', found) := scanPending e name key rest
        (invalidate r :: rest', found)
    else
      let (rest', found) := scanPending e name key rest
      (r :: rest', found)

/-- `_enqueue_pending` -/
def enqueuePending (e : Engine) (name : String) (context : Context) : Engine :=
  let (runs, found) := e.scanPending name (dedupKey name context) e.runs
  let e := { e with runs := runs }
  if found then e
  else
    match e.loaded name with
    | none => e
    | some d => { e with runs := e.runs ++ [{ workflowName := name, context, plan := d.plan }] }

/-- `preview_run`: the engine after it, and the digest that it shows. -/
def previewRun (e : Engine) (id : ℕ) : Engine × Option (List Char) :=
  match e.runs[id]? with
  | none => (e, none)
  | some r =>
    if r.state = .pending then
      match e.validatePlan id r with
      | (e', true) => (e', some r.plan.digest)
      | (e', false) => (e', none)
    else (e, none)

/-- `approve_run`: the engine after it, and its answer. -/
def approveRun (maxInflight : ℕ) (e : Engine) (id : ℕ) (expected : List Char)
    (audited poolOpen : Bool) : Engine × Bool :=
  match e.runs[id]? with
  | none => (e, false)
  | some r =>
    if r.state = .pending then
      match e.validatePlan id r with
      | (e', false) => (e', false)
      | (e', true) =>
        if expected = [] ∨ expected ≠ r.plan.digest then (e', false)
        else if maxInflight ≤ e'.inflight then (e', false)
        else if audited && poolOpen then
          ({ e'.update id WorkflowRun.markRunning with
              inflight := e'.inflight + 1
              queue := e'.queue ++ [⟨id, none⟩] }, true)
        else (e', false)
    else (e, false)

/-- The locked section of `_execute_existing_run`: a worker takes a task. -/
def dispatch (e : Engine) (task : Task) : Engine × Bool :=
  match e.runs[task.run]? with
  | none => (e.releaseInflight task.key, false)
  | some r =>
    if r.state = .failed then (e.releaseInflight task.key, false)
    else
      match e.validatePlan task.run r with
      | (e', false) => (e'.releaseInflight task.key, false)
      | (e', true) =>
        match r.plan.definition with
        | none => (e'.releaseInflight task.key, false)
        | some wf =>
          ({ e'.update task.run fun r => { r.markRunning with executionStarted := true } with
              workers := e'.workers ++ [⟨task.run, wf, .bound, task.key⟩] }, true)

/-- How a step ends.  `_execute_step` raises nothing; what raises is the audit after it. -/
inductive StepEnd where
  | succeeded
  | failed (error : String)
  | raised (repr : String)
  deriving DecidableEq

/-- What a worker meets next. -/
inductive Work where
  /-- The audit of the start of the run. -/
  | audit (ok : Bool)
  /-- The conditions of the workflow, and why they do not hold. -/
  | conditions (rejects : Option String)
  | step (ends : StepEnd)
  deriving DecidableEq

/-- `step.name or f"step-{i}"` -/
def stepName (step : StepDef) (i : ℕ) : String :=
  if step.name = "" then s!"step-{i}" else step.name

/-- The worker at a position leaves. -/
def leave (e : Engine) (i : ℕ) (w : Worker) : Engine :=
  { e with workers := e.workers.eraseIdx i }.releaseInflight w.key

/-- The worker at a position goes on. -/
def advance (e : Engine) (i : ℕ) (w : Worker) (phase : Phase) : Engine :=
  { e with workers := e.workers.set i { w with phase := phase } }

/-- The run of a worker fails, and the worker leaves. -/
def failRun (e : Engine) (i : ℕ) (w : Worker) (error : String) : Engine :=
  (e.update w.run fun r => r.markFailed error).leave i w

/-- One event of the worker at a position: the engine after it, and the step that it executed. -/
def work (e : Engine) (i : ℕ) (w : Worker) (what : Work) : Engine × Option StepDef :=
  match w.phase, what with
  | .bound, .audit ok => (if ok then e.advance i w .gate else e.leave i w, none)
  | .gate, .conditions none => (e.advance i w (.steps 0), none)
  | .gate, .conditions (some reason) =>
    (e.failRun i w s!"conditions not satisfied: {reason}", none)
  | .steps done, .step ends =>
    match w.definition.steps[done]? with
    | none => ((e.update w.run WorkflowRun.markCompleted).leave i w, none)
    | some step =>
      match ends with
      | .succeeded => (e.advance i w (.steps (done + 1)), some step)
      | .failed error =>
        (e.failRun i w s!"step {stepName step done} ({step.type.text}) failed: {error}", some step)
      | .raised repr => (e.failRun i w s!"uncaught exception: {repr}", some step)
  | _, _ => (e, none)

end Engine

/-! ## Events -/

inductive Event where
  | reload (defs : List LoadedDef)
  | trigger (name : String) (context : Context) (audited poolOpen : Bool)
  /-- The trigger at a position leaves its pending run. -/
  | enqueue (i : ℕ)
  | preview (id : ℕ)
  | approve (id : ℕ) (expected : List Char) (audited poolOpen : Bool)
  /-- A worker takes the task at a position. -/
  | dispatch (i : ℕ)
  /-- The worker at a position goes on. -/
  | work (i : ℕ) (what : Engine.Work)

/-- What is seen of an event. -/
inductive Output where
  | quiet
  | previewed (digest : Option (List Char))
  | approved (ok : Bool)
  | dispatched (id : ℕ)
  | executed (id : ℕ) (step : StepDef)

/-- One event. -/
def Engine.step (maxInflight : ℕ) (e : Engine) (ev : Event) : Engine × Output :=
  match ev with
  | .reload defs => (e.loadWorkflows defs, .quiet)
  | .trigger name context audited poolOpen =>
    (e.onTrigger maxInflight name context audited poolOpen, .quiet)
  | .enqueue i =>
    match e.fires[i]? with
    | none => (e, .quiet)
    | some (name, context) =>
      ({ e with fires := e.fires.eraseIdx i }.enqueuePending name context, .quiet)
  | .preview id => ((e.previewRun id).1, .previewed (e.previewRun id).2)
  | .approve id expected audited poolOpen =>
    ((e.approveRun maxInflight id expected audited poolOpen).1,
      .approved (e.approveRun maxInflight id expected audited poolOpen).2)
  | .dispatch i =>
    match e.queue[i]? with
    | none => (e, .quiet)
    | some task =>
      match { e with queue := e.queue.eraseIdx i }.dispatch task with
      | (e', true) => (e', .dispatched task.run)
      | (e', false) => (e', .quiet)
  | .work i what =>
    match e.workers[i]? with
    | none => (e, .quiet)
    | some w =>
      match e.work i w what with
      | (e', none) => (e', .quiet)
      | (e', some step) => (e', .executed w.run step)

/-- One event of a history. -/
structure Record where
  before : Engine
  event : Event
  after : Engine
  output : Output

/-- The histories of the engine, the latest event last. -/
inductive History (maxInflight : ℕ) : List Record → Engine → Prop
  | start : History maxInflight [] {}
  | step {past : List Record} {e : Engine} (h : History maxInflight past e) (ev : Event) :
      History maxInflight
        (past ++ [⟨e, ev, (e.step maxInflight ev).1, (e.step maxInflight ev).2⟩])
        (e.step maxInflight ev).1

end Workflow
