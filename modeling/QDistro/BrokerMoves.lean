/-
# What a step of the broker can do

Every section of every method is a chain of a few elementary moves: an event is
recorded, a request is created, settled, parked on, or handed to a method in progress,
a cookie is bound or released.  `Move` lists them with the guards the code
establishes before it makes them.  Properties of runs are proved once per move.

A `Discipline` says what the moves of a run may do.  The moves concerned carry it as a
premise, so the same list serves runs of every kind; by default everything is allowed.
-/
import QDistro.BrokerStep

namespace Broker

/-! ## Facts recorded in the trace -/

/-- An allow row for this subject and action has been written. -/
def AuditedAllow (t : List Event) (uid pid : ℤ) (action : String) : Prop :=
  ∃ row : AuditRow, .audited row ∈ t ∧ row.decision = true ∧ row.callerUid = uid
    ∧ row.callerPid = pid ∧ row.action = action

/-- The connection has announced or filed the cookie. -/
def Introduced (t : List Event) (name cookie : String) : Prop :=
  (∃ sender : Sender, sender.name = name ∧ .announced sender cookie ∈ t)
    ∨ ∃ rid f raw, .filed rid f raw ∈ t ∧ f.filedBy = name ∧ f.polkitCookie = cookie

/-- Events that no property of the broker's tables speaks about. -/
def Event.quiet : Event → Bool
  | .audited _ | .auditFailed _ | .gone _ | .requestPending _ | .requestDecided _ _
  | .checked _ | .returned _ | .raised _ => true
  | _ => false

/-- The basis does not decide a delegated or sandboxed request by an argv-blind row. -/
def BlindSafe (delegated : Bool) : Basis → Prop
  | .cached row sandboxed => delegated = true ∨ sandboxed = true → row.matchKind.argvBlind = false
  | _ => True

/-! ## Methods in progress -/

/-- The request whose decision a method in progress is carrying out. -/
def Task.owner : Task → Option ℕ
  | .enqueueRecord rid _ => some rid
  | .decideAudit f | .decideDowngrade f _ | .decidePublish f | .decideFinalise f _ => some f.rid
  | .hookRelease rid _ => some rid
  | _ => none

/-- The frame of a `DecideRequest` in progress. -/
def Task.frame : Task → Option DecideFrame
  | .decideAudit f | .decideDowngrade f _ | .decidePublish f | .decideFinalise f _ => some f
  | _ => none

/-- The waiters a method in progress will answer. -/
def Task.waiters : Task → List Waiter
  | .decideAudit f | .decideDowngrade f _ | .decidePublish f | .decideFinalise f _ => f.waiters
  | .hookRelease _ ws => ws
  | _ => []

variable (cfg : Config)

/-- The connection behind a filing is the subject the bus recorded for it. -/
def SubjectOk (f : Filing) : Prop :=
  f.filedBy ≠ "" →
    ∃ sender : Sender, f.filedBy = sender.name ∧ f.uid = cfg.connUid sender
      ∧ f.pid = cfg.connPid sender

/-- The arguments stored with a request are those of its sanitised details. -/
def CleanDetails (f : Filing) (raw : Details) : Prop :=
  argvFromDetails cfg.udb f.details = argvFromDetails cfg.udb (sanitizeDetails cfg.udb raw)

/-- What `_enqueue` guarantees of a request it is about to create. -/
structure FrameOk (fr : EnqueueFrame) : Prop where
  subject : SubjectOk cfg fr.filing
  plain : fr.polkit = false → fr.filing.polkitCookie = ""
  clean : CleanDetails cfg fr.filing fr.raw
  pinned : ∀ b, fr.pre = some b → BlindSafe fr.filing.delegated b
  prompted : fr.pre ≠ some .hook ∧ fr.pre ≠ some .prompt ∧ fr.pre ≠ some .polkit

/-- A required audit row for the request has been written if it was allowed. -/
def AllowAudited (s : State) (f : Filing) (allowed : Bool) : Prop :=
  allowed = true → cfg.auditRequired = true → AuditedAllow s.trace f.uid f.pid f.action

/-- What holds while a method is in progress. -/
def TaskOk (s : State) : Task → Prop
  | .enqueueCreate fr => FrameOk cfg fr
  | .enqueueRecord rid _ => ∃ r, s.reqs rid = some r ∧ r.decision ≠ none ∧ r.finalizing = false
  | .decideAudit f | .decideDowngrade f _ =>
    ∃ r, s.reqs f.rid = some r ∧ r.decision = some f.allowed ∧ r.finalizing = true
      ∧ f.cacheArgv = argvFromDetails cfg.udb r.details
  | .decidePublish f | .decideFinalise f _ =>
    ∃ r, s.reqs f.rid = some r ∧ r.decision = some f.allowed ∧ r.finalizing = true
      ∧ f.cacheArgv = argvFromDetails cfg.udb r.details
      ∧ AllowAudited cfg s r.toFiling f.allowed
  | .hookRelease rid _ =>
    ∃ r, s.reqs rid = some r ∧ r.decision = some true ∧ r.finalizing = false
      ∧ AllowAudited cfg s r.toFiling true
  | .respondRelay sender _ cookie _ req =>
    Introduced s.trace sender.name cookie
      ∧ ∀ rid, req = some rid → ∃ r, s.reqs rid = some r ∧ r.filedBy = sender.name
  | .respondResolve rid => ∃ r, s.reqs rid = some r ∧ AllowAudited cfg s r.toFiling true
  | .cancelHits _ _ _ => True

/-! ## Moves -/

/-- What the moves of a run may do. -/
structure Discipline where
  /-- No audited re-record of `_enqueue` changes the decision it records. -/
  steady : Prop := False
  /-- No hook completion decides a delegated request by an argv-blind row. -/
  pinned : Prop := False
  /-- How the table of cancel marks may change. -/
  marks : PyDict String CancelMark → PyDict String CancelMark → Prop := fun _ _ => True
  /-- The requests that may be created, with the decision they are created with. -/
  files : Filing → Option Bool → Prop := fun _ _ => True
  /-- The responses that may be sent to polkitd. -/
  responds : PolkitResponse → Prop := fun _ => True
  /-- The methods that may be left in progress. -/
  pushes : Task → Prop := fun _ => True

variable (d : Discipline)

/-- The waiters parked on a request. -/
def State.parked (s : State) (rid : ℕ) : List Waiter :=
  ((s.reqs rid).map fun r => r.waiters).getD []

/-- An elementary move of the broker. -/
inductive Move : State → State → Prop
  | quiet (s : State) (e : Event) (h : e.quiet = true) : Move s (s.emit e)
  | tables (s : State) (rules : List Rule) (cache : List CacheRow) (hookPending : List ℕ) :
      Move s { s with rules := rules, cache := cache, hookPending := hookPending }
  | marks (s : State) (cancelled : PyDict String CancelMark) (h : d.marks s.cancelled cancelled) :
      Move s { s with cancelled := cancelled }
  | decided (s : State) (rid : ℕ) (b : Bool) (basis : Basis) (r : Request)
      (hr : s.reqs rid = some r) (h : d.pinned → BlindSafe r.delegated basis) :
      Move s (s.emit (.decided rid b basis))
  | stored (s : State) (rid : ℕ) (scope : Scope) (row : CacheRow) (r : Request)
      (hr : s.reqs rid = some r) (ha : AllowAudited cfg s r.toFiling true)
      (hrow : ∃ rows now admin, storeRow rows now r.uid r.action r.exe scope true admin
        (argvFromDetails cfg.udb r.details) = some row) :
      Move s (s.emit (.stored rid scope row))
  | responded (s : State) (p : PolkitResponse)
      (ha : cfg.auditRequired = true → AuditedAllow s.trace p.uid p.pid p.action)
      (hi : p.relayed = true → Introduced s.trace p.owner p.cookie) (hp : d.responds p) :
      Move s (s.emit (.responded p))
  | unbind (s : State) (p : String × (Sender × Time) → Bool) :
      Move s { s with announced := s.announced.filter p }
  | bind (s : State) (sender : Sender) (cookie : String) (t : Time) (hne : cookie ≠ "")
      (hp : ∀ rid ∈ s.pending, ∀ r, s.reqs rid = some r → r.polkitCookie = cookie →
        r.filedBy = sender.name) :
      Move s ({ s with announced := s.announced.insert cookie (sender, t) }.emit
        (.announced sender cookie))
  | create (s : State) (f : Filing) (raw : Details) (decision : Option Bool)
      (hd : decision ≠ some true) (hs : SubjectOk cfg f) (hc : CleanDetails cfg f raw)
      (hann : f.polkitCookie ≠ "" → ∀ sender t, s.announced.get? f.polkitCookie = some (sender, t) →
        sender.name = f.filedBy)
      (hfiled : f.polkitCookie ≠ "" → ∀ rid ∈ s.pending, ∀ r, s.reqs rid = some r →
        r.polkitCookie = f.polkitCookie → r.filedBy = f.filedBy) (hf : d.files f decision) :
      Move s (s.create f raw decision)
  | createDecided (s : State) (f : Filing) (raw : Details) (b : Basis)
      (hs : SubjectOk cfg f) (hc : CleanDetails cfg f raw) (hb : BlindSafe f.delegated b)
      (hann : f.polkitCookie ≠ "" → ∀ sender t, s.announced.get? f.polkitCookie = some (sender, t) →
        sender.name = f.filedBy)
      (hfiled : f.polkitCookie ≠ "" → ∀ rid ∈ s.pending, ∀ r, s.reqs rid = some r →
        r.polkitCookie = f.polkitCookie → r.filedBy = f.filedBy)
      (hf : d.files f (some b.allows)) :
      Move s (((s.create f raw (some b.allows)).emit (.decided s.nextId b.allows b)).push
        (.enqueueRecord s.nextId b))
  | record (s : State) (i rid : ℕ) (basis : Basis) (r : Request) (b : Bool)
      (hi : s.tasks[i]? = some (.enqueueRecord rid basis)) (hr : s.reqs rid = some r)
      (hlow : b = true → r.decision = some true) (hsteady : d.steady → r.decision = some b)
      (ha : AllowAudited cfg s r.toFiling b) :
      Move s ({ s with tasks := s.tasks.eraseIdx i }.setStatus rid (Status.recorded b))
  | park (s : State) (rid : ℕ) (r : Request) (hr : s.reqs rid = some r)
      (ho : ¬(r.decision ≠ none ∧ r.finalizing = false)) :
      Move s (({ s with nextWaiter := s.nextWaiter + 1 }.emit
          (.waiting (Waiter.mk rid s.nextWaiter))).setStatus rid
        (Status.joined (Waiter.mk rid s.nextWaiter)))
  | answerNow (s : State) (rid : ℕ) (r : Request) (b : Bool) (hr : s.reqs rid = some r)
      (hd : r.decision = some b) (hf : r.finalizing = false) :
      Move s (({ s with nextWaiter := s.nextWaiter + 1 }.emit
          (.waiting (Waiter.mk rid s.nextWaiter))).emit
        (.answered (Waiter.mk rid s.nextWaiter) b true))
  | settle (s : State) (rid : ℕ) (r : Request) (b : Bool) (hr : s.reqs rid = some r)
      (hd : r.decision = none) (ha : AllowAudited cfg s r.toFiling b) :
      Move s (Broker.settle s rid b)
  | beginDecide (s : State) (f : DecideFrame) (r : Request) (hr : s.reqs f.rid = some r)
      (hd : r.decision = none) (hw : f.waiters = r.waiters)
      (hc : f.cacheArgv = argvFromDetails cfg.udb r.details) :
      Move s ((s.setStatus f.rid (Status.provisional f.allowed)).push (.decideAudit f))
  | hold (s : State) (rid : ℕ) (r : Request) (hr : s.reqs rid = some r)
      (hd : r.decision = none) (ha : AllowAudited cfg s r.toFiling true) :
      Move s ((s.setStatus rid (Status.settled true)).push (.hookRelease rid r.waiters))
  | advance (s : State) (i : ℕ) (t t' : Task) (f : DecideFrame) (hi : s.tasks[i]? = some t)
      (ht : t.frame = some f) (ht' : t'.frame = some f) (hok : TaskOk cfg s t') :
      Move s { s with tasks := s.tasks.eraseIdx i ++ [t'] }
  | downgrade (s : State) (i : ℕ) (f : DecideFrame) (error : String)
      (hi : s.tasks[i]? = some (.decideDowngrade f error)) :
      Move s (({ s with tasks := s.tasks.eraseIdx i }.setStatus f.rid
        (Status.downgraded (decide (f.rid ∈ s.pending)))).answer f.rid false
          (f.waiters ++ s.parked f.rid))
  | finalise (s : State) (i : ℕ) (f : DecideFrame) (cachedOk : Bool)
      (hi : s.tasks[i]? = some (.decideFinalise f cachedOk)) :
      Move s (({ s with tasks := s.tasks.eraseIdx i }.setStatus f.rid Status.finalised).answer
        f.rid f.allowed (f.waiters ++ s.parked f.rid))
  | release (s : State) (i rid : ℕ) (ws : List Waiter)
      (hi : s.tasks[i]? = some (.hookRelease rid ws)) :
      Move s ({ s with tasks := s.tasks.eraseIdx i }.answer rid true ws)
  | push (s : State) (t : Task) (ho : t.owner = none) (hok : TaskOk cfg s t) (hp : d.pushes t) :
      Move s (s.push t)
  | drop (s : State) (i : ℕ) (t : Task) (hi : s.tasks[i]? = some t) (ho : t.owner = none) :
      Move s { s with tasks := s.tasks.eraseIdx i }
  | stamp (s : State) (rid : ℕ) (t : Time) :
      Move s (s.setStatus rid (Status.stamped t))
  | reap (s : State) (rid : ℕ) (r : Request) (hr : s.reqs rid = some r) (hd : r.decision ≠ none) :
      Move s { s with pending := s.pending.erase rid }

/-- A chain of moves. -/
abbrev Moves : State → State → Prop := Relation.ReflTransGen (Move cfg d)

/-! ## How the tables change under the updates -/

section

variable (s : State)

section

variable (e : Event)

@[simp] theorem emit_reqs : (s.emit e).reqs = s.reqs := rfl
@[simp] theorem emit_pending : (s.emit e).pending = s.pending := rfl
@[simp] theorem emit_tasks : (s.emit e).tasks = s.tasks := rfl
@[simp] theorem emit_trace : (s.emit e).trace = e :: s.trace := rfl
@[simp] theorem emit_nextId : (s.emit e).nextId = s.nextId := rfl
@[simp] theorem emit_nextWaiter :
    (s.emit e).nextWaiter = s.nextWaiter := rfl
@[simp] theorem emit_announced : (s.emit e).announced = s.announced := rfl
@[simp] theorem emit_cancelled : (s.emit e).cancelled = s.cancelled := rfl

end

section

variable (t : Task)

@[simp] theorem push_reqs : (s.push t).reqs = s.reqs := rfl
@[simp] theorem push_pending : (s.push t).pending = s.pending := rfl
@[simp] theorem push_tasks : (s.push t).tasks = s.tasks ++ [t] := rfl
@[simp] theorem push_trace : (s.push t).trace = s.trace := rfl
@[simp] theorem push_nextId : (s.push t).nextId = s.nextId := rfl
@[simp] theorem push_nextWaiter :
    (s.push t).nextWaiter = s.nextWaiter := rfl
@[simp] theorem push_announced : (s.push t).announced = s.announced := rfl
@[simp] theorem push_cancelled : (s.push t).cancelled = s.cancelled := rfl

end

end

section setStatus

variable (s : State) (rid : ℕ) (f : Status → Status)

@[simp] theorem setStatus_pending : (s.setStatus rid f).pending = s.pending := rfl
@[simp] theorem setStatus_tasks : (s.setStatus rid f).tasks = s.tasks := rfl
@[simp] theorem setStatus_trace : (s.setStatus rid f).trace = s.trace := rfl
@[simp] theorem setStatus_nextId : (s.setStatus rid f).nextId = s.nextId := rfl
@[simp] theorem setStatus_nextWaiter : (s.setStatus rid f).nextWaiter = s.nextWaiter := rfl
@[simp] theorem setStatus_announced : (s.setStatus rid f).announced = s.announced := rfl
@[simp] theorem setStatus_cancelled : (s.setStatus rid f).cancelled = s.cancelled := rfl

variable {s rid f}

theorem setStatus_reqs_of_ne {i : ℕ} (h : i ≠ rid) : (s.setStatus rid f).reqs i = s.reqs i :=
  if_neg h

theorem setStatus_reqs_self {r : Request} (h : s.reqs rid = some r) :
    (s.setStatus rid f).reqs rid = some { r with toStatus := f r.toStatus } := by
  rw [State.setStatus]
  simp only [↓reduceIte, h, Option.map_some]

theorem setStatus_reqs_inv {i : ℕ} {r' : Request} (h : (s.setStatus rid f).reqs i = some r') :
    ∃ r, s.reqs i = some r ∧ r'.toFiling = r.toFiling
      ∧ r'.toStatus = if i = rid then f r.toStatus else r.toStatus := by
  by_cases hi : i = rid
  · subst hi
    rw [State.setStatus] at h
    simp only [↓reduceIte, Option.map_eq_some_iff] at h
    obtain ⟨r, hr, rfl⟩ := h
    exact ⟨r, hr, rfl, by rw [if_pos rfl]⟩
  · rw [setStatus_reqs_of_ne hi] at h
    exact ⟨r', h, rfl, by rw [if_neg hi]⟩

end setStatus

theorem answer_eq (s : State) (rid : ℕ) (b : Bool) (ws : List Waiter) :
    s.answer rid b ws = { s with trace :=
      (ws.map fun w => Event.answered w b (decide (rid ∈ s.pending))).reverse ++ s.trace } := by
  rw [State.answer]
  induction ws generalizing s with
  | nil => rfl
  | cons w rest ih =>
    rw [List.foldl_cons, ih, List.map_cons, List.reverse_cons, List.append_assoc]
    rfl

section answer

variable (s : State) (rid : ℕ) (b : Bool) (ws : List Waiter)

@[simp] theorem answer_reqs : (s.answer rid b ws).reqs = s.reqs := by rw [answer_eq]
@[simp] theorem answer_pending : (s.answer rid b ws).pending = s.pending := by rw [answer_eq]
@[simp] theorem answer_tasks : (s.answer rid b ws).tasks = s.tasks := by rw [answer_eq]
@[simp] theorem answer_nextId : (s.answer rid b ws).nextId = s.nextId := by rw [answer_eq]
@[simp] theorem answer_nextWaiter : (s.answer rid b ws).nextWaiter = s.nextWaiter := by
  rw [answer_eq]
@[simp] theorem answer_announced : (s.answer rid b ws).announced = s.announced := by rw [answer_eq]
@[simp] theorem answer_cancelled : (s.answer rid b ws).cancelled = s.cancelled := by rw [answer_eq]
@[simp] theorem answer_trace : (s.answer rid b ws).trace =
    (ws.map fun w => Event.answered w b (decide (rid ∈ s.pending))).reverse ++ s.trace := by
  rw [answer_eq]

end answer

@[simp] theorem audit_reqs (s : State) (env : Env) (row : AuditRow) :
    (s.audit env row).reqs = s.reqs := rfl
@[simp] theorem audit_pending (s : State) (env : Env) (row : AuditRow) :
    (s.audit env row).pending = s.pending := rfl
@[simp] theorem audit_tasks (s : State) (env : Env) (row : AuditRow) :
    (s.audit env row).tasks = s.tasks := rfl

end Broker
