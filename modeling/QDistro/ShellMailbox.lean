/-
# The layout mailbox of the shell

`display_shell_mailbox.py`: the controller asks the shell to enable or disable the output of
a slot.  `perform` publishes one request and waits; the shell claims it, applies it and
acknowledges it.  The caller may time out or be cancelled while the shell is at work.

`perform` is cut where it gives the lock away: `publish` is its first part, and every return
from `wait` is one `wake` of the waiting thread, which may come at any time and finds
whatever request is outstanding by then.

The mailbox calls itself safe when nothing is outstanding and its flag says that the output
is off.  The flag only follows results that a waiter collected, so an enable request that the
shell has claimed drops out of sight when its waiter times out or is cancelled.
`safe_iff_steady` says that this, and a waiter that collects the answer to another's
request, is all that can go wrong.
-/
import QDistro.DisplaySlot
import QDistro.TransitionSystem

namespace DisplayDock

open JsonText TransitionSystem List

/-! ## Requests -/

/-- `DisplayShellError(text)` -/
def shellError (text : String) : PyError := ⟨"DisplayShellError", text⟩

/-- `ShellLayoutRequest`, of the one schema there is. -/
structure ShellLayoutRequest where
  requestId : String
  generation : ℤ
  sessionId : String
  slotName : String
  enabled : Bool
  logicalX : ℤ
  logicalY : ℤ
  width : ℤ
  height : ℤ
  scale : ℤ
  expiresAt : ℤ
  deriving DecidableEq

/-- The fields of a grant that a request copies. -/
def layoutFields : List String :=
  ["generation", "session_id", "slot_name", "logical_x", "logical_y", "width", "height", "scale"]

/-- A name of a request. -/
def requestName (field : String) : Json → Except PyError String
  | .str s =>
    if s ≠ "" ∧ s.length ≤ 128 then .ok s
    else .error (shellError ("shell layout " ++ field ++ " is invalid"))
  | _ => .error (shellError ("shell layout " ++ field ++ " is invalid"))

/-- A number of a request within its bounds; a `bool` is not an `int` here. -/
def requestNumber (field : String) (ok : ℤ → Bool) : Json → Except PyError ℤ
  | .int n =>
    if ok n then .ok n else .error (shellError ("shell layout " ++ field ++ " is invalid"))
  | _ => .error (shellError ("shell layout " ++ field ++ " is invalid"))

/-- `_request_from(action, grant, …)` followed by `request.validate(now=now)`. -/
def requestFrom (action : SlotAction) (grant : Payload) (requestId : String) (expiresAt : ℤ)
    (now : ℚ) : Except PyError ShellLayoutRequest := do
  let enabled ← match action.kind with
    | .primaryEnableOutput => .ok true
    | .primaryDisableOutput => .ok false
    | _ => .error (shellError "shell mailbox accepts only primary output layout actions")
  unless layoutFields.all fun name => (grant.lookup name).isSome do
    throw (shellError "display grant lacks shell layout fields")
  let value := itemOf grant
  unless requestId.length = 32 ∧ requestId.toList.all fun c =>
      c.isDigit || (decide ('a' ≤ c) && decide (c ≤ 'f')) do
    throw (shellError "shell layout request id is invalid")
  let sessionId ← requestName "session_id" (value "session_id")
  let slotName ← requestName "slot_name" (value "slot_name")
  let generation ← requestNumber "generation" (fun n => decide (0 < n)) (value "generation")
  let position (n : ℤ) := decide (n.natAbs ≤ 65535)
  let logicalX ← requestNumber "logical_x" position (value "logical_x")
  let logicalY ← requestNumber "logical_y" position (value "logical_y")
  let size (most : ℤ) (n : ℤ) := decide (0 < n ∧ n ≤ most)
  let width ← requestNumber "width" (size 16384) (value "width")
  let height ← requestNumber "height" (size 16384) (value "height")
  let scale ← requestNumber "scale" (size 4) (value "scale")
  if maxPixels < width * height then
    throw (shellError "shell layout pixel count is out of bounds")
  if (expiresAt : ℚ) ≤ now then
    throw (shellError "shell layout request has expired")
  return { requestId, generation, sessionId, slotName, enabled, logicalX, logicalY, width, height
           scale, expiresAt }

/-! ## The mailbox -/

/-- The members of `RESULTS`. -/
inductive LayoutResult where
  | applied
  | failed
  | cancelled
  deriving DecidableEq

/-- A result by its text. -/
def LayoutResult.ofText (text : String) : Option LayoutResult :=
  if text = "applied" then some .applied
  else if text = "failed" then some .failed
  else if text = "cancelled" then some .cancelled
  else none

/-- The text of a result. -/
def LayoutResult.text : LayoutResult → String
  | .applied => "applied"
  | .failed => "failed"
  | .cancelled => "cancelled"

/-- `_Pending` -/
structure PendingLayout where
  request : ShellLayoutRequest
  claimed : Bool := false
  result : Option LayoutResult := none
  deriving DecidableEq

/-- `DisplayShellMailbox` -/
structure DisplayShellMailbox where
  pending : Option PendingLayout := none
  lastGeneration : ℤ := 0
  outputEnabled : Bool := false
  /-- The consumed request ids, oldest first. -/
  consumed : List String := []
  deriving DecidableEq

/-- How a mailbox was made: its timeout, and `int` of a decoded value. -/
structure MailboxConfig where
  requestTimeout : ℚ
  timeout_ok : 0 < requestTimeout ∧ requestTimeout ≤ 30
  intOf : Json → Except PyError ℤ

/-- A thread inside `perform`, between two returns from `wait`. -/
structure LayoutWaiter where
  request : ShellLayoutRequest
  deadline : ℚ
  deriving DecidableEq

/-- `int(x)` for a rational number: towards zero. -/
def truncate (x : ℚ) : ℤ := if 0 ≤ x then x.floor else x.ceil

/-- `MAX_CONSUMED_REQUEST_IDS` -/
def maxConsumedRequestIds : ℕ := 4096

namespace DisplayShellMailbox

variable (box : DisplayShellMailbox)

/-- `_consume(request_id)` -/
def consume (requestId : String) : DisplayShellMailbox :=
  if requestId ∈ box.consumed then box
  else
    let order := box.consumed ++ [requestId]
    { box with consumed := order.drop (order.length - maxConsumedRequestIds) }

/-- The part of `perform` before the lock: the request and its deadline, from two readings of
the clock. -/
def prepare (cfg : MailboxConfig) (action : SlotAction) (grant : Payload) (requestId : String)
    (now now' : ℚ) : Except PyError LayoutWaiter := do
  let deadline := now + cfg.requestTimeout
  -- a disable request outlives the lease, an enable request does not
  let expiry := truncate (deadline + 999 / 1000)
  let expiry ←
    if action.kind = .primaryEnableOutput then do
      let lease ← cfg.intOf ((grant.lookup "lease_expires_at").getD (.int 0))
      pure (min expiry lease)
    else pure expiry
  let request ← requestFrom action grant requestId expiry now'
  return { request, deadline }

/-- `perform` from taking the lock to the first `wait`. -/
def publish (request : ShellLayoutRequest) : Except PyError DisplayShellMailbox := do
  if box.pending.isSome then
    throw (shellError "another shell layout request is pending")
  if request.generation < box.lastGeneration ∨
      (request.enabled = true ∧ request.generation ≤ box.lastGeneration) then
    throw (shellError "shell layout generation is stale")
  if request.requestId ∈ box.consumed then
    throw (shellError "shell layout request id was replayed")
  return { box with pending := some { request } }

/-- What a waiting thread does next. -/
inductive Wake where
  | waits
  | returns
  | raises (e : PyError)
  deriving DecidableEq

/-- One turn of the loop of `perform`, and what follows the loop. -/
def wake (waiter : LayoutWaiter) (now : ℚ) : DisplayShellMailbox × Wake :=
  match box.pending with
  | none => (box, .raises (shellError "shell layout request was cancelled"))
  | some pending =>
    match pending.result with
    | none =>
      if waiter.deadline - now ≤ 0 then
        ({ box.consume waiter.request.requestId with pending := none },
          .raises (shellError "qdshell layout acknowledgement timed out"))
      else (box, .waits)
    | some result =>
      let box := { box.consume waiter.request.requestId with pending := none }
      if result = .applied then
        ({ box with
            outputEnabled := waiter.request.enabled
            lastGeneration := if waiter.request.enabled then waiter.request.generation
              else box.lastGeneration }, .returns)
      else (box, .raises (shellError ("qdshell layout result was " ++ result.text)))

/-- `claim()` -/
def claim (now : ℚ) : DisplayShellMailbox × Option ShellLayoutRequest :=
  match box.pending with
  | none => (box, none)
  | some pending =>
    if pending.claimed then (box, none)
    else if (pending.request.expiresAt : ℚ) ≤ now then
      ({ box.consume pending.request.requestId with pending := none }, none)
    else ({ box with pending := some { pending with claimed := true } }, some pending.request)

/-- `acknowledge(request_id=…, generation=…, result=…)`, with the result it records. -/
def acknowledge (requestId : String) (generation : ℤ) (result : String) :
    Except PyError (DisplayShellMailbox × LayoutResult) :=
  match box.pending with
  | none => .error (shellError "no claimed shell layout request exists")
  | some pending =>
    if !pending.claimed then .error (shellError "no claimed shell layout request exists")
    else if requestId ≠ pending.request.requestId then
      .error (shellError "shell layout acknowledgement id mismatch")
    else if generation ≠ pending.request.generation then
      .error (shellError "shell layout acknowledgement generation mismatch")
    else
      match LayoutResult.ofText result with
      | none => .error (shellError "shell layout acknowledgement result is invalid")
      | some result =>
        if pending.result.isSome then
          .error (shellError "shell layout request was already acknowledged")
        else .ok ({ box with pending := some { pending with result := some result } }, result)

/-- `cancel()` -/
def cancel : DisplayShellMailbox :=
  match box.pending with
  | none => box
  | some pending => { box.consume pending.request.requestId with pending := none }

/-- `safe_state_confirmed(slot_name)` -/
def safeStateConfirmed : Bool := box.pending.isNone && !box.outputEnabled

end DisplayShellMailbox

/-! ## Interleavings -/

/-- What the shell has seen and said of the `n`-th published request. -/
inductive Mark where
  | claimed (n : ℕ) (request : ShellLayoutRequest)
  | answered (n : ℕ) (requestId : String) (generation : ℤ) (result : LayoutResult)
  deriving DecidableEq

/-- The mailbox, the threads that wait on it, and its history. -/
structure LayoutSession where
  box : DisplayShellMailbox := {}
  waiters : List LayoutWaiter := []
  /-- Every request that was ever published, oldest first. -/
  requests : List ShellLayoutRequest := []
  history : List Mark := []

/-- One step of any thread.  `notified` is what `on_pending` raises. -/
inductive LayoutAction where
  | perform (action : SlotAction) (grant : Payload) (requestId : String) (now now' : ℚ)
      (notified : Option PyError)
  | wake (waiter : ℕ) (now : ℚ)
  | claim (now : ℚ)
  | acknowledge (requestId : String) (generation : ℤ) (result : String)
  | cancel

namespace LayoutSession

/-- The number of the newest request. -/
def newest (s : LayoutSession) : ℕ := s.requests.length - 1

/-- One step. -/
def step (cfg : MailboxConfig) (s : LayoutSession) : LayoutAction → LayoutSession
  | .perform action grant requestId now now' notified =>
    match DisplayShellMailbox.prepare cfg action grant requestId now now' with
    | .error _ => s
    | .ok waiter =>
      match s.box.publish waiter.request with
      | .error _ => s
      | .ok box =>
        { s with
          box
          requests := s.requests ++ [waiter.request]
          -- a callback that raises takes its thread away and leaves the request
          waiters := if notified.isSome then s.waiters else s.waiters ++ [waiter] }
  | .wake i now =>
    match s.waiters[i]? with
    | none => s
    | some waiter =>
      match s.box.wake waiter now with
      | (box, .waits) => { s with box }
      | (box, _) => { s with box, waiters := s.waiters.eraseIdx i }
  | .claim now =>
    match s.box.claim now with
    | (box, none) => { s with box }
    | (box, some request) =>
      { s with box, history := s.history ++ [.claimed s.newest request] }
  | .acknowledge requestId generation result =>
    match s.box.acknowledge requestId generation result with
    | .error _ => s
    | .ok (box, result) =>
      { s with box, history := s.history ++ [.answered s.newest requestId generation result] }
  | .cancel => { s with box := s.box.cancel }

/-! ## What is claimed -/

/-- The marks that hand out the `n`-th request. -/
def isClaim (n : ℕ) : Mark → Bool
  | .claimed m _ => m == n
  | .answered .. => false

/-- The marks that answer the `n`-th request. -/
def isAnswer (n : ℕ) : Mark → Bool
  | .claimed .. => false
  | .answered m _ _ _ => m == n

/-- How often the `n`-th request was handed out. -/
def claims (s : LayoutSession) (n : ℕ) : ℕ := s.history.countP (isClaim n)

/-- How often the `n`-th request was answered. -/
def answers (s : LayoutSession) (n : ℕ) : ℕ := s.history.countP (isAnswer n)

/-- **Once each.**  A request is handed out at most once, as it was published, and acknowledged
at most once, after that and under its own id and generation. -/
structure OnceEach (s : LayoutSession) : Prop where
  claims_le : ∀ n, s.claims n ≤ 1
  answers_le : ∀ n, s.answers n ≤ 1
  claimed_own : ∀ n request, .claimed n request ∈ s.history → s.requests[n]? = some request
  answered_own : ∀ n requestId generation result,
    .answered n requestId generation result ∈ s.history →
      ∃ request, .claimed n request ∈ s.history ∧ requestId = request.requestId ∧
        generation = request.generation

/-- The `n`-th request was acknowledged with this result. -/
def Answered (s : LayoutSession) (n : ℕ) (result : LayoutResult) : Prop :=
  ∃ requestId generation, .answered n requestId generation result ∈ s.history

/-- The `n`-th request was not applied, or a disable request after it was. -/
def Settled (s : LayoutSession) (n : ℕ) : Prop :=
  Answered s n .failed ∨ Answered s n .cancelled ∨
    ∃ m other, n < m ∧ s.requests[m]? = some other ∧ other.enabled = false ∧ Answered s m .applied

/-- **Safe means safe.**  When the mailbox reports the safe state, every enable request that the
shell has ever claimed is settled. -/
def SafeMeansSafe (s : LayoutSession) : Prop :=
  s.box.safeStateConfirmed = true → ∀ n request, .claimed n request ∈ s.history →
    request.enabled = true → Settled s n

/-- A claimed enable request that the mailbox would forget: it is not answered, or it was
applied, and the flag says that the output is off. -/
def Overlooked (box : DisplayShellMailbox) (pending : PendingLayout) : Prop :=
  box.outputEnabled = false ∧ pending.claimed = true ∧ pending.request.enabled = true ∧
    (pending.result = none ∨ pending.result = some .applied)

/-- The condition: no time-out and no cancellation takes such a request away, and no waiter for
a disable request collects the answer to another's enable request. -/
def Steady (s : LayoutSession) : LayoutAction → Prop
  | .cancel => ∀ pending, s.box.pending = some pending → ¬ Overlooked s.box pending
  | .wake i now => ∀ waiter pending, s.waiters[i]? = some waiter → s.box.pending = some pending →
      (pending.result = none → waiter.deadline ≤ now → ¬ Overlooked s.box pending) ∧
        (pending.result = some .applied → pending.request.enabled = true →
          waiter.request.enabled = true)
  | _ => True

/-! ## What a step does -/

variable {cfg : MailboxConfig} {s s' : LayoutSession} {a : LayoutAction}

/-- Everything a step can do to the outstanding request. -/
inductive Effect (s : LayoutSession) (a : LayoutAction) (s' : LayoutSession) : Prop where
  | quiet (hsteady : Steady s a) (hpending : s'.box.pending = s.box.pending)
      (hflag : s'.box.outputEnabled = s.box.outputEnabled) (hrequests : s'.requests = s.requests)
      (hhistory : s'.history = s.history) : Effect s a s'
  | published {request : ShellLayoutRequest} (hsteady : Steady s a)
      (hnone : s.box.pending = none) (hpending : s'.box.pending = some { request })
      (hflag : s'.box.outputEnabled = s.box.outputEnabled)
      (hrequests : s'.requests = s.requests ++ [request]) (hhistory : s'.history = s.history) :
      Effect s a s'
  | claimed {pending : PendingLayout} (hsteady : Steady s a)
      (hsome : s.box.pending = some pending) (hnew : pending.claimed = false)
      (hpending : s'.box.pending = some { pending with claimed := true })
      (hflag : s'.box.outputEnabled = s.box.outputEnabled) (hrequests : s'.requests = s.requests)
      (hhistory : s'.history = s.history ++ [Mark.claimed s.newest pending.request]) :
      Effect s a s'
  | answered {pending : PendingLayout} {result : LayoutResult} (hsteady : Steady s a)
      (hsome : s.box.pending = some pending) (hclaimed : pending.claimed = true)
      (hnew : pending.result = none)
      (hpending : s'.box.pending = some { pending with result := some result })
      (hflag : s'.box.outputEnabled = s.box.outputEnabled) (hrequests : s'.requests = s.requests)
      (hhistory : s'.history = s.history ++
        [Mark.answered s.newest pending.request.requestId pending.request.generation result]) :
      Effect s a s'
  | dropped {pending : PendingLayout} (hsteady : Steady s a ↔ ¬ Overlooked s.box pending)
      (hsome : s.box.pending = some pending) (hpending : s'.box.pending = none)
      (hflag : s'.box.outputEnabled = s.box.outputEnabled) (hrequests : s'.requests = s.requests)
      (hhistory : s'.history = s.history) : Effect s a s'
  | collected {pending : PendingLayout} {enabled : Bool}
      (hsteady : Steady s a ↔ (pending.request.enabled = true → enabled = true))
      (hsome : s.box.pending = some pending) (happlied : pending.result = some .applied)
      (hpending : s'.box.pending = none) (hflag : s'.box.outputEnabled = enabled)
      (hrequests : s'.requests = s.requests) (hhistory : s'.history = s.history) : Effect s a s'

theorem consume_outputEnabled (box : DisplayShellMailbox) (requestId : String) :
    (box.consume requestId).outputEnabled = box.outputEnabled := by
  unfold DisplayShellMailbox.consume
  split <;> rfl

theorem publish_ok {box box' : DisplayShellMailbox} {request : ShellLayoutRequest}
    (h : box.publish request = .ok box') :
    box.pending = none ∧ box' = { box with pending := some { request } } := by
  unfold DisplayShellMailbox.publish at h
  simp only [bind, Except.bind, pure, Except.pure, throw, throwThe, MonadExceptOf.throw] at h
  split at h
  case isTrue => cases h
  next hnone =>
  split at h
  case isTrue => cases h
  split at h
  case isTrue => cases h
  injection h with h
  exact ⟨by simpa using hnone, h.symm⟩

theorem acknowledge_ok {box box' : DisplayShellMailbox} {requestId result : String}
    {generation : ℤ} {r : LayoutResult}
    (h : box.acknowledge requestId generation result = .ok (box', r)) :
    ∃ pending, box.pending = some pending ∧ pending.claimed = true ∧ pending.result = none ∧
      requestId = pending.request.requestId ∧ generation = pending.request.generation ∧
      box' = { box with pending := some { pending with result := some r } } := by
  unfold DisplayShellMailbox.acknowledge at h
  split at h
  case h_1 => cases h
  next pending hpending =>
  split at h
  case isTrue => cases h
  next hclaimed =>
  split at h
  case isTrue => cases h
  next hid =>
  split at h
  case isTrue => cases h
  next hgen =>
  split at h
  case h_1 => cases h
  split at h
  case isTrue => cases h
  next hresult =>
  cases h
  exact ⟨pending, hpending, by simpa using hclaimed, by simpa using hresult, not_not.mp hid,
    not_not.mp hgen, rfl⟩

theorem effect_wake (i : ℕ) (now : ℚ) : Effect s (.wake i now) (s.step cfg (.wake i now)) := by
  rw [step]
  cases hw : s.waiters[i]? with
  | none =>
    refine .quiet (fun waiter pending hwaiter => ?_) rfl rfl rfl rfl
    rw [hw] at hwaiter
    cases hwaiter
  | some waiter =>
    have hsteady : ∀ pending, s.box.pending = some pending → (Steady s (.wake i now) ↔
        (pending.result = none → waiter.deadline ≤ now → ¬ Overlooked s.box pending) ∧
          (pending.result = some .applied → pending.request.enabled = true →
            waiter.request.enabled = true)) := by
      intro pending hp
      refine ⟨fun h => h waiter pending hw hp, fun h waiter' pending' hw' hp' => ?_⟩
      rw [hw] at hw'
      rw [hp] at hp'
      obtain rfl := Option.some.inj hw'
      obtain rfl := Option.some.inj hp'
      exact h
    dsimp only
    cases hp : s.box.pending with
    | none =>
      simp only [DisplayShellMailbox.wake, hp]
      refine .quiet (fun waiter' pending _ hpending => ?_) rfl rfl rfl rfl
      rw [hp] at hpending
      cases hpending
    | some pending =>
      have hiff := hsteady pending hp
      cases hr : pending.result with
      | none =>
        rw [hr] at hiff
        by_cases htime : waiter.deadline - now ≤ 0
        · simp only [DisplayShellMailbox.wake, hp, hr, if_pos htime]
          refine .dropped ?_ hp rfl (consume_outputEnabled _ _) rfl rfl
          have hle : waiter.deadline ≤ now := sub_nonpos.mp htime
          simp [hiff, hle]
        · simp only [DisplayShellMailbox.wake, hp, hr, if_neg htime]
          refine .quiet (hiff.mpr ⟨fun _ hle => ?_, fun h => (by cases h)⟩) rfl rfl rfl rfl
          exact absurd (sub_nonpos.mpr hle) htime
      | some result =>
        rw [hr] at hiff
        by_cases happlied : result = .applied
        · subst happlied
          simp only [DisplayShellMailbox.wake, hp, hr, if_true]
          refine .collected ?_ hp hr rfl rfl rfl rfl
          simp [hiff]
        · simp only [DisplayShellMailbox.wake, hp, hr, if_neg happlied]
          refine .dropped (iff_of_true ?_ ?_) hp rfl (consume_outputEnabled _ _) rfl rfl
          · exact hiff.mpr ⟨fun h => (by cases h), fun h => absurd (Option.some.inj h) happlied⟩
          · rintro ⟨-, -, -, h | h⟩ <;> rw [hr] at h
            · cases h
            · exact happlied (Option.some.inj h)

theorem step_effect (cfg : MailboxConfig) (s : LayoutSession) (a : LayoutAction) :
    Effect s a (s.step cfg a) := by
  cases a with
  | perform action grant requestId now now' notified =>
    rw [step]
    split
    · exact .quiet trivial rfl rfl rfl rfl
    · next waiter _ =>
      split
      · exact .quiet trivial rfl rfl rfl rfl
      · next box hbox =>
        obtain ⟨hnone, rfl⟩ := publish_ok hbox
        exact .published trivial hnone rfl rfl rfl rfl
  | wake i now => exact effect_wake i now
  | claim now =>
    rw [step]
    cases hp : s.box.pending with
    | none =>
      simp only [DisplayShellMailbox.claim, hp]
      exact .quiet trivial rfl rfl rfl rfl
    | some pending =>
      cases hc : pending.claimed with
      | true =>
        simp only [DisplayShellMailbox.claim, hp, hc, if_true]
        exact .quiet trivial rfl rfl rfl rfl
      | false =>
        by_cases hexpired : (pending.request.expiresAt : ℚ) ≤ now
        · simp only [DisplayShellMailbox.claim, hp, hc, if_pos hexpired, Bool.false_eq_true,
            if_false]
          refine .dropped (iff_of_true trivial ?_) hp rfl (consume_outputEnabled _ _) rfl rfl
          rintro ⟨-, h, -⟩
          rw [hc] at h
          cases h
        · simp only [DisplayShellMailbox.claim, hp, hc, if_neg hexpired, Bool.false_eq_true,
            if_false]
          exact .claimed trivial hp hc rfl rfl rfl rfl
  | acknowledge requestId generation result =>
    rw [step]
    split
    · exact .quiet trivial rfl rfl rfl rfl
    · next box r hbox =>
      obtain ⟨pending, hp, hclaimed, hnew, rfl, rfl, rfl⟩ := acknowledge_ok hbox
      exact .answered trivial hp hclaimed hnew rfl rfl rfl rfl
  | cancel =>
    rw [step]
    cases hp : s.box.pending with
    | none =>
      simp only [DisplayShellMailbox.cancel, hp]
      refine .quiet (fun pending hpending => ?_) rfl rfl rfl rfl
      rw [hp] at hpending
      cases hpending
    | some pending =>
      simp only [DisplayShellMailbox.cancel, hp]
      refine .dropped ⟨fun h => h pending hp, fun h pending' hp' => ?_⟩ hp rfl
        (consume_outputEnabled _ _) rfl rfl
      rw [hp] at hp'
      exact Option.some.inj hp' ▸ h

/-! ## The invariant -/

/-- The outstanding request is the newest, and its marks are what the mailbox remembers of it. -/
structure Tracks (s : LayoutSession) (pending : PendingLayout) : Prop where
  newest : s.requests ≠ [] ∧ s.requests[s.newest]? = some pending.request
  claims : s.claims s.newest = if pending.claimed then 1 else 0
  claimed : pending.claimed = true → .claimed s.newest pending.request ∈ s.history
  answers : s.answers s.newest = if pending.result.isSome then 1 else 0
  answered : ∀ result, pending.result = some result ↔ Answered s s.newest result

/-- What holds of every state. -/
structure Inv (s : LayoutSession) : Prop extends OnceEach s where
  future : ∀ n, s.requests.length ≤ n → s.claims n = 0 ∧ s.answers n = 0
  tracks : ∀ pending, s.box.pending = some pending → Tracks s pending

/-- While the flag says that the output is off, every claimed enable request is outstanding or
settled. -/
def Covered (s : LayoutSession) : Prop :=
  s.box.outputEnabled = false → ∀ n request, .claimed n request ∈ s.history →
    request.enabled = true → (s.box.pending.isSome = true ∧ n = s.newest) ∨ Settled s n

theorem claims_pos {n : ℕ} {request : ShellLayoutRequest}
    (h : .claimed n request ∈ s.history) : 0 < s.claims n :=
  countP_pos_iff.mpr ⟨_, h, by simp [isClaim]⟩

theorem answers_pos {n : ℕ} {result : LayoutResult} (h : Answered s n result) :
    0 < s.answers n := by
  obtain ⟨requestId, generation, hmem⟩ := h
  exact countP_pos_iff.mpr ⟨_, hmem, by simp [isAnswer]⟩

theorem Settled.mono {n : ℕ} (hhistory : ∀ m, m ∈ s.history → m ∈ s'.history)
    (hrequests : s.requests <+: s'.requests) (h : Settled s n) : Settled s' n := by
  have hanswered : ∀ n r, Answered s n r → Answered s' n r := by
    rintro n r ⟨id, g, hmem⟩
    exact ⟨id, g, hhistory _ hmem⟩
  rcases h with h | h | ⟨m, other, hlt, hother, hoff, happlied⟩
  · exact .inl (hanswered _ _ h)
  · exact .inr (.inl (hanswered _ _ h))
  · refine .inr (.inr ⟨m, other, hlt, ?_, hoff, hanswered _ _ happlied⟩)
    obtain ⟨rest, hrest⟩ := hrequests
    rw [← hrest]
    exact List.getElem?_append_left (List.getElem?_eq_some_iff.mp hother).1 ▸ hother

theorem Tracks.newest_lt {pending : PendingLayout} (h : Tracks s pending) :
    s.newest < s.requests.length :=
  (List.getElem?_eq_some_iff.mp h.newest.2).1

theorem Inv.of_same (h : s.Inv) (hrequests : s'.requests = s.requests)
    (hhistory : s'.history = s.history)
    (hpending : s'.box.pending = s.box.pending ∨ s'.box.pending = none) : s'.Inv := by
  obtain ⟨box', waiters', requests', history'⟩ := s'
  dsimp only at hrequests hhistory hpending
  subst hrequests hhistory
  refine ⟨⟨h.claims_le, h.answers_le, h.claimed_own, h.answered_own⟩, h.future, ?_⟩
  intro pending hp
  rcases hpending with hpending | hpending
  · obtain ⟨hnewest, hclaims, hclaimed, hanswers, hanswered⟩ := h.tracks pending (hpending ▸ hp)
    exact ⟨hnewest, hclaims, hclaimed, hanswers, hanswered⟩
  · rw [hpending] at hp
    cases hp

theorem Inv.publish (h : s.Inv) {request : ShellLayoutRequest}
    (hpending : s'.box.pending = some { request })
    (hrequests : s'.requests = s.requests ++ [request]) (hhistory : s'.history = s.history) :
    s'.Inv := by
  have hnewest : s'.newest = s.requests.length := by simp [newest, hrequests]
  have hclaims : ∀ n, s'.claims n = s.claims n := fun n => by simp [claims, hhistory]
  have hanswers : ∀ n, s'.answers n = s.answers n := fun n => by simp [answers, hhistory]
  have hfresh := h.future s.requests.length le_rfl
  refine ⟨⟨?_, ?_, ?_, ?_⟩, ?_, ?_⟩
  · intro n
    rw [hclaims]
    exact h.claims_le n
  · intro n
    rw [hanswers]
    exact h.answers_le n
  · intro n r hmem
    rw [hhistory] at hmem
    have hr := h.claimed_own n r hmem
    rw [hrequests, List.getElem?_append_left (List.getElem?_eq_some_iff.mp hr).1]
    exact hr
  · rw [hhistory]
    exact h.answered_own
  · intro n hn
    rw [hrequests, length_append, length_singleton] at hn
    rw [hclaims, hanswers]
    exact h.future n (by omega)
  · intro pending hp
    rw [hpending] at hp
    obtain rfl := Option.some.inj hp
    refine ⟨⟨by simp [hrequests], by simp [hnewest, hrequests]⟩, ?_, fun h => (by cases h), ?_, ?_⟩
    · rw [hclaims, hnewest]
      exact hfresh.1
    · rw [hanswers, hnewest]
      exact hfresh.2
    · intro result
      refine iff_of_false (fun h => by cases h) fun hanswered => ?_
      have hpos := answers_pos hanswered
      rw [hanswers, hnewest] at hpos
      omega

theorem Inv.claim (h : s.Inv) {pending : PendingLayout} (hsome : s.box.pending = some pending)
    (hnew : pending.claimed = false)
    (hpending : s'.box.pending = some { pending with claimed := true })
    (hrequests : s'.requests = s.requests)
    (hhistory : s'.history = s.history ++ [Mark.claimed s.newest pending.request]) : s'.Inv := by
  have ht := h.tracks pending hsome
  have hnewest : s'.newest = s.newest := by simp [newest, hrequests]
  have hclaims : ∀ n, s'.claims n = s.claims n + if s.newest = n then 1 else 0 := by
    intro n
    simp only [claims, hhistory, countP_append, countP_singleton, isClaim, beq_iff_eq]
  have hanswers : ∀ n, s'.answers n = s.answers n := by
    intro n
    simp [answers, hhistory, isAnswer]
  have hzero : s.claims s.newest = 0 := by rw [ht.claims, hnew]; rfl
  have hanswered : ∀ n r, Answered s' n r ↔ Answered s n r := by
    intro n r
    simp [Answered, hhistory]
  refine ⟨⟨?_, ?_, ?_, ?_⟩, ?_, ?_⟩
  · intro n
    rw [hclaims]
    have hle := h.claims_le n
    split
    · next heq =>
      rw [← heq, hzero]
    · omega
  · intro n
    rw [hanswers]
    exact h.answers_le n
  · intro n r hmem
    rw [hhistory] at hmem
    rw [hrequests]
    rcases mem_append.mp hmem with hmem | hmem
    · exact h.claimed_own n r hmem
    · obtain ⟨rfl, rfl⟩ : n = s.newest ∧ r = pending.request := by simpa using hmem
      exact ht.newest.2
  · intro n id g r hmem
    rw [hhistory] at hmem
    rcases mem_append.mp hmem with hmem | hmem
    · obtain ⟨request, hclaimed, hid, hg⟩ := h.answered_own n id g r hmem
      exact ⟨request, by rw [hhistory]; exact mem_append_left _ hclaimed, hid, hg⟩
    · cases mem_singleton.mp hmem
  · intro n hn
    rw [hrequests] at hn
    have hlt := ht.newest_lt
    rw [hclaims, hanswers, if_neg (by omega)]
    exact h.future n hn
  · intro pending' hp
    rw [hpending] at hp
    obtain rfl := Option.some.inj hp
    refine ⟨?_, ?_, fun _ => ?_, ?_, fun result => ?_⟩
    · rw [hnewest, hrequests]
      exact ht.newest
    · rw [hnewest, hclaims, hzero]
      simp
    · rw [hnewest, hhistory]
      exact mem_append_right _ (mem_singleton_self _)
    · rw [hnewest, hanswers]
      exact ht.answers
    · rw [hnewest, hanswered]
      exact ht.answered result

theorem Inv.answer (h : s.Inv) {pending : PendingLayout} {result : LayoutResult}
    (hsome : s.box.pending = some pending) (hclaimed : pending.claimed = true)
    (hnew : pending.result = none)
    (hpending : s'.box.pending = some { pending with result := some result })
    (hrequests : s'.requests = s.requests)
    (hhistory : s'.history = s.history ++
      [Mark.answered s.newest pending.request.requestId pending.request.generation result]) :
    s'.Inv := by
  have ht := h.tracks pending hsome
  have hnewest : s'.newest = s.newest := by simp [newest, hrequests]
  have hclaims : ∀ n, s'.claims n = s.claims n := by
    intro n
    simp [claims, hhistory, isClaim]
  have hanswers : ∀ n, s'.answers n = s.answers n + if s.newest = n then 1 else 0 := by
    intro n
    simp only [answers, hhistory, countP_append, countP_singleton, isAnswer, beq_iff_eq]
  have hzero : s.answers s.newest = 0 := by rw [ht.answers, hnew]; rfl
  have hmine : .claimed s.newest pending.request ∈ s'.history := by
    rw [hhistory]
    exact mem_append_left _ (ht.claimed hclaimed)
  refine ⟨⟨?_, ?_, ?_, ?_⟩, ?_, ?_⟩
  · intro n
    rw [hclaims]
    exact h.claims_le n
  · intro n
    rw [hanswers]
    have hle := h.answers_le n
    split
    · next heq =>
      rw [← heq, hzero]
    · omega
  · intro n r hmem
    rw [hhistory] at hmem
    rw [hrequests]
    rcases mem_append.mp hmem with hmem | hmem
    · exact h.claimed_own n r hmem
    · cases mem_singleton.mp hmem
  · intro n id g r hmem
    rw [hhistory] at hmem
    rcases mem_append.mp hmem with hmem | hmem
    · obtain ⟨request, hother, hid, hg⟩ := h.answered_own n id g r hmem
      exact ⟨request, by rw [hhistory]; exact mem_append_left _ hother, hid, hg⟩
    · cases mem_singleton.mp hmem
      exact ⟨pending.request, hmine, rfl, rfl⟩
  · intro n hn
    rw [hrequests] at hn
    have hlt := ht.newest_lt
    rw [hclaims, hanswers, if_neg (by omega)]
    exact h.future n hn
  · intro pending' hp
    rw [hpending] at hp
    obtain rfl := Option.some.inj hp
    refine ⟨?_, ?_, fun _ => ?_, ?_, fun r => ?_⟩
    · rw [hnewest, hrequests]
      exact ht.newest
    · rw [hnewest, hclaims]
      exact ht.claims
    · rw [hnewest]
      exact hmine
    · rw [hnewest, hanswers, hzero]
      simp
    · rw [hnewest]
      constructor
      · intro hr
        obtain rfl := Option.some.inj hr
        exact ⟨_, _, by rw [hhistory]; exact mem_append_right _ (mem_singleton_self _)⟩
      · rintro ⟨id, g, hmem⟩
        rw [hhistory] at hmem
        rcases mem_append.mp hmem with hmem | hmem
        · -- the newest request had no answer before
          have hpos : 0 < s.answers s.newest := answers_pos ⟨id, g, hmem⟩
          omega
        · cases mem_singleton.mp hmem
          rfl

theorem Inv.step (h : s.Inv) (cfg : MailboxConfig) (a : LayoutAction) : (s.step cfg a).Inv := by
  have heffect := step_effect cfg s a
  generalize s.step cfg a = s' at heffect ⊢
  cases heffect with
  | quiet hsteady hpending hflag hrequests hhistory =>
    exact h.of_same hrequests hhistory (.inl hpending)
  | published hsteady hnone hpending hflag hrequests hhistory =>
    exact h.publish hpending hrequests hhistory
  | claimed hsteady hsome hnew hpending hflag hrequests hhistory =>
    exact h.claim hsome hnew hpending hrequests hhistory
  | answered hsteady hsome hclaimed hnew hpending hflag hrequests hhistory =>
    exact h.answer hsome hclaimed hnew hpending hrequests hhistory
  | dropped hsteady hsome hpending hflag hrequests hhistory =>
    exact h.of_same hrequests hhistory (.inr hpending)
  | collected hsteady hsome happlied hpending hflag hrequests hhistory =>
    exact h.of_same hrequests hhistory (.inr hpending)

/-! ## Safety -/

theorem Covered.safeMeansSafe (h : Covered s) : SafeMeansSafe s := by
  intro hsafe n request hmem henabled
  simp only [DisplayShellMailbox.safeStateConfirmed, Bool.and_eq_true, Option.isNone_iff_eq_none,
    Bool.not_eq_true'] at hsafe
  rcases h hsafe.2 n request hmem henabled with ⟨hsome, -⟩ | hsettled
  · rw [hsafe.1] at hsome
    cases hsome
  · exact hsettled

theorem Tracks.not_settled {pending : PendingLayout} (h : Tracks s pending)
    (hresult : pending.result = none ∨ pending.result = some .applied) :
    ¬ Settled s s.newest := by
  rintro (hanswer | hanswer | ⟨m, other, hlt, hother, -, -⟩)
  · have heq := (h.answered _).mpr hanswer
    rcases hresult with hresult | hresult <;> rw [hresult] at heq <;> cases heq
  · have heq := (h.answered _).mpr hanswer
    rcases hresult with hresult | hresult <;> rw [hresult] at heq <;> cases heq
  · have hm := (List.getElem?_eq_some_iff.mp hother).1
    have hpos := h.newest_lt
    simp only [LayoutSession.newest] at hlt
    omega

theorem Inv.claimed_lt (h : s.Inv) {n : ℕ} {request : ShellLayoutRequest}
    (hmem : .claimed n request ∈ s.history) : n < s.requests.length :=
  (List.getElem?_eq_some_iff.mp (h.claimed_own n request hmem)).1

theorem Inv.claimed_newest (h : s.Inv) {pending : PendingLayout} {request : ShellLayoutRequest}
    (hsome : s.box.pending = some pending) (hmem : .claimed s.newest request ∈ s.history) :
    request = pending.request ∧ pending.claimed = true := by
  have ht := h.tracks pending hsome
  have heq := (h.claimed_own _ _ hmem).symm.trans ht.newest.2
  refine ⟨Option.some.inj heq, ?_⟩
  have hpos := claims_pos hmem
  rw [ht.claims] at hpos
  cases hc : pending.claimed with
  | true => rfl
  | false => rw [hc] at hpos; simp at hpos

/-- The mailbox after a request was taken away: what was claimed is settled if nothing was
overlooked. -/
theorem Inv.covered_dropped (h : s.Inv) (hc : Covered s) {pending : PendingLayout}
    (hsome : s.box.pending = some pending) (hkept : ¬ Overlooked s.box pending)
    (hflag : s'.box.outputEnabled = s.box.outputEnabled) (hrequests : s'.requests = s.requests)
    (hhistory : s'.history = s.history) : Covered s' := by
  intro hoff n request hmem henabled
  rw [hflag] at hoff
  rw [hhistory] at hmem
  have hmono : Settled s n → Settled s' n :=
    Settled.mono (fun m hm => hhistory ▸ hm) (hrequests ▸ prefix_rfl)
  refine .inr (hmono ?_)
  rcases hc hoff n request hmem henabled with ⟨-, rfl⟩ | hsettled
  · obtain ⟨rfl, hclaimed⟩ := h.claimed_newest hsome hmem
    have ht := h.tracks pending hsome
    cases hr : pending.result with
    | none => exact absurd ⟨hoff, hclaimed, henabled, Or.inl hr⟩ hkept
    | some result =>
      cases result with
      | applied => exact absurd ⟨hoff, hclaimed, henabled, Or.inr hr⟩ hkept
      | failed => exact .inl ((ht.answered _).mp hr)
      | cancelled => exact .inr (.inl ((ht.answered _).mp hr))
  · exact hsettled

theorem Inv.covered_collected (h : s.Inv) {pending : PendingLayout} {enabled : Bool}
    (hsome : s.box.pending = some pending) (happlied : pending.result = some .applied)
    (hsteady : pending.request.enabled = true → enabled = true)
    (hflag : s'.box.outputEnabled = enabled) (hrequests : s'.requests = s.requests)
    (hhistory : s'.history = s.history) : Covered s' := by
  intro hoff n request hmem henabled
  have ht := h.tracks pending hsome
  rw [hhistory] at hmem
  have hdisable : pending.request.enabled = false := by
    cases hp : pending.request.enabled with
    | false => rfl
    | true => rw [hflag, hsteady hp] at hoff; cases hoff
  have hne : n ≠ s.newest := by
    rintro rfl
    rw [(h.claimed_newest hsome hmem).1, hdisable] at henabled
    cases henabled
  have hlt : n < s.newest := by
    have hn := h.claimed_lt hmem
    simp only [newest] at hne ⊢
    omega
  have hsettled : Settled s n :=
    Or.inr (.inr ⟨s.newest, pending.request, hlt, ht.newest.2, hdisable,
      (ht.answered _).mp happlied⟩)
  exact .inr (hsettled.mono (fun m hm => hhistory ▸ hm) (hrequests ▸ prefix_rfl))

theorem Covered.of_grows (hc : Covered s) (hpending : s'.box.pending.isSome = s.box.pending.isSome)
    (hflag : s'.box.outputEnabled = s.box.outputEnabled) (hrequests : s'.requests = s.requests)
    (hold : ∀ m ∈ s.history, m ∈ s'.history)
    (hnew : ∀ n request, .claimed n request ∈ s'.history →
      .claimed n request ∈ s.history ∨ (s.box.pending.isSome = true ∧ n = s.newest)) :
    Covered s' := by
  intro hoff n request hmem henabled
  have hnewest : s'.newest = s.newest := by simp [newest, hrequests]
  rw [hflag] at hoff
  rw [hpending, hnewest]
  rcases hnew n request hmem with hmem | hcurrent
  · rcases hc hoff n request hmem henabled with hcurrent | hsettled
    · exact .inl hcurrent
    · exact .inr (hsettled.mono hold (hrequests ▸ prefix_rfl))
  · exact .inl hcurrent

/-- **One step** keeps the mailbox honest exactly when it is steady. -/
theorem Inv.safe_iff (h : s.Inv) (hc : Covered s) (heffect : Effect s a s') :
    (Steady s a ↔ SafeMeansSafe s') ∧ (Steady s a → Covered s') := by
  have hsafe_none : ∀ {flag : Bool}, s'.box.pending = none → s'.box.outputEnabled = flag →
      flag = false → s'.box.safeStateConfirmed = true := by
    intro flag hp hflag hoff
    simp [DisplayShellMailbox.safeStateConfirmed, hp, hflag, hoff]
  cases heffect with
  | quiet hsteady hpending hflag hrequests hhistory =>
    have hcov : Covered s' := hc.of_grows (by rw [hpending]) hflag hrequests
      (fun m hm => hhistory ▸ hm) (fun n request hm => .inl (hhistory ▸ hm))
    exact ⟨iff_of_true hsteady hcov.safeMeansSafe, fun _ => hcov⟩
  | @published request hsteady hnone hpending hflag hrequests hhistory =>
    have hcov : Covered s' := by
      intro hoff n request' hmem henabled
      rw [hflag] at hoff
      rw [hhistory] at hmem
      rcases hc hoff n request' hmem henabled with ⟨hsome, -⟩ | hsettled
      · rw [hnone] at hsome
        cases hsome
      · refine .inr (hsettled.mono (fun m hm => hhistory ▸ hm) ?_)
        rw [hrequests]
        exact prefix_append _ _
    exact ⟨iff_of_true hsteady hcov.safeMeansSafe, fun _ => hcov⟩
  | claimed hsteady hsome hnew hpending hflag hrequests hhistory =>
    have hcov : Covered s' := by
      refine hc.of_grows (by rw [hpending, hsome]; rfl) hflag hrequests
        (fun m hm => hhistory ▸ mem_append_left _ hm) fun n request hm => ?_
      rw [hhistory] at hm
      rcases mem_append.mp hm with hm | hm
      · exact .inl hm
      · obtain ⟨rfl, -⟩ : n = s.newest ∧ _ := by simpa using hm
        exact .inr ⟨by rw [hsome]; rfl, rfl⟩
    exact ⟨iff_of_true hsteady hcov.safeMeansSafe, fun _ => hcov⟩
  | answered hsteady hsome hclaimed hnew hpending hflag hrequests hhistory =>
    have hcov : Covered s' := by
      refine hc.of_grows (by rw [hpending, hsome]; rfl) hflag hrequests
        (fun m hm => hhistory ▸ mem_append_left _ hm) fun n request hm => ?_
      rw [hhistory] at hm
      rcases mem_append.mp hm with hm | hm
      · exact .inl hm
      · cases mem_singleton.mp hm
    exact ⟨iff_of_true hsteady hcov.safeMeansSafe, fun _ => hcov⟩
  | @dropped pending hsteady hsome hpending hflag hrequests hhistory =>
    have hcov : Steady s a → Covered s' := fun hs =>
      h.covered_dropped hc hsome (hsteady.mp hs) hflag hrequests hhistory
    refine ⟨⟨fun hs => (hcov hs).safeMeansSafe, fun hsafe => hsteady.mpr ?_⟩, hcov⟩
    rintro ⟨hoff, hclaimed, henabled, hresult⟩
    have ht := h.tracks pending hsome
    have hsettled := hsafe (hsafe_none hpending hflag hoff) s.newest pending.request
      (hhistory ▸ ht.claimed hclaimed) henabled
    exact ht.not_settled hresult
      (hsettled.mono (fun m hm => hhistory ▸ hm) (hrequests ▸ prefix_rfl))
  | @collected pending enabled hsteady hsome happlied hpending hflag hrequests hhistory =>
    have hcov : Steady s a → Covered s' := fun hs =>
      h.covered_collected hsome happlied (hsteady.mp hs) hflag hrequests hhistory
    refine ⟨⟨fun hs => (hcov hs).safeMeansSafe, fun hsafe => hsteady.mpr fun henabled => ?_⟩, hcov⟩
    cases henabled' : enabled with
    | true => rfl
    | false =>
      have ht := h.tracks pending hsome
      obtain ⟨request, hmem, -, -⟩ := h.answered_own s.newest _ _ _
        ((ht.answered _).mp happlied).choose_spec.choose_spec
      obtain ⟨rfl, -⟩ := h.claimed_newest hsome hmem
      have hsettled := hsafe (hsafe_none hpending hflag henabled') s.newest pending.request
        (hhistory ▸ hmem) henabled
      exact absurd
        (hsettled.mono (fun m hm => hhistory ▸ hm) (hrequests ▸ prefix_rfl))
        (ht.not_settled (.inr happlied))

theorem inv_empty : Inv {} :=
  ⟨⟨fun _ => Nat.zero_le _, fun _ => Nat.zero_le _, fun _ _ h => (by cases h),
    fun _ _ _ _ h => (by cases h)⟩, fun _ _ => ⟨rfl, rfl⟩, fun _ h => (by cases h)⟩

/-- **The mailbox.**  In every interleaving each request is handed out and acknowledged at most
once, under its own id and generation; and the mailbox reports the safe state truthfully after
every step exactly when every step is steady. -/
theorem safe_iff_steady (cfg : MailboxConfig) (actions : List LayoutAction) :
    OnceEach (run (step cfg) {} actions) ∧
      (Meets (step cfg) (fun s a => SafeMeansSafe (s.step cfg a)) {} actions ↔
        Meets (step cfg) Steady {} actions) := by
  constructor
  · have hall : Meets (step cfg) (fun _ _ => True) {} actions :=
      .of_forall (fun _ _ => trivial) _ _
    exact (hall.invariant (P := Inv) (fun s a _ h => h.step cfg a) inv_empty).toOnceEach
  · refine (Meets.congr (P := fun s => s.Inv ∧ Covered s) ?_ ?_ ?_).symm
    · exact fun s a h => (h.1.safe_iff h.2 (step_effect cfg s a)).1
    · exact fun s a hs h => ⟨h.1.step cfg a, (h.1.safe_iff h.2 (step_effect cfg s a)).2 hs⟩
    · exact ⟨inv_empty, fun _ _ _ h => by cases h⟩

/-! ## A late apply -/

/-- A mailbox with the default timeout. -/
def deskMailbox : MailboxConfig where
  requestTimeout := 10
  timeout_ok := by decide
  intOf
    | .int n => .ok n
    | v => .error ⟨"TypeError",
        "int() argument must be a string, a bytes-like object or a real number, not '" ++
          typeName v ++ "'"⟩

/-- The shell claims an enable request, and its waiter times out while the shell is at work. -/
def slowApply : List LayoutAction :=
  [.perform ⟨.primaryEnableOutput, []⟩ (deskGrant 1 "s1") "0123456789abcdef0123456789abcdef" 0 0 none,
    .claim 1, .wake 0 10]

/-- The mailbox reports the safe state, and the request it handed out was never answered. -/
theorem slowApply_unsafe : ¬ SafeMeansSafe (run (step deskMailbox) {} slowApply) := by
  have hsafe : (run (step deskMailbox) {} slowApply).box.safeStateConfirmed = true := by
    decide +kernel
  have hhistory : (run (step deskMailbox) {} slowApply).history =
      [.claimed 0 ⟨"0123456789abcdef0123456789abcdef", 1, "s1", "rdp-0", true, 0, 0, 1280, 720, 1,
        10⟩] := by
    decide +kernel
  intro h
  have hsettled := h hsafe 0 _ (by rw [hhistory]; exact List.mem_singleton_self _) rfl
  simp [Settled, Answered, hhistory] at hsettled

end LayoutSession

end DisplayDock
