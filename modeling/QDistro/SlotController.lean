/-
# The controller of a display slot

`display_slot_controller.py`: one slot, the executor that performs its actions, and
the grant they are performed under.  The executor may raise on any action, the peer may
refuse any renewal, and the clock may read anything.

The controller keeps a trace of what happened to the slot: every change of its phase and
every action that was handed to the executor.  A trace is a complete teardown when each
departure from a live phase is followed by exactly the six teardown actions, in their
order, before the slot is live again.

Every path but one tears down through `_perform_teardown`, which does not stop at a
failure.  The exception is in `attach`: when the lease is already over as the carrier
connects, the teardown comes back from `carrier_connected` in place of the input
admission and is performed by the loop of ordinary actions.
-/
import QDistro.DisplaySlot
import QDistro.TransitionSystem

namespace DisplayDock

open JsonText TransitionSystem

/-! ## The trace -/

/-- What a trace records. -/
inductive Event where
  | moved (generation : ℤ) (before after : SlotPhase)
  | handed (action : SlotAction)
  deriving DecidableEq

/-- The kinds of action handed over until the slot is live again. -/
def handedUntilLive : List Event → List ActionKind
  | [] => []
  | .handed action :: rest => action.kind :: handedUntilLive rest
  | .moved _ _ p :: rest => if p.live then [] else handedUntilLive rest

/-- **Complete teardown.**  Every departure from a live phase is followed by the six
teardown actions, each once and in their order. -/
def CompleteTeardown : List Event → Prop
  | [] => True
  | .handed _ :: rest => CompleteTeardown rest
  | .moved _ p q :: rest =>
    (p.live = true → q.live = false → handedUntilLive rest = teardownKinds) ∧
      CompleteTeardown rest

instance decidableCompleteTeardown : ∀ trace, Decidable (CompleteTeardown trace)
  | [] => isTrue trivial
  | .handed _ :: rest => decidableCompleteTeardown rest
  | .moved _ _ _ :: rest => @instDecidableAnd _ _ _ (decidableCompleteTeardown rest)

/-! ## The controller -/

/-- `DisplayControllerError(text)` -/
def controllerError (text : String) : PyError := ⟨"DisplayControllerError", text⟩

/-- `DisplaySlotController`, with the trace of its slot. -/
structure DisplaySlotController where
  slot : RemoteDisplaySlot
  grant : Option Payload := none
  trace : List Event := []

/-- How the executor answers the actions of one operation; none is handed over twice. -/
abbrev Performs := ActionKind → Option PyError

/-- What one `_renew_during_attach` or `heartbeat` meets: the two readings of the clock and
the answer of the peer. -/
structure Renewal where
  now : ℚ
  check : ℚ
  peer : Option PyError

/-- What one `attach` meets. -/
structure AttachEnv where
  now : ℚ
  performs : Performs
  /-- The renewals while the carrier is being opened. -/
  during : List Renewal
  /-- The renewal after each completed action. -/
  after : ActionKind → Renewal
  connected : ℚ

namespace DisplaySlotController

variable (c : DisplaySlotController)

/-- The slot after one of its operations; a change of phase goes to the trace. -/
def setSlot (slot : RemoteDisplaySlot) : DisplaySlotController :=
  { c with
    slot
    trace := if slot.phase = c.slot.phase then c.trace
      else c.trace ++ [.moved slot.generation c.slot.phase slot.phase] }

/-- `_perform(action)` -/
def perform (performs : Performs) (action : SlotAction) :
    DisplaySlotController × Option PyError :=
  match c.grant with
  | none => (c, some (controllerError "display controller has no active grant"))
  | some _ => ({ c with trace := c.trace ++ [.handed action] }, performs action.kind)

/-- `_renew_during_attach()` -/
def renewDuringAttach (renewal : Renewal) : DisplaySlotController × Option PyError :=
  let expired := controllerError "display lease expired during attach"
  match c.grant with
  | none => (c, some expired)
  | some _ =>
    match c.slot.heartbeat c.slot.generation renewal.now renewal.check with
    | .error e => (c, some e)
    | .ok (slot, false) => (c.setSlot slot, some expired)
    | .ok (slot, true) => (c.setSlot slot, renewal.peer)

/-- The renewals while the carrier opens, up to the first that fails. -/
def renewWhileOpening : DisplaySlotController → List Renewal →
    DisplaySlotController × Option PyError
  | c, [] => (c, none)
  | c, renewal :: rest =>
    match c.renewDuringAttach renewal with
    | (c', some e) => (c', some e)
    | (c', none) => renewWhileOpening c' rest

/-- `_perform_carrier_with_renewal(action)`: the worker hands the action over while this
thread renews; a failed renewal is raised first. -/
def performCarrierWithRenewal (env : AttachEnv) (action : SlotAction) :
    DisplaySlotController × Option PyError :=
  let (c, performed) := c.perform env.performs action
  match c.renewWhileOpening env.during with
  | (c, some e) => (c, some e)
  | (c, none) => (c, performed)

/-- The loop of `attach` over the actions of `begin_attach`. -/
def attachActions (env : AttachEnv) : DisplaySlotController → List SlotAction →
    DisplaySlotController × Option PyError
  | c, [] => (c, none)
  | c, action :: rest =>
    let (c, performed) :=
      if action.kind = .openAuthenticatedCarrier then c.performCarrierWithRenewal env action
      else c.perform env.performs action
    match performed with
    | some e => (c, some e)
    | none =>
      match c.renewDuringAttach (env.after action.kind) with
      | (c, some e) => (c, some e)
      | (c, none) => attachActions env c rest

/-- The loop of `attach` over what `carrier_connected` returns: it stops at the first action
that raises. -/
def performAll (performs : Performs) : DisplaySlotController → List SlotAction →
    DisplaySlotController × Option PyError
  | c, [] => (c, none)
  | c, action :: rest =>
    match c.perform performs action with
    | (c, some e) => (c, some e)
    | (c, none) => performAll performs c rest

/-- `_perform_teardown(actions)`: it never stops at a failure. -/
def performTeardown (performs : Performs) : DisplaySlotController → List SlotAction →
    DisplaySlotController × List String
  | c, [] => (c, [])
  | c, action :: rest =>
    let (c, performed) := c.perform performs action
    let (c, failures) := performTeardown performs c rest
    (c, match performed with
      | some e => (action.kind.value ++ ":" ++ e.name) :: failures
      | none => failures)

/-- `_fail_safe(reason)` -/
def failSafe (performs : Performs) (reason : String) : DisplaySlotController × List String :=
  let (slot, actions) := c.slot.failSafe reason
  (c.setSlot slot).performTeardown performs actions

/-- `str(failures)` for class names and action names, which need no escapes. -/
def listText (failures : List String) : String :=
  "[" ++ ", ".intercalate (failures.map fun f => "'" ++ f ++ "'") ++ "]"

/-- The suffix of a message that names the failures of a teardown. -/
def failuresSuffix (failures : List String) : String :=
  if failures.isEmpty then "" else "; teardown failures=" ++ listText failures

/-- The body of `attach` up to an exception. -/
def attachBody (payload : Payload) (env : AttachEnv) : DisplaySlotController × Option PyError :=
  match c.slot.beginAttach payload env.now with
  | .error e => (c, some e)
  | .ok (slot, actions) =>
    match (c.setSlot slot).attachActions env actions with
    | (c, some e) => (c, some e)
    | (c, none) =>
      match c.slot.carrierConnected c.slot.generation env.connected with
      | .error e => (c, some e)
      | .ok (slot, actions) => (c.setSlot slot).performAll env.performs actions

/-- The `except` clause of `attach`, on what its body has come to. -/
def attachExcept (performs : Performs) :
    DisplaySlotController × Option PyError → DisplaySlotController × Option PyError
  | (c, none) => (c, none)
  | (c, some e) =>
    let (c, failures) := c.failSafe performs ("attach failed at " ++ e.name)
    -- a grant that was refused before the slot left `disabled` is not kept
    (if c.slot.phase = .disabled then { c with grant := none } else c,
      some (controllerError ("display attach failed: " ++ e.name ++ failuresSuffix failures)))

/-- `attach(verified_payload)` -/
def attach (payload : Payload) (env : AttachEnv) : DisplaySlotController × Option PyError :=
  match c.grant with
  | some _ => (c, some (controllerError "display controller already owns a grant"))
  | none => attachExcept env.performs ({ c with grant := some payload }.attachBody payload env)

/-- `heartbeat(generation)` -/
def heartbeat (generation : ℤ) (renewal : Renewal) (performs : Performs) :
    DisplaySlotController × Except PyError Bool :=
  match c.slot.heartbeat generation renewal.now renewal.check with
  | .error e => (c, .error e)
  | .ok (slot, true) =>
    let c := c.setSlot slot
    match c.grant with
    | none => (c, .error (controllerError "display controller has no heartbeat grant"))
    | some _ =>
      match renewal.peer with
      | none => (c, .ok true)
      | some _ =>
        let (c, failures) := c.failSafe performs "peer panel heartbeat failed"
        (c, .error (controllerError
          ("peer panel heartbeat failed" ++ failuresSuffix failures)))
  | .ok (slot, false) =>
    let (c, failures) := (c.setSlot slot).failSafe performs "display heartbeat rejected"
    if failures.isEmpty then (c, .ok false)
    else (c, .error (controllerError
      ("heartbeat fail-safe teardown failed: " ++ listText failures)))

/-- `record_input(generation, kind=…, code=…, pressed=…)` -/
def recordInput (generation : ℤ) (kind : String) (code : Json) (pressed : Bool) (now : ℚ) :
    DisplaySlotController × Option PyError :=
  match c.slot.inputEvent generation kind code pressed now with
  | .error e => (c, some e)
  | .ok slot => (c.setSlot slot, none)

/-- `carrier_lost(generation, reason=…)` -/
def carrierLost (generation : ℤ) (reason : String) (performs : Performs) :
    DisplaySlotController × Option PyError :=
  if generation ≠ c.slot.generation then (c, none)
  -- the slot refuses a failure without a reason before it looks at its phase
  else if reason = "" then (c, some (slotError "display failure reason is required"))
  else
    let (c, failures) := c.failSafe performs reason
    if failures.isEmpty then (c, none)
    else (c, some (controllerError ("carrier-loss teardown failed: " ++ listText failures)))

/-- `tick()` -/
def tick (now : ℚ) (performs : Performs) : DisplaySlotController × Except PyError Bool :=
  let (slot, actions) := c.slot.tick now
  if actions.isEmpty then (c.setSlot slot, .ok false)
  else
    let (c, failures) := (c.setSlot slot).performTeardown performs actions
    if failures.isEmpty then (c, .ok true)
    else (c, .error (controllerError ("lease-timeout teardown failed: " ++ listText failures)))

/-- `detach(generation)` -/
def detach (generation : ℤ) (performs : Performs) : DisplaySlotController × Option PyError :=
  match c.slot.beginDetach generation with
  | .error e => (c, some e)
  | .ok (slot, actions) =>
    let (c, failures) := (c.setSlot slot).performTeardown performs actions
    if failures.isEmpty then
      match c.slot.completeDetach generation with
      | .error e => (c, some e)
      | .ok slot => ({ c.setSlot slot with grant := none }, none)
    else
      -- the actions were all attempted: the slot fails safe without a second round
      (c.setSlot (c.slot.failSafe "detach operation failed").1,
        some (controllerError ("display detach had cleanup failures: " ++ listText failures)))

/-- `reset_failed_safe()`; `confirmed` is the answer of `fail_safe_confirmed`. -/
def resetFailedSafe (confirmed : Except PyError Bool) :
    DisplaySlotController × Option PyError :=
  if c.slot.phase ≠ .failedSafe then
    (c, some (controllerError "display slot is not failed-safe"))
  else
    match confirmed with
    | .error e => (c, some e)
    | .ok false => (c, some (controllerError "local display fail-safe state is not confirmed"))
    | .ok true =>
      match c.slot.resetFailedSafe with
      | .error e => (c, some e)
      | .ok slot => ({ c.setSlot slot with grant := none }, none)

end DisplaySlotController

/-- An operation of the controller, with what it meets. -/
inductive Op where
  | attach (payload : Payload) (env : AttachEnv)
  | heartbeat (generation : ℤ) (renewal : Renewal) (performs : Performs)
  | recordInput (generation : ℤ) (kind : String) (code : Json) (pressed : Bool) (now : ℚ)
  | carrierLost (generation : ℤ) (reason : String) (performs : Performs)
  | tick (now : ℚ) (performs : Performs)
  | detach (generation : ℤ) (performs : Performs)
  | reset (confirmed : Except PyError Bool)

/-- One operation. -/
def DisplaySlotController.step (c : DisplaySlotController) : Op → DisplaySlotController
  | .attach payload env => (c.attach payload env).1
  | .heartbeat generation renewal performs => (c.heartbeat generation renewal performs).1
  | .recordInput generation kind code pressed now =>
    (c.recordInput generation kind code pressed now).1
  | .carrierLost generation reason performs => (c.carrierLost generation reason performs).1
  | .tick now performs => (c.tick now performs).1
  | .detach generation performs => (c.detach generation performs).1
  | .reset confirmed => (c.resetFailedSafe confirmed).1

/-! ## Traces -/

/-- Whether the slot is live after a trace that starts from `live`. -/
def liveFrom (live : Bool) : List Event → Bool
  | [] => live
  | .handed _ :: rest => liveFrom live rest
  | .moved _ _ q :: rest => liveFrom q.live rest

@[simp] theorem liveFrom_append (live : Bool) (a b : List Event) :
    liveFrom live (a ++ b) = liveFrom (liveFrom live a) b := by
  induction a generalizing live with
  | nil => rfl
  | cons e rest ih => cases e <;> exact ih _

@[simp] theorem liveFrom_handed (live : Bool) (actions : List SlotAction) :
    liveFrom live (actions.map .handed) = live := by
  induction actions with
  | nil => rfl
  | cons _ _ ih => exact ih

theorem handedUntilLive_append {a b : List Event}
    (h : liveFrom false a = true ∨ handedUntilLive b = []) :
    handedUntilLive (a ++ b) = handedUntilLive a := by
  induction a with
  | nil =>
    rcases h with h | h
    · exact absurd h (by simp [liveFrom])
    · exact h
  | cons e rest ih =>
    cases e with
    | handed action => exact congrArg (action.kind :: ·) (ih h)
    | moved g p q =>
      cases hq : q.live with
      | true => simp [handedUntilLive, hq]
      | false =>
        rw [liveFrom, hq] at h
        simpa [handedUntilLive, hq] using ih h

@[simp] theorem handedUntilLive_handed (actions : List SlotAction) (rest : List Event) :
    handedUntilLive (actions.map .handed ++ rest) =
      actions.map SlotAction.kind ++ handedUntilLive rest := by
  induction actions with
  | nil => rfl
  | cons action _ ih => exact congrArg (action.kind :: ·) ih

@[simp] theorem completeTeardown_handed (actions : List SlotAction) (rest : List Event) :
    CompleteTeardown (actions.map .handed ++ rest) ↔ CompleteTeardown rest := by
  induction actions with
  | nil => rfl
  | cons _ _ ih => exact ih

/-- Traces compose when the first ends live, or the second hands nothing over before the
slot is live. -/
theorem CompleteTeardown.append {a b : List Event} {live : Bool} (ha : CompleteTeardown a)
    (hb : CompleteTeardown b) (h : liveFrom live a = true ∨ handedUntilLive b = []) :
    CompleteTeardown (a ++ b) := by
  induction a generalizing live with
  | nil => exact hb
  | cons e rest ih =>
    cases e with
    | handed action => exact ih ha h
    | moved g p q =>
      refine ⟨fun hp hq => ?_, ih ha.2 h⟩
      rw [liveFrom, hq] at h
      show handedUntilLive (rest ++ b) = teardownKinds
      rw [handedUntilLive_append h]
      exact ha.1 hp hq

end DisplayDock
