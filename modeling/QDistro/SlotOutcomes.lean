/-
# What the operations of a slot controller do

The loops of the controller, said once each: `performAll_spec` for the loop that stops at the
first action that raises, `performTeardown_eq` for the one that does not,
`attachActions_spec` for the loop that renews the lease after every action.  From them
`attach_cases`: an attach is refused and changes nothing, or it is admitted and ends
connected, failed and torn down by its handler, or late and torn down by the wrong loop.
The other operations keep the slot where it is or tear it down (`Keeps`), detach it
(`DetachOutcome`) or reset it (`reset_cases`); all of them keep grants and phases `Consistent`.
-/
import QDistro.SlotController

namespace DisplayDock

open JsonText TransitionSystem RemoteDisplaySlot DisplaySlotController

/-! ## Lists of actions -/

/-- The failures that `_perform_teardown` collects. -/
def failuresOf (performs : Performs) (actions : List SlotAction) : List String :=
  actions.filterMap fun action =>
    (performs action.kind).map fun e => action.kind.value ++ ":" ++ e.name

namespace DisplaySlotController

variable {c : DisplaySlotController}

/-- The actions have been handed over. -/
def hand (c : DisplaySlotController) (actions : List SlotAction) : DisplaySlotController :=
  { c with trace := c.trace ++ actions.map .handed }

/-- The lease was renewed at `now`. -/
def beat (c : DisplaySlotController) (now : ℚ) : DisplaySlotController :=
  { c with slot := { c.slot with lastHeartbeat := now } }

@[simp] theorem hand_trace (actions : List SlotAction) :
    (c.hand actions).trace = c.trace ++ actions.map .handed := rfl

@[simp] theorem hand_hand (as bs : List SlotAction) : (c.hand as).hand bs = c.hand (as ++ bs) := by
  simp [hand]

@[simp] theorem hand_nil : c.hand [] = c := by
  simp [hand]

@[simp] theorem beat_trace (now : ℚ) : (c.beat now).trace = c.trace := rfl

theorem perform_eq {payload : Payload} (hg : c.grant = some payload) (performs : Performs)
    (action : SlotAction) : c.perform performs action = (c.hand [action], performs action.kind) := by
  simp only [perform, hg, hand, List.map_cons, List.map_nil]

theorem performTeardown_eq {payload : Payload} (hg : c.grant = some payload)
    (performs : Performs) (actions : List SlotAction) :
    c.performTeardown performs actions = (c.hand actions, failuresOf performs actions) := by
  induction actions generalizing c with
  | nil => simp [performTeardown, failuresOf]
  | cons action rest ih =>
    rw [performTeardown, perform_eq hg]
    simp only [ih (c := c.hand [action]) hg, hand_hand, List.singleton_append]
    cases h : performs action.kind <;> simp [failuresOf, h]

/-- The loop of ordinary actions hands over an initial part: all of it when nothing but the
last action raises. -/
theorem performAll_spec {payload : Payload} (hg : c.grant = some payload) (performs : Performs)
    (actions : List SlotAction) :
    ∃ handed, handed <+: actions ∧ (c.performAll performs actions).1 = c.hand handed ∧
      ((c.performAll performs actions).2 = none ↔ ∀ a ∈ actions, performs a.kind = none) ∧
      (handed = actions ↔ ∀ a ∈ actions.dropLast, performs a.kind = none) := by
  induction actions generalizing c with
  | nil => exact ⟨[], List.prefix_rfl, by simp [performAll], by simp [performAll], by simp⟩
  | cons action rest ih =>
    rw [performAll, perform_eq hg]
    cases h : performs action.kind with
    | some e =>
      refine ⟨[action], ⟨rest, rfl⟩, rfl, by simp [h], ?_⟩
      cases rest with
      | nil => simp
      | cons b rest => simp [h]
    | none =>
      obtain ⟨handed, hpre, heq, hiff, hall⟩ := ih (c := c.hand [action]) hg
      refine ⟨action :: handed, List.cons_prefix_cons.mpr ⟨rfl, hpre⟩, ?_, ?_, ?_⟩
      · show (performAll performs (c.hand [action]) rest).1 = _
        rw [heq, hand_hand, List.singleton_append]
      · show (performAll performs (c.hand [action]) rest).2 = none ↔ _
        rw [hiff]
        simp [h]
      · rw [List.cons_inj_right, hall]
        cases rest with
        | nil => simp
        | cons b rest => simp [h]

end DisplaySlotController

/-! ## Renewals -/

/-- The renewals find the lease valid, each since the one before, and the peer agrees. -/
def Renews (grant : ActiveDisplayGrant) : ℚ → List Renewal → Prop
  | _, [] => True
  | last, r :: rest =>
    (r.now < grant.leaseExpiresAt ∧ r.check ≤ last + grant.heartbeatMs / 1000 ∧
      r.check < grant.leaseExpiresAt) ∧ r.peer = none ∧ Renews grant r.now rest

/-- The last time the lease was renewed. -/
def lastBeat (last : ℚ) : List Renewal → ℚ
  | [] => last
  | r :: rest => lastBeat r.now rest

theorem renews_append {grant : ActiveDisplayGrant} {last : ℚ} {as bs : List Renewal} :
    Renews grant last (as ++ bs) ↔ Renews grant last as ∧ Renews grant (lastBeat last as) bs := by
  induction as generalizing last with
  | nil => simp [Renews, lastBeat]
  | cons r rest ih => simp only [List.cons_append, Renews, lastBeat, ih, and_assoc]

/-- The executor performs the actions of `begin_attach` and every renewal on the way
succeeds. -/
def Admits (env : AttachEnv) (grant : ActiveDisplayGrant) : ℚ → List SlotAction → Prop
  | _, [] => True
  | last, action :: rest =>
    env.performs action.kind = none ∧
      Renews grant last
        ((if action.kind = .openAuthenticatedCarrier then env.during else []) ++
          [env.after action.kind]) ∧
      Admits env grant (env.after action.kind).now rest

/-- The last renewal of the loop. -/
def lastAdmitted (env : AttachEnv) (last : ℚ) : List SlotAction → ℚ
  | [] => last
  | action :: rest => lastAdmitted env (env.after action.kind).now rest

namespace DisplaySlotController

variable {c : DisplaySlotController} {payload : Payload} {grant : ActiveDisplayGrant}

/-- The controller holds a grant and its slot is in a live phase under it. -/
structure Holds (c : DisplaySlotController) (payload : Payload) (grant : ActiveDisplayGrant) :
    Prop where
  owned : c.grant = some payload
  granted : c.slot.grant = some grant
  live : c.slot.phase.live = true

section

variable (h : c.Holds payload grant)
include h

theorem Holds.hand (actions : List SlotAction) :
    (c.hand actions).Holds payload grant := ⟨h.owned, h.granted, h.live⟩

theorem Holds.beat (now : ℚ) : (c.beat now).Holds payload grant :=
  ⟨h.owned, h.granted, h.live⟩

theorem Holds.generation : c.slot.generation = grant.generation := by
  rw [RemoteDisplaySlot.generation, h.granted]

theorem Holds.checkGeneration :
    c.slot.checkGeneration c.slot.generation = .ok grant := by
  rw [h.generation, RemoteDisplaySlot.checkGeneration, h.granted]
  exact if_pos rfl

end

theorem setSlot_of_phase {slot : RemoteDisplaySlot} (h : slot.phase = c.slot.phase) :
    c.setSlot slot = { c with slot } := by
  rw [setSlot, if_pos h]

theorem setSlot_of_ne {slot : RemoteDisplaySlot} (h : slot.phase ≠ c.slot.phase) :
    c.setSlot slot = { c with
      slot, trace := c.trace ++ [.moved slot.generation c.slot.phase slot.phase] } := by
  rw [setSlot, if_neg h]

section

variable (h : c.Holds payload grant)
include h

theorem renewDuringAttach_eq (r : Renewal) :
    c.renewDuringAttach r =
      if r.now < grant.leaseExpiresAt ∧ c.slot.leaseValid grant r.check = true then
        (c.beat r.now, r.peer)
      else (c, some (controllerError "display lease expired during attach")) := by
  have hbeat : c.slot.heartbeat c.slot.generation r.now r.check =
      if r.now < grant.leaseExpiresAt ∧ c.slot.leaseValid grant r.check = true then
        .ok ({ c.slot with lastHeartbeat := r.now }, true)
      else .ok (c.slot, false) := by
    rw [RemoteDisplaySlot.heartbeat, h.checkGeneration]
    simp only [h.live, true_and]
    rfl
  rw [renewDuringAttach, h.owned]
  dsimp only
  rw [hbeat]
  by_cases hr : r.now < grant.leaseExpiresAt ∧ c.slot.leaseValid grant r.check = true
  · rw [if_pos hr, if_pos hr]
    exact congrArg (·, r.peer) (setSlot_of_phase rfl)
  · rw [if_neg hr, if_neg hr]
    exact congrArg (·, some _) (setSlot_of_phase rfl)

theorem renewDuringAttach_spec (r : Renewal) :
    ∃ now, (c.renewDuringAttach r).1 = c.beat now ∧
      ((c.renewDuringAttach r).2 = none ↔ Renews grant c.slot.lastHeartbeat [r]) ∧
      ((c.renewDuringAttach r).2 = none → now = r.now) := by
  rw [renewDuringAttach_eq h]
  have hiff : (r.now < grant.leaseExpiresAt ∧ c.slot.leaseValid grant r.check = true) ↔
      (r.now < grant.leaseExpiresAt ∧ r.check ≤ c.slot.lastHeartbeat + grant.heartbeatMs / 1000 ∧
        r.check < grant.leaseExpiresAt) := by
    rw [leaseValid, decide_eq_true_iff]
  by_cases hr : r.now < grant.leaseExpiresAt ∧ c.slot.leaseValid grant r.check = true
  · rw [if_pos hr]
    exact ⟨r.now, rfl, by simp [Renews, hiff.mp hr], fun _ => rfl⟩
  · rw [if_neg hr]
    refine ⟨c.slot.lastHeartbeat, rfl, ?_, fun hnone => by cases hnone⟩
    simp only [Renews, ← hiff, hr, false_and, iff_false]
    exact fun hnone => by cases hnone

theorem renewWhileOpening_spec (rs : List Renewal) :
    ∃ now, (c.renewWhileOpening rs).1 = c.beat now ∧
      ((c.renewWhileOpening rs).2 = none ↔ Renews grant c.slot.lastHeartbeat rs) ∧
      ((c.renewWhileOpening rs).2 = none → now = lastBeat c.slot.lastHeartbeat rs) := by
  induction rs generalizing c with
  | nil => exact ⟨c.slot.lastHeartbeat, rfl, by simp [renewWhileOpening, Renews], fun _ => rfl⟩
  | cons r rest ih =>
    obtain ⟨now, hbeat, hiff, hnow⟩ := renewDuringAttach_spec h r
    have hcons : Renews grant c.slot.lastHeartbeat (r :: rest) ↔
        Renews grant c.slot.lastHeartbeat [r] ∧ Renews grant r.now rest := by
      simp only [Renews, and_true, and_assoc]
    rw [renewWhileOpening]
    cases hr : c.renewDuringAttach r with
    | mk c' raised =>
      rw [hr] at hbeat hiff hnow
      dsimp only at hbeat hiff hnow
      cases raised with
      | some e =>
        refine ⟨now, hbeat, ?_, fun hnone => by cases hnone⟩
        rw [hcons, ← hiff]
        simp
      | none =>
        obtain rfl := hnow rfl
        subst hbeat
        obtain ⟨now, hbeat, hiff', hnow⟩ := ih (h.beat r.now)
        refine ⟨now, hbeat, ?_, hnow⟩
        rw [hcons, ← hiff, hiff']
        simp [beat]

theorem attachAction_spec (env : AttachEnv) (action : SlotAction) :
    let during := if action.kind = .openAuthenticatedCarrier then env.during else []
    let out := if action.kind = .openAuthenticatedCarrier then
        c.performCarrierWithRenewal env action else c.perform env.performs action
    ∃ now, out.1 = (c.hand [action]).beat now ∧
      (out.2 = none ↔ env.performs action.kind = none ∧
        Renews grant c.slot.lastHeartbeat during) ∧
      (out.2 = none → now = lastBeat c.slot.lastHeartbeat during) := by
  dsimp only
  by_cases hk : action.kind = .openAuthenticatedCarrier
  · simp only [if_pos hk, performCarrierWithRenewal, perform_eq h.owned]
    obtain ⟨now, hbeat, hiff, hnow⟩ := renewWhileOpening_spec (h.hand [action]) env.during
    cases hr : (c.hand [action]).renewWhileOpening env.during with
    | mk c' raised =>
      rw [hr] at hbeat hiff hnow
      dsimp only at hbeat hiff hnow
      cases raised with
      | some e =>
        refine ⟨now, hbeat, ?_, fun hnone => by cases hnone⟩
        simp only [reduceCtorEq, false_iff] at hiff ⊢
        exact fun hboth => hiff hboth.2
      | none =>
        refine ⟨now, hbeat, ?_, fun _ => hnow rfl⟩
        show env.performs action.kind = none ↔ _
        simp only [true_iff] at hiff
        exact ⟨fun hp => ⟨hp, hiff⟩, fun hboth => hboth.1⟩
  · simp only [if_neg hk, perform_eq h.owned]
    exact ⟨c.slot.lastHeartbeat, rfl, by simp [Renews], fun _ => rfl⟩

/-- **The attach loop** hands over an initial part of the actions and goes through exactly when
the executor and the renewals let them all in. -/
theorem attachActions_spec (env : AttachEnv) (actions : List SlotAction) :
    ∃ now handed, (c.attachActions env actions).1 = (c.hand handed).beat now ∧
      ((c.attachActions env actions).2 = none ↔
        Admits env grant c.slot.lastHeartbeat actions) ∧
      ((c.attachActions env actions).2 = none →
        now = lastAdmitted env c.slot.lastHeartbeat actions) := by
  induction actions generalizing c with
  | nil =>
    exact ⟨c.slot.lastHeartbeat, [], by rw [hand_nil]; rfl, by simp [attachActions, Admits],
      fun _ => rfl⟩
  | cons action rest ih =>
    obtain ⟨now, hout, hiff, hnow⟩ := attachAction_spec h env action
    rw [attachActions]
    cases hr : if action.kind = .openAuthenticatedCarrier then
        c.performCarrierWithRenewal env action else c.perform env.performs action with
    | mk c' raised =>
      rw [hr] at hout hiff hnow
      dsimp only at hout hiff hnow ⊢
      cases raised with
      | some e =>
        refine ⟨now, [action], hout, ?_, fun hnone => by cases hnone⟩
        simp only [reduceCtorEq, false_iff] at hiff ⊢
        rw [Admits, renews_append]
        exact fun hall => hiff ⟨hall.1, hall.2.1.1⟩
      | none =>
        have hboth := hiff.mp rfl
        have hlast := hnow rfl
        have hh : c'.Holds payload grant := by
          rw [hout]
          exact (h.hand _).beat _
        obtain ⟨after, hrenew, hiff', hafter⟩ :=
          renewDuringAttach_spec hh (env.after action.kind)
        have hadmits : Admits env grant c.slot.lastHeartbeat (action :: rest) ↔
            Renews grant c'.slot.lastHeartbeat [env.after action.kind] ∧
              Admits env grant (env.after action.kind).now rest := by
          rw [Admits, renews_append, hout, ← hlast]
          simp [hboth, beat]
        dsimp only
        cases hr' : c'.renewDuringAttach (env.after action.kind) with
        | mk c'' raised =>
          rw [hr'] at hrenew hiff' hafter
          dsimp only at hrenew hiff' hafter ⊢
          cases raised with
          | some e =>
            refine ⟨after, [action], ?_, ?_, fun hnone => by cases hnone⟩
            · rw [hrenew, hout]
              rfl
            · rw [hadmits, ← hiff']
              simp
          | none =>
            obtain rfl := hafter rfl
            have hh' : c''.Holds payload grant := by
              rw [hrenew]
              exact hh.beat _
            obtain ⟨final, handed, hfinal, hiff'', hlast'⟩ := ih hh'
            have hbeat : c''.slot.lastHeartbeat = (env.after action.kind).now := by
              rw [hrenew]
              rfl
            refine ⟨final, action :: handed, ?_, ?_, ?_⟩
            · show (attachActions env c'' rest).1 = _
              rw [hfinal, hrenew, hout]
              simp [hand, beat]
            · show (attachActions env c'' rest).2 = none ↔ _
              rw [hiff'', hadmits, ← hiff', hbeat]
              simp
            · intro hnone
              rw [hlast' hnone, hbeat]
              rfl

end

end DisplaySlotController

/-! ## Slot operations -/

namespace RemoteDisplaySlot

variable {s : RemoteDisplaySlot} {payload : Payload} {grant : ActiveDisplayGrant} {now : ℚ}

/-- The slot once a grant is admitted. -/
def admitted (s : RemoteDisplaySlot) (grant : ActiveDisplayGrant) (now : ℚ) : RemoteDisplaySlot :=
  { s with
    grant := some grant, lastGeneration := grant.generation, lastHeartbeat := now
    held := [], failureReason := none, phase := .enabling }

/-- The actions that bring a slot up. -/
def attachActions : List SlotAction :=
  [⟨.peerBlankPanel, []⟩, ⟨.primaryEnableOutput, []⟩, ⟨.openAuthenticatedCarrier, []⟩]

/-- The slot after a failure. -/
def failed (s : RemoteDisplaySlot) (reason : String) : RemoteDisplaySlot :=
  { s with phase := .failedSafe, failureReason := some reason, held := [] }

theorem beginAttach_ok {out : RemoteDisplaySlot × List SlotAction}
    (h : s.beginAttach payload now = .ok out) :
    ∃ grant, ActiveDisplayGrant.fromVerifiedPayload payload = .ok grant ∧
      grant.slotName = s.spec.name ∧ s.lastGeneration < grant.generation ∧
      out = (s.admitted grant now, attachActions) := by
  unfold beginAttach at h
  simp only [bind, Except.bind, pure, Except.pure, throw, throwThe, MonadExceptOf.throw] at h
  split at h
  case isFalse => cases h
  split at h
  case h_1 => cases h
  next grant hgrant =>
  split at h
  case isTrue => cases h
  next hname =>
  split at h
  case isTrue => cases h
  next hgen =>
  split at h
  case isTrue => cases h
  split at h
  case isTrue => cases h
  split at h
  case isTrue => cases h
  split at h
  case isTrue => cases h
  injection h with h
  exact ⟨grant, hgrant, not_not.mp hname, not_le.mp hgen, h.symm⟩

theorem admitted_injective {grant' : ActiveDisplayGrant}
    (h : s.admitted grant now = s.admitted grant' now) : grant = grant' :=
  Option.some.inj (congrArg RemoteDisplaySlot.grant h)

theorem admitted_spec (h : s.beginAttach payload now = .ok (s.admitted grant now, attachActions)) :
    ActiveDisplayGrant.fromVerifiedPayload payload = .ok grant ∧
      grant.slotName = s.spec.name ∧ s.lastGeneration < grant.generation := by
  obtain ⟨grant', hparsed, hname, hgen, heq⟩ := beginAttach_ok h
  injection heq with hslot
  obtain rfl := admitted_injective hslot
  exact ⟨hparsed, hname, hgen⟩

theorem failSafe_of_live (h : s.phase.live = true) (reason : String) :
    s.failSafe reason = (s.failed reason, s.teardownActions) := by
  cases hp : s.phase <;> simp [failSafe, failed, hp, SlotPhase.live] at h ⊢

theorem failSafe_of_settled (h : s.phase = .disabled ∨ s.phase = .failedSafe) (reason : String) :
    s.failSafe reason = (s, []) := by
  rcases h with h | h <;> simp [failSafe, h]

theorem kinds_teardownActions : s.teardownActions.map SlotAction.kind = teardownKinds := rfl

theorem carrierConnected_eq (hgrant : s.grant = some grant) (hphase : s.phase = .enabling) :
    s.carrierConnected s.generation now =
      if s.leaseValid grant now then .ok ({ s with phase := .active },
        if grant.allowInput then [⟨.primaryEnableInput, []⟩] else [])
      else .ok (s.failed "display lease expired during attach", s.teardownActions) := by
  have hgen : s.generation = grant.generation := by rw [generation, hgrant]
  have hcheck : s.checkGeneration s.generation = .ok grant := by
    rw [checkGeneration, hgrant, hgen]
    exact if_pos rfl
  have hlive : s.phase.live = true := by rw [hphase]; rfl
  rw [carrierConnected, hcheck, failSafe_of_live hlive]
  simp only [bind, Except.bind, hphase, if_true, pure, Except.pure]

end RemoteDisplaySlot

namespace DisplaySlotController

variable {c : DisplaySlotController} {payload : Payload} {grant : ActiveDisplayGrant}

/-- The teardown of a live slot. -/
def tornDown (c : DisplaySlotController) (slot : RemoteDisplaySlot) (actions : List SlotAction) :
    DisplaySlotController :=
  { c with
    slot
    trace := c.trace ++ .moved slot.generation c.slot.phase slot.phase :: actions.map .handed }

theorem performTeardown_setSlot (hg : c.grant = some payload) {slot : RemoteDisplaySlot}
    (hne : slot.phase ≠ c.slot.phase) (performs : Performs) (actions : List SlotAction) :
    (c.setSlot slot).performTeardown performs actions =
      (c.tornDown slot actions, failuresOf performs actions) := by
  have hg' : (c.setSlot slot).grant = some payload := hg
  rw [performTeardown_eq hg', setSlot_of_ne hne]
  simp [tornDown, hand]

theorem Holds.ne_of_dead (h : c.Holds payload grant) {p : SlotPhase} (hp : p.live = false) :
    p ≠ c.slot.phase := by
  rintro rfl
  rw [h.live] at hp
  cases hp

theorem Holds.failSafe (h : c.Holds payload grant) (performs : Performs) (reason : String) :
    c.failSafe performs reason = (c.tornDown (c.slot.failed reason) c.slot.teardownActions,
      failuresOf performs c.slot.teardownActions) := by
  rw [DisplaySlotController.failSafe, failSafe_of_live h.live]
  exact performTeardown_setSlot h.owned (h.ne_of_dead rfl) performs _

theorem failSafe_of_settled (h : c.slot.phase = .disabled ∨ c.slot.phase = .failedSafe)
    (performs : Performs) (reason : String) : c.failSafe performs reason = (c, []) := by
  rw [failSafe, RemoteDisplaySlot.failSafe_of_settled h]
  dsimp only
  rw [setSlot_of_phase rfl]
  rfl

end DisplaySlotController

/-! ## What an attach does -/

/-- The lease is over when the carrier has connected. -/
def LateAt (env : AttachEnv) (grant : ActiveDisplayGrant) : Prop :=
  ¬ (env.connected ≤ (env.after .openAuthenticatedCarrier).now + grant.heartbeatMs / 1000 ∧
    env.connected < grant.leaseExpiresAt)

instance decidableLateAt (env : AttachEnv) (grant : ActiveDisplayGrant) :
    Decidable (LateAt env grant) := instDecidableNot

/-- An attach of this grant gets as far as `carrier_connected`. -/
structure ReachesCarrier (s : RemoteDisplaySlot) (payload : Payload) (env : AttachEnv)
    (grant : ActiveDisplayGrant) : Prop where
  begins : s.beginAttach payload env.now =
    .ok (s.admitted grant env.now, RemoteDisplaySlot.attachActions)
  admits : Admits env grant env.now RemoteDisplaySlot.attachActions

/-- An attach of this grant, once admitted, raises nowhere. -/
def Completes (env : AttachEnv) (grant : ActiveDisplayGrant) : Prop :=
  Admits env grant env.now RemoteDisplaySlot.attachActions ∧
    if LateAt env grant then ∀ kind ∈ teardownKinds, env.performs kind = none
    else grant.allowInput = true → env.performs .primaryEnableInput = none

/-- The trace of an attach as far as it goes up. -/
inductive Opening (generation : ℤ) : SlotPhase → List Event → Prop where
  | enabling (handed : List SlotAction) :
      Opening generation .enabling (Event.moved generation .disabled .enabling :: handed.map .handed)
  | active (handed handed' : List SlotAction) :
      Opening generation .active (Event.moved generation .disabled .enabling :: handed.map .handed ++
        Event.moved generation .enabling .active :: handed'.map .handed)

namespace DisplaySlotController

variable {c : DisplaySlotController} {payload : Payload} {grant : ActiveDisplayGrant}
  {env : AttachEnv}

/-- The grant a controller is left with, and its slot with it. -/
structure Owns (c : DisplaySlotController) (payload : Payload) (grant : ActiveDisplayGrant) :
    Prop where
  owned : c.grant = some payload
  granted : c.slot.grant = some grant
  newest : c.slot.lastGeneration = grant.generation

/-- How an admitted attach ends. -/
inductive AttachOutcome (c : DisplaySlotController) (payload : Payload) (env : AttachEnv)
    (grant : ActiveDisplayGrant) (c' : DisplaySlotController) : Option PyError → Prop where
  | connected {seg : List Event} (hphase : c'.slot.phase = .active)
      (hseg : Opening grant.generation .active seg) (htrace : c'.trace = c.trace ++ seg)
      (htime : ReachesCarrier c.slot payload env grant → ¬ LateAt env grant) :
      AttachOutcome c payload env grant c' none
  | failed {seg : List Event} {p : SlotPhase} {actions : List SlotAction} {e : PyError}
      (hphase : c'.slot.phase = .failedSafe) (hseg : Opening grant.generation p seg)
      (hactions : actions.map SlotAction.kind = teardownKinds)
      (htrace : c'.trace = c.trace ++
        (seg ++ Event.moved grant.generation p .failedSafe :: actions.map .handed))
      (htime : ReachesCarrier c.slot payload env grant → ¬ LateAt env grant) :
      AttachOutcome c payload env grant c' (some e)
  | late {seg : List Event} {actions handed : List SlotAction} {raised : Option PyError}
      (hphase : c'.slot.phase = .failedSafe) (hseg : Opening grant.generation .enabling seg)
      (hactions : actions.map SlotAction.kind = teardownKinds) (hhanded : handed <+: actions)
      (hraised : raised = none ↔ ∀ a ∈ actions, env.performs a.kind = none)
      (hall : handed = actions ↔ ∀ a ∈ actions.dropLast, env.performs a.kind = none)
      (htrace : c'.trace = c.trace ++
        (seg ++ Event.moved grant.generation .enabling .failedSafe :: handed.map .handed))
      (hreach : ReachesCarrier c.slot payload env grant) (hlate : LateAt env grant) :
      AttachOutcome c payload env grant c' raised

theorem attachBody_cases (hg : c.grant = some payload) (hp : c.slot.phase = .disabled)
    (hbegin : c.slot.beginAttach payload env.now =
      .ok (c.slot.admitted grant env.now, RemoteDisplaySlot.attachActions)) :
    let out := c.attachBody payload env
    out.1.Owns payload grant ∧ (out.2 = none ↔ Completes env grant) ∧
      ((∃ seg, Opening grant.generation out.1.slot.phase seg ∧ out.1.trace = c.trace ++ seg ∧
          out.1.slot.phase.live = true ∧ (out.2 = none → out.1.slot.phase = .active) ∧
          (ReachesCarrier c.slot payload env grant → ¬ LateAt env grant)) ∨
        AttachOutcome c payload env grant out.1 out.2) := by
  -- the slot is admitted; the loop of `attach` starts from `c₁`
  have hne : (c.slot.admitted grant env.now).phase ≠ c.slot.phase := by
    rw [hp]
    exact fun h => by cases h
  have h₁ : (c.setSlot (c.slot.admitted grant env.now)).Holds payload grant := ⟨hg, rfl, rfl⟩
  have ht₁ : (c.setSlot (c.slot.admitted grant env.now)).trace =
      c.trace ++ [Event.moved grant.generation .disabled .enabling] := by
    rw [setSlot_of_ne hne, hp]
    rfl
  obtain ⟨now, handed, hout, hiff, hnow⟩ :=
    attachActions_spec h₁ env RemoteDisplaySlot.attachActions
  intro out
  have hdef : out = c.attachBody payload env := rfl
  rw [attachBody, hbegin] at hdef
  dsimp only at hdef
  cases hr : (c.setSlot (c.slot.admitted grant env.now)).attachActions env
      RemoteDisplaySlot.attachActions with
  | mk c₂ raised =>
    rw [hr] at hout hiff hnow hdef
    dsimp only at hout hiff hnow hdef
    have h₂ : c₂.Holds payload grant := by
      rw [hout]
      exact (h₁.hand _).beat _
    have hphase : c₂.slot.phase = .enabling := by
      rw [hout]
      rfl
    have hnewest : c₂.slot.lastGeneration = grant.generation := by
      rw [hout]
      rfl
    have ht₂ : c₂.trace = c.trace ++
        Event.moved grant.generation .disabled .enabling :: handed.map .handed := by
      rw [hout, beat_trace, hand_trace, ht₁, List.append_assoc, List.singleton_append]
    cases raised with
    | some e =>
      dsimp only at hdef
      rw [hdef]
      refine ⟨⟨h₂.owned, h₂.granted, hnewest⟩, ?_, Or.inl ⟨_, ?_, ht₂, h₂.live,
        fun hnone => (by cases hnone), fun hreach => ?_⟩⟩
      · refine iff_of_false (fun hnone => by cases hnone) fun hcompletes => ?_
        exact absurd (hiff.mpr hcompletes.1) (fun hnone => by cases hnone)
      · show Opening grant.generation c₂.slot.phase _
        rw [hphase]
        exact .enabling handed
      · exact absurd (hiff.mpr hreach.admits) (fun hnone => by cases hnone)
    | none =>
      dsimp only at hdef
      -- the carrier has connected: the lease decides
      have hbeat : c₂.slot.lastHeartbeat = (env.after .openAuthenticatedCarrier).now := by
        rw [hout, hnow rfl]
        rfl
      have hlease : c₂.slot.leaseValid grant env.connected = true ↔ ¬ LateAt env grant := by
        rw [leaseValid, decide_eq_true_iff, LateAt, not_not, hbeat]
      rw [carrierConnected_eq h₂.granted hphase] at hdef
      by_cases hvalid : c₂.slot.leaseValid grant env.connected = true
      · rw [if_pos hvalid] at hdef
        dsimp only at hdef
        have hg₃ : (c₂.setSlot { c₂.slot with phase := .active }).grant = some payload := h₂.owned
        obtain ⟨handed', -, hhand, hnone, -⟩ := performAll_spec hg₃ env.performs
          (if grant.allowInput then [⟨.primaryEnableInput, []⟩] else [])
        rw [← hdef] at hhand hnone
        have ht₃ : out.1.trace = c.trace ++
            (Event.moved grant.generation .disabled .enabling :: handed.map .handed ++
              Event.moved grant.generation .enabling .active :: handed'.map .handed) := by
          rw [hhand, hand_trace, setSlot_of_ne (by rw [hphase]; exact fun h => by cases h), ht₂,
            generation, h₂.granted, hphase]
          simp
        have hactive : out.1.slot.phase = .active := by
          rw [hhand]
          rfl
        refine ⟨by rw [hhand]; exact ⟨h₂.owned, h₂.granted, hnewest⟩, ?_,
          Or.inl ⟨_, ?_, ht₃, by rw [hactive]; rfl, fun _ => hactive, fun _ => hlease.mp hvalid⟩⟩
        · rw [hnone, Completes, if_neg (hlease.mp hvalid)]
          refine ⟨fun hall => ⟨hiff.mp rfl, fun hinput => ?_⟩, fun hall => ?_⟩
          · exact hall ⟨.primaryEnableInput, []⟩ (by simp [hinput])
          · cases hinput : grant.allowInput with
            | false => simp
            | true => simpa using hall.2 hinput
        · rw [hactive]
          exact .active handed handed'
      · rw [if_neg hvalid] at hdef
        dsimp only at hdef
        have hg₃ : (c₂.setSlot (c₂.slot.failed "display lease expired during attach")).grant =
            some payload := h₂.owned
        obtain ⟨handed', hpre, hhand, hnone, hall⟩ :=
          performAll_spec hg₃ env.performs c₂.slot.teardownActions
        rw [← hdef] at hhand hnone
        have hlate : LateAt env grant := not_not.mp fun h => hvalid (hlease.mpr h)
        have hcompletes : out.2 = none ↔ Completes env grant := by
          rw [hnone, Completes, if_pos hlate,
            ← kinds_teardownActions (s := c₂.slot), List.forall_mem_map]
          exact ⟨fun hall => ⟨hiff.mp rfl, hall⟩, fun hall => hall.2⟩
        refine ⟨by rw [hhand]; exact ⟨h₂.owned, h₂.granted, hnewest⟩, hcompletes, Or.inr ?_⟩
        refine .late (by rw [hhand]; rfl) (.enabling handed)
          kinds_teardownActions hpre hnone hall ?_ ⟨hbegin, hiff.mp rfl⟩
          hlate
        rw [hhand, hand_trace, setSlot_of_ne (h₂.ne_of_dead rfl), ht₂,
          generation, hphase]
        simp [failed, h₂.granted]

theorem attach_of_none (hg : c.grant = none) (payload : Payload) (env : AttachEnv) :
    c.attach payload env =
      attachExcept env.performs ({ c with grant := some payload }.attachBody payload env) := by
  simp only [attach, hg]

variable {c' : DisplaySlotController}

theorem attachExcept_of_live {seg : List Event} (howns : c'.Owns payload grant)
    (hlive : c'.slot.phase.live = true) (hseg : Opening grant.generation c'.slot.phase seg)
    (htrace : c'.trace = c.trace ++ seg)
    (htime : ReachesCarrier c.slot payload env grant → ¬ LateAt env grant) (e : PyError) :
    (attachExcept env.performs (c', some e)).1.Owns payload grant ∧
      AttachOutcome c payload env grant (attachExcept env.performs (c', some e)).1
        (attachExcept env.performs (c', some e)).2 := by
  have hholds : c'.Holds payload grant := ⟨howns.owned, howns.granted, hlive⟩
  rw [attachExcept, hholds.failSafe]
  dsimp only
  rw [if_neg (fun h => by cases h)]
  refine ⟨⟨howns.owned, howns.granted, howns.newest⟩, ?_⟩
  have hkinds := kinds_teardownActions (s := c'.slot)
  refine .failed rfl hseg hkinds ?_ htime
  simp [tornDown, htrace, generation, failed, howns.granted]

theorem attachExcept_of_failedSafe (hfailed : c'.slot.phase = .failedSafe) (performs : Performs)
    (e : PyError) :
    ∃ e', attachExcept performs (c', some e) = (c', some e') := by
  rw [attachExcept, failSafe_of_settled (Or.inr hfailed)]
  dsimp only
  rw [if_neg (by rw [hfailed]; exact fun h => by cases h)]
  exact ⟨_, rfl⟩

theorem attach_refused (hg : c.grant = none) (hp : c.slot.phase = .disabled) {e : PyError}
    (hbegin : c.slot.beginAttach payload env.now = .error e) :
    ∃ e', c.attach payload env = (c, some e') := by
  have hbody : { c with grant := some payload }.attachBody payload env =
      ({ c with grant := some payload }, some e) := by
    simp only [attachBody, hbegin]
  have hphase : { c with grant := some payload }.slot.phase = .disabled := hp
  have hsettled := failSafe_of_settled (Or.inl hphase) env.performs ("attach failed at " ++ e.name)
  rw [attach_of_none hg, hbody, attachExcept, hsettled]
  dsimp only
  rw [if_pos hp]
  refine ⟨_, congrArg (·, some _) ?_⟩
  cases c
  cases hg
  rfl

/-- **Every attach** of a controller without a grant is refused and changes nothing, or is
admitted and ends in one of three ways. -/
theorem attach_cases (hg : c.grant = none) (hp : c.slot.phase = .disabled) (payload : Payload)
    (env : AttachEnv) :
    (∃ e e', c.attach payload env = (c, some e) ∧ c.slot.beginAttach payload env.now = .error e') ∨
    ∃ grant, c.slot.beginAttach payload env.now =
        .ok (c.slot.admitted grant env.now, RemoteDisplaySlot.attachActions) ∧
      (c.attach payload env).1.Owns payload grant ∧
      ((c.attach payload env).2 = none ↔ Completes env grant) ∧
      AttachOutcome c payload env grant (c.attach payload env).1 (c.attach payload env).2 := by
  cases hbegin : c.slot.beginAttach payload env.now with
  | error e =>
    left
    obtain ⟨e', heq⟩ := attach_refused hg hp hbegin
    exact ⟨e', e, heq, rfl⟩
  | ok out =>
    right
    obtain ⟨grant, -, -, -, rfl⟩ := beginAttach_ok hbegin
    refine ⟨grant, rfl, ?_⟩
    have hgrant₀ : { c with grant := some payload }.grant = some payload := rfl
    obtain ⟨howns, hcompletes, hend⟩ := attachBody_cases hgrant₀ hp hbegin
    rw [attach_of_none hg]
    cases hb : { c with grant := some payload }.attachBody payload env with
    | mk c' raised =>
      rw [hb] at howns hcompletes hend
      dsimp only at howns hcompletes hend
      cases raised with
      | none =>
        refine ⟨howns, hcompletes, ?_⟩
        rcases hend with ⟨seg, hseg, htrace, -, hactive, htime⟩ | hend
        · rw [hactive rfl] at hseg
          exact .connected (hactive rfl) hseg htrace htime
        · cases hend with
          | connected hphase hseg htrace htime => exact .connected hphase hseg htrace htime
          | late hphase hseg hactions hhanded hraised hall htrace hreach hlate =>
            exact .late hphase hseg hactions hhanded hraised hall htrace hreach hlate
      | some e =>
        rcases hend with ⟨seg, hseg, htrace, hlive, -, htime⟩ | hend
        · obtain ⟨howns', hout⟩ := attachExcept_of_live howns hlive hseg htrace htime e
          exact ⟨howns', by simpa [attachExcept] using hcompletes, hout⟩
        · have hfailed : c'.slot.phase = .failedSafe := by
            cases hend with
            | failed hphase => exact hphase
            | late hphase => exact hphase
          obtain ⟨e', heq⟩ := attachExcept_of_failedSafe hfailed env.performs e
          rw [heq]
          refine ⟨howns, by simpa using hcompletes, ?_⟩
          cases hend with
          | failed hphase hseg hactions htrace htime =>
            exact .failed hphase hseg hactions htrace htime
          | late hphase hseg hactions hhanded hraised hall htrace hreach hlate =>
            refine .late hphase hseg hactions hhanded ?_ hall htrace hreach hlate
            simpa using hraised

/-! ## What the other operations do -/

/-- What holds of grants and phases between two operations. -/
structure Consistent (c : DisplaySlotController) : Prop where
  owned : c.grant = none ↔ c.slot.phase = .disabled
  granted : c.slot.grant = none ↔ c.slot.phase = .disabled
  newest : ∀ grant, c.slot.grant = some grant → c.slot.lastGeneration = grant.generation
  settled : c.slot.phase ≠ .draining

theorem Consistent.generation (h : c.Consistent) :
    c.slot.generation = c.slot.lastGeneration := by
  rw [RemoteDisplaySlot.generation]
  cases hg : c.slot.grant with
  | none => rfl
  | some grant => exact (h.newest grant hg).symm

theorem Consistent.holds (h : c.Consistent) (hlive : c.slot.phase.live = true) :
    ∃ payload grant, c.Holds payload grant := by
  have hne : c.slot.phase ≠ .disabled := by
    intro heq
    rw [heq] at hlive
    cases hlive
  obtain ⟨payload, hpayload⟩ := Option.ne_none_iff_exists'.mp (mt h.owned.mp hne)
  obtain ⟨grant, hgrant⟩ := Option.ne_none_iff_exists'.mp (mt h.granted.mp hne)
  exact ⟨payload, grant, hpayload, hgrant, hlive⟩

theorem Consistent.settled_of_not_live (h : c.Consistent) (hlive : c.slot.phase.live = false) :
    c.slot.phase = .disabled ∨ c.slot.phase = .failedSafe := by
  have hdraining := h.settled
  cases hp : c.slot.phase with
  | disabled => exact Or.inl rfl
  | failedSafe => exact Or.inr rfl
  | draining => exact absurd hp hdraining
  | enabling => rw [hp] at hlive; cases hlive
  | active => rw [hp] at hlive; cases hlive

/-- What an operation on a held slot can do: keep its phase and grant, or tear a live slot
down. -/
inductive Keeps (c c' : DisplaySlotController) : Prop where
  | stays (hphase : c'.slot.phase = c.slot.phase) (hgrant : c'.slot.grant = c.slot.grant)
      (hlast : c'.slot.lastGeneration = c.slot.lastGeneration) (howned : c'.grant = c.grant)
      (htrace : c'.trace = c.trace) : Keeps c c'
  | fails {actions : List SlotAction} (hlive : c.slot.phase.live = true)
      (hphase : c'.slot.phase = .failedSafe) (hgrant : c'.slot.grant = c.slot.grant)
      (hlast : c'.slot.lastGeneration = c.slot.lastGeneration) (howned : c'.grant = c.grant)
      (hactions : actions.map SlotAction.kind = teardownKinds)
      (htrace : c'.trace = c.trace ++
        Event.moved c.slot.generation c.slot.phase .failedSafe :: actions.map .handed) :
      Keeps c c'

theorem Keeps.refl (c : DisplaySlotController) : Keeps c c := .stays rfl rfl rfl rfl rfl

theorem keeps_setSlot {slot : RemoteDisplaySlot} (hphase : slot.phase = c.slot.phase)
    (hgrant : slot.grant = c.slot.grant) (hlast : slot.lastGeneration = c.slot.lastGeneration) :
    Keeps c (c.setSlot slot) := by
  rw [setSlot_of_phase hphase]
  exact .stays hphase hgrant hlast rfl rfl

theorem Keeps.trans {c'' : DisplaySlotController} (h : Keeps c c') (h' : Keeps c' c'') :
    Keeps c c'' := by
  cases h with
  | stays hphase hgrant hlast howned htrace =>
    cases h' with
    | stays hphase' hgrant' hlast' howned' htrace' =>
      exact .stays (hphase'.trans hphase) (hgrant'.trans hgrant) (hlast'.trans hlast)
        (howned'.trans howned) (htrace'.trans htrace)
    | fails hlive hphase' hgrant' hlast' howned' hactions htrace' =>
      have hgeneration : c'.slot.generation = c.slot.generation := by
        simp only [generation, hgrant, hlast]
      rw [hphase] at hlive htrace'
      rw [htrace, hgeneration] at htrace'
      exact .fails hlive hphase' (hgrant'.trans hgrant) (hlast'.trans hlast)
        (howned'.trans howned) hactions htrace'
  | fails hlive hphase hgrant hlast howned hactions htrace =>
    cases h' with
    | stays hphase' hgrant' hlast' howned' htrace' =>
      exact .fails hlive (hphase'.trans hphase) (hgrant'.trans hgrant) (hlast'.trans hlast)
        (howned'.trans howned) hactions (htrace'.trans htrace)
    | fails hlive' =>
      rw [hphase] at hlive'
      cases hlive'

theorem Holds.keeps (h : c.Holds payload grant) (reason : String) :
    Keeps c (c.tornDown (c.slot.failed reason) c.slot.teardownActions) :=
  .fails h.live rfl rfl rfl rfl kinds_teardownActions rfl

theorem Consistent.of_failedSafe (h : c.Consistent) (hlive : c.slot.phase.live = true)
    (hphase : c'.slot.phase = .failedSafe) (hgrant : c'.slot.grant = c.slot.grant)
    (hlast : c'.slot.lastGeneration = c.slot.lastGeneration) (howned : c'.grant = c.grant) :
    c'.Consistent := by
  obtain ⟨payload, grant, hh⟩ := h.holds hlive
  have hdead : c'.slot.phase ≠ .disabled := by rw [hphase]; exact fun h => by cases h
  refine ⟨?_, ?_, ?_, ?_⟩
  · rw [howned, hh.owned]
    exact iff_of_false (fun h => by cases h) hdead
  · rw [hgrant, hh.granted]
    exact iff_of_false (fun h => by cases h) hdead
  · rw [hgrant, hlast]
    exact h.newest
  · rw [hphase]
    exact fun h => by cases h

theorem Consistent.of_keeps (h : c.Consistent) (hk : Keeps c c') :
    c'.Consistent := by
  cases hk with
  | stays hphase hgrant hlast howned htrace =>
    refine ⟨?_, ?_, ?_, ?_⟩
    · rw [howned, hphase]
      exact h.owned
    · rw [hgrant, hphase]
      exact h.granted
    · rw [hgrant, hlast]
      exact h.newest
    · rw [hphase]
      exact h.settled
  | fails hlive hphase hgrant hlast howned hactions htrace =>
    exact h.of_failedSafe hlive hphase hgrant hlast howned

theorem Consistent.keeps_failSafe (h : c.Consistent) (performs : Performs) (reason : String) :
    Keeps c (c.failSafe performs reason).1 := by
  cases hlive : c.slot.phase.live with
  | true =>
    obtain ⟨payload, grant, hh⟩ := h.holds hlive
    rw [hh.failSafe]
    exact hh.keeps reason
  | false =>
    rw [failSafe_of_settled (h.settled_of_not_live hlive)]
    exact .refl c

theorem heartbeat_slot {s slot : RemoteDisplaySlot} {generation : ℤ} {now check : ℚ}
    {accepted : Bool} (h : s.heartbeat generation now check = .ok (slot, accepted)) :
    slot.phase = s.phase ∧ slot.grant = s.grant ∧ slot.lastGeneration = s.lastGeneration := by
  unfold RemoteDisplaySlot.heartbeat at h
  cases hcheck : s.checkGeneration generation with
  | error e => rw [hcheck] at h; cases h
  | ok grant =>
    rw [hcheck] at h
    simp only [bind, Except.bind, pure, Except.pure] at h
    split at h <;> cases h <;> exact ⟨rfl, rfl, rfl⟩

theorem Consistent.keeps_heartbeat (h : c.Consistent) (generation : ℤ) (renewal : Renewal)
    (performs : Performs) : Keeps c (c.heartbeat generation renewal performs).1 := by
  unfold heartbeat
  split
  · exact .refl c
  · next slot heq =>
    obtain ⟨hphase, hgrant, hlast⟩ := heartbeat_slot heq
    have hset : Keeps c (c.setSlot slot) := keeps_setSlot hphase hgrant hlast
    dsimp only
    split
    · exact hset
    · split
      · exact hset
      · exact hset.trans ((h.of_keeps hset).keeps_failSafe performs _)
  · next slot heq =>
    obtain ⟨hphase, hgrant, hlast⟩ := heartbeat_slot heq
    have hset : Keeps c (c.setSlot slot) := keeps_setSlot hphase hgrant hlast
    have hfail := (h.of_keeps hset).keeps_failSafe performs "display heartbeat rejected"
    dsimp only
    split <;> exact hset.trans hfail

theorem keeps_recordInput (generation : ℤ) (kind : String) (code : Json) (pressed : Bool)
    (now : ℚ) : Keeps c (c.recordInput generation kind code pressed now).1 := by
  unfold recordInput
  split
  · exact .refl c
  · next slot heq =>
    unfold inputEvent at heq
    cases hcheck : c.slot.checkGeneration generation with
    | error e => rw [hcheck] at heq; cases heq
    | ok grant =>
      rw [hcheck] at heq
      simp only [bind, Except.bind, pure, Except.pure, throw, throwThe, MonadExceptOf.throw] at heq
      split at heq
      case isFalse => cases heq
      split at heq
      case isFalse => cases heq
      split at heq
      case h_2 => cases heq
      split at heq
      case isTrue => cases heq
      -- a press or a release changes the held inputs only
      split at heq <;> cases heq <;> exact keeps_setSlot rfl rfl rfl

theorem Consistent.keeps_carrierLost (h : c.Consistent) (generation : ℤ) (reason : String)
    (performs : Performs) : Keeps c (c.carrierLost generation reason performs).1 := by
  have hfail := h.keeps_failSafe performs reason
  unfold carrierLost
  split
  · exact .refl c
  · split
    · exact .refl c
    · dsimp only
      split <;> exact hfail

theorem Consistent.keeps_tick (h : c.Consistent) (now : ℚ) (performs : Performs) :
    Keeps c (c.tick now performs).1 := by
  have hsame : Keeps c (c.setSlot c.slot) := keeps_setSlot rfl rfl rfl
  unfold tick RemoteDisplaySlot.tick
  cases hlive : c.slot.phase.live with
  | false => exact hsame
  | true =>
    by_cases hlease : c.slot.grant.any (c.slot.leaseValid · now) = true
    · simp only [hlease, if_true]
      exact hsame
    · obtain ⟨payload, grant, hh⟩ := h.holds hlive
      have hdone := performTeardown_setSlot hh.owned
        (hh.ne_of_dead (p := (c.slot.failed "display lease heartbeat timeout").phase) rfl) performs
        c.slot.teardownActions
      rw [if_neg (by simp), if_neg hlease, failSafe_of_live hlive]
      dsimp only
      rw [if_neg (by simp [teardownActions]), hdone]
      dsimp only
      split <;> exact hh.keeps _

/-- How a detach ends. -/
inductive DetachOutcome (c c' : DisplaySlotController) : Option PyError → Prop where
  | refused {e : PyError} (heq : c' = c) : DetachOutcome c c' (some e)
  | done {actions : List SlotAction} (hlive : c.slot.phase.live = true)
      (hphase : c'.slot.phase = .disabled) (hgrant : c'.slot.grant = none)
      (hlast : c'.slot.lastGeneration = c.slot.lastGeneration) (howned : c'.grant = none)
      (hactions : actions.map SlotAction.kind = teardownKinds)
      (htrace : c'.trace = c.trace ++ Event.moved c.slot.lastGeneration c.slot.phase .draining ::
        (actions.map .handed ++ [Event.moved c.slot.lastGeneration .draining .disabled])) :
      DetachOutcome c c' none
  | failed {actions : List SlotAction} {e : PyError} (hlive : c.slot.phase.live = true)
      (hphase : c'.slot.phase = .failedSafe) (hgrant : c'.slot.grant = c.slot.grant)
      (hlast : c'.slot.lastGeneration = c.slot.lastGeneration) (howned : c'.grant = c.grant)
      (hactions : actions.map SlotAction.kind = teardownKinds)
      (htrace : c'.trace = c.trace ++ Event.moved c.slot.lastGeneration c.slot.phase .draining ::
        (actions.map .handed ++ [Event.moved c.slot.lastGeneration .draining .failedSafe])) :
      DetachOutcome c c' (some e)

theorem Consistent.detach_cases (h : c.Consistent) (generation : ℤ) (performs : Performs) :
    DetachOutcome c (c.detach generation performs).1 (c.detach generation performs).2 := by
  unfold detach
  cases hbegin : c.slot.beginDetach generation with
  | error e => exact .refused rfl
  | ok out =>
    unfold RemoteDisplaySlot.beginDetach at hbegin
    cases hcheck : c.slot.checkGeneration generation with
    | error e => rw [hcheck] at hbegin; cases hbegin
    | ok grant =>
      rw [hcheck] at hbegin
      simp only [discard, Functor.mapConst, Except.map, Function.comp, bind,
        Except.bind, pure, Except.pure, throw, throwThe, MonadExceptOf.throw] at hbegin
      split at hbegin
      case isFalse => cases hbegin
      next hlive =>
      injection hbegin with hbegin
      subst hbegin
      obtain ⟨payload, grant', hh⟩ := h.holds hlive
      -- the slot drains; what follows depends on the executor alone
      set drained : RemoteDisplaySlot := { c.slot with phase := .draining, held := [] }
        with hdrained
      have hdone : (c.setSlot drained).performTeardown performs c.slot.teardownActions =
          (c.tornDown drained c.slot.teardownActions, failuresOf performs c.slot.teardownActions) :=
        performTeardown_setSlot hh.owned (hh.ne_of_dead rfl) performs _
      have hcomplete : drained.completeDetach generation =
          .ok { drained with grant := none, phase := .disabled } := by
        have hcheck' : drained.checkGeneration generation = .ok grant := hcheck
        rw [RemoteDisplaySlot.completeDetach, hcheck']
        rfl
      have hgen : drained.generation = c.slot.lastGeneration := by
        have hgrant : drained.grant = some grant' := hh.granted
        simp only [RemoteDisplaySlot.generation, hgrant, h.newest _ hh.granted]
      dsimp only
      rw [hdone]
      dsimp only
      split
      · rw [show (c.tornDown drained c.slot.teardownActions).slot = drained from rfl, hcomplete]
        refine .done hlive rfl rfl rfl rfl
          (RemoteDisplaySlot.kinds_teardownActions (s := c.slot)) ?_
        dsimp only
        rw [setSlot_of_ne (fun h => by cases h)]
        simp only [tornDown, hgen]
        simp [hdrained, RemoteDisplaySlot.generation]
      · refine .failed hlive rfl rfl rfl rfl
          (RemoteDisplaySlot.kinds_teardownActions (s := c.slot)) ?_
        have hfail : (drained.failSafe "detach operation failed").1 =
            drained.failed "detach operation failed" := rfl
        have hgen' : (drained.failed "detach operation failed").generation =
            c.slot.lastGeneration := hgen
        dsimp only
        rw [show (c.tornDown drained c.slot.teardownActions).slot = drained from rfl, hfail,
          setSlot_of_ne (fun h => by cases h)]
        simp only [tornDown, hgen, hgen']
        simp [hdrained, RemoteDisplaySlot.failed]

theorem Consistent.of_detached {raised : Option PyError} (h : c.Consistent)
    (hout : DetachOutcome c c' raised) : c'.Consistent := by
  cases hout with
  | refused heq => exact heq ▸ h
  | done hlive hphase hgrant hlast howned hactions htrace =>
    refine ⟨iff_of_true howned hphase, iff_of_true hgrant hphase, ?_, ?_⟩
    · rw [hgrant]
      exact fun _ h => by cases h
    · rw [hphase]
      exact fun h => by cases h
  | failed hlive hphase hgrant hlast howned hactions htrace =>
    exact h.of_failedSafe hlive hphase hgrant hlast howned

/-- **Every reset** is refused and changes nothing, or gives up the grant of a failed slot. -/
theorem reset_cases (confirmed : Except PyError Bool) :
    (∃ e, c.resetFailedSafe confirmed = (c, some e)) ∨
      c.slot.phase = .failedSafe ∧ c.resetFailedSafe confirmed =
        ({ slot := { c.slot with grant := none, phase := .disabled }
           trace := c.trace ++ [.moved c.slot.lastGeneration .failedSafe .disabled] }, none) := by
  unfold resetFailedSafe
  split
  · exact Or.inl ⟨_, rfl⟩
  · next hphase =>
    have hphase := not_not.mp hphase
    split
    · exact Or.inl ⟨_, rfl⟩
    · exact Or.inl ⟨_, rfl⟩
    · right
      refine ⟨hphase, ?_⟩
      rw [RemoteDisplaySlot.resetFailedSafe, if_pos hphase]
      dsimp only
      rw [setSlot_of_ne (by rw [hphase]; exact fun h => by cases h), hphase]
      rfl

theorem Consistent.reset (h : c.Consistent) (confirmed : Except PyError Bool) :
    (c.resetFailedSafe confirmed).1.Consistent := by
  rcases reset_cases (c := c) confirmed with ⟨e, heq⟩ | ⟨hphase, heq⟩
  · rw [heq]
    exact h
  · rw [heq]
    exact ⟨by simp, by simp, fun _ h => (by cases h), fun h => (by cases h)⟩

theorem Consistent.of_outcome {env : AttachEnv} {raised : Option PyError}
    (howns : c'.Owns payload grant) (hout : AttachOutcome c payload env grant c' raised) :
    c'.Consistent := by
  have hphase : c'.slot.phase = .active ∨ c'.slot.phase = .failedSafe := by
    cases hout with
    | connected hphase => exact Or.inl hphase
    | failed hphase => exact Or.inr hphase
    | late hphase => exact Or.inr hphase
  have hdead : c'.slot.phase ≠ .disabled := by
    rcases hphase with hphase | hphase <;> rw [hphase] <;> exact fun h => by cases h
  refine ⟨?_, ?_, ?_, ?_⟩
  · rw [howns.owned]
    exact iff_of_false (fun h => by cases h) hdead
  · rw [howns.granted]
    exact iff_of_false (fun h => by cases h) hdead
  · rw [howns.granted, howns.newest]
    exact fun grant' heq => congrArg _ (Option.some.inj heq)
  · rcases hphase with hphase | hphase <;> rw [hphase] <;> exact fun h => by cases h

end DisplaySlotController

end DisplayDock
