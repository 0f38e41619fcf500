/-
# Durable status of the display dock

Every status record that the service saves should be one it can start from: `load` accepts it,
and outside `disabled` its recovery grant is the grant that the owner holds.

The invariant `Recorded` ties the three copies of a grant together: the controller's payload,
the session's parsed grant and the core's recovery grant.  Every command keeps it except two
kinds of attach.  One arrives while another grant is held: it is refused, but the core has
already replaced its recovery grant.  The other is admitted and then fails: the slot is left
failed safe under the new grant, but the session never learns its session id.
`KeepsRecovery` excludes these two on the inputs of the command.
-/
import QDistro.DockService

namespace DisplayDock

open JsonText TransitionSystem DisplayDockServiceCore DisplayDockSession

/-! ## The recovery grant -/

theorem lookup_recoveryItems {verified recovery : Payload} {names : List String}
    (h : names.mapM (recoveryItem verified) = .ok recovery) :
    ∀ name ∈ names, recovery.lookup name = verified.lookup name := by
  induction names generalizing recovery with
  | nil => exact fun _ hmem => absurd hmem List.not_mem_nil
  | cons first rest ih =>
    rw [List.mapM_cons] at h
    cases hitem : recoveryItem verified first with
    | error e => rw [hitem] at h; cases h
    | ok item =>
      rw [hitem] at h
      cases hrest : rest.mapM (recoveryItem verified) with
      | error e => rw [hrest] at h; cases h
      | ok items =>
        rw [hrest] at h
        cases h
        unfold recoveryItem at hitem
        split at hitem
        case h_2 => cases hitem
        next value hvalue =>
        cases hitem
        intro name hmem
        rw [List.lookup_cons]
        by_cases hname : name = first
        · subst hname
          simp [hvalue]
        · rw [beq_false_of_ne hname]
          exact ih hrest name ((List.mem_cons.mp hmem).resolve_left hname)

theorem fromVerifiedPayload_congr {p q : Payload}
    (h : ∀ name ∈ grantFields, p.lookup name = q.lookup name) :
    ActiveDisplayGrant.fromVerifiedPayload p = ActiveDisplayGrant.fromVerifiedPayload q := by
  have hall : (grantFields.all fun name => (p.lookup name).isSome) =
      grantFields.all fun name => (q.lookup name).isSome := by
    rw [Bool.eq_iff_iff, List.all_eq_true, List.all_eq_true]
    exact forall₂_congr fun name hmem => by rw [h name hmem]
  have hitem : ∀ name ∈ grantFields, itemOf p name = itemOf q name := by
    intro name hmem
    rw [itemOf, itemOf, h name hmem]
  unfold ActiveDisplayGrant.fromVerifiedPayload
  rw [hall]
  simp only [hitem "primary_machine" (by decide), hitem "peer_machine" (by decide),
    hitem "trust_domain_id" (by decide), hitem "session_id" (by decide),
    hitem "slot_name" (by decide), hitem "generation" (by decide), hitem "width" (by decide),
    hitem "height" (by decide), hitem "scale" (by decide), hitem "lease_expires_at" (by decide),
    hitem "heartbeat_ms" (by decide), hitem "logical_x" (by decide), hitem "logical_y" (by decide),
    hitem "allow_input" (by decide)]

theorem fromVerifiedPayload_recovery {verified recovery : Payload}
    (h : recoveryGrantOf verified = .ok recovery) :
    ActiveDisplayGrant.fromVerifiedPayload recovery =
      ActiveDisplayGrant.fromVerifiedPayload verified :=
  fromVerifiedPayload_congr (lookup_recoveryItems h)

/-! ## What the session does to its controller -/

namespace DisplayDockSession

variable {s : DisplayDockSession}

/-- What a poll can do: the controller keeps its slot or tears it down, the session keeps its
grant, and a poll that reports no change has not failed the slot. -/
structure Polls (s : DisplayDockSession) (out : DisplayDockSession × Except PyError Bool) :
    Prop where
  keeps : DisplaySlotController.Keeps s.controller out.1.controller
  grant : out.1.grant = s.grant
  quiet : out.2 = .ok false → out.1.phase = .failedSafe → s.phase = .failedSafe

theorem polls_heartbeat (h : s.controller.Consistent) (generation : ℤ) (env : PollEnv) :
    DisplaySlotController.Keeps s.controller (s.heartbeat generation env).1.controller ∧
      (s.heartbeat generation env).1.grant = s.grant := by
  have hkeeps := h.keeps_heartbeat generation env.renewal env.performs
  unfold heartbeat
  split
  · next controller heq =>
    rw [heq] at hkeeps
    exact ⟨hkeeps, rfl⟩
  · next controller accepted _ heq =>
    rw [heq] at hkeeps
    exact ⟨hkeeps, rfl⟩

theorem polls_pollLease (h : s.controller.Consistent) (generation : ℤ) (env : PollEnv) :
    Polls s (s.pollLease generation env) := by
  have hkeeps := h.keeps_tick env.tickedAt env.performs
  unfold pollLease
  split
  · next controller e heq =>
    rw [heq] at hkeeps
    exact ⟨hkeeps, rfl, fun h => by cases h⟩
  · next controller heq =>
    rw [heq] at hkeeps
    exact ⟨hkeeps, rfl, fun h => by cases h⟩
  · next controller heq =>
    rw [heq] at hkeeps
    dsimp only
    split
    · have hs : { s with controller }.controller.Consistent := h.of_keeps hkeeps
      obtain ⟨hbeat, hgrant⟩ := polls_heartbeat hs generation env
      split
      · next s' e heq' =>
        rw [heq'] at hbeat hgrant
        exact ⟨hkeeps.trans hbeat, hgrant, fun h => by cases h⟩
      · next s' accepted heq' =>
        rw [heq'] at hbeat hgrant
        refine ⟨hkeeps.trans hbeat, hgrant, fun hok hfailed => ?_⟩
        simp [hfailed] at hok
    · refine ⟨hkeeps, rfl, fun hok hfailed => ?_⟩
      simp [hfailed] at hok

theorem polls_poll (h : s.controller.Consistent) (env : PollEnv) : Polls s (s.poll env) := by
  have hlost := h.keeps_carrierLost s.controller.slot.generation
    "authenticated carrier process lost" env.performs
  unfold poll
  split
  · exact ⟨.refl _, rfl, fun _ hfailed => hfailed⟩
  · dsimp only
    split
    · split
      · exact ⟨.refl _, rfl, fun h => by cases h⟩
      · split
        · next controller e heq =>
          rw [heq] at hlost
          exact ⟨hlost, rfl, fun h => by cases h⟩
        · next controller heq =>
          rw [heq] at hlost
          exact ⟨hlost, rfl, fun h => by cases h⟩
      · have hs : { s with nextCarrierProbe := some (env.now + 1 / 4) }.controller.Consistent := h
        obtain ⟨hkeeps, hgrant, hquiet⟩ := polls_pollLease hs s.controller.slot.generation env
        exact ⟨hkeeps, hgrant, hquiet⟩
    · exact polls_pollLease h s.controller.slot.generation env

theorem restore_spec (generation : ℤ) :
    (∃ e, s.restoreLastGeneration generation = (s, some e)) ∨
      s.controller.slot.grant = none ∧ s.restoreLastGeneration generation =
        ({ s with controller := { s.controller with slot := { s.controller.slot with
            lastGeneration := max s.controller.slot.lastGeneration generation } } }, none) := by
  unfold restoreLastGeneration RemoteDisplaySlot.restoreLastGeneration
  split
  · exact Or.inl ⟨_, rfl⟩
  · next slot heq =>
    split at heq
    case isTrue => cases heq
    next hnot =>
    cases heq
    refine Or.inr ⟨?_, rfl⟩
    have hgrant : ¬ s.controller.slot.grant.isSome = true := fun h => hnot (Or.inr (Or.inl h))
    simpa using hgrant

/-- A detach of the session is a detach of its controller, and drops the grant when it goes
through. -/
theorem detach_spec (h : s.controller.Consistent) (generation : ℤ) (performs : Performs) :
    DisplaySlotController.DetachOutcome s.controller (s.detach generation performs).1.controller
        (s.detach generation performs).2 ∧
      (s.detach generation performs).1.grant =
        if (s.detach generation performs).2 = none then none else s.grant := by
  have hcases := h.detach_cases generation performs
  unfold detach
  split
  · next controller e heq =>
    rw [heq] at hcases
    exact ⟨hcases, rfl⟩
  · next controller heq =>
    rw [heq] at hcases
    exact ⟨hcases, rfl⟩

theorem shutdown_spec (h : s.controller.Consistent) (performs : Performs) :
    (s.phase.live = false ∧ (s.shutdown performs).1.controller = s.controller ∧
        (s.shutdown performs).1.grant = s.grant ∧ (s.shutdown performs).2 = none) ∨
      DisplaySlotController.DetachOutcome s.controller (s.shutdown performs).1.controller
          (s.shutdown performs).2 ∧
        (s.shutdown performs).1.grant =
          if (s.shutdown performs).2 = none then none else s.grant := by
  obtain ⟨hdetach, hgrant⟩ := detach_spec h s.controller.slot.generation performs
  unfold shutdown
  cases hlive : s.phase.live with
  | false => exact Or.inl ⟨rfl, rfl, rfl, rfl⟩
  | true =>
    right
    simp only [if_true]
    split
    · next s' e heq =>
      rw [heq] at hdetach hgrant
      exact ⟨hdetach, hgrant⟩
    · next s' heq =>
      rw [heq] at hdetach hgrant
      exact ⟨hdetach, hgrant⟩

/-- **An attach of the session** is refused and changes nothing, or is admitted by the slot; the
session takes the grant over only when the controller returns. -/
theorem attach_spec (h : s.controller.Consistent) (payload : Payload) (env : SessionAttachEnv) :
    (∃ e, s.attach payload env = (s, some e) ∧
      (s.controller.grant = none →
        ∃ e', s.controller.slot.beginAttach payload env.attach.now = .error e')) ∨
    s.controller.grant = none ∧ ∃ grant, s.controller.slot.beginAttach payload env.attach.now =
        .ok (s.controller.slot.admitted grant env.attach.now, RemoteDisplaySlot.attachActions) ∧
      (s.attach payload env).1.controller.Owns payload grant ∧
      ((s.attach payload env).2 = none ↔ Completes env.attach grant) ∧
      ((s.attach payload env).1.grant =
        if (s.attach payload env).2 = none then some grant else s.grant) ∧
      DisplaySlotController.AttachOutcome s.controller payload env.attach grant
        (s.attach payload env).1.controller (s.attach payload env).2 := by
  cases hg : s.controller.grant with
  | some owned =>
    left
    have hattach : s.controller.attach payload env.attach = (s.controller,
        some (controllerError "display controller already owns a grant")) := by
      simp only [DisplaySlotController.attach, hg]
    unfold attach
    split
    · exact ⟨_, rfl, fun h => by cases h⟩
    · split
      · exact ⟨_, rfl, fun h => by cases h⟩
      · rw [hattach]
        exact ⟨_, rfl, fun h => by cases h⟩
  | none =>
    have hcases := DisplaySlotController.attach_cases hg (h.owned.mp hg) payload env.attach
    rcases hcases with ⟨e, e', heq, hrefused⟩ | ⟨grant, hbegin, howns, hiff, hout⟩
    · left
      unfold attach
      split
      · exact ⟨_, rfl, fun _ => ⟨e', hrefused⟩⟩
      · split
        · exact ⟨_, rfl, fun _ => ⟨e', hrefused⟩⟩
        · rw [heq]
          exact ⟨_, rfl, fun _ => ⟨e', hrefused⟩⟩
    · right
      obtain ⟨hparsed, hname, -⟩ := RemoteDisplaySlot.admitted_spec hbegin
      refine ⟨rfl, grant, hbegin, ?_⟩
      cases hr : s.controller.attach payload env.attach with
      | mk controller raised =>
        rw [hr] at howns hiff hout
        cases raised with
        | none =>
          have heq : s.attach payload env =
              ({ controller
                 grant := some grant
                 nextHeartbeat := some (env.renewedAt + grant.heartbeatMs / 2000)
                 nextCarrierProbe := some env.probedAt }, none) := by
            simp only [attach, hparsed, hr, hname, ne_eq, not_true_eq_false, if_false]
          rw [heq]
          exact ⟨howns, hiff, rfl, hout⟩
        | some e =>
          have heq : s.attach payload env = ({ s with controller }, some e) := by
            simp only [attach, hparsed, hr, hname, ne_eq, not_true_eq_false, if_false]
          rw [heq]
          exact ⟨howns, hiff, rfl, hout⟩

end DisplayDockSession

/-! ## The invariant -/

namespace DisplayDockServiceCore

variable {core : DisplayDockServiceCore}

/-- The grant the owner holds, and the copies of it. -/
structure Holds (core : DisplayDockServiceCore) (payload recovery : Payload)
    (grant : ActiveDisplayGrant) : Prop where
  owned : core.owner.controller.grant = some payload
  granted : core.owner.controller.slot.grant = some grant
  parsed : ActiveDisplayGrant.fromVerifiedPayload payload = .ok grant
  copied : recoveryGrantOf payload = .ok recovery
  kept : core.recoveryGrant = some recovery

/-- What holds between two operations of the core. -/
structure Recorded (core : DisplayDockServiceCore) : Prop where
  consistent : core.owner.controller.Consistent
  nonneg : 0 ≤ core.owner.controller.slot.lastGeneration
  released : core.owner.phase = .disabled → core.owner.grant = none ∧ core.recoveryGrant = none
  held : core.owner.phase ≠ .disabled → ∃ payload recovery grant,
    core.Holds payload recovery grant ∧ core.owner.grant = some grant

/-- **A recoverable record.**  It can be loaded, and outside `disabled` its recovery grant is the
grant that the owner holds. -/
def Recoverable (core : DisplayDockServiceCore) (status : DockStatus) : Prop :=
  status.load = .ok status ∧
    (status.phase ≠ .disabled → ∃ payload recovery grant,
      core.Holds payload recovery grant ∧ status.recoveryGrant = some recovery)

theorem Recorded.recoverable (h : core.Recorded) (now : ℚ) :
    Recoverable core (core.publicStatus now) := by
  have hgen : ¬ (core.publicStatus now).generation < 0 := by
    show ¬ core.owner.controller.slot.generation < 0
    rw [h.consistent.generation]
    exact not_lt.mpr h.nonneg
  by_cases hphase : core.owner.phase = .disabled
  · refine ⟨?_, fun hne => absurd hphase hne⟩
    have hnone : (core.publicStatus now).recoveryGrant = none := (h.released hphase).2
    have hdisabled : (core.publicStatus now).phase = .disabled := hphase
    simp [DockStatus.load, hgen, hnone, hdisabled]
  · obtain ⟨payload, recovery, grant, hh, hgrant⟩ := h.held hphase
    refine ⟨?_, fun _ => ⟨payload, recovery, grant, hh, hh.kept⟩⟩
    have hsome : (core.publicStatus now).recoveryGrant = some recovery := hh.kept
    have hparsed := (fromVerifiedPayload_recovery hh.copied).trans hh.parsed
    have hgeneration : grant.generation = (core.publicStatus now).generation := by
      show grant.generation = core.owner.controller.slot.generation
      rw [RemoteDisplaySlot.generation, hh.granted]
    have hsession : some grant.sessionId = (core.publicStatus now).sessionId := by
      show some grant.sessionId = core.owner.grant.map ActiveDisplayGrant.sessionId
      rw [hgrant]
      rfl
    have hlive : (core.publicStatus now).phase ≠ .disabled := hphase
    simp [DockStatus.load, hgen, hsome, hparsed, hgeneration, ← hsession, hlive]

variable {core' : DisplayDockServiceCore}

theorem Recorded.of_keeps (h : core.Recorded)
    (hk : DisplaySlotController.Keeps core.owner.controller core'.owner.controller)
    (hgrant : core'.owner.grant = core.owner.grant)
    (hkept : core'.recoveryGrant = core.recoveryGrant) : core'.Recorded := by
  have hdisabled : core'.owner.phase = .disabled ↔ core.owner.phase = .disabled := by
    show core'.owner.controller.slot.phase = _ ↔ core.owner.controller.slot.phase = _
    cases hk with
    | stays hphase => rw [hphase]
    | fails hlive hphase =>
      refine iff_of_false (by rw [hphase]; exact fun h => by cases h) fun heq => ?_
      rw [heq] at hlive
      cases hlive
  obtain ⟨howned, hslot, hlast⟩ : core'.owner.controller.grant = core.owner.controller.grant ∧
      core'.owner.controller.slot.grant = core.owner.controller.slot.grant ∧
      core'.owner.controller.slot.lastGeneration =
        core.owner.controller.slot.lastGeneration := by
    cases hk with
    | stays _ hslot hlast howned => exact ⟨howned, hslot, hlast⟩
    | fails _ _ hslot hlast howned => exact ⟨howned, hslot, hlast⟩
  refine ⟨h.consistent.of_keeps hk, ?_, fun hp => ?_, fun hp => ?_⟩
  · rw [hlast]
    exact h.nonneg
  · rw [hgrant, hkept]
    exact h.released (hdisabled.mp hp)
  · obtain ⟨payload, recovery, grant, hh, hown⟩ := h.held (mt hdisabled.mpr hp)
    exact ⟨payload, recovery, grant, ⟨howned ▸ hh.owned, hslot ▸ hh.granted, hh.parsed, hh.copied,
      hkept ▸ hh.kept⟩, hgrant ▸ hown⟩

/-- What a command leaves to the end of `handle`: as `Recorded`, but a command that raised may
leave a recovery grant in `disabled`, which `handle` then drops. -/
structure Ready (core : DisplayDockServiceCore) (raised : Option PyError) : Prop where
  consistent : core.owner.controller.Consistent
  nonneg : 0 ≤ core.owner.controller.slot.lastGeneration
  released : core.owner.phase = .disabled → core.owner.grant = none
  dropped : core.owner.phase = .disabled → raised = none → core.recoveryGrant = none
  held : core.owner.phase ≠ .disabled → ∃ payload recovery grant,
    core.Holds payload recovery grant ∧ core.owner.grant = some grant

theorem Recorded.ready (h : core.Recorded) (raised : Option PyError) : core.Ready raised :=
  ⟨h.consistent, h.nonneg, fun hp => (h.released hp).1, fun hp _ => (h.released hp).2, h.held⟩

variable {raised : Option PyError}

theorem Ready.congr (h : core.Ready raised) (howner : core'.owner = core.owner)
    (hkept : core'.recoveryGrant = core.recoveryGrant) : core'.Ready raised := by
  refine ⟨howner ▸ h.consistent, howner ▸ h.nonneg, howner ▸ h.released, fun hp => ?_, fun hp => ?_⟩
  · rw [hkept]
    exact h.dropped (howner ▸ hp)
  · obtain ⟨payload, recovery, grant, hh, hown⟩ := h.held (howner ▸ hp)
    exact ⟨payload, recovery, grant, ⟨howner ▸ hh.owned, howner ▸ hh.granted, hh.parsed, hh.copied,
      hkept ▸ hh.kept⟩, howner ▸ hown⟩

theorem consume_owner (requestId : String) : (core.consume requestId).owner = core.owner := by
  unfold consume
  split <;> rfl

theorem consume_recoveryGrant (requestId : String) :
    (core.consume requestId).recoveryGrant = core.recoveryGrant := by
  unfold consume
  split <;> rfl

/-- The end of `handle` keeps the owner, drops the recovery grant of a command that raised in
`disabled`, and saves the status of what it leaves. -/
theorem finish_spec (core : DisplayDockServiceCore) (raised : Option PyError)
    (requestId : Option String) (env : HandleEnv) :
    (core.finish raised requestId env).1.owner = core.owner ∧
      (core.finish raised requestId env).1.recoveryGrant =
        (if raised ≠ none ∧ core.owner.phase = .disabled then none else core.recoveryGrant) ∧
      (core.finish raised requestId env).2.2 =
        some ((core.finish raised requestId env).1.publicStatus env.savedAt) := by
  refine ⟨?_, ?_, rfl⟩
  · cases raised <;> cases requestId <;> simp [finish, consume_owner]
  · by_cases hp : core.owner.phase = .disabled <;> cases raised <;> cases requestId <;>
      simp [finish, consume_recoveryGrant, status, hp]

theorem Ready.finish (h : core.Ready raised) (requestId : Option String) (env : HandleEnv) :
    (core.finish raised requestId env).1.Recorded := by
  obtain ⟨howner, hkept, -⟩ := finish_spec core raised requestId env
  refine ⟨?_, ?_, fun hp => ?_, fun hp => ?_⟩
  · rw [howner]
    exact h.consistent
  · rw [howner]
    exact h.nonneg
  · rw [howner] at hp
    refine ⟨by rw [howner]; exact h.released hp, ?_⟩
    rw [hkept]
    split
    · rfl
    · next hne =>
      refine h.dropped hp ?_
      by_contra hraised
      exact hne ⟨hraised, hp⟩
  · rw [howner] at hp
    obtain ⟨payload, recovery, grant, hh, hown⟩ := h.held hp
    rw [if_neg (fun hboth => hp hboth.2)] at hkept
    refine ⟨payload, recovery, grant, ⟨?_, ?_, hh.parsed, hh.copied, hkept.trans hh.kept⟩, ?_⟩
    · rw [howner]
      exact hh.owned
    · rw [howner]
      exact hh.granted
    · rw [howner]
      exact hown

/-! ## The commands -/

section

variable (h : core.Recorded)
include h

theorem Recorded.ready_detached
    (hout : DisplaySlotController.DetachOutcome core.owner.controller core'.owner.controller raised)
    (hgrant : core'.owner.grant = if raised = none then none else core.owner.grant)
    (hkept : core'.recoveryGrant = if raised = none then none else core.recoveryGrant) :
    core'.Ready raised := by
  have hcons := h.consistent.of_detached hout
  cases hout with
  | @refused e heq =>
    have hk : DisplaySlotController.Keeps core.owner.controller core'.owner.controller := by
      rw [heq]
      exact .refl _
    exact (h.of_keeps hk hgrant hkept).ready _
  | done hlive hphase hslot hlast howned =>
    refine ⟨hcons, by rw [hlast]; exact h.nonneg, fun _ => hgrant, fun _ _ => hkept,
      fun hp => absurd hphase hp⟩
  | @failed _ e hlive hphase hslot hlast howned =>
    have hne : core.owner.phase ≠ .disabled := by
      intro heq
      rw [phase] at heq
      rw [heq] at hlive
      cases hlive
    have hdead : core'.owner.phase ≠ .disabled := by
      rw [phase, hphase]
      exact fun h => by cases h
    obtain ⟨payload, recovery, grant, hh, hown⟩ := h.held hne
    refine ⟨hcons, by rw [hlast]; exact h.nonneg, fun hp => absurd hp hdead,
      fun hp => absurd hp hdead, fun _ => ⟨payload, recovery, grant, ⟨?_, ?_, hh.parsed,
        hh.copied, ?_⟩, ?_⟩⟩
    · rw [howned]
      exact hh.owned
    · rw [hslot]
      exact hh.granted
    · rw [hkept]
      exact hh.kept
    · rw [hgrant]
      exact hown

theorem Recorded.ready_detach (isalnum : Char → Bool) (parsed : Payload) (env : HandleEnv)
    : (core.command isalnum .detach parsed env).1.Ready
      (core.command isalnum .detach parsed env).2 := by
  unfold command
  dsimp only
  split
  · exact h.ready _
  · next generation _ =>
    obtain ⟨hout, hgrant⟩ := detach_spec h.consistent generation env.performs
    cases hr : core.owner.detach generation env.performs with
    | mk owner raised =>
      rw [hr] at hout hgrant
      cases raised with
      | none => exact h.ready_detached hout hgrant rfl
      | some e => exact h.ready_detached hout hgrant rfl

theorem Recorded.ready_reset (isalnum : Char → Bool) (parsed : Payload) (env : HandleEnv)
    : (core.command isalnum .reset parsed env).1.Ready
      (core.command isalnum .reset parsed env).2 := by
  have hcons := h.consistent.reset env.confirmed
  unfold command resetFailedSafe
  dsimp only
  rcases DisplaySlotController.reset_cases (c := core.owner.controller) env.confirmed with
    ⟨e, heq⟩ | ⟨hphase, heq⟩
  · rw [heq]
    exact h.ready _
  · rw [heq] at hcons ⊢
    exact ⟨hcons, h.nonneg, fun _ => rfl, fun _ _ => rfl, fun hp => absurd rfl hp⟩

theorem Recorded.ready_shutdown (performs : Performs) :
    let out := core.owner.shutdown performs
    let core' : DisplayDockServiceCore := { core with
      owner := out.1
      recoveryGrant := if out.2 = none ∧ out.1.phase = .disabled then none
        else core.recoveryGrant }
    core'.Ready out.2 := by
  intro out core'
  rcases shutdown_spec h.consistent performs with
    ⟨-, hcontroller, hgrant, hnone⟩ | ⟨hout, hgrant⟩
  · have hphase : out.1.phase = core.owner.phase := by
      rw [phase, hcontroller]
      rfl
    have hkept : core'.recoveryGrant = core.recoveryGrant := by
      show (if out.2 = none ∧ out.1.phase = .disabled then none else core.recoveryGrant) = _
      split
      · next hdisabled => exact (h.released (hphase ▸ hdisabled.2)).2.symm
      · rfl
    have hk : DisplaySlotController.Keeps core.owner.controller core'.owner.controller := by
      show DisplaySlotController.Keeps core.owner.controller out.1.controller
      rw [hcontroller]
      exact .refl _
    exact (h.of_keeps hk hgrant hkept).ready _
  · refine h.ready_detached hout hgrant ?_
    show (if out.2 = none ∧ out.1.phase = .disabled then none else core.recoveryGrant) = _
    have hdone : out.2 = none → out.1.phase = .disabled := by
      intro hnone
      have hout' : DisplaySlotController.DetachOutcome core.owner.controller out.1.controller
          out.2 := hout
      rw [hnone] at hout'
      cases hout' with
      | done _ hphase => exact hphase
    by_cases hnone : out.2 = none
    · rw [if_pos ⟨hnone, hdone hnone⟩, if_pos hnone]
    · rw [if_neg (fun hboth => hnone hboth.1), if_neg hnone]

theorem Recorded.ready_shutdownCommand (isalnum : Char → Bool) (parsed : Payload)
    (env : HandleEnv) : (core.command isalnum .shutdown parsed env).1.Ready
      (core.command isalnum .shutdown parsed env).2 := by
  have hready := h.ready_shutdown env.performs
  unfold command
  dsimp only at hready ⊢
  cases hr : core.owner.shutdown env.performs with
  | mk owner raised =>
    rw [hr] at hready
    cases raised with
    | none =>
      simp only [true_and] at hready
      exact hready.congr rfl rfl
    | some e =>
      simp only [reduceCtorEq, false_and, if_false] at hready
      exact hready.congr rfl rfl

end

/-! ## Attach -/

/-- The verified grant and its copy, of an attach request that gets as far as the owner. -/
def attachOf (core : DisplayDockServiceCore) (isalnum : Char → Bool) (request : Json)
    (peerUid : ℤ) (env : HandleEnv) : Option (Payload × Payload) :=
  if peerUid ≠ core.controllerUid ∨ core.accepting = false then none
  else
    match validateRequest request with
    | .ok (.attach, requestId, parsed) =>
      if requestId ∈ core.consumed then none else (attachArguments isalnum parsed env).toOption
    | _ => none

/-- The condition on one attach: under a held grant it brings that grant again, and without one
it raises nowhere once the slot has admitted it. -/
def AttachKeeps (core : DisplayDockServiceCore) (verified recovery : Payload)
    (env : HandleEnv) : Prop :=
  match core.owner.controller.grant with
  | some held => recoveryGrantOf held = .ok recovery
  | none => ∀ grant, core.owner.controller.slot.beginAttach verified env.attach.attach.now =
      .ok (core.owner.controller.slot.admitted grant env.attach.attach.now,
        RemoteDisplaySlot.attachActions) → Completes env.attach.attach grant

variable {isalnum : Char → Bool} {recovery : Payload}

theorem attachArguments_ok {parsed verified : Payload} {env : HandleEnv}
    (h : attachArguments isalnum parsed env = .ok (verified, recovery)) :
    env.verified = .ok verified ∧ recoveryGrantOf verified = .ok recovery := by
  unfold attachArguments at h
  simp only [discard, Functor.mapConst, Except.map, Function.comp, bind, Except.bind, pure,
    Except.pure] at h
  split at h
  · cases h
  · split at h
    · cases h
    · split at h
      · cases h
      · next payload hverified =>
        split at h
        · cases h
        · next copy hcopy =>
          cases h
          exact ⟨hverified, hcopy⟩

/-- What an attach leaves is ready when it meets the condition, and otherwise the record that is
saved after it cannot be recovered from. -/
structure AttachVerdict (core : DisplayDockServiceCore) (verified recovery : Payload)
    (env : HandleEnv) (out : DisplayDockServiceCore × Option PyError) : Prop where
  ready : AttachKeeps core verified recovery env → out.1.Ready out.2
  lost : ¬ AttachKeeps core verified recovery env → ∀ requestId,
    ¬ Recoverable (out.1.finish out.2 requestId env).1
      ((out.1.finish out.2 requestId env).1.publicStatus env.savedAt)

theorem Recorded.attach_refused (h : core.Recorded) {verified : Payload} {env : HandleEnv}
    {e : PyError}
    (hrefused : core.owner.controller.grant = none →
      ∃ e', core.owner.controller.slot.beginAttach verified env.attach.attach.now = .error e') :
    AttachVerdict core verified recovery env
      ({ core with recoveryGrant := some recovery }, some e) := by
  cases hg : core.owner.controller.grant with
  | none =>
    -- refused in `disabled`: `handle` drops the copy again
    obtain ⟨e', hbegin⟩ := hrefused hg
    have hphase : core.owner.phase = .disabled := h.consistent.owned.mp hg
    have hkeeps : AttachKeeps core verified recovery env := by
      simp only [AttachKeeps, hg]
      intro grant hok
      rw [hbegin] at hok
      cases hok
    refine ⟨fun _ => ?_, fun hnot => absurd hkeeps hnot⟩
    exact ⟨h.consistent, h.nonneg, fun hp => (h.released hp).1, fun _ hnone => (by cases hnone),
      fun hp => absurd hphase hp⟩
  | some held =>
    -- refused under a held grant: the copy has already been replaced
    have hphase : core.owner.phase ≠ .disabled := by
      intro hp
      rw [h.consistent.owned.mpr hp] at hg
      cases hg
    obtain ⟨payload, old, grant, hh, hown⟩ := h.held hphase
    obtain rfl : payload = held := Option.some.inj (hh.owned.symm.trans hg)
    have hiff : AttachKeeps core verified recovery env ↔
        recoveryGrantOf payload = .ok recovery := by
      simp only [AttachKeeps, hg]
    refine ⟨fun hsame => ?_, fun hother requestId hrecoverable => ?_⟩
    · rw [hiff] at hsame
      exact ⟨h.consistent, h.nonneg, fun hp => absurd hp hphase, fun hp => absurd hp hphase,
        fun _ => ⟨payload, recovery, grant, ⟨hh.owned, hh.granted, hh.parsed, hsame, rfl⟩, hown⟩⟩
    · obtain ⟨howner, hkept, -⟩ := finish_spec
        { core with recoveryGrant := some recovery } (some e) requestId env
      rw [if_neg (fun hboth => hphase hboth.2)] at hkept
      have hlive : ({ core with recoveryGrant := some recovery }.finish (some e) requestId
          env).1.owner.phase ≠ .disabled := by
        rw [howner]
        exact hphase
      obtain ⟨payload', recovery', grant', hh', hsaved⟩ := hrecoverable.2 hlive
      have howned := hh'.owned
      rw [howner] at howned
      obtain rfl : payload' = payload := Option.some.inj (howned.symm.trans hh.owned)
      obtain rfl : recovery' = recovery := Option.some.inj (hsaved.symm.trans hkept)
      exact hother (hiff.mpr hh'.copied)

theorem Recorded.attach_admitted (h : core.Recorded) {verified : Payload} {env : HandleEnv}
    {grant : ActiveDisplayGrant} {out : DisplayDockServiceCore × Option PyError}
    (hcopied : recoveryGrantOf verified = .ok recovery) (hg : core.owner.controller.grant = none)
    (hbegin : core.owner.controller.slot.beginAttach verified env.attach.attach.now =
      .ok (core.owner.controller.slot.admitted grant env.attach.attach.now,
        RemoteDisplaySlot.attachActions))
    (howns : out.1.owner.controller.Owns verified grant)
    (hiff : out.2 = none ↔ Completes env.attach.attach grant)
    (hgrant : out.1.owner.grant = if out.2 = none then some grant else core.owner.grant)
    (hsaved : out.1.recoveryGrant = some recovery)
    (hout : DisplaySlotController.AttachOutcome core.owner.controller verified env.attach.attach
      grant out.1.owner.controller out.2) :
    AttachVerdict core verified recovery env out := by
  obtain ⟨hparsed, -, -⟩ := RemoteDisplaySlot.admitted_spec hbegin
  have hcons : out.1.owner.controller.Consistent := .of_outcome howns hout
  have hphase : out.1.owner.phase ≠ .disabled := by
    intro hp
    have hnone := hcons.granted.mpr hp
    rw [howns.granted] at hnone
    cases hnone
  have hkeeps : AttachKeeps core verified recovery env ↔ out.2 = none := by
    rw [hiff]
    simp only [AttachKeeps, hg]
    refine ⟨fun hall => hall grant hbegin, fun hcompletes grant' hok => ?_⟩
    have heq := hok.symm.trans hbegin
    injection heq with heq
    injection heq with hslot
    obtain rfl := RemoteDisplaySlot.admitted_injective hslot
    exact hcompletes
  have hholds : out.1.Holds verified recovery grant :=
    ⟨howns.owned, howns.granted, hparsed, hcopied, hsaved⟩
  refine ⟨fun hok => ?_, fun hnot requestId hrecoverable => ?_⟩
  · have hown : out.1.owner.grant = some grant := hgrant.trans (if_pos (hkeeps.mp hok))
    refine ⟨hcons, ?_, fun hp => absurd hp hphase, fun hp => absurd hp hphase,
      fun _ => ⟨verified, recovery, grant, hholds, hown⟩⟩
    have hpos := grant.generation_pos
    rw [howns.newest]
    omega
  · -- the session never took the grant over: its status has no session id
    have hown : out.1.owner.grant = none := by
      refine (hgrant.trans (if_neg (mt hkeeps.mpr hnot))).trans ?_
      exact (h.released (h.consistent.owned.mp hg)).1
    obtain ⟨howner, hkept, -⟩ := finish_spec out.1 out.2 requestId env
    rw [if_neg (fun hboth => hphase hboth.2)] at hkept
    have hload := hrecoverable.1
    have hsome : ((out.1.finish out.2 requestId env).1.publicStatus env.savedAt).recoveryGrant =
        some recovery := hkept.trans hsaved
    have hsession : ((out.1.finish out.2 requestId env).1.publicStatus env.savedAt).sessionId =
        none := by
      show (out.1.finish out.2 requestId env).1.owner.grant.map _ = none
      rw [howner, hown]
      rfl
    have hparsed' := (fromVerifiedPayload_recovery hcopied).trans hparsed
    unfold DockStatus.load at hload
    simp only [hsome, hsession, hparsed', ne_eq, reduceCtorEq, not_false_eq_true, true_or, or_true,
      if_true] at hload
    split at hload <;> cases hload

theorem command_attach {parsed verified : Payload} {env : HandleEnv}
    (hargs : attachArguments isalnum parsed env = .ok (verified, recovery)) :
    core.command isalnum .attach parsed env =
      ({ core with
          owner := (core.owner.attach verified env.attach).1, recoveryGrant := some recovery },
        (core.owner.attach verified env.attach).2) := by
  simp only [command, hargs]

/-- **One attach.** -/
theorem Recorded.attach_verdict (h : core.Recorded) {parsed verified : Payload} {env : HandleEnv}
    (hargs : attachArguments isalnum parsed env = .ok (verified, recovery)) :
    AttachVerdict core verified recovery env (core.command isalnum .attach parsed env) := by
  obtain ⟨-, hcopied⟩ := attachArguments_ok hargs
  rw [command_attach hargs]
  rcases attach_spec h.consistent verified env.attach with
    ⟨e, heq, hrefused⟩ | ⟨hg, grant, hbegin, howns, hiff, hgrant, hout⟩
  · rw [heq]
    exact h.attach_refused hrefused
  · exact h.attach_admitted hcopied hg hbegin howns hiff hgrant rfl hout

/-- How a request is handled: refused unread, raised before the owner is asked, or passed to the
owner as a command. -/
inductive Handles (core : DisplayDockServiceCore) (isalnum : Char → Bool) (request : Json)
    (peerUid : ℤ) (env : HandleEnv) : Prop where
  | refused {error : String} (hattach : core.attachOf isalnum request peerUid env = none)
      (heq : core.handle isalnum request peerUid env = (core, .refused error, none))
  | raised {e : PyError} {requestId : Option String}
      (hattach : core.attachOf isalnum request peerUid env = none)
      (heq : core.handle isalnum request peerUid env = core.finish (some e) requestId env)
  | command {command : Command} {requestId : String} {parsed : Payload}
      (hcommand : command ≠ .attach)
      (hattach : core.attachOf isalnum request peerUid env = none)
      (heq : core.handle isalnum request peerUid env =
        (core.command isalnum command parsed env).1.finish
          (core.command isalnum command parsed env).2 (some requestId) env)
  | attach {requestId : String} {parsed verified recovery : Payload}
      (hargs : attachArguments isalnum parsed env = .ok (verified, recovery))
      (hattach : core.attachOf isalnum request peerUid env = some (verified, recovery))
      (heq : core.handle isalnum request peerUid env =
        (core.command isalnum .attach parsed env).1.finish
          (core.command isalnum .attach parsed env).2 (some requestId) env)

theorem handle_cases (core : DisplayDockServiceCore) (isalnum : Char → Bool) (request : Json)
    (peerUid : ℤ) (env : HandleEnv) : core.Handles isalnum request peerUid env := by
  by_cases huid : peerUid = core.controllerUid
  case neg => exact .refused (if_pos (Or.inl huid)) (if_pos huid)
  cases haccepting : core.accepting with
  | false =>
    have heq : core.handle isalnum request peerUid env =
        (core, .refused "service-not-accepting", none) := by
      simp [handle, huid, haccepting]
    exact .refused (if_pos (Or.inr haccepting)) heq
  | true =>
    cases hvalid : validateRequest request with
    | error e =>
      have heq : core.handle isalnum request peerUid env =
          core.finish (some e) none env := by
        simp [handle, huid, haccepting, hvalid]
      exact .raised (by simp [attachOf, hvalid]) heq
    | ok parts =>
      obtain ⟨command, requestId, parsed⟩ := parts
      by_cases hreplayed : requestId ∈ core.consumed
      · have heq : core.handle isalnum request peerUid env =
            core.finish (some (dockError "display dock request was replayed"))
              (some requestId) env := by
          simp [handle, huid, haccepting, hvalid, hreplayed]
        refine .raised ?_ heq
        cases command <;> simp [attachOf, hvalid, hreplayed]
      · have heq : core.handle isalnum request peerUid env =
            (core.command isalnum command parsed env).1.finish
              (core.command isalnum command parsed env).2 (some requestId) env := by
          simp [handle, huid, haccepting, hvalid, hreplayed]
        by_cases hcommand : command = .attach
        case neg =>
          refine .command hcommand ?_ heq
          cases command with
          | attach => exact absurd rfl hcommand
          | _ => simp [attachOf, hvalid]
        subst hcommand
        cases hargs : attachArguments isalnum parsed env with
        | error e =>
          have hraised : core.handle isalnum request peerUid env =
              core.finish (some e) (some requestId) env := by
            rw [heq]
            simp only [command, hargs]
          refine .raised ?_ hraised
          simp [attachOf, hvalid, hreplayed, hargs, Except.toOption]
        | ok arguments =>
          obtain ⟨verified, recovery⟩ := arguments
          refine .attach hargs ?_ heq
          simp [attachOf, huid, haccepting, hvalid, hreplayed, hargs, Except.toOption]

/-! ## The other operations -/

theorem Recorded.start (h : core.Recorded) (store : Option DockStatus)
    (recovered : Except PyError Bool) (now : ℚ) :
    (core.start store recovered now).1.Recorded ∧
      ∀ status, (core.start store recovered now).2.1 = some status →
        status = (core.start store recovered now).1.publicStatus now := by
  have hsame : ∀ e, { core with lastError := e }.Recorded :=
    fun e => h.of_keeps (.refl _) rfl rfl
  unfold DisplayDockServiceCore.start
  split
  · exact ⟨h, fun _ hsaved => by cases hsaved⟩
  · next previous hprevious =>
    split
    · exact ⟨h, fun _ hsaved => by cases hsaved⟩
    · exact ⟨hsame _, fun _ hsaved => by cases hsaved⟩
    · split
      · exact ⟨hsame _, fun _ hsaved => by cases hsaved⟩
      · next hphase =>
        have hphase : core.owner.phase = .disabled := not_not.mp hphase
        have hrestored : ∀ (owner : DisplayDockSession),
            owner.controller.Consistent → 0 ≤ owner.controller.slot.lastGeneration →
            owner.phase = .disabled → owner.grant = none →
            { core with owner, recoveryGrant := none, accepting := true, lastError := none }.Recorded :=
          fun owner hcons hnonneg hp hgrant =>
            ⟨hcons, hnonneg, fun _ => ⟨hgrant, rfl⟩, fun hne => absurd hp hne⟩
        cases previous with
        | none =>
          refine ⟨hrestored _ h.consistent h.nonneg hphase (h.released hphase).1, ?_⟩
          exact fun status hsaved => (Option.some.inj hsaved).symm
        | some status =>
          dsimp only
          rcases restore_spec (s := core.owner) status.generation with
            ⟨e, heq⟩ | ⟨hslot, heq⟩
          · rw [heq]
            exact ⟨h, fun _ hsaved => by cases hsaved⟩
          · rw [heq]
            refine ⟨hrestored _ ⟨h.consistent.owned, h.consistent.granted, ?_,
              h.consistent.settled⟩ (le_trans h.nonneg (le_max_left _ _)) hphase
              (h.released hphase).1, fun status hsaved => (Option.some.inj hsaved).symm⟩
            intro grant hgrant
            rw [show core.owner.controller.slot.grant = some grant from hgrant] at hslot
            cases hslot

theorem poll_saved {env : PollEnv} {savedAt : ℚ} {status : DockStatus}
    (h : (core.poll env savedAt).2.2 = some status) :
    status = (core.poll env savedAt).1.publicStatus savedAt := by
  unfold poll at h ⊢
  cases hr : core.owner.poll env with
  | mk owner result =>
    rw [hr] at h
    cases result with
    | error e => exact (Option.some.inj h).symm
    | ok changed =>
      cases changed with
      | true => exact (Option.some.inj h).symm
      | false => cases h

theorem Recorded.poll (h : core.Recorded) (env : PollEnv) (savedAt : ℚ) :
    (core.poll env savedAt).1.Recorded := by
  have hpolls := polls_poll h.consistent env
  unfold DisplayDockServiceCore.poll
  cases hr : core.owner.poll env with
  | mk owner result =>
    rw [hr] at hpolls
    cases result with
    | error e => exact h.of_keeps hpolls.keeps hpolls.grant rfl
    | ok changed => exact h.of_keeps hpolls.keeps hpolls.grant rfl

theorem Ready.recorded (h : core.Ready raised)
    (hnone : core.owner.phase = .disabled → core.recoveryGrant = none) : core.Recorded :=
  ⟨h.consistent, h.nonneg, fun hp => ⟨h.released hp, hnone hp⟩, h.held⟩

theorem Recorded.shutdown_raised (h : core.Recorded) {performs : Performs}
    {owner : DisplayDockSession} {e : PyError}
    (hr : core.owner.shutdown performs = (owner, some e)) :
    { core with owner }.Recorded := by
  have hready := h.ready_shutdown performs
  have hspec := shutdown_spec h.consistent performs
  rw [hr] at hready hspec
  dsimp only at hready hspec
  simp only [reduceCtorEq, false_and, if_false] at hready
  refine hready.recorded fun hp => ?_
  rcases hspec with ⟨-, -, -, hnone⟩ | ⟨hout, -⟩
  · cases hnone
  · cases hout with
    | refused heq =>
      refine (h.released ?_).2
      rw [phase, ← heq]
      exact hp
    | failed hlive hphase =>
      rw [phase, hphase] at hp
      cases hp

theorem Recorded.converge (h : core.Recorded) (performs : Performs)
    (confirmed : Except PyError Bool) : (core.converge performs confirmed).1.Recorded := by
  unfold DisplayDockServiceCore.converge
  cases hr : core.owner.shutdown performs with
  | mk owner raised =>
    cases raised with
    | some e => exact h.shutdown_raised hr
    | none =>
      have hready := h.ready_shutdown performs
      dsimp only at hready
      rw [hr] at hready
      simp only [true_and] at hready
      have hrec := hready.recorded (hready.dropped · rfl)
      have hkept : owner.phase ≠ .disabled → { core with owner }.Recorded :=
        fun hne => hrec.of_keeps (.refl _) rfl (if_neg hne).symm
      have hdropped : ∀ {owner' : DisplayDockSession}, owner'.controller.Consistent →
          0 ≤ owner'.controller.slot.lastGeneration → owner'.phase = .disabled →
          owner'.grant = none →
          { core with owner := owner', lastError := none, recoveryGrant := none }.Recorded :=
        fun hcons hnonneg hp hgrant =>
          ⟨hcons, hnonneg, fun _ => ⟨hgrant, rfl⟩, fun hne => absurd hp hne⟩
      dsimp only
      by_cases hfailed : owner.status.phase = .failedSafe
      · have hne : owner.phase ≠ .disabled := by
          rw [show owner.phase = .failedSafe from hfailed]
          exact fun h => by cases h
        have hcons := hready.consistent.reset confirmed
        rw [if_pos hfailed, resetFailedSafe]
        rcases DisplaySlotController.reset_cases (c := owner.controller) confirmed with
          ⟨e, heq⟩ | ⟨-, heq⟩
        · rw [heq]
          exact hkept hne
        · rw [heq] at hcons ⊢
          dsimp only
          split
          · next hp => exact absurd rfl hp
          · exact hdropped hcons hready.nonneg rfl rfl
      · rw [if_neg hfailed]
        dsimp only
        split
        · next hne => exact hkept hne
        · next hp =>
          have hp := not_not.mp hp
          exact hdropped hready.consistent hready.nonneg hp (hready.released hp)

theorem convergeShutdown_saved {performs : Performs} {confirmed : Except PyError Bool}
    {savedAt : ℚ} {status : DockStatus}
    (h : (core.convergeShutdown performs confirmed savedAt).2.2 = some status) :
    status = (core.convergeShutdown performs confirmed savedAt).1.publicStatus savedAt := by
  unfold convergeShutdown at h ⊢
  split at h <;> exact (Option.some.inj h).symm

theorem Recorded.convergeShutdown (h : core.Recorded) (performs : Performs)
    (confirmed : Except PyError Bool) (savedAt : ℚ) :
    (core.convergeShutdown performs confirmed savedAt).1.Recorded := by
  have hflags : { core with accepting := false, stopRequested := true }.Recorded :=
    h.of_keeps (.refl _) rfl rfl
  have hdone := hflags.converge performs confirmed
  unfold DisplayDockServiceCore.convergeShutdown
  split
  · next core' e heq =>
    rw [heq] at hdone
    exact hdone.of_keeps (.refl _) rfl rfl
  · next core' heq =>
    rw [heq] at hdone
    exact hdone

theorem Recorded.ready_command (h : core.Recorded) (isalnum : Char → Bool) {command : Command}
    (hcommand : command ≠ .attach) (parsed : Payload) (env : HandleEnv) :
    (core.command isalnum command parsed env).1.Ready
      (core.command isalnum command parsed env).2 := by
  cases command with
  | attach => exact absurd rfl hcommand
  | detach => exact h.ready_detach isalnum parsed env
  | reset => exact h.ready_reset isalnum parsed env
  | status => exact h.ready none
  | shutdown => exact h.ready_shutdownCommand isalnum parsed env

end DisplayDockServiceCore

/-! ## Runs -/

/-- The core and what the store holds. -/
structure DockWorld where
  core : DisplayDockServiceCore
  store : Option DockStatus := none

/-- An operation of the core, with what it meets. -/
inductive DockOp where
  | start (recovered : Except PyError Bool) (now : ℚ)
  | handle (request : Json) (peerUid : ℤ) (env : HandleEnv)
  | poll (env : PollEnv) (savedAt : ℚ)
  | convergeShutdown (performs : Performs) (confirmed : Except PyError Bool) (savedAt : ℚ)

namespace DockWorld

variable (isalnum : Char → Bool)

/-- The core after an operation, and what was saved. -/
def perform (w : DockWorld) : DockOp → DisplayDockServiceCore × Option DockStatus
  | .start recovered now =>
    let (core, saved, _) := w.core.start w.store recovered now
    (core, saved)
  | .handle request peerUid env =>
    let (core, _, saved) := w.core.handle isalnum request peerUid env
    (core, saved)
  | .poll env savedAt =>
    let (core, _, saved) := w.core.poll env savedAt
    (core, saved)
  | .convergeShutdown performs confirmed savedAt =>
    let (core, _, saved) := w.core.convergeShutdown performs confirmed savedAt
    (core, saved)

/-- One operation. -/
def step (w : DockWorld) (op : DockOp) : DockWorld :=
  let (core, saved) := w.perform isalnum op
  { core, store := saved.or w.store }

/-- What an operation saves can be recovered from. -/
def SavesRecoverable (w : DockWorld) (op : DockOp) : Prop :=
  ∀ status, (w.perform isalnum op).2 = some status →
    DisplayDockServiceCore.Recoverable (w.perform isalnum op).1 status

/-- The condition: an attach request that gets as far as the owner brings the held grant again
or, when none is held, raises nowhere once the slot has admitted it. -/
def KeepsRecovery (w : DockWorld) : DockOp → Prop
  | .handle request peerUid env => ∀ verified recovery,
      w.core.attachOf isalnum request peerUid env = some (verified, recovery) →
        DisplayDockServiceCore.AttachKeeps w.core verified recovery env
  | _ => True

variable {isalnum} {w : DockWorld}

/-- An operation saves a recoverable record exactly when it meets the condition, and then keeps
the invariant. -/
structure Judged (isalnum : Char → Bool) (w : DockWorld) (op : DockOp) : Prop where
  saves_iff : KeepsRecovery isalnum w op ↔ SavesRecoverable isalnum w op
  recorded : KeepsRecovery isalnum w op → (w.perform isalnum op).1.Recorded

theorem Judged.of_recorded {op : DockOp} (hkeeps : KeepsRecovery isalnum w op)
    (hrec : (w.perform isalnum op).1.Recorded) (now : ℚ)
    (hsaved : ∀ status, (w.perform isalnum op).2 = some status →
      status = (w.perform isalnum op).1.publicStatus now) : Judged isalnum w op := by
  refine ⟨iff_of_true hkeeps fun status hstatus => ?_, fun _ => hrec⟩
  rw [hsaved status hstatus]
  exact hrec.recoverable now

variable {peerUid : ℤ}

theorem keepsRecovery_of_none {request : Json} {env : HandleEnv}
    (h : w.core.attachOf isalnum request peerUid env = none) :
    KeepsRecovery isalnum w (.handle request peerUid env) := by
  intro verified recovery hsome
  rw [h] at hsome
  cases hsome

theorem handle_saved {core : DisplayDockServiceCore} {request : Json} {env : HandleEnv}
    {raised : Option PyError} {requestId : Option String}
    (heq : w.core.handle isalnum request peerUid env = core.finish raised requestId env) :
    ∀ status, (w.perform isalnum (.handle request peerUid env)).2 = some status →
      status = (w.perform isalnum (.handle request peerUid env)).1.publicStatus env.savedAt := by
  intro status hstatus
  obtain ⟨-, -, hsaved⟩ := finish_spec core raised requestId env
  rw [← heq] at hsaved
  exact Option.some.inj (hstatus.symm.trans hsaved)

theorem handle_recorded {core : DisplayDockServiceCore} {request : Json} {env : HandleEnv}
    {raised : Option PyError} {requestId : Option String}
    (heq : w.core.handle isalnum request peerUid env = core.finish raised requestId env)
    (hready : core.Ready raised) :
    (w.perform isalnum (.handle request peerUid env)).1.Recorded := by
  have hrec := hready.finish requestId env
  rw [← heq] at hrec
  exact hrec

section

variable (h : w.core.Recorded)
include h

theorem judged_refused {request : Json} {env : HandleEnv} {error : String}
    (hnone : w.core.attachOf isalnum request peerUid env = none)
    (heq : w.core.handle isalnum request peerUid env = (w.core, .refused error, none)) :
    Judged isalnum w (.handle request peerUid env) := by
  have hperform : w.perform isalnum (.handle request peerUid env) = (w.core, none) := by
    simp only [perform, heq]
  refine .of_recorded (keepsRecovery_of_none hnone) ?_ env.savedAt ?_
  · rw [hperform]
    exact h
  · rw [hperform]
    exact fun _ hsaved => by cases hsaved

/-- **An attach request** that reaches the owner. -/
theorem judged_attach {request : Json} {env : HandleEnv} {requestId : String}
    {parsed verified recovery : Payload}
    (hargs : attachArguments isalnum parsed env = .ok (verified, recovery))
    (hattach : w.core.attachOf isalnum request peerUid env = some (verified, recovery))
    (heq : w.core.handle isalnum request peerUid env = (w.core.command isalnum .attach parsed env).1.finish (w.core.command isalnum .attach parsed env).2 (some requestId) env)
    :
    Judged isalnum w (.handle request peerUid env) := by
  have hkeeps : KeepsRecovery isalnum w (.handle request peerUid env) ↔
      DisplayDockServiceCore.AttachKeeps w.core verified recovery env := by
    refine ⟨fun hall => hall _ _ hattach, fun hok verified' recovery' hsome => ?_⟩
    cases hattach.symm.trans hsome
    exact hok
  obtain ⟨hready, hlost⟩ := h.attach_verdict hargs
  by_cases hok : DisplayDockServiceCore.AttachKeeps w.core verified recovery env
  · exact .of_recorded (hkeeps.mpr hok) (handle_recorded heq (hready hok)) _ (handle_saved heq)
  · refine ⟨iff_of_false (mt hkeeps.mp hok) fun hsaves => ?_, fun hall => absurd (hkeeps.mp hall) hok⟩
    obtain ⟨-, -, hsaved⟩ := finish_spec
      (w.core.command isalnum .attach parsed env).1 (w.core.command isalnum .attach parsed env).2
      (some requestId) env
    rw [← heq] at hsaved
    have hrecoverable := hsaves _ hsaved
    refine hlost hok (some requestId) ?_
    rw [← heq]
    exact hrecoverable

/-- **One request.** -/
theorem judged_handle (request : Json) (peerUid : ℤ) (env : HandleEnv) :
    Judged isalnum w (.handle request peerUid env) := by
  cases w.core.handle_cases isalnum request peerUid env with
  | refused hattach heq => exact judged_refused h hattach heq
  | raised hattach heq =>
    exact .of_recorded (keepsRecovery_of_none hattach) (handle_recorded heq (h.ready _)) _
      (handle_saved heq)
  | command hcommand hattach heq =>
    exact .of_recorded (keepsRecovery_of_none hattach)
      (handle_recorded heq (h.ready_command isalnum hcommand _ env)) _ (handle_saved heq)
  | attach hargs hattach heq => exact judged_attach h hargs hattach heq

theorem judged (op : DockOp) : Judged isalnum w op := by
  cases op with
  | start recovered now =>
    obtain ⟨hrec, hsaved⟩ := h.start w.store recovered now
    exact .of_recorded trivial hrec _ hsaved
  | handle request peerUid env => exact judged_handle h request peerUid env
  | poll env savedAt =>
    exact .of_recorded trivial (h.poll env savedAt) savedAt
      fun _ => poll_saved
  | convergeShutdown performs confirmed savedAt =>
    exact .of_recorded trivial (h.convergeShutdown performs confirmed savedAt) savedAt
      fun _ => convergeShutdown_saved

end

/-- A new process over a store. -/
def boot (spec : DisplaySlotSpec) (controllerUid : ℤ) (store : Option DockStatus) : DockWorld where
  core := { owner := { controller := { slot := { spec } } }, controllerUid }
  store := store

theorem recorded_boot (spec : DisplaySlotSpec) (controllerUid : ℤ) (store : Option DockStatus) :
    (boot spec controllerUid store).core.Recorded :=
  ⟨⟨by simp [boot], by simp [boot], fun _ h => (by cases h), fun h => (by cases h)⟩, le_refl 0,
    fun _ => ⟨rfl, rfl⟩, fun hne => absurd rfl hne⟩

/-- **Durable status is recoverable.**  Every record saved in a run can be loaded and carries the
grant that the owner holds, exactly when every attach of the run meets the condition. -/
theorem saved_recoverable_iff (spec : DisplaySlotSpec) (controllerUid : ℤ)
    (store : Option DockStatus) (ops : List DockOp) :
    Meets (step isalnum) (SavesRecoverable isalnum) (boot spec controllerUid store) ops ↔
      Meets (step isalnum) (KeepsRecovery isalnum) (boot spec controllerUid store) ops := by
  refine (Meets.congr (P := fun w => w.core.Recorded) (fun w op h => (judged h op).saves_iff) ?_
    (recorded_boot spec controllerUid store)).symm
  exact fun w op hkeeps h => (judged h op).recorded hkeeps

/-! ## An attach that fails -/

/-- An attach request. -/
def attachRequest (requestId sessionId : String) : Json :=
  .obj [("schema", .str requestSchema), ("request_id", .str requestId), ("command", .str "attach"),
    ("receipt", .null), ("session_id", .str sessionId),
    ("carrier_secret", .str (String.ofList (List.replicate 43 'A')))]

/-- The authority verifies generation 1, and the executor cannot enable the output. -/
def darkOutputEnv : HandleEnv where
  verified := .ok (deskGrant 1 "s1")
  attach := ⟨{
    now := 0
    performs
      | .primaryEnableOutput => some ⟨"DisplayShellError", "qdshell layout result was failed"⟩
      | _ => none
    during := []
    after _ := ⟨0, 0, none⟩
    connected := 0 }, 0, 0⟩
  performs _ := none
  confirmed := .ok true
  answeredAt := 0
  savedAt := 0

/-- A new service starts and is asked to attach. -/
def darkOutput : List DockOp :=
  [.start (.ok true) 0,
    .handle (attachRequest "00000000000000000000000000000000" "s1") 0 darkOutputEnv]

/-- The record that the failed attach leaves cannot be loaded. -/
theorem darkOutput_lost :
    ¬ Meets (step Char.isAlphanum) (SavesRecoverable Char.isAlphanum) (boot deskSlot 0 none)
      darkOutput := by
  rintro ⟨-, hsaves, -⟩
  have hlost : ((step Char.isAlphanum (boot deskSlot 0 none) (.start (.ok true) 0)).perform
      Char.isAlphanum (.handle (attachRequest "00000000000000000000000000000000" "s1") 0
        darkOutputEnv)).2.map (fun status => status.load.isOk) = some false := by
    decide +kernel
  obtain ⟨status, hstatus, hload⟩ := Option.map_eq_some_iff.mp hlost
  rw [(hsaves status hstatus).1] at hload
  cases hload

end DockWorld

end DisplayDock
