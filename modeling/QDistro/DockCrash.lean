/-
# Crashes of the display dock service

A generation that `begin_attach` has accepted is never accepted again, also not by a later
process: the watermark is in the saved status, and `start` restores it.

The machine below runs one process at a time over a store that survives it.  A process may
stop between two operations or inside one, after any number of its effects; the save comes
last, so what an interrupted operation did is in no record.

Every operation but an admitted attach lowers the slot (`Lowers`): it accepts no generation, and
the record of before still names the generation that is held.  An admitted attach accepts one
that no record names until its own save.
-/
import QDistro.DockRecovery

namespace DisplayDock

open JsonText TransitionSystem DisplayDockServiceCore DisplayDockSession List

/-! ## Generations in a trace -/

/-- The generations for which `begin_attach` succeeded: each brings its slot to `enabling`. -/
def begunOf : List Event → List ℤ
  | [] => []
  | .moved generation _ .enabling :: rest => generation :: begunOf rest
  | _ :: rest => begunOf rest

/-- The phase and the generation of a slot after the events of a trace. -/
def slotAfter : SlotPhase × ℤ → List Event → SlotPhase × ℤ
  | s, [] => s
  | s, .handed _ :: rest => slotAfter s rest
  | _, .moved generation _ p :: rest => slotAfter (p, generation) rest

/-- An event under the generation that is held, which accepts no other. -/
def Event.Under (generation : ℤ) : Event → Prop
  | .handed _ => True
  | .moved g _ p => g = generation ∧ p ≠ .enabling

theorem begunOf_append (a b : List Event) : begunOf (a ++ b) = begunOf a ++ begunOf b := by
  induction a with
  | nil => rfl
  | cons e rest ih =>
    cases e with
    | handed action => exact ih
    | moved g p q => cases q <;> simp [begunOf, ih]

theorem begunOf_handed (actions : List SlotAction) : begunOf (actions.map .handed) = [] := by
  induction actions with
  | nil => rfl
  | cons _ _ ih => exact ih

theorem begunOf_under {generation : ℤ} {events : List Event}
    (h : ∀ e ∈ events, e.Under generation) : begunOf events = [] := by
  induction events with
  | nil => rfl
  | cons e rest ih =>
    have hrest := ih fun e' he' => h e' (mem_cons_of_mem _ he')
    cases e with
    | handed action => exact hrest
    | moved g p q =>
      obtain ⟨-, hq⟩ := h (.moved g p q) mem_cons_self
      cases q with
      | enabling => exact absurd rfl hq
      | _ => exact hrest

theorem slotAfter_under {generation : ℤ} {events : List Event} (p : SlotPhase)
    (h : ∀ e ∈ events, e.Under generation) : (slotAfter (p, generation) events).2 = generation := by
  induction events generalizing p with
  | nil => rfl
  | cons e rest ih =>
    have hrest : ∀ e' ∈ rest, e'.Under generation :=
      fun e' he' => h e' (mem_cons_of_mem _ he')
    cases e with
    | handed action => exact ih p hrest
    | moved g q q' =>
      obtain ⟨rfl, -⟩ := h (.moved g q q') mem_cons_self
      exact ih q' hrest

theorem Event.under_handed (generation : ℤ) {actions : List SlotAction} {e : Event}
    (h : e ∈ actions.map Event.handed) : e.Under generation := by
  obtain ⟨action, -, rfl⟩ := mem_map.mp h
  trivial

theorem Opening.begunOf {g : ℤ} {p : SlotPhase} {seg : List Event} (h : Opening g p seg) :
    begunOf seg = [g] := by
  cases h with
  | enabling handed => exact congrArg (g :: ·) (begunOf_handed handed)
  | active handed handed' =>
    show g :: DisplayDock.begunOf (_ ++ _) = [g]
    rw [begunOf_append, begunOf_handed]
    exact congrArg (g :: ·) (begunOf_handed handed')

/-! ## Operations that accept nothing -/

namespace DisplaySlotController

variable {c c' : DisplaySlotController}

/-- An operation under the grant that is held: the generation stays the last one, nothing is
accepted, and a disabled slot is left alone. -/
structure Lowers (c c' : DisplaySlotController) : Prop where
  last : c'.slot.lastGeneration = c.slot.lastGeneration
  down : c.slot.phase = .disabled → c'.slot.phase = .disabled
  events : ∃ seg, c'.trace = c.trace ++ seg ∧ (∀ e ∈ seg, e.Under c.slot.lastGeneration) ∧
    (seg ≠ [] → c.slot.phase ≠ .disabled)

theorem Lowers.refl (c : DisplaySlotController) : c.Lowers c :=
  ⟨rfl, id, [], (append_nil _).symm, fun _ h => absurd h not_mem_nil,
    fun h => absurd rfl h⟩

theorem Lowers.trans {c'' : DisplaySlotController} (h : c.Lowers c') (h' : c'.Lowers c'') :
    c.Lowers c'' := by
  obtain ⟨seg, htrace, hunder, hheld⟩ := h.events
  obtain ⟨seg', htrace', hunder', hheld'⟩ := h'.events
  refine ⟨h'.last.trans h.last, fun hp => h'.down (h.down hp), seg ++ seg', ?_, ?_, ?_⟩
  · rw [htrace', htrace, append_assoc]
  · intro e he
    rcases mem_append.mp he with he | he
    · exact hunder e he
    · rw [← h.last]
      exact hunder' e he
  · intro hne hp
    by_cases hseg : seg = []
    · subst hseg
      exact hheld' hne (h.down hp)
    · exact hheld hseg hp

theorem Consistent.lowers_of_keeps (h : c.Consistent) (hk : Keeps c c') : c.Lowers c' := by
  cases hk with
  | stays hphase hgrant hlast howned htrace =>
    exact ⟨hlast, fun hp => hphase.trans hp, [], by rw [htrace, append_nil],
      fun _ he => absurd he not_mem_nil, fun hne => absurd rfl hne⟩
  | fails hlive hphase hgrant hlast howned hactions htrace =>
    have hne : c.slot.phase ≠ .disabled := by
      intro hp
      rw [hp] at hlive
      cases hlive
    refine ⟨hlast, fun hp => absurd hp hne, _, htrace, ?_, fun _ => hne⟩
    intro e he
    rcases mem_cons.mp he with rfl | he
    · exact ⟨h.generation, fun h => by cases h⟩
    · exact Event.under_handed _ he

theorem lowers_of_detached {raised : Option PyError} (hout : DetachOutcome c c' raised) :
    c.Lowers c' := by
  -- both ways down drain the slot first
  have hdrained : ∀ (p : SlotPhase) (actions : List SlotAction), p ≠ .enabling →
      ∀ e ∈ Event.moved c.slot.lastGeneration c.slot.phase .draining ::
        (actions.map .handed ++ [.moved c.slot.lastGeneration .draining p]),
      e.Under c.slot.lastGeneration := by
    intro p actions hp e he
    rcases mem_cons.mp he with rfl | he
    · exact ⟨rfl, fun h => by cases h⟩
    · rcases mem_append.mp he with he | he
      · exact Event.under_handed _ he
      · obtain rfl := mem_singleton.mp he
        exact ⟨rfl, hp⟩
  have hheld : c.slot.phase.live = true → c.slot.phase ≠ .disabled := by
    intro hlive hp
    rw [hp] at hlive
    cases hlive
  cases hout with
  | refused heq => exact heq ▸ .refl c
  | done hlive hphase hgrant hlast howned hactions htrace =>
    exact ⟨hlast, fun _ => hphase, _, htrace, hdrained _ _ (fun h => by cases h),
      fun _ => hheld hlive⟩
  | failed hlive hphase hgrant hlast howned hactions htrace =>
    exact ⟨hlast, fun hp => absurd hp (hheld hlive), _, htrace,
      hdrained _ _ (fun h => by cases h), fun _ => hheld hlive⟩

theorem lowers_reset (confirmed : Except PyError Bool) :
    c.Lowers (c.resetFailedSafe confirmed).1 := by
  rcases reset_cases (c := c) confirmed with ⟨e, heq⟩ | ⟨hphase, heq⟩
  · rw [heq]
    exact .refl c
  · rw [heq]
    refine ⟨rfl, fun _ => rfl, _, rfl, ?_, fun _ hp => ?_⟩
    · intro e he
      obtain rfl := mem_singleton.mp he
      exact ⟨rfl, fun h => by cases h⟩
    · rw [hphase] at hp
      cases hp

theorem AttachOutcome.begun {payload : Payload} {env : AttachEnv} {grant : ActiveDisplayGrant}
    {raised : Option PyError} (hout : AttachOutcome c payload env grant c' raised) :
    ∃ seg, c'.trace = c.trace ++ seg ∧ begunOf seg = [grant.generation] := by
  cases hout with
  | connected hphase hseg htrace => exact ⟨_, htrace, hseg.begunOf⟩
  | failed hphase hseg hactions htrace =>
    refine ⟨_, htrace, ?_⟩
    rw [begunOf_append, hseg.begunOf]
    exact congrArg (grant.generation :: ·) (begunOf_handed _)
  | late hphase hseg hactions hhanded hraised hall htrace =>
    refine ⟨_, htrace, ?_⟩
    rw [begunOf_append, hseg.begunOf]
    exact congrArg (grant.generation :: ·) (begunOf_handed _)

end DisplaySlotController

/-! ## The core -/

/-- A grant names a generation. -/
def NamesGeneration (recovery : Option Payload) (generation : ℤ) : Prop :=
  recovery.bind (·.lookup "generation") = some (.int generation)

theorem lookup_generation {p : Payload} {grant : ActiveDisplayGrant}
    (h : ActiveDisplayGrant.fromVerifiedPayload p = .ok grant) :
    p.lookup "generation" = some (.int grant.generation) := by
  have hitem : grantInteger (itemOf p "generation") =
      .ok ⟨grant.generation, grant.generation_pos⟩ := by
    unfold ActiveDisplayGrant.fromVerifiedPayload at h
    simp only [bind, Except.bind, pure, Except.pure, throw, throwThe, MonadExceptOf.throw] at h
    split at h
    case isFalse => cases h
    iterate 4
      split at h
      case h_1 => cases h
    split at h
    case isTrue => cases h
    split at h
    case h_1 => cases h
    split at h
    case h_1 => cases h
    next generation hgeneration =>
    iterate 8
      split at h
      case h_1 => cases h
    cases h
    exact hgeneration
  unfold grantInteger itemOf at hitem
  cases hlookup : p.lookup "generation" with
  | none => rw [hlookup] at hitem; cases hitem
  | some value =>
    rw [hlookup] at hitem
    cases value with
    | int n =>
      simp only [Option.getD_some] at hitem
      split at hitem
      · cases hitem
        rfl
      · cases hitem
    | _ => cases hitem

namespace DisplayDockServiceCore

variable {core core' : DisplayDockServiceCore}

/-- Outside `disabled` the recovery grant names the last generation. -/
def Named (core : DisplayDockServiceCore) : Prop :=
  core.owner.phase ≠ .disabled →
    NamesGeneration core.recoveryGrant core.owner.controller.slot.lastGeneration

/-- An operation that accepts nothing and keeps the recovery grant of what is held. -/
structure Lowers (core core' : DisplayDockServiceCore) : Prop where
  controller : core.owner.controller.Lowers core'.owner.controller
  consistent : core'.owner.controller.Consistent
  kept : core'.owner.phase ≠ .disabled → core'.recoveryGrant = core.recoveryGrant

theorem Lowers.refl (h : core.owner.controller.Consistent) : core.Lowers core :=
  ⟨.refl _, h, fun _ => rfl⟩

theorem Lowers.trans {core'' : DisplayDockServiceCore} (h : core.Lowers core')
    (h' : core'.Lowers core'') : core.Lowers core'' := by
  refine ⟨h.controller.trans h'.controller, h'.consistent, fun hp => ?_⟩
  exact (h'.kept hp).trans (h.kept fun hp' => hp (h'.controller.down hp'))

theorem Lowers.named (h : core.Lowers core') (hnamed : core.Named) : core'.Named := by
  intro hp
  rw [h.kept hp, h.controller.last]
  exact hnamed fun hp' => hp (h.controller.down hp')

theorem lowers_finish (core : DisplayDockServiceCore) (h : core.owner.controller.Consistent)
    (raised : Option PyError) (requestId : Option String) (env : HandleEnv) :
    core.Lowers (core.finish raised requestId env).1 := by
  obtain ⟨howner, hkept, -⟩ := finish_spec core raised requestId env
  refine ⟨?_, ?_, fun hp => ?_⟩
  · rw [howner]
    exact .refl _
  · rw [howner]
    exact h
  · rw [howner] at hp
    rw [hkept, if_neg fun hboth => hp hboth.2]

section

variable (h : core.owner.controller.Consistent)
include h

theorem lowers_shutdown (performs : Performs) :
    core.owner.controller.Lowers (core.owner.shutdown performs).1.controller ∧
      (core.owner.shutdown performs).1.controller.Consistent := by
  rcases shutdown_spec h performs with ⟨-, heq, -, -⟩ | ⟨hout, -⟩
  · rw [heq]
    exact ⟨.refl _, h⟩
  · exact ⟨DisplaySlotController.lowers_of_detached hout, h.of_detached hout⟩

theorem lowers_command (isalnum : Char → Bool) {command : Command} (hcommand : command ≠ .attach)
    (parsed : Payload) (env : HandleEnv) :
    core.Lowers (core.command isalnum command parsed env).1 := by
  cases command with
  | attach => exact absurd rfl hcommand
  | status => exact .refl h
  | detach =>
    unfold command
    dsimp only
    split
    · exact .refl h
    · next generation _ =>
      obtain ⟨hout, -⟩ := detach_spec h generation env.performs
      have hcons := h.of_detached hout
      cases hr : core.owner.detach generation env.performs with
      | mk owner raised =>
        rw [hr] at hout hcons
        have hlowers := DisplaySlotController.lowers_of_detached hout
        cases raised with
        | some e => exact ⟨hlowers, hcons, fun _ => rfl⟩
        | none =>
          refine ⟨hlowers, hcons, fun hp => ?_⟩
          cases hout with
          | done _ hphase => exact absurd hphase hp
  | reset =>
    have hlowers := DisplaySlotController.lowers_reset (c := core.owner.controller) env.confirmed
    have hcons := h.reset env.confirmed
    unfold command resetFailedSafe
    dsimp only
    rcases DisplaySlotController.reset_cases (c := core.owner.controller) env.confirmed with
      ⟨e, heq⟩ | ⟨hphase, heq⟩
    · rw [heq]
      exact .refl h
    · rw [heq] at hlowers hcons ⊢
      exact ⟨hlowers, hcons, fun hp => absurd rfl hp⟩
  | shutdown =>
    obtain ⟨hlowers, hcons⟩ := lowers_shutdown h env.performs
    unfold command
    dsimp only
    cases hr : core.owner.shutdown env.performs with
    | mk owner raised =>
      rw [hr] at hlowers hcons
      cases raised with
      | some e => exact ⟨hlowers, hcons, fun _ => rfl⟩
      | none => exact ⟨hlowers, hcons, fun hp => if_neg hp⟩

theorem lowers_poll (env : PollEnv) (savedAt : ℚ) :
    core.Lowers (core.poll env savedAt).1 := by
  have hpolls := polls_poll h env
  have hcons := h.of_keeps hpolls.keeps
  have hlowers := h.lowers_of_keeps hpolls.keeps
  unfold poll
  cases hr : core.owner.poll env with
  | mk owner result =>
    rw [hr] at hcons hlowers
    cases result with
    | error e => exact ⟨hlowers, hcons, fun _ => rfl⟩
    | ok changed => exact ⟨hlowers, hcons, fun _ => rfl⟩

theorem lowers_converge (performs : Performs) (confirmed : Except PyError Bool)
    : core.Lowers (core.converge performs confirmed).1 := by
  obtain ⟨hlowers, hcons⟩ := lowers_shutdown h performs
  unfold converge
  cases hr : core.owner.shutdown performs with
  | mk owner raised =>
    rw [hr] at hlowers hcons
    cases raised with
    | some e => exact ⟨hlowers, hcons, fun _ => rfl⟩
    | none =>
      dsimp only
      by_cases hfailed : owner.status.phase = .failedSafe
      · have hreset := DisplaySlotController.lowers_reset (c := owner.controller) confirmed
        have hcons' := hcons.reset confirmed
        rw [if_pos hfailed, resetFailedSafe]
        rcases DisplaySlotController.reset_cases (c := owner.controller) confirmed with
          ⟨e, heq⟩ | ⟨-, heq⟩
        · rw [heq]
          exact ⟨hlowers, hcons, fun _ => rfl⟩
        · rw [heq] at hreset hcons' ⊢
          dsimp only
          split
          · next hp => exact absurd rfl hp
          · exact ⟨hlowers.trans hreset, hcons', fun hp => absurd rfl hp⟩
      · rw [if_neg hfailed]
        dsimp only
        split
        · exact ⟨hlowers, hcons, fun _ => rfl⟩
        · next hp =>
          exact ⟨hlowers, hcons, fun hne => absurd (not_not.mp hp) hne⟩

theorem lowers_convergeShutdown (performs : Performs) (confirmed : Except PyError Bool)
    (savedAt : ℚ) :
    core.Lowers (core.convergeShutdown performs confirmed savedAt).1 := by
  have hflags : core.Lowers { core with accepting := false, stopRequested := true } :=
    ⟨.refl _, h, fun _ => rfl⟩
  have hdone := hflags.trans (lowers_converge hflags.consistent performs confirmed)
  unfold convergeShutdown
  split
  · next core' e heq =>
    rw [heq] at hdone
    exact ⟨hdone.controller, hdone.consistent, hdone.kept⟩
  · next core' heq =>
    rw [heq] at hdone
    exact hdone

end

/-- A start that goes through: the slot is disabled, and its watermark is not below the one it
had nor the one that was saved. -/
structure Restores (core core' : DisplayDockServiceCore) (store : Option DockStatus) : Prop where
  phase : core'.owner.phase = .disabled
  trace : core'.owner.controller.trace = core.owner.controller.trace
  last : core.owner.controller.slot.lastGeneration ≤ core'.owner.controller.slot.lastGeneration
  stored : ∀ status, store = some status →
    status.generation ≤ core'.owner.controller.slot.lastGeneration
  consistent : core'.owner.controller.Consistent

theorem load_eq {status loaded : DockStatus} (h : status.load = .ok loaded) : loaded = status := by
  unfold DockStatus.load at h
  split at h
  case isTrue => cases h
  split at h
  · split at h
    · cases h
    · split at h
      · cases h
      · exact (Except.ok.inj h).symm
  · split at h
    · cases h
    · exact (Except.ok.inj h).symm

/-- **A start** raises and leaves owner and recovery grant alone, or restores the watermark and
saves. -/
theorem start_cases (h : core.owner.controller.Consistent) (store : Option DockStatus)
    (recovered : Except PyError Bool) (now : ℚ) :
    ((core.start store recovered now).2.2 ≠ none ∧ (core.start store recovered now).2.1 = none ∧
        core.Lowers (core.start store recovered now).1) ∨
      (core.start store recovered now).2.2 = none ∧
        (core.start store recovered now).2.1 =
          some ((core.start store recovered now).1.publicStatus now) ∧
        core.Restores (core.start store recovered now).1 store := by
  have hraised : ∀ (core' : DisplayDockServiceCore) (e : PyError), core'.owner = core.owner →
      core'.recoveryGrant = core.recoveryGrant →
      (some e ≠ none ∧ (none : Option DockStatus) = none ∧ core.Lowers core') := by
    intro core' e howner hkept
    refine ⟨fun h => (by cases h), rfl, ?_, ?_, fun _ => hkept⟩
    · rw [howner]
      exact .refl _
    · rw [howner]
      exact h
  unfold start
  split
  · exact Or.inl (hraised _ _ rfl rfl)
  · next previous hprevious =>
    split
    · exact Or.inl (hraised _ _ rfl rfl)
    · exact Or.inl (hraised _ _ rfl rfl)
    · split
      · exact Or.inl (hraised _ _ rfl rfl)
      · next hphase =>
        have hphase : core.owner.phase = .disabled := not_not.mp hphase
        cases store with
        | none =>
          cases hprevious
          exact Or.inr ⟨rfl, rfl, hphase, rfl, le_refl _, fun _ hnone => (by cases hnone), h⟩
        | some status =>
          cases hload : status.load with
          | error e => simp [hload, Functor.map, Except.map] at hprevious
          | ok loaded =>
            obtain rfl := load_eq hload
            obtain rfl : previous = some loaded := by
              simpa [hload, Functor.map, Except.map] using hprevious.symm
            dsimp only
            rcases restore_spec (s := core.owner) loaded.generation with
              ⟨e, heq⟩ | ⟨hslot, heq⟩
            · rw [heq]
              exact Or.inl (hraised _ _ rfl rfl)
            · rw [heq]
              refine Or.inr ⟨rfl, rfl, hphase, rfl, le_max_left _ _, ?_, h.owned, h.granted, ?_,
                h.settled⟩
              · rintro status ⟨rfl⟩
                exact le_max_right _ _
              · intro grant hgrant
                rw [show core.owner.controller.slot.grant = some grant from hgrant] at hslot
                cases hslot

end DisplayDockServiceCore

/-! ## One operation -/

namespace DockWorld

open DisplayDockServiceCore

variable {isalnum : Char → Bool} {w : DockWorld}

/-- The operation is an attach that the slot of this core admits. -/
def AdmitsAttach (isalnum : Char → Bool) (w : DockWorld) : DockOp → Prop
  | .handle request peerUid env => ∃ verified recovery,
      w.core.attachOf isalnum request peerUid env = some (verified, recovery) ∧
        w.core.owner.controller.grant = none ∧
        (w.core.owner.controller.slot.beginAttach verified env.attach.attach.now).isOk = true
  | _ => False

/-- An attach that reaches the owner while a grant is held brings the generation that is held. -/
def RepeatsGeneration (isalnum : Char → Bool) (w : DockWorld) : DockOp → Prop
  | .handle request peerUid env => ∀ verified recovery,
      w.core.attachOf isalnum request peerUid env = some (verified, recovery) →
        w.core.owner.controller.grant ≠ none →
        NamesGeneration (some recovery) w.core.owner.controller.slot.generation
  | _ => True

/-- What an operation does to the generations, and what it saves. -/
inductive Advances (isalnum : Char → Bool) (w : DockWorld) (op : DockOp)
    (out : DisplayDockServiceCore × Option DockStatus) : Prop where
  | lowered (hlowers : w.core.owner.controller.Lowers out.1.owner.controller)
      (hcons : out.1.owner.controller.Consistent)
      (hnamed : RepeatsGeneration isalnum w op → out.1.Named)
      (hsaved : ∀ status, out.2 = some status → ∃ now, status = out.1.publicStatus now)
  | restored {now : ℚ} (hrestores : w.core.Restores out.1 w.store)
      (hsaved : out.2 = some (out.1.publicStatus now))
  | admitted {generation : ℤ} {seg : List Event} {now : ℚ} (hadmits : AdmitsAttach isalnum w op)
      (hlt : w.core.owner.controller.slot.lastGeneration < generation)
      (hlast : out.1.owner.controller.slot.lastGeneration = generation)
      (htrace : out.1.owner.controller.trace = w.core.owner.controller.trace ++ seg)
      (hbegun : begunOf seg = [generation]) (hcons : out.1.owner.controller.Consistent)
      (hnamed : out.1.Named) (hsaved : out.2 = some (out.1.publicStatus now))

theorem Advances.of_lowers {op : DockOp} {out : DisplayDockServiceCore × Option DockStatus}
    (hnamed : w.core.Named) (hlowers : w.core.Lowers out.1)
    (hsaved : ∀ status, out.2 = some status → ∃ now, status = out.1.publicStatus now) :
    Advances isalnum w op out :=
  .lowered hlowers.controller hlowers.consistent (fun _ => hlowers.named hnamed) hsaved

theorem advances_attach (h : w.core.owner.controller.Consistent) {request : Json} {peerUid : ℤ}
    {env : HandleEnv} {requestId : String} {parsed verified recovery : Payload}
    (hargs : attachArguments isalnum parsed env = .ok (verified, recovery))
    (hattach : w.core.attachOf isalnum request peerUid env = some (verified, recovery))
    (heq : w.core.handle isalnum request peerUid env =
      (w.core.command isalnum .attach parsed env).1.finish
        (w.core.command isalnum .attach parsed env).2 (some requestId) env) :
    Advances isalnum w (.handle request peerUid env)
      (w.perform isalnum (.handle request peerUid env)) := by
  obtain ⟨-, hcopied⟩ := attachArguments_ok hargs
  have hsaved := handle_saved heq
  have hperform : w.perform isalnum (.handle request peerUid env) =
      ((w.core.handle isalnum request peerUid env).1,
        (w.core.handle isalnum request peerUid env).2.2) := rfl
  rw [heq, command_attach hargs] at hperform
  rcases attach_spec h verified env.attach with
    ⟨e, hrefused, -⟩ | ⟨hg, grant, hbegin, howns, hiff, hgrant, hout⟩
  · rw [hrefused] at hperform
    have hdone := lowers_finish { w.core with recoveryGrant := some recovery } h (some e)
      (some requestId) env
    refine .lowered ?_ ?_ (fun hrepeats hp => ?_) fun status hs => ⟨_, hsaved status hs⟩
    · rw [hperform]
      exact hdone.controller
    · rw [hperform]
      exact hdone.consistent
    · rw [hperform] at hp ⊢
      rw [hdone.kept hp, hdone.controller.last]
      have hheld : w.core.owner.controller.grant ≠ none := by
        intro hnone
        exact hp (hdone.controller.down (h.owned.mp hnone))
      have hnames := hrepeats verified recovery hattach hheld
      rw [h.generation] at hnames
      exact hnames
  · obtain ⟨hparsed, -, hlt⟩ := RemoteDisplaySlot.admitted_spec hbegin
    obtain ⟨seg, htrace, hbegun⟩ := hout.begun
    have hcons : (w.core.owner.attach verified env.attach).1.controller.Consistent :=
      .of_outcome howns hout
    -- the core as the command leaves it
    let owned : DisplayDockServiceCore := { w.core with
      owner := (w.core.owner.attach verified env.attach).1, recoveryGrant := some recovery }
    have hdone : owned.Lowers
        (owned.finish (w.core.owner.attach verified env.attach).2 (some requestId) env).1 :=
      lowers_finish owned hcons _ _ env
    obtain ⟨howner, -, hfinal⟩ := finish_spec owned (w.core.owner.attach verified env.attach).2
      (some requestId) env
    have hnames : NamesGeneration (some recovery) grant.generation :=
      lookup_generation ((fromVerifiedPayload_recovery hcopied).trans hparsed)
    rw [hperform]
    refine .admitted ⟨verified, recovery, hattach, hg, by rw [hbegin]; rfl⟩ hlt ?_ ?_ hbegun
      hdone.consistent (fun hp => ?_) hfinal
    · rw [howner]
      exact howns.newest
    · rw [howner]
      exact htrace
    · rw [hdone.kept hp, howner]
      show NamesGeneration (some recovery)
        (w.core.owner.attach verified env.attach).1.controller.slot.lastGeneration
      rw [howns.newest]
      exact hnames

/-- **One operation** lowers the slot, restores the watermark, or admits one grant above it. -/
theorem advances (isalnum : Char → Bool) (w : DockWorld) (h : w.core.owner.controller.Consistent)
    (hnamed : w.core.Named) (op : DockOp) : Advances isalnum w op (w.perform isalnum op) := by
  cases op with
  | start recovered now =>
    rcases start_cases h w.store recovered now with ⟨-, hnone, hlowers⟩ | ⟨-, hsaved, hrestores⟩
    · refine .of_lowers hnamed hlowers fun status hs => ?_
      rw [show (w.perform isalnum (.start recovered now)).2 = none from hnone] at hs
      cases hs
    · exact .restored hrestores hsaved
  | handle request peerUid env =>
    cases w.core.handle_cases isalnum request peerUid env with
    | refused hattach heq =>
      have hperform : w.perform isalnum (.handle request peerUid env) = (w.core, none) := by
        simp only [perform, heq]
      rw [hperform]
      exact .of_lowers hnamed (.refl h) fun _ hs => by cases hs
    | @raised e requestId hattach heq =>
      refine .of_lowers hnamed ?_ fun status hs => ⟨_, handle_saved heq status hs⟩
      show w.core.Lowers (w.core.handle isalnum request peerUid env).1
      rw [heq]
      exact lowers_finish _ h _ _ env
    | @command command requestId parsed hcommand hattach heq =>
      refine .of_lowers hnamed ?_ fun status hs => ⟨_, handle_saved heq status hs⟩
      have hlowers := lowers_command h isalnum hcommand parsed env
      show w.core.Lowers (w.core.handle isalnum request peerUid env).1
      rw [heq]
      exact hlowers.trans (lowers_finish _ hlowers.consistent _ _ env)
    | attach hargs hattach heq => exact advances_attach h hargs hattach heq
  | poll env savedAt =>
    refine .of_lowers hnamed (lowers_poll h env savedAt) fun status hs => ⟨savedAt, ?_⟩
    exact poll_saved hs
  | convergeShutdown performs confirmed savedAt =>
    refine .of_lowers hnamed (lowers_convergeShutdown h performs confirmed savedAt)
      fun status hs => ⟨savedAt, ?_⟩
    exact convergeShutdown_saved hs

end DockWorld

/-! ## Processes -/

/-- One process at a time, the store that survives it, and the generations that the processes
before it accepted. -/
structure DockMachine where
  core : Option DisplayDockServiceCore := none
  store : Option DockStatus := none
  past : List ℤ := []

/-- What happens to a machine.  A crash comes between two operations, or inside one: after some
of its effects and before its save. -/
inductive MachineAction where
  | boot (recovered : Except PyError Bool) (now : ℚ)
  | perform (op : DockOp)
  | crash (during : Option DockOp) (effects : ℕ)

namespace DockMachine

variable (isalnum : Char → Bool) (spec : DisplaySlotSpec) (controllerUid : ℤ)

/-- The generations accepted so far, oldest first. -/
def begun (m : DockMachine) : List ℤ :=
  m.past ++ begunOf (m.core.elim [] fun core => core.owner.controller.trace)

/-- What an interrupted operation has done. -/
def effectsOf (w : DockWorld) (during : Option DockOp) (effects : ℕ) : List Event :=
  match during with
  | none => []
  | some op => ((w.perform isalnum op).1.owner.controller.trace.drop
      w.core.owner.controller.trace.length).take effects

/-- One action.  A process that cannot start is gone. -/
def step (m : DockMachine) (action : MachineAction) : DockMachine :=
  match m.core, action with
  | none, .boot recovered now =>
    match (DockWorld.boot spec controllerUid m.store).core.start m.store recovered now with
    | (core, saved, none) => { m with core := some core, store := saved.or m.store }
    | (_, saved, some _) => { m with store := saved.or m.store }
  | some core, .perform op =>
    let w := DockWorld.step isalnum ⟨core, m.store⟩ op
    { m with core := some w.core, store := w.store }
  | some core, .crash during effects =>
    { m with
      core := none
      past := m.begun ++ begunOf (effectsOf isalnum ⟨core, m.store⟩ during effects) }
  | _, _ => m

/-- **What a run must keep**: the accepted generations increase, and a crash outside `disabled`
leaves a saved status whose recovery grant names the generation of the slot. -/
def AcceptsOnce (m : DockMachine) (action : MachineAction) : Prop :=
  (m.step isalnum spec controllerUid action).begun.Pairwise (· < ·) ∧
    match m.core, action with
    | some core, .crash during effects =>
      let slot := slotAfter (core.owner.phase, core.owner.controller.slot.generation)
        (effectsOf isalnum ⟨core, m.store⟩ during effects)
      slot.1 ≠ .disabled → ∃ status, m.store = some status ∧
        NamesGeneration status.recoveryGrant slot.2
    | _, _ => True

/-- The condition: no crash falls between the admission of an attach and its save, and no attach
under a held grant brings another generation. -/
def SavesAttach (m : DockMachine) (action : MachineAction) : Prop :=
  match m.core, action with
  | some core, .perform op => DockWorld.RepeatsGeneration isalnum ⟨core, m.store⟩ op
  | some core, .crash (some op) effects =>
    DockWorld.AdmitsAttach isalnum ⟨core, m.store⟩ op → effects = 0
  | _, _ => True

/-- What holds of a running process. -/
structure Running (m : DockMachine) (core : DisplayDockServiceCore) : Prop where
  consistent : core.owner.controller.Consistent
  named : core.Named
  below : ∀ g ∈ m.begun, g ≤ core.owner.controller.slot.lastGeneration
  stored : ∃ status, m.store = some status ∧
    status.generation = core.owner.controller.slot.lastGeneration ∧
    (core.owner.phase ≠ .disabled → NamesGeneration status.recoveryGrant
      core.owner.controller.slot.lastGeneration)

/-- What holds between two actions: what was accepted is below the watermark, of the process or,
without one, of the store. -/
structure Inv (m : DockMachine) : Prop where
  increasing : m.begun.Pairwise (· < ·)
  stopped : m.core = none → ∀ g ∈ m.past, ∃ status, m.store = some status ∧ g ≤ status.generation
  running : ∀ core, m.core = some core → m.Running core

variable {isalnum spec controllerUid} {m : DockMachine} {core : DisplayDockServiceCore}

theorem begun_of_core (h : m.core = some core) :
    m.begun = m.past ++ begunOf core.owner.controller.trace := by
  rw [begun, h]
  rfl

theorem begun_of_none (h : m.core = none) : m.begun = m.past := by
  rw [begun, h]
  exact append_nil _

theorem Running.of_saved {now : ℚ} (hcons : core.owner.controller.Consistent) (hnamed : core.Named)
    (hbelow : ∀ g ∈ m.begun, g ≤ core.owner.controller.slot.lastGeneration)
    (hstore : m.store = some (core.publicStatus now)) : m.Running core :=
  ⟨hcons, hnamed, hbelow, _, hstore, hcons.generation, hnamed⟩

/-- **An operation** of a process that meets the condition. -/
theorem Inv.perform (h : m.Inv) (hcore : m.core = some core) {op : DockOp}
    (hok : DockWorld.RepeatsGeneration isalnum ⟨core, m.store⟩ op) :
    (m.step isalnum spec controllerUid (.perform op)).Inv := by
  have hrun := h.running core hcore
  have hincreasing := h.increasing
  have hadvances := DockWorld.advances isalnum ⟨core, m.store⟩ hrun.consistent hrun.named op
  have hstep : m.step isalnum spec controllerUid (.perform op) =
      { m with
        core := some (DockWorld.perform isalnum ⟨core, m.store⟩ op).1
        store := (DockWorld.perform isalnum ⟨core, m.store⟩ op).2.or m.store } := by
    simp only [step, hcore, DockWorld.step]
  have hbelow := hrun.below
  rw [begun_of_core hcore] at hincreasing hbelow
  rw [hstep]
  generalize DockWorld.perform isalnum ⟨core, m.store⟩ op = out at hadvances
  obtain ⟨core', saved⟩ := out
  -- a new process state: the history ends in its own trace
  suffices hall : (m.past ++ begunOf core'.owner.controller.trace).Pairwise (· < ·) ∧
      ({ m with core := some core', store := saved.or m.store } : DockMachine).Running core' by
    refine ⟨hall.1, fun hnone => (by cases hnone), ?_⟩
    rintro core'' ⟨rfl⟩
    exact hall.2
  cases hadvances with
  | lowered hlowers hcons hnamed hsaved =>
    obtain ⟨seg, htrace, hunder, -⟩ := hlowers.events
    have hbegun : begunOf core'.owner.controller.trace = begunOf core.owner.controller.trace := by
      rw [htrace, begunOf_append, begunOf_under hunder, append_nil]
    have hlast := hlowers.last
    have hbelow' : ∀ g ∈ m.past ++ begunOf core'.owner.controller.trace,
        g ≤ core'.owner.controller.slot.lastGeneration := by
      rw [hbegun, hlast]
      exact hbelow
    refine ⟨by rw [hbegun]; exact hincreasing, ?_⟩
    cases saved with
    | some status =>
      obtain ⟨now, hstatus⟩ := hsaved status rfl
      exact .of_saved hcons (hnamed hok) hbelow' (congrArg some hstatus)
    | none =>
      obtain ⟨status, hstore, hgeneration, hnames⟩ := hrun.stored
      refine ⟨hcons, hnamed hok, hbelow', status, hstore, hgeneration.trans hlast.symm, ?_⟩
      intro hp
      rw [hlast]
      exact hnames fun hp' => hp (hlowers.down hp')
  | restored hrestores hsaved =>
    have htrace : core'.owner.controller.trace = core.owner.controller.trace := hrestores.trace
    refine ⟨by rw [htrace]; exact hincreasing, ?_⟩
    refine .of_saved hrestores.consistent (fun hp => absurd hrestores.phase hp) ?_
      (congrArg (·.or m.store) hsaved)
    intro g hg
    rw [begun_of_core rfl, htrace] at hg
    exact (hbelow g hg).trans hrestores.last
  | @admitted generation seg now hadmits hlt hlast htrace hbegun hcons hnamed hsaved =>
    have hall : m.past ++ begunOf core'.owner.controller.trace =
        (m.past ++ begunOf core.owner.controller.trace) ++ [generation] := by
      rw [show core'.owner.controller.trace = _ from htrace, begunOf_append, hbegun,
        append_assoc]
    constructor
    · rw [hall, pairwise_append]
      refine ⟨hincreasing, pairwise_singleton _ _, fun g hg g' hg' => ?_⟩
      obtain rfl := mem_singleton.mp hg'
      exact lt_of_le_of_lt (hbelow g hg) hlt
    · refine .of_saved hcons hnamed ?_ (congrArg (·.or m.store) hsaved)
      intro g hg
      rw [begun_of_core rfl] at hg
      rw [show m.past ++ begunOf core'.owner.controller.trace = _ from hall] at hg
      rw [show core'.owner.controller.slot.lastGeneration = generation from hlast]
      rcases mem_append.mp hg with hg | hg
      · exact le_of_lt (lt_of_le_of_lt (hbelow g hg) hlt)
      · exact le_of_eq (mem_singleton.mp hg)

theorem Running.effects_under (h : m.Running core) {during : Option DockOp} {effects : ℕ}
    (hok : ∀ op, during = some op →
      DockWorld.AdmitsAttach isalnum ⟨core, m.store⟩ op → effects = 0) :
    (∀ e ∈ effectsOf isalnum ⟨core, m.store⟩ during effects,
        e.Under core.owner.controller.slot.lastGeneration) ∧
      (effectsOf isalnum ⟨core, m.store⟩ during effects ≠ [] → core.owner.phase ≠ .disabled) := by
  have hnone : ∀ events : List Event, events = [] →
      (∀ e ∈ events, e.Under core.owner.controller.slot.lastGeneration) ∧
        (events ≠ [] → core.owner.phase ≠ .disabled) := by
    rintro events rfl
    exact ⟨fun _ he => absurd he not_mem_nil, fun hne => absurd rfl hne⟩
  cases during with
  | none => exact hnone _ rfl
  | some op =>
    have hadvances := DockWorld.advances isalnum ⟨core, m.store⟩ h.consistent h.named op
    unfold effectsOf
    dsimp only
    cases hadvances with
    | lowered hlowers hcons hnamed hsaved =>
      obtain ⟨seg, htrace, hunder, hheld⟩ := hlowers.events
      rw [htrace, drop_left]
      refine ⟨fun e he => hunder e (mem_of_mem_take he), fun hne => hheld ?_⟩
      rintro rfl
      exact hne take_nil
    | restored hrestores hsaved =>
      rw [show (DockWorld.perform isalnum ⟨core, m.store⟩ op).1.owner.controller.trace =
        core.owner.controller.trace from hrestores.trace, drop_length, take_nil]
      exact hnone _ rfl
    | admitted hadmits =>
      rw [hok op rfl hadmits, take_zero]
      exact hnone _ rfl

/-- **A crash** that meets the condition. -/
theorem Inv.crash (h : m.Inv) (hcore : m.core = some core) {during : Option DockOp} {effects : ℕ}
    (hok : ∀ op, during = some op →
      DockWorld.AdmitsAttach isalnum ⟨core, m.store⟩ op → effects = 0) :
    AcceptsOnce isalnum spec controllerUid m (.crash during effects) ∧
      (m.step isalnum spec controllerUid (.crash during effects)).Inv := by
  have hrun := h.running core hcore
  obtain ⟨hunder, hheld⟩ := hrun.effects_under hok
  obtain ⟨status, hstore, hgeneration, hnames⟩ := hrun.stored
  have hstep : m.step isalnum spec controllerUid (.crash during effects) =
      { m with core := none, past := m.begun } := by
    simp only [step, hcore, begunOf_under hunder, append_nil]
  have hbegun : (m.step isalnum spec controllerUid (.crash during effects)).begun = m.begun := by
    rw [hstep]
    exact begun_of_none rfl
  refine ⟨⟨by rw [hbegun]; exact h.increasing, ?_⟩, ?_⟩
  · simp only [hcore]
    rw [hrun.consistent.generation]
    intro hp
    refine ⟨status, hstore, ?_⟩
    rw [slotAfter_under _ hunder]
    apply hnames
    intro hdisabled
    by_cases hevents : effectsOf isalnum ⟨core, m.store⟩ during effects = []
    · rw [hevents] at hp
      exact hp hdisabled
    · exact hheld hevents hdisabled
  · rw [hstep]
    refine ⟨?_, fun _ g hg => ⟨status, hstore, ?_⟩, fun _ hsome => by cases hsome⟩
    · rw [begun_of_none rfl]
      exact h.increasing
    · rw [hgeneration]
      exact hrun.below g hg

/-- **A new process** takes the watermark over from the store. -/
theorem Inv.boot (h : m.Inv) (hcore : m.core = none) (recovered : Except PyError Bool) (now : ℚ) :
    (m.step isalnum spec controllerUid (.boot recovered now)).Inv := by
  have hcons := (DockWorld.recorded_boot spec controllerUid m.store).consistent
  have hincreasing := h.increasing
  rw [begun_of_none hcore] at hincreasing
  have hcases := start_cases hcons m.store recovered now
  cases hr : (DockWorld.boot spec controllerUid m.store).core.start m.store recovered now with
  | mk core out =>
    obtain ⟨saved, raised⟩ := out
    rw [hr] at hcases
    rcases hcases with ⟨hraised, hsaved, -⟩ | ⟨hraised, hsaved, hrestores⟩
    · obtain ⟨e, rfl⟩ := Option.ne_none_iff_exists'.mp hraised
      obtain rfl : saved = none := hsaved
      have hstep : m.step isalnum spec controllerUid (.boot recovered now) = m := by
        simp only [step, hcore, hr, Option.none_or]
        rw [← hcore]
      rw [hstep]
      exact h
    · obtain rfl : raised = none := hraised
      obtain rfl : saved = some (core.publicStatus now) := hsaved
      have hstep : m.step isalnum spec controllerUid (.boot recovered now) =
          { m with core := some core, store := some (core.publicStatus now) } := by
        simp only [step, hcore, hr, Option.some_or]
      have htrace : core.owner.controller.trace = [] := hrestores.trace
      have hbegun : ({ m with core := some core, store := some (core.publicStatus now) } :
          DockMachine).begun = m.past := by
        rw [begun_of_core rfl, htrace]
        exact append_nil _
      rw [hstep]
      refine ⟨?_, fun hnone => (by cases hnone), ?_⟩
      · rw [hbegun]
        exact hincreasing
      · rintro core' ⟨rfl⟩
        refine .of_saved hrestores.consistent (fun hp => absurd hrestores.phase hp) ?_ rfl
        intro g hg
        rw [hbegun] at hg
        obtain ⟨status, hstore, hle⟩ := h.stopped hcore g hg
        exact hle.trans (hrestores.stored status hstore)

/-- **One action** that meets the condition. -/
theorem Inv.accepts (h : m.Inv) (action : MachineAction) (hok : SavesAttach isalnum m action) :
    AcceptsOnce isalnum spec controllerUid m action ∧
      (m.step isalnum spec controllerUid action).Inv := by
  have hsame : m.step isalnum spec controllerUid action = m →
      (m.step isalnum spec controllerUid action).Inv := fun heq => heq.symm ▸ h
  cases hcore : m.core with
  | none =>
    have hinv : (m.step isalnum spec controllerUid action).Inv := by
      cases action with
      | boot recovered now => exact h.boot hcore recovered now
      | perform op => exact hsame (by simp only [step, hcore])
      | crash during effects => exact hsame (by simp only [step, hcore])
    refine ⟨⟨hinv.increasing, ?_⟩, hinv⟩
    simp only [hcore]
  | some core =>
    simp only [SavesAttach, hcore] at hok
    cases action with
    | boot recovered now =>
      have hinv := hsame (by simp only [step, hcore])
      refine ⟨⟨hinv.increasing, ?_⟩, hinv⟩
      simp only [hcore]
    | perform op =>
      have hinv : (m.step isalnum spec controllerUid (.perform op)).Inv := h.perform hcore hok
      refine ⟨⟨hinv.increasing, ?_⟩, hinv⟩
      simp only [hcore]
    | crash during effects =>
      refine h.crash hcore fun op hop => ?_
      subst hop
      exact hok

/-- **No generation is accepted twice.**  In every run over any store in which no crash falls
between the admission of an attach and its save, and no attach under a held grant brings another
generation, the accepted generations increase strictly, and every crash outside `disabled`
leaves a status that names the generation of the slot. -/
theorem generations_accepted_once (isalnum : Char → Bool) (spec : DisplaySlotSpec)
    (controllerUid : ℤ) (store : Option DockStatus) (actions : List MachineAction)
    (h : Meets (step isalnum spec controllerUid) (SavesAttach isalnum) { store } actions) :
    Meets (step isalnum spec controllerUid) (AcceptsOnce isalnum spec controllerUid) { store }
      actions := by
  have hinit : ({ store } : DockMachine).Inv :=
    ⟨List.Pairwise.nil, fun _ g hg => absurd hg List.not_mem_nil, fun _ hsome => by cases hsome⟩
  generalize ({ store } : DockMachine) = m at h hinit
  induction actions generalizing m with
  | nil => trivial
  | cons action rest ih =>
    obtain ⟨haccepts, hinv⟩ := hinit.accepts action h.1
    exact ⟨haccepts, ih _ h.2 hinv⟩

/-! ## A crash inside an attach -/

/-- The authority verifies generation 1, and every action succeeds. -/
def brightOutputEnv : HandleEnv where
  verified := .ok (deskGrant 1 "s1")
  attach := ⟨{
    now := 0
    performs _ := none
    during := []
    after _ := ⟨0, 0, none⟩
    connected := 0 }, 0, 0⟩
  performs _ := none
  confirmed := .ok true
  answeredAt := 0
  savedAt := 0

/-- The service stops as the slot has admitted generation 1; the next one is asked to attach the
same grant. -/
def lostAttach : List MachineAction :=
  [.boot (.ok true) 0,
    .crash (some (.handle (DockWorld.attachRequest "00000000000000000000000000000000" "s1") 0
      brightOutputEnv)) 1,
    .boot (.ok true) 0,
    .perform (.handle (DockWorld.attachRequest "00000000000000000000000000000001" "s1") 0
      brightOutputEnv)]

theorem lostAttach_begun :
    (run (step Char.isAlphanum deskSlot 0) {} lostAttach).begun = [1, 1] := by
  decide +kernel

theorem lostAttach_accepted_twice :
    ¬ Meets (step Char.isAlphanum deskSlot 0) (AcceptsOnce Char.isAlphanum deskSlot 0) {}
      lostAttach := by
  rintro ⟨-, -, -, ⟨hincreasing, -⟩, -⟩
  have hbegun := lostAttach_begun
  simp only [lostAttach, run_cons, run_nil] at hbegun
  rw [hbegun] at hincreasing
  exact absurd hincreasing (by decide)

/-- A service that attaches and stops between two requests meets the condition. -/
theorem generations_accepted_once_savedAttach :
    Meets (step Char.isAlphanum deskSlot 0) (AcceptsOnce Char.isAlphanum deskSlot 0) {}
      [.boot (.ok true) 0,
        .perform (.handle (DockWorld.attachRequest "00000000000000000000000000000000" "s1") 0
          brightOutputEnv),
        .crash none 0] := by
  refine generations_accepted_once Char.isAlphanum deskSlot 0 none _ ⟨trivial, ?_, ?_, trivial⟩
  · intro verified recovery hattach hheld
    exact absurd rfl hheld
  · trivial

end DockMachine

end DisplayDock
