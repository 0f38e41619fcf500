/-
# Complete teardown of a display slot

The invariant of the controller: its trace is a complete teardown, its slot is live exactly
when the trace says so, and outside `disabled` both hold a grant.

Every operation keeps it except an attach whose carrier connects when the lease is over.
There the teardown is performed by a loop that stops at the first failure, and if nothing
fails the attach returns with the slot failed safe.  `ConnectsInTime` says on the inputs of
the operation when this does not happen, and `complete_teardown` that nothing else can go
wrong.
-/
import QDistro.SlotOutcomes

namespace DisplayDock

open JsonText TransitionSystem

/-! ## Departures -/

theorem CompleteTeardown.of_append {a b : List Event} (h : CompleteTeardown (a ++ b)) :
    CompleteTeardown b := by
  induction a with
  | nil => exact h
  | cons e rest ih =>
    cases e with
    | handed action => exact ih h
    | moved g p q => exact ih h.2

theorem CompleteTeardown.depart {t : List Event} {live : Bool} {actions : List SlotAction}
    (rest : List Event) (ht : CompleteTeardown t) (hlive : liveFrom live t = true)
    (hactions : actions.map SlotAction.kind = teardownKinds) (hrest : CompleteTeardown rest)
    (hnone : handedUntilLive rest = []) (g : ℤ) (p q : SlotPhase) :
    CompleteTeardown (t ++ Event.moved g p q :: (actions.map .handed ++ rest)) := by
  refine ht.append ⟨fun _ _ => ?_, ?_⟩ (Or.inl hlive)
  · rw [handedUntilLive_handed, hnone, List.append_nil, hactions]
  · rw [completeTeardown_handed]
    exact hrest

theorem Opening.spec {g : ℤ} {p : SlotPhase} {seg : List Event} (h : Opening g p seg) :
    CompleteTeardown seg ∧ handedUntilLive seg = [] ∧ p.live = true ∧
      ∀ live, liveFrom live seg = true := by
  cases h with
  | enabling handed =>
    refine ⟨⟨fun h => (by cases h), ?_⟩, rfl, rfl, fun live => ?_⟩
    · rw [← List.append_nil (handed.map Event.handed), completeTeardown_handed]
      trivial
    · exact liveFrom_handed _ _
  | active handed handed' =>
    refine ⟨⟨fun h => (by cases h), ?_⟩, rfl, rfl, fun live => ?_⟩
    · show CompleteTeardown (_ ++ _)
      rw [completeTeardown_handed]
      refine ⟨fun _ h => (by cases h), ?_⟩
      rw [← List.append_nil (handed'.map Event.handed), completeTeardown_handed]
      trivial
    · rw [liveFrom_append]
      exact liveFrom_handed _ _

/-! ## The invariant -/

namespace DisplaySlotController

variable {c : DisplaySlotController} {payload : Payload} {grant : ActiveDisplayGrant}

/-- What holds between two operations. -/
structure Inv (c : DisplaySlotController) : Prop extends c.Consistent where
  complete : CompleteTeardown c.trace
  traced : liveFrom false c.trace = c.slot.phase.live

theorem Inv.of_keeps {c' : DisplaySlotController} (h : c.Inv) (hk : Keeps c c') : c'.Inv := by
  refine ⟨h.toConsistent.of_keeps hk, ?_, ?_⟩
  · cases hk with
    | stays hphase hgrant hlast howned htrace =>
      rw [htrace]
      exact h.complete
    | fails hlive hphase hgrant hlast howned hactions htrace =>
      have hcomplete := h.complete.depart [] (h.traced.trans hlive) hactions trivial rfl
      rw [htrace]
      simpa only [List.append_nil] using hcomplete _ _ _
  · cases hk with
    | stays hphase hgrant hlast howned htrace =>
      rw [htrace, hphase]
      exact h.traced
    | fails hlive hphase hgrant hlast howned hactions htrace =>
      rw [htrace, hphase, liveFrom_append]
      exact liveFrom_handed _ _

theorem Inv.detach (h : c.Inv) (generation : ℤ) (performs : Performs) :
    (c.detach generation performs).1.Inv := by
  have hcases := h.toConsistent.detach_cases generation performs
  have hcons := h.toConsistent.of_detached hcases
  generalize (c.detach generation performs).1 = c', (c.detach generation performs).2 = raised
    at hcons hcases ⊢
  cases hcases with
  | refused heq => exact heq ▸ h
  | done hlive hphase hgrant hlast howned hactions htrace
  | failed hlive hphase hgrant hlast howned hactions htrace =>
    refine ⟨hcons, ?_, ?_⟩
    · rw [htrace]
      refine h.complete.depart _ (h.traced.trans hlive) hactions ?_ rfl _ _ _
      exact ⟨fun h => (by cases h), trivial⟩
    · rw [htrace, hphase, liveFrom_append, liveFrom, liveFrom_append]
      rfl

theorem Inv.reset (h : c.Inv) (confirmed : Except PyError Bool) :
    (c.resetFailedSafe confirmed).1.Inv := by
  have hcons := h.toConsistent.reset confirmed
  rcases reset_cases (c := c) confirmed with ⟨e, heq⟩ | ⟨hphase, heq⟩
  · rw [heq]
    exact h
  · rw [heq] at hcons ⊢
    refine ⟨hcons, ?_, ?_⟩
    · have hquiet : liveFrom false c.trace = true ∨
          handedUntilLive [.moved c.slot.lastGeneration .failedSafe .disabled] = [] := Or.inr rfl
      exact h.complete.append ⟨fun h => (by cases h), trivial⟩ hquiet
    · rw [liveFrom_append]
      rfl

/-! ## Runs -/

/-- What must hold of one operation: the trace after it is a complete teardown, and an attach
returns normally only with the slot active. -/
def TearsDown (c : DisplaySlotController) (op : Op) : Prop :=
  CompleteTeardown (c.step op).trace ∧
    match op with
    | .attach payload env =>
      (c.attach payload env).2 = none → (c.attach payload env).1.slot.phase = .active
    | _ => True

/-- The condition: an attach that gets as far as `carrier_connected` does so under its lease, or
of the six teardown actions only the last raises. -/
def ConnectsInTime (c : DisplaySlotController) : Op → Prop
  | .attach payload env =>
    c.grant = none → ∀ grant, ReachesCarrier c.slot payload env grant → LateAt env grant →
      (∀ kind ∈ teardownKinds.dropLast, env.performs kind = none) ∧
        env.performs .peerUnblankPanel ≠ none
  | _ => True

theorem Inv.of_outcome {env : AttachEnv} {c' : DisplaySlotController} {raised : Option PyError}
    (howns : c'.Owns payload grant) (hout : AttachOutcome c payload env grant c' raised)
    (hcomplete : CompleteTeardown c'.trace) : c'.Inv := by
  refine ⟨.of_outcome howns hout, hcomplete, ?_⟩
  cases hout with
  | connected hphase hseg htrace =>
    rw [htrace, hphase, liveFrom_append]
    exact hseg.spec.2.2.2 _
  | failed hphase hseg hactions htrace =>
    rw [htrace, hphase, liveFrom_append, liveFrom_append]
    exact liveFrom_handed _ _
  | late hphase hseg hactions hhanded hraised hall htrace =>
    rw [htrace, hphase, liveFrom_append, liveFrom_append]
    exact liveFrom_handed _ _

theorem Inv.complete_failed (h : c.Inv) {g : ℤ} {p : SlotPhase} {seg : List Event}
    {actions : List SlotAction} (hseg : Opening g p seg)
    (hactions : actions.map SlotAction.kind = teardownKinds) :
    CompleteTeardown (c.trace ++ (seg ++ Event.moved g p .failedSafe :: actions.map .handed)) := by
  obtain ⟨hcomplete, hnone, -, hlive⟩ := hseg.spec
  have hopened : CompleteTeardown (c.trace ++ seg) := by
    have hquiet : liveFrom false c.trace = true ∨ handedUntilLive seg = [] := Or.inr hnone
    exact h.complete.append hcomplete hquiet
  have hup : liveFrom false (c.trace ++ seg) = true := by
    rw [liveFrom_append]
    exact hlive _
  have hdepart := hopened.depart [] hup hactions trivial rfl g p .failedSafe
  rwa [List.append_nil, List.append_assoc] at hdepart

theorem complete_late {t seg : List Event} {g : ℤ} {actions handed : List SlotAction}
    (hactions : actions.map SlotAction.kind = teardownKinds) (hpre : handed <+: actions)
    (h : CompleteTeardown (t ++ (seg ++ Event.moved g .enabling .failedSafe :: handed.map .handed))) :
    handed = actions := by
  have hkinds := h.of_append.of_append.1 rfl rfl
  rw [← List.append_nil (handed.map Event.handed), handedUntilLive_handed] at hkinds
  have hlen : handed.length = actions.length := by
    have hlength := congrArg List.length (hkinds.trans hactions.symm)
    simpa [handedUntilLive] using hlength
  exact hpre.eq_of_length hlen

theorem Inv.tearsDown_refused (h : c.Inv) {env : AttachEnv} {e : PyError}
    (heq : c.attach payload env = (c, some e)) :
    TearsDown c (.attach payload env) ∧ (c.attach payload env).1.Inv := by
  refine ⟨⟨?_, fun hnone => ?_⟩, ?_⟩
  · show CompleteTeardown (c.attach payload env).1.trace
    rw [heq]
    exact h.complete
  · rw [heq] at hnone
    cases hnone
  · rw [heq]
    exact h

/-- **One attach** tears down completely and returns only from `active` exactly when it meets
the condition. -/
theorem Inv.tearsDown_attach (h : c.Inv) (payload : Payload) (env : AttachEnv) :
    (TearsDown c (.attach payload env) ↔ ConnectsInTime c (.attach payload env)) ∧
      (TearsDown c (.attach payload env) → (c.attach payload env).1.Inv) := by
  cases hg : c.grant with
  | some owned =>
    have heq : c.attach payload env =
        (c, some (controllerError "display controller already owns a grant")) := by
      simp only [attach, hg]
    obtain ⟨htears, hinv⟩ := h.tearsDown_refused heq
    refine ⟨iff_of_true htears fun hnone => ?_, fun _ => hinv⟩
    rw [hg] at hnone
    cases hnone
  | none =>
    rcases attach_cases hg (h.owned.mp hg) payload env with ⟨e, e', heq, hrefused⟩ |
      ⟨grant, hbegin, howns, -, hout⟩
    · obtain ⟨htears, hinv⟩ := h.tearsDown_refused heq
      refine ⟨iff_of_true htears fun _ grant hreach => ?_, fun _ => hinv⟩
      rw [hreach.begins] at hrefused
      cases hrefused
    · have hcond : ConnectsInTime c (.attach payload env) ↔
          (ReachesCarrier c.slot payload env grant → LateAt env grant →
            (∀ kind ∈ teardownKinds.dropLast, env.performs kind = none) ∧
              env.performs .peerUnblankPanel ≠ none) := by
        refine ⟨fun hc => hc hg grant, fun hc _ grant' hreach hlate => ?_⟩
        have heq := hreach.begins.symm.trans hbegin
        injection heq with heq
        injection heq with hslot
        obtain rfl := RemoteDisplaySlot.admitted_injective hslot
        exact hc hreach hlate
      have htears : TearsDown c (.attach payload env) ↔
          CompleteTeardown (c.attach payload env).1.trace ∧
            ((c.attach payload env).2 = none → (c.attach payload env).1.slot.phase = .active) :=
        Iff.rfl
      rw [htears, hcond]
      generalize c.attach payload env = out at howns hout ⊢
      obtain ⟨c', raised⟩ := out
      dsimp only at howns hout ⊢
      refine ⟨?_, fun hboth => Inv.of_outcome howns hout hboth.1⟩
      cases hout with
      | connected hphase hseg htrace htime =>
        refine iff_of_true ⟨?_, fun _ => hphase⟩ fun hreach hlate => absurd hlate (htime hreach)
        obtain ⟨hcomplete, hnone, -, -⟩ := hseg.spec
        have hquiet : liveFrom false c.trace = true ∨ handedUntilLive _ = [] := Or.inr hnone
        rw [htrace]
        exact h.complete.append hcomplete hquiet
      | failed hphase hseg hactions htrace htime =>
        refine iff_of_true ⟨?_, fun hnone => by cases hnone⟩
          fun hreach hlate => absurd hlate (htime hreach)
        rw [htrace]
        exact h.complete_failed hseg hactions
      | late hphase hseg hactions hhanded hraised hall htrace hreach hlate =>
        rename_i seg actions handed
        have hlast : (∀ a ∈ actions.dropLast, env.performs a.kind = none) ↔
            ∀ kind ∈ teardownKinds.dropLast, env.performs kind = none := by
          rw [← hactions, ← List.map_dropLast, List.forall_mem_map]
        have hevery : raised = none ↔ ∀ kind ∈ teardownKinds, env.performs kind = none := by
          rw [hraised, ← hactions, List.forall_mem_map]
        have hsplit : (∀ kind ∈ teardownKinds, env.performs kind = none) ↔
            (∀ kind ∈ teardownKinds.dropLast, env.performs kind = none) ∧
              env.performs .peerUnblankPanel = none := by
          simp [teardownKinds, and_assoc]
        constructor
        · rintro ⟨hcomplete, hactive⟩ - -
          rw [htrace] at hcomplete
          have hfive := hlast.mp (hall.mp (complete_late hactions hhanded hcomplete))
          refine ⟨hfive, fun hsixth => ?_⟩
          have hactive := hactive (hevery.mpr (hsplit.mpr ⟨hfive, hsixth⟩))
          rw [hphase] at hactive
          cases hactive
        · intro hc
          obtain ⟨hfive, hsixth⟩ := hc hreach hlate
          refine ⟨?_, fun hnone => absurd (hsplit.mp (hevery.mp hnone)).2 hsixth⟩
          obtain rfl := hall.mpr (hlast.mpr hfive)
          rw [htrace]
          exact h.complete_failed hseg hactions

/-- **One operation** does exactly when it meets the condition. -/
theorem Inv.tearsDown_iff (h : c.Inv) (op : Op) :
    (TearsDown c op ↔ ConnectsInTime c op) ∧ (TearsDown c op → (c.step op).Inv) := by
  cases op with
  | attach payload env => exact h.tearsDown_attach payload env
  | heartbeat generation renewal performs =>
    have hinv := h.of_keeps (h.toConsistent.keeps_heartbeat generation renewal performs)
    exact ⟨iff_of_true ⟨hinv.complete, trivial⟩ trivial, fun _ => hinv⟩
  | recordInput generation kind code pressed now =>
    have hinv := h.of_keeps (keeps_recordInput generation kind code pressed now)
    exact ⟨iff_of_true ⟨hinv.complete, trivial⟩ trivial, fun _ => hinv⟩
  | carrierLost generation reason performs =>
    have hinv := h.of_keeps (h.toConsistent.keeps_carrierLost generation reason performs)
    exact ⟨iff_of_true ⟨hinv.complete, trivial⟩ trivial, fun _ => hinv⟩
  | tick now performs =>
    have hinv := h.of_keeps (h.toConsistent.keeps_tick now performs)
    exact ⟨iff_of_true ⟨hinv.complete, trivial⟩ trivial, fun _ => hinv⟩
  | detach generation performs =>
    have hinv := h.detach generation performs
    exact ⟨iff_of_true ⟨hinv.complete, trivial⟩ trivial, fun _ => hinv⟩
  | reset confirmed =>
    have hinv := h.reset confirmed
    exact ⟨iff_of_true ⟨hinv.complete, trivial⟩ trivial, fun _ => hinv⟩

/-- A new controller. -/
def start (spec : DisplaySlotSpec) : DisplaySlotController := { slot := { spec } }

theorem inv_start (spec : DisplaySlotSpec) : (start spec).Inv :=
  ⟨⟨by simp [start], by simp [start], fun _ h => (by cases h), fun h => (by cases h)⟩, trivial, rfl⟩

/-- **Complete teardown of every run.**  Whatever the executor, the peer and the clock do, every
operation of a run tears down completely, and attaches only return from `active`, exactly when
every attach of the run connects its carrier in time. -/
theorem complete_teardown (spec : DisplaySlotSpec) (ops : List Op) :
    Meets step TearsDown (start spec) ops ↔ Meets step ConnectsInTime (start spec) ops := by
  refine Meets.congr (P := Inv) (fun c op hinv => (hinv.tearsDown_iff op).1) ?_ (inv_start spec)
  exact fun c op htears hinv => (hinv.tearsDown_iff op).2 htears

/-! ## A late carrier -/

/-- The readings of the clock that an attach asks for, in their order. -/
def attachReadings (env : AttachEnv) : List ℚ :=
  let renewed (r : Renewal) := [r.now, r.check]
  env.now :: renewed (env.after .peerBlankPanel) ++ renewed (env.after .primaryEnableOutput) ++
    env.during.flatMap renewed ++ renewed (env.after .openAuthenticatedCarrier) ++ [env.connected]

/-- Every action succeeds except the first of the teardown, and the peer takes two seconds to
answer the renewal before the carrier counts as connected. -/
def lateEnv : AttachEnv where
  now := 0
  performs
    | .primaryDisableInput => some ⟨"RuntimeError", "input gate did not answer"⟩
    | _ => none
  during := []
  after _ := ⟨0, 0, none⟩
  connected := 2

/-- The attach hands over one teardown action of six, and the slot is failed safe. -/
theorem late_teardown_stops :
    (attachReadings lateEnv).Pairwise (· ≤ ·) ∧
      ¬ CompleteTeardown
        (run step (start deskSlot) [.attach (deskGrant 1 "s1") lateEnv]).trace := by
  decide +kernel

end DisplaySlotController

end DisplayDock
