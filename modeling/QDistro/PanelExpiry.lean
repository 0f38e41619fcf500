/-
# An expired lease and a late `reserve`

Whether an expired panel lease stays expired, over every sequence of calls.  `heartbeat`,
`status` and `tick` look at the deadline before anything else and give the panel back when it
has passed.  `reserve` does not: on a panel that is still reserved it sets a new deadline, even
after the old one (`lateReserve_resurrects`), and after the end of the grant it raises and leaves
the panel as it is.  A late `reserve` is the only exception (`neverResurrected_iff`).
-/
import QDistro.PanelLease
import Mathlib.Tactic.Linarith

namespace PanelControl

open DisplayDock RemoteNested PanelLeaseState

/-- A call on the lease, with `expire` as the serving loop makes it when it ends. -/
inductive PanelCall where
  | request (kind : PanelKind)
  | tick
  | expire
  deriving DecidableEq, Repr

/-- What a call returns. -/
inductive PanelAnswer where
  | result (r : PanelResult)
  | flag (b : Bool)
  deriving DecidableEq, Repr

/-- An outcome with another kind of answer. -/
def Outcome.map {α β : Type} (f : α → β) (o : Outcome α) : Outcome β :=
  ⟨o.state, o.performed, o.result.map f⟩

def PanelCall.run (call : PanelCall) (spec : PanelLeaseSpec) (s : PanelLeaseState)
    (e : PanelEnv) : Outcome PanelAnswer :=
  match call with
  | .request kind => (kind.run spec s e).map .result
  | .tick => (s.tick spec e).map .flag
  | .expire => (s.expire e).map .flag

/-- A direct call, or a request that the protocol handles. -/
inductive PanelOp where
  | call (c : PanelCall)
  | handle (payload : Bytes)

/-- A call that was made: the state it found, what it met, and how it ended. -/
structure PanelEvent where
  before : PanelLeaseState
  call : PanelCall
  env : PanelEnv
  after : Outcome PanelAnswer

/-- One operation: the peer after it, and the call it made.  A refused request makes none. -/
def PanelPeer.step (py : PyJson) (spec : PanelLeaseSpec) (p : PanelPeer) (op : PanelOp)
    (e : PanelEnv) : PanelPeer × Option PanelEvent :=
  match op with
  | .call c =>
    let o := c.run spec p.lease e
    (⟨o.state, p.lastSeq⟩, some ⟨p.lease, c, e, o⟩)
  | .handle payload =>
    ((p.handle py spec payload e).1, match p.accept py spec payload with
      | .error _ => none
      | .ok (_, kind) =>
        some ⟨p.lease, .request kind, e, (PanelCall.request kind).run spec p.lease e⟩)

/-- The calls of a sequence of operations. -/
def PanelPeer.events (py : PyJson) (spec : PanelLeaseSpec) (p : PanelPeer) :
    List (PanelOp × PanelEnv) → List PanelEvent
  | [] => []
  | (op, e) :: rest =>
    (p.step py spec op e).2.toList ++ (p.step py spec op e).1.events py spec rest

/-! ## Lapsed leases -/

/-- The call returned "reserved" or "renewed". -/
def PanelEvent.grants (ev : PanelEvent) : Bool :=
  match ev.after.result with
  | .ok (.result .reserved) | .ok (.result .renewed) => true
  | _ => false

/-- When the call renewed the lease: a `reserve` or a `heartbeat` that succeeded. -/
def PanelEvent.renewal (ev : PanelEvent) : Option ℚ :=
  match ev.call with
  | .request .reserve | .request .heartbeat => if ev.grants then some ev.env.renewed else none
  | _ => none

/-- The last successful `reserve` or `heartbeat`; the latest event stands first. -/
def lastRenewal (past : List PanelEvent) : Option ℚ := past.findSome? PanelEvent.renewal

/-- When the call is made, the last renewal is older than the heartbeat allows, or the grant has
ended. -/
def Lapsed (spec : PanelLeaseSpec) (past : List PanelEvent) (ev : PanelEvent) : Prop :=
  (spec.leaseExpiresAt : ℚ) ≤ ev.env.wall ∨
    ∃ t, lastRenewal past = some t ∧ spec.heartbeat < ev.env.mono - t

/-- From a lapse on, no call returns "reserved" or "renewed", and the call that finds the panel
reserved gives it back. -/
def NeverResurrected (spec : PanelLeaseSpec) (events : List PanelEvent) : Prop :=
  ∀ past ev rest, events = past ++ ev :: rest → Lapsed spec past.reverse ev →
    (∀ later ∈ ev :: rest, later.grants = false) ∧
    (ev.before.reserved = true → PanelAction.restore ∈ ev.after.performed ∧
      (ev.env.restore = none → ev.after.state.reserved = false))

/-- No `reserve` comes to a panel whose reservation has expired. -/
def NoLateReserve (spec : PanelLeaseSpec) (events : List PanelEvent) : Prop :=
  ∀ ev ∈ events, ev.call = .request .reserve → ev.before.reserved = true →
    ev.before.expired spec ev.env = false

/-- The clocks do not go back, from one reading to the next. -/
def ClocksAdvance (steps : List (PanelOp × PanelEnv)) : Prop :=
  steps.Pairwise (fun a b => a.2.wall ≤ b.2.wall ∧ a.2.renewed ≤ b.2.mono) ∧
    ∀ a ∈ steps, a.2.mono ≤ a.2.renewed

/-! ## What one call does -/

/-- A `reserve` or a `heartbeat` that succeeded. -/
structure Renewed (spec : PanelLeaseSpec) (s : PanelLeaseState) (ev : PanelEvent) : Prop where
  call : ev.call = .request .reserve ∨
    (ev.call = .request .heartbeat ∧ s.expired spec ev.env = false)
  grants : ev.grants = true
  wall : ev.env.wall < spec.leaseExpiresAt
  live : s.terminal = false
  state : ev.after.state = ⟨true, some (ev.env.renewed + spec.heartbeat), false⟩

/-- A call that closed the generation. -/
structure Closed (s : PanelLeaseState) (ev : PanelEvent) : Prop where
  grants : ev.grants = false
  state : ev.after.state = .closed
  restored : s.reserved = true → PanelAction.restore ∈ ev.after.performed

/-- A call that left the state as it was. -/
structure Kept (spec : PanelLeaseSpec) (s : PanelLeaseState) (ev : PanelEvent) : Prop where
  state : ev.after.state = s
  renewal : ev.renewal = none
  grants : ev.grants = true → s.reserved = true ∧ s.expired spec ev.env = false
  restored : s.reserved = true → s.expired spec ev.env = true → ev.call ≠ .request .reserve →
    PanelAction.restore ∈ ev.after.performed ∧ ev.env.restore ≠ none

variable {s : PanelLeaseState}

theorem expired_eq_false {spec : PanelLeaseSpec} {e : PanelEnv} :
    s.expired spec e = false ↔ e.wall < spec.leaseExpiresAt ∧
      ∀ d, s.deadline = some d → e.mono ≤ d := by
  unfold expired
  cases s.deadline <;> simp

variable {ev : PanelEvent}

theorem grants_of_error {err : PyError} (h : ev.after.result = .error err) :
    ev.grants = false := by
  rw [PanelEvent.grants, h]

theorem renewal_of_not_grants (h : ev.grants = false) : ev.renewal = none := by
  unfold PanelEvent.renewal
  rw [h]
  split <;> rfl

theorem Kept.of_error {spec : PanelLeaseSpec} {err : PyError} (hstate : ev.after.state = s)
    (herr : ev.after.result = .error err)
    (hrestored : s.reserved = true → s.expired spec ev.env = true →
      ev.call ≠ .request .reserve → PanelAction.restore ∈ ev.after.performed ∧
        ev.env.restore ≠ none)
    : Kept spec s ev := by
  have hgrants := grants_of_error herr
  refine ⟨hstate, renewal_of_not_grants hgrants, ?_, hrestored⟩
  rw [hgrants]
  intro h
  cases h

/-- What one call does, by what it leaves. -/
def CallSpec (spec : PanelLeaseSpec) (s : PanelLeaseState) (ev : PanelEvent) : Prop :=
  Renewed spec s ev ∨ Closed s ev ∨ Kept spec s ev

theorem reserve_spec {spec : PanelLeaseSpec} (hcall : ev.call = .request .reserve)
    (hafter : ev.after = (s.reserve spec ev.env).map .result) : CallSpec spec s ev := by
  have hnot : ∀ {P : Prop}, ev.call ≠ .request .reserve → P := fun h => absurd hcall h
  unfold reserve at hafter
  split at hafter
  · exact .inr (.inr (.of_error (by rw [hafter]; rfl) (by rw [hafter]; rfl) fun _ _ => hnot))
  next hterminal =>
  split at hafter
  · exact .inr (.inr (.of_error (by rw [hafter]; rfl) (by rw [hafter]; rfl) fun _ _ => hnot))
  next hwall =>
  have hlive : s.terminal = false := by simpa using hterminal
  have hgrant : ∀ {performed : List PanelAction} {s' : PanelLeaseState},
      ev.after = (⟨s', performed, .ok .reserved⟩ : Outcome PanelResult).map .result →
      ev.grants = true := by
    intro performed s' h
    rw [PanelEvent.grants, h]
    rfl
  split at hafter
  · next hreserved =>
    refine .inl ⟨.inl hcall, hgrant hafter, not_le.mp hwall, hlive, ?_⟩
    rw [hafter, Outcome.map, renewDeadline, hreserved, hlive]
  · split at hafter
    · exact .inr (.inr (.of_error (by rw [hafter]; rfl) (by rw [hafter]; rfl) fun _ _ => hnot))
    · refine .inl ⟨.inl hcall, hgrant hafter, not_le.mp hwall, hlive, ?_⟩
      rw [hafter, Outcome.map, renewDeadline, hlive]

theorem expire_reserved (e : PanelEnv) (h : s.reserved = true) :
    (∃ err, e.restore = some err ∧ s.expire e = ⟨s, [.restore], .error err⟩) ∨
      s.expire e = ⟨.closed, [.restore], .ok true⟩ := by
  rw [expire, if_pos h]
  cases e.restore with
  | none => exact .inr rfl
  | some err => exact .inl ⟨err, rfl, rfl⟩

theorem heartbeat_spec {spec : PanelLeaseSpec} (hwf : s.terminal = true → s.reserved = false)
    (hcall : ev.call = .request .heartbeat)
    (hafter : ev.after = (s.heartbeat spec ev.env).map .result) : CallSpec spec s ev := by
  unfold heartbeat at hafter
  split at hafter
  · next hidle =>
    refine .inr (.inr (.of_error (by rw [hafter]; rfl) (by rw [hafter]; rfl) ?_))
    intro hreserved
    simp [hreserved] at hidle
    rw [hwf hidle] at hreserved
    cases hreserved
  next hheld =>
  simp only [Bool.or_eq_true, Bool.not_eq_true', not_or, Bool.not_eq_true, Bool.not_eq_false] at hheld
  obtain ⟨hlive, hreserved⟩ := hheld
  split at hafter
  · next hexpired =>
    dsimp only at hafter
    rcases expire_reserved ev.env hreserved with ⟨err, hraised, ho⟩ | ho
    · rw [ho] at hafter
      refine .inr (.inr (.of_error (by rw [hafter]; rfl) (by rw [hafter]; rfl) ?_))
      intro _ _ _
      rw [hafter, hraised]
      exact ⟨.head _, by simp⟩
    · rw [ho] at hafter
      refine .inr (.inl ⟨grants_of_error (by rw [hafter]; rfl), by rw [hafter]; rfl, ?_⟩)
      intro _
      rw [hafter]
      exact .head _
  · next hexpired =>
    have hexpired : s.expired spec ev.env = false := by simpa using hexpired
    refine .inl ⟨.inr ⟨hcall, hexpired⟩, ?_, (expired_eq_false.mp hexpired).1, hlive, ?_⟩
    · rw [PanelEvent.grants, hafter]
      rfl
    · rw [hafter, Outcome.map, renewDeadline, hreserved, hlive]

theorem release_spec {spec : PanelLeaseSpec} (hafter : ev.after = (s.release ev.env).map .result) :
    CallSpec spec s ev := by
  unfold release at hafter
  split at hafter
  · split at hafter
    · next err hraised =>
      refine .inr (.inr (.of_error (by rw [hafter]; rfl) (by rw [hafter]; rfl) ?_))
      intro _ _ _
      rw [hafter, hraised]
      exact ⟨.head _, by simp⟩
    · refine .inr (.inl ⟨by rw [PanelEvent.grants, hafter]; rfl, by rw [hafter]; rfl, ?_⟩)
      intro _
      rw [hafter]
      exact .head _
  · next hfree =>
    refine .inr (.inl ⟨by rw [PanelEvent.grants, hafter]; rfl, by rw [hafter]; rfl, ?_⟩)
    intro hreserved
    exact absurd hreserved hfree

theorem expire_spec {spec : PanelLeaseSpec} (hafter : ev.after = (s.expire ev.env).map .flag) :
    CallSpec spec s ev := by
  by_cases hreserved : s.reserved = true
  · rcases expire_reserved ev.env hreserved with ⟨err, hraised, ho⟩ | ho
    · rw [ho] at hafter
      refine .inr (.inr (.of_error (by rw [hafter]; rfl) (by rw [hafter]; rfl) ?_))
      intro _ _ _
      rw [hafter, hraised]
      exact ⟨.head _, by simp⟩
    · rw [ho] at hafter
      refine .inr (.inl ⟨by rw [PanelEvent.grants, hafter]; rfl, by rw [hafter]; rfl, ?_⟩)
      intro _
      rw [hafter]
      exact .head _
  · rw [expire, if_neg hreserved] at hafter
    have hgrants : ev.grants = false := by rw [PanelEvent.grants, hafter]; rfl
    refine .inr (.inr ⟨by rw [hafter]; rfl, renewal_of_not_grants hgrants, ?_, ?_⟩)
    · rw [hgrants]
      intro h
      cases h
    · intro h
      exact absurd h hreserved

theorem tick_spec {spec : PanelLeaseSpec} (hafter : ev.after = (s.tick spec ev.env).map .flag) :
    CallSpec spec s ev := by
  unfold tick at hafter
  split at hafter
  · exact expire_spec hafter
  · next hnot =>
    have hgrants : ev.grants = false := by rw [PanelEvent.grants, hafter]; rfl
    refine .inr (.inr ⟨by rw [hafter]; rfl, renewal_of_not_grants hgrants, ?_, ?_⟩)
    · rw [hgrants]
      intro h
      cases h
    · intro hreserved hexpired
      simp [hreserved, hexpired] at hnot

theorem safe_not_grants {e : PanelEnv} {performed : List PanelAction}
    (hafter : ev.after = (⟨s, performed, e.safe.map fun safe =>
      if safe then .safe else .unsafePanel⟩ : Outcome PanelResult).map .result) :
    ev.grants = false := by
  rw [PanelEvent.grants, hafter]
  rcases e.safe with err | (_ | _) <;> rfl

theorem status_spec {spec : PanelLeaseSpec} (hcall : ev.call = .request .status)
    (hafter : ev.after = (s.status spec ev.env).map .result) : CallSpec spec s ev := by
  unfold status tick at hafter
  by_cases hlook : (s.reserved && s.expired spec ev.env) = true
  · rw [if_pos hlook] at hafter
    rw [Bool.and_eq_true] at hlook
    rcases expire_reserved ev.env hlook.1 with ⟨err, hraised, ho⟩ | ho
    · rw [ho] at hafter
      refine .inr (.inr (.of_error (by rw [hafter]; rfl) (by rw [hafter]; rfl) ?_))
      intro _ _ _
      rw [hafter, hraised]
      exact ⟨.head _, by simp⟩
    · rw [ho] at hafter
      refine .inr (.inl ⟨safe_not_grants hafter, by rw [hafter]; rfl, ?_⟩)
      intro _
      rw [hafter]
      exact .head _
  · rw [if_neg hlook] at hafter
    have hlook' : s.reserved = true → s.expired spec ev.env = false := by
      intro hreserved
      simpa [hreserved] using hlook
    dsimp only at hafter
    split at hafter
    · next hreserved =>
      refine .inr (.inr ⟨by rw [hafter]; rfl, ?_, fun _ => ⟨hreserved, hlook' hreserved⟩, ?_⟩)
      · rw [PanelEvent.renewal, hcall]
      · intro _ hexpired
        rw [hlook' hreserved] at hexpired
        cases hexpired
    · next hfree =>
      have hgrants := safe_not_grants hafter
      refine .inr (.inr ⟨by rw [hafter]; rfl, renewal_of_not_grants hgrants, ?_, ?_⟩)
      · rw [hgrants]
        intro h
        cases h
      · intro h
        exact absurd h hfree

theorem call_spec {spec : PanelLeaseSpec} (hwf : s.terminal = true → s.reserved = false)
    (hafter : ev.after = ev.call.run spec s ev.env) : CallSpec spec s ev := by
  cases hcall : ev.call with
  | request kind =>
    rw [hcall] at hafter
    cases kind with
    | reserve => exact reserve_spec hcall hafter
    | heartbeat => exact heartbeat_spec hwf hcall hafter
    | release => exact release_spec hafter
    | status => exact status_spec hcall hafter
  | tick =>
    rw [hcall] at hafter
    exact tick_spec hafter
  | expire =>
    rw [hcall] at hafter
    exact expire_spec hafter

/-! ## Runs -/

/-- The events are those of calls made one after the other. -/
def Calls (spec : PanelLeaseSpec) : PanelLeaseState → List PanelEvent → Prop
  | _, [] => True
  | s, ev :: rest =>
    ev.before = s ∧ ev.after = ev.call.run spec s ev.env ∧ Calls spec ev.after.state rest

theorem step_cases (py : PyJson) (spec : PanelLeaseSpec) (p : PanelPeer) (op : PanelOp)
    (e : PanelEnv) :
    ((p.step py spec op e).2 = none ∧ (p.step py spec op e).1.lease = p.lease) ∨
      ∃ ev : PanelEvent, (p.step py spec op e).2 = some ev ∧ ev.before = p.lease ∧ ev.env = e ∧
        ev.after = ev.call.run spec p.lease e ∧
        (p.step py spec op e).1.lease = ev.after.state := by
  cases op with
  | call c => exact .inr ⟨_, rfl, rfl, rfl, rfl, rfl⟩
  | handle payload =>
    simp only [PanelPeer.step, PanelPeer.handle]
    rcases p.accept py spec payload with err | ⟨seq, kind⟩
    · exact .inl ⟨rfl, rfl⟩
    · exact .inr ⟨_, rfl, rfl, rfl, rfl, rfl⟩

theorem events_calls (py : PyJson) (spec : PanelLeaseSpec) (steps : List (PanelOp × PanelEnv)) :
    ∀ p : PanelPeer, Calls spec p.lease (p.events py spec steps) := by
  induction steps with
  | nil => intro p; trivial
  | cons step rest ih =>
    intro p
    obtain ⟨op, e⟩ := step
    rw [PanelPeer.events]
    rcases step_cases py spec p op e with ⟨hnone, hlease⟩ | ⟨ev, hsome, hbefore, henv, hafter, hlease⟩
    · rw [hnone, ← hlease]
      exact ih _
    · rw [hsome]
      refine ⟨hbefore, by rw [hafter, henv], ?_⟩
      rw [← hlease]
      exact ih _

theorem events_env (py : PyJson) (spec : PanelLeaseSpec) (steps : List (PanelOp × PanelEnv)) :
    ∀ p : PanelPeer,
      ((p.events py spec steps).map PanelEvent.env).Sublist (steps.map Prod.snd) := by
  induction steps with
  | nil => intro p; exact .slnil
  | cons step rest ih =>
    intro p
    obtain ⟨op, e⟩ := step
    rw [PanelPeer.events, List.map_cons]
    rcases step_cases py spec p op e with ⟨hnone, -⟩ | ⟨ev, hsome, -, henv, -⟩
    · rw [hnone]
      exact (ih _).cons e
    · rw [hsome, List.map_append]
      show (ev.env :: _).Sublist (e :: _)
      rw [henv]
      exact (ih _).cons_cons e

theorem events_advance (py : PyJson) (spec : PanelLeaseSpec) {steps : List (PanelOp × PanelEnv)}
    (h : ClocksAdvance steps) (p : PanelPeer) :
    (p.events py spec steps).Pairwise
      fun a b => a.env.wall ≤ b.env.wall ∧ a.env.mono ≤ b.env.mono := by
  have hsteps : (steps.map Prod.snd).Pairwise fun a b => a.wall ≤ b.wall ∧ a.mono ≤ b.mono := by
    rw [List.pairwise_map]
    refine h.1.imp_of_mem ?_
    intro a b ha _ hab
    exact ⟨hab.1, (h.2 a ha).trans hab.2⟩
  exact List.pairwise_map.mp (hsteps.sublist (events_env py spec steps p))

/-- What the past says about a lease: a held lease runs from the last renewal, and a lease that
was never held has no renewal behind it. -/
structure Tracks (spec : PanelLeaseSpec) (past : List PanelEvent) (s : PanelLeaseState) :
    Prop where
  wf : s.terminal = true → s.reserved = false
  held : s.reserved = true →
    ∃ t, lastRenewal past = some t ∧ s.deadline = some (t + spec.heartbeat)
  fresh : s.reserved = false → s.terminal = false → lastRenewal past = none

theorem Tracks.init (spec : PanelLeaseSpec) : Tracks spec [] {} :=
  ⟨fun h => (Bool.false_ne_true h).elim, fun h => (Bool.false_ne_true h).elim, fun _ _ => rfl⟩

theorem Renewed.renewal {spec : PanelLeaseSpec} (h : Renewed spec s ev) :
    ev.renewal = some ev.env.renewed := by
  unfold PanelEvent.renewal
  rcases h.call with hcall | ⟨hcall, -⟩
  · rw [hcall, h.grants]
    rfl
  · rw [hcall, h.grants]
    rfl

theorem Tracks.step {spec : PanelLeaseSpec} {past : List PanelEvent} (h : Tracks spec past s)
    (hcall : CallSpec spec s ev) :
    Tracks spec (ev :: past) ev.after.state := by
  rcases hcall with hrenewed | hclosed | hkept
  · rw [hrenewed.state]
    refine ⟨fun hterminal => (Bool.false_ne_true hterminal).elim, fun _ => ?_, fun hfree => ?_⟩
    · exact ⟨ev.env.renewed, by rw [lastRenewal, List.findSome?_cons, hrenewed.renewal], rfl⟩
    · cases hfree
  · rw [hclosed.state]
    exact ⟨fun _ => rfl, fun hheld => (Bool.false_ne_true hheld).elim, fun _ hlive => by cases hlive⟩
  · rw [hkept.state]
    have hlast : lastRenewal (ev :: past) = lastRenewal past := by
      rw [lastRenewal, List.findSome?_cons, hkept.renewal]
      rfl
    exact ⟨h.wf, by rw [hlast]; exact h.held, by rw [hlast]; exact h.fresh⟩

/-- At these clock readings the lease cannot come back. -/
def Dead (spec : PanelLeaseSpec) (s : PanelLeaseState) (wall mono : ℚ) : Prop :=
  (s.reserved = false ∧ s.terminal = true) ∨ (spec.leaseExpiresAt : ℚ) ≤ wall ∨
    (s.reserved = true ∧ ∃ d, s.deadline = some d ∧ d < mono)

theorem Dead.later {spec : PanelLeaseSpec} {wall mono wall' mono' : ℚ} (h : Dead spec s wall mono)
    (hwall : wall ≤ wall') (hmono : mono ≤ mono') :
    Dead spec s wall' mono' := by
  rcases h with h | h | ⟨hreserved, d, hd, hlt⟩
  · exact .inl h
  · exact .inr (.inl (h.trans hwall))
  · exact .inr (.inr ⟨hreserved, d, hd, hlt.trans_le hmono⟩)

theorem Dead.of_lapsed {spec : PanelLeaseSpec} {past : List PanelEvent}
    (h : Tracks spec past ev.before) (hlapsed : Lapsed spec past ev) :
    Dead spec ev.before ev.env.wall ev.env.mono := by
  rcases hlapsed with hwall | ⟨t, ht, hlate⟩
  · exact .inr (.inl hwall)
  cases hreserved : ev.before.reserved with
  | true =>
    obtain ⟨t', ht', hd⟩ := h.held hreserved
    rw [ht] at ht'
    obtain rfl := Option.some.inj ht'
    exact .inr (.inr ⟨hreserved, _, hd, by linarith⟩)
  | false =>
    cases hterminal : ev.before.terminal with
    | true => exact .inl ⟨hreserved, hterminal⟩
    | false =>
      rw [h.fresh hreserved hterminal] at ht
      cases ht

theorem Dead.expired {spec : PanelLeaseSpec} {e : PanelEnv} (h : Dead spec s e.wall e.mono)
    (hreserved : s.reserved = true) :
    s.expired spec e = true := by
  by_contra hnot
  obtain ⟨hwall, hmono⟩ := expired_eq_false.mp (Bool.not_eq_true _ ▸ hnot)
  rcases h with ⟨hfree, -⟩ | hend | ⟨-, d, hd, hlt⟩
  · rw [hfree] at hreserved
    cases hreserved
  · exact absurd hend (not_le.mpr hwall)
  · exact absurd hlt (not_lt.mpr (hmono d hd))

theorem Dead.step {spec : PanelLeaseSpec} (h : Dead spec s ev.env.wall ev.env.mono)
    (hcall : CallSpec spec s ev)
    (hlate : ev.call = .request .reserve → s.reserved = true → s.expired spec ev.env = false) :
    ev.grants = false ∧ Dead spec ev.after.state ev.env.wall ev.env.mono := by
  rcases hcall with hrenewed | hclosed | hkept
  · exfalso
    rcases h with ⟨-, hterminal⟩ | hend | ⟨hreserved, hdead⟩
    · rw [hrenewed.live] at hterminal
      cases hterminal
    · exact absurd hend (not_le.mpr hrenewed.wall)
    · have hexpired : s.expired spec ev.env = true :=
        Dead.expired (.inr (.inr ⟨hreserved, hdead⟩)) hreserved
      rcases hrenewed.call with hcall | ⟨-, hfresh⟩
      · rw [hlate hcall hreserved] at hexpired
        cases hexpired
      · rw [hfresh] at hexpired
        cases hexpired
  · rw [hclosed.state]
    exact ⟨hclosed.grants, .inl ⟨rfl, rfl⟩⟩
  · rw [hkept.state]
    refine ⟨?_, h⟩
    by_contra hgrants
    obtain ⟨hreserved, hfresh⟩ := hkept.grants (Bool.not_eq_false _ ▸ hgrants)
    rw [h.expired hreserved] at hfresh
    cases hfresh

theorem not_grants_of_dead {spec : PanelLeaseSpec} {events : List PanelEvent} :
    ∀ {s : PanelLeaseState} {past : List PanelEvent} {wall mono : ℚ}, Calls spec s events →
      Tracks spec past s → Dead spec s wall mono → NoLateReserve spec events →
      (∀ ev ∈ events, wall ≤ ev.env.wall ∧ mono ≤ ev.env.mono) →
      events.Pairwise (fun a b => a.env.wall ≤ b.env.wall ∧ a.env.mono ≤ b.env.mono) →
      ∀ ev ∈ events, ev.grants = false := by
  induction events with
  | nil =>
    intro s past wall mono _ _ _ _ _ _ ev hev
    cases hev
  | cons first rest ih =>
    intro s past wall mono hcalls htracks hdead hlate hclock hpair
    obtain ⟨rfl, hafter, hcalls⟩ := hcalls
    obtain ⟨hwall, hmono⟩ := hclock first (.head _)
    obtain ⟨hhead, hpair⟩ := List.pairwise_cons.mp hpair
    have hspec := call_spec htracks.wf hafter
    obtain ⟨hgrants, hdead⟩ := (hdead.later hwall hmono).step hspec (hlate first (.head _))
    intro ev hev
    rcases List.mem_cons.mp hev with rfl | hev
    · exact hgrants
    · exact ih hcalls (htracks.step hspec) hdead (fun ev hev => hlate ev (.tail _ hev)) hhead hpair
        ev hev

theorem calls_split {spec : PanelLeaseSpec} (past : List PanelEvent) {rest : List PanelEvent} :
    ∀ {s : PanelLeaseState} {seen : List PanelEvent}, Calls spec s (past ++ rest) →
      Tracks spec seen s → ∃ s', Tracks spec (past.reverse ++ seen) s' ∧ Calls spec s' rest := by
  induction past with
  | nil =>
    intro s seen hcalls htracks
    exact ⟨s, htracks, hcalls⟩
  | cons first past ih =>
    intro s seen hcalls htracks
    obtain ⟨rfl, hafter, hcalls⟩ := hcalls
    obtain ⟨s', htracks', hcalls'⟩ := ih hcalls (htracks.step (call_spec htracks.wf hafter))
    refine ⟨s', ?_, hcalls'⟩
    rw [List.reverse_cons, List.append_assoc]
    exact htracks'

theorem reserve_performed {spec : PanelLeaseSpec} (e : PanelEnv) (h : s.reserved = true) :
    (s.reserve spec e).performed = [] := by
  unfold reserve
  rw [if_pos h]
  split
  · rfl
  · split <;> rfl

/-- An expired lease stays expired in exactly the runs without a late `reserve`. -/
theorem neverResurrected_iff (py : PyJson) (spec : PanelLeaseSpec)
    (steps : List (PanelOp × PanelEnv)) (hclock : ClocksAdvance steps) :
    NeverResurrected spec (PanelPeer.events py spec {} steps) ↔
      NoLateReserve spec (PanelPeer.events py spec {} steps) := by
  have hcalls := events_calls py spec steps {}
  have hpair := events_advance py spec hclock {}
  set events := PanelPeer.events py spec {} steps with hevents
  constructor
  · intro hnever ev hev hcall hreserved
    obtain ⟨past, rest, hsplit⟩ := List.append_of_mem hev
    rw [hsplit] at hcalls
    obtain ⟨s, htracks, rfl, hafter, -⟩ := calls_split past hcalls (Tracks.init spec)
    rw [List.append_nil] at htracks
    by_contra hexpired
    -- the panel is reserved, so its deadline tells that the last renewal is too old
    have hlapsed : Lapsed spec past.reverse ev := by
      by_contra hnot
      simp only [Lapsed, not_or, not_le, not_exists, not_and, not_lt] at hnot
      apply hexpired
      refine expired_eq_false.mpr ⟨hnot.1, ?_⟩
      intro d hd
      obtain ⟨t, ht, hdeadline⟩ := htracks.held hreserved
      rw [hd] at hdeadline
      have hage := hnot.2 t ht
      linarith [Option.some.inj hdeadline]
    obtain ⟨hrestore, -⟩ := (hnever past ev rest hsplit hlapsed).2 hreserved
    rw [hafter, hcall] at hrestore
    rw [show ((PanelCall.request .reserve).run spec ev.before ev.env).performed =
      (ev.before.reserve spec ev.env).performed from rfl, reserve_performed _ hreserved] at hrestore
    cases hrestore
  · intro hlate past ev rest hsplit hlapsed
    rw [hsplit] at hcalls hpair hlate
    obtain ⟨s, htracks, hrest⟩ := calls_split past hcalls (Tracks.init spec)
    rw [List.append_nil] at htracks
    have hpair := (List.pairwise_append.mp hpair).2.1
    have hfirst := hrest
    obtain ⟨rfl, hafter, -⟩ := hfirst
    have hdead := Dead.of_lapsed htracks hlapsed
    have hlate' : NoLateReserve spec (ev :: rest) := fun later hlater =>
      hlate later (List.mem_append_right _ hlater)
    refine ⟨not_grants_of_dead hrest htracks hdead hlate' ?_ hpair, ?_⟩
    · intro later hlater
      rcases List.mem_cons.mp hlater with rfl | hlater
      · exact ⟨le_rfl, le_rfl⟩
      · exact (List.pairwise_cons.mp hpair).1 later hlater
    · intro hreserved
      have hexpired := hdead.expired hreserved
      have hcall : ev.call ≠ .request .reserve := by
        intro hcall
        rw [hlate' ev (.head _) hcall hreserved] at hexpired
        cases hexpired
      rcases call_spec htracks.wf hafter with hrenewed | hclosed | hkept
      · have hgrants := (hdead.step (.inl hrenewed) (hlate' ev (.head _))).1
        rw [hrenewed.grants] at hgrants
        cases hgrants
      · exact ⟨hclosed.restored hreserved, fun _ => by rw [hclosed.state]; rfl⟩
      · obtain ⟨hrestore, hraised⟩ := hkept.restored hreserved hexpired hcall
        exact ⟨hrestore, fun hnone => absurd hnone hraised⟩

/-! ## A late `reserve` -/

/-- A lease of one second. -/
def shortLease : PanelLeaseSpec := ⟨"display-session", 90, "rdp-0", 1000, 5000⟩

/-- A call at a time, with actions that succeed. -/
def callAt (call : PanelCall) (t : ℚ) : PanelOp × PanelEnv :=
  (.call call, ⟨1000 + t, t, t, none, none, .ok true⟩)

/-- A decoder that refuses everything. -/
def noJson : PyJson := ⟨fun _ => .error ⟨"JSONDecodeError", ""⟩, fun _ _ => false⟩

/-- In this run a heartbeat comes in time and another one comes too late. -/
theorem neverResurrected_lateHeartbeat :
    NeverResurrected shortLease (PanelPeer.events noJson shortLease {}
      [callAt (.request .reserve) 0, callAt (.request .heartbeat) (1 / 2),
        callAt (.request .heartbeat) 2, callAt (.request .status) 3]) := by
  refine (neverResurrected_iff noJson shortLease _ ⟨?_, ?_⟩).mpr ?_
  · decide +kernel
  · decide +kernel
  · simp only [NoLateReserve]
    decide +kernel

/-- A second `reserve` two seconds after the first renews a lease of one second. -/
theorem lateReserve_resurrects :
    ¬NeverResurrected shortLease (PanelPeer.events noJson shortLease {}
      [callAt (.request .reserve) 0, callAt (.request .reserve) 2]) := by
  intro h
  have hgrants := (h [_] _ [] rfl (.inr ⟨0, by decide +kernel, by decide +kernel⟩)).1 _ (.head _)
  revert hgrants
  decide +kernel

end PanelControl
