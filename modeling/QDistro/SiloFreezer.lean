/-
# Freeze and resume

`_SiloStore.freeze` and `resume` of one cgroup-backed silo, with the thaws of `start` and `stop`,
over `_SystemOps.cgroup_freeze` and its bookkeeping of unresolved writes.

The in-flight slot serialises the calls on a silo, so a run is a list of calls; between two of
them a write that timed out may come back from the kernel.  Three views can part: the state of the
store, the marks of unresolved writes, and what the kernel last confirmed (`confirmed`, with
`writer` the write that is still in the kernel).  `freeze` and `resume` have a shortcut that
trusts the first two.

`Faithful` says when the shortcut may be trusted.  Every call keeps it except the three kinds that
`Sound` excludes, and after each of these the next call can lie (`truthful_iff_sound`).
-/
import QDistro.SiloAccounts
import QDistro.TransitionSystem

namespace Lifecycle

open Silo (SiloState)

/-- What the liveness probe of `start` came to; `dead` is a confirmed stop or failure. -/
inductive Verdict
  | alive
  | dead
  | unknown
  deriving DecidableEq

/-- How an operation ends. -/
inductive Outcome
  | ok
  | raises
  /-- `StartNotCancelled` -/
  | unresolved
  deriving DecidableEq

/-- `freeze` and `resume`. -/
inductive Motion
  | freeze
  | resume
  deriving DecidableEq

/-- The state that a motion leaves. -/
def Motion.source : Motion → SiloState
  | .freeze => .active
  | .resume => .frozen

/-- The state that a motion enters. -/
def Motion.target : Motion → SiloState
  | .freeze => .frozen
  | .resume => .active

end Lifecycle

namespace Silo

open TransitionSystem
open Lifecycle (Motion)

/-! ## The freezer -/

/-- How a write to `cgroup.freeze` ends; a late one is still in the kernel when the wait is up. -/
inductive WriteOutcome
  | ok
  | refused
  | late
  | failed
  deriving DecidableEq

/-- A silo and its freezer. -/
structure Freezer where
  state : SiloState
  /-- The name is in `_freeze_unresolved`. -/
  freezeUnresolved : Bool
  /-- The name is in `_thaw_unresolved`. -/
  thawUnresolved : Bool
  /-- A write that is still in the kernel: a freeze or a thaw. -/
  writer : Option Bool
  /-- The cgroup directory exists. -/
  cgroup : Bool
  /-- History: the state that the kernel last confirmed is frozen. -/
  confirmed : Bool
  deriving DecidableEq

/-- How one `cgroup_freeze` goes: its write, the settle poll, and the thaw that is written back
when a freeze does not settle. -/
structure FreezeChoice where
  write : WriteOutcome
  settled : Bool
  back : WriteOutcome
  deriving DecidableEq

namespace Freezer

/-- A write was issued whose outcome is not known. -/
def mark (s : Freezer) (frozen : Bool) : Freezer :=
  if frozen then { s with freezeUnresolved := true } else { s with thawUnresolved := true }

/-- `_bounded_freeze_write`; the flag says that it returned. -/
def boundedFreezeWrite (s : Freezer) (frozen : Bool) (o : WriteOutcome) : Freezer × Bool :=
  if s.writer.isSome then (s, false)
  else
    match o with
    | .ok => (s, true)
    | .refused => (s, false)
    | .late => ({ s.mark frozen with writer := some frozen }, false)
    | .failed => (s.mark frozen, false)

/-- `cgroup_freeze`; the flag says that it returned. -/
def cgroupFreeze (s : Freezer) (frozen : Bool) (o : FreezeChoice) : Freezer × Bool :=
  let w := s.boundedFreezeWrite frozen o.write
  if w.2 = false then w
  else if o.settled then
    ({ w.1 with confirmed := frozen, freezeUnresolved := false, thawUnresolved := false }, true)
  else if frozen then
    let b := w.1.boundedFreezeWrite false o.back
    (if b.2 then b.1 else { b.1 with freezeUnresolved := true }, false)
  else ({ w.1 with thawUnresolved := true }, false)

end Freezer

/-- Whether a motion freezes. -/
def Motion.frozen : Motion → Bool
  | .freeze => true
  | .resume => false

/-- The mark that a motion consults before its shortcut. -/
def Freezer.unresolved (s : Freezer) : Motion → Bool
  | .freeze => s.thawUnresolved
  | .resume => s.freezeUnresolved

/-- How a call ends. -/
inductive CallResult
  | returned
  | raised
  deriving DecidableEq

/-! ## The calls -/

/-- The common body of `freeze` and `resume`. -/
def move (m : Motion) (s : Freezer) (o : FreezeChoice) (save : Bool) : Freezer × CallResult :=
  if s.state = m.target ∧ s.unresolved m = false then (s, .returned)
  else if s.state = m.target ∨ s.state = m.source then
    let r := s.cgroupFreeze (Motion.frozen m) o
    if r.2 = false then (r.1, .raised)
    else if r.1.state = m.source then
      if save then ({ r.1 with state := m.target }, .returned) else (r.1, .raised)
    else (r.1, .returned)
  else (s, .raised)

/-- `_SiloStore.freeze` -/
def freeze (s : Freezer) (o : FreezeChoice) (save : Bool) : Freezer × CallResult :=
  move .freeze s o save

/-- `_SiloStore.resume` -/
def resume (s : Freezer) (o : FreezeChoice) (save : Bool) : Freezer × CallResult :=
  move .resume s o save

/-- What the environment chooses in a `start`. -/
structure StartChoice where
  /-- What the liveness probe of an Active silo comes to. -/
  verdict : Lifecycle.Verdict
  /-- The save of the forced Stopped succeeds. -/
  forced : Bool
  /-- The save of Active succeeds. -/
  save : Bool
  /-- `cgroup_create` succeeds. -/
  create : Bool
  thaw : FreezeChoice
  /-- How the egress setup and the launcher start end. -/
  launch : Lifecycle.Outcome
  deriving DecidableEq

/-- `_launch_silo_body` with the handling of its failure. -/
def launchBody (s : Freezer) (o : StartChoice) : Freezer × CallResult :=
  if o.create = false then ({ s with state := .stopped }, .raised)
  else
    let made := if s.cgroup then s else { s with cgroup := true, confirmed := false }
    let thawed := (made.cgroupFreeze false o.thaw).1
    match o.launch with
    | .ok => (thawed, .returned)
    | .raises => ({ thawed with state := .stopped }, .raised)
    | .unresolved => (thawed, .raised)

/-- `_claim_start_locked` and the body. -/
def claimStart (s : Freezer) (o : StartChoice) : Freezer × CallResult :=
  if .active ∈ transitions s.state then
    if o.save then launchBody { s with state := .active } o else (s, .raised)
  else (s, .raised)

/-- `_SiloStore.start` -/
def start (s : Freezer) (o : StartChoice) : Freezer × CallResult :=
  if s.state = .active then
    match o.verdict with
    | .alive => (s, .returned)
    | .unknown => (s, .raised)
    | .dead =>
      if o.forced then claimStart { s with state := .stopped } o
      else ({ s with state := .stopped }, .raised)
  else claimStart s o

/-- What the environment chooses in a `stop`. -/
structure StopChoice where
  /-- The save of Stopping succeeds. -/
  save : Bool
  thaw : FreezeChoice
  /-- `systemctl_stop` was acknowledged. -/
  acked : Bool
  /-- `cgroup_remove` succeeds. -/
  removed : Bool
  /-- Something else in the teardown raises. -/
  breaks : Bool
  /-- The save of Stopped succeeds. -/
  settle : Bool
  deriving DecidableEq

/-- `cgroup_remove`, an error of which is logged. -/
def cgroupRemove (s : Freezer) (removed : Bool) : Freezer :=
  if removed ∧ s.cgroup then
    { s with cgroup := false, freezeUnresolved := false, thawUnresolved := false }
  else s

/-- `_SiloStore.stop` -/
def stop (s : Freezer) (o : StopChoice) : Freezer × CallResult :=
  if s.state = .stopped then (s, .returned)
  else if s.state = .active ∨ s.state = .frozen then
    if o.save = false then (s, .raised)
    else
      let thawed := ({ s with state := .stopping }.cgroupFreeze false o.thaw).1
      let cleared := cgroupRemove thawed o.removed
      if o.acked = false then ({ cleared with state := .active }, .raised)
      else if o.breaks then ({ cleared with state := .stopped }, .raised)
      else if o.settle then ({ cleared with state := .stopped }, .returned)
      else (cleared, .raised)
  else (s, .raised)

/-! ## Runs -/

/-- The calls on a silo, and the return of a late write. -/
inductive FreezerEvent
  | freeze (o : FreezeChoice) (save : Bool)
  | resume (o : FreezeChoice) (save : Bool)
  | start (o : StartChoice)
  | stop (o : StopChoice)
  | writerEnds
  deriving DecidableEq

/-- One event. -/
def freezerStep (s : Freezer) : FreezerEvent → Freezer
  | .freeze o save => (freeze s o save).1
  | .resume o save => (resume s o save).1
  | .start o => (start s o).1
  | .stop o => (stop s o).1
  | .writerEnds => { s with writer := none }

/-- A silo that was just created. -/
def Freezer.fresh : Freezer := ⟨.created, false, false, none, false, false⟩

/-- The kernel last confirmed what a motion is for, and no write of the other kind is pending. -/
def Freezer.Truthful (s : Freezer) (m : Motion) : Prop :=
  s.confirmed = Motion.frozen m ∧ s.writer ≠ some (!Motion.frozen m)

/-- A freeze or a resume that returns tells the truth. -/
def Tells (s : Freezer) : FreezerEvent → Prop
  | .freeze o save => (freeze s o save).2 = .returned → (freeze s o save).1.Truthful .freeze
  | .resume o save => (resume s o save).2 = .returned → (resume s o save).1.Truthful .resume
  | _ => True

/-! ## When the views agree -/

/-- The thaw of a start or a stop is confirmed. -/
def Freezer.thaws (s : Freezer) (o : FreezeChoice) : Prop :=
  s.writer = none ∧ o.write = .ok ∧ o.settled = true

/-- What a start needs that leaves the silo Active: its thaw is confirmed, or it was not needed,
or the mark of an unresolved freeze stands. -/
def Freezer.StartsThawed (s : Freezer) (o : StartChoice) : Prop :=
  s.thaws o.thaw ∨ ((s.confirmed = false ∨ s.cgroup = false) ∧ s.writer ≠ some true) ∨
    s.freezeUnresolved = true

/-- What a stop needs that leaves the silo Active. -/
def Freezer.StopsThawed (s : Freezer) (o : StopChoice) : Prop :=
  s.thaws o.thaw ∨ (s.confirmed = false ∧ s.writer ≠ some true) ∨
    (s.freezeUnresolved = true ∧ ¬(o.removed = true ∧ s.cgroup = true))

/-- The start reaches its launch: it is Stopped, Created or Frozen, or Active and found dead. -/
def Freezer.Launches (s : Freezer) (o : StartChoice) : Prop :=
  (s.state = .active → o.verdict = .dead ∧ o.forced = true) ∧
    (s.state = .active ∨ SiloState.active ∈ transitions s.state) ∧ o.save = true ∧
    o.create = true ∧ o.launch ≠ .raises

/-- The motion reaches its last section with the kernel's confirmation. -/
def Freezer.Confirms (s : Freezer) (m : Motion) (o : FreezeChoice) : Prop :=
  s.state = m.source ∧ s.writer = none ∧ o.write = .ok ∧ o.settled = true

/-- **The condition.**  A confirmed freeze or resume can be saved, and a start or stop that leaves
the silo Active has thawed it. -/
def Sound (s : Freezer) : FreezerEvent → Prop
  | .freeze o save => s.Confirms .freeze o → save = true
  | .resume o save => s.Confirms .resume o → save = true
  | .start o => s.Launches o → s.StartsThawed o
  | .stop o =>
    (s.state = .active ∨ s.state = .frozen) → o.save = true → o.acked = false → s.StopsThawed o
  | .writerEnds => True

/-- **Invariant.**  In the state that a motion enters, its shortcut may be trusted. -/
def Faithful (s : Freezer) : Prop :=
  ∀ m : Motion, s.state = m.target → s.Truthful m ∨ s.unresolved m = true

/-! ## What a freezer write can do -/

namespace Freezer

/-- What an unconfirmed write leaves behind. -/
structure Unconfirmed (s s' : Freezer) : Prop where
  state : s'.state = s.state
  confirmed : s'.confirmed = s.confirmed
  cgroup : s'.cgroup = s.cgroup
  freezeMark : s.freezeUnresolved = true → s'.freezeUnresolved = true
  thawMark : s.thawUnresolved = true → s'.thawUnresolved = true
  /-- A write that stays in the kernel was there before, or is marked. -/
  writer : s'.writer = s.writer ∨ (s'.writer = some true ∧ s'.freezeUnresolved = true) ∨
    (s'.writer = some false ∧ s'.thawUnresolved = true)

theorem Unconfirmed.refl (s : Freezer) : Unconfirmed s s :=
  ⟨rfl, rfl, rfl, id, id, .inl rfl⟩

theorem unconfirmed_mark (s : Freezer) (frozen : Bool) : Unconfirmed s (s.mark frozen) := by
  cases frozen
  · exact ⟨rfl, rfl, rfl, id, fun _ => rfl, .inl rfl⟩
  · exact ⟨rfl, rfl, rfl, fun _ => rfl, id, .inl rfl⟩

theorem unconfirmed_boundedFreezeWrite (s : Freezer) (frozen : Bool) (o : WriteOutcome) :
    Unconfirmed s (s.boundedFreezeWrite frozen o).1 := by
  unfold boundedFreezeWrite
  split
  · exact .refl s
  · cases o with
    | ok => exact .refl s
    | refused => exact .refl s
    | late =>
      cases frozen
      · exact ⟨rfl, rfl, rfl, id, fun _ => rfl, .inr (.inr ⟨rfl, rfl⟩)⟩
      · exact ⟨rfl, rfl, rfl, fun _ => rfl, id, .inr (.inl ⟨rfl, rfl⟩)⟩
    | failed => exact unconfirmed_mark s frozen

variable {s : Freezer}

theorem boundedFreezeWrite_returned {frozen : Bool} {o : WriteOutcome} :
    (s.boundedFreezeWrite frozen o).2 = true ↔ s.writer = none ∧ o = .ok := by
  unfold boundedFreezeWrite
  cases hw : s.writer with
  | none => cases o <;> simp
  | some b => simp

theorem boundedFreezeWrite_ok {frozen : Bool} {o : WriteOutcome}
    (h : (s.boundedFreezeWrite frozen o).2 = true) :
    (s.boundedFreezeWrite frozen o).1 = s := by
  obtain ⟨hw, rfl⟩ := boundedFreezeWrite_returned.mp h
  simp [boundedFreezeWrite, hw]

theorem cgroupFreeze_confirmed {frozen : Bool} {o : FreezeChoice} (hw : s.writer = none)
    (ho : o.write = .ok) (hs : o.settled = true) :
    s.cgroupFreeze frozen o =
      ({ s with confirmed := frozen, freezeUnresolved := false, thawUnresolved := false }, true) := by
  have hret : (s.boundedFreezeWrite frozen o.write).2 = true :=
    boundedFreezeWrite_returned.mpr ⟨hw, ho⟩
  unfold cgroupFreeze
  dsimp only
  rw [if_neg (by rw [hret]; decide), if_pos hs, boundedFreezeWrite_ok hret]

theorem cgroupFreeze_unconfirmed {frozen : Bool} {o : FreezeChoice}
    (h : ¬(s.writer = none ∧ o.write = .ok ∧ o.settled = true)) :
    (s.cgroupFreeze frozen o).2 = false ∧ Unconfirmed s (s.cgroupFreeze frozen o).1 := by
  unfold cgroupFreeze
  dsimp only
  by_cases hret : (s.boundedFreezeWrite frozen o.write).2 = false
  · rw [if_pos hret]
    exact ⟨hret, unconfirmed_boundedFreezeWrite s frozen o.write⟩
  · rw [Bool.not_eq_false] at hret
    obtain ⟨hw, ho⟩ := boundedFreezeWrite_returned.mp hret
    rw [if_neg (by rw [hret]; decide), if_neg (fun hs => h ⟨hw, ho, hs⟩),
      boundedFreezeWrite_ok hret]
    cases frozen with
    | false => exact ⟨rfl, rfl, rfl, rfl, id, fun _ => rfl, .inl rfl⟩
    | true =>
      rw [if_pos rfl]
      refine ⟨rfl, ?_⟩
      have hb := unconfirmed_boundedFreezeWrite s false o.back
      dsimp only
      split
      · exact hb
      · refine ⟨hb.state, hb.confirmed, hb.cgroup, fun _ => rfl, hb.thawMark, ?_⟩
        rcases hb.writer with h' | ⟨h', -⟩ | ⟨h', ht⟩
        · exact .inl h'
        · exact .inr (.inl ⟨h', rfl⟩)
        · exact .inr (.inr ⟨h', ht⟩)

theorem cgroupFreeze_thaw_writer (o : FreezeChoice) (h : s.writer ≠ some true) :
    (s.cgroupFreeze false o).1.writer ≠ some true := by
  have hbound : (s.boundedFreezeWrite false o.write).1.writer ≠ some true := by
    unfold boundedFreezeWrite
    split
    · exact h
    · cases o.write <;> simp [mark, h]
  unfold cgroupFreeze
  dsimp only
  repeat' split
  all_goals first
    | exact hbound
    | contradiction

end Freezer

/-! ## One event -/

variable {s : Freezer}

theorem Faithful.tells_move (h : Faithful s) (m : Motion) (o : FreezeChoice) (save : Bool)
    (hr : (move m s o save).2 = .returned) : (move m s o save).1.Truthful m := by
  revert hr
  unfold move
  by_cases hshort : s.state = m.target ∧ s.unresolved m = false
  · rw [if_pos hshort]
    intro _
    refine (h m hshort.1).resolve_right fun hu => ?_
    rw [hshort.2] at hu
    cases hu
  · rw [if_neg hshort]
    by_cases hstate : s.state = m.target ∨ s.state = m.source
    · rw [if_pos hstate]
      dsimp only
      by_cases hconf : s.writer = none ∧ o.write = .ok ∧ o.settled = true
      · obtain ⟨hw, ho, hs⟩ := hconf
        rw [Freezer.cgroupFreeze_confirmed hw ho hs]
        have htrue : ∀ st, Freezer.Truthful { s with
            confirmed := Motion.frozen m, freezeUnresolved := false, thawUnresolved := false,
            state := st } m := by
          intro st
          exact ⟨rfl, by simp [hw]⟩
        dsimp only
        repeat' split
        · intro hr
          cases hr
        · exact fun _ => htrue _
        · intro hr
          cases hr
        · exact fun _ => htrue _
      · rw [if_pos (Freezer.cgroupFreeze_unconfirmed hconf).1]
        intro hr
        cases hr
    · rw [if_neg hstate]
      intro hr
      cases hr

theorem Faithful.tells (h : Faithful s) (e : FreezerEvent) : Tells s e := by
  cases e with
  | freeze o save => exact h.tells_move .freeze o save
  | resume o save => exact h.tells_move .resume o save
  | start o => trivial
  | stop o => trivial
  | writerEnds => trivial

theorem Faithful.unconfirmed {s' : Freezer} (h : Faithful s) (hu : s.Unconfirmed s') :
    Faithful s' := by
  intro m hm
  rw [hu.state] at hm
  rcases h m hm with ⟨hc, hw⟩ | hmark
  · rcases hu.writer with hw' | ⟨hw', hf⟩ | ⟨hw', ht⟩
    · exact .inl ⟨hu.confirmed.trans hc, hw' ▸ hw⟩
    · cases m with
      | freeze => exact .inl ⟨hu.confirmed.trans hc, by simp [hw', Motion.frozen]⟩
      | resume => exact .inr hf
    · cases m with
      | freeze => exact .inr ht
      | resume => exact .inl ⟨hu.confirmed.trans hc, by simp [hw', Motion.frozen]⟩
  · cases m with
    | freeze => exact .inr (hu.thawMark hmark)
    | resume => exact .inr (hu.freezeMark hmark)

theorem faithful_of_other (ha : s.state ≠ .active) (hf : s.state ≠ .frozen) :
    Faithful s := by
  intro m hm
  cases m with
  | freeze => exact absurd hm hf
  | resume => exact absurd hm ha

theorem faithful_of_active (ha : s.state = .active)
    (h : s.Truthful .resume ∨ s.freezeUnresolved = true) : Faithful s := by
  intro m hm
  cases m with
  | freeze =>
    rw [ha] at hm
    cases hm
  | resume => exact h

variable {o : FreezeChoice}

theorem Faithful.move (h : Faithful s) {m : Motion} {save : Bool}
    (hok : s.Confirms m o → save = true) : Faithful (move m s o save).1 := by
  unfold Silo.move
  by_cases hshort : s.state = m.target ∧ s.unresolved m = false
  · rw [if_pos hshort]
    exact h
  · rw [if_neg hshort]
    by_cases hstate : s.state = m.target ∨ s.state = m.source
    · rw [if_pos hstate]
      dsimp only
      by_cases hconf : s.writer = none ∧ o.write = .ok ∧ o.settled = true
      · obtain ⟨hw, ho, hs⟩ := hconf
        rw [Freezer.cgroupFreeze_confirmed hw ho hs]
        -- confirmed: the silo is in the state that the motion enters
        have hafter : ∀ s' : Freezer, s'.state = m.target → s'.confirmed = Motion.frozen m →
            s'.writer = none → Faithful s' := by
          intro s' hst hc hw' m' hm'
          have hmm : m' = m := by
            rw [hst] at hm'
            cases m <;> cases m' <;> first | rfl | cases hm'
          subst hmm
          exact .inl ⟨hc, by simp [hw']⟩
        dsimp only
        rw [if_neg (by decide)]
        by_cases hsrc : s.state = m.source
        · rw [if_pos hsrc, if_pos (hok ⟨hsrc, hw, ho, hs⟩)]
          exact hafter _ rfl rfl hw
        · rw [if_neg hsrc]
          exact hafter _ (hstate.resolve_right hsrc) rfl hw
      · obtain ⟨hret, hu⟩ := @Freezer.cgroupFreeze_unconfirmed s (Motion.frozen m) o hconf
        rw [if_pos hret]
        exact h.unconfirmed hu
    · rw [if_neg hstate]
      exact h

theorem faithful_thaw (ha : s.state = .active)
    (h : s.thaws o ∨ s.Truthful .resume ∨ s.freezeUnresolved = true) :
    Faithful (s.cgroupFreeze false o).1 := by
  by_cases hconf : s.thaws o
  · obtain ⟨hw, ho, hs⟩ := hconf
    rw [Freezer.cgroupFreeze_confirmed hw ho hs]
    exact faithful_of_active ha (.inl ⟨rfl, by simp [hw]⟩)
  · have hs := h.resolve_left hconf
    exact (faithful_of_active ha hs).unconfirmed (Freezer.cgroupFreeze_unconfirmed hconf).2

theorem faithful_launchBody (ha : s.state = .active) {o : StartChoice}
    (h : o.create = true → o.launch ≠ .raises → s.StartsThawed o) :
    Faithful (launchBody s o).1 := by
  unfold launchBody
  by_cases hc : o.create = false
  · rw [if_pos hc]
    exact faithful_of_other (by simp) (by simp)
  · rw [if_neg hc]
    rw [Bool.not_eq_false] at hc
    dsimp only
    generalize hmade : (if s.cgroup then s else { s with cgroup := true, confirmed := false }) = made
    have hraises : o.launch ≠ .raises → Faithful (made.cgroupFreeze false o.thaw).1 := by
      intro hl
      -- a fresh cgroup is thawed; an old one is as it was
      rw [← hmade]
      rcases h hc hl with hthaw | ⟨hconf, hw⟩ | hmark
      · split
        · exact faithful_thaw ha (.inl hthaw)
        · exact faithful_thaw ha (.inl hthaw)
      · split
        · next hcg =>
          have hconf := hconf.resolve_right (by simp [hcg])
          exact faithful_thaw ha (.inr (.inl ⟨hconf, hw⟩))
        · exact faithful_thaw ha (.inr (.inl ⟨rfl, hw⟩))
      · split
        · exact faithful_thaw ha (.inr (.inr hmark))
        · exact faithful_thaw ha (.inr (.inr hmark))
    cases hl : o.launch with
    | ok => exact hraises (by simp [hl])
    | raises => exact faithful_of_other (by simp) (by simp)
    | unresolved => exact hraises (by simp [hl])

theorem Faithful.start (h : Faithful s) {o : StartChoice} (hok : s.Launches o → s.StartsThawed o) :
    Faithful (start s o).1 := by
  have hclaim : ∀ st, (s.state = .active → o.verdict = .dead ∧ o.forced = true) →
      (s.state = .active ∨ SiloState.active ∈ transitions s.state) → Faithful { s with state := st } →
      Faithful (claimStart { s with state := st } o).1 := by
    intro st hactive hfrom hst
    unfold claimStart
    repeat' split
    · next hsave =>
      exact faithful_launchBody rfl fun hc hl => hok ⟨hactive, hfrom, hsave, hc, hl⟩
    · exact hst
    · exact hst
  unfold Silo.start
  by_cases ha : s.state = .active
  · rw [if_pos ha]
    have hstopped : Faithful { s with state := .stopped } := faithful_of_other (by simp) (by simp)
    cases hv : o.verdict with
    | alive => exact h
    | unknown => exact h
    | dead =>
      dsimp only
      split
      · next hf => exact hclaim .stopped (fun _ => ⟨hv, hf⟩) (.inl ha) hstopped
      · exact hstopped
  · rw [if_neg ha]
    by_cases ht : SiloState.active ∈ transitions s.state
    · exact hclaim s.state (fun h' => absurd h' ha) (.inr ht) h
    · unfold claimStart
      rw [if_neg ht]
      exact h

theorem faithful_stopActive {o : StopChoice} (h : s.StopsThawed o) :
    let cleared := cgroupRemove ({ s with state := .stopping }.cgroupFreeze false o.thaw).1 o.removed
    Faithful { cleared with state := .active } := by
  intro cleared
  apply faithful_of_active rfl
  have hremove : ∀ s' : Freezer, (cgroupRemove s' o.removed).confirmed = s'.confirmed ∧
      (cgroupRemove s' o.removed).writer = s'.writer := by
    intro s'
    unfold cgroupRemove
    split <;> exact ⟨rfl, rfl⟩
  have hmove : ∀ s' : Freezer, s'.confirmed = false → s'.writer ≠ some true →
      Freezer.Truthful { cgroupRemove s' o.removed with state := .active } .resume := by
    intro s' hc hw
    refine ⟨(hremove s').1.trans hc, ?_⟩
    show (cgroupRemove s' o.removed).writer ≠ some true
    rw [(hremove s').2]
    exact hw
  by_cases hconf : s.thaws o.thaw
  · obtain ⟨hw, ho, hs⟩ := hconf
    left
    apply hmove
    · rw [@Freezer.cgroupFreeze_confirmed { s with state := .stopping } false _ hw ho hs]
    · rw [@Freezer.cgroupFreeze_confirmed { s with state := .stopping } false _ hw ho hs]
      simp [hw]
  · have hu := (@Freezer.cgroupFreeze_unconfirmed { s with state := .stopping } false o.thaw hconf).2
    rcases h.resolve_left hconf with ⟨hc, hw⟩ | ⟨hmark, hkept⟩
    · left
      apply hmove
      · exact hu.confirmed.trans hc
      · exact Freezer.cgroupFreeze_thaw_writer o.thaw hw
    · right
      have hcg : ¬(o.removed = true ∧
          ({ s with state := .stopping }.cgroupFreeze false o.thaw).1.cgroup = true) := by
        rw [hu.cgroup]
        exact hkept
      show (cgroupRemove _ o.removed).freezeUnresolved = true
      unfold cgroupRemove
      rw [if_neg hcg]
      exact hu.freezeMark hmark

theorem cgroupFreeze_state (s : Freezer) (frozen : Bool) (o : FreezeChoice) :
    (s.cgroupFreeze frozen o).1.state = s.state := by
  by_cases hconf : s.writer = none ∧ o.write = .ok ∧ o.settled = true
  · rw [Freezer.cgroupFreeze_confirmed hconf.1 hconf.2.1 hconf.2.2]
  · exact (Freezer.cgroupFreeze_unconfirmed hconf).2.state

theorem cgroupRemove_state (s : Freezer) (removed : Bool) :
    (cgroupRemove s removed).state = s.state := by
  unfold cgroupRemove
  split <;> rfl

theorem Faithful.stop (h : Faithful s) {o : StopChoice}
    (hok : (s.state = .active ∨ s.state = .frozen) → o.save = true → o.acked = false →
      s.StopsThawed o)
    : Faithful (stop s o).1 := by
  unfold Silo.stop
  dsimp only
  repeat' split
  · exact h
  · exact h
  · next hst hsave hack =>
    exact faithful_stopActive (hok hst (Bool.not_eq_false _ ▸ hsave) hack)
  · exact faithful_of_other (by simp) (by simp)
  · exact faithful_of_other (by simp) (by simp)
  · apply faithful_of_other
    · rw [cgroupRemove_state, cgroupFreeze_state]
      simp
    · rw [cgroupRemove_state, cgroupFreeze_state]
      simp
  · exact h

/-- **Step lemma.**  A sound event keeps the trust. -/
theorem Faithful.step (h : Faithful s) {e : FreezerEvent} (hok : Sound s e) :
    Faithful (freezerStep s e) := by
  cases e with
  | freeze o save => exact h.move hok
  | resume o save => exact h.move hok
  | start o => exact h.start hok
  | stop o => exact h.stop hok
  | writerEnds =>
    intro m hm
    rcases h m hm with ⟨hc, -⟩ | hu
    · exact .inl ⟨hc, by simp [freezerStep]⟩
    · cases m <;> exact .inr hu

theorem faithful_fresh : Faithful Freezer.fresh := faithful_of_other (by decide) (by decide)

/-! ## Where the condition fails -/

theorem resume_lies (ha : s.state = .active) (hf : s.freezeUnresolved = false)
    (h : s.confirmed = true ∨ s.writer = some true) :
    ¬Tells s (.resume ⟨.ok, true, .ok⟩ true) := by
  intro htells
  have hshort : resume s ⟨.ok, true, .ok⟩ true = (s, .returned) := by
    unfold resume move
    rw [if_pos ⟨ha, hf⟩]
  simp only [Tells] at htells
  rw [hshort] at htells
  obtain ⟨hc, hw⟩ := htells rfl
  rcases h with h | h
  · rw [h] at hc
    cases hc
  · exact hw h

theorem freeze_lies (ha : s.state = .frozen) (ht : s.thawUnresolved = false)
    (h : s.confirmed = false) : ¬Tells s (.freeze ⟨.ok, true, .ok⟩ true) := by
  intro htells
  have hshort : freeze s ⟨.ok, true, .ok⟩ true = (s, .returned) := by
    unfold freeze move
    rw [if_pos ⟨ha, ht⟩]
  simp only [Tells] at htells
  rw [hshort] at htells
  obtain ⟨hc, -⟩ := htells rfl
  rw [h] at hc
  cases hc

theorem move_unsaved {m : Motion} (h : s.Confirms m o) :
    (move m s o false).1 = { s with
      confirmed := Motion.frozen m, freezeUnresolved := false, thawUnresolved := false } := by
  obtain ⟨hsrc, hw, ho, hs⟩ := h
  have hne : m.source ≠ m.target := by cases m <;> decide
  unfold move
  rw [if_neg (by rw [hsrc]; exact fun h' => hne h'.1), if_pos (.inr hsrc),
    Freezer.cgroupFreeze_confirmed hw ho hs]
  dsimp only
  rw [if_neg (by decide), if_pos hsrc, if_neg (by decide)]

theorem cgroupFreeze_thaw (h : ¬s.thaws o) :
    (s.cgroupFreeze false o).1.freezeUnresolved = s.freezeUnresolved ∧
      (s.writer = some true → (s.cgroupFreeze false o).1.writer = some true) := by
  constructor
  · unfold Freezer.cgroupFreeze Freezer.boundedFreezeWrite
    cases hw : s.writer with
    | some b => simp
    | none =>
      cases ho : o.write with
      | ok =>
        have hs : o.settled = false := by
          by_contra hs
          exact h ⟨hw, ho, by simpa using hs⟩
        simp [hs]
      | refused => simp
      | late => simp [Freezer.mark]
      | failed => simp [Freezer.mark]
  · intro hw
    simp [Freezer.cgroupFreeze, Freezer.boundedFreezeWrite, hw]

theorem start_launched {o : StartChoice} (h : s.Launches o) :
    (start s o).1 = ((if s.cgroup then { s with state := .active }
      else { s with state := .active, cgroup := true, confirmed := false }).cgroupFreeze false
        o.thaw).1 := by
  obtain ⟨hdead, hfrom, hsave, hcreate, hlaunch⟩ := h
  have hbody : (launchBody { s with state := .active } o).1 = ((if s.cgroup then
      { s with state := .active } else
        { s with state := .active, cgroup := true, confirmed := false }).cgroupFreeze false
          o.thaw).1 := by
    unfold launchBody
    rw [if_neg (by rw [hcreate]; decide)]
    cases hl : o.launch with
    | ok => rfl
    | raises => exact absurd hl hlaunch
    | unresolved => rfl
  unfold start
  by_cases ha : s.state = .active
  · obtain ⟨hv, hf⟩ := hdead ha
    rw [if_pos ha, hv]
    dsimp only
    rw [if_pos hf]
    unfold claimStart
    rw [if_pos (by simp [transitions]), if_pos hsave]
    exact hbody
  · rw [if_neg ha]
    unfold claimStart
    rw [if_pos (hfrom.resolve_left ha), if_pos hsave]
    exact hbody

theorem thaw_lies (ha : s.state = .active) (ho : ¬s.thaws o) (hf : s.freezeUnresolved = false)
    (h : s.confirmed = true ∨ s.writer = some true) :
    ∃ e', ¬Tells (s.cgroupFreeze false o).1 e' := by
  have hu := (@Freezer.cgroupFreeze_unconfirmed s false o ho).2
  obtain ⟨hmark, hw⟩ := cgroupFreeze_thaw ho
  exact ⟨_, resume_lies (hu.state.trans ha) (hmark.trans hf)
    (h.imp (fun hc => hu.confirmed.trans hc) hw)⟩

theorem start_lies {o : StartChoice} (hl : s.Launches o) (h : ¬s.StartsThawed o) :
    ∃ e', ¬Tells (start s o).1 e' := by
  obtain ⟨hthaw, hrest⟩ := not_or.mp h
  obtain ⟨hneeded, hmark⟩ := not_or.mp hrest
  rw [Bool.not_eq_true] at hmark
  have hpending : s.writer ≠ some true → s.confirmed = true ∧ s.cgroup = true := by
    intro hw
    have hnot := not_or.mp fun hc => hneeded ⟨hc, hw⟩
    exact ⟨Bool.not_eq_false _ ▸ hnot.1, Bool.not_eq_false _ ▸ hnot.2⟩
  rw [start_launched hl]
  by_cases hw : s.writer = some true
  · split
    · exact thaw_lies rfl hthaw hmark (.inr hw)
    · exact thaw_lies rfl hthaw hmark (.inr hw)
  · obtain ⟨hc, hcg⟩ := hpending hw
    rw [if_pos hcg]
    exact thaw_lies rfl hthaw hmark (.inl hc)

theorem stop_lies {o : StopChoice} (hst : s.state = .active ∨ s.state = .frozen)
    (hsave : o.save = true) (hack : o.acked = false) (h : ¬s.StopsThawed o) :
    ∃ e', ¬Tells (stop s o).1 e' := by
  obtain ⟨hthaw, hrest⟩ := not_or.mp h
  obtain ⟨hneeded, hmark⟩ := not_or.mp hrest
  have hu := (@Freezer.cgroupFreeze_unconfirmed { s with state := .stopping } false o.thaw hthaw).2
  obtain ⟨hsame, hw⟩ := @cgroupFreeze_thaw { s with state := .stopping } o.thaw hthaw
  have hne : s.state ≠ .stopped := by
    rcases hst with h' | h' <;> rw [h'] <;> decide
  have hafter : (stop s o).1 = { cgroupRemove ({ s with state := .stopping }.cgroupFreeze false
      o.thaw).1 o.removed with state := .active } := by
    unfold stop
    rw [if_neg hne, if_pos hst, if_neg (by rw [hsave]; decide)]
    dsimp only
    rw [if_pos hack]
  rw [hafter]
  generalize ({ s with state := .stopping }.cgroupFreeze false o.thaw).1 = s' at hu hsame hw ⊢
  refine ⟨_, resume_lies rfl ?_ ?_⟩
  · show (cgroupRemove s' o.removed).freezeUnresolved = false
    unfold cgroupRemove
    split
    · rfl
    · next hrem =>
      rw [hu.cgroup] at hrem
      rw [hsame]
      by_contra hf
      exact hmark ⟨by simpa using hf, hrem⟩
  · have hkeep : (cgroupRemove s' o.removed).confirmed = s'.confirmed ∧
        (cgroupRemove s' o.removed).writer = s'.writer := by
      unfold cgroupRemove
      split <;> exact ⟨rfl, rfl⟩
    show (cgroupRemove s' o.removed).confirmed = true ∨ (cgroupRemove s' o.removed).writer = some true
    rw [hkeep.1, hkeep.2, hu.confirmed]
    by_cases hwr : s.writer = some true
    · exact .inr (hw hwr)
    · left
      by_contra hc
      exact hneeded ⟨by simpa using hc, hwr⟩

theorem lies_of_not_sound {e : FreezerEvent} (h : ¬Sound s e) :
    ∃ e', ¬Tells (freezerStep s e) e' := by
  cases e with
  | freeze o save =>
    obtain ⟨hconf, hsave⟩ := Classical.not_imp.mp h
    rw [Bool.not_eq_true] at hsave
    subst hsave
    have hafter : freezerStep s (.freeze o false) = _ := move_unsaved hconf
    rw [hafter]
    exact ⟨_, resume_lies hconf.1 rfl (.inl rfl)⟩
  | resume o save =>
    obtain ⟨hconf, hsave⟩ := Classical.not_imp.mp h
    rw [Bool.not_eq_true] at hsave
    subst hsave
    have hafter : freezerStep s (.resume o false) = _ := move_unsaved hconf
    rw [hafter]
    exact ⟨_, freeze_lies hconf.1 rfl rfl⟩
  | start o =>
    obtain ⟨hl, hthaw⟩ := Classical.not_imp.mp h
    exact start_lies hl hthaw
  | stop o =>
    obtain ⟨hst, h⟩ := Classical.not_imp.mp h
    obtain ⟨hsave, h⟩ := Classical.not_imp.mp h
    obtain ⟨hack, hthaw⟩ := Classical.not_imp.mp h
    exact stop_lies hst hsave hack hthaw
  | writerEnds => exact absurd trivial h

/-! ## Runs -/

/-- **Freeze and resume tell the truth, exactly.**  The events of a run are all sound if and only
if every call that could follow them or one of their prefixes tells the truth. -/
theorem truthful_iff_sound (events : List FreezerEvent) :
    Meets freezerStep Sound Freezer.fresh events ↔
      ∀ before after e, events = before ++ after → Tells (run freezerStep Freezer.fresh before) e := by
  constructor
  · rintro hm before after e rfl
    have hbefore := (Meets.append.mp hm).1
    exact (hbefore.invariant (fun s e hok h => .step h hok) faithful_fresh).tells e
  · intro htells
    have hall : ∀ (done rest : List FreezerEvent), events = done ++ rest →
        Meets freezerStep Sound (run freezerStep Freezer.fresh done) rest := by
      intro done rest
      induction rest generalizing done with
      | nil => exact fun _ => trivial
      | cons e rest ih =>
        intro heq
        have heq' : events = (done ++ [e]) ++ rest := by simp [heq]
        have hrun : run freezerStep Freezer.fresh (done ++ [e]) =
            freezerStep (run freezerStep Freezer.fresh done) e := by
          rw [run_append]
          rfl
        refine ⟨?_, hrun ▸ ih (done ++ [e]) heq'⟩
        by_contra hns
        obtain ⟨e', hlies⟩ := lies_of_not_sound hns
        rw [← hrun] at hlies
        exact hlies (htells (done ++ [e]) rest e' heq')
    exact hall [] events rfl

/-- A started silo whose confirmed freeze could not be saved. -/
def unsavedFreeze : List FreezerEvent :=
  [.start ⟨.alive, true, true, true, ⟨.ok, true, .ok⟩, .ok⟩, .freeze ⟨.ok, true, .ok⟩ false]

/-- `resume` then returns over a frozen silo. -/
theorem unsaved_freeze_lies :
    (resume (run freezerStep Freezer.fresh unsavedFreeze) ⟨.ok, true, .ok⟩ true).2 = .returned ∧
      ¬Tells (run freezerStep Freezer.fresh unsavedFreeze) (.resume ⟨.ok, true, .ok⟩ true) := by
  refine ⟨by decide, fun h => ?_⟩
  exact absurd (h (by decide)).1 (by decide)

end Silo
