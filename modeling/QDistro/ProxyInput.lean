/-
# Held input over the life of a proxy

`RemoteProxyLifecycle` as its callers see it: the calls with the values they may be given, what
each returns, and the keys and buttons that are held in between.  Every press that is accepted is
released once, by a release event or by the call that ends the attachment.
-/
import QDistro.MediaSource
import Mathlib.Data.List.Count

namespace RemoteNested

open RemoteProxyLifecycle List

/-! ## The calls -/

/-- An integer argument that has to be at least `least`; `none` is any value that is not an
integer, or is a `bool`. -/
def atLeast (least : ℕ) (message : String) : Option ℤ → Checked ℕ
  | none => .error ⟨.replay, message⟩
  | some n => if n < least then .error ⟨.replay, message⟩ else .ok n.toNat

/-- What a call comes to: an exception, an accepted input event or the releases it returns. -/
inductive Outcome where
  | raised (e : RemoteError)
  | recorded (epoch : ℕ) (input : InputRelease) (pressed : Bool)
  | returned (releases : List InputRelease)
  deriving DecidableEq, Repr

/-- A call of a method of `RemoteProxyLifecycle`.  A kind that is no `InputKind`, and a `pressed`
or `source_alive` that is no `bool`, is `none`. -/
inductive Call where
  | announce (epoch sourceRevision : Option ℤ)
  | reconcile (epoch sourceRevision : Option ℤ) (sourceAlive : Option Bool)
  | transportLost
  | sourceClosed (sourceRevision : Option ℤ)
  | recordInput (epoch : Option ℤ) (kind : Option InputKind) (code : Option ℤ)
      (pressed : Option Bool)
  deriving DecidableEq, Repr

namespace RemoteProxyLifecycle

variable (l : RemoteProxyLifecycle)

/-- `_advance` -/
def advanceCall (epoch sourceRevision : Option ℤ) : Checked RemoteProxyLifecycle := do
  let epoch ← atLeast (l.epoch + 1) "connection epoch is stale" epoch
  let sourceRevision ← atLeast l.sourceRevision "source revision is stale" sourceRevision
  return { l with epoch, sourceRevision }

/-- `announce`; `_advance` has taken effect when `attach` raises. -/
def announceCall (epoch sourceRevision : Option ℤ) : RemoteProxyLifecycle × Outcome :=
  match l.advanceCall epoch sourceRevision with
  | .error e => (l, .raised e)
  | .ok l' =>
    match l'.input.attach l'.epoch with
    | .error e => (l', .raised e)
    | .ok input =>
      ({ l' with input, sourceAlive := true, state := .attached }, .returned l'.input.releases)

/-- The end of `source_closed`, and of `reconcile` with a dead source. -/
def close : RemoteProxyLifecycle × Outcome :=
  ({ l with input := l.input.detach, sourceAlive := false, state := .closed },
    .returned l.input.releases)

/-- `reconcile`; with a live source it does what `announce` does. -/
def reconcileCall (epoch sourceRevision : Option ℤ) :
    Option Bool → RemoteProxyLifecycle × Outcome
  | none => (l, .raised ⟨.adapter, "source_alive must be boolean"⟩)
  | some true => l.announceCall epoch sourceRevision
  | some false =>
    match l.advanceCall epoch sourceRevision with
    | .error e => (l, .raised e)
    | .ok l' => l'.close

/-- `source_closed` -/
def sourceClosedCall (sourceRevision : Option ℤ) : RemoteProxyLifecycle × Outcome :=
  match atLeast (l.sourceRevision + 1) "source close revision is stale" sourceRevision with
  | .error e => (l, .raised e)
  | .ok sourceRevision => close { l with sourceRevision }

/-- `record_input`.  A kind or a code of another type fails the test that `motion` and `0` fail;
`pressed` is tested last. -/
def recordCall (epoch : Option ℤ) (kind : Option InputKind) (code : Option ℤ)
    (pressed : Option Bool) : RemoteProxyLifecycle × Outcome :=
  match epoch with
  | none => (l, .raised ⟨.adapter, "input epoch must be an integer"⟩)
  | some epoch =>
    if epoch < 0 then (l, .raised ⟨.replay, "input epoch is stale"⟩)
    else
      let kind := kind.getD .motion
      let code := code.getD 0
      match l.input.record epoch.toNat kind code (pressed.getD false), pressed with
      | .error e, _ => (l, .raised e)
      | .ok _, none => (l, .raised ⟨.adapter, "pressed must be boolean"⟩)
      | .ok input, some pressed =>
        ({ l with input }, .recorded epoch.toNat ⟨kind, code.toNat⟩ pressed)

/-- One call: the state it leaves and what it comes to. -/
def call : Call → RemoteProxyLifecycle × Outcome
  | .announce epoch sourceRevision => l.announceCall epoch sourceRevision
  | .reconcile epoch sourceRevision sourceAlive => l.reconcileCall epoch sourceRevision sourceAlive
  | .transportLost => (l.transportLost, .returned l.input.releases)
  | .sourceClosed sourceRevision => l.sourceClosedCall sourceRevision
  | .recordInput epoch kind code pressed => l.recordCall epoch kind code pressed

/-- The state after a sequence of calls. -/
def after (calls : List Call) : RemoteProxyLifecycle := calls.foldl (fun l c => (l.call c).1) l

/-- What the calls of a sequence come to, in order. -/
def outcomes (l : RemoteProxyLifecycle) : List Call → List Outcome
  | [] => []
  | c :: calls => (l.call c).2 :: outcomes (l.call c).1 calls

end RemoteProxyLifecycle

/-! ## What is held -/

/-- The held set that a kind of input goes to. -/
def RemoteInputState.held (i : RemoteInputState) : InputKind → List ℕ
  | .key => i.heldKeys
  | .button => i.heldButtons
  | _ => []

/-- `key` is pressed and not released. -/
def RemoteProxyLifecycle.Holds (l : RemoteProxyLifecycle) (key : InputRelease) : Prop :=
  key.code ∈ l.input.held key.kind

/-- How often an outcome releases `key`. -/
def Outcome.releases (key : InputRelease) : Outcome → ℕ
  | .raised _ => 0
  | .recorded _ input pressed => if input = key ∧ pressed = false then 1 else 0
  | .returned rs => rs.count key

/-- The outcome is an accepted press of `key`. -/
def Outcome.Presses (key : InputRelease) (o : Outcome) : Prop :=
  ∃ epoch, o = .recorded epoch key true

/-- The epoch of an accepted input event. -/
def Outcome.epoch? : Outcome → Option ℕ
  | .recorded epoch _ _ => some epoch
  | _ => none

/-- Input is attached exactly in state `attached`, in the epoch of the connection, and nothing is
held otherwise. -/
structure RemoteProxyLifecycle.Sound (l : RemoteProxyLifecycle) : Prop where
  attached_iff : l.input.attached = true ↔ l.state = .attached
  epoch_le : l.input.epoch ≤ l.epoch
  epoch_eq : l.state = .attached → l.input.epoch = l.epoch
  empty : l.state ≠ .attached → l.input.heldKeys = [] ∧ l.input.heldButtons = []
  keys : l.input.heldKeys.Nodup
  buttons : l.input.heldButtons.Nodup

theorem count_releases (i : RemoteInputState) (key : InputRelease) :
    i.releases.count key = (i.held key.kind).count key.code := by
  have hkind : ∀ (kind : InputKind) (codes : List ℕ),
      ((codes.mergeSort (· ≤ ·)).map (⟨kind, ·⟩)).count key =
        if kind = key.kind then codes.count key.code else 0 := by
    intro kind codes
    by_cases h : kind = key.kind
    · subst h
      rw [if_pos rfl, ← (mergeSort_perm codes (· ≤ ·)).count_eq]
      have hinj : Function.Injective (InputRelease.mk key.kind) :=
        fun a b hab => (InputRelease.mk.inj hab).2
      exact count_map_of_injective _ _ hinj key.code
    · rw [if_neg h, count_eq_zero]
      intro hmem
      obtain ⟨code, -, rfl⟩ := mem_map.mp hmem
      exact h rfl
  rw [RemoteInputState.releases, count_append, hkind, hkind]
  rcases key with ⟨kind, code⟩
  cases kind <;> simp [RemoteInputState.held]

theorem record_eq_ok {i i' : RemoteInputState} {epoch : ℕ} {kind : InputKind} {code : ℤ}
    {pressed : Bool} (h : i.record epoch kind code pressed = .ok i') :
    epoch = i.epoch ∧ i.attached = true ∧ i'.epoch = i.epoch ∧ i'.attached = true ∧
      ∀ kind', i'.held kind' =
        if kind' = kind then
          if pressed then (i.held kind).insert code.toNat else (i.held kind).erase code.toNat
        else i.held kind' := by
  simp only [RemoteInputState.record, Checked.bind_eq_ok, guardError_eq_ok] at h
  obtain ⟨_, -, _, hepoch, _, hattached, _, hkind, _, -, h⟩ := h
  have hepoch : epoch = i.epoch := by simpa using hepoch
  have hattached : i.attached = true := by simpa using hattached
  have h := Except.ok.inj h
  cases kind with
  | key =>
    rw [if_pos rfl] at h
    subst h
    exact ⟨hepoch, hattached, rfl, hattached, fun kind' => by cases kind' <;> rfl⟩
  | button =>
    rw [if_neg (by decide)] at h
    subst h
    exact ⟨hepoch, hattached, rfl, hattached, fun kind' => by cases kind' <;> rfl⟩
  | motion => cases hkind
  | axis => cases hkind
  | focus => cases hkind

variable {l : RemoteProxyLifecycle}

theorem atLeast_eq_ok {least n : ℕ} {message : String} {v : Option ℤ}
    (h : atLeast least message v = .ok n) : least ≤ n := by
  cases v with
  | none => cases h
  | some z =>
    rw [atLeast] at h
    by_cases hz : z < least
    · rw [if_pos hz] at h
      cases h
    · rw [if_neg hz] at h
      have hn := Except.ok.inj h
      omega

theorem advanceCall_eq_ok {l' : RemoteProxyLifecycle} {epoch sourceRevision : Option ℤ}
    (h : l.advanceCall epoch sourceRevision = .ok l') :
    l.epoch < l'.epoch ∧ l'.input = l.input ∧ l'.state = l.state := by
  obtain ⟨e, he, h⟩ := Checked.bind_eq_ok.mp h
  obtain ⟨r, -, h⟩ := Checked.bind_eq_ok.mp h
  have h := Except.ok.inj h
  subst h
  exact ⟨atLeast_eq_ok he, rfl, rfl⟩

/-- The call ended or replaced the attachment of `l`: it returned what was held, and holds
nothing. -/
def Flushed (l l' : RemoteProxyLifecycle) (o : Outcome) : Prop :=
  o = .returned l.input.releases ∧ l'.Sound ∧ (∀ key, ¬ l'.Holds key) ∧
    l.input.epoch ≤ l'.input.epoch ∧ (l'.state = .attached → l.epoch < l'.epoch)

/-- The call was an accepted input event. -/
def Noted (l l' : RemoteProxyLifecycle) (o : Outcome) : Prop :=
  ∃ key pressed, o = .recorded l.epoch key pressed ∧ l.state = .attached ∧ l'.Sound ∧
    l'.input.epoch = l.input.epoch ∧
    ∀ key', l'.Holds key' ↔ if key' = key then pressed = true else l.Holds key'

theorem not_holds_of_empty (hkeys : l.input.heldKeys = []) (hbuttons : l.input.heldButtons = [])
    (key : InputRelease) : ¬ l.Holds key := by
  rcases key with ⟨kind, code⟩
  cases kind <;> simp [RemoteProxyLifecycle.Holds, RemoteInputState.held, hkeys, hbuttons]

section

variable (hl : l.Sound)
include hl

theorem announce_cases (epoch sourceRevision : Option ℤ) :
    (∃ e, l.announceCall epoch sourceRevision = (l, .raised e)) ∨
      Flushed l (l.announceCall epoch sourceRevision).1
        (l.announceCall epoch sourceRevision).2 := by
  unfold announceCall
  cases h : l.advanceCall epoch sourceRevision with
  | error e => exact .inl ⟨e, rfl⟩
  | ok l' =>
    obtain ⟨hepoch, hinput, hstate⟩ := advanceCall_eq_ok h
    have hle := hl.epoch_le
    have hattach : l'.input.attach l'.epoch =
        .ok { l'.input.detach with epoch := l'.epoch, attached := true } := by
      unfold RemoteInputState.attach
      rw [guardError_pass (decide_eq_false (by rw [hinput]; omega))]
      rfl
    refine .inr ?_
    dsimp only
    rw [hattach]
    refine ⟨by rw [hinput], ⟨?_, ?_, ?_, ?_, ?_, ?_⟩, ?_, ?_, ?_⟩
    · exact ⟨fun _ => rfl, fun _ => rfl⟩
    · exact Nat.le_refl _
    · exact fun _ => rfl
    · exact fun hne => absurd rfl hne
    · exact nodup_nil
    · exact nodup_nil
    · exact not_holds_of_empty rfl rfl
    · show l.input.epoch ≤ l'.epoch
      omega
    · exact fun _ => hepoch

theorem flushed_detach {l' : RemoteProxyLifecycle} (hinput : l'.input = l.input.detach)
    (hepoch : l.epoch ≤ l'.epoch) (hstate : l'.state ≠ .attached)
    : Flushed l l' (.returned l.input.releases) := by
  refine ⟨rfl, ⟨?_, ?_, ?_, ?_, ?_, ?_⟩, ?_, ?_, fun h => absurd h hstate⟩
  · rw [hinput]
    exact ⟨fun h => (by cases h), fun h => absurd h hstate⟩
  · rw [hinput]
    exact Nat.le_trans hl.epoch_le hepoch
  · exact fun h => absurd h hstate
  · rw [hinput]
    exact fun _ => ⟨rfl, rfl⟩
  · rw [hinput]
    exact nodup_nil
  · rw [hinput]
    exact nodup_nil
  · exact not_holds_of_empty (by rw [hinput]; rfl) (by rw [hinput]; rfl)
  · rw [hinput]
    exact Nat.le_refl _

theorem RemoteProxyLifecycle.Sound.held_nodup (kind : InputKind) :
    (l.input.held kind).Nodup := by
  cases kind with
  | key => exact hl.keys
  | button => exact hl.buttons
  | motion => exact nodup_nil
  | axis => exact nodup_nil
  | focus => exact nodup_nil

theorem noted_of_record {i : RemoteInputState} {epoch : ℕ} {kind : InputKind} {code : ℤ}
    {pressed : Bool} (h : l.input.record epoch kind code pressed = .ok i) :
    Noted l { l with input := i } (.recorded epoch ⟨kind, code.toNat⟩ pressed) := by
  obtain ⟨hepoch, hattached, hepoch', hattached', hheld⟩ := record_eq_ok h
  have hstate := hl.attached_iff.mp hattached
  have hnodup : ∀ kind', (i.held kind').Nodup := by
    intro kind'
    rw [hheld kind']
    by_cases hkind : kind' = kind
    · rw [if_pos hkind]
      cases pressed with
      | true => exact (hl.held_nodup kind).insert
      | false => exact (hl.held_nodup kind).erase _
    · rw [if_neg hkind]
      exact hl.held_nodup kind'
  refine ⟨⟨kind, code.toNat⟩, pressed, ?_, hstate, ⟨?_, ?_, ?_, ?_, ?_, ?_⟩, hepoch', ?_⟩
  · rw [hepoch, hl.epoch_eq hstate]
  · exact ⟨fun _ => hstate, fun _ => hattached'⟩
  · exact hepoch'.le.trans hl.epoch_le
  · exact fun _ => hepoch'.trans (hl.epoch_eq hstate)
  · exact fun hne => absurd hstate hne
  · exact hnodup .key
  · exact hnodup .button
  · rintro ⟨kind', code'⟩
    show code' ∈ i.held kind' ↔ if _ then _ else code' ∈ l.input.held kind'
    rw [hheld kind']
    by_cases hkind : kind' = kind
    · subst hkind
      rw [if_pos rfl]
      have hmem := (hl.held_nodup kind').mem_erase_iff (a := code') (b := code.toNat)
      cases pressed with
      | true => by_cases hcode : code' = code.toNat <;> simp [hcode]
      | false =>
        simp only [Bool.false_eq_true, if_false, hmem]
        by_cases hcode : code' = code.toNat <;> simp [hcode]
    · simp [hkind]

/-- What a call can do: raise and change nothing, accept an input event, or flush what is held. -/
def Effect (l : RemoteProxyLifecycle) (r : RemoteProxyLifecycle × Outcome) : Prop :=
  (∃ e, r = (l, .raised e)) ∨ Noted l r.1 r.2 ∨ Flushed l r.1 r.2

theorem effect_announce (epoch sourceRevision : Option ℤ) :
    Effect l (l.announceCall epoch sourceRevision) := by
  rcases announce_cases hl epoch sourceRevision with h | h
  · exact .inl h
  · exact .inr (.inr h)

theorem effect_record (epoch : Option ℤ) (kind : Option InputKind) (code : Option ℤ)
    (pressed : Option Bool) :
    Effect l (l.recordCall epoch kind code pressed) := by
  rcases epoch with _ | epoch
  · exact .inl ⟨_, rfl⟩
  rw [recordCall]
  by_cases hneg : epoch < 0
  · rw [if_pos hneg]
    exact .inl ⟨_, rfl⟩
  rw [if_neg hneg]
  dsimp only
  cases h : l.input.record epoch.toNat (kind.getD .motion) (code.getD 0)
      (pressed.getD false) with
  | error e => exact .inl ⟨e, rfl⟩
  | ok i =>
    rcases pressed with _ | pressed
    · exact .inl ⟨_, rfl⟩
    · exact .inr (.inl (noted_of_record hl h))

theorem call_effect (c : Call) : Effect l (l.call c) := by
  cases c with
  | announce epoch sourceRevision => exact effect_announce hl epoch sourceRevision
  | recordInput epoch kind code pressed => exact effect_record hl epoch kind code pressed
  | reconcile epoch sourceRevision sourceAlive =>
    rcases sourceAlive with _ | _ | _
    · exact .inl ⟨_, rfl⟩
    · show Effect l (l.reconcileCall epoch sourceRevision (some false))
      rw [reconcileCall]
      cases h : l.advanceCall epoch sourceRevision with
      | error e => exact .inl ⟨e, rfl⟩
      | ok l' =>
        obtain ⟨hepoch, hinput, -⟩ := advanceCall_eq_ok h
        refine .inr (.inr ?_)
        show Flushed l l'.close.1 (.returned l'.input.releases)
        rw [hinput]
        have hdetach : l'.close.1.input = l.input.detach := congrArg RemoteInputState.detach hinput
        exact flushed_detach hl hdetach hepoch.le (fun hstate => by cases hstate)
    · exact effect_announce hl epoch sourceRevision
  | transportLost =>
    refine .inr (.inr (flushed_detach hl rfl (Nat.le_refl _) ?_))
    show (if l.state = .attached then .detached else l.state) ≠ _
    by_cases hstate : l.state = .attached
    · rw [if_pos hstate]
      exact fun h => (by cases h)
    · rw [if_neg hstate]
      exact hstate
  | sourceClosed sourceRevision =>
    show Effect l (l.sourceClosedCall sourceRevision)
    unfold sourceClosedCall
    cases h : atLeast (l.sourceRevision + 1) "source close revision is stale" sourceRevision with
    | error e => exact .inl ⟨e, rfl⟩
    | ok n =>
      refine .inr (.inr (flushed_detach hl ?_ (Nat.le_refl _) ?_))
      · rfl
      · exact fun hstate => (by cases hstate)

end

/-! ## What one call does to a key -/

section Key

variable (key : InputRelease)

theorem call_sound (hl : l.Sound) (c : Call) : (l.call c).1.Sound := by
  rcases call_effect hl c with ⟨e, h⟩ | ⟨_, _, -, -, h, -⟩ | ⟨-, h, -⟩
  · rw [h]
    exact hl
  · exact h
  · exact h

theorem count_releases_le (hl : l.Sound) : l.input.releases.count key ≤ 1 := by
  rw [count_releases]
  exact nodup_iff_count_le_one.mp (hl.held_nodup key.kind) key.code

theorem holds_iff_count : l.Holds key ↔ l.input.releases.count key ≠ 0 := by
  rw [count_releases, ← Nat.pos_iff_ne_zero, count_pos_iff]
  rfl

theorem call_holds_iff (hl : l.Sound) (c : Call) :
    (l.call c).1.Holds key ↔ (l.call c).2.Presses key ∨
      (l.Holds key ∧ (l.call c).2.releases key = 0) := by
  rcases call_effect hl c with ⟨e, h⟩ | ⟨key', pressed, h, -, -, -, hheld⟩ | ⟨h, -, hheld, -⟩
  · rw [h]
    simp [Outcome.Presses, Outcome.releases]
  · rw [h, hheld key]
    by_cases hkey : key = key'
    · subst hkey
      cases pressed <;> simp [Outcome.Presses, Outcome.releases]
    · simp [Outcome.Presses, Outcome.releases, hkey, Ne.symm hkey]
  · rw [h]
    refine ⟨fun hh => absurd hh (hheld key), ?_⟩
    rintro (⟨epoch, hpress⟩ | ⟨hh, hzero⟩)
    · cases hpress
    · exact absurd hzero ((holds_iff_count key).mp hh)

theorem call_releases_le (hl : l.Sound) (c : Call) : (l.call c).2.releases key ≤ 1 := by
  rcases call_effect hl c with ⟨e, h⟩ | ⟨key', pressed, h, -⟩ | ⟨h, -⟩
  · rw [h]
    exact Nat.zero_le 1
  · rw [h]
    show (if key' = key ∧ pressed = false then 1 else 0) ≤ 1
    split_ifs <;> omega
  · rw [h]
    exact count_releases_le key hl

/-! ## Whole sequences of calls -/

/-- The first outcome that releases `key` releases it once. -/
def ReleasedOnce (os : List Outcome) : Prop :=
  ∃ mid o rest, os = mid ++ o :: rest ∧ (∀ x ∈ mid, x.releases key = 0) ∧ o.releases key = 1

/-- The last press of `key` has not been released. -/
def Pending (os : List Outcome) : Prop :=
  ∃ before o rest, os = before ++ o :: rest ∧ o.Presses key ∧ ∀ x ∈ rest, x.releases key = 0

theorem released_or_held (calls : List Call) (hl : l.Sound) (hheld : l.Holds key) :
    ReleasedOnce key (l.outcomes calls) ∨
      ((∀ x ∈ l.outcomes calls, x.releases key = 0) ∧ (l.after calls).Holds key) := by
  induction calls generalizing l with
  | nil => exact .inr ⟨fun x hx => absurd hx not_mem_nil, hheld⟩
  | cons c calls ih =>
    by_cases hzero : (l.call c).2.releases key = 0
    · -- the key stays held over this call, so the rest of the calls decides
      rcases ih (call_sound hl c) ((call_holds_iff key hl c).mpr (.inr ⟨hheld, hzero⟩)) with
        ⟨mid, o, rest, heq, hmid, ho⟩ | ⟨hnone, hafter⟩
      · refine .inl ⟨(l.call c).2 :: mid, o, rest, ?_, ?_, ho⟩
        · rw [outcomes, heq]
          rfl
        · exact forall_mem_cons.mpr ⟨hzero, hmid⟩
      · exact .inr ⟨forall_mem_cons.mpr ⟨hzero, hnone⟩, hafter⟩
    · have hle := call_releases_le key hl c
      refine .inl ⟨[], _, _, rfl, fun x hx => absurd hx not_mem_nil, ?_⟩
      omega

theorem pending_or_held (calls : List Call) (hl : l.Sound) (hheld : (l.after calls).Holds key) :
    Pending key (l.outcomes calls) ∨
      (l.Holds key ∧ ∀ x ∈ l.outcomes calls, x.releases key = 0) := by
  induction calls generalizing l with
  | nil => exact .inr ⟨hheld, fun x hx => absurd hx not_mem_nil⟩
  | cons c calls ih =>
    rcases ih (call_sound hl c) hheld with ⟨before, o, rest, heq, ho, hrest⟩ | ⟨hafter, hnone⟩
    · refine .inl ⟨(l.call c).2 :: before, o, rest, ?_, ho, hrest⟩
      rw [outcomes, heq]
      rfl
    · rcases (call_holds_iff key hl c).mp hafter with hpress | ⟨hbefore, hzero⟩
      · exact .inl ⟨[], _, _, rfl, hpress, hnone⟩
      · exact .inr ⟨hbefore, forall_mem_cons.mpr ⟨hzero, hnone⟩⟩

end Key

theorem sound_after (calls : List Call) : (({} : RemoteProxyLifecycle).after calls).Sound := by
  refine foldlRecOn calls _ (motive := RemoteProxyLifecycle.Sound) ?_ fun l hl c _ =>
    call_sound hl c
  exact ⟨⟨fun h => (by cases h), fun h => (by cases h)⟩, Nat.le_refl _, fun h => (by cases h),
    fun _ => ⟨rfl, rfl⟩, nodup_nil, nodup_nil⟩

theorem epochs_sorted (calls : List Call) (hl : l.Sound) :
    (l.input.epoch :: (l.outcomes calls).filterMap Outcome.epoch?).Pairwise (· ≤ ·) := by
  induction calls generalizing l with
  | nil => exact pairwise_singleton _ _
  | cons c calls ih =>
    have htail := ih (call_sound hl c)
    rw [pairwise_cons] at htail ⊢
    rcases call_effect hl c with
      ⟨e, h⟩ | ⟨key, pressed, h, hstate, -, hepoch, -⟩ | ⟨h, -, -, hepoch, -⟩
    · rw [outcomes, h, filterMap_cons_none rfl]
      rw [h] at htail
      exact htail
    · rw [outcomes, h,
        filterMap_cons_some (f := Outcome.epoch?) (b := l.epoch) rfl]
      rw [hepoch, hl.epoch_eq hstate] at htail
      rw [hl.epoch_eq hstate]
      refine ⟨forall_mem_cons.mpr ⟨Nat.le_refl _, htail.1⟩, ?_⟩
      exact pairwise_cons.mpr htail
    · rw [outcomes, h, filterMap_cons_none rfl]
      exact ⟨fun e he => Nat.le_trans hepoch (htail.1 e he), htail.2⟩

/-- **No stuck keys.**  After any calls: input is accepted only while attached and in the current
epoch, and the accepted epochs do not decrease; a press that is accepted is released once by the
calls that follow, or is still held and the proxy attached; a release that a call returns is for
a press that was not released yet, and the call ended or replaced the attachment; and nothing is
held in any other state. -/
theorem no_stuck_keys (calls : List Call) :
    (∀ c epoch key pressed,
      ((RemoteProxyLifecycle.after {} calls).call c).2 = .recorded epoch key pressed →
        (RemoteProxyLifecycle.after {} calls).state = .attached ∧
          epoch = (RemoteProxyLifecycle.after {} calls).epoch) ∧
    ((RemoteProxyLifecycle.outcomes {} calls).filterMap Outcome.epoch?).Pairwise (· ≤ ·) ∧
    (∀ c later key, ((RemoteProxyLifecycle.after {} calls).call c).2.Presses key →
      ReleasedOnce key (((RemoteProxyLifecycle.after {} calls).call c).1.outcomes later) ∨
        (∀ x ∈ ((RemoteProxyLifecycle.after {} calls).call c).1.outcomes later,
          x.releases key = 0) ∧
        (RemoteProxyLifecycle.after {} (calls ++ c :: later)).Holds key) ∧
    (∀ c rs key, ((RemoteProxyLifecycle.after {} calls).call c).2 = .returned rs → key ∈ rs →
      rs.count key = 1 ∧ Pending key (RemoteProxyLifecycle.outcomes {} calls) ∧
        (((RemoteProxyLifecycle.after {} calls).call c).1.state ≠ .attached ∨
          (RemoteProxyLifecycle.after {} calls).epoch <
            ((RemoteProxyLifecycle.after {} calls).call c).1.epoch)) ∧
    ((RemoteProxyLifecycle.after {} calls).state ≠ .attached →
      ∀ key, ¬ (RemoteProxyLifecycle.after {} calls).Holds key) := by
  have hsound := sound_after calls
  refine ⟨?_, ?_, ?_, ?_, ?_⟩
  · intro c epoch key pressed hc
    rcases call_effect hsound c with ⟨e, h⟩ | ⟨_, _, h, hstate, -⟩ | ⟨h, -⟩
    · rw [h] at hc
      cases hc
    · rw [h] at hc
      cases hc
      exact ⟨hstate, rfl⟩
    · rw [h] at hc
      cases hc
  · exact (List.pairwise_cons.mp (epochs_sorted calls (sound_after []))).2
  · intro c later key hpress
    have hheld := (call_holds_iff key hsound c).mpr (.inl hpress)
    have hafter : RemoteProxyLifecycle.after {} (calls ++ c :: later) =
        ((RemoteProxyLifecycle.after {} calls).call c).1.after later := by
      unfold RemoteProxyLifecycle.after
      rw [List.foldl_append, List.foldl_cons]
    rw [hafter]
    exact released_or_held key later (call_sound hsound c) hheld
  · intro c rs key hc hmem
    rcases call_effect hsound c with ⟨e, h⟩ | ⟨_, _, h, -⟩ | ⟨h, -, -, -, hreplaced⟩
    · rw [h] at hc
      cases hc
    · rw [h] at hc
      cases hc
    · rw [h] at hc
      obtain rfl := Outcome.returned.inj hc
      have hpos := List.count_pos_iff.mpr hmem
      have hheld := (holds_iff_count key).mpr hpos.ne'
      refine ⟨?_, ?_, ?_⟩
      · have hle := count_releases_le key hsound
        omega
      · rcases pending_or_held key calls (sound_after []) hheld with hpending | ⟨hinit, -⟩
        · exact hpending
        · exact absurd hinit (not_holds_of_empty rfl rfl key)
      · by_cases hstate : ((RemoteProxyLifecycle.after {} calls).call c).1.state = .attached
        · exact .inr (hreplaced hstate)
        · exact .inl hstate
  · intro hstate key
    obtain ⟨hkeys, hbuttons⟩ := hsound.empty hstate
    exact not_holds_of_empty hkeys hbuttons key

end RemoteNested
