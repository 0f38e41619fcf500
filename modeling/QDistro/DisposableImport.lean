/-
# Importing from a disposable

`import_from_disposable`, `dispose_by_token`, `dispose` and `reap_export_staging` of the session
manager, for one launch token.  An import runs under `_import_lock`; it tears the container down,
confirms that it is gone, reads `meta.json`, passes the gates, promotes the payload into the silo
and then removes the staging directory.  The reaper takes no lock.  Threads are interleaved step
by step, and `rmtree` takes the directory apart entry by entry.

That a payload lands once rests on the removal: an import that gives the lock back while the
staging still has its `meta.json` and an artifact leaves them for the next one.  `Spent` is what
the end of an import has to provide (`landed_at_most_once`).
-/
import Mathlib.Data.List.Nodup
import QDistro.TransitionSystem

namespace DispImport

open TransitionSystem

/-! ## State -/

/-- Why an import, a teardown or a sweep ends without a result. -/
inductive Refusal
  | stagingUnreadable
  | stagingNotDirectory
  | lookupFailed
  | ambiguous
  | removeErrored
  | unconfirmed
  | stillLive
  | metaUnreadable
  | classNotImportable
  | editNotAllowed
  | brokerDenied
  | noStatePath
  | promotionFailed
  | listFailed
  | liveUnknown
  deriving DecidableEq

/-- What a call returns. -/
inductive Outcome (A : Type)
  | receipt (files : List A)
  | disposed (gone : Bool)
  | reaped
  | refused (why : Refusal)
  deriving DecidableEq

/-- The staging directory of the token: whether its `meta.json` is there, and the entries of its
payload. -/
structure Staging (A : Type) where
  hasMeta : Bool
  payload : List A
  deriving DecidableEq

/-- Where a thread is. -/
inductive Pc (A : Type)
  | idle
  | done (o : Outcome A)
  /-- `with self._import_lock` -/
  | importLock
  /-- `os.lstat(staging)` -/
  | importStat
  /-- `dispose_by_token`: the lookup, and the attempts to remove the one container. -/
  | importLookup
  | importRemove (c : ℕ) (attempt : ℕ) (errored : Bool)
  /-- The second lookup. -/
  | importConfirm
  | importMeta
  | importGates
  /-- The promoter: the scan of the payload, and the landing of what it saw. -/
  | importScan
  | importLand (files : List A)
  /-- The broker seals the receipts. -/
  | importSeal (files : List A)
  /-- `_remove_export_staging` -/
  | importUnstage (files : List A)
  | disposeLookup
  | disposeRemove (c : ℕ) (attempt : ℕ) (errored : Bool)
  | reapList
  | reapQuery
  | reapRemove
  deriving DecidableEq

/-- A landing: the artifacts, and the containers that were live. -/
structure Landing (A : Type) where
  files : List A
  live : List ℕ

structure State (A : Type) where
  staging : Option (Staging A)
  /-- The containers that carry the token. -/
  live : List ℕ
  /-- The holder of `_import_lock`. -/
  lock : Option ℕ
  threads : ℕ → Pc A
  landings : List (Landing A)

/-- What the environment chooses in a step of a thread. -/
inductive Choice (A : Type)
  | ok
  /-- The operation fails, or the check refuses. -/
  | refuse (why : Refusal)
  /-- An attempt of `podman rm`: whether the container is gone, and what the call says, `none`
  for an `OSError`. -/
  | remove (gone : Bool) (reply : Option Bool)
  /-- The promoter publishes; it may still raise after it. -/
  | publish (raises : Bool)
  /-- The system calls of `rmtree`. -/
  | unlinkMeta
  | unlinkFile (a : A)
  | rmdir
  deriving DecidableEq

inductive Act (A : Type)
  | callImport (i : ℕ)
  | callDisposeByToken (i : ℕ)
  | callDispose (i : ℕ) (c : ℕ)
  | callReap (i : ℕ)
  | step (i : ℕ) (c : Choice A)
  /-- A container ends by itself. -/
  | exit (c : ℕ)
  /-- A live container rewrites its output. -/
  | stage (payload : List A)
  deriving DecidableEq

variable {A : Type} [DecidableEq A]

/-! ## Steps -/

namespace State

/-- Move a thread. -/
def goto (s : State A) (i : ℕ) (pc : Pc A) : State A :=
  { s with threads := Function.update s.threads i pc }

/-- An import ends and gives the lock back. -/
def finish (s : State A) (i : ℕ) (o : Outcome A) : State A := { s with lock := none }.goto i (.done o)

/-- A container is gone. -/
def without (s : State A) (c : ℕ) : State A := { s with live := s.live.filter (· ≠ c) }

/-- All artifacts that have landed. -/
def landed (s : State A) : List A := s.landings.flatMap Landing.files

end State

/-- A system call of `rmtree` on the staging directory. -/
def unstage (st : Option (Staging A)) : Choice A → Option (Staging A)
  | .unlinkMeta => st.map fun d => { d with hasMeta := false }
  | .unlinkFile a => st.map fun d => { d with payload := d.payload.erase a }
  | .rmdir =>
    match st with
    | some ⟨false, []⟩ => none
    | _ => st
  | _ => st

/-- What follows an attempt to remove a container: the next attempt, an error, or the answer of
`dispose`. -/
inductive Attempt
  | again (attempt : ℕ) (errored : Bool)
  | raises
  | returns (gone : Bool)

/-- The loop of `dispose` after one more attempt. -/
def afterAttempt (attempt : ℕ) (errored : Bool) : Option Bool → Attempt
  | some true => .returns true
  | reply =>
    let errored := errored || reply.isNone
    if attempt < 2 then .again (attempt + 1) errored
    else if errored then .raises else .returns false

/-- One step of a thread. -/
def threadStep (s : State A) (i : ℕ) (c : Choice A) : State A :=
  match s.threads i with
  | .idle | .done _ => s
  | .importLock => if s.lock = none then { s with lock := some i }.goto i .importStat else s
  | .importStat =>
    match c, s.staging with
    | .refuse why, _ => s.finish i (.refused why)
    | _, none => s.finish i (.receipt [])
    | _, some _ => s.goto i .importLookup
  | .importLookup =>
    match c, s.live with
    | .refuse _, _ => s.finish i (.refused .lookupFailed)
    | _, [] => s.goto i .importConfirm
    | _, [d] => s.goto i (.importRemove d 0 false)
    | _, _ => s.finish i (.refused .ambiguous)
  | .importRemove d attempt errored =>
    match c with
    | .remove gone reply =>
      let s' := if gone then s.without d else s
      match afterAttempt attempt errored reply with
      | .again n e => s'.goto i (.importRemove d n e)
      | .raises => s'.finish i (.refused .removeErrored)
      | .returns _ => s'.goto i .importConfirm
    | _ => s
  | .importConfirm =>
    match c, s.live with
    | .refuse _, _ => s.finish i (.refused .unconfirmed)
    | _, [] => s.goto i .importMeta
    | _, _ :: _ => s.finish i (.refused .stillLive)
  | .importMeta =>
    match c, s.staging with
    | .ok, some ⟨true, _⟩ => s.goto i .importGates
    | _, _ => s.finish i (.refused .metaUnreadable)
  | .importGates =>
    match c with
    | .refuse why => s.finish i (.refused why)
    | _ => s.goto i .importScan
  | .importScan =>
    match c, s.staging with
    | .ok, some d => s.goto i (.importLand d.payload)
    | _, _ => s.finish i (.refused .promotionFailed)
  | .importLand files =>
    match c with
    | .publish raises =>
      let s' := { s with landings := ⟨files, s.live⟩ :: s.landings }
      if raises then s'.finish i (.refused .promotionFailed) else s'.goto i (.importSeal files)
    -- an edit without a saved file returns with nothing landed
    | .ok => if files = [] then s.goto i (.importSeal []) else s
    | _ => s.finish i (.refused .promotionFailed)
  | .importSeal files => s.goto i (.importUnstage files)
  | .importUnstage files =>
    match c with
    | .ok => s.finish i (.receipt files)
    | c => { s with staging := unstage s.staging c }
  | .disposeLookup =>
    match c, s.live with
    | .refuse _, _ => s.goto i (.done (.refused .lookupFailed))
    | _, [] => s.goto i (.done (.disposed true))
    | _, [d] => s.goto i (.disposeRemove d 0 false)
    | _, _ => s.goto i (.done (.refused .ambiguous))
  | .disposeRemove d attempt errored =>
    match c with
    | .remove gone reply =>
      let s' := if gone then s.without d else s
      match afterAttempt attempt errored reply with
      | .again n e => s'.goto i (.disposeRemove d n e)
      | .raises => s'.goto i (.done (.refused .removeErrored))
      | .returns ok => s'.goto i (.done (.disposed ok))
    | _ => s
  | .reapList =>
    match c, s.staging with
    | .refuse _, _ => s.goto i (.done (.refused .listFailed))
    | _, none => s.goto i (.done .reaped)
    | _, some _ => s.goto i .reapQuery
  | .reapQuery =>
    match c, s.live with
    | .refuse _, _ => s.goto i (.done (.refused .liveUnknown))
    | _, [] => s.goto i .reapRemove
    | _, _ :: _ => s.goto i (.done .reaped)
  | .reapRemove =>
    match c with
    | .ok => s.goto i (.done .reaped)
    | c => { s with staging := unstage s.staging c }

/-- A thread that a call may take. -/
def Pc.isFree : Pc A → Bool
  | .idle | .done _ => true
  | _ => false

/-- Put a free thread to work. -/
def State.call (s : State A) (i : ℕ) (pc : Pc A) : State A :=
  if (s.threads i).isFree then s.goto i pc else s

/-- One step. -/
def step (s : State A) : Act A → State A
  | .callImport i => s.call i .importLock
  | .callDisposeByToken i => s.call i .disposeLookup
  | .callDispose i c => s.call i (.disposeRemove c 0 false)
  | .callReap i => s.call i .reapList
  | .step i c => threadStep s i c
  | .exit c => s.without c
  | .stage payload =>
    if s.live ≠ [] ∧ payload.Nodup then
      { s with staging := s.staging.map fun d => { d with payload := payload } }
    else s

/-- A staged token before the first call. -/
structure Initial (s : State A) : Prop where
  idle : ∀ i, s.threads i = .idle
  unlocked : s.lock = none
  unlanded : s.landings = []
  names : ∀ d, s.staging = some d → d.payload.Nodup

/-! ## The condition -/

/-- The next import would find a `meta.json` and an artifact. -/
def State.importable (s : State A) : Bool :=
  match s.staging with
  | some d => d.hasMeta && !d.payload.isEmpty
  | none => false

/-- The step in which an import that has landed gives the lock back: when the removal is over, and
when the promoter raises after it published. -/
def givesBack (s : State A) : Act A → Bool
  | .step i .ok =>
    match s.threads i with
    | .importUnstage _ => true
    | _ => false
  | .step i (.publish true) =>
    match s.threads i with
    | .importLand _ => true
    | _ => false
  | _ => false

/-- **The condition.**  An import that has landed gives the lock back only when the staging holds
nothing to import. -/
def Spent (s : State A) (a : Act A) : Prop := givesBack s a = true → s.importable = false

instance (s : State A) (a : Act A) : Decidable (Spent s a) :=
  inferInstanceAs (Decidable (_ → _))

/-! ## Calm steps -/

/-- The directory has at most what it had. -/
def Shrinks (st st' : Option (Staging A)) : Prop :=
  ∀ d', st' = some d' → ∃ d, st = some d ∧ (d'.hasMeta = true → d.hasMeta = true) ∧
    d'.payload.Sublist d.payload

omit [DecidableEq A] in
theorem Shrinks.refl (st : Option (Staging A)) : Shrinks st st :=
  fun d' h => ⟨d', h, id, List.Sublist.refl _⟩

theorem shrinks_unstage (st : Option (Staging A)) (c : Choice A) : Shrinks st (unstage st c) := by
  cases st with
  | none =>
    intro d' hd'
    cases c <;> simp [unstage] at hd'
  | some d =>
    intro d' hd'
    refine ⟨d, rfl, ?_⟩
    cases c with
    | unlinkMeta =>
      obtain rfl := Option.some.inj hd'
      exact ⟨fun h => (by cases h), List.Sublist.refl _⟩
    | unlinkFile a =>
      obtain rfl := Option.some.inj hd'
      exact ⟨id, List.erase_sublist⟩
    | rmdir =>
      have hsame : d' = d := by
        simp only [unstage] at hd'
        split at hd'
        · cases hd'
        · exact (Option.some.inj hd').symm
      subst hsame
      exact ⟨id, List.Sublist.refl _⟩
    | _ =>
      obtain rfl := Option.some.inj hd'
      exact ⟨id, List.Sublist.refl _⟩

/-- A step that lands nothing, starts no container and only takes away from the staging. -/
structure Calm (s s' : State A) : Prop where
  landings : s'.landings = s.landings
  live : s.live = [] → s'.live = []
  staging : Shrinks s.staging s'.staging

omit [DecidableEq A] in
theorem Calm.goto (s : State A) (i : ℕ) (pc : Pc A) : Calm s (s.goto i pc) :=
  ⟨rfl, id, Shrinks.refl _⟩

omit [DecidableEq A] in
theorem Calm.landed {s s' : State A} (h : Calm s s') : s'.landed = s.landed := by
  rw [State.landed, h.landings, State.landed]

/-! ## The invariant -/

/-- The places between taking the lock and giving it back. -/
def Pc.inside : Pc A → Prop
  | .importStat | .importLookup | .importRemove _ _ _ | .importConfirm | .importMeta
  | .importGates | .importScan | .importLand _ | .importSeal _ | .importUnstage _ => True
  | _ => False

/-- The places between the landing and the end of the removal. -/
def Pc.clearing : Pc A → Prop
  | .importSeal _ | .importUnstage _ => True
  | _ => False

omit [DecidableEq A] in
theorem Pc.clearing.inside {pc : Pc A} (h : pc.clearing) : pc.inside := by
  cases pc <;> trivial

/-- No artifact of the payload has landed. -/
def Unlanded (s : State A) : Prop := ∀ d, s.staging = some d → ∀ a ∈ d.payload, a ∉ s.landed

/-- No artifact that an import could still take has landed. -/
def Settled (s : State A) : Prop :=
  ∀ d, s.staging = some d → d.hasMeta = true → ∀ a ∈ d.payload, a ∉ s.landed

/-- What a thread has established at its place. -/
def Owed (s : State A) : Pc A → Prop
  | .importMeta | .importSeal _ | .importUnstage _ => s.live = []
  | .importGates | .importScan => s.live = [] ∧ Unlanded s
  | .importLand files => s.live = [] ∧ files.Nodup ∧ ∀ a ∈ files, a ∉ s.landed
  | _ => True

/-- **Invariant.** -/
structure Inv (s : State A) : Prop where
  holder : ∀ i, (s.threads i).inside → s.lock = some i
  names : ∀ d, s.staging = some d → d.payload.Nodup
  quiet : s.landings ≠ [] → s.live = []
  unbacked : ∀ l ∈ s.landings, l.live = []
  once : s.landed.Nodup
  owed : ∀ i, Owed s (s.threads i)
  settled : (∀ i, ¬(s.threads i).clearing) → Settled s

section
omit [DecidableEq A]

theorem Unlanded.calm {s s' : State A} (h : Unlanded s) (hc : Calm s s') : Unlanded s' := by
  intro d' hd' a ha
  obtain ⟨d, hd, -, hsub⟩ := hc.staging d' hd'
  rw [hc.landed]
  exact h d hd a (hsub.subset ha)

theorem Settled.calm {s s' : State A} (h : Settled s) (hc : Calm s s') : Settled s' := by
  intro d' hd' hmeta a ha
  obtain ⟨d, hd, hm, hsub⟩ := hc.staging d' hd'
  rw [hc.landed]
  exact h d hd (hm hmeta) a (hsub.subset ha)

theorem Owed.calm {s s' : State A} {pc : Pc A} (h : Owed s pc) (hc : Calm s s') : Owed s' pc := by
  cases pc with
  | importMeta => exact hc.live h
  | importSeal files => exact hc.live h
  | importUnstage files => exact hc.live h
  | importGates => exact ⟨hc.live h.1, h.2.calm hc⟩
  | importScan => exact ⟨hc.live h.1, h.2.calm hc⟩
  | importLand files => exact ⟨hc.live h.1, h.2.1, by rw [hc.landed]; exact h.2.2⟩
  | _ => trivial

theorem settled_of_not_importable {s : State A} (h : s.importable = false) : Settled s := by
  intro d hd hmeta a ha
  have hempty : d.payload = [] := by simpa [State.importable, hd, hmeta] using h
  rw [hempty] at ha
  cases ha

/-- **Calm steps.**  The thread that moves owes what its new place says, the lock is kept in
order, and a thread that leaves the removal leaves nothing to import. -/
theorem Inv.calm {s s' : State A} {i : ℕ} (h : Inv s) (hc : Calm s s')
    (hothers : ∀ j, j ≠ i → s'.threads j = s.threads j)
    (hlock : ∀ j, (s'.threads j).inside → s'.lock = some j) (howed : Owed s' (s'.threads i))
    (hleave : (s.threads i).clearing → ¬(s'.threads i).clearing → s'.importable = false) : Inv s' := by
  refine ⟨hlock, ?_, ?_, ?_, ?_, ?_, ?_⟩
  · intro d' hd'
    obtain ⟨d, hd, -, hsub⟩ := hc.staging d' hd'
    exact (h.names d hd).sublist hsub
  · rw [hc.landings]
    exact fun hne => hc.live (h.quiet hne)
  · rw [hc.landings]
    exact h.unbacked
  · rw [hc.landed]
    exact h.once
  · intro j
    by_cases hj : j = i
    · exact hj ▸ howed
    · rw [hothers j hj]
      exact (h.owed j).calm hc
  · intro hnone
    by_cases hclear : (s.threads i).clearing
    · exact settled_of_not_importable (hleave hclear (hnone i))
    · refine (h.settled fun j => ?_).calm hc
      by_cases hj : j = i
      · exact hj ▸ hclear
      · rw [← hothers j hj]
        exact hnone j

theorem Inv.moved {s s₁ : State A} {i : ℕ} {pc : Pc A} (h : Inv s) (hc : Calm s s₁)
    (hthreads : s₁.threads = s.threads) (hlock : s₁.lock = s.lock)
    (hin : pc.inside → (s.threads i).inside) (howed : Owed s₁ pc)
    (hleave : (s.threads i).clearing → pc.clearing) : Inv (s₁.goto i pc) := by
  have hself : (s₁.goto i pc).threads i = pc := Function.update_self ..
  have hother : ∀ j, j ≠ i → (s₁.goto i pc).threads j = s.threads j := by
    intro j hj
    rw [← hthreads]
    exact Function.update_of_ne hj ..
  refine h.calm (i := i) ⟨hc.landings, hc.live, hc.staging⟩ hother ?_ ?_ ?_
  · intro j hj
    show s₁.lock = some j
    rw [hlock]
    by_cases hji : j = i
    · subst hji
      rw [hself] at hj
      exact h.holder j (hin hj)
    · rw [hother j hji] at hj
      exact h.holder j hj
  · rw [hself]
    exact howed.calm (Calm.goto s₁ i pc)
  · intro hclear hnot
    rw [hself] at hnot
    exact absurd (hleave hclear) hnot

theorem Inv.finished {s s₁ : State A} {i : ℕ} (h : Inv s) (hc : Calm s s₁)
    (hthreads : s₁.threads = s.threads) (hin : (s.threads i).inside) (o : Outcome A)
    (hleave : (s.threads i).clearing → s₁.importable = false) : Inv (s₁.finish i o) := by
  have hself : (s₁.finish i o).threads i = .done o := Function.update_self ..
  have hother : ∀ j, j ≠ i → (s₁.finish i o).threads j = s.threads j := by
    intro j hj
    rw [← hthreads]
    exact Function.update_of_ne hj ..
  refine h.calm (i := i) ⟨hc.landings, hc.live, hc.staging⟩ hother ?_ ?_ ?_
  · intro j hj
    exfalso
    by_cases hji : j = i
    · subst hji
      rw [hself] at hj
      exact hj
    · rw [hother j hji] at hj
      have hsame := (h.holder j hj).symm.trans (h.holder i hin)
      exact hji (Option.some.inj hsame)
  · rw [hself]
    trivial
  · exact fun hclear _ => hleave hclear

theorem inside_at {s : State A} {i : ℕ} {pc : Pc A} (h : s.threads i = pc) (hin : pc.inside) :
    (s.threads i).inside :=
  h ▸ hin

theorem not_clearing_at {s : State A} {i : ℕ} {pc : Pc A} (h : s.threads i = pc)
    (hclear : ¬pc.clearing) : ¬(s.threads i).clearing :=
  h ▸ hclear

theorem Inv.goto {s : State A} {i : ℕ} {pc : Pc A} (h : Inv s)
    (hin : pc.inside → (s.threads i).inside) (howed : Owed s pc)
    (hclear : ¬(s.threads i).clearing) : Inv (s.goto i pc) :=
  h.moved ⟨rfl, id, Shrinks.refl _⟩ rfl rfl hin howed fun hc => absurd hc hclear

theorem Inv.finish {s : State A} {i : ℕ} (h : Inv s) (hin : (s.threads i).inside)
    (hclear : ¬(s.threads i).clearing) (o : Outcome A) : Inv (s.finish i o) :=
  h.finished ⟨rfl, id, Shrinks.refl _⟩ rfl hin o fun hc => absurd hc hclear

theorem Inv.acquire {s : State A} {i : ℕ} (h : Inv s) (hfree : s.lock = none)
    (hclear : ¬(s.threads i).clearing) : Inv ({ s with lock := some i }.goto i .importStat) := by
  have hself : ({ s with lock := some i }.goto i .importStat).threads i = .importStat :=
    Function.update_self ..
  have hother : ∀ j, j ≠ i →
      ({ s with lock := some i }.goto i .importStat).threads j = s.threads j :=
    fun j hj => Function.update_of_ne hj ..
  refine h.calm (i := i) ⟨rfl, id, Shrinks.refl _⟩ hother ?_ ?_ (fun hc => absurd hc hclear)
  · intro j hj
    by_cases hji : j = i
    · rw [hji]
      rfl
    · rw [hother j hji] at hj
      have hheld := h.holder j hj
      rw [hfree] at hheld
      cases hheld
  · rw [hself]
    trivial

theorem Inv.kept {s s₁ : State A} (h : Inv s) (hc : Calm s s₁) (hthreads : s₁.threads = s.threads)
    (hlock : s₁.lock = s.lock) : Inv s₁ := by
  refine h.calm (i := 0) hc (fun j _ => by rw [hthreads]) ?_ ?_ ?_
  · intro j hj
    rw [hthreads] at hj
    rw [hlock]
    exact h.holder j hj
  · rw [hthreads]
    exact (h.owed 0).calm hc
  · intro hclear hnot
    rw [hthreads] at hnot
    exact absurd hclear hnot

theorem Calm.without (s : State A) (c : ℕ) : Calm s (s.without c) :=
  ⟨rfl, fun h => (by simp [State.without, h]), Shrinks.refl _⟩

theorem Calm.attempt (s : State A) (gone : Bool) (d : ℕ) :
    Calm s (if gone then s.without d else s) ∧
      (if gone then s.without d else s).threads = s.threads ∧
      (if gone then s.without d else s).lock = s.lock := by
  cases gone
  · exact ⟨⟨rfl, id, Shrinks.refl _⟩, rfl, rfl⟩
  · exact ⟨Calm.without s d, rfl, rfl⟩

/-! ## The landing -/

theorem owed_of_not_inside {s : State A} {pc : Pc A} (h : ¬pc.inside) : Owed s pc := by
  cases pc <;> first | trivial | exact absurd trivial h

/-- **The landing.**  The thread that lands holds the lock, so that no other one has established
anything about what has landed. -/
theorem Inv.publish {s s' : State A} {i : ℕ} {files : List A} (h : Inv s)
    (hpc : s.threads i = .importLand files) (hlandings : s'.landings = ⟨files, s.live⟩ :: s.landings)
    (hlive : s'.live = s.live) (hstaging : s'.staging = s.staging)
    (hothers : ∀ j, j ≠ i → s'.threads j = s.threads j)
    (hself : (s'.threads i).inside → s'.lock = some i) (howed : Owed s' (s'.threads i))
    (hleave : ¬(s'.threads i).clearing → s'.importable = false) : Inv s' := by
  have howedi := h.owed i
  rw [hpc] at howedi
  obtain ⟨hnone, hnodup, hnew⟩ := howedi
  have hinside : (s.threads i).inside := by
    rw [hpc]
    trivial
  have halone : ∀ j, j ≠ i → ¬(s'.threads j).inside := by
    intro j hj hin
    rw [hothers j hj] at hin
    have hsame := (h.holder j hin).symm.trans (h.holder i hinside)
    exact hj (Option.some.inj hsame)
  refine ⟨?_, ?_, ?_, ?_, ?_, ?_, ?_⟩
  · intro j hj
    by_cases hji : j = i
    · subst hji
      exact hself hj
    · exact absurd hj (halone j hji)
  · rw [hstaging]
    exact h.names
  · intro _
    rw [hlive]
    exact hnone
  · intro l hl
    rw [hlandings] at hl
    rcases List.mem_cons.1 hl with rfl | hl
    · exact hnone
    · exact h.unbacked l hl
  · rw [State.landed, hlandings, List.flatMap_cons]
    refine List.Nodup.append hnodup h.once ?_
    intro a ha hold
    exact hnew a ha hold
  · intro j
    by_cases hji : j = i
    · exact hji ▸ howed
    · exact owed_of_not_inside (halone j hji)
  · intro hnoclear
    exact settled_of_not_importable (hleave (hnoclear i))

end

theorem Calm.unstage (s : State A) (c : Choice A) :
    Calm s { s with staging := unstage s.staging c } :=
  ⟨rfl, id, shrinks_unstage _ c⟩

/-! ## What a step preserves -/

/-- **Step lemma** of a thread. -/
theorem Inv.threadStep {s : State A} {i : ℕ} {c : Choice A} (h : Inv s)
    (hok : Spent s (.step i c)) : Inv (threadStep s i c) := by
  have howed := h.owed i
  unfold DispImport.threadStep
  cases hpc : s.threads i with
  | idle => exact h
  | done o => exact h
  | importLock =>
    have hclear := not_clearing_at hpc id
    dsimp only
    split
    · next hfree => exact h.acquire hfree hclear
    · exact h
  | importStat =>
    have hin := inside_at hpc trivial
    have hclear := not_clearing_at hpc id
    dsimp only
    split
    · exact h.finish hin hclear _
    · exact h.finish hin hclear _
    · exact h.goto (fun _ => hin) trivial hclear
  | importLookup =>
    have hin := inside_at hpc trivial
    have hclear := not_clearing_at hpc id
    dsimp only
    split
    · exact h.finish hin hclear _
    · exact h.goto (fun _ => hin) trivial hclear
    · exact h.goto (fun _ => hin) trivial hclear
    · exact h.finish hin hclear _
  | importRemove d attempt errored =>
    have hin := inside_at hpc trivial
    have hclear := not_clearing_at hpc id
    dsimp only
    split
    · next gone reply =>
      obtain ⟨hcalm, hthreads, hlock⟩ := Calm.attempt s gone d
      split
      · exact h.moved hcalm hthreads hlock (fun _ => hin) trivial (fun hc => absurd hc hclear)
      · exact h.finished hcalm hthreads hin _ (fun hc => absurd hc hclear)
      · exact h.moved hcalm hthreads hlock (fun _ => hin) trivial (fun hc => absurd hc hclear)
    · exact h
  | importConfirm =>
    have hin := inside_at hpc trivial
    have hclear := not_clearing_at hpc id
    dsimp only
    split
    · exact h.finish hin hclear _
    · next hlive => exact h.goto (fun _ => hin) hlive hclear
    · exact h.finish hin hclear _
  | importMeta =>
    have hin := inside_at hpc trivial
    have hclear := not_clearing_at hpc id
    rw [hpc] at howed
    dsimp only
    split
    · next payload hstaging =>
      refine h.goto (fun _ => hin) ⟨howed, ?_⟩ hclear
      -- the other threads are outside the lock, so nobody is clearing
      have hnobody : ∀ j, ¬(s.threads j).clearing := by
        intro j hj
        have hsame := (h.holder j hj.inside).symm.trans (h.holder i hin)
        obtain rfl := Option.some.inj hsame
        exact hclear hj
      intro d hd
      rw [hstaging] at hd
      obtain rfl := Option.some.inj hd
      exact h.settled hnobody _ hstaging rfl
    · exact h.finish hin hclear _
  | importGates =>
    have hin := inside_at hpc trivial
    have hclear := not_clearing_at hpc id
    rw [hpc] at howed
    dsimp only
    split
    · exact h.finish hin hclear _
    · exact h.goto (fun _ => hin) howed hclear
  | importScan =>
    have hin := inside_at hpc trivial
    have hclear := not_clearing_at hpc id
    rw [hpc] at howed
    dsimp only
    split
    · next d hstaging =>
      exact h.goto (fun _ => hin) ⟨howed.1, h.names d hstaging, howed.2 d hstaging⟩ hclear
    · exact h.finish hin hclear _
  | importLand files =>
    have hin := inside_at hpc trivial
    have hclear := not_clearing_at hpc id
    have hlive : s.live = [] := by
      rw [hpc] at howed
      exact howed.1
    dsimp only
    split
    · next raises =>
      cases raises with
      | true =>
        have hnone : s.importable = false := hok (by simp [givesBack, hpc])
        refine h.publish hpc rfl rfl rfl (fun j hj => Function.update_of_ne hj ..) ?_ ?_
          (fun _ => hnone)
        · intro hcontra
          simp [State.finish, State.goto, Pc.inside] at hcontra
        · simp [State.finish, State.goto, Owed]
      | false =>
        refine h.publish hpc rfl rfl rfl (fun j hj => Function.update_of_ne hj ..) ?_ ?_ ?_
        · intro _
          exact h.holder i hin
        · simpa [State.goto, Owed] using hlive
        · intro hcontra
          simp [State.goto, Pc.clearing] at hcontra
    · split
      · exact h.goto (fun _ => hin) hlive hclear
      · exact h
    · exact h.finish hin hclear _
  | importSeal files =>
    have hin := inside_at hpc trivial
    rw [hpc] at howed
    exact h.moved ⟨rfl, id, Shrinks.refl _⟩ rfl rfl (fun _ => hin) howed (fun _ => trivial)
  | importUnstage files =>
    have hin := inside_at hpc trivial
    dsimp only
    split
    · have hnone : s.importable = false := hok (by simp [givesBack, hpc])
      exact h.finished ⟨rfl, id, Shrinks.refl _⟩ rfl hin _ (fun _ => hnone)
    · exact h.kept (Calm.unstage s c) rfl rfl
  | disposeLookup =>
    have hclear := not_clearing_at hpc id
    dsimp only
    split <;> exact h.goto (fun hc => hc.elim) trivial hclear
  | disposeRemove d attempt errored =>
    have hclear := not_clearing_at hpc id
    dsimp only
    split
    · next gone reply =>
      obtain ⟨hcalm, hthreads, hlock⟩ := Calm.attempt s gone d
      split <;> exact h.moved hcalm hthreads hlock (fun hc => hc.elim) trivial
        (fun hc => absurd hc hclear)
    · exact h
  | reapList =>
    have hclear := not_clearing_at hpc id
    dsimp only
    split <;> exact h.goto (fun hc => hc.elim) trivial hclear
  | reapQuery =>
    have hclear := not_clearing_at hpc id
    dsimp only
    split <;> exact h.goto (fun hc => hc.elim) trivial hclear
  | reapRemove =>
    have hclear := not_clearing_at hpc id
    dsimp only
    split
    · exact h.goto (fun hc => hc.elim) trivial hclear
    · exact h.kept (Calm.unstage s c) rfl rfl

omit [DecidableEq A] in
theorem Inv.call {s : State A} {i : ℕ} {pc : Pc A} (h : Inv s) (hin : ¬pc.inside) :
    Inv (s.call i pc) := by
  unfold State.call
  split
  · next hfree =>
    refine h.goto (fun hc => absurd hc hin) (owed_of_not_inside hin) ?_
    intro hclear
    cases hpc : s.threads i <;> rw [hpc] at hclear hfree <;> trivial
  · exact h

omit [DecidableEq A] in
theorem Owed.live {s s' : State A} {pc : Pc A} (h : Owed s pc) (hlive : s.live ≠ []) : Owed s' pc := by
  cases pc with
  | importMeta => exact absurd h hlive
  | importSeal files => exact absurd h hlive
  | importUnstage files => exact absurd h hlive
  | importGates => exact absurd h.1 hlive
  | importScan => exact absurd h.1 hlive
  | importLand files => exact absurd h.1 hlive
  | _ => trivial

theorem Inv.stage {s : State A} {payload : List A} (h : Inv s) : Inv (step s (.stage payload)) := by
  simp only [DispImport.step]
  split
  · next hboth =>
    obtain ⟨hlive, hnodup⟩ := hboth
    have hnone : s.landings = [] := by
      by_contra hne
      exact hlive (h.quiet hne)
    refine ⟨h.holder, ?_, h.quiet, h.unbacked, h.once, fun i => (h.owed i).live hlive, ?_⟩
    · intro d hd
      obtain ⟨d₀, -, rfl⟩ := Option.map_eq_some_iff.1 hd
      exact hnodup
    · intro _ d _ _ a _
      simp [State.landed, hnone]
  · exact h

/-- **Step lemma.** -/
theorem Inv.step {s : State A} {a : Act A} (h : Inv s) (hok : Spent s a) : Inv (step s a) := by
  cases a with
  | callImport i => exact h.call id
  | callDisposeByToken i => exact h.call id
  | callDispose i c => exact h.call id
  | callReap i => exact h.call id
  | step i c => exact h.threadStep hok
  | exit c => exact h.kept (Calm.without s c) rfl rfl
  | stage payload => exact h.stage

omit [DecidableEq A] in
theorem Initial.inv {s : State A} (h : Initial s) : Inv s := by
  refine ⟨?_, h.names, ?_, ?_, ?_, ?_, ?_⟩
  · intro i hin
    rw [h.idle i] at hin
    exact hin.elim
  · exact fun hne => absurd h.unlanded hne
  · simp [h.unlanded]
  · simp [State.landed, h.unlanded]
  · intro i
    rw [h.idle i]
    trivial
  · intro _ d _ _ a _
    simp [State.landed, h.unlanded]

/-! ## Every run -/

/-- **A payload lands at most once**, and with no container behind it, in every run in which
an import that has landed leaves nothing to import. -/
theorem landed_at_most_once {s₀ : State A} (h₀ : Initial s₀) {acts : List (Act A)}
    (hm : Meets step Spent s₀ acts) :
    (run step s₀ acts).landed.Nodup ∧ ∀ l ∈ (run step s₀ acts).landings, l.live = [] := by
  have hinv : Inv (run step s₀ acts) := hm.invariant (P := Inv) (fun s a hok h => h.step hok) h₀.inv
  exact ⟨hinv.once, hinv.unbacked⟩

/-- A live container with one artifact. -/
def staged : State String := ⟨some ⟨true, ["report.txt"]⟩, [7], none, fun _ => .idle, []⟩

theorem staged_initial : Initial staged := by
  refine ⟨fun _ => rfl, rfl, rfl, ?_⟩
  intro d hd
  obtain rfl := Option.some.inj hd
  decide

/-- An import of the token up to its landing. -/
def landing (i : ℕ) : List (Act String) :=
  [.callImport i, .step i .ok, .step i .ok, .step i .ok, .step i (.remove true (some true)),
    .step i .ok, .step i .ok, .step i .ok, .step i .ok, .step i (.publish false), .step i .ok]

/-- Two imports, the second of which waits for the lock and finds no staging. -/
def importTwice : List (Act String) :=
  Act.callImport 1 :: landing 0 ++ [Act.step 1 .ok, Act.step 0 (.unlinkFile "report.txt"),
    Act.step 0 .unlinkMeta, Act.step 0 .rmdir, Act.step 0 .ok, Act.step 1 .ok, Act.step 1 .ok]

theorem importTwice_lands_once :
    Meets step Spent staged importTwice ∧
      (run step staged importTwice).landed = ["report.txt"] ∧
      (run step staged importTwice).threads 1 = .done (.receipt []) ∧
      (run step staged importTwice).landed.Nodup := by
  have hm : Meets step Spent staged importTwice := by decide +kernel
  exact ⟨hm, by decide +kernel, by decide +kernel, (landed_at_most_once staged_initial hm).1⟩

/-- Two imports, where `rmtree` fails on its first system call. -/
def failedRemoval : List (Act String) :=
  landing 0 ++ [Act.step 0 .ok, Act.callImport 1] ++
    [Act.step 1 .ok, Act.step 1 .ok, Act.step 1 .ok, Act.step 1 .ok, Act.step 1 .ok, Act.step 1 .ok, Act.step 1 .ok,
      Act.step 1 (.publish false)]

theorem failedRemoval_lands_twice :
    Initial staged ∧ (run step staged failedRemoval).landed = ["report.txt", "report.txt"] ∧
      ¬(run step staged failedRemoval).landed.Nodup :=
  ⟨staged_initial, by decide +kernel, by decide +kernel⟩

end DispImport
