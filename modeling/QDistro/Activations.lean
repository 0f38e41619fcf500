/-
# Activations

`qdistro-resolve-binding --launch-env --record` launches the generation that a silo is bound to.  If the
activation marker names another one, the state tree is copied first and the copy is labelled with the
marker's generation; a one-shot waiver may stand in for the copy.  Then the marker is written.  A
rollback may put a copied tree back under the silo.

The labels are meant to say which generation left a tree, and the strict policy is meant to let no
generation loose on another one's tree without a copy.  Both rest on the marker naming the generation
that the tree was last run under (`Marked`): a marker that could not be written and a tree that was
put back break this, and nothing else does (`labels_truthful`, `strict_gate`).
-/
import QDistro.TransitionSystem
import Mathlib.Data.List.Sort

namespace Activation

open TransitionSystem

abbrev Digest := String

/-! ## A silo -/

/-- A state tree, with the generation whose run left it as it is. -/
structure Tree (τ : Type) where
  content : τ
  leftBy : Option Digest
  deriving DecidableEq

structure Binding where
  active : Digest
  previous : List Digest

/-- `meta.toml` of a snapshot. -/
structure Record where
  outgoing : Digest
  incoming : Digest
  createdAt : ℤ
  restoreEligible : Bool
  deriving DecidableEq

/-- The time in seconds and `_short` of the outgoing generation. -/
abbrev SnapId := ℤ × String

/-- A directory under `state-snapshots`. -/
structure SnapDir (τ : Type) where
  record : Option Record
  payload : Option (Tree τ)
  deriving DecidableEq

/-- What the tools have done, newest first: waivers written, activations that used one. -/
inductive Entry
  | waiver (g : Digest)
  | waived (g : Digest)
  deriving DecidableEq

structure Silo (τ : Type) where
  binding : Option Binding
  /-- The activation marker. -/
  marker : Option Digest
  tree : Tree τ
  /-- A rollback put the tree there and nothing has run on it since. -/
  restored : Bool
  snaps : SnapId → SnapDir τ
  /-- The waiver files by `_short` of their generation. -/
  waivers : String → Option Digest
  log : List Entry

variable {τ : Type}

/-- A silo before its first promote. -/
def fresh (content : τ) : Silo τ :=
  ⟨none, none, ⟨content, none⟩, false, fun _ => ⟨none, none⟩, fun _ => none, []⟩

/-- `_short` of a digest `sha256:…` -/
def short (g : Digest) : String := String.ofList ((g.toList.drop 7).take 12)

/-! ## Launches -/

inductive Policy
  | strict
  | availability
  deriving DecidableEq

/-- The outcomes of the operations of a launch, each if it is reached. -/
structure Ops (τ : Type) where
  /-- The binding, its generation record and the marker can be read. -/
  reads : Bool
  /-- `_activation_policy`; `none` where it raises. -/
  policy : Option Policy
  now : ℤ
  /-- A waiver file can be read and, if it is for this generation, removed. -/
  waiver : Bool
  isDir : Bool
  mechanism : Bool
  makeDirs : Bool
  /-- A payload left from before is removed; otherwise the tree is copied into it. -/
  removes : Bool
  mixed : τ
  /-- `_materialize`; a copy that was not finished is `part`. -/
  copies : Bool
  part : τ
  /-- What `rmtree` removes after a failure. -/
  cleansRecord : Bool
  cleansPayload : Bool
  records : Bool
  pins : Bool
  marker : Bool

inductive Effect (τ : Type)
  | unlinkWaiver (key : String)
  | setPayload (id : SnapId) (t : Option (Tree τ))
  | setRecord (id : SnapId) (m : Option Record)

def Silo.perform (s : Silo τ) : Effect τ → Silo τ
  | .unlinkWaiver key => { s with waivers := Function.update s.waivers key none }
  | .setPayload id t => { s with snaps := Function.update s.snaps id { s.snaps id with payload := t } }
  | .setRecord id m => { s with snaps := Function.update s.snaps id { s.snaps id with record := m } }

/-- How `take_pre_activation_snapshot` ends; `failed` is an exception other than a refusal. -/
inductive Taken
  | skipped
  | taken
  | waived
  | unavailable
  | refused
  | failed
  deriving DecidableEq

/-- `_on_failure` -/
def onFailure : Policy → Taken
  | .strict => .refused
  | .availability => .unavailable

/-- `shutil.rmtree(sdir, ignore_errors=True)` -/
def cleanUp (o : Ops τ) (id : SnapId) : List (Effect τ) :=
  (if o.cleansPayload then [Effect.setPayload id none] else []) ++
    if o.cleansRecord then [Effect.setRecord id none] else []

/-- The copy under its id: an old payload is dropped, then the tree is copied. -/
def copying (s : Silo τ) (o : Ops τ) (id : SnapId) : List (Effect τ) :=
  (if (s.snaps id).payload.isSome then
      [Effect.setPayload id (if o.removes then none else some ⟨o.mixed, none⟩)] else []) ++
    [Effect.setPayload id (some ⟨o.part, none⟩)]

/-- What the copy holds in the end. -/
def copied (s : Silo τ) (o : Ops τ) (id : SnapId) : Tree τ :=
  if (s.snaps id).payload.isSome ∧ o.removes = false then ⟨o.mixed, none⟩ else s.tree

/-- `take_pre_activation_snapshot` after the waiver. -/
def snapshot (s : Silo τ) (o : Ops τ) (policy : Policy) (incoming outgoing : Digest) :
    List (Effect τ) × Taken :=
  let id : SnapId := (o.now, short outgoing)
  if o.isDir = false then ([], onFailure policy)
  else if o.mechanism = false then ([], .failed)
  else if o.makeDirs = false then (cleanUp o id, onFailure policy)
  else if o.copies = false then (copying s o id ++ cleanUp o id, onFailure policy)
  else
    let done := copying s o id ++ [Effect.setPayload id (some (copied s o id))]
    if o.records = false then (done, .failed)
    else (done ++ [Effect.setRecord id (some ⟨outgoing, incoming, o.now, true⟩)],
      if o.pins then .taken else .failed)

/-- `take_pre_activation_snapshot` -/
def takePreActivationSnapshot (s : Silo τ) (o : Ops τ) (policy : Policy) (incoming : Digest) :
    Option Digest → List (Effect τ) × Taken
  | none => ([], .skipped)
  | some outgoing =>
    if outgoing = incoming then ([], .skipped)
    else
      match s.waivers (short incoming) with
      | none => snapshot s o policy incoming outgoing
      | some g =>
        if o.waiver = false then ([], .failed)
        else if g = incoming then ([.unlinkWaiver (short incoming)], .waived)
        else snapshot s o policy incoming outgoing

/-- How `_launch_env_main` ends, with `--record`; a launch may have used a waiver. -/
inductive Result
  | untemplated
  | failed
  | refused
  | launched (g : Digest) (waived : Bool)
  deriving DecidableEq

/-- The effects of a launch up to the marker, whether the marker is written, and the result. -/
structure Launch (τ : Type) where
  effects : List (Effect τ)
  commits : Option Digest
  result : Result

/-- The end of a launch that had to take a snapshot. -/
def conclude (o : Ops τ) (g : Digest) (p : List (Effect τ) × Taken) : Launch τ :=
  match p.2 with
  | .failed => ⟨p.1, none, .failed⟩
  | .refused => ⟨p.1, none, .refused⟩
  | t => ⟨p.1, if o.marker then some g else none, .launched g (decide (t = .waived))⟩

/-- `_launch_env_main` with the binding it has read. -/
def launchBound (s : Silo τ) (o : Ops τ) (b : Binding) : Launch τ :=
  if s.marker = some b.active then ⟨[], none, .launched b.active false⟩
  else
    match o.policy with
    | none => ⟨[], none, .refused⟩
    | some policy =>
      conclude o b.active (takePreActivationSnapshot s o policy b.active s.marker)

/-- `_launch_env_main` -/
def launchEnv (s : Silo τ) (o : Ops τ) : Launch τ :=
  if o.reads = false then ⟨[], none, .failed⟩
  else
    match s.binding with
    | none => ⟨[], none, .untemplated⟩
    | some b => launchBound s o b

/-- Where the tool may die: among the effects before the marker, or after the marker. -/
inductive Crash
  | early (n : ℕ)
  | late

/-- The run of a generation that was launched leaves the tree with some content. -/
def Silo.ran (s : Silo τ) (after : τ) : Result → Silo τ
  | .launched g waived =>
    { s with tree := ⟨after, some g⟩, restored := false
             log := if waived then .waived g :: s.log else s.log }
  | _ => s

/-- The marker is written. -/
def Silo.commit (s : Silo τ) : Option Digest → Silo τ
  | some g => { s with marker := some g }
  | none => s

/-- A launch and, unless the tool dies in it, the run it starts. -/
def Silo.launch (s : Silo τ) (o : Ops τ) (crash : Option Crash) (after : τ) : Silo τ :=
  let l := launchEnv s o
  match crash with
  | some (.early n) => (l.effects.take n).foldl Silo.perform s
  | some .late => (l.effects.foldl Silo.perform s).commit l.commits
  | none => ((l.effects.foldl Silo.perform s).commit l.commits).ran after l.result

/-! ## Promotes and rollbacks -/

/-- `_build_binding`, with the generations whose records are there and the retention count. -/
def flip (b : Option Binding) (g : Digest) (recorded : Digest → Bool) (keep : ℕ) : Binding :=
  let prev := match b with
    | some b => b.active :: b.previous.filter (· ≠ b.active)
    | none => []
  ⟨g, ((prev.filter (· ≠ g)).filter recorded).take (keep - 1)⟩

structure Rollback where
  target : Digest
  restoreState : Bool
  keepState : Bool
  snapshot : Option SnapId
  /-- The checks that read other files, the lock and the running silo. -/
  checks : Bool
  /-- The ids in the order in which the directory is listed. -/
  listing : List SnapId
  /-- The tree is put back; otherwise the call fails or dies before. -/
  restores : Bool
  /-- The binding is written; otherwise the call fails or dies before. -/
  applies : Bool
  recorded : Digest → Bool
  keep : ℕ

/-- `list_snapshots`: newest first. -/
def listSnapshots (s : Silo τ) (listing : List SnapId) : List (SnapId × Record) :=
  (listing.filterMap fun id => (s.snaps id).record.map fun m => (id, m)).insertionSort
    fun a b => b.2.createdAt ≤ a.2.createdAt

/-- The payload of a snapshot that captures the target's state. -/
def eligible (s : Silo τ) (target : Digest) (m : SnapId × Record) : Option (Tree τ) :=
  if m.2.outgoing = target ∧ m.2.restoreEligible = true then (s.snaps m.1).payload else none

/-- `find_restore_snapshot` -/
def findRestoreSnapshot (s : Silo τ) (r : Rollback) : Option (Tree τ) :=
  (listSnapshots s r.listing).findSome? (eligible s r.target)

/-- `_lookup_snapshot` -/
def lookupSnapshot (s : Silo τ) (r : Rollback) (id : SnapId) : Option (Tree τ) :=
  ((listSnapshots s r.listing).find? fun m => m.1 = id).bind (eligible s r.target)

/-- The tree that a rollback puts back; `none` where it is refused or keeps the tree. -/
def Rollback.putBack (r : Rollback) (s : Silo τ) : Option (Tree τ) :=
  match s.binding with
  | none => none
  | some b =>
    if r.target ∈ b.previous ∧ r.checks = true ∧ r.restoreState = true ∧ r.keepState = false ∧
        r.restores = true then
      match r.snapshot with
      | some id => lookupSnapshot s r id
      | none => findRestoreSnapshot s r
    else none

/-- The rollback leaves the tree alone and is not refused. -/
def Rollback.keeps (r : Rollback) (s : Silo τ) : Bool :=
  match s.binding with
  | none => false
  | some b => decide (r.target ∈ b.previous) && r.checks && !r.restoreState &&
      (r.keepState || (findRestoreSnapshot s r).isNone)

/-- `_apply` as far as the silo is concerned: the binding is written. -/
def Silo.rebind (s : Silo τ) (g : Digest) (recorded : Digest → Bool) (keep : ℕ) : Silo τ :=
  if s.binding.all fun b => b.active ≠ g then { s with binding := some (flip s.binding g recorded keep) }
  else s

/-- `_do_rollback`: the tree first, then the binding. -/
def Silo.rollback (s : Silo τ) (r : Rollback) : Silo τ :=
  match r.putBack s with
  | some t =>
    let s' := { s with tree := t, restored := true }
    if r.applies then s'.rebind r.target r.recorded r.keep else s'
  | none => if r.keeps s && r.applies then s.rebind r.target r.recorded r.keep else s

/-- `write_waiver`, by `_waive_main`. -/
def Silo.waive (s : Silo τ) : Silo τ :=
  match s.binding with
  | none => s
  | some b => { s with waivers := Function.update s.waivers (short b.active) (some b.active)
                       log := .waiver b.active :: s.log }

/-! ## Histories -/

/-- A call of one of the tools; a promote that is refused is none. -/
inductive Event (τ : Type)
  | promote (g : Digest) (recorded : Digest → Bool) (keep : ℕ)
  | rollback (r : Rollback)
  | waive
  | launch (o : Ops τ) (crash : Option Crash) (after : τ)

def step (s : Silo τ) : Event τ → Silo τ
  | .promote g recorded keep => s.rebind g recorded keep
  | .rollback r => s.rollback r
  | .waive => s.waive
  | .launch o crash after => s.launch o crash after

/-! ## What a launch leaves -/

/-- What no effect of a launch touches. -/
structure Same (s s' : Silo τ) : Prop where
  binding : s'.binding = s.binding
  marker : s'.marker = s.marker
  tree : s'.tree = s.tree
  restored : s'.restored = s.restored
  log : s'.log = s.log
  waivers : ∀ k, s'.waivers k = s.waivers k ∨ s'.waivers k = none

theorem same_perform (s : Silo τ) (e : Effect τ) : Same s (s.perform e) := by
  cases e with
  | unlinkWaiver key =>
    refine ⟨rfl, rfl, rfl, rfl, rfl, fun k => ?_⟩
    by_cases hk : k = key
    · right
      rw [hk]
      exact Function.update_self ..
    · left
      exact Function.update_of_ne hk ..
  | setPayload id t => exact ⟨rfl, rfl, rfl, rfl, rfl, fun _ => .inl rfl⟩
  | setRecord id m => exact ⟨rfl, rfl, rfl, rfl, rfl, fun _ => .inl rfl⟩

theorem same_performs (es : List (Effect τ)) (s : Silo τ) : Same s (es.foldl Silo.perform s) := by
  induction es generalizing s with
  | nil => exact ⟨rfl, rfl, rfl, rfl, rfl, fun _ => .inl rfl⟩
  | cons e es ih =>
    have hone := same_perform s e
    have hrest := ih (s.perform e)
    refine ⟨hrest.binding.trans hone.binding, hrest.marker.trans hone.marker,
      hrest.tree.trans hone.tree, hrest.restored.trans hone.restored, hrest.log.trans hone.log, fun k => ?_⟩
    rcases hrest.waivers k with h | h
    · rw [List.foldl_cons, h]
      exact hone.waivers k
    · exact .inr h

theorem snapshot_cases (s : Silo τ) (o : Ops τ) (policy : Policy) (incoming outgoing : Digest) :
    ((snapshot s o policy incoming outgoing).2 = .taken ∧
      ((snapshot s o policy incoming outgoing).1.foldl Silo.perform s).snaps =
        Function.update s.snaps (o.now, short outgoing)
          ⟨some ⟨outgoing, incoming, o.now, true⟩, some (copied s o (o.now, short outgoing))⟩) ∨
    (snapshot s o policy incoming outgoing).2 = .failed ∨
    (snapshot s o policy incoming outgoing).2 = onFailure policy := by
  unfold snapshot
  dsimp only
  split_ifs
  · exact .inr (.inr rfl)
  · exact .inr (.inl rfl)
  · exact .inr (.inr rfl)
  · exact .inr (.inr rfl)
  · exact .inr (.inl rfl)
  · refine .inl ⟨rfl, ?_⟩
    rw [List.foldl_append, List.foldl_append, copying]
    split_ifs <;> simp [Silo.perform]
  · exact .inr (.inl rfl)

theorem take_cases (s : Silo τ) (o : Ops τ) (policy : Policy) (g : Digest) (outgoing : Option Digest) :
    (takePreActivationSnapshot s o policy g outgoing = ([], .skipped) ∧
      (outgoing = none ∨ outgoing = some g)) ∨
    (takePreActivationSnapshot s o policy g outgoing = ([.unlinkWaiver (short g)], .waived) ∧
      s.waivers (short g) = some g) ∨
    takePreActivationSnapshot s o policy g outgoing = ([], .failed) ∨
    ∃ h, outgoing = some h ∧ s.waivers (short g) ≠ some g ∧
      takePreActivationSnapshot s o policy g outgoing = snapshot s o policy g h := by
  cases outgoing with
  | none => exact .inl ⟨rfl, .inl rfl⟩
  | some h =>
    rw [takePreActivationSnapshot]
    by_cases hg : h = g
    · rw [if_pos hg, hg]
      exact .inl ⟨rfl, .inr rfl⟩
    rw [if_neg hg]
    cases hw : s.waivers (short g) with
    | none => exact .inr (.inr (.inr ⟨h, rfl, by simp, rfl⟩))
    | some g' =>
      dsimp only
      split_ifs with hwaiver hsame
      · exact .inr (.inr (.inl rfl))
      · exact .inr (.inl ⟨rfl, by rw [hsame]⟩)
      · exact .inr (.inr (.inr ⟨h, rfl, by simpa using hsame, rfl⟩))

variable {s : Silo τ}

/-- **What a launch needed**: the marker named its generation, or a snapshot was gone through and the
marker is written if it can be. -/
theorem launched_cases {o : Ops τ} {g : Digest} {w : Bool}
    (h : (launchEnv s o).result = .launched g w) :
    (∃ b, s.binding = some b ∧ b.active = g) ∧
    ((s.marker = some g ∧ w = false ∧ (launchEnv s o).effects = [] ∧ (launchEnv s o).commits = none) ∨
      (s.marker ≠ some g ∧ ∃ policy t, o.policy = some policy ∧
        takePreActivationSnapshot s o policy g s.marker = ((launchEnv s o).effects, t) ∧
        t ≠ .failed ∧ t ≠ .refused ∧ w = decide (t = .waived) ∧
        (launchEnv s o).commits = if o.marker then some g else none)) := by
  rw [launchEnv] at h ⊢
  by_cases hreads : o.reads = false
  · rw [if_pos hreads] at h
    cases h
  rw [if_neg hreads] at h ⊢
  cases hb : s.binding with
  | none =>
    rw [hb] at h
    cases h
  | some b =>
    rw [hb] at h
    dsimp only at h ⊢
    rw [launchBound] at h ⊢
    by_cases hmarker : s.marker = some b.active
    · rw [if_pos hmarker] at h ⊢
      cases h
      exact ⟨⟨b, rfl, rfl⟩, .inl ⟨hmarker, rfl, rfl, rfl⟩⟩
    rw [if_neg hmarker] at h ⊢
    cases hpolicy : o.policy with
    | none =>
      rw [hpolicy] at h
      cases h
    | some policy =>
      rw [hpolicy] at h
      dsimp only at h ⊢
      generalize hp : takePreActivationSnapshot s o policy b.active s.marker = p at h ⊢
      obtain ⟨es, t⟩ := p
      cases t with
      | failed => cases h
      | refused => cases h
      | _ =>
        cases h
        exact ⟨⟨b, rfl, rfl⟩, .inr ⟨hmarker, policy, _, rfl, hp, by simp, by simp, rfl, rfl⟩⟩

theorem commits_cases (s : Silo τ) (o : Ops τ) :
    (launchEnv s o).commits = none ∨ ∃ g w, (launchEnv s o).result = .launched g w := by
  rw [launchEnv]
  split_ifs
  · exact .inl rfl
  cases s.binding with
  | none => exact .inl rfl
  | some b =>
    dsimp only
    rw [launchBound]
    split_ifs
    · exact .inl rfl
    cases o.policy with
    | none => exact .inl rfl
    | some policy =>
      dsimp only
      generalize takePreActivationSnapshot s o policy b.active s.marker = p
      obtain ⟨es, t⟩ := p
      cases t with
      | failed => exact .inl rfl
      | refused => exact .inl rfl
      | _ => exact .inr ⟨_, _, rfl⟩

theorem Same.commit {s' : Silo τ} (h : Same s s') (g : Option Digest) :
    (s'.commit g).tree = s.tree ∧ (s'.commit g).restored = s.restored ∧ (s'.commit g).log = s.log ∧
      (s'.commit g).snaps = s'.snaps ∧ (s'.commit g).waivers = s'.waivers ∧
      (s'.commit g).marker = g.or s.marker := by
  cases g with
  | none => exact ⟨h.tree, h.restored, h.log, rfl, rfl, h.marker⟩
  | some g => exact ⟨h.tree, h.restored, h.log, rfl, rfl, rfl⟩

theorem rebind_same (s : Silo τ) (g : Digest) (recorded : Digest → Bool) (keep : ℕ) :
    Same s { s.rebind g recorded keep with binding := s.binding } ∧
      (s.rebind g recorded keep).snaps = s.snaps ∧ (s.rebind g recorded keep).waivers = s.waivers := by
  unfold Silo.rebind
  split_ifs
  · exact ⟨⟨rfl, rfl, rfl, rfl, rfl, fun _ => .inl rfl⟩, rfl, rfl⟩
  · exact ⟨⟨rfl, rfl, rfl, rfl, rfl, fun _ => .inl rfl⟩, rfl, rfl⟩

/-- **A rollback** leaves everything but the binding alone, or puts a tree back. -/
theorem rollback_cases (s : Silo τ) (r : Rollback) :
    (s.rollback r).marker = s.marker ∧ (s.rollback r).snaps = s.snaps ∧
      (s.rollback r).waivers = s.waivers ∧ (s.rollback r).log = s.log ∧
      ((r.putBack s = none ∧ (s.rollback r).tree = s.tree ∧ (s.rollback r).restored = s.restored) ∨
        ∃ t, r.putBack s = some t ∧ (s.rollback r).tree = t ∧ (s.rollback r).restored = true) := by
  unfold Silo.rollback
  cases hput : r.putBack s with
  | some t =>
    dsimp only
    split_ifs
    · obtain ⟨h, hsnaps, hwaivers⟩ :=
        rebind_same { s with tree := t, restored := true } r.target r.recorded r.keep
      exact ⟨h.marker, hsnaps, hwaivers, h.log, .inr ⟨t, rfl, h.tree, h.restored⟩⟩
    · exact ⟨rfl, rfl, rfl, rfl, .inr ⟨t, rfl, rfl, rfl⟩⟩
  | none =>
    dsimp only
    split_ifs
    · obtain ⟨h, hsnaps, hwaivers⟩ := rebind_same s r.target r.recorded r.keep
      exact ⟨h.marker, hsnaps, hwaivers, h.log, .inl ⟨rfl, h.tree, h.restored⟩⟩
    · exact ⟨rfl, rfl, rfl, rfl, .inl ⟨rfl, rfl, rfl⟩⟩

/-! ## The marker -/

/-- The marker names the generation that the tree was last run under, unless the tree was put back. -/
def Marked (s : Silo τ) : Prop := s.restored = false → s.tree.leftBy = s.marker

/-- A launch that writes the marker can write it, and lives to return. -/
def Commits (s : Silo τ) : Event τ → Prop
  | .launch o crash _ => (∀ b, s.binding = some b → s.marker ≠ some b.active →
      o.marker = true ∧ crash ≠ some .late)
  | _ => True

theorem Marked.launch (h : Marked s) (o : Ops τ) (crash : Option Crash) (after : τ)
    (hc : Commits s (.launch o crash after)) : Marked (s.launch o crash after) := by
  unfold Silo.launch
  -- nothing was run, and the marker was not written
  have hsame : ∀ s' : Silo τ, Same s s' → Marked s' := by
    intro s' hs' hrestored
    rw [hs'.restored] at hrestored
    rw [hs'.tree, hs'.marker]
    exact h hrestored
  have hall := same_performs (launchEnv s o).effects s
  cases crash with
  | none =>
    dsimp only
    cases hres : (launchEnv s o).result with
    | launched g w =>
      obtain ⟨⟨b, hb, rfl⟩, hcases⟩ := launched_cases hres
      intro _
      show some b.active = ((List.foldl Silo.perform s (launchEnv s o).effects).commit _).marker
      rw [(hall.commit _).2.2.2.2.2]
      rcases hcases with ⟨hmarker, -, -, hcommits⟩ | ⟨hmarker, _, _, -, -, -, -, -, hcommits⟩
      · rw [hcommits, hmarker]
        rfl
      · rw [hcommits, if_pos (hc b hb hmarker).1]
        rfl
    | _ =>
      rcases commits_cases s o with hnone | ⟨g, w, hg⟩
      · rw [hnone]
        exact hsame _ hall
      · rw [hg] at hres
        cases hres
  | some c =>
    cases c with
    | early n => exact hsame _ (same_performs _ s)
    | late =>
      dsimp only
      rcases commits_cases s o with hnone | ⟨g, w, hg⟩
      · rw [hnone]
        exact hsame _ hall
      · obtain ⟨⟨b, hb, rfl⟩, ⟨-, -, -, hcommits⟩ | ⟨hmarker, -⟩⟩ := launched_cases hg
        · rw [hcommits]
          exact hsame _ hall
        · exact absurd rfl (hc b hb hmarker).2

/-- **Every history keeps the marker right** if the marker is written where it has to be. -/
theorem Marked.step (h : Marked s) (e : Event τ) (hc : Commits s e) :
    Marked (Activation.step s e) := by
  cases e with
  | promote g recorded keep =>
    obtain ⟨hsame, -, -⟩ := rebind_same s g recorded keep
    intro hrestored
    have hrestored : s.restored = false := hsame.restored.symm.trans hrestored
    exact (congrArg Tree.leftBy hsame.tree).trans ((h hrestored).trans hsame.marker.symm)
  | rollback r =>
    obtain ⟨hmarker, -, -, -, ⟨-, htree, hrestored⟩ | ⟨t, -, -, hrestored⟩⟩ := rollback_cases s r
    · intro hnot
      have hnot : s.restored = false := hrestored.symm.trans hnot
      exact (congrArg Tree.leftBy htree).trans ((h hnot).trans hmarker.symm)
    · intro hnot
      exact absurd (hrestored.symm.trans hnot) (by decide)
  | waive =>
    show Marked s.waive
    unfold Silo.waive
    split
    · exact h
    · exact h
  | launch o crash after => exact h.launch o crash after hc

/-! ## Labels -/

/-- Every snapshot that may be restored holds a tree that its outgoing generation left. -/
def Truthful (s : Silo τ) : Prop :=
  ∀ id m t, (s.snaps id).record = some m → m.restoreEligible = true → (s.snaps id).payload = some t →
    t.leftBy = some m.outgoing

/-- A tree that a rollback puts back was left by the target. -/
def Paired (s : Silo τ) : Event τ → Prop
  | .rollback r => ∀ t, r.putBack s = some t → t.leftBy = some r.target
  | _ => True

/-- Nothing but the write of a marker fails in a launch. -/
def Event.OnlyMarkerFails : Event τ → Prop
  | .launch o crash _ => crash = none ∧ o.reads = true ∧ o.waiver = true ∧ o.isDir = true ∧
      o.mechanism = true ∧ o.makeDirs = true ∧ o.removes = true ∧ o.copies = true ∧ o.records = true ∧
      o.pins = true
  | _ => True

/-- A launch that needs the marker writes it, and finds no tree that was put back for another generation
than the marker's, unless there is a waiver. -/
def LabelSafe (s : Silo τ) : Event τ → Prop
  | .launch o _ _ => ∀ b, s.binding = some b → s.marker ≠ some b.active → o.marker = true ∧
      (s.restored = true → s.tree.leftBy = s.marker ∨ s.waivers (short b.active) = some b.active)
  | _ => True

theorem eligible_eq {target : Digest} {m : SnapId × Record} {t : Tree τ}
    (h : eligible s target m = some t) :
    m.2.outgoing = target ∧ m.2.restoreEligible = true ∧ (s.snaps m.1).payload = some t := by
  unfold eligible at h
  split_ifs at h with hm
  exact ⟨hm.1, hm.2, h⟩

theorem mem_listSnapshots {listing : List SnapId} {m : SnapId × Record}
    (h : m ∈ listSnapshots s listing) : (s.snaps m.1).record = some m.2 := by
  rw [listSnapshots, List.mem_insertionSort, List.mem_filterMap] at h
  obtain ⟨id, -, h⟩ := h
  obtain ⟨record, hrecord, rfl⟩ := Option.map_eq_some_iff.mp h
  exact hrecord

theorem putBack_spec {r : Rollback} {t : Tree τ} (h : r.putBack s = some t) :
    ∃ id m, (s.snaps id).record = some m ∧ m.outgoing = r.target ∧ m.restoreEligible = true ∧
      (s.snaps id).payload = some t := by
  have hsome : ∀ m ∈ listSnapshots s r.listing, eligible s r.target m = some t →
      ∃ id m, (s.snaps id).record = some m ∧ m.outgoing = r.target ∧ m.restoreEligible = true ∧
        (s.snaps id).payload = some t := by
    intro m hm he
    obtain ⟨hout, helig, hpay⟩ := eligible_eq he
    exact ⟨m.1, m.2, mem_listSnapshots hm, hout, helig, hpay⟩
  unfold Rollback.putBack at h
  split at h
  next => cases h
  next b hb =>
    split_ifs at h
    split at h
    next id _ =>
      obtain ⟨m, hm, he⟩ := Option.bind_eq_some_iff.mp h
      exact hsome m (List.mem_of_find?_eq_some hm) he
    next =>
      obtain ⟨m, hm, he⟩ := List.exists_of_findSome?_eq_some h
      exact hsome m hm he

theorem Truthful.paired (h : Truthful s) (e : Event τ) : Paired s e := by
  cases e with
  | rollback r =>
    intro t ht
    obtain ⟨id, m, hrecord, hout, helig, hpay⟩ := putBack_spec ht
    rw [← hout]
    exact h id m t hrecord helig hpay
  | _ => trivial

theorem launchEnv_snaps {o : Ops τ} {crash : Option Crash} {after : τ}
    (ho : (Event.launch o crash after).OnlyMarkerFails) :
    ((launchEnv s o).effects.foldl Silo.perform s).snaps = s.snaps ∨
    ∃ b h, s.binding = some b ∧ s.marker = some h ∧ h ≠ b.active ∧
      s.waivers (short b.active) ≠ some b.active ∧
      ((launchEnv s o).effects.foldl Silo.perform s).snaps =
        Function.update s.snaps (o.now, short h) ⟨some ⟨h, b.active, o.now, true⟩, some s.tree⟩ := by
  obtain ⟨-, hreads, hwaiver, hdir, hmech, hmake, hremoves, hcopies, hrecords, hpins⟩ := ho
  have hcopied : ∀ id, copied s o id = s.tree := by
    intro id
    rw [copied, if_neg (by simp [hremoves])]
  rw [launchEnv, if_neg (by simp [hreads])]
  cases hb : s.binding with
  | none => exact .inl rfl
  | some b =>
    dsimp only
    rw [launchBound]
    split_ifs with hmarker
    · exact .inl rfl
    cases o.policy with
    | none => exact .inl rfl
    | some policy =>
      dsimp only
      have heffects : ∀ p : List (Effect τ) × Taken, (conclude o b.active p).effects = p.1 := by
        intro p
        obtain ⟨es, t⟩ := p
        cases t <;> rfl
      rw [heffects]
      rcases take_cases s o policy b.active s.marker with ⟨hp, -⟩ | ⟨hp, -⟩ | hp | ⟨h, hh, hw, hp⟩
      · exact .inl (by rw [hp]; rfl)
      · exact .inl (by rw [hp]; rfl)
      · exact .inl (by rw [hp]; rfl)
      · right
        refine ⟨b, h, rfl, hh, fun heq => hmarker (by rw [hh, heq]), hw, ?_⟩
        have htaken : (snapshot s o policy b.active h).2 = .taken := by
          simp [snapshot, hdir, hmech, hmake, hcopies, hrecords, hpins]
        rw [hp]
        rcases snapshot_cases s o policy b.active h with ⟨-, hsnaps⟩ | hfail | hfail
        · rw [hsnaps, hcopied]
        · rw [htaken] at hfail
          cases hfail
        · rw [htaken] at hfail
          cases policy <;> cases hfail

theorem Truthful.launch (h : Truthful s) (hm : Marked s) {o : Ops τ} {crash : Option Crash}
    {after : τ} (ho : (Event.launch o crash after).OnlyMarkerFails)
    (hsafe : LabelSafe s (.launch o crash after)) : Truthful (s.launch o crash after) := by
  have hsnaps : (s.launch o crash after).snaps = ((launchEnv s o).effects.foldl Silo.perform s).snaps := by
    unfold Silo.launch
    rw [ho.1]
    show (Silo.ran _ after (launchEnv s o).result).snaps = _
    rw [← ((same_performs (launchEnv s o).effects s).commit (launchEnv s o).commits).2.2.2.1]
    cases (launchEnv s o).result <;> rfl
  unfold Truthful
  rw [hsnaps]
  rcases launchEnv_snaps ho with hsame | ⟨b, g, hb, hg, hne, hw, hupdate⟩
  · rw [hsame]
    exact h
  · rw [hupdate]
    intro id m t hrecord helig hpay
    by_cases hid : id = (o.now, short g)
    · -- the new snapshot: the marker names the generation that left the tree
      subst hid
      rw [Function.update_self] at hrecord hpay
      cases hrecord
      cases hpay
      have hmarker : s.marker ≠ some b.active := by
        rw [hg]
        simpa using hne
      rw [← hg]
      cases hrestored : s.restored with
      | false => exact hm hrestored
      | true => exact ((hsafe b hb hmarker).2 hrestored).resolve_right hw
    · rw [Function.update_of_ne hid] at hrecord hpay
      exact h id m t hrecord helig hpay

theorem Truthful.step (h : Truthful s) (hm : Marked s) {e : Event τ} (he : e.OnlyMarkerFails)
    (hsafe : LabelSafe s e) : Truthful (Activation.step s e) := by
  cases e with
  | promote g recorded keep =>
    unfold Truthful
    rw [show (Activation.step s (.promote g recorded keep)).snaps = s.snaps from
      (rebind_same s g recorded keep).2.1]
    exact h
  | rollback r =>
    unfold Truthful
    rw [show (Activation.step s (.rollback r)).snaps = s.snaps from (rollback_cases s r).2.1]
    exact h
  | waive =>
    show Truthful s.waive
    unfold Silo.waive
    split
    · exact h
    · exact h
  | launch o crash after => exact h.launch hm he hsafe

theorem marked_fresh (content : τ) : Marked (fresh content) := fun _ => rfl

theorem truthful_fresh (content : τ) : Truthful (fresh content) := by
  intro id m t hrecord
  cases hrecord

/-- **Labels are truthful** in every history whose launches write the marker and do not take a snapshot
of a tree that was put back for another generation, and a rollback puts back what its target left. -/
theorem labels_truthful (content : τ) (es : List (Event τ)) (hsound : ∀ e ∈ es, e.OnlyMarkerFails)
    (hsafe : Meets step LabelSafe (fresh content) es) :
    Truthful (run step (fresh content) es) ∧ Meets step Paired (fresh content) es := by
  have hboth := Meets.and (Meets.of_mem hsound (fresh content)) hsafe
  have hinv : ∀ (s : Silo τ) (e : Event τ), (e.OnlyMarkerFails ∧ LabelSafe s e) →
      Marked s ∧ Truthful s → Marked (step s e) ∧ Truthful (step s e) := by
    intro s e he hs
    refine ⟨hs.1.step e ?_, hs.2.step hs.1 he.1 he.2⟩
    cases e with
    | launch o crash after =>
      intro b hb hmarker
      refine ⟨(he.2 b hb hmarker).1, ?_⟩
      rw [he.1.1]
      simp
    | _ => trivial
  have h0 : Marked (fresh content) ∧ Truthful (fresh content) :=
    ⟨marked_fresh content, truthful_fresh content⟩
  constructor
  · exact (hboth.invariant hinv h0).2
  · exact hboth.consequence (fun s e hs _ => hs.2.paired e) hinv h0

/-! ## The gate -/

/-- A launch that returns success on a tree last run under another generation has, in that call, recorded
a whole snapshot of that tree for the move, or used up a waiver. -/
def Gated (s : Silo τ) : Event τ → Prop
  | .launch o crash after => ∀ g w h, crash = none → (launchEnv s o).result = .launched g w →
      s.tree.leftBy = some h → h ≠ g →
      (∃ id m, Effect.setRecord id (some m) ∈ (launchEnv s o).effects ∧ m.outgoing = h ∧ m.incoming = g ∧
        (step s (.launch o crash after)).snaps id = ⟨some m, some s.tree⟩) ∨
      (s.waivers (short g) = some g ∧ (step s (.launch o crash after)).waivers (short g) = none)
  | _ => True

/-- The policy is strict, or it cannot be read. -/
def Event.Strict : Event τ → Prop
  | .launch o _ _ => o.policy ≠ some .availability
  | _ => True

/-- A launch finds a tree that was put back only if its own generation or the marker's left it; one that
needs the marker writes it and lives to return, and can remove a payload left under the id of its
snapshot. -/
def GateSafe (s : Silo τ) : Event τ → Prop
  | .launch o crash _ => ∀ b, s.binding = some b →
      (s.restored = true → s.tree.leftBy = s.marker ∨ s.tree.leftBy = some b.active) ∧
      (s.marker ≠ some b.active → o.marker = true ∧ crash ≠ some .late ∧
        ∀ h, s.marker = some h → (s.snaps (o.now, short h)).payload = none ∨ o.removes = true)
  | _ => True

theorem setRecord_mem_snapshot {o : Ops τ} {policy : Policy} {g h : Digest}
    (ht : (snapshot s o policy g h).2 = .taken) :
    Effect.setRecord (o.now, short h) (some ⟨h, g, o.now, true⟩) ∈ (snapshot s o policy g h).1 := by
  unfold snapshot at ht ⊢
  dsimp only at ht ⊢
  split_ifs at ht ⊢
  all_goals first
    | exact List.mem_append_right _ (List.mem_singleton_self _)
    | cases ht
    | cases policy <;> cases ht

theorem Marked.gated (hm : Marked s) {e : Event τ} (hstrict : e.Strict) (hsafe : GateSafe s e) :
    Gated s e := by
  cases e with
  | launch o crash after =>
    intro g w h hcrash hres hleft hne
    obtain ⟨⟨b, hb, rfl⟩, hcases⟩ := launched_cases hres
    obtain ⟨hrestored, hcommit⟩ := hsafe b hb
    -- the marker names the generation that left the tree
    have hmarker : s.marker = some h := by
      cases hr : s.restored with
      | false => exact (hm hr).symm.trans hleft
      | true =>
        rcases hrestored hr with heq | heq
        · exact heq.symm.trans hleft
        · rw [hleft] at heq
          exact absurd (Option.some.inj heq) hne
    rcases hcases with ⟨hsame, -⟩ | ⟨hdiff, policy, t, hpolicy, htake, hnf, hnr, -, -⟩
    · rw [hmarker] at hsame
      exact absurd (Option.some.inj hsame) hne
    have hsnaps : (Activation.step s (.launch o crash after)).snaps =
          ((launchEnv s o).effects.foldl Silo.perform s).snaps ∧
        (Activation.step s (.launch o crash after)).waivers =
          ((launchEnv s o).effects.foldl Silo.perform s).waivers := by
      obtain ⟨-, -, -, hs, hw, -⟩ :=
        (same_performs (launchEnv s o).effects s).commit (launchEnv s o).commits
      subst hcrash
      have hstep : Activation.step s (.launch o none after) =
          Silo.ran ((List.foldl Silo.perform s (launchEnv s o).effects).commit (launchEnv s o).commits)
            after (launchEnv s o).result := rfl
      rw [hstep, hres]
      exact ⟨hs, hw⟩
    rw [hsnaps.1, hsnaps.2]
    rcases take_cases s o policy b.active s.marker with ⟨hp, hnone | hsame⟩ | ⟨hp, hw⟩ | hp | ⟨h', hh, -, hp⟩
    · rw [hmarker] at hnone
      cases hnone
    · exact absurd hsame hdiff
    · right
      rw [htake] at hp
      refine ⟨hw, ?_⟩
      rw [show (launchEnv s o).effects = [.unlinkWaiver (short b.active)] from (Prod.ext_iff.mp hp).1]
      exact Function.update_self ..
    · rw [htake] at hp
      exact absurd (Prod.ext_iff.mp hp).2 hnf
    · left
      have hh' : h' = h := Option.some.inj (hh.symm.trans hmarker)
      subst hh'
      rw [htake] at hp
      obtain ⟨heffects, ht⟩ := Prod.ext_iff.mp hp
      have hstrictly : onFailure policy = .refused := by
        cases policy with
        | strict => rfl
        | availability => exact absurd hpolicy hstrict
      have htaken : (snapshot s o policy b.active h').2 = .taken ∧ _ :=
        (snapshot_cases s o policy b.active h').resolve_right (by
          rintro (hfail | hfail)
          · exact hnf (ht.trans hfail)
          · exact hnr (ht.trans (hfail.trans hstrictly)))
      refine ⟨(o.now, short h'), ⟨h', b.active, o.now, true⟩, ?_, rfl, rfl, ?_⟩
      · rw [show (launchEnv s o).effects = _ from heffects]
        exact setRecord_mem_snapshot htaken.1
      · rw [show (launchEnv s o).effects = _ from heffects, htaken.2, Function.update_self]
        have hcopied : copied s o (o.now, short h') = s.tree := by
          rw [copied, if_neg]
          rintro ⟨hsome, hremoves⟩
          rcases (hcommit hdiff).2.2 h' hmarker with hnone | hyes
          · rw [hnone] at hsome
            cases hsome
          · rw [hyes] at hremoves
            cases hremoves
        rw [hcopied]
  | _ => trivial

/-! ## Waivers -/

/-- A waiver for the generation is there. -/
def pending (s : Silo τ) (g : Digest) : ℕ := if s.waivers (short g) = some g then 1 else 0

/-- Activations that used a waiver, and waivers not yet used, are no more than were written. -/
def OneShot (s : Silo τ) : Prop :=
  ∀ g, s.log.count (.waived g) + pending s g ≤ s.log.count (.waiver g)

theorem pending_eq_zero {g : Digest} (h : s.waivers (short g) ≠ some g) :
    pending s g = 0 := if_neg h

theorem pending_congr {s' : Silo τ} {g : Digest} (h : s'.waivers (short g) = s.waivers (short g)) :
    pending s' g = pending s g := by
  unfold pending
  simp only [h]

theorem OneShot.of_same {s' : Silo τ} (h : OneShot s) (hlog : s'.log = s.log)
    (hwaivers : ∀ k, s'.waivers k = s.waivers k ∨ s'.waivers k = none) : OneShot s' := by
  intro g
  have hle : pending s' g ≤ pending s g := by
    rcases hwaivers (short g) with heq | heq
    · exact (pending_congr heq).le
    · rw [pending_eq_zero (by simp [heq])]
      exact Nat.zero_le _
  have hg := h g
  rw [hlog]
  omega

theorem OneShot.waive (h : OneShot s) : OneShot s.waive := by
  unfold Silo.waive
  split
  next => exact h
  next b hb =>
    intro g
    have hg := h g
    by_cases hgb : b.active = g
    · subst hgb
      have hlast : pending { s with waivers := Function.update s.waivers (short b.active) (some b.active)
                                    log := .waiver b.active :: s.log } b.active ≤ 1 := by
        unfold pending
        split_ifs <;> omega
      simp only [List.count_cons] at hg ⊢
      simp only [beq_self_eq_true, if_true, reduceCtorEq, beq_iff_eq, if_false]
      omega
    · have hpending : pending { s with
          waivers := Function.update s.waivers (short b.active) (some b.active)
          log := .waiver b.active :: s.log } g ≤ pending s g := by
        by_cases hk : short g = short b.active
        · rw [pending_eq_zero]
          · exact Nat.zero_le _
          · show Function.update s.waivers (short b.active) (some b.active) (short g) ≠ some g
            rw [hk, Function.update_self]
            simpa using hgb
        · exact (pending_congr (Function.update_of_ne hk ..)).le
      simp only [List.count_cons, reduceCtorEq, beq_iff_eq, if_false, Entry.waiver.injEq, hgb]
      omega

theorem OneShot.launch (h : OneShot s) (o : Ops τ) (crash : Option Crash) (after : τ) :
    OneShot (s.launch o crash after) := by
  unfold Silo.launch
  have hall := same_performs (launchEnv s o).effects s
  obtain ⟨-, -, hlog, -, hwaivers, -⟩ := hall.commit (launchEnv s o).commits
  have hcommitted : OneShot ((List.foldl Silo.perform s (launchEnv s o).effects).commit
      (launchEnv s o).commits) :=
    h.of_same hlog (fun k => by rw [hwaivers]; exact hall.waivers k)
  cases crash with
  | some c =>
    cases c with
    | early n => exact h.of_same (same_performs _ s).log (same_performs _ s).waivers
    | late => exact hcommitted
  | none =>
    dsimp only
    cases hres : (launchEnv s o).result with
    | launched g w =>
      cases w with
      | false => exact hcommitted
      | true =>
        -- the waiver that let the launch pass is gone
        obtain ⟨⟨b, hb, rfl⟩, ⟨-, hw, -⟩ | ⟨-, policy, t, -, htake, -, -, hw, -⟩⟩ := launched_cases hres
        · cases hw
        have ht : t = .waived := of_decide_eq_true hw.symm
        subst ht
        rcases take_cases s o policy b.active s.marker with ⟨hp, -⟩ | ⟨hp, hwaiver⟩ | hp | ⟨h', -, -, hp⟩
        · rw [htake] at hp
          cases (Prod.ext_iff.mp hp).2
        · rw [htake] at hp
          have heffects : (launchEnv s o).effects = [.unlinkWaiver (short b.active)] :=
            (Prod.ext_iff.mp hp).1
          intro g
          have hg := hcommitted g
          have hs := h g
          by_cases hgb : b.active = g
          · subst hgb
            have hone : pending s b.active = 1 := if_pos hwaiver
            have hzero : pending (Silo.ran ((List.foldl Silo.perform s
                (launchEnv s o).effects).commit (launchEnv s o).commits) after
                  (.launched b.active true)) b.active = 0 := by
              apply pending_eq_zero
              show ¬ ((List.foldl Silo.perform s (launchEnv s o).effects).commit
                (launchEnv s o).commits).waivers (short b.active) = some b.active
              rw [hwaivers, heffects]
              simp [Silo.perform]
            show (Entry.waived b.active :: _).count _ + _ ≤ (Entry.waived b.active :: _).count _
            rw [hzero, hlog]
            simp only [List.count_cons, beq_self_eq_true, if_true, reduceCtorEq, beq_iff_eq, if_false]
            omega
          · show (Entry.waived b.active :: _).count _ + _ ≤ (Entry.waived b.active :: _).count _
            simp only [List.count_cons, reduceCtorEq, beq_iff_eq, if_false, Entry.waived.injEq, hgb]
            exact hg
        · rw [htake] at hp
          cases (Prod.ext_iff.mp hp).2
        · rw [htake] at hp
          have ht := (Prod.ext_iff.mp hp).2
          rcases snapshot_cases s o policy b.active h' with ⟨h1, -⟩ | h1 | h1
          · cases ht.trans h1
          · cases ht.trans h1
          · have hfail := ht.trans h1
            cases policy <;> cases hfail
    | _ => exact hcommitted

theorem OneShot.step (h : OneShot s) (e : Event τ) : OneShot (Activation.step s e) := by
  cases e with
  | promote g recorded keep =>
    obtain ⟨hsame, -, hwaivers⟩ := rebind_same s g recorded keep
    exact h.of_same hsame.log fun k => .inl (congrFun hwaivers k)
  | rollback r =>
    obtain ⟨-, -, hwaivers, hlog, -⟩ := rollback_cases s r
    exact h.of_same hlog fun k => .inl (congrFun hwaivers k)
  | waive => exact h.waive
  | launch o crash after => exact h.launch o crash after

/-- A launch in which everything works. -/
def soundOps (now : ℤ) : Ops ℕ where
  reads := true
  policy := some .strict
  now := now
  waiver := true
  isDir := true
  mechanism := true
  makeDirs := true
  removes := true
  mixed := 0
  copies := true
  part := 0
  cleansRecord := true
  cleansPayload := true
  records := true
  pins := true
  marker := true

def genA : Digest := "sha256:aaaaaaaaaaaa"
def genB : Digest := "sha256:bbbbbbbbbbbb"

/-- Generation `A` runs, then `B`, and a rollback puts `A`'s tree back. -/
def restoring : List (Event ℕ) :=
  [.promote genA (fun _ => true) 3, .launch (soundOps 1) none 10, .promote genB (fun _ => true) 3,
    .launch (soundOps 2) none 20,
    .rollback ⟨genA, true, false, none, true, [(2, short genA)], true, true, fun _ => true, 3⟩]

/-- With a waiver nothing is labelled wrongly. -/
theorem restoring_truthful :
    (run step (fresh 0) (restoring ++ [Event.waive, Event.launch (soundOps 3) none 11])).tree = ⟨11, some genA⟩ ∧
    Truthful (run step (fresh 0) (restoring ++ [Event.waive, Event.launch (soundOps 3) none 11])) ∧
    Meets step Paired (fresh 0) (restoring ++ [Event.waive, Event.launch (soundOps 3) none 11]) := by
  refine ⟨by decide +kernel, labels_truthful 0 _ ?_ ?_⟩
  · intro e he
    simp only [restoring, List.cons_append, List.nil_append, List.mem_cons, List.not_mem_nil,
      or_false] at he
    rcases he with rfl | rfl | rfl | rfl | rfl | rfl | rfl <;> simp [Event.OnlyMarkerFails, soundOps]
  · refine ⟨trivial, ?_, trivial, ?_, trivial, trivial, ?_, trivial⟩
    · intro b _ _
      exact ⟨rfl, fun h => absurd h (by decide +kernel)⟩
    · intro b _ _
      exact ⟨rfl, fun h => absurd h (by decide +kernel)⟩
    · intro b hb _
      refine ⟨rfl, fun _ => .inr ?_⟩
      cases hb
      decide +kernel

/-- Without it the next launch of `A` labels `A`'s tree with `B`, and a later rollback to `B` puts it
back. -/
theorem restoring_mislabels :
    (∀ e ∈ restoring ++ [Event.launch (soundOps 3) none 11], Event.OnlyMarkerFails e) ∧
    ((run step (fresh 0) (restoring ++ [Event.launch (soundOps 3) none 11])).snaps (3, short genB)).record =
      some ⟨genB, genA, 3, true⟩ ∧
    ((run step (fresh 0) (restoring ++ [Event.launch (soundOps 3) none 11])).snaps (3, short genB)).payload =
      some ⟨10, some genA⟩ ∧
    ¬ Truthful (run step (fresh 0) (restoring ++ [Event.launch (soundOps 3) none 11])) := by
  have hrecord : ((run step (fresh 0) (restoring ++ [Event.launch (soundOps 3) none 11])).snaps
      (3, short genB)).record = some ⟨genB, genA, 3, true⟩ := by decide +kernel
  have hpayload : ((run step (fresh 0) (restoring ++ [Event.launch (soundOps 3) none 11])).snaps
      (3, short genB)).payload = some ⟨10, some genA⟩ := by decide +kernel
  refine ⟨?_, hrecord, hpayload, ?_⟩
  · intro e he
    simp only [restoring, List.cons_append, List.nil_append, List.mem_cons, List.not_mem_nil,
      or_false] at he
    rcases he with rfl | rfl | rfl | rfl | rfl | rfl <;> simp [Event.OnlyMarkerFails, soundOps]
  · intro h
    exact absurd (h _ _ _ hrecord rfl hpayload) (by decide)

/-- The first marker cannot be written; then `B` is launched on `A`'s tree. -/
def unmarked : List (Event ℕ) :=
  [.promote genA (fun _ => true) 3, .launch { soundOps 1 with marker := false } none 10,
    .promote genB (fun _ => true) 3]

end Activation
