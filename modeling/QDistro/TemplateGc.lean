/-
# Collection and promotion

`qdistro-template-gc` reads the bindings, then the pins and the generation records, tags what it keeps
and removes other images one by one; promotes and rollbacks run meanwhile, and no lock covers both.

What a binding named when gc read it keeps its image.  A call's own `active` pin gives it none: gc
ignores such a pin until a binding agrees with it.  So the image of a call's generation is there at
the end when gc removes no image that a call under way activates, or has bound since gc read the
bindings (`promoted_images_exist`).
-/
import QDistro.TemplateDisk

namespace TemplateGc

open TemplateDisk
open TransitionSystem

/-! ## What gc keeps -/

/-- `_binding_actives` -/
def Active (d : Disk) (template : Template) (g : Digest) : Prop :=
  ∃ silo b, d.files (.binding silo) = some (.binding b) ∧ b.template = template ∧ b.active = g

/-- `build_pinned_set`, over the bindings that were read: an `active` pin protects nothing that is not
active. -/
def Pinned (actives : Template → Digest → Prop) (d : Disk) (now : ℚ) (template : Template)
    (g : Digest) : Prop :=
  actives template g ∨ ∃ reason p, d.files (.pin template g reason) = some (.pin p) ∧
    reason ≠ .active ∧ ∀ e ∈ p.expiresAt, now < e

/-- `_all_promoted_generations` -/
def Promoted (d : Disk) (g : Digest) : Prop := ∃ template, (template, g) ∈ d.generations

/-- `_retention_survivor_digests`: `newest` lists the records of a template, newest first. -/
def Survivor (newest : Template → List Digest) (keep : Template → ℕ) (g : Digest) : Prop :=
  ∃ template, g ∈ (newest template).take (keep template)

/-- What neither pass of `_gc_payloads` removes. -/
def Kept (actives : Template → Digest → Prop) (d : Disk) (now : ℚ)
    (newest : Template → List Digest) (keep : Template → ℕ) (g : Digest) : Prop :=
  (∃ template, Pinned actives d now template g) ∨ Survivor newest keep g ∧ Promoted d g

/-! ## Interleavings -/

/-- A call under way: what it activates, and the writes that are left. -/
structure Running where
  silo : Silo
  generation : Digest
  left : List Write

inductive Phase
  | idle
  /-- The bindings are read. -/
  | reading (actives : Template → Digest → Prop)
  /-- The kept images are tagged, and others are being removed. -/
  | sweeping (kept : Digest → Prop) (tagged : List Digest)

structure World where
  disk : Disk
  images : List Digest
  calls : ℕ → Option Running
  gc : Phase
  /-- The generations that were bound since gc read the bindings. -/
  since : List Digest
  /-- The silos whose binding a call has written. -/
  bound : List Silo
  /-- The silos for which a call returned success. -/
  succeeded : List Silo

inductive Action
  /-- A call begins, or for a rollback makes its check of the image.  Of the disk it may read what is
  there at any other moment. -/
  | start (i : ℕ) (c : Call) (seen : Disk)
  /-- The next write of a call, or its return. -/
  | write (i : ℕ)
  | crash (i : ℕ)
  | readBindings
  | readPins (now : ℚ) (newest : Template → List Digest) (keep : Template → ℕ) (tagged : List Digest)
  /-- `podman rmi`, with the untagged parents it takes along. -/
  | remove (g : Digest) (cascade : List Digest)
  | finish

/-- The write of a call that is its commit. -/
def commits (silo : Silo) (w : Write) : Bool := w.path = some (.binding silo)

/-- A call as it begins: a rollback looks for its image. -/
def Call.checked (c : Call) (images : List Digest) : Call :=
  { c with imageExists := c.rollback ∈ images }

open Classical in
noncomputable def step (s : World) : Action → World
  | .start i c seen =>
    match s.calls i, (Call.checked c s.images).target seen with
    | none, some t =>
      { s with
        calls := Function.update s.calls i
          (some ⟨c.silo, t.generation, writes seen (Call.checked c s.images) t⟩) }
    | _, _ => s
  | .write i =>
    match s.calls i with
    | none => s
    | some ⟨silo, _, []⟩ =>
      { s with
        calls := Function.update s.calls i none
        succeeded := silo :: s.succeeded }
    | some ⟨silo, generation, w :: left⟩ =>
      { s with
        disk := s.disk.write w
        calls := Function.update s.calls i (some ⟨silo, generation, left⟩)
        since := if commits silo w then generation :: s.since else s.since
        bound := if commits silo w then silo :: s.bound else s.bound }
  | .crash i => { s with calls := Function.update s.calls i none }
  | .readBindings => { s with gc := .reading (Active s.disk), since := [] }
  | .readPins now newest keep tagged =>
    match s.gc with
    | .reading actives =>
      -- an image that cannot be tagged ends the run
      if ∀ g ∈ s.images, Kept actives s.disk now newest keep g → g ∈ tagged then
        { s with gc := .sweeping (Kept actives s.disk now newest keep) tagged }
      else { s with gc := .idle }
    | _ => s
  | .remove g cascade =>
    match s.gc with
    | .sweeping kept tagged =>
      if ¬ kept g ∧ ∀ x ∈ cascade, x ∉ tagged then
        { s with images := s.images.filter fun x => x ∉ g :: cascade }
      else s
    | _ => s
  | .finish => { s with gc := .idle }

/-- Before gc and the calls. -/
def initial (d : Disk) (images : List Digest) : World :=
  ⟨d, images, fun _ => none, .idle, [], [], []⟩

/-- A promote begins while there is an image of its generation; gc removes none that a call under way
activates, or one has bound since gc read the bindings. -/
def ok (s : World) : Action → Prop
  | .start _ c _ => ∀ p ∈ c.candidate, p.2 ∈ s.images
  | .remove g cascade => ∀ x ∈ g :: cascade,
      (∀ i r, s.calls i = some r → r.generation ≠ x) ∧ x ∉ s.since
  | _ => True

/-! ## Images in use -/

/-- A write that is left of a call: if it reaches a binding, it is the commit. -/
def Running.Commit (r : Running) (w : Write) : Prop :=
  ∀ silo, w.path = some (.binding silo) → silo = r.silo ∧
    ∃ b, w = .file (.binding silo) (.binding b) ∧ b.active = r.generation

/-- What gc knows of the bindings: it has read their generations, or they were bound since. -/
def Phase.Covers (images : List Digest) (d : Disk) (since : List Digest) : Phase → Prop
  | .idle => True
  | .reading actives => ∀ silo b, d.files (.binding silo) = some (.binding b) →
      actives b.template b.active ∨ b.active ∈ since
  | .sweeping kept tagged => (∀ g ∈ images, kept g → g ∈ tagged) ∧
      ∀ silo b, d.files (.binding silo) = some (.binding b) → kept b.active ∨ b.active ∈ since

structure Inv (s : World) : Prop where
  running : ∀ i r, s.calls i = some r → r.generation ∈ s.images ∧ (∀ w ∈ r.left, r.Commit w) ∧
    (r.silo ∈ s.bound ∨ ∃ w ∈ r.left, commits r.silo w = true)
  bound : ∀ silo ∈ s.bound, ∃ b, s.disk.files (.binding silo) = some (.binding b) ∧
    b.active ∈ s.images
  succeeded : ∀ silo ∈ s.succeeded, silo ∈ s.bound
  gc : s.gc.Covers s.images s.disk s.since

variable {s : World}

theorem of_update {calls : ℕ → Option Running} {i j : ℕ} {entry : Option Running} {r : Running}
    (h : Function.update calls i entry j = some r) : entry = some r ∨ calls j = some r := by
  by_cases hj : j = i
  · subst hj
    rw [Function.update_self] at h
    exact .inl h
  · rw [Function.update_of_ne hj] at h
    exact .inr h

theorem writes_commit {d : Disk} {c : Call} {t : Target} {w : Write} (hw : w ∈ writes d c t) :
    Running.Commit ⟨c.silo, t.generation, writes d c t⟩ w := by
  intro silo hpath
  rcases List.mem_append.mp hw with hw | hw
  · exact absurd hpath (binding_preparation hw)
  · rcases List.mem_cons.mp hw with rfl | hw
    · cases hpath
      exact ⟨rfl, _, rfl, rfl⟩
    · exact absurd hpath (binding_cleanup hw)

theorem target_image {d : Disk} {c : Call} {t : Target} {images : List Digest}
    (h : (Call.checked c images).target d = some t) (hc : ∀ p ∈ c.candidate, p.2 ∈ images) :
    t.generation ∈ images := by
  unfold Call.target at h
  dsimp only at h
  split at h
  next template ref hcand =>
    split_ifs at h with hcond
    cases h
    exact hc _ hcand
  next hcand =>
    split at h
    next => cases h
    next b hb =>
      split_ifs at h with hcond
      cases h
      exact of_decide_eq_true hcond.2.2.2.1

theorem Inv.start (h : Inv s) {i : ℕ} {c : Call} {seen : Disk} (hok : ok s (.start i c seen)) :
    Inv (step s (.start i c seen)) := by
  rw [step]
  split
  next t hnone htarget =>
    refine ⟨fun j r hr => ?_, h.bound, h.succeeded, h.gc⟩
    rcases of_update hr with hr | hr
    · cases hr
      refine ⟨target_image htarget hok, fun w hw => writes_commit hw, .inr ?_⟩
      refine ⟨_, List.mem_append_right _ List.mem_cons_self, ?_⟩
      exact decide_eq_true rfl
    · exact h.running j r hr
  next => exact h

theorem files_binding {r : Running} {w : Write} (hw : r.Commit w) (d : Disk) (silo : Silo) :
    (d.write w).files (.binding silo) = d.files (.binding silo) ∧
        ¬ (silo = r.silo ∧ commits r.silo w = true) ∨
      silo = r.silo ∧ commits r.silo w = true ∧ ∃ b, b.active = r.generation ∧
        (d.write w).files (.binding silo) = some (.binding b) := by
  by_cases hpath : w.path = some (.binding silo)
  · obtain ⟨rfl, b, rfl, hb⟩ := hw silo hpath
    exact .inr ⟨rfl, decide_eq_true rfl, b, hb, Function.update_self _ _ _⟩
  · refine .inl ⟨files_write hpath, ?_⟩
    rintro ⟨rfl, hcommit⟩
    exact hpath (of_decide_eq_true hcommit)

theorem Phase.Covers.write {phase : Phase} {images since : List Digest} {d : Disk} {r : Running}
    {w : Write} (h : phase.Covers images d since) (hw : r.Commit w) :
    phase.Covers images (d.write w)
      (if commits r.silo w then r.generation :: since else since) := by
  have hmem : ∀ g ∈ since, g ∈ if commits r.silo w then r.generation :: since else since := by
    intro g hg
    split_ifs
    · exact List.mem_cons_of_mem _ hg
    · exact hg
  have hcover : ∀ (P : Binding → Prop),
      (∀ silo b, d.files (.binding silo) = some (.binding b) → P b ∨ b.active ∈ since) →
      ∀ silo b, (d.write w).files (.binding silo) = some (.binding b) →
        P b ∨ b.active ∈ if commits r.silo w then r.generation :: since else since := by
    intro P hP silo b hb
    rcases files_binding hw d silo with ⟨hsame, -⟩ | ⟨-, hcommit, b', hb', hnew⟩
    · rw [hsame] at hb
      exact (hP silo b hb).imp_right (hmem _)
    · rw [hnew] at hb
      cases hb
      rw [if_pos hcommit, hb']
      exact .inr List.mem_cons_self
  cases phase with
  | idle => trivial
  | reading actives => exact hcover (fun b => actives b.template b.active) h
  | sweeping kept tagged => exact ⟨h.1, hcover (fun b => kept b.active) h.2⟩

theorem Inv.write (h : Inv s) (i : ℕ) : Inv (step s (.write i)) := by
  rw [step]
  split
  next => exact h
  next silo g hcall =>
    obtain ⟨-, -, hbound⟩ := h.running i _ hcall
    refine ⟨fun j r hr => ?_, h.bound, fun x hx => ?_, h.gc⟩
    · rcases of_update hr with hr | hr
      · cases hr
      · exact h.running j r hr
    · rcases List.mem_cons.mp hx with rfl | hx
      · rcases hbound with hbound | ⟨w, hw, -⟩
        · exact hbound
        · exact absurd hw List.not_mem_nil
      · exact h.succeeded x hx
  next silo g w left hcall =>
    obtain ⟨himage, hleft, hbound⟩ := h.running i _ hcall
    have hw := hleft w List.mem_cons_self
    have hmem : ∀ x ∈ s.bound, x ∈ if commits silo w then silo :: s.bound else s.bound := by
      intro x hx
      split_ifs
      · exact List.mem_cons_of_mem _ hx
      · exact hx
    refine ⟨fun j r hr => ?_, fun x hx => ?_, fun x hx => hmem x (h.succeeded x hx), ?_⟩
    · rcases of_update hr with hr | hr
      · cases hr
        refine ⟨himage, fun w' hw' => hleft w' (List.mem_cons_of_mem _ hw'), ?_⟩
        -- the commit is left, or it was this write
        rcases hbound with hbound | ⟨w', hw', hcommit⟩
        · exact .inl (hmem _ hbound)
        · rcases List.mem_cons.mp hw' with rfl | hw'
          · left
            dsimp only at hcommit ⊢
            rw [if_pos hcommit]
            exact List.mem_cons_self
          · exact .inr ⟨w', hw', hcommit⟩
      · obtain ⟨himage', hleft', hbound'⟩ := h.running j r hr
        exact ⟨himage', hleft', hbound'.imp_left (hmem _)⟩
    · rcases files_binding hw s.disk x with ⟨hsame, hne⟩ | ⟨-, -, b, hb, hnew⟩
      · have hx' : x ∈ s.bound := by
          dsimp only at hx hne
          split_ifs at hx with hcommit
          · rcases List.mem_cons.mp hx with rfl | hx
            · exact absurd ⟨rfl, hcommit⟩ hne
            · exact hx
          · exact hx
        obtain ⟨b, hb, hactive⟩ := h.bound x hx'
        exact ⟨b, hsame.trans hb, hactive⟩
      · refine ⟨b, hnew, ?_⟩
        rw [hb]
        exact himage
    · exact h.gc.write hw

theorem Inv.readPins (h : Inv s) (now : ℚ) (newest : Template → List Digest) (keep : Template → ℕ)
    (tagged : List Digest) : Inv (step s (.readPins now newest keep tagged)) := by
  rw [step]
  split
  next actives hgc =>
    have hcover := h.gc
    rw [hgc] at hcover
    split_ifs with htagged
    · refine ⟨h.running, h.bound, h.succeeded, htagged, fun silo b hb => ?_⟩
      exact (hcover silo b hb).imp_left fun hactive => .inl ⟨_, .inl hactive⟩
    · exact ⟨h.running, h.bound, h.succeeded, trivial⟩
  next => exact h

/-- **A removal leaves the images in use**: gc keeps what it read, and the condition the rest. -/
theorem Inv.remove (h : Inv s) {g : Digest} {cascade : List Digest}
    (hok : ok s (.remove g cascade)) : Inv (step s (.remove g cascade)) := by
  rw [step]
  split
  next kept tagged hgc =>
    have hcover := h.gc
    rw [hgc] at hcover
    split_ifs with hcond
    · have hmem : ∀ x ∈ s.images, x ∉ g :: cascade →
          x ∈ s.images.filter fun x => x ∉ g :: cascade :=
        fun x hx hne => List.mem_filter.mpr ⟨hx, decide_eq_true hne⟩
      have hkept : ∀ x ∈ s.images, kept x → x ∉ g :: cascade := by
        intro x hx hkept hremoved
        rcases List.mem_cons.mp hremoved with rfl | hremoved
        · exact hcond.1 hkept
        · exact hcond.2 x hremoved (hcover.1 x hx hkept)
      refine ⟨fun i r hr => ?_, fun silo hsilo => ?_, h.succeeded, ?_⟩
      · obtain ⟨himage, hleft, hbound⟩ := h.running i r hr
        exact ⟨hmem _ himage fun hremoved => (hok _ hremoved).1 i r hr rfl, hleft, hbound⟩
      · obtain ⟨b, hb, hactive⟩ := h.bound silo hsilo
        refine ⟨b, hb, hmem _ hactive ?_⟩
        rcases hcover.2 silo b hb with hk | hsince
        · exact hkept _ hactive hk
        · exact fun hremoved => (hok _ hremoved).2 hsince
      · dsimp only
        rw [hgc]
        exact ⟨fun x hx => hcover.1 x (List.mem_filter.mp hx).1, hcover.2⟩
    · exact h
  next => exact h

theorem Inv.step (h : Inv s) {a : Action} (hok : ok s a) : Inv (step s a) := by
  cases a with
  | start i c seen => exact h.start hok
  | write i => exact h.write i
  | crash i =>
    refine ⟨fun j r hr => ?_, h.bound, h.succeeded, h.gc⟩
    rcases of_update hr with hr | hr
    · cases hr
    · exact h.running j r hr
  | readBindings =>
    exact ⟨h.running, h.bound, h.succeeded, fun silo b hb => .inl ⟨silo, b, hb, rfl, rfl⟩⟩
  | readPins now newest keep tagged => exact h.readPins now newest keep tagged
  | remove g cascade => exact h.remove hok
  | finish => exact ⟨h.running, h.bound, h.succeeded, trivial⟩

/-- A first promote, from start to return. -/
def firstPromote : List Action :=
  .start 0 ⟨"work", some ("base", "g1"), "", true, true, "/state", [], 0, 14, 2⟩ TemplateDisk.initial ::
    List.replicate 6 (.write 0)

/-- Three generations of a template.  A silo runs the second and may go back to the first, whose
window is over and which is beyond the two that are kept. -/
def aged : Disk where
  files p := if p = .binding "work" then some (.binding ⟨"base", "g2", ["g1"], "/state", 2⟩) else none
  generations := [("base", "g3"), ("base", "g2"), ("base", "g1")]

def goBack : Call := ⟨"work", none, "g1", true, true, "/state", [], 9000000, 14, 2⟩

/-- gc reads; a rollback to the first generation finds the image; gc removes it. -/
def race : List Action :=
  .readBindings :: .readPins 9000000 (fun _ => ["g3", "g2", "g1"]) (fun _ => 2) ["g3", "g2"] ::
    .start 0 goBack aged :: .remove "g1" [] :: .finish :: List.replicate 7 (.write 0)

end TemplateGc
