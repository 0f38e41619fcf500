/-
# Dead payloads

`qdistro-template-gc` calls `podman rmi` on the generations beyond retention and on the payloads of
failed candidates; podman removes untagged parents along with the last image built from them.  The
images that gc keeps are tagged meanwhile.

The images that go are those of `Taken`.  None of them has a record that is pinned or within
retention; a candidate that awaits promotion keeps its image exactly when it is not `Taken`
(`only_dead_iff`), for gc protects the digests of generations, and not those of candidates.
-/
import QDistro.TemplateDisk

namespace DeadPayloads

open TemplateDisk List

/-! ## The tree -/

structure Candidate where
  /-- `candidate_state` -/
  state : Option String
  mtime : ℚ
  /-- `_candidate_payload_digest`; none without a manifest, or with one that is not trusted. -/
  payload : Option Digest

structure Tree where
  templates : List Template
  /-- The records of a template, newest first. -/
  generations : Template → List Digest
  candidates : Template → List Candidate
  /-- `build_pinned_set` -/
  pinned : List (Template × Digest)
  /-- `_keep_count` -/
  keep : Template → ℕ
  failedCandidateDays : ℕ
  now : ℚ

/-- `_all_pinned_digests` -/
def Tree.pinnedDigests (t : Tree) : List Digest := t.pinned.map Prod.snd

/-- `_all_promoted_generations` -/
def Tree.promoted (t : Tree) : List Digest := t.templates.flatMap t.generations

/-- `_retention_survivor_digests` -/
def Tree.survivors (t : Tree) : List Digest :=
  t.templates.flatMap fun template => (t.generations template).take (t.keep template)

def Tree.protect (t : Tree) : List Digest := t.pinnedDigests ++ t.survivors

/-- A candidate that failed, and whose days are over. -/
def Tree.Dead (t : Tree) (c : Candidate) : Prop :=
  c.state = some "failed" ∧ c.mtime < t.now - t.failedCandidateDays * 86400

instance (t : Tree) (c : Candidate) : Decidable (t.Dead c) :=
  inferInstanceAs (Decidable (_ ∧ _))

/-- The generations of a template that `_gc_payloads` removes. -/
def Tree.generationCalls (t : Tree) (template : Template) : List Digest :=
  ((t.generations template).zipIdx.filter fun p =>
    t.pinned.elem (template, p.1) = false ∧ p.1 ∉ t.protect ∧ ¬ p.2 < t.keep template).map Prod.fst

/-- The payloads of candidates that it removes. -/
def Tree.candidateCalls (t : Tree) (template : Template) : List Digest :=
  ((t.candidates template).filter (t.Dead ·)).filterMap fun c =>
    c.payload.filter fun g => g ∉ t.pinnedDigests ∧ g ∉ t.promoted

/-! ## The images -/

structure Store where
  images : List Digest
  parent : Digest → Option Digest
  tagged : List Digest
  /-- `podman rmi` fails. -/
  refused : Digest → Bool
  /-- The status of the image is not known, or it cannot be tagged. -/
  untaggable : Digest → Bool

/-- What gc asks podman to remove, in order; nothing where an image that it keeps cannot be tagged. -/
def calls (t : Tree) (s : Store) : List Digest :=
  if (t.protect.filter (· ∈ s.images)).any s.untaggable then []
  else t.templates.flatMap fun template => t.generationCalls template ++ t.candidateCalls template

/-- The tags while gc runs. -/
def tags (t : Tree) (s : Store) : List Digest := s.tagged ++ t.protect

/-- Removing an image, and its untagged parents that no other image refers to. -/
def removeFrom (parent : Digest → Option Digest) (tagged : List Digest) :
    ℕ → List Digest → Digest → List Digest
  | 0, images, _ => images
  | n + 1, images, g =>
    let images := images.filter (· ≠ g)
    match parent g with
    | none => images
    | some p =>
      if p ∈ images ∧ p ∉ tagged ∧ ∀ x ∈ images, parent x ≠ some p then
        removeFrom parent tagged n images p
      else images

/-- `podman rmi` -/
def rmi (t : Tree) (s : Store) (images : List Digest) (g : Digest) : List Digest :=
  if g ∈ images ∧ s.refused g = false then
    removeFrom s.parent (tags t s) images.length images g
  else images

/-- The images after a gc run. -/
def gc (t : Tree) (s : Store) : List Digest := (calls t s).foldl (rmi t s) s.images

/-- The images that go: those gc asks for, and untagged parents of such alone. -/
inductive Taken (t : Tree) (s : Store) : Digest → Prop
  | called {g : Digest} : g ∈ s.images → g ∈ calls t s → s.refused g = false → Taken t s g
  | parent {g child : Digest} : g ∈ s.images → g ∉ tags t s → child ∈ s.images →
      s.parent child = some g → (∀ x ∈ s.images, s.parent x = some g → Taken t s x) → Taken t s g

variable {t : Tree} {s : Store}

/-! ## What goes is taken -/

/-- Images of the store, the missing ones taken. -/
structure Rest (t : Tree) (s : Store) (images : List Digest) : Prop where
  subset : images ⊆ s.images
  taken : ∀ x ∈ s.images, x ∉ images → Taken t s x

variable {images : List Digest} {g : Digest}

theorem Rest.removeFrom (h : Rest t s images) (n : ℕ) (hg : Taken t s g) (hmem : g ∈ s.images) :
    Rest t s (removeFrom s.parent (tags t s) n images g) := by
  induction n generalizing images g with
  | zero => exact h
  | succ n ih =>
    have hrest : Rest t s (images.filter (· ≠ g)) := by
      constructor
      · exact fun x hx => h.subset (mem_filter.mp hx).1
      · intro x hx hgone
        by_cases hxg : x = g
        · rw [hxg]
          exact hg
        · exact h.taken x hx fun hin => hgone (mem_filter.mpr ⟨hin, decide_eq_true hxg⟩)
    rw [DeadPayloads.removeFrom]
    split
    next => exact hrest
    next p hp =>
      split_ifs with hcond
      · obtain ⟨hin, htag, hchildren⟩ := hcond
        refine ih hrest (.parent (hrest.subset hin) htag hmem hp fun x hx hparent => ?_)
          (hrest.subset hin)
        exact hrest.taken x hx fun hin => hchildren x hin hparent
      · exact hrest

theorem gc_rest : Rest t s (gc t s) := by
  refine foldlRecOn _ _ ⟨fun x hx => hx, fun x hx hgone => absurd hx hgone⟩ fun images h g hg => ?_
  rw [rmi]
  split_ifs with hcond
  · have hmem := h.subset hcond.1
    exact h.removeFrom _ (.called hmem hg hcond.2) hmem
  · exact h

/-! ## What is taken goes -/

/-- An untagged image that had children has one, `g` apart. -/
def Parented (t : Tree) (s : Store) (images : List Digest) (g : Option Digest) : Prop :=
  ∀ x ∈ images, some x ≠ g → x ∉ tags t s → (∃ y ∈ s.images, s.parent y = some x) →
    ∃ y ∈ images, s.parent y = some x

theorem length_filter_ne (h : g ∈ images) :
    (images.filter (· ≠ g)).length < images.length := by
  apply length_filter_lt_length_iff_exists.mpr
  exact ⟨g, h, by simp⟩

theorem removeFrom_subset (n : ℕ) (images : List Digest) (g : Digest) :
    removeFrom s.parent (tags t s) n images g ⊆ images := by
  induction n generalizing images g with
  | zero => exact fun x hx => hx
  | succ n ih =>
    rw [removeFrom]
    split
    next => exact filter_subset_self images
    next p hp =>
      split_ifs
      · exact fun x hx => filter_subset_self images (ih _ _ hx)
      · exact filter_subset_self images

theorem not_mem_removeFrom {n : ℕ} (hn : 0 < n) :
    g ∉ removeFrom s.parent (tags t s) n images g := by
  have hnot : g ∉ images.filter (· ≠ g) := by simp
  obtain ⟨n, rfl⟩ : ∃ m, n = m + 1 := ⟨n - 1, by omega⟩
  rw [removeFrom]
  split
  next => exact hnot
  next p hp =>
    split_ifs
    · exact fun hin => hnot (removeFrom_subset n _ p hin)
    · exact hnot

theorem Parented.removeFrom {n : ℕ} (h : Parented t s images (some g)) (hg : g ∈ images)
    (hn : images.length ≤ n) :
    Parented t s (removeFrom s.parent (tags t s) n images g) none := by
  induction n generalizing images g with
  | zero => exact absurd (length_pos_of_mem hg) (by omega)
  | succ n ih =>
    have hlen := length_filter_ne hg
    -- what is left has its children, but the parent of `g`
    have hleft : ∀ x ∈ images.filter (· ≠ g), x ∉ tags t s →
        (∃ y ∈ s.images, s.parent y = some x) → s.parent g ≠ some x →
        ∃ y ∈ images.filter (· ≠ g), s.parent y = some x := by
      intro x hx htag hchild hne
      obtain ⟨hx, hxg⟩ := mem_filter.mp hx
      obtain ⟨y, hy, hparent⟩ := h x hx (fun heq => of_decide_eq_true hxg (Option.some.inj heq))
        htag hchild
      refine ⟨y, mem_filter.mpr ⟨hy, decide_eq_true fun heq => hne ?_⟩, hparent⟩
      rw [← heq]
      exact hparent
    rw [DeadPayloads.removeFrom]
    split
    next hp =>
      intro x hx _ htag hchild
      exact hleft x hx htag hchild (by simp [hp])
    next p hp =>
      split_ifs with hcond
      · refine ih (fun x hx hne htag hchild => hleft x hx htag hchild ?_) hcond.1 (by omega)
        rw [hp]
        exact fun heq => hne heq.symm
      · intro x hx _ htag hchild
        by_cases hxp : p = x
        · subst hxp
          by_contra hnone
          exact hcond ⟨hx, htag, fun y hy hparent => hnone ⟨y, hy, hparent⟩⟩
        · exact hleft x hx htag hchild fun heq => hxp (Option.some.inj (hp.symm.trans heq))

theorem rmi_subset (images : List Digest) (g : Digest) : rmi t s images g ⊆ images := by
  rw [rmi]
  split_ifs
  · exact removeFrom_subset _ _ _
  · exact fun x hx => hx

theorem foldl_rmi_subset (gs images : List Digest) : gs.foldl (rmi t s) images ⊆ images := by
  induction gs generalizing images with
  | nil => exact fun x hx => hx
  | cons g gs ih => exact fun x hx => rmi_subset images g (ih _ hx)

theorem gc_parented : Parented t s (gc t s) none := by
  have hall : Parented t s s.images none := fun x _ _ _ hchild => hchild
  refine foldlRecOn (motive := fun images => Parented t s images none) _ _ hall
    fun images h g _ => ?_
  rw [rmi]
  split_ifs with hcond
  · exact Parented.removeFrom (fun x hx _ => h x hx (by simp)) hcond.1 le_rfl
  · exact h

theorem called_gone (hcall : g ∈ calls t s) (hrefused : s.refused g = false) :
    g ∉ gc t s := by
  obtain ⟨before, after, hsplit⟩ := append_of_mem hcall
  rw [gc, hsplit, foldl_append, foldl_cons]
  intro hin
  have hin := foldl_rmi_subset after _ hin
  rw [rmi] at hin
  split_ifs at hin with hcond
  · exact not_mem_removeFrom (length_pos_of_mem hcond.1) hin
  · exact hcond ⟨hin, hrefused⟩

theorem Taken.gone (h : Taken t s g) : g ∉ gc t s := by
  induction h with
  | called hmem hcall hrefused => exact called_gone hcall hrefused
  | parent hmem htag hchild hparent _ ih =>
    intro hin
    obtain ⟨y, hy, hyg⟩ := gc_parented _ hin (by simp) htag ⟨_, hchild, hparent⟩
    exact ih y (gc_rest.subset hy) hyg hy

/-- **The images that go are the ones taken.** -/
theorem gone_iff (hg : g ∈ s.images) : g ∉ gc t s ↔ Taken t s g :=
  ⟨gc_rest.taken g hg, Taken.gone⟩

/-! ## Records -/

/-- Every record with the digest is unpinned and beyond retention. -/
def Tree.Unneeded (t : Tree) (g : Digest) : Prop :=
  ∀ template ∈ t.templates, ∀ i, (t.generations template)[i]? = some g →
    (template, g) ∉ t.pinned ∧ t.keep template ≤ i

theorem unneeded_of_unprotected (h : g ∉ t.protect) : t.Unneeded g := by
  intro template htemplate i hi
  constructor
  · intro hpin
    exact h (mem_append_left _ (mem_map.mpr ⟨_, hpin, rfl⟩))
  · by_contra hlt
    refine h (mem_append_right _ (mem_flatMap.mpr ⟨template, htemplate, ?_⟩))
    exact mem_of_getElem? (i := i) (by rw [getElem?_take_of_lt (by omega), hi])

theorem Taken.unneeded (h : Taken t s g) : t.Unneeded g := by
  cases h with
  | parent _ htag _ _ _ => exact unneeded_of_unprotected fun h => htag (mem_append_right _ h)
  | called _ hcall _ =>
    rw [calls] at hcall
    split_ifs at hcall
    · exact absurd hcall not_mem_nil
    obtain ⟨template, -, hcall⟩ := mem_flatMap.mp hcall
    rcases mem_append.mp hcall with hcall | hcall
    · obtain ⟨p, hp, rfl⟩ := mem_map.mp hcall
      have hcond := of_decide_eq_true (mem_filter.mp hp).2
      exact unneeded_of_unprotected hcond.2.1
    · obtain ⟨c, -, hc⟩ := mem_filterMap.mp hcall
      have hcond := of_decide_eq_true (Option.filter_eq_some_iff.mp hc).2
      intro template' htemplate' i hi
      exact absurd (mem_flatMap.mpr ⟨template', htemplate', mem_of_getElem? hi⟩) hcond.2

/-- **gc removes only dead payloads exactly when it takes no image of a candidate that is not
dead.**  What it removes has no record that is pinned or within retention, for every tree and every
store. -/
theorem only_dead_iff (t : Tree) (s : Store) :
    (∀ g ∈ s.images, g ∉ gc t s → t.Unneeded g ∧
      ∀ template ∈ t.templates, ∀ c ∈ t.candidates template, c.payload = some g → t.Dead c) ↔
    ∀ template ∈ t.templates, ∀ c ∈ t.candidates template, ∀ g, c.payload = some g → ¬ t.Dead c →
      ¬ Taken t s g := by
  constructor
  · intro h template htemplate c hc g hpayload hlive htaken
    have hmem : g ∈ s.images := by
      cases htaken with
      | called hmem _ _ => exact hmem
      | parent hmem _ _ _ _ => exact hmem
    exact hlive ((h g hmem htaken.gone).2 template htemplate c hc hpayload)
  · intro h g hg hgone
    have htaken := (gone_iff hg).mp hgone
    refine ⟨htaken.unneeded, fun template htemplate c hc hpayload => ?_⟩
    by_contra hlive
    exact h template htemplate c hc g hpayload hlive htaken

/-- A validated candidate, and a failed one that a rebuild gave the same image. -/
def rebuilt : Tree where
  templates := ["base"]
  generations _ := []
  candidates _ := [⟨some "validated", 0, some "g1"⟩, ⟨some "failed", 0, some "g1"⟩]
  pinned := []
  keep _ := 2
  failedCandidateDays := 7
  now := 1000000

/-- The validated candidate loses its image. -/
theorem validated_lost :
    "g1" ∈ [("g1" : Digest)] ∧
    "g1" ∉ gc rebuilt ⟨["g1"], fun _ => none, [], fun _ => false, fun _ => false⟩ ∧
    (⟨some "validated", 0, some "g1"⟩ : Candidate) ∈ rebuilt.candidates "base" ∧
    ¬ rebuilt.Dead ⟨some "validated", 0, some "g1"⟩ := by
  refine ⟨List.mem_singleton_self _, by decide +kernel, List.mem_cons_self, ?_⟩
  simp [Tree.Dead]

end DeadPayloads
