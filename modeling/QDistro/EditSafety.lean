/-
# An edited file overwrites nothing

The proof about `promote_edit`.  All changes happen in the directory of the source.  `Play` says
how its entries relate to the ones before the call: an old entry is as it was exactly as long as no
removal or replacement of it is recorded, and every other entry leads to an inode of this call.
-/
import QDistro.EditPromoter

namespace DispExport

open EffectRules InodeFs

/-! ## Names -/

theorem length_hexText (width n : ℕ) : (hexText width n).length = width := by
  induction width generalizing n with
  | zero => rfl
  | succ w ih => simp [hexText, ih]

/-- A character of a number in base 16. -/
def IsHex (c : Char) : Prop := c.isDigit ∨ 'a' ≤ c ∧ c ≤ 'f'

instance (c : Char) : Decidable (IsHex c) := inferInstanceAs (Decidable (_ ∨ _ ∧ _))

theorem isHex_digitChar : ∀ n, n < 16 → IsHex (Nat.digitChar n) := by decide

theorem isHex_of_mem_hexText {width n : ℕ} {c : Char} (h : c ∈ hexText width n) : IsHex c := by
  induction width generalizing n with
  | zero => cases h
  | succ w ih =>
    rcases List.mem_append.1 h with h | h
    · exact ih h
    · obtain rfl := List.mem_singleton.1 h
      exact isHex_digitChar _ (Nat.mod_lt _ (by decide))

theorem length_repr_of_lt {n : ℕ} (hn : n < 1000) : n.repr.length ≤ 3 :=
  (Nat.length_repr_le_iff (by decide)).2 hn

theorem mem_of_mem_take_reverse (start : String) {l : List Char} {k : ℕ} {c : Char}
    (hk : k ≤ l.length) (h : c ∈ (start ++ String.ofList l).toList.reverse.take k) : c ∈ l := by
  have hrev : (start ++ String.ofList l).toList.reverse = l.reverse ++ start.toList.reverse := by simp
  rw [hrev, List.take_append_of_le_length (by rwa [List.length_reverse])] at h
  exact List.mem_reverse.1 (List.mem_of_mem_take h)

theorem isHex_of_mem_namedTemp {k : ℕ} {c : Char} (h : c ∈ (namedTemp k).toList.reverse.take 5) :
    IsHex c := by
  have hlen : 5 ≤ (hexText 16 k).length := by
    rw [length_hexText]
    decide
  exact isHex_of_mem_hexText (mem_of_mem_take_reverse _ hlen h)

theorem exists_not_hex_landedName (leaf : String) {n : ℕ} (hn : n < 1000) :
    ∃ c ∈ (landedName leaf n).toList.reverse.take 5, ¬IsHex c := by
  unfold landedName
  split
  · refine ⟨'t', ?_, by decide⟩
    have hsuffix : editedSuffix.toList.reverse = ['d', 'e', 't', 'i', 'd', 'e', '-', 'p', 's', 'i',
      'd', '.'] := by decide
    simp [hsuffix]
  · refine ⟨'-', ?_, by decide⟩
    have hlen := length_repr_of_lt hn
    have hdash : "-".toList = ['-'] := by decide
    simp only [String.toList_append, List.reverse_append, hdash, List.reverse_singleton]
    rw [List.take_append]
    refine List.mem_append_right _ ?_
    have hpos : ∃ k, 5 - n.repr.toList.reverse.length = k + 1 := by
      refine ⟨4 - n.repr.toList.length, ?_⟩
      simp only [List.length_reverse, String.length_toList]
      omega
    obtain ⟨k, hk⟩ := hpos
    rw [hk]
    simp

theorem namedTemp_ne_landedName (k : ℕ) (leaf : String) {n : ℕ} (hn : n < 1000) :
    namedTemp k ≠ landedName leaf n := by
  intro h
  obtain ⟨c, hc, hnot⟩ := exists_not_hex_landedName leaf hn
  rw [← h] at hc
  exact hnot (isHex_of_mem_namedTemp hc)

theorem namedTemp_ne_sidecarName (k : ℕ) (name : String) : namedTemp k ≠ sidecarName name := by
  intro h
  have hsuffix : lineageSidecarSuffix.toList.reverse = ['n', 'o', 's', 'j', '.', 'e', 'g', 'a', 'e',
    'n', 'i', 'l', '-', 'o', 'r', 't', 's', 'i', 'd', 'q', '.'] := by decide
  have hmem : 'n' ∈ (sidecarName name).toList.reverse.take 5 := by simp [sidecarName, hsuffix]
  rw [← h] at hmem
  exact absurd (isHex_of_mem_namedTemp hmem) (by decide)

theorem length_landedName (leaf : String) {n : ℕ} (hn : n < 1000) :
    leaf.length + 12 ≤ (landedName leaf n).length ∧ (landedName leaf n).length ≤ leaf.length + 16 := by
  have hsuffix : editedSuffix.length = 12 := by decide
  have hdash : "-".length = 1 := by decide
  have hlen := length_repr_of_lt hn
  unfold landedName
  split
  · simp only [String.length_append, hsuffix]
    omega
  · simp only [String.length_append, hsuffix, hdash]
    omega

theorem length_append_ofList (start : String) (l : List Char) :
    (start ++ String.ofList l).length = start.length + l.length := by simp

theorem length_namedTemp (k : ℕ) : (namedTemp k).length = 33 := by
  have hstart : ".disp-edited.tmp.".length = 17 := by decide
  have hsum := length_append_ofList ".disp-edited.tmp." (hexText 16 k)
  rw [hstart, length_hexText] at hsum
  exact hsum

section

variable (pid : ℕ) (leaf : String) {n m : ℕ} (hn : n < 1000)
include hn

theorem surfaceTemp_ne_landedName (hm : m < 1000) :
    surfaceTemp pid (sidecarName (landedName leaf n)) ≠ landedName leaf m := by
  intro h
  have htemp := length_surfaceTemp pid (sidecarName (landedName leaf n))
  have hn' := length_landedName leaf hn
  have hm' := length_landedName leaf hm
  rw [h, length_sidecarName] at htemp
  omega

theorem surfaceTemp_ne_sidecarName (hm : m < 1000) :
    surfaceTemp pid (sidecarName (landedName leaf n)) ≠ sidecarName (landedName leaf m) := by
  intro h
  have htemp := length_surfaceTemp pid (sidecarName (landedName leaf n))
  have hn' := length_landedName leaf hn
  have hm' := length_landedName leaf hm
  rw [h, length_sidecarName, length_sidecarName] at htemp
  omega

theorem surfaceTemp_ne_namedTemp (k : ℕ) :
    surfaceTemp pid (sidecarName (landedName leaf n)) ≠ namedTemp k := by
  intro h
  have htemp := length_surfaceTemp pid (sidecarName (landedName leaf n))
  have hn' := length_landedName leaf hn
  rw [h, length_sidecarName, length_namedTemp] at htemp
  omega

end

/-! ## The directory of the source -/

/-- The entry is recorded as removed or replaced. -/
def Touched (effects : List Effect) (d : ℕ) (name : String) : Prop :=
  .removed d name ∈ effects ∨ .replaced d name ∈ effects

theorem touched_append {new old : List Effect} {d : ℕ} {name : String} :
    Touched (new ++ old) d name ↔ Touched new d name ∨ Touched old d name := by
  simp only [Touched, List.mem_append]
  tauto

/-- How the file system of a call relates to the one before it. -/
structure Play (fs₀ : Fs) (d : ℕ) (w : World Site) : Prop where
  next : fs₀.next ≤ w.fs.next
  nodes : ∀ i, i < fs₀.next → i ≠ d → w.fs.node i = fs₀.node i
  isDir : ∃ es, w.fs.node d = some (.dir es)
  old : ∀ name j, fs₀.entry d name = some j →
    (w.fs.entry d name = some j ↔ ¬Touched w.effects d name)
  fresh : ∀ name j, w.fs.entry d name = some j → fs₀.entry d name = some j ∨ fs₀.next ≤ j
  within : ∀ d' name, Touched w.effects d' name → d' = d

/-- What a step may do to an entry: nothing; or it held no inode of before, or the step is recorded,
and then it leads nowhere or to an inode of this call. -/
def StepAt (fs₀ : Fs) (d : ℕ) (w w' : World Site) (new : List Effect) (name : String) : Prop :=
  (w'.fs.entry d name = w.fs.entry d name ∧ ¬Touched new d name) ∨
    (((∀ j, w.fs.entry d name = some j → fs₀.next ≤ j) ∨ Touched new d name) ∧
      ∀ j, w'.fs.entry d name = some j → fs₀.next ≤ j)

variable {fs₀ : Fs} {d : ℕ} {w w' : World Site}

theorem Play.init (hd : ∃ es, fs₀.node d = some (.dir es)) (hfs : w.fs = fs₀)
    (heffects : w.effects = []) : Play fs₀ d w := by
  refine ⟨by rw [hfs], fun i _ _ => by rw [hfs], by rwa [hfs], ?_, ?_, ?_⟩
  · intro name j hj
    simp [hfs, heffects, hj, Touched]
  · intro name j hj
    rw [hfs] at hj
    exact .inl hj
  · intro d' name h
    simp [heffects, Touched] at h

/-- **Step rule.** -/
theorem Play.step (h : Play fs₀ d w) (hwf : fs₀.WellFormed) (hnext : w.fs.next ≤ w'.fs.next)
    (hnodes : ∀ i, i < fs₀.next → i ≠ d → w'.fs.node i = w.fs.node i)
    (hdir : ∃ es, w'.fs.node d = some (.dir es)) {r : List Effect}
    (heffects : w'.effects = r ++ w.effects) (hentry : ∀ name, StepAt fs₀ d w w' r name)
    (hnew : ∀ d' name, Touched r d' name → d' = d) : Play fs₀ d w' := by
  refine ⟨Nat.le_trans h.next hnext, ?_, hdir, ?_, ?_, ?_⟩
  · intro i hi hne
    rw [hnodes i hi hne, h.nodes i hi hne]
  · intro name j hj
    have hlt := hwf.closed d name j hj
    rw [heffects, touched_append]
    rcases hentry name with ⟨hsame, hnot⟩ | ⟨hcause, hfresh⟩
    · rw [hsame, h.old name j hj]
      tauto
    · constructor
      · intro hw'
        have := hfresh j hw'
        omega
      · intro hnot
        rw [not_or] at hnot
        rcases hcause with hnew' | htouched
        · have := hnew' j ((h.old name j hj).2 hnot.2)
          omega
        · exact absurd htouched hnot.1
  · intro name j hj
    rcases hentry name with ⟨hsame, -⟩ | ⟨-, hfresh⟩
    · exact h.fresh name j (hsame ▸ hj)
    · exact .inr (hfresh j hj)
  · intro d' name htouched
    rw [heffects, touched_append] at htouched
    rcases htouched with htouched | htouched
    · exact hnew d' name htouched
    · exact h.within d' name htouched

/-- The entries of this call are among the names in `S`, and the effects satisfy `F`. -/
structure Holds (fs₀ : Fs) (d : ℕ) (S : String → Prop) (F : List Effect → Prop) (w : World Site) :
    Prop where
  play : Play fs₀ d w
  news : ∀ name j, w.fs.entry d name = some j → fs₀.next ≤ j → S name
  effects : F w.effects

variable {S : String → Prop} {F : List Effect → Prop}

theorem Holds.congr (h : Holds fs₀ d S F w) (hfs : w'.fs = w.fs) (heffects : w'.effects = w.effects) :
    Holds fs₀ d S F w' := by
  refine ⟨⟨?_, ?_, ?_, ?_, ?_, ?_⟩, ?_, ?_⟩
  · rw [hfs]
    exact h.play.next
  · rw [hfs]
    exact h.play.nodes
  · rw [hfs]
    exact h.play.isDir
  · rw [hfs, heffects]
    exact h.play.old
  · rw [hfs]
    exact h.play.fresh
  · rw [heffects]
    exact h.play.within
  · rw [hfs]
    exact h.news
  · rw [heffects]
    exact h.effects

theorem Holds.mono {S' : String → Prop} {G : List Effect → Prop} (h : Holds fs₀ d S F w)
    (hS : ∀ name, S name → S' name) (hF : F w.effects → G w.effects) : Holds fs₀ d S' G w :=
  ⟨h.play, fun name j hj hnew => hS name (h.news name j hj hnew), hF h.effects⟩

section Steps

theorem Holds.quiet (h : Holds fs₀ d S F w) (hwf : fs₀.WellFormed) (hd : d < fs₀.next)
    (hnext : w.fs.next ≤ w'.fs.next) (hnode : ∀ j, j < fs₀.next → w'.fs.node j = w.fs.node j)
    (heffects : w'.effects = w.effects) : Holds fs₀ d S F w' := by
  have hentry : ∀ name, w'.fs.entry d name = w.fs.entry d name := Fs.entry_congr (hnode d hd)
  refine ⟨?_, ?_, by rw [heffects]; exact h.effects⟩
  · refine h.play.step (r := []) hwf hnext (fun j hj _ => hnode j hj) ?_ heffects ?_ (by simp [Touched])
    · rw [hnode d hd]
      exact h.play.isDir
    · exact fun name => .inl ⟨hentry name, by simp [Touched]⟩
  · intro name j hj
    rw [hentry] at hj
    exact h.news name j hj

theorem Holds.setFile {i : ℕ} {bytes : List UInt8} (hwf : fs₀.WellFormed) (hd : d < fs₀.next)
    (h : Holds fs₀ d S F w) (hi : fs₀.next ≤ i) (hfs : w'.fs = w.fs.set i (.file bytes))
    (heffects : w'.effects = w.effects) : Holds fs₀ d S F w' := by
  refine h.quiet hwf hd (by rw [hfs]; exact Nat.le_refl _) (fun j hj => ?_) heffects
  rw [hfs]
  exact Fs.node_set_of_ne (by omega) _

theorem Holds.alloc {n : Inode} (hwf : fs₀.WellFormed) (hd : d < fs₀.next)
    (h : Holds fs₀ d S F w) (hfs : w'.fs = w.fs.alloc n) (heffects : w'.effects = w.effects) :
    Holds fs₀ d S F w' := by
  have hle := h.play.next
  refine h.quiet hwf hd (by rw [hfs, Fs.next_alloc]; omega) (fun j hj => ?_) heffects
  rw [hfs]
  exact Fs.node_alloc_of_ne (by omega) _

variable {G : List Effect → Prop}

theorem Holds.setDir {es' : PyDict String ℕ} {r : List Effect} {S' : String → Prop}
    (hwf : fs₀.WellFormed) (h : Holds fs₀ d S F w) (hfs : w'.fs = w.fs.set d (.dir es'))
    (heffects : w'.effects = r ++ w.effects) (hentry : ∀ name, StepAt fs₀ d w w' r name)
    (hnew : ∀ d' name, Touched r d' name → d' = d)
    (hnews : ∀ name j, es'.get? name = some j → fs₀.next ≤ j → S' name)
    (hF : F w.effects → G w'.effects) : Holds fs₀ d S' G w' := by
  refine ⟨?_, ?_, hF h.effects⟩
  · refine h.play.step hwf ?_ ?_ ?_ heffects hentry hnew
    · rw [hfs]
      exact Nat.le_refl _
    · intro i _ hne
      rw [hfs]
      exact Fs.node_set_of_ne hne _
    · exact ⟨es', by rw [hfs, Fs.node_set_self]⟩
  · intro name j hj
    rw [hfs, Fs.entry_set_dir] at hj
    exact hnews name j hj

variable {es : PyDict String ℕ}

section

variable (hwf : fs₀.WellFormed)
include hwf

theorem Holds.put {name : String} {i : ℕ} (h : Holds fs₀ d S F w)
    (hes : w.fs.node d = some (.dir es)) (hfree : es.get? name = none) (hi : fs₀.next ≤ i)
    (hfs : w'.fs = w.fs.set d (.dir (es.insert name i))) (heffects : w'.effects = w.effects) :
    Holds fs₀ d (fun x => S x ∨ x = name) F w' := by
  refine h.setDir hwf hfs (r := []) heffects ?_ (by simp [Touched]) ?_
    (fun hF => by rw [heffects]; exact hF)
  · intro x
    by_cases hx : x = name
    · subst hx
      refine .inr ⟨.inl ?_, ?_⟩
      · intro j hj
        rw [Fs.entry_of_node hes, hfree] at hj
        cases hj
      · intro j hj
        rw [hfs, Fs.entry_set_dir, PyDict.get?_insert_self] at hj
        obtain rfl := Option.some.inj hj
        exact hi
    · refine .inl ⟨?_, by simp [Touched]⟩
      rw [hfs, Fs.entry_set_dir, PyDict.get?_insert_of_ne _ _ (Ne.symm hx), Fs.entry_of_node hes]
  · intro x j hj hnew
    by_cases hx : x = name
    · exact .inr hx
    · rw [PyDict.get?_insert_of_ne _ _ (Ne.symm hx), ← Fs.entry_of_node hes] at hj
      exact .inl (h.news x j hj hnew)

theorem Holds.add {name : String} {n : Inode} (hd : d < fs₀.next) (h : Holds fs₀ d S F w)
    (hes : w.fs.node d = some (.dir es)) (hfree : es.get? name = none)
    (hfs : w'.fs = (w.fs.alloc n).set d (.dir (es.insert name w.fs.next)))
    (heffects : w'.effects = w.effects) : Holds fs₀ d (fun x => S x ∨ x = name) F w' := by
  have hle := h.play.next
  have halloc : Holds fs₀ d S F { w with fs := w.fs.alloc n } := h.alloc hwf hd rfl rfl
  refine halloc.put hwf ?_ hfree hle hfs heffects
  rw [← hes]
  exact Fs.node_alloc_of_ne (by omega) _

theorem Holds.erase {name : String} (h : Holds fs₀ d S F w) (hes : w.fs.node d = some (.dir es))
    (hfs : w'.fs = w.fs.set d (.dir (es.erase name)))
    (heffects : w'.effects = .removed d name :: w.effects) (hF : F w.effects → G w'.effects) :
    Holds fs₀ d (fun x => S x ∧ x ≠ name) G w' := by
  refine h.setDir hwf hfs (r := [.removed d name]) heffects ?_ (by simp +contextual [Touched]) ?_
    hF
  · intro x
    by_cases hx : x = name
    · subst hx
      refine .inr ⟨.inr (.inl (by simp)), ?_⟩
      intro j hj
      rw [hfs, Fs.entry_set_dir, PyDict.get?_erase_self] at hj
      cases hj
    · refine .inl ⟨?_, by simp [Touched, hx]⟩
      rw [hfs, Fs.entry_set_dir, PyDict.get?_erase_of_ne _ hx, Fs.entry_of_node hes]
  · intro x j hj hnew
    by_cases hx : x = name
    · rw [hx, PyDict.get?_erase_self] at hj
      cases hj
    · rw [PyDict.get?_erase_of_ne _ hx, ← Fs.entry_of_node hes] at hj
      exact ⟨h.news x j hj hnew, hx⟩

theorem Holds.stuck {name : String} (h : Holds fs₀ d S F w) (hfs : w'.fs = w.fs)
    (heffects : w'.effects = stuckAt d name w.fs ++ w.effects) (hF : F w.effects → G w'.effects)
    : Holds fs₀ d S G w' := by
  have hnot : ∀ d' x, ¬Touched (stuckAt d name w.fs) d' x := by
    intro d' x
    unfold stuckAt
    split <;> simp [Touched]
  refine ⟨?_, ?_, hF h.effects⟩
  · refine h.play.step hwf (by rw [hfs]) (fun i _ _ => by rw [hfs]) ?_ heffects ?_
      (fun d' x hx => absurd hx (hnot d' x))
    · rw [hfs]
      exact h.play.isDir
    · exact fun x => .inl ⟨by rw [hfs], hnot d x⟩
  · rw [hfs]
    exact h.news

theorem Holds.rename {src dst : String} {i : ℕ} (h : Holds fs₀ d S F w)
    (hes : w.fs.node d = some (.dir es)) (hsrc : es.get? src = some i) (hi : fs₀.next ≤ i)
    (hne : src ≠ dst) (hfs : w'.fs = w.fs.set d (.dir ((es.erase src).insert dst i)))
    (heffects : w'.effects = (if (es.get? dst).isSome then [Effect.replaced d dst] else []) ++ w.effects)
    (hF : F w.effects → G w'.effects) :
    Holds fs₀ d (fun x => S x ∧ x ≠ src ∨ x = dst) G w' := by
  refine h.setDir hwf hfs heffects ?_ ?_ ?_ hF
  · intro x
    by_cases hdst : x = dst
    · subst hdst
      refine .inr ⟨?_, ?_⟩
      · cases hold : es.get? x with
        | none =>
          refine .inl fun j hj => ?_
          rw [Fs.entry_of_node hes, hold] at hj
          cases hj
        | some k => exact .inr (.inr (by simp))
      · intro j hj
        rw [hfs, Fs.entry_set_dir, PyDict.get?_insert_self] at hj
        obtain rfl := Option.some.inj hj
        exact hi
    · by_cases hx : x = src
      · subst hx
        refine .inr ⟨.inl ?_, ?_⟩
        · intro j hj
          rw [Fs.entry_of_node hes, hsrc] at hj
          obtain rfl := Option.some.inj hj
          exact hi
        · intro j hj
          rw [hfs, Fs.entry_set_dir, PyDict.get?_insert_of_ne _ _ (Ne.symm hdst),
            PyDict.get?_erase_self] at hj
          cases hj
      · refine .inl ⟨?_, ?_⟩
        · rw [hfs, Fs.entry_set_dir, PyDict.get?_insert_of_ne _ _ (Ne.symm hdst),
            PyDict.get?_erase_of_ne _ hx, Fs.entry_of_node hes]
        · split <;> simp [Touched, hdst]
  · intro d' x htouched
    split at htouched
    · rcases htouched with htouched | htouched
      · simp at htouched
      · simp only [List.mem_singleton, Effect.replaced.injEq] at htouched
        exact htouched.1
    · simp [Touched] at htouched
  · intro x j hj hnew
    by_cases hdst : x = dst
    · exact .inr hdst
    · rw [PyDict.get?_insert_of_ne _ _ (Ne.symm hdst)] at hj
      by_cases hx : x = src
      · rw [hx, PyDict.get?_erase_self] at hj
        cases hj
      · rw [PyDict.get?_erase_of_ne _ hx, ← Fs.entry_of_node hes] at hj
        exact .inl ⟨h.news x j hj hnew, hx⟩

end

end Steps

/-! ## Reading -/

theorem quiet_checkSource (parent : ℕ) (leaf : String) : Quiet (checkSource parent leaf) := by
  unfold checkSource
  refine (quiet_wrapped (quiet_look _ _)).bind fun n => ?_
  cases n <;> first | exact .pure | exact .throw

/-- Nothing has happened yet. -/
def Fresh (fs₀ : Fs) (w : World Site) : Prop := w.fs = fs₀ ∧ w.effects = []

theorem Quiet.fresh {α : Type} {x : Export α} (hx : Quiet x) :
    Triple (Fresh fs₀) x (fun _ => Fresh fs₀) (fun _ => Fresh fs₀) :=
  Quiet.rule hx fun _ _ h hfs he => ⟨hfs.trans h.1, he.trans h.2⟩

theorem walk_spec (dirs : List String) (root : ℕ) (hroot : ∃ es, fs₀.node root = some (.dir es)) :
    Triple (Fresh fs₀) (dirs.foldlM openExistingDirAt root)
      (fun parent w => Fresh fs₀ w ∧ resolve fs₀ root dirs = some parent ∧
        ∃ es, fs₀.node parent = some (.dir es))
      (fun _ => Fresh fs₀) := by
  refine (Triple.foldlM (I := fun before parent w => Fresh fs₀ w ∧
    resolve fs₀ root before = some parent ∧ ∃ es, fs₀.node parent = some (.dir es)) ?_ root).weaken
    fun w hw => ⟨hw, rfl, hroot⟩
  intro before comp after parent _
  unfold openExistingDirAt
  refine Triple.bind (Q := fun fd w => Fresh fs₀ w ∧ resolve fs₀ root (before ++ [comp]) = some fd ∧
    ∃ es, fs₀.node fd = some (.dir es)) (.mapError (look_rule ?_ ?_)) fun fd => ?_
  · rintro w w' e ⟨hw, -⟩ hfs - he
    exact ⟨hfs.trans hw.1, he.trans hw.2⟩
  · rintro w w' n fd ⟨hw, hparent, -⟩ hopen hfs - he
    refine ⟨⟨hfs.trans hw.1, he.trans hw.2⟩, ?_⟩
    rw [hw.1] at hopen
    split at hopen
    · cases hopen
    · next i hi =>
      split at hopen
      · next es hdir =>
        obtain rfl := Except.ok.inj hopen
        refine ⟨?_, es, hdir⟩
        rw [resolve_append, hparent, Option.bind_some]
        simp [resolve, hi, hdir]
      · cases hopen
      · cases hopen
  · refine .bind ((Quiet.rule (quiet_raw (quiet_look _ _)) ?_).conseq (fun _ h => h)
      (fun _ _ h => h) (fun _ _ h => h.1)) fun _ => .pure fun _ h => h
    rintro w w' ⟨hw, hrest⟩ hfs he
    exact ⟨⟨hfs.trans hw.1, he.trans hw.2⟩, hrest⟩

theorem findPlace_spec (c : EditCall) (dirs : List String) (leaf : String) :
    Triple (Fresh fs₀) (findPlace c dirs leaf)
      (fun r w => Fresh fs₀ w ∧ ∀ parent name size, r = some (parent, name, size) →
        resolve fs₀ c.statePath dirs = some parent ∧ ∃ es, fs₀.node parent = some (.dir es))
      (fun _ => Fresh fs₀) := by
  unfold findPlace
  refine .bind (Quiet.fresh (quiet_wrapped (quiet_look _ _))) fun _ => ?_
  refine .bind (Quiet.fresh (quiet_raw (quiet_look _ _))) fun _ => ?_
  refine .bind (Quiet.fresh (quiet_scanPayload _ _)) fun validated => ?_
  rcases validated with _ | ⟨⟨name, size⟩, _ | ⟨_, _⟩⟩
  · exact .pure fun w hw => ⟨hw, fun _ _ _ h => (by cases h)⟩
  · refine .bind (Q := fun _ w => Fresh fs₀ w ∧ ∃ es, fs₀.node c.statePath = some (.dir es))
      (.mapError (look_rule ?_ ?_)) fun _ => ?_
    · rintro w w' e hw hfs - he
      exact ⟨hfs.trans hw.1, he.trans hw.2⟩
    · rintro w w' n _ hw hopen hfs - he
      refine ⟨⟨hfs.trans hw.1, he.trans hw.2⟩, ?_⟩
      rw [hw.1] at hopen
      split at hopen
      · next es hdir => exact ⟨es, hdir⟩
      · cases hopen
    · refine .of_forall fun w₁ hw₁ => ?_
      refine .bind ((walk_spec dirs c.statePath hw₁.2).weaken fun w hw => hw ▸ hw₁.1)
        fun parent => ?_
      refine .bind ((Quiet.rule (quiet_checkSource parent leaf) ?_).conseq (fun _ h => h)
        (fun _ _ h => h) (fun _ _ h => h.1)) fun _ => .pure ?_
      · rintro w w' ⟨hw, hrest⟩ hfs he
        exact ⟨⟨hfs.trans hw.1, he.trans hw.2⟩, hrest⟩
      · rintro w ⟨hw, hres, hdir⟩
        refine ⟨hw, fun parent' name' size' h => ?_⟩
        obtain ⟨rfl, rfl, rfl⟩ : parent = parent' ∧ name = name' ∧ size = size' := by simpa using h
        exact ⟨hres, hdir⟩
  · exact .throw fun w hw => hw

/-! ## Copying -/

theorem Quiet.holds {α : Type} {x : Export α} (hx : Quiet x) :
    Triple (Holds fs₀ d S F) x (fun _ => Holds fs₀ d S F) (fun _ => Holds fs₀ d S F) :=
  Quiet.rule hx fun _ _ h hfs he => h.congr hfs he

section Copying

variable (hwf : fs₀.WellFormed) (hd : d < fs₀.next)
include hwf hd

theorem write_spec {site : Site} {i : ℕ} (hi : fs₀.next ≤ i) (data : List UInt8) :
    Triple (Holds fs₀ d S F) (write site i data) (fun _ => Holds fs₀ d S F)
      (fun _ => Holds fs₀ d S F) := by
  refine write_rule ?_ ?_
  · intro w w' e h hfs _ he
    exact h.congr hfs he
  · intro w w' k h _ _ hfs _ he
    exact h.setFile hwf hd hi hfs he

theorem writeAll_spec {site : Site} {i : ℕ} (hi : fs₀.next ≤ i) (fuel : ℕ) (data : List UInt8) :
    Triple (Holds fs₀ d S F) (writeAll site i fuel data) (fun _ => Holds fs₀ d S F)
      (fun _ => Holds fs₀ d S F) := by
  induction fuel generalizing data with
  | zero => exact .pure fun _ h => h
  | succ fuel ih =>
    unfold writeAll
    refine .ite (fun _ => .pure fun _ h => h) fun _ => ?_
    exact .bind (.mapError (write_spec hwf hd hi data)) fun k => ih _

theorem streamFrom_spec {sfd dfd : ℕ} (hi : fs₀.next ≤ dfd) (maxBytes fuel offset : ℕ) :
    Triple (Holds fs₀ d S F) (streamFrom sfd dfd maxBytes fuel offset) (fun _ => Holds fs₀ d S F)
      (fun _ => Holds fs₀ d S F) := by
  induction fuel generalizing offset with
  | zero => exact .pure fun _ h => h
  | succ fuel ih =>
    unfold streamFrom
    refine .bind (Quiet.holds (quiet_raw (quiet_look _ _))) fun chunk => ?_
    refine .ite (fun _ => .pure fun _ h => h) fun _ => ?_
    refine .ite (fun _ => .throw fun _ h => h) fun _ => ?_
    refine .bind (writeAll_spec hwf hd hi _ _) fun _ => ?_
    exact .bind (ih _) fun rest => .pure fun _ h => h

theorem streamToFd_spec {sfd dfd : ℕ} (hi : fs₀.next ≤ dfd) (maxBytes : ℕ) :
    Triple (Holds fs₀ d S F) (streamToFd sfd dfd maxBytes) (fun _ => Holds fs₀ d S F)
      (fun _ => Holds fs₀ d S F) := by
  unfold streamToFd
  refine .get_bind fun w hw => ?_
  refine .weaken ?_ fun t (ht : t = w) => ht ▸ hw
  refine .bind (streamFrom_spec hwf hd hi _ _ _) fun bytes => ?_
  exact .bind (Quiet.holds (quiet_raw (quiet_look _ _))) fun _ => .pure fun _ h => h

/-! ## The temporary inode and the landing -/

/-- The names of a temporary inode: none, or the one of the fallback. -/
def TempNames (tmpname : Option String) (x : String) : Prop := tmpname = some x

theorem openNamedTemp_spec (tries : ℕ) :
    Triple (Holds fs₀ d (fun _ => False) (· = [])) (openNamedTemp d tries)
      (fun r w => Holds fs₀ d (TempNames r.2) (· = []) w ∧ fs₀.next ≤ r.1 ∧
        ∀ name, r.2 = some name → ∃ k, name = namedTemp k)
      (fun _ => Holds fs₀ d (fun _ => False) (· = [])) := by
  induction tries with
  | zero => exact .throw fun _ h => h
  | succ tries ih =>
    unfold openNamedTemp
    refine .bind (Quiet.holds (quiet_raw (quiet_look _ _))) fun k => ?_
    refine .bind (.attempt (addAt_rule
      (Q := fun fd w => Holds fs₀ d (TempNames (some (namedTemp k))) (· = []) w ∧ fs₀.next ≤ fd)
      (E := fun _ => Holds fs₀ d (fun _ => False) (· = [])) ?_ ?_)) fun made => ?_
    · intro w w' e h hfs _ he
      exact h.congr hfs he
    · intro w w' es h hes hfree hfs _ he
      refine ⟨(h.add hwf hd hes hfree hfs he).mono ?_ id, h.play.next⟩
      rintro x (hx | rfl)
      · exact hx.elim
      · rfl
    · cases made with
      | ok fd => exact .pure fun w hw => ⟨hw.1, hw.2, fun name h => ⟨k, (Option.some.inj h).symm⟩⟩
      | error e =>
        cases e with
        | eexist => exact ih
        | _ => exact .throw fun _ h => h

theorem openWritableTemp_spec :
    Triple (Holds fs₀ d (fun _ => False) (· = [])) (openWritableTemp d)
      (fun r w => Holds fs₀ d (TempNames r.2) (· = []) w ∧ fs₀.next ≤ r.1 ∧
        ∀ name, r.2 = some name → ∃ k, name = namedTemp k)
      (fun _ => Holds fs₀ d (fun _ => False) (· = [])) := by
  unfold openWritableTemp
  refine .bind (.attempt (tmpFile_rule
    (Q := fun fd w => Holds fs₀ d (fun _ => False) (· = []) w ∧ fs₀.next ≤ fd)
    (E := fun _ => Holds fs₀ d (fun _ => False) (· = [])) ?_ ?_)) fun made => ?_
  · intro w w' e h hfs _ he
    exact h.congr hfs he
  · intro w w' h hfs _ he
    exact ⟨h.alloc hwf hd hfs he, h.play.next⟩
  · cases made with
    | ok fd =>
      refine .pure fun w hw => ⟨hw.1.mono (fun _ hx => hx.elim) id, hw.2, ?_⟩
      intro name h
      cases h
    | error e =>
      refine .ite (fun _ => openNamedTemp_spec hwf hd 100) fun _ => .throw fun _ h => h

omit hd in
theorem linkFrom_spec {fd : ℕ} (hfd : fs₀.next ≤ fd) (leaf : String) (tries n : ℕ)
    (hn : n + tries ≤ 1000) :
    Triple (Holds fs₀ d S (· = [])) (linkFrom d fd leaf tries n)
      (fun landed w => ∃ k, k < 1000 ∧ landed = landedName leaf k ∧
        Holds fs₀ d (fun x => S x ∨ x = landedName leaf k) (· = []) w)
      (fun _ => Holds fs₀ d S (· = [])) := by
  induction tries generalizing n with
  | zero => exact .throw fun _ h => h
  | succ tries ih =>
    unfold linkFrom
    refine .bind (.attempt (linkAt_rule
      (Q := fun _ => Holds fs₀ d (fun x => S x ∨ x = landedName leaf n) (· = []))
      (E := fun _ => Holds fs₀ d S (· = [])) ?_ ?_)) fun made => ?_
    · intro w w' e h hfs _ he
      exact h.congr hfs he
    · intro w w' es h hes hfree hfs _ he
      exact h.put hwf hes hfree hfd hfs he
    · cases made with
      | ok _ => exact .pure fun w hw => ⟨n, by omega, rfl, hw⟩
      | error e =>
        cases e with
        | eexist => exact ih (n + 1) (by omega)
        | _ => exact .throw fun _ h => h

end Copying

/-! ## The sidecar -/

/-- The only entry that may be stuck is a temporary name that was taken before the call. -/
def StuckOld (fs₀ : Fs) (d : ℕ) (tmp : String) (effects : List Effect) : Prop :=
  ∀ d' x, .stuck d' x ∈ effects → d' = d ∧ x = tmp ∧ fs₀.entry d tmp ≠ none

/-- The temporary file is there, under an inode of this call. -/
def Unpublished (fs₀ : Fs) (d : ℕ) (S : String → Prop) (tmp : String) (fd : ℕ) (w : World Site) :
    Prop :=
  Holds fs₀ d (fun x => S x ∨ x = tmp) (StuckOld fs₀ d tmp) w ∧ fs₀.next ≤ fd ∧
    w.fs.entry d tmp = some fd

/-- How a write of a surface ends: its temporary file is gone, or it is stuck. -/
def Surfaced (fs₀ : Fs) (d : ℕ) (S : String → Prop) (tmp base : String) (w : World Site) : Prop :=
  Holds fs₀ d (fun x => S x ∨ x = base) (StuckOld fs₀ d tmp) w ∨
    Holds fs₀ d (fun x => S x ∨ x = tmp) (fun es => (∀ d' x, .stuck d' x ∈ es → d' = d ∧ x = tmp) ∧
      .stuck d tmp ∈ es) w ∧ w.fs.entry d tmp ≠ none

theorem surfaced_quiet {α : Type} {x : Export α} {tmp base : String} (hx : Quiet x) :
    Triple (Surfaced fs₀ d S tmp base) x (fun _ => Surfaced fs₀ d S tmp base)
      (fun _ => Surfaced fs₀ d S tmp base) := by
  refine Quiet.rule hx ?_
  rintro w w' (h | ⟨h, hentry⟩) hfs he
  · exact .inl (h.congr hfs he)
  · exact .inr ⟨h.congr hfs he, by rw [hfs]; exact hentry⟩

section Surface

variable {tmp base : String} (hwf : fs₀.WellFormed) (hd : d < fs₀.next)
include hwf hd

/-- The temporary file is a new inode; where it cannot be made, no entry of this call has its
name. -/
theorem createSurface_spec (hS : ¬S tmp) :
    Triple (Holds fs₀ d S (· = [])) (createSurface d tmp)
      (fun fd => Unpublished fs₀ d S tmp fd) (fun _ => Holds fs₀ d S (StuckOld fs₀ d tmp)) := by
  have hadd : ∀ F : List Effect → Prop, (∀ es, F es → StuckOld fs₀ d tmp es) →
      Triple (Holds fs₀ d S F) (addAt Site.createSurface d tmp (.file []))
        (fun fd => Unpublished fs₀ d S tmp fd) (fun _ => Holds fs₀ d S F) := by
    intro F hF
    refine addAt_rule ?_ ?_
    · intro w w' e h hfs _ he
      exact h.congr hfs he
    · intro w w' es h hes hfree hfs _ he
      refine ⟨(h.add hwf hd hes hfree hfs he).mono (fun _ hx => hx) (hF _), h.play.next, ?_⟩
      rw [hfs, Fs.entry_set_dir, PyDict.get?_insert_self]
  have hnil : ∀ es, es = [] → StuckOld fs₀ d tmp es := by
    rintro es rfl d' x hx
    cases hx
  unfold createSurface
  refine .tryCatch (hadd (· = []) hnil) fun e => .ite (fun _ => ?_) fun _ => ?_
  · refine .bind (Q := fun _ => Holds fs₀ d S (StuckOld fs₀ d tmp)) (unlinkAt_rule ?_ ?_)
      fun _ => hadd _ fun _ h => h
    · intro w w' e h hfs _ he
      refine h.stuck hwf hfs he fun hempty d' x hx => ?_
      rw [he, hempty, List.append_nil] at hx
      -- the entry that is there is not one of this call, so it is an old one
      cases hentry : w.fs.entry d tmp with
      | none => simp [stuckAt, hentry] at hx
      | some j =>
        have hxy : d' = d ∧ x = tmp := by simpa [stuckAt, hentry] using hx
        refine ⟨hxy.1, hxy.2, ?_⟩
        rcases h.play.fresh tmp j hentry with hold | hnew
        · simp [hold]
        · exact absurd (h.news tmp j hentry hnew) hS
    · intro w w' es i h hes _ hfs _ he
      refine (h.erase (G := StuckOld fs₀ d tmp) hwf hes hfs he ?_).mono (fun _ hx => hx.1) id
      intro hempty d' x hx
      rw [he, hempty] at hx
      simp at hx
  · exact .throw fun w h => h.mono (fun _ hx => hx) (hnil _)

omit hwf hd in
theorem Unpublished.quiet {α : Type} {x : Export α} {fd : ℕ} (hx : Quiet x) :
    Triple (Unpublished fs₀ d S tmp fd) x (fun _ => Unpublished fs₀ d S tmp fd)
      (fun _ => Unpublished fs₀ d S tmp fd) := by
  refine Quiet.rule hx ?_
  rintro w w' ⟨h, hfd, hentry⟩ hfs he
  exact ⟨h.congr hfs he, hfd, by rw [hfs]; exact hentry⟩

theorem unpublished_write {fd : ℕ} (data : List UInt8) :
    Triple (Unpublished fs₀ d S tmp fd) (raw (write .writeSurface fd data))
      (fun _ => Unpublished fs₀ d S tmp fd) (fun _ => Unpublished fs₀ d S tmp fd) := by
  refine .mapError (write_rule ?_ ?_)
  · rintro w w' e ⟨h, hfd, hentry⟩ hfs - he
    exact ⟨h.congr hfs he, hfd, by rw [hfs]; exact hentry⟩
  · rintro w w' k ⟨h, hfd, hentry⟩ - - hfs - he
    refine ⟨h.setFile hwf hd hfd hfs he, hfd, ?_⟩
    rw [← hentry]
    refine Fs.entry_congr ?_ tmp
    rw [hfs]
    exact Fs.node_set_of_ne (by omega) _

theorem publishSurface_spec (hS : ¬S tmp) (hne : tmp ≠ base) (chown : Bool) (data : List UInt8) :
    Triple (Holds fs₀ d S (· = [])) (publishSurface chown d tmp base data)
      (fun _ => Holds fs₀ d (fun x => S x ∨ x = base) (StuckOld fs₀ d tmp))
      (fun _ => Holds fs₀ d (fun x => S x ∨ x = tmp) (StuckOld fs₀ d tmp)) := by
  unfold publishSurface
  refine .bind (.mapError ((createSurface_spec hwf hd hS).conseq (fun _ h => h)
    (fun _ _ h => h) fun _ w h => h.mono (fun _ hx => .inl hx) id)) fun fd => ?_
  have hclose : Triple (Unpublished fs₀ d S tmp fd) (raw (plain .closeSurface))
      (fun _ => Unpublished fs₀ d S tmp fd) (fun _ => Unpublished fs₀ d S tmp fd) :=
    Unpublished.quiet (quiet_raw (quiet_look _ _))
  refine .bind (Q := fun _ => Unpublished fs₀ d S tmp fd) (.conseq (.ensuring
      (Q := fun _ => Unpublished fs₀ d S tmp fd) (E := fun _ => Unpublished fs₀ d S tmp fd) ?_
      (fun _ => hclose) (fun _ => hclose)) (fun _ h => h) (fun _ _ h => h) (fun _ _ h => h.1))
    fun _ => .mapError (renameAt_rule ?_ ?_)
  · refine .bind (Unpublished.quiet (quiet_maybeFchown chown)) fun _ => ?_
    refine .bind (unpublished_write hwf hd data) fun _ => ?_
    exact Unpublished.quiet (quiet_raw (quiet_look _ _))
  · rintro w w' e ⟨h, -, -⟩ hfs - he
    exact h.congr hfs he
  · rintro w w' es i ⟨h, hfd, hentry⟩ hes hsrc hfs - he
    have hi : fd = i := by
      rw [Fs.entry_of_node hes, hsrc] at hentry
      exact (Option.some.inj hentry).symm
    subst hi
    refine (h.rename (G := StuckOld fs₀ d tmp) hwf hes hsrc hfd hne hfs he ?_).mono ?_ id
    · intro hold d' x hx
      rw [he] at hx
      refine hold d' x ((List.mem_append.1 hx).resolve_left fun hx => ?_)
      split at hx <;> simp at hx
    · rintro x (⟨hx | hx, hnot⟩ | hx)
      · exact .inl hx
      · exact absurd hx hnot
      · exact .inr hx

theorem writeFileAtomic_spec {pid : ℕ} (hS : ¬S (surfaceTemp pid base))
    (hne : surfaceTemp pid base ≠ base) (chown : Bool) (data : List UInt8) :
    Triple (Holds fs₀ d S (· = [])) (writeFileAtomic pid chown d base data)
      (fun _ => Surfaced fs₀ d S (surfaceTemp pid base) base)
      (fun _ => Surfaced fs₀ d S (surfaceTemp pid base) base) := by
  unfold writeFileAtomic
  have hcleanup : Triple (Holds fs₀ d (fun x => S x ∨ x = surfaceTemp pid base)
        (StuckOld fs₀ d (surfaceTemp pid base)))
      (bestEffort (unlinkAt .unlinkSurface d (surfaceTemp pid base)))
      (fun _ => Surfaced fs₀ d S (surfaceTemp pid base) base)
      (fun _ => Surfaced fs₀ d S (surfaceTemp pid base) base) := by
    unfold bestEffort
    refine .tryCatch (E := fun _ => Surfaced fs₀ d S (surfaceTemp pid base) base)
      (.mapError (unlinkAt_rule ?_ ?_)) fun _ => .pure fun _ h => h
    · intro w w' e h hfs _ he
      cases hentry : w.fs.entry d (surfaceTemp pid base) with
      | none =>
        -- there was nothing to remove
        have hempty : stuckAt d (surfaceTemp pid base) w.fs = [] := by simp [stuckAt, hentry]
        rw [hempty] at he
        have hcongr := h.congr hfs he
        refine .inl ⟨hcongr.play, ?_, hcongr.effects⟩
        intro x j hj hnew
        rcases hcongr.news x j hj hnew with hx | rfl
        · exact .inl hx
        · rw [hfs, hentry] at hj
          cases hj
      | some j =>
        have hone : stuckAt d (surfaceTemp pid base) w.fs = [.stuck d (surfaceTemp pid base)] := by
          simp [stuckAt, hentry]
        refine .inr ⟨h.stuck hwf hfs he fun hold => ⟨?_, ?_⟩, ?_⟩
        · intro d' x hx
          rw [he, hone] at hx
          rcases List.mem_append.1 hx with hx | hx
          · simpa using hx
          · exact ⟨(hold d' x hx).1, (hold d' x hx).2.1⟩
        · rw [he, hone]
          simp
        · rw [hfs, hentry]
          simp
    · intro w w' es i h hes _ hfs _ he
      refine .inl ((h.erase (G := StuckOld fs₀ d (surfaceTemp pid base)) hwf hes hfs he ?_).mono ?_ id)
      · intro hold d' x hx
        rw [he] at hx
        exact hold d' x (by simpa using hx)
      · rintro x ⟨hx | hx, hnot⟩
        · exact .inl hx
        · exact absurd hx hnot
  refine .bind (Q := fun _ => Surfaced fs₀ d S (surfaceTemp pid base) base) ?_ fun _ => ?_
  · refine .tryCatch ((publishSurface_spec hwf hd hS hne chown data).conseq (fun _ h => h)
      (fun _ _ h => .inl h) (fun _ _ h => h)) fun e => ?_
    exact .bind hcleanup fun _ => .throw fun _ h => h
  · exact surfaced_quiet (quiet_raw (quiet_look _ _))

end Surface

/-! ## The whole call -/

/-- How the landing ends, after a number of collisions. -/
def Landed (fs₀ : Fs) (d pid : ℕ) (leaf : String) (tmpname : Option String) (w : World Site) : Prop :=
  ∃ k, k < 1000 ∧ Surfaced fs₀ d (fun x => TempNames tmpname x ∨ x = landedName leaf k)
    (surfaceTemp pid (sidecarName (landedName leaf k))) (sidecarName (landedName leaf k)) w

theorem landed_of_holds {pid : ℕ} {leaf : String} {tmpname : Option String}
    (h : Holds fs₀ d (TempNames tmpname) (· = []) w) : Landed fs₀ d pid leaf tmpname w := by
  refine ⟨0, by decide, .inl (h.mono (fun _ hx => .inl (.inl hx)) ?_)⟩
  intro hempty d' x hx
  rw [hempty] at hx
  cases hx

section Whole

variable (hwf : fs₀.WellFormed) (hd : d < fs₀.next)
include hwf hd

variable {leaf : String} {tmpname : Option String}

theorem editSidecar_spec (c : EditCall) {k : ℕ} (hk : k < 1000)
    (htmp : ∀ name, tmpname = some name → ∃ m, name = namedTemp m) (digest : String) :
    Triple (Holds fs₀ d (fun x => TempNames tmpname x ∨ x = landedName leaf k) (· = []))
      (editSidecar c d (landedName leaf k) digest) (fun _ => Landed fs₀ d c.pid leaf tmpname)
      (fun _ => Landed fs₀ d c.pid leaf tmpname) := by
  have hnames : ¬(TempNames tmpname (surfaceTemp c.pid (sidecarName (landedName leaf k))) ∨
      surfaceTemp c.pid (sidecarName (landedName leaf k)) = landedName leaf k) := by
    rintro (hnamed | hlanded)
    · obtain ⟨m, hm⟩ := htmp _ hnamed
      exact surfaceTemp_ne_namedTemp c.pid leaf hk m hm
    · exact surfaceTemp_ne_landedName c.pid leaf hk hk hlanded
  have hnothing : ∀ w, Holds fs₀ d (fun x => TempNames tmpname x ∨ x = landedName leaf k) (· = []) w →
      Landed fs₀ d c.pid leaf tmpname w := by
    intro w h
    refine ⟨k, hk, .inl (h.mono (fun _ hx => .inl hx) ?_)⟩
    intro hempty d' x hx
    rw [hempty] at hx
    cases hx
  unfold editSidecar
  cases c.receiptCtx with
  | none => exact .pure hnothing
  | some build =>
    refine .bind (Q := fun _ => Landed fs₀ d c.pid leaf tmpname)
      (.conseq (.attempt (Q := fun _ => Landed fs₀ d c.pid leaf tmpname)
        (E := fun _ => Landed fs₀ d c.pid leaf tmpname) (F := fun _ _ => False) ?_) (fun _ h => h) ?_
        fun _ _ h => h.elim) fun _ => .pure fun _ h => h
    · unfold emitEditLineageSurface
      cases build (landedName leaf k) digest with
      | none => exact .throw hnothing
      | some data =>
        refine .conseq (.bind (writeFileAtomic_spec hwf hd hnames
          (surfaceTemp_ne_sidecarName c.pid leaf hk hk) c.chown data) fun _ =>
            surfaced_quiet ?_) (fun _ h => h) (fun _ _ h => ⟨k, hk, h⟩) (fun _ _ h => ⟨k, hk, h⟩)
        refine quiet_bestEffort ?_
        exact (quiet_look _ _).bind fun _ => quiet_look _ _
    · rintro (e | _) w h
      · exact h
      · exact h

theorem landEdit_spec (c : EditCall) {fd : ℕ} (hfd : fs₀.next ≤ fd) {payloadName : String}
    {size : ℕ} (htmp : ∀ name, tmpname = some name → ∃ m, name = namedTemp m) :
    Triple (Holds fs₀ d (TempNames tmpname) (· = [])) (landEdit c d fd leaf payloadName size)
      (fun _ => Landed fs₀ d c.pid leaf tmpname) (fun _ => Landed fs₀ d c.pid leaf tmpname) := by
  have hearly : ∀ {α : Type} {x : Export α}, Triple (Holds fs₀ d (TempNames tmpname) (· = [])) x
        (fun _ => Holds fs₀ d (TempNames tmpname) (· = []))
        (fun _ => Holds fs₀ d (TempNames tmpname) (· = [])) →
      Triple (Holds fs₀ d (TempNames tmpname) (· = [])) x
        (fun _ => Holds fs₀ d (TempNames tmpname) (· = []))
        (fun _ => Landed fs₀ d c.pid leaf tmpname) :=
    fun h => h.conseq (fun _ h => h) (fun _ _ h => h) fun _ _ h => landed_of_holds h
  unfold landEdit
  refine .bind (hearly (Quiet.holds (quiet_maybeFchown _))) fun _ => ?_
  refine .bind (hearly (Quiet.holds (quiet_raw (quiet_look _ _)))) fun sfd => ?_
  refine .bind (hearly (.ensuring (E := fun _ => Holds fs₀ d (TempNames tmpname) (· = []))
    (Q := fun _ => Holds fs₀ d (TempNames tmpname) (· = [])) ?_
    (fun _ => Quiet.holds (quiet_raw (quiet_look _ _)))
    (fun _ => Quiet.holds (quiet_raw (quiet_look _ _))))) fun bytes => ?_
  · refine .bind (Quiet.holds (quiet_raw (quiet_look _ _))) fun n => ?_
    cases n with
    | file _ => exact streamToFd_spec hwf hd hfd size
    | _ => exact .throw fun _ h => h
  · refine .bind ((linkFrom_spec hwf hfd leaf 1000 0 (by decide)).conseq (fun _ h => h)
      (fun _ _ h => h) fun _ _ h => landed_of_holds h) fun landed => ?_
    refine .of_forall fun w₁ hw₁ => ?_
    obtain ⟨k, hk, rfl, hholds⟩ := hw₁
    refine .bind ((editSidecar_spec hwf hd c hk htmp _).weaken fun w hw => hw ▸ hholds)
      fun sidecar => ?_
    refine .bind (Quiet.rule (quiet_raw (quiet_look _ _)) ?_) fun _ => .pure fun _ h => h
    rintro w w' ⟨k, hk, hsurf | ⟨hsurf, hentry⟩⟩ hfs he
    · exact ⟨k, hk, .inl (hsurf.congr hfs he)⟩
    · exact ⟨k, hk, .inr ⟨hsurf.congr hfs he, by rw [hfs]; exact hentry⟩⟩

/-- How the call ends: every entry of it is the landed file, its sidecar or stuck; and an entry
that is stuck is there, under a temporary name, unless it was there before. -/
def Ended (fs₀ : Fs) (d pid : ℕ) (leaf : String) (w : World Site) : Prop :=
  ∃ k, k < 1000 ∧ Play fs₀ d w ∧
    (∀ x j, w.fs.entry d x = some j → fs₀.next ≤ j →
      (x = landedName leaf k ∨ x = sidecarName (landedName leaf k)) ∨ .stuck d x ∈ w.effects) ∧
    ∀ d' x, .stuck d' x ∈ w.effects → d' = d ∧ (fs₀.entry d x = none → w.fs.entry d x ≠ none ∧
      (x = surfaceTemp pid (sidecarName (landedName leaf k)) ∨ ∃ m, x = namedTemp m))

omit hwf hd in
theorem Landed.ended {pid : ℕ} (h : Landed fs₀ d pid leaf none w) :
    Ended fs₀ d pid leaf w := by
  obtain ⟨k, hk, hsurf | ⟨hsurf, hentry⟩⟩ := h
  · refine ⟨k, hk, hsurf.play, ?_, ?_⟩
    · intro x j hj hnew
      rcases hsurf.news x j hj hnew with (hx | hx) | hx
      · cases hx
      · exact .inl (.inl hx)
      · exact .inl (.inr hx)
    · intro d' x hx
      obtain ⟨rfl, rfl, hold⟩ := hsurf.effects d' x hx
      exact ⟨rfl, fun hnone => absurd hnone hold⟩
  · refine ⟨k, hk, hsurf.play, ?_, ?_⟩
    · intro x j hj hnew
      rcases hsurf.news x j hj hnew with (hx | hx) | hx
      · cases hx
      · exact .inl (.inl hx)
      · exact .inr (hx ▸ hsurf.effects.2)
    · intro d' x hx
      obtain ⟨rfl, rfl⟩ := hsurf.effects.1 d' x hx
      exact ⟨rfl, fun _ => ⟨hentry, .inl rfl⟩⟩

omit hd in
theorem unlinkTemp_spec {pid : ℕ} (htmp : ∀ name, tmpname = some name → ∃ m, name = namedTemp m) :
    Triple (Landed fs₀ d pid leaf tmpname) (unlinkTemp d tmpname)
      (fun _ => Ended fs₀ d pid leaf) (fun _ => Ended fs₀ d pid leaf) := by
  cases tmpname with
  | none => exact .pure fun _ h => h.ended
  | some name =>
    obtain ⟨m, rfl⟩ := htmp _ rfl
    unfold unlinkTemp bestEffort
    refine .tryCatch (E := fun _ => Ended fs₀ d pid leaf)
      (.mapError (unlinkAt_rule ?_ ?_)) fun _ => .pure fun _ h => h
    · rintro w w' e ⟨k, hk, hsurf⟩ hfs - he
      -- what was there is still there, and the temporary name is recorded if it was
      have hnamed : ∀ x j, w'.fs.entry d x = some j → TempNames (some (namedTemp m)) x →
          .stuck d x ∈ w'.effects := by
        intro x j hj hx
        obtain rfl := Option.some.inj hx
        rw [hfs] at hj
        rw [he]
        simp [stuckAt, hj]
      have hold : ∀ d' x, .stuck d' x ∈ w'.effects →
          (d' = d ∧ x = namedTemp m ∧ w'.fs.entry d x ≠ none) ∨ .stuck d' x ∈ w.effects := by
        intro d' x hx
        rw [he] at hx
        rcases List.mem_append.1 hx with hx | hx
        · left
          unfold stuckAt at hx
          split at hx
          · next hthere =>
            simp only [List.mem_singleton, Effect.stuck.injEq] at hx
            obtain ⟨rfl, rfl⟩ := hx
            exact ⟨rfl, rfl, by rw [hfs]; exact Option.isSome_iff_ne_none.1 hthere⟩
          · cases hx
        · exact .inr hx
      rcases hsurf with hsurf | ⟨hsurf, hentry⟩
      · have hholds := hsurf.stuck (G := fun _ => True) hwf hfs he fun _ => trivial
        refine ⟨k, hk, hholds.play, ?_, ?_⟩
        · intro x j hj hnew
          rcases hholds.news x j hj hnew with (hx | hx) | hx
          · exact .inr (hnamed x j hj hx)
          · exact .inl (.inl hx)
          · exact .inl (.inr hx)
        · intro d' x hx
          rcases hold d' x hx with ⟨rfl, rfl, hthere⟩ | hx
          · exact ⟨rfl, fun _ => ⟨hthere, .inr ⟨m, rfl⟩⟩⟩
          · obtain ⟨rfl, rfl, hwas⟩ := hsurf.effects d' x hx
            exact ⟨rfl, fun hnone => absurd hnone hwas⟩
      · have hholds := hsurf.stuck (G := fun _ => True) hwf hfs he fun _ => trivial
        refine ⟨k, hk, hholds.play, ?_, ?_⟩
        · intro x j hj hnew
          rcases hholds.news x j hj hnew with (hx | hx) | hx
          · exact .inr (hnamed x j hj hx)
          · exact .inl (.inl hx)
          · refine .inr ?_
            rw [he, hx]
            exact List.mem_append_right _ hsurf.effects.2
        · intro d' x hx
          rcases hold d' x hx with ⟨rfl, rfl, hthere⟩ | hx
          · exact ⟨rfl, fun _ => ⟨hthere, .inr ⟨m, rfl⟩⟩⟩
          · obtain ⟨rfl, rfl⟩ := hsurf.effects.1 d' x hx
            exact ⟨rfl, fun _ => ⟨by rw [hfs]; exact hentry, .inl rfl⟩⟩
    · rintro w w' es i ⟨k, hk, hsurf⟩ hes - hfs - he
      have hsame : ∀ d' x, .stuck d' x ∈ w'.effects → .stuck d' x ∈ w.effects := by
        intro d' x hx
        rw [he] at hx
        simpa using hx
      rcases hsurf with hsurf | ⟨hsurf, hentry⟩
      · have hholds := hsurf.erase (G := fun _ => True) hwf hes hfs he fun _ => trivial
        refine ⟨k, hk, hholds.play, ?_, ?_⟩
        · intro x j hj hnew
          rcases hholds.news x j hj hnew with ⟨(hx | hx) | hx, hne⟩
          · exact absurd (Option.some.inj hx).symm hne
          · exact .inl (.inl hx)
          · exact .inl (.inr hx)
        · intro d' x hx
          obtain ⟨rfl, rfl, hwas⟩ := hsurf.effects d' x (hsame d' x hx)
          exact ⟨rfl, fun hnone => absurd hnone hwas⟩
      · have hholds := hsurf.erase (G := fun _ => True) hwf hes hfs he fun _ => trivial
        refine ⟨k, hk, hholds.play, ?_, ?_⟩
        · intro x j hj hnew
          rcases hholds.news x j hj hnew with ⟨(hx | hx) | hx, hne⟩
          · exact absurd (Option.some.inj hx).symm hne
          · exact .inl (.inl hx)
          · refine .inr ?_
            rw [he, hx]
            exact List.mem_cons_of_mem _ hsurf.effects.2
        · intro d' x hx
          obtain ⟨rfl, rfl⟩ := hsurf.effects.1 d' x (hsame d' x hx)
          refine ⟨rfl, fun _ => ⟨?_, .inl rfl⟩⟩
          rw [hfs, Fs.entry_set_dir,
            PyDict.get?_erase_of_ne _ (surfaceTemp_ne_namedTemp pid leaf hk m), ← Fs.entry_of_node hes]
          exact hentry

end Whole

/-- **What is kept is what is clean.** -/
theorem Ended.keeps_iff {pid root : ℕ} {leaf : String} {dirs : List String}
    (hwf : fs₀.WellFormed) (hdir : ∃ es, fs₀.node d = some (.dir es))
    (hres : resolve fs₀ root dirs = some d) (h : Ended fs₀ d pid leaf w) :
    (Unchanged fs₀ w.fs ∧ Added fs₀ w.fs root dirs leaf) ↔ Clean fs₀ w.effects := by
  obtain ⟨k, hk, hplay, hnews, hstuck⟩ := h
  obtain ⟨es₀, hes₀⟩ := hdir
  have hother : ∀ d', d' ≠ d → d' < fs₀.next → ∀ x, w.fs.entry d' x = fs₀.entry d' x :=
    fun d' hne hd' x => Fs.entry_congr (hplay.nodes d' hd' hne) x
  constructor
  · rintro ⟨⟨hentries, -⟩, n, hn, hadded⟩ d' x
    constructor
    · intro htouched
      obtain rfl := hplay.within d' x htouched
      cases hold : fs₀.entry d' x with
      | none => rfl
      | some j => exact absurd htouched ((hplay.old x j hold).1 (hentries d' x j hold))
    · intro hx hnone
      obtain ⟨rfl, hthere⟩ := hstuck d' x hx
      obtain ⟨hsome, htemp⟩ := hthere hnone
      obtain ⟨j, hj⟩ := Option.ne_none_iff_exists'.1 hsome
      obtain ⟨-, hname⟩ := hadded d' x j (hwf.lt_next hes₀) hj hnone
      rcases htemp with rfl | ⟨m, rfl⟩
      · rcases hname with hname | hname
        · exact surfaceTemp_ne_landedName pid leaf hk hn hname
        · exact surfaceTemp_ne_sidecarName pid leaf hk hn hname
      · rcases hname with hname | hname
        · exact namedTemp_ne_landedName m leaf hn hname
        · exact namedTemp_ne_sidecarName m _ hname
  · intro hclean
    refine ⟨⟨?_, ?_⟩, k, hk, ?_⟩
    · intro d' x j hj
      by_cases hne : d' = d
      · subst hne
        refine (hplay.old x j hj).2 fun htouched => ?_
        have hnone := (hclean d' x).1 htouched
        rw [hj] at hnone
        cases hnone
      · obtain ⟨es, hes⟩ := Fs.node_of_entry hj
        rw [hother d' hne (hwf.lt_next hes) x]
        exact hj
    · intro i n hn
      by_cases hne : i = d
      · subst hne
        obtain ⟨es, hes⟩ := hplay.isDir
        rw [hes₀] at hn
        exact .inr ⟨es₀, es, (Option.some.inj hn).symm, hes⟩
      · exact .inl (by rw [hplay.nodes i (hwf.lt_next hn) hne]; exact hn)
    · intro d' x j hd' hj hnone
      by_cases hne : d' = d
      · subst hne
        refine ⟨hres, ?_⟩
        rcases hplay.fresh x j hj with hold | hnew
        · rw [hnone] at hold
          cases hold
        · rcases hnews x j hj hnew with hx | hx
          · exact hx
          · exact absurd hnone ((hclean d' x).2 hx)
      · rw [hother d' hne hd' x, hnone] at hj
        cases hj

theorem fresh_keeps_iff {root : ℕ} {leaf : String} {dirs : List String} (h : Fresh fs₀ w) :
    (Unchanged fs₀ w.fs ∧ Added fs₀ w.fs root dirs leaf) ↔ Clean fs₀ w.effects := by
  obtain ⟨hfs, he⟩ := h
  rw [hfs, he]
  constructor
  · rintro - d' x
    simp
  · intro _
    refine ⟨⟨fun _ _ _ h => h, fun _ _ h => .inl h⟩, 0, by decide, ?_⟩
    intro d' x j _ hj hnone
    rw [hnone] at hj
    cases hj

theorem landBeside_spec (c : EditCall) (dirs : List String) (leaf : String) (hwf : fs₀.WellFormed) :
    Triple (Fresh fs₀) (landBeside c dirs leaf)
      (fun _ w => (Unchanged fs₀ w.fs ∧ Added fs₀ w.fs c.statePath dirs leaf) ↔
        Clean fs₀ w.effects)
      (fun _ w => (Unchanged fs₀ w.fs ∧ Added fs₀ w.fs c.statePath dirs leaf) ↔
        Clean fs₀ w.effects) := by
  unfold landBeside
  refine .bind ((findPlace_spec c dirs leaf).conseq (fun _ h => h) (fun _ _ h => h)
    fun _ _ h => fresh_keeps_iff h) fun place => ?_
  rcases place with _ | ⟨parent, name, size⟩
  · exact .pure fun w hw => fresh_keeps_iff hw.1
  · refine .of_forall fun w₁ hw₁ => ?_
    obtain ⟨hfresh, hplace⟩ := hw₁
    obtain ⟨hres, hdir⟩ := hplace parent name size rfl
    obtain ⟨es, hes⟩ := hdir
    have hd := hwf.lt_next hes
    have hholds : Holds fs₀ parent (fun _ => False) (· = []) w₁ := by
      refine ⟨Play.init ⟨es, hes⟩ hfresh.1 hfresh.2, ?_, hfresh.2⟩
      intro x j hj hnew
      rw [hfresh.1] at hj
      have := hwf.closed parent x j hj
      omega
    have hended : ∀ w, Ended fs₀ parent c.pid leaf w →
        ((Unchanged fs₀ w.fs ∧ Added fs₀ w.fs c.statePath dirs leaf) ↔ Clean fs₀ w.effects) :=
      fun w hw => hw.keeps_iff hwf ⟨es, hes⟩ hres
    refine .bind ((openWritableTemp_spec hwf hd).conseq (fun w hw => hw ▸ hholds)
      (fun _ _ h => h) ?_) fun r => ?_
    · intro _ w hw
      have hnone : Landed fs₀ parent c.pid leaf none w :=
        landed_of_holds (hw.mono (fun _ hx => hx.elim) id)
      exact hended w hnone.ended
    · obtain ⟨fd, tmpname⟩ := r
      refine .of_forall fun w₂ hw₂ => ?_
      obtain ⟨htemp, hfd, htmp⟩ := hw₂
      have hcleanup : Triple (Landed fs₀ parent c.pid leaf tmpname) (unlinkTemp parent tmpname)
          (fun _ => Ended fs₀ parent c.pid leaf) (fun _ => Ended fs₀ parent c.pid leaf) :=
        unlinkTemp_spec hwf htmp
      have hland : Triple (fun w => w = w₂) (landEdit c parent fd leaf name size)
          (fun _ => Landed fs₀ parent c.pid leaf tmpname)
          (fun _ => Landed fs₀ parent c.pid leaf tmpname) :=
        (landEdit_spec hwf hd c hfd htmp).weaken fun w hw => hw ▸ htemp
      exact (hland.ensuring (fun _ => hcleanup) (fun _ => hcleanup)).conseq (fun _ h => h)
        (fun _ w h => hended w h) (fun _ w h => hended w h)

/-- An edit of `note.txt`, with a payload in inode 2. -/
def noteEdit : EditCall where
  payloadDir := 2
  statePath := 0
  sourceRel := "note.txt"
  caps := {}
  chown := false
  pid := 7
  sha256 := fun bytes => bytes.length.repr
  receiptCtx := some fun _ _ => some [123, 125]

/-- A silo with the note alone, and an edited file. -/
def noteFs : Fs :=
  .ofList [.dir ⟨[("note.txt", 1)], by decide⟩, .file [1], .dir ⟨[("out", 3)], by decide⟩,
    .file [1, 2]]

/-- The silo with a sidecar of an earlier edit, whose landed file is gone. -/
def oldSidecarFs : Fs :=
  .ofList [.dir ⟨[("note.txt", 1), ("note.txt.disp-edited.qdistro-lineage.json", 4)], by decide⟩,
    .file [1], .dir ⟨[("out", 3)], by decide⟩, .file [1, 2], .file [91, 93]]

end DispExport
