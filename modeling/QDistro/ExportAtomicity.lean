/-
# An export lands whole or not at all

The proof about `promote_export`.  Before the temporary directory is there, only empty directories
are made; from then on every change is inside it, up to the rename, which is the last step that
changes anything.  So an error that is not an `OSError` finds the temporary directory still in
place, and the clean-up empties and removes it.
-/
import QDistro.ExportStaging

namespace DispExport

open EffectRules InodeFs

/-! ## All or nothing -/

/-- What is under a name in the landing directory of the class. -/
def importAt (c : ExportCall) (fs : Fs) (name : String) : Option ℕ :=
  match sanitizeClassLeaf c.openClass with
  | .error _ => none
  | .ok leaf => (resolve fs c.statePath [incomingDirname, leaf]).bind fun d => fs.entry d name

/-- The import is the payload with its receipt and its surfaces. -/
structure ExportDone (c : ExportCall) (fs : Fs) (r : ExportReceipt) (w : World Site) : Prop where
  payload : PayloadOk c fs
  listed : ∀ f, f ∈ r.files ↔ ∃ bytes, FileAt fs c.payloadDir f.1 bytes ∧
    f.2 = (bytes.length, c.sha256 bytes)
  once : (r.files.map Prod.fst).Nodup
  landed : ∃ d, importAt c w.fs r.dest = some d ∧
    (∀ name bytes, FileAt fs c.payloadDir name bytes → FileAt w.fs d name bytes) ∧
    FileAt w.fs d receiptName (c.receiptBytes r.files) ∧
    ∀ name i, w.fs.entry d name = some i → (∃ bytes, FileAt fs c.payloadDir name bytes) ∨
      name = receiptName ∨ name = lineageManifestName ∨
      ∃ p bytes, FileAt fs c.payloadDir p bytes ∧ name = sidecarName p

/-- A call at a place has failed. -/
def failedAt (site : Site) (w : World Site) : Prop := ∃ f ∈ w.failed, f.site = site

/-- A temporary directory is left: something in it could not be removed, or it is empty and could
not be removed itself. -/
def LeftBehind (c : ExportCall) (w : World Site) (name : String) : Prop :=
  ∃ n d, name = importTemp c.token8 n ∧ importAt c w.fs name = some d ∧
    (failedAt .listTemp w ∨ failedAt .unlinkTemp w ∨
      failedAt .rmdirTemp w ∧ ∀ x, w.fs.entry d x = none)

/-- Nothing has landed. -/
def ExportRefused (c : ExportCall) (fs : Fs) (w : World Site) : Prop :=
  ∀ name, importAt c w.fs name = importAt c fs name ∨ LeftBehind c w name

/-- An export returns and has landed whole, or raises one of its own errors and has landed
nothing. -/
def AllOrNothing (c : ExportCall) (fs : Fs) : Except Failure ExportReceipt × World Site → Prop
  | (.ok r, w) => ExportDone c fs r w
  | (.error e, w) => (e = .policy ∨ e = .state) ∧ ExportRefused c fs w

variable {c : ExportCall} {fs₀ base : Fs} {t : ℕ} {m : String → Option (List UInt8)} {name : String}

/-! ## The clean-up -/

theorem failedAt_cons {site : Site} {w w' : World Site} {f : Fault Site} (h : failedAt site w)
    (hf : w'.failed = f :: w.failed) : failedAt site w' := by
  obtain ⟨g, hg, hsite⟩ := h
  exact ⟨g, by rw [hf]; exact List.mem_cons_of_mem _ hg, hsite⟩

/-- The clean-up has emptied the directory, but for the names to come, or a call of it has
failed. -/
def Emptied (base : Fs) (t : ℕ) (names : List String) (w : World Site) : Prop :=
  Boxed base t w.fs ∧ (failedAt .listTemp w ∨ failedAt .unlinkTemp w ∨
    ∀ x, x ∉ names → w.fs.entry t x = none)

theorem unlinkEach_spec (ht : t < base.next) (names : List String) {E : Failure → World Site → Prop} :
    Triple (Emptied base t names) (unlinkEach t names) (fun _ => Emptied base t []) E := by
  induction names with
  | nil => exact .pure fun _ h => h
  | cons name names ih =>
    refine .bind (Q := fun _ => Emptied base t names) ?_ fun _ => ih
    refine .tryCatch (E := fun _ => Emptied base t names) (.mapError ?_) fun _ =>
      Triple.pure fun _ h => h
    refine unlinkAt_rule ?_ ?_
    · intro w w' e hw hfs hf _
      exact ⟨hfs ▸ hw.1, .inr (.inl ⟨_, by rw [hf]; exact List.mem_cons_self .., rfl⟩)⟩
    · intro w w' es i hw hes _ hfs hf _
      obtain ⟨⟨m', hm, -⟩, hrest⟩ := hw
      refine ⟨hfs ▸ Boxed.of_staged (hm.erase ht hes), ?_⟩
      unfold failedAt
      rw [hf]
      refine hrest.imp_right (Or.imp_right fun hnone x hx => ?_)
      rw [hfs, Fs.entry_set_dir]
      by_cases hxn : x = name
      · rw [hxn, PyDict.get?_erase_self]
      · rw [PyDict.get?_erase_of_ne _ hxn, ← Fs.entry_of_node hes]
        exact hnone x (by simp [hxn, hx])

/-! ## The directories of the landing -/

/-- The directory under a name, which may have been made for the call. -/
def Child (fs : Fs) (parent : ℕ) (name : String) (fd : ℕ) (fs' : Fs) : Prop :=
  (fs' = fs ∧ fs.entry parent name = some fd ∧ ∃ es, fs.node fd = some (.dir es)) ∨
    (fd = fs.next ∧ Made fs parent name fs')

theorem openDirAt_spec {site : Site} {parent : ℕ} {fs : Fs} :
    Triple (fun w => w.fs = fs) (openDirAt site parent name)
      (fun fd w => w.fs = fs ∧ fs.entry parent name = some fd ∧ ∃ es, fs.node fd = some (.dir es))
      (fun _ w => w.fs = fs) := by
  refine look_rule (fun w w' e hw hfs _ _ => hfs.trans hw) ?_
  intro w w' n fd hw hlook hfs _ _
  rw [hw] at hlook
  refine ⟨hfs.trans hw, ?_⟩
  split at hlook
  · cases hlook
  · next i hi =>
    split at hlook
    · next es hes =>
      obtain rfl := Except.ok.inj hlook
      exact ⟨hi, es, hes⟩
    · cases hlook
    · cases hlook

theorem openChild_spec {parent : ℕ} {fs : Fs} (chown created : Bool) :
    Triple (fun w => w.fs = fs) (childDirAt.openChild chown parent name created)
      (fun fd w => w.fs = fs ∧ fs.entry parent name = some fd ∧ ∃ es, fs.node fd = some (.dir es))
      (fun _ w => w.fs = fs) := by
  unfold childDirAt.openChild
  refine .bind (.mapError openDirAt_spec) fun fd => ?_
  have hkeep : ∀ {x : Export Unit}, Quiet x → Triple (fun w => w.fs = fs ∧
      fs.entry parent name = some fd ∧ ∃ es, fs.node fd = some (.dir es)) x
      (fun _ w => w.fs = fs ∧ fs.entry parent name = some fd ∧ ∃ es, fs.node fd = some (.dir es))
      (fun _ w => w.fs = fs) := by
    intro x hx
    exact (keep hx fun fs' => fs' = fs ∧ fs.entry parent name = some fd ∧ _).conseq (fun _ h => h)
      (fun _ _ h => h) fun _ _ h => h.1
  refine .bind (hkeep (quiet_raw (quiet_look _ _))) fun _ => ?_
  cases created with
  | true => exact .bind (hkeep (quiet_maybeFchown chown)) fun _ => .pure fun _ h => h
  | false => exact .pure fun _ h => h

theorem mkdir_made {fs : Fs} (site : Site) (parent : ℕ) (name : String) :
    Triple (fun w => w.fs = fs) (addAt site parent name (.dir ∅))
      (fun _ w => Made fs parent name w.fs) (fun _ w => w.fs = fs) := by
  refine addAt_rule (fun w w' e hw hfs _ _ => hfs.trans hw) ?_
  rintro w w' es rfl hes hfree hfs - -
  exact ⟨es, hes, hfree, hfs⟩

theorem childDirAt_spec {parent : ℕ} {fs : Fs} (chown : Bool) :
    Triple (fun w => w.fs = fs) (childDirAt chown parent name)
      (fun fd w => Child fs parent name fd w.fs)
      (fun _ w => w.fs = fs ∨ Made fs parent name w.fs) := by
  unfold childDirAt
  refine .bind (mkdir_made _ _ _).attempt fun made => ?_
  cases made with
  | ok i =>
    refine .of_forall fun w (hw : Made fs parent name w.fs) => ?_
    refine (openChild_spec chown true).conseq (fun w' (h : w' = w) => congrArg World.fs h) ?_ ?_
    · rintro fd w' ⟨hfs, hentry, -⟩
      rw [hw.entry_new] at hentry
      exact .inr ⟨(Option.some.inj hentry).symm, hfs ▸ hw⟩
    · intro e w' hfs
      exact .inr (hfs ▸ hw)
  | error e =>
    cases e with
    | eexist =>
      exact (openChild_spec chown false).conseq (fun _ h => h) (fun _ _ h => .inl h)
        fun _ _ h => .inl h
    | _ => exact .throw fun _ h => .inl h

namespace Child

variable {fs fs' : Fs} {parent fd : ℕ}

section

variable (h : Child fs parent name fd fs')
include h

theorem entry : fs'.entry parent name = some fd := by
  rcases h with ⟨rfl, hentry, -⟩ | ⟨rfl, hmade⟩
  · exact hentry
  · exact hmade.entry_new

theorem isDir (hwf : fs.WellFormed) :
    ∃ es, fs'.node fd = some (.dir es) := by
  rcases h with ⟨rfl, -, hdir⟩ | ⟨rfl, hmade⟩
  · exact hdir
  · exact ⟨_, hmade.node_new hwf⟩

theorem wellFormed (hwf : fs.WellFormed) : fs'.WellFormed := by
  rcases h with ⟨rfl, -⟩ | ⟨-, hmade⟩
  · exact hwf
  · exact hmade.wellFormed hwf

theorem unchanged (hwf : fs.WellFormed) : Unchanged fs fs' := by
  rcases h with ⟨rfl, -⟩ | ⟨-, hmade⟩
  · exact Unchanged.refl fs'
  · exact hmade.unchanged hwf

theorem next_le : fs.next ≤ fs'.next := by
  rcases h with ⟨rfl, -⟩ | ⟨-, hmade⟩
  · exact Nat.le_refl _
  · rw [hmade.next_eq]
    exact Nat.le_succ _

end

end Child

theorem mkdirTempAt_spec {fs₁ : Fs} {cls : ℕ} (tries : ℕ) :
    Triple (fun w => w.fs = fs₁) (mkdirTempAt cls c.token8 tries)
      (fun tmpname w => (∃ n, tmpname = importTemp c.token8 n) ∧ Made fs₁ cls tmpname w.fs)
      (fun _ w => w.fs = fs₁) := by
  induction tries with
  | zero => exact .throw fun _ h => h
  | succ tries ih =>
    unfold mkdirTempAt
    refine .bind (keep (quiet_raw (quiet_look _ _)) (· = fs₁)) fun n => ?_
    refine .bind (mkdir_made _ _ _).attempt fun made => ?_
    cases made with
    | ok i => exact .pure fun w hw => ⟨⟨n, rfl⟩, hw⟩
    | error e =>
      cases e with
      | eexist => exact ih
      | _ => exact .throw fun _ h => h

/-- The landing directory of the class is there, and shows what it did before the call. -/
structure Prepared (c : ExportCall) (leaf : String) (fs₀ : Fs) (cls : ℕ) (fs₁ : Fs) : Prop where
  wf : fs₁.WellFormed
  next : fs₀.next ≤ fs₁.next
  kept : Unchanged fs₀ fs₁
  path : ∃ inc esi, fs₁.entry c.statePath incomingDirname = some inc ∧
    fs₁.node inc = some (.dir esi) ∧ fs₁.entry inc leaf = some cls ∧ inc ≠ cls ∧ c.statePath ≠ cls
  isDir : ∃ es, fs₁.node cls = some (.dir es)
  same : ∀ x, importAt c fs₁ x = importAt c fs₀ x

section

variable {fs₁ : Fs} {cls : ℕ} {tmpname leaf : String}

theorem temp_lt (hmade : Made fs₁ cls tmpname base) : fs₁.next < base.next := by
  rw [hmade.next_eq]
  exact Nat.lt_succ_self _

theorem Boxed.outer {fs : Fs} (h : Boxed base fs₁.next fs) (hmade : Made fs₁ cls tmpname base)
    {i : ℕ} (hi : i < fs₁.next) (hne : i ≠ cls) : fs.node i = fs₁.node i := by
  obtain ⟨m', hm, -⟩ := h
  have hlt := temp_lt hmade
  rw [hm.outer i (by omega) (by omega), hmade.node_of_ne hi hne]

theorem Boxed.parent {fs : Fs} (h : Boxed base fs₁.next fs) (hprep : Prepared c leaf fs₀ cls fs₁)
    (hmade : Made fs₁ cls tmpname base) : fs.node cls = base.node cls := by
  obtain ⟨m', hm, -⟩ := h
  have hlt := temp_lt hmade
  have hcls := hmade.lt_next hprep.wf
  exact hm.outer cls (by omega) (by omega)

theorem beside_temp (hprep : Prepared c leaf fs₀ cls fs₁) (hmade : Made fs₁ cls tmpname base)
    (hwf : fs₀.WellFormed) {es : PyDict String ℕ}
    (hpay : fs₀.node c.payloadDir = some (.dir es)) : Beside c fs₀ base fs₁.next := by
  have hlt := temp_lt hmade
  have hold := hwf.lt_next hpay
  have hle := hprep.next
  have hkept := hprep.kept.trans (hmade.unchanged hprep.wf)
  refine ⟨by omega, by omega, ?_⟩
  rintro name bytes ⟨i, hi, hnode⟩
  have hi' := hwf.lt_next hnode
  refine ⟨i, hkept.1 _ _ _ hi, ?_, by omega, by omega⟩
  rcases hkept.2 i _ hnode with hsame | ⟨es, es', heq, -⟩
  · exact hsame
  · cases heq

end

/-- What is known when the call returns. -/
def LandedWhole (c : ExportCall) (fs₀ : Fs) (r : ExportReceipt) (w : World Site) : Prop :=
  c.receiptCtx = none ∨ NamesApart c fs₀ → surfaceStuck w = false → ExportDone c fs₀ r w

theorem freeName_keeps (cls : ℕ) (tries n : ℕ) :
    Preserves (fun w : World Site => (w.fs, surfaceStuck w)) (freeName c cls tries n) := by
  have hlook : ∀ n, Preserves (fun w : World Site => (w.fs, surfaceStuck w))
      (lstatAt .lstatTarget cls (finalName c n)) := fun n =>
    Preserves.prod (fun w => congrArg Prod.fst (quiet_look _ _ w))
      ((sited_look _).preserves_any isStuckSurface fun _ _ => rfl)
  induction tries generalizing n with
  | zero => exact .throw
  | succ tries ih =>
    unfold freeName
    refine (hlook n).attempt.bind fun found => ?_
    cases found with
    | ok i => exact ih _
    | error e =>
      cases e with
      | enoent => exact .pure
      | _ => exact .throw

theorem plain_keeps {site : Site} (hsite : ∀ e b, isStuckSurface ⟨site, e, b⟩ = false) :
    Preserves (fun w : World Site => (w.fs, surfaceStuck w)) (raw (plain site)) :=
  Preserves.prod (fun w => congrArg Prod.fst (quiet_raw (quiet_look _ _) w))
    ((sited_plain _).preserves_any isStuckSurface hsite).mapError

section Landing

variable {leaf : String} (hleaf : sanitizeClassLeaf c.openClass = .ok leaf)
include hleaf

variable {fs : Fs}

theorem importAt_of_path {inc cls : ℕ} {esi es : PyDict String ℕ}
    (hinc : fs.entry c.statePath incomingDirname = some inc)
    (hesi : fs.node inc = some (.dir esi)) (hcls : fs.entry inc leaf = some cls)
    (hes : fs.node cls = some (.dir es)) (x : String) :
    importAt c fs x = es.get? x := by
  rw [importAt, hleaf]
  dsimp only
  rw [resolve_pair hinc hesi hcls hes, Option.bind_some, Fs.entry_of_node hes]

theorem importAt_of_no_incoming (hinc : fs.entry c.statePath incomingDirname = none) (x : String) :
    importAt c fs x = none := by
  rw [importAt, hleaf]
  simp [resolve, hinc]

theorem importAt_of_no_class {inc : ℕ} (hinc : fs.entry c.statePath incomingDirname = some inc)
    (hcls : fs.entry inc leaf = none) (x : String) : importAt c fs x = none := by
  rw [importAt, hleaf]
  simp only [resolve, hinc]
  split <;> simp [hcls]

theorem importAt_made_incoming {fs' : Fs} (hwf : fs.WellFormed)
    (h : Made fs c.statePath incomingDirname fs') (x : String) :
    importAt c fs' x = importAt c fs x := by
  rw [importAt_of_no_incoming hleaf h.free x]
  refine importAt_of_no_class hleaf h.entry_new ?_ x
  rw [Fs.entry_of_node (h.node_new hwf)]
  rfl

theorem importAt_made_class {fs' : Fs} {inc : ℕ} (hwf : fs.WellFormed)
    (hinc : fs.entry c.statePath incomingDirname = some inc) (h : Made fs inc leaf fs')
    (x : String) : importAt c fs' x = importAt c fs x := by
  rw [importAt_of_no_class hleaf hinc h.free x]
  obtain ⟨esi, hesi⟩ := h.isDir
  have hinc' := (h.unchanged hwf).1 _ _ _ hinc
  rw [importAt_of_path hleaf hinc' hesi h.entry_new (h.node_new hwf)]
  rfl

theorem Child.prepared {fsA fs₁ : Fs} {inc cls : ℕ} (hwf : fs₀.WellFormed) (hrank : fs₀.Ranked)
    (hinc : Child fs₀ c.statePath incomingDirname inc fsA) (hcls : Child fsA inc leaf cls fs₁) :
    Prepared c leaf fs₀ cls fs₁ := by
  have hwfA := hinc.wellFormed hwf
  obtain ⟨esA, hesA⟩ := hinc.isDir hwf
  have hentry : fs₁.entry c.statePath incomingDirname = some inc :=
    (hcls.unchanged hwfA).1 _ _ _ hinc.entry
  obtain ⟨esi, hesi⟩ := Fs.node_of_entry hcls.entry
  have hsameA : ∀ x, importAt c fsA x = importAt c fs₀ x := by
    intro x
    rcases hinc with ⟨rfl, -⟩ | ⟨-, hmade⟩
    · rfl
    · exact importAt_made_incoming hleaf hwf hmade x
  refine ⟨hcls.wellFormed hwfA, Nat.le_trans hinc.next_le hcls.next_le,
    (hinc.unchanged hwf).trans (hcls.unchanged hwfA), ⟨inc, esi, hentry, hesi, hcls.entry, ?_⟩,
    hcls.isDir hwfA, fun x => ?_⟩
  · rcases hcls with ⟨rfl, hclsEntry, es, hes⟩ | ⟨rfl, hmade⟩
    · rcases hinc with ⟨rfl, hincEntry, -⟩ | ⟨rfl, hmade⟩
      · -- both were there: a directory is not inside itself
        obtain ⟨rank, hrank⟩ := hrank
        have h1 := hrank _ _ _ _ hincEntry hesA
        have h2 := hrank _ _ _ _ hclsEntry hes
        refine ⟨?_, ?_⟩ <;> rintro rfl <;> omega
      · rw [Fs.entry_of_node (hmade.node_new hwf)] at hclsEntry
        cases hclsEntry
    · obtain ⟨ess, hess⟩ := Fs.node_of_entry hinc.entry
      have h1 := hwfA.lt_next hesA
      have h2 := hwfA.lt_next hess
      exact ⟨by omega, by omega⟩
  · rcases hcls with ⟨rfl, -⟩ | ⟨-, hmade⟩
    · exact hsameA x
    · rw [importAt_made_class hleaf hwfA hinc.entry hmade x, hsameA x]

theorem Prepared.importAt_eq {fs₁ : Fs} {cls : ℕ} {es : PyDict String ℕ}
    (h : Prepared c leaf fs₀ cls fs₁)
    (houter : ∀ i, i < fs₁.next → i ≠ cls → fs.node i = fs₁.node i)
    (hes : fs.node cls = some (.dir es)) (x : String) : importAt c fs x = es.get? x := by
  obtain ⟨inc, esi, hinc, hesi, hcls, hne, hroot⟩ := h.path
  obtain ⟨ess, hess⟩ := Fs.node_of_entry hinc
  have hinc' : fs.node inc = fs₁.node inc := houter inc (h.wf.lt_next hesi) hne
  have hroot' : fs.node c.statePath = fs₁.node c.statePath :=
    houter c.statePath (h.wf.lt_next hess) hroot
  refine importAt_of_path hleaf ?_ (hinc'.trans hesi) ?_ hes x
  · rw [Fs.entry_congr hroot', hinc]
  · rw [Fs.entry_congr hinc', hcls]

section Temp

variable {fs₁ : Fs} {cls : ℕ} {tmpname : String} (hprep : Prepared c leaf fs₀ cls fs₁)
  (hmade : Made fs₁ cls tmpname base)
include hprep hmade

theorem Boxed.importAt_eq {fs : Fs} (h : Boxed base fs₁.next fs) (x : String) :
    importAt c fs x = if x = tmpname then some fs₁.next else importAt c fs₀ x := by
  obtain ⟨es', hes'⟩ := hmade.isDir
  obtain ⟨es, hes⟩ := hprep.isDir
  rw [hprep.importAt_eq hleaf (fun i hi hne => h.outer hmade hi hne)
    ((h.parent hprep hmade).trans hes'), ← Fs.entry_of_node hes']
  split
  · next hx => rw [hx, hmade.entry_new]
  · next hx =>
    rw [hmade.entry_of_ne hx, ← hprep.same, hprep.importAt_eq hleaf (fun _ _ _ => rfl) hes,
      Fs.entry_of_node hes]

theorem rmdirTemp_spec (htemp : ∃ n, tmpname = importTemp c.token8 n)
    {E : Failure → World Site → Prop} :
    Triple (Emptied base fs₁.next []) (bestEffort (rmdirAt .rmdirTemp cls tmpname))
      (fun _ w => ExportRefused c fs₀ w) E := by
  obtain ⟨n, hn⟩ := htemp
  refine .tryCatch (E := fun _ w => ExportRefused c fs₀ w) (.mapError ?_) fun _ =>
    Triple.pure fun _ h => h
  refine rmdirAt_rule ?_ ?_
  · intro w w' e hw hfs hf _ x
    have hshow := hw.1.importAt_eq hleaf hprep hmade x
    rw [← hfs] at hshow
    by_cases hx : x = tmpname
    · rw [if_pos hx] at hshow
      refine .inr ⟨n, fs₁.next, hx.trans hn, hshow, ?_⟩
      rcases hw.2 with hlist | hunlink | hempty
      · exact .inl (failedAt_cons hlist hf)
      · exact .inr (.inl (failedAt_cons hunlink hf))
      · refine .inr (.inr ⟨⟨_, by rw [hf]; exact List.mem_cons_self .., rfl⟩, fun y => ?_⟩)
        rw [hfs]
        exact hempty y (by simp)
    · rw [if_neg hx] at hshow
      exact .inl hshow
  · intro w w' es i hw hes _ hfs _ _ x
    left
    have hshow := hw.1.importAt_eq hleaf hprep hmade
    have hclsDir : w'.fs.node cls = some (.dir (es.erase tmpname)) := by
      rw [hfs, Fs.node_set_self]
    have houter : ∀ j, j < fs₁.next → j ≠ cls → w'.fs.node j = fs₁.node j := by
      intro j hj hne
      rw [hfs, Fs.node_set_of_ne hne, hw.1.outer hmade hj hne]
    rw [hprep.importAt_eq hleaf houter hclsDir x]
    by_cases hx : x = tmpname
    · -- the temporary name was free
      obtain ⟨es₁, hes₁⟩ := hprep.isDir
      have hfree := hmade.free
      rw [Fs.entry_of_node hes₁] at hfree
      rw [hx, PyDict.get?_erase_self, ← hprep.same,
        hprep.importAt_eq hleaf (fun _ _ _ => rfl) hes₁, hfree]
    · have hx' := hshow x
      rw [if_neg hx, hprep.importAt_eq hleaf
        (fun j hj hne => hw.1.outer hmade hj hne) hes] at hx'
      rw [PyDict.get?_erase_of_ne _ hx, hx']

theorem cleanupTempAt_spec (htemp : ∃ n, tmpname = importTemp c.token8 n)
    {E : Failure → World Site → Prop} :
    Triple (fun w => Boxed base fs₁.next w.fs) (cleanupTempAt cls (some fs₁.next) tmpname)
      (fun _ w => ExportRefused c fs₀ w) E := by
  unfold cleanupTempAt
  have hlist : Triple (fun w => Boxed base fs₁.next w.fs) (listDir Site.listTemp fs₁.next)
      (fun names w => Emptied base fs₁.next names w)
      (fun _ w => Emptied base fs₁.next [] w) := by
    refine look_rule ?_ ?_
    · intro w w' e hw hfs hf _
      exact ⟨hfs ▸ hw, .inl ⟨_, by rw [hf]; exact List.mem_cons_self .., rfl⟩⟩
    · intro w w' n names hw hlook hfs _ _
      refine ⟨hfs ▸ hw, .inr (.inr fun x hx => ?_)⟩
      split at hlook
      · next es hes =>
        obtain rfl := Except.ok.inj hlook
        rw [hfs, Fs.entry_of_node hes]
        cases hget : es.get? x with
        | none => rfl
        | some j => exact absurd (List.mem_map_of_mem ((PyDict.get?_eq_some_iff _ _ _).1 hget)) hx
      · cases hlook
  refine .bind hlist.attempt fun names => ?_
  cases names with
  | ok names =>
    exact .bind (unlinkEach_spec (temp_lt hmade) names) fun _ =>
      rmdirTemp_spec hleaf hprep hmade htemp
  | error _ => exact rmdirTemp_spec hleaf hprep hmade htemp

theorem exportDone_of_renamed {validated : List (String × ℕ)} (hval : Validated c fs₀ validated)
    {fs : Fs} (hnear : Near base fs₁.next (whole c fs₀ validated) (SurfaceName c fs₀) fs)
    {es : PyDict String ℕ} {w : World Site} {dest : String} {surfaces : Bool}
    (hw : w.fs = fs.set cls (.dir (es.insert dest fs₁.next))) :
    ExportDone c fs₀ ⟨validated.map (receiptEntry c fs₀), dest, surfaces⟩ w := by
  have hbox := Boxed.of_near hnear
  obtain ⟨m', hm, hsame⟩ := hnear
  have hlt := temp_lt hmade
  have hcls := hmade.lt_next hprep.wf
  have hclsDir : w.fs.node cls = some (.dir (es.insert dest fs₁.next)) := by
    rw [hw, Fs.node_set_self]
  have hentry : ∀ x, w.fs.entry fs₁.next x = fs.entry fs₁.next x := by
    intro x
    rw [hw]
    exact Fs.entry_congr (Fs.node_set_of_ne (by omega) _) x
  -- what the map says is in the directory under its final name
  have hheld : ∀ x bytes, m' x = some bytes → FileAt w.fs fs₁.next x bytes := by
    intro x bytes hx
    obtain ⟨i, hi, hnode, hlow, -⟩ := hm.held x bytes hx
    refine ⟨i, by rw [hentry, hi], ?_⟩
    rw [hw, Fs.node_set_of_ne (by omega), hnode]
  have hsafe : ∀ x bytes, FileAt fs₀ c.payloadDir x bytes → sanitizeFilename x = true := by
    rintro x bytes ⟨i, hi, -⟩
    exact (hval.ok.entries x i hi).1
  refine ⟨hval.ok, fun f => ?_, ?_, fs₁.next, ?_, ?_, ?_, ?_⟩
  · constructor
    · intro hf
      obtain ⟨e, he, rfl⟩ := List.mem_map.1 hf
      obtain ⟨bytes, hfile⟩ := (hval.mem e.1).1 (List.mem_map_of_mem he)
      exact ⟨bytes, hfile, by simp only [receiptEntry, hfile.payloadBytes_eq]⟩
    · rintro ⟨bytes, hfile, hf⟩
      obtain ⟨e, he, hname⟩ := List.mem_map.1 ((hval.mem f.1).2 ⟨bytes, hfile⟩)
      refine List.mem_map.2 ⟨e, he, ?_⟩
      rw [receiptEntry, hname, hfile.payloadBytes_eq, ← hf]
  · have hnames : (validated.map (receiptEntry c fs₀)).map Prod.fst = validated.map Prod.fst := by
      rw [List.map_map]
      rfl
    show ((validated.map (receiptEntry c fs₀)).map Prod.fst).Nodup
    rw [hnames]
    exact hval.nodup
  · have houter : ∀ i, i < fs₁.next → i ≠ cls → w.fs.node i = fs₁.node i := by
      intro i hi hne
      rw [hw, Fs.node_set_of_ne hne, hbox.outer hmade hi hne]
    show importAt c w.fs dest = some fs₁.next
    rw [hprep.importAt_eq hleaf houter hclsDir, PyDict.get?_insert_self]
  · intro x bytes hfile
    refine hheld x bytes ?_
    rw [hsame x (not_surfaceName_of_safe (hsafe x bytes hfile)), whole,
      Function.update_of_ne (ne_receiptName_of_safe (hsafe x bytes hfile)), copied,
      if_pos ((hval.mem x).2 ⟨bytes, hfile⟩), hfile.payloadBytes_eq]
  · refine hheld receiptName _ ?_
    rw [hsame receiptName not_surfaceName_receiptName, whole, Function.update_self]
  · intro x i hi
    rw [hentry] at hi
    obtain ⟨bytes, hx, -⟩ := hm.of_entry hi
    by_cases hsurface : SurfaceName c fs₀ x
    · exact .inr (.inr hsurface)
    · rw [hsame x hsurface, whole] at hx
      by_cases hreceipt : x = receiptName
      · exact .inr (.inl hreceipt)
      · rw [Function.update_of_ne hreceipt, copied] at hx
        split at hx
        · next hmem => exact .inl ((hval.mem x).1 hmem)
        · cases hx

theorem placeAt_spec {validated : List (String × ℕ)} (hval : Validated c fs₀ validated)
    (surfaces : Bool) :
    Triple (fun w => Ready c fs₀ base fs₁.next validated (w.fs, surfaceStuck w))
      (placeAt c cls tmpname)
      (fun dest w => LandedWhole c fs₀ ⟨validated.map (receiptEntry c fs₀), dest, surfaces⟩ w)
      (fun _ w => Boxed base fs₁.next w.fs) := by
  unfold placeAt
  refine .bind (((freeName_keeps cls 1000 0).triple
    (Ready c fs₀ base fs₁.next validated)).conseq (fun _ h => h) (fun _ _ h => h)
    fun _ _ h => h.1) fun target => ?_
  refine .bind (.mapError (renameAt_rule (Q := fun _ w =>
    LandedWhole c fs₀ ⟨validated.map (receiptEntry c fs₀), target, surfaces⟩ w)
    (fun w w' e hw hfs _ _ => hfs ▸ hw.1) ?_)) fun _ => .pure fun _ h => h
  intro w w' es i hw hes hsrc hfs hf _ hapart hstuck
  have hi : i = fs₁.next := by
    have hentry : w.fs.entry cls tmpname = some fs₁.next := by
      rw [Fs.entry_congr (hw.1.parent hprep hmade), hmade.entry_new]
    rw [Fs.entry_of_node hes, hsrc] at hentry
    exact Option.some.inj hentry
  subst hi
  have hstuck' : surfaceStuck w = false := by
    rw [surfaceStuck, hf] at hstuck
    exact hstuck
  exact exportDone_of_renamed hleaf hprep hmade hval (hw.2 hapart hstuck') hfs

theorem fillAndPlace_spec (hwf : fs₀.WellFormed) {validated : List (String × ℕ)}
    (hval : Validated c fs₀ validated) :
    Triple (fun w => Staged base fs₁.next (fun _ => none) w.fs)
      (fillAndPlace c cls fs₁.next tmpname validated) (fun r w => LandedWhole c fs₀ r w)
      (fun e w => e.isOs = true ∨ Boxed base fs₁.next w.fs) := by
  have ht := temp_lt hmade
  obtain ⟨es, hpay, -⟩ := hval.ok.total
  have hbeside := beside_temp hprep hmade hwf hpay
  have hfiles : ∀ e ∈ validated, ∃ bytes, FileAt fs₀ c.payloadDir e.1 bytes :=
    fun e he => (hval.mem e.1).1 (List.mem_map_of_mem he)
  have hbox : ∀ {α : Type} {P : World Site → Prop} {x : Export α} {Q : α → World Site → Prop},
      Triple P x Q (fun _ w => Boxed base fs₁.next w.fs) →
      Triple P x Q (fun e w => e.isOs = true ∨ Boxed base fs₁.next w.fs) :=
    fun h => h.conseq (fun _ hw => hw) (fun _ _ hw => hw) fun _ _ hw => .inr hw
  unfold fillAndPlace
  refine .bind (hbox ((keep (quiet_maybeFchown _) (Staged base fs₁.next _)).conseq
    (fun _ h => h) (fun _ _ h => h) fun _ _ h => Boxed.of_staged h)) fun _ => ?_
  refine .bind (hbox (copyFiles_spec ht hbeside hfiles)) fun files => ?_
  refine .of_forall ?_
  rintro w ⟨rfl, hw⟩
  refine .bind (hbox ((writeReceiptAt_spec ht _).weaken fun w' h => h ▸ hw)) fun _ => ?_
  refine .bind (exportSurfaces_spec ht hval) fun surfaces => ?_
  refine .bind (hbox (((plain_keeps fun _ _ => rfl).triple
    (Ready c fs₀ base fs₁.next validated)).conseq (fun _ h => h) (fun _ _ h => h)
    fun _ _ h => h.1)) fun _ => ?_
  refine .bind (hbox (placeAt_spec hleaf hprep hmade hval surfaces)) fun dest => ?_
  -- a fault of the last `fsync` is not translated
  refine .bind (Q := fun _ w => LandedWhole c fs₀ ⟨_, dest, surfaces⟩ w) ?_ fun _ =>
    Triple.pure fun _ h => h
  refine .mapError (look_rule (fun w w' e hw hfs _ _ => .inl rfl) ?_)
  intro w w' n _ hw _ hfs hf _ hapart hstuck
  have hstuck' : surfaceStuck w = false := by
    rw [surfaceStuck, hf] at hstuck
    exact hstuck
  obtain ⟨hok, hlisted, honce, hlanded⟩ := hw hapart hstuck'
  refine ⟨hok, hlisted, honce, ?_⟩
  rw [hfs]
  exact hlanded

theorem landIn_spec (hwf : fs₀.WellFormed) (htemp : ∃ n, tmpname = importTemp c.token8 n)
    {validated : List (String × ℕ)} (hval : Validated c fs₀ validated) :
    Triple (fun w => w.fs = base) (landIn c cls tmpname validated) (fun r w => LandedWhole c fs₀ r w)
      (fun e w => e.isOs = true ∨ ExportRefused c fs₀ w) := by
  have hstaged : Staged base fs₁.next (fun _ => none) base := Staged.init (hmade.node_new hprep.wf)
  unfold landIn
  refine .bind openDirAt_spec.attempt fun opened => ?_
  cases opened with
  | error _ =>
    refine .bind (Q := fun _ w => ExportRefused c fs₀ w) ?_ fun _ =>
      Triple.throw fun _ h => .inr h
    refine (rmdirTemp_spec hleaf hprep hmade htemp).weaken fun w (hw : w.fs = base) => ?_
    rw [Emptied, hw]
    exact ⟨Boxed.of_staged hstaged, .inr (.inr fun x _ => hstaged.gone x rfl)⟩
  | ok tmp =>
    refine .of_forall ?_
    rintro w ⟨hw, hentry, -⟩
    rw [hmade.entry_new] at hentry
    obtain rfl := Option.some.inj hentry
    refine .tryCatch ((fillAndPlace_spec hleaf hprep hmade hwf hval).weaken
      fun w' h => ?_) fun e => ?_
    · subst h
      rw [hw]
      exact hstaged
    · cases he : e.isOs with
      | true =>
        refine .of_forall fun w _ => .bind ((cleanupTempAt_rule cls (some fs₁.next)
          tmpname (v := untranslated w)).weaken fun w' h => by rw [h]) fun _ => ?_
        exact .throw fun _ _ => .inl he
      | false =>
        refine .bind (Q := fun _ w => ExportRefused c fs₀ w) ?_ fun _ =>
          Triple.throw fun _ h => .inr h
        refine (cleanupTempAt_spec hleaf hprep hmade htemp).weaken fun w hw => ?_
        exact hw.resolve_left (by simp)

end Temp

theorem landUnder_spec (hwf : fs₀.WellFormed) (hrank : fs₀.Ranked) :
    Triple (fun w => w.fs = fs₀) (landUnder c leaf) (fun r w => LandedWhole c fs₀ r w)
      (fun e w => e.isOs = true ∨ ExportRefused c fs₀ w) := by
  have hsame : ∀ {w : World Site}, w.fs = fs₀ → ExportRefused c fs₀ w := by
    intro w hw x
    exact .inl (by rw [hw])
  have hquiet : ∀ {x : Export Unit}, Quiet x → Triple (fun w => w.fs = fs₀) x
      (fun _ w => w.fs = fs₀) (fun e w => e.isOs = true ∨ ExportRefused c fs₀ w) := by
    intro x hx
    exact (keep hx (· = fs₀)).conseq (fun _ h => h) (fun _ _ h => h) fun _ _ h => .inr (hsame h)
  unfold landUnder
  refine .bind (hquiet (quiet_wrapped (quiet_look _ _))) fun _ => ?_
  refine .bind (hquiet (quiet_raw (quiet_look _ _))) fun _ => ?_
  refine .bind (scanPayload_spec.conseq (fun _ h => h) (fun _ _ h => h)
    fun _ _ h => .inr (hsame h)) fun validated => ?_
  refine .of_forall ?_
  rintro w ⟨hw, hval⟩
  refine .bind ((hquiet (quiet_wrapped (quiet_look _ _))).weaken fun w' h => h ▸ hw)
    fun _ => ?_
  refine .bind ((childDirAt_spec c.chown).conseq (fun _ h => h) (fun _ _ h => h) ?_)
    fun inc => ?_
  · rintro e w (hw | hmade)
    · exact .inr (hsame hw)
    · exact .inr fun x => .inl (importAt_made_incoming hleaf hwf hmade x)
  refine .of_forall fun wA hinc => ?_
  have hwfA := hinc.wellFormed hwf
  have hsameA : ∀ x, importAt c wA.fs x = importAt c fs₀ x := by
    intro x
    rcases hinc with ⟨hfs, -⟩ | ⟨-, hmade⟩
    · rw [hfs]
    · exact importAt_made_incoming hleaf hwf hmade x
  refine .bind ((childDirAt_spec c.chown).conseq (fun w' (h : w' = wA) =>
    congrArg World.fs h) (fun _ _ h => h) ?_) fun cls => ?_
  · rintro e w (hw | hmade)
    · exact .inr fun x => .inl (by rw [hw, hsameA])
    · refine .inr fun x => .inl ?_
      rw [importAt_made_class hleaf hwfA hinc.entry hmade x, hsameA]
  refine .of_forall fun w₁ hcls => ?_
  have hprep := Child.prepared hleaf hwf hrank hinc hcls
  refine .bind ((mkdirTempAt_spec 100).conseq (fun w' (h : w' = w₁) =>
    congrArg World.fs h) (fun _ _ h => h) fun e w hw => ?_) fun tmpname => ?_
  · exact .inr fun x => .inl (by rw [hw, hprep.same])
  · refine .of_forall ?_
    rintro w ⟨htemp, hmade⟩
    exact (landIn_spec hleaf hprep hmade hwf htemp hval).weaken fun w' h => congrArg World.fs h

end Landing

theorem isOs_eq_false {e : Failure} : e.isOs = false ↔ e = .policy ∨ e = .state := by
  cases e <;> simp [Failure.isOs]

/-- The export of a report with its surfaces. -/
def reportExport : ExportCall where
  payloadDir := 3
  statePath := 0
  token8 := "0a1b2c3d"
  timestamp := "20260101-000000"
  openClass := "viewer"
  caps := {}
  chown := false
  pid := 7
  sha256 := fun bytes => bytes.length.repr
  receiptBytes := fun _ => [123, 125]
  receiptCtx := some (fun _ _ => some [91, 93], fun _ => some [91, 93])

/-- A silo without imports of the class, and a payload with the report. -/
def reportFs : Fs :=
  .ofList [.dir ⟨[("Incoming", 1)], by decide⟩, .dir ⟨[("viewer", 2)], by decide⟩, .dir ∅,
    .dir ⟨[("report.pdf", 4)], by decide⟩, .file [1, 2, 3]]

/-- A call that succeeds. -/
def succeeds : Choice := {}

/-- The export from the temporary directory on. -/
def reportLanding (rest : List Choice) : Except Failure ExportReceipt × World Site :=
  (mkdirTempAt 2 "0a1b2c3d" 100 >>= fun tmpname =>
    landIn reportExport 2 tmpname [("report.pdf", 3)] : Export ExportReceipt)
    ⟨reportFs, rest, [⟨.mkdirChild, .eexist, false⟩, ⟨.mkdirChild, .eexist, false⟩], []⟩

theorem reportExport_eq (rest : List Choice) :
    promoteExport reportExport ⟨reportFs, List.replicate 11 succeeds ++ rest, [], []⟩ =
      reportLanding rest := by
  have hleaf : sanitizeClassLeaf reportExport.openClass = .ok "viewer" := by decide +kernel
  rw [promoteExport, hleaf]
  show landUnder reportExport "viewer" _ = _
  unfold landUnder
  refine (Act.bind_eq_of_ok (a := ())
    (t := ⟨reportFs, List.replicate 10 succeeds ++ rest, [], []⟩) ?_).trans ?_
  · rfl
  refine (Act.bind_eq_of_ok (a := ())
    (t := ⟨reportFs, List.replicate 9 succeeds ++ rest, [], []⟩) ?_).trans ?_
  · rfl
  refine (Act.bind_eq_of_ok (a := [("report.pdf", 3)])
    (t := ⟨reportFs, List.replicate 7 succeeds ++ rest, [], []⟩) ?_).trans ?_
  · rfl
  refine (Act.bind_eq_of_ok (a := ())
    (t := ⟨reportFs, List.replicate 6 succeeds ++ rest, [], []⟩) ?_).trans ?_
  · rfl
  refine (Act.bind_eq_of_ok (a := 1) (t := ⟨reportFs, List.replicate 3 succeeds ++ rest,
    [⟨.mkdirChild, .eexist, false⟩], []⟩) ?_).trans ?_
  · rfl
  refine (Act.bind_eq_of_ok (a := 2) (t := ⟨reportFs, rest,
    [⟨.mkdirChild, .eexist, false⟩, ⟨.mkdirChild, .eexist, false⟩], []⟩) ?_).trans ?_
  · rfl
  rfl

theorem reportFs_wellFormed : reportFs.WellFormed := Fs.ofList_wellFormed (by decide)

theorem reportFs_ranked : reportFs.Ranked := by
  refine Fs.ofList_ranked ?_
  intro d hd es hes e he
  have hlt : d < 5 := hd
  obtain rfl | rfl | rfl | rfl | rfl : d = 0 ∨ d = 1 ∨ d = 2 ∨ d = 3 ∨ d = 4 := by omega
  · cases hes
    obtain rfl := List.mem_singleton.1 he
    decide
  · cases hes
    obtain rfl := List.mem_singleton.1 he
    decide
  · cases hes
    cases he
  · cases hes
    obtain rfl := List.mem_singleton.1 he
    decide
  · cases hes

theorem reportFs_file {p : String} {bytes : List UInt8} (h : FileAt reportFs 3 p bytes) :
    p = "report.pdf" := by
  obtain ⟨i, hi, -⟩ := h
  have hmem := (PyDict.get?_eq_some_iff _ _ _).1 hi
  exact congrArg Prod.fst (List.mem_singleton.1 hmem)

theorem reportFs_namesApart : NamesApart reportExport reportFs := by
  intro p bytes hp
  obtain rfl := reportFs_file hp
  refine ⟨by decide +kernel, fun q bytes' hq => ?_⟩
  obtain rfl := reportFs_file hq
  decide +kernel

theorem allOrNothing_of_conditions {fs : Fs} {r : Except Failure ExportReceipt × World Site}
    (hfs : fs.WellFormed ∧ fs.Ranked)
    (h : (untranslated r.2 = true → ¬AllOrNothing c fs r) ∧ (untranslated r.2 = false →
      c.receiptCtx = none ∨ NamesApart c fs → surfaceStuck r.2 = false → AllOrNothing c fs r))
    (hraw : untranslated r.2 = false) (hnames : NamesApart c fs)
    (hstuck : surfaceStuck r.2 = false) :
    (fs.WellFormed ∧ fs.Ranked) ∧ AllOrNothing c fs r :=
  ⟨hfs, h.2 hraw (.inr hnames) hstuck⟩

theorem reportLanding_faultless :
    untranslated (reportLanding []).2 = false ∧ surfaceStuck (reportLanding []).2 = false := by
  decide +kernel

/-- The last call fails: the `fsync` of the class directory, after the rename. -/
def lastFsyncFails : List Choice :=
  List.replicate 11 succeeds ++ (List.replicate 33 succeeds ++ [{ fault := some .eio }])

theorem allOrNothing_error {fs : Fs} {e : Failure} {r : Except Failure ExportReceipt × World Site}
    (he : r.1 = .error e) (h : AllOrNothing c fs r) :
    e = .policy ∨ e = .state := by
  obtain ⟨res, w⟩ := r
  obtain rfl : res = .error e := he
  exact h.1

end DispExport
