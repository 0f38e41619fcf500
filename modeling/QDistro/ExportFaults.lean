/-
# Faults of an export

Which failed calls leave `promote_export` as an `OSError`.  A fault is *untranslated* when its call
stands outside every handler; the export raises an `OSError` exactly if there was such a fault.  The
lineage surfaces are built inside a handler for everything, and the clean-up swallows its errors, so
that none of their calls counts.
-/
import QDistro.ExportPromoter

namespace DispExport

open EffectRules InodeFs

/-- No handler translates the fault. -/
def isUntranslated (f : Fault Site) : Bool :=
  match f.site with
  | .fstatPayload | .randomName | .fstatChild | .fstatSource | .createDest | .readSource
  | .writeDest | .fsyncDest | .closeDest | .closeSource | .writeReceipt | .fsyncReceipt
  | .closeReceipt | .fsyncTemp | .fsyncClass => true
  -- `except FileNotFoundError` is the only handler of `_place_at`'s `lstat`
  | .lstatTarget => f.error ≠ .enoent
  | _ => false

/-- There was an untranslated fault. -/
def untranslated (w : World Site) : Bool := w.failed.any isUntranslated

def Failure.isOs : Failure → Bool
  | .os _ => true
  | _ => false

/-- From a state without untranslated faults, the computation raises an `OSError` exactly if there
is one afterwards. -/
def Faithful {α : Type} (x : Export α) : Prop :=
  Triple (fun w => untranslated w = false) x (fun _ w => untranslated w = false)
    (fun e w => untranslated w = e.isOs)

/-! ## Single calls -/

variable {α β : Type} {site : Site}

/-- The computation fails at most once, at a place, and reports it. -/
def Sited (site : Site) (x : Sys Site α) : Prop :=
  ∀ w, Ends (fun _ w' => w'.failed = w.failed)
    (fun e w' => ∃ b, w'.failed = ⟨site, e, b⟩ :: w.failed) (x w)

theorem sited_call (stuck : Fs → List Effect)
    (effect : ℕ → Fs → Except Errno (α × Fs × List Effect)) : Sited site (call site stuck effect) := by
  intro w
  unfold call
  dsimp only
  split
  · exact ⟨_, rfl⟩
  · split
    · exact ⟨_, rfl⟩
    · exact rfl

theorem sited_look (effect : ℕ → Fs → Except Errno α) : Sited site (look site effect) :=
  sited_call _ _

theorem sited_plain (site : Site) : Sited site (plain site) := sited_look _

theorem untranslated_of_cons {w w' : World Site} {f : Fault Site} (h : w'.failed = f :: w.failed) :
    untranslated w' = (isUntranslated f || untranslated w) := by
  rw [untranslated, h, List.any_cons]
  rfl

theorem untranslated_congr {w w' : World Site} (h : w'.failed = w.failed) :
    untranslated w' = untranslated w := by
  rw [untranslated, h, untranslated]

namespace Sited

variable {x : Sys Site α}

section

variable (h : Sited site x)
include h

theorem preserves_any (p : Fault Site → Bool) (hsite : ∀ e b, p ⟨site, e, b⟩ = false)
    : Preserves (fun w => w.failed.any p) x := by
  intro w
  have hend := h w
  rcases hres : x w with ⟨r, w'⟩
  rw [hres] at hend
  cases r with
  | ok a =>
    show w'.failed.any p = w.failed.any p
    rw [show w'.failed = w.failed from hend]
  | error e =>
    obtain ⟨b, hb⟩ := hend
    show w'.failed.any p = w.failed.any p
    rw [hb, List.any_cons, hsite e b, Bool.false_or]

theorem preserves (hsite : ∀ e b, isUntranslated ⟨site, e, b⟩ = false) :
    Preserves untranslated x :=
  h.preserves_any isUntranslated hsite

theorem triple :
    Triple (fun w => untranslated w = false) x (fun _ w => untranslated w = false)
      (fun e w => ∃ b, untranslated w = isUntranslated ⟨site, e, b⟩) := by
  intro w hw
  have hend := h w
  rcases hres : x w with ⟨r, w'⟩
  rw [hres] at hend
  cases r with
  | ok a => exact (untranslated_congr hend).trans hw
  | error e =>
    obtain ⟨b, hb⟩ := hend
    refine ⟨b, ?_⟩
    rw [untranslated_of_cons hb, hw, Bool.or_false]

theorem mapError {f : Errno → Failure} (hf : ∀ e b, isUntranslated ⟨site, e, b⟩ = (f e).isOs)
    : Faithful (x.mapError f) := by
  refine .mapError (h.triple.conseq (fun _ hw => hw) (fun _ _ hw => hw) ?_)
  rintro e w ⟨b, hb⟩
  rw [hb, hf e b]

theorem wrapped (hsite : ∀ e b, isUntranslated ⟨site, e, b⟩ = false) :
    Faithful (DispExport.wrapped x) :=
  h.mapError hsite

theorem raw (hsite : ∀ e b, isUntranslated ⟨site, e, b⟩ = true) :
    Faithful (DispExport.raw x) :=
  h.mapError hsite

end

theorem bestEffort {x : Sys Site Unit} (h : Sited site x)
    (hsite : ∀ e b, isUntranslated ⟨site, e, b⟩ = false) :
    Preserves untranslated (DispExport.bestEffort x) :=
  (h.preserves hsite).mapError.tryCatch fun _ => .pure

theorem bestEffort_rule {x : Sys Site Unit} (h : Sited site x)
    (hsite : ∀ e b, isUntranslated ⟨site, e, b⟩ = false) {v : Bool}
    {E : Failure → World Site → Prop} :
    Triple (fun w => untranslated w = v) (DispExport.bestEffort x) (fun _ w => untranslated w = v)
      E :=
  Triple.tryCatch ((h.preserves hsite).mapError.triple (· = v)) fun _ => .pure fun _ hw => hw

end Sited

/-! ## Computations -/

namespace Faithful

theorem pure {a : α} : Faithful (Pure.pure a : Export α) := Triple.pure fun _ h => h

theorem bind {x : Export α} {f : α → Export β} (hx : Faithful x) (hf : ∀ a, Faithful (f a)) :
    Faithful (x >>= f) :=
  Triple.bind hx hf

theorem throw {e : Failure} (he : e.isOs = false) : Faithful (MonadExcept.throw e : Export α) :=
  Triple.throw fun w hw => by rw [he]; exact hw

theorem ite {c : Prop} [Decidable c] {x y : Export α} (hx : Faithful x) (hy : Faithful y) :
    Faithful (if c then x else y) :=
  Triple.ite (fun _ => hx) fun _ => hy

theorem ensuring {x : Export α} (hx : Faithful x) (hsite : ∀ e b, isUntranslated ⟨site, e, b⟩ = true) :
    Faithful (x.ensuring (DispExport.raw (plain site))) := by
  refine Triple.ensuring hx (fun a => (sited_plain site).raw hsite) fun e => ?_
  refine Triple.mapError ?_
  intro w hw
  have hend := sited_plain site w
  rcases hres : plain site w with ⟨r, w'⟩
  rw [hres] at hend
  cases r with
  | ok a => exact (untranslated_congr hend).trans hw
  | error e' =>
    obtain ⟨b, hb⟩ := hend
    show untranslated w' = true
    rw [untranslated_of_cons hb, hsite e' b, Bool.true_or]

theorem foldlM {γ : Type} {f : β → γ → Export β} (hf : ∀ b x, Faithful (f b x)) (l : List γ)
    (b : β) : Faithful (l.foldlM f b) := by
  induction l generalizing b with
  | nil => exact pure
  | cons x l ih =>
    rw [List.foldlM_cons]
    exact bind (hf b x) fun b' => ih b'

end Faithful

/-! ## The parts of the export -/

theorem preserves_maybeFchown (chown : Bool) : Preserves untranslated (maybeFchown chown) :=
  ((sited_plain _).bestEffort fun _ _ => rfl).ite Preserves.pure

theorem faithful_maybeFchown (chown : Bool) : Faithful (maybeFchown chown) := by
  unfold maybeFchown
  exact .ite ((sited_plain _).bestEffort_rule fun _ _ => rfl) Faithful.pure

theorem faithful_scanPayload (caps : ExportCaps) (pdir : ℕ) : Faithful (scanPayload caps pdir) := by
  unfold scanPayload
  refine ((sited_look _).wrapped fun _ _ => rfl).bind fun names => ?_
  refine (Faithful.foldlM (fun acc name => ?_) _ _).bind fun acc => Faithful.pure
  unfold scanEntry
  refine (Faithful.throw rfl).ite ((Faithful.throw rfl).ite ?_)
  refine ((sited_look _).wrapped fun _ _ => rfl).bind fun n => ?_
  cases n with
  | file bytes => exact (Faithful.throw rfl).ite ((Faithful.throw rfl).ite Faithful.pure)
  | _ => exact Faithful.throw rfl

theorem faithful_openChild (chown : Bool) (parent : ℕ) (name : String) (created : Bool) :
    Faithful (childDirAt.openChild chown parent name created) := by
  unfold childDirAt.openChild
  refine ((sited_look _).mapError fun e b => ?_).bind fun fd => ?_
  · split <;> rfl
  · refine ((sited_plain _).raw fun _ _ => rfl).bind fun _ => ?_
    cases created with
    | true => exact (faithful_maybeFchown chown).bind fun _ => .pure
    | false => exact .pure

theorem faithful_childDirAt (chown : Bool) (parent : ℕ) (name : String) :
    Faithful (childDirAt chown parent name) := by
  unfold childDirAt
  have hmade : Preserves untranslated (addAt .mkdirChild parent name (.dir ∅)) :=
    (sited_call _ _).preserves fun _ _ => rfl
  refine Triple.bind ((hmade.triple (· = false)).attempt) fun made => ?_
  cases made with
  | ok i => exact faithful_openChild chown parent name true
  | error e =>
    cases e with
    | eexist => exact faithful_openChild chown parent name false
    | _ => exact Faithful.throw rfl

theorem faithful_mkdirTempAt (parent : ℕ) (token8 : String) (tries : ℕ) :
    Faithful (mkdirTempAt parent token8 tries) := by
  induction tries with
  | zero => exact Faithful.throw rfl
  | succ tries ih =>
    unfold mkdirTempAt
    refine ((sited_look _).raw fun _ _ => rfl).bind fun n => ?_
    have hmade : Preserves untranslated (addAt .mkdirTemp parent (importTemp token8 n) (.dir ∅)) :=
      (sited_call _ _).preserves fun _ _ => rfl
    refine Triple.bind ((hmade.triple (· = false)).attempt) fun made => ?_
    cases made with
    | ok i => exact Faithful.pure
    | error e =>
      cases e with
      | eexist => exact ih
      | _ => exact Faithful.throw rfl

theorem faithful_writeAll (hsite : ∀ e b, isUntranslated ⟨site, e, b⟩ = true) (dfd fuel : ℕ)
    (data : List UInt8) : Faithful (writeAll site dfd fuel data) := by
  induction fuel generalizing data with
  | zero => exact .pure
  | succ fuel ih =>
    unfold writeAll
    exact Faithful.pure.ite (((sited_call _ _).raw hsite).bind fun k => ih _)

theorem faithful_streamFrom (sfd dfd maxBytes fuel offset : ℕ) :
    Faithful (streamFrom sfd dfd maxBytes fuel offset) := by
  induction fuel generalizing offset with
  | zero => exact Faithful.pure
  | succ fuel ih =>
    unfold streamFrom
    refine ((sited_look _).raw fun _ _ => rfl).bind fun chunk => ?_
    refine Faithful.pure.ite ((Faithful.throw rfl).ite ?_)
    refine (faithful_writeAll (fun _ _ => rfl) _ _ _).bind fun _ => ?_
    exact (ih _).bind fun rest => Faithful.pure

theorem faithful_copyOne (c : ExportCall) (tmp : ℕ) (name : String) (size : ℕ) :
    Faithful (copyOne c tmp name size) := by
  unfold copyOne
  refine ((sited_look _).mapError fun e b => ?_).bind fun sfd => .ensuring ?_ fun _ _ => rfl
  · split <;> rfl
  · refine ((sited_look _).raw fun _ _ => rfl).bind fun n => ?_
    cases n with
    | file bytes =>
      refine ((sited_call _ _).raw fun _ _ => rfl).bind fun dfd => ?_
      refine .ensuring ((faithful_maybeFchown _).bind fun _ => ?_) fun _ _ => rfl
      unfold streamToFd
      refine .get_bind fun w hw => ?_
      refine .weaken ?_ fun w' (h : w' = w) => show untranslated w' = false from h ▸ hw
      refine .bind (faithful_streamFrom _ _ _ _ _) fun bytes => ?_
      exact ((sited_plain _).raw fun _ _ => rfl).bind fun _ => .pure
    | _ => exact .throw rfl

theorem faithful_writeReceiptAt (chown : Bool) (tmp : ℕ) (data : List UInt8) :
    Faithful (writeReceiptAt chown tmp data) := by
  unfold writeReceiptAt
  refine ((sited_call _ _).wrapped fun _ _ => rfl).bind fun fd => ?_
  refine .ensuring ((faithful_maybeFchown _).bind fun _ => ?_) fun _ _ => rfl
  exact (faithful_writeAll (fun _ _ => rfl) _ _ _).bind fun _ => (sited_plain _).raw fun _ _ => rfl

theorem preserves_writeFileAtomic (pid : ℕ) (chown : Bool) (d : ℕ) (base : String)
    (data : List UInt8) : Preserves untranslated (writeFileAtomic pid chown d base data) := by
  unfold writeFileAtomic
  refine .bind (.tryCatch ?_ fun e => ?_) fun _ => ?_
  · unfold publishSurface
    refine .bind (.mapError ?_) fun fd => .bind (.ensuring ?_ ?_) ?_
    · unfold createSurface
      refine .tryCatch ((sited_call _ _).preserves fun _ _ => rfl) fun e => ?_
      refine .ite ?_ Preserves.throw
      exact ((sited_call _ _).preserves fun _ _ => rfl).bind fun _ =>
        (sited_call _ _).preserves fun _ _ => rfl
    · refine (preserves_maybeFchown chown).bind fun _ => ?_
      refine ((sited_call _ _).preserves fun _ _ => rfl).mapError.bind fun _ => ?_
      exact ((sited_plain _).preserves fun _ _ => rfl).mapError
    · exact ((sited_plain _).preserves fun _ _ => rfl).mapError
    · exact fun _ => ((sited_call _ _).preserves fun _ _ => rfl).mapError
  · exact ((sited_call _ _).bestEffort fun _ _ => rfl).bind fun _ => .throw
  · exact ((sited_plain _).preserves fun _ _ => rfl).mapError

theorem preserves_emitSurface (c : ExportCall) (tmp : ℕ) (base : String)
    (data : Option (List UInt8)) : Preserves untranslated (emitSurface c tmp base data) := by
  cases data with
  | none => exact .throw
  | some data => exact preserves_writeFileAtomic _ _ _ _ _

theorem preserves_setXattr (d : ℕ) (name : String) : Preserves untranslated (setXattr d name) := by
  refine .tryCatch (.mapError ?_) fun _ => .pure
  exact ((sited_look _).preserves fun _ _ => rfl).bind fun _ =>
    (sited_plain _).preserves fun _ _ => rfl

theorem faithful_exportSurfaces (c : ExportCall) (tmp : ℕ) (files : List (String × ℕ × String)) :
    Faithful (exportSurfaces c tmp files) := by
  unfold exportSurfaces
  cases c.receiptCtx with
  | none => exact Faithful.pure
  | some ctx =>
    have hemit : Preserves untranslated (emitLineageSurfaces c ctx tmp files) := by
      refine Preserves.bind (Preserves.foldlM (fun _ f => ?_) _ _) fun _ =>
        preserves_emitSurface _ _ _ _
      exact (preserves_emitSurface _ _ _ _).bind fun _ => preserves_setXattr _ _
    refine Triple.bind ((hemit.triple (· = false)).attempt) fun done => ?_
    refine Triple.pure fun w hw => ?_
    cases done with
    | ok _ => exact hw
    | error _ => exact hw

theorem faithful_freeName (c : ExportCall) (cls : ℕ) (tries n : ℕ) :
    Faithful (freeName c cls tries n) := by
  induction tries generalizing n with
  | zero => exact Faithful.throw rfl
  | succ tries ih =>
    unfold freeName
    have hfound : Sited .lstatTarget (lstatAt .lstatTarget cls (finalName c n)) := sited_look _
    refine Triple.bind hfound.triple.attempt fun found => ?_
    cases found with
    | ok i => exact ih _
    | error e =>
      cases e with
      | enoent => exact Triple.pure fun w h => h.elim fun _ hb => hb
      | _ => exact Triple.throw fun w h => h.elim fun _ hb => hb

theorem cleanupTempAt_rule (cls : ℕ) (tmp : Option ℕ) (tmpname : String) {v : Bool}
    {E : Failure → World Site → Prop} :
    Triple (fun w => untranslated w = v) (cleanupTempAt cls tmp tmpname)
      (fun _ w => untranslated w = v) E := by
  have hunlink : ∀ tmp names, Triple (fun w => untranslated w = v) (unlinkEach tmp names)
      (fun _ w => untranslated w = v) E := by
    intro tmp names
    induction names with
    | nil => exact .pure fun _ h => h
    | cons name names ih =>
      exact .bind ((sited_call _ _).bestEffort_rule fun _ _ => rfl) fun _ => ih
  unfold cleanupTempAt
  have hrmdir : Triple (fun w => untranslated w = v) (bestEffort (rmdirAt .rmdirTemp cls tmpname))
      (fun _ w => untranslated w = v) E :=
    (sited_call _ _).bestEffort_rule fun _ _ => rfl
  cases tmp with
  | none => exact hrmdir
  | some tmp =>
    have hlist : Preserves untranslated (listDir .listTemp tmp) :=
      (sited_look _).preserves fun _ _ => rfl
    refine .bind ((hlist.triple (· = v)).attempt) fun names => ?_
    cases names with
    | ok names => exact .bind (hunlink tmp names) fun _ => hrmdir
    | error _ => exact hrmdir

theorem faithful_fillAndPlace (c : ExportCall) (cls tmp : ℕ) (tmpname : String)
    (validated : List (String × ℕ)) : Faithful (fillAndPlace c cls tmp tmpname validated) := by
  unfold fillAndPlace placeAt
  refine (faithful_maybeFchown _).bind fun _ => ?_
  refine .bind (.foldlM (fun files entry => ?_) _ _) fun files => ?_
  · exact (faithful_copyOne _ _ _ _).bind fun bytes => .pure
  · refine (faithful_writeReceiptAt _ _ _).bind fun _ => ?_
    refine (faithful_exportSurfaces _ _ _).bind fun surfaces => ?_
    refine ((sited_plain _).raw fun _ _ => rfl).bind fun _ => ?_
    refine .bind ?_ fun dest => ((sited_plain _).raw fun _ _ => rfl).bind fun _ => .pure
    refine (faithful_freeName _ _ _ _).bind fun target => ?_
    exact ((sited_call _ _).wrapped fun _ _ => rfl).bind fun _ => .pure

theorem faithful_landIn (c : ExportCall) (cls : ℕ) (tmpname : String)
    (validated : List (String × ℕ)) : Faithful (landIn c cls tmpname validated) := by
  unfold landIn
  have hopen : Preserves untranslated (openDirAt .openTemp cls tmpname) :=
    (sited_look _).preserves fun _ _ => rfl
  have hclean : ∀ tmp e, Triple (fun w => untranslated w = Failure.isOs e)
      (do
        cleanupTempAt cls tmp tmpname
        throw e) (fun (_ : ExportReceipt) w => untranslated w = false)
      (fun e w => untranslated w = e.isOs) := by
    intro tmp e
    exact Triple.bind (cleanupTempAt_rule cls tmp tmpname) fun _ => Triple.throw fun _ h => h
  refine Triple.bind ((hopen.triple (· = false)).attempt) fun opened => ?_
  cases opened with
  | error _ => exact hclean none .state
  | ok tmp => exact .tryCatch (faithful_fillAndPlace _ _ _ _ _) fun e => hclean (some tmp) e

/-- **Errors of an export.**  It raises an `OSError` exactly if a call outside every handler has
failed. -/
theorem faithful_promoteExport (c : ExportCall) : Faithful (promoteExport c) := by
  unfold promoteExport
  cases hleaf : sanitizeClassLeaf c.openClass with
  | error e =>
    refine .throw ?_
    unfold sanitizeClassLeaf at hleaf
    dsimp only at hleaf
    split at hleaf
    · cases hleaf
      rfl
    · cases hleaf
  | ok leaf =>
    unfold landUnder
    dsimp only
    refine ((sited_look _).wrapped fun _ _ => rfl).bind fun _ => ?_
    refine ((sited_plain _).raw fun _ _ => rfl).bind fun _ => ?_
    refine (faithful_scanPayload _ _).bind fun validated => ?_
    refine ((sited_look _).wrapped fun _ _ => rfl).bind fun _ => ?_
    refine (faithful_childDirAt _ _ _).bind fun inc => (faithful_childDirAt _ _ _).bind fun cls => ?_
    exact (faithful_mkdirTempAt _ _ _).bind fun tmpname => faithful_landIn _ _ _ _

end DispExport
