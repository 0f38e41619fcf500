/-
# Backup manifests

The part of `qdistro_backup_manifest` that does not depend on how a manifest is written: a list of
manifests, oldest first, is a chain when each one names the digest of the one before it and every
incremental blob names a parent that was sent before.  `verify_chain` checks both, and
`restore_order` reads the order of receiving off a chain.

The type of texts is a parameter, and so is the digest of a manifest.  `parse_manifest` is given on
values that are decoded already, for any representation of JSON values (`Format`).
-/
import QDistro.ErrorRules
import QDistro.JsonText

namespace Backup

open ErrorRules

variable {σ δ : Type}

structure Entry (σ : Type) where
  subvol : σ
  blob : σ
  sha256 : σ
  size : ℕ
  parentBlob : Option σ
  deriving DecidableEq

/-- A manifest that was parsed: the fields that are read, and the whole object. -/
structure Manifest (σ δ : Type) where
  seq : ℤ
  hostId : σ
  entries : List (Entry σ)
  /-- `prev_manifest_sha256` -/
  prev : Option σ
  doc : δ
  deriving DecidableEq

inductive ManifestError
  | emptyList
  | seqNotIncreasing
  | brokenChain
  | firstHasPrev
  | droppedIncremental
  | stale
  | noBlobs
  | noFullSend
  /-- The text is not a manifest. -/
  | malformed
  deriving DecidableEq

/-! ## Verification -/

section Verification

variable [DecidableEq σ] (digest : δ → σ)

/-- The lineage check over entries; `seen` holds subvolumes with their blobs. -/
def checkEntries (seen : List (σ × σ)) : List (Entry σ) → Except ManifestError (List (σ × σ))
  | [] => .ok seen
  | e :: rest =>
    if ∃ parent ∈ e.parentBlob, (e.subvol, parent) ∉ seen then .error .droppedIncremental
    else checkEntries ((e.subvol, e.blob) :: seen) rest

/-- The link of a manifest to the one before it. -/
def checkLink (prev : Option (Manifest σ δ)) (m : Manifest σ δ) : Except ManifestError Unit :=
  match prev with
  | some p =>
    if m.seq ≤ p.seq then .error .seqNotIncreasing
    else if m.prev ≠ some (digest p.doc) then .error .brokenChain
    else .ok ()
  | none => if m.prev ≠ none then .error .firstHasPrev else .ok ()

/-- The loop of `verify_chain`. -/
def verifyFrom (prev : Option (Manifest σ δ)) (seen : List (σ × σ)) :
    List (Manifest σ δ) → Except ManifestError Unit
  | [] => .ok ()
  | m :: rest => do
    checkLink digest prev m
    let seen' ← checkEntries seen m.entries
    verifyFrom (some m) seen' rest

/-- `verify_chain` -/
def verifyChain (ms : List (Manifest σ δ)) : Except ManifestError Unit :=
  if ms.isEmpty then .error .emptyList else verifyFrom digest none [] ms

/-- `check_freshness` -/
def checkFreshness (newest : Manifest σ δ) (checkpoint : ℤ) : Except ManifestError Unit :=
  if newest.seq < checkpoint then .error .stale else .ok ()

/-- The entries of a chain, oldest first. -/
def entriesOf (ms : List (Manifest σ δ)) : List (Entry σ) := ms.flatMap Manifest.entries

/-- `restore_order` -/
def restoreOrder (ms : List (Manifest σ δ)) (subvol : σ) : Except ManifestError (List (Entry σ)) :=
  match (entriesOf ms).filter (fun e => e.subvol = subvol) with
  | [] => .error .noBlobs
  | e :: rest => if e.parentBlob ≠ none then .error .noFullSend else .ok (e :: rest)

/-! ## What a chain that was verified is -/

/-- The links of a chain: increasing numbers, each manifest naming the digest of the one before
it, the first one naming none. -/
def Linked (digest : δ → σ) : Option (Manifest σ δ) → List (Manifest σ δ) → Prop
  | _, [] => True
  | none, m :: rest => m.prev = none ∧ Linked digest (some m) rest
  | some p, m :: rest =>
    p.seq < m.seq ∧ m.prev = some (digest p.doc) ∧ Linked digest (some m) rest

/-- Every incremental entry comes after its parent. -/
def Lineage (entries : List (Entry σ)) : Prop :=
  ∀ before e after, entries = before ++ e :: after → ∀ parent, e.parentBlob = some parent →
    ∃ e' ∈ before, e'.subvol = e.subvol ∧ e'.blob = parent

variable {prev : Option (Manifest σ δ)}

theorem checkLink_eq_ok {m : Manifest σ δ} {rest : List (Manifest σ δ)}
    (h : checkLink digest prev m = .ok ()) (hrest : Linked digest (some m) rest) :
    Linked digest prev (m :: rest) := by
  cases prev with
  | none => exact ⟨not_not.mp (ite_error_eq_ok.mp h).1, hrest⟩
  | some p =>
    obtain ⟨hseq, h⟩ := ite_error_eq_ok.mp h
    exact ⟨not_le.mp hseq, not_not.mp (ite_error_eq_ok.mp h).1, hrest⟩

theorem checkEntries_append {seen seen' : List (σ × σ)} {es es' : List (Entry σ)}
    (h : checkEntries seen es = .ok seen') :
    checkEntries seen (es ++ es') = checkEntries seen' es' := by
  induction es generalizing seen with
  | nil =>
    cases h
    rfl
  | cons e rest ih =>
    obtain ⟨hparent, h⟩ := ite_error_eq_ok.mp h
    rw [List.cons_append, checkEntries, if_neg hparent]
    exact ih h

variable {ms : List (Manifest σ δ)}

theorem verifyFrom_eq_ok {seen : List (σ × σ)} (h : verifyFrom digest prev seen ms = .ok ()) :
    Linked digest prev ms ∧ ∃ seen', checkEntries seen (entriesOf ms) = .ok seen' := by
  induction ms generalizing prev seen with
  | nil => exact ⟨by cases prev <;> trivial, seen, rfl⟩
  | cons m rest ih =>
    obtain ⟨_, hlink, h⟩ := bind_eq_ok.mp h
    obtain ⟨seen', hentries, h⟩ := bind_eq_ok.mp h
    obtain ⟨hlinked, seen'', hrest⟩ := ih h
    refine ⟨checkLink_eq_ok digest hlink hlinked, seen'', ?_⟩
    rw [entriesOf, List.flatMap_cons, checkEntries_append hentries]
    exact hrest

theorem checkEntries_lineage {seen seen' : List (σ × σ)} {es : List (Entry σ)}
    (h : checkEntries seen es = .ok seen') {before after : List (Entry σ)} {e : Entry σ}
    (hes : es = before ++ e :: after) {parent : σ} (hparent : e.parentBlob = some parent) :
    (e.subvol, parent) ∈ seen ∨ ∃ e' ∈ before, e'.subvol = e.subvol ∧ e'.blob = parent := by
  subst hes
  induction before generalizing seen with
  | nil =>
    obtain ⟨hseen, -⟩ := ite_error_eq_ok.mp h
    refine .inl (not_not.mp fun hnot => hseen ⟨parent, hparent, hnot⟩)
  | cons b rest ih =>
    obtain ⟨-, h⟩ := ite_error_eq_ok.mp h
    rcases ih h with hmem | ⟨e', he', hsame⟩
    · rcases List.mem_cons.mp hmem with heq | hmem
      · exact .inr ⟨b, List.mem_cons_self, (congrArg Prod.fst heq).symm,
          (congrArg Prod.snd heq).symm⟩
      · exact .inl hmem
    · exact .inr ⟨e', List.mem_cons_of_mem _ he', hsame⟩

/-- **A verified chain** is linked, and every incremental comes after its parent. -/
theorem verifyChain_eq_ok (h : verifyChain digest ms = .ok ()) :
    ms ≠ [] ∧ Linked digest none ms ∧ Lineage (entriesOf ms) := by
  obtain ⟨hne, h⟩ := ite_error_eq_ok.mp h
  obtain ⟨hlinked, seen', hentries⟩ := verifyFrom_eq_ok digest h
  refine ⟨fun hnil => hne (by rw [hnil]; rfl), hlinked, ?_⟩
  intro before e after hes parent hparent
  rcases checkEntries_lineage hentries hes hparent with hmem | hbefore
  · cases hmem
  · exact hbefore

theorem Linked.snoc {m : Manifest σ δ} (h : Linked digest prev (ms ++ [m])) :
    Linked digest prev ms ∧ m.prev = (ms.getLast?.or prev).map fun p => digest p.doc := by
  induction ms generalizing prev with
  | nil =>
    cases prev with
    | none => exact ⟨trivial, h.1⟩
    | some p => exact ⟨trivial, h.2.1⟩
  | cons p ms ih =>
    have hlast : (p :: ms).getLast?.or prev = ms.getLast?.or (some p) := by
      rw [List.getLast?_cons, Option.some_or, Option.or_some]
    rw [hlast]
    cases prev with
    | none => exact ⟨⟨h.1, (ih h.2).1⟩, (ih h.2).2⟩
    | some q => exact ⟨⟨h.1, h.2.1, (ih h.2.2).1⟩, (ih h.2.2).2⟩

theorem restoreOrder_eq_ok {subvol : σ} {order : List (Entry σ)}
    (h : restoreOrder ms subvol = .ok order) :
    order = (entriesOf ms).filter (fun e => e.subvol = subvol) ∧
      ∃ e rest, order = e :: rest ∧ e.parentBlob = none := by
  unfold restoreOrder at h
  split at h
  · cases h
  · next e rest hfilter =>
    obtain ⟨hfull, h⟩ := ite_error_eq_ok.mp h
    cases h
    exact ⟨hfilter.symm, e, rest, rfl, not_not.mp hfull⟩

theorem Lineage.filter {es : List (Entry σ)} (h : Lineage es) (subvol : σ) :
    Lineage (es.filter fun e => e.subvol = subvol) := by
  intro before e after hes parent hparent
  obtain ⟨l₁, l₂, hsplit, hbefore, hafter⟩ := List.filter_eq_append_iff.mp hes
  obtain ⟨m₁, m₂, rfl, hnone, he, -⟩ := List.filter_eq_cons_iff.mp hafter
  obtain ⟨e', he', hsame⟩ := h (l₁ ++ m₁) e m₂ (by rw [hsplit, List.append_assoc]) parent hparent
  refine ⟨e', ?_, hsame⟩
  -- the parent is of the same subvolume, so the filter keeps it
  have hkeep : decide (e'.subvol = subvol) = true := by
    rw [hsame.1]
    exact he
  rcases List.mem_append.mp he' with hmem | hmem
  · rw [← hbefore]
    exact List.mem_filter.mpr ⟨hmem, hkeep⟩
  · exact absurd hkeep (hnone e' hmem)

end Verification

/-! ## Reading a manifest -/

/-- One level of a JSON value. -/
inductive View (σ δ : Type)
  | null
  | bool (b : Bool)
  | int (n : ℤ)
  | float (f : JsonText.FloatLit)
  | str (s : σ)
  | list (items : List δ)
  | dict (fields : List (σ × δ))

/-- A representation of JSON values. -/
structure Format (σ δ : Type) where
  view : δ → View σ δ
  make : View σ δ → δ
  /-- The code points of a text. -/
  codes : σ → List ℕ
  literal : String → σ
  view_make : ∀ v, view (make v) = v

/-- `_safe_component`, on the code points of a text. -/
def safeComponent (cs : List ℕ) : Bool :=
  !cs.isEmpty && !cs.contains 47 && !cs.contains 92 && cs.head? != some 46 && cs.head? != some 45

/-- 64 lowercase hexadecimal digits. -/
def isSha256Text (cs : List ℕ) : Bool :=
  cs.length == 64 && cs.all fun c => 48 ≤ c && c ≤ 57 || 97 ≤ c && c ≤ 102

section Reading

variable [DecidableEq σ] (F : Format σ δ)

def component : View σ δ → Option σ
  | .str s => if safeComponent (F.codes s) = true then some s else none
  | _ => none

def optionalComponent : View σ δ → Option (Option σ)
  | .null => some none
  | v => (component F v).map some

def sha256Field : View σ δ → Option σ
  | .str s => if isSha256Text (F.codes s) = true then some s else none
  | _ => none

def sizeField : View σ δ → Option ℕ
  | .int n => if 0 ≤ n then some n.toNat else none
  | _ => none

/-- `build_entry`, or `none` where it raises `ManifestError`. -/
def buildEntry (subvol blob sha256 size parent : View σ δ) : Option (Entry σ) := do
  let subvol ← component F subvol
  let blob ← component F blob
  let parent ← optionalComponent F parent
  let sha256 ← sha256Field F sha256
  let size ← sizeField size
  some ⟨subvol, blob, sha256, size, parent⟩

def optional (s : Option σ) : δ :=
  match s with
  | some s => F.make (.str s)
  | none => F.make .null

/-- The object that `build_entry` returns. -/
def entryDoc (e : Entry σ) : δ :=
  F.make (.dict [(F.literal "subvol", F.make (.str e.subvol)),
    (F.literal "blob", F.make (.str e.blob)), (F.literal "sha256", F.make (.str e.sha256)),
    (F.literal "size", F.make (.int e.size)), (F.literal "parent_blob", optional F e.parentBlob)])

/-- The value under a key, or `None`. -/
def getField (fields : List (σ × δ)) (key : String) : View σ δ :=
  ((PyDict.lookup fields (F.literal key)).map F.view).getD .null

/-- An item of `entries`, validated again. -/
def readEntry (d : δ) : Option (Entry σ) :=
  match F.view d with
  | .dict fields => do
    let subvol ← PyDict.lookup fields (F.literal "subvol")
    let blob ← PyDict.lookup fields (F.literal "blob")
    let sha256 ← PyDict.lookup fields (F.literal "sha256")
    let size ← PyDict.lookup fields (F.literal "size")
    buildEntry F (F.view subvol) (F.view blob) (F.view sha256) (F.view size)
      (getField F fields "parent_blob")
  | _ => none

/-- `v == MANIFEST_VERSION`: Python compares `1`, `1.0` and `True` as equal. -/
def isVersion : View σ δ → Bool
  | .int n => n == 1
  | .bool b => b
  | .float f => f.text == ['1', '.', '0']
  | _ => false

def asInt : View σ δ → Option ℤ
  | .int n => some n
  | _ => none

def asStr : View σ δ → Option σ
  | .str s => some s
  | _ => none

def asList : View σ δ → Option (List δ)
  | .list items => some items
  | _ => none

/-- A text or `null`. -/
def prevField : View σ δ → Option (Option σ)
  | .null => some none
  | v => (asStr v).map some

/-- `d.setdefault(key, None)` -/
def setDefault (fields : List (σ × δ)) (key : σ) : List (σ × δ) :=
  if (PyDict.lookup fields key).isSome then fields else PyDict.put fields key (F.make .null)

/-- The object that `parse_manifest` returns: the one it was given, with the entries it built. -/
def normalized (fields : List (σ × δ)) (entries : List (Entry σ)) : List (σ × δ) :=
  setDefault F
    (PyDict.put fields (F.literal "entries") (F.make (.list (entries.map (entryDoc F)))))
    (F.literal "prev_manifest_sha256")

def readFields (fields : List (σ × δ)) : Option (Manifest σ δ) := do
  let version ← PyDict.lookup fields (F.literal "version")
  let seq ← (PyDict.lookup fields (F.literal "seq")).bind fun d => asInt (F.view d)
  let _createdAt ← (PyDict.lookup fields (F.literal "created_at")).bind fun d => asInt (F.view d)
  let hostId ← (PyDict.lookup fields (F.literal "host_id")).bind fun d => asStr (F.view d)
  let items ← (PyDict.lookup fields (F.literal "entries")).bind fun d => asList (F.view d)
  let entries ← items.mapM (readEntry F)
  let prev ← prevField (getField F fields "prev_manifest_sha256")
  if isVersion (F.view version) = false then none
  else some ⟨seq, hostId, entries, prev, F.make (.dict (normalized F fields entries))⟩

/-- `parse_manifest` on a decoded value. -/
def readManifest (d : δ) : Except ManifestError (Manifest σ δ) :=
  match F.view d with
  | .dict fields =>
    match readFields F fields with
    | some m => .ok m
    | none => .error .malformed
  | _ => .error .malformed

end Reading

end Backup
