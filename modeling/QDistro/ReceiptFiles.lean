/-
# Receipt files

Sidecars, export manifests and upload receipts are written as canonical bytes and read back under
size budgets: a sidecar under one for the whole file, a batch under a ceiling and under one that grows
with its receipts.  The writers validate the same document but measure nothing.

What was written is read back exactly when it is within the reader's budget (`reads_back_iff`).
-/
import QDistro.GitTrailer

open JsonText

namespace Lineage

open List

/-! ## Documents -/

/-- A batch document: its schema, the kind of its receipts, its names in messages, and whether it has a
destination. -/
structure Batch where
  schema : String
  kind : String
  noun : String
  title : String
  destination : Bool

/-- `EXPORT_MANIFEST_SCHEMA` -/
def exportManifest : Batch :=
  ⟨"qdistro-lineage-export-manifest/v1", "export-manifest", "manifest", "export manifest", false⟩

/-- `UPLOAD_RECEIPT_SCHEMA` -/
def uploadReceipt : Batch :=
  ⟨"qdistro-lineage-upload-receipt/v1", "upload-receipt", "upload-receipt", "upload receipt", true⟩

/-- The text of a non-empty string. -/
def textOf : Json → String
  | .str s => s
  | _ => ""

/-- The items of a list. -/
def itemsOf : Json → List Json
  | .arr items => items
  | _ => []

def isList : Json → Bool
  | .arr _ => true
  | _ => false

/-- The checks of a batch on its own fields, in their order. -/
def batchChecks (u : UnicodeDb) (b : Batch) (doc : List (String × Json)) : List (Bool × Exc) :=
  [(isText b.schema (field doc "schema"), .malformedReceipt
      (s!"unexpected {b.noun} schema " ++ reprJson u (field doc "schema"))),
    (isText chainAlgo (field doc "chain_algo"),
      .malformedReceipt s!"unexpected {b.noun} chain_algo"),
    (isNonEmptyText (field doc "chain_head"),
      .malformedReceipt s!"{b.noun} chain_head must be a non-empty string"),
    (isInteger (field doc "created_at"), .malformedReceipt s!"{b.noun} created_at must be an int"),
    (!b.destination || isTextOrNull (field doc "destination"),
      .malformedReceipt s!"{b.noun} destination must be a string or null"),
    (isList (field doc "receipts"), .malformedReceipt s!"{b.noun} receipts must be a list")]

/-- `MANIFEST_BASE_BYTES` and `MANIFEST_PER_RECEIPT_BYTES` -/
def batchBudget (receipts : ℕ) : ℕ := 2 ^ 20 + 2 ^ 16 * max 1 receipts

/-- The loop over the receipts of a batch. -/
def checkReceipts (u : UnicodeDb) (b : Batch) (head : String) : List Json → Except Exc Unit
  | [] => .ok ()
  | v :: vs =>
    match validateEnvelope u (some b.kind) v with
    | .error e => .error e
    | .ok env =>
      if isText head (field env "chain_head") then checkReceipts u b head vs
      else .error (.malformedReceipt
        s!"child receipt chain_head differs from {b.noun} chain_head")

/-- `_validate_manifest` and `_validate_upload_receipt`; `size` is `declared_cap_bytes`. -/
def validateBatch (u : UnicodeDb) (b : Batch) (size : Option ℕ) :
    Json → Except Exc (List (String × Json))
  | .obj doc =>
    let receipts := itemsOf (field doc "receipts")
    match runChecks (batchChecks u b doc) with
    | .error e => .error e
    | .ok _ =>
      if (size.any fun n => batchBudget receipts.length < n) then
        .error (.malformedReceipt s!"{b.title} exceeds size budget")
      else (checkReceipts u b (textOf (field doc "chain_head")) receipts).map fun _ => doc
  | _ => .error (.malformedReceipt s!"{b.title} must be a JSON object")

/-! ## Files -/

/-- A kind of file. -/
inductive Surface
  | sidecar
  | batch (b : Batch)

/-- The validation of a document, without a file or of the given size. -/
def Surface.validate (u : UnicodeDb) (size : Option ℕ) : Surface → Json →
    Except Exc (List (String × Json))
  | .sidecar => validateEnvelope u (some "sidecar")
  | .batch b => validateBatch u b size

/-- `SIDECAR_MAX_BYTES` and `MANIFEST_HARD_MAX_BYTES` -/
def Surface.cap : Surface → ℕ
  | .sidecar => 2 ^ 20
  | .batch _ => 64 * 2 ^ 20

/-- The content of the file that `write_sidecar`, `write_export_manifest` and `write_upload_receipt`
publish. -/
def Surface.write (u : UnicodeDb) (s : Surface) (doc : Json) : Except Exc (List UInt8) :=
  match s.validate u none doc with
  | .error e => .error e
  | .ok _ =>
    match canonicalBytes doc with
    | none => .error (.valueError (unwritableText doc))
    | some bytes => .ok bytes

/-- `read_sidecar`, `read_export_manifest` and `read_upload_receipt` of a file with this name. -/
def Surface.read (u : UnicodeDb) (s : Surface) (name : String) (bytes : List UInt8) :
    Except Exc (List (String × Json)) :=
  if s.cap < bytes.length then
    .error (.malformedReceipt (s!"receipt surface {PyText.pyRepr u name} is {bytes.length} bytes " ++
      s!"(> {s.cap} cap)"))
  else
    match loadsStrict bytes with
    | none => .error (.malformedReceipt "receipt is not valid JSON")
    | some v => s.validate u (some bytes.length) v

/-- The reader's budget for a document. -/
def Surface.budget : Surface → Json → ℕ
  | .sidecar, _ => 2 ^ 20
  | .batch _, .obj doc => min (64 * 2 ^ 20) (batchBudget (itemsOf (field doc "receipts")).length)
  | .batch _, _ => 0

/-! ## Sorted keys -/

variable {u : UnicodeDb}

variable {doc : List (String × Json)}

theorem field_sortKeys (h : Distinct (.obj doc)) (key : String) :
    field (sortFields (sortKeysFields doc)) key = sortKeys (field doc key) := by
  rw [Distinct] at h
  rw [field, lookup_sortFields h.1, field]
  cases PyDict.lookup doc key with
  | none => simp [sortKeys]
  | some v => rfl

theorem textOf_sortKeys (v : Json) : textOf (sortKeys v) = textOf v := by
  cases v <;> simp only [sortKeys] <;> rfl

theorem isList_sortKeys (v : Json) : isList (sortKeys v) = isList v := by
  cases v <;> simp only [sortKeys] <;> rfl

theorem itemsOf_sortKeys (v : Json) : itemsOf (sortKeys v) = (itemsOf v).map sortKeys := by
  cases v with
  | arr items =>
    rw [sortKeys, itemsOf, itemsOf]
    exact sortKeysItems_eq_map items
  | _ =>
    simp only [sortKeys]
    rfl

theorem distinct_field (h : Distinct (.obj doc)) (key : String) :
    Distinct (field doc key) := by
  rw [Distinct] at h
  rw [field]
  cases hlook : PyDict.lookup doc key with
  | none => trivial
  | some v => exact (distinctFields_iff doc).mp h.2 _ (PyDict.lookup_mem hlook)

theorem distinct_items {v : Json} (h : Distinct v) : ∀ w ∈ itemsOf v, Distinct w := by
  cases v with
  | arr items =>
    rw [Distinct] at h
    exact (distinctItems_iff items).mp h
  | _ => exact fun w hw => absurd hw not_mem_nil

theorem batchChecks_sortKeys (h : Distinct (.obj doc)) (b : Batch) :
    (batchChecks u b (sortFields (sortKeysFields doc))).map Prod.fst =
      (batchChecks u b doc).map Prod.fst := by
  simp only [batchChecks, map_cons, map_nil, field_sortKeys h, isText_sortKeys,
    isNonEmptyText_sortKeys, isInteger_sortKeys, isTextOrNull_sortKeys, isList_sortKeys]

theorem checkReceipts_sortKeys {b : Batch} {head : String} {vs : List Json}
    (hd : ∀ v ∈ vs, Distinct v) (h : checkReceipts u b head vs = .ok ()) :
    checkReceipts u b head (vs.map sortKeys) = .ok () := by
  induction vs with
  | nil => rfl
  | cons v vs ih =>
    rw [checkReceipts] at h
    split at h
    next => cases h
    next env henv =>
      split_ifs at h with hhead
      obtain ⟨env', rfl⟩ : ∃ env', v = .obj env' := by
        cases v with
        | obj env' => exact ⟨env', rfl⟩
        | _ => cases henv
      obtain ⟨-, -, rfl⟩ := except_map_ok henv
      have hdist := hd _ mem_cons_self
      rw [map_cons, checkReceipts, validateEnvelope_sortKeys hdist henv]
      dsimp only
      rw [field_sortKeys hdist, isText_sortKeys, if_pos hhead]
      exact ih (fun w hw => hd w (mem_cons_of_mem _ hw)) h

theorem validateBatch_sortKeys {b : Batch} (hd : Distinct (.obj doc))
    (h : (validateBatch u b none (.obj doc)).isOk = true) {n : ℕ}
    (hn : n ≤ batchBudget (itemsOf (field doc "receipts")).length) :
    validateBatch u b (some n) (sortKeys (.obj doc)) = .ok (sortFields (sortKeysFields doc)) := by
  rw [validateBatch] at h
  split at h
  next => cases h
  next hchecks =>
    rw [if_neg (by simp)] at h
    have hsorted : runChecks (batchChecks u b (sortFields (sortKeysFields doc))) = .ok () := by
      refine runChecks_eq_ok.mpr fun c hc => ?_
      have hmem : c.1 ∈ (batchChecks u b doc).map Prod.fst := by
        rw [← batchChecks_sortKeys hd]
        exact mem_map.mpr ⟨c, hc, rfl⟩
      obtain ⟨c', hc', heq⟩ := mem_map.mp hmem
      rw [← heq]
      exact runChecks_eq_ok.mp hchecks c' hc'
    have hreceipts : checkReceipts u b (textOf (field doc "chain_head"))
        (itemsOf (field doc "receipts")) = .ok () := by
      cases hc : checkReceipts u b (textOf (field doc "chain_head"))
          (itemsOf (field doc "receipts")) with
      | error e =>
        rw [hc] at h
        cases h
      | ok _ => rfl
    rw [sortKeys, validateBatch, hsorted]
    dsimp only
    rw [field_sortKeys hd, field_sortKeys hd, textOf_sortKeys, itemsOf_sortKeys, length_map,
      if_neg (by simpa using hn),
      checkReceipts_sortKeys (distinct_items (distinct_field hd "receipts")) hreceipts]
    rfl

theorem validateBatch_over {b : Batch} (hd : Distinct (.obj doc)) {n : ℕ}
    (hn : batchBudget (itemsOf (field doc "receipts")).length < n) :
    (validateBatch u b (some n) (sortKeys (.obj doc))).isOk = false := by
  rw [sortKeys, validateBatch]
  split
  next => rfl
  next =>
    rw [field_sortKeys hd, itemsOf_sortKeys, length_map, if_pos (by simpa using hn)]
    rfl

theorem Surface.validate_obj {s : Surface} {size : Option ℕ} {doc : Json} {r : List (String × Json)}
    (h : s.validate u size doc = .ok r) : doc = .obj r := by
  cases doc with
  | obj fs =>
    cases s with
    | sidecar =>
      obtain ⟨-, -, rfl⟩ := except_map_ok h
      rfl
    | batch b =>
      rw [Surface.validate, validateBatch] at h
      split at h
      next => cases h
      next =>
        split_ifs at h
        obtain ⟨-, -, rfl⟩ := except_map_ok h
        rfl
  | _ =>
    cases s with
    | sidecar => cases h
    | batch b => cases h

/-! ## Reading back -/

/-- The file is read back, as an equal document. -/
def ReadsFile (u : UnicodeDb) (s : Surface) (name : String) (bytes : List UInt8) (doc : Json) : Prop :=
  ∃ r, s.read u name bytes = .ok r ∧ sortKeys (.obj r) = sortKeys doc

/-- **A file that was written is read back exactly when it is within the reader's budget.** -/
theorem reads_back_iff (s : Surface) (name : String) (doc : Json) (bytes : List UInt8)
    (hd : Distinct doc) (hwrite : s.write u doc = .ok bytes) :
    ReadsFile u s name bytes doc ↔ bytes.length ≤ s.budget doc := by
  rw [Surface.write] at hwrite
  split at hwrite
  next => cases hwrite
  next r hvalid =>
    split at hwrite
    next => cases hwrite
    next b hbytes =>
      cases hwrite
      obtain rfl := Surface.validate_obj hvalid
      have hloads := loadsStrict_canonicalBytes hd hbytes
      have hsame : sortKeys (.obj (sortFields (sortKeysFields r))) = sortKeys (.obj r) := by
        have hsorted := sortKeys_sortKeys (.obj r)
        rwa [sortKeys] at hsorted
      rw [ReadsFile, Surface.read]
      by_cases hcap : s.cap < bytes.length
      · rw [if_pos hcap]
        constructor
        · rintro ⟨r', hr', -⟩
          cases hr'
        · intro hle
          cases s with
          | sidecar => exact absurd hle (Nat.not_le.mpr hcap)
          | batch b => exact absurd (hle.trans (Nat.min_le_left _ _)) (Nat.not_le.mpr hcap)
      · rw [if_neg hcap, hloads]
        dsimp only
        cases s with
        | sidecar =>
          refine ⟨fun _ => Nat.not_lt.mp hcap, fun _ => ⟨_, ?_, hsame⟩⟩
          exact validateEnvelope_sortKeys hd hvalid
        | batch b =>
          have hok : (validateBatch u b none (.obj r)).isOk = true := by
            rw [show validateBatch u b none (.obj r) = .ok r from hvalid]
            rfl
          constructor
          · rintro ⟨r', hr', -⟩
            by_contra hover
            have hlt : batchBudget (itemsOf (field r "receipts")).length < bytes.length := by
              by_contra hle
              exact hover (le_min (Nat.not_lt.mp hcap) (Nat.not_lt.mp hle))
            have hfail := validateBatch_over (u := u) (b := b) hd hlt
            rw [show validateBatch u b (some bytes.length) (sortKeys (.obj r)) = .ok r' from hr']
              at hfail
            cases hfail
          · intro hle
            exact ⟨_, validateBatch_sortKeys hd hok (hle.trans (Nat.min_le_right _ _)), hsame⟩

/-- A sidecar with a locator. -/
def sidecarOf (locator : String) : List (String × Json) :=
  [("schema", .str receiptSchema), ("kind", .str "sidecar"), ("entity", .str "file:1"),
    ("artifact_digest", .null), ("locator", .str locator), ("issuer", .str "qdistro-broker"),
    ("chain_algo", .str chainAlgo), ("chain_head", .str "head"), ("signature_algo", .null),
    ("key_id", .null), ("signature", .null), ("created_at", .int 1)]

theorem distinct_sidecarOf (locator : String) : Distinct (.obj (sidecarOf locator)) := by
  have hkeys : (sidecarOf locator).map Prod.fst = requiredKeys := rfl
  have hstr : ∀ t, Distinct (.str t) := fun _ => trivial
  have hint : ∀ n, Distinct (.int n) := fun _ => trivial
  have hnull : Distinct .null := trivial
  rw [Distinct, hkeys]
  refine ⟨by decide, ?_⟩
  simp only [sidecarOf, DistinctFields, hstr, hint, hnull, and_self]

theorem write_sidecarOf {locator : String}
    (hchecks : ∀ b ∈ (envelopeChecks .ascii (some "sidecar") (sidecarOf locator)).map Prod.fst,
      b = true)
    (hplain : hasAny isUnwritable (.obj (sidecarOf locator)) = false) :
    ∃ bytes, canonicalBytes (.obj (sidecarOf locator)) = some bytes ∧
      Surface.sidecar.write .ascii (.obj (sidecarOf locator)) = .ok bytes := by
  have hsome := canonicalBytes_isSome (.obj (sidecarOf locator))
  rw [hplain, Bool.not_false] at hsome
  obtain ⟨bytes, hbytes⟩ := Option.isSome_iff_exists.mp hsome
  have hvalid : Surface.sidecar.validate .ascii none (.obj (sidecarOf locator)) =
      .ok (sidecarOf locator) := by
    rw [Surface.validate, validateEnvelope,
      runChecks_eq_ok.mpr fun c hc => hchecks c.1 (mem_map.mpr ⟨c, hc, rfl⟩)]
    rfl
  refine ⟨bytes, hbytes, ?_⟩
  rw [Surface.write, hvalid]
  dsimp only
  rw [hbytes]

theorem sidecar_reads_back :
    ∃ bytes, Surface.sidecar.write .ascii (.obj (sidecarOf "/home/user1/a.txt")) = .ok bytes ∧
      ReadsFile .ascii .sidecar "a.txt.qdistro-lineage.json" bytes
        (.obj (sidecarOf "/home/user1/a.txt")) := by
  obtain ⟨bytes, hbytes, hwrite⟩ := @write_sidecarOf "/home/user1/a.txt" (by decide +kernel)
    (by decide +kernel)
  refine ⟨bytes, hwrite, (reads_back_iff .sidecar _ _ bytes (distinct_sidecarOf _) hwrite).mpr ?_⟩
  have hsmall : ((canonicalBytes (.obj (sidecarOf "/home/user1/a.txt"))).all
      fun b => decide (b.length ≤ 1000)) = true := by decide +kernel
  rw [hbytes, Option.all_some, decide_eq_true_iff] at hsmall
  exact hsmall.trans (by decide)

/-! ## Long texts -/

theorem length_le_flatMap {α β : Type} {f : α → List β} (hf : ∀ a, f a ≠ []) (l : List α) :
    l.length ≤ (l.flatMap f).length := by
  induction l with
  | nil => exact Nat.le_refl 0
  | cons a l ih =>
    have hpos := length_pos_iff.mpr (hf a)
    rw [flatMap_cons, length_append, length_cons]
    omega

theorem length_le_dumpsFieldsWith {esc : Char → List Char} {seps : Seps}
    {fs : List (String × Json)} {k : String} {v : Json} (h : (k, v) ∈ fs) :
    (dumpsWith esc seps v).length ≤ (dumpsFieldsWith esc seps fs).length := by
  induction fs with
  | nil => exact absurd h not_mem_nil
  | cons f fs ih =>
    obtain ⟨k', v'⟩ := f
    rw [dumpsFieldsWith]
    simp only [length_append]
    rcases mem_cons.mp h with heq | h
    · cases heq
      omega
    · have := ih h
      omega

theorem length_le_canonicalBytes {fs : List (String × Json)} {k t : String} {bytes : List UInt8}
    (h : (k, .str t) ∈ fs) (hbytes : canonicalBytes (.obj fs) = some bytes) :
    t.toList.length ≤ bytes.length := by
  obtain ⟨text, htext, rfl⟩ := Option.map_eq_some_iff.mp hbytes
  have hmem : (k, Json.str t) ∈ sortFields (sortKeysFields fs) := by
    refine (mem_insertionSort _).mpr ?_
    rw [sortKeysFields_eq_map]
    exact mem_map.mpr ⟨_, h, by simp⟩
  rw [canonicalText] at htext
  split at htext
  next => cases htext
  next =>
    cases htext
    have hstr : t.toList.length ≤ (t.toList.flatMap rawChar).length := by
      refine length_le_flatMap (fun c => ?_) _
      unfold rawChar
      split_ifs <;> simp [unitText]
    have hbytes : ∀ l : List Char, l.length ≤ (utf8Bytes l).length := by
      refine fun l => length_le_flatMap (fun c => ?_) l
      rw [← length_pos_iff, String.length_utf8EncodeChar]
      exact c.utf8Size_pos
    refine Nat.le_trans ?_ (hbytes _)
    rw [sortKeys]
    generalize sortFields (sortKeysFields fs) = sorted at hmem
    cases sorted with
    | nil => exact absurd hmem not_mem_nil
    | cons f rest =>
      obtain ⟨k', v⟩ := f
      have htext : (dumpsWith rawChar compactSeps (.str t)).length =
          (t.toList.flatMap rawChar).length + 2 := by
        simp [dumpsWith, strTextWith]
      rw [dumpsWith]
      simp only [length_cons, length_append]
      rcases mem_cons.mp hmem with heq | hmem
      · cases heq
        omega
      · have := @length_le_dumpsFieldsWith rawChar compactSeps _ _ _ hmem
        omega

/-- A locator of more than a mebibyte. -/
@[irreducible] def longLocator : String := String.ofList (List.replicate (2 ^ 20 + 1) 'a')

theorem length_longLocator : longLocator.toList.length = 2 ^ 20 + 1 := by
  unfold longLocator
  rw [String.toList_ofList]
  exact length_replicate

/-- Its sidecar is written, and not read back. -/
theorem long_locator_lost :
    ∃ bytes, Surface.sidecar.write .ascii (.obj (sidecarOf longLocator)) = .ok bytes ∧
      ¬ ReadsFile .ascii .sidecar "a.txt.qdistro-lineage.json" bytes
        (.obj (sidecarOf longLocator)) := by
  have hmem : ∀ locator, ("locator", Json.str locator) ∈ sidecarOf locator := by
    intro locator
    simp [sidecarOf]
  obtain ⟨bytes, hbytes, hwrite⟩ := @write_sidecarOf longLocator (by decide +kernel)
    (by decide +kernel)
  refine ⟨bytes, hwrite, ?_⟩
  have hlong := length_le_canonicalBytes (hmem longLocator) hbytes
  rw [length_longLocator] at hlong
  rintro ⟨r, hread, -⟩
  have hcap : Surface.sidecar.cap < bytes.length := by
    rw [Surface.cap]
    omega
  rw [Surface.read, if_pos hcap] at hread
  cases hread

end Lineage
