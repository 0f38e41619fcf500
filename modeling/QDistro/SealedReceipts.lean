/-
# A receipt verifies exactly when it was sealed

The envelope that `record_commit` or `record_upload` returns verifies against the store it
leaves: it is well formed, its payload row is there and the newest snapshot of its artifact has
the digest it names.  Conversely an envelope verifies only if some receipt of its entity and
kind was sealed with a payload of the same canonical bytes, so no field of it can be altered.

Output identifiers of an upload are `uuid4` texts; that those of one batch differ is assumed.
-/
import QDistro.ChokepointRows
import Mathlib.Data.List.Induction

open JsonText TransitionSystem

namespace Lineage

open List

variable {u : UnicodeDb}

/-! ## Built envelopes -/

/-- The fields of an envelope. -/
def envelopeOf (a : EnvelopeArgs) : List (String × Json) :=
  [("schema", .str "qdistro-lineage-receipt/v1"), ("kind", .str a.kind),
    ("entity", .str a.entity), ("artifact_digest", optText a.artifactDigest),
    ("locator", optText a.locator), ("issuer", .str a.issuer),
    ("chain_algo", .str "sha256-chain"), ("chain_head", .str a.chainHead),
    ("signature_algo", .null), ("key_id", .null), ("signature", .null),
    ("created_at", .int a.createdAt)] ++ (a.extra.map fun e => ("extra", Json.obj e)).toList

/-- What `build_envelope` has checked of an envelope it returns. -/
structure Built (a : EnvelopeArgs) (env : List (String × Json)) : Prop where
  fields : env = envelopeOf a
  kind : receiptKinds.elem a.kind = true
  entity : a.entity ≠ ""
  head : a.chainHead ≠ ""
  digest : ∀ d, a.artifactDigest = some d → isHexDigest d = true

variable {a : EnvelopeArgs}

theorem built_of_buildEnvelope {env : List (String × Json)} (h : buildEnvelope u a = .ok env) :
    Built a env := by
  unfold buildEnvelope at h
  split at h
  · cases h
  · next hkind =>
    split at h
    · cases h
    · next hentity =>
      split at h
      · cases h
      · next hhead =>
        split at h
        · cases h
        · next hdigest =>
          cases h
          refine ⟨rfl, by simpa using hkind, hentity, hhead, fun d hd => ?_⟩
          rw [hd] at hdigest
          simpa using hdigest

theorem lookup_envelopeOf (a : EnvelopeArgs) :
    PyDict.lookup (envelopeOf a) "schema" = some (.str receiptSchema) ∧
      PyDict.lookup (envelopeOf a) "kind" = some (.str a.kind) ∧
      PyDict.lookup (envelopeOf a) "entity" = some (.str a.entity) ∧
      PyDict.lookup (envelopeOf a) "artifact_digest" = some (optText a.artifactDigest) ∧
      PyDict.lookup (envelopeOf a) "locator" = some (optText a.locator) ∧
      PyDict.lookup (envelopeOf a) "issuer" = some (.str a.issuer) ∧
      PyDict.lookup (envelopeOf a) "chain_algo" = some (.str chainAlgo) ∧
      PyDict.lookup (envelopeOf a) "chain_head" = some (.str a.chainHead) ∧
      PyDict.lookup (envelopeOf a) "signature_algo" = some .null ∧
      PyDict.lookup (envelopeOf a) "key_id" = some .null ∧
      PyDict.lookup (envelopeOf a) "signature" = some .null ∧
      PyDict.lookup (envelopeOf a) "created_at" = some (.int a.createdAt) := by
  refine ⟨?_, ?_, ?_, ?_, ?_, ?_, ?_, ?_, ?_, ?_, ?_, ?_⟩ <;>
    simp [envelopeOf, PyDict.lookup, receiptSchema, chainAlgo]

theorem Built.validate {env : List (String × Json)} (h : Built a env) (hissuer : a.issuer ≠ "")
    {expected : Option String} (hexpected : ∀ k ∈ expected, k = a.kind) :
    validateEnvelope u expected (.obj env) = .ok env := by
  have hchecks : ∀ c ∈ envelopeChecks u expected env, c.1 = true := by
    obtain ⟨rfl, hkind, hentity, hhead, hdigest⟩ := h
    obtain ⟨h₁, h₂, h₃, h₄, h₅, h₆, h₇, h₈, h₉, h₁₀, h₁₁, h₁₂⟩ := lookup_envelopeOf a
    have hdig : isDigestOrNull (optText a.artifactDigest) = true := by
      cases hd : a.artifactDigest with
      | none => rfl
      | some d => exact hdigest d hd
    have hloc : isTextOrNull (optText a.locator) = true := by
      cases a.locator <;> rfl
    have hexp : (expected.all fun k => decide (a.kind = k)) = true := by
      cases expected with
      | none => rfl
      | some k => simp [hexpected k rfl]
    intro c hc
    simp only [envelopeChecks, field, h₁, h₂, h₃, h₄, h₅, h₆, h₇, h₈, h₉, h₁₀, h₁₁, h₁₂,
      requiredKeys, Option.getD_some, map_cons, map_nil, mem_append, mem_cons,
      not_mem_nil, or_false, Option.isSome_some] at hc
    -- the required keys, the checks of the fields, the signature
    rcases hc with ((rfl | rfl | rfl | rfl | rfl | rfl | rfl | rfl | rfl | rfl | rfl | rfl) |
      rfl | rfl | rfl | rfl | rfl | rfl | rfl | rfl | rfl | rfl | rfl) | rfl | rfl | rfl <;>
      simp [isText, unhashable, isReceiptKind, isNonEmptyText, isInteger, isNull, hentity, hhead,
        hissuer, hdig, hloc, hexp, elem_iff.mp hkind]
  rw [validateEnvelope, runChecks_eq_ok.mpr hchecks]
  rfl

theorem isLongInt_of_sql {n : ℤ} (h : -2 ^ 63 ≤ n ∧ n < 2 ^ 63) : isLongInt (.int n) = false := by
  have habs : n.natAbs ≤ 2 ^ 63 := by omega
  have hbound : ∀ k : ℕ, 63 ≤ k → 2 ^ 63 < 10 ^ k := fun k hk =>
    calc 2 ^ 63 < 10 ^ 63 := Nat.pow_lt_pow_left (by decide) (by decide)
      _ ≤ 10 ^ k := Nat.pow_le_pow_right (by decide) hk
  have hlt := Nat.lt_of_le_of_lt habs (hbound 4300 (by decide))
  rw [isLongInt]
  exact decide_eq_false (Nat.not_le.mpr hlt)

theorem entityWrite_bounds {ent : Entity} {now : ℤ} {cells : List Cell}
    (h : (entityWrite ent now).cellsIn .entities = some cells) :
    -2 ^ 63 ≤ stampOr ent.createdAt now ∧ stampOr ent.createdAt now < 2 ^ 63 := by
  rw [Write.cellsIn, if_pos (by rfl), Option.map_eq_some_iff] at h
  obtain ⟨⟨_, cache⟩, hst, rfl⟩ := h
  have hmem : Param.int (stampOr ent.createdAt now) ∈ (entityWrite ent now).payload := by
    simp [entityWrite]
  obtain ⟨cell, -, hcell⟩ := forall₂_mem_left (mapM_eq_some_iff.mp (Write.stored_eq hst)) hmem
  rw [Param.store] at hcell
  split at hcell
  · next hbounds => exact hbounds
  · cases hcell

theorem bounds_of_stampOr {given now : ℤ}
    (h : -2 ^ 63 ≤ stampOr given now ∧ stampOr given now < 2 ^ 63) :
    -2 ^ 63 ≤ given ∧ given < 2 ^ 63 := by
  unfold stampOr at h
  split at h
  · next hzero =>
    rw [hzero]
    exact ⟨by decide, by decide⟩
  · exact h

theorem Built.canonicalBytes {env : List (String × Json)} (h : Built a env)
    (hextra : ∀ e, a.extra = some e → hasAnyFields isUnwritable e = false)
    (htime : -2 ^ 63 ≤ a.createdAt ∧ a.createdAt < 2 ^ 63) :
    ∃ want, JsonText.canonicalBytes (.obj env) = some want := by
  have hopt : ∀ o : Option String, hasAny isUnwritable (optText o) = false := by
    intro o
    cases o <;> rfl
  have htimes : hasAny isUnwritable (.int a.createdAt) = false := by
    show isUnwritable (.int a.createdAt) = false
    rw [isUnwritable, isLongInt_of_sql htime]
    rfl
  have hstr : ∀ t, hasAny isUnwritable (.str t) = false := fun _ => rfl
  have hnull : hasAny isUnwritable .null = false := rfl
  have hplain : hasAny isUnwritable (.obj env) = false := by
    rw [h.fields, hasAny, Bool.or_eq_false_iff]
    refine ⟨rfl, ?_⟩
    cases hx : a.extra with
    | none =>
      simp only [envelopeOf, hx, Option.map_none, Option.toList_none, append_nil,
        hasAnyFields, hstr, hopt, hnull, htimes, Bool.or_false]
    | some e =>
      have hobj : hasAny isUnwritable (.obj e) = false := by
        rw [hasAny, hextra e hx]
        rfl
      simp only [envelopeOf, hx, Option.map_some, Option.toList_some, cons_append,
        nil_append, hasAnyFields, hstr, hopt, hnull, htimes, hobj, Bool.or_false]
  rw [← Option.isSome_iff_exists, canonicalBytes_isSome, hplain]
  rfl

theorem Built.distinct {env : List (String × Json)} (h : Built a env)
    (hextra : ∀ e, a.extra = some e → Distinct (.obj e)) : Distinct (.obj env) := by
  have hopt : ∀ o : Option String, Distinct (optText o) := by
    intro o
    cases o <;> trivial
  have hstr : ∀ t, Distinct (.str t) := fun _ => trivial
  have hint : ∀ n, Distinct (.int n) := fun _ => trivial
  have hnull : Distinct .null := trivial
  rw [h.fields, Distinct]
  cases hx : a.extra with
  | none =>
    simp only [envelopeOf, hx, Option.map_none, Option.toList_none, append_nil,
      DistinctFields, hstr, hopt, hint, hnull, map_cons, map_nil, and_true]
    decide
  | some e =>
    simp only [envelopeOf, hx, Option.map_some, Option.toList_some, cons_append,
      nil_append, DistinctFields, hstr, hopt, hint, hnull, hextra e hx, map_cons,
      map_nil, and_true]
    decide

/-! ## What verification compares -/

theorem Db.mem_receiptsFor {db : Db} {eid : String} {r : StoredReceipt} :
    r ∈ db.receiptsFor eid ↔ ∃ cells ∈ db.cells .receipts,
      colOf .receipts cells "entity" = .text eid ∧ readReceipt cells = r := by
  rw [Db.receiptsFor, mem_map]
  refine exists_congr fun cells => ?_
  rw [mem_filter, decide_eq_true_iff, and_assoc]

/-- The envelope is well formed and the store has a row that seals it. -/
structure IsSealed (u : UnicodeDb) (db : Db) (eid : String) (env : List (String × Json)) : Prop where
  valid : validateEnvelope u none (.obj env) = .ok env
  entity : field env "entity" = .str eid
  row : ∃ want, canonicalBytes (.obj env) = some want ∧
    ∃ r ∈ db.receiptsFor eid, r.isSealed (field env "kind") want = true

theorem IsSealed.mono {db db' : Db} {eid : String} {env : List (String × Json)}
    (h : IsSealed u db eid env)
    (hrows : ∀ cells ∈ db.cells .receipts, cells ∈ db'.cells .receipts) :
    IsSealed u db' eid env := by
  obtain ⟨want, hwant, r, hr, hsealed⟩ := h.row
  obtain ⟨cells, hcells, hentity, hread⟩ := Db.mem_receiptsFor.mp hr
  have hr' := Db.mem_receiptsFor.mpr ⟨cells, hrows cells hcells, hentity, hread⟩
  exact ⟨h.valid, h.entity, want, hwant, r, hr', hsealed⟩

theorem IsSealed.verifies {db : Db} {eid : String} {env : List (String × Json)} {ent : Entity}
    (h : IsSealed u db eid env) (hent : db.getEntity eid = some ent)
    (hdigest : digestDiffers env ent = false) :
    verifyAgainstStore u db (.obj env) none = .ok true := by
  obtain ⟨want, hwant, hrow⟩ := h.row
  rw [verifyAgainstStore, h.valid]
  dsimp only
  rw [h.entity]
  dsimp only
  rw [hent, matchesSealedRow, hwant]
  dsimp only
  rw [any_eq_true.mpr hrow, hdigest]
  rfl

/-- **An envelope that verifies is sealed.** -/
theorem sealed_of_verifyAgainstStore {db : Db} {envelope : Json} {head : Option (List Char)}
    (h : verifyAgainstStore u db envelope head = .ok true) :
    ∃ env eid, envelope = .obj env ∧ IsSealed u db eid env := by
  unfold verifyAgainstStore at h
  split at h
  · cases h
  · next env hvalid =>
    have hobj : envelope = .obj env := by
      unfold validateEnvelope at hvalid
      split at hvalid
      · next env' =>
        obtain ⟨v, -, rfl⟩ := except_map_ok hvalid
        rfl
      · cases hvalid
    subst hobj
    split at h
    · next eid heid =>
      split at h
      · cases h
      · next ent hent =>
        rw [matchesSealedRow] at h
        split at h
        · cases h
        · next want hwant =>
          rw [Except.bind] at h
          refine ⟨env, eid, rfl, hvalid, heid, want, hwant, ?_⟩
          by_contra hnone
          rw [← any_eq_true, Bool.not_eq_true] at hnone
          rw [hnone] at h
          cases h
    · cases h

theorem Built.isSealed {env : List (String × Json)} {db : Db} {r : Receipt} {now : ℤ}
    {cells : List Cell} (h : Built a env) (hissuer : a.issuer ≠ "")
    (hextra : ∀ e, a.extra = some e → Distinct (.obj e) ∧ hasAnyFields isUnwritable e = false)
    (htime : -2 ^ 63 ≤ a.createdAt ∧ a.createdAt < 2 ^ 63)
    (hreceipt : r.entity = a.entity ∧ r.kind = a.kind ∧ r.payload = env)
    (hcells : (receiptWrite r now).cellsIn .receipts = some cells)
    (hmem : cells ∈ db.cells .receipts) : IsSealed u db a.entity env := by
  obtain ⟨hentity, hkind, rfl⟩ := hreceipt
  obtain ⟨-, hlookKind, hlookEntity, -⟩ := lookup_envelopeOf a
  have hdistinct := h.distinct fun e he => (hextra e he).1
  obtain ⟨want, hwant⟩ := h.canonicalBytes (fun e he => (hextra e he).2) htime
  refine ⟨h.validate hissuer (fun _ hk => nomatch hk), ?_, want, hwant, readReceipt cells, ?_, ?_⟩
  · rw [field, h.fields, hlookEntity]
    rfl
  · rw [Db.mem_receiptsFor]
    exact ⟨cells, hmem, hentity ▸ (readReceipt_receiptWrite hcells hdistinct).1, rfl⟩
  · rw [isSealed_readReceipt hcells hdistinct, hkind]
    refine ⟨?_, ?_, hwant⟩
    · rw [field, h.fields, hlookKind]
      rfl
    · rw [h.fields]
      exact cons_ne_nil _ _

/-! ## Envelopes that were returned -/

theorem lineageIssuer_ne_empty : lineageIssuer ≠ "" := by decide

theorem Built.digestDiffers {env : List (String × Json)} {ent : Entity} (h : Built a env)
    (hdigest : ent.digest = a.artifactDigest) :
    Lineage.digestDiffers env ent = false := by
  obtain ⟨-, -, -, hlook, -⟩ := lookup_envelopeOf a
  have hfield : field env "artifact_digest" = optText a.artifactDigest := by
    rw [field, h.fields, hlook]
    rfl
  rw [Lineage.digestDiffers, hfield, hdigest]
  cases a.artifactDigest with
  | none => rfl
  | some d => simp [optText]

variable {s s' : Store}

theorem Performed.snapshot {ops : List Op} {env : List (String × Json)} (h : Performed u s s' ops)
    (hbuilt : Built a env)
    (hdistinct : ∀ ent now, .recordEntity ent now ∈ ops → Distinct (.obj ent.facets))
    (hsome : ∃ ent now, .recordEntity ent now ∈ ops ∧ ent.eid = a.entity)
    (hdigest : ∀ ent now, .recordEntity ent now ∈ ops → ent.eid = a.entity →
      ent.digest = a.artifactDigest) :
    ∃ ent, s'.db.getEntity a.entity = some ent ∧ Lineage.digestDiffers env ent = false := by
  obtain ⟨ent, now, hop, heid, hget⟩ := h.getEntity hdistinct hsome
  exact ⟨_, hget, hbuilt.digestDiffers (hdigest ent now hop heid)⟩

theorem CommitDone.isSealed {c : CommitCall} {env : List (String × Json)}
    (h : CommitDone u s c env s') :
    IsSealed u s'.db c.commitEid env ∧
      ∃ ent, s'.db.getEntity c.commitEid = some ent ∧ digestDiffers env ent = false := by
  obtain ⟨⟨head, hhead⟩, inputs, hmints, hperformed⟩ := h
  have hbuilt := built_of_buildEnvelope hhead
  have heid : (c.chokepoint inputs).outEid = c.commitEid := if_neg hbuilt.entity
  have hentity : ∀ ent now, .recordEntity ent now ∈
      (c.chokepoint inputs).ops u ++ [Op.recordReceipt (c.receipt env) c.receiptNow] →
      ent = (c.chokepoint inputs).outputEntity u := by
    intro ent now hop
    rcases mem_append.mp hop with hop | hop
    · exact (ChokepointCall.entity_of_mem hop).2
    · cases mem_singleton.mp hop
  obtain ⟨now, hop⟩ := ChokepointCall.entity_mem hmints
  have hop' := mem_append_left [Op.recordReceipt (c.receipt env) c.receiptNow] hop
  refine ⟨?_, hperformed.snapshot hbuilt ?_ ⟨_, now, hop', heid⟩ ?_⟩
  · -- the entity that was stored bounds the time of the envelope
    obtain ⟨t, reply, hreply⟩ := hperformed.returned _ hop'
    obtain ⟨cells, hcells, -⟩ := perform_recordEntity hreply
    have htime := bounds_of_stampOr (entityWrite_bounds hcells)
    have hmem : Op.recordReceipt (c.receipt env) c.receiptNow ∈
        (c.chokepoint inputs).ops u ++ [Op.recordReceipt (c.receipt env) c.receiptNow] :=
      mem_append_right _ (mem_singleton_self _)
    obtain ⟨t', reply', hreply'⟩ := hperformed.returned _ hmem
    obtain ⟨row, hrow, -⟩ := perform_recordReceipt hreply'
    exact hbuilt.isSealed lineageIssuer_ne_empty (fun _ he => nomatch he) htime ⟨rfl, rfl, rfl⟩ hrow
      ((hperformed.mem_receipts row).mpr (.inr ⟨_, _, hmem, hrow⟩))
  · intro ent now hop
    rw [hentity ent now hop]
    exact ⟨nodup_nil, trivial⟩
  · intro ent now hop _
    rw [hentity ent now hop]
    rfl

theorem UploadCall.entity_of_mem {c : UploadCall} {p : UploadFile × List (String × Json)}
    {ent : Entity} {now : ℤ} (h : .recordEntity ent now ∈ c.fileOps p) :
    ent = c.outputEntity p.1 := by
  rcases mem_append.mp h with h | h
  · obtain ⟨g, hg, t, heq⟩ := mem_mapIdx_clock h
    rcases mem_cons.mp hg with rfl | hg
    · cases heq
      rfl
    · simp only [UploadCall.outputEdges, mem_append, mem_cons, not_mem_nil, or_false,
        mem_map] at hg
      rcases hg with (rfl | rfl) | ⟨gid, -, rfl⟩ <;> cases heq
  · cases mem_singleton.mp h

theorem UploadCall.entity_mem (c : UploadCall) (p : UploadFile × List (String × Json)) :
    .recordEntity (c.outputEntity p.1) (p.1.outputClock 0) ∈ c.fileOps p := by
  rw [UploadCall.fileOps, UploadCall.outputOps, mapIdx_cons]
  exact mem_append_left _ mem_cons_self

theorem UploadDone.isSealed {c : UploadCall} {children : List (List (String × Json))}
    (h : UploadDone u s c children s') (hnodup : (c.files.map UploadFile.outEid).Nodup) :
    ∀ p ∈ c.files.zip children, IsSealed u s'.db p.1.outEid p.2 ∧
      ∃ ent, s'.db.getEntity p.1.outEid = some ent ∧ digestDiffers p.2 ent = false := by
  obtain ⟨⟨head, hhead⟩, plan, hperformed⟩ := h
  rintro ⟨f, child⟩ hp
  have hbuilt := built_of_buildEnvelope (forall₂_zip hhead hp)
  -- only phase 2 records entities
  have hentity : ∀ ent now, .recordEntity ent now ∈
      (plan.flatMap fun p => (c.chokepoint p).ops u) ++ (c.files.zip children).flatMap c.fileOps →
      ∃ q ∈ c.files, ent = c.outputEntity q := by
    intro ent now hop
    rcases mem_append.mp hop with hop | hop
    · obtain ⟨q, -, hop⟩ := mem_flatMap.mp hop
      have hmints := (ChokepointCall.entity_of_mem hop).1
      rw [c.mints_chokepoint] at hmints
      cases hmints
    · obtain ⟨q, hq, hop⟩ := mem_flatMap.mp hop
      exact ⟨q.1, (of_mem_zip hq).1, UploadCall.entity_of_mem hop⟩
  have hfile : ∀ op ∈ c.fileOps (f, child), op ∈
      (plan.flatMap fun p => (c.chokepoint p).ops u) ++ (c.files.zip children).flatMap c.fileOps :=
    fun op hop => mem_append_right _ (mem_flatMap.mpr ⟨_, hp, hop⟩)
  have hop := hfile _ (c.entity_mem (f, child))
  refine ⟨?_, hperformed.snapshot hbuilt ?_ ⟨_, _, hop, rfl⟩ ?_⟩
  · obtain ⟨t, reply, hreply⟩ := hperformed.returned _ hop
    obtain ⟨cells, hcells, -⟩ := perform_recordEntity hreply
    have htime := bounds_of_stampOr (entityWrite_bounds hcells)
    have hmem := hfile _ (mem_append_right (c.outputOps f)
      (mem_singleton_self (Op.recordReceipt (f.receipt child) f.receiptNow)))
    obtain ⟨t', reply', hreply'⟩ := hperformed.returned _ hmem
    obtain ⟨row, hrow, -⟩ := perform_recordReceipt hreply'
    have hextra : ∀ e, some [("destination", Json.str c.destination)] = some e →
        Distinct (.obj e) ∧ hasAnyFields isUnwritable e = false := by
      rintro e he
      cases he
      exact ⟨⟨nodup_singleton _, trivial, trivial⟩, rfl⟩
    exact hbuilt.isSealed lineageIssuer_ne_empty hextra htime ⟨rfl, rfl, rfl⟩ hrow
      ((hperformed.mem_receipts row).mpr (.inr ⟨_, _, hmem, hrow⟩))
  · intro ent now hop
    obtain ⟨q, -, rfl⟩ := hentity ent now hop
    exact ⟨nodup_nil, trivial⟩
  · -- the identifiers of the batch differ, so the entity is the one of this file
    intro ent now hop heid
    obtain ⟨q, hq, rfl⟩ := hentity ent now hop
    obtain rfl : q = f := inj_on_of_nodup_map hnodup hq (of_mem_zip hp).1 heid
    rfl

/-! ## Runs -/

/-- A call of an operation that seals receipts. -/
inductive Sealing where
  | commit (c : CommitCall)
  | upload (c : UploadCall)
  | exported (c : ExportCall)

/-- The store after a call, whatever it returned or raised. -/
def sealStep (u : UnicodeDb) (s : Store) : Sealing → Store
  | .commit c => (s.recordCommit u c).1
  | .upload c => (s.recordUpload u c).1
  | .exported c => (s.recordExport u c).1

/-- The envelopes that a call returns. -/
def Sealing.returned (u : UnicodeDb) (s : Store) : Sealing → List (List (String × Json))
  | .commit c => (s.recordCommit u c).2.toOption.toList
  | .upload c => ((s.recordUpload u c).2.toOption).getD []
  | .exported _ => []

/-- The receipts of a landed file. -/
def ExportCall.receipts (u : UnicodeDb) (c : ExportCall) (f : ExportFile) : List Receipt :=
  ExportCall.sidecar f :: ((c.manifest.bind fun children =>
    (manifestChild u children f.entity).toOption).toList.map (ExportCall.manifestReceipt f))

/-- The receipts that a call seals: those of a call that raises are rolled back. -/
def Sealing.receipts (u : UnicodeDb) (s : Store) : Sealing → List Receipt
  | .commit c => (s.recordCommit u c).2.toOption.toList.map c.receipt
  | .upload c =>
    (c.files.zip ((s.recordUpload u c).2.toOption.getD [])).map fun p => p.1.receipt p.2
  | .exported c =>
    if (s.recordExport u c).2.toOption.isSome then c.files.flatMap (c.receipts u) else []

/-- What a call does to the receipts: the rows stay, and a new one seals a dictionary among
`rs`. -/
structure Seals (s s' : Store) (rs : List Receipt) : Prop where
  scope : s'.scope = s.scope
  kept : ∀ cells ∈ s.db.cells .receipts, cells ∈ s'.db.cells .receipts
  fresh : ∀ cells ∈ s'.db.cells .receipts, cells ∈ s.db.cells .receipts ∨
    ∃ r ∈ rs, Distinct (.obj r.payload) ∧
      ∃ now, (receiptWrite r now).cellsIn .receipts = some cells

theorem Seals.of_eq (rs : List Receipt) (hscope : s'.scope = s.scope)
    (heq : s'.db.cells .receipts = s.db.cells .receipts) : Seals s s' rs :=
  ⟨hscope, fun _ h => heq ▸ h, fun _ h => .inl (heq ▸ h)⟩

theorem Performed.seals {ops : List Op} {rs : List Receipt} (h : Performed u s s' ops)
    (hops : ∀ r now, .recordReceipt r now ∈ ops → r ∈ rs ∧ Distinct (.obj r.payload)) :
    Seals s s' rs := by
  refine ⟨h.rows.scope, fun cells hcells => (h.mem_receipts cells).mpr (.inl hcells), ?_⟩
  intro cells hcells
  rcases (h.mem_receipts cells).mp hcells with hold | ⟨r, now, hop, hrow⟩
  · exact .inl hold
  · obtain ⟨hr, hdistinct⟩ := hops r now hop
    exact .inr ⟨r, hr, hdistinct, now, hrow⟩

section

variable (hscope : s.scope = none)
include hscope

theorem seals_commit (c : CommitCall) :
    Seals s (s.recordCommit u c).1 (Sealing.receipts u s (.commit c)) := by
  rcases recordCommit_cases (u := u) s c with ⟨env, henv, hdone⟩ | ⟨e, -, hkeep, hrows⟩
  · obtain ⟨⟨head, hhead⟩, inputs, -, hperformed⟩ := hdone
    refine hperformed.seals fun r now hop => ?_
    rcases mem_append.mp hop with hop | hop
    · exact absurd hop (ChokepointCall.no_receipt _ r now)
    · cases mem_singleton.mp hop
      refine ⟨?_, (built_of_buildEnvelope hhead).distinct fun _ he => nomatch he⟩
      rw [Sealing.receipts, henv]
      exact mem_singleton_self _
  · exact .of_eq _ hkeep (hrows hscope)

theorem seals_upload (c : UploadCall) :
    Seals s (s.recordUpload u c).1 (Sealing.receipts u s (.upload c)) := by
  rcases recordUpload_cases (u := u) s c with ⟨children, hchildren, hdone⟩ | ⟨e, -, hkeep, hrows⟩
  · obtain ⟨⟨head, hhead⟩, plan, hperformed⟩ := hdone
    refine hperformed.seals fun r now hop => ?_
    rcases mem_append.mp hop with hop | hop
    · obtain ⟨p, -, hop⟩ := mem_flatMap.mp hop
      exact absurd hop (ChokepointCall.no_receipt _ r now)
    · obtain ⟨p, hp, hop⟩ := mem_flatMap.mp hop
      rcases mem_append.mp hop with hop | hop
      · -- the calls for the artifact record no receipt
        obtain ⟨g, hg, t, heq⟩ := mem_mapIdx_clock hop
        rcases mem_cons.mp hg with rfl | hg
        · cases heq
        · simp only [UploadCall.outputEdges, mem_append, mem_cons, not_mem_nil,
            or_false, mem_map] at hg
          rcases hg with (rfl | rfl) | ⟨gid, -, rfl⟩ <;> cases heq
      · cases mem_singleton.mp hop
        refine ⟨?_, (built_of_buildEnvelope (forall₂_zip hhead hp)).distinct ?_⟩
        · rw [Sealing.receipts, hchildren]
          exact mem_map.mpr ⟨p, hp, rfl⟩
        · intro e he
          cases he
          exact ⟨nodup_singleton _, trivial, trivial⟩
  · exact .of_eq _ hkeep (hrows hscope)

theorem seals_export (c : ExportCall) :
    Seals s (s.recordExport u c).1 (Sealing.receipts u s (.exported c)) := by
  rcases recordExport_cases (u := u) s c with ⟨res, hres, hperformed⟩ | ⟨e, -, hkeep, hrows⟩
  · refine hperformed.seals fun r now hop => ?_
    have hreceipts : Sealing.receipts u s (.exported c) = c.files.flatMap (c.receipts u) := by
      rw [Sealing.receipts, hres]
      rfl
    rw [hreceipts, mem_flatMap]
    rcases mem_append.mp hop with hop | hop
    · simp [ExportCall.sourceOps, ExportCall.edge] at hop
    · obtain ⟨f, hf, hop⟩ := mem_flatMap.mp hop
      rcases mem_append.mp hop with hop | hop
      · simp only [ExportCall.fileOps, ExportCall.edge, mem_cons, not_mem_nil, or_false,
          reduceCtorEq, false_or, Op.recordReceipt.injEq] at hop
        obtain ⟨rfl, -⟩ := hop
        exact ⟨⟨f, hf, mem_cons_self⟩, f.receipt.distinct⟩
      · obtain ⟨child, hchild, heq⟩ := mem_map.mp hop
        cases heq
        exact ⟨⟨f, hf, mem_cons_of_mem _ (mem_map.mpr ⟨child, hchild, rfl⟩)⟩,
          child.distinct⟩
  · exact .of_eq _ hkeep (hrows hscope)

/-- **One call.** -/
theorem seals_sealStep (a : Sealing) :
    Seals s (sealStep u s a) (a.receipts u s) := by
  cases a with
  | commit c => exact seals_commit hscope c
  | upload c => exact seals_upload hscope c
  | exported c => exact seals_export hscope c

end

/-- The row was sealed by one of the calls of the run. -/
def SealedBy (u : UnicodeDb) (s₀ : Store) (acts : List Sealing) (cells : List Cell) : Prop :=
  ∃ before a after r now, acts = before ++ a :: after ∧
    r ∈ a.receipts u (run (sealStep u) s₀ before) ∧ Distinct (.obj r.payload) ∧
    (receiptWrite r now).cellsIn .receipts = some cells

/-- **A whole run**: every receipt was sealed by one of the calls. -/
theorem sealedBy_run {s₀ : Store} (hscope : s₀.scope = none) (hfresh : s₀.db.cells .receipts = [])
    (acts : List Sealing) :
    (run (sealStep u) s₀ acts).scope = none ∧
      ∀ cells ∈ (run (sealStep u) s₀ acts).db.cells .receipts, SealedBy u s₀ acts cells := by
  -- the newest call adds rows to those of the calls before it
  induction acts using reverseRecOn with
  | nil =>
    refine ⟨hscope, fun cells hcells => ?_⟩
    rw [run_nil, hfresh] at hcells
    exact nomatch hcells
  | append_singleton acts a ih =>
    obtain ⟨hclosed, hrows⟩ := ih
    have hstep := seals_sealStep (u := u) hclosed a
    rw [run_append]
    refine ⟨hstep.scope.trans hclosed, fun cells hcells => ?_⟩
    rcases hstep.fresh cells hcells with hold | ⟨r, hr, hdistinct, now, hrow⟩
    · obtain ⟨before, a', after, r, now, rfl, hr, hdistinct, hrow⟩ := hrows cells hold
      exact ⟨before, a', after ++ [a], r, now, by simp, hr, hdistinct, hrow⟩
    · exact ⟨acts, a, [], r, now, rfl, hr, hdistinct, hrow⟩

theorem kept_run (hscope : s.scope = none) (acts : List Sealing) :
    ∀ cells ∈ s.db.cells .receipts, cells ∈ (run (sealStep u) s acts).db.cells .receipts := by
  have hall : Meets (sealStep u) (fun _ _ => True) s acts := .of_forall (fun _ _ => trivial) s acts
  refine Meets.relation (P := fun s => s.scope = none)
    (R := fun s s' => ∀ cells ∈ s.db.cells .receipts, cells ∈ s'.db.cells .receipts)
    (fun _ _ h => h) (fun _ _ _ h h' cells hc => h' cells (h cells hc))
    (fun s a _ hs => (seals_sealStep hs a).scope.trans hs)
    (fun s a _ hs => (seals_sealStep hs a).kept) hall hscope

theorem sealed_of_returned {a : Sealing} {env : List (String × Json)}
    (huuid : ∀ c, a = .upload c → (c.files.map UploadFile.outEid).Nodup)
    (h : env ∈ a.returned u s) :
    ∃ eid ent, IsSealed u (sealStep u s a).db eid env ∧
      (sealStep u s a).db.getEntity eid = some ent ∧ digestDiffers env ent = false := by
  cases a with
  | commit c =>
    rcases recordCommit_cases (u := u) s c with ⟨env', henv, hdone⟩ | ⟨e, herr, -⟩
    · rw [Sealing.returned, henv] at h
      cases mem_singleton.mp h
      obtain ⟨hsealed, ent, hent, hdigest⟩ := hdone.isSealed
      exact ⟨_, ent, hsealed, hent, hdigest⟩
    · rw [Sealing.returned, herr] at h
      exact nomatch h
  | upload c =>
    rcases recordUpload_cases (u := u) s c with ⟨children, hchildren, hdone⟩ | ⟨e, herr, -⟩
    · rw [Sealing.returned, hchildren] at h
      obtain ⟨head, hhead⟩ := hdone.built
      have hzip : (c.files.zip children).map Prod.snd = children :=
        map_snd_zip hhead.length_eq.ge
      obtain ⟨p, hp, rfl⟩ : ∃ p ∈ c.files.zip children, p.2 = env := by
        rw [← mem_map, hzip]
        exact h
      obtain ⟨hsealed, ent, hent, hdigest⟩ := hdone.isSealed (huuid c rfl) p hp
      exact ⟨_, ent, hsealed, hent, hdigest⟩
    · rw [Sealing.returned, herr] at h
      exact nomatch h
  | exported c => exact nomatch h

/-- A file that is recorded. -/
def fileStore : Store :=
  runOps .ascii [.recordEntity { eid := "file:1", kind := "artifact", createdAt := 1 } 1]

/-- The upload of the file. -/
def fileUpload : Sealing := .upload (uploadOf "file:1" "upload:1" "activity:1")

end Lineage
