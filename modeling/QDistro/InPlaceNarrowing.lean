/-
# Narrowing in place

The current snapshot of an entity is its newest row, and four operations append rows:
`record_commit`, `record_upload`, `record_export_activity` and `reclassify`.  A mutation
never narrows its own entity.  A commit and an export record under identifiers their
caller chose, with the union of the sources and with nothing at all, and do not look at
what the identifier already carries; so an entity keeps its security fields as long as
these do (`no_narrowing_in_place`).
-/
import QDistro.ExportLineage
import QDistro.GuardPropagation
import QDistro.SecurityLadders

open JsonText Lineage SecurityGrants SecurityMutation TransitionSystem

namespace InPlaceNarrowing

variable {u : UnicodeDb} {admin : String}

/-- An operation that records entities. -/
inductive Operation where
  | commit (c : CommitCall)
  | upload (c : UploadCall)
  | exports (c : ExportCall)
  | reclassify (c : Reclassify)

/-- The store after an operation, whatever it returned or raised. -/
def operate (u : UnicodeDb) (admin : String) (s : Store) : Operation → Store
  | .commit c => (s.recordCommit u c).1
  | .upload c => (s.recordUpload u c).1
  | .exports c => (s.recordExport u c).1
  | .reclassify c => reclassifyStep u admin s c

/-- No operation of the run takes a guard, a compartment or a conflict class from the
current snapshot of an entity. -/
def KeptInPlace (u : UnicodeDb) (admin : String) (s₀ : Store) (ops : List Operation) : Prop :=
  ∀ before op after, ops = before ++ op :: after → ∀ eid ent,
    (run (operate u admin) s₀ before).db.getEntity eid = some ent →
      ∃ ent', (run (operate u admin) s₀ (before ++ [op])).db.getEntity eid = some ent' ∧
        ent'.endpoint.Includes ent.endpoint

/-- The sources of a commit carry what its identifier carries; an upload's identifiers and
those of an export carry nothing; a derivative's identifier is new. -/
def Keeps (u : UnicodeDb) (admin : String) (s : Store) : Operation → Prop
  | .commit c => ∀ inputs ∈ (c.check u s.db).toOption, (c.chokepoint inputs).Widens u s
  | .upload c => ∀ plan ∈ (c.plan u s.db).toOption,
      (∀ p ∈ plan, (c.chokepoint p).allowed u = true) →
        ∀ p ∈ plan, ∀ e ∈ s.db.snapshot p.1.outEid, e = {}
  | .exports c => ∀ eid ∈ c.sourceEid :: c.files.map ExportFile.entity,
      ∀ e ∈ s.db.snapshot eid, e = {}
  | .reclassify c => FreshDerivative u admin s c

instance (s : Store) (op : Operation) : Decidable (Keeps u admin s op) :=
  match op with
  | .commit c => inferInstanceAs (Decidable (∀ inputs ∈ (c.check u s.db).toOption, _))
  | .upload c => inferInstanceAs (Decidable (∀ plan ∈ (c.plan u s.db).toOption, _))
  | .exports c => inferInstanceAs (Decidable (∀ eid ∈ c.sourceEid :: c.files.map ExportFile.entity, _))
  | .reclassify c => inferInstanceAs (Decidable (FreshDerivative u admin s c))

/-! ## One operation -/

/-- Every snapshot is included in the later one. -/
def Widens (s s' : Store) : Prop :=
  ∀ eid e, s.db.snapshot eid = some e → ∃ e', s'.db.snapshot eid = some e' ∧ e'.Includes e

theorem includes_empty (e : FlowEndpoint) : e.Includes {} :=
  ⟨fun _ h => (nomatch h), fun _ h => (nomatch h), fun _ h => (nomatch h)⟩

variable {s : Store}

theorem widens_commit {c : CommitCall} (h : Keeps u admin s (.commit c)) :
    Widens s (s.recordCommit u c).1 := by
  intro eid e he
  cases hc : c.check u s.db with
  | error err =>
    rw [Store.recordCommit_of_check_error hc]
    exact ⟨e, he, .refl e⟩
  | ok inputs =>
    obtain ⟨L, D, hg, hadds⟩ := Store.recordCommit_grows_of_check hc
    have hnew := hadds.carriesNew rfl (CommitCall.snapshot_of_check hc)
    exact hg.snapshot (hnew.keeps (h inputs (by rw [hc]; rfl))) he

theorem widens_upload {c : UploadCall} (h : Keeps u admin s (.upload c)) :
    Widens s (s.recordUpload u c).1 := by
  intro eid e he
  cases hp : c.plan u s.db with
  | error err =>
    rw [Store.recordUpload_of_plan_error hp]
    exact ⟨e, he, .refl e⟩
  | ok plan =>
    obtain ⟨L, D, hg, hadds⟩ := Store.recordUpload_grows_of_plan hp
    refine hg.snapshot (fun l hl e' he' => ?_) he
    rcases hadds with ⟨rfl, -⟩ | ⟨hall, hadds⟩
    · exact absurd hl (by simp)
    · obtain ⟨f, hf, rfl⟩ := hadds.labels l hl
      obtain ⟨p, hp', rfl⟩ := List.mem_map.mp hf
      rw [h plan (by rw [hp]; rfl) hall p hp' e' he']
      exact .refl _

theorem entity_of_export {c : ExportCall} {cells : List Cell} {eid : String}
    (h : cells ∈ cellsOf ((c.allOps u).flatMap (Op.writes u)) .entities)
    (heid : colOf .entities cells "eid" = .text eid) :
    eid ∈ c.sourceEid :: c.files.map ExportFile.entity ∧ (readEntity cells).endpoint = {} := by
  have hback : ∀ (ent : Entity) (now : ℤ), Distinct (.obj ent.facets) → ent.endpoint = {} →
      cells ∈ cellsOf ((Op.recordEntity ent now).writes u) .entities →
      eid = ent.eid ∧ (readEntity cells).endpoint = {} := by
    intro ent now hd hempty hmem
    obtain ⟨hcol, hread⟩ := readEntity_entityWrite (cellsOf_recordEntity ent now hmem).1 hd
    rw [hcol, Cell.text.injEq] at heid
    refine ⟨heid.symm, ?_⟩
    rw [hread]
    simp only [Entity.endpoint, FlowEndpoint.mk.injEq] at hempty
    obtain ⟨hg, hc, hf⟩ := hempty
    simp [Entity.endpoint, Entity.readBack, hg, hc, hf, sortedSet]
  have hother : ∀ {op : Op}, Table.entities ∉ op.tables →
      cells ∉ cellsOf (op.writes u) .entities := by
    intro op hop hmem
    rw [Op.cellsOf_writes hop] at hmem
    exact absurd hmem (by simp)
  rw [cellsOf_flatMap, List.mem_flatMap] at h
  obtain ⟨op, hop, hmem⟩ := h
  rcases List.mem_append.mp hop with hop | hop
  · -- the source is the only entity among the first records
    simp only [ExportCall.sourceOps, ExportCall.edge, List.mem_cons, List.not_mem_nil, or_false] at hop
    rcases hop with rfl | rfl | rfl | rfl | rfl | rfl
    · have hd : Distinct (.obj c.sourceEntity.facets) := by
        rw [ExportCall.sourceEntity]
        dsimp only
        split <;> simp [Distinct, DistinctFields]
      obtain ⟨rfl, hempty⟩ := hback _ _ hd rfl hmem
      exact ⟨List.mem_cons_self, hempty⟩
    all_goals exact absurd hmem (hother (by simp [Op.tables]))
  · obtain ⟨f, hf, hop⟩ := List.mem_flatMap.mp hop
    rcases List.mem_append.mp hop with hop | hop
    · simp only [ExportCall.fileOps, ExportCall.edge, List.mem_cons, List.not_mem_nil, or_false] at hop
      rcases hop with rfl | rfl | rfl | rfl | rfl | rfl
      · have hd : Distinct (.obj (c.fileEntity f).facets) := by
          simp [ExportCall.fileEntity, Distinct, DistinctFields]
        obtain ⟨rfl, hempty⟩ := hback _ _ hd rfl hmem
        exact ⟨List.mem_cons_of_mem _ (List.mem_map.mpr ⟨f, hf, rfl⟩), hempty⟩
      all_goals exact absurd hmem (hother (by simp [Op.tables]))
    · obtain ⟨child, -, rfl⟩ := List.mem_map.mp hop
      exact absurd hmem (hother (by simp [Op.tables]))

theorem widens_export {c : ExportCall} (h : Keeps u admin s (.exports c)) :
    Widens s (s.recordExport u c).1 := by
  intro eid e he
  obtain ⟨ws, hext, hpre⟩ := s.recorded_export (u := u) c
  rw [Db.snapshot_eq_getEntity, hext.getEntity]
  cases hl : latest (cellsOf ws .entities) eid with
  | none =>
    rw [Option.none_or, ← Db.snapshot_eq_getEntity]
    exact ⟨e, he, .refl e⟩
  | some ent =>
    obtain ⟨cells, hmem, heid, rfl⟩ := latest_mem hl
    obtain ⟨hin, -⟩ := entity_of_export ((hpre _).subset hmem) heid
    refine ⟨_, rfl, ?_⟩
    rw [h eid hin e he]
    exact includes_empty _

theorem mem_getD_of_not_removes {requested : Option (List String)} {current : List String}
    (h : removes requested current = false) {x : String} (hx : x ∈ current) :
    x ∈ requested.getD current := by
  cases requested with
  | none => exact hx
  | some xs =>
    have := h
    simp only [removes, Bool.not_eq_false', includes, List.all_eq_true] at this
    simpa using this x hx

theorem not_removes_of_classify {current : Entity} {change : SecurityChange}
    (h : classifyChange current change ≠ .narrow) :
    removes change.guards current.guards = false ∧
      removes change.compartments current.compartments = false ∧
      removes change.conflictClasses current.conflictClasses = false := by
  by_contra hne
  apply h
  unfold classifyChange
  rw [if_pos]
  simp only [Bool.or_eq_true]
  by_cases hg : removes change.guards current.guards = true
  · exact .inl (.inl (.inl hg))
  by_cases hc : removes change.compartments current.compartments = true
  · exact .inl (.inl (.inr hc))
  by_cases hf : removes change.conflictClasses current.conflictClasses = true
  · exact .inl (.inr hf)
  · exact absurd ⟨by simpa using hg, by simpa using hc, by simpa using hf⟩ hne

theorem readBack_includes {ent : Entity} {e : FlowEndpoint} (h : ent.endpoint.Includes e) (now : ℤ) :
    (ent.readBack now).endpoint.Includes e :=
  ⟨fun g hg => mem_sortedSet.mpr (h.1 g hg), fun c hc => mem_sortedSet.mpr (h.2.1 c hc),
    fun c hc => mem_sortedSet.mpr (h.2.2 c hc)⟩

theorem widens_reclassify {c : Reclassify} (h : FreshDerivative u admin s c) :
    Widens s (reclassifyStep u admin s c) := by
  intro eid e he
  rw [Db.snapshot_eq_getEntity, Option.map_eq_some_iff] at he
  obtain ⟨ent, hent, rfl⟩ := he
  have htighten : ∀ current now, plan u admin s.db c = some (current, .tighten) →
      ((tightened current c).readBack now).endpoint.Includes current.endpoint := by
    intro current now hplan
    obtain ⟨via, hgate⟩ := plan_eq_some.mp hplan
    have hclass : classifyChange current c.change ≠ .narrow := by
      rw [← (gate_spec hgate).2.1]
      simp
    obtain ⟨hg, hc, hf⟩ := not_removes_of_classify hclass
    refine readBack_includes ?_ now
    exact ⟨fun x hx => mem_getD_of_not_removes hg hx, fun x hx => mem_getD_of_not_removes hc hx,
      fun x hx => mem_getD_of_not_removes hf hx⟩
  obtain ⟨ent', hent', hinc⟩ := rel_reclassify
    (R := fun ent ent' => ent'.endpoint.Includes ent.endpoint) (fun ent => .refl _) h htighten
    (fun _ _ now _ _ _ _ _ => readBack_includes (.refl _) now) hent
  exact ⟨ent'.endpoint, by rw [Db.snapshot_eq_getEntity, hent']; rfl, hinc⟩

theorem widens_operate {op : Operation} (h : Keeps u admin s op) :
    Widens s (operate u admin s op) := by
  cases op with
  | commit c => exact widens_commit h
  | upload c => exact widens_upload h
  | exports c => exact widens_export h
  | reclassify c => exact widens_reclassify h

/-! ## Runs -/

/-- **An entity is never narrowed in place** by operations that keep what the identifiers
they record under carry. -/
theorem no_narrowing_in_place (admin : String) (s₀ : Store) (ops : List Operation)
    (h : Meets (operate u admin) (Keeps u admin) s₀ ops) : KeptInPlace u admin s₀ ops := by
  intro before op after hsplit eid ent hent
  subst hsplit
  have hok := (Meets.append.mp h).2.1
  have hsnap : (run (operate u admin) s₀ before).db.snapshot eid = some ent.endpoint := by
    rw [Db.snapshot_eq_getEntity, hent]
    rfl
  obtain ⟨e', he', hinc⟩ := widens_operate hok eid _ hsnap
  rw [Db.snapshot_eq_getEntity, Option.map_eq_some_iff] at he'
  obtain ⟨ent', hent', rfl⟩ := he'
  rw [run_append]
  exact ⟨ent', hent', hinc⟩

/-- A sidecar for an entity. -/
def sidecarOf (entity digest : String) : ReceiptDict where
  fields := [("schema", .str "qdistro-lineage-receipt/v1"), ("kind", .str "sidecar"),
    ("entity", .str entity), ("artifact_digest", .str digest), ("locator", .null),
    ("issuer", .str "qdistro-broker"), ("chain_algo", .str "sha256-chain"),
    ("chain_head", .str "qdistro-lineage-genesis"), ("signature_algo", .null), ("key_id", .null),
    ("signature", .null), ("created_at", .int 7)]
  distinct := by simp [Distinct, DistinctFields]
  locator_text := by
    intro v hv
    have hnull : v = .null := by simpa [PyDict.lookup, eq_comm] using hv
    exact .inl hnull

/-- An export of one file under a given identifier. -/
def exportOf (entity : String) : ExportCall where
  launchToken := "0123456789abcdef"
  requestSilo := "work"
  openClass := "document"
  mode := "export"
  files :=
    let digest := String.ofList (List.replicate 64 '0')
    [⟨entity, "/home/work/report.pdf", digest, sidecarOf entity digest, fun _ => 7⟩]
  now := 7
  aid := "activity:2"
  verdictNow := 7
  clock := fun _ => 7

theorem no_narrowing_in_place_newFile :
    KeptInPlace UnicodeDb.ascii adminAppPrincipal restrictedStore
      [.exports (exportOf "file:2"),
        .reclassify (request { guards := some ["no-export", "no-print"] } none)] :=
  no_narrowing_in_place adminAppPrincipal restrictedStore _ (by decide +kernel)

/-- An export under the identifier of a guarded entity records it without guards. -/
theorem export_narrows_in_place :
    ¬ KeptInPlace UnicodeDb.ascii adminAppPrincipal restrictedStore [Operation.exports (exportOf "file:1")] := by
  intro hkept
  have hbefore : ((run (operate UnicodeDb.ascii adminAppPrincipal) restrictedStore
      []).db.getEntity "file:1").map Entity.guards = some ["no-export"] := by decide +kernel
  have hafter : ((run (operate UnicodeDb.ascii adminAppPrincipal) restrictedStore
      ([] ++ [Operation.exports (exportOf "file:1")])).db.getEntity "file:1").map Entity.guards =
        some [] := by decide +kernel
  obtain ⟨ent, hent, hguards⟩ := Option.map_eq_some_iff.mp hbefore
  obtain ⟨ent', hent', hinc⟩ := hkept [] _ [] rfl "file:1" ent hent
  rw [hent', Option.map_some, Option.some.injEq] at hafter
  have hmem := hinc.1 "no-export" (by rw [Entity.endpoint, hguards]; exact List.mem_cons_self)
  rw [Entity.endpoint, hafter] at hmem
  exact absurd hmem (by simp)

end InPlaceNarrowing
