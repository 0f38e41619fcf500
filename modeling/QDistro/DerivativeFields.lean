/-
# The fields of a derivative

A narrowing that is allowed records a derivative.  The guards, compartments and conflict classes
that the change leaves alone are the source's; `declassify` has no parameter for facets, so the
derivative's sensitivity is always read as `internal`.  It is the source's where the source's is
`internal` too (`narrow_residual_iff`).
-/
import QDistro.SecurityLadders

open JsonText Lineage SecurityGrants

namespace SecurityMutation

variable {u : UnicodeDb} {admin : String}

/-! ## The row of the derivative -/

variable {s : Store}

theorem cells_of_performAll {ops : List Op} {ent : Entity} {now : ℤ}
    (hmem : .recordEntity ent now ∈ ops) (h : (s.performAll u ops).2 = .ok ()) :
    ∃ cells, cells ∈ cellsOf (ops.flatMap (Op.writes u)) .entities := by
  induction ops generalizing s with
  | nil => exact absurd hmem List.not_mem_nil
  | cons op ops ih =>
    rw [Store.performAll] at h
    split at h
    next s' r heq =>
      rw [List.flatMap_cons, cellsOf_append]
      rcases List.mem_cons.mp hmem with rfl | hmem
      · have hperform : (s.perform u (.recordEntity ent now)).2 = .ok r := by rw [heq]
        obtain ⟨ids, hids, -⟩ := except_map_ok hperform
        cases hws : entityWrites u ent now with
        | error e =>
          rw [hws] at hids
          cases hids
        | ok ws =>
          have hwritten : (s.db.writeAll ws).2 = .ok ids := by
            rw [hws] at hids
            exact (s.txn_result _).symm.trans hids
          cases ok_of_require (ok_of_require hws)
          obtain ⟨p, hp⟩ := Option.ne_none_iff_exists'.mp
            (Db.writeAll_ok hwritten _ List.mem_cons_self)
          refine ⟨p.1, List.mem_append_left _ ?_⟩
          rw [Op.writes, hws, cellsOf]
          refine List.mem_filterMap.mpr ⟨entityWrite ent now, List.mem_cons_self, ?_⟩
          rw [Write.cellsIn, if_pos (by rfl), hp]
          rfl
      · obtain ⟨cells, hcells⟩ := ih hmem h
        exact ⟨cells, List.mem_append_right _ hcells⟩
    next s' e heq => cases h

theorem declassify_ok {c : DeclassifyCall} {out : String} (h : (s.declassify u c).2 = .ok out) :
    out = c.outEid ∧
      (s.enter.performAll u c.ops).2 = .ok () := by
  unfold Store.declassify at h
  split at h
  · cases h
  split at h
  · cases h
  obtain ⟨v, hv, hout⟩ := except_map_ok h
  refine ⟨hout.symm, ?_⟩
  have hresult := (Store.transaction_extends (s := s) (fun s => s.performAll u c.ops)
    (Store.performAll_extends (u := u) (records_declassifyOps c) s.enter).choose_spec.2.1).1
  rw [← hresult]
  exact hv

theorem outputEntity_mem_ops {c : DeclassifyCall} {gid : String} (h : c.agentGid = some gid) :
    .recordEntity c.outputEntity (c.clock 4) ∈ c.ops := by
  rw [DeclassifyCall.ops, h]
  simp [DeclassifyCall.edge]

theorem narrowBody_ok {current : Entity} {c : Reclassify} {via : List (String × String)}
    {out : String} (h : (narrowBody u current c via s).2 = .ok out) :
    out = (declassifyCall current c).outEid ∧
      ∃ cells, cells ∈ cellsOf ((declassifyCall current c).ops.flatMap (Op.writes u)) .entities := by
  unfold narrowBody at h
  split at h
  next s' e heq => cases h
  next s' out' heq =>
    obtain ⟨v, -, hv⟩ := except_map_ok h
    have hdecl : (s.declassify u (declassifyCall current c)).2 = .ok out' := by rw [heq]
    obtain ⟨hout, hperform⟩ := declassify_ok hdecl
    exact ⟨hv.symm.trans hout, cells_of_performAll (outputEntity_mem_ops rfl) hperform⟩

/-- **A narrowing that returns has recorded its derivative.** -/
theorem getEntity_doNarrow {current : Entity} {c : Reclassify} {via : List (String × String)}
    {result : MutationResult} (h : (doNarrow u current c via s).2 = .ok result)
    (hallowed : result.allowed = true) :
    ∃ out now, result.resultEid = some out ∧ (doNarrow u current c via s).1.db.getEntity out =
        some ((declassifyCall current c).outputEntity.readBack now) := by
  obtain ⟨ws, hrec, hws⟩ := recorded_narrowBody (u := u) current c via s.enter
  have hresult := (Store.transaction_extends (narrowBody u current c via) hrec.choose_spec.2.1).1
  have htxn := Recorded.transaction (narrowBody u current c via) hrec
  unfold doNarrow at h ⊢
  split_ifs at h ⊢ with hauth hverdict
  · cases h
    cases hallowed
  · cases h
    cases hallowed
  split at h
  next s' e heq => cases h
  next s' out heq =>
    rw [heq] at htxn hresult
    cases h
    obtain ⟨hout, cells, hcells⟩ := narrowBody_ok hresult.symm
    obtain ⟨now, hnow⟩ := entities_declassifyOps (u := u) (declassifyCall current c)
    obtain ⟨ws', hext, -, hall⟩ := htxn.cells
    rw [hnow] at hcells hws
    obtain ⟨hin, hone⟩ := cellsOf_recordEntity _ now hcells
    have hdist : Distinct (.obj (declassifyCall current c).outputEntity.facets) := by
      simp [DeclassifyCall.outputEntity, Distinct, DistinctFields]
    obtain ⟨hcol, hread⟩ := readEntity_entityWrite hin hdist
    refine ⟨out, now, rfl, ?_⟩
    dsimp only
    rw [hext.getEntity, hall out rfl, hws, hone, latest_singleton, hcol, hout]
    rw [DeclassifyCall.outputEntity, if_pos rfl, hread]
    rfl

/-! ## The fields -/

/-- Every field that the change leaves alone has the same effective value. -/
structure Residual (change : SecurityChange) (source derivative : Entity) : Prop where
  guards : change.guards = none → ∀ g, g ∈ derivative.guards ↔ g ∈ source.guards
  compartments : change.compartments = none →
    ∀ x, x ∈ derivative.compartments ↔ x ∈ source.compartments
  conflictClasses : change.conflictClasses = none →
    ∀ x, x ∈ derivative.conflictClasses ↔ x ∈ source.conflictClasses
  sensitivity : change.sensitivity = none →
    currentSensitivity derivative = currentSensitivity source

theorem currentSensitivity_derivative (current : Entity) (c : Reclassify) (now : ℤ) :
    currentSensitivity ((declassifyCall current c).outputEntity.readBack now) = "internal" := by
  have hdist : Distinct (.obj (declassifyCall current c).outputEntity.facets) := by
    simp [DeclassifyCall.outputEntity, Distinct, DistinctFields]
  rw [currentSensitivity, facetIn_readBack hdist]
  rfl

theorem residual_iff (current : Entity) (c : Reclassify) (now : ℤ) :
    Residual c.change current ((declassifyCall current c).outputEntity.readBack now) ↔
      (c.change.sensitivity = none → currentSensitivity current = "internal") := by
  have hset : ∀ {requested : Option (List String)} (sets : List String), requested = none →
      ∀ x, x ∈ sortedSet (sortedSet (requested.getD sets)) ↔ x ∈ sets := by
    intro requested sets hnone x
    rw [hnone, Option.getD_none, mem_sortedSet, mem_sortedSet]
  constructor
  · intro h hnone
    rw [← h.sensitivity hnone, currentSensitivity_derivative]
  · intro h
    constructor
    · exact hset _
    · exact hset _
    · exact hset _
    · intro hnone
      rw [currentSensitivity_derivative, h hnone]

/-- **A derivative keeps what its narrowing does not name, its sensitivity apart.**  The derivative
of a narrowing that is allowed has the source's value in every field that the change leaves alone
exactly where the change names a sensitivity or the source is read as `internal`. -/
theorem narrow_residual_iff (admin : String) {s : Store} {c : Reclassify} {source : Entity}
    {result : MutationResult} (hsource : s.db.getEntity c.eid = some source)
    (hclass : classifyChange source c.change = .narrow)
    (h : (reclassify u admin s c).2 = .ok result) (hallowed : result.allowed = true) :
    ∃ out derivative, result.resultEid = some out ∧
      (reclassify u admin s c).1.db.getEntity out = some derivative ∧
      (Residual c.change source derivative ↔
        (c.change.sensitivity = none → currentSensitivity source = "internal")) := by
  unfold reclassify at h ⊢
  split at h
  next e hgate => cases h
  next result' hgate =>
    -- no write: the change would be no narrowing, or it is refused
    cases h
    unfold gate at hgate
    rw [hsource] at hgate
    dsimp only at hgate
    rw [hclass, if_neg (by decide : ¬ ChangeClass.narrow = .noop)] at hgate
    split_ifs at hgate with hactor
    split at hgate
    · cases hgate
    · cases hgate
    · cases hgate
      cases hallowed
  next current klass via hgate =>
    obtain ⟨hcurrent, hklass, -⟩ := gate_spec hgate
    rw [hsource] at hcurrent
    cases hcurrent
    rw [hclass] at hklass
    subst hklass
    obtain ⟨out, now, hout, hent⟩ := getEntity_doNarrow h hallowed
    exact ⟨out, _, hout, hent, residual_iff source c now⟩

/-! ## On a restricted entity -/

/-- A narrowing with the authority and the verdict it needs. -/
def narrowing (change : SecurityChange) : Reclassify :=
  { request change (some "person:officer") with policyVerdict := some declassifyVerdict }

/-- What a call answers: whether it is allowed, and the entity that carries the result. -/
def answer (s : Store) (c : Reclassify) : Option (Bool × Option String) :=
  (reclassify UnicodeDb.ascii adminAppPrincipal s c).2.toOption.map fun r => (r.allowed, r.resultEid)

theorem exists_of_answer {c : Reclassify} {out : Option String}
    (h : answer s c = some (true, out)) :
    ∃ result, (reclassify UnicodeDb.ascii adminAppPrincipal s c).2 = .ok result ∧
      result.allowed = true ∧ result.resultEid = out := by
  obtain ⟨result, hresult, heq⟩ := Option.map_eq_some_iff.mp h
  have hfields := Prod.mk.inj heq
  refine ⟨result, ?_, hfields.1, hfields.2⟩
  cases hr : (reclassify UnicodeDb.ascii adminAppPrincipal s c).2 with
  | error e =>
    rw [hr] at hresult
    cases hresult
  | ok result' =>
    rw [hr] at hresult
    cases hresult
    rfl

/-- The guards and the sensitivity are lowered together, as the change says. -/
theorem restricted_narrowed : ∃ source result out derivative,
    restrictedStore.db.getEntity "file:1" = some source ∧
    (reclassify UnicodeDb.ascii adminAppPrincipal restrictedStore
      (narrowing { guards := some [], sensitivity := some "internal" })).2 = .ok result ∧
    result.resultEid = some out ∧
    (reclassify UnicodeDb.ascii adminAppPrincipal restrictedStore
      (narrowing { guards := some [], sensitivity := some "internal" })).1.db.getEntity out =
        some derivative ∧
    Residual { guards := some [], sensitivity := some "internal" } source derivative := by
  have hsource : (restrictedStore.db.getEntity "file:1").map (fun source => classifyChange source
      { guards := some [], sensitivity := some "internal" }) = some .narrow := by decide +kernel
  obtain ⟨source, hent, hclass⟩ := Option.map_eq_some_iff.mp hsource
  have hanswer : answer restrictedStore
      (narrowing { guards := some [], sensitivity := some "internal" }) =
        some (true, some "entity:1") := by decide +kernel
  obtain ⟨result, hresult, hallowed, -⟩ := exists_of_answer hanswer
  obtain ⟨out, derivative, hout, hderivative, hiff⟩ :=
    narrow_residual_iff adminAppPrincipal hent hclass hresult hallowed
  refine ⟨source, result, out, derivative, hent, hresult, hout, hderivative, hiff.mpr ?_⟩
  intro hnone
  cases hnone

/-- **A narrowing of the guards lowers the sensitivity**: the source is restricted, the change names
its guards only, and the derivative is internal. -/
theorem guards_lower_sensitivity : ∃ source result derivative,
    restrictedStore.db.getEntity "file:1" = some source ∧
    classifyChange source { guards := some [] } = .narrow ∧
    (reclassify UnicodeDb.ascii adminAppPrincipal restrictedStore
      (narrowing { guards := some [] })).2 = .ok result ∧ result.allowed = true ∧
    result.resultEid = some "entity:1" ∧
    (reclassify UnicodeDb.ascii adminAppPrincipal restrictedStore
      (narrowing { guards := some [] })).1.db.getEntity "entity:1" = some derivative ∧
    currentSensitivity source = "restricted" ∧ currentSensitivity derivative = "internal" := by
  have hsource : (restrictedStore.db.getEntity "file:1").map (fun source =>
      (classifyChange source { guards := some [] }, currentSensitivity source)) =
        some (.narrow, "restricted") := by decide +kernel
  obtain ⟨source, hent, heq⟩ := Option.map_eq_some_iff.mp hsource
  have hanswer : answer restrictedStore (narrowing { guards := some [] }) =
      some (true, some "entity:1") := by decide +kernel
  obtain ⟨result, hresult, hallowed, hout⟩ := exists_of_answer hanswer
  have hafter : ((reclassify UnicodeDb.ascii adminAppPrincipal restrictedStore
      (narrowing { guards := some [] })).1.db.getEntity "entity:1").map currentSensitivity =
        some "internal" := by decide +kernel
  obtain ⟨derivative, hderivative, hlow⟩ := Option.map_eq_some_iff.mp hafter
  exact ⟨source, result, derivative, hent, (Prod.mk.inj heq).1, hresult, hallowed, hout, hderivative,
    (Prod.mk.inj heq).2, hlow⟩

end SecurityMutation
