/-
# The ladders of a security snapshot

What a sequence of `reclassify` calls does to the snapshot of an entity.  A call that
writes at all writes one snapshot (`Mutates`): of its own entity when it tightens or moves
the declassification state, of a new derivative when it narrows.

The sensitivity that is read back does not sink unless a tightening stores a sensitivity
outside the ladder, which is ranked above it when the change is classified but read back
as `internal`.  The declassification state moves forward, and to `approved` with an
authority, unless a tightening carries a state along: only a state move checks it.
-/
import QDistro.SecurityMutation

open JsonText Lineage SecurityGrants TransitionSystem

namespace SecurityMutation

open List

open DeclassifyCall

variable {u : UnicodeDb} {admin : String}

/-! ## Before the write -/

variable {c : Reclassify}

theorem gate_spec {db : Db} {current : Entity} {klass : ChangeClass}
    {via : List (String × String)} (h : gate u admin db c = .ok (.inr (current, klass, via))) :
    db.getEntity c.eid = some current ∧ klass = classifyChange current c.change ∧ klass ≠ .noop := by
  unfold gate at h
  split at h
  · exact absurd h (by simp)
  next current' hcur =>
  split at h
  · exact absurd h (by simp)
  dsimp only at h
  split at h
  · exact absurd h (by simp)
  next hnoop =>
  split at h
  · exact absurd h (by simp)
  · simp only [Except.ok.injEq, Sum.inr.injEq, Prod.mk.injEq] at h
    obtain ⟨rfl, rfl, -⟩ := h
    exact ⟨hcur, rfl, hnoop⟩
  · exact absurd h (by simp)

/-- What a call is about to apply: the current snapshot and the class of the change. -/
def plan (u : UnicodeDb) (admin : String) (db : Db) (c : Reclassify) : Option (Entity × ChangeClass) :=
  match gate u admin db c with
  | .ok (.inr (current, klass, _)) => some (current, klass)
  | _ => none

theorem plan_eq_some {db : Db} {current : Entity} {klass : ChangeClass} :
    plan u admin db c = some (current, klass) ↔
      ∃ via, gate u admin db c = .ok (.inr (current, klass, via)) := by
  constructor
  · intro h
    unfold plan at h
    split at h
    · next heq =>
      simp only [Option.some.injEq, Prod.mk.injEq] at h
      rw [h.1, h.2] at heq
      exact ⟨_, heq⟩
    · exact absurd h (by simp)
  · rintro ⟨via, h⟩
    rw [plan, h]

/-! ## The snapshot a call writes -/

/-- The entity that a call writes, if it writes one. -/
inductive Mutates (u : UnicodeDb) (admin : String) (db : Db) (c : Reclassify) : Entity → Prop
  | tighten {current via} (h : gate u admin db c = .ok (.inr (current, .tighten, via))) :
      Mutates u admin db c (tightened current c)
  | state {current via target} (h : gate u admin db c = .ok (.inr (current, .state, via)))
      (htarget : c.change.declassification = some target)
      (hmem : target ∈ declassificationStates)
      (hrank : declassRank (currentDeclassState current) < declassRank target)
      (hauth : target = "approved" → given c.authority = true) :
      Mutates u admin db c (moved current c target)
  | narrow {current via} (h : gate u admin db c = .ok (.inr (current, .narrow, via))) :
      Mutates u admin db c (declassifyCall current c).outputEntity

variable {s : Store} {ent : Entity}

theorem entity_of_recorded {α : Type} {r : Store × Except Exc α} {ws : List Write} {now : ℤ}
    (h : Recorded s r ws)
    (hws : cellsOf ws .entities = cellsOf ((Op.recordEntity ent now).writes u) .entities) :
    ∃ ws', Extends s r.1 ws' ∧ ∀ cells ∈ cellsOf ws' .entities,
      (entityWrite ent now).cellsIn .entities = some cells ∧ cellsOf ws' .entities = [cells] := by
  obtain ⟨ws', hext, hpre, -⟩ := h.cells
  refine ⟨ws', hext, fun cells hcells => ?_⟩
  have hpre' := hpre .entities
  rw [hws] at hpre'
  obtain ⟨hin, hone⟩ := cellsOf_recordEntity ent now (hpre'.subset hcells)
  refine ⟨hin, ?_⟩
  rw [hone] at hpre'
  obtain ⟨x, hx⟩ := length_eq_one_iff.mp
    (le_antisymm hpre'.length_le (length_pos_of_mem hcells))
  rw [hx] at hcells ⊢
  rw [mem_singleton.mp hcells]

theorem recorded_tightenBody (current : Entity) (c : Reclassify) (via : List (String × String))
    (s : Store) : ∃ ws, Recorded s (tightenBody u current c via s) ws ∧
      cellsOf ws .entities =
        cellsOf ((Op.recordEntity (tightened current c) (c.clock 0)).writes u) .entities := by
  have hfirst := recorded_performAll (u := u) [.recordEntity (tightened current c) (c.clock 0),
    .recordAssertion (tightenAssertion current c via) (c.clock 1)] (by simp [Op.Records]) s
  have hentities : cellsOf ([Op.recordEntity (tightened current c) (c.clock 0),
      .recordAssertion (tightenAssertion current c via) (c.clock 1)].flatMap (Op.writes u)) .entities =
        cellsOf ((Op.recordEntity (tightened current c) (c.clock 0)).writes u) .entities := by
    rw [cellsOf_flatMap]
    simp [Op.cellsOf_writes, Op.tables]
  unfold tightenBody
  split
  · next s' e heq =>
    rw [heq] at hfirst
    refine ⟨_, hfirst.error [], ?_⟩
    rw [append_nil, hentities]
  · next s' v heq =>
    rw [heq] at hfirst
    split
    · refine ⟨_, hfirst.seq ((recorded_performAll (u := u) _ ?_ s').map _), ?_⟩
      · intro op hop
        obtain ⟨i, hi, rfl⟩ := mem_mapIdx.mp hop
        trivial
      · rw [cellsOf_append, hentities, cellsOf_flatMap_eq_nil, append_nil]
        intro op hop
        obtain ⟨i, hi, rfl⟩ := mem_mapIdx.mp hop
        simp [Op.tables]
    · refine ⟨_, hfirst.seq (recorded_nil s' _), ?_⟩
      rw [append_nil, hentities]

theorem records_declassifyOps (c : DeclassifyCall) : ∀ op ∈ c.ops, op.Records := by
  intro op hop
  cases hg : c.agentGid with
  | none =>
    simp only [ops, hg, edge, Option.toList_none, map_nil,
      append_nil, cons_append, nil_append, mapIdx_cons, mapIdx_nil,
      mem_cons, not_mem_nil, or_false] at hop
    rcases hop with h | h | h | h | h | h | h | h <;> simp [h, Op.Records]
  | some gid =>
    simp only [ops, hg, edge, Option.toList_some, map_cons,
      map_nil, cons_append, nil_append, mapIdx_cons, mapIdx_nil,
      mem_cons, not_mem_nil, or_false] at hop
    rcases hop with h | h | h | h | h | h | h | h | h <;> simp [h, Op.Records]

theorem recorded_declassify (s : Store) (c : DeclassifyCall) :
    Recorded s (s.declassify u c) (c.ops.flatMap (Op.writes u)) := by
  have hraise : ∀ msg, Recorded s (s, (.error (.valueError msg) : Except Exc String))
      (c.ops.flatMap (Op.writes u)) := by
    intro msg
    have hnil : Recorded s (s, (.error (.valueError msg) : Except Exc String))
        ([] ++ c.ops.flatMap (Op.writes u)) :=
      (recorded_nil s (.error (.valueError msg) : Except Exc String)).error _
    rwa [nil_append] at hnil
  unfold Store.declassify
  split
  · exact hraise _
  split
  · exact hraise _
  · exact (Recorded.transaction _ (recorded_performAll _ (records_declassifyOps c) _)).map _

theorem entities_declassifyOps (c : DeclassifyCall) : ∃ now,
    cellsOf (c.ops.flatMap (Op.writes u)) .entities =
      cellsOf ((Op.recordEntity c.outputEntity now).writes u) .entities := by
  rw [cellsOf_flatMap]
  cases hg : c.agentGid with
  | none =>
    refine ⟨c.clock 3, ?_⟩
    simp [ops, hg, edge, Op.cellsOf_writes, Op.tables]
  | some gid =>
    refine ⟨c.clock 4, ?_⟩
    simp [ops, hg, edge, Op.cellsOf_writes, Op.tables]

theorem recorded_narrowBody (current : Entity) (c : Reclassify) (via : List (String × String))
    (s : Store) : ∃ ws, Recorded s (narrowBody u current c via s) ws ∧
      cellsOf ws .entities =
        cellsOf ((declassifyCall current c).ops.flatMap (Op.writes u)) .entities := by
  have hdecl := recorded_declassify (u := u) s (declassifyCall current c)
  unfold narrowBody
  split
  · next s' e heq =>
    rw [heq] at hdecl
    refine ⟨_, hdecl.error [], ?_⟩
    rw [append_nil]
  · next s' outEid heq =>
    rw [heq] at hdecl
    refine ⟨_, hdecl.seq ((recorded_performAll (u := u) _ (by simp [Op.Records]) s').map _), ?_⟩
    have hcontext : cellsOf ([.recordAssertion (contextAssertion current c via outEid)
        c.contextNow].flatMap (Op.writes u)) .entities = [] :=
      cellsOf_flatMap_eq_nil (by simp [Op.tables])
    rw [cellsOf_append, hcontext, append_nil]

/-- **One call** records the snapshot of `Mutates`, or no entity. -/
theorem entities_reclassify (admin : String) (s : Store) (c : Reclassify) :
    ∃ ws, Extends s (reclassifyStep u admin s c) ws ∧ ∀ cells ∈ cellsOf ws .entities,
      ∃ ent now, Mutates u admin s.db c ent ∧ (entityWrite ent now).cellsIn .entities = some cells ∧
        cellsOf ws .entities = [cells] := by
  have hsame : ∃ ws, Extends s s ws ∧ ∀ cells ∈ cellsOf ws .entities,
      ∃ ent now, Mutates u admin s.db c ent ∧ (entityWrite ent now).cellsIn .entities = some cells ∧
        cellsOf ws .entities = [cells] := ⟨[], .refl s, by simp [cellsOf]⟩
  have hwrites : ∀ {α : Type} {s' : Store} {r : Store × Except Exc α} {ws : List Write} {ent : Entity}
      (now : ℤ), Mutates u admin s.db c ent → Recorded s r ws →
      cellsOf ws .entities = cellsOf ((Op.recordEntity ent now).writes u) .entities → r.1 = s' →
      ∃ ws, Extends s s' ws ∧ ∀ cells ∈ cellsOf ws .entities,
        ∃ ent now, Mutates u admin s.db c ent ∧
          (entityWrite ent now).cellsIn .entities = some cells ∧ cellsOf ws .entities = [cells] := by
    intro α s' r ws ent now hmut hrec hws heq
    obtain ⟨ws', hext, hcells⟩ := entity_of_recorded hrec hws
    exact ⟨ws', heq ▸ hext, fun cells hmem => ⟨ent, now, hmut, hcells cells hmem⟩⟩
  unfold reclassifyStep reclassify
  split
  · exact hsame
  · exact hsame
  next current klass via hgate =>
  cases klass with
  | noop => exact absurd rfl (gate_spec hgate).2.2
  | tighten =>
    obtain ⟨ws, hrec, hws⟩ := recorded_tightenBody (u := u) current c via s.enter
    exact hwrites _ (.tighten hgate) (hrec.transaction _) hws rfl
  | narrow =>
    show ∃ ws, Extends s (doNarrow u current c via s).1 ws ∧ _
    obtain ⟨ws, hrec, hws⟩ := recorded_narrowBody (u := u) current c via s.enter
    obtain ⟨now, hnow⟩ := entities_declassifyOps (u := u) (declassifyCall current c)
    rw [hnow] at hws
    unfold doNarrow
    split
    · exact hsame
    split
    · exact hsame
    split
    · next s' e heq => exact hwrites _ (.narrow hgate) (hrec.transaction _) hws (by rw [heq])
    · next s' outEid heq => exact hwrites _ (.narrow hgate) (hrec.transaction _) hws (by rw [heq])
  | state =>
    show ∃ ws, Extends s (doState u current c via s).1 ws ∧ _
    have hclass := (gate_spec hgate).2.1
    obtain ⟨target, htarget⟩ : ∃ target, c.change.declassification = some target := by
      cases hd : c.change.declassification with
      | some target => exact ⟨target, rfl⟩
      | none =>
        unfold classifyChange at hclass
        rw [hd] at hclass
        dsimp only at hclass
        split at hclass
        · exact absurd hclass (by simp)
        split at hclass
        · exact absurd hclass (by simp)
        · exact absurd hclass (by simp)
    unfold doState
    rw [htarget, Option.getD_some]
    dsimp only
    split
    · exact hsame
    next hmem =>
    split
    · exact hsame
    next hrank =>
    split
    · exact hsame
    next hauth =>
    have hmut : Mutates u admin s.db c (moved current c target) := by
      refine .state hgate htarget (by simpa using hmem) (Nat.lt_of_not_le hrank) fun h => ?_
      by_contra hg
      exact hauth ⟨h, by simpa using hg⟩
    refine hwrites (c.clock 0) hmut (Recorded.transaction (fun s => s.performAll u
      [.recordEntity (moved current c target) (c.clock 0),
        .recordAssertion (stateAssertion current c via target) (c.clock 1)])
      (recorded_performAll _ (by simp [Op.Records]) s.enter)) ?_ rfl
    rw [cellsOf_flatMap]
    simp [Op.cellsOf_writes, Op.tables]

/-! ## The snapshot after a call -/

theorem Mutates.distinct {db : Db} (h : Mutates u admin db c ent) :
    Distinct (.obj ent.facets) := by
  have hstr : ∀ s, Distinct (.str s) := fun s => by simp [Distinct]
  cases h with
  | @tighten current via h =>
    have hcur := distinct_put (Db.distinct_getEntity (gate_spec h).1) "sensitivity"
      (hstr (if given c.change.sensitivity then c.change.sensitivity.getD ""
        else currentSensitivity current))
    rw [tightened]
    dsimp only
    split
    · exact hcur
    · exact distinct_put hcur _ (hstr _)
  | state h => exact distinct_put (Db.distinct_getEntity (gate_spec h).1) _ (hstr _)
  | narrow h => simp [outputEntity, Distinct, DistinctFields]

/-- **The snapshots after a call**: unchanged, or the one that the call wrote. -/
theorem getEntity_reclassify (admin : String) (s : Store) (c : Reclassify) (eid : String) :
    (reclassifyStep u admin s c).db.getEntity eid = s.db.getEntity eid ∨
      ∃ ent now, Mutates u admin s.db c ent ∧ ent.eid = eid ∧
        (reclassifyStep u admin s c).db.getEntity eid = some (ent.readBack now) := by
  obtain ⟨ws, hext, hcells⟩ := entities_reclassify (u := u) admin s c
  rw [hext.getEntity]
  cases hl : latest (cellsOf ws .entities) eid with
  | none => exact .inl rfl
  | some ent' =>
    obtain ⟨cells, hmem, heid, rfl⟩ := latest_mem hl
    obtain ⟨ent, now, hmut, hin, -⟩ := hcells cells hmem
    obtain ⟨hcol, hread⟩ := readEntity_entityWrite hin hmut.distinct
    rw [hcol, Cell.text.injEq] at heid
    exact .inr ⟨ent, now, hmut, heid, by rw [hread]; rfl⟩

theorem facetIn_readBack (hd : Distinct (.obj ent.facets)) (now : ℤ) (values : List String)
    (default key : String) :
    facetIn values default key (ent.readBack now) = facetIn values default key ent := by
  rw [facetIn, facetIn, Entity.lookup_readBack hd]
  cases PyDict.lookup ent.facets key with
  | none => rfl
  | some v => cases v <;> simp [sortKeys]

theorem facetIn_mem {values : List String} {default : String} (h : default ∈ values) (key : String)
    (ent : Entity) : facetIn values default key ent ∈ values := by
  unfold facetIn
  split
  · split
    · next hs => simpa using hs
    · exact h
  · exact h

/-- The identifier a derivative is recorded under was not in use. -/
def FreshDerivative (u : UnicodeDb) (admin : String) (s : Store) (c : Reclassify) : Prop :=
  ∀ p ∈ plan u admin s.db c, p.2 = .narrow → s.db.getEntity c.genEid = none

theorem rel_reclassify {R : Entity → Entity → Prop} (hrefl : ∀ ent, R ent ent)
    (hfresh : FreshDerivative u admin s c)
    (htighten : ∀ current now, plan u admin s.db c = some (current, .tighten) →
      R current ((tightened current c).readBack now))
    (hstate : ∀ current target now, plan u admin s.db c = some (current, .state) →
      c.change.declassification = some target → target ∈ declassificationStates →
      declassRank (currentDeclassState current) < declassRank target →
      (target = "approved" → given c.authority = true) →
      R current ((moved current c target).readBack now))
    {eid : String} (h : s.db.getEntity eid = some ent) :
    ∃ ent', (reclassifyStep u admin s c).db.getEntity eid = some ent' ∧ R ent ent' := by
  rcases getEntity_reclassify (u := u) admin s c eid with hsame | ⟨new, now, hmut, heid, hnew⟩
  · exact ⟨ent, hsame.trans h, hrefl ent⟩
  · refine ⟨_, hnew, ?_⟩
    cases hmut with
    | @tighten current via hgate =>
      have hcur := (gate_spec hgate).1
      have heid' : c.eid = eid := (Db.eid_getEntity hcur).symm.trans heid
      rw [heid', h, Option.some.injEq] at hcur
      rw [hcur]
      exact htighten current now (plan_eq_some.mpr ⟨via, hgate⟩)
    | @state current via target hgate htarget hmem hrank hauth =>
      have hcur := (gate_spec hgate).1
      have heid' : c.eid = eid := (Db.eid_getEntity hcur).symm.trans heid
      rw [heid', h, Option.some.injEq] at hcur
      rw [hcur]
      exact hstate current target now (plan_eq_some.mpr ⟨via, hgate⟩) htarget hmem hrank hauth
    | @narrow current via hgate =>
      have hnone := hfresh _ (plan_eq_some.mpr ⟨via, hgate⟩) rfl
      have heid' : c.genEid = eid := heid
      rw [heid', h] at hnone
      exact absurd hnone (by simp)

/-! ## Sensitivity -/

/-- The effective sensitivity of no entity sinks between two states of a run. -/
def SensitivityKept (u : UnicodeDb) (admin : String) (s₀ : Store) (calls : List Reclassify) : Prop :=
  ∀ before mid after, calls = before ++ mid ++ after → ∀ eid ent,
    (run (reclassifyStep u admin) s₀ before).db.getEntity eid = some ent →
      ∃ ent', (run (reclassifyStep u admin) s₀ (before ++ mid)).db.getEntity eid = some ent' ∧
        sensitivityRank (currentSensitivity ent) ≤ sensitivityRank (currentSensitivity ent')

/-- A tightening that is applied asks for no sensitivity outside the ladder, unless the
entity stands at `internal` or below. -/
def OnLadder (u : UnicodeDb) (admin : String) (s : Store) (c : Reclassify) : Prop :=
  ∀ p ∈ plan u admin s.db c, p.2 = .tighten → ∀ x ∈ c.change.sensitivity, x ≠ "" →
    x ∈ sensitivityOrder ∨
      sensitivityRank (currentSensitivity p.1) ≤ sensitivityRank "internal"

instance (s : Store) (c : Reclassify) : Decidable (OnLadder u admin s c) :=
  inferInstanceAs (Decidable (∀ p ∈ plan u admin s.db c, _))

instance (s : Store) (c : Reclassify) : Decidable (FreshDerivative u admin s c) :=
  decidable_of_iff (∀ p ∈ plan u admin s.db c, p.2 = .narrow → (s.db.getEntity c.genEid).isNone = true)
    (by simp [FreshDerivative])

theorem not_lower_of_classify {current : Entity} {change : SecurityChange} {x : String}
    (h : classifyChange current change ≠ .narrow) (hx : change.sensitivity = some x) :
    sensitivityRank (currentSensitivity current) ≤ sensitivityRank x := by
  by_contra hlt
  apply h
  unfold classifyChange
  rw [hx]
  simp [Nat.lt_of_not_le hlt]

theorem currentSensitivity_tightened (current : Entity) (c : Reclassify) :
    currentSensitivity (tightened current c) =
      if given c.change.sensitivity then
        if sensitivityOrder.elem (c.change.sensitivity.getD "") then c.change.sensitivity.getD ""
        else "internal"
      else currentSensitivity current := by
  have hlookup : PyDict.lookup (tightened current c).facets "sensitivity" =
      some (.str (if given c.change.sensitivity then c.change.sensitivity.getD ""
        else currentSensitivity current)) := by
    rw [tightened]
    dsimp only
    split
    · exact PyDict.lookup_put_self _ _ _
    · rw [PyDict.lookup_put_of_ne _ _ (by decide)]
      exact PyDict.lookup_put_self _ _ _
  rw [currentSensitivity, facetIn, hlookup]
  simp only
  by_cases hg : given c.change.sensitivity = true
  · rw [if_pos hg, if_pos hg]
  · rw [if_neg hg, if_neg hg]
    have hmem : currentSensitivity current ∈ sensitivityOrder := facetIn_mem (by decide) _ _
    rw [if_pos (by simpa using hmem)]

theorem sensitivity_reclassify (hfresh : FreshDerivative u admin s c)
    (hladder : OnLadder u admin s c) {eid : String} (h : s.db.getEntity eid = some ent) :
    ∃ ent', (reclassifyStep u admin s c).db.getEntity eid = some ent' ∧
      sensitivityRank (currentSensitivity ent) ≤ sensitivityRank (currentSensitivity ent') := by
  refine rel_reclassify (R := fun ent ent' =>
      sensitivityRank (currentSensitivity ent) ≤ sensitivityRank (currentSensitivity ent'))
    (fun _ => le_refl _) hfresh ?_ ?_ h
  · intro current now hplan
    obtain ⟨via, hgate⟩ := plan_eq_some.mp hplan
    have hclass : classifyChange current c.change ≠ .narrow := by
      rw [← (gate_spec hgate).2.1]
      simp
    have hback : currentSensitivity ((tightened current c).readBack now) =
        currentSensitivity (tightened current c) :=
      facetIn_readBack (Mutates.tighten hgate).distinct now _ _ _
    rw [hback, currentSensitivity_tightened]
    split
    · next hg =>
      cases hx : c.change.sensitivity with
      | none => simp [given, hx] at hg
      | some x =>
        have hne : x ≠ "" := by simpa [given, hx] using hg
        rw [Option.getD_some]
        split
        · exact not_lower_of_classify hclass hx
        · next hmem =>
          -- outside the ladder: read back as `internal`
          rcases hladder _ hplan rfl x hx hne with hin | hlow
          · exact absurd (by simpa using hin) hmem
          · exact hlow
    · exact le_refl _
  · intro current target now hplan htarget _ _ _
    obtain ⟨via, hgate⟩ := plan_eq_some.mp hplan
    have hd : Distinct (.obj (moved current c target).facets) :=
      distinct_put (Db.distinct_getEntity (gate_spec hgate).1) _ (by simp [Distinct])
    have hback : currentSensitivity ((moved current c target).readBack now) =
        currentSensitivity (moved current c target) := facetIn_readBack hd now _ _ _
    rw [hback, currentSensitivity, currentSensitivity, facetIn, facetIn, moved,
      PyDict.lookup_put_of_ne _ _ (by decide)]

/-- **The sensitivity of an entity never sinks** in a run whose tightenings stay on the
ladder. -/
theorem sensitivity_never_sinks (admin : String) (s₀ : Store) (calls : List Reclassify)
    (hfresh : Meets (reclassifyStep u admin) (FreshDerivative u admin) s₀ calls)
    (hladder : Meets (reclassifyStep u admin) (OnLadder u admin) s₀ calls) :
    SensitivityKept u admin s₀ calls := by
  intro before mid after hsplit
  subst hsplit
  have hkept := Meets.between (R := fun s s' : Store => ∀ eid ent, s.db.getEntity eid = some ent →
      ∃ ent', s'.db.getEntity eid = some ent' ∧
        sensitivityRank (currentSensitivity ent) ≤ sensitivityRank (currentSensitivity ent'))
    (fun s eid ent h => ⟨ent, h, le_refl _⟩) ?_ ?_ (hfresh.and hladder)
  · exact hkept
  · intro s t v hst htv eid ent h
    obtain ⟨ent', h', hle⟩ := hst eid ent h
    obtain ⟨ent'', h'', hle'⟩ := htv eid ent' h'
    exact ⟨ent'', h'', hle.trans hle'⟩
  · intro s c hok eid ent h
    exact sensitivity_reclassify hok.1 hok.2 h

/-- A store with one restricted entity. -/
def restrictedStore : Store :=
  (Store.empty.perform UnicodeDb.ascii (.recordEntity
    { eid := "file:1"
      kind := "file"
      guards := ["no-export"]
      facets := [("sensitivity", .str "restricted")]
      createdAt := 5 } 5)).1

/-- A request on the entity of `restrictedStore`. -/
def request (change : SecurityChange) (authority : Option String) : Reclassify where
  eid := "file:1"
  change := change
  actor := "agent:admin"
  authority := authority
  ts := 6
  aid := "activity:1"
  genEid := "entity:1"
  verdictNow := 6
  contextNow := 6
  clock := fun _ => 6

theorem sensitivity_never_sinks_confidential :
    SensitivityKept UnicodeDb.ascii adminAppPrincipal restrictedStore
      [request { guards := some ["no-export", "no-print"] } none,
        request { sensitivity := some "confidential" } none] :=
  sensitivity_never_sinks adminAppPrincipal restrictedStore _ (by decide +kernel) (by decide +kernel)

/-- A sensitivity outside the ladder is classified as a tightening and then read back as
`internal`. -/
theorem unknown_sensitivity_sinks :
    ¬ SensitivityKept UnicodeDb.ascii adminAppPrincipal restrictedStore
      [request { sensitivity := some "bogus" } none] := by
  intro hkept
  have hbefore : ((run (reclassifyStep UnicodeDb.ascii adminAppPrincipal) restrictedStore
      []).db.getEntity "file:1").map (fun ent => sensitivityRank (currentSensitivity ent)) =
        some 3 := by decide +kernel
  have hafter : ((run (reclassifyStep UnicodeDb.ascii adminAppPrincipal) restrictedStore
      ([] ++ [request { sensitivity := some "bogus" } none])).db.getEntity "file:1").map
        (fun ent => sensitivityRank (currentSensitivity ent)) = some 1 := by decide +kernel
  obtain ⟨ent, hent, hrank⟩ := Option.map_eq_some_iff.mp hbefore
  obtain ⟨ent', hent', hle⟩ := hkept [] [request { sensitivity := some "bogus" } none] [] rfl
    "file:1" ent hent
  rw [hent', Option.map_some, Option.some.injEq] at hafter
  omega

/-! ## Declassification state -/

/-- The stored state is one of the three, if there is one. -/
def StateStored (ent : Entity) : Prop :=
  ∀ v, PyDict.lookup ent.facets "declassification" = some v →
    ∃ state ∈ declassificationStates, v = .str state

/-- The declassification states of a run: they only move forward, stay among the three and
become `approved` by a call with an authority. -/
structure DeclassificationKept (u : UnicodeDb) (admin : String) (s₀ : Store)
    (calls : List Reclassify) : Prop where
  forward : ∀ before mid after, calls = before ++ mid ++ after → ∀ eid ent,
    (run (reclassifyStep u admin) s₀ before).db.getEntity eid = some ent →
      ∃ ent', (run (reclassifyStep u admin) s₀ (before ++ mid)).db.getEntity eid = some ent' ∧
        declassRank (currentDeclassState ent) ≤ declassRank (currentDeclassState ent')
  stored : ∀ eid, (∀ ent, s₀.db.getEntity eid = some ent → StateStored ent) →
    ∀ before after, calls = before ++ after → ∀ ent,
      (run (reclassifyStep u admin) s₀ before).db.getEntity eid = some ent → StateStored ent
  approved : ∀ before c after, calls = before ++ c :: after → ∀ eid ent',
    (run (reclassifyStep u admin) s₀ (before ++ [c])).db.getEntity eid = some ent' →
    currentDeclassState ent' = "approved" →
    (∀ ent, (run (reclassifyStep u admin) s₀ before).db.getEntity eid = some ent →
      currentDeclassState ent ≠ "approved") → given c.authority = true

/-- A tightening that is applied carries no state, or one of the three that is not behind
the current one, and `approved` only with an authority or where it stands already. -/
def OnStates (u : UnicodeDb) (admin : String) (s : Store) (c : Reclassify) : Prop :=
  ∀ p ∈ plan u admin s.db c, p.2 = .tighten → ∀ d ∈ c.change.declassification,
    d ∈ declassificationStates ∧ declassRank (currentDeclassState p.1) ≤ declassRank d ∧
      (d = "approved" → currentDeclassState p.1 = "approved" ∨ given c.authority = true)

instance (s : Store) (c : Reclassify) : Decidable (OnStates u admin s c) :=
  inferInstanceAs (Decidable (∀ p ∈ plan u admin s.db c, _))

/-- What a call may do to the state of an entity. -/
structure StateStep (c : Reclassify) (ent ent' : Entity) : Prop where
  forward : declassRank (currentDeclassState ent) ≤ declassRank (currentDeclassState ent')
  stored : StateStored ent → StateStored ent'
  approved : currentDeclassState ent' = "approved" →
    currentDeclassState ent = "approved" ∨ given c.authority = true

theorem stateStored_readBack (hd : Distinct (.obj ent.facets)) (now : ℤ) (h : StateStored ent) :
    StateStored (ent.readBack now) := by
  intro v hv
  rw [Entity.lookup_readBack hd, Option.map_eq_some_iff] at hv
  obtain ⟨v', hv', rfl⟩ := hv
  obtain ⟨state, hmem, rfl⟩ := h v' hv'
  exact ⟨state, hmem, sortKeys_str state⟩

theorem state_of_lookup {d : String}
    (h : PyDict.lookup ent.facets "declassification" = some (.str d))
    (hd : d ∈ declassificationStates) :
    currentDeclassState ent = d ∧ StateStored ent := by
  constructor
  · rw [currentDeclassState, facetIn, h]
    simp only
    rw [if_pos (by simpa using hd)]
  · intro v hv
    rw [h, Option.some.injEq] at hv
    exact ⟨d, hd, hv.symm⟩

theorem stateStep_reclassify (hfresh : FreshDerivative u admin s c)
    (hstates : OnStates u admin s c) {eid : String} (h : s.db.getEntity eid = some ent) :
    ∃ ent', (reclassifyStep u admin s c).db.getEntity eid = some ent' ∧ StateStep c ent ent' := by
  refine rel_reclassify (R := StateStep c) (fun _ => ⟨le_refl _, id, .inl⟩) hfresh ?_ ?_ h
  · intro current now hplan
    obtain ⟨via, hgate⟩ := plan_eq_some.mp hplan
    have hdist := (Mutates.tighten hgate).distinct
    have hback : currentDeclassState ((tightened current c).readBack now) =
        currentDeclassState (tightened current c) := facetIn_readBack hdist now _ _ _
    cases hd : c.change.declassification with
    | none =>
      have hlookup : PyDict.lookup (tightened current c).facets "declassification" =
          PyDict.lookup current.facets "declassification" := by
        rw [tightened, hd]
        exact PyDict.lookup_put_of_ne _ _ (by decide)
      have hsame : currentDeclassState (tightened current c) = currentDeclassState current := by
        rw [currentDeclassState, currentDeclassState, facetIn, facetIn, hlookup]
      refine ⟨?_, fun hst => stateStored_readBack hdist now ?_, ?_⟩
      · rw [hback, hsame]
      · intro v hv
        exact hst v (hlookup ▸ hv)
      · rw [hback, hsame]
        exact .inl
    | some d =>
      obtain ⟨hmem, hrank, happ⟩ := hstates _ hplan rfl d hd
      have hlookup : PyDict.lookup (tightened current c).facets "declassification" =
          some (.str d) := by
        rw [tightened, hd]
        exact PyDict.lookup_put_self _ _ _
      obtain ⟨hcur, hstored⟩ := state_of_lookup hlookup hmem
      refine ⟨?_, fun _ => stateStored_readBack hdist now hstored, ?_⟩
      · rw [hback, hcur]
        exact hrank
      · rw [hback, hcur]
        exact happ
  · intro current target now hplan htarget hmem hrank hauth
    obtain ⟨via, hgate⟩ := plan_eq_some.mp hplan
    have hdist := (Mutates.state hgate htarget hmem hrank hauth).distinct
    have hback : currentDeclassState ((moved current c target).readBack now) =
        currentDeclassState (moved current c target) := facetIn_readBack hdist now _ _ _
    have hlookup : PyDict.lookup (moved current c target).facets "declassification" =
        some (.str target) := PyDict.lookup_put_self _ _ _
    obtain ⟨hcur, hstored⟩ := state_of_lookup hlookup hmem
    refine ⟨?_, fun _ => stateStored_readBack hdist now hstored, ?_⟩
    · rw [hback, hcur]
      exact hrank.le
    · rw [hback, hcur]
      exact fun h => .inr (hauth h)

theorem state_of_new {eid : String} {ent' : Entity} (hnone : s.db.getEntity eid = none)
    (h : (reclassifyStep u admin s c).db.getEntity eid = some ent') :
    currentDeclassState ent' = "none" ∧ StateStored ent' := by
  rcases getEntity_reclassify (u := u) admin s c eid with hsame | ⟨new, now, hmut, heid, hnew⟩
  · rw [hsame, hnone] at h
    exact absurd h (by simp)
  obtain rfl := Option.some.inj (hnew.symm.trans h)
  have hexists : ∀ {current klass via}, gate u admin s.db c = .ok (.inr (current, klass, via)) →
      current.eid = eid → False := by
    intro current klass via hgate heid
    have hcur := (gate_spec hgate).1
    rw [← Db.eid_getEntity hcur, heid, hnone] at hcur
    exact absurd hcur (by simp)
  have hdist := hmut.distinct
  cases hmut with
  | tighten hgate => exact absurd heid (fun h => hexists hgate h)
  | state hgate => exact absurd heid (fun h => hexists hgate h)
  | narrow hgate =>
    next current via =>
    have hlookup : PyDict.lookup ((declassifyCall current c).outputEntity.readBack now).facets
        "declassification" = none := by
      rw [Entity.lookup_readBack hdist]
      rfl
    constructor
    · rw [currentDeclassState, facetIn, hlookup]
    · intro v hv
      rw [hlookup] at hv
      exact absurd hv (by simp)

/-- **The declassification state of an entity** moves forward among the three states, and
to `approved` with an authority, in a run whose tightenings carry no other state. -/
theorem declassification_only_forward (admin : String) (s₀ : Store) (calls : List Reclassify)
    (hfresh : Meets (reclassifyStep u admin) (FreshDerivative u admin) s₀ calls)
    (hstates : Meets (reclassifyStep u admin) (OnStates u admin) s₀ calls) :
    DeclassificationKept u admin s₀ calls := by
  have hmeets := hfresh.and hstates
  refine ⟨?_, ?_, ?_⟩
  · intro before mid after hsplit
    subst hsplit
    refine Meets.between (R := fun s s' : Store => ∀ eid ent, s.db.getEntity eid = some ent →
      ∃ ent', s'.db.getEntity eid = some ent' ∧
        declassRank (currentDeclassState ent) ≤ declassRank (currentDeclassState ent'))
      (fun s eid ent h => ⟨ent, h, le_refl _⟩) ?_ ?_ hmeets
    · intro s t v hst htv eid ent h
      obtain ⟨ent', h', hle⟩ := hst eid ent h
      obtain ⟨ent'', h'', hle'⟩ := htv eid ent' h'
      exact ⟨ent'', h'', hle.trans hle'⟩
    · intro s c hok eid ent h
      obtain ⟨ent', h', hstep⟩ := stateStep_reclassify hok.1 hok.2 h
      exact ⟨ent', h', hstep.forward⟩
  · intro eid h₀ before after hsplit
    subst hsplit
    refine Meets.invariant (P := fun s : Store => ∀ ent, s.db.getEntity eid = some ent →
      StateStored ent) ?_ (Meets.append.mp hmeets).1 h₀
    intro s c hok hinv ent' h'
    cases h : s.db.getEntity eid with
    | none => exact (state_of_new h h').2
    | some ent =>
      obtain ⟨ent'', h'', hstep⟩ := stateStep_reclassify hok.1 hok.2 h
      obtain rfl := Option.some.inj (h''.symm.trans h')
      exact hstep.stored (hinv ent h)
  · intro before c after hsplit eid ent' h' happ hbefore
    subst hsplit
    have hok := (Meets.append.mp hmeets).2.1
    rw [run_append] at h'
    cases h : (run (reclassifyStep u admin) s₀ before).db.getEntity eid with
    | none =>
      rw [(state_of_new h h').1] at happ
      exact absurd happ (by decide)
    | some ent =>
      obtain ⟨ent'', h'', hstep⟩ := stateStep_reclassify hok.1 hok.2 h
      obtain rfl := Option.some.inj (h''.symm.trans h')
      exact (hstep.approved happ).resolve_left (hbefore ent h)

theorem declassification_only_forward_approved :
    DeclassificationKept UnicodeDb.ascii adminAppPrincipal restrictedStore
      [request { guards := some ["no-export", "no-print"], declassification := some "requested" } none,
        request { declassification := some "approved" } (some "admin:1")] :=
  declassification_only_forward adminAppPrincipal restrictedStore _ (by decide +kernel)
    (by decide +kernel)

/-- A tightening stores the state it carries without any check: here `approved`, with no
authority. -/
theorem tighten_approves_unauthorised :
    ¬ DeclassificationKept UnicodeDb.ascii adminAppPrincipal restrictedStore
      [request { guards := some ["no-export", "no-print"], declassification := some "approved" } none] := by
  intro hkept
  have hbefore : ((run (reclassifyStep UnicodeDb.ascii adminAppPrincipal) restrictedStore
      []).db.getEntity "file:1").map currentDeclassState = some "none" := by decide +kernel
  have hafter : ((run (reclassifyStep UnicodeDb.ascii adminAppPrincipal) restrictedStore
      ([] ++ [request { guards := some ["no-export", "no-print"],
                        declassification := some "approved" } none])).db.getEntity "file:1").map
        currentDeclassState = some "approved" := by decide +kernel
  obtain ⟨ent', hent', happ⟩ := Option.map_eq_some_iff.mp hafter
  have hauth := hkept.approved [] _ [] rfl "file:1" ent' hent' happ fun ent hent => by
    rw [hent, Option.map_some, Option.some.injEq] at hbefore
    rw [hbefore]
    decide
  exact absurd hauth (by decide)

end SecurityMutation
