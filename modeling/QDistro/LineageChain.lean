/-
# What an operation does to the ledger and the tables

One lemma for each statement of the store's methods: what it appends to the ledger and
what it does to the live bodies of a table.  The rule `step_holds` then reduces a
property of every reachable content to these statements: it is kept by every operation
if it is kept by the writing of one row, by the update of an activity's cache and by
the transaction of `gc`.

A row that SQLite refuses leaves its ledger entry behind when the writer runs inside an
open scope.  The rule is therefore stated for a choice `orphans` of whether such entries
are admitted.
-/
import QDistro.LineageOps

open JsonText

namespace Lineage

/-! ## Names of tables -/

theorem Table.mem_all (t : Table) : t ∈ Table.all := by
  cases t <;> decide

theorem Table.name_injective {t t' : Table} (h : t.name = t'.name) : t = t' := by
  have hall : ∀ a ∈ Table.all, ∀ b ∈ Table.all, a.name = b.name → a = b := by decide
  exact hall t t.mem_all t' t'.mem_all h

theorem Table.name_ne_tombstone (t : Table) : t.name ≠ tombstone := by
  have hall : ∀ a ∈ Table.all, a.name ≠ tombstone := by decide
  exact hall t t.mem_all

theorem Table.sep_not_mem_name (t : Table) : sep ∉ t.name := by
  have hall : ∀ a ∈ Table.all, sep ∉ a.name := by decide
  exact hall t t.mem_all

theorem Table.columns_nodup (t : Table) : t.columns.Nodup := by
  have hall : ∀ a ∈ Table.all, a.columns.Nodup := by decide
  exact hall t t.mem_all

/-! ## Statements -/

variable {db : Db}

theorem Db.liveBodies_eq_some {t : Table} {bodies : List (List Char)} :
    db.liveBodies t = some bodies ↔
      List.Forall₂ (fun r b => Row.body r = some b) (db.rows t) bodies :=
  mapM_eq_some_iff

theorem Param.json_store {p : Param} {c : Cell} (h : p.store = some c) :
    c.json = some p.json := by
  cases p with
  | none => rw [← Option.some.inj h]; rfl
  | text s => rw [← Option.some.inj h]; rfl
  | int n =>
    rw [Param.store] at h
    split at h
    · rw [← Option.some.inj h]; rfl
    · exact absurd h (by simp)

theorem Write.stored_eq {w : Write} {cells cache : List Cell}
    (h : w.stored = some (cells, cache)) : w.payload.mapM Param.store = some cells := by
  rw [Write.stored] at h
  cases hp : w.payload.mapM Param.store with
  | none => simp [hp] at h
  | some cells' =>
    simp only [hp, Option.bind_some, Option.map_eq_some_iff, Prod.mk.injEq] at h
    obtain ⟨_, -, rfl, -⟩ := h
    rfl

theorem Write.body_stored {w : Write} {cells cache : List Cell}
    (h : w.stored = some (cells, cache)) :
    (cells.mapM Cell.json).map (canonical w.table) = some w.body := by
  have hcells : cells.mapM Cell.json = some (w.payload.map Param.json) := by
    rw [mapM_eq_some_iff, List.forall₂_map_right_iff]
    exact (mapM_eq_some_iff.mp (Write.stored_eq h)).flip.imp fun _ _ => Param.json_store
  rw [hcells]
  rfl

theorem Db.chain_write (db : Db) (w : Write) :
    (db.write w).1.chain = db.chain ++ [db.nextEntry w.table.name w.body] := by
  rw [Db.write]
  split <;> rfl

theorem Db.rows_write_of_not_storable (db : Db) {w : Write} (h : ¬ w.Storable) :
    (db.write w).1.rows = db.rows := by
  rw [Db.write]
  split
  · rfl
  · next hs => exact absurd (by rw [Write.Storable, hs]; simp) h

theorem Db.write_ok_iff (db : Db) (w : Write) :
    (∃ id, (db.write w).2 = .ok id) ↔ w.Storable := by
  rw [Db.write, Write.Storable]
  split
  · next hs => simp [hs]
  · next hs => simp [hs]

theorem Db.liveBodies_write {w : Write} (hw : w.Storable) {t : Table} {bodies : List (List Char)}
    (h : db.liveBodies t = some bodies) :
    (db.write w).1.liveBodies t = some (if t = w.table then bodies ++ [w.body] else bodies) := by
  rw [Db.liveBodies_eq_some] at h ⊢
  rw [Db.write]
  split
  · next hs => exact absurd hs hw
  · next cells cache hs =>
    simp only [Db.insert, Db.sealRow, Db.append]
    by_cases ht : t = w.table
    · subst ht
      rw [if_pos rfl, Function.update_self]
      exact List.rel_append h (.cons (Write.body_stored hs) .nil)
    · rw [if_neg ht, Function.update_of_ne ht]
      exact h

theorem Db.liveBodies_updateActivities (db : Db) (aid : String) (v e : Cell) (t : Table) :
    (db.updateActivities aid v e).liveBodies t = db.liveBodies t := by
  simp only [Db.liveBodies, Db.updateActivities]
  by_cases ht : t = .activities
  · subst ht
    rw [Function.update_self, List.mapM_map]
    rfl
  · rw [Function.update_of_ne ht]

/-- **The loop of `gc`** only appends tombstones for the bodies of its rows. -/
theorem Db.retire_induct {P : Db → Prop} (bodies : List (List Char))
    (happend : ∀ db n b, b ∈ bodies → P db →
      P (db.append tombstone (tombstoneBody n Table.entities.name b)))
    {rows : List (Row .entities)} (hrows : ∀ r ∈ rows, ∀ b, r.body = some b → b ∈ bodies)
    (h : P db) (consumed : List ℤ) : P (db.retire consumed rows).1 := by
  induction rows generalizing db consumed with
  | nil => exact h
  | cons r rest ih =>
    have hrest : ∀ r ∈ rest, ∀ b, r.body = some b → b ∈ bodies :=
      fun r hr => hrows r (List.mem_cons_of_mem _ hr)
    rw [Db.retire]
    split
    · exact h
    · next body hb =>
      split
      · exact ih hrest h consumed
      · next e _ =>
        exact ih hrest (happend db e.seq body (hrows r List.mem_cons_self body hb) h) _

theorem Db.rows_retire (db : Db) (consumed : List ℤ) (rows : List (Row .entities)) :
    (db.retire consumed rows).1.rows = db.rows :=
  Db.retire_induct (P := fun db' => db'.rows = db.rows) (rows.filterMap Row.body)
    (fun _ _ _ _ h => h) (fun r hr _ hb => List.mem_filterMap.mpr ⟨r, hr, hb⟩) rfl consumed

theorem Db.retire_ok (rows : List (Row .entities)) (h : ∀ r ∈ rows, r.body ≠ none) (db : Db)
    (consumed : List ℤ) : (db.retire consumed rows).2 = .ok () := by
  induction rows generalizing db consumed with
  | nil => rfl
  | cons r rest ih =>
    have hrest : ∀ r ∈ rest, r.body ≠ none := fun r hr => h r (List.mem_cons_of_mem _ hr)
    rw [Db.retire]
    split
    · next hb => exact absurd hb (h r List.mem_cons_self)
    · split
      · exact ih hrest _ _
      · exact ih hrest _ _

theorem Db.prune_eq {kind : String} {cutoff : ℤ} (h : ∀ r ∈ db.rows .entities, r.body ≠ none) :
    (db.prune kind cutoff).1 =
      (db.retire [] ((db.rows .entities).filter (doomed kind cutoff))).1.deleteEntities
        (doomed kind cutoff) := by
  have hok := Db.retire_ok ((db.rows .entities).filter (doomed kind cutoff))
    (fun r hr => h r (List.mem_of_mem_filter hr)) db []
  rw [Db.prune]
  split
  · next db' e heq => rw [heq] at hok; exact absurd hok (by simp)
  · next db' _ heq => rw [heq]

/-! ## The rule for operations -/

/-- A property of the content of a store and of the content it would roll back to. -/
def Store.Holds (I : Db → Prop) (s : Store) : Prop :=
  I s.db ∧ ∀ saved n, s.scope = some (saved, n) → I saved

/-- The writing of one row and the update of an activity's cache keep a property. -/
structure Kept (I : Db → Prop) (orphans : Prop) : Prop where
  write : ∀ db w, w.Storable ∨ orphans → I db → I (db.write w).1
  update : ∀ db aid v e, I db → I (db.updateActivities aid v e)

variable {I : Db → Prop} {orphans : Prop} {u : UnicodeDb}

theorem Db.writeAll_ok {ws : List Write} {ids : List ℤ} (h : (db.writeAll ws).2 = .ok ids) :
    ∀ w ∈ ws, w.Storable := by
  induction ws generalizing db ids with
  | nil => simp
  | cons w ws ih =>
    rw [Db.writeAll] at h
    split at h
    · exact absurd h (by simp)
    · next db' id heq =>
      simp only at h
      cases hrest : (db'.writeAll ws).2 with
      | error e =>
        rw [hrest] at h
        exact absurd h (by simp [Except.map])
      | ok ids' =>
        intro w' hw'
        rcases List.mem_cons.mp hw' with rfl | hw'
        · exact (db.write_ok_iff w').mp ⟨id, by rw [heq]⟩
        · exact ih hrest w' hw'

theorem Kept.writeAll (hk : Kept I orphans) {ws : List Write}
    (hws : (∀ w ∈ ws, w.Storable) ∨ orphans) (h : I db) : I (db.writeAll ws).1 := by
  induction ws generalizing db with
  | nil => exact h
  | cons w ws ih =>
    have hw : w.Storable ∨ orphans := hws.imp_left fun hall => hall w List.mem_cons_self
    have hrest : (∀ w ∈ ws, w.Storable) ∨ orphans :=
      hws.imp_left fun hall w' hw' => hall w' (List.mem_cons_of_mem _ hw')
    have h' := hk.write db w hw h
    rw [Db.writeAll]
    split
    · next db' e heq => rw [heq] at h'; exact h'
    · next db' id heq =>
      rw [heq] at h'
      exact ih hrest h'

variable {s : Store}

/-- A transaction keeps a property if its body does when it returns and, inside an open
scope, also when it raises. -/
theorem Store.Holds.txn {α : Type} {body : Db → Db × Except Err α} (h : s.Holds I)
    (hok : ∀ v, (body s.db).2 = .ok v → I (body s.db).1)
    (herr : s.scope ≠ none → ∀ e, (body s.db).2 = .error e → I (body s.db).1) :
    (s.txn body).1.Holds I := by
  rw [Store.txn]
  split
  · next sc hsc =>
    refine ⟨?_, h.2⟩
    cases hr : (body s.db).2 with
    | ok v => exact hok v hr
    | error e => exact herr (by rw [hsc]; simp) e hr
  · split
    · next db v heq =>
      rw [heq] at hok
      exact ⟨hok v rfl, h.2⟩
    · exact h

theorem Store.Holds.record (hk : Kept I orphans) {writes : Except Err (List Write)}
    (h : s.Holds I) (hws : orphans ∨ s.scope = none ∨ ∀ w ∈ writes.toOption.getD [], w.Storable) :
    (s.record writes).1.Holds I := by
  cases writes with
  | error e => exact h
  | ok ws =>
    refine h.txn (fun ids hids => hk.writeAll (.inl (Db.writeAll_ok hids)) h.1) ?_
    intro hsc e _
    rcases hws with horph | hnone | hall
    · exact hk.writeAll (.inr horph) h.1
    · exact absurd hnone hsc
    · exact hk.writeAll (.inl hall) h.1

theorem Store.Holds.enter (h : s.Holds I) : s.enter.Holds I := by
  rw [Store.enter]
  split
  · refine ⟨h.1, ?_⟩
    intro saved n heq
    rw [(Prod.mk.inj (Option.some.inj heq)).1.symm]
    exact h.1
  · next saved n heq =>
    refine ⟨h.1, ?_⟩
    intro saved' n' heq'
    rw [(Prod.mk.inj (Option.some.inj heq')).1.symm]
    exact h.2 saved n heq

theorem Store.Holds.leave (h : s.Holds I) (raised : Bool) :
    (s.leave raised).Holds I := by
  rw [Store.leave]
  split
  · exact h
  · next saved heq =>
    refine ⟨?_, by simp⟩
    cases raised with
    | true => exact h.2 saved 0 heq
    | false => exact h.1
  · next saved n heq =>
    refine ⟨h.1, ?_⟩
    intro saved' n' heq'
    rw [(Prod.mk.inj (Option.some.inj heq')).1.symm]
    exact h.2 saved (n + 1) heq

/-- The rows an operation writes, if its checks pass. -/
def Op.writes (u : UnicodeDb) : Op → List Write
  | .recordEntity ent now => (entityWrites u ent now).toOption.getD []
  | .recordActivity act now verdictNow => (activityWrites u act now verdictNow).toOption.getD []
  | .endActivity aid verdict endedAt now verdictNow =>
    if Param.store (.int (endedAt.getD now)) = none then []
    else verdictWrites aid verdict verdictNow
  | .recordAgent agent now => (agentWrites u agent now).toOption.getD []
  | .recordEdge predicate subject obj activity now =>
    (edgeWrites u predicate subject obj activity now).toOption.getD []
  | .recordAssertion a now => (assertionWrites u a now).toOption.getD []
  | .recordReceipt r now => (receiptWrites u r now).toOption.getD []
  | .recordMapping m now => (mappingWrites u m now).toOption.getD []
  | .gc .. => []
  | .enter => []
  | .leave _ => []

/-- A call of `gc` that gets as far as its transaction. -/
def GcRuns (kind : String) (olderThanSeconds now : ℤ) : Prop :=
  entityKinds.elem kind = true ∧ 0 ≤ olderThanSeconds ∧
    Param.store (.int (now - olderThanSeconds)) ≠ none

instance (kind : String) (olderThanSeconds now : ℤ) :
    Decidable (GcRuns kind olderThanSeconds now) :=
  inferInstanceAs (Decidable (_ ∧ _ ∧ _))

theorem Store.Holds.endActivity (hk : Kept I orphans) (h : s.Holds I) {aid : String}
    {verdict : Option String} {endedAt : Option ℤ} {now verdictNow : ℤ}
    (hws : orphans ∨ s.scope = none ∨
      ∀ w ∈ (Op.endActivity aid verdict endedAt now verdictNow).writes u, w.Storable) :
    (s.endActivity aid verdict endedAt now verdictNow).1.Holds I := by
  rw [Store.endActivity]
  cases hended : Param.store (.int (endedAt.getD now)) with
  | none =>
    have hbody : s.db.endActivity aid verdict endedAt now verdictNow = (s.db, .error overflow) := by
      simp [Db.endActivity, hended]
    exact h.txn (fun _ _ => by rw [hbody]; exact h.1) (fun _ _ _ => by rw [hbody]; exact h.1)
  | some ended =>
    obtain ⟨v, hv⟩ : ∃ v, Param.store (.ofText verdict) = some v := by
      cases verdict <;> exact ⟨_, rfl⟩
    have hbody : s.db.endActivity aid verdict endedAt now verdictNow =
        (s.db.updateActivities aid v ended).writeAll (verdictWrites aid verdict verdictNow) := by
      simp [Db.endActivity, hended, hv]
    have hupd := hk.update s.db aid v ended h.1
    refine h.txn ?_ ?_
    · intro ids hids
      rw [hbody] at hids ⊢
      exact hk.writeAll (.inl (Db.writeAll_ok hids)) hupd
    · intro hsc e _
      rw [hbody]
      refine hk.writeAll ?_ hupd
      rcases hws with horph | hnone | hall
      · exact .inr horph
      · exact absurd hnone hsc
      · rw [Op.writes, if_neg (by rw [hended]; simp)] at hall
        exact .inl hall

theorem Store.Holds.gc (h : s.Holds I) {kind : String} {age now : ℤ}
    (hgc : GcRuns kind age now → I (s.db.prune kind (now - age)).1) :
    (s.gc u kind age now).1.Holds I := by
  rw [Store.gc]
  split
  · exact h
  · next hkind =>
    split
    · exact h
    · next hage =>
      split
      · exact h
      · next hcut =>
        have hruns : GcRuns kind age now := ⟨by simpa using hkind, by omega, by rw [hcut]; simp⟩
        exact h.txn (fun _ _ => hgc hruns) (fun _ _ _ => hgc hruns)

/-- **The rule for one operation.** -/
theorem step_holds (hk : Kept I orphans) {op : Op} (h : s.Holds I)
    (hws : orphans ∨ s.scope = none ∨ ∀ w ∈ op.writes u, w.Storable)
    (hgc : ∀ kind age now, op = .gc kind age now → GcRuns kind age now →
      I (s.db.prune kind (now - age)).1)
    : (step u s op).Holds I := by
  cases op with
  | recordEntity ent now => exact h.record hk hws
  | recordActivity act now verdictNow => exact h.record hk hws
  | endActivity aid verdict endedAt now verdictNow => exact h.endActivity hk hws
  | recordAgent agent now => exact h.record hk hws
  | recordEdge predicate subject obj activity now => exact h.record hk hws
  | recordAssertion a now => exact h.record hk hws
  | recordReceipt r now => exact h.record hk hws
  | recordMapping m now => exact h.record hk hws
  | gc kind age now => exact h.gc (hgc kind age now rfl)
  | enter => exact h.enter
  | leave raised => exact h.leave raised

end Lineage
