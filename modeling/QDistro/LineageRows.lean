/-
# What the tables hold

The readers of `LineageStore` (`get_entity`, `downstream`, `assertions_for`,
`receipts_for`) see the cells of the stored rows and nothing else.  Recording only appends
rows, and `Extends s s' ws` says which: the tables of `s'` are those of `s` followed by
the cells of `ws`.  One method call adds its own rows or some first ones of them, a list
of calls likewise, and a transaction what its body added or nothing.

The reading back of a row of a table is then a fact about the row alone.
-/
import QDistro.LineageLabels
import QDistro.JsonSorted

open JsonText

namespace Lineage

open List

variable {u : UnicodeDb}

/-! ## Cells -/

/-- The stored cells of a table, oldest row first. -/
def Db.cells (db : Db) (t : Table) : List (List Cell) := (db.rows t).map Row.cells

/-- The cell of a column. -/
def colOf (t : Table) (cells : List Cell) (column : String) : Cell :=
  ((t.columns.zip cells).lookup column).getD .null

/-- The cells a row adds to a table. -/
def Write.cellsIn (t : Table) (w : Write) : Option (List Cell) :=
  if w.table = t then w.stored.map Prod.fst else none

/-- The cells some rows add to a table. -/
def cellsOf (ws : List Write) (t : Table) : List (List Cell) := ws.filterMap (Write.cellsIn t)

theorem cellsOf_append (ws ws' : List Write) (t : Table) :
    cellsOf (ws ++ ws') t = cellsOf ws t ++ cellsOf ws' t := filterMap_append

theorem Db.cells_write (db : Db) (w : Write) (t : Table) :
    (db.write w).1.cells t = db.cells t ++ (w.cellsIn t).toList := by
  rw [Write.cellsIn]
  by_cases h : w.table = t
  · subst h
    rw [if_pos rfl]
    cases hs : w.stored with
    | none =>
      have hrows := db.rows_write_of_not_storable (w := w) (by simpa [Write.Storable] using hs)
      rw [Db.cells, Db.cells, hrows]
      simp
    | some p =>
      obtain ⟨r, hr, hrows⟩ : ∃ r : Row w.table, r.cells = p.1 ∧
          (db.write w).1.rows w.table = db.rows w.table ++ [r] := Db.rows_write hs
      rw [Db.cells, Db.cells, hrows, map_append, map_singleton, hr]
      rfl
  · rw [if_neg h, Db.cells, Db.cells, Db.rows_write_of_ne db w (fun h' => h h'.symm)]
    simp

theorem Db.cells_writeAll (ws : List Write) (db : Db) :
    ∃ ws', ws' <+: ws ∧ (∀ t, (db.writeAll ws).1.cells t = db.cells t ++ cellsOf ws' t) ∧
      ∀ ids, (db.writeAll ws).2 = .ok ids → ws' = ws := by
  induction ws generalizing db with
  | nil => exact ⟨[], prefix_refl _, fun t => by simp [Db.writeAll, cellsOf], fun _ _ => rfl⟩
  | cons w ws ih =>
    have hw := db.cells_write w
    rw [Db.writeAll]
    split
    · next db' e heq =>
      -- a row that raises leaves its table as it was
      have hns : ¬ w.Storable := by
        intro hstor
        obtain ⟨id, hid⟩ := (db.write_ok_iff w).mpr hstor
        rw [heq] at hid
        exact absurd hid (by simp)
      have hnone : w.stored = none := by simpa [Write.Storable] using hns
      refine ⟨[], nil_prefix, ?_, fun ids h => absurd h (by simp)⟩
      intro t
      have := hw t
      rw [heq, Write.cellsIn, hnone] at this
      simpa [cellsOf] using this
    · next db' id heq =>
      obtain ⟨ws', hpre, hcells, hok⟩ := ih db'
      refine ⟨w :: ws', (prefix_cons_inj w).mpr hpre, ?_, ?_⟩
      · intro t
        have := hw t
        rw [heq] at this
        show (db'.writeAll ws).1.cells t = _
        rw [hcells t, this, append_assoc]
        congr 1
        rw [cellsOf, cellsOf, filterMap_cons]
        cases w.cellsIn t <;> rfl
      · intro ids hids
        obtain ⟨ids', hids', -⟩ := except_map_ok hids
        rw [hok ids' hids']

/-! ## Extensions -/

/-- The rows an operation added to the store, and that it left the open scope alone. -/
structure Extends (s s' : Store) (ws : List Write) : Prop where
  cells : ∀ t, s'.db.cells t = s.db.cells t ++ cellsOf ws t
  scope : s'.scope = s.scope

theorem Extends.refl (s : Store) : Extends s s [] := ⟨fun t => by simp [cellsOf], rfl⟩

variable {s s' : Store} {ws : List Write}

theorem Extends.trans {s'' : Store} {ws' : List Write} (h : Extends s s' ws)
    (h' : Extends s' s'' ws') : Extends s s'' (ws ++ ws') := by
  refine ⟨fun t => ?_, h'.scope.trans h.scope⟩
  rw [h'.cells, h.cells, cellsOf_append, append_assoc]

theorem Store.record_extends (s : Store) (writes : Except Err (List Write)) :
    ∃ ws, ws <+: writes.toOption.getD [] ∧ Extends s (s.record writes).1 ws ∧
      ∀ ids, (s.record writes).2 = .ok ids → ws = writes.toOption.getD [] := by
  cases writes with
  | error e => exact ⟨[], nil_prefix, .refl s, fun _ _ => rfl⟩
  | ok ws =>
    obtain ⟨ws', hpre, hcells, hok⟩ := Db.cells_writeAll ws s.db
    have hscope := s.scope_txn fun db => db.writeAll ws
    have hresult := s.txn_result fun db => db.writeAll ws
    show ∃ ws', ws' <+: ws ∧ Extends s (s.txn fun db => db.writeAll ws).1 ws' ∧
      ∀ ids, (s.txn fun db => db.writeAll ws).2 = .ok ids → ws' = ws
    rcases s.txn_db fun db => db.writeAll ws with hdb | hdb
    · refine ⟨ws', hpre, ⟨fun t => ?_, hscope⟩, fun ids hids => hok ids (hresult ▸ hids)⟩
      rw [hdb]
      exact hcells t
    · cases hr : (s.txn fun db => db.writeAll ws).2 with
      | error e =>
        refine ⟨[], nil_prefix, ⟨fun t => ?_, hscope⟩, fun ids hids => ?_⟩
        · rw [hdb]
          simp [cellsOf]
        · exact absurd hids (by simp)
      | ok ids =>
        have hdb' := Store.txn_ok hr
        refine ⟨ws', hpre, ⟨fun t => ?_, hscope⟩, fun ids hids => hok ids (hresult ▸ hr ▸ hids)⟩
        rw [hdb']
        exact hcells t

theorem Store.record_single (s : Store) (w : Write) :
    (∃ ids, (s.record (.ok [w])).2 = .ok ids ∧ ∃ cells, w.cellsIn w.table = some cells ∧
        Extends s (s.record (.ok [w])).1 [w]) ∨
      ∃ e, (s.record (.ok [w])).2 = .error e ∧ Extends s (s.record (.ok [w])).1 [] := by
  obtain ⟨ws, hpre, hext, hok⟩ := s.record_extends (.ok [w])
  have hresult : (s.record (.ok [w])).2 = (s.db.writeAll [w]).2 :=
    s.txn_result fun db => db.writeAll [w]
  cases hr : (s.record (.ok [w])).2 with
  | ok ids =>
    have hstor := Db.writeAll_ok (hresult.symm.trans hr) w mem_cons_self
    obtain ⟨p, hp⟩ := Option.ne_none_iff_exists'.mp hstor
    have hws : ws = [w] := hok ids hr
    rw [hws] at hext
    exact .inl ⟨ids, rfl, p.1, by rw [Write.cellsIn, if_pos rfl, hp]; rfl, hext⟩
  | error e =>
    -- the row is not storable, so whatever was tried added no cells
    have hnone : w.stored = none := by
      by_contra hne
      have hall : ∀ w' ∈ [w], w'.Storable := fun w' hw' => by
        rw [mem_singleton.mp hw']
        exact hne
      obtain ⟨ids, hids⟩ := Db.writeAll_ok_of_storable hall s.db
      exact absurd (hids.symm.trans (hresult.symm.trans hr)) (by simp)
    have hempty : ∀ t, cellsOf ws t = [] := by
      intro t
      refine filterMap_eq_nil_iff.mpr fun w' hw' => ?_
      rw [mem_singleton.mp (hpre.subset hw'), Write.cellsIn, hnone]
      simp
    refine .inr ⟨e, rfl, ⟨fun t => ?_, hext.scope⟩⟩
    rw [hext.cells, hempty]
    rfl

/-- The recording methods. -/
def Op.Records : Op → Prop
  | .endActivity .. | .gc .. | .enter | .leave _ => False
  | _ => True

/-- **One method call** adds some first ones of its rows, and all of them if it returns. -/
theorem Store.perform_extends (s : Store) {op : Op} (h : op.Records) :
    ∃ ws, ws <+: op.writes u ∧ Extends s (s.perform u op).1 ws ∧
      ∀ r, (s.perform u op).2 = .ok r → ws = op.writes u := by
  have hrecord : ∀ (writes : Except Err (List Write)) (f : List ℤ → Reply),
      ∃ ws, ws <+: writes.toOption.getD [] ∧
        Extends s ((s.record writes).map id (·.map f)).1 ws ∧
        ∀ r, ((s.record writes).map id (·.map f)).2 = .ok r → ws = writes.toOption.getD [] := by
    intro writes f
    obtain ⟨ws, hpre, hext, hok⟩ := s.record_extends writes
    refine ⟨ws, hpre, hext, fun r hr => ?_⟩
    obtain ⟨ids, hids, -⟩ := except_map_ok hr
    exact hok ids hids
  cases op with
  | recordEntity ent now => exact hrecord _ _
  | recordActivity act now verdictNow => exact hrecord _ _
  | recordAgent agent now => exact hrecord _ _
  | recordEdge predicate subject obj activity now => exact hrecord _ _
  | recordAssertion a now => exact hrecord _ _
  | recordReceipt r now => exact hrecord _ _
  | recordMapping m now => exact hrecord _ _
  | _ => exact absurd h (by simp [Op.Records])

/-- **Method calls in a row** add some first ones of their rows, and all of them if none
raises. -/
theorem Store.performAll_extends {ops : List Op} (h : ∀ op ∈ ops, op.Records) (s : Store) :
    ∃ ws, ws <+: ops.flatMap (Op.writes u) ∧ Extends s (s.performAll u ops).1 ws ∧
      ∀ r, (s.performAll u ops).2 = .ok r → ws = ops.flatMap (Op.writes u) := by
  induction ops generalizing s with
  | nil => exact ⟨[], prefix_refl _, .refl s, fun _ _ => rfl⟩
  | cons op ops ih =>
    obtain ⟨ws, hpre, hext, hok⟩ := s.perform_extends (u := u) (h op mem_cons_self)
    rw [Store.performAll, flatMap_cons]
    split
    · next s' r heq =>
      rw [heq] at hext hok
      obtain ⟨ws', hpre', hext', hok'⟩ := ih (fun op hop => h op (mem_cons_of_mem _ hop)) s'
      rw [hok r rfl] at hext
      refine ⟨_, (prefix_append_right_inj _).mpr hpre', hext.trans hext', fun r hr => ?_⟩
      rw [hok' r hr]
    · next s' e heq =>
      rw [heq] at hext
      refine ⟨ws, hpre.trans (prefix_append _ _), hext, fun r hr => absurd hr (by simp)⟩

theorem Store.enter_db (s : Store) : s.enter.db = s.db := by
  rw [Store.enter]
  split <;> rfl

theorem Extends.leave (h : Extends s.enter s' ws) (raised : Bool) :
    Extends s (s'.leave raised) ws ∨ raised = true ∧ Extends s (s'.leave raised) [] := by
  have hcells := h.cells
  rw [s.enter_db] at hcells
  cases hs : s.scope with
  | none =>
    have henter : s.enter.scope = some (s.db, 0) := by simp [Store.enter, hs]
    rw [Store.leave, h.scope, henter]
    cases raised with
    | true => exact .inr ⟨rfl, ⟨fun t => by simp [cellsOf], hs.symm⟩⟩
    | false => exact .inl ⟨hcells, hs.symm⟩
  | some p =>
    obtain ⟨saved, n⟩ := p
    have henter : s.enter.scope = some (saved, n + 1) := by simp [Store.enter, hs]
    rw [Store.leave, h.scope, henter]
    exact .inl ⟨hcells, hs.symm⟩

variable {α : Type}

/-- **A transaction** adds what its body adds, or nothing if it raises. -/
theorem Store.transaction_extends (body : Store → Store × Except Exc α)
    (h : Extends s.enter (body s.enter).1 ws) :
    ((s.transaction body).2 = (body s.enter).2) ∧
      (Extends s (s.transaction body).1 ws ∨
        (∃ e, (body s.enter).2 = .error e) ∧ Extends s (s.transaction body).1 []) := by
  rw [Store.transaction]
  split
  · next s' v heq =>
    rw [heq] at h ⊢
    rcases h.leave false with h' | h'
    · exact ⟨rfl, .inl h'⟩
    · exact absurd h'.1 (by simp)
  · next s' e heq =>
    rw [heq] at h ⊢
    rcases h.leave true with h' | h'
    · exact ⟨rfl, .inl h'⟩
    · exact ⟨rfl, .inr ⟨⟨e, rfl⟩, h'.2⟩⟩

/-! ## Bodies of transactions -/

/-- A body that started in `s` added some first ones of the rows `ws`, and all of them if
it returned. -/
def Recorded {α : Type} (s : Store) (r : Store × Except Exc α) (ws : List Write) : Prop :=
  ∃ ws', ws' <+: ws ∧ Extends s r.1 ws' ∧ ∀ v, r.2 = .ok v → ws' = ws

theorem recorded_performAll (ops : List Op) (h : ∀ op ∈ ops, op.Records) (s : Store) :
    Recorded s (s.performAll u ops) (ops.flatMap (Op.writes u)) :=
  s.performAll_extends h

theorem recorded_nil (s : Store) (v : Except Exc α) : Recorded s (s, v) [] :=
  ⟨[], prefix_refl _, .refl s, fun _ _ => rfl⟩

theorem Recorded.map {β : Type} {r : Store × Except Exc α} (h : Recorded s r ws) (f : α → β) :
    Recorded s (r.map id (·.map f)) ws := by
  obtain ⟨ws', hpre, hext, hok⟩ := h
  refine ⟨ws', hpre, hext, fun v hv => ?_⟩
  obtain ⟨a, ha, -⟩ := except_map_ok hv
  exact hok a ha

theorem Recorded.error {β : Type} {e : Exc} (h : Recorded s (s', (.error e : Except Exc α)) ws)
    (ws' : List Write) :
    Recorded s (s', (.error e : Except Exc β)) (ws ++ ws') := by
  obtain ⟨ws₀, hpre, hext, -⟩ := h
  exact ⟨ws₀, hpre.trans (prefix_append _ _), hext, fun v hv => absurd hv (by simp)⟩

theorem Recorded.seq {β : Type} {v : α} {r : Store × Except Exc β} {ws' : List Write}
    (h : Recorded s (s', .ok v) ws) (h' : Recorded s' r ws') :
    Recorded s r (ws ++ ws') := by
  obtain ⟨ws₀, -, hext, hok⟩ := h
  obtain ⟨ws₁, hpre, hext', hok'⟩ := h'
  rw [hok v rfl] at hext
  refine ⟨ws ++ ws₁, (prefix_append_right_inj _).mpr hpre, hext.trans hext', fun w hw => ?_⟩
  rw [hok' w hw]

theorem Recorded.transaction (body : Store → Store × Except Exc α)
    (h : Recorded s.enter (body s.enter) ws) :
    Recorded s (s.transaction body) ws := by
  obtain ⟨ws', hpre, hext, hok⟩ := h
  obtain ⟨hresult, hext' | ⟨⟨e, he⟩, hext'⟩⟩ := Store.transaction_extends body hext
  · exact ⟨ws', hpre, hext', fun v hv => hok v (hresult ▸ hv)⟩
  · refine ⟨[], nil_prefix, hext', fun v hv => ?_⟩
    rw [hresult, he] at hv
    exact absurd hv (by simp)

theorem Recorded.cells {r : Store × Except Exc α} (h : Recorded s r ws) :
    ∃ ws', Extends s r.1 ws' ∧ (∀ t, cellsOf ws' t <+: cellsOf ws t) ∧
      ∀ v, r.2 = .ok v → ∀ t, cellsOf ws' t = cellsOf ws t := by
  obtain ⟨ws', hpre, hext, hok⟩ := h
  refine ⟨ws', hext, fun t => hpre.filterMap _, fun v hv t => ?_⟩
  rw [hok v hv]

/-! ## The tables of a method -/

/-- The tables a method writes to. -/
def Op.tables : Op → List Table
  | .recordEntity .. => [.entities]
  | .recordActivity .. => [.activities, .assertions]
  | .endActivity .. => [.assertions]
  | .recordAgent .. => [.agents]
  | .recordEdge .. => [.edges]
  | .recordAssertion .. => [.assertions]
  | .recordReceipt .. => [.receipts]
  | .recordMapping .. => [.mappingActivity, .mappingInput, .mappingOutput]
  | _ => []

theorem verdictWrites_table {aid : String} {verdict : Option String} {now : ℤ} {w : Write}
    (h : w ∈ verdictWrites aid verdict now) : w.table = .assertions := by
  cases verdict with
  | none => exact absurd h (by simp [verdictWrites])
  | some v =>
    rw [mem_singleton.mp h]
    rfl

theorem mem_of_require {ok : Bool} {msg : String} {x : Except Err (List Write)} {w : Write}
    (h : w ∈ (require ok msg >>= fun _ => x).toOption.getD []) : w ∈ x.toOption.getD [] := by
  cases ok with
  | true => exact h
  | false => exact absurd h (by simp [require, bind, Except.bind, Except.toOption])

theorem Op.mem_tables {op : Op} {w : Write} (h : w ∈ op.writes u) : w.table ∈ op.tables := by
  cases op with
  | recordEntity ent now =>
    have hw := mem_singleton.mp (mem_of_require (mem_of_require h))
    rw [hw]
    exact mem_singleton.mpr rfl
  | recordActivity act now verdictNow =>
    rcases mem_cons.mp (mem_of_require (mem_of_require h)) with rfl | hw
    · exact mem_cons_self
    · rw [verdictWrites_table hw]
      exact mem_cons_of_mem _ mem_cons_self
  | endActivity aid verdict endedAt now verdictNow =>
    rw [Op.writes] at h
    split at h
    · exact absurd h (by simp)
    · rw [verdictWrites_table h]
      exact mem_cons_self
  | recordAgent agent now =>
    have hw := mem_singleton.mp (mem_of_require h)
    rw [hw]
    exact mem_singleton.mpr rfl
  | recordEdge predicate subject obj activity now =>
    have hw := mem_singleton.mp (mem_of_require h)
    rw [hw]
    exact mem_singleton.mpr rfl
  | recordAssertion a now =>
    have hw := mem_singleton.mp (mem_of_require h)
    rw [hw]
    exact mem_singleton.mpr rfl
  | recordReceipt r now =>
    have hw := mem_singleton.mp (mem_of_require h)
    rw [hw]
    exact mem_singleton.mpr rfl
  | recordMapping m now =>
    have hw := mem_of_require h
    simp only [Op.tables, Except.toOption, pure, Except.pure, Option.getD_some, mem_cons,
      mem_append, mem_map] at hw ⊢
    rcases hw with rfl | ⟨e, -, rfl⟩ | ⟨e, -, rfl⟩
    · exact .inl rfl
    · exact .inr (.inl rfl)
    · exact .inr (.inr (.inl rfl))
  | _ => exact absurd h (by simp [Op.writes])

theorem Op.cellsOf_writes {op : Op} {t : Table} (h : t ∉ op.tables) : cellsOf (op.writes u) t = [] := by
  refine filterMap_eq_nil_iff.mpr fun w hw => ?_
  rw [Write.cellsIn, if_neg]
  rintro rfl
  exact h (Op.mem_tables hw)

theorem cellsOf_flatMap (ops : List Op) (t : Table) :
    cellsOf (ops.flatMap (Op.writes u)) t = ops.flatMap fun op => cellsOf (op.writes u) t := by
  rw [cellsOf, filterMap_flatMap]
  rfl

theorem cellsOf_flatMap_eq_nil {ops : List Op} {t : Table} (h : ∀ op ∈ ops, t ∉ op.tables) :
    cellsOf (ops.flatMap (Op.writes u)) t = [] := by
  rw [cellsOf_flatMap]
  exact flatMap_eq_nil_iff.mpr fun op hop => Op.cellsOf_writes (h op hop)

theorem cellsOf_recordEntity (ent : Entity) (now : ℤ) {cells : List Cell}
    (h : cells ∈ cellsOf ((Op.recordEntity ent now).writes u) .entities) :
    (entityWrite ent now).cellsIn .entities = some cells ∧
      cellsOf ((Op.recordEntity ent now).writes u) .entities = [cells] := by
  obtain ⟨w, hw, hcells⟩ := mem_filterMap.mp h
  have hw' := mem_singleton.mp (mem_of_require (mem_of_require hw))
  subst hw'
  refine ⟨hcells, ?_⟩
  have hwrites : (Op.recordEntity ent now).writes u = [entityWrite ent now] := by
    cases hws : entityWrites u ent now with
    | error e =>
      rw [Op.writes, hws] at hw
      exact absurd hw (by simp [Except.toOption])
    | ok ws =>
      rw [Op.writes, hws]
      exact (Except.ok.inj (ok_of_require (ok_of_require hws))).symm
  rw [hwrites, cellsOf, filterMap_cons, hcells]
  rfl

/-! ## Reading entities -/

/-- The facets of an entity; every reader takes a value that is no object as an empty
one. -/
def readFacets (c : Cell) : List (String × Json) :=
  match c.str? with
  | none => []
  | some text =>
    match loads text.toList with
    | some (.obj fields) => fields
    | _ => []

/-- A time; the writers store integers. -/
def Cell.time : Cell → ℤ
  | .int n => n.1
  | _ => 0

/-- The entity in the cells of a row. -/
def readEntity (cells : List Cell) : Entity where
  eid := (colOf .entities cells "eid").str?.getD ""
  kind := (colOf .entities cells "kind").str?.getD ""
  digest := (colOf .entities cells "digest").str?
  locator := (colOf .entities cells "locator").str?
  guards := (colOf .entities cells "guards").strings
  compartments := (colOf .entities cells "compartments").strings
  conflictClasses := (colOf .entities cells "conflict_classes").strings
  integrity := (colOf .entities cells "integrity").str?
  status := (colOf .entities cells "status").str?.getD ""
  facets := readFacets (colOf .entities cells "facets")
  createdAt := (colOf .entities cells "created_at").time

/-- The newest row of an identifier. -/
def latest (rows : List (List Cell)) (eid : String) : Option Entity :=
  ((rows.filter fun cells => colOf .entities cells "eid" = .text eid).getLast?).map readEntity

/-- `get_entity` -/
def Db.getEntity (db : Db) (eid : String) : Option Entity := latest (db.cells .entities) eid

/-- The security fields of an entity. -/
def Entity.endpoint (ent : Entity) : FlowEndpoint :=
  ⟨ent.guards, ent.compartments, ent.conflictClasses⟩

theorem Db.snapshot_eq_getEntity (db : Db) (eid : String) :
    db.snapshot eid = (db.getEntity eid).map Entity.endpoint := by
  rw [Db.getEntity, latest, Db.cells, filter_map, getLast?_map, Option.map_map,
    Option.map_map, Db.snapshot]
  rfl

theorem latest_append (rows new : List (List Cell)) (eid : String) :
    latest (rows ++ new) eid = (latest new eid).or (latest rows eid) := by
  rw [latest, latest, latest, filter_append, getLast?_append]
  cases ((new.filter fun cells => colOf .entities cells "eid" = .text eid).getLast?) <;> rfl

theorem latest_singleton (cells : List Cell) (eid : String) :
    latest [cells] eid =
      if colOf .entities cells "eid" = .text eid then some (readEntity cells) else none := by
  rw [latest, filter_singleton]
  split <;> simp_all

variable {ent : Entity}

theorem latest_mem {rows : List (List Cell)} {eid : String} (h : latest rows eid = some ent) :
    ∃ cells ∈ rows, colOf .entities cells "eid" = .text eid ∧ readEntity cells = ent := by
  rw [latest, Option.map_eq_some_iff] at h
  obtain ⟨cells, hcells, rfl⟩ := h
  have hmem := mem_of_getLast? hcells
  rw [mem_filter, decide_eq_true_eq] at hmem
  exact ⟨cells, hmem.1, hmem.2, rfl⟩

theorem Extends.getEntity (h : Extends s s' ws) (eid : String) :
    s'.db.getEntity eid = (latest (cellsOf ws .entities) eid).or (s.db.getEntity eid) := by
  rw [Db.getEntity, h.cells, latest_append]
  rfl

theorem distinct_readFacets (c : Cell) : Distinct (.obj (readFacets c)) := by
  have hnil : Distinct (.obj []) := by simp [Distinct, DistinctFields]
  unfold readFacets
  split
  · exact hnil
  · split
    · next heq => exact distinct_loads heq
    · exact hnil

theorem Db.distinct_getEntity {db : Db} {eid : String} (h : db.getEntity eid = some ent) :
    Distinct (.obj ent.facets) := by
  obtain ⟨cells, -, -, rfl⟩ := latest_mem h
  exact distinct_readFacets _

theorem Db.eid_getEntity {db : Db} {eid : String} (h : db.getEntity eid = some ent) :
    ent.eid = eid := by
  obtain ⟨cells, -, heid, rfl⟩ := latest_mem h
  rw [readEntity, heid]
  rfl

/-! ## Reading back an entity -/

/-- The entity that is read back after recording: its sets are sorted, and so are its
facets. -/
def Entity.readBack (ent : Entity) (now : ℤ) : Entity :=
  { ent with
    guards := sortedSet ent.guards
    compartments := sortedSet ent.compartments
    conflictClasses := sortedSet ent.conflictClasses
    facets := sortFields (sortKeysFields ent.facets)
    createdAt := stampOr ent.createdAt now }

theorem Param.str?_store_ofText {o : Option String} {c : Cell}
    (h : (Param.ofText o).store = some c) : c.str? = o := by
  cases o with
  | none =>
    rw [← Option.some.inj h]
    rfl
  | some s =>
    rw [← Option.some.inj h]
    rfl

theorem readFacets_jdict {fields : List (String × Json)} {c : Cell}
    (h : (Param.ofText (jdict fields)).store = some c) (hd : Distinct (.obj fields)) :
    readFacets c = sortFields (sortKeysFields fields) := by
  rw [readFacets, Param.str?_store_ofText h, jdict]
  by_cases hf : fields = []
  · rw [if_pos hf, hf]
    simp [sortKeysFields, sortFields]
  · rw [if_neg hf]
    simp only [String.toList_ofList, loads_dumpsSorted defaultSeps hd]
    rw [sortKeys]

/-- **An entity is read back as it was recorded.** -/
theorem readEntity_entityWrite {now : ℤ} {cells : List Cell}
    (h : (entityWrite ent now).cellsIn .entities = some cells) (hd : Distinct (.obj ent.facets)) :
    colOf .entities cells "eid" = .text ent.eid ∧ readEntity cells = ent.readBack now := by
  rw [Write.cellsIn, if_pos (by rfl), Option.map_eq_some_iff] at h
  obtain ⟨⟨_, cache⟩, hst, rfl⟩ := h
  have hcells := mapM_eq_some_iff.mp (Write.stored_eq hst)
  simp only [entityWrite, forall₂_cons_left_iff, forall₂_nil_left_iff] at hcells
  obtain ⟨c₁, _, h₁, ⟨c₂, _, h₂, ⟨c₃, _, h₃, ⟨c₄, _, h₄, ⟨c₅, _, h₅, ⟨c₆, _, h₆, ⟨c₇, _, h₇,
    ⟨c₈, _, h₈, ⟨c₉, _, h₉, ⟨c₁₀, _, h₁₀, ⟨c₁₁, _, h₁₁, rfl, rfl⟩, rfl⟩, rfl⟩, rfl⟩, rfl⟩, rfl⟩,
    rfl⟩, rfl⟩, rfl⟩, rfl⟩, rfl⟩ := hcells
  have hset : ∀ (values : List String) (c : Cell), (Param.text (jset values)).store = some c →
      c.strings = sortedSet values := by
    intro values c hc
    rw [← Option.some.inj hc]
    exact jload_jset values
  have htime : c₁₁.time = stampOr ent.createdAt now := by
    rw [Param.store] at h₁₁
    split at h₁₁
    · rw [← Option.some.inj h₁₁]
      rfl
    · exact absurd h₁₁ (by simp)
  cases h₁
  cases h₂
  cases h₉
  refine ⟨rfl, ?_⟩
  rw [Entity.readBack, ← hset _ _ h₅, ← hset _ _ h₆, ← hset _ _ h₇, ← readFacets_jdict h₁₀ hd,
    ← htime]
  unfold readEntity
  congr 1
  · exact Param.str?_store_ofText h₃
  · exact Param.str?_store_ofText h₄
  · exact Param.str?_store_ofText h₈

theorem Entity.lookup_readBack (hd : Distinct (.obj ent.facets)) (now : ℤ) (key : String) :
    PyDict.lookup (ent.readBack now).facets key =
      (PyDict.lookup ent.facets key).map sortKeys := by
  rw [Distinct] at hd
  exact lookup_sortFields hd.1 key

/-! ## Reading assertions -/

/-- An entry of `assertions_for`, without its time. -/
structure StoredAssertion where
  fact : String
  value : Json
  assertedBy : String
  authority : String

/-- The assertion in the cells of a row; a value that is no JSON text is returned as it
is. -/
def readAssertion (cells : List Cell) : StoredAssertion where
  fact := (colOf .assertions cells "fact").str?.getD ""
  value := match (colOf .assertions cells "value").str? with
    | none => .null
    | some text => (loads text.toList).getD (.str text)
  assertedBy := (colOf .assertions cells "asserted_by").str?.getD ""
  authority := (colOf .assertions cells "authority").str?.getD ""

/-- Whether `assertions_for(subject, authority=authority)` selects a row. -/
def selects (subject authority : String) (cells : List Cell) : Bool :=
  colOf .assertions cells "subject" = .text subject ∧
    colOf .assertions cells "authority" = .text authority

/-- `assertions_for(subject, authority=authority)` -/
def Db.assertionsFor (db : Db) (subject authority : String) : List StoredAssertion :=
  ((db.cells .assertions).filter (selects subject authority)).map readAssertion

theorem Extends.assertionsFor (h : Extends s s' ws) (subject authority : String) :
    s'.db.assertionsFor subject authority = s.db.assertionsFor subject authority ++
      ((cellsOf ws .assertions).filter (selects subject authority)).map readAssertion := by
  rw [Db.assertionsFor, h.cells, filter_append, map_append]
  rfl

/-- **An assertion is read back as it was recorded.** -/
theorem readAssertion_assertionWrite {a : Assertion} {now : ℤ} {cells : List Cell}
    (h : (assertionWrite a now).cellsIn .assertions = some cells) (hd : Distinct a.value) :
    (∀ subject authority, selects subject authority cells = true ↔
        a.subject = subject ∧ a.authority = authority) ∧
      readAssertion cells = ⟨a.fact, sortKeys a.value, a.assertedBy, a.authority⟩ := by
  rw [Write.cellsIn, if_pos (by rfl), Option.map_eq_some_iff] at h
  obtain ⟨⟨_, cache⟩, hst, rfl⟩ := h
  have hcells := mapM_eq_some_iff.mp (Write.stored_eq hst)
  simp only [assertionWrite, forall₂_cons_left_iff, forall₂_nil_left_iff] at hcells
  obtain ⟨c₁, _, h₁, ⟨c₂, _, h₂, ⟨c₃, _, h₃, ⟨c₄, _, h₄, ⟨c₅, _, h₅, ⟨c₆, _, h₆, rfl, rfl⟩, rfl⟩,
    rfl⟩, rfl⟩, rfl⟩, rfl⟩ := hcells
  cases h₁
  cases h₂
  cases h₃
  cases h₄
  cases h₅
  constructor
  · intro subject authority
    have hs : ∀ rest, colOf .assertions (.text a.subject :: rest) "subject" = .text a.subject :=
      fun _ => rfl
    have ha : ∀ x y z rest, colOf .assertions (x :: y :: z :: .text a.assertedBy ::
        .text a.authority :: rest) "authority" = .text a.authority := fun _ _ _ _ => rfl
    rw [selects, hs, ha, decide_eq_true_eq, Cell.text.injEq, Cell.text.injEq]
  · show StoredAssertion.mk a.fact ((loads (String.ofList _).toList).getD (.str _)) _ _ = _
    rw [String.toList_ofList, loads_dumpsSorted defaultSeps hd]
    rfl

end Lineage
