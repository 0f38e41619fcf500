/-
# Labels and derivations

Two columns of the store decide what an entity carries: the security fields of the entity
rows (`Db.labels`) and the `wasDerivedFrom` edges (`Db.derivations`).  Recording only adds
to them, and `Grows s s' L D` says what it added: a method call its own label and
derivation, a list of calls those of some first ones of them, and a transaction what its
body added or nothing.

The newest label of an identifier is what `get_entity` reads back (`Db.snapshot_eq`).
-/
import QDistro.Chokepoints
import QDistro.LineageChain
import QDistro.JsonRoundTrip

open JsonText

namespace Lineage

open List

open Store

open Db

variable {u : UnicodeDb}

/-! ## Labels and derivations -/

/-- The identifier and the security fields of an entity row. -/
def Row.label (r : Row .entities) : Option (String × FlowEndpoint) :=
  (r.col "eid").str?.map fun eid => (eid, r.endpoint)

/-- The recorded security fields, oldest first. -/
def Db.labels (db : Db) : List (String × FlowEndpoint) := (db.rows .entities).filterMap Row.label

/-- The derivative and the source of a `wasDerivedFrom` edge. -/
def Row.derivation (r : Row .edges) : Option (String × String) :=
  if r.col "predicate" = .text "wasDerivedFrom" then
    (r.col "subject").str?.bind fun y => (r.col "object").str?.map fun x => (y, x)
  else none

/-- The recorded derivations, oldest first. -/
def Db.derivations (db : Db) : List (String × String) := (db.rows .edges).filterMap Row.derivation

/-- The newest label of an identifier. -/
def newest (labels : List (String × FlowEndpoint)) (eid : String) : Option FlowEndpoint :=
  ((labels.filter fun l => l.1 = eid).getLast?).map Prod.snd

theorem Db.snapshot_eq (db : Db) (eid : String) : db.snapshot eid = newest db.labels eid := by
  have hrows : ∀ rows : List (Row .entities),
      (rows.filterMap Row.label).filter (fun l => l.1 = eid) =
        (rows.filter fun r => r.col "eid" = .text eid).map fun r => (eid, r.endpoint) := by
    intro rows
    induction rows with
    | nil => rfl
    | cons r rows ih =>
      by_cases h : r.col "eid" = .text eid
      · have hl : r.label = some (eid, r.endpoint) := by rw [Row.label, h]; rfl
        rw [filterMap_cons, hl, filter_cons, if_pos (by simp), ih,
          filter_cons, if_pos (by simpa using h), map_cons]
      · rw [filter_cons, if_neg (by simpa using h), ← ih, filterMap_cons]
        cases hc : r.col "eid" with
        | text e =>
          have he : e ≠ eid := by
            rintro rfl
            exact h hc
          have hl : r.label = some (e, r.endpoint) := by rw [Row.label, hc]; rfl
          simp [hl, he]
        | _ =>
          have hl : r.label = none := by rw [Row.label, hc]; rfl
          simp [hl]
  rw [newest, labels, hrows, getLast?_map, Option.map_map, snapshot]
  rfl

theorem newest_append (labels new : List (String × FlowEndpoint)) (eid : String) :
    newest (labels ++ new) eid = (newest new eid).or (newest labels eid) := by
  rw [newest, newest, newest, filter_append, getLast?_append]
  cases ((new.filter fun l => l.1 = eid).getLast?) <;> rfl

theorem newest_mem {labels : List (String × FlowEndpoint)} {eid : String} {e : FlowEndpoint}
    (h : newest labels eid = some e) : (eid, e) ∈ labels := by
  rw [newest, Option.map_eq_some_iff] at h
  obtain ⟨l, hl, rfl⟩ := h
  have hmem := mem_of_getLast? hl
  rw [mem_filter, decide_eq_true_eq] at hmem
  rw [← hmem.2]
  exact hmem.1

/-- What an operation added to the store, and that it left the open scope alone. -/
structure Grows (s s' : Store) (L : List (String × FlowEndpoint)) (D : List (String × String)) :
    Prop where
  labels : s'.db.labels = s.db.labels ++ L
  derivations : s'.db.derivations = s.db.derivations ++ D
  scope : s'.scope = s.scope

theorem Grows.refl (s : Store) : Grows s s [] [] :=
  ⟨(append_nil _).symm, (append_nil _).symm, rfl⟩

variable {L : List (String × FlowEndpoint)}

theorem Grows.trans {s s' s'' : Store} {L' : List (String × FlowEndpoint)}
    {D D' : List (String × String)} (h : Grows s s' L D) (h' : Grows s' s'' L' D') :
    Grows s s'' (L ++ L') (D ++ D') := by
  refine ⟨?_, ?_, h'.scope.trans h.scope⟩
  · rw [h'.labels, h.labels, append_assoc]
  · rw [h'.derivations, h.derivations, append_assoc]

/-! ## One row -/

theorem Db.rows_write_of_ne (db : Db) (w : Write) {t : Table} (h : t ≠ w.table) :
    (db.write w).1.rows t = db.rows t := by
  rw [write]
  split
  · rfl
  · simp only [insert, sealRow, append]
    rw [Function.update_of_ne h]

theorem Db.rows_write {db : Db} {w : Write} {cells cache : List Cell}
    (h : w.stored = some (cells, cache)) :
    ∃ r : Row w.table, r.cells = cells ∧
      (db.write w).1.rows w.table = db.rows w.table ++ [r] := by
  rw [write]
  split
  · next hs => rw [hs] at h; exact absurd h (by simp)
  · next cells' cache' hs =>
    rw [hs] at h
    obtain ⟨rfl, rfl⟩ := Prod.mk.inj (Option.some.inj h)
    simp only [insert, sealRow, append]
    exact ⟨_, rfl, Function.update_self _ _ _⟩

variable {ws : List Write}

theorem Db.rows_writeAll_of_ne {t : Table} (h : ∀ w ∈ ws, t ≠ w.table) (db : Db) :
    (db.writeAll ws).1.rows t = db.rows t := by
  induction ws generalizing db with
  | nil => rfl
  | cons w ws ih =>
    have hw := db.rows_write_of_ne w (h w mem_cons_self)
    rw [writeAll]
    split
    · next db' e heq => rw [heq] at hw; exact hw
    · next db' id heq =>
      rw [heq] at hw
      rw [← hw]
      exact ih (fun w hw => h w (mem_cons_of_mem _ hw)) db'

variable {α : Type}

theorem Store.scope_txn (s : Store) (body : Db → Db × Except Err α) :
    (s.txn body).1.scope = s.scope := by
  rw [txn]
  split
  · rfl
  · split <;> rfl

theorem Store.txn_ok {s : Store} {body : Db → Db × Except Err α} {v : α}
    (h : (s.txn body).2 = .ok v) : (s.txn body).1.db = (body s.db).1 := by
  rw [txn] at h ⊢
  split
  · rfl
  · next hs =>
    rw [hs] at h
    simp only at h
    split
    · next heq => rw [heq]
    · next heq => rw [heq] at h; exact absurd h (by simp)

theorem Store.txn_db (s : Store) (body : Db → Db × Except Err α) :
    (s.txn body).1.db = (body s.db).1 ∨ (s.txn body).1.db = s.db := by
  rw [txn]
  split
  · exact .inl rfl
  · split
    · next heq => exact .inl (by rw [heq])
    · exact .inr rfl

theorem Store.txn_result (s : Store) (body : Db → Db × Except Err α) :
    (s.txn body).2 = (body s.db).2 := by
  rw [txn]
  split
  · rfl
  · split
    · next heq => rw [heq]
    · next heq => rw [heq]

theorem Db.writeAll_ok_of_storable (h : ∀ w ∈ ws, w.Storable) (db : Db) :
    ∃ ids, (db.writeAll ws).2 = .ok ids := by
  induction ws generalizing db with
  | nil => exact ⟨[], rfl⟩
  | cons w ws ih =>
    obtain ⟨id, hid⟩ := (db.write_ok_iff w).mpr (h w mem_cons_self)
    rw [writeAll]
    split
    · next heq => rw [heq] at hid; exact absurd hid (by simp)
    · next db' id' heq =>
      obtain ⟨ids, hids⟩ := ih (fun w hw => h w (mem_cons_of_mem _ hw)) db'
      simp only [hids]
      exact ⟨_, rfl⟩

/-- What a list of rows adds, if all of them are stored. -/
structure WritesAdd (ws : List Write) (L : List (String × FlowEndpoint))
    (D : List (String × String)) : Prop where
  stored : (∀ w ∈ ws, w.Storable) → ∀ db : Db, (db.writeAll ws).1.labels = db.labels ++ L ∧
    (db.writeAll ws).1.derivations = db.derivations ++ D
  refused : (¬ ∀ w ∈ ws, w.Storable) → ∀ db : Db, (db.writeAll ws).1.labels = db.labels ∧
    (db.writeAll ws).1.derivations = db.derivations

/-- A writer adds its rows' labels and derivations if it returns, and nothing if it
raises. -/
theorem Store.record_grows {s : Store} {writes : Except Err (List Write)}
    {D : List (String × String)} (h : ∀ ws, writes = .ok ws → WritesAdd ws L D) :
    (∀ ids, (s.record writes).2 = .ok ids → Grows s (s.record writes).1 L D) ∧
      (∀ e, (s.record writes).2 = .error e → Grows s (s.record writes).1 [] []) := by
  cases writes with
  | error e => exact ⟨fun ids hids => absurd hids (by simp [record]), fun _ _ => .refl s⟩
  | ok ws =>
    have hadd := h ws rfl
    have hscope := s.scope_txn fun db => db.writeAll ws
    have hresult := s.txn_result fun db => db.writeAll ws
    refine ⟨?_, ?_⟩
    · intro ids hids
      have hdb := txn_ok hids
      have hstored := writeAll_ok (hresult.symm.trans hids)
      obtain ⟨hl, hd⟩ := hadd.stored hstored s.db
      exact ⟨(congrArg labels hdb).trans hl, (congrArg derivations hdb).trans hd, hscope⟩
    · intro e he
      have hrefused : ¬ ∀ w ∈ ws, w.Storable := by
        intro hall
        obtain ⟨ids, hids⟩ := writeAll_ok_of_storable hall s.db
        rw [← hresult] at hids
        exact absurd (hids.symm.trans he) (by simp)
      obtain ⟨hl, hd⟩ := hadd.refused hrefused s.db
      refine ⟨?_, ?_, hscope⟩
      · rw [append_nil]
        rcases s.txn_db fun db => db.writeAll ws with hdb | hdb
        · exact (congrArg labels hdb).trans hl
        · exact congrArg labels hdb
      · rw [append_nil]
        rcases s.txn_db fun db => db.writeAll ws with hdb | hdb
        · exact (congrArg derivations hdb).trans hd
        · exact congrArg derivations hdb

theorem writesAdd_other (h : ∀ w ∈ ws, Table.entities ≠ w.table ∧ Table.edges ≠ w.table) :
    WritesAdd ws [] [] := by
  have hsame : ∀ db : Db, (db.writeAll ws).1.labels = db.labels ∧
      (db.writeAll ws).1.derivations = db.derivations := by
    intro db
    rw [labels, labels, derivations, derivations,
      rows_writeAll_of_ne (fun w hw => (h w hw).1),
      rows_writeAll_of_ne (fun w hw => (h w hw).2)]
    exact ⟨rfl, rfl⟩
  refine ⟨fun _ db => ?_, fun _ db => hsame db⟩
  rw [append_nil, append_nil]
  exact hsame db

theorem Db.writeAll_singleton (db : Db) (w : Write) :
    (db.writeAll [w]).1 = (db.write w).1 := by
  rw [writeAll]
  split
  · next heq => rw [heq]
  · next heq => rw [heq]; rfl

/-! ## Entities and edges -/

theorem distinctItems_strs (values : List String) : DistinctItems (values.map Json.str) := by
  induction values with
  | nil => rw [map_nil, DistinctItems]; trivial
  | cons v vs ih =>
    rw [map_cons, DistinctItems]
    exact ⟨by rw [Distinct] <;> simp, ih⟩

theorem jload_jset (values : List String) : jload (jset values) = sortedSet values := by
  have hd : Distinct (.arr ((sortedSet values).map Json.str)) := by
    rw [Distinct]
    exact distinctItems_strs _
  rw [jload, jset, String.toList_ofList, loads_dumps defaultSeps _ hd]
  simp only [filterMap_map]
  exact filterMap_some

/-- The security fields of an entity as they are recorded. -/
def Entity.recorded (ent : Entity) : FlowEndpoint where
  guards := sortedSet ent.guards
  compartments := sortedSet ent.compartments
  conflictClasses := sortedSet ent.conflictClasses

variable {now : ℤ}

theorem entityWrite_cells {ent : Entity} {cells cache : List Cell}
    (h : (entityWrite ent now).stored = some (cells, cache)) :
    ∃ d l i f t, cells = [.text ent.eid, .text ent.kind, d, l, .text (jset ent.guards),
      .text (jset ent.compartments), .text (jset ent.conflictClasses), i, .text ent.status, f, t] := by
  have hcells := mapM_eq_some_iff.mp (Write.stored_eq h)
  simp only [entityWrite, forall₂_cons_left_iff, forall₂_nil_left_iff, Param.store,
    Option.some.injEq] at hcells
  obtain ⟨_, _, rfl, ⟨_, _, rfl, ⟨d, _, -, ⟨l, _, -, ⟨_, _, rfl, ⟨_, _, rfl, ⟨_, _, rfl,
    ⟨i, _, -, ⟨_, _, rfl, ⟨f, _, -, ⟨t, _, -, rfl, rfl⟩, rfl⟩, rfl⟩, rfl⟩, rfl⟩, rfl⟩, rfl⟩,
    rfl⟩, rfl⟩, rfl⟩, rfl⟩ := hcells
  exact ⟨d, l, i, f, t, rfl⟩

theorem label_of_cells {ent : Entity} {r : Row .entities} {d l i f t : Cell}
    (h : r.cells = [.text ent.eid, .text ent.kind, d, l, .text (jset ent.guards),
      .text (jset ent.compartments), .text (jset ent.conflictClasses), i, .text ent.status, f, t]) :
    r.label = some (ent.eid, ent.recorded) := by
  have heid : r.col "eid" = .text ent.eid := by rw [Row.col, h]; rfl
  have hg : r.col "guards" = .text (jset ent.guards) := by rw [Row.col, h]; rfl
  have hc : r.col "compartments" = .text (jset ent.compartments) := by rw [Row.col, h]; rfl
  have hf : r.col "conflict_classes" = .text (jset ent.conflictClasses) := by rw [Row.col, h]; rfl
  rw [Row.label, Row.endpoint, heid, hg, hc, hf]
  simp only [Cell.strings, Cell.str?, jload_jset, Option.map_some]
  rfl

theorem writesAdd_entity (ent : Entity) (now : ℤ) :
    WritesAdd [entityWrite ent now] [(ent.eid, ent.recorded)] [] := by
  have hedges : ∀ db : Db, (db.write (entityWrite ent now)).1.derivations = db.derivations := by
    intro db
    rw [derivations, derivations, rows_write_of_ne db _ (by simp [entityWrite])]
  refine ⟨fun hs db => ?_, fun hs db => ?_⟩
  · rw [writeAll_singleton, hedges, append_nil]
    refine ⟨?_, rfl⟩
    obtain ⟨p, hp⟩ := Option.ne_none_iff_exists'.mp (hs _ mem_cons_self)
    obtain ⟨r, hr, hrows⟩ : ∃ r : Row .entities, r.cells = p.1 ∧
        (db.write (entityWrite ent now)).1.rows .entities = db.rows .entities ++ [r] :=
      rows_write hp
    obtain ⟨d, l, i, f, t, hcells⟩ := entityWrite_cells hp
    have hlabel := label_of_cells (hr.trans hcells)
    rw [labels, labels, hrows, filterMap_append, filterMap_cons, hlabel]
    rfl
  · rw [writeAll_singleton, hedges]
    refine ⟨?_, rfl⟩
    rw [labels, labels, rows_write_of_not_storable db (by simpa using hs)]

/-- The derivation that an edge records, if it is one. -/
def edgeDerivation (predicate subject obj : String) : List (String × String) :=
  if predicate = "wasDerivedFrom" then [(subject, obj)] else []

variable {predicate : String}

theorem edgeWrite_cells {subject obj : String} {activity : Option String} {cells cache : List Cell}
    (h : (edgeWrite predicate subject obj activity now).stored = some (cells, cache)) :
    ∃ a t, cells = [.text predicate, .text subject, .text obj, a, t] := by
  have hcells := mapM_eq_some_iff.mp (Write.stored_eq h)
  simp only [edgeWrite, forall₂_cons_left_iff, forall₂_nil_left_iff, Param.store,
    Option.some.injEq] at hcells
  obtain ⟨_, _, rfl, ⟨_, _, rfl, ⟨_, _, rfl, ⟨a, _, -, ⟨t, _, -, rfl, rfl⟩, rfl⟩, rfl⟩, rfl⟩,
    rfl⟩ := hcells
  exact ⟨a, t, rfl⟩

theorem derivation_of_cells {subject obj : String} {r : Row .edges} {a t : Cell}
    (h : r.cells = [.text predicate, .text subject, .text obj, a, t]) :
    r.derivation.toList = edgeDerivation predicate subject obj := by
  have hp : r.col "predicate" = .text predicate := by rw [Row.col, h]; rfl
  have hs : r.col "subject" = .text subject := by rw [Row.col, h]; rfl
  have ho : r.col "object" = .text obj := by rw [Row.col, h]; rfl
  rw [Row.derivation, hp, hs, ho, edgeDerivation]
  by_cases hd : predicate = "wasDerivedFrom"
  · rw [if_pos (by rw [hd]), if_pos hd]
    rfl
  · rw [if_neg (by simpa using hd), if_neg hd]
    rfl

theorem writesAdd_edge (predicate subject obj : String) (activity : Option String) (now : ℤ) :
    WritesAdd [edgeWrite predicate subject obj activity now] []
      (edgeDerivation predicate subject obj) := by
  have hlabels : ∀ db : Db,
      (db.write (edgeWrite predicate subject obj activity now)).1.labels = db.labels := by
    intro db
    rw [labels, labels, rows_write_of_ne db _ (by simp [edgeWrite])]
  refine ⟨fun hs db => ?_, fun hs db => ?_⟩
  · rw [writeAll_singleton, hlabels, append_nil]
    refine ⟨rfl, ?_⟩
    obtain ⟨p, hp⟩ := Option.ne_none_iff_exists'.mp (hs _ mem_cons_self)
    obtain ⟨r, hr, hrows⟩ : ∃ r : Row .edges, r.cells = p.1 ∧
        (db.write (edgeWrite predicate subject obj activity now)).1.rows .edges =
          db.rows .edges ++ [r] := rows_write hp
    obtain ⟨a, t, hcells⟩ := edgeWrite_cells hp
    rw [derivations, derivations, hrows, filterMap_append,
      ← derivation_of_cells (hr.trans hcells), filterMap_cons]
    cases r.derivation <;> rfl
  · rw [writeAll_singleton, hlabels]
    refine ⟨rfl, ?_⟩
    rw [derivations, derivations, rows_write_of_not_storable db (by simpa using hs)]

/-! ## Method calls -/

/-- The method calls the chokepoints make. -/
def Op.IsRecord : Op → Prop
  | .recordEntity .. | .recordActivity .. | .recordEdge .. | .recordReceipt .. => True
  | _ => False

/-- The label a call adds. -/
def Op.label : Op → List (String × FlowEndpoint)
  | .recordEntity ent _ => [(ent.eid, ent.recorded)]
  | _ => []

/-- The derivation a call adds. -/
def Op.derivation : Op → List (String × String)
  | .recordEdge predicate subject obj _ _ => edgeDerivation predicate subject obj
  | _ => []

theorem except_map_ok {ε β : Type} {f : α → β} {x : Except ε α} {b : β} (h : x.map f = .ok b) :
    ∃ a, x = .ok a ∧ f a = b := by
  cases x with
  | error e => exact absurd h (by simp [Except.map])
  | ok a => exact ⟨a, rfl, Except.ok.inj h⟩

theorem except_map_error {ε β : Type} {f : α → β} {x : Except ε α} {e : ε}
    (h : x.map f = .error e) : x = .error e := by
  cases x with
  | error e' => simpa [Except.map] using h
  | ok a => exact absurd h (by simp [Except.map])

theorem ok_of_require {ok : Bool} {msg : String} {x : Except Err (List Write)}
    (h : (require ok msg >>= fun _ => x) = .ok ws) : x = .ok ws := by
  cases ok with
  | true => exact h
  | false => exact absurd h (by simp [require, bind, Except.bind])

theorem Op.writesAdd_recordEntity {ent : Entity} (h : entityWrites u ent now = .ok ws) :
    WritesAdd ws [(ent.eid, ent.recorded)] [] := by
  have := ok_of_require (ok_of_require h)
  rw [← Except.ok.inj this]
  exact writesAdd_entity ent now

theorem Op.writesAdd_recordEdge {subject obj : String} {activity : Option String}
    (h : edgeWrites u predicate subject obj activity now = .ok ws) :
    WritesAdd ws [] (edgeDerivation predicate subject obj) := by
  rw [← Except.ok.inj (ok_of_require h)]
  exact writesAdd_edge predicate subject obj activity now

theorem Op.writesAdd_recordActivity {act : Activity} {verdictNow : ℤ}
    (h : activityWrites u act now verdictNow = .ok ws) : WritesAdd ws [] [] := by
  rw [← Except.ok.inj (ok_of_require (ok_of_require h))]
  refine writesAdd_other fun w hw => ?_
  rcases mem_cons.mp hw with rfl | hw
  · simp [activityWrite]
  · cases hv : act.verdict with
    | none => simp [verdictWrites, hv] at hw
    | some v =>
      simp only [verdictWrites, hv, mem_singleton] at hw
      simp [hw, assertionWrite]

theorem Op.writesAdd_recordReceipt {r : Receipt} (h : receiptWrites u r now = .ok ws) :
    WritesAdd ws [] [] := by
  rw [← Except.ok.inj (ok_of_require h)]
  refine writesAdd_other fun w hw => ?_
  rw [mem_singleton.mp hw]
  simp [receiptWrite]

/-- **One method call** adds its label and its derivation, or raises and adds nothing. -/
theorem Store.perform_grows (s : Store) {op : Op} (h : op.IsRecord) :
    (∀ r, (s.perform u op).2 = .ok r → Grows s (s.perform u op).1 op.label op.derivation) ∧
      (∀ e, (s.perform u op).2 = .error e → Grows s (s.perform u op).1 [] []) := by
  cases op with
  | recordEntity ent now =>
    obtain ⟨hok, herr⟩ := record_grows (s := s)
      fun ws (hws : entityWrites u ent now = .ok ws) => Op.writesAdd_recordEntity hws
    exact ⟨fun r hr => (except_map_ok hr).elim fun ids hids => hok ids hids.1,
      fun e he => herr e (except_map_error he)⟩
  | recordActivity act now verdictNow =>
    obtain ⟨hok, herr⟩ := record_grows (s := s)
      fun ws (hws : activityWrites u act now verdictNow = .ok ws) => Op.writesAdd_recordActivity hws
    exact ⟨fun r hr => (except_map_ok hr).elim fun ids hids => hok ids hids.1,
      fun e he => herr e (except_map_error he)⟩
  | recordEdge predicate subject obj activity now =>
    obtain ⟨hok, herr⟩ := record_grows (s := s)
      fun ws (hws : edgeWrites u predicate subject obj activity now = .ok ws) =>
        Op.writesAdd_recordEdge hws
    exact ⟨fun r hr => (except_map_ok hr).elim fun ids hids => hok ids hids.1,
      fun e he => herr e (except_map_error he)⟩
  | recordReceipt r now =>
    obtain ⟨hok, herr⟩ := record_grows (s := s)
      fun ws (hws : receiptWrites u r now = .ok ws) => Op.writesAdd_recordReceipt hws
    exact ⟨fun r hr => (except_map_ok hr).elim fun ids hids => hok ids hids.1,
      fun e he => herr e (except_map_error he)⟩
  | _ => exact absurd h (by simp [Op.IsRecord])

/-- **Method calls in a row** add what some first ones of them add, all if none raises. -/
theorem Store.performAll_grows {ops : List Op} (h : ∀ op ∈ ops, op.IsRecord) (s : Store) :
    ∃ k, Grows s (s.performAll u ops).1 ((ops.take k).flatMap Op.label)
      ((ops.take k).flatMap Op.derivation) := by
  induction ops generalizing s with
  | nil => exact ⟨0, .refl s⟩
  | cons op ops ih =>
    obtain ⟨hok, herr⟩ := s.perform_grows (u := u) (h op mem_cons_self)
    rw [performAll]
    split
    · next s' r heq =>
      rw [heq] at hok
      obtain ⟨k, hk⟩ := ih (fun op hop => h op (mem_cons_of_mem _ hop)) s'
      refine ⟨k + 1, ?_⟩
      rw [take_succ_cons, flatMap_cons, flatMap_cons]
      exact (hok r rfl).trans hk
    · next s' e heq =>
      rw [heq] at herr
      exact ⟨0, herr e rfl⟩

/-- **A transaction** adds what its body adds, or nothing. -/
theorem Store.transaction_grows {s : Store} (body : Store → Store × Except Exc α)
    {D : List (String × String)} (h : Grows s.enter (body s.enter).1 L D) :
    Grows s (s.transaction body).1 L D ∨ Grows s (s.transaction body).1 [] [] := by
  have hdb : s.enter.db = s.db := by
    rw [enter]
    split <;> rfl
  have hleave : ∀ raised, Grows s ((body s.enter).1.leave raised) L D ∨
      Grows s ((body s.enter).1.leave raised) [] [] := by
    intro raised
    have hl := h.labels
    have hd := h.derivations
    have hsc := h.scope
    rw [hdb] at hl hd
    cases hs : s.scope with
    | none =>
      have henter : s.enter.scope = some (s.db, 0) := by simp [enter, hs]
      rw [leave, hsc, henter]
      cases raised with
      | true => exact .inr ⟨(append_nil _).symm, (append_nil _).symm, hs.symm⟩
      | false => exact .inl ⟨hl, hd, hs.symm⟩
    | some p =>
      obtain ⟨saved, n⟩ := p
      have henter : s.enter.scope = some (saved, n + 1) := by simp [enter, hs]
      rw [leave, hsc, henter]
      exact .inl ⟨hl, hd, hs.symm⟩
  rw [transaction]
  split
  · next s' v heq =>
    have := hleave false
    rw [heq] at this
    exact this
  · next s' e heq =>
    have := hleave true
    rw [heq] at this
    exact this

end Lineage
