/-
# The lineage store

`qdistro_lineage_store.LineageStore`: nine tables of recorded facts and one ledger
(`lineage_chain`) that seals every recorded row into a hash chain.  A writer appends
its seal to the ledger and then inserts the row; `gc` prunes entities and appends one
tombstone for each; `verify_chain` walks the ledger and compares it with the live
rows.

A database is what SQLite holds: cells of the five storage classes, rows in the order
of their primary key.  Integers are bounded by SQLite's 64 bits, and binding a Python
integer outside that range raises `OverflowError` before the statement runs.
Transaction scopes nest by joining the outermost one, so a statement that fails inside
an open scope leaves the earlier statements of its writer in place.

Texts of the ledger are character lists.  Clock readings are arguments: an operation
carries the times it would read.
-/
import QDistro.JsonText
import QDistro.Sha256
import QDistro.TransitionSystem
import Mathlib.Algebra.Order.Ring.Int
import Mathlib.Data.List.Pairwise

open JsonText

namespace Lineage

theorem mapM_eq_some_iff {α β : Type} {f : α → Option β} {l : List α} {l' : List β} :
    l.mapM f = some l' ↔ List.Forall₂ (fun a b => f a = some b) l l' := by
  induction l generalizing l' with
  | nil => simp [eq_comm]
  | cons a l ih =>
    cases l' with
    | nil => simp [List.mapM_cons, Option.bind_eq_some_iff]
    | cons b l' => simp [List.mapM_cons, Option.bind_eq_some_iff, ih]

theorem forall₂_mem_left {α β : Type} {R : α → β → Prop} {l : List α} {l' : List β}
    (h : List.Forall₂ R l l') {a : α} (ha : a ∈ l) : ∃ b ∈ l', R a b := by
  induction h with
  | nil => exact absurd ha (by simp)
  | @cons a' b' _ _ hab _ ih =>
    rcases List.mem_cons.mp ha with rfl | ha
    · exact ⟨b', List.mem_cons_self, hab⟩
    · obtain ⟨b, hb, hR⟩ := ih ha
      exact ⟨b, List.mem_cons_of_mem _ hb, hR⟩

theorem forall₂_mem_right {α β : Type} {R : α → β → Prop} {l : List α} {l' : List β}
    (h : List.Forall₂ R l l') {b : β} (hb : b ∈ l') : ∃ a ∈ l, R a b :=
  forall₂_mem_left h.flip hb

/-! ## SQLite values -/

/-- An integer SQLite can store. -/
def SqlInt : Type := { n : ℤ // -2 ^ 63 ≤ n ∧ n < 2 ^ 63 }

instance : DecidableEq SqlInt := inferInstanceAs (DecidableEq { n : ℤ // -2 ^ 63 ≤ n ∧ n < 2 ^ 63 })

/-- A stored value, one constructor for each storage class. -/
inductive Cell where
  | null
  | int (n : SqlInt)
  | real (f : FloatLit)
  | text (s : String)
  | blob (bytes : List UInt8)
  deriving DecidableEq

/-- The value as `json.dumps` sees it; bytes are not serialisable. -/
def Cell.json : Cell → Option Json
  | .null => some .null
  | .int n => some (.int n.1)
  | .real f => some (.float f)
  | .text s => some (.str s)
  | .blob _ => none

/-- A Python value that a statement binds. -/
inductive Param where
  | none
  | int (n : ℤ)
  | text (s : String)
  deriving DecidableEq

/-- The value as `json.dumps` sees it. -/
def Param.json : Param → Json
  | .none => .null
  | .int n => .int n
  | .text s => .str s

/-- The value as SQLite stores it, or `none` where binding raises `OverflowError`. -/
def Param.store : Param → Option Cell
  | .none => some .null
  | .int n => if h : -2 ^ 63 ≤ n ∧ n < 2 ^ 63 then some (.int ⟨n, h⟩) else Option.none
  | .text s => some (.text s)

/-- An optional text. -/
def Param.ofText : Option String → Param
  | Option.none => .none
  | some s => .text s

/-- An optional integer. -/
def Param.ofInt : Option ℤ → Param
  | Option.none => .none
  | some n => .int n

/-- What an operation can raise. -/
inductive Err where
  | lineageStoreError (msg : String)
  | overflowError (msg : String)
  | typeError (msg : String)
  deriving DecidableEq

/-- The exception of a binding outside the 64-bit range. -/
def overflow : Err := .overflowError "Python int too large to convert to SQLite INTEGER"

/-- The exception of serialising bytes. -/
def notSerializable : Err := .typeError "Object of type bytes is not JSON serializable"

/-! ## Tables -/

/-- The sealed tables. -/
inductive Table where
  | entities
  | activities
  | agents
  | edges
  | assertions
  | receipts
  | mappingActivity
  | mappingInput
  | mappingOutput
  deriving DecidableEq

/-- The name of a table in SQL and in the ledger. -/
def Table.name : Table → List Char
  | .entities => "entities".toList
  | .activities => "activities".toList
  | .agents => "agents".toList
  | .edges => "edges".toList
  | .assertions => "assertions".toList
  | .receipts => "receipts".toList
  | .mappingActivity => "mapping_activity".toList
  | .mappingInput => "mapping_input".toList
  | .mappingOutput => "mapping_output".toList

/-- `_SEALED_COLUMNS` -/
def Table.columns : Table → List String
  | .entities => ["eid", "kind", "digest", "locator", "guards", "compartments",
      "conflict_classes", "integrity", "status", "facets", "created_at"]
  | .activities => ["aid", "kind", "chokepoint", "action_version", "host_class",
      "network_egress", "started_at"]
  | .agents => ["gid", "kind", "name", "created_at"]
  | .edges => ["predicate", "subject", "object", "activity", "created_at"]
  | .assertions => ["subject", "fact", "value", "asserted_by", "authority", "created_at"]
  | .receipts => ["entity", "kind", "locator", "digest", "payload", "created_at"]
  | .mappingActivity => ["map_id", "activity", "mapping_kind", "handler_version",
      "confidence", "created_at"]
  | .mappingInput => ["map_id", "entity", "selector", "created_at"]
  | .mappingOutput => ["map_id", "entity", "selector", "created_at"]

/-- The tables in the order `verify_chain` compares them. -/
def Table.all : List Table :=
  [.entities, .activities, .agents, .edges, .assertions, .receipts, .mappingActivity,
    .mappingInput, .mappingOutput]

/-- The canonical body of a row: `json.dumps(..., sort_keys=True, separators=(",", ":"))`
of its sealed columns. -/
def canonical (t : Table) (values : List Json) : List Char :=
  dumpsSorted compactSeps (.obj (t.columns.zip values))

/-- A row.  The unsealed columns of an activity (`verdict` and `ended_at`) are its
cache. -/
structure Row (t : Table) where
  id : ℤ
  cells : List Cell
  cache : List Cell
  sealVal : List Char
  fits : cells.length = t.columns.length

/-- The cell of a sealed column. -/
def Row.col {t : Table} (r : Row t) (column : String) : Cell :=
  ((t.columns.zip r.cells).lookup column).getD .null

/-- The canonical body of a live row, or `none` where `json.dumps` raises. -/
def Row.body {t : Table} (r : Row t) : Option (List Char) :=
  (r.cells.mapM Cell.json).map (canonical t)

/-- A row of `lineage_chain`. -/
structure ChainRow where
  seq : ℤ
  tbl : List Char
  body : List Char
  sealVal : List Char
  deriving DecidableEq

/-- The content of the database, every table in the order of its primary key. -/
structure Db where
  chain : List ChainRow
  rows : (t : Table) → List (Row t)
  chain_sorted : chain.Pairwise fun a b => a.seq < b.seq
  rows_sorted : ∀ t, (rows t).Pairwise fun a b => a.id < b.id

/-- A fresh database. -/
def Db.empty : Db := ⟨[], fun _ => [], List.Pairwise.nil, fun _ => List.Pairwise.nil⟩

/-! ## Sealing -/

/-- The delimiter of the seal and of a tombstone. -/
def sep : Char := '\x1f'

/-- `_GENESIS` -/
def genesis : List Char := "qdistro-lineage-genesis".toList

/-- `_TOMBSTONE` -/
def tombstone : List Char := "__tombstone__".toList

/-- The text `_seal_value` hashes. -/
def sealText (prev tbl body : List Char) : List Char := prev ++ sep :: (tbl ++ sep :: body)

/-- `_seal_value` -/
def sealValue (prev tbl body : List Char) : List Char := Sha256.hexdigest (sealText prev tbl body)

/-- `chain_head` -/
def Db.chainHead (db : Db) : List Char :=
  match db.chain.getLast? with
  | some r => r.sealVal
  | none => genesis

/-- The primary key of the next row. -/
def nextId (ids : List ℤ) : ℤ := ids.getLast?.getD 0 + 1

theorem lt_nextId {ids : List ℤ} (h : ids.Pairwise (· < ·)) : ∀ i ∈ ids, i < nextId ids := by
  intro i hi
  rcases List.eq_nil_or_concat' ids with rfl | ⟨init, last, rfl⟩
  · exact absurd hi (by simp)
  · rw [nextId, List.getLast?_append]
    rw [List.pairwise_append] at h
    simp only [List.mem_append, List.mem_singleton] at hi
    rcases hi with hi | rfl
    · have := h.2.2 i hi last (by simp)
      simp only [List.getLast?_singleton, Option.some_or, Option.getD_some]
      omega
    · simp only [List.getLast?_singleton, Option.some_or, Option.getD_some]
      omega

/-- The next ledger row for a table name and a body. -/
def Db.nextEntry (db : Db) (tbl body : List Char) : ChainRow :=
  ⟨nextId (db.chain.map ChainRow.seq), tbl, body, sealValue db.chainHead tbl body⟩

/-- `INSERT INTO lineage_chain` -/
def Db.append (db : Db) (tbl body : List Char) : Db where
  chain := db.chain ++ [db.nextEntry tbl body]
  rows := db.rows
  chain_sorted := by
    rw [List.pairwise_append]
    refine ⟨db.chain_sorted, List.pairwise_singleton _ _, ?_⟩
    intro a ha b hb
    rw [List.mem_singleton.mp hb]
    exact lt_nextId (List.pairwise_map.mpr db.chain_sorted) a.seq (List.mem_map.mpr ⟨a, ha, rfl⟩)
  rows_sorted := db.rows_sorted

/-- The primary key of the next row of a table. -/
def Db.nextRowId (db : Db) (t : Table) : ℤ := nextId ((db.rows t).map Row.id)

/-- `INSERT INTO` a sealed table. -/
def Db.insert (db : Db) (t : Table) (cells cache : List Cell) (sealVal : List Char)
    (fits : cells.length = t.columns.length) : Db where
  chain := db.chain
  rows := Function.update db.rows t (db.rows t ++ [⟨db.nextRowId t, cells, cache, sealVal, fits⟩])
  chain_sorted := db.chain_sorted
  rows_sorted := by
    intro t'
    by_cases h : t' = t
    · subst h
      rw [Function.update_self, List.pairwise_append]
      refine ⟨db.rows_sorted t', List.pairwise_singleton _ _, ?_⟩
      intro a ha b hb
      rw [List.mem_singleton.mp hb]
      exact lt_nextId (List.pairwise_map.mpr (db.rows_sorted t')) a.id
        (List.mem_map.mpr ⟨a, ha, rfl⟩)
    · rw [Function.update_of_ne h]
      exact db.rows_sorted t'

/-- `DELETE FROM entities` of the rows that satisfy a condition. -/
def Db.deleteEntities (db : Db) (doomed : Row .entities → Bool) : Db where
  chain := db.chain
  rows := Function.update db.rows .entities ((db.rows .entities).filter fun r => !doomed r)
  chain_sorted := db.chain_sorted
  rows_sorted := by
    intro t
    by_cases h : t = .entities
    · subst h
      rw [Function.update_self]
      exact (db.rows_sorted _).filter _
    · rw [Function.update_of_ne h]
      exact db.rows_sorted t

/-- `COALESCE(new, old)` on the verdict of an activity's cache, with a new end time. -/
def stampCache (verdict endedAt : Cell) (cache : List Cell) : List Cell :=
  [if verdict = .null then cache.getD 0 .null else verdict, endedAt]

/-- `UPDATE activities SET ended_at = ?, verdict = COALESCE(?, verdict) WHERE aid = ?` -/
def Db.updateActivities (db : Db) (aid : String) (verdict endedAt : Cell) : Db where
  chain := db.chain
  rows := Function.update db.rows .activities ((db.rows .activities).map fun r =>
    { r with cache := if r.col "aid" = .text aid then stampCache verdict endedAt r.cache
                      else r.cache })
  chain_sorted := db.chain_sorted
  rows_sorted := by
    intro t
    by_cases h : t = .activities
    · subst h
      rw [Function.update_self, List.pairwise_map]
      exact db.rows_sorted _
    · rw [Function.update_of_ne h]
      exact db.rows_sorted t

/-! ## Verification -/

section Verify

variable (u : UnicodeDb)

/-- The body `_tombstone` gives a tombstone. -/
def tombstoneBody (seq : ℤ) (tbl body : List Char) : List Char :=
  intText seq ++ sep :: (tbl ++ sep :: body)

/-- `_parse_tombstone` -/
def parseTombstone (body : List Char) : Option (ℤ × List Char × List Char) :=
  match PyText.split sep 2 body with
  | [seq, tbl, rest] => (PyText.pyInt u seq).map fun n => (n, tbl, rest)
  | _ => none

/-- The local variables of `verify_chain`'s loop.  The counters of `expected` are one
list of `(tbl, body)` pairs, as often in it as they are counted. -/
structure Walk where
  prev : List Char
  retired : List ℤ
  seqBody : List (ℤ × List Char × List Char)
  expected : List (List Char × List Char)

/-- The values before the loop. -/
def Walk.init : Walk := ⟨genesis, [], [], []⟩

/-- One pass of the loop, or `none` where `verify_chain` returns `False`. -/
def Walk.step (w : Walk) (r : ChainRow) : Option Walk :=
  if sealValue w.prev r.tbl r.body ≠ r.sealVal then none
  else if r.tbl = tombstone then
    match parseTombstone u r.body with
    | none => none
    | some (tSeq, tTbl, tBody) =>
      if PyDict.lookup w.seqBody tSeq ≠ some (tTbl, tBody) then none
      else if tSeq ∈ w.retired then none
      else if (tTbl, tBody) ∉ w.expected then none
      else some
        { prev := r.sealVal
          retired := tSeq :: w.retired
          seqBody := (r.seq, r.tbl, r.body) :: w.seqBody
          expected := w.expected.erase (tTbl, tBody) }
  else some
    { prev := r.sealVal
      retired := w.retired
      seqBody := (r.seq, r.tbl, r.body) :: w.seqBody
      expected := (r.tbl, r.body) :: w.expected }

/-- The loop over the ledger. -/
def Walk.run (w : Walk) : List ChainRow → Option Walk
  | [] => some w
  | r :: rest => (w.step u r).bind fun w' => run w' rest

/-- The bodies the ledger expects to be live in a table. -/
def Walk.want (w : Walk) (t : Table) : List (List Char) :=
  (w.expected.filter fun e => e.1 = t.name).map Prod.snd

/-- `_live_bodies`, or `none` where it raises. -/
def Db.liveBodies (db : Db) (t : Table) : Option (List (List Char)) := (db.rows t).mapM Row.body

/-- The comparison of the live rows with the ledger, table by table. -/
def compareTables (w : Walk) (db : Db) : List Table → Option Bool
  | [] => some true
  | t :: ts =>
    (db.liveBodies t).bind fun live =>
      if (w.want t).Perm live then compareTables w db ts else some false

/-- `verify_chain(expected_head)`, or `none` where it raises. -/
def Db.verifyChain (db : Db) (expectedHead : Option (List Char)) : Option Bool :=
  match Walk.init.run u db.chain with
  | none => some false
  | some w =>
    if expectedHead ≠ none ∧ expectedHead ≠ some w.prev then some false
    else compareTables w db Table.all

end Verify

/-! ## Writing one row -/

/-- A row to be sealed and inserted, as the values of its sealed columns and of its
cache. -/
structure Write where
  table : Table
  payload : List Param
  cache : List Param
  fits : payload.length = table.columns.length

/-- The body the ledger seals. -/
def Write.body (w : Write) : List Char := canonical w.table (w.payload.map Param.json)

/-- The stored cells and cache, or `none` where binding them raises. -/
def Write.stored (w : Write) : Option (List Cell × List Cell) :=
  (w.payload.mapM Param.store).bind fun cells =>
    (w.cache.mapM Param.store).map fun cache => (cells, cache)

/-- Every integer of the row fits SQLite. -/
def Write.Storable (w : Write) : Prop := w.stored ≠ none

instance (w : Write) : Decidable w.Storable := inferInstanceAs (Decidable (w.stored ≠ none))

theorem Write.length_cells {w : Write} {cells cache : List Cell}
    (h : w.stored = some (cells, cache)) : cells.length = w.table.columns.length := by
  rw [Write.stored] at h
  cases hp : w.payload.mapM Param.store with
  | none => simp [hp] at h
  | some cells' =>
    simp only [hp, Option.bind_some, Option.map_eq_some_iff, Prod.mk.injEq] at h
    obtain ⟨_, -, rfl, -⟩ := h
    rw [← w.fits]
    exact (mapM_eq_some_iff.mp hp).length_eq.symm

/-- `_seal` -/
def Db.sealRow (db : Db) (w : Write) : Db := db.append w.table.name w.body

/-- Seal a row, then insert it. -/
def Db.write (db : Db) (w : Write) : Db × Except Err ℤ :=
  match h : w.stored with
  | none => (db.sealRow w, .error overflow)
  | some (cells, cache) =>
    ((db.sealRow w).insert w.table cells cache (sealValue db.chainHead w.table.name w.body)
      (w.length_cells h), .ok (db.nextRowId w.table))

/-- The writes of one method, up to the first that raises. -/
def Db.writeAll (db : Db) : List Write → Db × Except Err (List ℤ)
  | [] => (db, .ok [])
  | w :: ws =>
    match db.write w with
    | (db', .error e) => (db', .error e)
    | (db', .ok id) =>
      let (db'', ids) := db'.writeAll ws
      (db'', ids.map fun ids => id :: ids)

/-! ## Transactions -/

/-- The connection: the content it sees and, inside a transaction, the content at
`BEGIN` with the number of scopes that joined. -/
structure Store where
  db : Db
  scope : Option (Db × ℕ)

/-- A fresh store. -/
def Store.empty : Store := ⟨Db.empty, none⟩

/-- `with self._txn():` around a body that may raise.  Inside an open scope the body
joins it, and what it did before raising stays. -/
def Store.txn {α : Type} (s : Store) (body : Db → Db × Except Err α) : Store × Except Err α :=
  match s.scope with
  | some _ => ({ s with db := (body s.db).1 }, (body s.db).2)
  | none =>
    match body s.db with
    | (db, .ok v) => ({ s with db := db }, .ok v)
    | (_, .error e) => (s, .error e)

/-- Entering `with store.transaction():` -/
def Store.enter (s : Store) : Store :=
  match s.scope with
  | none => { s with scope := some (s.db, 0) }
  | some (saved, n) => { s with scope := some (saved, n + 1) }

/-- Leaving the innermost scope, normally or with an exception. -/
def Store.leave (s : Store) (raised : Bool) : Store :=
  match s.scope with
  | none => s
  | some (saved, 0) => ⟨if raised then saved else s.db, none⟩
  | some (saved, n + 1) => { s with scope := some (saved, n) }

end Lineage
