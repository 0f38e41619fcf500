/-
# The operations of the lineage store

The writers of `LineageStore` (`record_*`, `end_activity`), retention (`gc`), the
current snapshot (`get_entity`) and the transaction scopes, as one step function.

Every writer checks its vocabulary, then seals and inserts its rows in one
transaction; a writer is therefore given by the rows it writes, or by the error of its
check.
-/
import QDistro.LineageStore

open JsonText

namespace Lineage

/-! ## Controlled vocabularies -/

/-- `EDGE_PREDICATES` -/
def edgePredicates : List String :=
  ["used", "wasGeneratedBy", "wasDerivedFrom", "wasAttributedTo", "wasAssociatedWith",
    "actedOnBehalfOf"]

/-- `ENTITY_KINDS` -/
def entityKinds : List String :=
  ["resource", "file", "payload", "token", "export", "commit", "archive", "recall-result",
    "artifact"]

/-- `ACTIVITY_KINDS` -/
def activityKinds : List String :=
  ["workflow-run", "workflow-step", "paste", "clipboard", "import", "export", "upload",
    "download", "extract", "archive-create", "commit", "sanitize", "declassify", "reclassify",
    "recall-query", "recall-export", "credential-use"]

/-- `AGENT_KINDS` -/
def agentKinds : List String :=
  ["silo", "app", "agent", "broker", "workflow", "credential-authority", "admin"]

/-- `HOST_CLASSES` -/
def hostClasses : List String :=
  ["local", "local-vm", "local-container", "remote-service", "unknown"]

/-- `MAPPING_CONFIDENCE` -/
def mappingConfidence : List String :=
  ["broker-derived", "trusted-tool", "app-reported", "inferred"]

/-- `RECEIPT_KINDS` -/
def receiptKinds : List String :=
  ["sidecar", "xattr", "git-trailer", "export-manifest", "upload-receipt", "attestation"]

/-- `ASSERTION_AUTHORITY` -/
def assertionAuthority : List String := ["broker-derived", "app-reported"]

/-! ## Recorded values -/

/-- The texts of a set in order, each once. -/
def sortedSet (values : List String) : List String := values.dedup.insertionSort fun a b => a ≤ b

/-- `_jset` -/
def jset (values : List String) : String :=
  String.ofList (dumps defaultSeps (.arr ((sortedSet values).map .str)))

/-- `_jload` -/
def jload (text : String) : List String :=
  match loads text.toList with
  | some (.arr items) => items.filterMap fun v => match v with
      | .str s => some s
      | _ => none
  | _ => []

/-- `json.dumps(d, sort_keys=True) if d else None` -/
def jdict (fields : List (String × Json)) : Option String :=
  if fields = [] then none
  else some (String.ofList (dumpsSorted defaultSeps (.obj fields)))

/-- `Entity` -/
structure Entity where
  eid : String
  kind : String
  digest : Option String := none
  locator : Option String := none
  guards : List String := []
  compartments : List String := []
  conflictClasses : List String := []
  integrity : Option String := none
  status : String := "active"
  facets : List (String × Json) := []
  createdAt : ℤ := 0

/-- `Activity` -/
structure Activity where
  aid : String
  kind : String
  chokepoint : Option String := none
  actionVersion : Option String := none
  hostClass : String := "unknown"
  networkEgress : Option String := none
  verdict : Option String := none
  startedAt : ℤ := 0
  endedAt : Option ℤ := none

/-- `Agent` -/
structure Agent where
  gid : String
  kind : String
  name : Option String := none
  createdAt : ℤ := 0

/-- The arguments of `record_assertion`. -/
structure Assertion where
  subject : String
  fact : String
  value : Json
  assertedBy : String
  authority : String

/-- The arguments of `record_receipt`. -/
structure Receipt where
  entity : String
  kind : String
  locator : Option String := none
  digest : Option String := none
  payload : List (String × Json) := []

/-- The arguments of `record_mapping`; a selector may be absent. -/
structure Mapping where
  mapId : String
  activity : String
  mappingKind : String
  confidence : String
  inputs : List (String × Option String)
  outputs : List (String × Option String)
  handlerVersion : Option String := none

/-! ## The rows a writer writes -/

section Writers

variable (u : UnicodeDb)

/-- `repr` of a sorted vocabulary. -/
def reprSorted (values : List String) : String :=
  "[" ++ ", ".intercalate ((sortedSet values).map (PyText.pyRepr u)) ++ "]"

/-- Raise unless a value is in its vocabulary. -/
def require (ok : Bool) (msg : String) : Except Err Unit :=
  if ok then .ok () else .error (.lineageStoreError msg)

/-- `created_at or self._now()` -/
def stampOr (given now : ℤ) : ℤ := if given = 0 then now else given

/-- The row `record_entity` writes. -/
def entityWrite (ent : Entity) (now : ℤ) : Write where
  table := .entities
  payload := [.text ent.eid, .text ent.kind, .ofText ent.digest, .ofText ent.locator,
    .text (jset ent.guards), .text (jset ent.compartments), .text (jset ent.conflictClasses),
    .ofText ent.integrity, .text ent.status, .ofText (jdict ent.facets),
    .int (stampOr ent.createdAt now)]
  cache := []
  fits := rfl

/-- `record_entity` up to its transaction. -/
def entityWrites (ent : Entity) (now : ℤ) : Except Err (List Write) := do
  require (entityKinds.elem ent.kind)
    s!"unknown entity kind {PyText.pyRepr u ent.kind} (allowed: {reprSorted u entityKinds})"
  require (ent.integrity = none ∨ ent.integrity = some "mixed")
    ("integrity must be None or 'mixed', got " ++ (match ent.integrity with
      | none => "None"
      | some i => PyText.pyRepr u i))
  return [entityWrite ent now]

/-- The row `record_assertion` writes. -/
def assertionWrite (a : Assertion) (now : ℤ) : Write where
  table := .assertions
  payload := [.text a.subject, .text a.fact,
    .text (String.ofList (dumpsSorted defaultSeps a.value)), .text a.assertedBy,
    .text a.authority, .int now]
  cache := []
  fits := rfl

/-- `record_assertion` up to its transaction. -/
def assertionWrites (a : Assertion) (now : ℤ) : Except Err (List Write) := do
  require (assertionAuthority.elem a.authority)
    s!"authority must be one of {reprSorted u assertionAuthority}, got {PyText.pyRepr u a.authority}"
  return [assertionWrite a now]

/-- The sealed record of a guard verdict. -/
def verdictAssertion (aid verdict : String) : Assertion where
  subject := aid
  fact := "activity.verdict"
  value := .str verdict
  assertedBy := "broker"
  authority := "broker-derived"

/-- The verdict of an activity as a row, if there is one. -/
def verdictWrites (aid : String) (verdict : Option String) (now : ℤ) : List Write :=
  match verdict with
  | none => []
  | some v => [assertionWrite (verdictAssertion aid v) now]

/-- The row `record_activity` writes. -/
def activityWrite (act : Activity) (now : ℤ) : Write where
  table := .activities
  payload := [.text act.aid, .text act.kind, .ofText act.chokepoint, .ofText act.actionVersion,
    .text act.hostClass, .ofText act.networkEgress, .int (stampOr act.startedAt now)]
  cache := [.ofText act.verdict, .ofInt act.endedAt]
  fits := rfl

/-- `record_activity` up to its transaction; the verdict's assertion reads the clock
again. -/
def activityWrites (act : Activity) (now verdictNow : ℤ) : Except Err (List Write) := do
  require (activityKinds.elem act.kind)
    s!"unknown activity kind {PyText.pyRepr u act.kind} (allowed: {reprSorted u activityKinds})"
  require (hostClasses.elem act.hostClass)
    s!"unknown host_class {PyText.pyRepr u act.hostClass} (allowed: {reprSorted u hostClasses})"
  return activityWrite act now :: verdictWrites act.aid act.verdict verdictNow

/-- `record_agent` up to its transaction. -/
def agentWrites (agent : Agent) (now : ℤ) : Except Err (List Write) := do
  require (agentKinds.elem agent.kind)
    s!"unknown agent kind {PyText.pyRepr u agent.kind} (allowed: {reprSorted u agentKinds})"
  return [{ table := .agents
            payload := [.text agent.gid, .text agent.kind, .ofText agent.name,
              .int (stampOr agent.createdAt now)]
            cache := []
            fits := rfl }]

/-- The row `record_edge` writes. -/
def edgeWrite (predicate subject obj : String) (activity : Option String) (now : ℤ) : Write where
  table := .edges
  payload := [.text predicate, .text subject, .text obj, .ofText activity, .int now]
  cache := []
  fits := rfl

/-- `record_edge` up to its transaction. -/
def edgeWrites (predicate subject obj : String) (activity : Option String) (now : ℤ) :
    Except Err (List Write) := do
  require (edgePredicates.elem predicate)
    s!"unknown edge predicate {PyText.pyRepr u predicate} (allowed: {reprSorted u edgePredicates})"
  return [edgeWrite predicate subject obj activity now]

/-- The row `record_receipt` writes. -/
def receiptWrite (r : Receipt) (now : ℤ) : Write where
  table := .receipts
  payload := [.text r.entity, .text r.kind, .ofText r.locator, .ofText r.digest,
    .ofText (jdict r.payload), .int now]
  cache := []
  fits := rfl

/-- `record_receipt` up to its transaction. -/
def receiptWrites (r : Receipt) (now : ℤ) : Except Err (List Write) := do
  require (receiptKinds.elem r.kind)
    s!"unknown receipt kind {PyText.pyRepr u r.kind} (allowed: {reprSorted u receiptKinds})"
  return [receiptWrite r now]

/-- One end of a data mapping; the tables of inputs and outputs have the same columns. -/
def mappingInputWrite (mapId : String) (now : ℤ) (e : String × Option String) : Write where
  table := .mappingInput
  payload := [.text mapId, .text e.1, .ofText e.2, .int now]
  cache := []
  fits := rfl

/-- One output of a data mapping. -/
def mappingOutputWrite (mapId : String) (now : ℤ) (e : String × Option String) : Write where
  table := .mappingOutput
  payload := [.text mapId, .text e.1, .ofText e.2, .int now]
  cache := []
  fits := rfl

/-- `record_mapping` up to its transaction. -/
def mappingWrites (m : Mapping) (now : ℤ) : Except Err (List Write) := do
  require (mappingConfidence.elem m.confidence)
    (s!"unknown mapping confidence {PyText.pyRepr u m.confidence} "
      ++ s!"(allowed: {reprSorted u mappingConfidence})")
  return { table := .mappingActivity
           payload := [.text m.mapId, .text m.activity, .text m.mappingKind,
             .ofText m.handlerVersion, .text m.confidence, .int now]
           cache := []
           fits := rfl } ::
    (m.inputs.map (mappingInputWrite m.mapId now) ++ m.outputs.map (mappingOutputWrite m.mapId now))

end Writers

/-! ## Methods -/

/-- What a method returns. -/
inductive Reply where
  | done
  | row (id : ℤ)
  | pruned (count : ℕ)
  deriving DecidableEq

/-- The primary key of the first row written. -/
def Reply.first : List ℤ → Reply
  | [] => .done
  | id :: _ => .row id

/-- A writer: raise its check's error, or write its rows in one transaction. -/
def Store.record (s : Store) (writes : Except Err (List Write)) : Store × Except Err (List ℤ) :=
  match writes with
  | .error e => (s, .error e)
  | .ok ws => s.txn fun db => db.writeAll ws

/-- The transaction of `end_activity`. -/
def Db.endActivity (db : Db) (aid : String) (verdict : Option String) (endedAt : Option ℤ)
    (now verdictNow : ℤ) : Db × Except Err (List ℤ) :=
  match Param.store (.int (endedAt.getD now)), Param.store (.ofText verdict) with
  | some ended, some v =>
    (db.updateActivities aid v ended).writeAll (verdictWrites aid verdict verdictNow)
  | _, _ => (db, .error overflow)

/-- `end_activity` -/
def Store.endActivity (s : Store) (aid : String) (verdict : Option String) (endedAt : Option ℤ)
    (now verdictNow : ℤ) : Store × Except Err (List ℤ) :=
  s.txn fun db => db.endActivity aid verdict endedAt now verdictNow

/-- `kind = ? AND created_at < ?`.  The writers store integers as times, so only these
are compared. -/
def doomed (kind : String) (cutoff : ℤ) (r : Row .entities) : Bool :=
  r.col "kind" = .text kind && match r.col "created_at" with
    | .int n => decide (n.1 < cutoff)
    | _ => false

/-- The ledger entry `gc` retires for a body: the first that this call has not
consumed. -/
def Db.entryFor (db : Db) (body : List Char) (consumed : List ℤ) : Option ChainRow :=
  db.chain.find? fun e => e.tbl = Table.entities.name && e.body = body && e.seq ∉ consumed

/-- The loop of `gc`: a tombstone for each doomed row. -/
def Db.retire (db : Db) (consumed : List ℤ) : List (Row .entities) → Db × Except Err Unit
  | [] => (db, .ok ())
  | r :: rest =>
    match r.body with
    | none => (db, .error notSerializable)
    | some body =>
      match db.entryFor body consumed with
      | none => db.retire consumed rest
      | some e =>
        (db.append tombstone (tombstoneBody e.seq Table.entities.name body)).retire
          (e.seq :: consumed) rest

/-- The transaction of `gc`. -/
def Db.prune (db : Db) (kind : String) (cutoff : ℤ) : Db × Except Err ℕ :=
  let rows := (db.rows .entities).filter (doomed kind cutoff)
  match db.retire [] rows with
  | (db', .error e) => (db', .error e)
  | (db', .ok _) => (db'.deleteEntities (doomed kind cutoff), .ok rows.length)

/-- `gc` -/
def Store.gc (u : UnicodeDb) (s : Store) (kind : String) (olderThanSeconds now : ℤ) :
    Store × Except Err ℕ :=
  if !entityKinds.elem kind then
    (s, .error (.lineageStoreError s!"unknown entity kind {PyText.pyRepr u kind}"))
  else if olderThanSeconds < 0 then
    (s, .error (.lineageStoreError "older_than_seconds must be >= 0"))
  else
    -- the query for the doomed rows binds the cutoff before any transaction
    match Param.store (.int (now - olderThanSeconds)) with
    | none => (s, .error overflow)
    | some _ => s.txn fun db => db.prune kind (now - olderThanSeconds)

/-! ## Runs -/

/-- A call of a method, with the clock readings it would take, or the entry or exit of
a transaction scope. -/
inductive Op where
  | recordEntity (ent : Entity) (now : ℤ)
  | recordActivity (act : Activity) (now verdictNow : ℤ)
  | endActivity (aid : String) (verdict : Option String) (endedAt : Option ℤ)
      (now verdictNow : ℤ)
  | recordAgent (agent : Agent) (now : ℤ)
  | recordEdge (predicate subject obj : String) (activity : Option String) (now : ℤ)
  | recordAssertion (a : Assertion) (now : ℤ)
  | recordReceipt (r : Receipt) (now : ℤ)
  | recordMapping (m : Mapping) (now : ℤ)
  | gc (kind : String) (olderThanSeconds now : ℤ)
  | enter
  | leave (raised : Bool)

/-- Perform an operation. -/
def Store.perform (u : UnicodeDb) (s : Store) : Op → Store × Except Err Reply
  | .recordEntity ent now => (s.record (entityWrites u ent now)).map id (·.map Reply.first)
  | .recordActivity act now verdictNow =>
    (s.record (activityWrites u act now verdictNow)).map id (·.map Reply.first)
  | .endActivity aid verdict endedAt now verdictNow =>
    (s.endActivity aid verdict endedAt now verdictNow).map id (·.map fun _ => .done)
  | .recordAgent agent now => (s.record (agentWrites u agent now)).map id (·.map Reply.first)
  | .recordEdge predicate subject obj activity now =>
    (s.record (edgeWrites u predicate subject obj activity now)).map id (·.map Reply.first)
  | .recordAssertion a now => (s.record (assertionWrites u a now)).map id (·.map Reply.first)
  | .recordReceipt r now => (s.record (receiptWrites u r now)).map id (·.map Reply.first)
  | .recordMapping m now => (s.record (mappingWrites u m now)).map id (·.map fun _ => .done)
  | .gc kind age now => (s.gc u kind age now).map id (·.map Reply.pruned)
  | .enter => (s.enter, .ok .done)
  | .leave raised => (s.leave raised, .ok .done)

/-- The store after an operation, whatever it returned or raised. -/
def step (u : UnicodeDb) (s : Store) (op : Op) : Store := (s.perform u op).1

/-- The store after a list of operations on a fresh one. -/
def runOps (u : UnicodeDb) (ops : List Op) : Store :=
  TransitionSystem.run (step u) Store.empty ops

end Lineage
