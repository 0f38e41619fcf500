/-
# Mutating security fields

`qdistro_security_mutation.SecurityMutator` and `qdistro_lineage.declassify`.  A requested
change is classified against the current snapshot of its entity, gated by the grants of
the calling principal, and then recorded: a tightening or a state move as a new snapshot
of the same entity, a narrowing as a new derivative.

Frozen sets are lists read as sets.  The generated identifiers and the clocks are
arguments of a call: `ts` is the mutator's clock, `clock i` what the store's clock shows to
the `i`-th method call of the transaction.
-/
import QDistro.SecurityGrants

open JsonText Lineage SecurityGrants

namespace Lineage

/-! ## Walking derivations -/

/-- The loop of `_walk` along the `wasDerivedFrom` edges, towards the derivatives. -/
def Db.walk (db : Db) (start : String) : ℕ → List String → List String → List String
  | 0, seen, _ => seen
  | depth + 1, seen, frontier =>
    if frontier.isEmpty then seen
    else
      let taken := (db.derivations.filter fun d => frontier.elem d.2).map Prod.fst
      let nxt := taken.dedup.filter fun x => !seen.elem x && x ≠ start
      db.walk start depth (seen ++ nxt) nxt

/-- `downstream` -/
def Db.downstream (db : Db) (eid : String) : List String := db.walk eid 64 [] [eid]

/-! ## Declassification -/

/-- The arguments of `declassify`, with the identifiers it would generate. -/
structure DeclassifyCall where
  sourceEid : String
  outputEid : Option String := none
  outputKind : String := "export"
  outputDigest : Option String := none
  residualGuards : List String := []
  residualCompartments : List String := []
  residualConflictClasses : List String := []
  authorityGid : String
  transform : Option String := none
  agentGid : Option String := none
  now : ℤ
  aid : String
  genEid : String
  verdictNow : ℤ
  clock : ℕ → ℤ

namespace DeclassifyCall

variable (c : DeclassifyCall)

/-- `output_eid or _gen_id("entity")` -/
def outEid : String :=
  match c.outputEid with
  | some eid => if eid = "" then c.genEid else eid
  | none => c.genEid

/-- The derivative. -/
def outputEntity : Entity where
  eid := c.outEid
  kind := c.outputKind
  digest := c.outputDigest
  guards := c.residualGuards
  compartments := c.residualCompartments
  conflictClasses := c.residualConflictClasses
  createdAt := c.now

/-- `record_edge(..., activity=aid)` as a function of the time. -/
def edge (predicate subject obj : String) (now : ℤ) : Op :=
  .recordEdge predicate subject obj (some c.aid) now

/-- The sealed evidence. -/
def evidence : Assertion where
  subject := c.outEid
  fact := "declassification"
  value := .obj [("source", .str c.sourceEid), ("transform", optText c.transform),
    ("authority", .str c.authorityGid),
    ("residual_guards", .arr ((sortedSet c.residualGuards).map .str))]
  assertedBy := c.authorityGid
  authority := "broker-derived"

/-- The method calls of the transaction. -/
def ops : List Op :=
  let activity : Activity :=
    { aid := c.aid
      kind := "declassify"
      chokepoint := some "declassify"
      hostClass := "local"
      networkEgress := some "none"
      verdict := some "declassify"
      startedAt := c.now
      endedAt := some c.now }
  ([fun now => .recordActivity activity now c.verdictNow,
    c.edge "used" c.aid c.sourceEid, c.edge "wasAssociatedWith" c.aid c.authorityGid] ++
    (c.agentGid.toList.map fun gid => c.edge "actedOnBehalfOf" gid c.authorityGid) ++
    [fun now => .recordEntity c.outputEntity now,
      c.edge "wasGeneratedBy" c.outEid c.aid, c.edge "wasDerivedFrom" c.outEid c.sourceEid,
      c.edge "wasAttributedTo" c.outEid c.authorityGid,
      fun now => .recordAssertion c.evidence now]).mapIdx fun i op => op (c.clock i)

end DeclassifyCall

/-- `declassify` -/
def Store.declassify (u : UnicodeDb) (s : Store) (c : DeclassifyCall) : Store × Except Exc String :=
  if c.authorityGid = "" then
    (s, .error (.valueError "declassify requires a non-empty approving authority_gid"))
  else if s.db.getEntity c.sourceEid |>.isNone then
    (s, .error (.valueError (s!"cannot declassify unknown source entity "
      ++ s!"{PyText.pyRepr u c.sourceEid} (no recorded snapshot)")))
  else
    (s.transaction fun s => s.performAll u c.ops).map id (·.map fun _ => c.outEid)

end Lineage

namespace SecurityMutation

/-! ## Vocabulary -/

/-- `SENSITIVITY_ORDER` -/
def sensitivityOrder : List String := ["public", "internal", "confidential", "restricted"]

/-- `DECLASSIFICATION_STATES` -/
def declassificationStates : List String := ["none", "requested", "approved"]

/-- `DECLASSIFY_VERDICT` -/
def declassifyVerdict : String := "declassify"

/-- `ChangeClass` -/
inductive ChangeClass where
  | tighten
  | narrow
  | state
  | noop
  deriving DecidableEq

/-- `SecurityChange` -/
structure SecurityChange where
  guards : Option (List String) := none
  compartments : Option (List String) := none
  conflictClasses : Option (List String) := none
  sensitivity : Option String := none
  declassification : Option String := none

/-- `MutationResult` -/
structure MutationResult where
  allowed : Bool
  changeClass : ChangeClass
  reason : String
  resultEid : Option String := none
  descendantsForReview : List String := []
  delegatedVia : List (String × String) := []

/-- What the mutator can raise. -/
inductive MutationExc where
  | mutationError (msg : String)
  | grants (e : GrantExc)
  | lineage (e : Exc)
  deriving DecidableEq

/-! ## Classification -/

/-- `xs >= ys` on frozen sets. -/
def includes (xs ys : List String) : Bool := ys.all xs.elem

/-- `xs > ys` on frozen sets. -/
def strictlyIncludes (xs ys : List String) : Bool := includes xs ys && !includes ys xs

/-- `xs != ys` on frozen sets. -/
def differs (xs ys : List String) : Bool := !(includes xs ys && includes ys xs)

/-- `_sensitivity_rank` -/
def sensitivityRank (s : String) : ℕ :=
  if !sensitivityOrder.elem s then sensitivityOrder.length else sensitivityOrder.idxOf s

/-- `_DECLASS_RANK[s]` -/
def declassRank (s : String) : ℕ := declassificationStates.idxOf s

/-- A facet, if it holds one of the values of a vocabulary, else a default. -/
def facetIn (values : List String) (default key : String) (ent : Entity) : String :=
  match PyDict.lookup ent.facets key with
  | some (.str s) => if values.elem s then s else default
  | _ => default

/-- `_current_sensitivity` -/
def currentSensitivity (ent : Entity) : String :=
  facetIn sensitivityOrder "internal" "sensitivity" ent

/-- `_current_declass_state` -/
def currentDeclassState (ent : Entity) : String :=
  facetIn declassificationStates "none" "declassification" ent

/-- Whether a requested set removes something. -/
def removes (requested : Option (List String)) (current : List String) : Bool :=
  match requested with
  | none => false
  | some xs => !includes xs current

/-- Whether a requested set only adds something. -/
def adds (requested : Option (List String)) (current : List String) : Bool :=
  match requested with
  | none => false
  | some xs => strictlyIncludes xs current

/-- `classify_change` -/
def classifyChange (current : Entity) (change : SecurityChange) : ChangeClass :=
  let curRank := sensitivityRank (currentSensitivity current)
  let narrows := removes change.guards current.guards ||
    removes change.compartments current.compartments ||
    removes change.conflictClasses current.conflictClasses ||
    (change.sensitivity.map fun s => decide (sensitivityRank s < curRank)) = some true
  let tightens := adds change.guards current.guards ||
    adds change.compartments current.compartments ||
    adds change.conflictClasses current.conflictClasses ||
    (change.sensitivity.map fun s => decide (curRank < sensitivityRank s)) = some true
  if narrows then .narrow
  else if tightens then .tighten
  else
    match change.declassification with
    | none => .noop
    | some d => if d ≠ currentDeclassState current then .state else .noop

/-- `touched_fields`, in the order of its tests. -/
def touchedFields (current : Entity) (change : SecurityChange) : List String :=
  (if (change.guards.map (differs · current.guards)) = some true then ["security.guards"] else []) ++
  (if (change.compartments.map (differs · current.compartments)) = some true then
    ["security.compartments"] else []) ++
  (if (change.conflictClasses.map (differs · current.conflictClasses)) = some true then
    ["security.conflict_classes"] else []) ++
  (if (change.sensitivity.map fun s => decide (s ≠ currentSensitivity current)) = some true then
    ["security.sensitivity"] else []) ++
  (if (change.declassification.map fun d => decide (d ≠ currentDeclassState current)) = some true then
    ["security.declassification"] else [])

/-! ## The mutator -/

/-- The arguments of `reclassify`. -/
structure Reclassify where
  eid : String
  change : SecurityChange
  actor : String
  principal : Option String := none
  authority : Option String := none
  reason : String := ""
  policyVerdict : Option String := none
  propagateToDescendants : Bool := false
  outputKind : String := "export"
  outputDigest : Option String := none
  transform : Option String := none
  destination : Option String := none
  ts : ℤ
  aid : String
  genEid : String
  verdictNow : ℤ
  contextNow : ℤ
  clock : ℕ → ℤ

/-- The scopes a request was delegated under, as a JSON object. -/
def viaJson (via : List (String × String)) : Json := .obj (via.map fun v => (v.1, .str v.2))

/-- A frozen set as a sorted JSON list. -/
def setJson (values : List String) : Json := .arr ((sortedSet values).map .str)

/-- `bool(text)` of an optional text. -/
def given (o : Option String) : Bool := o.getD "" ≠ ""

/-- `repr` of an optional text. -/
def reprOpt (u : UnicodeDb) : Option String → String
  | none => "None"
  | some s => PyText.pyRepr u s

/-- `repr` of a list of texts. -/
def reprList (u : UnicodeDb) (values : List String) : String :=
  "[" ++ ", ".intercalate (values.map (PyText.pyRepr u)) ++ "]"

section Mutator

variable (u : UnicodeDb) (admin : String)

/-- The loop of `_check_delegation`. -/
def checkFields (db : Db) (principal : String) (via : List (String × String)) :
    List String → Except GrantExc (Bool × String × List (String × String))
  | [] => .ok (true, "", via)
  | f :: rest =>
    (check u admin db principal f).bind fun chk =>
      if chk.allowed then
        checkFields db principal (via ++ [(f, if given chk.via then chk.via.getD "" else "unknown")])
          rest
      else .ok (false, chk.reason, [])

/-- `_check_delegation` -/
def checkDelegation (db : Db) (principal : String) (fields : List String) :
    Except GrantExc (Bool × String × List (String × String)) :=
  checkFields u admin db principal [] (sortedSet fields)

variable (current : Entity) (c : Reclassify) (via : List (String × String))

/-- The new snapshot of a tightening. -/
def tightened : Entity :=
  let newSens := if given c.change.sensitivity then c.change.sensitivity.getD ""
    else currentSensitivity current
  let facets := PyDict.put current.facets "sensitivity" (.str newSens)
  { eid := current.eid
    kind := current.kind
    digest := current.digest
    locator := current.locator
    guards := c.change.guards.getD current.guards
    compartments := c.change.compartments.getD current.compartments
    conflictClasses := c.change.conflictClasses.getD current.conflictClasses
    integrity := current.integrity
    status := current.status
    facets := match c.change.declassification with
      | none => facets
      | some d => PyDict.put facets "declassification" (.str d)
    createdAt := c.ts }

/-- The guards a tightening adds. -/
def addedGuards : List String :=
  (tightened current c).guards.filter fun g => !current.guards.elem g

/-- The assertion of a tightening. -/
def tightenAssertion : Assertion where
  subject := current.eid
  fact := "security.reclassify"
  value := .obj [("class", .str "tighten"), ("added_guards", setJson (addedGuards current c)),
    ("guards", setJson (tightened current c).guards),
    ("compartments", setJson (tightened current c).compartments),
    ("conflict_classes", setJson (tightened current c).conflictClasses),
    ("sensitivity", .str (if given c.change.sensitivity then c.change.sensitivity.getD ""
      else currentSensitivity current)),
    ("actor", .str c.actor), ("authority", optText c.authority), ("reason", .str c.reason),
    ("delegated_via", viaJson via)]
  assertedBy := c.actor
  authority := "broker-derived"

/-- The assertion of the added guards on a derivative. -/
def propagatedAssertion (derivative : String) : Assertion where
  subject := derivative
  fact := "security.propagated_guards"
  value := .obj [("from", .str current.eid), ("added_guards", setJson (addedGuards current c)),
    ("actor", .str c.actor)]
  assertedBy := c.actor
  authority := "broker-derived"

/-- The transaction of `_do_tighten`; returns the derivatives to review. -/
def tightenBody (s : Store) : Store × Except Exc (List String) :=
  match s.performAll u [.recordEntity (tightened current c) (c.clock 0),
      .recordAssertion (tightenAssertion current c via) (c.clock 1)] with
  | (s', .error e) => (s', .error e)
  | (s', .ok _) =>
    if c.propagateToDescendants && !(addedGuards current c).isEmpty then
      let derivatives := s'.db.downstream current.eid
      (s'.performAll u (derivatives.mapIdx fun i d =>
        .recordAssertion (propagatedAssertion current c d) (c.clock (i + 2)))).map id
          (·.map fun _ => derivatives)
    else (s', .ok [])

/-- `_do_tighten` -/
def doTighten (s : Store) : Store × Except MutationExc MutationResult :=
  (s.transaction (tightenBody u current c via)).map id fun r =>
    (r.mapError .lineage).map fun reviewed =>
      { allowed := true
        changeClass := .tighten
        reason := s!"tightened {current.eid} (added guards {reprSorted u (addedGuards current c)})"
        resultEid := some current.eid
        descendantsForReview := reviewed
        delegatedVia := via }

/-- The new snapshot of a state move. -/
def moved (target : String) : Entity :=
  { current with
    facets := PyDict.put current.facets "declassification" (.str target)
    createdAt := c.ts }

/-- The assertion of a state move. -/
def stateAssertion (target : String) : Assertion where
  subject := current.eid
  fact := "security.declassification_state"
  value := .obj [("from", .str (currentDeclassState current)), ("to", .str target),
    ("actor", .str c.actor), ("authority", optText c.authority), ("reason", .str c.reason),
    ("delegated_via", viaJson via)]
  assertedBy := c.actor
  authority := "broker-derived"

/-- `_do_state` -/
def doState (s : Store) : Store × Except MutationExc MutationResult :=
  let target := c.change.declassification.getD ""
  let curState := currentDeclassState current
  if !declassificationStates.elem target then
    (s, .error (.mutationError
      (s!"unknown declassification state {reprOpt u c.change.declassification} "
        ++ s!"(allowed: {reprList u declassificationStates})")))
  else if declassRank target ≤ declassRank curState then
    (s, .ok
      { allowed := false
        changeClass := .state
        reason := s!"declassification state cannot move {PyText.pyRepr u curState} -> "
          ++ s!"{PyText.pyRepr u target} (forward-only)" })
  else if target = "approved" ∧ !given c.authority then
    (s, .ok
      { allowed := false
        changeClass := .state
        reason := "declassification 'approved' requires an explicit authority" })
  else
    (s.transaction fun s => s.performAll u [.recordEntity (moved current c target) (c.clock 0),
      .recordAssertion (stateAssertion current c via target) (c.clock 1)]).map id fun r =>
      (r.mapError .lineage).map fun _ =>
        { allowed := true
          changeClass := .state
          reason := s!"declassification state {PyText.pyRepr u curState} -> {PyText.pyRepr u target}"
          resultEid := some current.eid
          delegatedVia := via }

/-- The declassification a narrowing calls. -/
def declassifyCall : DeclassifyCall where
  sourceEid := current.eid
  outputKind := c.outputKind
  outputDigest := c.outputDigest
  residualGuards := sortedSet (c.change.guards.getD current.guards)
  residualCompartments := sortedSet (c.change.compartments.getD current.compartments)
  residualConflictClasses := sortedSet (c.change.conflictClasses.getD current.conflictClasses)
  authorityGid := c.authority.getD ""
  transform := c.transform
  agentGid := some c.actor
  now := c.ts
  aid := c.aid
  genEid := c.genEid
  verdictNow := c.verdictNow
  clock := c.clock

/-- The assertion of a narrowing's context. -/
def contextAssertion (outEid : String) : Assertion where
  subject := outEid
  fact := "declassification.context"
  value := .obj [("source", .str current.eid), ("destination", optText c.destination),
    ("policy_verdict", optText c.policyVerdict), ("reason", .str c.reason),
    ("actor", .str c.actor), ("authority", optText c.authority), ("delegated_via", viaJson via)]
  assertedBy := c.authority.getD ""
  authority := "broker-derived"

/-- The transaction of `_do_narrow`; returns the derivative. -/
def narrowBody (s : Store) : Store × Except Exc String :=
  match s.declassify u (declassifyCall current c) with
  | (s', .error e) => (s', .error e)
  | (s', .ok outEid) =>
    (s'.performAll u [.recordAssertion (contextAssertion current c via outEid) c.contextNow]).map id
      (·.map fun _ => outEid)

/-- `_do_narrow` -/
def doNarrow (s : Store) : Store × Except MutationExc MutationResult :=
  if !given c.authority then
    (s, .ok
      { allowed := false
        changeClass := .narrow
        reason := "narrowing security fields is a declassification and requires an "
          ++ "explicit approving authority; none supplied" })
  else if c.policyVerdict ≠ some declassifyVerdict then
    (s, .ok
      { allowed := false
        changeClass := .narrow
        reason := s!"narrowing requires the authority-bearing {PyText.pyRepr u declassifyVerdict} "
          ++ s!"verdict; got {reprOpt u c.policyVerdict}" })
  else
    match s.transaction (narrowBody u current c via) with
    | (s', .error e) => (s', .error (.lineage e))
    | (s', .ok outEid) =>
      (s', .ok
        { allowed := true
          changeClass := .narrow
          reason := s!"declassified {current.eid} -> new derivative {outEid} (residual guards "
            ++ s!"{reprSorted u (c.change.guards.getD current.guards)})"
          resultEid := some outEid
          descendantsForReview := s'.db.downstream current.eid
          delegatedVia := via })

end Mutator

/-- What `reclassify` decides before it writes: a result, or the current snapshot with the
class of the change and the scopes it was delegated under. -/
def gate (u : UnicodeDb) (admin : String) (db : Db) (c : Reclassify) :
    Except MutationExc (MutationResult ⊕ Entity × ChangeClass × List (String × String)) :=
  match db.getEntity c.eid with
  | none =>
    .error (.mutationError
      s!"cannot mutate unknown entity {PyText.pyRepr u c.eid} (no recorded snapshot)")
  | some current =>
    if c.actor = "" then .error (.mutationError "a non-empty actor is required")
    else
      let klass := classifyChange current c.change
      if klass = .noop then
        .ok (.inl
          { allowed := true
            changeClass := klass
            reason := "no security-field change requested"
            resultEid := some c.eid })
      else
        match checkDelegation u admin db (c.principal.getD admin) (touchedFields current c.change) with
        | .error e => .error (.grants e)
        | .ok (true, _, via) => .ok (.inr (current, klass, via))
        | .ok (false, denyReason, _) =>
          .ok (.inl
            { allowed := false
              changeClass := klass
              reason := "delegation denied: " ++ denyReason })

/-- `reclassify` -/
def reclassify (u : UnicodeDb) (admin : String) (s : Store) (c : Reclassify) :
    Store × Except MutationExc MutationResult :=
  match gate u admin s.db c with
  | .error e => (s, .error e)
  | .ok (.inl result) => (s, .ok result)
  | .ok (.inr (current, klass, via)) =>
    match klass with
    | .narrow => doNarrow u current c via s
    | .state => doState u current c via s
    | _ => doTighten u current c via s

/-- The store after a call, whatever it returned or raised. -/
def reclassifyStep (u : UnicodeDb) (admin : String) (s : Store) (c : Reclassify) : Store :=
  (reclassify u admin s c).1

end SecurityMutation
