/-
# The recording chokepoints

`qdistro_lineage.record_chokepoint`, `qdistro_commit_lineage.record_commit` and
`qdistro_upload_lineage.record_upload` over the lineage store.  Each evaluates the guard
registry and records an activity, its inputs and, where the flow is allowed, an output
entity with its `wasDerivedFrom` edges, in one transaction.

Generated identifiers and the current time are arguments of a call.  So is what the
store's own clock shows: `clock i` to the `i`-th method call of a chokepoint, `verdictNow`
to the assertion of its verdict and `receiptNow` to a receipt.
-/
import QDistro.GuardRegistry

open JsonText

namespace Lineage

/-! ## Current snapshots -/

/-- The text of a text cell. -/
def Cell.str? : Cell → Option String
  | .text s => some s
  | _ => none

/-- `_jload` of a cell; anything but a text reads as the empty set. -/
def Cell.strings (c : Cell) : List String :=
  match c.str? with
  | some s => jload s
  | none => []

/-- The security fields of an entity row. -/
def Row.endpoint (r : Row .entities) : FlowEndpoint where
  guards := (r.col "guards").strings
  compartments := (r.col "compartments").strings
  conflictClasses := (r.col "conflict_classes").strings

/-- The security fields of `get_entity(eid)`: those of the newest row. -/
def Db.snapshot (db : Db) (eid : String) : Option FlowEndpoint :=
  (((db.rows .entities).filter fun r => r.col "eid" = .text eid).getLast?).map Row.endpoint

/-! ## Raising inside a transaction -/

/-- What the chokepoints can raise. -/
inductive Exc where
  | store (e : Err)
  | valueError (msg : String)
  | badCommitInput (msg : String)
  | commitDenied (reasons : List String)
  | badUploadInput (msg : String)
  | uploadDenied (denied reasons : List String)
  | unsupportedReceipt (msg : String)
  | malformedReceipt (msg : String)
  deriving DecidableEq

/-- `with store.transaction():` around a body that works on the store. -/
def Store.transaction {α : Type} (s : Store) (body : Store → Store × Except Exc α) :
    Store × Except Exc α :=
  match body s.enter with
  | (s', .ok v) => (s'.leave false, .ok v)
  | (s', .error e) => (s'.leave true, .error e)

/-- Method calls in a row, up to the first that raises. -/
def Store.performAll (u : UnicodeDb) (s : Store) : List Op → Store × Except Exc Unit
  | [] => (s, .ok ())
  | op :: ops =>
    match s.perform u op with
    | (s', .ok _) => s'.performAll u ops
    | (s', .error e) => (s', .error (.store e))

/-! ## `record_chokepoint` -/

/-- `CHOKEPOINT_ACTIVITY_KIND.get(chokepoint, "workflow-step")` -/
def chokepointActivityKind (chokepoint : String) : String :=
  (([("clipboard", "clipboard"), ("commit-create", "commit"), ("browser-upload", "upload"),
    ("browser-download", "download"), ("archive-extract", "extract"),
    ("archive-create", "archive-create"), ("import", "import"), ("export", "export"),
    ("recall-query", "recall-query"), ("recall-export", "recall-export"),
    ("workflow-step", "workflow-step")]).lookup chokepoint).getD "workflow-step"

/-- `DERIVING_CHOKEPOINTS` -/
def derivingChokepoints : List String :=
  ["clipboard", "commit-create", "archive-extract", "archive-create", "import", "export",
    "recall-query", "recall-export"]

/-- `TRUSTED_MAPPING_CONFIDENCE` -/
def trustedMappingConfidence : List String := ["broker-derived", "trusted-tool"]

/-- `ChokepointInput` -/
structure ChokepointInput where
  eid : String
  endpoint : FlowEndpoint := {}

/-- The `trusted_mapping` dictionary. -/
structure TrustedMapping where
  confidence : String := ""
  outputGuards : Option (List String) := none
  deriving DecidableEq

/-- The arguments of `record_chokepoint`, with the identifiers it would generate. -/
structure ChokepointCall where
  chokepoint : String
  inputs : List ChokepointInput
  destination : FlowEndpoint := {}
  processing : ProcessingDescriptor := {}
  outputEid : Option String := none
  outputKind : String := "artifact"
  outputDigest : Option String := none
  outputLocator : Option String := none
  agentGid : Option String := none
  actionVersion : Option String := none
  trustedMapping : Option TrustedMapping := none
  now : ℤ
  aid : String
  genEid : String
  verdictNow : ℤ
  clock : ℕ → ℤ

namespace ChokepointCall

variable (u : UnicodeDb) (c : ChokepointCall)

/-- The flow of one input. -/
def context (i : ChokepointInput) : FlowContext :=
  ⟨i.endpoint, c.chokepoint, c.destination, c.processing⟩

/-- The verdicts of the flows of all inputs. -/
def flows : List FlowVerdict := c.inputs.map fun i => evaluateFlow u (c.context i)

/-- The most restrictive verdict. -/
def worst : GuardVerdict := (c.flows u).foldl (fun w v => w.max v.verdict) .allow

/-- Whether the flow may proceed. -/
def allowed : Bool := (c.worst u).allowed

/-- The guards of the inputs and all that their flows propagate. -/
def unionGuards : List String :=
  propagateGuards (c.inputs.map (·.endpoint.guards) ++ [((c.flows u).map (·.propagate)).flatten])

/-- The guards of the output; a trusted mapping may narrow them. -/
def outputGuards : List String :=
  match c.trustedMapping with
  | some m =>
    if trustedMappingConfidence.elem m.confidence then
      match m.outputGuards with
      | some narrowed => (c.unionGuards u).filter narrowed.elem
      | none => c.unionGuards u
    else c.unionGuards u
  | none => c.unionGuards u

/-- The security fields of the output. -/
def outputEndpoint : FlowEndpoint where
  guards := c.outputGuards u
  compartments := (c.inputs.flatMap (·.endpoint.compartments)).dedup
  conflictClasses := (c.inputs.flatMap (·.endpoint.conflictClasses)).dedup

/-- Mixed when compartments are combined under some conflict class. -/
def outputIntegrity : Option String :=
  if 1 < (c.outputEndpoint u).compartments.length ∧ (c.outputEndpoint u).conflictClasses ≠ [] then
    some "mixed"
  else none

/-- `output_eid or _gen_id("entity")` -/
def outEid : String :=
  match c.outputEid with
  | some eid => if eid = "" then c.genEid else eid
  | none => c.genEid

/-- Whether an output entity is minted. -/
def mints : Bool := c.allowed u && derivingChokepoints.elem c.chokepoint

/-- `record_edge(..., activity=aid)` as a function of the time. -/
def edge (predicate subject obj : String) (now : ℤ) : Op :=
  .recordEdge predicate subject obj (some c.aid) now

/-- The activity, its agent and its inputs. -/
def activityOps : List (ℤ → Op) :=
  let activity : Activity :=
    { aid := c.aid
      kind := chokepointActivityKind c.chokepoint
      chokepoint := some c.chokepoint
      actionVersion := c.actionVersion
      hostClass := c.processing.hostClass
      networkEgress := some c.processing.networkEgress
      verdict := some (c.worst u).nameLower
      startedAt := c.now
      endedAt := some c.now }
  (fun now => .recordActivity activity now c.verdictNow) ::
    ((c.agentGid.toList.map fun gid => c.edge "wasAssociatedWith" c.aid gid) ++
      c.inputs.map fun i => c.edge "used" c.aid i.eid)

/-- The output entity. -/
def outputEntity : Entity where
  eid := c.outEid
  kind := c.outputKind
  digest := c.outputDigest
  locator := c.outputLocator
  guards := (c.outputEndpoint u).guards
  compartments := (c.outputEndpoint u).compartments
  conflictClasses := (c.outputEndpoint u).conflictClasses
  integrity := c.outputIntegrity u
  createdAt := c.now

/-- The edges of the output. -/
def outputEdges : List (ℤ → Op) :=
  c.edge "wasGeneratedBy" c.outEid c.aid ::
    ((c.inputs.map fun i => c.edge "wasDerivedFrom" c.outEid i.eid) ++
      c.agentGid.toList.map fun gid => c.edge "wasAttributedTo" c.outEid gid)

/-- The method calls of the transaction, each with its reading of the clock. -/
def ops : List Op :=
  (c.activityOps u ++
    if c.mints u then (fun now => .recordEntity (c.outputEntity u) now) :: c.outputEdges
    else []).mapIdx fun i op => op (c.clock i)

end ChokepointCall

/-- `ChokepointResult` -/
structure ChokepointResult where
  verdict : GuardVerdict
  allowed : Bool
  reasons : List String
  output : FlowEndpoint
  outputIntegrity : Option String
  activityAid : String
  outputEid : Option String

/-- `record_chokepoint` -/
def Store.recordChokepoint (u : UnicodeDb) (s : Store) (c : ChokepointCall) :
    Store × Except Exc ChokepointResult :=
  if c.inputs.isEmpty && derivingChokepoints.elem c.chokepoint then
    (s, .error (.valueError
      (s!"deriving chokepoint {PyText.pyRepr u c.chokepoint} requires at least one input "
        ++ "(a source-free artifact must use record_entity, not a chokepoint)")))
  else
    (s.transaction fun s => s.performAll u (c.ops u)).map id (·.map fun _ =>
      { verdict := c.worst u
        allowed := c.allowed u
        reasons := (c.flows u).flatMap FlowVerdict.reasons
        output := c.outputEndpoint u
        outputIntegrity := c.outputIntegrity u
        activityAid := c.aid
        outputEid := if c.mints u then some c.outEid else none })

/-! ## Receipts -/

/-- `is_hex_digest` -/
def isHexDigest (s : String) : Bool := s.toList.length = 64 && s.toList.all Sha256.isHexDigit

/-- The arguments of `build_envelope`. -/
structure EnvelopeArgs where
  entity : String
  kind : String
  chainHead : String
  createdAt : ℤ
  artifactDigest : Option String
  locator : Option String
  issuer : String
  extra : Option (List (String × Json)) := none

/-- An optional text as a JSON value. -/
def optText : Option String → Json
  | none => .null
  | some s => .str s

/-- `build_envelope`.  Its last check, that the envelope has canonical bytes, cannot fail where it
is called: the same call has already stored the time in a column of 64 bits. -/
def buildEnvelope (u : UnicodeDb) (a : EnvelopeArgs) : Except Exc (List (String × Json)) :=
  if !receiptKinds.elem a.kind then
    .error (.unsupportedReceipt
      s!"unknown receipt kind {PyText.pyRepr u a.kind} (allowed: {reprSorted u receiptKinds})")
  else if a.entity = "" then
    .error (.malformedReceipt "entity must be a non-empty string")
  else if a.chainHead = "" then
    .error (.malformedReceipt "chain_head must be a non-empty string")
  else if (a.artifactDigest.map fun d => !isHexDigest d) = some true then
    .error (.malformedReceipt "artifact_digest must be a hex digest or None")
  else
    .ok ([("schema", .str "qdistro-lineage-receipt/v1"), ("kind", .str a.kind),
      ("entity", .str a.entity), ("artifact_digest", optText a.artifactDigest),
      ("locator", optText a.locator), ("issuer", .str a.issuer),
      ("chain_algo", .str "sha256-chain"), ("chain_head", .str a.chainHead),
      ("signature_algo", .null), ("key_id", .null), ("signature", .null),
      ("created_at", .int a.createdAt)] ++
      (a.extra.map fun e => ("extra", Json.obj e)).toList)

/-- `LINEAGE_ISSUER` -/
def lineageIssuer : String := "qdistro-broker"

/-! ## `record_commit` -/

/-- The arguments of `record_commit`, the commit message apart: its trailer is appended
after the transaction. -/
structure CommitCall where
  commitEid : String
  sources : List String
  treeDigest : Option String := none
  branch : Option String := none
  destCompartments : List String := []
  destConflictClasses : List String := []
  agentGid : Option String := none
  actionVersion : String := "git-commit/v1"
  now : ℤ
  aid : String
  verdictNow : ℤ
  receiptNow : ℤ
  clock : ℕ → ℤ

/-- The loop over the sources: each is new to the batch and recorded in the store. -/
def resolveSources (u : UnicodeDb) (db : Db) (bad : String → Exc) (what : String)
    (seen : List String) : List String → Except Exc (List ChokepointInput)
  | [] => .ok []
  | eid :: rest =>
    if eid = "" then .error (bad (what ++ " must be a non-empty string"))
    else if seen.elem eid then
      .error (bad s!"duplicate source entity {PyText.pyRepr u eid}")
    else
      match db.snapshot eid with
      | none =>
        .error (bad
          s!"source entity {PyText.pyRepr u eid} is not recorded in the lineage store")
      | some endpoint =>
        (resolveSources u db bad what (eid :: seen) rest).map fun inputs => ⟨eid, endpoint⟩ :: inputs

/-- The checks of `record_commit`. -/
def CommitCall.check (u : UnicodeDb) (db : Db) (c : CommitCall) :
    Except Exc (List ChokepointInput) :=
  if c.commitEid = "" then .error (.badCommitInput "commit_eid must be a non-empty string")
  else if c.sources.isEmpty then
    .error (.badCommitInput "commit requires at least one source entity")
  else if (c.treeDigest.map fun d => !isHexDigest d) = some true then
    .error (.badCommitInput "tree_digest must be a sha256 hex string or None")
  else resolveSources u db .badCommitInput "source eid" [] c.sources

/-- The chokepoint of a commit. -/
def CommitCall.chokepoint (c : CommitCall) (inputs : List ChokepointInput) : ChokepointCall where
  chokepoint := "commit-create"
  inputs := inputs
  destination := ⟨[], c.destCompartments, c.destConflictClasses⟩
  processing := ⟨"local", "none", false, false⟩
  outputEid := some c.commitEid
  outputKind := "commit"
  outputDigest := c.treeDigest
  outputLocator := c.branch
  agentGid := c.agentGid
  actionVersion := some c.actionVersion
  now := c.now
  aid := c.aid
  -- the commit's own identifier is never empty
  genEid := c.commitEid
  verdictNow := c.verdictNow
  clock := c.clock

/-- The receipt of an allowed commit. -/
def Store.recordCommitReceipt (u : UnicodeDb) (s : Store) (c : CommitCall) :
    Store × Except Exc (List (String × Json)) :=
  match buildEnvelope u ⟨c.commitEid, "git-trailer", String.ofList s.db.chainHead, c.now,
      c.treeDigest, c.branch, lineageIssuer, none⟩ with
  | .error e => (s, .error e)
  | .ok envelope =>
    (s.performAll u [.recordReceipt ⟨c.commitEid, "git-trailer", c.branch, c.treeDigest, envelope⟩
      c.receiptNow]).map id (·.map fun _ => envelope)

/-- `record_commit`, up to the trailer. -/
def Store.recordCommit (u : UnicodeDb) (s : Store) (c : CommitCall) :
    Store × Except Exc (List (String × Json)) :=
  match c.check u s.db with
  | .error e => (s, .error e)
  | .ok inputs =>
    let call := c.chokepoint inputs
    let (s', r) := s.transaction fun s =>
      match s.recordChokepoint u call with
      | (s', .error e) => (s', .error e)
      | (s', .ok res) =>
        -- the record of a denied attempt is kept: the denial is raised afterwards
        if res.allowed then (s'.recordCommitReceipt u c).map id (·.map some) else (s', .ok none)
    (s', r.bind fun envelope? => match envelope? with
      | some envelope => .ok envelope
      | none => .error (.commitDenied ((call.flows u).flatMap FlowVerdict.reasons)))

/-! ## `record_upload` -/

/-- `UploadFile`, with the identifiers generated for it. -/
structure UploadFile where
  sourceEid : String
  digest : String
  locator : Option String := none
  outEid : String
  aid : String
  verdictNow : ℤ
  receiptNow : ℤ
  clock : ℕ → ℤ
  outputClock : ℕ → ℤ

/-- The arguments of `record_upload`. -/
structure UploadCall where
  files : List UploadFile
  destination : String
  agentGid : Option String := none
  actionVersion : String := "browser-upload/v1"
  now : ℤ

/-- The loop over the files: each is well formed, new to the batch and recorded. -/
def planFiles (u : UnicodeDb) (db : Db) (seen : List String) :
    List UploadFile → Except Exc (List (UploadFile × FlowEndpoint))
  | [] => .ok []
  | f :: rest =>
    if f.sourceEid = "" then
      .error (.badUploadInput "file source_eid must be a non-empty string")
    else if !isHexDigest f.digest then
      .error (.badUploadInput "file digest must be a sha256 hex string")
    else if seen.elem f.sourceEid then
      .error (.badUploadInput s!"duplicate source entity {PyText.pyRepr u f.sourceEid}")
    else
      match db.snapshot f.sourceEid with
      | none =>
        .error (.badUploadInput
          (s!"source entity {PyText.pyRepr u f.sourceEid} is not recorded "
            ++ "in the lineage store"))
      | some endpoint =>
        (planFiles u db (f.sourceEid :: seen) rest).map fun plan => (f, endpoint) :: plan

/-- The checks of `record_upload`. -/
def UploadCall.plan (u : UnicodeDb) (db : Db) (c : UploadCall) :
    Except Exc (List (UploadFile × FlowEndpoint)) :=
  if c.destination = "" then .error (.badUploadInput "destination must be a non-empty string")
  else if c.files.isEmpty then .error (.badUploadInput "upload requires at least one file")
  else planFiles u db [] c.files

/-- The chokepoint of one file. -/
def UploadCall.chokepoint (c : UploadCall) (p : UploadFile × FlowEndpoint) : ChokepointCall where
  chokepoint := "browser-upload"
  inputs := [⟨p.1.sourceEid, p.2⟩]
  processing := ⟨"remote-service", "brokered", true, false⟩
  outputEid := some p.1.outEid
  outputDigest := some p.1.digest
  outputLocator := p.1.locator
  agentGid := c.agentGid
  actionVersion := some c.actionVersion
  now := c.now
  aid := p.1.aid
  -- an upload never mints at its chokepoint
  genEid := p.1.outEid
  verdictNow := p.1.verdictNow
  clock := p.1.clock

/-- Phase 1: the chokepoint of every file; returns the denied files and the reasons. -/
def Store.uploadChokepoints (u : UnicodeDb) (s : Store) (c : UploadCall) :
    List (UploadFile × FlowEndpoint) → Store × Except Exc (List String × List String)
  | [] => (s, .ok ([], []))
  | p :: rest =>
    match s.recordChokepoint u (c.chokepoint p) with
    | (s', .error e) => (s', .error e)
    | (s', .ok res) =>
      (s'.uploadChokepoints u c rest).map id (·.map fun (denied, reasons) =>
        if res.allowed then (denied, reasons)
        else (p.1.sourceEid :: denied, res.reasons ++ reasons))

/-- The uploaded artifact, recorded without security fields. -/
def UploadCall.outputEntity (c : UploadCall) (f : UploadFile) : Entity where
  eid := f.outEid
  kind := "artifact"
  digest := some f.digest
  locator := f.locator
  createdAt := c.now

/-- The edges of the uploaded artifact. -/
def UploadCall.outputEdges (c : UploadCall) (f : UploadFile) : List (ℤ → Op) :=
  let edge (predicate obj : String) (now : ℤ) : Op :=
    .recordEdge predicate f.outEid obj (some f.aid) now
  [edge "wasGeneratedBy" f.aid, edge "wasDerivedFrom" f.sourceEid] ++
    c.agentGid.toList.map fun gid => edge "wasAttributedTo" gid

/-- The uploaded artifact and its edges. -/
def UploadCall.outputOps (c : UploadCall) (f : UploadFile) : List Op :=
  ((fun now => .recordEntity (c.outputEntity f) now) :: c.outputEdges f).mapIdx
    fun i op => op (f.outputClock i)

/-- Phase 2 for one file: the artifact, its envelope, its receipt. -/
def Store.uploadFile (u : UnicodeDb) (s : Store) (c : UploadCall) (batchHead : String)
    (f : UploadFile) : Store × Except Exc (List (String × Json)) :=
  match s.performAll u (c.outputOps f) with
  | (s', .error e) => (s', .error e)
  | (s', .ok _) =>
    match buildEnvelope u ⟨f.outEid, "upload-receipt", batchHead, c.now, some f.digest,
        f.locator, lineageIssuer, some [("destination", .str c.destination)]⟩ with
    | .error e => (s', .error e)
    | .ok child =>
      (s'.performAll u [.recordReceipt ⟨f.outEid, "upload-receipt", f.locator, some f.digest,
        child⟩ f.receiptNow]).map id (·.map fun _ => child)

/-- Phase 2: every file. -/
def Store.uploadFiles (u : UnicodeDb) (s : Store) (c : UploadCall) (batchHead : String) :
    List UploadFile → Store × Except Exc (List (List (String × Json)))
  | [] => (s, .ok [])
  | f :: rest =>
    match s.uploadFile u c batchHead f with
    | (s', .error e) => (s', .error e)
    | (s', .ok child) =>
      (s'.uploadFiles u c batchHead rest).map id (·.map fun children => child :: children)

/-- The transaction of `record_upload`: all artifacts, or the denied files and the
reasons. -/
def Store.uploadBatch (u : UnicodeDb) (c : UploadCall) (plan : List (UploadFile × FlowEndpoint))
    (s : Store) : Store × Except Exc (List (List (String × Json)) ⊕ List String × List String) :=
  let batchHead := String.ofList s.db.chainHead
  match s.uploadChokepoints u c plan with
  | (s', .error e) => (s', .error e)
  | (s', .ok (denied, reasons)) =>
    if denied.isEmpty then
      (s'.uploadFiles u c batchHead (plan.map Prod.fst)).map id (·.map Sum.inl)
    else (s', .ok (Sum.inr (denied, reasons)))

/-- `record_upload`; the sealed child envelopes stand for the manifest that lists them. -/
def Store.recordUpload (u : UnicodeDb) (s : Store) (c : UploadCall) :
    Store × Except Exc (List (List (String × Json))) :=
  match c.plan u s.db with
  | .error e => (s, .error e)
  | .ok plan =>
    let (s', r) := s.transaction (Store.uploadBatch u c plan)
    (s', r.bind fun outcome => match outcome with
      | .inl children => .ok children
      -- the records of the denied attempt are kept: the denial is raised afterwards
      | .inr (denied, reasons) => .error (.uploadDenied denied reasons))

/-! ## Runs -/

/-- A call of one of the recording chokepoints. -/
inductive Event where
  | chokepoint (c : ChokepointCall)
  | commit (c : CommitCall)
  | upload (c : UploadCall)

/-- The store after a call, whatever it returned or raised. -/
def recordStep (u : UnicodeDb) (s : Store) : Event → Store
  | .chokepoint c => (s.recordChokepoint u c).1
  | .commit c => (s.recordCommit u c).1
  | .upload c => (s.recordUpload u c).1

end Lineage
