/-
# Disposable exports

`qdistro_export_lineage.record_export_activity`: the broker records the disposable source,
the export activity and, for each landed file, an entity with its edges and receipts.  The
security fields are left empty and marked as unresolved by an assertion.

A call is a descriptor with the activity's identifier and the readings of the store's
clock, those of a file with the file.  Of the manifest only its receipts are read.
-/
import QDistro.LineageRows

open JsonText

namespace Lineage

/-- A receipt as `validate_landed_files` leaves it: a dictionary whose locator is a text or
null. -/
structure ReceiptDict where
  fields : List (String × Json)
  distinct : Distinct (.obj fields)
  locator_text : ∀ v, PyDict.lookup fields "locator" = some v → v = .null ∨ ∃ s, v = .str s

/-- `receipt.get("locator")` -/
def ReceiptDict.locator (r : ReceiptDict) : Option String :=
  match PyDict.lookup r.fields "locator" with
  | some (.str s) => some s
  | _ => none

/-- `receipt.get("entity") == entity` -/
def ReceiptDict.isFor (r : ReceiptDict) (entity : String) : Bool :=
  match PyDict.lookup r.fields "entity" with
  | some (.str s) => s = entity
  | _ => false

/-- `ExportLineageFile`, as far as it is recorded. -/
structure ExportFile where
  entity : String
  locator : String
  digest : String
  receipt : ReceiptDict
  clock : ℕ → ℤ

/-- `ExportLineageDescriptor`, as far as it is recorded. -/
structure ExportCall where
  launchToken : String
  requestSilo : String
  openClass : String
  mode : String
  sourceInput : Option String := none
  files : List ExportFile
  manifest : Option (List ReceiptDict) := none
  now : ℤ
  aid : String
  verdictNow : ℤ
  clock : ℕ → ℤ

namespace ExportCall

variable (c : ExportCall)

/-- The disposable source. -/
def sourceEid : String := "disposable-source:" ++ c.launchToken

/-- The source as an entity without security fields. -/
def sourceEntity : Entity where
  eid := c.sourceEid
  kind := "resource"
  locator := some ("qdistro://disposable/" ++ c.launchToken)
  facets := [("request_silo", .str c.requestSilo), ("open_class", .str c.openClass),
    ("mode", .str c.mode), ("launch_token", .str c.launchToken),
    ("security_snapshot_state", .str "unresolved")] ++
    if c.sourceInput.getD "" = "" then [] else [("source_input", .str (c.sourceInput.getD ""))]
  createdAt := c.now

/-- The assertion that the security fields of an entity are unresolved. -/
def unresolved (eid : String) : Assertion where
  subject := eid
  fact := "security.snapshot.state"
  value := .str "unresolved"
  assertedBy := "broker"
  authority := "broker-derived"

/-- `record_edge(..., activity=aid)` as a function of the time. -/
def edge (predicate subject obj : String) (now : ℤ) : Op :=
  .recordEdge predicate subject obj (some c.aid) now

/-- The source, the activity and the broker. -/
def sourceOps : List Op :=
  let activity : Activity :=
    { aid := c.aid
      kind := "export"
      chokepoint := some "export"
      actionVersion := some "disposable-export/v1"
      hostClass := "local"
      networkEgress := some "none"
      verdict := some "recorded-unresolved"
      startedAt := c.now
      endedAt := some c.now }
  [.recordEntity c.sourceEntity (c.clock 0), .recordAssertion (unresolved c.sourceEid) (c.clock 1),
    .recordActivity activity (c.clock 2) c.verdictNow,
    .recordAgent { gid := "broker", kind := "broker", name := some "qdistro-broker" } (c.clock 3),
    c.edge "used" c.aid c.sourceEid (c.clock 4), c.edge "wasAssociatedWith" c.aid "broker" (c.clock 5)]

/-- A landed file as an entity without security fields. -/
def fileEntity (f : ExportFile) : Entity where
  eid := f.entity
  kind := "artifact"
  digest := some f.digest
  locator := some f.locator
  facets := [("request_silo", .str c.requestSilo), ("open_class", .str c.openClass),
    ("mode", .str c.mode), ("security_snapshot_state", .str "unresolved")]
  createdAt := c.now

/-- The sidecar receipt of a file. -/
def sidecar (f : ExportFile) : Receipt where
  entity := f.entity
  kind := "sidecar"
  locator := f.receipt.locator
  digest := some f.digest
  payload := f.receipt.fields

/-- The manifest receipt of a file. -/
def manifestReceipt (f : ExportFile) (child : ReceiptDict) : Receipt where
  entity := f.entity
  kind := "export-manifest"
  locator := child.locator
  digest := some f.digest
  payload := child.fields

/-- A file with its edges and its sidecar. -/
def fileOps (f : ExportFile) : List Op :=
  [.recordEntity (c.fileEntity f) (f.clock 0), .recordAssertion (unresolved f.entity) (f.clock 1),
    c.edge "wasGeneratedBy" f.entity c.aid (f.clock 2),
    c.edge "wasDerivedFrom" f.entity c.sourceEid (f.clock 3),
    c.edge "wasAttributedTo" f.entity "broker" (f.clock 4), .recordReceipt (sidecar f) (f.clock 5)]

end ExportCall

/-- `_manifest_child` -/
def manifestChild (u : UnicodeDb) (children : List ReceiptDict) (entity : String) :
    Except Exc ReceiptDict :=
  match children.find? fun child => child.isFor entity with
  | some child => .ok child
  -- `BadDescriptor` is a `ValueError`
  | none => .error (.valueError s!"manifest has no child for entity {PyText.pyRepr u entity}")

/-- The loop over the files, for one file. -/
def Store.exportFile (u : UnicodeDb) (s : Store) (c : ExportCall) (f : ExportFile) :
    Store × Except Exc Unit :=
  match s.performAll u (c.fileOps f) with
  | (s', .error e) => (s', .error e)
  | (s', .ok _) =>
    match c.manifest with
    | none => (s', .ok ())
    | some children =>
      match manifestChild u children f.entity with
      | .error e => (s', .error e)
      | .ok child =>
        s'.performAll u [.recordReceipt (ExportCall.manifestReceipt f child) (f.clock 6)]

/-- The loop over the files. -/
def Store.exportFiles (u : UnicodeDb) (s : Store) (c : ExportCall) :
    List ExportFile → Store × Except Exc Unit
  | [] => (s, .ok ())
  | f :: rest =>
    match s.exportFile u c f with
    | (s', .error e) => (s', .error e)
    | (s', .ok _) => s'.exportFiles u c rest

/-- The transaction of `record_export_activity`. -/
def Store.exportBody (u : UnicodeDb) (c : ExportCall) (s : Store) : Store × Except Exc Unit :=
  match s.performAll u c.sourceOps with
  | (s', .error e) => (s', .error e)
  | (s', .ok _) => s'.exportFiles u c c.files

/-- `ExportLineageResult` -/
structure ExportResult where
  activity : String
  source : String
  outputs : List String
  chainHead : List Char

/-- `record_export_activity` -/
def Store.recordExport (u : UnicodeDb) (s : Store) (c : ExportCall) :
    Store × Except Exc ExportResult :=
  match s.transaction (Store.exportBody u c) with
  | (s', .error e) => (s', .error e)
  | (s', .ok _) => (s', .ok ⟨c.aid, c.sourceEid, c.files.map ExportFile.entity, s'.db.chainHead⟩)

/-! ## The rows of an export -/

variable {u : UnicodeDb}

/-- The method calls for one file, as far as they come before an exception. -/
def ExportCall.allFileOps (u : UnicodeDb) (c : ExportCall) (f : ExportFile) : List Op :=
  c.fileOps f ++ ((c.manifest.bind fun children =>
    (manifestChild u children f.entity).toOption).toList.map fun child =>
      Op.recordReceipt (ExportCall.manifestReceipt f child) (f.clock 6))

/-- The method calls of an export, as far as they come before an exception. -/
def ExportCall.allOps (u : UnicodeDb) (c : ExportCall) : List Op :=
  c.sourceOps ++ c.files.flatMap (c.allFileOps u)

theorem Store.recorded_exportFile (s : Store) (c : ExportCall) (f : ExportFile) :
    Recorded s (s.exportFile u c f) ((c.allFileOps u f).flatMap (Op.writes u)) := by
  have hfirst := recorded_performAll (u := u) (c.fileOps f)
    (by simp [ExportCall.fileOps, ExportCall.edge, Op.Records]) s
  rw [ExportCall.allFileOps, List.flatMap_append]
  unfold Store.exportFile
  split
  · next s' e heq =>
    rw [heq] at hfirst
    exact hfirst.error _
  · next s' v heq =>
    rw [heq] at hfirst
    cases hm : c.manifest with
    | none => exact hfirst.seq (recorded_nil s' _)
    | some children =>
      cases hchild : manifestChild u children f.entity with
      | error e =>
        rw [Option.bind_some, hchild]
        simp only [hchild]
        exact hfirst.seq (recorded_nil s' _)
      | ok child =>
        rw [Option.bind_some, hchild]
        simp only [hchild]
        exact hfirst.seq (recorded_performAll (u := u)
          [.recordReceipt (ExportCall.manifestReceipt f child) (f.clock 6)]
          (by simp [Op.Records]) s')

theorem Store.recorded_exportFiles (c : ExportCall) (files : List ExportFile) (s : Store) :
    Recorded s (s.exportFiles u c files) ((files.flatMap (c.allFileOps u)).flatMap (Op.writes u)) := by
  induction files generalizing s with
  | nil => exact recorded_nil s _
  | cons f rest ih =>
    have hf := s.recorded_exportFile (u := u) c f
    rw [List.flatMap_cons, List.flatMap_append, Store.exportFiles]
    split
    · next s' e heq =>
      rw [heq] at hf
      exact hf.error _
    · next s' v heq =>
      rw [heq] at hf
      exact hf.seq (ih s')

/-- **An export** records its method calls' rows. -/
theorem Store.recorded_export (s : Store) (c : ExportCall) :
    ∃ ws, Extends s (s.recordExport u c).1 ws ∧
      ∀ t, cellsOf ws t <+: cellsOf ((c.allOps u).flatMap (Op.writes u)) t := by
  have hfirst := recorded_performAll (u := u) c.sourceOps
    (by simp [ExportCall.sourceOps, ExportCall.edge, Op.Records]) s.enter
  have hbody : Recorded s.enter (Store.exportBody u c s.enter) ((c.allOps u).flatMap (Op.writes u)) := by
    rw [ExportCall.allOps, List.flatMap_append]
    unfold Store.exportBody
    split
    · next s' e heq =>
      rw [heq] at hfirst
      exact hfirst.error _
    · next s' v heq =>
      rw [heq] at hfirst
      exact hfirst.seq (Store.recorded_exportFiles c c.files s')
  obtain ⟨ws, hext, hpre, -⟩ := (Recorded.transaction _ hbody).cells
  refine ⟨ws, ?_, hpre⟩
  unfold Store.recordExport
  split
  · next heq => rw [heq] at hext; exact hext
  · next heq => rw [heq] at hext; exact hext

end Lineage
