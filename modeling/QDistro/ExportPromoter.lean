/-
# Promoting an export

`promote_export` of `qdistro_disposable_export`: the payload is scanned, copied file by file into a
temporary directory beside the landing place, given its receipt and its lineage surfaces, and
renamed into place.  Where a step fails, the temporary directory is taken apart again through the
descriptors that are still open.

Two things go wrong.  Many calls stand outside a handler, so that their `OSError` leaves the
promoter as it is; the last of them, the `fsync` after the rename, does so when the directory is
already visible, and the clean-up then empties it.  And the surfaces are written with temporary
names that a payload file may have.
-/
import QDistro.ExportPayload

namespace DispExport

open EffectRules InodeFs

/-! ## The promoter -/

/-- What `promote_export` is called with.  `receiptBytes` is `json.dumps` of the receipt with the
files it lists; `receiptCtx` builds the bytes of the sidecars and the manifest, `none` where the
receipt library raises. -/
structure ExportCall where
  payloadDir : ℕ
  statePath : ℕ
  token8 : String
  timestamp : String
  openClass : String
  caps : ExportCaps
  chown : Bool
  pid : ℕ
  sha256 : List UInt8 → String
  receiptBytes : List (String × ℕ × String) → List UInt8
  receiptCtx : Option ((String → String → Option (List UInt8)) ×
    (List (String × ℕ × String) → Option (List UInt8)))

/-- `INCOMING_DIRNAME` -/
def incomingDirname : String := "Incoming"

/-- `sanitize_class_leaf` -/
def sanitizeClassLeaf (className : String) : Except Failure String :=
  let leaf := String.ofList (className.toList.flatMap fun c =>
    if c = '%' then ['%', '2', '5'] else if c = '/' then ['%', '2', 'F'] else [c])
  if leaf = "" ∨ leaf = "." ∨ leaf = ".." ∨ '/' ∈ leaf.toList ∨ '\x00' ∈ leaf.toList then
    .error .state
  else .ok leaf

/-- `_child_dir_at` -/
def childDirAt (chown : Bool) (parent : ℕ) (name : String) : Export ℕ := do
  let made ← (addAt .mkdirChild parent name (.dir ∅)).attempt
  match made with
  | .error .eexist => openChild false
  | .error _ => throw .state
  | .ok _ => openChild true
where
  /-- Open the directory; a new one is handed to the owner. -/
  openChild (created : Bool) : Export ℕ := do
    let fd ← (openDirAt .openChild parent name).mapError fun e =>
      if e = .eloop ∨ e = .enotdir then Failure.policy else .state
    raw (plain .fstatChild)
    if created then maybeFchown chown
    pure fd

/-- The name of the temporary directory. -/
def importTemp (token8 : String) (n : ℕ) : String :=
  ".import-" ++ token8 ++ "-" ++ String.ofList (hexText 12 n)

/-- `_mkdir_temp_at`, with as many tries. -/
def mkdirTempAt (parent : ℕ) (token8 : String) : ℕ → Export String
  | 0 => throw .state
  | tries + 1 => do
    let n ← raw (urandom .randomName)
    let made ← (addAt .mkdirTemp parent (importTemp token8 n) (.dir ∅)).attempt
    match made with
    | .ok _ => pure (importTemp token8 n)
    | .error .eexist => mkdirTempAt parent token8 tries
    | .error _ => throw .state

/-- `_copy_one`: the bytes that were copied. -/
def copyOne (c : ExportCall) (tmp : ℕ) (name : String) (size : ℕ) : Export (List UInt8) := do
  let sfd ← (openAt .openSource c.payloadDir name).mapError fun e =>
    if e = .eloop then Failure.policy else .state
  Act.ensuring (do
    let n ← raw (fstat .fstatSource sfd)
    match n with
    | .file _ => do
      let dfd ← raw (addAt .createDest tmp name (.file []))
      Act.ensuring (do
        maybeFchown c.chown
        streamToFd sfd dfd size) (raw (plain .closeDest))
    | _ => throw .policy) (raw (plain .closeSource))

/-- One file of the loop of `promote_export`. -/
def copyFile (c : ExportCall) (tmp : ℕ) (files : List (String × ℕ × String))
    (entry : String × ℕ) : Export (List (String × ℕ × String)) := do
  let bytes ← copyOne c tmp entry.1 entry.2
  pure (files ++ [(entry.1, bytes.length, c.sha256 bytes)])

/-- `_write_receipt_at` -/
def writeReceiptAt (chown : Bool) (tmp : ℕ) (data : List UInt8) : Export Unit := do
  let fd ← wrapped (addAt .createReceipt tmp receiptName (.file []))
  Act.ensuring (do
    maybeFchown chown
    writeAll .writeReceipt fd data.length data
    raw (plain .fsyncReceipt)) (raw (plain .closeReceipt))

/-- One surface: build it, write it. -/
def emitSurface (c : ExportCall) (tmp : ℕ) (base : String) (data : Option (List UInt8)) :
    Export Unit :=
  match data with
  | none => throw .state
  | some data => writeFileAtomic c.pid c.chown tmp base data

/-- `_emit_lineage_surfaces` -/
def emitLineageSurfaces (c : ExportCall) (ctx : (String → String → Option (List UInt8)) ×
      (List (String × ℕ × String) → Option (List UInt8)))
    (tmp : ℕ) (files : List (String × ℕ × String)) : Export Unit := do
  let _ ← files.foldlM (fun (_ : Unit) f => do
    emitSurface c tmp (sidecarName f.1) (ctx.1 f.1 f.2.2)
    setXattr tmp f.1) ()
  emitSurface c tmp lineageManifestName (ctx.2 files)

/-- The surfaces, if there is a context; their failure never fails the export. -/
def exportSurfaces (c : ExportCall) (tmp : ℕ) (files : List (String × ℕ × String)) : Export Bool :=
  match c.receiptCtx with
  | none => pure false
  | some ctx => do
    let done ← (emitLineageSurfaces c ctx tmp files).attempt
    pure done.isOk

/-- The name of the landing after a number of collisions. -/
def finalName (c : ExportCall) (n : ℕ) : String :=
  if n = 0 then c.token8 ++ "-" ++ c.timestamp else c.token8 ++ "-" ++ c.timestamp ++ "-" ++ n.repr

/-- The loop of `_place_at` from a number of collisions on. -/
def freeName (c : ExportCall) (cls : ℕ) : ℕ → ℕ → Export String
  | 0, _ => throw .state
  | tries + 1, n => do
    let found ← (lstatAt .lstatTarget cls (finalName c n)).attempt
    match found with
    | .error .enoent => pure (finalName c n)
    | .error e => throw (.os e)
    | .ok _ => freeName c cls tries (n + 1)

/-- `_place_at` -/
def placeAt (c : ExportCall) (cls : ℕ) (tmpname : String) : Export String := do
  let target ← freeName c cls 1000 0
  wrapped (renameAt .renameTemp cls tmpname target)
  pure target

/-- Unlink what can be unlinked. -/
def unlinkEach (tmp : ℕ) : List String → Export Unit
  | [] => pure ()
  | name :: rest => do
    bestEffort (unlinkAt .unlinkTemp tmp name)
    unlinkEach tmp rest

/-- `_cleanup_temp_at` -/
def cleanupTempAt (cls : ℕ) (tmp : Option ℕ) (tmpname : String) : Export Unit := do
  match tmp with
  | none => pure ()
  | some tmp => do
    let names ← (listDir .listTemp tmp).attempt
    match names with
    | .ok names => unlinkEach tmp names
    | .error _ => pure ()
  bestEffort (rmdirAt .rmdirTemp cls tmpname)

/-- The receipt that is returned: the files, the name of the landing, and whether there are
surfaces. -/
structure ExportReceipt where
  files : List (String × ℕ × String)
  dest : String
  surfaces : Bool
  deriving DecidableEq

/-- From the open temporary directory to the landing. -/
def fillAndPlace (c : ExportCall) (cls tmp : ℕ) (tmpname : String)
    (validated : List (String × ℕ)) : Export ExportReceipt := do
  maybeFchown c.chown
  let files ← validated.foldlM (copyFile c tmp) []
  writeReceiptAt c.chown tmp (c.receiptBytes files)
  let surfaces ← exportSurfaces c tmp files
  raw (plain .fsyncTemp)
  let dest ← placeAt c cls tmpname
  raw (plain .fsyncClass)
  pure ⟨files, dest, surfaces⟩

/-- From the temporary name to the landing, with the clean-up where it is not reached. -/
def landIn (c : ExportCall) (cls : ℕ) (tmpname : String) (validated : List (String × ℕ)) :
    Export ExportReceipt := do
  let opened ← (openDirAt .openTemp cls tmpname).attempt
  match opened with
  | .error _ => do
    cleanupTempAt cls none tmpname
    throw .state
  | .ok tmp =>
    (fillAndPlace c cls tmp tmpname validated).orElse fun e => do
      cleanupTempAt cls (some tmp) tmpname
      throw e

/-- The call, once the class has its leaf. -/
def landUnder (c : ExportCall) (leaf : String) : Export ExportReceipt := do
  wrapped (openRoot .openPayload c.payloadDir)
  raw (plain .fstatPayload)
  let validated ← scanPayload c.caps c.payloadDir
  wrapped (openRoot .openState c.statePath)
  let inc ← childDirAt c.chown c.statePath incomingDirname
  let cls ← childDirAt c.chown inc leaf
  let tmpname ← mkdirTempAt cls c.token8 100
  landIn c cls tmpname validated

/-- `promote_export` -/
def promoteExport (c : ExportCall) : Export ExportReceipt :=
  match sanitizeClassLeaf c.openClass with
  | .error e => throw e
  | .ok leaf => landUnder c leaf

end DispExport
