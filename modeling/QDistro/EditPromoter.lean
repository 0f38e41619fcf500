/-
# Landing an edited file

`promote_edit` of `qdistro_disposable_export`: the one file of the payload is copied into a
temporary inode in the directory of its source and linked under a name that is free; a lineage
sidecar is written beside it by `_write_file_atomic`.

The landing never takes the place of an entry, because `link` does not replace.  The sidecar does:
it is renamed over whatever has its name, and a temporary file of an earlier write is unlinked
first.  `edit_keeps_iff` says that these, and temporary files that cannot be removed, are all that
can go wrong (in `EditSafety`).
-/
import QDistro.ExportPayload

namespace DispExport

open EffectRules InodeFs

/-! ## The promoter -/

/-- `split_source_rel`: the directories and the leaf. -/
def splitSourceRel (sourceRel : String) : Except Failure (List String × String) :=
  if sourceRel = "" then .error .policy
  else if PyText.startswith sourceRel "/" then .error .policy
  else if '\x00' ∈ sourceRel.toList then .error .policy
  else
    let comps := (sourceRel.toList.splitOn '/').map String.ofList
    if comps.any fun p => p = "" || p = "." || p = ".." then .error .policy
    else
      let leaf := comps.getLastD ""
      if sanitizeFilename leaf = false then .error .policy else .ok (comps.dropLast, leaf)

/-- `_open_existing_dir_at` -/
def openExistingDirAt (parent : ℕ) (name : String) : Export ℕ := do
  let fd ← (openDirAt .openComponent parent name).mapError fun e =>
    if e = .eloop ∨ e = .enotdir then Failure.policy else .state
  raw (plain .fstatComponent)
  pure fd

/-- The source must still be a regular file. -/
def checkSource (parent : ℕ) (leaf : String) : Export Unit := do
  let n ← wrapped (lstatAt .lstatLeaf parent leaf)
  match n with
  | .file _ => pure ()
  | _ => throw .policy

/-- The name of the fallback's temporary file. -/
def namedTemp (n : ℕ) : String := ".disp-edited.tmp." ++ String.ofList (hexText 16 n)

/-- The fallback of `_open_writable_temp`: a named file, after as many tries. -/
def openNamedTemp (parent : ℕ) : ℕ → Export (ℕ × Option String)
  | 0 => throw .state
  | tries + 1 => do
    let n ← raw (urandom .randomName)
    let made ← (addAt .createNamed parent (namedTemp n) (.file [])).attempt
    match made with
    | .ok fd => pure (fd, some (namedTemp n))
    | .error .eexist => openNamedTemp parent tries
    | .error _ => throw .state

/-- `_open_writable_temp`: the inode, and its name in the fallback. -/
def openWritableTemp (parent : ℕ) : Export (ℕ × Option String) := do
  let made ← (tmpFile .openTmpfile parent).attempt
  match made with
  | .ok fd => pure (fd, none)
  | .error e =>
    if e = .eopnotsupp ∨ e = .eisdir ∨ e = .einval then openNamedTemp parent 100
    else throw .state

/-- `EDITED_SUFFIX` -/
def editedSuffix : String := ".disp-edited"

/-- The name of the landing after a number of collisions. -/
def landedName (leaf : String) (n : ℕ) : String :=
  if n = 0 then leaf ++ editedSuffix else leaf ++ editedSuffix ++ "-" ++ n.repr

/-- The loop of `_link_into_place` from a number of collisions on. -/
def linkFrom (parent fd : ℕ) (leaf : String) : ℕ → ℕ → Export String
  | 0, _ => throw .state
  | tries + 1, n => do
    let made ← (linkAt .linkEdited fd parent (landedName leaf n)).attempt
    match made with
    | .ok () => pure (landedName leaf n)
    | .error .eexist => linkFrom parent fd leaf tries (n + 1)
    | .error _ => throw .state

/-- `_link_into_place` -/
def linkIntoPlace (parent fd : ℕ) (leaf : String) : Export String := linkFrom parent fd leaf 1000 0

/-- What `promote_edit` is called with: the inodes of the payload and the silo's state, the
arguments, and the functions that it uses.  `surface` builds the bytes of the sidecar from the
landed name and the digest, and `none` where the receipt library raises. -/
structure EditCall where
  payloadDir : ℕ
  statePath : ℕ
  sourceRel : String
  caps : ExportCaps
  /-- An owner is given and the process is root. -/
  chown : Bool
  pid : ℕ
  sha256 : List UInt8 → String
  receiptCtx : Option (String → String → Option (List UInt8))

/-- The receipt: the source, the landed file with its size and digest, and whether a sidecar was
written. -/
structure EditReceipt where
  source : String
  file : Option (String × ℕ × String)
  sidecar : Bool
  deriving DecidableEq

/-- `_emit_edit_lineage_surface` -/
def emitEditLineageSurface (c : EditCall) (build : String → String → Option (List UInt8))
    (parent : ℕ) (landed digest : String) : Export Unit :=
  match build landed digest with
  | none => throw .state
  | some data => do
    writeFileAtomic c.pid c.chown parent (sidecarName landed) data
    setXattr parent landed

/-- The sidecar, if there is a context; its failure never fails the edit. -/
def editSidecar (c : EditCall) (parent : ℕ) (landed digest : String) : Export Bool :=
  match c.receiptCtx with
  | none => pure false
  | some build => do
    let done ← (emitEditLineageSurface c build parent landed digest).attempt
    pure done.isOk

/-- From the temporary inode to the durable landing. -/
def landEdit (c : EditCall) (parent fd : ℕ) (leaf payloadName : String) (size : ℕ) :
    Export EditReceipt := do
  maybeFchown c.chown
  let sfd ← raw (openAt .openSource c.payloadDir payloadName)
  let bytes ← Act.ensuring (do
    let n ← raw (fstat .fstatSource sfd)
    match n with
    | .file _ => streamToFd sfd fd size
    | _ => throw .policy) (raw (plain .closeSource))
  let landed ← linkIntoPlace parent fd leaf
  let sidecar ← editSidecar c parent landed (c.sha256 bytes)
  raw (plain .fsyncParent)
  pure ⟨c.sourceRel, some (landed, bytes.length, c.sha256 bytes), sidecar⟩

/-- The removal of the fallback's temporary file. -/
def unlinkTemp (parent : ℕ) (tmpname : Option String) : Export Unit :=
  match tmpname with
  | none => pure ()
  | some name => bestEffort (unlinkAt .unlinkNamed parent name)

/-- The part of `promote_edit` that reads only: the scan, the walk and the check of the source.
`none` is the payload without a file. -/
def findPlace (c : EditCall) (dirs : List String) (leaf : String) :
    Export (Option (ℕ × String × ℕ)) := do
  wrapped (openRoot .openPayload c.payloadDir)
  raw (plain .fstatPayload)
  let validated ← scanPayload c.caps c.payloadDir
  match validated with
  | [] => pure none
  | _ :: _ :: _ => throw .policy
  | [(name, size)] => do
    wrapped (openRoot .openState c.statePath)
    let parent ← dirs.foldlM openExistingDirAt c.statePath
    checkSource parent leaf
    pure (some (parent, name, size))

/-- The call, once the path of the source is split. -/
def landBeside (c : EditCall) (dirs : List String) (leaf : String) : Export EditReceipt := do
  let place ← findPlace c dirs leaf
  match place with
  | none => pure ⟨c.sourceRel, none, false⟩
  | some (parent, name, size) => do
    let (fd, tmpname) ← openWritableTemp parent
    (landEdit c parent fd leaf name size).ensuring (unlinkTemp parent tmpname)

/-- `promote_edit` -/
def promoteEdit (c : EditCall) : Export EditReceipt :=
  match splitSourceRel c.sourceRel with
  | .error e => throw e
  | .ok (dirs, leaf) => landBeside c dirs leaf

/-! ## What is to be kept -/

/-- The new entries of old directories are a landed file and its sidecar, in the directory of the
source. -/
def Added (fs fs' : Fs) (root : ℕ) (dirs : List String) (leaf : String) : Prop :=
  ∃ n, n < 1000 ∧ ∀ d name j, d < fs.next → fs'.entry d name = some j → fs.entry d name = none →
    resolve fs root dirs = some d ∧
      (name = landedName leaf n ∨ name = sidecarName (landedName leaf n))

/-- What an edit that comes back must keep. -/
def EditKeeps (fs fs' : Fs) (c : EditCall) : Prop :=
  Unchanged fs fs' ∧
    match splitSourceRel c.sourceRel with
    | .ok (dirs, leaf) => Added fs fs' c.statePath dirs leaf
    | .error _ => ∀ d name j, d < fs.next → fs'.entry d name = some j → fs.entry d name = some j

/-- **The condition.**  No entry that was there is removed or replaced, and no temporary file is
stuck. -/
def Clean (fs : Fs) (effects : List Effect) : Prop :=
  ∀ d name, (.removed d name ∈ effects ∨ .replaced d name ∈ effects → fs.entry d name = none) ∧
    (.stuck d name ∈ effects → fs.entry d name ≠ none)

end DispExport
