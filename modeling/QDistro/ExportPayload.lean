/-
# The payload of a disposable

The parts of `qdistro_disposable_export` that both promoters share: the hygiene of names, the scan
of the payload directory and the copy of one open file to another.  The payload and the silo are
directories of one file system (`InodeFs`), and every system call may fail.

The promoters raise `ExportPolicyError`, `ExportStateError`, or, where a call stands outside a
handler, the `OSError` itself.
-/
import Mathlib.Algebra.Ring.Nat
import Mathlib.Data.List.Sort
import QDistro.InodeFs
import QDistro.PyText

namespace DispExport

open EffectRules InodeFs

/-! ## Errors and places -/

/-- What a promoter raises. -/
inductive Failure
  /-- `ExportPolicyError` -/
  | policy
  /-- `ExportStateError` -/
  | state
  /-- An `OSError` that no handler translates. -/
  | os (e : Errno)
  deriving DecidableEq

/-- The places of system calls. -/
inductive Site
  | openPayload
  | fstatPayload
  | listPayload
  | lstatEntry
  | openState
  | openSource
  | fstatSource
  | readSource
  | closeSource
  | fchown
  | writeDest
  | fsyncDest
  -- `promote_edit`
  | openComponent
  | fstatComponent
  | lstatLeaf
  | openTmpfile
  | randomName
  | createNamed
  | linkEdited
  | fsyncParent
  | unlinkNamed
  -- `promote_export`
  | mkdirChild
  | openChild
  | fstatChild
  | mkdirTemp
  | openTemp
  | createDest
  | closeDest
  | createReceipt
  | writeReceipt
  | fsyncReceipt
  | closeReceipt
  | fsyncTemp
  | lstatTarget
  | renameTemp
  | fsyncClass
  | listTemp
  | unlinkTemp
  | rmdirTemp
  -- `_write_file_atomic`
  | createSurface
  | unlinkStale
  | writeSurface
  | fsyncSurface
  | closeSurface
  | renameSurface
  | fsyncSurfaceDir
  | unlinkSurface
  | openTagged
  | setXattr
  deriving DecidableEq

/-- A computation of a promoter. -/
abbrev Export (α : Type) : Type := Act (World Site) Failure α

variable {α : Type}

/-- A call in a handler that raises `ExportStateError`. -/
def wrapped (x : Sys Site α) : Export α := x.mapError fun _ => .state

/-- A call without a handler. -/
def raw (x : Sys Site α) : Export α := x.mapError .os

/-- A call whose `OSError` is swallowed. -/
def bestEffort (x : Sys Site Unit) : Export Unit := (raw x).orElse fun _ => pure ()

/-! ## Names -/

/-- `RECEIPT_NAME` -/
def receiptName : String := "_receipt.json"

/-- `LINEAGE_SIDECAR_SUFFIX` -/
def lineageSidecarSuffix : String := ".qdistro-lineage.json"

/-- `LINEAGE_MANIFEST_NAME` -/
def lineageManifestName : String := "qdistro-export-manifest.json"

/-- `sanitize_filename(name) is not None` -/
def sanitizeFilename (name : String) : Bool :=
  name ≠ "" && name ≠ "." && name ≠ ".." && name.toList.all (fun c => c ≠ '/' && c ≠ '\x00') &&
    name.toList.all (fun c => !(c.toNat < 0x20 || c.toNat = 0x7f)) && name ≠ receiptName &&
    name ≠ lineageManifestName && !(lineageSidecarSuffix.toList.isSuffixOf name.toList)

/-- The digits of a number in base 16, lower case, in a fixed width. -/
def hexText : ℕ → ℕ → List Char
  | 0, _ => []
  | width + 1, n => hexText width (n / 16) ++ [Nat.digitChar (n % 16)]

/-! ## The scan -/

/-- `ExportCaps` -/
structure ExportCaps where
  maxFiles : ℕ := 256
  maxFileBytes : ℕ := 256 * 1024 * 1024
  maxTotalBytes : ℕ := 1024 * 1024 * 1024

/-- The names and sizes that have passed, and the total so far. -/
abbrev Scanned : Type := List (String × ℕ) × ℕ

/-- One entry of the loop of `_scan_payload`. -/
def scanEntry (caps : ExportCaps) (pdir : ℕ) (acc : Scanned) (name : String) : Export Scanned :=
  if caps.maxFiles ≤ acc.1.length then throw .policy
  else if sanitizeFilename name = false then throw .policy
  else do
    let n ← wrapped (lstatAt .lstatEntry pdir name)
    match n with
    | .file bytes =>
      if caps.maxFileBytes < bytes.length then throw .policy
      else if caps.maxTotalBytes < acc.2 + bytes.length then throw .policy
      else pure (acc.1 ++ [(name, bytes.length)], acc.2 + bytes.length)
    | _ => throw .policy

/-- `_scan_payload` -/
def scanPayload (caps : ExportCaps) (pdir : ℕ) : Export (List (String × ℕ)) := do
  let names ← wrapped (listDir .listPayload pdir)
  let acc ← (names.insertionSort (· ≤ ·)).foldlM (scanEntry caps pdir) ([], 0)
  pure acc.1

/-! ## The copy -/

/-- `_CHUNK` -/
def chunkSize : ℕ := 1024 * 1024

/-- `while off < len(chunk): off += os.write(dfd, chunk[off:])` -/
def writeAll (site : Site) (dfd : ℕ) : ℕ → List UInt8 → Export Unit
  | 0, _ => pure ()
  | fuel + 1, data =>
    if data = [] then pure ()
    else do
      let k ← raw (write site dfd data)
      writeAll site dfd fuel (data.drop k)

/-- The loop of `_stream_to_fd` from an offset: the bytes read from there on.  A read returns at
least one byte before the end of the file, so that the length of the file bounds the rounds. -/
def streamFrom (sfd dfd maxBytes : ℕ) : ℕ → ℕ → Export (List UInt8)
  | 0, _ => pure []
  | fuel + 1, offset => do
    let chunk ← raw (readAt .readSource sfd offset chunkSize)
    if chunk = [] then pure []
    else if maxBytes < offset + chunk.length then throw .policy
    else do
      writeAll .writeDest dfd chunk.length chunk
      let rest ← streamFrom sfd dfd maxBytes fuel (offset + chunk.length)
      pure (chunk ++ rest)

/-- `_stream_to_fd`: the bytes that were copied. -/
def streamToFd (sfd dfd maxBytes : ℕ) : Export (List UInt8) := do
  let w ← Act.get
  let bytes ← streamFrom sfd dfd maxBytes ((w.fs.bytes sfd).length + 1) 0
  raw (plain .fsyncDest)
  pure bytes

/-- `_maybe_fchown` -/
def maybeFchown (chown : Bool) : Export Unit :=
  if chown then bestEffort (plain .fchown) else pure ()

/-! ## Lineage surfaces -/

/-- `sidecar_name` -/
def sidecarName (name : String) : String := name ++ lineageSidecarSuffix

/-- The temporary name of `_write_file_atomic`. -/
def surfaceTemp (pid : ℕ) (base : String) : String := "." ++ base ++ ".qdtmp." ++ pid.repr

theorem length_sidecarName (name : String) : (sidecarName name).length = name.length + 21 := by
  have hsuffix : lineageSidecarSuffix.length = 21 := by decide
  rw [sidecarName, String.length_append, hsuffix]

theorem length_surfaceTemp (pid : ℕ) (base : String) :
    base.length + 8 ≤ (surfaceTemp pid base).length := by
  have hdot : ".".length = 1 := by decide
  have hmid : ".qdtmp.".length = 7 := by decide
  simp only [surfaceTemp, String.length_append, hdot, hmid]
  omega

/-- Create the temporary file; a stale one is removed first. -/
def createSurface (d : ℕ) (tmp : String) : Sys Site ℕ :=
  (addAt .createSurface d tmp (.file [])).orElse fun e =>
    if e = .eexist then do
      unlinkAt .unlinkStale d tmp
      addAt .createSurface d tmp (.file [])
    else throw e

/-- The steps of `_write_file_atomic` up to the rename. -/
def publishSurface (chown : Bool) (d : ℕ) (tmp base : String) (data : List UInt8) : Export Unit := do
  let fd ← raw (createSurface d tmp)
  Act.ensuring (do
    maybeFchown chown
    let _ ← raw (write .writeSurface fd data)
    raw (plain .fsyncSurface)) (raw (plain .closeSurface))
  raw (renameAt .renameSurface d tmp base)

/-- `_write_file_atomic` in a directory: where it did not publish, the temporary file is
unlinked. -/
def writeFileAtomic (pid : ℕ) (chown : Bool) (d : ℕ) (base : String) (data : List UInt8) :
    Export Unit := do
  (publishSurface chown d (surfaceTemp pid base) base data).orElse fun e => do
    bestEffort (unlinkAt .unlinkSurface d (surfaceTemp pid base))
    throw e
  raw (plain .fsyncSurfaceDir)

/-- `set_xattr` on an artifact in a directory. -/
def setXattr (d : ℕ) (name : String) : Export Unit :=
  bestEffort (do
    let _ ← openAt .openTagged d name
    plain .setXattr)

/-! ## What only reads -/

theorem quiet_wrapped {x : Sys Site α} (h : Quiet x) : Quiet (wrapped x) := h.mapError

theorem quiet_raw {x : Sys Site α} (h : Quiet x) : Quiet (raw x) := h.mapError

theorem quiet_bestEffort {x : Sys Site Unit} (h : Quiet x) : Quiet (bestEffort x) :=
  (quiet_raw h).tryCatch fun _ => .pure

theorem quiet_scanPayload (caps : ExportCaps) (pdir : ℕ) : Quiet (scanPayload caps pdir) := by
  unfold scanPayload
  refine (quiet_wrapped (quiet_look _ _)).bind fun names => ?_
  refine (Preserves.foldlM (fun acc name => ?_) _ _).bind fun acc => Preserves.pure
  unfold scanEntry
  refine Preserves.throw.ite (Preserves.throw.ite ?_)
  refine (quiet_wrapped (quiet_look _ _)).bind fun n => ?_
  cases n with
  | file bytes => exact Preserves.throw.ite (Preserves.throw.ite Preserves.pure)
  | _ => exact Preserves.throw

theorem quiet_maybeFchown (chown : Bool) : Quiet (maybeFchown chown) :=
  (quiet_bestEffort (quiet_look _ _)).ite Preserves.pure

end DispExport
