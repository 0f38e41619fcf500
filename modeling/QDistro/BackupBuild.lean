/-
# Building a manifest and reading it back

`build_manifest`, `manifest_canonical_bytes` and `parse_manifest` over the bytes of a file.  What
`cmd_backup` writes is read back as it was built (`parse_canonical`), and the canonical bytes of
what was read are the bytes of the file.
-/
import QDistro.BackupRestore
import QDistro.CanonicalJson
import QDistro.Sha256

namespace Backup

open JsonText

/-! ## JSON values -/

def viewJson : Json → View String Json
  | .null => .null
  | .bool b => .bool b
  | .int n => .int n
  | .float f => .float f
  | .str s => .str s
  | .arr items => .list items
  | .obj fields => .dict fields

def makeJson : View String Json → Json
  | .null => .null
  | .bool b => .bool b
  | .int n => .int n
  | .float f => .float f
  | .str s => .str s
  | .list items => .arr items
  | .dict fields => .obj fields

theorem view_makeJson (v : View String Json) : viewJson (makeJson v) = v := by
  cases v <;> rfl

def codesOf (s : String) : List ℕ := s.toList.map Char.toNat

def jsonFormat : Format String Json where
  view := viewJson
  make := makeJson
  codes := codesOf
  literal := id
  view_make := view_makeJson

/-- `manifest_canonical_bytes` -/
def canonicalJson (d : Json) : Bytes := utf8Bytes (dumpsSorted compactSeps d)

/-- `sha256_hex` -/
def sha256Hex (b : Bytes) : String := String.ofList (Sha256.hexBytes b)

/-- `manifest_sha256` -/
def manifestSha256 (d : Json) : String := sha256Hex (canonicalJson d)

/-- `parse_manifest` -/
def parseManifest (b : Bytes) : Except ManifestError (Manifest String Json) :=
  match (utf8Text b).bind loads with
  | some d => readManifest jsonFormat d
  | none => .error .malformed

/-- `build_manifest` -/
def buildManifest (seq : ℤ) (hostId : String) (createdAt : ℤ) (entries : List (Entry String))
    (prev : Option String) : Json :=
  .obj [("version", .int 1), ("seq", .int seq), ("created_at", .int createdAt),
    ("host_id", .str hostId), ("entries", .arr (entries.map (entryDoc jsonFormat))),
    ("prev_manifest_sha256", optional jsonFormat prev)]

/-! ## What is written is read back -/

/-- An entry that `build_entry` returns. -/
structure Entry.Wf (e : Entry String) : Prop where
  subvol : safeComponent (codesOf e.subvol) = true
  blob : safeComponent (codesOf e.blob) = true
  parent : ∀ p ∈ e.parentBlob, safeComponent (codesOf p) = true
  sha256 : isSha256Text (codesOf e.sha256) = true

theorem sortKeys_optional (s : Option String) :
    sortKeys (optional jsonFormat s) = optional jsonFormat s := by
  cases s with
  | none =>
    show sortKeys .null = .null
    simp [sortKeys]
  | some s => exact sortKeys_str s

theorem distinct_optional (s : Option String) : Distinct (optional jsonFormat s) := by
  cases s with
  | none => simp [optional, jsonFormat, makeJson, Distinct]
  | some s => simp [optional, jsonFormat, makeJson, Distinct]

theorem sortKeys_entryDoc (e : Entry String) :
    sortKeys (entryDoc jsonFormat e) = .obj [("blob", .str e.blob),
      ("parent_blob", optional jsonFormat e.parentBlob), ("sha256", .str e.sha256),
      ("size", .int e.size), ("subvol", .str e.subvol)] := by
  show sortKeys (.obj [("subvol", .str e.subvol), ("blob", .str e.blob), ("sha256", .str e.sha256),
    ("size", .int e.size), ("parent_blob", optional jsonFormat e.parentBlob)]) = _
  simp [sortKeys, sortKeysFields, sortKeys_optional, sortFields, List.insertionSort,
    List.orderedInsert]

theorem distinct_entryDoc (e : Entry String) : Distinct (entryDoc jsonFormat e) := by
  show Distinct (.obj [("subvol", .str e.subvol), ("blob", .str e.blob), ("sha256", .str e.sha256),
    ("size", .int e.size), ("parent_blob", optional jsonFormat e.parentBlob)])
  simp [Distinct, DistinctFields, distinct_optional]

theorem readEntry_sortKeys {e : Entry String} (h : e.Wf) :
    readEntry jsonFormat (sortKeys (entryDoc jsonFormat e)) = some e := by
  have hparent : optionalComponent jsonFormat (viewJson (optional jsonFormat e.parentBlob)) =
      some e.parentBlob := by
    cases hp : e.parentBlob with
    | none => rfl
    | some p =>
      show ((if safeComponent (codesOf p) = true then some p else none).map some) = _
      rw [if_pos (h.parent p hp)]
      rfl
  have hsubvol : component jsonFormat (.str e.subvol) = some e.subvol := if_pos h.subvol
  have hblob : component jsonFormat (.str e.blob) = some e.blob := if_pos h.blob
  have hsha : sha256Field jsonFormat (.str e.sha256) = some e.sha256 := if_pos h.sha256
  have hsize : sizeField (.int e.size : View String Json) = some e.size := by
    rw [sizeField, if_pos (Int.natCast_nonneg _), Int.toNat_natCast]
  have hbuild : buildEntry jsonFormat (.str e.subvol) (.str e.blob) (.str e.sha256) (.int e.size)
      (viewJson (optional jsonFormat e.parentBlob)) = some e := by
    rw [buildEntry, hsubvol, hblob, hparent, hsha, hsize]
    rfl
  rw [sortKeys_entryDoc]
  exact hbuild

theorem mapM_readEntry {entries : List (Entry String)} (h : ∀ e ∈ entries, e.Wf) :
    (entries.map fun e => sortKeys (entryDoc jsonFormat e)).mapM (readEntry jsonFormat) =
      some entries := by
  induction entries with
  | nil => rfl
  | cons e es ih =>
    rw [List.map_cons, List.mapM_cons, readEntry_sortKeys (h e List.mem_cons_self),
      ih (fun e' he' => h e' (List.mem_cons_of_mem _ he'))]
    rfl

theorem readManifest_obj {fields : List (String × Json)} {m : Manifest String Json}
    (h : readFields jsonFormat fields = some m) :
    readManifest jsonFormat (.obj fields) = .ok m := by
  have hview : jsonFormat.view (.obj fields) = .dict fields := rfl
  rw [readManifest, hview]
  dsimp only
  rw [h]

theorem sortKeys_buildManifest (seq : ℤ) (hostId : String) (createdAt : ℤ)
    (entries : List (Entry String)) (prev : Option String) :
    sortKeys (buildManifest seq hostId createdAt entries prev) =
      .obj [("created_at", .int createdAt),
        ("entries", .arr (entries.map fun e => sortKeys (entryDoc jsonFormat e))),
        ("host_id", .str hostId), ("prev_manifest_sha256", optional jsonFormat prev),
        ("seq", .int seq), ("version", .int 1)] := by
  simp [buildManifest, sortKeys, sortKeysFields, sortKeys_optional, sortFields,
    List.insertionSort, List.orderedInsert, sortKeysItems_eq_map, Function.comp_def]

theorem distinct_buildManifest (seq : ℤ) (hostId : String) (createdAt : ℤ)
    (entries : List (Entry String)) (prev : Option String) :
    Distinct (buildManifest seq hostId createdAt entries prev) := by
  have hitems : DistinctItems (entries.map (entryDoc jsonFormat)) := by
    rw [distinctItems_iff]
    intro v hv
    obtain ⟨e, -, rfl⟩ := List.mem_map.mp hv
    exact distinct_entryDoc e
  simp [buildManifest, Distinct, DistinctFields, hitems, distinct_optional]

/-- The manifest that is read back. -/
def readBack (seq : ℤ) (hostId : String) (createdAt : ℤ) (entries : List (Entry String))
    (prev : Option String) : Manifest String Json :=
  ⟨seq, hostId, entries, prev, .obj [("created_at", .int createdAt),
    ("entries", .arr (entries.map (entryDoc jsonFormat))), ("host_id", .str hostId),
    ("prev_manifest_sha256", optional jsonFormat prev), ("seq", .int seq), ("version", .int 1)]⟩

theorem canonical_readBack (seq : ℤ) (hostId : String) (createdAt : ℤ)
    (entries : List (Entry String)) (prev : Option String) :
    canonicalJson (readBack seq hostId createdAt entries prev).doc =
      canonicalJson (buildManifest seq hostId createdAt entries prev) := by
  have hsort : sortKeys (readBack seq hostId createdAt entries prev).doc =
      sortKeys (buildManifest seq hostId createdAt entries prev) := by
    rw [sortKeys_buildManifest]
    simp [readBack, sortKeys, sortKeysFields, sortKeys_optional, sortFields,
      List.insertionSort, sortKeysItems_eq_map, Function.comp_def]
  rw [canonicalJson, canonicalJson, dumpsSorted, dumpsSorted, hsort]

/-- **What is built is read back.** -/
theorem parse_canonical (seq : ℤ) (hostId : String) (createdAt : ℤ)
    {entries : List (Entry String)} (prev : Option String) (h : ∀ e ∈ entries, e.Wf) :
    parseManifest (canonicalJson (buildManifest seq hostId createdAt entries prev)) =
      .ok (readBack seq hostId createdAt entries prev) := by
  have hload : (utf8Text (canonicalJson (buildManifest seq hostId createdAt entries prev))).bind
      loads = some (sortKeys (buildManifest seq hostId createdAt entries prev)) := by
    rw [canonicalJson, utf8Text_utf8Bytes, Option.bind_some,
      loads_dumpsSorted compactSeps (distinct_buildManifest seq hostId createdAt entries prev)]
  have hprev : prevField (viewJson (optional jsonFormat prev)) = some prev := by
    cases prev <;> rfl
  have hread : readFields jsonFormat [("created_at", .int createdAt),
      ("entries", .arr (entries.map fun e => sortKeys (entryDoc jsonFormat e))),
      ("host_id", .str hostId), ("prev_manifest_sha256", optional jsonFormat prev),
      ("seq", .int seq), ("version", .int 1)] =
      some (readBack seq hostId createdAt entries prev) := by
    show ((entries.map fun e => sortKeys (entryDoc jsonFormat e)).mapM (readEntry jsonFormat)).bind
      (fun entries => (prevField (viewJson (optional jsonFormat prev))).bind fun prev => some _) = _
    rw [mapM_readEntry h, hprev]
    rfl
  rw [parseManifest, hload, sortKeys_buildManifest]
  exact readManifest_obj hread

end Backup
