/-
# Backup runs into one directory

`_parse_subvol_spec` and `cmd_backup`, and sequences of successful runs that are each given the
manifest of the run before.  The blob of a subvolume is named after the subvolume and the number of
the run, so that a name that is given twice in one run overwrites its own blob.  Up to that, and
with one host and signatures where they are checked, what the runs leave verifies
(`backups_restorable_iff`).
-/
import QDistro.BackupTarget
import Mathlib.Data.List.Chain

namespace Backup

open EffectRules PyDict
open JsonText
open List hiding lookup

/-! ## `cmd_backup` -/

/-- What a run is given, and what the outside does for it. -/
structure BackupArgs where
  seq : ℤ
  hostId : String
  createdAt : ℤ
  /-- `--subvol`, as given. -/
  specs : List String
  /-- Whether there is a `--sign-key`. -/
  signs : Bool
  /-- What the `i`-th `_encrypt_to_blob` writes, or `none` where it raises. -/
  send : ℕ → Option Bytes

/-- `ssh-keygen -Y` with the key of the host and the signers pinned to it. -/
structure Signer where
  sign : Bytes → Option Bytes
  verify : Bytes → Bytes → Bool
  verify_sign : ∀ canonical signature, sign canonical = some signature →
    verify canonical signature = true

/-- The name, the source and the parent source, where one is given. -/
def checkedSpec (name source : List Char) (parent : Option (List Char)) :
    Option (String × String × Option String) :=
  if safeComponent (name.map Char.toNat) = true then
    some (String.ofList name, String.ofList source, parent.map String.ofList)
  else none

/-- `_parse_subvol_spec` -/
def parseSubvolSpec (spec : String) : Option (String × String × Option String) :=
  match PyText.split ':' spec.length spec.toList with
  | [name, source] => checkedSpec name source none
  | [name, source, parent] =>
    checkedSpec name source (if parent.isEmpty then none else some parent)
  | _ => none

def blobName (name : String) (seq : ℤ) : String :=
  name ++ "-" ++ String.ofList (intText seq) ++ ".btrfs.age"

/-- `parent_blob_map` -/
def parentsOf (entries : List (Entry String)) : List (String × String) :=
  entries.foldl (fun d e => PyDict.put d e.subvol e.blob) []

/-- The blob of the parent, where the send is incremental. -/
def parentBlob (parents : List (String × String)) (name : String) (parent : Option String) :
    Option (Option String) :=
  match parent with
  | none => some none
  | some _ => (PyDict.lookup parents name).map some

/-- One subvolume of a run. -/
def sendOne (r : BackupArgs) (parents : List (String × String)) (i : ℕ) (spec : String)
    (dir : Dir) : Option (Dir × Entry String) := do
  let p ← parseSubvolSpec spec
  let parent ← parentBlob parents p.1 p.2.2
  let blob ← r.send i
  let e ← buildEntry jsonFormat (.str p.1) (.str (blobName p.1 r.seq)) (.str (sha256Hex blob))
    (.int blob.length) (viewJson (optional jsonFormat parent))
  some (PyDict.put dir (blobName p.1 r.seq) blob, e)

def sendAll (r : BackupArgs) (parents : List (String × String)) :
    ℕ → List String → Dir → Option (Dir × List (Entry String))
  | _, [], dir => some (dir, [])
  | i, spec :: rest, dir => do
    let one ← sendOne r parents i spec dir
    let all ← sendAll r parents (i + 1) rest one.1
    some (all.1, one.2 :: all.2)

/-- The digest of the previous manifest, and the blobs it holds. -/
def previous (prev : Option Bytes) : Option (Option String × List (String × String)) :=
  match prev with
  | none => some (none, [])
  | some bytes =>
    match parseManifest bytes with
    | .ok m => some (some (sha256Hex bytes), parentsOf m.entries)
    | .error _ => none

/-- The manifest written, and signed where there is a key. -/
def publish (K : Signer) (r : BackupArgs) (canonical : Bytes) (dir : Dir) : Option Dir :=
  if r.signs = true then
    (K.sign canonical).map fun signature =>
      PyDict.put (PyDict.put dir (manifestName r.seq) canonical) (manifestName r.seq ++ ".sig")
        signature
  else some (PyDict.put dir (manifestName r.seq) canonical)

/-- `cmd_backup`: the directory it leaves and the manifest it wrote, or `none` where it raises. -/
def cmdBackup (K : Signer) (prev : Option Bytes) (r : BackupArgs) (dir : Dir) :
    Option (Dir × Bytes) := do
  let p ← previous prev
  let sent ← sendAll r p.2 0 r.specs dir
  if r.seq < 0 then none
  else do
    let canonical := canonicalJson (buildManifest r.seq r.hostId r.createdAt sent.2 p.1)
    let dir' ← publish K r canonical sent.1
    some (dir', canonical)

/-- Runs one after the other, each with the manifest of the one before. -/
def backups (K : Signer) : Option Bytes → List BackupArgs → Dir → Option Dir
  | _, [], dir => some dir
  | prev, r :: rest, dir => do
    let done ← cmdBackup K prev r dir
    backups K (some done.2) rest done.1

/-! ## What a run sends -/

structure Send where
  name : String
  incremental : Bool
  blob : Bytes

/-- What the specifications from the `i`-th on say, with the blobs that are sent for them. -/
def sendsFrom (r : BackupArgs) : ℕ → List String → List Send
  | _, [] => []
  | i, spec :: rest =>
    match parseSubvolSpec spec, r.send i with
    | some p, some blob => ⟨p.1, p.2.2.isSome, blob⟩ :: sendsFrom r (i + 1) rest
    | _, _ => sendsFrom r (i + 1) rest

def BackupArgs.sends (r : BackupArgs) : List Send := sendsFrom r 0 r.specs

/-- The entry of a send. -/
def entryOf (seq : ℤ) (parents : List (String × String)) (s : Send) : Entry String :=
  ⟨s.name, blobName s.name seq, sha256Hex s.blob, s.blob.length,
    if s.incremental = true then PyDict.lookup parents s.name else none⟩

/-- Files written in order. -/
def putAll (dir : Dir) (writes : List (String × Bytes)) : Dir :=
  writes.foldl (fun d w => PyDict.put d w.1 w.2) dir

/-- A run that succeeded, with the digest and the blobs of the manifest before it. -/
structure Made where
  args : BackupArgs
  prev : Option String
  parents : List (String × String)
  signature : Option Bytes

def Made.entries (m : Made) : List (Entry String) :=
  m.args.sends.map (entryOf m.args.seq m.parents)

def Made.bytes (m : Made) : Bytes :=
  canonicalJson (buildManifest m.args.seq m.args.hostId m.args.createdAt m.entries m.prev)

def Made.manifest (m : Made) : Manifest String Json :=
  readBack m.args.seq m.args.hostId m.args.createdAt m.entries m.prev

def blobWrites (seq : ℤ) (sends : List Send) : List (String × Bytes) :=
  sends.map fun s => (blobName s.name seq, s.blob)

def Made.writes (m : Made) : List (String × Bytes) :=
  blobWrites m.args.seq m.args.sends ++ (manifestName m.args.seq, m.bytes) ::
    m.signature.toList.map fun signature => (manifestName m.args.seq ++ ".sig", signature)

/-- What is known of a run that succeeded. -/
structure Made.Ok (K : Signer) (m : Made) : Prop where
  seq : 0 ≤ m.args.seq
  wf : ∀ e ∈ m.entries, e.Wf
  anchored : ∀ s ∈ m.args.sends, s.incremental = true →
    (PyDict.lookup m.parents s.name).isSome = true
  signature : if m.args.signs = true then (m.signature).isSome = true ∧ K.sign m.bytes = m.signature
    else m.signature = none

/-- Each run was given the manifest of the one before. -/
def Follows : Option Made → List Made → Prop
  | _, [] => True
  | p, m :: rest => m.prev = p.map (fun p => sha256Hex p.bytes) ∧
      m.parents = (p.map fun p => parentsOf p.entries).getD [] ∧ Follows (some m) rest

theorem component_str {s s' : String} (h : component jsonFormat (.str s) = some s') :
    s' = s ∧ safeComponent (codesOf s) = true := by
  have hcond : safeComponent (codesOf s) = true := by
    by_contra hnot
    have hnone : component jsonFormat (.str s) = none := if_neg hnot
    rw [hnone] at h
    cases h
  have hsome : component jsonFormat (.str s) = some s := if_pos hcond
  rw [hsome] at h
  exact ⟨(Option.some.inj h).symm, hcond⟩

theorem optionalComponent_optional {s s' : Option String}
    (h : optionalComponent jsonFormat (viewJson (optional jsonFormat s)) = some s') :
    s' = s ∧ ∀ t ∈ s, safeComponent (codesOf t) = true := by
  cases s with
  | none =>
    cases h
    exact ⟨rfl, fun t ht => (by cases ht)⟩
  | some t =>
    obtain ⟨t', ht', rfl⟩ := Option.map_eq_some_iff.mp h
    obtain ⟨rfl, hsafe⟩ := component_str ht'
    refine ⟨rfl, fun t ht => ?_⟩
    cases ht
    exact hsafe

theorem buildEntry_eq {subvol blob sha : String} {size : ℕ} {parent : Option String}
    {e : Entry String} (h : buildEntry jsonFormat (.str subvol) (.str blob) (.str sha)
      (.int size) (viewJson (optional jsonFormat parent)) = some e) :
    e = ⟨subvol, blob, sha, size, parent⟩ ∧ e.Wf := by
  simp only [buildEntry, Option.bind_eq_bind, Option.bind_eq_some_iff] at h
  obtain ⟨subvol', hsubvol, blob', hblob, parent', hparent, sha', hsha, size', hsize, h⟩ := h
  obtain ⟨rfl, hsubvol⟩ := component_str hsubvol
  obtain ⟨rfl, hblob⟩ := component_str hblob
  obtain ⟨rfl, hparent⟩ := optionalComponent_optional hparent
  have hcond : isSha256Text (codesOf sha) = true := by
    by_contra hnot
    have hnone : sha256Field jsonFormat (.str sha) = none := if_neg hnot
    rw [hnone] at hsha
    cases hsha
  have hsome : sha256Field jsonFormat (.str sha) = some sha := if_pos hcond
  rw [hsome] at hsha
  rw [sizeField, if_pos (Int.natCast_nonneg _), Int.toNat_natCast] at hsize
  cases hsha
  cases hsize
  cases h
  exact ⟨rfl, hsubvol, hblob, hparent, hcond⟩

variable {dir : Dir}

theorem sendOne_eq {r : BackupArgs} {parents : List (String × String)} {i : ℕ} {spec : String}
    {dir' : Dir} {e : Entry String} (h : sendOne r parents i spec dir = some (dir', e)) :
    ∃ s, (∀ rest, sendsFrom r i (spec :: rest) = s :: sendsFrom r (i + 1) rest) ∧
      e = entryOf r.seq parents s ∧ dir' = put dir (blobName s.name r.seq) s.blob ∧ e.Wf ∧
      (s.incremental = true → (lookup parents s.name).isSome = true) := by
  simp only [sendOne, Option.bind_eq_bind, Option.bind_eq_some_iff] at h
  obtain ⟨p, hspec, parent, hparent, blob, hblob, e', he, h⟩ := h
  cases h
  obtain ⟨rfl, hwf⟩ := buildEntry_eq he
  refine ⟨⟨p.1, p.2.2.isSome, blob⟩, fun rest => by rw [sendsFrom, hspec, hblob], ?_, rfl, hwf, ?_⟩
  · rw [entryOf]
    congr 1
    cases hp : p.2.2 with
    | none =>
      rw [hp] at hparent
      cases hparent
      rfl
    | some source =>
      rw [hp] at hparent
      obtain ⟨b, hb, rfl⟩ := Option.map_eq_some_iff.mp hparent
      exact hb.symm
  · intro hinc
    obtain ⟨source, hp⟩ := Option.isSome_iff_exists.mp hinc
    rw [hp] at hparent
    obtain ⟨b, hb, -⟩ := Option.map_eq_some_iff.mp hparent
    rw [hb]
    rfl

theorem sendAll_eq {r : BackupArgs} {parents : List (String × String)} {i : ℕ}
    {specs : List String} {dir' : Dir} {es : List (Entry String)}
    (h : sendAll r parents i specs dir = some (dir', es)) :
    es = (sendsFrom r i specs).map (entryOf r.seq parents) ∧
      dir' = putAll dir (blobWrites r.seq (sendsFrom r i specs)) ∧ (∀ e ∈ es, e.Wf) ∧
      ∀ s ∈ sendsFrom r i specs, s.incremental = true →
        (lookup parents s.name).isSome = true := by
  induction specs generalizing i dir es with
  | nil =>
    cases h
    exact ⟨rfl, rfl, fun e he => (by cases he), fun s hs => (by cases hs)⟩
  | cons spec rest ih =>
    simp only [sendAll, Option.bind_eq_bind, Option.bind_eq_some_iff] at h
    obtain ⟨one, hone, all, hall, h⟩ := h
    cases h
    obtain ⟨s, hsends, he, hdir, hwf, hanchored⟩ := sendOne_eq hone
    obtain ⟨hes, hdir', hwfs, hanchoreds⟩ := ih hall
    rw [hsends]
    refine ⟨by rw [he, hes, map_cons], ?_, ?_, ?_⟩
    · rw [hdir', hdir]
      rfl
    · intro e' he'
      rcases mem_cons.mp he' with rfl | he'
      · exact hwf
      · exact hwfs e' he'
    · intro s' hs'
      rcases mem_cons.mp hs' with rfl | hs'
      · exact hanchored
      · exact hanchoreds s' hs'

theorem Made.Ok.parse {K : Signer} {m : Made} (h : m.Ok K) :
    parseManifest m.bytes = .ok m.manifest :=
  parse_canonical m.args.seq m.args.hostId m.args.createdAt m.prev h.wf

theorem previous_made {K : Signer} {p : Option Made} (hp : ∀ m ∈ p, m.Ok K) :
    previous (p.map Made.bytes) = some (p.map (fun p => sha256Hex p.bytes),
      (p.map fun p => parentsOf p.entries).getD []) := by
  cases p with
  | none => rfl
  | some m =>
    rw [Option.map_some, previous, (hp m rfl).parse]
    rfl

theorem putAll_append (dir : Dir) (ws ws' : List (String × Bytes)) :
    putAll dir (ws ++ ws') = putAll (putAll dir ws) ws' := foldl_append

/-- **A successful run**, in terms of what it was given. -/
theorem cmdBackup_made {K : Signer} {p : Option Made} (hp : ∀ m ∈ p, m.Ok K) {r : BackupArgs}
    {done : Dir × Bytes} (h : cmdBackup K (p.map Made.bytes) r dir = some done) :
    ∃ m : Made, m.args = r ∧ m.Ok K ∧ m.prev = p.map (fun p => sha256Hex p.bytes) ∧
      m.parents = (p.map fun p => parentsOf p.entries).getD [] ∧
      done = (putAll dir m.writes, m.bytes) := by
  simp only [cmdBackup, Option.bind_eq_bind, Option.bind_eq_some_iff] at h
  obtain ⟨q, hq, sent, hsent, h⟩ := h
  rw [previous_made hp] at hq
  cases hq
  obtain ⟨hes, hdir, hwf, hanchored⟩ := sendAll_eq hsent
  split_ifs at h with hseq
  simp only [Option.bind_eq_some_iff] at h
  obtain ⟨dir', hpublish, h⟩ := h
  cases h
  unfold publish at hpublish
  split_ifs at hpublish with hsigns
  · obtain ⟨signature, hsign, rfl⟩ := Option.map_eq_some_iff.mp hpublish
    rw [hes] at hsign hwf ⊢
    refine ⟨⟨r, _, _, some signature⟩, rfl, ⟨not_lt.mp hseq, hwf, hanchored, ?_⟩, rfl, rfl, ?_⟩
    · rw [if_pos hsigns]
      exact ⟨rfl, hsign⟩
    · rw [Made.writes, putAll_append, hdir]
      rfl
  · cases hpublish
    rw [hes] at hwf ⊢
    refine ⟨⟨r, _, _, none⟩, rfl, ⟨not_lt.mp hseq, hwf, hanchored, ?_⟩, rfl, rfl, ?_⟩
    · rw [if_neg hsigns]
    · rw [Made.writes, putAll_append, hdir]
      rfl

theorem backups_made {K : Signer} {p : Option Made} (hp : ∀ m ∈ p, m.Ok K) {rs : List BackupArgs}
    {dir' : Dir} (h : backups K (p.map Made.bytes) rs dir = some dir') :
    ∃ ms : List Made, ms.map Made.args = rs ∧ (∀ m ∈ ms, m.Ok K) ∧ Follows p ms ∧
      dir' = putAll dir (ms.flatMap Made.writes) := by
  induction rs generalizing p dir with
  | nil =>
    cases h
    exact ⟨[], rfl, fun m hm => (by cases hm), trivial, rfl⟩
  | cons r rest ih =>
    simp only [backups, Option.bind_eq_bind, Option.bind_eq_some_iff] at h
    obtain ⟨done, hdone, h⟩ := h
    obtain ⟨m, rfl, hm, hprev, hparents, rfl⟩ := cmdBackup_made hp hdone
    have hsome : ∀ m' ∈ some m, m'.Ok K := by
      intro m' hm'
      cases hm'
      exact hm
    obtain ⟨ms, hargs, hms, hfollows, hdir⟩ := ih hsome h
    refine ⟨m :: ms, by rw [map_cons, hargs], ?_, ⟨hprev, hparents, hfollows⟩, ?_⟩
    · intro m' hm'
      rcases mem_cons.mp hm' with rfl | hm'
      · exact hm
      · exact hms m' hm'
    · rw [hdir, flatMap_cons, putAll_append]

/-! ## Names -/

theorem append_sep_inj {α : Type} {sep : α} {xs ys t t' : List α}
    (h : xs ++ sep :: t = ys ++ sep :: t') (ht : sep ∉ t) (ht' : sep ∉ t') : xs = ys ∧ t = t' := by
  have hlate : ∀ {c : List α} {t t' : List α}, sep ∉ t → sep :: t = c ++ sep :: t' →
      c = [] ∧ t = t' := by
    intro c t t' ht heq
    cases c with
    | nil => exact ⟨rfl, (cons.inj heq).2⟩
    | cons x c =>
      rw [(cons.inj heq).2] at ht
      exact absurd (mem_append_right _ mem_cons_self) ht
  rcases append_eq_append_iff.mp h with ⟨c, hys, hrest⟩ | ⟨c, hxs, hrest⟩
  · obtain ⟨rfl, rfl⟩ := hlate ht hrest
    exact ⟨by rw [hys, append_nil], rfl⟩
  · obtain ⟨rfl, rfl⟩ := hlate ht' hrest
    exact ⟨by rw [hxs, append_nil], rfl⟩

theorem dash_not_mem_intText {n : ℤ} (h : 0 ≤ n) : '-' ∉ intText n := by
  obtain ⟨k, rfl⟩ := Int.eq_ofNat_of_zero_le h
  exact PyText.not_mem_repr (by decide)

theorem blobName_toList (name : String) (seq : ℤ) :
    (blobName name seq).toList = (name.toList ++ '-' :: intText seq) ++ ".btrfs.age".toList := by
  have hint : (String.ofList (intText seq)).toList = intText seq := String.toList_ofList
  have hdash : "-".toList = ['-'] := by decide
  rw [blobName, String.toList_append, String.toList_append, String.toList_append, hint, hdash,
    append_assoc name.toList, singleton_append]

theorem blobName_inj {a b : String} {n m : ℤ} (hn : 0 ≤ n) (hm : 0 ≤ m)
    (h : blobName a n = blobName b m) : a = b ∧ n = m := by
  have hlist := congrArg String.toList h
  rw [blobName_toList, blobName_toList, append_cancel_right_eq] at hlist
  obtain ⟨hname, hseq⟩ := append_sep_inj hlist (dash_not_mem_intText hn) (dash_not_mem_intText hm)
  refine ⟨String.toList_inj.mp hname, ?_⟩
  rw [← intValue_intText n, hseq, intValue_intText]

/-- The last character of a name. -/
def lastChar (name : String) : Option Char := name.toList.getLast?

theorem lastChar_append (a b : String) {c : Char} (h : lastChar b = some c) :
    lastChar (a ++ b) = some c := by
  rw [lastChar, String.toList_append, getLast?_append]
  rw [lastChar] at h
  rw [h]
  rfl

theorem lastChar_blobName (name : String) (seq : ℤ) : lastChar (blobName name seq) = some 'e' :=
  lastChar_append _ _ (by decide)

theorem lastChar_manifestName (seq : ℤ) : lastChar (manifestName seq) = some 'n' :=
  lastChar_append _ _ (by decide)

theorem lastChar_signature (seq : ℤ) : lastChar (manifestName seq ++ ".sig") = some 'g' :=
  lastChar_append _ _ (by decide)

theorem lastChar_of_isManifestName {u : UnicodeDb} {name : String}
    (h : isManifestName u name = true) :
    lastChar name = some 'n' ∨ lastChar name = some '\n' := by
  unfold isManifestName at h
  dsimp only at h
  generalize hdigits : (name.toList.drop "manifest-".length).takeWhile
    (fun c => (u.decimal c).isSome) = digits at h
  have hsplit : name.toList = name.toList.take ("manifest-".length + digits.length) ++
      (name.toList.drop "manifest-".length).drop digits.length := by
    rw [drop_drop, take_append_drop]
  rw [Bool.and_eq_true, Bool.or_eq_true, decide_eq_true_eq, decide_eq_true_eq] at h
  rw [lastChar, hsplit, getLast?_append]
  rcases h.2 with hrest | hrest
  · left
    rw [hrest]
    rfl
  · right
    rw [hrest]
    rfl

theorem not_isManifestName {u : UnicodeDb} {name : String} {c : Char} (hc : lastChar name = some c)
    (hn : c ≠ 'n') (hnl : c ≠ '\n') : isManifestName u name ≠ true := by
  intro h
  rcases lastChar_of_isManifestName h with h | h
  · rw [hc] at h
    exact hn (Option.some.inj h)
  · rw [hc] at h
    exact hnl (Option.some.inj h)

/-! ## Files written in order -/

theorem lookup_putAll_of_not_mem {ws : List (String × Bytes)} {k : String} (h : ∀ w ∈ ws, w.1 ≠ k) :
    lookup (putAll dir ws) k = lookup dir k := by
  induction ws generalizing dir with
  | nil => rfl
  | cons w ws ih =>
    have hne := h w mem_cons_self
    calc lookup (putAll dir (w :: ws)) k
        = lookup (put dir w.1 w.2) k :=
          ih fun w' hw' => h w' (mem_cons_of_mem _ hw')
      _ = lookup dir k := lookup_put_of_ne _ _ hne

theorem lookup_putAll_of_mem {ws : List (String × Bytes)} {k : String} (h : ∃ w ∈ ws, w.1 = k) :
    ∃ v, (k, v) ∈ ws ∧ lookup (putAll dir ws) k = some v := by
  induction ws using reverseRecOn with
  | nil =>
    obtain ⟨w, hw, -⟩ := h
    cases hw
  | append_singleton ws w ih =>
    have hput : putAll dir (ws ++ [w]) = put (putAll dir ws) w.1 w.2 :=
      putAll_append dir ws [w]
    rw [hput]
    by_cases hk : w.1 = k
    · subst hk
      exact ⟨w.2, mem_append_right _ mem_cons_self, lookup_put_self _ _ _⟩
    · obtain ⟨w', hw', hk'⟩ := h
      rcases mem_append.mp hw' with hw' | hw'
      · obtain ⟨v, hv, hlookup⟩ := ih ⟨w', hw', hk'⟩
        exact ⟨v, mem_append_left _ hv, by rw [lookup_put_of_ne _ _ hk, hlookup]⟩
      · rw [mem_singleton.mp hw'] at hk'
        exact absurd hk' hk

theorem keys_putAll (dir : Dir) (ws : List (String × Bytes)) (hdir : (dir.map Prod.fst).Nodup) :
    ((putAll dir ws).map Prod.fst).Nodup ∧
      ∀ k ∈ (putAll dir ws).map Prod.fst, k ∈ dir.map Prod.fst ∨ ∃ w ∈ ws, w.1 = k := by
  induction ws generalizing dir with
  | nil => exact ⟨hdir, fun k hk => .inl hk⟩
  | cons w ws ih =>
    obtain ⟨hnodup, hkeys⟩ := ih (put dir w.1 w.2) (nodup_keys_put _ _ _ hdir)
    refine ⟨hnodup, fun k hk => ?_⟩
    rcases hkeys k hk with hk | ⟨w', hw', hk⟩
    · rcases (mem_keys_put dir w.1 w.2 k).mp hk with hk | hk
      · exact .inr ⟨w, mem_cons_self, hk.symm⟩
      · exact .inl hk
    · exact .inr ⟨w', mem_cons_of_mem _ hw', hk⟩

/-! ## A directory that holds runs -/

/-- The files of a run; a blob may be that of another send of the same name. -/
structure Held (dir : Dir) (m : Made) : Prop where
  bytes : PyDict.lookup dir (manifestName m.args.seq) = some m.bytes
  signature : ∀ signature ∈ m.signature,
    PyDict.lookup dir (manifestName m.args.seq ++ ".sig") = some signature
  blobs : ∀ s ∈ m.args.sends, ∃ s' ∈ m.args.sends, s'.name = s.name ∧
    PyDict.lookup dir (blobName s.name m.args.seq) = some s'.blob

/-- Runs in increasing order whose files the directory holds, and no other manifest. -/
structure Holding (u : UnicodeDb) (K : Signer) (dir : Dir) (ms : List Made) : Prop where
  keys : (dir.map Prod.fst).Nodup
  ok : ∀ m ∈ ms, m.Ok K
  follows : Follows none ms
  sorted : ms.Pairwise fun m m' => m.args.seq < m'.args.seq
  held : ∀ m ∈ ms, Held dir m
  only : ∀ name ∈ dir.map Prod.fst, isManifestName u name = true →
    ∃ m ∈ ms, name = manifestName m.args.seq

/-- A run as it is loaded. -/
def Made.signed (args : Args) (m : Made) : Signed Json :=
  ⟨m.manifest, m.bytes, if args.allowedSigners = true then m.signature else none⟩

section Holding

variable {u : UnicodeDb} {K : Signer} {args : Args} {dir : Dir} {ms : List Made}

theorem Holding.shelf (h : Holding u K dir ms)
    (hsigned : args.allowedSigners = true → ∀ m ∈ ms, m.args.signs = true) :
    Shelf u K.verify args dir (ms.map (Made.signed args)) := by
  refine ⟨h.keys, ?_, pairwise_map.mpr h.sorted, ?_⟩
  · intro l hl
    obtain ⟨m, hm, rfl⟩ := mem_map.mp hl
    refine ⟨(h.ok m hm).seq, (h.held m hm).bytes, (h.ok m hm).parse, ?_⟩
    split_ifs with hsigners
    · have hsig := (h.ok m hm).signature
      rw [if_pos (hsigned hsigners m hm)] at hsig
      obtain ⟨signature, heq⟩ := Option.isSome_iff_exists.mp hsig.1
      refine ⟨signature, ?_, (h.held m hm).signature signature heq,
        K.verify_sign _ _ (hsig.2.trans heq)⟩
      exact (if_pos hsigners).trans heq
    · exact if_neg hsigners
  · intro name hname hmanifest
    obtain ⟨m, hm, heq⟩ := h.only name hname hmanifest
    exact ⟨m.signed args, mem_map_of_mem hm, heq⟩

theorem manifests_signed : (ms.map (Made.signed args)).map Signed.manifest = ms.map Made.manifest := by
  rw [map_map]
  rfl

theorem checkEntries_ok {seen : List (String × String)} {es : List (Entry String)}
    (h : ∀ e ∈ es, ∀ p ∈ e.parentBlob, (e.subvol, p) ∈ seen) :
    ∃ seen', checkEntries seen es = .ok seen' ∧ ∀ e ∈ es, (e.subvol, e.blob) ∈ seen' := by
  have hmono : ∀ (es : List (Entry String)) (seen : List (String × String)),
      (∀ e ∈ es, ∀ p ∈ e.parentBlob, (e.subvol, p) ∈ seen) →
      ∃ seen', checkEntries seen es = .ok seen' ∧ seen ⊆ seen' ∧
        ∀ e ∈ es, (e.subvol, e.blob) ∈ seen' := by
    intro es
    induction es with
    | nil => exact fun seen _ => ⟨seen, rfl, fun _ h => h, fun e he => (by cases he)⟩
    | cons e es ih =>
      intro seen h
      obtain ⟨seen', hok, hsub, hin⟩ := ih ((e.subvol, e.blob) :: seen) fun e' he' p hp =>
        mem_cons_of_mem _ (h e' (mem_cons_of_mem _ he') p hp)
      have hpass : ¬ ∃ parent ∈ e.parentBlob, (e.subvol, parent) ∉ seen := by
        rintro ⟨parent, hparent, hnot⟩
        exact hnot (h e mem_cons_self parent hparent)
      refine ⟨seen', by rw [checkEntries, if_neg hpass, hok],
        fun x hx => hsub (mem_cons_of_mem _ hx), fun e' he' => ?_⟩
      rcases mem_cons.mp he' with rfl | he'
      · exact hsub mem_cons_self
      · exact hin e' he'
  obtain ⟨seen', hok, -, hin⟩ := hmono es seen h
  exact ⟨seen', hok, hin⟩

theorem lookup_parentsOf (es : List (Entry String)) (name : String) :
    lookup (parentsOf es) name =
      (es.filter fun e => e.subvol = name).getLast?.map Entry.blob := by
  induction es using reverseRecOn with
  | nil => rfl
  | append_singleton es e ih =>
    have hput : parentsOf (es ++ [e]) = put (parentsOf es) e.subvol e.blob :=
      foldl_append
    rw [hput, filter_append]
    by_cases hname : e.subvol = name
    · subst hname
      rw [lookup_put_self, filter_cons_of_pos (by simp), filter_nil,
        getLast?_append]
      rfl
    · rw [lookup_put_of_ne _ _ hname, ih, filter_cons_of_neg (by simpa using hname),
        filter_nil, append_nil]

theorem Made.parent_eq {m : Made} {e : Entry String} (he : e ∈ m.entries) {p : String}
    (hp : e.parentBlob = some p) : lookup m.parents e.subvol = some p := by
  obtain ⟨s, -, rfl⟩ := mem_map.mp he
  have hparent : (if s.incremental = true then lookup m.parents s.name else none) = some p :=
    hp
  split_ifs at hparent
  exact hparent

theorem verifyFrom_follows {p : Option Made} {seen : List (String × String)}
    (hfollows : Follows p ms) (hsorted : ∀ q ∈ p, ∀ m ∈ ms, q.args.seq < m.args.seq)
    (hpair : ms.Pairwise fun m m' => m.args.seq < m'.args.seq)
    (hseen : ∀ q ∈ p, ∀ e ∈ q.entries, (e.subvol, e.blob) ∈ seen) :
    verifyFrom manifestSha256 (p.map Made.manifest) seen (ms.map Made.manifest) = .ok () := by
  induction ms generalizing p seen with
  | nil => rfl
  | cons m ms ih =>
    obtain ⟨hprev, hparents, hrest⟩ := hfollows
    obtain ⟨hm, hpair⟩ := pairwise_cons.mp hpair
    have hlink : checkLink manifestSha256 (p.map Made.manifest) m.manifest = .ok () := by
      cases p with
      | none => exact if_neg (not_not.mpr hprev)
      | some q =>
        have hdigest : manifestSha256 q.manifest.doc = sha256Hex q.bytes :=
          congrArg sha256Hex (canonical_readBack _ _ _ _ _)
        have hlt : ¬ m.manifest.seq ≤ q.manifest.seq :=
          not_le.mpr (hsorted q rfl m mem_cons_self)
        have hlink : m.manifest.prev = some (sha256Hex q.bytes) := hprev
        rw [Option.map_some, checkLink, if_neg hlt, hdigest, if_neg (not_not.mpr hlink)]
    obtain ⟨seen', hentries, hin⟩ := @checkEntries_ok seen m.entries (by
      intro e he parent hparent
      have hlookup := m.parent_eq he hparent
      rw [hparents] at hlookup
      cases p with
      | none => cases hlookup
      | some q =>
        rw [Option.map_some, Option.getD_some, lookup_parentsOf] at hlookup
        obtain ⟨e', he', rfl⟩ := Option.map_eq_some_iff.mp hlookup
        obtain ⟨he', hsub⟩ := mem_filter.mp (mem_of_getLast? he')
        rw [← of_decide_eq_true hsub]
        exact hseen q rfl e' he')
    have hcheck : checkEntries seen m.manifest.entries = .ok seen' := hentries
    rw [map_cons, verifyFrom, hlink]
    show (checkEntries seen m.manifest.entries >>= _) = _
    rw [hcheck]
    refine ih (p := some m) hrest ?_ hpair ?_
    · intro q hq m' hm'
      cases hq
      exact hm m' hm'
    · intro q hq
      cases hq
      exact hin

theorem Holding.verified (h : Holding u K dir ms) (hne : ms ≠ []) :
    verifyChain manifestSha256 (ms.map Made.manifest) = .ok () := by
  have hempty : ¬ (ms.map Made.manifest).isEmpty = true := by
    intro hemp
    exact hne (map_eq_nil_iff.mp (isEmpty_iff.mp hemp))
  rw [verifyChain, if_neg hempty]
  exact verifyFrom_follows (p := none) h.follows (fun q hq => (by cases hq)) h.sorted
    fun q hq => (by cases hq)

theorem mem_entriesOf {e : Entry String} : e ∈ entriesOf (ms.map Made.manifest) ↔
    ∃ m ∈ ms, e ∈ m.entries := by
  rw [entriesOf, mem_flatMap]
  constructor
  · rintro ⟨m', hm', he⟩
    obtain ⟨m, hm, rfl⟩ := mem_map.mp hm'
    exact ⟨m, hm, he⟩
  · rintro ⟨m, hm, he⟩
    exact ⟨m.manifest, mem_map_of_mem hm, he⟩

theorem Holding.isBlob (h : Holding u K dir ms) :
    ∀ e ∈ entriesOf (ms.map Made.manifest), isBlob dir e.blob = true := by
  intro e he
  obtain ⟨m, hm, he⟩ := mem_entriesOf.mp he
  obtain ⟨s, hs, rfl⟩ := mem_map.mp he
  obtain ⟨s', -, -, hlookup⟩ := (h.held m hm).blobs s hs
  have hsuffix : ".btrfs.age".toList.isSuffixOf (blobName s.name m.args.seq).toList = true := by
    rw [isSuffixOf_iff_suffix, blobName_toList]
    exact suffix_append _ _
  have hfile : (lookup dir (blobName s.name m.args.seq)).isSome = true := by
    rw [hlookup]
    rfl
  exact Bool.and_eq_true_iff.mpr ⟨hsuffix, hfile⟩

/-- Sends of one name in one run have blobs of one size and digest. -/
def Agree (r : BackupArgs) : Prop :=
  ∀ s ∈ r.sends, ∀ s' ∈ r.sends, s.name = s'.name →
    s.blob.length = s'.blob.length ∧ sha256Hex s.blob = sha256Hex s'.blob

/-- **The blobs verify** exactly when no run overwrote a blob with a different one. -/
theorem Holding.blobs_iff (h : Holding u K dir ms) :
    (entriesOf (ms.map Made.manifest)).all (goodBlob dir) = true ↔ ∀ m ∈ ms, Agree m.args := by
  have hgood : ∀ m ∈ ms, ∀ s ∈ m.args.sends, ∃ s' ∈ m.args.sends, s'.name = s.name ∧
      lookup dir (blobName s.name m.args.seq) = some s'.blob ∧
      (goodBlob dir (entryOf m.args.seq m.parents s) = true ↔
        s'.blob.length = s.blob.length ∧ sha256Hex s'.blob = sha256Hex s.blob) := by
    intro m hm s hs
    obtain ⟨s', hs', hname, hlookup⟩ := (h.held m hm).blobs s hs
    refine ⟨s', hs', hname, hlookup, ?_⟩
    have hentry : lookup dir (entryOf m.args.seq m.parents s).blob = some s'.blob := hlookup
    rw [goodBlob, hentry]
    dsimp only
    rw [Bool.and_eq_true, beq_iff_eq, beq_iff_eq]
    exact Iff.rfl
  rw [all_eq_true]
  constructor
  · intro hall m hm s₁ hs₁ s₂ hs₂ hname
    obtain ⟨t₁, -, -, hlookup₁, hiff₁⟩ := hgood m hm s₁ hs₁
    obtain ⟨t₂, -, -, hlookup₂, hiff₂⟩ := hgood m hm s₂ hs₂
    rw [← hname, hlookup₁] at hlookup₂
    have heq := Option.some.inj hlookup₂
    have h₁ := hiff₁.mp (hall _ (mem_entriesOf.mpr ⟨m, hm, mem_map_of_mem hs₁⟩))
    have h₂ := hiff₂.mp (hall _ (mem_entriesOf.mpr ⟨m, hm, mem_map_of_mem hs₂⟩))
    rw [heq] at h₁
    exact ⟨h₁.1.symm.trans h₂.1, h₁.2.symm.trans h₂.2⟩
  · intro hagree e he
    obtain ⟨m, hm, he⟩ := mem_entriesOf.mp he
    obtain ⟨s, hs, rfl⟩ := mem_map.mp he
    obtain ⟨s', hs', hname, -, hiff⟩ := hgood m hm s hs
    exact hiff.mpr (hagree m hm s' hs' s hs hname)

/-! ## The order of receiving -/

/-- The parent of an incremental is the entry before it. -/
def After (e' e : Entry String) : Prop := ∀ p, e.parentBlob = some p → p = e'.blob

def ofSubvol (name : String) (es : List (Entry String)) : List (Entry String) :=
  es.filter fun e => e.subvol = name

/-- What is received begins with a full send, and every incremental comes right after its parent. -/
def Chained (order : List (Entry String)) : Prop :=
  (∀ e ∈ order.head?, e.parentBlob = none) ∧ order.IsChain After

/-- A name given again in a run is a full send. -/
def FullAgain (r : BackupArgs) : Prop :=
  r.sends.Pairwise fun s s' => s.name = s'.name → s'.incremental = false

theorem order_flatMap {p : Option Made} (hfollows : Follows p ms) (name : String)
    {before front : List (Entry String)}
    (hbefore : before = front ++ ((p.map fun q => ofSubvol name q.entries).getD [])) :
    (before ++ ms.flatMap fun m => ofSubvol name m.entries).IsChain After ↔
      before.IsChain After ∧ ∀ m ∈ ms, (ofSubvol name m.entries).IsChain After := by
  induction ms generalizing p before front with
  | nil => simp
  | cons m ms ih =>
    obtain ⟨-, hparents, hrest⟩ := hfollows
    have hstep := @ih (some m) hrest (before ++ ofSubvol name m.entries) before rfl
    rw [flatMap_cons, ← append_assoc, hstep, isChain_append]
    -- the first entry of this run: its parent is the last one before
    have hborder : ∀ e' ∈ before.getLast?, ∀ e ∈ (ofSubvol name m.entries).head?, After e' e := by
      intro e' he' e he parent hparent
      obtain ⟨hmem, hsub⟩ := mem_filter.mp (mem_of_mem_head? he)
      have hlookup := m.parent_eq hmem hparent
      rw [hparents, of_decide_eq_true hsub] at hlookup
      cases p with
      | none => cases hlookup
      | some q =>
        rw [Option.map_some, Option.getD_some, lookup_parentsOf] at hlookup
        obtain ⟨last, hlast, rfl⟩ := Option.map_eq_some_iff.mp hlookup
        have hlast' : before.getLast? = some last := by
          rw [hbefore, Option.map_some, Option.getD_some, getLast?_append]
          rw [ofSubvol, hlast]
          rfl
        rw [hlast'] at he'
        cases he'
        rfl
    constructor
    · rintro ⟨⟨hone, htwo, -⟩, hall⟩
      refine ⟨hone, fun m' hm' => ?_⟩
      rcases mem_cons.mp hm' with rfl | hm'
      · exact htwo
      · exact hall m' hm'
    · rintro ⟨hone, hall⟩
      exact ⟨⟨hone, hall m mem_cons_self, hborder⟩,
        fun m' hm' => hall m' (mem_cons_of_mem _ hm')⟩

theorem parents_ne {p : Option Made} (hfollows : Follows p ms)
    (hpok : ∀ q ∈ p, 0 ≤ q.args.seq ∧ ∀ m ∈ ms, q.args.seq < m.args.seq)
    (hok : ∀ m ∈ ms, m.Ok K) (hpair : ms.Pairwise fun m m' => m.args.seq < m'.args.seq) :
    ∀ m ∈ ms, ∀ name blob, lookup m.parents name = some blob →
      blob ≠ blobName name m.args.seq := by
  induction ms generalizing p with
  | nil => exact fun m hm => (by cases hm)
  | cons m ms ih =>
    obtain ⟨-, hparents, hrest⟩ := hfollows
    obtain ⟨hlt, hpair⟩ := pairwise_cons.mp hpair
    have hm := hok m mem_cons_self
    intro m' hm'
    rcases mem_cons.mp hm' with rfl | hm'
    · intro name blob hlookup heq
      rw [hparents] at hlookup
      cases p with
      | none => cases hlookup
      | some q =>
        obtain ⟨hseq, hless⟩ := hpok q rfl
        rw [Option.map_some, Option.getD_some, lookup_parentsOf] at hlookup
        obtain ⟨e, he, rfl⟩ := Option.map_eq_some_iff.mp hlookup
        obtain ⟨he, -⟩ := mem_filter.mp (mem_of_getLast? he)
        obtain ⟨s, -, rfl⟩ := mem_map.mp he
        have hsame := (blobName_inj hseq hm.seq heq).2
        have hlt' := hless m' mem_cons_self
        omega
    · refine ih hrest ?_ (fun q hq => hok q (mem_cons_of_mem _ hq)) hpair m' hm'
      intro q hq
      cases hq
      exact ⟨hm.seq, hlt⟩

theorem chained_run_iff {m : Made} (hok : m.Ok K) (hparents : ∀ name blob,
      lookup m.parents name = some blob → blob ≠ blobName name m.args.seq) :
    (∀ name, (ofSubvol name m.entries).IsChain After) ↔ FullAgain m.args := by
  have hafter : ∀ name, ∀ e' e, e' ∈ ofSubvol name m.entries → e ∈ ofSubvol name m.entries →
      (After e' e ↔ e.parentBlob = none) := by
    intro name e' e he' he
    obtain ⟨he', hsub'⟩ := mem_filter.mp he'
    obtain ⟨he, hsub⟩ := mem_filter.mp he
    obtain ⟨s', -, rfl⟩ := mem_map.mp he'
    obtain ⟨s, hs, heq⟩ := mem_map.mp he
    constructor
    · intro h
      rw [Option.eq_none_iff_forall_ne_some]
      intro parent hparent
      have hlookup := m.parent_eq he hparent
      rw [of_decide_eq_true hsub, ← of_decide_eq_true hsub'] at hlookup
      exact hparents _ _ hlookup (h parent hparent)
    · intro hnone parent hparent
      rw [hnone] at hparent
      cases hparent
  have hpairwise : ∀ name, (ofSubvol name m.entries).IsChain After ↔
      m.args.sends.Pairwise fun s s' => s.name = name → s'.name = name →
        (entryOf m.args.seq m.parents s').parentBlob = none := by
    intro name
    have : Trans (fun _ e : Entry String => e.parentBlob = none)
        (fun _ e : Entry String => e.parentBlob = none)
        (fun _ e : Entry String => e.parentBlob = none) := ⟨fun _ h => h⟩
    rw [List.IsChain.iff_of_mem_imp (hafter name), isChain_iff_pairwise, ofSubvol,
      pairwise_filter, Made.entries, pairwise_map]
    simp only [decide_eq_true_eq]
    exact Iff.rfl
  have hparent : ∀ s ∈ m.args.sends, (entryOf m.args.seq m.parents s).parentBlob = none ↔
      s.incremental = false := by
    intro s hs
    show (if s.incremental = true then lookup m.parents s.name else none) = none ↔ _
    cases hinc : s.incremental with
    | false => simp
    | true =>
      have hsome := hok.anchored s hs hinc
      rw [if_pos rfl]
      constructor
      · intro hnone
        rw [hnone] at hsome
        cases hsome
      · exact fun h => (by cases h)
  constructor
  · intro h
    refine pairwise_iff_forall_sublist.mpr fun {s s'} hsub hname => ?_
    have hs' : s' ∈ m.args.sends := hsub.subset (by simp)
    have hall := pairwise_iff_forall_sublist.mp ((hpairwise s.name).mp (h s.name)) hsub
    exact (hparent s' hs').mp (hall rfl hname.symm)
  · intro h name
    refine (hpairwise name).mpr (pairwise_iff_forall_sublist.mpr fun {s s'} hsub hs hs' => ?_)
    exact (hparent s' (hsub.subset (by simp))).mpr
      (pairwise_iff_forall_sublist.mp h hsub (hs.trans hs'.symm))

theorem entriesOf_flatMap (name : String) :
    ofSubvol name (entriesOf (ms.map Made.manifest)) =
      ms.flatMap fun m => ofSubvol name m.entries := by
  rw [entriesOf, flatMap_map, ofSubvol, filter_flatMap]
  rfl

/-- What the verification of a directory and the planning of a restore must find. -/
def Restorable (u : UnicodeDb) (K : Signer) (args : Args) (dir : Dir) (names : List String)
    (rs : List BackupArgs) : Prop :=
  ∃ chain, Gives (inspect u (tools K.verify) (honest dir names) args) (chain, true) ∧
    ∀ r ∈ rs, ∀ s ∈ r.sends, ∃ order,
      restoreOrder (chain.map Signed.manifest) s.name = .ok order ∧ Chained order

theorem restoreOrder_lineage {es : List (Manifest String Json)} (h : Lineage (entriesOf es))
    {name : String} (hne : ofSubvol name (entriesOf es) ≠ []) :
    restoreOrder es name = .ok (ofSubvol name (entriesOf es)) := by
  have hlineage := h.filter name
  unfold restoreOrder
  unfold ofSubvol at hne ⊢
  split
  · next hnil => exact absurd hnil hne
  · next e rest hcons =>
    have hfull : e.parentBlob = none := by
      rw [Option.eq_none_iff_forall_ne_some]
      intro parent hparent
      obtain ⟨e', he', -⟩ := hlineage [] e rest hcons parent hparent
      cases he'
    rw [if_neg (not_not.mpr hfull), hcons]

end Holding

/-! ## What the runs leave -/

section Left

variable {u : UnicodeDb} {K : Signer} {ms : List Made}

theorem mem_writes {k : String} {v : Bytes} (h : (k, v) ∈ ms.flatMap Made.writes) :
    ∃ m ∈ ms, (∃ s ∈ m.args.sends, k = blobName s.name m.args.seq ∧ v = s.blob) ∨
      (k = manifestName m.args.seq ∧ v = m.bytes) ∨
      k = manifestName m.args.seq ++ ".sig" ∧ m.signature = some v := by
  obtain ⟨m, hm, hw⟩ := mem_flatMap.mp h
  refine ⟨m, hm, ?_⟩
  rcases mem_append.mp hw with hw | hw
  · obtain ⟨s, hs, heq⟩ := mem_map.mp hw
    cases heq
    exact .inl ⟨s, hs, rfl, rfl⟩
  · rcases mem_cons.mp hw with heq | hw
    · cases heq
      exact .inr (.inl ⟨rfl, rfl⟩)
    · obtain ⟨signature, hsig, heq⟩ := mem_map.mp hw
      cases heq
      exact .inr (.inr ⟨rfl, Option.mem_toList.mp hsig⟩)

theorem ne_of_lastChar {a b : String} {c d : Char} (ha : lastChar a = some c)
    (hb : lastChar b = some d) (hne : c ≠ d) : a ≠ b := by
  rintro rfl
  rw [ha] at hb
  exact hne (Option.some.inj hb)

theorem writes_manifest {n : ℤ} {v : Bytes} (h : (manifestName n, v) ∈ ms.flatMap Made.writes) :
    ∃ m ∈ ms, m.args.seq = n ∧ v = m.bytes := by
  obtain ⟨m, hm, ⟨s, -, hk, -⟩ | ⟨hk, hv⟩ | ⟨hk, -⟩⟩ := mem_writes h
  · exact absurd hk (ne_of_lastChar (lastChar_manifestName n) (lastChar_blobName _ _) (by decide))
  · exact ⟨m, hm, (manifestName_injective hk).symm, hv⟩
  · exact absurd hk (ne_of_lastChar (lastChar_manifestName n) (lastChar_signature _) (by decide))

theorem writes_signature {n : ℤ} {v : Bytes}
    (h : (manifestName n ++ ".sig", v) ∈ ms.flatMap Made.writes) :
    ∃ m ∈ ms, m.args.seq = n ∧ m.signature = some v := by
  obtain ⟨m, hm, ⟨s, -, hk, -⟩ | ⟨hk, -⟩ | ⟨hk, hv⟩⟩ := mem_writes h
  · exact absurd hk (ne_of_lastChar (lastChar_signature n) (lastChar_blobName _ _) (by decide))
  · exact absurd hk (ne_of_lastChar (lastChar_signature n) (lastChar_manifestName _) (by decide))
  · have hlist := congrArg String.toList hk
    rw [String.toList_append, String.toList_append, append_cancel_right_eq] at hlist
    exact ⟨m, hm, (manifestName_injective (String.toList_inj.mp hlist)).symm, hv⟩

theorem writes_blob (hok : ∀ m ∈ ms, m.Ok K) {name : String} {n : ℤ} (hn : 0 ≤ n) {v : Bytes}
    (h : (blobName name n, v) ∈ ms.flatMap Made.writes) :
    ∃ m ∈ ms, m.args.seq = n ∧ ∃ s ∈ m.args.sends, s.name = name ∧ v = s.blob := by
  obtain ⟨m, hm, ⟨s, hs, hk, hv⟩ | ⟨hk, -⟩ | ⟨hk, -⟩⟩ := mem_writes h
  · obtain ⟨hname, hseq⟩ := blobName_inj hn (hok m hm).seq hk
    exact ⟨m, hm, hseq.symm, s, hs, hname.symm, hv⟩
  · exact absurd hk (ne_of_lastChar (lastChar_blobName _ _) (lastChar_manifestName _) (by decide))
  · exact absurd hk (ne_of_lastChar (lastChar_blobName _ _) (lastChar_signature _) (by decide))

theorem eq_of_seq_eq (hsorted : ms.Pairwise fun m m' => m.args.seq < m'.args.seq) {m m' : Made}
    (hm : m ∈ ms) (hm' : m' ∈ ms) (h : m.args.seq = m'.args.seq) : m = m' := by
  by_contra hne
  have : Std.Symm fun m m' : Made => m.args.seq ≠ m'.args.seq := ⟨fun _ _ hne' => hne'.symm⟩
  exact (hsorted.imp fun hlt => Int.ne_of_lt hlt : ms.Pairwise _).forall hm hm' hne h

/-- **The directory holds its runs.** -/
theorem Holding.of_runs (hok : ∀ m ∈ ms, m.Ok K) (hfollows : Follows none ms)
    (hsorted : ms.Pairwise fun m m' => m.args.seq < m'.args.seq) :
    Holding u K (putAll [] (ms.flatMap Made.writes)) ms := by
  obtain ⟨hnodup, hkeys⟩ := keys_putAll [] (ms.flatMap Made.writes) nodup_nil
  have hwrite : ∀ m ∈ ms, ∀ w ∈ m.writes, w ∈ ms.flatMap Made.writes :=
    fun m hm w hw => mem_flatMap.mpr ⟨m, hm, hw⟩
  refine ⟨hnodup, hok, hfollows, hsorted, fun m hm => ⟨?_, ?_, ?_⟩, ?_⟩
  · obtain ⟨v, hv, hlookup⟩ := @lookup_putAll_of_mem [] _ _
      ⟨_, hwrite m hm (manifestName m.args.seq, m.bytes) (by simp [Made.writes]), rfl⟩
    obtain ⟨m', hm', hseq, rfl⟩ := writes_manifest hv
    rw [hlookup, eq_of_seq_eq hsorted hm' hm hseq]
  · intro signature hsig
    obtain ⟨v, hv, hlookup⟩ := @lookup_putAll_of_mem [] _ _ ⟨_, hwrite m hm
      (manifestName m.args.seq ++ ".sig", signature) (by
        refine mem_append_right _ (mem_cons_of_mem _ ?_)
        exact mem_map_of_mem (Option.mem_toList.mpr hsig)), rfl⟩
    obtain ⟨m', hm', hseq, hv⟩ := writes_signature hv
    rw [eq_of_seq_eq hsorted hm' hm hseq, hsig] at hv
    rw [hlookup, hv]
  · intro s hs
    obtain ⟨v, hv, hlookup⟩ := @lookup_putAll_of_mem [] _ _ ⟨_, hwrite m hm
      (blobName s.name m.args.seq, s.blob) (mem_append_left _ (mem_map_of_mem hs)), rfl⟩
    obtain ⟨m', hm', hseq, s', hs', hname, rfl⟩ := writes_blob hok (hok m hm).seq hv
    rw [eq_of_seq_eq hsorted hm' hm hseq] at hs'
    exact ⟨s', hs', hname, hlookup⟩
  · intro name hname hmanifest
    rcases hkeys name hname with hmem | ⟨w, hw, rfl⟩
    · cases hmem
    · obtain ⟨m, hm, ⟨s, -, hk, -⟩ | ⟨hk, -⟩ | ⟨hk, -⟩⟩ := mem_writes hw
      · rw [hk] at hmanifest
        exact absurd hmanifest (not_isManifestName (lastChar_blobName _ _) (by decide) (by decide))
      · exact ⟨m, hm, hk⟩
      · rw [hk] at hmanifest
        exact absurd hmanifest (not_isManifestName (lastChar_signature _) (by decide) (by decide))

theorem loadChain_unsigned {args : Args} (hsigners : args.allowedSigners = true) {d : String}
    (hdirs : args.outDirs = [d]) {dir : Dir} {names : List String} {name : String}
    (hname : name ∈ names) (hmanifest : isManifestName u name = true)
    (hnone : lookup dir (name ++ ".sig") = none) :
    Fails (loadChain u (tools K.verify) (honest dir names) args) := by
  have hsig : ∀ m bytes, Fails
      (checkSignature (tools K.verify) (honest dir names) args d name m bytes) := by
    intro m bytes
    unfold checkSignature
    rw [if_pos hsigners]
    refine (Gives.ask (lookup dir (name ++ ".sig")).isSome).bind_fails ?_
    rw [hnone, Option.isSome_none, if_pos rfl]
    exact Fails.throw _
  have hone : ∀ acc, Fails (loadOne u (tools K.verify) (honest dir names) args d acc name) := by
    intro acc
    unfold loadOne
    rw [hmanifest, if_neg Bool.true_eq_false.mp]
    refine Fails.bind_right fun answer => Fails.bind_right fun bytes => ?_
    cases (tools K.verify).parse bytes with
    | error e => exact Fails.throw _
    | ok m => exact (hsig m bytes).bind
  unfold loadChain
  rw [hdirs, foldlM_cons]
  exact Fails.bind (Fails.bind ((Gives.ask (some names)).bind_fails
    ((Gives.pure names).bind_fails (Fails.foldlM hname hone []))))

theorem no_signature (hok : ∀ m ∈ ms, m.Ok K)
    (hsorted : ms.Pairwise fun m m' => m.args.seq < m'.args.seq) {m : Made} (hm : m ∈ ms)
    (hsigns : m.args.signs = false) : lookup (putAll [] (ms.flatMap Made.writes))
      (manifestName m.args.seq ++ ".sig") = none := by
  refine lookup_putAll_of_not_mem fun w hw hk => ?_
  obtain ⟨k, v⟩ := w
  dsimp only at hk
  subst hk
  obtain ⟨m', hm', hseq, hsig⟩ := writes_signature hw
  have hok' := (hok m' hm').signature
  rw [eq_of_seq_eq hsorted hm' hm hseq] at hok' hsig
  rw [if_neg (by rw [hsigns]; exact Bool.false_ne_true), hsig] at hok'
  cases hok'

theorem Holding.restorable_iff {args : Args} {dir : Dir} (h : Holding u K dir ms) (hne : ms ≠ [])
    (hsigned : args.allowedSigners = true → ∀ m ∈ ms, m.args.signs = true) {d : String}
    (hdirs : args.outDirs = [d]) {names : List String} (hnames : names.Perm (dir.map Prod.fst)) :
    Restorable u K args dir names (ms.map Made.args) ↔
      (∀ m ∈ ms, ∀ m' ∈ ms, m.args.hostId = m'.args.hostId) ∧
        ∀ m ∈ ms, Agree m.args ∧ FullAgain m.args := by
  have hshelf := @Holding.shelf _ _ args _ _ h hsigned
  have hverified := h.verified hne
  obtain ⟨-, -, hlineage⟩ := verifyChain_eq_ok manifestSha256 hverified
  have hhost : OneHost (ms.map (Made.signed args)) ↔
      ∀ m ∈ ms, ∀ m' ∈ ms, m.args.hostId = m'.args.hostId := by
    rw [OneHost, forall_mem_map]
    exact forall₂_congr fun m hm => forall_mem_map
  have hfull : (∀ m ∈ ms, FullAgain m.args) ↔
      ∀ name, (ofSubvol name (entriesOf (ms.map Made.manifest))).IsChain After := by
    have hparents := parents_ne h.follows (fun q hq => (by cases hq)) h.ok h.sorted
    have hname : ∀ name, (ofSubvol name (entriesOf (ms.map Made.manifest))).IsChain After ↔
        ∀ m ∈ ms, (ofSubvol name m.entries).IsChain After := by
      intro name
      rw [entriesOf_flatMap]
      simpa using @order_flatMap _ _ h.follows name [] [] rfl
    constructor
    · intro hall name
      exact (hname name).mpr fun m hm =>
        (chained_run_iff (h.ok m hm) (hparents m hm)).mpr (hall m hm) name
    · intro hall m hm
      exact (chained_run_iff (h.ok m hm) (hparents m hm)).mp fun name =>
        (hname name).mp (hall name) m hm
  constructor
  · rintro ⟨chain, hgives, horders⟩
    have hone : OneHost (ms.map (Made.signed args)) := by
      by_contra hnot
      exact (loadChain_refuses hshelf hdirs hnames hnot).bind.not_gives _ hgives
    have hfound := inspect_gives hshelf hdirs hnames hone
      (by rw [manifests_signed]; exact hverified) (by rw [manifests_signed]; exact h.isBlob)
    have heq := hfound.unique hgives
    rw [manifests_signed] at heq
    obtain ⟨rfl, hgood⟩ := Prod.mk.inj heq
    refine ⟨hhost.mp hone, fun m hm => ⟨h.blobs_iff.mp hgood m hm, ?_⟩⟩
    refine hfull.mpr (fun name => ?_) m hm
    by_cases hempty : ofSubvol name (entriesOf (ms.map Made.manifest)) = []
    · rw [hempty]
      exact isChain_nil
    · obtain ⟨e, he⟩ := exists_mem_of_ne_nil _ hempty
      obtain ⟨he, hsub⟩ := mem_filter.mp he
      obtain ⟨m', hm', he⟩ := mem_entriesOf.mp he
      obtain ⟨s, hs, rfl⟩ := mem_map.mp he
      obtain ⟨order, horder, hchained⟩ := horders m'.args (mem_map_of_mem hm') s hs
      have hname : s.name = name := of_decide_eq_true hsub
      rw [manifests_signed, hname, restoreOrder_lineage hlineage hempty] at horder
      cases horder
      exact hchained.2
  · rintro ⟨hhosts, hall⟩
    refine ⟨ms.map (Made.signed args), ?_, ?_⟩
    · have hfound := inspect_gives hshelf hdirs hnames (hhost.mpr hhosts)
        (by rw [manifests_signed]; exact hverified) (by rw [manifests_signed]; exact h.isBlob)
      rw [manifests_signed, h.blobs_iff.mpr fun m hm => (hall m hm).1] at hfound
      exact hfound
    · intro r hr s hs
      obtain ⟨m, hm, rfl⟩ := mem_map.mp hr
      have hnonempty : ofSubvol s.name (entriesOf (ms.map Made.manifest)) ≠ [] := by
        intro hnil
        have hmem : entryOf m.args.seq m.parents s ∈
            ofSubvol s.name (entriesOf (ms.map Made.manifest)) :=
          mem_filter.mpr ⟨mem_entriesOf.mpr ⟨m, hm, mem_map_of_mem hs⟩,
            decide_eq_true rfl⟩
        rw [hnil] at hmem
        cases hmem
      rw [manifests_signed]
      refine ⟨_, restoreOrder_lineage hlineage hnonempty, ?_,
        hfull.mp (fun m hm => (hall m hm).2) s.name⟩
      obtain ⟨-, e, rest, hcons, hnone⟩ :=
        restoreOrder_eq_ok (restoreOrder_lineage hlineage hnonempty)
      rw [hcons]
      intro e' he'
      cases he'
      exact hnone

/-- **A successful backup verifies** exactly when the runs are of one host, are signed where
signers are checked, and no run overwrote a blob of its own. -/
theorem backups_restorable_iff (u : UnicodeDb) (K : Signer) (args : Args) {d : String}
    (hdirs : args.outDirs = [d]) {rs : List BackupArgs} (hne : rs ≠ [])
    (hincreasing : rs.Pairwise fun r r' => r.seq < r'.seq) {dir : Dir}
    (hruns : backups K none rs [] = some dir) {names : List String}
    (hnames : names.Perm (dir.map Prod.fst)) :
    Restorable u K args dir names rs ↔
      (∀ r ∈ rs, ∀ r' ∈ rs, r.hostId = r'.hostId) ∧
        (args.allowedSigners = true → ∀ r ∈ rs, r.signs = true) ∧
        ∀ r ∈ rs, Agree r ∧ FullAgain r := by
  obtain ⟨ms, rfl, hok, hfollows, rfl⟩ := backups_made (p := none) (fun m hm => (by cases hm)) hruns
  have hsorted := List.pairwise_map.mp hincreasing
  have hholding := Holding.of_runs (u := u) hok hfollows hsorted
  have hne' : ms ≠ [] := fun hnil => hne (by rw [hnil]; rfl)
  simp only [List.forall_mem_map]
  by_cases hsigned : args.allowedSigners = true → ∀ m ∈ ms, m.args.signs = true
  · rw [hholding.restorable_iff hne' hsigned hdirs hnames]
    exact ⟨fun h => ⟨h.1, hsigned, h.2⟩, fun h => ⟨h.1, h.2.2⟩⟩
  · refine ⟨?_, fun h => absurd h.2.1 hsigned⟩
    rintro ⟨chain, hgives, -⟩
    obtain ⟨hsigners, m, hm, hsigns⟩ : args.allowedSigners = true ∧ ∃ m ∈ ms,
        m.args.signs = false := by simpa using hsigned
    have hmem : manifestName m.args.seq ∈ names :=
      hnames.mem_iff.mpr (List.mem_map_of_mem (PyDict.lookup_mem (hholding.held m hm).bytes))
    have hfails := loadChain_unsigned (K := K) hsigners hdirs hmem
      (isManifestName_manifestName u (hok m hm).seq) (no_signature hok hsorted hm hsigns)
    exact absurd hgives (hfails.bind.not_gives _)

end Left

/-! ## Two runs, and one run that overwrites its blob -/

/-- A signature that is the signed text. -/
def plainSigner : Signer where
  sign := some
  verify canonical signature := canonical == signature
  verify_sign := by
    intro canonical signature h
    cases h
    exact beq_self_eq_true _

def checkedArgs : Args := ⟨["out"], true, true, false, none, "a"⟩

/-- A full send of `a`. -/
def firstRun : BackupArgs := ⟨0, "h", 0, ["a:x"], true, fun _ => some [1]⟩

/-- An incremental send of `a`. -/
def secondRun : BackupArgs := ⟨1, "h", 0, ["a:y:x"], true, fun _ => some [2]⟩

/-- Two full sends under one name. -/
def doubleRun : BackupArgs := ⟨0, "h", 0, ["a:x", "a:y"], true, fun i => some [UInt8.ofNat i]⟩

theorem agree_single {r : BackupArgs} {s : Send} (h : r.sends = [s]) : Agree r ∧ FullAgain r := by
  rw [Agree, FullAgain, h]
  refine ⟨fun s₁ h₁ s₂ h₂ _ => ?_, pairwise_singleton _ _⟩
  rw [mem_singleton.mp h₁, mem_singleton.mp h₂]
  exact ⟨rfl, rfl⟩

/-- A full send and an incremental one are restorable. -/
theorem two_runs_restorable : ∃ dir, backups plainSigner none [firstRun, secondRun] [] = some dir ∧
    Restorable .ascii plainSigner checkedArgs dir (dir.map Prod.fst) [firstRun, secondRun] := by
  have hsome : (backups plainSigner none [firstRun, secondRun] []).isSome = true := by
    decide +kernel
  obtain ⟨dir, hdir⟩ := Option.isSome_iff_exists.mp hsome
  refine ⟨dir, hdir, (backups_restorable_iff .ascii plainSigner checkedArgs rfl (by simp) (by
    simp [firstRun, secondRun]) hdir (List.Perm.refl _)).mpr ⟨?_, ?_, ?_⟩⟩
  · simp [firstRun, secondRun]
  · simp [firstRun, secondRun]
  · intro r hr
    simp only [List.mem_cons, List.not_mem_nil, or_false] at hr
    rcases hr with rfl | rfl
    · exact agree_single (s := ⟨"a", false, [1]⟩) (by rfl)
    · exact agree_single (s := ⟨"a", true, [2]⟩) (by rfl)

/-- **A name given twice** in one run: the first blob is overwritten, and the directory that the
successful run leaves does not verify. -/
theorem double_run_unrestorable : ∃ dir, backups plainSigner none [doubleRun] [] = some dir ∧
    ¬ Restorable .ascii plainSigner checkedArgs dir (dir.map Prod.fst) [doubleRun] := by
  have hsome : (backups plainSigner none [doubleRun] []).isSome = true := by decide +kernel
  obtain ⟨dir, hdir⟩ := Option.isSome_iff_exists.mp hsome
  refine ⟨dir, hdir, ?_⟩
  obtain ⟨ms, hargs, hok, hfollows, rfl⟩ :=
    backups_made (p := none) (fun m hm => (by cases hm)) hdir
  obtain ⟨m, rfl, hm⟩ := List.map_eq_singleton_iff.mp hargs
  have hholding := Holding.of_runs (u := .ascii) hok hfollows (List.pairwise_singleton _ _)
  rw [← hargs, hholding.restorable_iff (by simp) (by simp [hm, doubleRun]) rfl (List.Perm.refl _)]
  rintro ⟨-, hagree⟩
  obtain ⟨hagree, -⟩ := hagree m List.mem_cons_self
  rw [hm] at hagree
  have hsends : doubleRun.sends = [⟨"a", false, [0]⟩, ⟨"a", false, [1]⟩] := by rfl
  have hdiffer := (hagree ⟨"a", false, [0]⟩ (by rw [hsends]; simp) ⟨"a", false, [1]⟩
    (by rw [hsends]; simp) rfl).2
  exact absurd hdiffer (by decide +kernel)

/-- What the first run leaves. -/
def firstDir : Dir := (backups plainSigner none [firstRun] []).getD []

/-- A restore from it is authenticated. -/
theorem first_run_authenticated : checkedArgs.insecure = false ∧
    ∃ (before : List (Event Json)) (rs : List (Entry String × Bytes)),
      (cmdRestore .ascii (tools plainSigner.verify) (honest firstDir (firstDir.map Prod.fst))
        checkedArgs ⟨0, []⟩).2.log = before ++ rs.map (fun r => .received r.1 r.2) ∧
      Idle before ∧
      (rs ≠ [] → ∃ chain, Authentic (tools plainSigner.verify) checkedArgs before rs chain) :=
  ⟨rfl, restore_authenticated .ascii (tools plainSigner.verify)
    (honest firstDir (firstDir.map Prod.fst)) checkedArgs rfl⟩

end Backup
