/-
# Verifying an honest target

A target that answers every question from one directory.  `inspect` is what `cmd_verify` and
`cmd_restore` begin with, `_load_chain` and the verification of all blobs.  A directory that holds
the manifests of a chain under their names, with their signatures, and no other manifest
(`Shelf`), is loaded as that chain whatever the order in which its files are listed, and the
verification finds exactly the blobs that do not match their entries (`inspect_gives`).
-/
import QDistro.BackupBuild
import Mathlib.Data.List.Pairwise

namespace Backup

open EffectRules List
open JsonText

/-! ## Answers that do not change -/

section Gives

variable {δ α β γ : Type}

/-- Whatever the state, `x` returns `a`. -/
def Gives (x : RestoreM δ α) (a : α) : Prop := ∀ s, ∃ t, x s = (.ok a, t)

theorem Gives.pure (a : α) : Gives (Pure.pure a : RestoreM δ α) a := fun s => ⟨s, rfl⟩

theorem Gives.ask (a : α) : Gives (Backup.ask fun _ => a : RestoreM δ α) a := fun _ => ⟨_, rfl⟩

theorem Gives.record (e : Event δ) : Gives (Backup.record e) () := fun _ => ⟨_, rfl⟩

variable {x : RestoreM δ α} {f : α → RestoreM δ β}

theorem Gives.bind {a : α} {b : β} (hx : Gives x a) (hf : Gives (f a) b) : Gives (x >>= f) b := by
  intro s
  obtain ⟨t, ht⟩ := hx s
  obtain ⟨t', ht'⟩ := hf t
  exact ⟨t', by rw [Act.bind_eq_of_ok ht, ht']⟩

theorem Gives.unique {a b : α} (ha : Gives x a) (hb : Gives x b) : a = b := by
  obtain ⟨t, ht⟩ := ha ⟨0, []⟩
  obtain ⟨t', ht'⟩ := hb ⟨0, []⟩
  rw [ht] at ht'
  cases ht'
  rfl

/-- Whatever the state, `x` raises. -/
def Fails (x : RestoreM δ α) : Prop := ∀ s, ∃ e t, x s = (.error e, t)

theorem Fails.throw (e : Abort) : Fails (MonadExcept.throw e : RestoreM δ α) :=
  fun s => ⟨e, s, rfl⟩

theorem Fails.bind (h : Fails x) : Fails (x >>= f) := by
  intro s
  obtain ⟨e, t, ht⟩ := h s
  exact ⟨e, t, Act.bind_eq_of_error ht⟩

theorem Gives.bind_fails {a : α} (hx : Gives x a) (hf : Fails (f a)) : Fails (x >>= f) := by
  intro s
  obtain ⟨t, ht⟩ := hx s
  rw [Act.bind_eq_of_ok ht]
  exact hf t

theorem Fails.bind_right (h : ∀ a, Fails (f a)) :
    Fails (x >>= f) := by
  intro s
  rcases hx : x s with ⟨r, t⟩
  cases r with
  | error e => exact ⟨e, t, Act.bind_eq_of_error hx⟩
  | ok a =>
    rw [Act.bind_eq_of_ok hx]
    exact h a t

theorem Fails.foldlM {f : β → γ → RestoreM δ β} {l : List γ} {c : γ} (hc : c ∈ l)
    (h : ∀ b, Fails (f b c)) (b : β) : Fails (l.foldlM f b) := by
  induction l generalizing b with
  | nil => cases hc
  | cons c' l ih =>
    rw [foldlM_cons]
    rcases mem_cons.mp hc with rfl | hc
    · exact (h b).bind
    · exact .bind_right fun b' => ih hc b'

theorem Fails.not_gives (h : Fails x) (a : α) : ¬ Gives x a := by
  intro hgives
  obtain ⟨e, t, ht⟩ := h ⟨0, []⟩
  obtain ⟨t', ht'⟩ := hgives ⟨0, []⟩
  rw [ht] at ht'
  cases ht'

theorem Gives.foldlM {f : β → γ → RestoreM δ β} {g : β → γ → β} {I : β → List γ → Prop}
    (hstep : ∀ b c l, I b (c :: l) → Gives (f b c) (g b c) ∧ I (g b c) l) :
    ∀ (l : List γ) (b : β), I b l → Gives (l.foldlM f b) (l.foldl g b)
  | [], b, _ => .pure b
  | c :: l, b, h => by
    obtain ⟨hone, hrest⟩ := hstep b c l h
    rw [foldlM_cons, foldl_cons]
    exact hone.bind (.foldlM hstep l _ hrest)

end Gives

/-! ## The directory -/

abbrev Dir := List (String × Bytes)

/-- A target that answers from one directory, whose files it lists as `names`. -/
def honest (dir : Dir) (names : List String) : Storage where
  listdir _ _ := some names
  read _ _ name := PyDict.lookup dir name
  isfile _ _ name := (PyDict.lookup dir name).isSome
  getsize _ _ name := (PyDict.lookup dir name).map List.length
  works _ := true

/-- The functions of `qdistro_backup_manifest`, with the pinned signers. -/
def tools (verify : Bytes → Bytes → Bool) : Tools Json :=
  ⟨parseManifest, manifestSha256, sha256Hex, verify⟩

/-- `_manifest_name` -/
def manifestName (seq : ℤ) : String := "manifest-" ++ String.ofList (intText seq) ++ ".json"

theorem manifestName_injective {n m : ℤ} (h : manifestName n = manifestName m) : n = m := by
  have hlist := congrArg String.toList h
  simp only [manifestName, String.toList_append, String.toList_ofList, append_assoc,
    append_cancel_left_eq, append_cancel_right_eq] at hlist
  rw [← intValue_intText n, hlist, intValue_intText]

theorem isManifestName_manifestName (u : UnicodeDb) {seq : ℤ} (h : 0 ≤ seq) :
    isManifestName u (manifestName seq) = true := by
  obtain ⟨n, rfl⟩ := Int.eq_ofNat_of_zero_le h
  have hdigit : ∀ c ∈ n.repr.toList, (u.decimal c).isSome = true := by
    intro c hc
    rw [PyText.decimal_of_isDigit (isDigit_of_mem_repr hc), Option.isSome_some]
  have hdot : (u.decimal '.').isSome = false := by
    rw [u.decimal_ascii '.' (by decide)]
    rfl
  have hlist : (manifestName n).toList =
      "manifest-".toList ++ (n.repr.toList ++ '.' :: "json".toList) := by
    have hjson : ".json".toList = '.' :: "json".toList := by decide
    have hint : (String.ofList (intText (n : ℤ))).toList = n.repr.toList := String.toList_ofList
    rw [manifestName, String.toList_append, String.toList_append, append_assoc, hjson, hint]
  obtain ⟨c, t, hrepr, -⟩ := repr_eq_cons n
  have htake : (n.repr.toList ++ '.' :: "json".toList).takeWhile
      (fun c => (u.decimal c).isSome) = n.repr.toList := by
    rw [takeWhile_append_of_pos hdigit, takeWhile_cons_of_neg (by simp [hdot]),
      append_nil]
  have hdrop : ("manifest-".toList ++ (n.repr.toList ++ '.' :: "json".toList)).drop
      "manifest-".length = n.repr.toList ++ '.' :: "json".toList := drop_left' rfl
  have hend : (decide ('.' :: "json".toList = ".json".toList) ||
      decide ('.' :: "json".toList = ".json\n".toList)) = true := by decide
  have hstart : PyText.startswith (manifestName n) "manifest-" = true := by
    rw [PyText.startswith, hlist, isPrefixOf_iff_prefix]
    exact prefix_append _ _
  have hne : n.repr.toList.isEmpty = false := by
    rw [hrepr]
    rfl
  unfold isManifestName
  dsimp only
  rw [hlist, hdrop, htake, drop_left, hstart, hne]
  exact hend

/-- `_load_chain` and the verification of all blobs: the chain, and whether there was no problem. -/
def inspect (u : UnicodeDb) (T : Tools Json) (st : Storage) (args : Args) :
    RestoreM Json (List (Signed Json) × Bool) := do
  let chain ← loadChain u T st args
  let index ← blobIndex T st args
  let fine ← verifyBlobs T st index (entriesOf (chain.map Signed.manifest))
  pure (chain, fine)

section Shelf

variable (u : UnicodeDb) (verify : Bytes → Bytes → Bool) (args : Args)

/-- A manifest is in the directory under its name, with a signature where one is checked. -/
structure Shelved (dir : Dir) (l : Signed Json) : Prop where
  seq : 0 ≤ l.manifest.seq
  bytes : PyDict.lookup dir (manifestName l.manifest.seq) = some l.canonical
  parsed : parseManifest l.canonical = .ok l.manifest
  signature : if args.allowedSigners = true then ∃ signature, l.signature = some signature ∧
      PyDict.lookup dir (manifestName l.manifest.seq ++ ".sig") = some signature ∧
      verify l.canonical signature = true
    else l.signature = none

/-- The directory holds the manifests of a chain, in increasing order, and no other. -/
structure Shelf (dir : Dir) (chain : List (Signed Json)) : Prop where
  keys : (dir.map Prod.fst).Nodup
  shelved : ∀ l ∈ chain, Shelved verify args dir l
  sorted : chain.Pairwise fun l l' => l.manifest.seq < l'.manifest.seq
  only : ∀ name ∈ dir.map Prod.fst, isManifestName u name = true →
    ∃ l ∈ chain, name = manifestName l.manifest.seq

/-- The manifest of a file. -/
def fileOf (chain : List (Signed Json)) (name : String) : Option (Signed Json) :=
  chain.find? fun l => manifestName l.manifest.seq = name

/-- The entry's blob is in the directory, with its size and digest. -/
def goodBlob (dir : Dir) (e : Entry String) : Bool :=
  match PyDict.lookup dir e.blob with
  | some blob => blob.length == e.size && sha256Hex blob == e.sha256
  | none => false

variable {u verify args} {dir : Dir} {chain : List (Signed Json)} {names : List String}

variable {l : Signed Json}

theorem Shelf.seq_inj (h : Shelf u verify args dir chain) {l' : Signed Json} (hl : l ∈ chain)
    (hl' : l' ∈ chain) (heq : l.manifest.seq = l'.manifest.seq) : l = l' := by
  by_contra hne
  have hpair : chain.Pairwise fun l l' => l.manifest.seq ≠ l'.manifest.seq :=
    h.sorted.imp fun hlt => Int.ne_of_lt hlt
  have : Std.Symm fun l l' : Signed Json => l.manifest.seq ≠ l'.manifest.seq :=
    ⟨fun _ _ hne' => hne'.symm⟩
  exact hpair.forall hl hl' hne heq

theorem fileOf_some {name : String} (h : fileOf chain name = some l) :
    l ∈ chain ∧ manifestName l.manifest.seq = name := by
  rw [fileOf] at h
  exact ⟨mem_of_find?_eq_some h, by simpa using find?_some h⟩

theorem Shelf.fileOf_eq (h : Shelf u verify args dir chain) (hl : l ∈ chain) :
    fileOf chain (manifestName l.manifest.seq) = some l := by
  cases hfind : fileOf chain (manifestName l.manifest.seq) with
  | none =>
    have hnot := find?_eq_none.mp hfind l hl
    exact absurd (decide_eq_true rfl) hnot
  | some l' =>
    obtain ⟨hl', hname⟩ := fileOf_some hfind
    rw [h.seq_inj hl' hl (manifestName_injective hname)]

theorem checkSignature_gives (d : String) (h : Shelved verify args dir l) :
    Gives (checkSignature (tools verify) (honest dir names) args d (manifestName l.manifest.seq)
      l.manifest l.canonical) l := by
  have hsig := h.signature
  unfold checkSignature
  split_ifs at hsig ⊢ with hsigners
  · obtain ⟨signature, heq, hfile, hverify⟩ := hsig
    have hl : (⟨l.manifest, l.canonical, some signature⟩ : Signed Json) = l := by rw [← heq]
    refine .bind (.ask _) ?_
    dsimp only [honest]
    rw [hfile, if_neg (by simp)]
    refine .bind (.ask _) (.bind (a := signature) (.pure _) ?_)
    rw [if_neg (by simp [tools, hverify]), hl]
    exact .bind (.record _) (.pure _)
  · have hl : (⟨l.manifest, l.canonical, none⟩ : Signed Json) = l := by rw [← hsig]
    rw [hl]
    exact .pure l

/-- The files still to be read: none of the manifests among them was seen. -/
def Unread (names : List String) (chain acc : List (Signed Json)) : Prop :=
  ∀ name ∈ names, ∀ l, fileOf chain name = some l → ∀ l' ∈ acc, l'.manifest.seq ≠ l.manifest.seq

section

variable (h : Shelf u verify args dir chain)
include h

theorem loadOne_gives (d : String) {acc : List (Signed Json)} {name : String} {rest : List String}
    (hname : name ∈ dir.map Prod.fst) (hunread : Unread (name :: rest) chain acc) :
    Gives (loadOne u (tools verify) (honest dir names) args d acc name)
      (acc ++ (fileOf chain name).toList) := by
  unfold loadOne
  split_ifs with hmanifest
  · have hnone : fileOf chain name = none := by
      cases hfile : fileOf chain name with
      | none => rfl
      | some l =>
        obtain ⟨hl, rfl⟩ := fileOf_some hfile
        rw [isManifestName_manifestName u (h.shelved l hl).seq] at hmanifest
        cases hmanifest
    rw [hnone, Option.toList_none, append_nil]
    exact .pure acc
  · obtain ⟨l, hl, rfl⟩ := h.only name hname (by simpa using hmanifest)
    have hshelved := h.shelved l hl
    have hfile := h.fileOf_eq hl
    have hfresh : acc.find? (fun l' => l'.manifest.seq = l.manifest.seq) = none :=
      find?_eq_none.mpr fun l' hl' => by
        simpa using hunread _ mem_cons_self l hfile l' hl'
    rw [hfile, Option.toList_some]
    refine .bind (.ask _) ?_
    dsimp only [honest]
    rw [hshelved.bytes]
    refine .bind (a := l.canonical) (.pure _) ?_
    have hparse : (tools verify).parse l.canonical = .ok l.manifest := hshelved.parsed
    rw [hparse]
    refine .bind (@checkSignature_gives _ _ _ names _ d hshelved) ?_
    rw [hfresh]
    exact .pure _

/-- The manifests of the listed files, in the order of listing. -/
def listed (chain : List (Signed Json)) (names : List String) : List (Signed Json) :=
  names.filterMap (fileOf chain)

theorem load_gives (d : String) (hnames : names.Perm (dir.map Prod.fst)) :
    Gives (loadDir u (tools verify) (honest dir names) args [] d) (listed chain names) := by
  have hfold : ∀ (l : List String) (acc : List (Signed Json)),
      l.foldl (fun acc name => acc ++ (fileOf chain name).toList) acc = acc ++ listed chain l := by
    intro l
    induction l with
    | nil => exact fun acc => (append_nil acc).symm
    | cons name l ih =>
      intro acc
      rw [foldl_cons, ih, listed, listed, filterMap_cons, append_assoc]
      cases fileOf chain name with
      | none => rfl
      | some x => rfl
  have hloop := Gives.foldlM (f := loadOne u (tools verify) (honest dir names) args d)
    (g := fun acc name => acc ++ (fileOf chain name).toList)
    (I := fun acc l => l.Nodup ∧ (∀ name ∈ l, name ∈ dir.map Prod.fst) ∧ Unread l chain acc)
    (fun acc name l hI => ?_) names [] ⟨hnames.nodup_iff.mpr h.keys,
      fun name hname => hnames.mem_iff.mp hname, fun _ _ _ _ l' hl' => (by cases hl')⟩
  · rw [hfold, nil_append] at hloop
    exact .bind (.ask _) (.bind (.pure _) hloop)
  · obtain ⟨hnodup, hmem, hunread⟩ := hI
    refine ⟨loadOne_gives h d (hmem name mem_cons_self) hunread,
      (nodup_cons.mp hnodup).2, fun name' hname' => hmem name' (mem_cons_of_mem _ hname'),
      fun name' hname' l' hl' l'' hl'' => ?_⟩
    rcases mem_append.mp hl'' with hl'' | hl''
    · exact hunread name' (mem_cons_of_mem _ hname') l' hl' l'' hl''
    · -- the manifest just read is the one of this file, and file names differ
      intro heq
      obtain ⟨-, hname⟩ := fileOf_some hl'
      obtain ⟨-, hname''⟩ := fileOf_some (Option.mem_toList.mp hl'')
      rw [← hname, ← heq, hname''] at hname'
      exact (nodup_cons.mp hnodup).1 hname'

theorem listed_perm (hnames : names.Perm (dir.map Prod.fst)) :
    (listed chain names).Perm chain := by
  have hchain : chain.Nodup := h.sorted.imp fun {l l'} hlt heq => by
    rw [heq] at hlt
    exact absurd hlt (lt_irrefl _)
  have hlisted : (listed chain names).Nodup := by
    refine List.Nodup.filterMap ?_ (hnames.nodup_iff.mpr h.keys)
    intro a b l ha hb
    exact (fileOf_some ha).2.symm.trans (fileOf_some hb).2
  refine (perm_ext_iff_of_nodup hlisted hchain).mpr fun l => ?_
  constructor
  · intro hl
    obtain ⟨name, -, hfile⟩ := mem_filterMap.mp hl
    exact (fileOf_some hfile).1
  · intro hl
    refine mem_filterMap.mpr ⟨manifestName l.manifest.seq, ?_, h.fileOf_eq hl⟩
    exact hnames.mem_iff.mpr (mem_map_of_mem (PyDict.lookup_mem (h.shelved l hl).bytes))

theorem sorted_listed (hnames : names.Perm (dir.map Prod.fst)) :
    (listed chain names).insertionSort (fun l l' => l.manifest.seq ≤ l'.manifest.seq) = chain := by
  have hperm := (perm_insertionSort (fun l l' : Signed Json =>
    l.manifest.seq ≤ l'.manifest.seq) (listed chain names)).trans (listed_perm h hnames)
  refine hperm.eq_of_pairwise ?_ ?_ (h.sorted.imp fun hlt => le_of_lt hlt)
  · intro a b ha hb hab hba
    exact h.seq_inj (hperm.mem_iff.mp ha) hb (le_antisymm hab hba)
  · exact pairwise_insertionSort _ _

end

/-- One host. -/
def OneHost (chain : List (Signed Json)) : Prop :=
  ∀ l ∈ chain, ∀ l' ∈ chain, l.manifest.hostId = l'.manifest.hostId

variable {d : String}

theorem loadChain_gives (h : Shelf u verify args dir chain) (hdirs : args.outDirs = [d])
    (hnames : names.Perm (dir.map Prod.fst)) (hhost : OneHost chain)
    (hverify : verifyChain manifestSha256 (chain.map Signed.manifest) = .ok ()) :
    Gives (loadChain u (tools verify) (honest dir names) args) chain := by
  unfold loadChain
  rw [hdirs, foldlM_cons]
  refine .bind (a := listed chain names)
    (.bind (load_gives h d hnames) (.pure _)) ?_
  dsimp only
  rw [sorted_listed h hnames, if_neg (by
    rintro ⟨l, hl, l', hl', hne⟩
    exact hne (hhost l hl l' hl'))]
  have hverify' : verifyChain (tools verify).digest (chain.map Signed.manifest) = .ok () := hverify
  rw [hverify']
  exact .pure chain

theorem loadChain_refuses (h : Shelf u verify args dir chain) (hdirs : args.outDirs = [d])
    (hnames : names.Perm (dir.map Prod.fst)) (hhost : ¬ OneHost chain) :
    Fails (loadChain u (tools verify) (honest dir names) args) := by
  unfold loadChain
  rw [hdirs, foldlM_cons]
  refine (Gives.bind (load_gives h d hnames) (Gives.pure (listed chain names))).bind_fails ?_
  dsimp only
  rw [sorted_listed h hnames, if_pos (by simpa [OneHost] using hhost)]
  exact Fails.throw _

/-! ## Blobs -/

def isBlob (dir : Dir) (name : String) : Bool :=
  ".btrfs.age".toList.isSuffixOf name.toList && (PyDict.lookup dir name).isSome

/-- The index of one directory. -/
def indexOf (dir : Dir) (d : String) (names : List String) : List (String × String) :=
  (names.filter (isBlob dir)).map fun name => (name, d)

theorem indexOf_singleton (dir : Dir) (d name : String) :
    indexOf dir d [name] = if isBlob dir name = true then [(name, d)] else [] := by
  rw [indexOf, filter_cons, filter_nil]
  split <;> rfl

theorem indexOne_gives (verify : Bytes → Bytes → Bool) (d : String)
    {index : List (String × String)} {name : String} (hname : name ∉ index.map Prod.fst) :
    Gives (indexOne (tools verify) (honest dir names) d index name)
      (index ++ indexOf dir d [name]) := by
  have hlookup : index.lookup name = none := by
    rw [lookup_eq_none_iff]
    intro p hp
    exact bne_iff_ne.mpr fun heq => hname (heq ▸ mem_map_of_mem hp)
  rw [indexOf_singleton, isBlob]
  unfold indexOne
  cases ".btrfs.age".toList.isSuffixOf name.toList with
  | false =>
    rw [if_pos rfl, Bool.false_and, if_neg Bool.false_ne_true, append_nil]
    exact .pure _
  | true =>
    rw [if_neg Bool.true_eq_false.mp, Bool.true_and]
    refine .bind (a := (PyDict.lookup dir name).isSome) (.ask _) ?_
    cases (PyDict.lookup dir name).isSome with
    | false =>
      rw [if_pos rfl, if_neg Bool.false_ne_true, append_nil]
      exact .pure _
    | true =>
      rw [if_neg Bool.true_eq_false.mp, if_pos rfl, hlookup]
      exact .pure _

theorem blobIndex_gives (verify : Bytes → Bytes → Bool) (hdirs : args.outDirs = [d])
    (hnodup : names.Nodup) :
    Gives (blobIndex (tools verify) (honest dir names) args) (indexOf dir d names) := by
  have hkeys : ∀ l name, name ∈ (indexOf dir d l).map Prod.fst → name ∈ l := by
    intro l name hname
    simp only [indexOf, map_map, mem_map, mem_filter] at hname
    obtain ⟨name', ⟨hmem, -⟩, rfl⟩ := hname
    exact hmem
  have hfold : ∀ (l : List String) (index : List (String × String)),
      l.foldl (fun index name => index ++ indexOf dir d [name]) index =
        index ++ indexOf dir d l := by
    intro l
    induction l with
    | nil => exact fun index => (append_nil index).symm
    | cons name l ih =>
      intro index
      rw [foldl_cons, ih, append_assoc]
      simp only [indexOf, filter_cons, filter_nil]
      split <;> rfl
  have hloop := Gives.foldlM (f := indexOne (tools verify) (honest dir names) d)
    (g := fun index name => index ++ indexOf dir d [name])
    (I := fun index l => l.Nodup ∧ ∀ name ∈ l, name ∉ index.map Prod.fst)
    (fun index name l hI => ?_) names [] ⟨hnodup, fun _ _ hmem => (by cases hmem)⟩
  · rw [hfold, nil_append] at hloop
    unfold blobIndex
    rw [hdirs, foldlM_cons]
    exact .bind (.bind (.ask _) hloop) (.pure _)
  · obtain ⟨hnd, hnew⟩ := hI
    refine ⟨indexOne_gives verify d (hnew name mem_cons_self), (nodup_cons.mp hnd).2,
      fun name' hname' hmem => ?_⟩
    rw [map_append, mem_append] at hmem
    rcases hmem with hmem | hmem
    · exact hnew name' (mem_cons_of_mem _ hname') hmem
    · rw [mem_singleton.mp (hkeys _ _ hmem)] at hname'
      exact (nodup_cons.mp hnd).1 hname'

theorem lookup_indexOf {name : String} (hname : name ∈ names) (hblob : isBlob dir name = true) :
    (indexOf dir d names).lookup name = some d := by
  cases hlookup : (indexOf dir d names).lookup name with
  | none =>
    rw [lookup_eq_none_iff] at hlookup
    have hmem : (name, d) ∈ indexOf dir d names :=
      mem_map_of_mem (mem_filter.mpr ⟨hname, hblob⟩)
    exact absurd rfl (bne_iff_ne.mp (hlookup _ hmem))
  | some d' =>
    obtain ⟨l₁, l₂, heq, -⟩ := lookup_eq_some_iff.mp hlookup
    have hmem : (name, d') ∈ indexOf dir d names := by
      rw [heq]
      exact mem_append_right _ mem_cons_self
    obtain ⟨name', -, hpair⟩ := mem_map.mp hmem
    cases hpair
    rfl

theorem verifyBlob_gives (verify : Bytes → Bytes → Bool) {e : Entry String}
    (hname : e.blob ∈ names) (hblob : isBlob dir e.blob = true) :
    Gives (verifyBlob (tools verify) (honest dir names) (indexOf dir d names) e)
      (goodBlob dir e) := by
  have hfile : (PyDict.lookup dir e.blob).isSome = true := (Bool.and_eq_true_iff.mp hblob).2
  obtain ⟨blob, hlookup⟩ := Option.isSome_iff_exists.mp hfile
  unfold verifyBlob
  rw [lookup_indexOf hname hblob, goodBlob, hlookup]
  dsimp only [honest]
  refine .bind (.ask _) ?_
  rw [if_neg (by simp [hfile])]
  refine .bind (.ask _) ?_
  rw [hlookup]
  refine .bind (a := blob.length) (.pure _) (.bind (.ask _) ?_)
  refine .bind (a := blob) (.pure _) ?_
  have hsha : (tools verify).sha256 blob = sha256Hex blob := rfl
  rw [hsha]
  by_cases hgood : blob.length = e.size ∧ sha256Hex blob = e.sha256
  · rw [if_pos hgood]
    refine .bind (.record _) ?_
    rw [beq_iff_eq.mpr hgood.1, beq_iff_eq.mpr hgood.2]
    exact .pure true
  · rw [if_neg hgood]
    have hbad : (blob.length == e.size && sha256Hex blob == e.sha256) = false := by
      rw [Bool.and_eq_false_iff, beq_eq_false_iff_ne, beq_eq_false_iff_ne]
      exact not_and_or.mp hgood
    rw [hbad]
    exact .pure false

theorem verifyBlobs_gives (verify : Bytes → Bytes → Bool) {es : List (Entry String)}
    (h : ∀ e ∈ es, e.blob ∈ names ∧ isBlob dir e.blob = true) :
    Gives (verifyBlobs (tools verify) (honest dir names) (indexOf dir d names) es)
      (es.all (goodBlob dir)) := by
  have hloop := Gives.foldlM (f := fun fine (e : Entry String) => do
      let good ← verifyBlob (tools verify) (honest dir names) (indexOf dir d names) e
      pure (fine && good))
    (g := fun fine e => fine && goodBlob dir e)
    (I := fun _ l => ∀ e ∈ l, e.blob ∈ names ∧ isBlob dir e.blob = true)
    (fun fine e l hI => ⟨Gives.bind (verifyBlob_gives verify (hI e mem_cons_self).1
      (hI e mem_cons_self).2) (.pure _), fun e' he' => hI e' (mem_cons_of_mem _ he')⟩)
    es true h
  have hall : ∀ (l : List (Entry String)) (b : Bool),
      l.foldl (fun fine e => fine && goodBlob dir e) b = (b && l.all (goodBlob dir)) := by
    intro l
    induction l with
    | nil => exact fun b => (Bool.and_true b).symm
    | cons e l ih =>
      intro b
      rw [foldl_cons, ih, all_cons, Bool.and_assoc]
  rw [hall, Bool.true_and] at hloop
  exact hloop

/-- **What the verification of an honest target finds.** -/
theorem inspect_gives (h : Shelf u verify args dir chain) (hdirs : args.outDirs = [d])
    (hnames : names.Perm (dir.map Prod.fst)) (hhost : OneHost chain)
    (hverify : verifyChain manifestSha256 (chain.map Signed.manifest) = .ok ())
    (hblobs : ∀ e ∈ entriesOf (chain.map Signed.manifest), isBlob dir e.blob = true) :
    Gives (inspect u (tools verify) (honest dir names) args)
      (chain, (entriesOf (chain.map Signed.manifest)).all (goodBlob dir)) := by
  refine .bind (loadChain_gives h hdirs hnames hhost hverify) ?_
  refine .bind (blobIndex_gives verify hdirs (hnames.nodup_iff.mpr h.keys)) ?_
  refine .bind (verifyBlobs_gives verify fun e he => ⟨?_, hblobs e he⟩) (.pure _)
  obtain ⟨blob, hblob⟩ := Option.isSome_iff_exists.mp (Bool.and_eq_true_iff.mp (hblobs e he)).2
  exact hnames.mem_iff.mpr (mem_map_of_mem (PyDict.lookup_mem hblob))

end Shelf

end Backup
