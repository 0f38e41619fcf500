/-
# Restoring from hostile storage

`cmd_restore` of `qdistro_backup_cli` with `_load_chain`, `_blob_index`, `_verify_blobs_multi` and
`_verified_receive`.  The storage answers every read anew: `Storage` gives its answers as functions
of a clock that ticks at each question, so a file may change between any two reads.

What the restore has done is its log: which manifests it has found signed, which blobs it has
checked, and what it has handed to the receiving command.  The main result is
`restore_authenticated`.
-/
import QDistro.BackupManifest
import QDistro.EffectRules

namespace Backup

open EffectRules List
open ErrorRules

abbrev Bytes := List UInt8

variable {δ : Type}

/-! ## The storage -/

/-- What the target answers, at each tick, about a directory or a file in it; `none` is an
`OSError`. -/
structure Storage where
  listdir : ℕ → String → Option (List String)
  read : ℕ → String → String → Option Bytes
  isfile : ℕ → String → String → Bool
  getsize : ℕ → String → String → Option ℕ
  /-- Whether what happens on the restoring machine succeeds: `os.makedirs`, `rage -d`, and the
  receiving command. -/
  works : ℕ → Bool

/-- `parse_manifest`, `manifest_sha256`, `sha256_hex`, and `verify_signature` against the pinned
signers. -/
structure Tools (δ : Type) where
  parse : Bytes → Except ManifestError (Manifest String δ)
  digest : δ → String
  sha256 : Bytes → String
  verify : (canonical signature : Bytes) → Bool

structure Args where
  outDirs : List String
  allowedSigners : Bool
  identity : Bool
  insecure : Bool
  checkpoint : Option ℤ
  subvol : String

/-- A manifest with the bytes it was parsed from and their signature. -/
structure Signed (δ : Type) where
  manifest : Manifest String δ
  canonical : Bytes
  signature : Option Bytes

inductive Event (δ : Type)
  | signed (l : Signed δ)
  | checked (e : Entry String)
  | received (e : Entry String) (blob : Bytes)

structure Run (δ : Type) where
  clock : ℕ
  log : List (Event δ)

inductive Abort
  /-- `BackupError` or `ManifestError`. -/
  | refused
  /-- Any other exception. -/
  | uncaught
  deriving DecidableEq

abbrev RestoreM (δ α : Type) := Act (Run δ) Abort α

def ask {α : Type} (answer : ℕ → α) : RestoreM δ α :=
  fun s => (.ok (answer s.clock), { s with clock := s.clock + 1 })

def record (e : Event δ) : RestoreM δ Unit := Act.modify fun s => { s with log := s.log ++ [e] }

/-- An answer that must be there. -/
def must {α : Type} (abort : Abort) : Option α → RestoreM δ α
  | some a => pure a
  | none => throw abort

variable (u : UnicodeDb) (T : Tools δ) (st : Storage) (args : Args)

/-! ## The chain -/

/-- `MANIFEST_RE` -/
def isManifestName (name : String) : Bool :=
  let rest := name.toList.drop "manifest-".length
  let digits := rest.takeWhile fun c => (u.decimal c).isSome
  PyText.startswith name "manifest-" && !digits.isEmpty &&
    (rest.drop digits.length = ".json".toList || rest.drop digits.length = ".json\n".toList)

/-- `_require_signing` -/
def requireSigning : RestoreM δ Unit :=
  if args.insecure = false ∧ args.allowedSigners = false then throw .refused
  else if args.allowedSigners = true ∧ args.identity = false then throw .refused
  else pure ()

/-- The signature of a manifest, read and verified. -/
def checkSignature (dir name : String) (m : Manifest String δ) (canonical : Bytes) :
    RestoreM δ (Signed δ) :=
  if args.allowedSigners = true then do
    let there ← ask fun n => st.isfile n dir (name ++ ".sig")
    if there = false then throw .refused
    else do
      let answer ← ask fun n => st.read n dir (name ++ ".sig")
      let signature ← must .uncaught answer
      if T.verify canonical signature = false then throw .refused
      else do
        record (.signed ⟨m, canonical, some signature⟩)
        pure ⟨m, canonical, some signature⟩
  else pure ⟨m, canonical, none⟩

/-- One file of `_load_chain`. -/
def loadOne (dir : String) (acc : List (Signed δ)) (name : String) : RestoreM δ (List (Signed δ)) :=
  if isManifestName u name = false then pure acc
  else do
    let answer ← ask fun n => st.read n dir name
    let canonical ← must .uncaught answer
    match T.parse canonical with
    | .error _ => throw .refused
    | .ok m => do
      let l ← checkSignature T st args dir name m canonical
      match acc.find? (fun l' => l'.manifest.seq = m.seq) with
      | some l' => if l'.canonical ≠ canonical then throw .refused else pure acc
      | none => pure (acc ++ [l])

/-- One directory of `_load_chain`. -/
def loadDir (acc : List (Signed δ)) (dir : String) : RestoreM δ (List (Signed δ)) := do
  let answer ← ask fun n => st.listdir n dir
  let names ← must .refused answer
  names.foldlM (loadOne u T st args dir) acc

/-- `_load_chain` -/
def loadChain : RestoreM δ (List (Signed δ)) := do
  let loaded ← args.outDirs.foldlM (loadDir u T st args) []
  let chain := loaded.insertionSort fun l l' => l.manifest.seq ≤ l'.manifest.seq
  if ∃ l ∈ chain, ∃ l' ∈ chain, l.manifest.hostId ≠ l'.manifest.hostId then throw .refused
  else
    match verifyChain T.digest (chain.map Signed.manifest) with
    | .error _ => throw .refused
    | .ok _ => pure chain

/-! ## The blobs -/

/-- `_files_identical` -/
def filesIdentical (dir dir' name : String) : RestoreM δ Bool := do
  let size ← ask fun n => st.getsize n dir name
  let size' ← ask fun n => st.getsize n dir' name
  let blob ← ask fun n => st.read n dir name
  let blob' ← ask fun n => st.read n dir' name
  pure (size.isSome && size = size' && blob.isSome && blob.map T.sha256 = blob'.map T.sha256)

/-- One name of `_blob_index`. -/
def indexOne (dir : String) (index : List (String × String)) (name : String) :
    RestoreM δ (List (String × String)) :=
  if ".btrfs.age".toList.isSuffixOf name.toList = false then pure index
  else do
    let there ← ask fun n => st.isfile n dir name
    if there = false then pure index
    else
      match index.lookup name with
      | some dir' =>
        if dir' = dir then pure index
        else do
          let same ← filesIdentical T st dir' dir name
          if same = false then throw .refused else pure index
      | none => pure (index ++ [(name, dir)])

/-- One directory of `_blob_index`; one that cannot be listed is passed over. -/
def indexDir (index : List (String × String)) (dir : String) : RestoreM δ (List (String × String)) := do
  let answer ← ask fun n => st.listdir n dir
  match answer with
  | none => pure index
  | some names => names.foldlM (indexOne T st dir) index

/-- `_blob_index` -/
def blobIndex : RestoreM δ (List (String × String)) := args.outDirs.foldlM (indexDir T st) []

/-- `verify_blobs` on one entry: whether there is no problem with it. -/
def verifyBlob (index : List (String × String)) (e : Entry String) : RestoreM δ Bool :=
  match index.lookup e.blob with
  | none => pure false
  | some dir => do
    let there ← ask fun n => st.isfile n dir e.blob
    if there = false then pure false
    else do
      let answer ← ask fun n => st.getsize n dir e.blob
      let size ← must .uncaught answer
      let answer' ← ask fun n => st.read n dir e.blob
      let blob ← must .uncaught answer'
      if size = e.size ∧ T.sha256 blob = e.sha256 then do
        record (.checked e)
        pure true
      else pure false

/-- The loop over the entries: whether no problem was found. -/
def verifyBlobs (index : List (String × String)) (entries : List (Entry String)) :
    RestoreM δ Bool :=
  entries.foldlM (fun fine e => do
    let good ← verifyBlob T st index e
    pure (fine && good)) true

/-! ## The restore -/

/-- `check_freshness`, where a checkpoint is given. -/
def fresh (chain : List (Manifest String δ)) : Except ManifestError Unit :=
  match args.checkpoint, chain.getLast? with
  | some c, some newest => checkFreshness newest c
  | _, _ => .ok ()

/-- Everything before the first blob is received. -/
def plan : RestoreM δ (List (String × String) × List (Entry String)) := do
  requireSigning args
  let chain ← loadChain u T st args
  match fresh args (chain.map Signed.manifest) with
  | .error _ => throw .refused
  | .ok _ => do
    let index ← blobIndex T st args
    let fine ← verifyBlobs T st index (entriesOf (chain.map Signed.manifest))
    if fine = false then throw .refused
    else
      match restoreOrder (chain.map Signed.manifest) args.subvol with
      | .error _ => throw .refused
      | .ok order => pure (index, order)

/-- `_verified_receive`: a private copy is hashed and received. -/
def verifiedReceive (e : Entry String) (dir : String) : RestoreM δ Bool := do
  let copy ← ask fun n => st.read n dir e.blob
  match copy with
  | none => pure false
  | some blob =>
    if T.sha256 blob ≠ e.sha256 then pure false
    else do
      record (.received e blob)
      ask st.works

/-- The blobs in order; an ancestor has a directory made for it first. -/
def receiveAll (index : List (String × String)) : List (Entry String) → RestoreM δ Bool
  | [] => pure true
  | e :: rest => do
    let made ← ask fun n => rest.isEmpty || st.works n
    if made = false then pure false
    else
      match index.lookup e.blob with
      | none => throw .uncaught
      | some dir => do
        let done ← verifiedReceive T st e dir
        if done = false then pure false else receiveAll index rest

/-- `cmd_restore`: whether it returned 0. -/
def cmdRestore : RestoreM δ Bool := do
  let (index, order) ← plan u T st args
  receiveAll T st index order

/-! ## What has been done by the time a blob is received -/

/-- Nothing has been received. -/
def Idle (log : List (Event δ)) : Prop := ∀ e blob, Event.received e blob ∉ log

variable {log : List (Event δ)}

theorem Idle.append (h : Idle log) {ev : Event δ} (hev : ∀ e blob, Event.received e blob ≠ ev) :
    Idle (log ++ [ev]) := by
  intro e blob hmem
  rcases mem_append.mp hmem with hmem | hmem
  · exact h e blob hmem
  · exact hev e blob (mem_singleton.mp hmem)

section Rules

variable {P : List (Event δ) → Prop} {E : Abort → Run δ → Prop}

theorem ask_bind {α β : Type} {answer : ℕ → α} {f : α → RestoreM δ β} {Q : β → Run δ → Prop}
    (h : ∀ a, Triple (fun s => P s.log) (f a) Q E) :
    Triple (fun s => P s.log) (ask answer >>= f) Q E := by
  intro s hs
  exact h (answer s.clock) { s with clock := s.clock + 1 } hs

theorem must_bind {α β : Type} {abort : Abort} {answer : Option α} {f : α → RestoreM δ β}
    {Q : β → Run δ → Prop} (hE : ∀ s : Run δ, P s.log → E abort s)
    (h : ∀ a, Triple (fun s => P s.log) (f a) Q E) :
    Triple (fun s => P s.log) (must abort answer >>= f) Q E := by
  cases answer with
  | none => exact fun s hs => hE s hs
  | some a => exact fun s hs => h a s hs

theorem record_triple {ev : Event δ} {Q : List (Event δ) → Prop}
    (h : ∀ log, P log → Q (log ++ [ev])) :
    Triple (fun s => P s.log) (record ev) (fun _ s => Q s.log) E :=
  Triple.modify fun s hs => h s.log hs

theorem refuse {α : Type} {abort : Abort} {Q : α → Run δ → Prop} (hP : ∀ log, P log → Idle log) :
    Triple (fun s => P s.log) (throw abort : RestoreM δ α) Q fun _ s => Idle s.log :=
  Triple.throw fun s hs => hP s.log hs

end Rules

/-- A manifest of the chain: its bytes parse to it, and their signature is valid and was checked. -/
def Attested (log : List (Event δ)) (l : Signed δ) : Prop :=
  T.parse l.canonical = .ok l.manifest ∧
    (∃ signature, l.signature = some signature ∧ T.verify l.canonical signature = true) ∧
    Event.signed l ∈ log

/-- The log so far: nothing received, and every manifest of the list attested. -/
def Loaded (acc : List (Signed δ)) (log : List (Event δ)) : Prop :=
  Idle log ∧ ∀ l ∈ acc, Attested T log l

theorem Loaded.append {acc : List (Signed δ)} (h : Loaded T acc log) {ev : Event δ}
    (hev : ∀ e blob, Event.received e blob ≠ ev) : Loaded T acc (log ++ [ev]) :=
  ⟨h.1.append hev, fun l hl => ⟨(h.2 l hl).1, (h.2 l hl).2.1,
    mem_append_left _ (h.2 l hl).2.2⟩⟩

variable {T st args}

theorem checkSignature_triple (hsec : args.allowedSigners = true) {dir name : String}
    {m : Manifest String δ} {canonical : Bytes} (hparse : T.parse canonical = .ok m)
    (acc : List (Signed δ)) :
    Triple (fun s => Loaded T acc s.log) (checkSignature T st args dir name m canonical)
      (fun l s => l.manifest = m ∧ l.canonical = canonical ∧ Loaded T (acc ++ [l]) s.log)
      (fun _ s => Idle s.log) := by
  unfold checkSignature
  rw [if_pos hsec]
  refine ask_bind fun there => .ite (fun _ => refuse fun _ h => h.1) fun _ => ?_
  refine ask_bind fun answer => must_bind (fun s hs => hs.1) fun signature => ?_
  refine .ite (fun _ => refuse fun _ h => h.1) fun hverify => ?_
  refine (record_triple (P := Loaded T acc) (Q := fun log => Loaded T acc log ∧
    Event.signed ⟨m, canonical, some signature⟩ ∈ log) fun log h =>
    ⟨h.append T fun _ _ heq => (by cases heq), mem_append_right _ mem_cons_self⟩).bind
    fun _ => .pure fun s hs => ⟨rfl, rfl, hs.1.1, fun l hl => ?_⟩
  rcases mem_append.mp hl with hl | hl
  · exact hs.1.2 l hl
  · rw [mem_singleton.mp hl]
    exact ⟨hparse, ⟨signature, rfl, by simpa using hverify⟩, hs.2⟩

theorem Loaded.of_append {acc acc' : List (Signed δ)} (h : Loaded T (acc ++ acc') log) :
    Loaded T acc log :=
  ⟨h.1, fun l hl => h.2 l (mem_append_left _ hl)⟩

theorem loadOne_triple (hsec : args.allowedSigners = true) (dir : String) (acc : List (Signed δ))
    (name : String) :
    Triple (fun s => Loaded T acc s.log) (loadOne u T st args dir acc name)
      (fun acc' s => Loaded T acc' s.log) (fun _ s => Idle s.log) := by
  refine .ite (fun _ => .pure fun _ h => h) fun _ => ?_
  refine ask_bind fun answer => must_bind (fun s hs => hs.1) fun canonical => ?_
  cases hparse : T.parse canonical with
  | error e => exact refuse fun _ h => h.1
  | ok m =>
    refine (checkSignature_triple hsec hparse acc).bind fun l => ?_
    cases acc.find? (fun l' => l'.manifest.seq = m.seq) with
    | some l' =>
      exact .ite (fun _ => .throw fun s hs => hs.2.2.1)
        fun _ => .pure fun s hs => hs.2.2.of_append
    | none => exact .pure fun s hs => hs.2.2

theorem foldlM_keeps {α β : Type} {f : β → α → RestoreM δ β} {I : β → Run δ → Prop}
    {E : Abort → Run δ → Prop} (hstep : ∀ b a, Triple (I b) (f b a) I E) (l : List α) (b : β) :
    Triple (I b) (l.foldlM f b) I E :=
  Triple.foldlM (I := fun _ b => I b) (fun _ a _ b _ => hstep b a) b

theorem loadDir_triple (hsec : args.allowedSigners = true) (acc : List (Signed δ)) (dir : String) :
    Triple (fun s => Loaded T acc s.log) (loadDir u T st args acc dir)
      (fun acc' s => Loaded T acc' s.log) (fun _ s => Idle s.log) := by
  refine ask_bind fun answer => must_bind (fun s hs => hs.1) fun names => ?_
  exact foldlM_keeps (I := fun acc s => Loaded T acc s.log)
    (fun acc name => loadOne_triple u hsec dir acc name) names acc

/-- One host, one verified chain, every manifest of it attested. -/
structure ChainOk (T : Tools δ) (log : List (Event δ)) (chain : List (Signed δ)) : Prop where
  attested : ∀ l ∈ chain, Attested T log l
  host : ∀ l ∈ chain, ∀ l' ∈ chain, l.manifest.hostId = l'.manifest.hostId
  verified : verifyChain T.digest (chain.map Signed.manifest) = .ok ()

theorem loadChain_triple (hsec : args.allowedSigners = true) :
    Triple (fun s => Idle s.log) (loadChain u T st args)
      (fun chain s => Idle s.log ∧ ChainOk T s.log chain) (fun _ s => Idle s.log) := by
  have hload := (foldlM_keeps (I := fun acc s => Loaded T acc s.log)
    (fun acc dir => @loadDir_triple _ u _ st _ hsec acc dir) args.outDirs []).weaken
    (P := fun s => Idle s.log) fun s hs => ⟨hs, fun l hl => (by cases hl)⟩
  refine hload.bind fun loaded => .ite (fun _ => refuse fun _ h => h.1) fun hhost => ?_
  cases hverify : verifyChain T.digest
      ((loaded.insertionSort fun l l' => l.manifest.seq ≤ l'.manifest.seq).map
        Signed.manifest) with
  | error e => exact refuse fun _ h => h.1
  | ok _ =>
    refine .pure fun s hs => ⟨hs.1, fun l hl => hs.2 l ?_, fun l hl l' hl' => ?_, hverify⟩
    · exact (perm_insertionSort _ loaded).mem_iff.mp hl
    · exact not_not.mp fun hne => hhost ⟨l, hl, l', hl', hne⟩

/-- The log once the chain is loaded: nothing received, and these blobs checked. -/
structure Grown (T : Tools δ) (chain : List (Signed δ)) (done : List (Entry String))
    (log : List (Event δ)) : Prop where
  idle : Idle log
  chainOk : ChainOk T log chain
  checked : ∀ e ∈ done, Event.checked e ∈ log

theorem Grown.append {chain : List (Signed δ)} {done : List (Entry String)}
    (h : Grown T chain done log) (e : Entry String) :
    Grown T chain (done ++ [e]) (log ++ [Event.checked e]) := by
  refine ⟨h.idle.append fun _ _ heq => (by cases heq), ⟨fun l hl => ?_, h.chainOk.host,
    h.chainOk.verified⟩, fun e' he' => ?_⟩
  · have hl := h.chainOk.attested l hl
    exact ⟨hl.1, hl.2.1, mem_append_left _ hl.2.2⟩
  · rcases mem_append.mp he' with he' | he'
    · exact mem_append_left _ (h.checked e' he')
    · rw [mem_singleton.mp he']
      exact mem_append_right _ mem_cons_self

theorem Grown.of_append {chain : List (Signed δ)} {done done' : List (Entry String)}
    (h : Grown T chain (done ++ done') log) : Grown T chain done log :=
  ⟨h.idle, h.chainOk, fun e he => h.checked e (mem_append_left _ he)⟩

section

variable (chain : List (Signed δ))

theorem indexOne_triple (dir : String) (index : List (String × String)) (name : String) :
    Triple (fun s => Grown T chain [] s.log) (indexOne T st dir index name)
      (fun _ s => Grown T chain [] s.log) (fun _ s => Idle s.log) := by
  refine .ite (fun _ => .pure fun _ h => h) fun _ => ask_bind fun there => ?_
  refine .ite (fun _ => .pure fun _ h => h) fun _ => ?_
  cases index.lookup name with
  | none => exact .pure fun _ h => h
  | some dir' =>
    refine .ite (fun _ => .pure fun _ h => h) fun _ => ?_
    have hsame : Triple (fun s => Grown T chain [] s.log) (filesIdentical T st dir' dir name)
        (fun _ s => Grown T chain [] s.log) (fun _ s => Idle s.log) :=
      ask_bind fun _ => ask_bind fun _ => ask_bind fun _ => ask_bind fun _ =>
        Triple.pure fun _ h => h
    exact hsame.bind fun _ => .ite (fun _ => refuse fun _ h => h.idle)
      fun _ => .pure fun _ h => h

theorem blobIndex_triple :
    Triple (fun s => Grown T chain [] s.log) (blobIndex T st args)
      (fun _ s => Grown T chain [] s.log) (fun _ s => Idle s.log) := by
  refine foldlM_keeps (I := fun _ s => Grown T chain [] s.log) (fun index dir => ?_) _ _
  refine ask_bind fun answer => ?_
  cases answer with
  | none => exact .pure fun _ h => h
  | some names =>
    exact foldlM_keeps (I := fun _ s => Grown T chain [] s.log)
      (fun index name => indexOne_triple chain dir index name) names index

theorem verifyBlob_triple (done : List (Entry String)) (index : List (String × String))
    (e : Entry String) :
    Triple (fun s => Grown T chain done s.log) (verifyBlob T st index e)
      (fun good s => Grown T chain done s.log ∧ (good = true → Grown T chain (done ++ [e]) s.log))
      (fun _ s => Idle s.log) := by
  have hfail : Triple (fun s => Grown T chain done s.log) (pure false : RestoreM δ Bool)
      (fun good s => Grown T chain done s.log ∧
        (good = true → Grown T chain (done ++ [e]) s.log)) (fun _ s => Idle s.log) :=
    Triple.pure fun s hs => ⟨hs, fun h => (by cases h)⟩
  unfold verifyBlob
  cases index.lookup e.blob with
  | none => exact hfail
  | some dir =>
    refine ask_bind fun there => .ite (fun _ => hfail) fun _ => ask_bind fun answer => ?_
    refine must_bind (fun s hs => hs.idle) fun size => ask_bind fun answer' => ?_
    refine must_bind (fun s hs => hs.idle) fun blob => .ite (fun _ => ?_) fun _ => hfail
    refine (record_triple fun log hlog => hlog.append e).bind fun _ => ?_
    exact .pure fun s hs => ⟨hs.of_append, fun _ => hs⟩

theorem verifyBlobs_triple (index : List (String × String)) (entries : List (Entry String)) :
    Triple (fun s => Grown T chain [] s.log) (verifyBlobs T st index entries)
      (fun fine s => Idle s.log ∧ (fine = true → Grown T chain entries s.log))
      (fun _ s => Idle s.log) := by
  have hloop : Triple (fun s : Run δ => Grown T chain [] s.log ∧
        (true = true → Grown T chain [] s.log))
      (verifyBlobs T st index entries)
      (fun fine s => Grown T chain [] s.log ∧ (fine = true → Grown T chain entries s.log))
      (fun _ s => Idle s.log) := by
    refine .foldlM (I := fun before fine (s : Run δ) =>
      Grown T chain [] s.log ∧ (fine = true → Grown T chain before s.log)) ?_ true
    intro before e after fine _
    cases fine with
    | false =>
      refine ((verifyBlob_triple chain [] index e).weaken fun s hs => hs.1).bind
        fun good => .pure fun s hs => ⟨hs.1, fun h => (by cases h)⟩
    | true =>
      refine ((verifyBlob_triple chain before index e).weaken
        fun s hs => hs.2 rfl).bind fun good => .pure fun s hs => ?_
      exact ⟨@Grown.of_append _ _ _ _ [] _ hs.1, fun h => hs.2 h⟩
  exact hloop.conseq (fun s hs => ⟨hs, fun _ => hs⟩) (fun _ s hs => ⟨hs.1.idle, hs.2⟩)
    (fun _ _ hs => hs)

end

/-! ## The order -/

/-- What is known when the first blob is about to be received. -/
structure Planned (T : Tools δ) (args : Args) (log : List (Event δ)) (chain : List (Signed δ))
    (order : List (Entry String)) : Prop where
  grown : Grown T chain (entriesOf (chain.map Signed.manifest)) log
  fresh : ∀ c, args.checkpoint = some c → ∃ newest ∈ chain, c ≤ newest.manifest.seq ∧
    (chain.map Signed.manifest).getLast? = some newest.manifest
  order_eq : restoreOrder (chain.map Signed.manifest) args.subvol = .ok order

theorem plan_triple (hsec : args.insecure = false) :
    Triple (fun s => Idle s.log) (plan u T st args)
      (fun p s => ∃ chain, Planned T args s.log chain p.2) (fun _ s => Idle s.log) := by
  unfold plan requireSigning
  by_cases hsigners : args.allowedSigners = true
  swap
  · rw [if_pos ⟨hsec, by simpa using hsigners⟩]
    exact (refuse fun _ h => h).bind (Q := fun _ _ => False) fun _ s hs => hs.elim
  refine .bind (Q := fun _ s => Idle s.log) (.ite (fun _ => refuse fun _ h => h)
    fun _ => .ite (fun _ => refuse fun _ h => h) fun _ => .pure fun _ h => h) fun _ => ?_
  refine (loadChain_triple u hsigners).bind fun chain => ?_
  cases hfresh : fresh args (chain.map Signed.manifest) with
  | error e => exact .throw fun s hs => hs.1
  | ok _ =>
    refine ((blobIndex_triple chain).weaken fun s hs =>
      ⟨hs.1, hs.2, fun e he => (by cases he)⟩).bind fun index => ?_
    refine (verifyBlobs_triple chain index _).bind fun fine => ?_
    refine .ite (fun _ => .throw fun s hs => hs.1) fun hfine => ?_
    cases horder : restoreOrder (chain.map Signed.manifest) args.subvol with
    | error e => exact .throw fun s hs => hs.1
    | ok order =>
      refine .pure fun s hs => ⟨chain, hs.2 (by simpa using hfine), fun c hc => ?_, horder⟩
      have hgrown := hs.2 (by simpa using hfine)
      have hne := (verifyChain_eq_ok T.digest hgrown.chainOk.verified).1
      have hlast := getLast?_eq_getLast_of_ne_nil hne
      rw [fresh, hc, hlast] at hfresh
      obtain ⟨newest, hnewest, heq⟩ := mem_map.mp (getLast_mem hne)
      refine ⟨newest, hnewest, ?_, ?_⟩
      · rw [heq]
        exact not_lt.mp (ite_error_eq_ok.mp hfresh).1
      · rw [heq]
        exact hlast

/-- **What is received** follows the order, each blob with the digest its entry records. -/
theorem receiveAll_triple (index : List (String × String)) (order : List (Entry String))
    (before : List (Event δ)) :
    Triple (fun s => s.log = before) (receiveAll T st index order)
      (fun _ s => ∃ rs : List (Entry String × Bytes),
        s.log = before ++ rs.map (fun r => Event.received r.1 r.2) ∧ rs.map Prod.fst <+: order ∧
          ∀ r ∈ rs, T.sha256 r.2 = r.1.sha256)
      (fun _ s => ∃ rs : List (Entry String × Bytes),
        s.log = before ++ rs.map (fun r => Event.received r.1 r.2) ∧ rs.map Prod.fst <+: order ∧
          ∀ r ∈ rs, T.sha256 r.2 = r.1.sha256) := by
  have hnone : ∀ (order : List (Entry String)) (s : Run δ) (before : List (Event δ)),
      s.log = before → ∃ rs : List (Entry String × Bytes),
        s.log = before ++ rs.map (fun r => Event.received r.1 r.2) ∧ rs.map Prod.fst <+: order ∧
          ∀ r ∈ rs, T.sha256 r.2 = r.1.sha256 := by
    intro order s before hs
    exact ⟨[], by rw [hs, map_nil, append_nil], nil_prefix, fun r hr => (by cases hr)⟩
  induction order generalizing before with
  | nil => exact .pure fun s hs => hnone _ s before hs
  | cons e rest ih =>
    refine ask_bind (P := fun log => log = before) fun made => ?_
    refine .ite (fun _ => .pure fun s hs => hnone _ s before hs) fun _ => ?_
    cases index.lookup e.blob with
    | none => exact .throw fun s hs => hnone _ s before hs
    | some dir =>
      have hone : Triple (fun s => s.log = before) (verifiedReceive T st e dir)
          (fun done s => (done = false ∧ s.log = before) ∨ ∃ blob, T.sha256 blob = e.sha256 ∧
            s.log = before ++ [Event.received e blob]) (fun _ s => s.log = before) := by
        refine ask_bind (P := fun log => log = before) fun copy => ?_
        cases copy with
        | none => exact .pure fun s hs => .inl ⟨rfl, hs⟩
        | some blob =>
          refine .ite (fun _ => .pure fun s hs => .inl ⟨rfl, hs⟩) fun hsha => ?_
          refine (record_triple (P := fun log => log = before)
            (Q := fun log => log = before ++ [Event.received e blob])
            fun log hlog => by rw [hlog]).bind fun _ => ?_
          intro s hs
          exact .inr ⟨blob, not_not.mp hsha, hs⟩
      refine (hone.conseq (fun _ h => h) (fun _ _ h => h)
        fun _ s hs => hnone (e :: rest) s before hs).bind fun done => ?_
      have hprepend : ∀ (s : Run δ) (blob : Bytes), T.sha256 blob = e.sha256 →
          (∃ rs : List (Entry String × Bytes), s.log = (before ++ [Event.received e blob]) ++
            rs.map (fun r => Event.received r.1 r.2) ∧ rs.map Prod.fst <+: rest ∧
              ∀ r ∈ rs, T.sha256 r.2 = r.1.sha256) →
          ∃ rs : List (Entry String × Bytes), s.log = before ++
            rs.map (fun r => Event.received r.1 r.2) ∧ rs.map Prod.fst <+: e :: rest ∧
              ∀ r ∈ rs, T.sha256 r.2 = r.1.sha256 := by
        rintro s blob hsha ⟨rs, hlog, horder, hdigest⟩
        refine ⟨(e, blob) :: rs, by rw [hlog]; simp, cons_prefix_cons.mpr ⟨rfl, horder⟩, ?_⟩
        intro r hr
        rcases mem_cons.mp hr with rfl | hr
        · exact hsha
        · exact hdigest r hr
      intro s hs
      rcases hs with ⟨rfl, hs⟩ | ⟨blob, hsha, hs⟩
      · exact hnone _ s before hs
      · have hrest := ih (before ++ [Event.received e blob]) s hs
        by_cases hdone : done = false
        · rw [if_pos hdone]
          refine hprepend s blob hsha ?_
          exact hnone _ s _ hs
        · rw [if_neg hdone]
          rcases hres : receiveAll T st index rest s with ⟨r, t⟩
          rw [hres] at hrest
          cases r with
          | ok done' => exact hprepend t blob hsha hrest
          | error e' => exact hprepend t blob hsha hrest

theorem Lineage.initial {es es' : List (Entry String)} (h : Lineage es') (hp : es <+: es') :
    Lineage es := by
  obtain ⟨tail, rfl⟩ := hp
  intro before e after hes parent hparent
  refine h before e (after ++ tail) ?_ parent hparent
  rw [hes, append_assoc, cons_append]

/-- What is promised of a restore that received `rs` after it had logged `before`. -/
structure Authentic (T : Tools δ) (args : Args) (before : List (Event δ))
    (rs : List (Entry String × Bytes)) (chain : List (Signed δ)) : Prop where
  /-- Every manifest is what its bytes parse to, and their signature is valid; this was found
  before anything was received. -/
  attested : ∀ l ∈ chain, Attested T before l
  host : ∀ l ∈ chain, ∀ l' ∈ chain, l.manifest.hostId = l'.manifest.hostId
  /-- One chain, from a manifest without predecessor. -/
  linked : Linked T.digest none (chain.map Signed.manifest)
  /-- It ends at a number not below the checkpoint. -/
  fresh : ∀ c, args.checkpoint = some c → ∃ newest ∈ chain, c ≤ newest.manifest.seq ∧
    (chain.map Signed.manifest).getLast? = some newest.manifest
  /-- Every blob of the chain was checked before anything was received. -/
  checked : ∀ e ∈ entriesOf (chain.map Signed.manifest), Event.checked e ∈ before
  /-- What is received has the digest that an entry of the requested subvolume records. -/
  recorded : ∀ r ∈ rs, T.sha256 r.2 = r.1.sha256 ∧ r.1.subvol = args.subvol ∧
    r.1 ∈ entriesOf (chain.map Signed.manifest)
  full : ∀ r ∈ rs.head?, r.1.parentBlob = none
  /-- Every incremental is received after its parent. -/
  lineage : Lineage (rs.map Prod.fst)

/-- **Authenticated restore.**  Whatever the storage answers, a restore that verifies first logs
without receiving anything, and what it receives afterwards is authentic. -/
theorem restore_authenticated (u : UnicodeDb) (T : Tools δ) (st : Storage) (args : Args)
    (hsec : args.insecure = false) :
    ∃ (before : List (Event δ)) (rs : List (Entry String × Bytes)),
      (cmdRestore u T st args ⟨0, []⟩).2.log =
        before ++ rs.map (fun r => .received r.1 r.2) ∧
      Idle before ∧ (rs ≠ [] → ∃ chain, Authentic T args before rs chain) := by
  have hplan := @plan_triple _ u T st _ hsec ⟨0, []⟩ fun _ _ h => (by cases h)
  rcases hres : plan u T st args ⟨0, []⟩ with ⟨r, t⟩
  rw [hres] at hplan
  cases r with
  | error e =>
    refine ⟨t.log, [], ?_, hplan, fun h => absurd rfl h⟩
    rw [cmdRestore, Act.bind_eq_of_error hres, List.map_nil, List.append_nil]
  | ok p =>
    obtain ⟨chain, hp⟩ := hplan
    obtain ⟨hne, hlinked, hlineage⟩ := verifyChain_eq_ok T.digest hp.grown.chainOk.verified
    obtain ⟨horder, e, rest, hcons, hfull⟩ := restoreOrder_eq_ok hp.order_eq
    have hend := @receiveAll_triple _ T st p.1 p.2 t.log t rfl
    obtain ⟨rs, hlog, hprefix, hdigest⟩ := Ends.state (R := fun s : Run δ =>
      ∃ rs : List (Entry String × Bytes), s.log = t.log ++ rs.map (fun r => .received r.1 r.2) ∧
        rs.map Prod.fst <+: p.2 ∧ ∀ r ∈ rs, T.sha256 r.2 = r.1.sha256) hend (fun _ _ h => h)
      (fun _ _ h => h)
    refine ⟨t.log, rs, ?_, hp.grown.idle, fun _ => ⟨chain, ?_⟩⟩
    · rw [cmdRestore, Act.bind_eq_of_ok hres]
      exact hlog
    have hmem : ∀ r ∈ rs, r.1 ∈ p.2 := fun r hr => hprefix.subset (List.mem_map_of_mem hr)
    refine ⟨hp.grown.chainOk.attested, hp.grown.chainOk.host, hlinked, hp.fresh,
      hp.grown.checked, fun r hr => ⟨hdigest r hr, ?_⟩, fun r hr => ?_, ?_⟩
    · have hin := hmem r hr
      rw [horder] at hin
      obtain ⟨hin, hsub⟩ := List.mem_filter.mp hin
      exact ⟨of_decide_eq_true hsub, hin⟩
    · -- the first one received is the first of the order
      cases rs with
      | nil => cases hr
      | cons r' rs' =>
        cases hr
        rw [hcons, List.map_cons] at hprefix
        rw [(List.cons_prefix_cons.mp hprefix).1]
        exact hfull
    · rw [horder] at hprefix
      exact (hlineage.filter args.subvol).initial hprefix

end Backup
