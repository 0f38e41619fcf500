/-
# A vault file refines a finite map

Over every sequence of calls on one vault, each failing where it will before it replaces the file,
the items that can be read under the unlocked key are the entries of a finite map: what was added
last and not deleted since.  Sealing the key again keeps the key and the items, and a call that
raises leaves the file as it was.

The exception is an empty vault.  `reseal_vault_with_master_key` tells a wrong key by one item
that does not decrypt under it; where there is no item, any key of the right length is sealed in
place of the vault's own.
-/
import QDistro.ErrorRules
import QDistro.VaultFile

namespace VaultFile

open EffectRules
open ErrorRules
open JsonText
open TransitionSystem
open Pwd (Pins)

variable {h : Host} {env : Env} {dir name : String}

/-! ## Writing the file -/

theorem tempPath_ne (env : Env) (path : String) : tempPath env path ≠ path := by
  intro heq
  have hlen := congrArg String.length heq
  simp only [tempPath, String.length_append] at hlen
  have h1 : ".".length = 1 := rfl
  omega

theorem lift_triple {α : Type} {P : Disk → Prop} {x : Except VaultError α} {Q : α → Disk → Prop}
    (hQ : ∀ a d, x = .ok a → P d → Q a d) : Triple P (lift x) Q fun _ => P := by
  intro d hd
  show Ends Q (fun _ => P) (x, d)
  cases x with
  | ok a => exact hQ a d rfl hd
  | error e => exact hd

theorem pass_triple {P : Disk → Prop} (env : Env) (site : Site) :
    Triple P (lift (env.pass site)) (fun _ => P) fun _ => P :=
  lift_triple fun _ _ _ hd => hd

theorem fillAndReplace_triple {tmp path : String} (hne : tmp ≠ path) (body : Body)
    (v : Option Content) :
    Triple (fun d => d path = v) (fillAndReplace env tmp path body)
      (fun _ d => d path = some (.json body)) (fun _ d => d path = v) := by
  have hwritten : Triple (fun d => d path = v)
      (Act.modify fun d => Function.update d tmp (some (Content.json body)))
      (fun _ (d : Disk) => d path = v ∧ d tmp = some (.json body))
      (fun (_ : VaultError) d => d path = v) := by
    refine .modify fun d hd => ⟨?_, Function.update_self ..⟩
    rw [Function.update_of_ne (Ne.symm hne)]
    exact hd
  have hkeep : ∀ site, Triple (fun d => d path = v ∧ d tmp = some (.json body))
      (lift (env.pass site)) (fun _ d => d path = v ∧ d tmp = some (.json body))
      (fun _ d => d path = v) :=
    fun site => (pass_triple env site).conseq (fun _ hd => hd) (fun _ _ hd => hd)
      (fun _ _ hd => hd.1)
  refine (pass_triple env .fchmod).bind fun _ => ?_
  refine (pass_triple env .write).bind fun _ => hwritten.bind fun _ => ?_
  refine (hkeep .fsync).bind fun _ => (hkeep .replace).bind fun _ => ?_
  refine .modify fun d hd => ?_
  rw [Function.update_of_ne (Ne.symm hne), Function.update_self]
  exact hd.2

/-- **The write.**  It replaces the file, or it raises and leaves it. -/
theorem atomicWriteJson_triple (path : String) (body : Body) (v : Option Content) :
    Triple (fun d => d path = v) (atomicWriteJson env path body)
      (fun _ d => d path = some (.json body)) (fun _ d => d path = v) := by
  have hne : tempPath env path ≠ path := tempPath_ne env path
  have hother : ∀ (d : Disk) c, d path = v → Function.update d (tempPath env path) c path = v := by
    intro d c hd
    rw [Function.update_of_ne (Ne.symm hne)]
    exact hd
  refine (pass_triple env .mkstemp).bind fun _ => .get_bind fun d hd => ?_
  refine .ite (fun _ => .throw fun t ht => ?_) fun _ => ?_
  · rw [ht]
    exact hd
  · have hstart : Triple (fun t => t = d)
        (Act.modify fun d => Function.update d (tempPath env path) (some .torn))
        (fun _ t => t path = v) (fun (_ : VaultError) t => t path = v) := by
      refine .modify fun t ht => ?_
      rw [ht]
      exact hother d _ hd
    refine hstart.bind fun _ => (fillAndReplace_triple hne body v).tryCatch fun e => ?_
    have hdrop : Triple (fun t => t path = v) (dropTemp env (tempPath env path))
        (fun _ t => t path = v) (fun _ t => t path = v) := by
      refine .modify fun t ht => ?_
      by_cases hu : env.fails .unlink = true
      · rw [if_pos hu]
        exact ht
      · rw [if_neg hu]
        exact hother t _ ht
    exact hdrop.bind fun _ => .throw fun t ht => ht

/-- The file of a vault, `none` also where the name is refused. -/
def vaultFile (dir name : String) (d : Disk) : Option Content :=
  match vaultPath dir name with
  | .ok path => d path
  | .error _ => none

theorem parse_eq_ok {content : Option Content} {body : Body} (hp : parse env content = .ok body) :
    content = some (.json body) := by
  cases content with
  | none => cases hp
  | some c =>
    cases c with
    | torn => cases hp
    | json b =>
      obtain ⟨_, -, hb⟩ := bind_eq_ok.mp hp
      rw [Except.ok.inj (ite_error_eq_ok.mp hb).2]

theorem load_triple (path : String) (v : Option Content) :
    Triple (fun d => d path = v) (load env path)
      (fun body d => d path = v ∧ v = some (.json body)) (fun _ d => d path = v) := by
  refine .get_bind fun d hd => ?_
  intro t ht
  rw [show t = d from ht]
  refine lift_triple (P := fun t => t path = v) (fun body t hok ht => ⟨ht, ?_⟩) d hd
  rw [← hd]
  exact parse_eq_ok hok

theorem withPath_triple {α : Type} {f : String → VaultM α} {v : Option Content}
    {Q : α → Disk → Prop}
    (hf : ∀ path, vaultPath dir name = .ok path → Triple (fun d => d path = v) (f path)
      Q (fun _ d => d path = v)) :
    Triple (fun d => vaultFile dir name d = v) (lift (vaultPath dir name) >>= f) Q
      (fun _ d => vaultFile dir name d = v) := by
  unfold vaultFile
  cases hpath : vaultPath dir name with
  | error e => exact .throw fun _ hd => hd
  | ok path => exact hf path hpath

theorem vaultFile_eq {path : String} (hpath : vaultPath dir name = .ok path) (d : Disk) :
    vaultFile dir name d = d path := by
  rw [vaultFile, hpath]

/-- **A call that reads.** -/
theorem reading_triple {α : Type} (read : Body → Except VaultError α) (v : Option Content) :
    Triple (fun d => vaultFile dir name d = v) (reading env dir name read)
      (fun a d => vaultFile dir name d = v ∧ ∃ body, v = some (.json body) ∧ read body = .ok a)
      (fun _ d => vaultFile dir name d = v) := by
  refine withPath_triple fun path hpath => ?_
  refine (load_triple path v).bind fun body => ?_
  intro d hd
  have hread := lift_triple (P := fun d => d path = v) (x := read body)
    (Q := fun a d => vaultFile dir name d = v ∧ ∃ body, v = some (.json body) ∧ read body = .ok a)
    (fun a d hok hd' => ⟨(vaultFile_eq hpath d).trans hd', body, hd.2, hok⟩)
  exact hread d hd.1

variable {d : Disk}

theorem reading_absent {α : Type} {read : Body → Except VaultError α}
    (hf : vaultFile dir name d = none) (a : α) : (reading env dir name read d).1 ≠ .ok a := by
  intro hread
  have hend := @reading_triple env _ _ _ read none d hf
  rcases hres : reading env dir name read d with ⟨r, t⟩
  rw [hres] at hread hend
  cases hread
  obtain ⟨-, body, habsent, -⟩ := hend
  cases habsent

/-- **A call that replaces the file.**  It writes what it makes of the body it loaded. -/
theorem rewriting_triple (change : Body → Except VaultError Body) (v : Option Content) :
    Triple (fun d => vaultFile dir name d = v) (rewriting env dir name change)
      (fun _ d => ∃ body body', v = some (.json body) ∧ change body = .ok body' ∧
        vaultFile dir name d = some (.json body'))
      (fun _ d => vaultFile dir name d = v) := by
  refine withPath_triple fun path hpath => ?_
  refine (load_triple path v).bind fun body => .of_forall fun d hd => ?_
  have hchange : Triple (fun d => d path = v) (lift (change body))
      (fun body' d => d path = v ∧ change body = .ok body') (fun _ d => d path = v) :=
    lift_triple fun body' d hok hd => ⟨hd, hok⟩
  have hstart : ∀ t : Disk, t = d → t path = v := by
    intro t ht
    rw [ht]
    exact hd.1
  refine (hchange.weaken hstart).bind fun body' => .of_forall fun t ht => ?_
  refine (atomicWriteJson_triple path body' v).conseq ?_ (fun _ u hu => ?_) (fun _ _ hu => hu)
  · intro u hu
    rw [hu]
    exact ht.1
  · exact ⟨body, body', hd.2, ht.2, (vaultFile_eq hpath u).trans hu⟩

/-- **A call that creates the file.** -/
theorem createWith_triple (first : Except VaultError Body) (v : Option Content) :
    Triple (fun d => vaultFile dir name d = v) (createWith env dir name first)
      (fun _ d => ∃ body, v = none ∧ first = .ok body ∧ vaultFile dir name d = some (.json body))
      (fun _ d => vaultFile dir name d = v) := by
  refine withPath_triple fun path hpath => ?_
  refine (pass_triple env .makedirs).bind fun _ => .get_bind fun d hd => ?_
  have hkeep : ∀ t : Disk, t = d → t path = v := by
    intro t ht
    rw [ht]
    exact hd
  refine .ite (fun _ => .throw hkeep) fun hnone => ?_
  have hv : v = none := by
    rw [← hd]
    exact Option.not_isSome_iff_eq_none.mp hnone
  have hfresh : Triple (fun t => t path = v) (lift first)
      (fun body t => t path = v ∧ first = .ok body) (fun _ t => t path = v) :=
    lift_triple fun body t hok ht => ⟨ht, hok⟩
  refine (hfresh.weaken hkeep).bind fun body => .of_forall fun t ht => ?_
  refine (atomicWriteJson_triple path body v).conseq ?_ (fun _ u hu => ?_) (fun _ _ hu => hu)
  · intro u hu
    rw [hu]
    exact ht.1
  · exact ⟨body, hv, ht.2, (vaultFile_eq hpath u).trans hu⟩

/-- **The call that deletes.**  Where it finds nothing it writes nothing. -/
theorem deleteItem_triple (tag : String) (v : Option Content) :
    Triple (fun d => vaultFile dir name d = v) (deleteItem env dir name tag)
      (fun _ d => ∃ body, v = some (.json body) ∧ vaultFile dir name d =
        some (.json { body with items := body.items.filter fun it => it.tag ≠ tag }))
      (fun _ d => vaultFile dir name d = v) := by
  refine withPath_triple fun path hpath => ?_
  refine (load_triple path v).bind fun body => .of_forall fun d hd => ?_
  have hkeep : ∀ t : Disk, t = d → t path = v := by
    intro t ht
    rw [ht]
    exact hd.1
  refine .ite (fun hlen => .pure fun t ht => ?_) fun _ => ?_
  · refine ⟨body, hd.2, ?_⟩
    have hall : body.items.filter (fun it => it.tag ≠ tag) = body.items :=
      List.filter_eq_self.mpr (List.length_filter_eq_length_iff.mp hlen)
    rw [hall, vaultFile_eq hpath, hkeep t ht, hd.2]
  · refine ((atomicWriteJson_triple path _ v).weaken hkeep).bind fun _ => .pure fun t ht => ?_
    exact ⟨body, hd.2, (vaultFile_eq hpath t).trans ht⟩

/-! ## Reading without failures -/

/-- An environment in which no step fails. -/
def Env.Quiet (env : Env) : Prop := ∀ site, env.fails site = false

theorem Env.Quiet.pass (hq : env.Quiet) (site : Site) : env.pass site = .ok () := by
  rw [Env.pass, hq site]
  rfl

theorem exists_path {c : Content} (hf : vaultFile dir name d = some c) :
    ∃ path, vaultPath dir name = .ok path ∧ d path = some c := by
  unfold vaultFile at hf
  cases hpath : vaultPath dir name with
  | error e =>
    rw [hpath] at hf
    cases hf
  | ok path =>
    rw [hpath] at hf
    exact ⟨path, rfl, hf⟩

theorem reading_quiet {α : Type} (hq : env.Quiet) {body : Body}
    (hf : vaultFile dir name d = some (.json body))
    (hv : body.version = versionScrypt ∨ body.version = versionTpm)
    (read : Body → Except VaultError α) :
    reading env dir name read d = (read body, d) := by
  obtain ⟨path, hpath, hd⟩ := exists_path hf
  have hparse : parse env (d path) = .ok body := by
    have hnot : ¬ (body.version ≠ versionScrypt ∧ body.version ≠ versionTpm) := by
      rintro ⟨h1, h2⟩
      exact hv.elim h1 h2
    rw [hd]
    show (env.pass .openFile >>= fun _ => _) = _
    rw [hq.pass]
    exact if_neg hnot
  have hload : load env path d = (.ok body, d) := by
    show (parse env (d path), d) = (.ok body, d)
    rw [hparse]
  have hlift : (lift (vaultPath dir name) : VaultM String) d = (.ok path, d) := by
    rw [hpath]
    rfl
  unfold reading
  rw [Act.bind_eq_of_ok hlift, Act.bind_eq_of_ok hload]
  rfl

/-! ## The seal -/

theorem b64d_b64e (b : Bytes) : b64d (b64e b) = .ok b := by
  rw [b64d, b64e, String.toList_ofList, Base64.decode_encode]

/-- The master key is sealed under a password. -/
def SealedScrypt (h : Host) (name : String) (body : Body) (secret key : Bytes) : Prop :=
  body.version = versionScrypt ∧ ∃ kdf kek salt nonce, body.kdf = some kdf ∧ body.kek = some kek ∧
    b64d kdf.salt = .ok salt ∧ b64d kek.nonce = .ok nonce ∧ b64d kek.ciphertext =
      .ok (h.encrypt (h.derive scryptN secret salt) nonce key (aadFor name "__master__"))

/-- The master key is sealed under a PIN. -/
def SealedTpm (h : Host) (body : Body) (secret key : Bytes) : Prop :=
  body.version = versionTpm ∧ ∃ sealed backend, body.tpmSeal = some sealed ∧
    sealed.backend ≠ "" ∧ sealed.blob ≠ [] ∧ h.lookup sealed.backend = some backend ∧
    backend.unsealBlob sealed.blob secret = .ok key ∧
    ∀ other, other ≠ secret → backend.unsealBlob sealed.blob other = .error .authFailed

/-- `secret` opens the vault, to `key`. -/
structure Sealed (h : Host) (name : String) (body : Body) (secret key : Bytes) : Prop where
  length : key.length = masterKeyBytes
  sealed : SealedScrypt h name body secret key ∨ SealedTpm h body secret key

variable {secret : Bytes}

theorem Sealed.version {body : Body} {key : Bytes} (hs : Sealed h name body secret key) :
    body.version = versionScrypt ∨ body.version = versionTpm :=
  hs.sealed.imp And.left And.left

theorem SealedScrypt.unseal (hh : h.Ideal) {body : Body} {key other key' : Bytes}
    (hs : SealedScrypt h name body secret key)
    (hu : unsealScrypt h env name body other = .ok key') : other = secret ∧ key' = key := by
  obtain ⟨hv, kdf, kek, salt, nonce, hkdf, hkek, hsalt, hnonce, hct⟩ := hs
  rw [unsealScrypt, if_neg (not_not.mpr hv), hkdf, hkek] at hu
  simp only [need, bind_eq_ok, Except.ok.injEq, hsalt, hnonce, hct, exists_eq_left'] at hu
  obtain ⟨_, -, hu⟩ := hu
  cases hdec : h.decrypt (h.derive scryptN other salt) nonce
      (h.encrypt (h.derive scryptN secret salt) nonce key (aadFor name "__master__"))
      (aadFor name "__master__") with
  | none =>
    rw [hdec] at hu
    cases hu
  | some k =>
    rw [hdec] at hu
    have hkey : k = key' := Except.ok.inj (ite_error_eq_ok.mp hu).2
    have hother : other = secret := hh.derive_injective _ _ (hh.decrypt_only _ _ _ _ _ _ _ _ hdec).1
    rw [hother, hh.decrypt_encrypt] at hdec
    exact ⟨hother, hkey.symm.trans (Option.some.inj hdec).symm⟩

theorem SealedTpm.unseal {body : Body} {key other key' : Bytes} (hs : SealedTpm h body secret key)
    (hu : unsealTpm h env body other = .ok key') : other = secret ∧ key' = key := by
  obtain ⟨hv, sealed, backend, hseal, hname, hblob, hlookup, hkey, hothers⟩ := hs
  have hbad : ¬ (sealed.backend = "" ∨ sealed.blob = []) := fun hor => hor.elim hname hblob
  rw [unsealTpm, if_neg (not_not.mpr hv), hseal] at hu
  simp only [if_neg hbad, hlookup, bind_eq_ok] at hu
  obtain ⟨_, -, hu⟩ := hu
  by_cases hother : other = secret
  · rw [hother, hkey] at hu
    exact ⟨hother, (Except.ok.inj (ite_error_eq_ok.mp hu).2).symm⟩
  · rw [hothers other hother] at hu
    cases hu

/-- What the two ways of unlocking come to on a loaded body. -/
def unsealBody (h : Host) (env : Env) (name : String) (body : Body) (secret : Bytes) :
    Except VaultError Bytes :=
  if body.version = versionTpm then unsealTpm h env body secret
  else unsealScrypt h env name body secret

/-- **The secret and no other opens the vault.** -/
theorem Sealed.unseal_iff (hh : h.Ideal) (hq : env.Quiet) {body : Body} {key : Bytes}
    (hs : Sealed h name body secret key) (other key' : Bytes) :
    unsealBody h env name body other = .ok key' ↔ other = secret ∧ key' = key := by
  rcases hs.sealed with hscrypt | htpm
  · have hv : ¬ body.version = versionTpm := by
      rw [hscrypt.1]
      decide
    rw [unsealBody, if_neg hv]
    refine ⟨hscrypt.unseal hh, ?_⟩
    rintro ⟨rfl, rfl⟩
    obtain ⟨hv, kdf, kek, salt, nonce, hkdf, hkek, hsalt, hnonce, hct⟩ := hscrypt
    rw [unsealScrypt, if_neg (not_not.mpr hv), hkdf, hkek]
    simp only [need, bind_eq_ok, Except.ok.injEq, hsalt, hnonce, hct, exists_eq_left', hq.pass,
      hh.decrypt_encrypt, hs.length, ne_eq, not_true, if_false]
    exact ⟨(), trivial, trivial⟩
  · rw [unsealBody, if_pos htpm.1]
    refine ⟨htpm.unseal, ?_⟩
    rintro ⟨rfl, rfl⟩
    obtain ⟨hv, sealed, backend, hseal, hname, hblob, hlookup, hkey, -⟩ := htpm
    have hbad : ¬ (sealed.backend = "" ∨ sealed.blob = []) := fun hor => hor.elim hname hblob
    rw [unsealTpm, if_neg (not_not.mpr hv), hseal]
    simp only [if_neg hbad, hlookup, bind_eq_ok, hq.pass, hkey, hs.length, ne_eq, not_true,
      if_false]
    exact ⟨(), trivial, trivial⟩

theorem unlock_quiet (hq : env.Quiet) {body : Body} (hf : vaultFile dir name d = some (.json body))
    (hv : body.version = versionScrypt ∨ body.version = versionTpm) (secret : Bytes) :
    unlock h env dir name secret d = (unsealBody h env name body secret, d) := by
  rw [unlock, Act.bind_eq_of_ok (a := body.version) (t := d) (reading_quiet hq hf hv _), unsealBody]
  by_cases ht : body.version = versionTpm
  · rw [if_pos ht, if_pos ht]
    exact reading_quiet hq hf hv _
  · rw [if_neg ht, if_neg ht]
    exact reading_quiet hq hf hv _

theorem sealScrypt_sealed {body : Body} {key : Bytes} {kdf : Kdf} {kek : Kek}
    (hs : sealScrypt h env name secret key = .ok (kdf, kek)) (hv : body.version = versionScrypt)
    (hkdf : body.kdf = some kdf) (hkek : body.kek = some kek) :
    SealedScrypt h name body secret key := by
  simp only [sealScrypt, bind_eq_ok, Except.ok.injEq, Prod.mk.injEq] at hs
  obtain ⟨_, -, _, -, rfl, rfl⟩ := hs
  exact ⟨hv, _, _, _, _, hkdf, hkek, b64d_b64e _, b64d_b64e _, b64d_b64e _⟩

/-- A backend that `lookup_backend` finds under its name. -/
abbrev Host.Backends (h : Host) := {b : Backend // h.lookup b.name = some b}

theorem sealTpm_sealed (hh : h.Ideal) {body : Body} {key : Bytes} {sealed : TpmSeal}
    (b : h.Backends) {pcrs : Option String} (hs : sealTpm env b.1 secret key pcrs = .ok sealed)
    (hv : body.version = versionTpm) (hbody : body.tpmSeal = some sealed) :
    SealedTpm h body secret key := by
  simp only [sealTpm, bind_eq_ok] at hs
  obtain ⟨_, -, hs⟩ := hs
  have hideal := hh.lookup_ideal b.2
  cases hblob : b.1.sealSecret key secret pcrs env.seed with
  | error e =>
    rw [hblob] at hs
    cases hs
  | ok blob =>
    rw [hblob] at hs
    cases hs
    exact ⟨hv, _, b.1, hbody, hideal.name_ne, hideal.blob_ne hblob, b.2, hideal.unseal_seal hblob,
      fun _ hne => hideal.unseal_other hblob hne⟩

/-! ## The items -/

/-- What was stored under a tag. -/
structure Entry where
  value : Bytes
  pins : Pins

/-- An item of the file holds an entry, encrypted under the master key. -/
def ItemHolds (h : Host) (name : String) (key : Bytes) (it : Item) (e : Entry) : Prop :=
  it.pins = e.pins ∧ ∃ nonce, b64d it.nonce = .ok nonce ∧
    b64d it.ciphertext = .ok (h.encrypt key nonce e.value (aadFor name it.tag))

/-- The items of a file are the entries of a map. -/
def Represents (h : Host) (name : String) (key : Bytes) (items : List Item)
    (entries : String → Option Entry) : Prop :=
  ∀ tag, Option.Rel (ItemHolds h name key) (findItem items tag) (entries tag)

theorem findItem_tag {items : List Item} {tag : String} {it : Item}
    (hf : findItem items tag = some it) : it.tag = tag := by
  have := List.find?_some hf
  simpa using this

theorem findItem_upsert (items : List Item) (entry : Item) (tag : String) :
    findItem (upsert items entry) tag =
      if entry.tag = tag then some entry else findItem items tag := by
  induction items with
  | nil => by_cases he : entry.tag = tag <;> simp [upsert, findItem, he]
  | cons it rest ih =>
    by_cases hit : it.tag = entry.tag
    · by_cases he : entry.tag = tag
      · simp [upsert, findItem, hit, he]
      · simp [upsert, findItem, hit, he]
    · rw [upsert, if_neg hit]
      by_cases ht : it.tag = tag
      · have he : ¬ entry.tag = tag := fun he => hit (ht.trans he.symm)
        simp [findItem, ht, he]
      · simp only [findItem, List.find?_cons, ht, decide_false]
        exact ih

theorem findItem_filter (items : List Item) (tag t : String) :
    findItem (items.filter fun it => it.tag ≠ tag) t = if t = tag then none else findItem items t := by
  unfold findItem
  rw [List.find?_filter]
  by_cases ht : t = tag
  · rw [if_pos ht, List.find?_eq_none]
    intro it _ hit
    simp only [ne_eq, decide_not, decide_eq_true_eq] at hit
    simp [hit.2, ht] at hit
  · rw [if_neg ht]
    congr 1
    funext it
    by_cases hit : it.tag = t
    · simp [hit, ht]
    · simp [hit]

theorem Represents.upsert {key : Bytes} {items : List Item} {entries : String → Option Entry}
    (hr : Represents h name key items entries) {entry : Item} {e : Entry}
    (he : ItemHolds h name key entry e) :
    Represents h name key (upsert items entry)
      (Function.update entries entry.tag (some e)) := by
  intro tag
  rw [findItem_upsert]
  by_cases ht : entry.tag = tag
  · rw [if_pos ht, ← ht, Function.update_self]
    exact .some he
  · rw [if_neg ht, Function.update_of_ne (Ne.symm ht)]
    exact hr tag

theorem Represents.filter {key : Bytes} {items : List Item} {entries : String → Option Entry}
    (hr : Represents h name key items entries) (tag : String) :
    Represents h name key (items.filter fun it => it.tag ≠ tag)
      (Function.update entries tag none) := by
  intro t
  rw [findItem_filter]
  by_cases ht : t = tag
  · rw [if_pos ht, ht, Function.update_self]
    exact .none
  · rw [if_neg ht, Function.update_of_ne ht]
    exact hr t

/-- **Where there is an item, the key that passes the check is the vault's.** -/
theorem Represents.checkKey (hh : h.Ideal) {key key' : Bytes} {items : List Item}
    {entries : String → Option Entry} (hr : Represents h name key items entries)
    (hne : items ≠ []) (hok : checkKey h name key' items = .ok ()) : key' = key := by
  obtain ⟨it, rest, rfl⟩ := List.exists_cons_of_ne_nil hne
  -- the first item is the one found under its own tag
  have hfind : findItem (it :: rest) it.tag = some it := by simp [findItem]
  have hrel := hr it.tag
  rw [hfind] at hrel
  cases hentry : entries it.tag with
  | none =>
    rw [hentry] at hrel
    cases hrel
  | some e =>
    rw [hentry] at hrel
    obtain ⟨-, nonce, hnonce, hct⟩ : ItemHolds h name key it e := by
      cases hrel
      assumption
    simp only [VaultFile.checkKey, probe, hnonce, hct] at hok
    cases hdec : h.decrypt key' nonce (h.encrypt key nonce e.value (aadFor name it.tag))
        (aadFor name it.tag) with
    | none =>
      rw [hdec] at hok
      cases hok
    | some _ => exact (hh.decrypt_only _ _ _ _ _ _ _ _ hdec).1

/-! ## The calls -/

/-- The calls on one vault. -/
inductive Call (h : Host)
  | create (password : Bytes)
  | createTpm (pin : Bytes) (backend : Option h.Backends) (pcrs : Option String)
  | unlock (secret : Bytes)
  | add (key : Bytes) (tag : String) (value : Bytes) (pins : Pins) (replace : Bool)
  | delete (tag : String)
  | rotate (old new : Bytes)
  | rotateTpm (old new : Bytes) (backend : Option h.Backends) (pcrs : Option String)
  | reseal (key pin : Bytes) (backend : Option h.Backends) (pcrs : Option String)

/-- What a call does to the disk, and the key that it returns. -/
def Call.exec (env : Env) (dir name : String) : Call h → VaultM (Option Bytes)
  | .create password => do
    createVault h env dir name password
    pure none
  | .createTpm pin backend pcrs => do
    createVaultTpm env dir name pin (backend.map Subtype.val) pcrs
    pure none
  | .unlock secret => do
    let key ← VaultFile.unlock h env dir name secret
    pure (some key)
  | .add key tag value pins replace => do
    addItem h env dir name key tag value pins replace
    pure none
  | .delete tag => do
    let _ ← deleteItem env dir name tag
    pure none
  | .rotate old new => do
    rotateVault h env dir name old new
    pure none
  | .rotateTpm old new backend pcrs => do
    rotateVaultTpm h env dir name old new (backend.map Subtype.val) pcrs
    pure none
  | .reseal key pin backend pcrs => do
    resealVaultWithMasterKey h env dir name key pin (backend.map Subtype.val) pcrs
    pure none

/-- What a vault is for: a key and a finite map. -/
structure Spec where
  key : Bytes
  entries : String → Option Entry

/-- What a call that returned does to the map. -/
def Call.apply (env : Env) : Call h → Option Spec → Option Spec
  | .create _, _ | .createTpm _ _ _, _ => some ⟨env.key, fun _ => none⟩
  | .add _ tag value pins _, spec =>
    spec.map fun sp => { sp with entries := Function.update sp.entries tag (some ⟨value, pins⟩) }
  | .delete tag, spec =>
    spec.map fun sp => { sp with entries := Function.update sp.entries tag none }
  | _, spec => spec

/-- The disk, the keys that were unlocked so far, and the map. -/
structure State where
  disk : Disk
  unlocked : List Bytes
  spec : Option Spec

/-- A key to encrypt under is one that was unlocked: the daemon answers `PwdNotUnlocked`
otherwise. -/
def Call.allowed (s : State) : Call h → Bool
  | .add key _ _ _ _ => decide (key ∈ s.unlocked)
  | _ => true

/-- One call. -/
def step (h : Host) (dir name : String) (s : State) (a : Call h × Env) : State :=
  if a.1.allowed s then
    match a.1.exec a.2 dir name s.disk with
    | (.error _, d) => { s with disk := d }
    | (.ok key, d) =>
      { disk := d, unlocked := key.toList ++ s.unlocked, spec := a.1.apply a.2 s.spec }
  else s

/-- An empty directory. -/
def State.start : State := ⟨fun _ => none, [], none⟩

/-- A vault that is sealed again has an item to tell the key by, or the key is its own. -/
def Checked (dir name : String) (s : State) (a : Call h × Env) : Prop :=
  match a.1 with
  | .reseal key _ _ _ =>
    ∀ sp body, s.spec = some sp → vaultFile dir name s.disk = some (.json body) →
      body.items = [] → key = sp.key
  | _ => True

/-- **What a call that returned has done to the file.** -/
def Call.Effect (env : Env) (name : String) :
    Call h → Option Content → Option Bytes → Option Content → Prop
  | .create password, v, key, w =>
    key = none ∧ ∃ body, v = none ∧ fresh h env name password = .ok body ∧ w = some (.json body)
  | .createTpm pin backend pcrs, v, key, w =>
    key = none ∧ ∃ b body, backend = some b ∧ v = none ∧
      freshTpm env name pin b.1 pcrs = .ok body ∧ w = some (.json body)
  | .unlock secret, v, key, w =>
    w = v ∧ ∃ body k, key = some k ∧ v = some (.json body) ∧
      unsealBody h env name body secret = .ok k
  | .add k tag value pins replace, v, key, w =>
    key = none ∧ ∃ body body', v = some (.json body) ∧
      added h env name k tag value pins replace body = .ok body' ∧ w = some (.json body')
  | .delete tag, v, key, w =>
    key = none ∧ ∃ body, v = some (.json body) ∧
      w = some (.json { body with items := body.items.filter fun it => it.tag ≠ tag })
  | .rotate old new, v, key, w =>
    key = none ∧ ∃ body body', v = some (.json body) ∧ rotated h env name old new body = .ok body' ∧
      w = some (.json body')
  | .rotateTpm old new backend pcrs, v, key, w =>
    key = none ∧ ∃ b, backend = some b ∧ ∃ body body', v = some (.json body) ∧
      rotatedTpm h env old new b.1 pcrs body = .ok body' ∧ w = some (.json body')
  | .reseal k pin backend pcrs, v, key, w =>
    key = none ∧ k.length = masterKeyBytes ∧ ∃ b, backend = some b ∧ ∃ body body',
      v = some (.json body) ∧ resealed h env name k pin b.1 pcrs body = .ok body' ∧
        w = some (.json body')

theorem done_triple {v : Option Content} {x : VaultM Unit} {Q : Disk → Prop}
    (hx : Triple (fun d => vaultFile dir name d = v) x (fun _ => Q)
      (fun _ d => vaultFile dir name d = v)) :
    Triple (fun d => vaultFile dir name d = v) (x >>= fun _ => (pure none : VaultM (Option Bytes)))
      (fun key d => key = none ∧ Q d) (fun _ d => vaultFile dir name d = v) :=
  hx.bind fun _ => .pure fun _ hd => ⟨rfl, hd⟩

theorem unlock_triple (secret : Bytes) (v : Option Content) :
    Triple (fun d => vaultFile dir name d = v) (unlock h env dir name secret)
      (fun k d => vaultFile dir name d = v ∧ ∃ body, v = some (.json body) ∧
        unsealBody h env name body secret = .ok k)
      (fun _ d => vaultFile dir name d = v) := by
  refine (reading_triple _ v).bind fun version => .of_forall fun d hd => ?_
  obtain ⟨hd, body, hbody, hversion⟩ := hd
  have hsame : ∀ body' : Body, v = some (.json body') → body' = body := by
    intro body' hbody'
    have heq := hbody'.symm.trans hbody
    cases heq
    rfl
  cases hversion
  have hread : ∀ read : Body → Except VaultError Bytes,
      unsealBody h env name body secret = read body →
      Triple (fun t => t = d) (reading env dir name read)
        (fun k t => vaultFile dir name t = v ∧ ∃ body, v = some (.json body) ∧
          unsealBody h env name body secret = .ok k) (fun _ t => vaultFile dir name t = v) := by
    intro read hunseal
    refine (reading_triple read v).conseq ?_ (fun k t ht => ?_) (fun _ _ ht => ht)
    · intro t ht
      rw [ht]
      exact hd
    · obtain ⟨ht, body', hbody', hk⟩ := ht
      rw [hsame body' hbody'] at hk
      exact ⟨ht, body, hbody, hunseal.trans hk⟩
  refine .ite (fun ht => hread _ ?_) fun ht => hread _ ?_
  · rw [unsealBody, if_pos ht]
  · rw [unsealBody, if_neg ht]

/-- **Every call does what its effect says, or raises and leaves the file.** -/
theorem Call.exec_triple (c : Call h) (v : Option Content) :
    Triple (fun d => vaultFile dir name d = v) (c.exec env dir name)
      (fun key d => c.Effect env name v key (vaultFile dir name d))
      (fun _ d => vaultFile dir name d = v) := by
  have hthrow : ∀ (e : VaultError) {Q : Option Bytes → Disk → Prop},
      Triple (fun d => vaultFile dir name d = v)
        ((throw e : VaultM Unit) >>= fun _ => pure none) Q
        (fun _ d => vaultFile dir name d = v) := by
    intro e Q d hd
    exact hd
  cases c with
  | create password => exact done_triple (createWith_triple _ v)
  | createTpm pin backend pcrs =>
    cases backend with
    | none => exact hthrow _
    | some b =>
      refine (done_triple (createWith_triple _ v)).conseq (fun _ hd => hd) ?_ (fun _ _ hd => hd)
      rintro key d ⟨hkey, body, hbody⟩
      exact ⟨hkey, b, body, rfl, hbody⟩
  | unlock secret =>
    refine (unlock_triple secret v).bind fun k => .pure fun d hd => ?_
    obtain ⟨hfile, body, hbody, hk⟩ := hd
    exact ⟨hfile, body, k, rfl, hbody, hk⟩
  | add key tag value pins replace =>
    by_cases ht : tag = ""
    · simp only [Call.exec, addItem, if_pos ht]
      exact hthrow _
    · simp only [Call.exec, addItem, if_neg ht]
      exact done_triple (rewriting_triple _ v)
  | delete tag => exact (deleteItem_triple tag v).bind fun _ => .pure fun _ hd => ⟨rfl, hd⟩
  | rotate old new => exact done_triple (rewriting_triple _ v)
  | rotateTpm old new backend pcrs =>
    cases backend with
    | none => exact hthrow _
    | some b =>
      refine (done_triple (rewriting_triple _ v)).conseq (fun _ hd => hd) ?_ (fun _ _ hd => hd)
      rintro key d ⟨hkey, hbody⟩
      exact ⟨hkey, b, rfl, hbody⟩
  | reseal key pin backend pcrs =>
    cases backend with
    | none => exact hthrow _
    | some b =>
      by_cases hlen : key.length = masterKeyBytes
      · simp only [Call.exec, resealVaultWithMasterKey, Option.map_some, if_neg (not_not.mpr hlen)]
        refine (done_triple (rewriting_triple _ v)).conseq (fun _ hd => hd) ?_ (fun _ _ hd => hd)
        rintro key' d ⟨hkey, hbody⟩
        exact ⟨hkey, hlen, b, rfl, hbody⟩
      · simp only [Call.exec, resealVaultWithMasterKey, Option.map_some, if_pos hlen]
        exact hthrow _

/-! ## The invariant -/

/-- The file represents the map, under a key that some secret opens. -/
structure Holds (h : Host) (dir name : String) (d : Disk) (sp : Spec) (body : Body)
    (secret : Bytes) : Prop where
  file : vaultFile dir name d = some (.json body)
  opens : Sealed h name body secret sp.key
  items : Represents h name sp.key body.items sp.entries

def Inv (h : Host) (dir name : String) (s : State) : Prop :=
  match s.spec with
  | none => vaultFile dir name s.disk = none ∧ s.unlocked = []
  | some sp => (∃ body secret, Holds h dir name s.disk sp body secret) ∧
      ∀ key ∈ s.unlocked, key = sp.key

/-- The secret under which a call seals again. -/
def Call.newSecret : Call h → Option Bytes
  | .rotate _ new | .rotateTpm _ new _ _ | .reseal _ new _ _ => some new
  | _ => none

/-- **Sealing again keeps the key and the items.** -/
theorem Call.Effect.reseals (hh : h.Ideal) {c : Call h} {v w : Option Content}
    {key : Option Bytes} {new k : Bytes} {body : Body} {entries : String → Option Entry}
    (he : c.Effect env name v key w) (hnew : c.newSecret = some new) (hv : v = some (.json body))
    (hs : Sealed h name body secret k) (hr : Represents h name k body.items entries)
    (hc : ∀ k' pin b pcrs, c = .reseal k' pin b pcrs → body.items = [] → k' = k) :
    ∃ body', w = some (.json body') ∧ body'.items = body.items ∧ Sealed h name body' new k := by
  subst hv
  have hsame : ∀ {b : Body}, some (Content.json body) = some (.json b) → b = body := by
    intro b hb
    cases hb
    rfl
  cases c with
  | rotate old new' =>
    cases hnew
    obtain ⟨-, b, body', hb, hrot, hw⟩ := he
    rw [hsame hb] at hrot
    obtain ⟨k', hunseal, hrot⟩ := bind_eq_ok.mp hrot
    obtain ⟨⟨kdf, kek⟩, hseal, hrot⟩ := bind_eq_ok.mp hrot
    have hscrypt : SealedScrypt h name body secret k := by
      refine hs.sealed.resolve_right fun htpm => ?_
      have hv : body.version ≠ versionScrypt := by
        rw [htpm.1]
        decide
      rw [unsealScrypt, if_pos hv] at hunseal
      cases hunseal
    obtain ⟨-, hk⟩ := hscrypt.unseal hh hunseal
    cases hrot
    rw [hk] at hseal
    exact ⟨_, hw, rfl, hs.length, .inl (sealScrypt_sealed hseal hscrypt.1 rfl rfl)⟩
  | rotateTpm old new' backend pcrs =>
    cases hnew
    obtain ⟨-, b', -, b, body', hb, hrot, hw⟩ := he
    rw [hsame hb] at hrot
    obtain ⟨k', hunseal, hrot⟩ := bind_eq_ok.mp hrot
    obtain ⟨sealed, hseal, hrot⟩ := bind_eq_ok.mp hrot
    have htpm : SealedTpm h body secret k := by
      refine hs.sealed.resolve_left fun hscrypt => ?_
      have hv : body.version ≠ versionTpm := by
        rw [hscrypt.1]
        decide
      rw [unsealTpm, if_pos hv] at hunseal
      cases hunseal
    obtain ⟨-, hk⟩ := htpm.unseal hunseal
    cases hrot
    rw [hk] at hseal
    exact ⟨_, hw, rfl, hs.length, .inr (sealTpm_sealed hh b' hseal htpm.1 rfl)⟩
  | reseal k' pin backend pcrs =>
    cases hnew
    obtain ⟨-, hlen, b', -, b, body', hb, hres, hw⟩ := he
    rw [hsame hb] at hres
    obtain ⟨hv, hres⟩ := ite_error_eq_ok.mp hres
    obtain ⟨_, hcheck, hres⟩ := bind_eq_ok.mp hres
    obtain ⟨sealed, hseal, hres⟩ := bind_eq_ok.mp hres
    -- the key is the vault's: one item decrypts under it, or there was none to check
    have hk : k' = k := by
      by_cases hempty : body.items = []
      · exact hc k' new backend pcrs rfl hempty
      · exact hr.checkKey hh hempty hcheck
    cases hres
    rw [hk] at hseal
    exact ⟨_, hw, rfl, hs.length, .inr (sealTpm_sealed hh b' hseal (not_not.mp hv) rfl)⟩
  | create _ => cases hnew
  | createTpm _ _ _ => cases hnew
  | unlock _ => cases hnew
  | add _ _ _ _ _ => cases hnew
  | delete _ => cases hnew

theorem exec_cases (c : Call h) (env : Env) (s : State) :
    (∃ e d, c.exec env dir name s.disk = (.error e, d) ∧
      vaultFile dir name d = vaultFile dir name s.disk) ∨
    ∃ key d, c.exec env dir name s.disk = (.ok key, d) ∧
      c.Effect env name (vaultFile dir name s.disk) key (vaultFile dir name d) := by
  have hend := @Call.exec_triple _ env dir name c _ s.disk rfl
  rcases hres : c.exec env dir name s.disk with ⟨r, d⟩
  rw [hres] at hend
  cases r with
  | error e => exact .inl ⟨e, d, rfl, hend⟩
  | ok key => exact .inr ⟨key, d, rfl, hend⟩

/-- **Without a file only a creation returns.**  The new vault is empty, and its secret opens
it. -/
theorem Call.Effect.creates (hh : h.Ideal) {c : Call h} {key : Option Bytes}
    (he : c.Effect env name none key (vaultFile dir name d)) :
    key = none ∧ c.newSecret = none ∧ ∃ sp body secret,
      (∀ spec, c.apply env spec = some sp) ∧ Holds h dir name d sp body secret := by
  have hfresh : ∀ {body : Body} {secret : Bytes}, vaultFile dir name d = some (.json body) →
      body.items = [] →
      SealedScrypt h name body secret env.key ∨ SealedTpm h body secret env.key →
      Holds h dir name d ⟨env.key, fun _ => none⟩ body secret := by
    intro body secret hf hitems hs
    refine ⟨hf, ⟨env.key.2, hs⟩, fun tag => ?_⟩
    rw [hitems]
    exact .none
  cases c with
  | create password =>
    obtain ⟨hkey, body, -, hbody, hw⟩ := he
    obtain ⟨⟨kdf, kek⟩, hseal, hbody⟩ := bind_eq_ok.mp hbody
    cases hbody
    exact ⟨hkey, rfl, _, _, password, fun _ => rfl,
      hfresh hw rfl (.inl (sealScrypt_sealed hseal rfl rfl rfl))⟩
  | createTpm pin backend pcrs =>
    obtain ⟨hkey, b, body, -, -, hbody, hw⟩ := he
    obtain ⟨sealed, hseal, hbody⟩ := bind_eq_ok.mp hbody
    cases hbody
    exact ⟨hkey, rfl, _, _, pin, fun _ => rfl,
      hfresh hw rfl (.inr (sealTpm_sealed hh b hseal rfl rfl))⟩
  | unlock secret =>
    obtain ⟨-, b, -, -, hb, -⟩ := he
    cases hb
  | add key tag value pins replace =>
    obtain ⟨-, b, -, hb, -⟩ := he
    cases hb
  | delete tag =>
    obtain ⟨-, b, hb, -⟩ := he
    cases hb
  | rotate old new =>
    obtain ⟨-, b, -, hb, -⟩ := he
    cases hb
  | rotateTpm old new backend pcrs =>
    obtain ⟨-, -, -, b, -, hb, -⟩ := he
    cases hb
  | reseal key pin backend pcrs =>
    obtain ⟨-, -, -, -, b, -, hb, -⟩ := he
    cases hb

theorem Holds.effect (hh : h.Ideal) {s : State} {sp : Spec} {body : Body} {c : Call h}
    {key : Option Bytes} (hsp : s.spec = some sp) (hs : Holds h dir name s.disk sp body secret)
    (hkeys : ∀ k ∈ s.unlocked, k = sp.key) (hallowed : c.allowed s = true)
    (hc : Checked dir name s (c, env))
    (he : c.Effect env name (vaultFile dir name s.disk) key (vaultFile dir name d)) :
    ∃ sp' body' secret', c.apply env (some sp) = some sp' ∧ sp'.key = sp.key ∧
      Holds h dir name d sp' body' secret' ∧ ∀ k, key = some k → k = sp.key := by
  have hnone : key = none → ∀ k, key = some k → k = sp.key := by
    rintro rfl k hk
    cases hk
  have hreseals : ∀ new, c.newSecret = some new → c.apply env (some sp) = some sp → key = none →
      ∃ sp' body' secret', c.apply env (some sp) = some sp' ∧ sp'.key = sp.key ∧
        Holds h dir name d sp' body' secret' ∧ ∀ k, key = some k → k = sp.key := by
    intro new hnew happly hkey
    obtain ⟨body', hw, hitems, hsealed⟩ :=
      he.reseals hh hnew hs.file hs.opens hs.items fun k' pin b pcrs hcall hempty => by
        subst hcall
        exact hc sp body hsp hs.file hempty
    refine ⟨sp, body', new, happly, rfl, ⟨hw, hsealed, ?_⟩, hnone hkey⟩
    rw [hitems]
    exact hs.items
  have hbody : ∀ b : Body, vaultFile dir name s.disk = some (.json b) → b = body := by
    intro b hb
    have heq := hb.symm.trans hs.file
    cases heq
    rfl
  cases c with
  | create password =>
    obtain ⟨-, _, habsent, -⟩ := he
    rw [hs.file] at habsent
    cases habsent
  | createTpm pin backend pcrs =>
    obtain ⟨-, _, _, -, habsent, -⟩ := he
    rw [hs.file] at habsent
    cases habsent
  | unlock secret' =>
    obtain ⟨hsame, b, k, hkey, hb, hk⟩ := he
    rw [hbody b hb] at hk
    refine ⟨sp, body, secret, rfl, rfl, ⟨hsame.trans hs.file, hs.opens, hs.items⟩, ?_⟩
    intro k' hk'
    cases hkey.symm.trans hk'
    -- whichever secret was given, it opened to the vault's key
    rw [unsealBody] at hk
    split at hk
    · next hv =>
      rcases hs.opens.sealed with hscrypt | htpm
      · rw [hscrypt.1] at hv
        cases hv
      · exact (htpm.unseal hk).2
    · next hv => exact ((hs.opens.sealed.resolve_right fun htpm => hv htpm.1).unseal hh hk).2
  | add k tag value pins replace =>
    obtain ⟨hkey, b, body', hb, hadd, hw⟩ := he
    rw [hbody b hb] at hadd
    obtain ⟨-, hadd⟩ := ite_error_eq_ok.mp hadd
    obtain ⟨_, -, hadd⟩ := bind_eq_ok.mp hadd
    cases hadd
    refine ⟨_, _, secret, rfl, rfl, ⟨hw, ⟨hs.opens.length, hs.opens.sealed⟩, ?_⟩, hnone hkey⟩
    have hk : k = sp.key := hkeys k (of_decide_eq_true hallowed)
    subst hk
    exact hs.items.upsert (e := ⟨value, pins⟩) ⟨rfl, _, b64d_b64e _, b64d_b64e _⟩
  | delete tag =>
    obtain ⟨hkey, b, hb, hw⟩ := he
    rw [hbody b hb] at hw
    exact ⟨_, _, secret, rfl, rfl, ⟨hw, ⟨hs.opens.length, hs.opens.sealed⟩,
      hs.items.filter tag⟩, hnone hkey⟩
  | rotate old new => exact hreseals new rfl rfl he.1
  | rotateTpm old new backend pcrs => exact hreseals new rfl rfl he.1
  | reseal k new backend pcrs => exact hreseals new rfl rfl he.1

/-- **Step lemma.** -/
theorem Inv.step (hh : h.Ideal) {s : State} {a : Call h × Env} (hs : Inv h dir name s)
    (hc : Checked dir name s a) : Inv h dir name (step h dir name s a) := by
  obtain ⟨c, env⟩ := a
  by_cases hallowed : c.allowed s = true
  swap
  · rw [VaultFile.step, if_neg hallowed]
    exact hs
  rw [VaultFile.step, if_pos hallowed]
  rcases @exec_cases _ dir name c env s with
    ⟨e, d, hexec, hfile⟩ | ⟨key, d, hexec, heffect⟩
  · rw [hexec]
    cases hsp : s.spec with
    | none =>
      simp only [Inv, hsp] at hs ⊢
      exact ⟨hfile.trans hs.1, hs.2⟩
    | some sp =>
      simp only [Inv, hsp] at hs ⊢
      obtain ⟨⟨body, secret, hholds⟩, hkeys⟩ := hs
      exact ⟨⟨body, secret, hfile.trans hholds.file, hholds.opens, hholds.items⟩, hkeys⟩
  · rw [hexec]
    cases hsp : s.spec with
    | some sp =>
      simp only [Inv, hsp] at hs
      obtain ⟨⟨body, secret, hholds⟩, hkeys⟩ := hs
      obtain ⟨sp', body', secret', happly, hkey, hholds', hk⟩ :=
        hholds.effect hh hsp hkeys hallowed hc heffect
      simp only [Inv, happly]
      refine ⟨⟨body', secret', hholds'⟩, fun k hmem => ?_⟩
      rw [hkey]
      rcases List.mem_append.mp hmem with hmem | hmem
      · exact hk k (Option.mem_toList.mp hmem)
      · exact hkeys k hmem
    | none =>
      simp only [Inv, hsp] at hs
      obtain ⟨habsent, hkeys⟩ := hs
      rw [habsent] at heffect
      obtain ⟨rfl, -, sp, body, secret, happly, hholds⟩ := heffect.creates hh
      simp only [Inv, happly]
      refine ⟨⟨body, secret, hholds⟩, fun k hk => ?_⟩
      rw [hkeys] at hk
      cases hk

theorem Inv.start : Inv h dir name State.start := by
  refine ⟨?_, rfl⟩
  unfold vaultFile
  cases vaultPath dir name with
  | ok path => rfl
  | error e => rfl

/-! ## The contract -/

/-- What the map says of a tag, as `get_item_payload` and `get_item_pins` answer it. -/
def Spec.answer {α : Type} (sp : Spec) (field : Entry → α) (tag : String) : Except VaultError α :=
  match sp.entries tag with
  | some e => .ok (field e)
  | none => .error .notFound

/-- The file refines the map: some secret opens the vault, every secret that does opens it to one
key, and under that key the items are the entries of the map. -/
def Refines (h : Host) (dir name : String) (s : State) : Prop :=
  ∀ env : Env, env.Quiet →
    match s.spec with
    | none => ∀ key tag value, (getItemPayload h env dir name key tag s.disk).1 ≠ .ok value
    | some sp =>
      (∃ secret, (unlock h env dir name secret s.disk).1 = .ok sp.key) ∧
      ∀ secret key, (unlock h env dir name secret s.disk).1 = .ok key → key = sp.key ∧
        ∀ tag, (getItemPayload h env dir name key tag s.disk).1 = sp.answer Entry.value tag ∧
          (getItemPins env dir name tag s.disk).1 = sp.answer Entry.pins tag

/-- After sealing again the new secret opens the vault to the key it had, no other secret does, and
the items are the ones it had. -/
def Kept (h : Host) (dir name : String) (s t : State) (new : Bytes) : Prop :=
  (∃ body body', vaultFile dir name s.disk = some (.json body) ∧
    vaultFile dir name t.disk = some (.json body') ∧ body'.items = body.items) ∧
  ∀ env : Env, env.Quiet →
    ∃ key, (unlock h env dir name new t.disk).1 = .ok key ∧
      (∀ secret key', (unlock h env dir name secret s.disk).1 = .ok key' → key' = key) ∧
      ∀ other, other ≠ new → ∀ key', (unlock h env dir name other t.disk).1 ≠ .ok key'

/-- What is promised of one call, made in the state `s`. -/
structure Contract (h : Host) (dir name : String) (s : State) (a : Call h × Env) : Prop where
  refines : Refines h dir name (step h dir name s a)
  kept : ∀ new key, a.1.newSecret = some new → (a.1.exec a.2 dir name s.disk).1 = .ok key →
    Kept h dir name s (step h dir name s a) new
  failed : ∀ e, (a.1.exec a.2 dir name s.disk).1 = .error e →
    vaultFile dir name (step h dir name s a).disk = vaultFile dir name s.disk

theorem Inv.refines (hh : h.Ideal) {s : State} (hs : Inv h dir name s) : Refines h dir name s := by
  intro env hq
  cases hsp : s.spec with
  | none =>
    simp only [Inv, hsp] at hs
    exact fun key tag value => reading_absent hs.1 value
  | some sp =>
    simp only [Inv, hsp] at hs
    obtain ⟨⟨body, secret, hholds⟩, -⟩ := hs
    have hv := hholds.opens.version
    dsimp only
    refine ⟨⟨secret, ?_⟩, fun secret' key hk => ?_⟩
    · rw [unlock_quiet hq hholds.file hv]
      exact (hholds.opens.unseal_iff hh hq secret sp.key).mpr ⟨rfl, rfl⟩
    · rw [unlock_quiet hq hholds.file hv] at hk
      obtain ⟨-, rfl⟩ := (hholds.opens.unseal_iff hh hq secret' key).mp hk
      refine ⟨rfl, fun tag => ?_⟩
      rw [getItemPayload, getItemPins, reading_quiet hq hholds.file hv,
        reading_quiet hq hholds.file hv, Spec.answer, Spec.answer]
      have hrel := hholds.items tag
      cases hitem : findItem body.items tag with
      | none =>
        rw [hitem] at hrel
        cases hentry : sp.entries tag with
        | none => exact ⟨rfl, rfl⟩
        | some e =>
          rw [hentry] at hrel
          cases hrel
      | some it =>
        rw [hitem] at hrel
        cases hentry : sp.entries tag with
        | none =>
          rw [hentry] at hrel
          cases hrel
        | some e =>
          rw [hentry] at hrel
          obtain ⟨hpins, nonce, hnonce, hct⟩ : ItemHolds h name sp.key it e := by
            cases hrel
            assumption
          rw [findItem_tag hitem] at hct
          refine ⟨?_, congrArg Except.ok hpins⟩
          simp only [hnonce, hct, bind, Except.bind, hh.decrypt_encrypt]

theorem Inv.contract (hh : h.Ideal) {s : State} {a : Call h × Env} (hs : Inv h dir name s)
    (hc : Checked dir name s a) : Contract h dir name s a := by
  have hallowedOf : ∀ new, a.1.newSecret = some new → a.1.allowed s = true := by
    intro new hnew
    obtain ⟨c, env⟩ := a
    cases c <;> first | rfl | cases hnew
  refine ⟨(hs.step hh hc).refines hh, fun new key hnew hok => ?_, fun e herr => ?_⟩
  · have hallowed := hallowedOf new hnew
    obtain ⟨c, env⟩ := a
    rcases @exec_cases _ dir name c env s with
      ⟨e, d, hexec, -⟩ | ⟨key', d, hexec, heffect⟩
    · rw [hexec] at hok
      cases hok
    · rw [VaultFile.step, if_pos hallowed, hexec]
      cases hsp : s.spec with
      | none =>
        -- there is no file to seal again
        simp only [Inv, hsp] at hs
        rw [hs.1] at heffect
        obtain ⟨-, hno, -⟩ := heffect.creates hh
        rw [show c.newSecret = some new from hnew] at hno
        cases hno
      | some sp =>
        simp only [Inv, hsp] at hs
        obtain ⟨⟨body, secret, hholds⟩, -⟩ := hs
        obtain ⟨body', hw, hitems, hsealed⟩ := heffect.reseals hh hnew hholds.file hholds.opens
          hholds.items fun k' pin b pcrs hcall hempty => by
            subst hcall
            exact hc sp body hsp hholds.file hempty
        refine ⟨⟨body, body', hholds.file, hw, hitems⟩, fun env' hq => ⟨sp.key, ?_, ?_, ?_⟩⟩
        · rw [unlock_quiet hq hw hsealed.version]
          exact (hsealed.unseal_iff hh hq new sp.key).mpr ⟨rfl, rfl⟩
        · intro secret' k hk
          rw [unlock_quiet hq hholds.file hholds.opens.version] at hk
          exact ((hholds.opens.unseal_iff hh hq secret' k).mp hk).2
        · intro other hne k hk
          rw [unlock_quiet hq hw hsealed.version] at hk
          exact hne ((hsealed.unseal_iff hh hq other k).mp hk).1
  · obtain ⟨c, env⟩ := a
    rw [VaultFile.step]
    split
    · rcases @exec_cases _ dir name c env s with
        ⟨e', d, hexec, hfile⟩ | ⟨key', d, hexec, -⟩
      · rw [hexec]
        exact hfile
      · rw [hexec] at herr
        cases herr
    · rfl

/-- **A vault file refines a finite map** in every run in which a vault that is sealed again under
a given key has an item to tell the key by, or the key is its own. -/
theorem vault_refines_map (h : Host) (hh : h.Ideal) (dir name : String)
    (calls : List (Call h × Env)) (a : Call h × Env)
    (hm : Meets (step h dir name) (Checked dir name) State.start (calls ++ [a])) :
    Contract h dir name (run (step h dir name) State.start calls) a := by
  obtain ⟨hcalls, hlast⟩ := Meets.append.mp hm
  exact (hcalls.invariant (fun _ _ hc hs => hs.step hh hc) Inv.start).contract hh hlast.1

/-! ## An empty vault takes any key -/

/-- An encoding that shows where it ends. -/
def frame (bytes : Bytes) : Bytes := bytes.flatMap (fun b => [1, b]) ++ [0]

theorem frame_append_inj {x y v w : Bytes} (heq : frame x ++ v = frame y ++ w) :
    x = y ∧ v = w := by
  induction x generalizing y with
  | nil =>
    cases y with
    | nil => exact ⟨rfl, by simpa [frame] using heq⟩
    | cons b y => simp [frame] at heq
  | cons a x ih =>
    cases y with
    | nil => simp [frame] at heq
    | cons b y =>
      simp only [frame, List.flatMap_cons, List.append_assoc, List.cons_append, List.nil_append,
        List.cons.injEq, true_and] at heq
      obtain ⟨hxy, hvw⟩ := ih (y := y) (by simpa [frame] using heq.2)
      exact ⟨by rw [heq.1, hxy], hvw⟩

/-- A cipher that writes its key, nonce and associated data in front of the data. -/
def plainCrypto : Crypto where
  derive _ password salt := password ++ salt
  encrypt key nonce data aad := frame key ++ (frame nonce ++ (frame aad ++ data))
  decrypt key nonce data aad :=
    let start := frame key ++ (frame nonce ++ frame aad)
    if start.isPrefixOf data then some (data.drop start.length) else none

theorem plainCrypto_ideal : plainCrypto.Ideal where
  derive_injective _ _ _ _ heq := List.append_cancel_right heq
  decrypt_encrypt key nonce data aad := by
    have hsplit : frame key ++ (frame nonce ++ (frame aad ++ data)) =
        (frame key ++ (frame nonce ++ frame aad)) ++ data := by
      simp only [List.append_assoc]
    simp only [plainCrypto]
    rw [hsplit, if_pos (List.isPrefixOf_iff_prefix.mpr (List.prefix_append _ _)), List.drop_left]
  decrypt_only key nonce data aad key' nonce' data' aad' heq := by
    simp only [plainCrypto] at heq
    split at heq
    · next hstart =>
      obtain ⟨rest, hrest⟩ := List.isPrefixOf_iff_prefix.mp hstart
      simp only [List.append_assoc] at hrest
      obtain ⟨hkey, hrest⟩ := frame_append_inj hrest
      obtain ⟨hnonce, hrest⟩ := frame_append_inj hrest
      exact ⟨hkey, hnonce, (frame_append_inj hrest).1⟩
    · cases heq

/-- A backend whose blob is a list of one field for the PIN and one for the secret. -/
def plainBackend : Backend where
  name := "mock"
  sealSecret secret pin _ _ := .ok [("pin", .str (b64e pin)), ("secret", .str (b64e secret))]
  unsealBlob blob pin :=
    match blob with
    | [(_, .str p), (_, .str secret)] =>
      if b64d p = .ok pin then (b64d secret).mapError fun _ => .other else .error .authFailed
    | _ => .error .other

theorem plainBackend_ideal : plainBackend.Ideal where
  name_ne := by decide
  blob_ne hs := by
    cases hs
    exact List.cons_ne_nil _ _
  unseal_seal hs := by
    cases hs
    simp only [plainBackend, b64d_b64e, if_true, Except.mapError]
  unseal_other {_ _ _ _ _ pin'} hs hne := by
    cases hs
    simp only [plainBackend, b64d_b64e, Except.ok.injEq]
    exact if_neg (Ne.symm hne)

def plainHost : Host where
  toCrypto := plainCrypto
  lookup backend := if backend = "mock" then some plainBackend else none

theorem plainHost_ideal : plainHost.Ideal where
  toIdeal := plainCrypto_ideal
  lookup_ideal {name b} hl := by
    simp only [plainHost] at hl
    split at hl
    · cases hl
      exact plainBackend_ideal
    · cases hl

def plainEnv (b : UInt8) : Env where
  now := 0
  salt := [b]
  nonce := [b]
  key := ⟨List.replicate 32 b, rfl⟩
  seed := []
  unique := "x"
  fails _ := false

/-- A TPM vault under the PIN 1, sealed again with `key` under the PIN 2. -/
def createCall : Call plainHost × Env := (.createTpm [1] (some ⟨plainBackend, rfl⟩) none, plainEnv 7)

def resealCall (key : Bytes) : Call plainHost × Env :=
  (.reseal key [2] (some ⟨plainBackend, rfl⟩) none, plainEnv 8)

theorem reseal_own_key :
    Meets (step plainHost "d" "v") (Checked "d" "v") State.start
      ([createCall] ++ [resealCall (List.replicate 32 7)]) ∧
    Contract plainHost "d" "v" (run (step plainHost "d" "v") State.start [createCall])
      (resealCall (List.replicate 32 7)) := by
  have hmeets : Meets (step plainHost "d" "v") (Checked "d" "v") State.start
      ([createCall] ++ [resealCall (List.replicate 32 7)]) := by
    refine ⟨trivial, fun sp body hsp _ _ => ?_, trivial⟩
    have hspec : (step plainHost "d" "v" State.start createCall).spec.map Spec.key =
        some (List.replicate 32 7) := by rfl
    rw [hsp] at hspec
    exact (Option.some.inj hspec).symm
  exact ⟨hmeets, vault_refines_map plainHost plainHost_ideal "d" "v" _ _ hmeets⟩

/-- The vault is empty: a key of the right length that was never its own is sealed in place of it,
and from then on the new PIN opens the vault to that key. -/
theorem reseal_other_key :
    ¬ Contract plainHost "d" "v" (run (step plainHost "d" "v") State.start [createCall])
      (resealCall (List.replicate 32 9)) := by
  intro hc
  obtain ⟨-, hkept⟩ := hc.kept [2] none rfl (by rfl)
  obtain ⟨key, hnew, hold, -⟩ := hkept (plainEnv 0) fun _ => rfl
  have hwas : List.replicate 32 7 = key := hold [1] _ (by rfl)
  have his : (.ok (List.replicate 32 9) : Except VaultError Bytes) = .ok key := by
    rw [← hnew]
    rfl
  rw [← hwas] at his
  exact absurd (Except.ok.inj his) (by decide)

end VaultFile
