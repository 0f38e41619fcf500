/-
# The vault file

`qdistro_pwd_vault` with `atomic_write_json`: a vault is one JSON file that holds a sealed master
key and a table of items, each encrypted under that key.  Version 1 seals the key under a password,
version 2 under the PIN of a TPM.

The primitives of the cryptography package and the TPM are a `Host`.  Every call carries an `Env`:
the random bytes and the clock it reads and the steps at which it fails.  The calls are
computations over a `Disk`, a map from paths to files; the temporary file of a write is a file
like any other.
-/
import QDistro.Base64
import QDistro.CanonicalJson
import QDistro.EffectRules
import QDistro.PasswordVault

namespace VaultFile

open EffectRules
open JsonText
open Pwd (Pins)

abbrev Bytes := List UInt8

/-! ## The cryptography package and the TPM -/

/-- `Scrypt` with a cost `n`, and `AESGCM`.  Key, nonce, data and associated data come in the
order of the package; `decrypt` is `none` where it raises. -/
structure Crypto where
  derive : ℕ → (password salt : Bytes) → Bytes
  encrypt : (key nonce data aad : Bytes) → Bytes
  decrypt : (key nonce data aad : Bytes) → Option Bytes

/-- The AEAD decrypts exactly what was encrypted under the same key, nonce and associated data,
and no two passwords derive one key. -/
structure Crypto.Ideal (c : Crypto) : Prop where
  derive_injective : ∀ n salt, Function.Injective fun password => c.derive n password salt
  decrypt_encrypt : ∀ key nonce data aad,
    c.decrypt key nonce (c.encrypt key nonce data aad) aad = some data
  decrypt_only : ∀ key nonce data aad key' nonce' data' aad',
    c.decrypt key' nonce' (c.encrypt key nonce data aad) aad' = some data' →
      key' = key ∧ nonce' = nonce ∧ aad' = aad

/-- `TpmAuthFailed`, `TpmBackendError`, `TpmUnavailable`, and anything else. -/
inductive TpmError
  | authFailed
  | backend
  | unavailable
  | other
  deriving DecidableEq

/-- The dictionary in which a backend keeps a seal. -/
abbrev Blob := List (String × Json)

/-- `TpmBackend`.  The last argument of `sealSecret` is the randomness it draws. -/
structure Backend where
  name : String
  sealSecret : (secret pin : Bytes) → Option String → Bytes → Except TpmError Blob
  unsealBlob : Blob → Bytes → Except TpmError Bytes

/-- A TPM that unseals with the right PIN and only with it. -/
structure Backend.Ideal (b : Backend) : Prop where
  name_ne : b.name ≠ ""
  blob_ne : ∀ {secret pin pcrs seed blob}, b.sealSecret secret pin pcrs seed = .ok blob → blob ≠ []
  unseal_seal : ∀ {secret pin pcrs seed blob}, b.sealSecret secret pin pcrs seed = .ok blob →
    b.unsealBlob blob pin = .ok secret
  unseal_other : ∀ {secret pin pcrs seed blob pin'}, b.sealSecret secret pin pcrs seed = .ok blob →
    pin' ≠ pin → b.unsealBlob blob pin' = .error .authFailed

/-- The machine a daemon runs on: its cryptography and `lookup_backend`. -/
structure Host extends Crypto where
  lookup : String → Option Backend

structure Host.Ideal (h : Host) : Prop extends h.toCrypto.Ideal where
  lookup_ideal : ∀ {name b}, h.lookup name = some b → b.Ideal

/-! ## Steps that fail -/

/-- Where a call can fail before it replaces the file. -/
inductive Site
  | makedirs
  | openFile
  | derive
  | encrypt
  | sealing
  | unsealing
  | mkstemp
  | fchmod
  | write
  | fsync
  | replace
  | unlink
  deriving DecidableEq

inductive VaultError
  | value
  | duplicate
  | notFound
  | integrity
  | badPassword
  /-- `KeyError`, or a base64 text that does not decode. -/
  | malformed
  | tpm (e : TpmError)
  | os (site : Site)
  deriving DecidableEq

/-- `MASTER_KEY_BYTES` -/
def masterKeyBytes : ℕ := 32

/-- What a call reads of the machine. -/
structure Env where
  now : ℤ
  salt : Bytes
  nonce : Bytes
  /-- `AESGCM.generate_key(bit_length=256)` -/
  key : {key : Bytes // key.length = masterKeyBytes}
  /-- What a backend draws. -/
  seed : Bytes
  /-- The part that `mkstemp` makes up. -/
  unique : String
  fails : Site → Bool

def Env.pass (env : Env) (site : Site) : Except VaultError Unit :=
  if env.fails site then .error (.os site) else .ok ()

/-! ## The file -/

structure Kdf where
  alg : String
  n : ℕ
  r : ℕ
  p : ℕ
  salt : String

structure Kek where
  alg : String
  nonce : String
  ciphertext : String

structure TpmSeal where
  backend : String
  blob : Blob

structure Item where
  tag : String
  nonce : String
  ciphertext : String
  pins : Pins
  created : ℤ

/-- The JSON object of a vault. -/
structure Body where
  version : ℕ
  name : String
  created : ℤ
  rotated : Option ℤ
  kdf : Option Kdf
  kek : Option Kek
  tpmSeal : Option TpmSeal
  items : List Item

/-- A file that is open for writing, or the JSON that was written into it. -/
inductive Content
  | torn
  | json (body : Body)

abbrev Disk := String → Option Content

abbrev VaultM (α : Type) := Act Disk VaultError α

/-- A step that does not touch the disk. -/
def lift {α : Type} (x : Except VaultError α) : VaultM α := fun d => (x, d)

/-- `VAULT_FORMAT_VERSION_SCRYPT` -/
def versionScrypt : ℕ := 1

/-- `VAULT_FORMAT_VERSION_TPM` -/
def versionTpm : ℕ := 2

def scryptN : ℕ := 32768
def scryptR : ℕ := 8
def scryptP : ℕ := 1

/-- `_b64e` -/
def b64e (b : Bytes) : String := String.ofList (Base64.encode b)

/-- `_b64d` -/
def b64d (s : String) : Except VaultError Bytes :=
  match Base64.decode s.toList with
  | some b => .ok b
  | none => .error .malformed

/-- `body[field]` -/
def need {α : Type} : Option α → Except VaultError α
  | some a => .ok a
  | none => .error .malformed

/-- `_aad_for` -/
def aadFor (vaultName tag : String) : Bytes :=
  utf8Bytes (vaultName.toList ++ '\x00' :: tag.toList)

/-- `vault_path` -/
def vaultPath (dir name : String) : Except VaultError String :=
  if '/' ∈ name.toList ∨ name.toList.head? = some '.' ∨ name = "" then .error .value
  else .ok (dir ++ "/" ++ name ++ ".vault")

/-- The name that `mkstemp` gives the temporary file. -/
def tempPath (env : Env) (path : String) : String := path ++ "." ++ env.unique ++ ".tmp"

/-- `os.unlink(tmp)`, whose failure is ignored. -/
def dropTemp (env : Env) (tmp : String) : VaultM Unit :=
  Act.modify fun d => if env.fails .unlink then d else Function.update d tmp none

/-- The part of `atomic_write_json` under its handler.  Once the file is replaced, what remains
(the directory's fsync) is best effort. -/
def fillAndReplace (env : Env) (tmp path : String) (body : Body) : VaultM Unit := do
  lift (env.pass .fchmod)
  lift (env.pass .write)
  Act.modify fun d => Function.update d tmp (some (.json body))
  lift (env.pass .fsync)
  lift (env.pass .replace)
  Act.modify fun d => Function.update (Function.update d path (d tmp)) tmp none

/-- `atomic_write_json` -/
def atomicWriteJson (env : Env) (path : String) (body : Body) : VaultM Unit := do
  lift (env.pass .mkstemp)
  let d ← Act.get
  let tmp := tempPath env path
  if (d tmp).isSome then throw (.os .mkstemp)
  else do
    Act.modify fun d => Function.update d tmp (some .torn)
    tryCatch (fillAndReplace env tmp path body) fun e => do
      dropTemp env tmp
      throw e

/-- What `_load` finds at the path. -/
def parse (env : Env) : Option Content → Except VaultError Body
  | none => .error .notFound
  | some .torn => .error .malformed
  | some (.json body) => do
    env.pass .openFile
    if body.version ≠ versionScrypt ∧ body.version ≠ versionTpm then .error .integrity
    else .ok body

/-- `_load` -/
def load (env : Env) (path : String) : VaultM Body := do
  let d ← Act.get
  lift (parse env (d path))

/-! ## Sealing the master key -/

variable (h : Host) (env : Env) (dir name : String)

/-- `AESGCM(kek).encrypt(nonce, master_key, …)` under a fresh salt: the `kdf` and `kek` sections. -/
def sealScrypt (password key : Bytes) : Except VaultError (Kdf × Kek) := do
  env.pass .derive
  let kek := h.derive scryptN password env.salt
  env.pass .encrypt
  .ok (⟨"scrypt", scryptN, scryptR, scryptP, b64e env.salt⟩,
    ⟨"AES-GCM", b64e env.nonce, b64e (h.encrypt kek env.nonce key (aadFor name "__master__"))⟩)

/-- The unsealing that `unlock_vault` and `rotate_vault` share. -/
def unsealScrypt (body : Body) (password : Bytes) : Except VaultError Bytes := do
  if body.version ≠ versionScrypt then .error .integrity
  else do
    let kdf ← need body.kdf
    let salt ← b64d kdf.salt
    env.pass .derive
    let kek ← need body.kek
    let nonce ← b64d kek.nonce
    let sealed ← b64d kek.ciphertext
    match h.decrypt (h.derive scryptN password salt) nonce sealed (aadFor name "__master__") with
    | none => .error .badPassword
    | some key => if key.length ≠ masterKeyBytes then .error .integrity else .ok key

/-- `tpm_backend.seal(…)`: the `tpm_seal` section. -/
def sealTpm (backend : Backend) (pin key : Bytes) (pcrs : Option String) :
    Except VaultError TpmSeal := do
  env.pass .sealing
  match backend.sealSecret key pin pcrs env.seed with
  | .ok blob => .ok ⟨backend.name, blob⟩
  | .error e => .error (.tpm e)

/-- The unsealing that `unlock_vault_tpm` and `rotate_vault_tpm` share. -/
def unsealTpm (body : Body) (pin : Bytes) : Except VaultError Bytes := do
  if body.version ≠ versionTpm then .error .integrity
  else
    -- a missing section is read as an empty one
    match body.tpmSeal with
    | none => .error .integrity
    | some sealed =>
      if sealed.backend = "" ∨ sealed.blob = [] then .error .integrity
      else
        match h.lookup sealed.backend with
        | none => .error .integrity
        | some backend => do
          env.pass .unsealing
          match backend.unsealBlob sealed.blob pin with
          | .error .authFailed => .error .badPassword
          | .error .other => .error (.tpm .other)
          | .error _ => .error .integrity
          | .ok key => if key.length ≠ masterKeyBytes then .error .integrity else .ok key

/-! ## Creating and unlocking -/

/-- The part that `create_vault` and `create_vault_tpm` share: the first file of a vault. -/
def createWith (first : Except VaultError Body) : VaultM Unit := do
  let path ← lift (vaultPath dir name)
  lift (env.pass .makedirs)
  let d ← Act.get
  if (d path).isSome then throw .duplicate
  else do
    let body ← lift first
    atomicWriteJson env path body

/-- The first body of `create_vault`. -/
def fresh (password : Bytes) : Except VaultError Body := do
  let (kdf, kek) ← sealScrypt h env name password env.key
  .ok { version := versionScrypt, name, created := env.now, rotated := none, kdf := some kdf,
        kek := some kek, tpmSeal := none, items := [] }

/-- `create_vault` -/
def createVault (password : Bytes) : VaultM Unit :=
  createWith env dir name (fresh h env name password)

/-- The first body of `create_vault_tpm`. -/
def freshTpm (pin : Bytes) (backend : Backend) (pcrs : Option String) :
    Except VaultError Body := do
  let sealed ← sealTpm env backend pin env.key pcrs
  .ok { version := versionTpm, name, created := env.now, rotated := none, kdf := none,
        kek := none, tpmSeal := some sealed, items := [] }

/-- `create_vault_tpm` -/
def createVaultTpm (pin : Bytes) (backend : Option Backend) (pcrs : Option String) :
    VaultM Unit :=
  match backend with
  | none => throw .value
  | some backend => createWith env dir name (freshTpm env name pin backend pcrs)

/-- A call that only reads the file. -/
def reading {α : Type} (read : Body → Except VaultError α) : VaultM α := do
  let path ← lift (vaultPath dir name)
  let body ← load env path
  lift (read body)

/-- `vault_version` -/
def vaultVersion : VaultM ℕ := reading env dir name fun body => .ok body.version

/-- `unlock_vault` -/
def unlockVault (password : Bytes) : VaultM Bytes :=
  reading env dir name fun body => unsealScrypt h env name body password

/-- `unlock_vault_tpm` -/
def unlockVaultTpm (pin : Bytes) : VaultM Bytes :=
  reading env dir name fun body => unsealTpm h env body pin

/-- The dispatch of the daemon's `UnlockVault`. -/
def unlock (secret : Bytes) : VaultM Bytes := do
  let version ← vaultVersion env dir name
  if version = versionTpm then unlockVaultTpm h env dir name secret
  else unlockVault h env dir name secret

/-! ## Sealing again -/

/-- A call that loads the file and replaces it. -/
def rewriting (change : Body → Except VaultError Body) : VaultM Unit := do
  let path ← lift (vaultPath dir name)
  let body ← load env path
  let body' ← lift (change body)
  atomicWriteJson env path body'

/-- The probe of `reseal_vault_with_master_key`: one item has to decrypt under the key. -/
def probe (key : Bytes) (item : Item) : Except VaultError Unit :=
  match b64d item.nonce, b64d item.ciphertext with
  | .ok nonce, .ok ciphertext =>
    match h.decrypt key nonce ciphertext (aadFor name item.tag) with
    | some _ => .ok ()
    | none => .error .integrity
  | _, _ => .error .integrity

/-- `if items:` the probe is the first one. -/
def checkKey (key : Bytes) : List Item → Except VaultError Unit
  | [] => .ok ()
  | item :: _ => probe h name key item

/-- The new body of `reseal_vault_with_master_key`. -/
def resealed (key pin : Bytes) (backend : Backend) (pcrs : Option String) (body : Body) :
    Except VaultError Body := do
  if body.version ≠ versionTpm then .error .integrity
  else do
    checkKey h name key body.items
    let sealed ← sealTpm env backend pin key pcrs
    .ok { body with tpmSeal := some sealed }

/-- `reseal_vault_with_master_key` -/
def resealVaultWithMasterKey (key pin : Bytes) (backend : Option Backend)
    (pcrs : Option String) : VaultM Unit :=
  match backend with
  | none => throw .value
  | some backend =>
    if key.length ≠ masterKeyBytes then throw .integrity
    else rewriting env dir name (resealed h env name key pin backend pcrs)

/-- The new body of `rotate_vault`. -/
def rotated (old new : Bytes) (body : Body) : Except VaultError Body := do
  let key ← unsealScrypt h env name body old
  let (kdf, kek) ← sealScrypt h env name new key
  .ok { body with kdf := some kdf, kek := some kek, rotated := some env.now }

/-- `rotate_vault` -/
def rotateVault (old new : Bytes) : VaultM Unit :=
  rewriting env dir name (rotated h env name old new)

/-- The new body of `rotate_vault_tpm`. -/
def rotatedTpm (old new : Bytes) (backend : Backend) (pcrs : Option String) (body : Body) :
    Except VaultError Body := do
  let key ← unsealTpm h env body old
  let sealed ← sealTpm env backend new key pcrs
  .ok { body with tpmSeal := some sealed, rotated := some env.now }

/-- `rotate_vault_tpm` -/
def rotateVaultTpm (old new : Bytes) (backend : Option Backend) (pcrs : Option String) :
    VaultM Unit :=
  match backend with
  | none => throw .value
  | some backend => rewriting env dir name (rotatedTpm h env old new backend pcrs)

/-! ## Items -/

/-- `next((it for it in items if it["tag"] == tag), None)` -/
def findItem (items : List Item) (tag : String) : Option Item := items.find? (·.tag = tag)

/-- `items[existing_idx] = entry`, or `items.append(entry)` -/
def upsert : List Item → Item → List Item
  | [], entry => [entry]
  | it :: rest, entry => if it.tag = entry.tag then entry :: rest else it :: upsert rest entry

/-- The new body of `add_item`. -/
def added (key : Bytes) (tag : String) (value : Bytes) (pins : Pins) (replace : Bool)
    (body : Body) : Except VaultError Body := do
  if (findItem body.items tag).isSome ∧ replace = false then .error .duplicate
  else do
    env.pass .encrypt
    let entry : Item :=
      { tag, nonce := b64e env.nonce,
        ciphertext := b64e (h.encrypt key env.nonce value (aadFor name tag)), pins,
        created := env.now }
    .ok { body with items := upsert body.items entry }

/-- `add_item` -/
def addItem (key : Bytes) (tag : String) (value : Bytes) (pins : Pins) (replace : Bool) :
    VaultM Unit :=
  if tag = "" then throw .value
  else rewriting env dir name (added h env name key tag value pins replace)

/-- `get_item_payload` -/
def getItemPayload (key : Bytes) (tag : String) : VaultM Bytes :=
  reading env dir name fun body =>
    match findItem body.items tag with
    | none => .error .notFound
    | some item => do
      let nonce ← b64d item.nonce
      let ciphertext ← b64d item.ciphertext
      match h.decrypt key nonce ciphertext (aadFor name tag) with
      | some value => .ok value
      | none => .error .integrity

/-- `get_item_pins` -/
def getItemPins (tag : String) : VaultM Pins :=
  reading env dir name fun body =>
    match findItem body.items tag with
    | none => .error .notFound
    | some item => .ok item.pins

/-- `delete_item` -/
def deleteItem (tag : String) : VaultM Bool := do
  let path ← lift (vaultPath dir name)
  let body ← load env path
  let items := body.items.filter fun it => it.tag ≠ tag
  if items.length = body.items.length then pure false
  else do
    atomicWriteJson env path { body with items }
    pure true

end VaultFile
