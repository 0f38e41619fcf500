/-
# The password daemon

`PwdDaemon` of `qdistro_pwd_daemon`: the fill, confirm and save calls of the browser bridge, the
item calls of the administrator, and every call or signal that locks or unlocks a vault.

The daemon serves one call at a time, so a run is a list of calls.  What a call reads from
outside is its `Env`: the clock, the random token, whether the outcome of an unlock, a rotation or
a decryption is good, whether the vault file can be written, and which of its audit rows raises.
The world keeps a log of the calls with the daemon before and after each and the reply.
-/
import QDistro.PasswordVault

namespace Pwd

open JsonText
open SecurityGrants (truthy)

/-! ## State -/

/-- An entry of `_fill_tokens`. -/
structure FillToken where
  origin : String
  username : String
  pid : ℕ
  expires : ℤ
  deriving DecidableEq

/-- The module constants that come from the host. -/
structure Config where
  /-- `BROWSER_PWD_VAULT` -/
  browserVault : String
  /-- `ADMIN_UID` -/
  adminUid : ℕ
  /-- `IDLE_TIMEOUT_S` -/
  idleTimeout : ℤ

/-- `_fill_token_ttl` -/
def fillTokenTtl : ℤ := 120

/-- The vault files, `_unlocked` (a vault's `last_use`) and `_fill_tokens`. -/
structure Daemon where
  vaults : PyDict String (List Item)
  unlocked : PyDict String ℤ
  fillTokens : PyDict String FillToken

/-- What a call reads from outside. -/
structure Env where
  /-- The clock as `_touch` reads it. -/
  touched : ℤ
  /-- The clock as the call itself reads it. -/
  now : ℤ
  /-- `secrets.token_urlsafe(32)` -/
  token : String
  /-- Whether the secret fits, the rotation succeeds, or the item decrypts to text. -/
  good : Bool
  /-- Whether the vault file can be written. -/
  writes : Bool
  /-- The audit row that raises, counted from zero. -/
  auditFails : Option ℕ

/-- A credential in a reply.  `source` is a ghost: the URL under which it was saved. -/
structure Credential where
  username : String
  url : String
  source : Option String
  deriving DecidableEq

/-- The exceptions that reach the bus. -/
inductive Exc
  | policyError
  | notUnlocked
  | notFound
  | duplicate
  | badPassword
  | valueError
  | osError
  | auditError
  deriving DecidableEq

/-- What a call returns. -/
inductive Reply
  | error (code : String)
  | listed (credentials : List Credential) (fillToken : String)
  | released (credential : Credential) (password : String)
  | ok
  | done (b : Bool)
  | locked (names : List String)
  | raised (e : Exc)
  deriving DecidableEq

variable (P : Platform) (cfg : Config)

namespace Daemon

/-- `_touch` -/
def touch (s : Daemon) (vault : String) (now : ℤ) : Daemon :=
  match s.unlocked.get? vault with
  | none => s
  | some _ => { s with unlocked := s.unlocked.insert vault now }

/-- Whether a vault is in `_unlocked`. -/
def isUnlocked (s : Daemon) (vault : String) : Bool := (s.unlocked.get? vault).isSome

/-- The items of a vault file, none if the file is missing. -/
def items (s : Daemon) (vault : String) : Option (List Item) := s.vaults.get? vault

/-- `_do_lock` of an unlocked vault, up to its audit row. -/
def relock (s : Daemon) (vault : String) : Daemon :=
  { s with
    unlocked := s.unlocked.erase vault
    fillTokens := if vault = cfg.browserVault then ∅ else s.fillTokens }

end Daemon

/-- The reply of a call whose last act is audit row `i`. -/
def audited (e : Env) (i : ℕ) (r : Reply) : Reply :=
  if e.auditFails = some i then .raised .auditError else r

/-! ## Requests of the bridge -/

/-- `req.get(name)` -/
def reqGet (fields : List (String × Json)) (name : String) : Json :=
  (PyDict.lookup fields name).getD .null

/-- A field that must be a non-empty string. -/
def textField (fields : List (String × Json)) (name : String) : Option String :=
  match reqGet fields name with
  | .str s => if s = "" then none else some s
  | _ => none

/-- The tag of a credential: `f"pwd:{origin}/{username}"`. -/
def credentialTag (origin username : String) : String := "pwd:" ++ origin ++ "/" ++ username

/-- `f"pwd:{origin}/"` -/
def tagPrefix (origin : String) : String := "pwd:" ++ origin ++ "/"

/-- `tag[len(tag_prefix):]` -/
def tagUsername (origin tag : String) : String :=
  String.ofList (tag.toList.drop (tagPrefix origin).toList.length)

/-- `username_filter and item_username != username_filter` -/
def filteredOut (username : Json) (itemUsername : String) : Bool :=
  if truthy username then
    match username with
    | .str s => itemUsername ≠ s
    | _ => true
  else false

/-- The loop of `Fill` over the items. -/
def fillMatches (origin : String) (username : Json) (caller : Caller) (items : List Item) :
    List Credential :=
  (items.filter fun it =>
    PyText.startswith it.tag (tagPrefix origin) &&
      !filteredOut username (tagUsername origin it.tag) &&
      decide (pinMatch P it.pins caller = .matched)).map
    fun it => ⟨tagUsername origin it.tag, origin, it.source⟩

/-- `fill_token + ":" + username` -/
def tokenKey (token username : String) : String := token ++ ":" ++ username

/-- The loop of `Fill` that stores the approvals. -/
def mint (token origin : String) (pid : ℕ) (expires : ℤ) (tokens : PyDict String FillToken)
    (found : List Credential) : PyDict String FillToken :=
  found.foldl (fun d c => d.insert (tokenKey token c.username) ⟨origin, c.username, pid, expires⟩)
    tokens

/-- `Fill` for a URL with an origin, the browser vault being unlocked. -/
def fillUnlocked (s : Daemon) (caller : Caller) (username : Json) (origin : String) (e : Env) :
    Daemon × Reply :=
  let s := s.touch cfg.browserVault e.touched
  match s.items cfg.browserVault with
  | none => (s, audited e 0 (.error "vault_locked"))
  | some items =>
    let found := fillMatches P origin username caller items
    if found = [] then (s, audited e 0 (.error "no_match"))
    else
      let live := s.fillTokens.filter fun t => decide (t.2.expires > e.now)
      ({ s with fillTokens := mint e.token origin caller.pid (e.now + fillTokenTtl) live found },
        audited e 0 (.listed found e.token))

/-- `Fill`; the request is `none` where `json.loads` raises. -/
def fill (s : Daemon) (caller : Caller) (req : Option Json) (e : Env) : Daemon × Reply :=
  if caller.bridge = false then (s, audited e 0 (.error "policy_denied"))
  else
    match req with
    | some (.obj fields) =>
      match textField fields "url" with
      | none => (s, audited e 0 (.error "invalid_request"))
      | some url =>
        let origin := normalizeUrlOrigin P url
        if origin = "" then (s, audited e 0 (.error "invalid_request"))
        else if s.isUnlocked cfg.browserVault = false then
          (s, audited e 0 (.error "vault_locked"))
        else fillUnlocked P cfg s caller (reqGet fields "username") origin e
    | _ => (s, audited e 0 (.error "invalid_request"))

/-- The end of `FillConfirm`, once the approval is consumed. -/
def release (s : Daemon) (caller : Caller) (origin username : String) (e : Env) :
    Daemon × Reply :=
  match s.items cfg.browserVault with
  | none => (s, audited e 0 (.error "no_match"))
  | some items =>
    match findItem items (credentialTag origin username) with
    | none => (s, audited e 0 (.error "no_match"))
    | some it =>
      if pinMatch P it.pins caller ≠ .matched then (s, audited e 0 (.error "policy_denied"))
      else if e.good = false then (s, audited e 0 (.error "integrity_error"))
      else (s, audited e 0 (.released ⟨username, origin, it.source⟩ it.value))

/-- `f"{fill_token}:{username}" if fill_token else ""` -/
def confirmKey (fillToken : Json) (username : String) : String :=
  if truthy fillToken then tokenKey (P.format fillToken) username else ""

/-- `FillConfirm` for a URL with an origin, the browser vault being unlocked. -/
def confirmUnlocked (s : Daemon) (caller : Caller) (fillToken : Json) (origin username : String)
    (e : Env) : Daemon × Reply :=
  let s := s.touch cfg.browserVault e.touched
  let key := confirmKey P fillToken username
  let dropped := { s with fillTokens := s.fillTokens.erase key }
  match s.fillTokens.get? key with
  | none => (dropped, audited e 0 (.error "invalid_token"))
  | some t =>
    if t.expires < e.now then (dropped, audited e 0 (.error "invalid_token"))
    else if t.origin ≠ origin ∨ t.username ≠ username ∨ t.pid ≠ caller.pid then
      (s, audited e 0 (.error "invalid_token"))
    else release P cfg dropped caller origin username e

/-- `FillConfirm` -/
def fillConfirm (s : Daemon) (caller : Caller) (req : Option Json) (e : Env) : Daemon × Reply :=
  if caller.bridge = false then (s, audited e 0 (.error "policy_denied"))
  else
    match req with
    | some (.obj fields) =>
      match textField fields "url", textField fields "username" with
      | some url, some username =>
        let origin := normalizeUrlOrigin P url
        if origin = "" then (s, audited e 0 (.error "invalid_request"))
        else if s.isUnlocked cfg.browserVault = false then
          (s, audited e 0 (.error "vault_locked"))
        else confirmUnlocked P cfg s caller (reqGet fields "fill_token") origin username e
      | _, _ => (s, audited e 0 (.error "invalid_request"))
    | _ => (s, audited e 0 (.error "invalid_request"))

/-- `add_item` with `replace=True`. -/
def addItem (s : Daemon) (vault : String) (it : Item) (e : Env) : Except Exc Daemon :=
  if it.tag = "" then .error .valueError
  else
    match s.items vault with
    | none => .error .notFound
    | some items =>
      if e.writes then .ok { s with vaults := s.vaults.insert vault (upsert items it) }
      else .error .osError

/-- The storing end of `Save`: an `OSError` of the write is not caught. -/
def store (s : Daemon) (caller : Caller) (url origin username password : String) (e : Env) :
    Daemon × Reply :=
  let it : Item := ⟨credentialTag origin username, password,
    ⟨caller.exe, caller.selinuxLabel, some caller.uid⟩, some url⟩
  match addItem s cfg.browserVault it e with
  | .ok s' => (s', audited e 0 .ok)
  | .error .osError => (s, .raised .osError)
  | .error _ => (s, audited e 0 (.error "invalid_request"))

/-- `Save` for a URL with an origin, the browser vault being unlocked. -/
def saveUnlocked (s : Daemon) (caller : Caller) (url origin username password : String)
    (e : Env) : Daemon × Reply :=
  let s := s.touch cfg.browserVault e.touched
  match (s.items cfg.browserVault).bind (findItem · (credentialTag origin username)) with
  | some old =>
    if pinMatch P old.pins caller ≠ .matched then (s, audited e 0 (.error "policy_denied"))
    else store cfg s caller url origin username password e
  | none => store cfg s caller url origin username password e

/-- `Save` -/
def save (s : Daemon) (caller : Caller) (req : Option Json) (e : Env) : Daemon × Reply :=
  if caller.bridge = false then (s, audited e 0 (.error "policy_denied"))
  else
    match req with
    | some (.obj fields) =>
      match textField fields "url", textField fields "username", textField fields "password" with
      | some url, some username, some password =>
        let origin := normalizeUrlOrigin P url
        if origin = "" then (s, audited e 0 (.error "invalid_request"))
        else if s.isUnlocked cfg.browserVault = false then
          (s, audited e 0 (.error "vault_locked"))
        else saveUnlocked P cfg s caller url origin username password e
      | _, _, _ => (s, audited e 0 (.error "invalid_request"))
    | _ => (s, audited e 0 (.error "invalid_request"))

/-! ## Calls of the administrator -/

/-- `AddItem` once the vault is known to be unlocked and the uid pin is read. -/
def addItemUnlocked (s : Daemon) (vault tag value exe selinux : String) (pinUid : ℤ) (e : Env) :
    Daemon × Reply :=
  let it : Item := ⟨tag, value, ⟨exe, selinux, if 0 ≤ pinUid then some pinUid else none⟩, none⟩
  match addItem s vault it e with
  | .ok s' => (s', audited e 0 (.done true))
  | .error .osError => (s, .raised .osError)
  | .error _ => (s, audited e 0 (.raised .policyError))

/-- `AddItem` -/
def addItemCall (s : Daemon) (uid : ℕ) (vault tag value exe selinux pinUid : String) (e : Env) :
    Daemon × Reply :=
  if uid ≠ cfg.adminUid then (s, .raised .policyError)
  else if s.isUnlocked vault = false then (s, .raised .notUnlocked)
  else
    let s := s.touch vault e.touched
    let text := PyText.strip P.u pinUid.toList
    if text = [] then addItemUnlocked s vault tag value exe selinux (-1) e
    else
      match PyText.pyInt P.u text with
      | none => (s, .raised .valueError)
      | some n => addItemUnlocked s vault tag value exe selinux n e

/-- `DeleteItem` -/
def deleteItemCall (s : Daemon) (uid : ℕ) (vault tag : String) (e : Env) : Daemon × Reply :=
  if uid ≠ cfg.adminUid then (s, .raised .policyError)
  else
    match s.items vault with
    | none => (s, .raised .notFound)
    | some items =>
      let kept := deleteItems items tag
      if kept.length = items.length then (s, audited e 0 (.done false))
      else if e.writes then
        ({ s with vaults := s.vaults.insert vault kept }, audited e 0 (.done true))
      else (s, .raised .osError)

/-- `vault_path` accepts the name. -/
def validName (name : String) : Bool :=
  !(decide ('/' ∈ name.toList) || PyText.startswith name "." || name = "")

/-- `CreateVault`, `CreateVaultTPM` -/
def createVault (s : Daemon) (uid : ℕ) (name : String) (e : Env) : Daemon × Reply :=
  if uid ≠ cfg.adminUid then (s, .raised .policyError)
  else if validName name = false then (s, .raised .policyError)
  else if (s.items name).isSome then (s, audited e 0 (.raised .duplicate))
  else if e.writes then
    ({ s with vaults := s.vaults.insert name [] }, audited e 0 (.done true))
  else (s, .raised .osError)

/-! ## Locks -/

/-- `UnlockVault`, `UnlockVaultFprint`; `good` is the outcome of the gate and of the secret. -/
def unlockVault (s : Daemon) (name : String) (e : Env) : Daemon × Reply :=
  match s.items name with
  | none => (s, audited e 0 (.raised .notFound))
  | some _ =>
    if e.good then
      ({ s with unlocked := s.unlocked.insert name e.now }, audited e 0 (.done true))
    else (s, audited e 0 (.raised .badPassword))

/-- `LockVault` -/
def lockVault (s : Daemon) (name : String) (e : Env) : Daemon × Reply :=
  if s.isUnlocked name then (s.relock cfg name, audited e 0 (.done true))
  else (s, .done false)

/-- The loop of `_idle_tick` and of `_lock_all_unlocked`, from audit row `i` on.  The flag says
that no row raised. -/
def lockEach (e : Env) : ℕ → List String → Daemon → Daemon × List String × Bool
  | _, [], s => (s, [], true)
  | i, n :: rest, s =>
    if s.isUnlocked n then
      if e.auditFails = some i then (s.relock cfg n, [], false)
      else
        let r := lockEach e (i + 1) rest (s.relock cfg n)
        (r.1, n :: r.2.1, r.2.2)
    else lockEach e i rest s

/-- `_idle_tick` -/
def idleTick (s : Daemon) (e : Env) : Daemon × Reply :=
  let idle := (s.unlocked.entries.filter fun v => cfg.idleTimeout ≤ e.now - v.2).map Prod.fst
  let r := lockEach cfg e 0 idle s
  if r.2.2 then (r.1, .locked r.2.1) else (r.1, .raised .auditError)

/-- `_lock_all_unlocked` -/
def lockAllUnlocked (s : Daemon) (e : Env) : Daemon × Reply :=
  let r := lockEach cfg e 0 s.unlocked.keys s
  if r.2.2 then ({ r.1 with fillTokens := ∅ }, .locked r.2.1) else (r.1, .raised .auditError)

/-- The reasons that `LockAllVaults` accepts. -/
def lifecycleReasons : List String :=
  ["screen-lock", "screen-lock:idle", "screen-lock:lid", "screen-lock:suspend",
    "screen-lock:manual", "suspend", "logind-session-lock"]

/-- `LockAllVaults` -/
def lockAllVaults (s : Daemon) (uid : ℕ) (reason : String) (e : Env) : Daemon × Reply :=
  if uid ≠ 0 ∧ uid ≠ cfg.adminUid then (s, .raised .policyError)
  else if lifecycleReasons.elem reason = false then (s, .raised .policyError)
  else lockAllUnlocked cfg s e

/-- `RotateVault`; `good` is the outcome of the rotation. -/
def rotateVault (s : Daemon) (uid : ℕ) (name : String) (e : Env) : Daemon × Reply :=
  if uid ≠ cfg.adminUid then (s, .raised .policyError)
  else
    match s.items name with
    | none => (s, audited e 0 (.raised .notFound))
    | some _ =>
      if e.good = false then (s, audited e 0 (.raised .badPassword))
      else if s.isUnlocked name then
        if e.auditFails = some 0 then (s.relock cfg name, .raised .auditError)
        else (s.relock cfg name, audited e 1 (.done true))
      else (s, audited e 0 (.done true))

/-! ## Runs -/

/-- The calls and signals that the daemon serves. -/
inductive Call
  | fill (caller : Caller) (req : Option Json)
  | fillConfirm (caller : Caller) (req : Option Json)
  | save (caller : Caller) (req : Option Json)
  | addItem (uid : ℕ) (vault tag value exe selinux pinUid : String)
  | deleteItem (uid : ℕ) (vault tag : String)
  | createVault (uid : ℕ) (name : String)
  | unlockVault (name : String)
  | lockVault (name : String)
  | idleTick
  | lockAllVaults (uid : ℕ) (reason : String)
  /-- A `Lock` of the session or a `PrepareForSleep` of the machine. -/
  | logindLock
  | rotateVault (uid : ℕ) (name : String)
  /-- The daemon starts again. -/
  | restart

/-- One call. -/
def serve (s : Daemon) (e : Env) : Call → Daemon × Reply
  | .fill caller req => fill P cfg s caller req e
  | .fillConfirm caller req => fillConfirm P cfg s caller req e
  | .save caller req => save P cfg s caller req e
  | .addItem uid vault tag value exe selinux pinUid =>
    addItemCall P cfg s uid vault tag value exe selinux pinUid e
  | .deleteItem uid vault tag => deleteItemCall cfg s uid vault tag e
  | .createVault uid name => createVault cfg s uid name e
  | .unlockVault name => unlockVault s name e
  | .lockVault name => lockVault cfg s name e
  | .idleTick => idleTick cfg s e
  | .lockAllVaults uid reason => lockAllVaults cfg s uid reason e
  | .logindLock => lockAllUnlocked cfg s e
  | .rotateVault uid name => rotateVault cfg s uid name e
  | .restart => ({ s with unlocked := ∅, fillTokens := ∅ }, .done true)

/-- A call that was served. -/
structure Served where
  before : Daemon
  call : Call
  env : Env
  reply : Reply
  after : Daemon

/-- The daemon and the calls it served, newest first. -/
structure World where
  daemon : Daemon
  log : List Served

/-- One call, logged. -/
def step (w : World) (c : Call × Env) : World :=
  let r := serve P cfg w.daemon c.2 c.1
  ⟨r.1, ⟨w.daemon, c.1, c.2, r.2, r.1⟩ :: w.log⟩

/-- The daemon as it starts over some vault files. -/
def World.boot (vaults : PyDict String (List Item)) : World := ⟨⟨vaults, ∅, ∅⟩, []⟩

/-- What the log says of a call in the state it met. -/
def World.served (w : World) (c : Call × Env) : Served :=
  ⟨w.daemon, c.1, c.2, (serve P cfg w.daemon c.2 c.1).2, (serve P cfg w.daemon c.2 c.1).1⟩

open TransitionSystem in
theorem served_at {vaults : PyDict String (List Item)} {calls : List (Call × Env)}
    {newer older : List Served} {st : Served}
    (h : (run (step P cfg) (World.boot vaults) calls).log = newer ++ st :: older) :
    ∃ before c after, calls = before ++ c :: after ∧
      (run (step P cfg) (World.boot vaults) before).log = older ∧
      st = (run (step P cfg) (World.boot vaults) before).served P cfg c := by
  -- induction on the run from its end, where the log grows
  induction calls using List.reverseRecOn generalizing newer with
  | nil => simp [World.boot] at h
  | append_singleton calls c ih =>
    have hlog : (run (step P cfg) (World.boot vaults) (calls ++ [c])).log =
        (run (step P cfg) (World.boot vaults) calls).served P cfg c ::
          (run (step P cfg) (World.boot vaults) calls).log := by
      rw [run_append]
      rfl
    rw [hlog] at h
    cases newer with
    | nil =>
      injection h with hst hrest
      exact ⟨calls, c, [], rfl, hrest, hst.symm⟩
    | cons x newer =>
      injection h with _ hrest
      obtain ⟨before, c', after, hcalls, hold, hst⟩ := ih hrest
      exact ⟨before, c', after ++ [c], by simp [hcalls], hold, hst⟩

end Pwd
