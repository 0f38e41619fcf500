/-
# Creating and deleting silos

The account transactions of the session manager's `_SiloStore`: `create`, `delete` and
`reconcile_relay_policies`, over the Linux accounts, the D-Bus policy directory and the table of
silos.

Every primitive of `_SystemOps` takes its next outcome from an oracle: it does its work, or it
raises before or after the work took effect.  The account transactions hold `_accounts_lock`, so
that a run is a sequence of calls; between two calls others may change the accounts and the
directory.  The log records each `userdel`, each write of a fragment and each reload of the bus
with the host as it was at that moment.
-/
import Mathlib.Data.List.Sort
import QDistro.EffectRules
import QDistro.PyDict
import QDistro.RelayFragments

namespace Silo

open EffectRules

/-! ## Silos -/

/-- `SILO_KINDS` -/
inductive Kind
  | tier3User
  | tier2Template
  | tier3s
  deriving DecidableEq

/-- `State` -/
inductive SiloState
  | created
  | active
  | frozen
  | stopping
  | stopped
  | deleting
  deriving DecidableEq

/-- The text of a state. -/
def SiloState.text : SiloState → String
  | .created => "Created"
  | .active => "Active"
  | .frozen => "Frozen"
  | .stopping => "Stopping"
  | .stopped => "Stopped"
  | .deleting => "Deleting"

/-- `_STATE_TRANSITIONS`, each row in sorted order. -/
def transitions : SiloState → List SiloState
  | .created => [.active, .deleting]
  | .active => [.frozen, .stopped, .stopping]
  | .frozen => [.active, .stopped, .stopping]
  | .stopping => [.stopped]
  | .stopped => [.active, .deleting]
  | .deleting => []

/-- The fields of a silo that the account transactions use. -/
structure Row where
  uid : ℕ
  kind : Kind
  state : SiloState
  deriving DecidableEq

/-- What a call raises: a `SessionError` of the named class, or what a primitive raised. -/
inductive SiloError
  | siloExists (msg : String)
  | siloBusy (msg : String)
  | unknownSilo (msg : String)
  | badArgument (msg : String)
  | badState (msg : String)
  | session (msg : String)
  | os (msg : String)
  deriving DecidableEq

/-- `str(e)` -/
def SiloError.text : SiloError → String
  | .siloExists msg | .siloBusy msg | .unknownSilo msg | .badArgument msg | .badState msg
  | .session msg | .os msg => msg

/-! ## The host -/

/-- The primitives of `_SystemOps`, and the save of the table. -/
inductive Op
  | userExists
  | uidExists
  | userUidMatches
  | getpwuid
  | useradd
  | userdel
  | installSkill
  | listdir
  | readFragment
  | pathExists
  | placeFragment
  | unlinkFragment
  | reload
  | linkLauncher
  | unlinkLauncher
  | restoreLauncher
  | makeStateDir
  | removeStateDir
  | cgroupRemove
  | save
  deriving DecidableEq

/-- How a primitive ends. -/
inductive Outcome
  | ok
  /-- It raises before it took effect. -/
  | refuse (msg : String)
  /-- It raises after it took effect. -/
  | lose (msg : String)
  deriving DecidableEq

/-- The Linux accounts and the D-Bus policy directory. -/
structure Host where
  accounts : List (String × ℕ)
  files : PyDict String Content
  /-- The accounts that the store's `useradd` made and that have not been removed since. -/
  made : List String

namespace Host

/-- `user_exists` -/
def userExists (h : Host) (name : String) : Bool := h.accounts.any fun a => a.1 = name

/-- `uid_exists` -/
def uidExists (h : Host) (uid : ℕ) : Bool := h.accounts.any fun a => a.2 = uid

/-- `user_uid_matches` -/
def userUidMatches (h : Host) (name : String) (uid : ℕ) : Bool :=
  ((h.accounts.find? fun a => a.1 = name).map Prod.snd) = some uid

/-- The content of a silo's fragment. -/
def fragment (h : Host) (n : SiloName) : Option Content := h.files.get? (relayPolicyFilename n)

/-- What `useradd` does. -/
def addUser (h : Host) (name : String) (uid : ℕ) : Host :=
  { h with accounts := h.accounts ++ [(name, uid)], made := name :: h.made }

/-- What `userdel` does; an account that does not exist is a success. -/
def delUser (h : Host) (name : String) : Host :=
  { h with accounts := h.accounts.filter (fun a => a.1 ≠ name)
           made := h.made.filter (· ≠ name) }

/-- What the rename at the end of a fragment's write does. -/
def place (h : Host) (n : SiloName) (uid : ℕ) : Host :=
  { h with files := h.files.insert (relayPolicyFilename n) (.text (relayPolicyXml n uid)) }

/-- What the unlink of a fragment does. -/
def unlink (h : Host) (n : SiloName) : Host :=
  { h with files := h.files.erase (relayPolicyFilename n) }

end Host

/-- What the log records. -/
inductive Effect
  /-- `userdel` is called for a silo of a kind. -/
  | userdel (n : SiloName) (kind : Kind) (host : Host)
  /-- A fragment was written. -/
  | wrote (n : SiloName) (host : Host)
  /-- The bus is reloaded. -/
  | reloaded (host : Host)

/-- The store and the host. -/
structure World where
  host : Host
  rows : PyDict SiloName Row
  /-- The newest effect is first. -/
  log : List Effect
  /-- The outcomes of the primitives; a primitive whose list is empty succeeds. -/
  pending : Op → List Outcome

/-- A part of a call. -/
abbrev Tx (α : Type) := Act World SiloError α

/-- The next outcome of a primitive. -/
def World.next (w : World) (op : Op) : Outcome := (w.pending op).headD .ok

/-- The primitive has used its outcome. -/
def World.consume (w : World) (op : Op) : World :=
  { w with pending := fun o => if o = op then (w.pending op).tail else w.pending o }

/-- A primitive that changes the world and answers about the world it starts from. -/
def perform {α : Type} (op : Op) (effect : World → World) (answer : World → α) : Tx α := fun w =>
  match w.next op with
  | .ok => (.ok (answer w), effect (w.consume op))
  | .refuse msg => (.error (.os msg), w.consume op)
  | .lose msg => (.error (.os msg), effect (w.consume op))

/-- A primitive that only answers. -/
def ask {α : Type} (op : Op) (answer : World → α) : Tx α := perform op id answer

/-- A primitive whose work is outside the model. -/
def attempt (op : Op) : Tx Unit := perform op id fun _ => ()

/-- Change the host. -/
def World.onHost (w : World) (f : Host → Host) : World := { w with host := f w.host }

/-- Record an effect. -/
def World.record (w : World) (e : Effect) : World := { w with log := e :: w.log }

def userExists (name : String) : Tx Bool := ask .userExists fun w => w.host.userExists name

def uidExists (uid : ℕ) : Tx Bool := ask .uidExists fun w => w.host.uidExists uid

def userUidMatches (name : String) (uid : ℕ) : Tx Bool :=
  ask .userUidMatches fun w => w.host.userUidMatches name uid

def useradd (name : String) (uid : ℕ) : Tx Unit :=
  perform .useradd (fun w => w.onHost (·.addUser name uid)) fun _ => ()

/-- `userdel`, called for a silo of a kind. -/
def userdel (n : SiloName) (kind : Kind) : Tx Unit := do
  Act.modify fun w => w.record (.userdel n kind w.host)
  perform .userdel (fun w => w.onHost (·.delUser n.val)) fun _ => ()

/-- `reload_dbus` -/
def reloadDbus : Tx Unit := do
  Act.modify fun w => w.record (.reloaded w.host)
  attempt .reload

/-- A reload that is asked for. -/
def reloadIf (wanted : Bool) : Tx Unit := if wanted then reloadDbus else pure ()

/-- The part of `write_relay_policy` that puts the fragment in place. -/
def placeFragment (n : SiloName) (uid : ℕ) : Tx Unit :=
  perform .placeFragment
    (fun w => (w.onHost (·.place n uid)).record (.wrote n (w.host.place n uid))) fun _ => ()

section Texts

variable (u : UnicodeDb)

/-- `validate_uid` -/
def validateUid (uid : ℕ) : Tx Unit :=
  if uid < 2000 ∨ 60000 < uid then
    throw (.badArgument ("uid must be in [2000, 60000], got " ++ uid.repr))
  else pure ()

/-- `write_relay_policy` -/
def writeRelayPolicy (n : SiloName) (uid : ℕ) (reload : Bool) : Tx Unit := do
  let known ← ask .getpwuid fun w => w.host.uidExists uid
  if known then
    validateUid uid
    placeFragment n uid
    reloadIf reload
  else
    throw (.os ("refusing to write a relay policy for silo " ++ PyText.pyRepr u n.val ++ ": uid " ++
      uid.repr ++ " has no passwd entry. dbus-broker aborts on an unresolvable numeric user= at " ++
      "its next reload, which would take down the system bus."))

/-- `remove_relay_policy`; `Path.exists` answers no where it fails. -/
def removeRelayPolicy (n : SiloName) (reload : Bool) : Tx Unit := do
  let existed ← tryCatch (ask .pathExists fun w => (w.host.fragment n).isSome) fun _ => pure false
  perform .unlinkFragment (fun w => w.onHost (·.unlink n)) fun _ => ()
  reloadIf (existed && reload)

/-- `list_relay_policies`: a directory that cannot be listed has no fragments. -/
def listRelayPolicies : Tx (List SiloName) :=
  tryCatch (ask .listdir fun w => w.host.files.keys.filterMap relayPolicySiloName)
    fun _ => pure []

/-- The content of a fragment, or nothing where opening or reading it fails. -/
def readFragment (n : SiloName) : Tx (Option Content) :=
  tryCatch (ask .readFragment fun w => w.host.fragment n) fun _ => pure none

/-- `relay_policy_uids` -/
def relayPolicyUids (n : SiloName) : Tx (Option (List ℕ)) := do
  let content ← readFragment n
  match content with
  | none => pure none
  | some c =>
    match policyUids u c with
    | none => throw (.os "the fragment cannot be decoded")
    | some uids => pure (some uids)

/-- `relay_policy_matches` -/
def relayPolicyMatches (n : SiloName) (uid : ℕ) : Tx Bool := do
  let content ← readFragment n
  match content with
  | none => pure false
  | some c =>
    match readText c with
    | none => throw (.os "the fragment cannot be decoded")
    | some s => pure (decide (s = (relayPolicyXml n uid).toList))

/-! ## The purge -/

/-- `want`: the tier3-user silos of the table and their uids. -/
def World.want (w : World) (n : SiloName) : Option ℕ :=
  (w.rows.get? n).bind fun row => if row.kind = .tier3User then some row.uid else none

/-- Whether some of the uids has no passwd entry. -/
def anyMissing (uids : List ℕ) : Tx Bool :=
  uids.foldlM (fun bad uid => do
    let known ← uidExists uid
    pure (bad || !known)) false

/-- Whether the text of a fragment is a reason to remove it. -/
def textUnsafe (n : SiloName) : Tx Bool := do
  let uids ← relayPolicyUids u n
  match uids with
  | none => pure true
  | some [] => pure true
  | some (uid :: rest) => anyMissing (uid :: rest)

/-- Whether there is a reason to remove a fragment; what cannot be checked is one. -/
def fragmentUnsafe (want : SiloName → Option ℕ) (n : SiloName) : Tx Bool :=
  match want n with
  | none => pure true
  | some uid => do
    let holds ← tryCatch (userUidMatches n.val uid) fun _ => pure false
    if holds then tryCatch (textUnsafe u n) fun _ => pure true else pure true

/-- One fragment of the purge; the fragments removed so far and those that could not be. -/
def purgeOne (want : SiloName → Option ℕ) (acc : List SiloName × List SiloName) (n : SiloName) :
    Tx (List SiloName × List SiloName) := do
  let bad ← fragmentUnsafe u want n
  if bad then
    tryCatch (do
      removeRelayPolicy n false
      pure (acc.1 ++ [n], acc.2)) fun _ => pure (acc.1, acc.2 ++ [n])
  else pure acc

/-- `_purge_unsafe_relay_fragments` -/
def purgeUnsafeRelayFragments : Tx (List SiloName × List SiloName) := do
  let w ← Act.get
  let found ← listRelayPolicies
  (found.insertionSort fun a b => a.val ≤ b.val).foldlM (purgeOne u w.want) ([], [])

/-- `_unsafe_fragment_error` -/
def unsafeFragmentError (unpurged : List SiloName) : String :=
  "the D-Bus policy directory holds a relay fragment that could not be removed (" ++
    ", ".intercalate (unpurged.map fun n => PyText.pyRepr u n.val) ++
    "). It may name a uid with no passwd entry, and writing or reloading policy while it is " ++
    "present can abort the system bus. Remove /etc/dbus-1/system.d/" ++ relayPolicyPrefix ++
    "<name>.conf by hand and retry."

/-! ## Create -/

/-- The part of a `create` call that the model reads. -/
structure CreateRequest where
  name : String
  uid : ℕ
  kind : Kind
  /-- What the checks of the launch stanza, the egress field and the profile raise. -/
  fieldError : Option String

/-- `save` -/
def save : Tx Unit := attempt .save

/-- The commit of a new row: a row that cannot be saved is popped again. -/
def commitRow (n : SiloName) (row : Row) : Tx Unit := do
  Act.modify fun w => { w with rows := w.rows.insert n row }
  tryCatch save fun e => do
    Act.modify fun w => { w with rows := w.rows.erase n }
    throw e

/-- An undo step of the rollback: what could not be removed is listed. -/
def undo (x : Tx Unit) (leftover : String) : Tx (List String) :=
  tryCatch (do
    x
    pure []) fun _ => pure [leftover]

/-- `_rollback_account_transaction` -/
def rollbackAccountTransaction (n : SiloName) : Tx String := do
  let dir ← undo (attempt .removeStateDir) ("state dir /var/lib/qdistro/silos/" ++ n.val)
  let link ← undo (attempt .unlinkLauncher)
    ("launcher link /etc/systemd/system/qdshell-session-" ++ n.val ++ "@.service")
  let fragment := "relay fragment /etc/dbus-1/system.d/" ++ relayPolicyFilename n
  let kept ← undo (removeRelayPolicy n true) fragment
  if kept = [] then
    let user ← undo (userdel n .tier3User) ("system user " ++ PyText.pyRepr u n.val)
    pure ("; ".intercalate (dir ++ link ++ user))
  else
    pure ("; ".intercalate (dir ++ link ++ kept ++ ["system user " ++ PyText.pyRepr u n.val ++
      " (kept so the uid stays resolvable — remove the fragment first, then the user)"]))

/-- The error of a step that was rolled back. -/
def rolledBack (n : SiloName) (msg : String) : Tx Unit := do
  let leftover ← rollbackAccountTransaction u n
  throw (.session (if leftover = "" then msg else
    msg ++ "; manual cleanup needed, in the order listed: " ++ leftover))

/-- The refusals of `_create_tier3_user` before anything is done. -/
def refuseTaken (n : SiloName) (uid : ℕ) : Tx Unit := do
  let w ← Act.get
  if (w.rows.get? n).isSome then
    throw (.siloExists ("silo " ++ PyText.pyRepr u n.val ++ " already exists"))
  else
    match w.rows.entries.find? fun e => e.2.uid = uid ∧ e.2.kind = .tier3User with
    | some e => throw (.siloExists ("uid " ++ uid.repr ++ " already in use by silo " ++
        PyText.pyRepr u e.1.val))
    | none => do
      let user ← userExists n.val
      if user then
        throw (.siloExists ("system user " ++ PyText.pyRepr u n.val ++ " already exists"))
      else
        let known ← uidExists uid
        if known then
          throw (.siloExists ("uid " ++ uid.repr ++ " already in use on this system"))
        else pure ()

/-- The grant of a new account; a failure rolls the account back by `userdel`. -/
def issueGrant (n : SiloName) (uid : ℕ) : Tx Unit :=
  tryCatch (writeRelayPolicy u n uid true) fun e => do
    tryCatch (userdel n .tier3User) fun _ => pure ()
    throw (.session ("could not issue the user-relay D-Bus policy for silo " ++
      PyText.pyRepr u n.val ++ ": " ++ e.text))

/-- The state directory and the row of a new account. -/
def finishProvisioning (n : SiloName) (uid : ℕ) : Tx Unit :=
  tryCatch (do
    attempt .makeStateDir
    commitRow n ⟨uid, .tier3User, .created⟩) fun e =>
      rolledBack u n ("could not finish provisioning silo " ++ PyText.pyRepr u n.val ++ ": " ++
        e.text)

/-- `_create_tier3_user` -/
def createTier3User (n : SiloName) (uid : ℕ) : Tx Unit := do
  refuseTaken u n uid
  let purged ← purgeUnsafeRelayFragments u
  if purged.2 = [] then
    useradd n.val uid
    tryCatch (attempt .installSkill) fun _ => pure ()
    issueGrant u n uid
    tryCatch (attempt .linkLauncher) fun e =>
      rolledBack u n ("could not link the launcher unit for silo " ++ PyText.pyRepr u n.val ++
        ": " ++ e.text)
    finishProvisioning u n uid
  else
    throw (.session ("cannot create silo " ++ PyText.pyRepr u n.val ++ ": " ++
      unsafeFragmentError u purged.2))

/-- The row of a silo without an account. -/
def createAccountless (n : SiloName) (uid : ℕ) (kind : Kind) : Tx Unit := do
  let w ← Act.get
  if (w.rows.get? n).isSome then
    throw (.siloExists ("silo " ++ PyText.pyRepr u n.val ++ " already exists"))
  else commitRow n ⟨uid, kind, .created⟩

/-- `validate_silo_uid` -/
def validateSiloUid (adminUid uid : ℕ) : Kind → Tx Unit
  | .tier3s =>
    if uid = adminUid then pure ()
    else throw (.badArgument ("tier3s silo uid must be the admin launch-owner (" ++
      adminUid.repr ++ "), got " ++ uid.repr))
  | .tier2Template =>
    if uid = adminUid then pure ()
    else throw (.badArgument ("tier2-template silo uid must be the admin launch-owner (" ++
      adminUid.repr ++ "), got " ++ uid.repr))
  | .tier3User => validateUid uid

/-- `create` -/
def create (adminUid : ℕ) (r : CreateRequest) : Tx Unit :=
  if h : validName r.name = true then do
    validateSiloUid adminUid r.uid r.kind
    match r.fieldError with
    | some msg => throw (.badArgument msg)
    | none =>
      if r.kind = .tier3User then createTier3User u ⟨r.name, h⟩ r.uid
      else createAccountless u ⟨r.name, h⟩ r.uid r.kind
  else if ["admin", "root", "qdistro"].contains r.name then
    throw (.badArgument ("name " ++ PyText.pyRepr u r.name ++ " is reserved"))
  else
    throw (.badArgument ("name " ++ PyText.pyRepr u r.name ++ " is not a valid silo name " ++
      "(lowercase + alnum/underscore/dash, ≤32 chars, must start with a letter or underscore)"))

/-! ## Delete -/

/-- The row of a silo. -/
def getRow (n : SiloName) : Tx Row := do
  let w ← Act.get
  match w.rows.get? n with
  | some row => pure row
  | none => throw (.unknownSilo ("no such silo " ++ PyText.pyRepr u n.val))

/-- `_refuse_unless_deletable` -/
def refuseUnlessDeletable (n : SiloName) (row : Row) : Tx Unit :=
  let head := "silo " ++ PyText.pyRepr u n.val ++ " is " ++ row.state.text
  match row.state with
  | .created | .stopped => pure ()
  | .stopping => throw (.siloBusy (head ++ "; wait for it to reach Stopped"))
  | .deleting => throw (.siloBusy (head ++ "; the daemon may have crashed mid-delete"))
  | .active | .frozen => throw (.siloBusy (head ++ "; stop it first"))

/-- The row of a silo that may be deleted. -/
def deletableRow (n : SiloName) : Tx Row := do
  let row ← getRow u n
  refuseUnlessDeletable u n row
  pure row

/-- Give a row a state. -/
def setState (n : SiloName) (row : Row) (state : SiloState) : Tx Unit :=
  Act.modify fun w => { w with rows := w.rows.insert n { row with state := state } }

/-- `_transition`: a state that cannot be saved is taken back. -/
def transition (n : SiloName) (row : Row) (state : SiloState) : Tx Unit :=
  if state ∈ transitions row.state then do
    setState n row state
    tryCatch save fun e => do
      setState n row row.state
      throw e
  else
    let allowed := (transitions row.state).map fun s => PyText.pyRepr u s.text
    throw (.badState ("silo " ++ PyText.pyRepr u n.val ++ " cannot move " ++ row.state.text ++
      " → " ++ state.text ++ " (allowed: " ++
      (if allowed = [] then "none" else "[" ++ ", ".intercalate allowed ++ "]") ++ ")"))

/-- `_force_state` -/
def forceState (n : SiloName) (row : Row) (state : SiloState) : Tx Unit := do
  setState n row state
  save

/-- Only a tier3-user silo has a launcher link. -/
def unlinkLauncher (kind : Kind) : Tx Unit :=
  if kind = .tier3User then attempt .unlinkLauncher else pure ()

/-- What `delete` takes down, in its order; the egress teardown never raises. -/
def tearDown (n : SiloName) (row : Row) : Tx Unit := do
  attempt .cgroupRemove
  attempt .removeStateDir
  removeRelayPolicy n true
  unlinkLauncher row.kind
  userdel n row.kind

/-- The grant and the launcher link of a silo that survives. -/
def reissue (n : SiloName) (row : Row) : Tx Unit :=
  if row.kind = .tier3User then do
    tryCatch (writeRelayPolicy u n row.uid true) fun _ => pure ()
    tryCatch (attempt .restoreLauncher) fun _ => pure ()
  else pure ()

/-- The repair after a teardown that failed: the silo survives, and its grant with it. -/
def restore (n : SiloName) (row : Row) (e : SiloError) : Tx Unit := do
  reissue u n row
  forceState n row .stopped
  throw (.session ("delete failed: " ++ e.text))

/-- The preflight of `delete`: nothing unsafe is left in the directory. -/
def purgeForDelete (n : SiloName) : Tx Unit := do
  let purged ← purgeUnsafeRelayFragments u
  if purged.2 = [] then reloadIf (decide (purged.1 ≠ []))
  else
    throw (.session ("cannot delete silo " ++ PyText.pyRepr u n.val ++ ": " ++
      unsafeFragmentError u purged.2))

/-- `delete` of a silo with an acceptable name. -/
def deleteSilo (n : SiloName) : Tx Unit := do
  let row ← deletableRow u n
  purgeForDelete u n
  transition u n row .deleting
  tryCatch (tearDown n row) fun e => restore u n row e
  Act.modify fun w => { w with rows := w.rows.erase n }
  save

/-- `delete`; the table has acceptable names only. -/
def delete (name : String) : Tx Unit :=
  if h : validName name = true then deleteSilo u ⟨name, h⟩
  else throw (.unknownSilo ("no such silo " ++ PyText.pyRepr u name))

/-! ## Reconcile -/

/-- Whether a silo's grant is to be issued or corrected; what cannot be compared is rewritten,
and a silo whose account cannot be verified gets no grant. -/
def needsGrant (have' : List SiloName) (n : SiloName) (uid : ℕ) : Tx Bool :=
  if n ∈ have' then
    tryCatch (do
      let same ← relayPolicyMatches n uid
      pure (!same)) fun _ => pure true
  else tryCatch (userUidMatches n.val uid) fun _ => pure false

/-- One silo of the second pass; the silos whose grant was issued so far. -/
def reconcileOne (have' : List SiloName) (issued : List SiloName) (e : SiloName × ℕ) :
    Tx (List SiloName) := do
  let needed ← needsGrant have' e.1 e.2
  if needed then
    tryCatch (do
      writeRelayPolicy u e.1 e.2 false
      pure (issued ++ [e.1])) fun _ => pure issued
  else pure issued

/-- The tier3-user silos of the table in the order of their names. -/
def World.wanted (w : World) : List (SiloName × ℕ) :=
  ((w.rows.entries.filter fun e => e.2.kind = .tier3User).map fun e => (e.1, e.2.uid)).insertionSort
    fun a b => a.1.val ≤ b.1.val

/-- `reconcile_relay_policies` -/
def reconcileRelayPolicies : Tx (List SiloName × List SiloName) := do
  let purged ← purgeUnsafeRelayFragments u
  if purged.2 = [] then
    let w ← Act.get
    let found ← listRelayPolicies
    let issued ← w.wanted.foldlM (reconcileOne u found) []
    reloadIf (decide (issued ≠ [] ∨ purged.1 ≠ []))
    pure (issued, purged.1)
  else pure ([], purged.1)

/-! ## Runs -/

/-- A call of the store. -/
inductive Call
  | create (r : CreateRequest)
  | delete (name : String)
  | reconcile

/-- What a call does. -/
def Call.act (adminUid : ℕ) : Call → Tx Unit
  | .create r => Silo.create u adminUid r
  | .delete name => Silo.delete u name
  | .reconcile => do
    let _ ← reconcileRelayPolicies u
    pure ()

/-- A step of a run. -/
inductive Event
  /-- A call with the outcomes of its primitives. -/
  | call (c : Call) (outcomes : Op → List Outcome)
  /-- Others change the accounts and the policy directory. -/
  | others (accounts : List (String × ℕ)) (files : PyDict String Content)

/-- The world after a step. -/
def step (adminUid : ℕ) (w : World) : Event → World
  | .call c outcomes => (c.act u adminUid { w with pending := outcomes }).2
  | .others accounts files =>
    { w with host := ⟨accounts, files, w.host.made.filter fun name =>
        accounts.any fun a => a.1 = name⟩ }

end Texts

end Silo
