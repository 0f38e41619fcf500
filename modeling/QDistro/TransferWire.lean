/-
# Transfer receipts

`transfer_protocol`: the validation of what a receiver answers and the broker's ledger of
receipts.  `none` is a `ValueError`, which every caller treats alike.

A ledger row is an object that the closures of a transfer keep and change after the row has
left the ledger, so the rows are numbered in the order they were reserved and the ledger
maps a token to a number.
-/
import QDistro.BrokerState

open JsonText

namespace Transfer

/-- `MAX_BYTES` -/
def maxBytes : ℕ := 1024 * 1024

/-- The length of `s.encode("utf-8")`. -/
def utf8Length (s : String) : ℕ := (s.toList.map Char.utf8Size).sum

/-- `s[:n]` -/
def firstChars (n : ℕ) (s : String) : String := String.ofList (s.toList.take n)

/-! ## Metadata -/

/-- `load_object` -/
def loadObject (raw : String) : Option (List (String × Json)) :=
  if 8192 < utf8Length raw then none
  else
    match loadsWith uniqueHook raw.toList with
    | some (.obj fields) =>
      if hasAny (fun v => isConstant v || isLongInt v) (.obj fields) then none else some fields
    | _ => none

/-- `identity` -/
def identity (empty : Bool) : Option Json → Option String
  | some (.str s) =>
    if 128 < s.toList.length || s.toList.any (fun c => c.toNat < 32 || c.toNat == 127) ||
        (!empty && s.toList.isEmpty) then none
    else some s
  | _ => none

/-- `obj.get(name) == text` -/
def fieldIs (fields : List (String × Json)) (name text : String) : Bool :=
  match PyDict.lookup fields name with
  | some (.str s) => s == text
  | _ => false

/-- The version field is the integer 1. -/
def versionOne (fields : List (String × Json)) : Bool :=
  match PyDict.lookup fields "version" with
  | some (.int n) => n == 1
  | _ => false

/-- What a receiver accepts. -/
structure Capabilities where
  instanceId : String
  kinds : List String
  maxBytes : ℕ
  available : Bool
  confirmationRequired : Bool
  reason : String
  deriving DecidableEq, Repr

/-- The kinds of a capabilities object. -/
def kindsOf : Option Json → Option (List String)
  | some (.arr items) =>
    if items.isEmpty || 32 < items.length then none
    else items.mapM fun v =>
      match v with
      | .str k =>
        if k.toList.isEmpty || 128 < k.toList.length || k.toList.any (fun c => c.toNat == 0) ||
            k.toList.any (· == '*') then none
        else identity false (some (.str k))
      | _ => none
  | _ => none

/-- `capabilities` -/
def capabilities (raw : String) : Option Capabilities := do
  let obj ← loadObject raw
  if !versionOne obj then none
  let instanceId ← identity false (PyDict.lookup obj "instance_id")
  let kinds ← kindsOf (PyDict.lookup obj "kinds")
  let limit ← match PyDict.lookup obj "max_bytes" with
    | some (.int n) => if 0 < n ∧ n ≤ maxBytes then some n.toNat else none
    | _ => none
  if !fieldIs obj "encoding" "utf-8" then none
  match PyDict.lookup obj "available", PyDict.lookup obj "confirmation_required",
      (PyDict.lookup obj "reason").getD (.str "") with
  | some (.bool available), some (.bool confirmation), .str reason =>
    return ⟨instanceId, kinds, limit, available, confirmation, firstChars 160 reason⟩
  | _, _, _ => none

/-- `payload`: whether the receiver takes it. -/
def payloadAccepted (kind value : String) (caps : Capabilities) : Bool :=
  value.toList.all (fun c => c.toNat != 0) && utf8Length value ≤ maxBytes && caps.available &&
    caps.kinds.elem kind && utf8Length value ≤ caps.maxBytes

/-! ## Receipts -/

/-- `STATES` -/
inductive ReceiptState where
  | applied
  | declined
  | failed
  | rejected
  | staged
  | unknown
  deriving DecidableEq, Repr

/-- `TERMINAL` -/
def ReceiptState.isTerminal : ReceiptState → Bool
  | .applied | .declined | .failed | .rejected => true
  | .staged | .unknown => false

def ReceiptState.ofText : String → Option ReceiptState
  | "applied" => some .applied
  | "declined" => some .declined
  | "failed" => some .failed
  | "rejected" => some .rejected
  | "staged" => some .staged
  | "unknown" => some .unknown
  | _ => none

/-- The dictionary `receipt` builds; its version is always 1. -/
structure Receipt where
  instanceId : String
  transferId : String
  state : ReceiptState
  reason : String
  deriving DecidableEq, Repr

/-- `receipt` -/
def receipt (instanceId token : String) (state : ReceiptState) (reason : String) : Receipt :=
  ⟨instanceId, token, state, firstChars 160 reason⟩

/-- `validate_receipt` -/
def validateReceipt (raw expectedInstance : String) (expectedId : Option String) :
    Option Receipt := do
  let obj ← loadObject raw
  if !versionOne obj then none
  let state ← match PyDict.lookup obj "state" with
    | some (.str s) => ReceiptState.ofText s
    | _ => none
  if !fieldIs obj "instance_id" expectedInstance then none
  let reason ← match PyDict.lookup obj "reason" with
    | some (.str s) => if 160 < s.toList.length then none else some s
    | _ => none
  let token ← identity (state = .rejected ∨ state = .unknown) (PyDict.lookup obj "transfer_id")
  if expectedId.any (· ≠ token) then none
  return receipt expectedInstance token state reason

/-! ## The ledger -/

/-- `(uid, pid, exe, start_time)` -/
structure Actor where
  uid : ℤ
  pid : ℤ
  exe : String
  startTime : ℤ
  deriving DecidableEq, Repr

/-- Where a transfer was admitted to. -/
structure Route where
  uid : ℤ
  service : String
  relayOwner : String
  receiverOwner : String
  deriving DecidableEq, Repr

/-- A row of the ledger. -/
structure Row where
  token : String
  actor : Actor
  route : Route
  expires : Broker.Time
  receiverId : String := ""
  receipt : Receipt
  deriving DecidableEq, Repr

/-- `ReceiptLedger`: every row ever reserved, and the ledger's own entries in order. -/
structure Ledger where
  rows : List Row := []
  entries : List (String × ℕ) := []

/-- The default capacity. -/
def capacity : ℕ := 256

/-- The default time to live. -/
def ttl : Broker.Time := 600 * Broker.second

namespace Ledger

variable (l : Ledger)

/-- Whether the row of an entry satisfies `p`. -/
def entryIs (p : Row → Bool) (e : String × ℕ) : Bool := (l.rows[e.2]?).any p

/-- `_expire` -/
def expire (now : Broker.Time) : Ledger :=
  { l with entries := l.entries.filter fun e => !l.entryIs (fun row => row.expires ≤ now) e }

/-- The eviction of `reserve`: the oldest row with a terminal receipt. -/
def evict : Ledger :=
  if capacity ≤ l.entries.length then
    { l with entries := l.entries.eraseP (l.entryIs fun row => row.receipt.state.isTerminal) }
  else l

/-- `reserve`, with the two readings of the clock and the token drawn.  The number of the
new row, or `none` when the capacity is exhausted. -/
def reserve (now later : Broker.Time) (token : String) (actor : Actor) (route : Route)
    (instanceId : String) : Ledger × Option ℕ :=
  let l := (l.expire now).evict
  if capacity ≤ l.entries.length then (l, none)
  else
    ({ rows := l.rows ++
        [{ token := token, actor := actor, route := route, expires := later + ttl
           receipt := receipt instanceId token .staged "awaiting dispatch" }]
       entries := PyDict.put l.entries token l.rows.length },
     some l.rows.length)

/-- `self.rows.get(token)` -/
def find (token : String) : Option ℕ := PyDict.lookup l.entries token

/-- Change a row through a reference to it. -/
def update (i : ℕ) (f : Row → Row) : Ledger := { l with rows := l.rows.modify i f }

end Ledger

end Transfer
