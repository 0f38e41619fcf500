/-
# Receipts and their verification

`validate_envelope` and `verify_against_store` of `qdistro_lineage_receipts`: a receipt that
travels with an artifact is believed only if its canonical bytes are those of a payload that
the broker has sealed for the same entity under the same kind.

The store writes a payload with the default separators and escapes; the comparison is between
canonical bytes.  Both forget the order of keys and nothing else.
-/
import QDistro.CanonicalJson
import QDistro.LineageRows

open JsonText

namespace Lineage

/-! ## Texts of values -/

mutual

/-- `repr` of a decoded value. -/
def reprJson (u : UnicodeDb) : Json → String
  | .null => "None"
  | .bool b => PyText.pyBool b
  | .int n => toString n
  | .float f => reprFloat f
  | .str s => PyText.pyRepr u s
  | .arr items => "[" ++ ", ".intercalate (reprItems u items) ++ "]"
  | .obj fields => "\x7b" ++ ", ".intercalate (reprFields u fields) ++ "\x7d"

def reprItems (u : UnicodeDb) : List Json → List String
  | [] => []
  | v :: vs => reprJson u v :: reprItems u vs

def reprFields (u : UnicodeDb) : List (String × Json) → List String
  | [] => []
  | (k, v) :: fs => (PyText.pyRepr u k ++ ": " ++ reprJson u v) :: reprFields u fs

end

/-! ## `validate_envelope` -/

/-- Checks in a row: the exception of the first that fails. -/
def runChecks : List (Bool × Exc) → Except Exc Unit
  | [] => .ok ()
  | (ok, e) :: rest => if ok then runChecks rest else .error e

theorem runChecks_eq_ok {checks : List (Bool × Exc)} :
    runChecks checks = .ok () ↔ ∀ c ∈ checks, c.1 = true := by
  induction checks with
  | nil => simp [runChecks]
  | cons c rest ih =>
    obtain ⟨ok, e⟩ := c
    cases ok with
    | false => simp [runChecks]
    | true => simp [runChecks, ih]

/-- `_REQUIRED_KEYS` -/
def requiredKeys : List String :=
  ["schema", "kind", "entity", "artifact_digest", "locator", "issuer", "chain_algo", "chain_head",
    "signature_algo", "key_id", "signature", "created_at"]

/-- `RECEIPT_SCHEMA` -/
def receiptSchema : String := "qdistro-lineage-receipt/v1"

/-- `CHAIN_ALGO` -/
def chainAlgo : String := "sha256-chain"

/-- `envelope[key]` -/
def field (env : List (String × Json)) (key : String) : Json := (PyDict.lookup env key).getD .null

/-- `value == text` -/
def isText (text : String) : Json → Bool
  | .str s => s = text
  | _ => false

/-- `isinstance(value, str) and value` -/
def isNonEmptyText : Json → Bool
  | .str s => s ≠ ""
  | _ => false

/-- An integer that is no Boolean. -/
def isInteger : Json → Bool
  | .int _ => true
  | _ => false

/-- `None` or a digest. -/
def isDigestOrNull : Json → Bool
  | .null => true
  | .str s => isHexDigest s
  | _ => false

/-- `None` or a text. -/
def isTextOrNull : Json → Bool
  | .null => true
  | .str _ => true
  | _ => false

def isNull : Json → Bool
  | .null => true
  | _ => false

/-- Lists and dictionaries are no elements of a set: the name of the type, if it is one. -/
def unhashable : Json → Option String
  | .arr _ => some "list"
  | .obj _ => some "dict"
  | _ => none

/-- `value in RECEIPT_KINDS` of a hashable value. -/
def isReceiptKind : Json → Bool
  | .str s => receiptKinds.elem s
  | _ => false

/-- The `TypeError` of looking for a list or a dictionary in a set. -/
def unhashableError (name : String) : Exc :=
  .store (.typeError s!"cannot use '{name}' as a set element (unhashable type: '{name}')")

/-- The checks of `validate_envelope` on a dictionary, in their order. -/
def envelopeChecks (u : UnicodeDb) (expectedKind : Option String) (env : List (String × Json)) :
    List (Bool × Exc) :=
  let schema := field env "schema"
  let algo := field env "chain_algo"
  let kind := field env "kind"
  let expected := expectedKind.getD ""
  (requiredKeys.map fun key =>
    ((PyDict.lookup env key).isSome,
      Exc.malformedReceipt s!"receipt missing required field {PyText.pyRepr u key}")) ++
  [(isText receiptSchema schema,
      Exc.malformedReceipt s!"unexpected receipt schema {reprJson u schema}"),
    (isText chainAlgo algo, Exc.malformedReceipt s!"unexpected chain_algo {reprJson u algo}"),
    ((unhashable kind).isNone, unhashableError ((unhashable kind).getD "")),
    (isReceiptKind kind, .unsupportedReceipt s!"unknown receipt kind {reprJson u kind}"),
    (expectedKind.all fun k => isText k kind, Exc.malformedReceipt
        s!"receipt kind {reprJson u kind} != expected {PyText.pyRepr u expected}"),
    (isNonEmptyText (field env "entity"), Exc.malformedReceipt "entity must be a non-empty string"),
    (isNonEmptyText (field env "chain_head"),
      Exc.malformedReceipt "chain_head must be a non-empty string"),
    (isNonEmptyText (field env "issuer"), Exc.malformedReceipt "issuer must be a non-empty string"),
    (isInteger (field env "created_at"), Exc.malformedReceipt "created_at must be an int"),
    (isDigestOrNull (field env "artifact_digest"),
      Exc.malformedReceipt "artifact_digest must be a hex digest or null"),
    (isTextOrNull (field env "locator"),
      Exc.malformedReceipt "locator must be a string or null")] ++
  ["signature_algo", "key_id", "signature"].map fun name =>
    (isNull (field env name),
      Exc.malformedReceipt s!"{name} must be null in {receiptSchema} (signing not implemented)")

/-- `validate_envelope` -/
def validateEnvelope (u : UnicodeDb) (expectedKind : Option String) :
    Json → Except Exc (List (String × Json))
  | .obj env => (runChecks (envelopeChecks u expectedKind env)).map fun _ => env
  | _ => .error (.malformedReceipt "receipt envelope must be a JSON object")

/-! ## `verify_against_store` -/

/-- A row of `receipts_for`, as far as it is compared. -/
structure StoredReceipt where
  kind : Option String
  payload : Option Json

/-- The receipt in the cells of a row.  A payload that is empty or no JSON reads as `None`. -/
def readReceipt (cells : List Cell) : StoredReceipt where
  kind := (colOf .receipts cells "kind").str?
  payload := (colOf .receipts cells "payload").str?.bind fun text =>
    if text = "" then none else loads text.toList

/-- `receipts_for` -/
def Db.receiptsFor (db : Db) (eid : String) : List StoredReceipt :=
  ((db.cells .receipts).filter fun cells => colOf .receipts cells "entity" = .text eid).map
    readReceipt

/-- Whether a row sealed these bytes under this kind. -/
def StoredReceipt.isSealed (r : StoredReceipt) (kind : Json) (want : List UInt8) : Bool :=
  (r.kind.any fun k => isText k kind) &&
    r.payload.any fun payload => !isNull payload && canonicalBytes payload = some want

/-- `_matches_sealed_row` -/
def matchesSealedRow (env : List (String × Json)) (rows : List StoredReceipt) : Except Exc Bool :=
  match canonicalBytes (.obj env) with
  | none => .error (.valueError (unwritableText (.obj env)))
  | some want => .ok (rows.any fun r => r.isSealed (field env "kind") want)

/-- Whether the digest of the entity contradicts that of the envelope. -/
def digestDiffers (env : List (String × Json)) (ent : Entity) : Bool :=
  match field env "artifact_digest", ent.digest with
  | .str ad, some d => d ≠ ad
  | _, _ => false

/-- `verify_against_store`; the chain is checked only if a head is expected. -/
def verifyAgainstStore (u : UnicodeDb) (db : Db) (envelope : Json)
    (expectedHead : Option (List Char)) : Except Exc Bool :=
  match validateEnvelope u none envelope with
  | .error e => .error e
  | .ok env =>
    match field env "entity" with
    | .str eid =>
      match db.getEntity eid with
      | none => .ok false
      | some ent =>
        (matchesSealedRow env (db.receiptsFor eid)).bind fun isSealed =>
          if !isSealed || digestDiffers env ent then .ok false
          else
            match expectedHead with
            | none => .ok true
            | some head =>
              match db.verifyChain u (some head) with
              | some ok => .ok ok
              | none => .error (.store notSerializable)
    -- the validation has checked that the entity is a text
    | _ => .ok false

end Lineage
