/-
# Writing and reading with options

`dumpsWith esc` is `json.dumps` with a way `esc` to write the characters of a string, and
`loadsWith hook` is `json.loads` with an `object_pairs_hook` that may raise.  `dumps` and
`loads` are instances: they escape everything outside ASCII and build dictionaries.
-/
import QDistro.JsonText

namespace JsonText

/-! ## Writing -/

/-- A quoted string. -/
def strTextWith (esc : Char → List Char) (s : String) : List Char :=
  '"' :: s.toList.flatMap esc ++ ['"']

mutual

/-- `json.dumps` with a way to write characters. -/
def dumpsWith (esc : Char → List Char) (seps : Seps) : Json → List Char
  | .null => ['n', 'u', 'l', 'l']
  | .bool true => ['t', 'r', 'u', 'e']
  | .bool false => ['f', 'a', 'l', 's', 'e']
  | .int n => intText n
  | .float f => f.text
  | .str s => strTextWith esc s
  | .arr [] => ['[', ']']
  | .arr (v :: vs) => '[' :: (dumpsWith esc seps v ++ dumpsItemsWith esc seps vs)
  | .obj [] => ['{', '}']
  | .obj ((k, v) :: fs) =>
    '{' :: (strTextWith esc k ++ seps.key ++ dumpsWith esc seps v ++ dumpsFieldsWith esc seps fs)

/-- The items after the first, with the closing bracket. -/
def dumpsItemsWith (esc : Char → List Char) (seps : Seps) : List Json → List Char
  | [] => [']']
  | v :: vs => seps.item ++ dumpsWith esc seps v ++ dumpsItemsWith esc seps vs

/-- The fields after the first, with the closing brace. -/
def dumpsFieldsWith (esc : Char → List Char) (seps : Seps) : List (String × Json) → List Char
  | [] => ['}']
  | (k, v) :: fs =>
    seps.item ++ strTextWith esc k ++ seps.key ++ dumpsWith esc seps v ++ dumpsFieldsWith esc seps fs

end

mutual

theorem dumps_eq_dumpsWith (seps : Seps) : ∀ v : Json, dumps seps v = dumpsWith escapeChar seps v
  | .null => by rw [dumps, dumpsWith]
  | .bool true => by rw [dumps, dumpsWith]
  | .bool false => by rw [dumps, dumpsWith]
  | .int _ => by rw [dumps, dumpsWith]
  | .float _ => by rw [dumps, dumpsWith]
  | .str _ => by rw [dumps, dumpsWith]; rfl
  | .arr [] => by rw [dumps, dumpsWith]
  | .arr (v :: vs) => by
    rw [dumps, dumpsWith, dumps_eq_dumpsWith seps v, dumpsItems_eq_dumpsItemsWith seps vs]
  | .obj [] => by rw [dumps, dumpsWith]
  | .obj ((k, v) :: fs) => by
    rw [dumps, dumpsWith, dumps_eq_dumpsWith seps v, dumpsFields_eq_dumpsFieldsWith seps fs]
    rfl

theorem dumpsItems_eq_dumpsItemsWith (seps : Seps) : ∀ vs : List Json,
    dumpsItems seps vs = dumpsItemsWith escapeChar seps vs
  | [] => by rw [dumpsItems, dumpsItemsWith]
  | v :: vs => by
    rw [dumpsItems, dumpsItemsWith, dumps_eq_dumpsWith seps v, dumpsItems_eq_dumpsItemsWith seps vs]

theorem dumpsFields_eq_dumpsFieldsWith (seps : Seps) : ∀ fs : List (String × Json),
    dumpsFields seps fs = dumpsFieldsWith escapeChar seps fs
  | [] => by rw [dumpsFields, dumpsFieldsWith]
  | (k, v) :: fs => by
    rw [dumpsFields, dumpsFieldsWith, dumps_eq_dumpsWith seps v,
      dumpsFields_eq_dumpsFieldsWith seps fs]
    rfl

end

/-! ## Reading -/

/-- What `object_pairs_hook` makes of the pairs of an object, or `none` where it raises. -/
abbrev PairsHook := List (String × Json) → Option (List (String × Json))

mutual

/-- Read one value. -/
def parseValueWith (hook : PairsHook) : ℕ → List Char → Option (Json × List Char)
  | 0, _ => none
  | n + 1, t =>
    match t with
    | '"' :: rest => (parseString rest).map fun p => (.str (String.ofList p.1), p.2)
    | '[' :: rest =>
      match skipWs rest with
      | ']' :: rest' => some (.arr [], rest')
      | t' =>
        (parseValueWith hook n t').bind fun p =>
          (parseItemsWith hook n (skipWs p.2)).map fun q => (.arr (p.1 :: q.1), q.2)
    | '{' :: rest =>
      match skipWs rest with
      | '}' :: rest' => (hook []).map fun d => (.obj d, rest')
      | t' =>
        (parseFieldWith hook n t').bind fun p =>
          (parseFieldsWith hook n (skipWs p.2)).bind fun q =>
            (hook (p.1 :: q.1)).map fun d => (.obj d, q.2)
    | t => parseAtom t

/-- Read the items after the first. -/
def parseItemsWith (hook : PairsHook) : ℕ → List Char → Option (List Json × List Char)
  | 0, _ => none
  | n + 1, t =>
    match t with
    | ']' :: rest => some ([], rest)
    | ',' :: rest =>
      (parseValueWith hook n (skipWs rest)).bind fun p =>
        (parseItemsWith hook n (skipWs p.2)).map fun q => (p.1 :: q.1, q.2)
    | _ => none

/-- Read one `"key": value` pair. -/
def parseFieldWith (hook : PairsHook) : ℕ → List Char → Option ((String × Json) × List Char)
  | 0, _ => none
  | n + 1, t =>
    match t with
    | '"' :: rest =>
      (parseString rest).bind fun p =>
        match skipWs p.2 with
        | ':' :: rest' =>
          (parseValueWith hook n (skipWs rest')).map fun q => ((String.ofList p.1, q.1), q.2)
        | _ => none
    | _ => none

/-- Read the fields after the first. -/
def parseFieldsWith (hook : PairsHook) : ℕ → List Char → Option (List (String × Json) × List Char)
  | 0, _ => none
  | n + 1, t =>
    match t with
    | '}' :: rest => some ([], rest)
    | ',' :: rest =>
      (parseFieldWith hook n (skipWs rest)).bind fun p =>
        (parseFieldsWith hook n (skipWs p.2)).map fun q => (p.1 :: q.1, q.2)
    | _ => none

end

/-- `json.loads(t, object_pairs_hook=hook)`, or `none` where it raises. -/
def loadsWith (hook : PairsHook) (t : List Char) : Option Json :=
  (parseValueWith hook (t.length + 1) (skipWs t)).bind fun p =>
    if skipWs p.2 = [] then some p.1 else none

/-- The default hook builds a dictionary. -/
def dictHook : PairsHook := fun fields => some (dictOf fields)

theorem parse_eq_parseWith (n : ℕ) :
    (∀ t, parseValue n t = parseValueWith dictHook n t) ∧
      (∀ t, parseItems n t = parseItemsWith dictHook n t) ∧
      (∀ t, parseField n t = parseFieldWith dictHook n t) ∧
      ∀ t, parseFields n t = parseFieldsWith dictHook n t := by
  induction n with
  | zero =>
    refine ⟨fun t => ?_, fun t => ?_, fun t => ?_, fun t => ?_⟩
    · rw [parseValue, parseValueWith]
    · rw [parseItems, parseItemsWith]
    · rw [parseField, parseFieldWith]
    · rw [parseFields, parseFieldsWith]
  | succ n ih =>
    obtain ⟨hval, hitems, hfield, hfields⟩ := ih
    refine ⟨fun t => ?_, fun t => ?_, fun t => ?_, fun t => ?_⟩
    · have hdict : ∀ (f : String × Json) (r : Option (List (String × Json) × List Char)),
          r.map (fun q => (Json.obj (dictOf (f :: q.1)), q.2)) =
            r.bind fun q => (dictHook (f :: q.1)).map fun d => (Json.obj d, q.2) := by
        intro f r
        cases r <;> rfl
      unfold parseValue parseValueWith
      simp only [hval, hitems, hfield, hfields, hdict]
      rfl
    · unfold parseItems parseItemsWith
      simp only [hval, hitems] <;> rfl
    · unfold parseField parseFieldWith
      simp only [hval] <;> rfl
    · unfold parseFields parseFieldsWith
      simp only [hfield, hfields] <;> rfl

theorem loads_eq_loadsWith (t : List Char) : loads t = loadsWith dictHook t := by
  rw [loads, loadsWith, (parse_eq_parseWith _).1]

/-! ## Values a reader or a writer may refuse -/

mutual

/-- Does a value at some depth satisfy `p`? -/
def hasAny (p : Json → Bool) : Json → Bool
  | .arr items => p (.arr items) || hasAnyItems p items
  | .obj fields => p (.obj fields) || hasAnyFields p fields
  | v => p v

def hasAnyItems (p : Json → Bool) : List Json → Bool
  | [] => false
  | v :: vs => hasAny p v || hasAnyItems p vs

def hasAnyFields (p : Json → Bool) : List (String × Json) → Bool
  | [] => false
  | (_, v) :: fs => hasAny p v || hasAnyFields p fs

end

/-- `NaN` or an infinity: what `parse_constant` is called for and `allow_nan=False` refuses. -/
def isConstant : Json → Bool
  | .float f => isSpecialText f.text
  | _ => false

/-- An integer of more than 4300 digits, which neither `int(text)` nor `str(n)` converts. -/
def isLongInt : Json → Bool
  | .int n => decide (10 ^ 4300 ≤ n.natAbs)
  | _ => false

/-- The hook that refuses an object with a key given twice. -/
def uniqueHook : PairsHook := fun fields =>
  if (fields.map Prod.fst).Nodup then some fields else none

end JsonText
