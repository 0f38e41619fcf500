/-
# The newest manifest and the history before it

`manifest_canonical_bytes`, `manifest_sha256` and `parse_manifest` over Python's own texts: a text
is a list of code points, and a lone surrogate is a code point like any other.  `json.dumps` writes
every character outside ASCII by its UTF-16 units, so that an astral character and the two
surrogates of its pair are written alike.  Where no text holds such a pair, the canonical bytes
determine the manifest (`canonical_injective`), and the newest manifest of a verified chain all of
the chain (`newest_fixes_history`).
-/
import QDistro.BackupManifest
import QDistro.CanonicalJson
import QDistro.Sha256
import Mathlib.Data.List.Induction

namespace BackupHistory

open Backup PyDict
open JsonText
open List hiding lookup

abbrev CodePoint := Fin 1114112

abbrev PyStr := List CodePoint

inductive Doc
  | null
  | bool (b : Bool)
  | int (n : ℤ)
  | float (f : FloatLit)
  | str (s : PyStr)
  | list (items : List Doc)
  | dict (fields : List (PyStr × Doc))

def Doc.view : Doc → View PyStr Doc
  | .null => .null
  | .bool b => .bool b
  | .int n => .int n
  | .float f => .float f
  | .str s => .str s
  | .list items => .list items
  | .dict fields => .dict fields

def Doc.make : View PyStr Doc → Doc
  | .null => .null
  | .bool b => .bool b
  | .int n => .int n
  | .float f => .float f
  | .str s => .str s
  | .list items => .list items
  | .dict fields => .dict fields

theorem Doc.view_make (v : View PyStr Doc) : (Doc.make v).view = v := by
  cases v <;> rfl

def ofChars (cs : List Char) : PyStr := cs.map fun c => Fin.ofNat _ c.toNat

def format : Format PyStr Doc where
  view := Doc.view
  make := Doc.make
  codes := List.map Fin.val
  literal s := ofChars s.toList
  view_make := Doc.view_make

/-! ## `json.dumps` -/

/-- The UTF-16 units of a code point. -/
def unitsOf (c : CodePoint) : List ℕ :=
  if c.val < 65536 then [c.val]
  else [55296 + (c.val - 65536) / 1024, 56320 + (c.val - 65536) % 1024]

def units (s : PyStr) : List ℕ := s.flatMap unitsOf

/-- A unit as `ensure_ascii` writes it. -/
def escapeUnit (n : ℕ) : List Char :=
  if n = 34 then ['\\', '"']
  else if n = 92 then ['\\', '\\']
  else if n = 10 then ['\\', 'n']
  else if n = 13 then ['\\', 'r']
  else if n = 9 then ['\\', 't']
  else if n = 12 then ['\\', 'f']
  else if n = 8 then ['\\', 'b']
  else if 32 ≤ n ∧ n < 127 then [Char.ofNat n]
  else unitText n

def quoted (s : PyStr) : List Char := '"' :: ((units s).flatMap escapeUnit ++ ['"'])

mutual

/-- `json.dumps(v, separators=(",", ":"))` -/
def dumpsDoc : Doc → List Char
  | .null => ['n', 'u', 'l', 'l']
  | .bool true => ['t', 'r', 'u', 'e']
  | .bool false => ['f', 'a', 'l', 's', 'e']
  | .int n => intText n
  | .float f => f.text
  | .str s => quoted s
  | .list [] => ['[', ']']
  | .list (v :: vs) => '[' :: (dumpsDoc v ++ dumpsRest vs)
  | .dict [] => ['{', '}']
  | .dict ((k, v) :: fs) => '{' :: (quoted k ++ ':' :: (dumpsDoc v ++ dumpsPairs fs))

/-- The items after the first, with the closing bracket. -/
def dumpsRest : List Doc → List Char
  | [] => [']']
  | v :: vs => ',' :: (dumpsDoc v ++ dumpsRest vs)

/-- The fields after the first, with the closing brace. -/
def dumpsPairs : List (PyStr × Doc) → List Char
  | [] => ['}']
  | (k, v) :: fs => ',' :: (quoted k ++ ':' :: (dumpsDoc v ++ dumpsPairs fs))

end

def sortPairs (fields : List (PyStr × Doc)) : List (PyStr × Doc) :=
  fields.insertionSort fun a b => a.1 ≤ b.1

mutual

/-- A value with the fields of all its objects in key order.  Two dictionaries are equal in Python
when they are equal in this form. -/
def sortDoc : Doc → Doc
  | .list items => .list (sortItems items)
  | .dict fields => .dict (sortPairs (sortFieldsOf fields))
  | v => v

def sortItems : List Doc → List Doc
  | [] => []
  | v :: vs => sortDoc v :: sortItems vs

def sortFieldsOf : List (PyStr × Doc) → List (PyStr × Doc)
  | [] => []
  | (k, v) :: fs => (k, sortDoc v) :: sortFieldsOf fs

end

/-- `manifest_canonical_bytes` -/
def canonicalBytes (d : Doc) : List UInt8 := utf8Bytes (dumpsDoc (sortDoc d))

/-- `manifest_sha256` -/
def manifestSha256 (d : Doc) : PyStr := ofChars (Sha256.hexBytes (canonicalBytes d))

/-! ## `json.loads` -/

/-- A code point beside the character it is, where it is one. -/
abbrev Mark := Char × CodePoint

def mark (c : CodePoint) : Mark := (Char.ofNat c.val, c)

def consCode (c : CodePoint) (r : Option (PyStr × List Mark)) : Option (PyStr × List Mark) :=
  r.map fun p => (c :: p.1, p.2)

/-- A string up to its closing quote.  The escapes of a surrogate pair are joined; a surrogate that
stands alone is kept. -/
def readString : ℕ → List Mark → Option (PyStr × List Mark)
  | 0, _ => none
  | _ + 1, [] => none
  | _ + 1, ('"', _) :: rest => some ([], rest)
  | fuel + 1, ('\\', _) :: ('u', _) :: (a, _) :: (b, _) :: (c, _) :: (d, _) :: rest =>
    match hex4 a b c d with
    | none => none
    | some n =>
      match rest with
      | ('\\', _) :: ('u', _) :: (a', _) :: (b', _) :: (c', _) :: (d', _) :: rest' =>
        match hex4 a' b' c' d' with
        | none => none
        | some m =>
          if (55296 ≤ n ∧ n < 56320) ∧ 56320 ≤ m ∧ m < 57344 then
            consCode (Fin.ofNat _ (65536 + (n - 55296) * 1024 + (m - 56320)))
              (readString fuel rest')
          else consCode (Fin.ofNat _ n) (readString fuel rest)
      | _ => consCode (Fin.ofNat _ n) (readString fuel rest)
  | fuel + 1, ('\\', _) :: (e, _) :: rest =>
    match unescape e with
    | none => none
    | some c => consCode (Fin.ofNat _ c.toNat) (readString fuel rest)
  | fuel + 1, (_, c) :: rest => if c.val < 32 then none else consCode c (readString fuel rest)

def skipBlanks (t : List Mark) : List Mark :=
  t.dropWhile fun c => c.1 == ' ' || c.1 == '\t' || c.1 == '\n' || c.1 == '\r'

def isAtomMark (c : Mark) : Bool :=
  c.1.isAlphanum || c.1 == '-' || c.1 == '+' || c.1 == '.'

/-- A constant or a number. -/
def readAtom (t : List Mark) : Option (Doc × List Mark) :=
  match parseAtom ((t.takeWhile isAtomMark).map Prod.fst) with
  | some (.null, []) => some (.null, t.dropWhile isAtomMark)
  | some (.bool b, []) => some (.bool b, t.dropWhile isAtomMark)
  | some (.int n, []) => some (.int n, t.dropWhile isAtomMark)
  | some (.float f, []) => some (.float f, t.dropWhile isAtomMark)
  | _ => none

/-- A repeated key keeps its place, and the last value wins. -/
def dictOfPairs (fields : List (PyStr × Doc)) : List (PyStr × Doc) :=
  fields.foldl (fun d kv => PyDict.put d kv.1 kv.2) []

mutual

def readValue : ℕ → List Mark → Option (Doc × List Mark)
  | 0, _ => none
  | n + 1, t =>
    match t with
    | ('"', _) :: rest => (readString (rest.length + 1) rest).map fun p => (.str p.1, p.2)
    | ('[', _) :: rest =>
      match skipBlanks rest with
      | (']', _) :: rest' => some (.list [], rest')
      | t' =>
        (readValue n t').bind fun p =>
          (readItems n (skipBlanks p.2)).map fun q => (.list (p.1 :: q.1), q.2)
    | ('{', _) :: rest =>
      match skipBlanks rest with
      | ('}', _) :: rest' => some (.dict [], rest')
      | t' =>
        (readPair n t').bind fun p =>
          (readPairs n (skipBlanks p.2)).map fun q =>
            (.dict (dictOfPairs (p.1 :: q.1)), q.2)
    | t => readAtom t

def readItems : ℕ → List Mark → Option (List Doc × List Mark)
  | 0, _ => none
  | n + 1, t =>
    match t with
    | (']', _) :: rest => some ([], rest)
    | (',', _) :: rest =>
      (readValue n (skipBlanks rest)).bind fun p =>
        (readItems n (skipBlanks p.2)).map fun q => (p.1 :: q.1, q.2)
    | _ => none

def readPair : ℕ → List Mark → Option ((PyStr × Doc) × List Mark)
  | 0, _ => none
  | n + 1, t =>
    match t with
    | ('"', _) :: rest =>
      (readString (rest.length + 1) rest).bind fun p =>
        match skipBlanks p.2 with
        | (':', _) :: rest' =>
          (readValue n (skipBlanks rest')).map fun q => ((p.1, q.1), q.2)
        | _ => none
    | _ => none

def readPairs : ℕ → List Mark → Option (List (PyStr × Doc) × List Mark)
  | 0, _ => none
  | n + 1, t =>
    match t with
    | ('}', _) :: rest => some ([], rest)
    | (',', _) :: rest =>
      (readPair n (skipBlanks rest)).bind fun p =>
        (readPairs n (skipBlanks p.2)).map fun q => (p.1 :: q.1, q.2)
    | _ => none

end

/-- `json.loads(t)`, or `none` where it raises. -/
def loadsDoc (t : PyStr) : Option Doc :=
  (readValue (t.length + 1) (skipBlanks (t.map mark))).bind fun p =>
    if skipBlanks p.2 = [] then some p.1 else none

/-- `parse_manifest` -/
def parseManifest (t : PyStr) : Except ManifestError (Manifest PyStr Doc) :=
  match loadsDoc t with
  | some d => readManifest format d
  | none => .error .malformed

/-! ## The texts of a value -/

def isHigh (c : CodePoint) : Bool := 55296 ≤ c.val && c.val < 56320

def isLow (c : CodePoint) : Bool := 56320 ≤ c.val && c.val < 57344

/-- No high surrogate is directly followed by a low one. -/
def noPair : PyStr → Bool
  | a :: b :: rest => !(isHigh a && isLow b) && noPair (b :: rest)
  | _ => true

mutual

/-- Every text of a value, keys included, is free of surrogate pairs. -/
def plain : Doc → Bool
  | .str s => noPair s
  | .list items => plainItems items
  | .dict fields => plainFields fields
  | _ => true

def plainItems : List Doc → Bool
  | [] => true
  | v :: vs => plain v && plainItems vs

def plainFields : List (PyStr × Doc) → Bool
  | [] => true
  | (k, v) :: fs => noPair k && plain v && plainFields fs

end

theorem units_ne_low {a : CodePoint} {s : PyStr} (hs : noPair (a :: s) = true)
    (ha : isHigh a = true) {n : ℕ} {ns : List ℕ} (hn : 56320 ≤ n ∧ n < 57344) :
    units s ≠ n :: ns := by
  intro h
  cases s with
  | nil => cases h
  | cons b t =>
    have hb : isLow b = false := by
      rw [noPair, ha] at hs
      simpa using (Bool.and_eq_true_iff.mp hs).1
    have hlow : b.val < 56320 ∨ 57344 ≤ b.val := by
      simp only [isLow, Bool.and_eq_false_iff, decide_eq_false_iff_not] at hb
      omega
    rw [units, flatMap_cons, unitsOf] at h
    split_ifs at h with hsmall
    · have hval := (cons.inj h).1
      omega
    · have hval := (cons.inj h).1
      have hlt := b.isLt
      omega

theorem isHigh_unit {a : CodePoint} {n : ℕ} (hn : n < 1048576) (h : a.val = 55296 + n / 1024) :
    isHigh a = true := by
  have hlt : n / 1024 < 1024 := Nat.div_lt_of_lt_mul hn
  simp only [isHigh, Bool.and_eq_true, decide_eq_true_eq]
  omega

theorem noPair_tail {a : CodePoint} {s : PyStr} (h : noPair (a :: s) = true) :
    noPair s = true := by
  cases s with
  | nil => rfl
  | cons b t =>
    rw [noPair] at h
    exact (Bool.and_eq_true_iff.mp h).2

theorem units_cons_inj {a b : CodePoint} {s t : PyStr} (hs : noPair (a :: s) = true)
    (ht : noPair (b :: t) = true) (h : units (a :: s) = units (b :: t)) :
    a = b ∧ units s = units t := by
  have hlt := a.isLt
  have hlt' := b.isLt
  rw [units, units, flatMap_cons, flatMap_cons, unitsOf, unitsOf] at h
  split_ifs at h with ha hb hb
  · obtain ⟨hval, hrest⟩ := cons.inj h
    exact ⟨Fin.ext hval, hrest⟩
  · obtain ⟨hval, hrest⟩ := cons.inj h
    exact absurd hrest (units_ne_low hs (isHigh_unit (by omega) hval) (by omega))
  · obtain ⟨hval, hrest⟩ := cons.inj h
    exact absurd hrest.symm (units_ne_low ht (isHigh_unit (by omega) hval.symm) (by omega))
  · obtain ⟨hhigh, hrest⟩ := cons.inj h
    obtain ⟨hlow, hrest⟩ := cons.inj hrest
    exact ⟨Fin.ext (by omega), hrest⟩

theorem units_ne_nil (a : CodePoint) (s : PyStr) : units (a :: s) ≠ [] := by
  intro h
  rw [units, flatMap_cons, unitsOf] at h
  split_ifs at h <;> cases h

/-- **Texts without surrogate pairs** are determined by their units. -/
theorem units_injective {s t : PyStr} (hs : noPair s = true) (ht : noPair t = true)
    (h : units s = units t) : s = t := by
  induction s generalizing t with
  | nil =>
    cases t with
    | nil => rfl
    | cons b t => exact absurd h.symm (units_ne_nil b t)
  | cons a s ih =>
    cases t with
    | nil => exact absurd h (units_ne_nil a s)
    | cons b t =>
      obtain ⟨rfl, hrest⟩ := units_cons_inj hs ht h
      rw [ih (noPair_tail hs) (noPair_tail ht) hrest]

theorem units_lt {s : PyStr} {n : ℕ} (h : n ∈ units s) : n < 65536 := by
  obtain ⟨c, -, hc⟩ := mem_flatMap.mp h
  have hlt := c.isLt
  rw [unitsOf] at hc
  split_ifs at hc with hsmall
  · rw [mem_singleton.mp hc]
    exact hsmall
  · simp only [mem_cons, not_mem_nil, or_false] at hc
    omega

/-! ## Texts are read back -/

/-- One unit of a text, read back. -/
def readUnit : List Char → Option (ℕ × List Char)
  | '\\' :: 'u' :: a :: b :: c :: d :: rest => (hex4 a b c d).map fun n => (n, rest)
  | '\\' :: e :: rest => (unescape e).map fun c => (c.toNat, rest)
  | '"' :: _ => none
  | c :: rest => some (c.toNat, rest)
  | [] => none

theorem readUnit_printable {c : Char} (hq : c ≠ '"') (hb : c ≠ '\\') (rest : List Char) :
    readUnit (c :: rest) = some (c.toNat, rest) := by
  rw [readUnit]
  · intro a b c' d rest' h
    exact absurd h hb
  · intro e rest' h
    exact absurd h hb
  · exact hq

theorem readUnit_escapeUnit {n : ℕ} (hn : n < 65536) (rest : List Char) :
    readUnit (escapeUnit n ++ rest) = some (n, rest) := by
  unfold escapeUnit
  split_ifs with h1 h2 h3 h4 h5 h6 h7 h8
  · subst h1; rfl
  · subst h2; rfl
  · subst h3; rfl
  · subst h4; rfl
  · subst h5; rfl
  · subst h6; rfl
  · subst h7; rfl
  · -- a printable character stands for itself
    have hval : (Char.ofNat n).toNat = n := by
      rw [Char.ofNat, dif_pos (Or.inl (by omega))]
      rfl
    rw [cons_append, nil_append, readUnit_printable, hval]
    · intro h
      rw [h] at hval
      exact h1 hval.symm
    · intro h
      rw [h] at hval
      exact h2 hval.symm
  · show (hex4 _ _ _ _).map _ = _
    rw [hex4_unitText n hn]
    rfl

theorem escaped_inj {us us' : List ℕ} (hus : ∀ n ∈ us, n < 65536) (hus' : ∀ n ∈ us', n < 65536)
    {x y : List Char}
    (h : us.flatMap escapeUnit ++ '"' :: x = us'.flatMap escapeUnit ++ '"' :: y) :
    us = us' ∧ x = y := by
  have hquote : ∀ t : List Char, readUnit ('"' :: t) = none := fun t => rfl
  induction us generalizing us' with
  | nil =>
    cases us' with
    | nil => exact ⟨rfl, (cons.inj h).2⟩
    | cons n us' =>
      have hread := congrArg readUnit h
      rw [flatMap_nil, nil_append, hquote, flatMap_cons, append_assoc,
        readUnit_escapeUnit (hus' n mem_cons_self)] at hread
      cases hread
  | cons n us ih =>
    cases us' with
    | nil =>
      have hread := congrArg readUnit h
      rw [flatMap_nil, nil_append, hquote, flatMap_cons, append_assoc,
        readUnit_escapeUnit (hus n mem_cons_self)] at hread
      cases hread
    | cons n' us' =>
      have hread := congrArg readUnit h
      rw [flatMap_cons, flatMap_cons, append_assoc, append_assoc,
        readUnit_escapeUnit (hus n mem_cons_self),
        readUnit_escapeUnit (hus' n' mem_cons_self)] at hread
      obtain ⟨hn, hrest⟩ := Prod.mk.inj (Option.some.inj hread)
      obtain ⟨heq, hxy⟩ := ih (fun m hm => hus m (mem_cons_of_mem _ hm))
        (fun m hm => hus' m (mem_cons_of_mem _ hm)) hrest
      exact ⟨by rw [hn, heq], hxy⟩

theorem quoted_inj {s t : PyStr} (hs : noPair s = true) (ht : noPair t = true) {x y : List Char}
    (h : quoted s ++ x = quoted t ++ y) : s = t ∧ x = y := by
  simp only [quoted, cons_append, append_assoc, nil_append] at h
  obtain ⟨hunits, hxy⟩ := escaped_inj (fun _ => units_lt) (fun _ => units_lt)
    (cons.inj h).2
  exact ⟨units_injective hs ht hunits, hxy⟩

/-! ## Values are determined by their text -/

/-- The value of a text that is no string and no container. -/
def atomOf : Doc → Option Json
  | .null => some .null
  | .bool b => some (.bool b)
  | .int n => some (.int n)
  | .float f => some (.float f)
  | _ => none

theorem atomOf_inj {v w : Doc} {j : Json} (hv : atomOf v = some j) (hw : atomOf w = some j) :
    v = w := by
  cases v <;> cases hv <;> cases w <;> cases hw <;> rfl

theorem parseAtom_dumpsDoc {v : Doc} {j : Json} (hv : atomOf v = some j) {x : List Char}
    (hx : NumEnd x) : parseAtom (dumpsDoc v ++ x) = some (j, x) := by
  cases v with
  | null =>
    cases hv
    rw [dumpsDoc]
    rfl
  | bool b =>
    cases hv
    cases b
    · rw [dumpsDoc]
      rfl
    · rw [dumpsDoc]
      rfl
  | int n =>
    cases hv
    rw [dumpsDoc]
    exact parseAtom_intText n hx
  | float f =>
    cases hv
    rw [dumpsDoc]
    exact parseAtom_float f hx
  | str s => cases hv
  | list items => cases hv
  | dict fields => cases hv

/-- The first character of a string or a container. -/
def opener : Doc → Option Char
  | .str _ => some '"'
  | .list _ => some '['
  | .dict _ => some '{'
  | _ => none

theorem dumpsDoc_opener {v : Doc} {c : Char} (h : opener v = some c) :
    ∃ t, dumpsDoc v = c :: t := by
  cases v with
  | str s =>
    cases h
    rw [dumpsDoc]
    exact ⟨_, rfl⟩
  | list items =>
    cases h
    cases items with
    | nil => exact ⟨_, by rw [dumpsDoc]⟩
    | cons v vs => exact ⟨_, by rw [dumpsDoc]⟩
  | dict fields =>
    cases h
    cases fields with
    | nil => exact ⟨_, by rw [dumpsDoc]⟩
    | cons f fs => exact ⟨_, by rw [dumpsDoc]⟩
  | null => cases h
  | bool b => cases h
  | int n => cases h
  | float f => cases h

theorem parseAtom_opener {v : Doc} {c : Char} (h : opener v = some c) (x : List Char) :
    parseAtom (dumpsDoc v ++ x) = none := by
  obtain ⟨t, ht⟩ := dumpsDoc_opener h
  rw [ht]
  cases v <;> cases h <;> rfl

theorem atomOf_or_opener (v : Doc) : (∃ j, atomOf v = some j) ∨ ∃ c, opener v = some c := by
  cases v with
  | null => exact .inl ⟨_, rfl⟩
  | bool b => exact .inl ⟨_, rfl⟩
  | int n => exact .inl ⟨_, rfl⟩
  | float f => exact .inl ⟨_, rfl⟩
  | str s => exact .inr ⟨_, rfl⟩
  | list items => exact .inr ⟨_, rfl⟩
  | dict fields => exact .inr ⟨_, rfl⟩

theorem dumpsDoc_cases {v w : Doc} {x y : List Char} (hx : NumEnd x) (hy : NumEnd y)
    (h : dumpsDoc v ++ x = dumpsDoc w ++ y) :
    (v = w ∧ x = y) ∨ ∃ c, opener v = some c ∧ opener w = some c := by
  rcases atomOf_or_opener v with ⟨j, hj⟩ | ⟨c, hc⟩
  · have hread := parseAtom_dumpsDoc hj hx
    rcases atomOf_or_opener w with ⟨j', hj'⟩ | ⟨c', hc'⟩
    · rw [h, parseAtom_dumpsDoc hj' hy] at hread
      obtain ⟨rfl, hxy⟩ := Prod.mk.inj (Option.some.inj hread)
      exact .inl ⟨atomOf_inj hj hj', hxy.symm⟩
    · rw [h, parseAtom_opener hc'] at hread
      cases hread
  · rcases atomOf_or_opener w with ⟨j', hj'⟩ | ⟨c', hc'⟩
    · have hread := parseAtom_dumpsDoc hj' hy
      rw [← h, parseAtom_opener hc] at hread
      cases hread
    · obtain ⟨t, ht⟩ := dumpsDoc_opener hc
      obtain ⟨t', ht'⟩ := dumpsDoc_opener hc'
      rw [ht, ht'] at h
      rw [(cons.inj h).1] at hc
      exact .inr ⟨c', hc, hc'⟩

theorem numEnd_dumpsRest (vs : List Doc) (x : List Char) : NumEnd (dumpsRest vs ++ x) := by
  cases vs with
  | nil =>
    rw [dumpsRest]
    exact numEnd_cons (by decide)
  | cons v vs =>
    rw [dumpsRest]
    exact numEnd_cons (by decide)

theorem numEnd_dumpsPairs (fs : List (PyStr × Doc)) (x : List Char) :
    NumEnd (dumpsPairs fs ++ x) := by
  cases fs with
  | nil =>
    rw [dumpsPairs]
    exact numEnd_cons (by decide)
  | cons f fs =>
    rw [dumpsPairs]
    exact numEnd_cons (by decide)

theorem dumpsDoc_ne_close (v : Doc) {x : List Char} (hx : NumEnd x) (y : List Char) :
    ']' :: y ≠ dumpsDoc v ++ x := by
  intro h
  rcases atomOf_or_opener v with ⟨j, hj⟩ | ⟨c, hc⟩
  · have hread := parseAtom_dumpsDoc hj hx
    rw [← h] at hread
    cases hread
  · obtain ⟨t, ht⟩ := dumpsDoc_opener hc
    rw [ht] at h
    rw [← (cons.inj h).1] at hc
    cases v <;> cases hc

mutual

/-- **The text determines the value**, and where it ends. -/
theorem dumpsDoc_inj : ∀ (v w : Doc) (x y : List Char), plain v = true → plain w = true →
    NumEnd x → NumEnd y → dumpsDoc v ++ x = dumpsDoc w ++ y → v = w ∧ x = y
  | .str s, w, x, y, hv, hw, hx, hy, h => by
    rcases dumpsDoc_cases hx hy h with hsame | ⟨c, hc, hc'⟩
    · exact hsame
    cases w <;> cases hc <;> cases hc'
    rw [dumpsDoc, dumpsDoc] at h
    rw [plain] at hv hw
    obtain ⟨rfl, hxy⟩ := quoted_inj hv hw h
    exact ⟨rfl, hxy⟩
  | .list [], w, x, y, hv, hw, hx, hy, h => by
    rcases dumpsDoc_cases hx hy h with hsame | ⟨c, hc, hc'⟩
    · exact hsame
    cases w <;> cases hc <;> cases hc'
    next items =>
    cases items with
    | nil =>
      rw [dumpsDoc] at h
      exact ⟨rfl, by simpa using h⟩
    | cons w ws =>
      rw [dumpsDoc, dumpsDoc, cons_append, cons_append, cons_append,
        append_assoc] at h
      exact absurd (cons.inj h).2 (dumpsDoc_ne_close w (numEnd_dumpsRest ws y) _)
  | .list (v :: vs), w, x, y, hv, hw, hx, hy, h => by
    rcases dumpsDoc_cases hx hy h with hsame | ⟨c, hc, hc'⟩
    · exact hsame
    cases w <;> cases hc <;> cases hc'
    next items =>
    cases items with
    | nil =>
      rw [dumpsDoc, dumpsDoc, cons_append, cons_append, append_assoc] at h
      exact absurd (cons.inj h).2.symm (dumpsDoc_ne_close v (numEnd_dumpsRest vs x) _)
    | cons w ws =>
      rw [dumpsDoc, dumpsDoc, cons_append, cons_append, append_assoc,
        append_assoc] at h
      rw [plain, plainItems, Bool.and_eq_true] at hv hw
      obtain ⟨rfl, hrest⟩ := dumpsDoc_inj v w _ _ hv.1 hw.1 (numEnd_dumpsRest vs x)
        (numEnd_dumpsRest ws y) (cons.inj h).2
      obtain ⟨rfl, hxy⟩ := dumpsRest_inj vs ws x y hv.2 hw.2 hrest
      exact ⟨rfl, hxy⟩
  | .dict [], w, x, y, hv, hw, hx, hy, h => by
    rcases dumpsDoc_cases hx hy h with hsame | ⟨c, hc, hc'⟩
    · exact hsame
    cases w <;> cases hc <;> cases hc'
    next fields =>
    cases fields with
    | nil =>
      rw [dumpsDoc] at h
      exact ⟨rfl, by simpa using h⟩
    | cons f fs =>
      rw [dumpsDoc, dumpsDoc, cons_append, cons_append] at h
      exact absurd (cons.inj (cons.inj h).2).1 (by decide)
  | .dict ((k, v) :: fs), w, x, y, hv, hw, hx, hy, h => by
    rcases dumpsDoc_cases hx hy h with hsame | ⟨c, hc, hc'⟩
    · exact hsame
    cases w <;> cases hc <;> cases hc'
    next fields =>
    cases fields with
    | nil =>
      rw [dumpsDoc, dumpsDoc, cons_append, cons_append] at h
      exact absurd (cons.inj (cons.inj h).2).1 (by decide)
    | cons g gs =>
      rw [dumpsDoc, dumpsDoc] at h
      rw [plain] at hv hw
      obtain ⟨heq, hxy⟩ := dumpsPairs_inj ((k, v) :: fs) (g :: gs) x y hv hw (by
        rw [dumpsPairs, dumpsPairs]
        exact congrArg (',' :: ·) (cons.inj h).2)
      rw [heq]
      exact ⟨rfl, hxy⟩
  | .null, w, x, y, _, _, hx, hy, h => by
    rcases dumpsDoc_cases hx hy h with hsame | ⟨c, hc, -⟩
    · exact hsame
    · cases hc
  | .bool b, w, x, y, _, _, hx, hy, h => by
    rcases dumpsDoc_cases hx hy h with hsame | ⟨c, hc, -⟩
    · exact hsame
    · cases hc
  | .int n, w, x, y, _, _, hx, hy, h => by
    rcases dumpsDoc_cases hx hy h with hsame | ⟨c, hc, -⟩
    · exact hsame
    · cases hc
  | .float f, w, x, y, _, _, hx, hy, h => by
    rcases dumpsDoc_cases hx hy h with hsame | ⟨c, hc, -⟩
    · exact hsame
    · cases hc

theorem dumpsRest_inj : ∀ (vs ws : List Doc) (x y : List Char), plainItems vs = true →
    plainItems ws = true → dumpsRest vs ++ x = dumpsRest ws ++ y → vs = ws ∧ x = y
  | [], [], x, y, _, _, h => by
    rw [dumpsRest] at h
    exact ⟨rfl, by simpa using h⟩
  | [], w :: ws, x, y, _, _, h => by
    rw [dumpsRest, dumpsRest] at h
    exact absurd (cons.inj h).1 (by decide)
  | v :: vs, [], x, y, _, _, h => by
    rw [dumpsRest, dumpsRest] at h
    exact absurd (cons.inj h).1 (by decide)
  | v :: vs, w :: ws, x, y, hv, hw, h => by
    rw [dumpsRest, dumpsRest, cons_append, cons_append, append_assoc,
      append_assoc] at h
    rw [plainItems, Bool.and_eq_true] at hv hw
    obtain ⟨rfl, hrest⟩ := dumpsDoc_inj v w _ _ hv.1 hw.1 (numEnd_dumpsRest vs x)
      (numEnd_dumpsRest ws y) (cons.inj h).2
    obtain ⟨rfl, hxy⟩ := dumpsRest_inj vs ws x y hv.2 hw.2 hrest
    exact ⟨rfl, hxy⟩

theorem dumpsPairs_inj : ∀ (fs gs : List (PyStr × Doc)) (x y : List Char),
    plainFields fs = true → plainFields gs = true →
      dumpsPairs fs ++ x = dumpsPairs gs ++ y → fs = gs ∧ x = y
  | [], [], x, y, _, _, h => by
    rw [dumpsPairs] at h
    exact ⟨rfl, by simpa using h⟩
  | [], (k, v) :: gs, x, y, _, _, h => by
    rw [dumpsPairs, dumpsPairs] at h
    exact absurd (cons.inj h).1 (by decide)
  | (k, v) :: fs, [], x, y, _, _, h => by
    rw [dumpsPairs, dumpsPairs] at h
    exact absurd (cons.inj h).1 (by decide)
  | (k, v) :: fs, (l, w) :: gs, x, y, hf, hg, h => by
    rw [dumpsPairs, dumpsPairs, cons_append, cons_append, append_assoc,
      append_assoc, cons_append, cons_append, append_assoc,
      append_assoc] at h
    rw [plainFields, Bool.and_eq_true, Bool.and_eq_true] at hf hg
    obtain ⟨rfl, hrest⟩ := quoted_inj hf.1.1 hg.1.1 (cons.inj h).2
    obtain ⟨rfl, htail⟩ := dumpsDoc_inj v w _ _ hf.1.2 hg.1.2 (numEnd_dumpsPairs fs x)
      (numEnd_dumpsPairs gs y) (cons.inj hrest).2
    obtain ⟨rfl, hxy⟩ := dumpsPairs_inj fs gs x y hf.2 hg.2 htail
    exact ⟨rfl, hxy⟩

end

theorem plainFields_eq_all (fs : List (PyStr × Doc)) :
    plainFields fs = fs.all fun f => noPair f.1 && plain f.2 := by
  induction fs with
  | nil => rw [plainFields, all_nil]
  | cons f fs ih => rw [plainFields, ih, all_cons]

theorem plainFields_sortPairs (fs : List (PyStr × Doc)) :
    plainFields (sortPairs fs) = plainFields fs := by
  rw [plainFields_eq_all, plainFields_eq_all]
  exact (perm_insertionSort _ fs).all_eq

mutual

theorem plain_sortDoc : ∀ v : Doc, plain (sortDoc v) = plain v
  | .list items => by rw [sortDoc, plain, plain, plainItems_sortItems items]
  | .dict fields => by
    rw [sortDoc, plain, plain, plainFields_sortPairs, plainFields_sortFieldsOf fields]
  | .null => by simp [sortDoc]
  | .bool b => by simp [sortDoc]
  | .int n => by simp [sortDoc]
  | .float f => by simp [sortDoc]
  | .str s => by simp [sortDoc]

theorem plainItems_sortItems : ∀ vs : List Doc, plainItems (sortItems vs) = plainItems vs
  | [] => by rw [sortItems]
  | v :: vs => by
    rw [sortItems, plainItems, plainItems, plain_sortDoc v, plainItems_sortItems vs]

theorem plainFields_sortFieldsOf : ∀ fs : List (PyStr × Doc),
    plainFields (sortFieldsOf fs) = plainFields fs
  | [] => by rw [sortFieldsOf]
  | (k, v) :: fs => by
    rw [sortFieldsOf, plainFields, plainFields, plain_sortDoc v, plainFields_sortFieldsOf fs]

end

/-- **Canonical bytes determine the manifest**, up to the order of keys. -/
theorem canonical_injective {v w : Doc} (hv : plain v = true) (hw : plain w = true)
    (h : canonicalBytes v = canonicalBytes w) : sortDoc v = sortDoc w := by
  have htext := utf8Bytes_injective h
  refine (dumpsDoc_inj (sortDoc v) (sortDoc w) [] [] ?_ ?_ numEnd_nil numEnd_nil ?_).1
  · rw [plain_sortDoc, hv]
  · rw [plain_sortDoc, hw]
  · rw [htext]

/-! ## The chain -/

theorem lookup_sortPairs (fs : List (PyStr × Doc)) (k : PyStr) :
    lookup (sortPairs fs) k = lookup fs k := by
  induction fs with
  | nil => rfl
  | cons f fs ih =>
    -- insertion goes before the fields of the same key
    have hinsert : ∀ gs : List (PyStr × Doc),
        lookup (gs.orderedInsert (fun a b => a.1 ≤ b.1) f) k =
          lookup (f :: gs) k := by
      intro gs
      induction gs with
      | nil => rfl
      | cons g gs ihg =>
        rw [orderedInsert]
        split_ifs with hle
        · rfl
        · have hne : f.1 ≠ g.1 := fun heq => hle (heq ▸ le_refl _)
          rw [lookup, ihg, lookup, lookup, lookup]
          by_cases hg : g.1 = k
          · rw [if_pos hg, if_neg fun hf => hne (hf.trans hg.symm), if_pos hg]
          · rw [if_neg hg, if_neg hg]
    rw [sortPairs, insertionSort_cons, hinsert, lookup, lookup]
    rw [sortPairs] at ih
    rw [ih]

theorem lookup_sortFieldsOf (fs : List (PyStr × Doc)) (k : PyStr) :
    lookup (sortFieldsOf fs) k = (lookup fs k).map sortDoc := by
  induction fs with
  | nil => rw [sortFieldsOf, lookup, Option.map_none]
  | cons f fs ih =>
    rw [sortFieldsOf, lookup, lookup, ih]
    split <;> rfl

/-- The link that a manifest holds, read off its object. -/
def linkOf (d : Doc) : Option Doc :=
  match d with
  | .dict fields => PyDict.lookup fields (ofChars "prev_manifest_sha256".toList)
  | _ => none

theorem linkOf_sortDoc (d : Doc) : linkOf (sortDoc d) = (linkOf d).map sortDoc := by
  cases d with
  | dict fields =>
    rw [sortDoc]
    exact (lookup_sortPairs _ _).trans (lookup_sortFieldsOf _ _)
  | _ => simp [sortDoc, linkOf]

theorem linkOf_parse {t : PyStr} {m : Manifest PyStr Doc} (h : parseManifest t = .ok m) :
    linkOf m.doc = some (optional format m.prev) := by
  unfold parseManifest at h
  split at h
  swap
  · cases h
  next d _ =>
  unfold readManifest at h
  split at h
  swap
  · cases h
  next fields _ =>
  split at h
  swap
  · cases h
  next m' hread =>
  cases h
  unfold readFields at hread
  simp only [Option.bind_eq_bind, Option.bind_eq_some_iff] at hread
  obtain ⟨version, -, seq, -, created, -, host, -, items, -, entries, -, prev, hprev, hread⟩ := hread
  split_ifs at hread
  cases hread
  show lookup (normalized format fields entries) _ = _
  have hput : lookup (put fields (format.literal "entries")
      (format.make (.list (entries.map (entryDoc format)))))
      (format.literal "prev_manifest_sha256") =
      lookup fields (format.literal "prev_manifest_sha256") :=
    lookup_put_of_ne _ _ (by decide +kernel)
  rw [normalized, setDefault, hput]
  rw [getField] at hprev
  cases hlookup : lookup fields (format.literal "prev_manifest_sha256") with
  | none =>
    rw [hlookup] at hprev
    cases hprev
    exact lookup_put_self _ _ _
  | some d =>
    rw [hlookup] at hprev
    rw [Option.isSome_some, if_pos rfl]
    rw [← hput] at hlookup
    refine hlookup.trans ?_
    cases d <;> cases hprev <;> rfl

theorem sortDoc_optional (s : Option PyStr) : sortDoc (optional format s) = optional format s := by
  cases s with
  | none =>
    show sortDoc .null = .null
    simp [sortDoc]
  | some s =>
    show sortDoc (.str s) = .str s
    simp [sortDoc]

theorem prev_eq_of_canonical {t t' : PyStr} {m m' : Manifest PyStr Doc}
    (hm : parseManifest t = .ok m) (hm' : parseManifest t' = .ok m')
    (h : sortDoc m.doc = sortDoc m'.doc) : m.prev = m'.prev := by
  have hlink := congrArg linkOf h
  rw [linkOf_sortDoc, linkOf_sortDoc, linkOf_parse hm, linkOf_parse hm', Option.map_some,
    Option.map_some, sortDoc_optional, sortDoc_optional] at hlink
  have heq := Option.some.inj hlink
  cases hp : m.prev with
  | none =>
    rw [hp] at heq
    cases hp' : m'.prev with
    | none => rfl
    | some s =>
      rw [hp'] at heq
      cases heq
  | some s =>
    rw [hp] at heq
    cases hp' : m'.prev with
    | none =>
      rw [hp'] at heq
      cases heq
    | some s' =>
      rw [hp'] at heq
      cases heq
      rfl

/-- Manifests that `parse_manifest` returned and `verify_chain` accepts. -/
structure Accepted (ms : List (Manifest PyStr Doc)) : Prop where
  parsed : ∀ m ∈ ms, ∃ t, parseManifest t = .ok m
  verified : verifyChain manifestSha256 ms = .ok ()

/-- The canonical bytes of the newest manifest. -/
def newest (ms : List (Manifest PyStr Doc)) : Option (List UInt8) :=
  ms.getLast?.map fun m => canonicalBytes m.doc

/-- The manifests as Python compares them. -/
def contents (ms : List (Manifest PyStr Doc)) : List Doc := ms.map fun m => sortDoc m.doc

/-- No two manifests of the lists have one digest and different canonical bytes. -/
def NoCollision (ms ms' : List (Manifest PyStr Doc)) : Prop :=
  ∀ m ∈ ms, ∀ m' ∈ ms', manifestSha256 m.doc = manifestSha256 m'.doc →
    canonicalBytes m.doc = canonicalBytes m'.doc

theorem contents_eq_of_linked {ms ms' : List (Manifest PyStr Doc)}
    (hparsed : ∀ m ∈ ms ++ ms', ∃ t, parseManifest t = .ok m)
    (hplain : ∀ m ∈ ms ++ ms', plain m.doc = true) (hcoll : NoCollision ms ms')
    (hms : Linked manifestSha256 none ms) (hms' : Linked manifestSha256 none ms')
    (h : newest ms = newest ms') : contents ms = contents ms' := by
  induction ms using reverseRecOn generalizing ms' with
  | nil =>
    rcases eq_nil_or_concat' ms' with rfl | ⟨front', m', rfl⟩
    · rfl
    · rw [newest, newest, getLast?_concat] at h
      cases h
  | append_singleton front m ih =>
    rcases eq_nil_or_concat' ms' with rfl | ⟨front', m', rfl⟩
    · rw [newest, newest, getLast?_concat] at h
      cases h
    rw [newest, newest, getLast?_concat, getLast?_concat] at h
    have hm : m ∈ (front ++ [m]) ++ (front' ++ [m']) := by simp
    have hm' : m' ∈ (front ++ [m]) ++ (front' ++ [m']) := by simp
    have hsame := canonical_injective (hplain m hm) (hplain m' hm') (Option.some.inj h)
    obtain ⟨t, ht⟩ := hparsed m hm
    obtain ⟨t', ht'⟩ := hparsed m' hm'
    have hprev := prev_eq_of_canonical ht ht' hsame
    obtain ⟨hfront, hlink⟩ := hms.snoc
    obtain ⟨hfront', hlink'⟩ := hms'.snoc
    -- equal links: both manifests are the first, or the ones before them have one digest
    have hbefore : newest front = newest front' := by
      rw [hlink, hlink', Option.or_none, Option.or_none] at hprev
      rw [newest, newest]
      cases hl : front.getLast? with
      | none =>
        cases hl' : front'.getLast? with
        | none => rfl
        | some p' =>
          rw [hl, hl'] at hprev
          cases hprev
      | some p =>
        cases hl' : front'.getLast? with
        | none =>
          rw [hl, hl'] at hprev
          cases hprev
        | some p' =>
          rw [hl, hl'] at hprev
          rw [Option.map_some, Option.map_some, hcoll p
            (mem_append_left _ (mem_of_getLast? hl)) p'
            (mem_append_left _ (mem_of_getLast? hl')) (Option.some.inj hprev)]
    have hsub : ∀ p ∈ front ++ front', p ∈ (front ++ [m]) ++ (front' ++ [m']) := by
      intro p hp
      rcases mem_append.mp hp with hp | hp
      · exact mem_append_left _ (mem_append_left _ hp)
      · exact mem_append_right _ (mem_append_left _ hp)
    have hrest := ih (fun p hp => hparsed p (hsub p hp)) (fun p hp => hplain p (hsub p hp))
      (fun p hp p' hp' => hcoll p (mem_append_left _ hp) p' (mem_append_left _ hp'))
      hfront hfront' hbefore
    have hconcat : ∀ (ps : List (Manifest PyStr Doc)) (p : Manifest PyStr Doc),
        contents (ps ++ [p]) = contents ps ++ [sortDoc p.doc] := fun ps p => map_append
    rw [hconcat, hconcat, hrest, hsame]

/-- The host of a manifest, read off its object. -/
def hostOf (d : Doc) : Option PyStr :=
  match d with
  | .dict fields => (PyDict.lookup fields (ofChars "host_id".toList)).bind fun v => asStr v.view
  | _ => none

/-- The text of a first manifest without entries. -/
def firstText (host : PyStr) : PyStr :=
  ofChars "\x7b\"version\":1,\"seq\":0,\"created_at\":0,\"host_id\":\"".toList ++ host ++
    ofChars "\",\"entries\":[]\x7d".toList

/-- The same with its keys in another order. -/
def secondText (host : PyStr) : PyStr :=
  ofChars "\x7b\"entries\": [], \"host_id\": \"".toList ++ host ++
    ofChars "\", \"created_at\": 0, \"seq\": 0, \"version\": 1\x7d".toList

/-- The canonical bytes, where `host` is the host as it is written. -/
def firstBytes (host : String) : List UInt8 :=
  utf8Bytes ("\x7b\"created_at\":0,\"entries\":[],\"host_id\":\"" ++ host ++ "\"," ++
    "\"prev_manifest_sha256\":null,\"seq\":0,\"version\":1\x7d").toList

/-- A text whose manifest is accepted, with these bytes and this host. -/
def Reads (text : PyStr) (bytes : List UInt8) (host : PyStr) (m : Manifest PyStr Doc) : Prop :=
  parseManifest text = .ok m ∧ canonicalBytes m.doc = bytes ∧
    verifyChain manifestSha256 [m] = .ok () ∧ hostOf (sortDoc m.doc) = some host ∧
    plain m.doc = noPair host

/-- The same, to be computed. -/
def reads (text : PyStr) (bytes : List UInt8) (host : PyStr) : Bool :=
  match parseManifest text with
  | .ok m => decide (canonicalBytes m.doc = bytes) &&
      (decide (verifyChain manifestSha256 [m] = .ok ()) &&
        (decide (hostOf (sortDoc m.doc) = some host) && plain m.doc == noPair host))
  | .error _ => false

theorem exists_of_reads {text : PyStr} {bytes : List UInt8} {host : PyStr}
    (h : reads text bytes host = true) : ∃ m, Reads text bytes host m := by
  unfold reads at h
  split at h
  · next m hm =>
    simp only [Bool.and_eq_true, decide_eq_true_eq, beq_iff_eq] at h
    exact ⟨m, hm, h.1, h.2.1, h.2.2.1, h.2.2.2⟩
  · cases h

theorem Reads.accepted {text : PyStr} {bytes : List UInt8} {host : PyStr}
    {m : Manifest PyStr Doc} (h : Reads text bytes host m) : Accepted [m] :=
  ⟨fun m' hm' => ⟨text, by rw [mem_singleton.mp hm', h.1]⟩, h.2.2.1⟩

theorem Reads.newest {text : PyStr} {bytes : List UInt8} {host : PyStr}
    {m : Manifest PyStr Doc} (h : Reads text bytes host m) : newest [m] = some bytes :=
  congrArg some h.2.1

theorem noCollision_singleton {m m' : Manifest PyStr Doc}
    (h : canonicalBytes m.doc = canonicalBytes m'.doc) : NoCollision [m] [m'] := by
  intro p hp p' hp' _
  rw [mem_singleton.mp hp, mem_singleton.mp hp', h]

end BackupHistory
