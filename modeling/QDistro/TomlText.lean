/-
# TOML texts

`dumps_toml` writes a table as lines: the values of a table, then its sub-tables and then its arrays of
tables, each under a header with its full path.  A key that matches `^[A-Za-z0-9_-]+$` stands bare;
other keys, and strings, are quoted and escaped.

The reader is TOML 1.0 on such documents: one statement a line, bare and quoted keys, values that
TOML writes as JSON does (basic strings, integers, booleans, arrays), and headers in the order in which
tables are made.  `$` also matches before a final newline, so a key may break its line; a line is read
back exactly when none of its keys does.
-/
import QDistro.CanonicalJson

open JsonText

namespace Toml

open List

/-! ## Lines -/

/-- A character of a bare key. -/
def bareChar (c : Char) : Bool := c.isAlphanum || c == '_' || c == '-'

/-- `_BARE_KEY_RE.match(key)`: a newline at the end is no part of what must match. -/
def isBare (k : List Char) : Bool :=
  let body := if k.getLast? = some '\n' then k.dropLast else k
  !body.isEmpty && body.all bareChar

/-- A bare key with that newline. -/
def breaksLine (k : String) : Bool := isBare k.toList && k.toList.contains '\n'

/-- A character of `_emit_str`. -/
def tomlChar (c : Char) : List Char := if c.toNat = 127 then unitText 127 else rawChar c

/-- `_emit_key` -/
def emitKey (k : String) : List Char :=
  if isBare k.toList then k.toList else strTextWith tomlChar k

/-- What `_emit_value` refuses, with the integers that `str` does not convert; floats are left out. -/
def isUnplain : Json → Bool
  | .null | .float _ | .obj _ => true
  | v => isLongInt v

/-- `_emit_value` accepts the value. -/
def plain (v : Json) : Bool := !hasAny isUnplain v

/-- A line of the document. -/
inductive Line
  | blank
  | assign (k : String) (v : Json)
  | table (path : List String)
  | element (path : List String)

/-- A header's path. -/
def pathText : List String → List Char
  | [] => []
  | [k] => emitKey k
  | k :: ks => emitKey k ++ '.' :: pathText ks

def Line.text : Line → List Char
  | .blank => []
  | .assign k v => emitKey k ++ ' ' :: '=' :: ' ' :: dumpsWith tomlChar defaultSeps v
  | .table path => '[' :: (pathText path ++ [']'])
  | .element path => '[' :: '[' :: (pathText path ++ [']', ']'])

/-- The lines of a table: its values, its sub-tables and its arrays of tables. -/
abbrev Parts := List Line × List Line × List Line

def Parts.lines (p : Parts) : List Line := p.1 ++ p.2.1 ++ p.2.2

/-- A list that starts with a table; it must then hold tables only. -/
def startsTables : List Json → Bool
  | .obj _ :: _ => true
  | _ => false

mutual

/-- `_emit_table` -/
def emitTable (path : List String) : List (String × Json) → Option Parts
  | [] => some ([], [], [])
  | (k, .obj sub) :: rest =>
    (emitTable (path ++ [k]) sub).bind fun s => (emitTable path rest).map fun r =>
      (r.1, .blank :: .table (path ++ [k]) :: s.lines ++ r.2.1, r.2.2)
  | (k, .arr items) :: rest =>
    if startsTables items then
      (emitElements (path ++ [k]) items).bind fun s => (emitTable path rest).map fun r =>
        (r.1, r.2.1, s ++ r.2.2)
    else if plain (.arr items) then
      (emitTable path rest).map fun r => (.assign k (.arr items) :: r.1, r.2)
    else none
  | (k, v) :: rest =>
    if plain v then (emitTable path rest).map fun r => (.assign k v :: r.1, r.2) else none

/-- The elements of an array of tables; a value among them is refused. -/
def emitElements (path : List String) : List Json → Option (List Line)
  | [] => some []
  | .obj sub :: items =>
    (emitTable path sub).bind fun s => (emitElements path items).map fun r =>
      .blank :: .element path :: s.lines ++ r
  | _ :: _ => none

end

/-- `"\n".join(lines)` -/
def joinLines : List Line → List Char
  | [] => []
  | [l] => l.text
  | l :: ls => l.text ++ '\n' :: joinLines ls

/-- `dumps_toml`, or `none` where it raises. -/
def dumpsToml (d : List (String × Json)) : Option (List Char) :=
  (emitTable [] d).map fun p =>
    let text := (joinLines p.lines).dropWhile (· == '\n')
    if text = [] then [] else text ++ ['\n']

/-! ## Reading lines -/

/-- The lines of a text. -/
def splitLines : List Char → List (List Char)
  | [] => [[]]
  | c :: t =>
    if c = '\n' then [] :: splitLines t
    else
      match splitLines t with
      | [] => [[c]]
      | l :: ls => (c :: l) :: ls

/-- A bare or quoted key. -/
def parseKey : List Char → Option (String × List Char)
  | '"' :: rest => (parseString rest).map fun p => (String.ofList p.1, p.2)
  | t =>
    if t.takeWhile bareChar = [] then none
    else some (String.ofList (t.takeWhile bareChar), t.dropWhile bareChar)

/-- The keys of a header. -/
def parsePath : ℕ → List Char → Option (List String × List Char)
  | 0, _ => none
  | n + 1, t =>
    (parseKey t).bind fun p =>
      match p.2 with
      | '.' :: rest => (parsePath n rest).map fun q => (p.1 :: q.1, q.2)
      | rest => some ([p.1], rest)

/-- One line. -/
def parseLine : List Char → Option Line
  | [] => some .blank
  | '[' :: '[' :: rest =>
    (parsePath (rest.length + 1) rest).bind fun p =>
      if p.2 = [']', ']'] then some (.element p.1) else none
  | '[' :: rest =>
    (parsePath (rest.length + 1) rest).bind fun p =>
      if p.2 = [']'] then some (.table p.1) else none
  | t =>
    (parseKey t).bind fun p =>
      match skipWs p.2 with
      | '=' :: rest => ((loadsWith uniqueHook rest).filter plain).map fun v => .assign p.1 v
      | _ => none

/-! ## Building tables -/

/-- The fields of a table. -/
abbrev Fields := List (String × Json)

/-- Change the table at a path; an array of tables stands for its last element. -/
def update (f : Fields → Option Fields) : List String → Fields → Option Fields
  | [], fs => f fs
  | k :: path, fs =>
    match PyDict.lookup fs k with
    | some (.obj sub) => (update f path sub).map fun sub => PyDict.put fs k (.obj sub)
    | some (.arr items) =>
      match items.getLast? with
      | some (.obj sub) => (update f path sub).map fun sub =>
        PyDict.put fs k (.arr (items.dropLast ++ [.obj sub]))
      | _ => none
    | _ => none

/-- A key may be given once. -/
def addKey (k : String) (v : Json) (fs : Fields) : Option Fields :=
  if k ∈ fs.map Prod.fst then none else some (fs ++ [(k, v)])

/-- A further element of an array of tables. -/
def addElement (k : String) (sub fs : Fields) : Option Fields :=
  match PyDict.lookup fs k with
  | none => some (fs ++ [(k, .arr [.obj sub])])
  | some (.arr items) =>
    match items.getLast? with
    | some (.obj _) => some (PyDict.put fs k (.arr (items ++ [.obj sub])))
    | _ => none
  | some _ => none

/-- A line's effect on the document and on the path of the current table. -/
def execute (s : Fields × List String) : Line → Option (Fields × List String)
  | .blank => some s
  | .assign k v => (update (addKey k v) s.2 s.1).map fun fs => (fs, s.2)
  | .table path => path.getLast?.bind fun k =>
    (update (addKey k (.obj [])) path.dropLast s.1).map fun fs => (fs, path)
  | .element path => path.getLast?.bind fun k =>
    (update (addElement k []) path.dropLast s.1).map fun fs => (fs, path)

/-- `loads_toml`, or `none` where it raises. -/
def loadsToml (text : List Char) : Option Fields :=
  ((splitLines text).mapM parseLine).bind fun ls => (ls.foldlM execute ([], [])).map Prod.fst

/-! ## Keys and values are read back -/

theorem escapes_tomlChar : Escapes tomlChar := by
  intro c rest
  unfold tomlChar
  split_ifs with h
  · rw [parseString_unit (by omega), ← h, Char.ofNat_toNat]
  · exact escapes_rawChar c rest

theorem newline_unitText (n : ℕ) : '\n' ∉ unitText n := by
  have hdigit : ∀ d, d < 16 → Nat.digitChar d ≠ '\n' := by decide
  have hmod : ∀ m, Nat.digitChar (m % 16) ≠ '\n' := fun m => hdigit _ (Nat.mod_lt m (by decide))
  simp only [unitText, mem_cons, not_mem_nil, or_false, not_or]
  exact ⟨by decide, by decide, (hmod _).symm, (hmod _).symm, (hmod _).symm, (hmod _).symm⟩

theorem newline_tomlChar (c : Char) : '\n' ∉ tomlChar c := by
  unfold tomlChar rawChar
  split_ifs with h1 h2 h3 h4
  all_goals first
    | exact newline_unitText _
    | decide
    | skip
  rw [mem_singleton]
  exact fun h => h4 h.symm

theorem newline_strText (s : String) : '\n' ∉ strTextWith tomlChar s := by
  unfold strTextWith
  simp only [cons_append, mem_cons, mem_append, mem_flatMap, not_or,
    not_mem_nil, or_false]
  refine ⟨by decide, ?_, by decide⟩
  rintro ⟨c, -, hc⟩
  exact newline_tomlChar c hc

mutual

theorem newline_dumps : ∀ v : Json, hasAny isUnplain v = false →
    '\n' ∉ dumpsWith tomlChar defaultSeps v
  | .null => fun h => absurd h (by simp [hasAny, isUnplain])
  | .float _ => fun h => absurd h (by simp [hasAny, isUnplain])
  | .obj _ => fun h => absurd h (by simp [hasAny, isUnplain])
  | .bool true => fun _ => by
    rw [dumpsWith]
    decide
  | .bool false => fun _ => by
    rw [dumpsWith]
    decide
  | .int n => fun _ hmem => by
    rw [dumpsWith] at hmem
    exact absurd (isNumChar_of_mem_intText hmem) (by decide)
  | .str s => fun _ => by
    rw [dumpsWith]
    exact newline_strText s
  | .arr [] => fun _ => by
    rw [dumpsWith]
    decide
  | .arr (v :: vs) => fun h => by
    simp only [hasAny, hasAnyItems, Bool.or_eq_false_iff] at h
    rw [dumpsWith]
    simp only [mem_cons, mem_append, not_or]
    exact ⟨by decide, newline_dumps v h.2.1, newline_dumpsItems vs h.2.2⟩

theorem newline_dumpsItems : ∀ vs : List Json, hasAnyItems isUnplain vs = false →
    '\n' ∉ dumpsItemsWith tomlChar defaultSeps vs
  | [] => fun _ => by
    rw [dumpsItemsWith]
    decide
  | v :: vs => fun h => by
    simp only [hasAnyItems, Bool.or_eq_false_iff] at h
    rw [dumpsItemsWith]
    simp only [mem_append, not_or]
    exact ⟨⟨by decide, newline_dumps v h.1⟩, newline_dumpsItems vs h.2⟩

end

theorem bare_of_good {k : String} (hbare : isBare k.toList = true) (hgood : breaksLine k = false) :
    k.toList ≠ [] ∧ ∀ c ∈ k.toList, bareChar c = true := by
  rw [breaksLine, hbare, Bool.true_and, contains_eq_mem, decide_eq_false_iff_not] at hgood
  have hlast : ¬ k.toList.getLast? = some '\n' := fun h => hgood (mem_of_getLast? h)
  rw [isBare, if_neg hlast] at hbare
  simpa using hbare

theorem bare_of_breaks {k : String} (h : breaksLine k = true) :
    ∃ body, k.toList = body ++ ['\n'] ∧ body ≠ [] ∧ ∀ c ∈ body, bareChar c = true := by
  rw [breaksLine, Bool.and_eq_true, contains_eq_mem, decide_eq_true_iff] at h
  obtain ⟨hbare, hmem⟩ := h
  rw [isBare] at hbare
  by_cases hlast : k.toList.getLast? = some '\n'
  · rw [if_pos hlast] at hbare
    refine ⟨k.toList.dropLast, (dropLast_append_getLast? '\n' hlast).symm, by simpa using hbare⟩
  · rw [if_neg hlast] at hbare
    have hall : ∀ c ∈ k.toList, bareChar c = true := by
      simp only [Bool.and_eq_true, all_eq_true] at hbare
      exact hbare.2
    exact absurd (hall _ hmem) (by decide)

theorem emitKey_eq_cons (k : String) : ∃ c t, emitKey k = c :: t ∧ (c = '"' ∨ bareChar c = true) := by
  unfold emitKey
  split_ifs with hbare
  · cases hk : breaksLine k with
    | false =>
      obtain ⟨hne, hall⟩ := bare_of_good hbare hk
      obtain ⟨c, t, hct⟩ := exists_cons_of_ne_nil hne
      exact ⟨c, t, hct, .inr (hall c (by rw [hct]; exact mem_cons_self))⟩
    | true =>
      obtain ⟨body, hbody, hne, hall⟩ := bare_of_breaks hk
      obtain ⟨c, t, rfl⟩ := exists_cons_of_ne_nil hne
      exact ⟨c, t ++ ['\n'], hbody, .inr (hall c mem_cons_self)⟩
  · exact ⟨_, _, rfl, .inl rfl⟩

theorem parseKey_bare {body : List Char} (rest : List Char) (hne : body ≠ []) (hall : ∀ c ∈ body, bareChar c = true)
    (hrest : ∀ c ∈ rest.head?, bareChar c = false) :
    parseKey (body ++ rest) = some (String.ofList body, rest) := by
  have htake : (body ++ rest).takeWhile bareChar = body := by
    rw [takeWhile_append_of_pos hall]
    cases rest with
    | nil => simp
    | cons c t => simp [hrest c rfl]
  have hdrop : (body ++ rest).dropWhile bareChar = rest := by
    rw [dropWhile_append_of_pos hall]
    cases rest with
    | nil => rfl
    | cons c t => simp [hrest c rfl]
  obtain ⟨c, t, rfl⟩ := exists_cons_of_ne_nil hne
  unfold parseKey
  split
  next rest' heq =>
    have hquote := hall _ mem_cons_self
    rw [(cons.inj heq).1] at hquote
    exact absurd hquote (by decide)
  next => rw [htake, if_neg hne, hdrop]

/-- **A key is read back from its text**, if it stays on its line. -/
theorem parseKey_emitKey {k : String} (hgood : breaksLine k = false) {rest : List Char}
    (hrest : ∀ c ∈ rest.head?, bareChar c = false) :
    parseKey (emitKey k ++ rest) = some (k, rest) := by
  unfold emitKey
  split_ifs with hbare
  · obtain ⟨hne, hall⟩ := bare_of_good hbare hgood
    rw [parseKey_bare _ hne hall hrest, String.ofList_toList]
  · rw [strText_append, parseKey, parseString_escape escapes_tomlChar, Option.map_some,
      String.ofList_toList]

theorem newline_emitKey {k : String} (hgood : breaksLine k = false) : '\n' ∉ emitKey k := by
  unfold emitKey
  split_ifs with hbare
  · intro hmem
    exact absurd ((bare_of_good hbare hgood).2 _ hmem) (by decide)
  · exact newline_strText k

/-! ## Lines are read back -/

theorem splitLines_ne_nil (t : List Char) : splitLines t ≠ [] := by
  cases t with
  | nil => simp [splitLines]
  | cons c t =>
    rw [splitLines]
    split_ifs
    · simp
    · split <;> simp

theorem splitLines_append (a b : List Char) :
    splitLines (a ++ '\n' :: b) = splitLines a ++ splitLines b := by
  induction a with
  | nil => rfl
  | cons c a ih =>
    rw [cons_append, splitLines, splitLines, ih]
    obtain ⟨l, ls, hls⟩ := exists_cons_of_ne_nil (splitLines_ne_nil a)
    rw [hls]
    split_ifs <;> rfl

theorem splitLines_of_not_mem {a : List Char} (h : '\n' ∉ a) : splitLines a = [a] := by
  induction a with
  | nil => rfl
  | cons c a ih =>
    have hc : c ≠ '\n' := fun heq => h (by rw [heq]; exact mem_cons_self)
    rw [splitLines, if_neg hc, ih fun hmem => h (mem_cons_of_mem _ hmem)]

theorem pathText_cons (k k' : String) (ks : List String) :
    pathText (k :: k' :: ks) = emitKey k ++ '.' :: pathText (k' :: ks) := by
  rw [pathText]
  simp

theorem head_cons {c : Char} {t : List Char} (h : bareChar c = false) :
    ∀ x ∈ (c :: t).head?, bareChar x = false := by
  intro x hx
  cases hx
  exact h

theorem parsePath_dot {n : ℕ} {t rest : List Char} {k : String}
    (h : parseKey t = some (k, '.' :: rest)) :
    parsePath (n + 1) t = (parsePath n rest).map fun q => (k :: q.1, q.2) := by
  rw [parsePath, h, Option.bind_some]
  rfl

theorem length_pathText (ks : List String) : ks.length ≤ (pathText ks).length + 1 := by
  induction ks with
  | nil => exact Nat.zero_le _
  | cons k ks ih =>
    obtain ⟨c, t, hct, -⟩ := emitKey_eq_cons k
    cases ks with
    | nil => exact Nat.succ_le_succ (Nat.zero_le _)
    | cons k' ks =>
      rw [pathText_cons, hct]
      simp only [length_cons, length_append] at ih ⊢
      omega

/-- **A path is read back**, if its keys stay on their line. -/
theorem parsePath_pathText {ks : List String} (hne : ks ≠ [])
    (hgood : ∀ k ∈ ks, breaksLine k = false) (rest : List Char) {n : ℕ} (hn : ks.length ≤ n) :
    parsePath n (pathText ks ++ ']' :: rest) = some (ks, ']' :: rest) := by
  induction ks generalizing n with
  | nil => exact absurd rfl hne
  | cons k ks ih =>
    obtain ⟨n, rfl⟩ : ∃ m, n = m + 1 := ⟨n - 1, by rw [length_cons] at hn; omega⟩
    have hk := hgood k mem_cons_self
    cases ks with
    | nil =>
      rw [pathText, parsePath, parseKey_emitKey hk (head_cons (by decide)), Option.bind_some]
      rfl
    | cons k' ks =>
      rw [pathText_cons, append_assoc, cons_append,
        parsePath_dot (parseKey_emitKey hk (head_cons (by decide))), ih (by simp) (fun x hx => hgood x (mem_cons_of_mem _ hx))
        (by rw [length_cons] at hn; omega), Option.map_some]

theorem parsePath_breaks {ks : List String} (hbad : ∃ k ∈ ks, breaksLine k = true) :
    ∃ a b, pathText ks = a ++ '\n' :: b ∧ '\n' ∉ a ∧ ∃ c t, a = c :: t ∧ (c = '"' ∨ bareChar c = true) ∧
      ∀ n, ∀ p, parsePath n a = some p → p.2 = [] := by
  induction ks with
  | nil =>
    obtain ⟨k, hk, -⟩ := hbad
    exact absurd hk not_mem_nil
  | cons k ks ih =>
    cases hk : breaksLine k with
    | true =>
      -- the first piece is the key's own text
      obtain ⟨body, hbody, hne, hall⟩ := bare_of_breaks hk
      have htext : emitKey k = body ++ ['\n'] := by
        rw [breaksLine, Bool.and_eq_true] at hk
        rw [emitKey, if_pos hk.1, hbody]
      obtain ⟨c, t, hct⟩ := exists_cons_of_ne_nil hne
      have hpath : ∃ b, pathText (k :: ks) = body ++ '\n' :: b := by
        cases ks with
        | nil => exact ⟨[], htext⟩
        | cons k' ks => exact ⟨'.' :: pathText (k' :: ks), by rw [pathText_cons, htext]; simp⟩
      obtain ⟨b, hb⟩ := hpath
      refine ⟨body, b, hb, fun hmem => absurd (hall _ hmem) (by decide), c, t, hct,
        .inr (hall c (by rw [hct]; exact mem_cons_self)), fun n p hp => ?_⟩
      cases n with
      | zero => cases hp
      | succ n =>
        have hkey := parseKey_bare [] hne hall (by simp)
        rw [append_nil] at hkey
        rw [parsePath, hkey, Option.bind_some] at hp
        cases hp
        rfl
    | false =>
      have hbad' : ∃ x ∈ ks, breaksLine x = true := by
        obtain ⟨x, hx, hxbad⟩ := hbad
        rcases mem_cons.mp hx with rfl | hx
        · rw [hk] at hxbad
          cases hxbad
        · exact ⟨x, hx, hxbad⟩
      obtain ⟨a, b, hab, hnl, -, -, -, -, hparse⟩ := ih hbad'
      obtain ⟨k', ks', rfl⟩ : ∃ k' ks', ks = k' :: ks' := by
        obtain ⟨x, hx, -⟩ := hbad'
        exact exists_cons_of_ne_nil (ne_nil_of_mem hx)
      obtain ⟨c, t, hct, hc⟩ := emitKey_eq_cons k
      refine ⟨emitKey k ++ '.' :: a, b, by rw [pathText_cons, hab]; simp, ?_, c, t ++ '.' :: a,
        by rw [hct]; rfl, hc, fun n p hp => ?_⟩
      · simp only [mem_append, mem_cons, not_or]
        exact ⟨newline_emitKey hk, by decide, hnl⟩
      · cases n with
        | zero => cases hp
        | succ n =>
          rw [parsePath_dot (parseKey_emitKey hk (head_cons (by decide)))] at hp
          obtain ⟨q, hq, rfl⟩ := Option.map_eq_some_iff.mp hp
          exact hparse n q hq

/-- The keys of a line. -/
def Line.keys : Line → List String
  | .blank => []
  | .assign k _ => [k]
  | .table path | .element path => path

/-- What the writer never puts on a line otherwise. -/
def Line.Sound : Line → Prop
  | .blank => True
  | .assign _ v => plain v = true ∧ Distinct v
  | .table path | .element path => path ≠ []

theorem ne_bracket {c : Char} (h : c = '"' ∨ bareChar c = true) : c ≠ '[' := by
  rintro rfl
  rcases h with h | h
  · exact absurd h (by decide)
  · exact absurd h (by decide)

theorem parseLine_header {c : Char} (t : List Char) (hc : c ≠ '[') :
    parseLine ('[' :: c :: t) = (parsePath (t.length + 2) (c :: t)).bind fun p =>
      if p.2 = [']'] then some (.table p.1) else none := by
  rw [parseLine]
  · rfl
  · intro rest h
    exact hc (cons.inj h).1

theorem parseLine_assign {c : Char} (t : List Char) (hc : c ≠ '[') :
    parseLine (c :: t) = (parseKey (c :: t)).bind fun p =>
      match skipWs p.2 with
      | '=' :: rest => ((loadsWith uniqueHook rest).filter plain).map fun v => .assign p.1 v
      | _ => none := by
  rw [parseLine]
  · simp
  · intro rest h
    exact hc (cons.inj h).1
  · intro rest h
    exact hc (cons.inj h).1

theorem pathText_eq_cons {ks : List String} (hne : ks ≠ []) :
    ∃ c t, pathText ks = c :: t ∧ (c = '"' ∨ bareChar c = true) := by
  obtain ⟨k, ks, rfl⟩ := exists_cons_of_ne_nil hne
  obtain ⟨c, t, hct, hc⟩ := emitKey_eq_cons k
  cases ks with
  | nil => exact ⟨c, t, hct, hc⟩
  | cons k' ks => exact ⟨c, _, by rw [pathText_cons, hct]; rfl, hc⟩

/-- **A line is read back**, if its keys stay on it. -/
theorem parseLine_text {l : Line} (hl : l.Sound) (hgood : ∀ k ∈ l.keys, breaksLine k = false) :
    parseLine l.text = some l := by
  cases l with
  | blank => rfl
  | assign k v =>
    have hk := hgood k mem_cons_self
    obtain ⟨c, t, hct, hc⟩ := emitKey_eq_cons k
    have hkey := parseKey_emitKey hk (head_cons (show bareChar ' ' = false by decide)
      (t := '=' :: ' ' :: dumpsWith tomlChar defaultSeps v))
    have hloads : loadsWith uniqueHook (' ' :: dumpsWith tomlChar defaultSeps v) = some v := by
      have hskip := skipWs_blanks 1 (dumpsWith tomlChar defaultSeps v)
      have hread := parseValue_dumps escapes_tomlChar keepsDistinct_uniqueHook defaultSeps v
        ((' ' :: dumpsWith tomlChar defaultSeps v).length + 1) [] hl.2
        (by rw [length_cons]; omega) numEnd_nil
      rw [append_nil] at hread
      rw [loadsWith, show skipWs (' ' :: dumpsWith tomlChar defaultSeps v) =
        dumpsWith tomlChar defaultSeps v from hskip.trans (by
          have := skipWs_dumps tomlChar defaultSeps v []
          rwa [append_nil] at this), hread]
      rfl
    rw [Line.text, hct, cons_append, parseLine_assign _ (ne_bracket hc)]
    rw [hct, cons_append] at hkey
    rw [hkey, Option.bind_some]
    show ((loadsWith uniqueHook (' ' :: dumpsWith tomlChar defaultSeps v)).filter plain).map _ = _
    rw [hloads, Option.filter_some, if_pos hl.1, Option.map_some]
  | table path =>
    obtain ⟨c, t, hct, hc⟩ := pathText_eq_cons hl
    have hparse := parsePath_pathText hl hgood [] (n := (t ++ [']']).length + 2) (by
      have := length_pathText path
      rw [hct] at this
      simp only [length_append, length_cons, length_nil] at this ⊢
      omega)
    rw [Line.text, hct, cons_append, parseLine_header _ (ne_bracket hc)]
    rw [hct, cons_append] at hparse
    rw [hparse]
    rfl
  | element path =>
    have hparse := parsePath_pathText hl hgood [']']
      (n := (pathText path ++ [']', ']']).length + 1) (by
      have := length_pathText path
      simp only [length_append, length_cons, length_nil]
      omega)
    rw [Line.text, parseLine, hparse]
    rfl

/-- **A line that a key breaks is not read.** -/
theorem parseLine_breaks {l : Line} (hbad : ∃ k ∈ l.keys, breaksLine k = true) :
    ∃ piece ∈ splitLines l.text, parseLine piece = none := by
  have hpiece : ∀ a b : List Char, '\n' ∉ a → a ∈ splitLines (a ++ '\n' :: b) := by
    intro a b ha
    rw [splitLines_append, splitLines_of_not_mem ha]
    exact mem_cons_self
  cases l with
  | blank =>
    obtain ⟨k, hk, -⟩ := hbad
    exact absurd hk not_mem_nil
  | assign k v =>
    obtain ⟨x, hx, hk⟩ := hbad
    rw [mem_singleton.mp hx] at hk
    obtain ⟨body, hbody, hne, hall⟩ := bare_of_breaks hk
    have htext : (Line.assign k v).text =
        body ++ '\n' :: (' ' :: '=' :: ' ' :: dumpsWith tomlChar defaultSeps v) := by
      rw [breaksLine, Bool.and_eq_true] at hk
      rw [Line.text, emitKey, if_pos hk.1, hbody]
      simp
    refine ⟨body, ?_, ?_⟩
    · rw [htext]
      exact hpiece _ _ fun hmem => absurd (hall _ hmem) (by decide)
    · have hkey := parseKey_bare [] hne hall (by simp)
      rw [append_nil] at hkey
      obtain ⟨c, t, rfl⟩ := exists_cons_of_ne_nil hne
      rw [parseLine_assign t (ne_bracket (.inr (hall c mem_cons_self))), hkey]
      rfl
  | table path =>
    rw [Line.keys] at hbad
    obtain ⟨a, b, hab, hnl, c, t, rfl, hc, hparse⟩ := parsePath_breaks hbad
    refine ⟨'[' :: c :: t, ?_, ?_⟩
    · rw [Line.text, hab]
      have := hpiece ('[' :: c :: t) (b ++ [']']) (by simpa using hnl)
      simpa using this
    · rw [parseLine_header _ (ne_bracket hc)]
      cases hp : parsePath (t.length + 2) (c :: t) with
      | none => rfl
      | some p => simp [hparse _ p hp]
  | element path =>
    rw [Line.keys] at hbad
    obtain ⟨a, b, hab, hnl, c, t, rfl, hc, hparse⟩ := parsePath_breaks hbad
    refine ⟨'[' :: '[' :: c :: t, ?_, ?_⟩
    · rw [Line.text, hab]
      have := hpiece ('[' :: '[' :: c :: t) (b ++ [']', ']']) (by simpa using hnl)
      simpa using this
    · rw [parseLine]
      cases hp : parsePath ((c :: t).length + 1) (c :: t) with
      | none => rfl
      | some p => simp [hparse _ p hp]

end Toml
