/-
# Reading back JSON text

`loads` inverts `dumps` on every value whose objects have distinct keys, whatever
the padding of the separators, so `dumps` is injective there.  The proof follows the
grammar: one lemma for each token, then a simultaneous induction over values, item
lists and field lists in which the fuel is bounded by the length of the text.
-/
import QDistro.JsonCodec
import Mathlib.Tactic.IntervalCases

namespace JsonText

open List

/-! ## Strings -/

theorem hexVal_digitChar : ∀ d, d < 16 → hexVal (Nat.digitChar d) = some d := by decide

theorem hex4_unitText (n : ℕ) (h : n < 65536) :
    hex4 (Nat.digitChar (n / 4096 % 16)) (Nat.digitChar (n / 256 % 16))
      (Nat.digitChar (n / 16 % 16)) (Nat.digitChar (n % 16)) = some n := by
  rw [hex4, hexVal_digitChar _ (Nat.mod_lt _ (by decide)),
    hexVal_digitChar _ (Nat.mod_lt _ (by decide)),
    hexVal_digitChar _ (Nat.mod_lt _ (by decide)),
    hexVal_digitChar _ (Nat.mod_lt _ (by decide))]
  simp only [Option.bind_eq_bind, Option.bind_some, Option.pure_def, Option.some.injEq]
  omega

theorem parseString_unit {n : ℕ} (h : n < 55296 ∨ 57344 ≤ n ∧ n < 65536) (rest : List Char) :
    parseString (unitText n ++ rest) = consChar (Char.ofNat n) (parseString rest) := by
  simp only [unitText, cons_append, nil_append]
  rw [parseString, hex4_unitText n (by omega)]
  simp only
  rw [if_neg (by omega), if_neg (by omega)]

theorem parseString_pair {n m : ℕ} (hn : 55296 ≤ n ∧ n < 56320) (hm : 56320 ≤ m ∧ m < 57344)
    (rest : List Char) :
    parseString (unitText n ++ unitText m ++ rest) =
      consChar (Char.ofNat (65536 + (n - 55296) * 1024 + (m - 56320))) (parseString rest) := by
  simp only [unitText, cons_append, nil_append]
  rw [parseString, hex4_unitText n (by omega)]
  simp only
  rw [if_pos hn, hex4_unitText m (by omega)]
  simp only
  rw [if_pos hm]

theorem toNat_not_surrogate (c : Char) : c.toNat < 55296 ∨ 57344 ≤ c.toNat := by
  have h := c.valid
  unfold UInt32.isValidChar Nat.isValidChar at h
  show c.val.toNat < 55296 ∨ 57344 ≤ c.val.toNat
  omega

theorem toNat_lt_planes (c : Char) : c.toNat < 1114112 := by
  have h := c.valid
  unfold UInt32.isValidChar Nat.isValidChar at h
  show c.val.toNat < 1114112
  omega

theorem parseString_escapeChar (c : Char) (rest : List Char) :
    parseString (escapeChar c ++ rest) = consChar c (parseString rest) := by
  unfold escapeChar
  split_ifs with h1 h2 h3 h4 h5 h6 h7 h8 h9
  · subst h1; rfl
  · subst h2; rfl
  · subst h3; rfl
  · subst h4; rfl
  · subst h5; rfl
  · subst h6; rfl
  · subst h7; rfl
  · -- a printable character stands for itself
    rw [cons_append, nil_append, parseString]
    · rw [if_neg (by omega)]
    · exact fun h => h1 h
    · intro a b c' d rest' h; exact absurd h h2
    · intro e rest' h; exact absurd h h2
  · rw [parseString_unit, Char.ofNat_toNat]
    rcases toNat_not_surrogate c with h | h
    · exact Or.inl h
    · exact Or.inr ⟨h, h9⟩
  · have hlt := toNat_lt_planes c
    have hval : 65536 + (55296 + (c.toNat - 65536) / 1024 - 55296) * 1024 +
        (56320 + (c.toNat - 65536) % 1024 - 56320) = c.toNat := by omega
    rw [parseString_pair (by omega) (by omega), hval, Char.ofNat_toNat]

/-- A way to write characters that reading undoes. -/
def Escapes (esc : Char → List Char) : Prop :=
  ∀ c rest, parseString (esc c ++ rest) = consChar c (parseString rest)

theorem parseString_escape {esc : Char → List Char} (hesc : Escapes esc) (cs rest : List Char) :
    parseString (cs.flatMap esc ++ '"' :: rest) = some (cs, rest) := by
  induction cs with
  | nil => rfl
  | cons c cs ih =>
    rw [flatMap_cons, append_assoc, hesc, ih]
    rfl

theorem strText_append (esc : Char → List Char) (s : String) (rest : List Char) :
    strTextWith esc s ++ rest = '"' :: (s.toList.flatMap esc ++ '"' :: rest) := by
  simp [strTextWith]

/-! ## Numbers -/

/-- The text after a number must not continue it. -/
def NumEnd (rest : List Char) : Prop := ∀ c t, rest = c :: t → isNumChar c = false

theorem numEnd_nil : NumEnd [] := by
  intro c t h
  exact absurd h (by simp)

variable {c : Char}

theorem numEnd_cons {t : List Char} (h : isNumChar c = false) : NumEnd (c :: t) := by
  intro c' t' heq
  injection heq with hc _
  rw [← hc, h]

theorem takeWhile_num {tok rest : List Char} (htok : ∀ c ∈ tok, isNumChar c = true)
    (hrest : NumEnd rest) :
    (tok ++ rest).takeWhile isNumChar = tok ∧ (tok ++ rest).dropWhile isNumChar = rest := by
  rw [takeWhile_append_of_pos htok, dropWhile_append_of_pos htok]
  cases rest with
  | nil => simp
  | cons c t =>
    have hc := hrest c t rfl
    simp [hc]

theorem isNumChar_of_isDigit (h : c.isDigit = true) : isNumChar c = true := by
  simp [isNumChar, h]

theorem head_toDigits_ne_zero (n : ℕ) (hn : 0 < n) :
    ∃ c t, Nat.toDigits 10 n = c :: t ∧ c ≠ '0' := by
  induction n using Nat.strong_induction_on with
  | _ n ih =>
    by_cases h : n < 10
    · rw [Nat.toDigits_of_lt_base h]
      refine ⟨_, _, rfl, ?_⟩
      interval_cases n <;> decide
    · rw [Nat.toDigits_of_base_le (by decide) (by omega)]
      obtain ⟨c, t, heq, hc⟩ := ih (n / 10) (by omega) (by omega)
      exact ⟨c, t ++ [Nat.digitChar (n % 10)], by rw [heq, cons_append], hc⟩

theorem isNatText_repr (n : ℕ) : isNatText n.repr.toList = true := by
  rw [Nat.toList_repr]
  by_cases hn : n = 0
  · subst hn; decide
  · obtain ⟨c, t, heq, hc⟩ := head_toDigits_ne_zero n (by omega)
    have hdig : ∀ x ∈ c :: t, x.isDigit = true := by
      rw [← heq]
      exact fun x hx => Nat.isDigit_of_mem_toDigits (by decide) (by decide) hx
    rw [heq, isNatText]
    · simp only [Bool.and_eq_true, bne_iff_ne, ne_eq, all_eq_true]
      exact ⟨⟨hdig c mem_cons_self, hc⟩, fun x hx => hdig x (mem_cons_of_mem _ hx)⟩
    · rintro rfl _; exact hc rfl

theorem isDigit_of_mem_repr {n : ℕ} (h : c ∈ n.repr.toList) : c.isDigit = true := by
  rw [Nat.toList_repr] at h
  exact Nat.isDigit_of_mem_toDigits (by decide) (by decide) h

theorem repr_eq_cons (n : ℕ) : ∃ c t, n.repr.toList = c :: t ∧ c.isDigit = true := by
  cases h : n.repr.toList with
  | nil =>
    rw [Nat.toList_repr] at h
    exact absurd h Nat.toDigits_ne_nil
  | cons c t => exact ⟨c, t, rfl, isDigit_of_mem_repr (n := n) (by rw [h]; exact mem_cons_self)⟩

theorem isNumChar_of_mem_intText {n : ℤ} (h : c ∈ intText n) : isNumChar c = true := by
  cases n with
  | ofNat n => exact isNumChar_of_isDigit (isDigit_of_mem_repr h)
  | negSucc n =>
    rcases mem_cons.mp h with rfl | h
    · decide
    · exact isNumChar_of_isDigit (isDigit_of_mem_repr h)

theorem isIntText_intText (n : ℤ) : isIntText (intText n) = true := by
  cases n with
  | ofNat n =>
    obtain ⟨c, t, heq, hc⟩ := repr_eq_cons n
    rw [intText, isIntText]
    · exact isNatText_repr n
    · intro rest h
      rw [heq] at h
      injection h with h _
      exact PyText.ne_of_isDigit hc (by decide) h
  | negSucc n => exact isNatText_repr (n + 1)

theorem ofDigitChars_repr (n : ℕ) : Nat.ofDigitChars 10 n.repr.toList 0 = n := by
  rw [Nat.toList_repr, Nat.ofDigitChars_ten_toDigits]

theorem intValue_intText (n : ℤ) : intValue (intText n) = n := by
  cases n with
  | ofNat n =>
    obtain ⟨c, t, heq, hc⟩ := repr_eq_cons n
    rw [intText, intValue]
    · rw [ofDigitChars_repr]; rfl
    · intro rest h
      rw [heq] at h
      injection h with h _
      exact PyText.ne_of_isDigit hc (by decide) h
  | negSucc n =>
    rw [intText, intValue, ofDigitChars_repr]
    omega

theorem pyInt_intText (u : UnicodeDb) (n : ℤ) : PyText.pyInt u (intText n) = some n := by
  cases n with
  | ofNat n => exact PyText.pyInt_repr n
  | negSucc n =>
    have hdig : ∀ c ∈ (n + 1).repr.toList, c.isDigit = true := fun c hc => isDigit_of_mem_repr hc
    have hspace : ∀ c ∈ '-' :: (n + 1).repr.toList, u.isspace c = false := by
      intro c hc
      rcases mem_cons.mp hc with rfl | hc
      · rw [u.isspace_ascii '-' (by decide)]
        decide
      · exact PyText.isspace_of_isDigit (hdig c hc)
    have hne : (n + 1).repr.toList ≠ [] := by
      obtain ⟨c, t, h, -⟩ := repr_eq_cons (n + 1)
      rw [h]
      simp
    rw [intText, PyText.pyInt, PyText.strip_eq_self hspace]
    have hval : PyText.intDigits u (n + 1).repr.toList = some (n + 1) := by
      rw [PyText.intDigits_digits _ hne hdig, ofDigitChars_repr]
    change (PyText.intDigits u (n + 1).repr.toList).map (fun m => -(m : ℤ)) = _
    rw [hval]
    rfl

theorem parseNumber_intText (n : ℤ) {rest : List Char} (h : NumEnd rest) :
    parseNumber (intText n ++ rest) = some (.int n, rest) := by
  obtain ⟨htake, hdrop⟩ := takeWhile_num (fun c hc => isNumChar_of_mem_intText hc) h
  rw [parseNumber, htake, hdrop, numberOf, if_pos (isIntText_intText n), intValue_intText]

theorem parseAtom_digit (h : c.isDigit = true) (t : List Char) :
    parseAtom (c :: t) = parseNumber (c :: t) := by
  have hne : ∀ d : Char, d.isDigit = false → c ≠ d := fun d hd => PyText.ne_of_isDigit h hd
  rw [parseAtom]
  all_goals
    rintro _ heq
    injection heq with heq _
    exact hne _ (by decide) heq

theorem parseAtom_minus {d : Char} (h : d ≠ 'I') (t : List Char) :
    parseAtom ('-' :: d :: t) = parseNumber ('-' :: d :: t) := by
  rw [parseAtom]
  iterate 5
    · rintro _ heq
      injection heq with heq _
      exact absurd heq (by decide)
  · rintro _ heq
    injection heq with _ heq
    injection heq with heq _
    exact h heq

theorem parseAtom_intText (n : ℤ) {rest : List Char} (h : NumEnd rest) :
    parseAtom (intText n ++ rest) = some (.int n, rest) := by
  rw [← parseNumber_intText n h]
  cases n with
  | ofNat n =>
    obtain ⟨c, t, heq, hc⟩ := repr_eq_cons n
    rw [intText, heq, cons_append, parseAtom_digit hc]
  | negSucc n =>
    obtain ⟨c, t, heq, hc⟩ := repr_eq_cons (n + 1)
    rw [intText, heq, cons_append, cons_append,
      parseAtom_minus (PyText.ne_of_isDigit hc (by decide))]

theorem parseAtom_float (f : FloatLit) {rest : List Char} (h : NumEnd rest) :
    parseAtom (f.text ++ rest) = some (.float f, rest) := by
  obtain ⟨text, wf⟩ := f
  rcases Bool.or_eq_true_iff.mp wf with hs | hf
  · -- the special values are spelt out in the grammar
    simp only [isSpecialText, Bool.or_eq_true, beq_iff_eq] at hs
    rcases hs with (rfl | rfl) | rfl <;> rfl
  · have hparts := hf
    simp only [isFloatText, Bool.and_eq_true, all_eq_true, Bool.not_eq_eq_eq_not,
      Bool.not_true] at hparts
    obtain ⟨⟨⟨hall, hint⟩, hnat⟩, -⟩ := hparts
    obtain ⟨htake, hdrop⟩ := takeWhile_num hall h
    have hnum : parseNumber (text ++ rest) = some (.float ⟨text, wf⟩, rest) := by
      rw [parseNumber, htake, hdrop, numberOf, if_neg (by rw [hint]; decide), dif_pos hf]
    rw [← hnum]
    -- the first character is a digit, or a minus sign before a digit
    have hdigit : ∀ r : List Char, isNatText (r.takeWhile Char.isDigit) = true →
        ∃ c t, r = c :: t ∧ c.isDigit = true := by
      intro r hr
      cases r with
      | nil => simp [isNatText] at hr
      | cons c t =>
        refine ⟨c, t, rfl, ?_⟩
        by_contra hc
        rw [takeWhile_cons_of_neg hc] at hr
        simp [isNatText] at hr
    split at hnat
    · next r =>
      obtain ⟨c, t, rfl, hc⟩ := hdigit r hnat
      rw [cons_append, cons_append, parseAtom_minus (PyText.ne_of_isDigit hc (by decide))]
    · obtain ⟨c, t, rfl, hc⟩ := hdigit text hnat
      rw [cons_append, parseAtom_digit hc]

/-! ## Whitespace -/

/-- The characters `skipWs` drops. -/
def isWs (c : Char) : Bool := c == ' ' || c == '\t' || c == '\n' || c == '\r'

theorem skipWs_cons (h : isWs c = false) (t : List Char) :
    skipWs (c :: t) = c :: t := by
  rw [skipWs, dropWhile_cons, show (c == ' ' || c == '\t' || c == '\n' || c == '\r') = false
    from h]
  rfl

theorem skipWs_blanks (n : ℕ) (t : List Char) : skipWs (replicate n ' ' ++ t) = skipWs t := by
  induction n with
  | zero => rfl
  | succ n ih => rw [replicate_succ, cons_append, skipWs, dropWhile_cons]; exact ih

/-! ## Values -/

mutual

/-- Every object in the value has distinct keys. -/
def Distinct : Json → Prop
  | .arr items => DistinctItems items
  | .obj fields => (fields.map Prod.fst).Nodup ∧ DistinctFields fields
  | _ => True

/-- `Distinct` for every item. -/
def DistinctItems : List Json → Prop
  | [] => True
  | v :: vs => Distinct v ∧ DistinctItems vs

/-- `Distinct` for every field value. -/
def DistinctFields : List (String × Json) → Prop
  | [] => True
  | (_, v) :: fs => Distinct v ∧ DistinctFields fs

end

theorem dictOf_eq_self (fields : List (String × Json)) (h : (fields.map Prod.fst).Nodup) :
    dictOf fields = fields := by
  have key : ∀ (l d : List (String × Json)), ((d ++ l).map Prod.fst).Nodup →
      l.foldl (fun d kv => PyDict.put d kv.1 kv.2) d = d ++ l := by
    intro l
    induction l with
    | nil => intro d _; simp
    | cons e rest ih =>
      intro d hnd
      obtain ⟨k, v⟩ := e
      have hk : k ∉ d.map Prod.fst := by
        rw [map_append, nodup_append] at hnd
        intro hmem
        exact hnd.2.2 k hmem k (by simp) rfl
      rw [foldl_cons, PyDict.put_of_not_mem hk v, ih _ (by simpa using hnd)]
      simp
  simpa [dictOf] using key fields [] (by simpa using h)

theorem numEnd_dumpsItems (esc : Char → List Char) (seps : Seps) (vs : List Json) (rest : List Char) :
    NumEnd (dumpsItemsWith esc seps vs ++ rest) := by
  cases vs with
  | nil => exact numEnd_cons (by decide)
  | cons v vs => rw [dumpsItemsWith, Seps.item]; exact numEnd_cons (by decide)

theorem numEnd_dumpsFields (esc : Char → List Char) (seps : Seps) (fs : List (String × Json)) (rest : List Char) :
    NumEnd (dumpsFieldsWith esc seps fs ++ rest) := by
  cases fs with
  | nil => exact numEnd_cons (by decide)
  | cons e fs => rw [dumpsFieldsWith, Seps.item]; exact numEnd_cons (by decide)

variable {hook : PairsHook}

theorem parseValue_atom (n : ℕ) {c : Char} (t : List Char) (hq : c ≠ '"') (hb : c ≠ '[')
    (hc : c ≠ '\x7b') : parseValueWith hook (n + 1) (c :: t) = parseAtom (c :: t) := by
  rw [parseValueWith]
  · rintro _ heq; injection heq with heq _; exact hq heq
  · rintro _ heq; injection heq with heq _; exact hb heq
  · rintro _ heq; injection heq with heq _; exact hc heq

theorem numChar_ne {c : Char} (h : isNumChar c = true) :
    isWs c = false ∧ c ≠ ']' ∧ c ≠ '\x7d' ∧ c ≠ '"' ∧ c ≠ '[' ∧ c ≠ '\x7b' := by
  have hne : ∀ d : Char, isNumChar d = false → c ≠ d := by
    rintro d hd rfl
    rw [h] at hd
    exact absurd hd (by decide)
  refine ⟨?_, hne _ (by decide), hne _ (by decide), hne _ (by decide), hne _ (by decide),
    hne _ (by decide)⟩
  simp only [isWs, Bool.or_eq_false_iff, beq_eq_false_iff_ne]
  exact ⟨⟨⟨hne _ (by decide), hne _ (by decide)⟩, hne _ (by decide)⟩, hne _ (by decide)⟩

theorem intText_eq_cons (n : ℤ) : ∃ c t, intText n = c :: t ∧ isNumChar c = true := by
  cases n with
  | ofNat n =>
    obtain ⟨c, t, heq, hc⟩ := repr_eq_cons n
    exact ⟨c, t, heq, isNumChar_of_isDigit hc⟩
  | negSucc n => exact ⟨'-', _, rfl, by decide⟩

theorem FloatLit.eq_cons (f : FloatLit) :
    ∃ c t, f.text = c :: t ∧ (isNumChar c = true ∨ c = 'N' ∨ c = 'I') := by
  obtain ⟨text, wf⟩ := f
  rcases Bool.or_eq_true_iff.mp wf with hs | hf
  · simp only [isSpecialText, Bool.or_eq_true, beq_iff_eq] at hs
    rcases hs with (rfl | rfl) | rfl
    · exact ⟨'N', _, rfl, Or.inr (Or.inl rfl)⟩
    · exact ⟨'I', _, rfl, Or.inr (Or.inr rfl)⟩
    · exact ⟨'-', _, rfl, Or.inl (by decide)⟩
  · cases text with
    | nil => exact absurd hf (by decide)
    | cons c t =>
      simp only [isFloatText, Bool.and_eq_true, all_eq_true] at hf
      exact ⟨c, t, rfl, Or.inl (hf.1.1.1 c mem_cons_self)⟩

theorem parseValue_int (m : ℕ) (n : ℤ) {rest : List Char} (h : NumEnd rest) :
    parseValueWith hook (m + 1) (intText n ++ rest) = some (.int n, rest) := by
  rw [← parseAtom_intText n h]
  obtain ⟨c, t, heq, hc⟩ := intText_eq_cons n
  obtain ⟨-, -, -, hq, hb, hbr⟩ := numChar_ne hc
  rw [heq, cons_append, parseValue_atom m _ hq hb hbr]

theorem parseValue_float (m : ℕ) (f : FloatLit) {rest : List Char} (h : NumEnd rest) :
    parseValueWith hook (m + 1) (f.text ++ rest) = some (.float f, rest) := by
  rw [← parseAtom_float f h]
  obtain ⟨c, t, heq, hc⟩ := f.eq_cons
  rw [heq, cons_append]
  rcases hc with hc | rfl | rfl
  · obtain ⟨-, -, -, hq, hb, hbr⟩ := numChar_ne hc
    rw [parseValue_atom m _ hq hb hbr]
  · exact parseValue_atom m _ (by decide) (by decide) (by decide)
  · exact parseValue_atom m _ (by decide) (by decide) (by decide)

section

variable (esc : Char → List Char)

section

variable (seps : Seps)

/-- A value's text starts with a character that no reader skips or takes for a
closing bracket. -/
theorem dumps_eq_cons (v : Json) :
    ∃ c t, dumpsWith esc seps v = c :: t ∧ isWs c = false ∧ c ≠ ']' := by
  cases v with
  | null => exact ⟨_, _, by rw [dumpsWith], by decide, by decide⟩
  | bool b => cases b <;> exact ⟨_, _, by rw [dumpsWith], by decide, by decide⟩
  | int n =>
    obtain ⟨c, t, heq, hc⟩ := intText_eq_cons n
    obtain ⟨hws, hbr, -⟩ := numChar_ne hc
    exact ⟨c, t, by rw [dumpsWith, heq], hws, hbr⟩
  | float f =>
    obtain ⟨c, t, heq, hc⟩ := f.eq_cons
    refine ⟨c, t, by rw [dumpsWith, heq], ?_⟩
    rcases hc with hc | rfl | rfl
    · exact ⟨(numChar_ne hc).1, (numChar_ne hc).2.1⟩
    · exact ⟨by decide, by decide⟩
    · exact ⟨by decide, by decide⟩
  | str s => exact ⟨_, _, by rw [dumpsWith, strTextWith]; rfl, by decide, by decide⟩
  | arr items => cases items <;> exact ⟨_, _, by rw [dumpsWith], by decide, by decide⟩
  | obj fields => cases fields <;> exact ⟨_, _, by rw [dumpsWith], by decide, by decide⟩

theorem skipWs_dumps (v : Json) (rest : List Char) :
    skipWs (dumpsWith esc seps v ++ rest) = dumpsWith esc seps v ++ rest := by
  obtain ⟨c, t, heq, hc, -⟩ := dumps_eq_cons esc seps v
  rw [heq, cons_append, skipWs_cons hc]

theorem dumpsWith_length_pos (v : Json) : 0 < (dumpsWith esc seps v).length := by
  obtain ⟨c, t, heq, -⟩ := dumps_eq_cons esc seps v
  rw [heq]
  exact Nat.succ_pos _

theorem dumpsItems_length_pos (vs : List Json) :
    0 < (dumpsItemsWith esc seps vs).length := by
  cases vs with
  | nil => rw [dumpsItemsWith]; exact Nat.succ_pos _
  | cons v vs => rw [dumpsItemsWith, Seps.item]; simp

theorem dumpsFields_length_pos (fs : List (String × Json)) :
    0 < (dumpsFieldsWith esc seps fs).length := by
  cases fs with
  | nil => rw [dumpsFieldsWith]; exact Nat.succ_pos _
  | cons e fs => rw [dumpsFieldsWith, Seps.item]; simp

theorem skipWs_dumpsItems (vs : List Json) (rest : List Char) :
    skipWs (dumpsItemsWith esc seps vs ++ rest) = dumpsItemsWith esc seps vs ++ rest := by
  cases vs with
  | nil => exact skipWs_cons (by decide) _
  | cons v vs => rw [dumpsItemsWith, Seps.item]; exact skipWs_cons (by decide) _

theorem skipWs_dumpsFields (fs : List (String × Json)) (rest : List Char) :
    skipWs (dumpsFieldsWith esc seps fs ++ rest) = dumpsFieldsWith esc seps fs ++ rest := by
  cases fs with
  | nil => exact skipWs_cons (by decide) _
  | cons e fs => rw [dumpsFieldsWith, Seps.item]; exact skipWs_cons (by decide) _

end

end

theorem parseField_eq {esc : Char → List Char} (hesc : Escapes esc) (seps : Seps) (k : String) (v : Json) {n : ℕ} {rest : List Char}
    (hv : parseValueWith hook n (dumpsWith esc seps v ++ rest) = some (v, rest)) :
    parseFieldWith hook (n + 1) (strTextWith esc k ++ (seps.key ++ (dumpsWith esc seps v ++ rest))) =
      some ((k, v), rest) := by
  rw [strText_append, parseFieldWith, parseString_escape hesc, Option.bind_some]
  simp only [Seps.key, cons_append, String.ofList_toList]
  rw [skipWs_cons (by decide)]
  simp only [skipWs_blanks, skipWs_dumps, hv, Option.map_some]

/-- The hook leaves pairs with distinct keys alone. -/
def KeepsDistinct (hook : PairsHook) : Prop :=
  ∀ fields : List (String × Json), (fields.map Prod.fst).Nodup → hook fields = some fields

-- The fuel is bounded by the length of the text, which drops by at least one
-- character at every recursive call.
mutual

theorem parseValue_dumps {esc : Char → List Char} (hesc : Escapes esc) (hhook : KeepsDistinct hook)
    (seps : Seps) : ∀ (v : Json) (n : ℕ) (rest : List Char), Distinct v →
    (dumpsWith esc seps v).length ≤ n → NumEnd rest →
    parseValueWith hook n (dumpsWith esc seps v ++ rest) = some (v, rest)
  | v, 0, rest, _, hn, _ => by
    have := dumpsWith_length_pos esc seps v
    omega
  | .null, n + 1, rest, _, _, _ => by rw [dumpsWith]; rfl
  | .bool true, n + 1, rest, _, _, _ => by rw [dumpsWith]; rfl
  | .bool false, n + 1, rest, _, _, _ => by rw [dumpsWith]; rfl
  | .int i, n + 1, rest, _, _, h => by rw [dumpsWith]; exact parseValue_int n i h
  | .float f, n + 1, rest, _, _, h => by rw [dumpsWith]; exact parseValue_float n f h
  | .str s, n + 1, rest, _, _, _ => by
    rw [dumpsWith, strText_append, parseValueWith, parseString_escape hesc, Option.map_some,
      String.ofList_toList]
  | .arr [], n + 1, rest, _, _, _ => by rw [dumpsWith]; rfl
  | .arr (v :: vs), n + 1, rest, hd, hn, _ => by
    rw [Distinct, DistinctItems] at hd
    rw [dumpsWith, length_cons, length_append] at hn
    have hpos := dumpsItems_length_pos esc seps vs
    have hv := parseValue_dumps hesc hhook seps v n (dumpsItemsWith esc seps vs ++ rest) hd.1 (by omega)
      (numEnd_dumpsItems esc seps vs rest)
    have hvs := parseItems_dumps hesc hhook seps vs n rest hd.2 (by omega)
    obtain ⟨c, t, heq, -, hc⟩ := dumps_eq_cons esc seps v
    rw [dumpsWith, cons_append, append_assoc, parseValueWith, skipWs_dumps, heq,
      cons_append]
    split
    · next h => injection h with h _; exact absurd h hc
    · rw [← cons_append, ← heq, hv, Option.bind_some, skipWs_dumpsItems, hvs, Option.map_some]
  | .obj [], n + 1, rest, _, _, _ => by
    have hempty : hook [] = some [] := hhook [] nodup_nil
    rw [dumpsWith]
    show (hook []).map (fun d => (Json.obj d, rest)) = some (.obj [], rest)
    rw [hempty, Option.map_some]
  | .obj ((k, v) :: fs), n + 1, rest, hd, hn, _ => by
    rw [Distinct, DistinctFields] at hd
    simp only [dumpsWith, length_cons, length_append, strTextWith, length_nil] at hn
    have hpos := dumpsFields_length_pos esc seps fs
    have hv := parseValue_dumps hesc hhook seps v (n - 1) (dumpsFieldsWith esc seps fs ++ rest) hd.2.1 (by omega)
      (numEnd_dumpsFields esc seps fs rest)
    have hfs := parseFields_dumps hesc hhook seps fs n rest hd.2.2 (by omega)
    have hfield := parseField_eq hesc seps k v hv
    rw [show n - 1 + 1 = n from by omega, strText_append] at hfield
    rw [dumpsWith, cons_append, append_assoc, append_assoc, append_assoc,
      strText_append, parseValueWith, skipWs_cons (by decide)]
    split
    · next h => injection h with h _; exact absurd h (by decide)
    · rw [hfield, Option.bind_some, skipWs_dumpsFields, hfs, Option.bind_some,
        hhook _ hd.1, Option.map_some]

theorem parseItems_dumps {esc : Char → List Char} (hesc : Escapes esc) (hhook : KeepsDistinct hook)
    (seps : Seps) : ∀ (vs : List Json) (n : ℕ) (rest : List Char),
    DistinctItems vs → (dumpsItemsWith esc seps vs).length ≤ n →
    parseItemsWith hook n (dumpsItemsWith esc seps vs ++ rest) = some (vs, rest)
  | vs, 0, rest, _, hn => by
    have := dumpsItems_length_pos esc seps vs
    omega
  | [], n + 1, rest, _, _ => by rw [dumpsItemsWith]; rfl
  | v :: vs, n + 1, rest, hd, hn => by
    rw [DistinctItems] at hd
    simp only [dumpsItemsWith, Seps.item, length_cons, length_append,
      length_replicate] at hn
    have hv := parseValue_dumps hesc hhook seps v n (dumpsItemsWith esc seps vs ++ rest) hd.1 (by omega)
      (numEnd_dumpsItems esc seps vs rest)
    have hvs := parseItems_dumps hesc hhook seps vs n rest hd.2 (by omega)
    rw [dumpsItemsWith, Seps.item, append_assoc, append_assoc, cons_append,
      parseItemsWith, skipWs_blanks, skipWs_dumps, hv, Option.bind_some, skipWs_dumpsItems, hvs,
      Option.map_some]

theorem parseFields_dumps {esc : Char → List Char} (hesc : Escapes esc) (hhook : KeepsDistinct hook)
    (seps : Seps) : ∀ (fs : List (String × Json)) (n : ℕ)
    (rest : List Char), DistinctFields fs → (dumpsFieldsWith esc seps fs).length ≤ n →
    parseFieldsWith hook n (dumpsFieldsWith esc seps fs ++ rest) = some (fs, rest)
  | fs, 0, rest, _, hn => by
    have := dumpsFields_length_pos esc seps fs
    omega
  | [], n + 1, rest, _, _ => by rw [dumpsFieldsWith]; rfl
  | (k, v) :: fs, n + 1, rest, hd, hn => by
    rw [DistinctFields] at hd
    simp only [dumpsFieldsWith, Seps.item, strTextWith, length_cons, length_append,
      length_replicate, length_nil] at hn
    have hv := parseValue_dumps hesc hhook seps v (n - 1) (dumpsFieldsWith esc seps fs ++ rest) hd.1 (by omega)
      (numEnd_dumpsFields esc seps fs rest)
    have hfs := parseFields_dumps hesc hhook seps fs n rest hd.2 (by omega)
    have hfield := parseField_eq hesc seps k v hv
    rw [show n - 1 + 1 = n from by omega, strText_append] at hfield
    rw [dumpsFieldsWith, Seps.item, append_assoc, append_assoc, append_assoc,
      append_assoc, cons_append, parseFieldsWith, skipWs_blanks, strText_append,
      skipWs_cons (by decide), hfield, Option.bind_some, skipWs_dumpsFields, hfs,
      Option.map_some]

end

/-- **Round trip.**  `json.loads` reads back what `json.dumps` wrote, for every way to write
characters that reading undoes and every hook that leaves distinct keys alone. -/
theorem loadsWith_dumpsWith {esc : Char → List Char} (hesc : Escapes esc) (hhook : KeepsDistinct hook)
    (seps : Seps) {v : Json} (h : Distinct v) : loadsWith hook (dumpsWith esc seps v) = some v := by
  have hskip := skipWs_dumps esc seps v []
  have hv := parseValue_dumps hesc hhook seps v ((dumpsWith esc seps v).length + 1) [] h (by omega)
    numEnd_nil
  rw [append_nil] at hskip hv
  rw [loadsWith, hskip, hv, Option.bind_some]
  rfl

theorem keepsDistinct_dictHook : KeepsDistinct dictHook := by
  intro fields h
  rw [dictHook, dictOf_eq_self fields h]

theorem keepsDistinct_uniqueHook : KeepsDistinct uniqueHook := by
  intro fields h
  rw [uniqueHook, if_pos h]

theorem loads_dumps (seps : Seps) (v : Json) (h : Distinct v) :
    loads (dumps seps v) = some v := by
  rw [loads_eq_loadsWith, dumps_eq_dumpsWith]
  exact loadsWith_dumpsWith parseString_escapeChar keepsDistinct_dictHook seps h

theorem dumps_length_pos (seps : Seps) (v : Json) : 0 < (dumps seps v).length := by
  rw [dumps_eq_dumpsWith]
  exact dumpsWith_length_pos escapeChar seps v

theorem dumps_injective (seps : Seps) {v w : Json} (hv : Distinct v) (hw : Distinct w)
    (h : dumps seps v = dumps seps w) : v = w := by
  have := loads_dumps seps v hv
  rw [h, loads_dumps seps w hw] at this
  exact (Option.some.inj this).symm

end JsonText
