/-
# Python text

The string operations of the Python standard library that the modelled code uses:
slices, `os.path.basename`, `str.split` with a bound, `int(text)` and the
character classes.

The character classes are Unicode tables that change with the interpreter's
release, so a development is stated for an arbitrary `UnicodeDb`; what is fixed is
the ASCII part, which every release shares.
-/
import Mathlib.Data.String.Basic

/-- The character tables behind `str.isprintable`, `str.isspace` and `\d`. -/
structure UnicodeDb where
  isprintable : Char → Bool
  isspace : Char → Bool
  /-- The value of a decimal digit, as `int` reads it. -/
  decimal : Char → Option ℕ
  isprintable_ascii : ∀ c : Char, c.toNat < 128 →
    isprintable c = decide (32 ≤ c.toNat ∧ c.toNat < 127)
  isspace_ascii : ∀ c : Char, c.toNat < 128 →
    isspace c = decide (c.toNat = 32 ∨ (9 ≤ c.toNat ∧ c.toNat ≤ 13) ∨
      (28 ≤ c.toNat ∧ c.toNat ≤ 31))
  decimal_ascii : ∀ c : Char, c.toNat < 128 →
    decimal c = if c.isDigit then some (c.toNat - 48) else none

/-- The tables of an interpreter that knows ASCII only. -/
def UnicodeDb.ascii : UnicodeDb where
  isprintable c := decide (32 ≤ c.toNat ∧ c.toNat < 127)
  isspace c := decide (c.toNat = 32 ∨ (9 ≤ c.toNat ∧ c.toNat ≤ 13) ∨
    (28 ≤ c.toNat ∧ c.toNat ≤ 31))
  decimal c := if c.isDigit then some (c.toNat - 48) else none
  isprintable_ascii _ _ := rfl
  isspace_ascii _ _ := rfl
  decimal_ascii _ _ := rfl

namespace PyText

/-- `s[:n]` -/
def slice (s : String) (n : ℕ) : String := String.ofList (s.toList.take n)

/-- `s.startswith(p)` -/
def startswith (s p : String) : Bool := p.toList.isPrefixOf s.toList

/-- `os.path.basename(s)`: what follows the last slash. -/
def basename (s : String) : String :=
  String.ofList (s.toList.reverse.takeWhile (· ≠ '/')).reverse

/-- `s.split(sep, n)` for a one-character separator. -/
def split (sep : Char) : ℕ → List Char → List (List Char)
  | 0, s => [s]
  | n + 1, s =>
    match s.dropWhile (· ≠ sep) with
    | [] => [s]
    | _ :: rest => s.takeWhile (· ≠ sep) :: split sep n rest

theorem split_append (sep : Char) (n : ℕ) (field rest : List Char) (h : sep ∉ field) :
    split sep (n + 1) (field ++ sep :: rest) = field :: split sep n rest := by
  have hall : ∀ c ∈ field, (c ≠ sep : Bool) = true := by
    intro c hc
    simp only [ne_eq, decide_not, Bool.not_eq_eq_eq_not, Bool.not_true, decide_eq_false_iff_not]
    rintro rfl
    exact h hc
  rw [split, List.dropWhile_append_of_pos hall, List.takeWhile_append_of_pos hall]
  simp

/-! ## `repr(text)` -/

variable (u : UnicodeDb)

/-- The last `width` hexadecimal digits of a number. -/
def hexPad : ℕ → ℕ → List Char
  | 0, _ => []
  | width + 1, n => hexPad width (n / 16) ++ [Nat.digitChar (n % 16)]

/-- One character of a `repr` that is quoted with `quote`. -/
def reprChar (quote c : Char) : List Char :=
  if c = quote ∨ c = '\\' then ['\\', c]
  else if c = '\t' then ['\\', 't']
  else if c = '\n' then ['\\', 'n']
  else if c = '\r' then ['\\', 'r']
  else if u.isprintable c then [c]
  else if c.toNat < 256 then ['\\', 'x'] ++ hexPad 2 c.toNat
  else if c.toNat < 65536 then ['\\', 'u'] ++ hexPad 4 c.toNat
  else ['\\', 'U'] ++ hexPad 8 c.toNat

/-- The single quote. -/
def apostrophe : Char := Char.ofNat 39

/-- `repr(s)`: single quotes, unless the text has a single quote and no double one. -/
def pyRepr (s : String) : String :=
  let quote := if apostrophe ∈ s.toList ∧ '"' ∉ s.toList then '"' else apostrophe
  String.ofList (quote :: s.toList.flatMap (reprChar u quote) ++ [quote])

/-- `str(b)` -/
def pyBool (b : Bool) : String := if b then "True" else "False"

/-! ## `int(text)` -/

/-- The digits that follow a first one, single underscores allowed between them. -/
def intTail (acc : ℕ) : List Char → Option ℕ
  | [] => some acc
  | '_' :: c :: rest => (u.decimal c).bind fun d => intTail (10 * acc + d) rest
  | c :: rest => (u.decimal c).bind fun d => intTail (10 * acc + d) rest

/-- An unsigned decimal numeral. -/
def intDigits : List Char → Option ℕ
  | [] => none
  | c :: rest => (u.decimal c).bind fun d => intTail u d rest

/-- `str.strip()` -/
def strip (s : List Char) : List Char :=
  ((s.dropWhile u.isspace).reverse.dropWhile u.isspace).reverse

/-- `int(text)`, or `none` where it raises `ValueError`. -/
def pyInt (s : List Char) : Option ℤ :=
  match strip u s with
  | '-' :: rest => (intDigits u rest).map fun n => -(n : ℤ)
  | '+' :: rest => (intDigits u rest).map fun n => (n : ℤ)
  | rest => (intDigits u rest).map fun n => (n : ℤ)

variable {u}

theorem toNat_lt_of_isDigit {c : Char} (h : c.isDigit = true) : c.toNat < 128 := by
  have h57 := (Char.isDigit_iff_toNat.mp h).2
  simp only [Char.reduceToNat] at h57
  omega

theorem decimal_of_isDigit {c : Char} (h : c.isDigit = true) :
    u.decimal c = some (c.toNat - 48) := by
  rw [u.decimal_ascii c (toNat_lt_of_isDigit h), if_pos h]

theorem isspace_of_isDigit {c : Char} (h : c.isDigit = true) : u.isspace c = false := by
  obtain ⟨h48, h57⟩ := Char.isDigit_iff_toNat.mp h
  simp only [Char.reduceToNat] at h48 h57
  rw [u.isspace_ascii c (by omega)]
  simp only [decide_eq_false_iff_not]
  omega

theorem ne_of_isDigit {c d : Char} (h : c.isDigit = true) (hd : d.isDigit = false) : c ≠ d := by
  rintro rfl
  rw [h] at hd
  exact absurd hd (by decide)

theorem intTail_digits (acc : ℕ) (l : List Char) (h : ∀ c ∈ l, c.isDigit = true) :
    intTail u acc l = some (Nat.ofDigitChars 10 l acc) := by
  induction l generalizing acc with
  | nil => rw [intTail, Nat.ofDigitChars_nil]
  | cons c rest ih =>
    have hc := h c List.mem_cons_self
    have hrest : ∀ d ∈ rest, d.isDigit = true := fun d hd => h d (List.mem_cons_of_mem _ hd)
    rw [intTail, decimal_of_isDigit hc, Option.bind_some, ih _ hrest, Nat.ofDigitChars_cons]
    · rfl
    · intro c' rest' hc' _
      exact absurd hc' (ne_of_isDigit hc (by decide))

theorem intDigits_digits (l : List Char) (hne : l ≠ []) (h : ∀ c ∈ l, c.isDigit = true) :
    intDigits u l = some (Nat.ofDigitChars 10 l 0) := by
  cases l with
  | nil => exact absurd rfl hne
  | cons c rest =>
    have hc := h c List.mem_cons_self
    have hrest : ∀ d ∈ rest, d.isDigit = true := fun d hd => h d (List.mem_cons_of_mem _ hd)
    rw [intDigits, decimal_of_isDigit hc, Option.bind_some, intTail_digits _ _ hrest,
      Nat.ofDigitChars_cons]
    simp

theorem strip_eq_self {l : List Char} (h : ∀ c ∈ l, u.isspace c = false) : strip u l = l := by
  have hdrop : ∀ m : List Char, (∀ c ∈ m, u.isspace c = false) → m.dropWhile u.isspace = m := by
    intro m hm
    cases m with
    | nil => rfl
    | cons c rest => rw [List.dropWhile_cons, hm c List.mem_cons_self]; rfl
  rw [strip, hdrop l h, hdrop l.reverse (fun c hc => h c (List.mem_reverse.mp hc)),
    List.reverse_reverse]

theorem pyInt_repr (n : ℕ) : pyInt u n.repr.toList = some (n : ℤ) := by
  have hdig : ∀ c ∈ Nat.toDigits 10 n, c.isDigit = true :=
    fun c hc => Nat.isDigit_of_mem_toDigits (by decide) (by decide) hc
  rw [Nat.toList_repr, pyInt, strip_eq_self (fun c hc => isspace_of_isDigit (hdig c hc))]
  split
  · next rest heq => exact absurd (hdig '-' (by rw [heq]; exact List.mem_cons_self)) (by decide)
  · next rest heq => exact absurd (hdig '+' (by rw [heq]; exact List.mem_cons_self)) (by decide)
  · rw [intDigits_digits _ Nat.toDigits_ne_nil hdig, Nat.ofDigitChars_ten_toDigits]
    rfl

theorem not_mem_repr {n : ℕ} {c : Char} (h : c.isDigit = false) : c ∉ n.repr.toList := by
  rw [Nat.toList_repr]
  intro hc
  have := Nat.isDigit_of_mem_toDigits (by decide) (by decide) hc
  rw [h] at this
  exact absurd this (by decide)

end PyText
