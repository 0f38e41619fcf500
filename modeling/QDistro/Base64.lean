/-
# Base64

Encoding in groups of three bytes and strict decoding: only digits of the alphabet, in groups
of four, with padding in the last group at most.  The unused bits of a padded group are ignored.

Decoding inverts encoding, and the length of an encoding depends on the number of bytes only.
-/
import Mathlib.Tactic.Common

namespace Base64

/-- The digit of a value below 64. -/
def digit (n : ℕ) : Char :=
  if n < 26 then Char.ofNat (65 + n)
  else if n < 52 then Char.ofNat (71 + n)
  else if n < 62 then Char.ofNat (n - 4)
  else if n = 62 then '+'
  else '/'

/-- The value of a digit. -/
def value (c : Char) : Option ℕ :=
  if 65 ≤ c.toNat ∧ c.toNat ≤ 90 then some (c.toNat - 65)
  else if 97 ≤ c.toNat ∧ c.toNat ≤ 122 then some (c.toNat - 71)
  else if 48 ≤ c.toNat ∧ c.toNat ≤ 57 then some (c.toNat + 4)
  else if c = '+' then some 62
  else if c = '/' then some 63
  else none

/-- `b64encode(data).decode("ascii")` -/
def encode : List UInt8 → List Char
  | [] => []
  | [a] => [digit (a.toNat / 4), digit (a.toNat % 4 * 16), '=', '=']
  | [a, b] =>
    [digit (a.toNat / 4), digit (a.toNat % 4 * 16 + b.toNat / 16), digit (b.toNat % 16 * 4), '=']
  | a :: b :: c :: rest =>
    digit (a.toNat / 4) :: digit (a.toNat % 4 * 16 + b.toNat / 16) ::
      digit (b.toNat % 16 * 4 + c.toNat / 64) :: digit (c.toNat % 64) :: encode rest

/-- The bytes of a group, from the values of its digits. -/
def firstByte (a b : ℕ) : UInt8 := UInt8.ofNat (a * 4 + b / 16)

def secondByte (b c : ℕ) : UInt8 := UInt8.ofNat (b % 16 * 16 + c / 4)

def thirdByte (c d : ℕ) : UInt8 := UInt8.ofNat (c % 4 * 64 + d)

/-- `b64decode(text, validate=True)`, or `none` where it raises `binascii.Error`. -/
def decode : List Char → Option (List UInt8)
  | [] => some []
  | [a, b, '=', '='] => do return [firstByte (← value a) (← value b)]
  | [a, b, c, '='] => do
    let y ← value b
    let z ← value c
    return [firstByte (← value a) y, secondByte y z]
  | a :: b :: c :: d :: rest => do
    let y ← value b
    let z ← value c
    return firstByte (← value a) y :: secondByte y z :: thirdByte z (← value d) ::
      (← decode rest)
  | _ => none

/-! ## Digits -/

@[simp] theorem value_digit {n : ℕ} (h : n < 64) : value (digit n) = some n := by
  have hall : ∀ k : Fin 64, value (digit k) = some k.1 := by decide
  exact hall ⟨n, h⟩

theorem digit_ne_pad (n : ℕ) (h : n < 64) : digit n ≠ '=' := by
  intro hpad
  have hvalue := value_digit h
  rw [hpad] at hvalue
  cases hvalue

/-- A digit is a letter, a figure, a plus sign or a slash. -/
theorem digit_ascii {n : ℕ} (h : n < 64) :
    33 ≤ (digit n).toNat ∧ (digit n).toNat < 127 ∧ digit n ≠ '"' ∧ digit n ≠ '\\' := by
  have hall : ∀ k : Fin 64, 33 ≤ (digit k).toNat ∧ (digit k).toNat < 127 ∧ digit k ≠ '"' ∧
      digit k ≠ '\\' := by decide
  exact hall ⟨n, h⟩

/-! ## The round trip -/

theorem firstByte_digits (a : UInt8) (b : ℕ) (hb : b < 16) :
    firstByte (a.toNat / 4) (a.toNat % 4 * 16 + b) = a := by
  have hsum : a.toNat / 4 * 4 + (a.toNat % 4 * 16 + b) / 16 = a.toNat := by omega
  rw [firstByte, hsum, UInt8.ofNat_toNat]

theorem secondByte_digits (x : ℕ) (b : UInt8) (c : ℕ) (hc : c < 4) :
    secondByte (x * 16 + b.toNat / 16) (b.toNat % 16 * 4 + c) = b := by
  have hlt := b.toNat_lt
  have hsum : (x * 16 + b.toNat / 16) % 16 * 16 + (b.toNat % 16 * 4 + c) / 4 = b.toNat := by omega
  rw [secondByte, hsum, UInt8.ofNat_toNat]

theorem thirdByte_digits (x : ℕ) (c : UInt8) :
    thirdByte (x * 4 + c.toNat / 64) (c.toNat % 64) = c := by
  have hlt := c.toNat_lt
  have hsum : (x * 4 + c.toNat / 64) % 4 * 64 + c.toNat % 64 = c.toNat := by omega
  rw [thirdByte, hsum, UInt8.ofNat_toNat]

/-- A group of four digits none of which is padding. -/
theorem decode_group {a b c d : ℕ} (ha : a < 64) (hb : b < 64) (hc : c < 64) (hd : d < 64)
    (rest : List Char) :
    decode (digit a :: digit b :: digit c :: digit d :: rest) =
      (decode rest).map fun bytes =>
        firstByte a b :: secondByte b c :: thirdByte c d :: bytes := by
  rw [decode]
  · rw [value_digit ha, value_digit hb, value_digit hc, value_digit hd]
    cases decode rest <;> rfl
  · intro h _ _
    exact digit_ne_pad c hc h
  · intro h _
    exact digit_ne_pad d hd h

/-- **Decoding inverts encoding.** -/
theorem decode_encode (bytes : List UInt8) : decode (encode bytes) = some bytes := by
  -- one case for each form of the last group
  induction bytes using encode.induct with
  | case1 => rfl
  | case2 a =>
    have ha := a.toNat_lt
    rw [encode, decode, value_digit (by omega), value_digit (by omega)]
    show some [firstByte (a.toNat / 4) (a.toNat % 4 * 16 + 0)] = some [a]
    rw [firstByte_digits a 0 (by decide)]
  | case3 a b =>
    have ha := a.toNat_lt
    have hb := b.toNat_lt
    rw [encode, decode]
    · rw [value_digit (by omega), value_digit (by omega), value_digit (by omega)]
      show some [firstByte _ _, secondByte _ (b.toNat % 16 * 4 + 0)] = some [a, b]
      rw [firstByte_digits a _ (by omega), secondByte_digits _ b 0 (by decide)]
    · intro h
      exact digit_ne_pad _ (by omega) h
  | case4 a b c rest ih =>
    have ha := a.toNat_lt
    have hb := b.toNat_lt
    have hc := c.toNat_lt
    rw [encode, decode_group (by omega) (by omega) (by omega) (by omega), ih, Option.map_some,
      firstByte_digits a _ (by omega), secondByte_digits _ b _ (by omega), thirdByte_digits]

/-- Four characters for every group of three bytes. -/
theorem length_encode (bytes : List UInt8) :
    (encode bytes).length = 4 * ((bytes.length + 2) / 3) := by
  induction bytes using encode.induct with
  | case1 => rfl
  | case2 a => simp [encode]
  | case3 a b => simp [encode]
  | case4 a b c rest ih =>
    simp only [encode, List.length_cons, ih]
    omega

/-- Every character is a digit or padding. -/
theorem mem_encode {bytes : List UInt8} {c : Char} (h : c ∈ encode bytes) :
    c = '=' ∨ ∃ n < 64, c = digit n := by
  induction bytes using encode.induct with
  | case1 => exact nomatch h
  | case2 a =>
    have ha := a.toNat_lt
    simp only [encode, List.mem_cons, List.not_mem_nil, or_false] at h
    rcases h with rfl | rfl | rfl | rfl
    · exact .inr ⟨_, by omega, rfl⟩
    · exact .inr ⟨_, by omega, rfl⟩
    · exact .inl rfl
    · exact .inl rfl
  | case3 a b =>
    have ha := a.toNat_lt
    have hb := b.toNat_lt
    simp only [encode, List.mem_cons, List.not_mem_nil, or_false] at h
    rcases h with rfl | rfl | rfl | rfl
    · exact .inr ⟨_, by omega, rfl⟩
    · exact .inr ⟨_, by omega, rfl⟩
    · exact .inr ⟨_, by omega, rfl⟩
    · exact .inl rfl
  | case4 a b c' rest ih =>
    have ha := a.toNat_lt
    have hb := b.toNat_lt
    have hc := c'.toNat_lt
    simp only [encode, List.mem_cons] at h
    rcases h with rfl | rfl | rfl | rfl | h
    · exact .inr ⟨_, by omega, rfl⟩
    · exact .inr ⟨_, by omega, rfl⟩
    · exact .inr ⟨_, by omega, rfl⟩
    · exact .inr ⟨_, by omega, rfl⟩
    · exact ih h

/-- An encoding is printable ASCII without spaces, quotes and backslashes. -/
theorem encode_ascii {bytes : List UInt8} {c : Char} (h : c ∈ encode bytes) :
    33 ≤ c.toNat ∧ c.toNat < 127 ∧ c ≠ '"' ∧ c ≠ '\\' := by
  rcases mem_encode h with rfl | ⟨n, hn, rfl⟩
  · decide
  · exact digit_ascii hn

end Base64
