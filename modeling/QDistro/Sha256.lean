/-
# SHA-256

`hexdigest` is `hashlib.sha256(text.encode()).hexdigest()`: the FIPS 180-4 hash of
the UTF-8 bytes of a text, as lowercase hexadecimal digits.  Words are natural
numbers below `2 ^ 32`.

Nothing is assumed or proved here about collisions.  What is proved is the alphabet
of a digest (`isHexDigit_of_mem_hexdigest`), which is what keeps a digest apart from
a delimiter or from a fixed seed.
-/
import Mathlib.Algebra.Order.Ring.Nat
import Mathlib.Data.List.Basic

namespace Sha256

/-! ## Words -/

/-- The number of 32-bit words. -/
def wordSize : ℕ := 2 ^ 32

/-- Rotate right. -/
def rotr (n x : ℕ) : ℕ := (x >>> n) ||| (x <<< (32 - n)) % wordSize

def bigSigma0 (x : ℕ) : ℕ := rotr 2 x ^^^ rotr 13 x ^^^ rotr 22 x

def bigSigma1 (x : ℕ) : ℕ := rotr 6 x ^^^ rotr 11 x ^^^ rotr 25 x

def smallSigma0 (x : ℕ) : ℕ := rotr 7 x ^^^ rotr 18 x ^^^ (x >>> 3)

def smallSigma1 (x : ℕ) : ℕ := rotr 17 x ^^^ rotr 19 x ^^^ (x >>> 10)

/-- The choice function: bits of `y` where `x` is set, bits of `z` elsewhere. -/
def ch (x y z : ℕ) : ℕ := (x &&& y) ^^^ ((wordSize - 1 - x) &&& z)

/-- The majority function. -/
def maj (x y z : ℕ) : ℕ := (x &&& y) ^^^ (x &&& z) ^^^ (y &&& z)

/-- The round constants: fractional parts of the cube roots of the first 64 primes. -/
def roundConstants : List ℕ :=
  [0x428a2f98, 0x71374491, 0xb5c0fbcf, 0xe9b5dba5, 0x3956c25b, 0x59f111f1, 0x923f82a4, 0xab1c5ed5,
    0xd807aa98, 0x12835b01, 0x243185be, 0x550c7dc3, 0x72be5d74, 0x80deb1fe, 0x9bdc06a7, 0xc19bf174,
    0xe49b69c1, 0xefbe4786, 0x0fc19dc6, 0x240ca1cc, 0x2de92c6f, 0x4a7484aa, 0x5cb0a9dc, 0x76f988da,
    0x983e5152, 0xa831c66d, 0xb00327c8, 0xbf597fc7, 0xc6e00bf3, 0xd5a79147, 0x06ca6351, 0x14292967,
    0x27b70a85, 0x2e1b2138, 0x4d2c6dfc, 0x53380d13, 0x650a7354, 0x766a0abb, 0x81c2c92e, 0x92722c85,
    0xa2bfe8a1, 0xa81a664b, 0xc24b8b70, 0xc76c51a3, 0xd192e819, 0xd6990624, 0xf40e3585, 0x106aa070,
    0x19a4c116, 0x1e376c08, 0x2748774c, 0x34b0bcb5, 0x391c0cb3, 0x4ed8aa4a, 0x5b9cca4f, 0x682e6ff3,
    0x748f82ee, 0x78a5636f, 0x84c87814, 0x8cc70208, 0x90befffa, 0xa4506ceb, 0xbef9a3f7, 0xc67178f2]

/-! ## Compression -/

/-- The eight working registers. -/
structure Regs where
  a : ℕ
  b : ℕ
  c : ℕ
  d : ℕ
  e : ℕ
  f : ℕ
  g : ℕ
  h : ℕ

/-- The initial hash value. -/
def initial : Regs :=
  ⟨0x6a09e667, 0xbb67ae85, 0x3c6ef372, 0xa54ff53a, 0x510e527f, 0x9b05688c, 0x1f83d9ab, 0x5be0cd19⟩

/-- One round, with its constant and its schedule word. -/
def Regs.round (r : Regs) (kw : ℕ × ℕ) : Regs :=
  let t1 := r.h + bigSigma1 r.e + ch r.e r.f r.g + kw.1 + kw.2
  let t2 := bigSigma0 r.a + maj r.a r.b r.c
  ⟨(t1 + t2) % wordSize, r.a, r.b, r.c, (r.d + t1) % wordSize, r.e, r.f, r.g⟩

/-- Addition word by word. -/
def Regs.add (r q : Regs) : Regs :=
  ⟨(r.a + q.a) % wordSize, (r.b + q.b) % wordSize, (r.c + q.c) % wordSize, (r.d + q.d) % wordSize,
    (r.e + q.e) % wordSize, (r.f + q.f) % wordSize, (r.g + q.g) % wordSize, (r.h + q.h) % wordSize⟩

/-- Extend a message schedule, kept newest first, by `n` words. -/
def schedule : ℕ → List ℕ → List ℕ
  | 0, ws => ws
  | n + 1, ws =>
    schedule n ((smallSigma1 (ws.getD 1 0) + ws.getD 6 0 + smallSigma0 (ws.getD 14 0)
      + ws.getD 15 0) % wordSize :: ws)

/-- The first `n` groups of `k` items. -/
def chunks {α : Type} (k : ℕ) : ℕ → List α → List (List α)
  | 0, _ => []
  | n + 1, l => l.take k :: chunks k n (l.drop k)

/-- A big-endian number. -/
def beNat (bytes : List ℕ) : ℕ := bytes.foldl (fun acc b => 256 * acc + b) 0

/-- The compression of one block of 64 bytes. -/
def compress (r : Regs) (block : List ℕ) : Regs :=
  let ws := (schedule 48 ((chunks 4 16 block).map beNat).reverse).reverse
  r.add ((roundConstants.zip ws).foldl Regs.round r)

/-! ## Digests -/

/-- The last `k` bytes of a number, big-endian. -/
def beBytes : ℕ → ℕ → List ℕ
  | 0, _ => []
  | k + 1, n => beBytes k (n / 256) ++ [n % 256]

/-- A one bit, zeros, and the length in bits, up to a multiple of 64 bytes. -/
def pad (msg : List ℕ) : List ℕ :=
  msg ++ 0x80 :: List.replicate ((119 - msg.length % 64) % 64) 0 ++ beBytes 8 (8 * msg.length)

/-- The hash of a list of bytes, as eight words. -/
def digest (msg : List ℕ) : List ℕ :=
  let padded := pad msg
  let r := (chunks 64 (padded.length / 64) padded).foldl compress initial
  [r.a, r.b, r.c, r.d, r.e, r.f, r.g, r.h]

/-- `text.encode()` -/
def encode (text : List Char) : List ℕ :=
  text.flatMap fun c => (String.utf8EncodeChar c).map UInt8.toNat

/-- The eight hexadecimal digits of a word. -/
def hexWord (n : ℕ) : List Char :=
  (beBytes 4 n).flatMap fun b => [Nat.digitChar (b / 16), Nat.digitChar (b % 16)]

/-- `hashlib.sha256(text.encode()).hexdigest()` -/
@[irreducible] def hexdigest (text : List Char) : List Char :=
  (digest (encode text)).flatMap hexWord

/-- `hashlib.sha256(b).hexdigest()` -/
def hexBytes (b : List UInt8) : List Char := (digest (b.map UInt8.toNat)).flatMap hexWord

/-! ## The alphabet of a digest -/

/-- A lowercase hexadecimal digit. -/
def isHexDigit (c : Char) : Bool :=
  ['0', '1', '2', '3', '4', '5', '6', '7', '8', '9', 'a', 'b', 'c', 'd', 'e', 'f'].elem c

theorem isHexDigit_digitChar : ∀ d, d < 16 → isHexDigit (Nat.digitChar d) = true := by decide

theorem lt_of_mem_beBytes {k n b : ℕ} (h : b ∈ beBytes k n) : b < 256 := by
  induction k generalizing n with
  | zero => simp [beBytes] at h
  | succ k ih =>
    rw [beBytes, List.mem_append, List.mem_singleton] at h
    rcases h with h | rfl
    · exact ih h
    · exact Nat.mod_lt _ (by decide)

theorem isHexDigit_of_mem_hexWord {n : ℕ} {c : Char} (h : c ∈ hexWord n) :
    isHexDigit c = true := by
  rw [hexWord, List.mem_flatMap] at h
  obtain ⟨b, hb, hc⟩ := h
  have hlt := lt_of_mem_beBytes hb
  simp only [List.mem_cons, List.not_mem_nil, or_false] at hc
  rcases hc with rfl | rfl
  · exact isHexDigit_digitChar _ (by omega)
  · exact isHexDigit_digitChar _ (by omega)

theorem isHexDigit_of_mem_hexdigest {text : List Char} {c : Char} (h : c ∈ hexdigest text) :
    isHexDigit c = true := by
  rw [hexdigest, List.mem_flatMap] at h
  obtain ⟨n, -, hc⟩ := h
  exact isHexDigit_of_mem_hexWord hc

-- the first test vector of FIPS 180-4
example : hexdigest "abc".toList =
    "ba7816bf8f01cfea414140de5dae2223b00361a396177a9cb410ff61f20015ad".toList := by
  decide +kernel

end Sha256
