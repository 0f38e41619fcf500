/-
# Canonical bytes

`canonical_bytes` and `_loads_strict` of the receipts: compact JSON with sorted keys and
characters written as they are, encoded in UTF-8, and the reader that refuses anything but
one value with distinct keys.

A canonical text does not depend on the order of keys, and what is read back from it is the
value with its keys sorted.
-/
import QDistro.JsonSorted

namespace JsonText

/-! ## Writing -/

/-- The form of one character with `ensure_ascii=False`. -/
def rawChar (c : Char) : List Char :=
  if c = '"' then ['\\', '"']
  else if c = '\\' then ['\\', '\\']
  else if c = '\n' then ['\\', 'n']
  else if c = '\r' then ['\\', 'r']
  else if c = '\t' then ['\\', 't']
  else if c = '\x0c' then ['\\', 'f']
  else if c = '\x08' then ['\\', 'b']
  else if c.toNat < 32 then unitText c.toNat
  else [c]

/-- What neither `allow_nan=False` nor the limit on integer texts lets through. -/
def isUnwritable (v : Json) : Bool := isConstant v || isLongInt v

/-- The text of `canonical_bytes`, or `none` where it raises `ValueError`. -/
def canonicalText (v : Json) : Option (List Char) :=
  if hasAny isUnwritable v then none else some (dumpsWith rawChar compactSeps (sortKeys v))

mutual

/-- The first value, in the order of writing, that satisfies `p`. -/
def findAny (p : Json → Bool) : Json → Option Json
  | .arr items => if p (.arr items) then some (.arr items) else findAnyItems p items
  | .obj fields => if p (.obj fields) then some (.obj fields) else findAnyFields p fields
  | v => if p v then some v else none

def findAnyItems (p : Json → Bool) : List Json → Option Json
  | [] => none
  | v :: vs => (findAny p v).or (findAnyItems p vs)

def findAnyFields (p : Json → Bool) : List (String × Json) → Option Json
  | [] => none
  | (_, v) :: fs => (findAny p v).or (findAnyFields p fs)

end

/-- `repr` of a float. -/
def reprFloat (f : FloatLit) : String :=
  if f.text = "NaN".toList then "nan"
  else if f.text = "Infinity".toList then "inf"
  else if f.text = "-Infinity".toList then "-inf"
  else String.ofList f.text

/-- The message of the `ValueError` that `canonical_bytes` raises. -/
def unwritableText (v : Json) : String :=
  match findAny isUnwritable (sortKeys v) with
  | some (.float f) => "Out of range float values are not JSON compliant: " ++ reprFloat f
  | _ => "Exceeds the limit (4300 digits) for integer string conversion; " ++
      "use sys.set_int_max_str_digits() to increase the limit"

/-- `text.encode("utf-8")` -/
def utf8Bytes (t : List Char) : List UInt8 := t.flatMap String.utf8EncodeChar

/-- `canonical_bytes` -/
def canonicalBytes (v : Json) : Option (List UInt8) := (canonicalText v).map utf8Bytes

/-! ## Reading -/

/-- `data.decode("utf-8")` -/
def utf8Text (b : List UInt8) : Option (List Char) :=
  b.toByteArray.utf8Decode?.map Array.toList

/-- `_loads_strict`, or `none` where it raises `MalformedReceipt`. -/
def loadsStrict (b : List UInt8) : Option Json :=
  ((utf8Text b).bind (loadsWith uniqueHook)).filter fun v => !hasAny isLongInt v

/-! ## The round trip -/

theorem escapes_rawChar : Escapes rawChar := by
  intro c rest
  unfold rawChar
  split_ifs with h1 h2 h3 h4 h5 h6 h7 h8
  · subst h1; rfl
  · subst h2; rfl
  · subst h3; rfl
  · subst h4; rfl
  · subst h5; rfl
  · subst h6; rfl
  · subst h7; rfl
  · rw [parseString_unit (by omega), Char.ofNat_toNat]
  · -- any other character stands for itself
    rw [List.cons_append, List.nil_append, parseString]
    · rw [if_neg h8]
    · exact fun h => h1 h
    · intro a b c' d rest' h
      exact absurd h h2
    · intro e rest' h
      exact absurd h h2

theorem utf8Text_utf8Bytes (t : List Char) : utf8Text (utf8Bytes t) = some t := by
  show (t.utf8Encode.utf8Decode?).map Array.toList = some t
  rw [List.utf8Decode?_utf8Encode]
  rfl

theorem utf8Bytes_injective {t t' : List Char} (h : utf8Bytes t = utf8Bytes t') : t = t' := by
  have ht := utf8Text_utf8Bytes t
  rw [h, utf8Text_utf8Bytes] at ht
  exact (Option.some.inj ht).symm

theorem hasAnyFields_iff (p : Json → Bool) (fs : List (String × Json)) :
    hasAnyFields p fs = true ↔ ∃ f ∈ fs, hasAny p f.2 = true := by
  induction fs with
  | nil => simp [hasAnyFields]
  | cons f rest ih => simp [hasAnyFields, ih]

theorem hasAnyItems_iff (p : Json → Bool) (vs : List Json) :
    hasAnyItems p vs = true ↔ ∃ v ∈ vs, hasAny p v = true := by
  induction vs with
  | nil => simp [hasAnyItems]
  | cons v rest ih => simp [hasAnyItems, ih]

mutual

theorem hasAny_sortKeys {p : Json → Bool} (hp : ∀ v, p (sortKeys v) = p v) :
    ∀ v, hasAny p (sortKeys v) = hasAny p v
  | .null => by simp [sortKeys]
  | .bool _ => by simp [sortKeys]
  | .int _ => by simp [sortKeys]
  | .float _ => by simp [sortKeys]
  | .str _ => by simp [sortKeys]
  | .arr items => by
    have hself := hp (.arr items)
    rw [sortKeys] at hself ⊢
    rw [hasAny, hasAny, hself, hasAnyItems_sortKeys hp items]
  | .obj fs => by
    have hself := hp (.obj fs)
    have hfields := hasAnyFields_sortKeys hp fs
    rw [sortKeys] at hself ⊢
    rw [hasAny, hasAny, hself, ← hfields]
    congr 1
    rw [Bool.eq_iff_iff, hasAnyFields_iff, hasAnyFields_iff]
    have hmem : ∀ f, f ∈ sortFields (sortKeysFields fs) ↔ f ∈ sortKeysFields fs :=
      fun f => (List.perm_insertionSort _ _).mem_iff
    simp only [hmem]

theorem hasAnyItems_sortKeys {p : Json → Bool} (hp : ∀ v, p (sortKeys v) = p v) :
    ∀ vs, hasAnyItems p (sortKeysItems vs) = hasAnyItems p vs
  | [] => by rw [sortKeysItems]
  | v :: vs => by
    rw [sortKeysItems, hasAnyItems, hasAnyItems, hasAny_sortKeys hp v, hasAnyItems_sortKeys hp vs]

theorem hasAnyFields_sortKeys {p : Json → Bool} (hp : ∀ v, p (sortKeys v) = p v) :
    ∀ fs, hasAnyFields p (sortKeysFields fs) = hasAnyFields p fs
  | [] => by rw [sortKeysFields]
  | (k, v) :: fs => by
    rw [sortKeysFields, hasAnyFields, hasAnyFields, hasAny_sortKeys hp v,
      hasAnyFields_sortKeys hp fs]

end

theorem isConstant_sortKeys (v : Json) : isConstant (sortKeys v) = isConstant v := by
  cases v <;> simp [sortKeys, isConstant]

theorem isLongInt_sortKeys (v : Json) : isLongInt (sortKeys v) = isLongInt v := by
  cases v <;> simp only [sortKeys, isLongInt]

theorem isUnwritable_sortKeys (v : Json) : isUnwritable (sortKeys v) = isUnwritable v := by
  rw [isUnwritable, isUnwritable, isConstant_sortKeys, isLongInt_sortKeys]

/-- **The order of keys does not show in canonical bytes.** -/
theorem canonicalBytes_sortKeys (v : Json) : canonicalBytes (sortKeys v) = canonicalBytes v := by
  rw [canonicalBytes, canonicalBytes, canonicalText, canonicalText,
    hasAny_sortKeys isUnwritable_sortKeys, sortKeys_sortKeys]

mutual

theorem hasAny_mono {p q : Json → Bool} (hpq : ∀ v, p v = true → q v = true) :
    ∀ v, hasAny p v = true → hasAny q v = true
  | .null, h => hpq _ h
  | .bool _, h => hpq _ h
  | .int _, h => hpq _ h
  | .float _, h => hpq _ h
  | .str _, h => hpq _ h
  | .arr items, h => by
    rw [hasAny, Bool.or_eq_true] at h ⊢
    exact h.imp (hpq _) (hasAnyItems_mono hpq items)
  | .obj fs, h => by
    rw [hasAny, Bool.or_eq_true] at h ⊢
    exact h.imp (hpq _) (hasAnyFields_mono hpq fs)

theorem hasAnyItems_mono {p q : Json → Bool} (hpq : ∀ v, p v = true → q v = true) :
    ∀ vs, hasAnyItems p vs = true → hasAnyItems q vs = true
  | [], h => h
  | v :: vs, h => by
    rw [hasAnyItems, Bool.or_eq_true] at h ⊢
    exact h.imp (hasAny_mono hpq v) (hasAnyItems_mono hpq vs)

theorem hasAnyFields_mono {p q : Json → Bool} (hpq : ∀ v, p v = true → q v = true) :
    ∀ fs, hasAnyFields p fs = true → hasAnyFields q fs = true
  | [], h => h
  | (_, v) :: fs, h => by
    rw [hasAnyFields, Bool.or_eq_true] at h ⊢
    exact h.imp (hasAny_mono hpq v) (hasAnyFields_mono hpq fs)

end

theorem hasAny_isLongInt {v : Json} (h : hasAny isUnwritable v = false) :
    hasAny isLongInt v = false := by
  rw [Bool.eq_false_iff] at h ⊢
  intro hlong
  refine h (hasAny_mono (fun w hw => ?_) v hlong)
  rw [isUnwritable, hw, Bool.or_true]

/-- **Canonical bytes are read back with sorted keys.** -/
theorem loadsStrict_canonicalBytes {v : Json} {b : List UInt8} (hv : Distinct v)
    (h : canonicalBytes v = some b) : loadsStrict b = some (sortKeys v) := by
  obtain ⟨t, ht, rfl⟩ := Option.map_eq_some_iff.mp h
  rw [canonicalText] at ht
  split at ht
  · cases ht
  · rename_i hplain
    cases ht
    rw [loadsStrict, utf8Text_utf8Bytes, Option.bind_some,
      loadsWith_dumpsWith escapes_rawChar keepsDistinct_uniqueHook _ (distinct_sortKeys v hv),
      Option.filter_some, hasAny_sortKeys isLongInt_sortKeys,
      hasAny_isLongInt (Bool.eq_false_iff.mpr hplain)]
    rfl

theorem canonicalBytes_isSome (v : Json) :
    (canonicalBytes v).isSome = !hasAny isUnwritable v := by
  rw [canonicalBytes, Option.isSome_map, canonicalText]
  cases hasAny isUnwritable v <;> rfl

end JsonText
