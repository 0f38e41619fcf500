/-
# Texts on both sides of the local protocol

The controller checks a text with regular expressions over characters, the C helpers with loops
over bytes.  A text that the controller accepts is ASCII, apart from titles, so its bytes are its
characters one by one; for titles the C loop accepts exactly the UTF-8 encodings of texts without
control characters (`utf8Loop_utf8Bytes`, `utf8Loop_sound`).
-/
import QDistro.HelperParsers

namespace RemoteNested

open List

namespace HelperC

/-! ## ASCII -/

variable {c : Char}

theorem forall_ascii {P : Char → Prop} (h : ∀ n : ℕ, n < 128 → P (Char.ofNat n))
    (hc : c.toNat < 128) : P c := by
  have hp := h c.toNat hc
  rwa [Char.ofNat_toNat] at hp

/-- The byte of an ASCII character. -/
def byte (c : Char) : UInt8 := UInt8.ofNat c.toNat

theorem utf8EncodeChar_ascii (hc : c.toNat < 128) : String.utf8EncodeChar c = [byte c] := by
  have hle : c.val.toNat ≤ 0x7f := by
    have heq : c.toNat = c.val.toNat := rfl
    omega
  unfold String.utf8EncodeChar
  rw [if_pos hle]
  rfl

variable {l : List Char}

theorem flatMap_utf8EncodeChar_ascii (h : ∀ c ∈ l, c.toNat < 128) :
    l.flatMap String.utf8EncodeChar = l.map byte := by
  induction l with
  | nil => rfl
  | cons c rest ih =>
    rw [flatMap_cons, utf8EncodeChar_ascii (h c mem_cons_self),
      ih fun d hd => h d (mem_cons_of_mem _ hd)]
    rfl

variable {s : String}

theorem utf8Bytes_ascii (h : ∀ c ∈ s.toList, c.toNat < 128) :
    utf8Bytes s = s.toList.map byte :=
  flatMap_utf8EncodeChar_ascii h

theorem ascii_of_isAlnum (h : isAlnum c = true) : c.toNat < 128 := by
  have hclass : isAlnum c = ((decide (c.val ≥ 'A'.val ∧ c.val ≤ 'Z'.val) ||
      (decide (c.val ≥ 'a'.val) && decide (c.val ≤ 'z'.val))) ||
        (decide (c.val ≥ '0'.val) && decide (c.val ≤ '9'.val))) := rfl
  rw [hclass] at h
  simp only [Bool.or_eq_true, Bool.and_eq_true, decide_eq_true_eq] at h
  have hval : c.toNat = c.val.toNat := rfl
  simp only [ge_iff_le, UInt32.le_iff_toNat_le] at h
  have hZ : 'Z'.val.toNat = 90 := rfl
  have hz : 'z'.val.toNat = 122 := rfl
  have h9 : '9'.val.toNat = 57 := rfl
  omega

theorem alphaNum_byte (hc : c.toNat < 128) : alphaNum (byte c) = isAlnum c := by
  revert hc
  refine forall_ascii (P := fun c => alphaNum (byte c) = isAlnum c) ?_
  decide

theorem byte_ofNat {b : UInt8} (h : b.toNat < 128) :
    byte (Char.ofNat b.toNat) = b ∧ (Char.ofNat b.toNat).toNat < 128 := by
  have hvalid : (Char.ofNat b.toNat).toNat = b.toNat := by
    rw [Char.ofNat, dif_pos (Or.inl (by omega))]
    rfl
  refine ⟨?_, by omega⟩
  rw [byte, hvalid]
  exact UInt8.ofNat_toNat

theorem ascii_of_alphaNum {b : UInt8} (h : alphaNum b = true) : b.toNat < 128 := by
  simp only [alphaNum, Bool.or_eq_true, Bool.and_eq_true, decide_eq_true_eq,
    UInt8.le_iff_toNat_le] at h
  have h1 : (122 : UInt8).toNat = 122 := rfl
  have h2 : (90 : UInt8).toNat = 90 := rfl
  have h3 : (57 : UInt8).toNat = 57 := rfl
  omega

/-! ## Names -/

theorem all_zipIdx_of_pos {inner : UInt8 → Bool} {l : Bytes} {k : ℕ} (hk : 0 < k) :
    ((l.zipIdx k).all fun p => alphaNum p.1 || (decide (p.2 > 0) && inner p.1)) =
      l.all fun c => alphaNum c || inner c := by
  induction l generalizing k with
  | nil => rfl
  | cons c rest ih =>
    rw [zipIdx_cons, all_cons, all_cons, ih (Nat.succ_pos k), decide_eq_true hk,
      Bool.true_and]

theorem nameLoop_cons (inner : UInt8 → Bool) (c : UInt8) (rest : Bytes) :
    nameLoop inner (c :: rest) = (alphaNum c && rest.all fun c => alphaNum c || inner c) := by
  unfold nameLoop
  rw [zipIdx_cons, all_cons, all_zipIdx_of_pos (Nat.succ_pos 0)]
  simp

/-- What a loop over bytes and a class of characters must share. -/
structure SameClass (inner : UInt8 → Bool) (inClass : Char → Bool) : Prop where
  ascii : ∀ {c : Char}, inClass c = true → c.toNat < 128
  same : ∀ {c : Char}, c.toNat < 128 → inClass c = (alphaNum (byte c) || inner (byte c))
  inner_ascii : ∀ {b : UInt8}, inner b = true → b.toNat < 128

variable {inner : UInt8 → Bool} {inClass : Char → Bool} {extra : ℕ}

theorem SameClass.all_map (h : SameClass inner inClass) (hl : ∀ c ∈ l, c.toNat < 128) :
    ((l.map byte).all fun c => alphaNum c || inner c) = l.all inClass := by
  induction l with
  | nil => rfl
  | cons c rest ih =>
    rw [map_cons, all_cons, all_cons, ih fun d hd => hl d (mem_cons_of_mem _ hd),
      h.same (hl c mem_cons_self)]

theorem SameClass.nameLoop_of_matchName (h : SameClass inner inClass)
    (hs : matchName inClass extra s = true) :
    (∀ c ∈ s.toList, c.toNat < 128) ∧ nameLoop inner (utf8Bytes s) = true ∧
      utf8Bytes s ≠ [] ∧ (utf8Bytes s).length ≤ extra + 1 := by
  unfold matchName at hs
  split at hs
  · cases hs
  · next c rest heq =>
    simp only [Bool.and_eq_true, decide_eq_true_eq] at hs
    obtain ⟨⟨hfirst, hrest⟩, hlen⟩ := hs
    have hascii : ∀ d ∈ s.toList, d.toNat < 128 := by
      intro d hd
      rw [heq] at hd
      rcases mem_cons.mp hd with rfl | hmem
      · exact ascii_of_isAlnum hfirst
      · exact h.ascii (all_eq_true.mp hrest d hmem)
    have hbytes : utf8Bytes s = byte c :: rest.map byte := by
      rw [utf8Bytes_ascii hascii, heq]
      rfl
    refine ⟨hascii, ?_, ?_, ?_⟩
    · have hc : c.toNat < 128 := ascii_of_isAlnum hfirst
      rw [hbytes, nameLoop_cons, alphaNum_byte hc, hfirst,
        h.all_map fun d hd => hascii d (by rw [heq]; exact mem_cons_of_mem _ hd), hrest]
      rfl
    · rw [hbytes]
      intro hnil
      cases hnil
    · rw [hbytes, length_cons, length_map]
      omega

theorem SameClass.matchName_of_nameLoop (h : SameClass inner inClass) {b : Bytes}
    (hb : nameLoop inner b = true) (hne : b ≠ []) (hlen : b.length ≤ extra + 1) :
    ∃ s : String, b = utf8Bytes s ∧ matchName inClass extra s = true := by
  cases b with
  | nil => exact absurd rfl hne
  | cons c rest =>
    rw [nameLoop_cons, Bool.and_eq_true] at hb
    obtain ⟨hfirst, hrest⟩ := hb
    have hc := byte_ofNat (ascii_of_alphaNum hfirst)
    have hascii : ∀ d ∈ rest, d.toNat < 128 := by
      intro d hd
      have hd' := all_eq_true.mp hrest d hd
      rcases Bool.or_eq_true _ _ ▸ hd' with hd' | hd'
      · exact ascii_of_alphaNum hd'
      · exact h.inner_ascii hd'
    set chars : List Char := rest.map fun b => Char.ofNat b.toNat with hchars
    have hchars_ascii : ∀ d ∈ chars, d.toNat < 128 := by
      intro d hd
      obtain ⟨b, hb, rfl⟩ := mem_map.mp hd
      exact (byte_ofNat (hascii b hb)).2
    have hback : chars.map byte = rest := by
      rw [hchars, map_map]
      have hid : rest.map (byte ∘ fun b => Char.ofNat b.toNat) = rest.map id :=
        map_congr_left fun b hb => (byte_ofNat (hascii b hb)).1
      rw [hid, map_id]
    have hlist : (String.ofList (Char.ofNat c.toNat :: chars)).toList =
        Char.ofNat c.toNat :: chars := String.toList_ofList
    refine ⟨String.ofList (Char.ofNat c.toNat :: chars), ?_, ?_⟩
    · rw [utf8Bytes_ascii, hlist, map_cons, hc.1, hback]
      intro d hd
      rw [hlist] at hd
      rcases mem_cons.mp hd with rfl | hmem
      · exact hc.2
      · exact hchars_ascii d hmem
    · have hlength : chars.length = rest.length := length_map _
      rw [length_cons] at hlen
      unfold matchName
      rw [hlist]
      simp only [Bool.and_eq_true, decide_eq_true_eq]
      refine ⟨⟨?_, ?_⟩, by omega⟩
      · rw [← alphaNum_byte hc.2, hc.1]
        exact hfirst
      · rw [← h.all_map hchars_ascii, hback]
        exact hrest

/-! ### The three classes -/

theorem sameClass_appId : SameClass (fun c => c == 46 || c == 95 || c == 45)
    (fun c => isAlnum c || c == '.' || c == '_' || c == '-') where
  ascii := by
    intro c h
    simp only [Bool.or_eq_true, beq_iff_eq] at h
    rcases h with ((h | rfl) | rfl) | rfl
    · exact ascii_of_isAlnum h
    all_goals decide
  same := by
    intro c hc
    revert hc
    refine forall_ascii (P := fun c => (isAlnum c || c == '.' || c == '_' || c == '-') =
      (alphaNum (byte c) || (byte c == 46 || byte c == 95 || byte c == 45))) ?_
    decide
  inner_ascii := by
    intro b h
    simp only [Bool.or_eq_true, beq_iff_eq] at h
    rcases h with (rfl | rfl) | rfl <;> decide

theorem sameClass_identity : SameClass
    (fun c => c == 95 || c == 45 || (!false && (c == 46 || c == 58)))
    (fun c => isAlnum c || c == '.' || c == '_' || c == ':' || c == '-') where
  ascii := by
    intro c h
    simp only [Bool.or_eq_true, beq_iff_eq] at h
    rcases h with (((h | rfl) | rfl) | rfl) | rfl
    · exact ascii_of_isAlnum h
    all_goals decide
  same := by
    intro c hc
    revert hc
    refine forall_ascii (P := fun c => (isAlnum c || c == '.' || c == '_' || c == ':' || c == '-') =
      (alphaNum (byte c) || (byte c == 95 || byte c == 45 ||
        (!false && (byte c == 46 || byte c == 58))))) ?_
    decide
  inner_ascii := by
    intro b h
    simp only [Bool.not_false, Bool.true_and, Bool.or_eq_true, beq_iff_eq] at h
    rcases h with (rfl | rfl) | rfl | rfl <;> decide

theorem sameClass_stream : SameClass
    (fun c => c == 95 || c == 45 || (!true && (c == 46 || c == 58)))
    (fun c => isAlnum c || c == '_' || c == '-') where
  ascii := by
    intro c h
    simp only [Bool.or_eq_true, beq_iff_eq] at h
    rcases h with (h | rfl) | rfl
    · exact ascii_of_isAlnum h
    all_goals decide
  same := by
    intro c hc
    revert hc
    refine forall_ascii (P := fun c => (isAlnum c || c == '_' || c == '-') =
      (alphaNum (byte c) || (byte c == 95 || byte c == 45 ||
        (!true && (byte c == 46 || byte c == 58))))) ?_
    decide
  inner_ascii := by
    intro b h
    simp only [Bool.not_true, Bool.false_and, Bool.or_false, Bool.or_eq_true, beq_iff_eq] at h
    rcases h with rfl | rfl <;> decide

theorem appIdValid_of_matchAppId (h : matchAppId s = true) :
    appIdValid (utf8Bytes s) = true := by
  obtain ⟨-, hloop, hne, hlen⟩ := sameClass_appId.nameLoop_of_matchName h
  unfold appIdValid
  rw [if_neg (by simpa using ⟨hne, hlen⟩)]
  exact hloop

theorem matchAppId_of_appIdValid {b : Bytes} (h : appIdValid b = true) :
    ∃ s : String, b = utf8Bytes s ∧ matchAppId s = true := by
  unfold appIdValid at h
  split at h
  · cases h
  · next hlen =>
    simp only [List.isEmpty_iff, not_or, not_lt] at hlen
    exact sameClass_appId.matchName_of_nameLoop h hlen.1 hlen.2

theorem identityValid_of_matchIdentity (h : matchIdentity s = true) :
    identityValid (utf8Bytes s) false = true := by
  obtain ⟨-, hloop, hne, hlen⟩ := sameClass_identity.nameLoop_of_matchName h
  unfold identityValid
  rw [if_neg (by simpa using ⟨hne, hlen⟩), hloop]
  rfl

/-- The first character of a text is a letter or a digit. -/
def startsAlnum (s : String) : Bool :=
  match s.toList with
  | [] => false
  | c :: _ => isAlnum c

theorem identityValid_stream (h : matchStreamId s = true) :
    identityValid (utf8Bytes s) true = startsAlnum s := by
  simp only [matchStreamId, Bool.and_eq_true, decide_eq_true_eq] at h
  obtain ⟨⟨hall, hmin⟩, hmax⟩ := h
  have hascii : ∀ c ∈ s.toList, c.toNat < 128 := fun c hc =>
    sameClass_stream.ascii (all_eq_true.mp hall c hc)
  unfold identityValid startsAlnum
  rw [utf8Bytes_ascii hascii]
  cases hs : s.toList with
  | nil =>
    rw [hs] at hmin
    cases hmin
  | cons c rest =>
    rw [hs] at hall hmin hmax hascii
    have hlen : ((c :: rest).map byte).length = (c :: rest).length := length_map _
    have hsize : ¬(((c :: rest).map byte).isEmpty = true ∨ ((c :: rest).map byte).length > 128) := by
      rintro (hempty | hlong)
      · cases hempty
      · omega
    rw [if_neg hsize]
    rw [map_cons, nameLoop_cons, alphaNum_byte (hascii c mem_cons_self),
      sameClass_stream.all_map fun d hd => hascii d (mem_cons_of_mem _ hd)]
    rw [all_cons, Bool.and_eq_true] at hall
    rw [hall.2, ← map_cons, hlen, decide_eq_true hmin]
    simp

/-! ## UTF-8 -/

/-- A control character. -/
def isControl (c : Char) : Bool := decide (c.toNat < 0x20) || decide (c.toNat = 0x7f)

theorem toNat_ofNat_byte {n : ℕ} (h : n < 256) : (UInt8.ofNat n).toNat = n := by
  rw [UInt8.toNat_ofNat']
  exact Nat.mod_eq_of_lt h

theorem utf8Loop_cons {c : UInt8} {rest : Bytes} :
    utf8Loop (c :: rest) =
      if c.toNat < 128 then
        !(decide (c.toNat < 32) || decide (c.toNat = 127)) && utf8Loop rest
      else if 194 ≤ c.toNat ∧ c.toNat ≤ 223 then
        match rest with
        | d :: rest =>
          isContinuation d && codeOk 1 (addBits (c.toNat % 32) d) && utf8Loop rest
        | _ => false
      else if 224 ≤ c.toNat ∧ c.toNat ≤ 239 then
        match rest with
        | d :: e :: rest =>
          isContinuation d && isContinuation e &&
            codeOk 2 (addBits (addBits (c.toNat % 16) d) e) && utf8Loop rest
        | _ => false
      else if 240 ≤ c.toNat ∧ c.toNat ≤ 244 then
        match rest with
        | d :: e :: f :: rest =>
          isContinuation d && isContinuation e && isContinuation f &&
            codeOk 3 (addBits (addBits (addBits (c.toNat % 8) d) e) f) && utf8Loop rest
        | _ => false
      else false := by
  have heq : (c == 0x7f) = decide (c.toNat = 127) := by
    rw [Bool.eq_iff_iff, beq_iff_eq, decide_eq_true_iff, ← UInt8.toNat_inj]
    rfl
  rw [utf8Loop.eq_def]
  simp only [UInt8.lt_iff_toNat_lt, UInt8.le_iff_toNat_le, heq]
  rfl

theorem isContinuation_ofNat {n : ℕ} (h : n < 64) : isContinuation (UInt8.ofNat (n + 128)) = true := by
  have hn : (UInt8.ofNat (n + 128)).toNat = n + 128 := toNat_ofNat_byte (by omega)
  simp only [isContinuation, Bool.and_eq_true, decide_eq_true_eq, UInt8.lt_iff_toNat_lt,
    UInt8.le_iff_toNat_le, hn]
  exact ⟨Nat.le_add_left _ _, by
    show n + 128 < 192
    omega⟩

theorem codeOk_of_bounds {need code : ℕ} (h2 : need = 2 → 0x800 ≤ code)
    (h3 : need = 3 → 0x10000 ≤ code) (hmax : code ≤ 0x10ffff)
    (hsurrogate : code < 0xd800 ∨ 0xdfff < code) : codeOk need code = true := by
  simp only [codeOk, Bool.not_eq_true', Bool.or_eq_false_iff, Bool.and_eq_false_iff,
    beq_eq_false_iff_ne, decide_eq_false_iff_not]
  omega

theorem utf8Loop_encodeChar (c : Char) (rest : Bytes) :
    utf8Loop (String.utf8EncodeChar c ++ rest) = (!isControl c && utf8Loop rest) := by
  have hval : c.toNat = c.val.toNat := rfl
  have hvalid : c.val.toNat < 0xd800 ∨ (0xdfff < c.val.toNat ∧ c.val.toNat < 0x110000) := c.valid
  unfold String.utf8EncodeChar
  dsimp only
  split
  · next h1 =>
    have hbyte : (UInt8.ofNat c.val.toNat).toNat = c.val.toNat := toNat_ofNat_byte (by omega)
    rw [singleton_append, utf8Loop_cons, hbyte, if_pos (by omega), isControl, hval]
  · have hcontrol : isControl c = false := by
      simp only [isControl, Bool.or_eq_false_iff, decide_eq_false_iff_not]
      omega
    rw [hcontrol, Bool.not_false, Bool.true_and]
    split
    · next h1 h2 =>
      have hfirst : (UInt8.ofNat (c.val.toNat / 64 % 32 + 192)).toNat =
          c.val.toNat / 64 % 32 + 192 := toNat_ofNat_byte (by omega)
      have hsecond : (UInt8.ofNat (c.val.toNat % 64 + 128)).toNat = c.val.toNat % 64 + 128 :=
        toNat_ofNat_byte (by omega)
      have hcode : addBits ((c.val.toNat / 64 % 32 + 192) % 32)
          (UInt8.ofNat (c.val.toNat % 64 + 128)) = c.val.toNat := by
        rw [addBits, hsecond]
        omega
      rw [cons_append, singleton_append, utf8Loop_cons, hfirst, if_neg (by omega),
        if_pos (by omega)]
      simp only [hcode, isContinuation_ofNat (Nat.mod_lt _ (by decide : 0 < 64)), Bool.true_and]
      rw [codeOk_of_bounds (by omega) (by omega) (by omega) (by omega), Bool.true_and]
    · have hlast : (UInt8.ofNat (c.val.toNat % 64 + 128)).toNat = c.val.toNat % 64 + 128 :=
        toNat_ofNat_byte (by omega)
      have hmiddle : (UInt8.ofNat (c.val.toNat / 64 % 64 + 128)).toNat =
          c.val.toNat / 64 % 64 + 128 := toNat_ofNat_byte (by omega)
      have hsix : ∀ n, isContinuation (UInt8.ofNat (n % 64 + 128)) = true := fun n =>
        isContinuation_ofNat (Nat.mod_lt n (by decide))
      split
      · next h1 h2 h3 =>
        have hfirst : (UInt8.ofNat (c.val.toNat / 4096 % 16 + 224)).toNat =
            c.val.toNat / 4096 % 16 + 224 := toNat_ofNat_byte (by omega)
        have hcode : addBits (addBits ((c.val.toNat / 4096 % 16 + 224) % 16)
            (UInt8.ofNat (c.val.toNat / 64 % 64 + 128)))
            (UInt8.ofNat (c.val.toNat % 64 + 128)) = c.val.toNat := by
          rw [addBits, addBits, hlast, hmiddle]
          omega
        rw [cons_append, cons_append, singleton_append, utf8Loop_cons, hfirst,
          if_neg (by omega), if_neg (by omega), if_pos (by omega)]
        simp only [hcode, hsix, Bool.true_and]
        rw [codeOk_of_bounds (by omega) (by omega) (by omega) (by omega), Bool.true_and]
      · next h1 h2 h3 =>
        have hthird : (UInt8.ofNat (c.val.toNat / 4096 % 64 + 128)).toNat =
            c.val.toNat / 4096 % 64 + 128 := toNat_ofNat_byte (by omega)
        have hfirst : (UInt8.ofNat (c.val.toNat / 262144 % 8 + 240)).toNat =
            c.val.toNat / 262144 % 8 + 240 := toNat_ofNat_byte (by omega)
        have hcode : addBits (addBits (addBits ((c.val.toNat / 262144 % 8 + 240) % 8)
            (UInt8.ofNat (c.val.toNat / 4096 % 64 + 128)))
            (UInt8.ofNat (c.val.toNat / 64 % 64 + 128)))
            (UInt8.ofNat (c.val.toNat % 64 + 128)) = c.val.toNat := by
          rw [addBits, addBits, addBits, hlast, hmiddle, hthird]
          omega
        rw [cons_append, cons_append, cons_append, singleton_append,
          utf8Loop_cons, hfirst, if_neg (by omega), if_neg (by omega), if_neg (by omega),
          if_pos (by omega)]
        simp only [hcode, hsix, Bool.true_and]
        rw [codeOk_of_bounds (by omega) (by omega) (by omega) (by omega), Bool.true_and]

theorem utf8Loop_flatMap (l : List Char) :
    utf8Loop (l.flatMap String.utf8EncodeChar) = l.all fun c => !isControl c := by
  induction l with
  | nil => rfl
  | cons c rest ih => rw [flatMap_cons, utf8Loop_encodeChar, ih, all_cons]

theorem exists_char {v : ℕ} (hmax : v ≤ 0x10ffff) (hsurrogate : v < 0xd800 ∨ 0xdfff < v) :
    ∃ c : Char, c.val.toNat = v := by
  have hvalid : v.isValidChar := by
    rcases hsurrogate with h | h
    · exact .inl h
    · exact .inr ⟨h, by omega⟩
  refine ⟨Char.ofNat v, ?_⟩
  rw [Char.ofNat, dif_pos hvalid]
  rfl

theorem bounds_of_isContinuation {c : UInt8} (h : isContinuation c = true) :
    128 ≤ c.toNat ∧ c.toNat < 192 := by
  simp only [isContinuation, Bool.and_eq_true, decide_eq_true_eq, UInt8.lt_iff_toNat_lt,
    UInt8.le_iff_toNat_le] at h
  exact h

theorem bounds_of_codeOk {need code : ℕ} (h : codeOk need code = true) :
    (need = 2 → 0x800 ≤ code) ∧ (need = 3 → 0x10000 ≤ code) ∧ code ≤ 0x10ffff ∧
      (code < 0xd800 ∨ 0xdfff < code) := by
  simp only [codeOk, Bool.not_eq_true', Bool.or_eq_false_iff, Bool.and_eq_false_iff,
    beq_eq_false_iff_ne, decide_eq_false_iff_not] at h
  omega

theorem ofNat_eq_byte {n : ℕ} {c : UInt8} (h : n = c.toNat) : UInt8.ofNat n = c := by
  rw [h]
  exact UInt8.ofNat_toNat

theorem utf8Loop_first {c : UInt8} {rest : Bytes} (h : utf8Loop (c :: rest) = true) :
    ∃ (ch : Char) (rest' : Bytes), c :: rest = String.utf8EncodeChar ch ++ rest' := by
  rw [utf8Loop_cons] at h
  split at h
  · next h1 =>
    obtain ⟨ch, hch⟩ := exists_char (v := c.toNat) (by omega) (by omega)
    refine ⟨ch, rest, ?_⟩
    unfold String.utf8EncodeChar
    dsimp only
    rw [hch, if_pos (by omega), ofNat_eq_byte rfl]
    rfl
  · split at h
    · next h2 =>
      split at h
      · next d rest =>
        simp only [Bool.and_eq_true] at h
        obtain ⟨⟨hd, hcode⟩, -⟩ := h
        have hd := bounds_of_isContinuation hd
        obtain ⟨-, -, hmax, hsurrogate⟩ := bounds_of_codeOk hcode
        obtain ⟨ch, hch⟩ := exists_char hmax hsurrogate
        unfold addBits at hch
        refine ⟨ch, rest, ?_⟩
        unfold String.utf8EncodeChar
        dsimp only
        rw [if_neg (by omega), if_pos (by omega), ofNat_eq_byte (c := c) (by omega),
          ofNat_eq_byte (c := d) (by omega)]
        rfl
      · cases h
    · split at h
      · next h3 =>
        split at h
        · next d e rest =>
          simp only [Bool.and_eq_true] at h
          obtain ⟨⟨⟨hd, he⟩, hcode⟩, -⟩ := h
          have hd := bounds_of_isContinuation hd
          have he := bounds_of_isContinuation he
          obtain ⟨hlow, -, hmax, hsurrogate⟩ := bounds_of_codeOk hcode
          have hlow := hlow rfl
          obtain ⟨ch, hch⟩ := exists_char hmax hsurrogate
          unfold addBits at hch hlow
          refine ⟨ch, rest, ?_⟩
          unfold String.utf8EncodeChar
          dsimp only
          rw [if_neg (by omega), if_neg (by omega), if_pos (by omega),
            ofNat_eq_byte (c := c) (by omega), ofNat_eq_byte (c := d) (by omega),
            ofNat_eq_byte (c := e) (by omega)]
          rfl
        · cases h
      · split at h
        · next h4 =>
          split at h
          · next d e f rest =>
            simp only [Bool.and_eq_true] at h
            obtain ⟨⟨⟨⟨hd, he⟩, hf⟩, hcode⟩, -⟩ := h
            have hd := bounds_of_isContinuation hd
            have he := bounds_of_isContinuation he
            have hf := bounds_of_isContinuation hf
            obtain ⟨-, hlow, hmax, hsurrogate⟩ := bounds_of_codeOk hcode
            have hlow := hlow rfl
            obtain ⟨ch, hch⟩ := exists_char hmax hsurrogate
            unfold addBits at hch hlow
            refine ⟨ch, rest, ?_⟩
            unfold String.utf8EncodeChar
            dsimp only
            rw [if_neg (by omega), if_neg (by omega), if_neg (by omega),
              ofNat_eq_byte (c := c) (by omega), ofNat_eq_byte (c := d) (by omega),
              ofNat_eq_byte (c := e) (by omega), ofNat_eq_byte (c := f) (by omega)]
            rfl
          · cases h
        · cases h

/-- **What the C loop accepts is the encoding of a text without control characters.** -/
theorem utf8Loop_sound (b : Bytes) (h : utf8Loop b = true) :
    ∃ l : List Char, b = l.flatMap String.utf8EncodeChar ∧ ∀ c ∈ l, isControl c = false := by
  -- on the length: each character takes at least one byte
  induction hn : b.length using Nat.strong_induction_on generalizing b with
  | _ n ih =>
    cases b with
    | nil => exact ⟨[], rfl, fun c hc => by cases hc⟩
    | cons c rest =>
      obtain ⟨ch, rest', hsplit⟩ := utf8Loop_first h
      rw [hsplit, utf8Loop_encodeChar, Bool.and_eq_true, Bool.not_eq_true'] at h
      have hpos : 0 < (String.utf8EncodeChar ch).length := by
        rw [String.length_utf8EncodeChar]
        exact ch.utf8Size_pos
      have hlen : (c :: rest).length = (String.utf8EncodeChar ch).length + rest'.length := by
        rw [hsplit, length_append]
      obtain ⟨l, hl, hcontrol⟩ := ih rest'.length (by omega) rest' h.2 rfl
      refine ⟨ch :: l, ?_, ?_⟩
      · rw [hsplit, hl, flatMap_cons]
      · intro d hd
        rcases mem_cons.mp hd with rfl | hmem
        · exact h.1
        · exact hcontrol d hmem

/-! ## Titles -/

theorem any_control (s : String) :
    (s.toList.any fun c => c.toNat < 0x20 || c.toNat == 0x7f) = s.toList.any isControl :=
  rfl

theorem utf8TextValid_of_text {label : String} {allowEmpty : Bool}
    (h : text label allowEmpty (.str s) = .ok s) : utf8TextValid (utf8Bytes s) = true := by
  have hlen := (text_eq_ok h).2
  dsimp only [text] at h
  split at h
  · cases h
  · split at h
    · cases h
    · next hcontrol =>
      unfold utf8TextValid
      rw [if_neg (not_lt.mpr hlen), utf8Bytes, utf8Loop_flatMap, all_eq_true]
      intro c hc
      rw [any_control, Bool.not_eq_true, any_eq_false] at hcontrol
      simpa using hcontrol c hc

theorem text_of_utf8TextValid {b : Bytes} (h : utf8TextValid b = true) (label : String) :
    ∃ s : String, b = utf8Bytes s ∧ text label true (.str s) = .ok s := by
  unfold utf8TextValid at h
  split at h
  · cases h
  · next hlen =>
    obtain ⟨l, hl, hcontrol⟩ := utf8Loop_sound b h
    have hlist : (String.ofList l).toList = l := String.toList_ofList
    have hbytes : b = utf8Bytes (String.ofList l) := by
      rw [utf8Bytes, hlist, hl]
    refine ⟨String.ofList l, hbytes, ?_⟩
    have hnone : ((String.ofList l).toList.any isControl) = false := by
      rw [hlist, any_eq_false]
      intro c hc
      rw [hcontrol c hc]
      decide
    dsimp only [text]
    rw [if_neg, if_neg]
    · rw [any_control, hnone]
      decide
    · rw [← hbytes]
      simpa using hlen

/-! ## Node names and sinks -/

theorem takeWhile_map_byte {p : Char → Bool} {q : UInt8 → Bool} (h : ∀ c ∈ l, q (byte c) = p c) :
    (l.map byte).takeWhile q = (l.takeWhile p).map byte := by
  induction l with
  | nil => rfl
  | cons c rest ih =>
    have hrest := ih fun d hd => h d (mem_cons_of_mem _ hd)
    have hc := h c mem_cons_self
    rw [map_cons, takeWhile_cons, takeWhile_cons, hc, hrest]
    cases p c <;> rfl

theorem dropWhile_map_byte {p : Char → Bool} {q : UInt8 → Bool} (h : ∀ c ∈ l, q (byte c) = p c) :
    (l.map byte).dropWhile q = (l.dropWhile p).map byte := by
  induction l with
  | nil => rfl
  | cons c rest ih =>
    have hrest := ih fun d hd => h d (mem_cons_of_mem _ hd)
    have hc := h c mem_cons_self
    rw [map_cons, dropWhile_cons, dropWhile_cons, hc, hrest]
    cases p c <;> rfl

theorem digit_byte (hc : c.toNat < 128) : digit (byte c) = isNumeral c := by
  revert hc
  refine forall_ascii (P := fun c => digit (byte c) = isNumeral c) ?_
  decide

theorem ascii_of_isNumeral (h : isNumeral c = true) : c.toNat < 128 := by
  simp only [isNumeral, Bool.and_eq_true, decide_eq_true_eq] at h
  have hle : c.val.toNat ≤ '9'.val.toNat := UInt32.le_iff_toNat_le.mp (Char.le_def.mp h.2)
  have h9 : '9'.val.toNat = 57 := rfl
  have hval : c.toNat = c.val.toNat := rfl
  omega

theorem positiveDecimal_map (h : isPositiveDecimal l = true) :
    positiveDecimal (l.map byte) = true := by
  cases l with
  | nil => cases h
  | cons c rest =>
    simp only [isPositiveDecimal, Bool.and_eq_true] at h
    obtain ⟨⟨hc, hzero⟩, hrest⟩ := h
    have hfirst : (decide (49 ≤ byte c) && decide (byte c ≤ 57)) = (isNumeral c && c != '0') :=
      forall_ascii (P := fun c => (decide (49 ≤ byte c) && decide (byte c ≤ 57)) =
        (isNumeral c && c != '0')) (by decide) (ascii_of_isNumeral hc)
    rw [map_cons]
    dsimp only [positiveDecimal]
    rw [hfirst, hc, hzero, Bool.true_and, Bool.true_and, all_eq_true]
    intro b hb
    obtain ⟨d, hd, rfl⟩ := mem_map.mp hb
    have hdigit := all_eq_true.mp hrest d hd
    rw [digit_byte (ascii_of_isNumeral hdigit)]
    exact hdigit

theorem afterText_eq_some {start : String} {rest : List Char} (h : afterText start l = some rest) :
    l = start.toList ++ rest := by
  unfold afterText at h
  split at h
  · next hprefix =>
    cases h
    obtain ⟨t, ht⟩ := isPrefixOf_iff_prefix.mp hprefix
    rw [← ht, drop_left]
  · cases h

theorem isPositiveDecimal_eq_cons (h : isPositiveDecimal l = true) :
    ∃ c rest, l = c :: rest ∧ (49 ≤ byte c ∧ byte c ≤ 57) := by
  have hbytes := positiveDecimal_map h
  cases l with
  | nil => cases h
  | cons c rest =>
    rw [map_cons] at hbytes
    simp only [positiveDecimal, Bool.and_eq_true, decide_eq_true_eq] at hbytes
    exact ⟨c, rest, rfl, hbytes.1⟩

theorem pwNodeValid_of_matchPwNode (hascii : ∀ c ∈ s.toList, c.toNat < 128)
    (hlen : s.toList.length ≤ 128) (h : matchPwNode s = true) :
    pwNodeValid (utf8Bytes s) = true := by
  unfold matchPwNode at h
  split at h
  · cases h
  · next rest hafter =>
    have hsplit := afterText_eq_some hafter
    dsimp only at h
    split at h
    · next name hname =>
      simp only [Bool.and_eq_true, decide_eq_true_eq] at h
      obtain ⟨⟨hdigits, hcount⟩, hmatch⟩ := h
      obtain ⟨hnameAscii, hloop, hne, hnameLen⟩ := sameClass_appId.nameLoop_of_matchName hmatch
      have hrest : ∀ c ∈ rest, c.toNat < 128 := fun c hc =>
        hascii c (by rw [hsplit]; exact mem_append_right _ hc)
      have hnumeral : ∀ c ∈ rest, digit (byte c) = isNumeral c := fun c hc =>
        digit_byte (hrest c hc)
      set start : Bytes := asciiBytes "weston.pipewire:".toList with hstart
      have hstartLen : start.length = 16 := rfl
      have hbytes : utf8Bytes s = start ++ rest.map byte := by
        rw [utf8Bytes_ascii hascii, hsplit, map_append]
        rfl
      have htotal : (utf8Bytes s).length ≤ 128 := by
        rw [utf8Bytes_ascii hascii, length_map]
        exact hlen
      -- the number, the colon and the name
      have hdrop : (rest.map byte).dropWhile digit = 58 :: name.map byte := by
        rw [dropWhile_map_byte hnumeral, hname]
        rfl
      have htake : (rest.map byte).takeWhile digit = (rest.takeWhile isNumeral).map byte :=
        takeWhile_map_byte hnumeral
      obtain ⟨c, digits, hcons, hfirst⟩ := isPositiveDecimal_eq_cons hdigits
      have hhead : (rest.map byte).head? = some (byte c) := by
        rw [← takeWhile_append_dropWhile (p := isNumeral) (l := rest), hcons]
        rfl
      have hnameBytes : utf8Bytes (String.ofList name) = name.map byte := by
        rw [utf8Bytes_ascii hnameAscii, String.toList_ofList]
      rw [hnameBytes] at hloop hne hnameLen
      have hcomponent : safeAsciiComponent (name.map byte) = true := by
        cases hbytesName : name.map byte with
        | nil => exact absurd hbytesName hne
        | cons b more =>
          rw [hbytesName, nameLoop_cons, Bool.and_eq_true] at hloop
          simp only [safeAsciiComponent, isEmpty_cons, Bool.not_false, Bool.true_and,
            all_cons, Bool.and_eq_true]
          refine ⟨by simp [hloop.1], ?_⟩
          rw [← hloop.2]
          congr 1
          funext b
          simp only [Bool.or_assoc]
      have hlong : 0 < (rest.map byte).length := by
        cases hr : rest.map byte with
        | nil =>
          rw [hr] at hhead
          cases hhead
        | cons b more => exact Nat.succ_pos _
      have htake16 : (start ++ rest.map byte).take 16 = start := take_left' hstartLen
      have hdrop16 : (start ++ rest.map byte).drop 16 = rest.map byte := drop_left' hstartLen
      have hsize : (start ++ rest.map byte).length = 16 + (rest.map byte).length := by
        rw [length_append, hstartLen]
      rw [hbytes] at htotal ⊢
      unfold pwNodeValid
      rw [if_neg]
      · simp only [hdrop16, hdrop, hhead, htake, length_map, hcomponent, Bool.and_true]
        rw [length_map] at hnameLen
        simp [hfirst, hcount, hnameLen]
      · simp only [htake16, ← hstart, not_or, not_le, not_lt, not_not]
        exact ⟨by omega, by omega, trivial⟩
    · simp at h

theorem matchSinkName_split {name : List Char} (h : matchSinkName name = true) :
    ∃ first second, isPositiveDecimal first = true ∧ isPositiveDecimal second = true ∧
      (∀ c ∈ first, isNumeral c = true) ∧ (∀ c ∈ second, isNumeral c = true) ∧
      name = "qdwin-nested-input-".toList ++ (first ++ '-' :: (second ++ ".sock".toList)) := by
  unfold matchSinkName at h
  split at h
  · cases h
  · next rest hafter =>
    rw [Bool.and_eq_true] at h
    obtain ⟨hfirst, h⟩ := h
    split at h
    · next more hmore =>
      rw [Bool.and_eq_true, beq_iff_eq] at h
      obtain ⟨hsecond, hend⟩ := h
      refine ⟨rest.takeWhile isNumeral, more.takeWhile isNumeral, hfirst, hsecond,
        fun c hc => ?_, fun c hc => ?_, ?_⟩
      · exact all_eq_true.mp all_takeWhile c hc
      · exact all_eq_true.mp all_takeWhile c hc
      · rw [afterText_eq_some hafter, ← hend, takeWhile_append_dropWhile, ← hmore,
          takeWhile_append_dropWhile]
    · cases h

theorem sinkAfterSlash_split (h : sinkAfterSlash l = true) :
    ∃ before name, l = before ++ '/' :: name ∧ matchSinkName name = true := by
  induction l with
  | nil => cases h
  | cons c rest ih =>
    simp only [sinkAfterSlash, Bool.or_eq_true, Bool.and_eq_true, beq_iff_eq] at h
    rcases h with ⟨rfl, hname⟩ | ⟨-, hlater⟩
    · exact ⟨[], rest, rfl, hname⟩
    · obtain ⟨before, name, rfl, hname⟩ := ih hlater
      exact ⟨c :: before, name, rfl, hname⟩

theorem basename_append {a b : Bytes} (h : ∀ c ∈ b, c ≠ 47) : basename (a ++ 47 :: b) = b := by
  have hall : ∀ c ∈ b.reverse, (c != 47) = true := by
    intro c hc
    have hne := h c (mem_reverse.mp hc)
    simpa using hne
  unfold basename
  rw [reverse_append, reverse_cons, append_assoc, takeWhile_append_of_pos hall]
  simp

theorem byte_beq {d : Char} (hc : c.toNat < 128) (hd : d.toNat < 128) :
    (byte c == byte d) = (c == d) := by
  rw [Bool.eq_iff_iff, beq_iff_eq, beq_iff_eq]
  constructor
  · intro h
    have hnat := congrArg UInt8.toNat h
    rw [byte, byte, toNat_ofNat_byte (by omega), toNat_ofNat_byte (by omega)] at hnat
    exact Char.toNat_inj.mp hnat
  · intro h
    rw [h]

theorem parentComponent_map (hl : ∀ c ∈ l, c.toNat < 128) :
    parentComponent (l.map byte) = climbs l := by
  induction l with
  | nil => rfl
  | cons c rest ih =>
    have hrest : ∀ d ∈ rest, d.toNat < 128 := fun d hd => hl d (mem_cons_of_mem _ hd)
    have hslash : (byte c == 47) = (c == '/') := byte_beq (d := '/') (hl c mem_cons_self) (by decide)
    have hdot : ∀ d ∈ rest, (byte d == 46) = (d == '.') := fun d hd =>
      byte_beq (d := '.') (hrest d hd) (by decide)
    have hafter : ∀ d ∈ rest, (byte d == 47) = (d == '/') := fun d hd =>
      byte_beq (d := '/') (hrest d hd) (by decide)
    rw [map_cons, parentComponent, climbs, ih hrest, hslash, Bool.and_assoc]
    congr 2
    -- what follows the slash: fewer than two characters, two, or more
    rcases rest with _ | ⟨d, _ | ⟨e, _ | ⟨f, more⟩⟩⟩
    · rfl
    · simp [isPrefixOf]
    · simp [isPrefixOf, hdot d, hdot e]
    · simp only [map_cons, take_succ_cons, take_zero, drop_succ_cons,
        drop_zero, head?_cons, isPrefixOf, length_cons, length_map]
      simp [hdot d, hdot e, hafter f, BEq.comm (a := d), BEq.comm (a := e), BEq.comm (a := f),
        Bool.and_assoc]

theorem digit_of_isNumeral (h : ∀ c ∈ l, isNumeral c = true) :
    ∀ b ∈ l.map byte, digit b = true := by
  intro b hb
  obtain ⟨c, hc, rfl⟩ := mem_map.mp hb
  rw [digit_byte (ascii_of_isNumeral (h c hc))]
  exact h c hc

theorem ne_of_digit {b : UInt8} (h : digit b = true) : b ≠ 45 ∧ b ≠ 47 := by
  constructor <;> rintro rfl <;> cases h

theorem inputSinkValid_of_matchInputSink (hascii : ∀ c ∈ s.toList, c.toNat < 128)
    (hlen : s.toList.length ≤ 107) (hmatch : matchInputSink s = true)
    (hclimbs : climbs s.toList = false) : inputSinkValid (utf8Bytes s) = true := by
  unfold matchInputSink at hmatch
  split at hmatch
  · next rest hslash =>
    obtain ⟨before, name, hrest, hname⟩ := sinkAfterSlash_split hmatch
    obtain ⟨first, second, hfirst, hsecond, hfirstAll, hsecondAll, hsplit⟩ :=
      matchSinkName_split hname
    -- the bytes of the parts
    set start : Bytes := asciiBytes "qdwin-nested-input-".toList with hstart
    set ending : Bytes := asciiBytes ".sock".toList with hending
    have hstartLen : start.length = 19 := rfl
    have hendingLen : ending.length = 5 := rfl
    have hnameBytes : name.map byte =
        start ++ (first.map byte ++ 45 :: (second.map byte ++ ending)) := by
      rw [hsplit, map_append, map_append, map_cons, map_append]
      rfl
    have hbytes : utf8Bytes s = (47 :: before.map byte) ++ 47 :: name.map byte := by
      rw [utf8Bytes_ascii hascii, hslash, hrest, map_cons, map_append, map_cons]
      rfl
    have hfirstDigits := digit_of_isNumeral hfirstAll
    have hsecondDigits := digit_of_isNumeral hsecondAll
    have hnoSlash : ∀ b ∈ name.map byte, b ≠ 47 := by
      intro b hb
      rw [hnameBytes] at hb
      simp only [mem_append, mem_cons] at hb
      rcases hb with hb | hb | rfl | hb | hb
      · exact (by decide +kernel : ∀ b ∈ start, b ≠ 47) b hb
      · exact (ne_of_digit (hfirstDigits b hb)).2
      · decide
      · exact (ne_of_digit (hsecondDigits b hb)).2
      · exact (by decide +kernel : ∀ b ∈ ending, b ≠ 47) b hb
    have hbase : basename (utf8Bytes s) = name.map byte := by
      rw [hbytes]
      exact basename_append hnoSlash
    obtain ⟨c, digits, hcons, -⟩ := isPositiveDecimal_eq_cons hfirst
    have hsize : (name.map byte).length = 25 + (first.map byte).length + (second.map byte).length := by
      rw [hnameBytes]
      simp only [length_append, length_cons, hstartLen, hendingLen]
      omega
    have htotal : (utf8Bytes s).length ≤ 107 := by
      rw [utf8Bytes_ascii hascii, length_map]
      exact hlen
    have hends : (utf8Bytes s).drop ((utf8Bytes s).length - 5) = ending := by
      have hwhole : utf8Bytes s = ((47 :: before.map byte) ++
          47 :: (start ++ (first.map byte ++ 45 :: second.map byte))) ++ ending := by
        rw [hbytes, hnameBytes]
        simp
      rw [hwhole, length_append, hendingLen, Nat.add_sub_cancel, drop_left]
    have hnumbers : ((name.map byte).drop 19).take ((name.map byte).length - 24) =
        first.map byte ++ 45 :: second.map byte := by
      rw [hsize, hnameBytes, drop_left' hstartLen, ← cons_append, ← append_assoc]
      refine take_left' ?_
      rw [length_append, length_cons]
      omega
    have hnoDash : ∀ b ∈ first.map byte, (b != 45) = true := by
      intro b hb
      simpa using (ne_of_digit (hfirstDigits b hb)).1
    have hclimbs' : parentComponent (utf8Bytes s) = false := by
      rw [utf8Bytes_ascii hascii, parentComponent_map hascii]
      exact hclimbs
    unfold inputSinkValid
    rw [if_neg]
    · dsimp only
      rw [hbase, if_neg, hnumbers, dropWhile_append_of_pos hnoDash,
        takeWhile_append_of_pos hnoDash]
      · simp [positiveDecimal_map hfirst, positiveDecimal_map hsecond]
      · rw [hends]
        simp only [not_or, not_le, not_not]
        refine ⟨?_, ?_, rfl⟩
        · rw [hsize, hcons]
          simp only [map_cons, length_cons]
          omega
        · rw [hnameBytes, ← hstartLen, take_left]
    · simp only [not_or, not_lt, not_not]
      refine ⟨?_, htotal, ?_, ?_⟩
      · rw [hbytes]
        simp only [length_append, length_cons]
        omega
      · rw [hbytes]
        rfl
      · rw [hclimbs']
        decide
  · cases hmatch

end HelperC

end RemoteNested
