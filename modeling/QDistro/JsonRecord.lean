/-
# Flat JSON records

Two facts about records written with sorted keys: the text has no control character
(`le_of_mem_dumps`), and it determines the values of the record
(`dumpsSorted_record_injective`), provided these are atoms.
-/
import QDistro.JsonRoundTrip

namespace JsonText

open List

/-! ## The alphabet of a JSON text -/

variable {c : Char}

theorem le_of_isNumChar (h : isNumChar c = true) : 32 ≤ c.toNat := by
  rw [isNumChar] at h
  simp only [Bool.or_eq_true, beq_iff_eq] at h
  rcases h with ((((h | rfl) | rfl) | rfl) | rfl) | rfl
  · have := (Char.isDigit_iff_toNat.mp h).1
    simp only [Char.reduceToNat] at this
    omega
  all_goals decide

theorem le_of_mem_float (f : FloatLit) (h : c ∈ f.text) : 32 ≤ c.toNat := by
  have hwf := f.wf
  rw [Bool.or_eq_true] at hwf
  rcases hwf with hs | hf
  · rw [isSpecialText] at hs
    simp only [Bool.or_eq_true, beq_iff_eq] at hs
    have hall : ∀ t ∈ ["NaN".toList, "Infinity".toList, "-Infinity".toList],
        ∀ c ∈ t, 32 ≤ c.toNat := by simp
    rcases hs with (hs | hs) | hs <;> rw [hs] at h <;> exact hall _ (by simp) c h
  · simp only [isFloatText, Bool.and_eq_true, all_eq_true] at hf
    exact le_of_isNumChar (hf.1.1.1 c h)

theorem le_digitChar : ∀ d, d < 16 → 32 ≤ (Nat.digitChar d).toNat := by decide

theorem le_of_mem_unitText {n : ℕ} (h : c ∈ unitText n) : 32 ≤ c.toNat := by
  rw [unitText] at h
  simp only [mem_cons, not_mem_nil, or_false] at h
  rcases h with rfl | rfl | rfl | rfl | rfl | rfl
  · decide
  · decide
  all_goals exact le_digitChar _ (Nat.mod_lt _ (by decide))

theorem le_of_mem_escapeChar {x : Char} (h : c ∈ escapeChar x) : 32 ≤ c.toNat := by
  rw [escapeChar] at h
  -- the two-character escapes, a printable character, one unit, a surrogate pair
  have hpair : ∀ d : Char, 32 ≤ d.toNat → c ∈ ['\\', d] → 32 ≤ c.toNat := by
    intro d hd hc
    simp only [mem_cons, not_mem_nil, or_false] at hc
    rcases hc with rfl | rfl
    · decide
    · exact hd
  split at h
  · exact hpair _ (by decide) h
  split at h
  · exact hpair _ (by decide) h
  split at h
  · exact hpair _ (by decide) h
  split at h
  · exact hpair _ (by decide) h
  split at h
  · exact hpair _ (by decide) h
  split at h
  · exact hpair _ (by decide) h
  split at h
  · exact hpair _ (by decide) h
  split at h
  · next hx =>
    rw [mem_singleton.mp h]
    exact hx.1
  split at h
  · exact le_of_mem_unitText h
  · rcases mem_append.mp h with h | h
    · exact le_of_mem_unitText h
    · exact le_of_mem_unitText h

theorem le_of_mem_strText {s : String} (h : c ∈ strText s) : 32 ≤ c.toNat := by
  rw [strText] at h
  simp only [cons_append, mem_cons, mem_append, mem_flatMap,
    not_mem_nil, or_false] at h
  rcases h with rfl | ⟨x, -, hc⟩ | rfl
  · decide
  · exact le_of_mem_escapeChar hc
  · decide

theorem le_of_mem_intText {n : ℤ} (h : c ∈ intText n) : 32 ≤ c.toNat :=
  le_of_isNumChar (isNumChar_of_mem_intText h)

theorem le_of_mem_pad {x : Char} {n : ℕ} (hx : 32 ≤ x.toNat) (h : c ∈ x :: replicate n ' ') :
    32 ≤ c.toNat := by
  rcases mem_cons.mp h with rfl | h
  · exact hx
  · rw [(mem_replicate.mp h).2]
    decide

theorem le_of_mem_item {seps : Seps} (h : c ∈ seps.item) : 32 ≤ c.toNat :=
  le_of_mem_pad (by decide) h

theorem le_of_mem_key {seps : Seps} (h : c ∈ seps.key) : 32 ≤ c.toNat :=
  le_of_mem_pad (by decide) h

mutual

theorem le_of_mem_dumps (seps : Seps) : ∀ v, c ∈ dumps seps v → 32 ≤ c.toNat
  | .null, h => by
    have : ∀ c ∈ ['n', 'u', 'l', 'l'], 32 ≤ c.toNat := by simp
    exact this c (by simpa only [dumps] using h)
  | .bool true, h => by
    have : ∀ c ∈ ['t', 'r', 'u', 'e'], 32 ≤ c.toNat := by simp
    exact this c (by simpa only [dumps] using h)
  | .bool false, h => by
    have : ∀ c ∈ ['f', 'a', 'l', 's', 'e'], 32 ≤ c.toNat := by simp
    exact this c (by simpa only [dumps] using h)
  | .int n, h => le_of_mem_intText (by simpa only [dumps] using h)
  | .float f, h => le_of_mem_float f (by simpa only [dumps] using h)
  | .str s, h => le_of_mem_strText (by simpa only [dumps] using h)
  | .arr [], h => by
    have : ∀ c ∈ ['[', ']'], 32 ≤ c.toNat := by simp
    exact this c (by simpa only [dumps] using h)
  | .arr (v :: vs), h => by
    rw [dumps, mem_cons, mem_append] at h
    rcases h with rfl | h | h
    · decide
    · exact le_of_mem_dumps seps v h
    · exact le_of_mem_dumpsItems seps vs h
  | .obj [], h => by
    have : ∀ c ∈ ['{', '}'], 32 ≤ c.toNat := by simp
    exact this c (by simpa only [dumps] using h)
  | .obj ((k, v) :: fs), h => by
    simp only [dumps, mem_cons, mem_append] at h
    rcases h with rfl | ((h | h) | h) | h
    · decide
    · exact le_of_mem_strText h
    · exact le_of_mem_key h
    · exact le_of_mem_dumps seps v h
    · exact le_of_mem_dumpsFields seps fs h

theorem le_of_mem_dumpsItems (seps : Seps) :
    ∀ vs, c ∈ dumpsItems seps vs → 32 ≤ c.toNat
  | [], h => by
    rw [dumpsItems, mem_singleton] at h
    rw [h]
    decide
  | v :: vs, h => by
    simp only [dumpsItems, mem_append] at h
    rcases h with (h | h) | h
    · exact le_of_mem_item h
    · exact le_of_mem_dumps seps v h
    · exact le_of_mem_dumpsItems seps vs h

theorem le_of_mem_dumpsFields (seps : Seps) :
    ∀ fs, c ∈ dumpsFields seps fs → 32 ≤ c.toNat
  | [], h => by
    rw [dumpsFields, mem_singleton] at h
    rw [h]
    decide
  | (k, v) :: fs, h => by
    simp only [dumpsFields, mem_append] at h
    rcases h with (((h | h) | h) | h) | h
    · exact le_of_mem_item h
    · exact le_of_mem_strText h
    · exact le_of_mem_key h
    · exact le_of_mem_dumps seps v h
    · exact le_of_mem_dumpsFields seps fs h

end

/-! ## Records of atoms -/

/-- A value without fields of its own. -/
def Json.isAtom : Json → Bool
  | .arr _ => false
  | .obj _ => false
  | _ => true

theorem sortKeys_of_isAtom {v : Json} (h : v.isAtom = true) : sortKeys v = v := by
  cases v with
  | arr _ => simp [Json.isAtom] at h
  | obj _ => simp [Json.isAtom] at h
  | _ => rw [sortKeys] <;> simp

theorem distinct_of_isAtom {v : Json} (h : v.isAtom = true) : Distinct v := by
  cases v with
  | arr _ => simp [Json.isAtom] at h
  | obj _ => simp [Json.isAtom] at h
  | _ => rw [Distinct] <;> simp

theorem sortKeysFields_atoms {fs : List (String × Json)} (h : ∀ f ∈ fs, f.2.isAtom = true) :
    sortKeysFields fs = fs := by
  induction fs with
  | nil => rw [sortKeysFields]
  | cons f fs ih =>
    obtain ⟨k, v⟩ := f
    rw [sortKeysFields, sortKeys_of_isAtom (h (k, v) mem_cons_self),
      ih fun f hf => h f (mem_cons_of_mem _ hf)]

theorem distinctFields_atoms {fs : List (String × Json)} (h : ∀ f ∈ fs, f.2.isAtom = true) :
    DistinctFields fs := by
  induction fs with
  | nil => rw [DistinctFields]; trivial
  | cons f fs ih =>
    obtain ⟨k, v⟩ := f
    rw [DistinctFields]
    exact ⟨distinct_of_isAtom (h (k, v) mem_cons_self),
      ih fun f hf => h f (mem_cons_of_mem _ hf)⟩

theorem eq_of_zip_perm {α β : Type} {ks : List α} {vs ws : List β} (hnd : ks.Nodup)
    (hv : vs.length = ks.length) (hw : ws.length = ks.length)
    (h : (ks.zip vs).Perm (ks.zip ws)) : vs = ws := by
  induction ks generalizing vs ws with
  | nil =>
    rw [length_nil, length_eq_zero_iff] at hv hw
    rw [hv, hw]
  | cons k ks ih =>
    cases vs with
    | nil => simp at hv
    | cons v vs =>
      cases ws with
      | nil => simp at hw
      | cons w ws =>
        rw [nodup_cons] at hnd
        rw [zip_cons_cons, zip_cons_cons] at h
        -- the pair of the first key can only be the first pair
        have hvw : v = w := by
          rcases mem_cons.mp (h.subset mem_cons_self) with he | he
          · exact (Prod.mk.inj he).2
          · exact absurd (of_mem_zip he).1 hnd.1
        subst hvw
        rw [ih hnd.2 (Nat.succ.inj hv) (Nat.succ.inj hw) ((perm_cons _).mp h)]

theorem sortKeys_record {fs : List (String × Json)} (h : ∀ f ∈ fs, f.2.isAtom = true) :
    sortKeys (.obj fs) = .obj (sortFields fs) := by
  rw [sortKeys, sortKeysFields_atoms h]

theorem sortFields_perm (fs : List (String × Json)) : (sortFields fs).Perm fs :=
  perm_insertionSort _ fs

theorem distinct_sortFields {fs : List (String × Json)} (hnd : (fs.map Prod.fst).Nodup)
    (h : ∀ f ∈ fs, f.2.isAtom = true) : Distinct (.obj (sortFields fs)) := by
  rw [Distinct]
  refine ⟨((sortFields_perm fs).map Prod.fst).nodup_iff.mpr hnd, ?_⟩
  exact distinctFields_atoms fun f hf => h f ((sortFields_perm fs).subset hf)

theorem map_fst_zip_nodup {α β : Type} {ks : List α} {vs : List β} (h : ks.Nodup)
    (hlen : vs.length = ks.length) : ((ks.zip vs).map Prod.fst).Nodup := by
  rw [map_fst_zip (Nat.le_of_eq hlen.symm)]
  exact h

/-- **The text of a record determines its values.** -/
theorem dumpsSorted_record_injective (seps : Seps) {ks : List String} {vs ws : List Json}
    (hnd : ks.Nodup) (hv : vs.length = ks.length) (hw : ws.length = ks.length)
    (hav : ∀ v ∈ vs, v.isAtom = true) (haw : ∀ w ∈ ws, w.isAtom = true)
    (h : dumpsSorted seps (.obj (ks.zip vs)) = dumpsSorted seps (.obj (ks.zip ws))) :
    vs = ws := by
  have hzv : ∀ f ∈ ks.zip vs, f.2.isAtom = true := fun f hf => hav _ (of_mem_zip hf).2
  have hzw : ∀ f ∈ ks.zip ws, f.2.isAtom = true := fun f hf => haw _ (of_mem_zip hf).2
  rw [dumpsSorted, dumpsSorted, sortKeys_record hzv, sortKeys_record hzw] at h
  have hobj := dumps_injective seps (distinct_sortFields (map_fst_zip_nodup hnd hv) hzv)
    (distinct_sortFields (map_fst_zip_nodup hnd hw) hzw) h
  have hsort : sortFields (ks.zip vs) = sortFields (ks.zip ws) := by
    injection hobj
  refine eq_of_zip_perm hnd hv hw ((sortFields_perm _).symm.trans ?_)
  rw [hsort]
  exact sortFields_perm _

end JsonText
