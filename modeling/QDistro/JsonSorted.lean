/-
# Values with sorted keys

`json.dumps(..., sort_keys=True)` writes the fields of every object in key order, so
reading its text back gives the value with sorted keys (`loads_dumpsSorted`).  Sorting
keys is idempotent and does not change what a key is bound to.
-/
import QDistro.JsonRoundTrip

namespace JsonText

open PyDict

/-! ## Fields -/

theorem sortKeysFields_eq_map (fs : List (String × Json)) :
    sortKeysFields fs = fs.map fun f => (f.1, sortKeys f.2) := by
  induction fs with
  | nil => rw [sortKeysFields, List.map_nil]
  | cons f fs ih =>
    obtain ⟨k, v⟩ := f
    rw [sortKeysFields, ih, List.map_cons]

theorem sortKeysItems_eq_map (vs : List Json) : sortKeysItems vs = vs.map sortKeys := by
  induction vs with
  | nil => rw [sortKeysItems, List.map_nil]
  | cons v vs ih => rw [sortKeysItems, ih, List.map_cons]

theorem distinctFields_iff (fs : List (String × Json)) :
    DistinctFields fs ↔ ∀ f ∈ fs, Distinct f.2 := by
  induction fs with
  | nil => simp [DistinctFields]
  | cons f fs ih =>
    obtain ⟨k, v⟩ := f
    rw [DistinctFields, ih]
    simp

theorem distinctItems_iff (vs : List Json) : DistinctItems vs ↔ ∀ v ∈ vs, Distinct v := by
  induction vs with
  | nil => simp [DistinctItems]
  | cons v vs ih =>
    rw [DistinctItems, ih]
    simp

theorem keys_sortFields_perm (fs : List (String × Json)) :
    ((sortFields (sortKeysFields fs)).map Prod.fst).Perm (fs.map Prod.fst) := by
  have hperm : (sortFields (sortKeysFields fs)).Perm (sortKeysFields fs) :=
    List.perm_insertionSort _ _
  have hkeys : (sortKeysFields fs).map Prod.fst = fs.map Prod.fst := by
    rw [sortKeysFields_eq_map, List.map_map]
    rfl
  rw [← hkeys]
  exact hperm.map Prod.fst

/-! ## Sorting a value -/

mutual

theorem distinct_sortKeys : ∀ v : Json, Distinct v → Distinct (sortKeys v)
  | .null, _ => by rw [sortKeys] <;> simp [Distinct]
  | .bool _, _ => by rw [sortKeys] <;> simp [Distinct]
  | .int _, _ => by rw [sortKeys] <;> simp [Distinct]
  | .float _, _ => by rw [sortKeys] <;> simp [Distinct]
  | .str _, _ => by rw [sortKeys] <;> simp [Distinct]
  | .arr items, h => by
    rw [Distinct] at h
    rw [sortKeys, Distinct]
    exact distinctItems_sortKeys items h
  | .obj fs, h => by
    rw [Distinct] at h
    rw [sortKeys, Distinct]
    refine ⟨(keys_sortFields_perm fs).nodup_iff.mpr h.1, ?_⟩
    rw [distinctFields_iff]
    intro f hf
    have hmem : f ∈ sortKeysFields fs := (List.perm_insertionSort _ _).subset hf
    exact (distinctFields_iff _).mp (distinctFields_sortKeys fs h.2) f hmem

theorem distinctItems_sortKeys : ∀ vs : List Json, DistinctItems vs →
    DistinctItems (sortKeysItems vs)
  | [], _ => by
    rw [sortKeysItems, DistinctItems]
    trivial
  | v :: vs, h => by
    rw [DistinctItems] at h
    rw [sortKeysItems, DistinctItems]
    exact ⟨distinct_sortKeys v h.1, distinctItems_sortKeys vs h.2⟩

theorem distinctFields_sortKeys : ∀ fs : List (String × Json), DistinctFields fs →
    DistinctFields (sortKeysFields fs)
  | [], _ => by
    rw [sortKeysFields, DistinctFields]
    trivial
  | (k, v) :: fs, h => by
    rw [DistinctFields] at h
    rw [sortKeysFields, DistinctFields]
    exact ⟨distinct_sortKeys v h.1, distinctFields_sortKeys fs h.2⟩

end

/-- **The text written with sorted keys is read back with sorted keys.** -/
theorem loads_dumpsSorted (seps : Seps) {v : Json} (h : Distinct v) :
    loads (dumpsSorted seps v) = some (sortKeys v) :=
  loads_dumps seps _ (distinct_sortKeys v h)

instance : Std.Total fun a b : String × Json => a.1 ≤ b.1 := ⟨fun a b => le_total a.1 b.1⟩

instance : IsTrans (String × Json) fun a b => a.1 ≤ b.1 := ⟨fun _ _ _ => le_trans⟩

theorem sortFields_sortFields (fs : List (String × Json)) :
    sortFields (sortFields fs) = sortFields fs :=
  (List.pairwise_insertionSort _ fs).insertionSort_eq

theorem sortKeysFields_sortFields (fs : List (String × Json)) :
    sortKeysFields (sortFields fs) = sortFields (sortKeysFields fs) := by
  rw [sortKeysFields_eq_map, sortKeysFields_eq_map]
  exact List.map_insertionSort _ _ _ _ fun a _ b _ => Iff.rfl

mutual

theorem sortKeys_sortKeys : ∀ v : Json, sortKeys (sortKeys v) = sortKeys v
  | .null => by simp [sortKeys]
  | .bool _ => by simp [sortKeys]
  | .int _ => by simp [sortKeys]
  | .float _ => by simp [sortKeys]
  | .str _ => by simp [sortKeys]
  | .arr items => by rw [sortKeys, sortKeys, sortKeysItems_sortKeysItems items]
  | .obj fs => by
    rw [sortKeys, sortKeys, sortKeysFields_sortFields, sortKeysFields_sortKeysFields fs,
      sortFields_sortFields]

theorem sortKeysItems_sortKeysItems : ∀ vs : List Json,
    sortKeysItems (sortKeysItems vs) = sortKeysItems vs
  | [] => by rw [sortKeysItems, sortKeysItems]
  | v :: vs => by
    rw [sortKeysItems, sortKeysItems, sortKeys_sortKeys v, sortKeysItems_sortKeysItems vs]

theorem sortKeysFields_sortKeysFields : ∀ fs : List (String × Json),
    sortKeysFields (sortKeysFields fs) = sortKeysFields fs
  | [] => by rw [sortKeysFields, sortKeysFields]
  | (k, v) :: fs => by
    rw [sortKeysFields, sortKeysFields, sortKeys_sortKeys v, sortKeysFields_sortKeysFields fs]

end

@[simp] theorem sortKeys_str (s : String) : sortKeys (.str s) = .str s := by simp [sortKeys]

/-! ## Lookups -/

theorem lookup_perm {fs gs : List (String × Json)} (hnd : (fs.map Prod.fst).Nodup)
    (h : fs.Perm gs) (k : String) : lookup fs k = lookup gs k := by
  have hnd' : (gs.map Prod.fst).Nodup := (h.map Prod.fst).nodup_iff.mp hnd
  apply Option.ext
  intro v
  constructor
  · intro hv
    exact lookup_of_mem hnd' (h.subset (lookup_mem hv))
  · intro hv
    exact lookup_of_mem hnd (h.symm.subset (lookup_mem hv))

theorem lookup_sortKeysFields (fs : List (String × Json)) (k : String) :
    lookup (sortKeysFields fs) k = (lookup fs k).map sortKeys := by
  induction fs with
  | nil => rw [sortKeysFields, lookup, Option.map_none]
  | cons f fs ih =>
    obtain ⟨k', v⟩ := f
    rw [sortKeysFields, lookup, lookup, ih]
    split <;> rfl

/-- **A key is bound to its sorted value.** -/
theorem lookup_sortFields {fs : List (String × Json)} (hnd : (fs.map Prod.fst).Nodup) (k : String) :
    lookup (sortFields (sortKeysFields fs)) k = (lookup fs k).map sortKeys := by
  rw [← lookup_sortKeysFields]
  have hperm : (sortFields (sortKeysFields fs)).Perm (sortKeysFields fs) :=
    List.perm_insertionSort _ _
  exact lookup_perm ((keys_sortFields_perm fs).nodup_iff.mpr hnd) hperm k

/-! ## What is read is a dictionary -/

theorem mem_put {d : List (String × Json)} {k : String} {v : Json} {f : String × Json}
    (h : f ∈ put d k v) : f = (k, v) ∨ f ∈ d := by
  induction d with
  | nil => exact .inl (by simpa [put] using h)
  | cons e d ih =>
    obtain ⟨k', v'⟩ := e
    rw [put] at h
    split at h
    · rcases List.mem_cons.mp h with rfl | h
      · exact .inl rfl
      · exact .inr (List.mem_cons_of_mem _ h)
    · rcases List.mem_cons.mp h with rfl | h
      · exact .inr List.mem_cons_self
      · exact (ih h).imp_right (List.mem_cons_of_mem _)

theorem dictOf_spec (fs : List (String × Json)) :
    ((dictOf fs).map Prod.fst).Nodup ∧ ∀ f ∈ dictOf fs, f ∈ fs := by
  have hfold : ∀ (fs d : List (String × Json)), (d.map Prod.fst).Nodup →
      ((fs.foldl (fun d kv => put d kv.1 kv.2) d).map Prod.fst).Nodup ∧
        ∀ f ∈ fs.foldl (fun d kv => put d kv.1 kv.2) d, f ∈ fs ∨ f ∈ d := by
    intro fs
    induction fs with
    | nil => exact fun d hd => ⟨hd, fun f hf => .inr hf⟩
    | cons kv fs ih =>
      intro d hd
      obtain ⟨hnd, hmem⟩ := ih (put d kv.1 kv.2) (nodup_keys_put d _ _ hd)
      refine ⟨hnd, fun f hf => ?_⟩
      rcases hmem f hf with h | h
      · exact .inl (List.mem_cons_of_mem _ h)
      · rcases mem_put h with rfl | h
        · exact .inl List.mem_cons_self
        · exact .inr h
  obtain ⟨hnd, hmem⟩ := hfold fs [] (by simp)
  exact ⟨hnd, fun f hf => (hmem f hf).resolve_right (by simp)⟩

theorem distinct_parseAtom {t : List Char} {p : Json × List Char} (h : parseAtom t = some p) :
    Distinct p.1 := by
  have hnum : ∀ {t : List Char}, parseNumber t = some p → Distinct p.1 := by
    intro t h
    rw [parseNumber, numberOf] at h
    split at h
    · rw [← Option.some.inj h]
      simp [Distinct]
    · split at h
      · rw [← Option.some.inj h]
        simp [Distinct]
      · exact absurd h (by simp)
  unfold parseAtom at h
  split at h
  all_goals first
    | exact hnum h
    | (rw [← Option.some.inj h]; simp [Distinct])

theorem distinct_parse (n : ℕ) :
    (∀ t p, parseValue n t = some p → Distinct p.1) ∧
      (∀ t p, parseItems n t = some p → DistinctItems p.1) ∧
      (∀ t p, parseField n t = some p → Distinct p.1.2) ∧
      ∀ t p, parseFields n t = some p → DistinctFields p.1 := by
  induction n with
  | zero =>
    refine ⟨?_, ?_, ?_, ?_⟩
    · intro t p h
      simp [parseValue] at h
    · intro t p h
      simp [parseItems] at h
    · intro t p h
      simp [parseField] at h
    · intro t p h
      simp [parseFields] at h
  | succ n ih =>
    obtain ⟨hval, hitems, hfield, hfields⟩ := ih
    refine ⟨?_, ?_, ?_, ?_⟩
    · intro t p h
      unfold parseValue at h
      split at h
      · obtain ⟨q, -, rfl⟩ := Option.map_eq_some_iff.mp h
        simp [Distinct]
      · split at h
        · rw [← Option.some.inj h]
          simp [Distinct, DistinctItems]
        · obtain ⟨q, hq, h⟩ := Option.bind_eq_some_iff.mp h
          obtain ⟨r, hr, rfl⟩ := Option.map_eq_some_iff.mp h
          rw [Distinct, DistinctItems]
          exact ⟨hval _ _ hq, hitems _ _ hr⟩
      · split at h
        · rw [← Option.some.inj h]
          simp [Distinct, DistinctFields]
        · obtain ⟨q, hq, h⟩ := Option.bind_eq_some_iff.mp h
          obtain ⟨r, hr, rfl⟩ := Option.map_eq_some_iff.mp h
          obtain ⟨hnd, hmem⟩ := dictOf_spec (q.1 :: r.1)
          rw [Distinct]
          refine ⟨hnd, (distinctFields_iff _).mpr fun f hf => ?_⟩
          rcases List.mem_cons.mp (hmem f hf) with rfl | hf
          · exact hfield _ _ hq
          · exact (distinctFields_iff _).mp (hfields _ _ hr) f hf
      · exact distinct_parseAtom h
    · intro t p h
      unfold parseItems at h
      split at h
      · rw [← Option.some.inj h]
        simp [DistinctItems]
      · obtain ⟨q, hq, h⟩ := Option.bind_eq_some_iff.mp h
        obtain ⟨r, hr, rfl⟩ := Option.map_eq_some_iff.mp h
        rw [DistinctItems]
        exact ⟨hval _ _ hq, hitems _ _ hr⟩
      · exact absurd h (by simp)
    · intro t p h
      unfold parseField at h
      split at h
      · obtain ⟨q, -, h⟩ := Option.bind_eq_some_iff.mp h
        split at h
        · obtain ⟨r, hr, rfl⟩ := Option.map_eq_some_iff.mp h
          exact hval _ _ hr
        · exact absurd h (by simp)
      · exact absurd h (by simp)
    · intro t p h
      unfold parseFields at h
      split at h
      · rw [← Option.some.inj h]
        simp [DistinctFields]
      · obtain ⟨q, hq, h⟩ := Option.bind_eq_some_iff.mp h
        obtain ⟨r, hr, rfl⟩ := Option.map_eq_some_iff.mp h
        obtain ⟨⟨k, v⟩, rest⟩ := q
        rw [DistinctFields]
        exact ⟨hfield _ _ hq, hfields _ _ hr⟩
      · exact absurd h (by simp)

/-- **A value read from a text has distinct keys.** -/
theorem distinct_loads {t : List Char} {v : Json} (h : loads t = some v) : Distinct v := by
  rw [loads] at h
  obtain ⟨p, hp, h⟩ := Option.bind_eq_some_iff.mp h
  split at h
  · rw [← Option.some.inj h]
    exact (distinct_parse _).1 _ _ hp
  · exact absurd h (by simp)

theorem distinct_put {fs : List (String × Json)} (h : Distinct (.obj fs)) (k : String) {v : Json}
    (hv : Distinct v) : Distinct (.obj (put fs k v)) := by
  rw [Distinct] at h ⊢
  refine ⟨nodup_keys_put fs k v h.1, (distinctFields_iff _).mpr fun f hf => ?_⟩
  rcases mem_put hf with rfl | hf
  · exact hv
  · exact (distinctFields_iff _).mp h.2 f hf

end JsonText
