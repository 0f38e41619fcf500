/-
# Insertion-ordered dictionaries

A dictionary in the sense of the Python language: a finite map whose entries keep
the order in which their keys were first inserted.  Storing under a key that is
already there replaces the value in place and keeps the position.

The key list is duplicate-free by construction, so that a lookup is unambiguous
and a filter of the entries is again a dictionary.
-/
import Mathlib.Data.List.Nodup
import Mathlib.Data.List.Lattice

/-- A finite map that remembers insertion order. -/
structure PyDict (K V : Type*) where
  entries : List (K × V)
  /-- No key occurs twice. -/
  nodup : (entries.map Prod.fst).Nodup
  deriving DecidableEq

namespace PyDict

open List

variable {K V : Type*}

/-- The keys in insertion order. -/
def keys (d : PyDict K V) : List K := d.entries.map Prod.fst

/-- `{}` -/
def empty : PyDict K V := ⟨[], by simp⟩

instance : EmptyCollection (PyDict K V) := ⟨empty⟩
instance : Inhabited (PyDict K V) := ⟨empty⟩

/-- `len(d)` -/
def size (d : PyDict K V) : ℕ := d.entries.length

/-- Keep the entries that satisfy `p`. -/
def filter (d : PyDict K V) (p : K × V → Bool) : PyDict K V :=
  ⟨d.entries.filter p, d.nodup.sublist (List.filter_sublist.map _)⟩

variable [DecidableEq K]

/-- Look a key up in a list of entries. -/
def lookup : List (K × V) → K → Option V
  | [], _ => none
  | (k', v) :: rest, k => if k' = k then some v else lookup rest k

/-- Replace the value under `k` in place, or append a new entry. -/
def put : List (K × V) → K → V → List (K × V)
  | [], k, v => [(k, v)]
  | (k', w) :: rest, k, v =>
    if k' = k then (k, v) :: rest else (k', w) :: put rest k v

variable {l : List (K × V)} {k : K}

/-- A new key is appended. -/
theorem put_of_not_mem (h : k ∉ l.map Prod.fst) (v : V) :
    put l k v = l ++ [(k, v)] := by
  induction l with
  | nil => rfl
  | cons e rest ih =>
    obtain ⟨k', w⟩ := e
    rw [map_cons, mem_cons, not_or] at h
    rw [put, if_neg (Ne.symm h.1), ih h.2, cons_append]

theorem mem_keys_put (l : List (K × V)) (k : K) (v : V) (x : K) :
    x ∈ (put l k v).map Prod.fst ↔ x = k ∨ x ∈ l.map Prod.fst := by
  induction l with
  | nil => simp [put]
  | cons e rest ih =>
    obtain ⟨k', w⟩ := e
    rw [put]
    split
    · next h => subst h; simp
    · simp only [map_cons, mem_cons, ih]
      tauto

theorem nodup_keys_put (l : List (K × V)) (k : K) (v : V)
    (h : (l.map Prod.fst).Nodup) : ((put l k v).map Prod.fst).Nodup := by
  induction l with
  | nil => simp [put]
  | cons e rest ih =>
    obtain ⟨k', w⟩ := e
    rw [map_cons, nodup_cons] at h
    rw [put]
    split
    · next hk => subst hk; simpa using h
    · next hk =>
      rw [map_cons, nodup_cons, mem_keys_put]
      exact ⟨fun hc => hc.elim hk h.1, ih h.2⟩

/-- `d.get(k)` -/
def get? (d : PyDict K V) (k : K) : Option V := lookup d.entries k

/-- `d[k] = v` -/
def insert (d : PyDict K V) (k : K) (v : V) : PyDict K V :=
  ⟨put d.entries k v, nodup_keys_put _ _ _ d.nodup⟩

/-- `del d[k]`, or nothing when the key is absent. -/
def erase (d : PyDict K V) (k : K) : PyDict K V := d.filter (fun e => e.1 ≠ k)

/-! ## Lookup lemmas -/

@[simp] theorem get?_empty (k : K) : (∅ : PyDict K V).get? k = none := rfl

theorem lookup_put_self (l : List (K × V)) (k : K) (v : V) :
    lookup (put l k v) k = some v := by
  induction l with
  | nil => simp [put, lookup]
  | cons e rest ih =>
    obtain ⟨k', w⟩ := e
    rw [put]
    split
    · simp [lookup]
    · next hk => rw [lookup, if_neg hk, ih]

theorem lookup_put_of_ne (l : List (K × V)) {x : K} (v : V) (h : k ≠ x) :
    lookup (put l k v) x = lookup l x := by
  induction l with
  | nil => simp [put, lookup, h]
  | cons e rest ih =>
    obtain ⟨k', w⟩ := e
    rw [put]
    split
    · next hk => subst hk; simp [lookup, h]
    · rw [lookup, lookup, ih]

@[simp] theorem get?_insert_self (d : PyDict K V) (k : K) (v : V) :
    (d.insert k v).get? k = some v :=
  lookup_put_self d.entries k v

theorem get?_insert_of_ne (d : PyDict K V) {x : K} (v : V) (h : k ≠ x) :
    (d.insert k v).get? x = d.get? x :=
  lookup_put_of_ne d.entries v h

theorem lookup_mem {v : V} (h : lookup l k = some v) :
    (k, v) ∈ l := by
  induction l with
  | nil => simp [lookup] at h
  | cons e rest ih =>
    obtain ⟨k', w⟩ := e
    rw [lookup] at h
    split at h
    · next hk =>
      injection h with hw
      rw [hk, hw]
      exact mem_cons_self
    · exact mem_cons_of_mem _ (ih h)

theorem lookup_of_not_mem (h : k ∉ l.map Prod.fst) :
    lookup l k = none := by
  cases hv : lookup l k with
  | none => rfl
  | some v => exact absurd (mem_map.mpr ⟨_, lookup_mem hv, rfl⟩) h

theorem lookup_of_mem {v : V} (hnd : (l.map Prod.fst).Nodup) (h : (k, v) ∈ l) :
    lookup l k = some v := by
  induction l with
  | nil => simp at h
  | cons e rest ih =>
    obtain ⟨k', w⟩ := e
    rw [map_cons, nodup_cons] at hnd
    rw [lookup]
    rcases mem_cons.mp h with heq | hrest
    · injection heq with hk hv
      rw [if_pos hk.symm, hv]
    · have hne : k' ≠ k := by
        rintro rfl
        exact hnd.1 (mem_map.mpr ⟨_, hrest, rfl⟩)
      rw [if_neg hne]
      exact ih hnd.2 hrest

/-- A lookup finds exactly the entries of the dictionary. -/
theorem get?_eq_some_iff (d : PyDict K V) (k : K) (v : V) :
    d.get? k = some v ↔ (k, v) ∈ d.entries :=
  ⟨lookup_mem, lookup_of_mem d.nodup⟩

/-- Filtering keeps an entry exactly when the predicate accepts it. -/
theorem get?_filter_eq_some_iff (d : PyDict K V) (p : K × V → Bool) (k : K) (v : V) :
    (d.filter p).get? k = some v ↔ d.get? k = some v ∧ p (k, v) = true := by
  rw [get?_eq_some_iff, get?_eq_some_iff, filter, mem_filter]

@[simp] theorem get?_erase_self (d : PyDict K V) (k : K) : (d.erase k).get? k = none := by
  cases h : (d.erase k).get? k with
  | none => rfl
  | some v =>
    rw [erase, get?_filter_eq_some_iff] at h
    simp at h

theorem get?_erase_of_ne (d : PyDict K V) {x : K} (h : x ≠ k) :
    (d.erase k).get? x = d.get? x := by
  apply Option.ext
  intro v
  rw [erase, get?_filter_eq_some_iff]
  simp [h]

/-- An entry after an insertion is the new one or an old one. -/
theorem get?_insert_cases {d : PyDict K V} {x : K} {v w : V} (h : (d.insert k v).get? x = some w) :
    x = k ∧ w = v ∨ x ≠ k ∧ d.get? x = some w := by
  by_cases hx : x = k
  · subst hx
    rw [get?_insert_self] at h
    exact .inl ⟨rfl, (Option.some.inj h).symm⟩
  · rw [get?_insert_of_ne d v (Ne.symm hx)] at h
    exact .inr ⟨hx, h⟩

/-- An entry after a deletion is an old one under another key. -/
theorem get?_erase_cases {d : PyDict K V} {x : K} {w : V} (h : (d.erase k).get? x = some w) :
    x ≠ k ∧ d.get? x = some w := by
  by_cases hx : x = k
  · subst hx
    rw [get?_erase_self] at h
    exact absurd h (by simp)
  · rw [get?_erase_of_ne d hx] at h
    exact ⟨hx, h⟩

/-! ## Sizes -/

theorem size_erase_le (d : PyDict K V) (k : K) : (d.erase k).size ≤ d.size :=
  length_filter_le _ _

/-- Deleting a key that is there makes the dictionary smaller. -/
theorem size_erase_lt {d : PyDict K V} {v : V} (h : d.get? k = some v) :
    (d.erase k).size < d.size := by
  unfold size erase filter
  apply length_filter_lt_length_iff_exists.mpr
  exact ⟨(k, v), (get?_eq_some_iff d k v).mp h, by simp⟩

theorem length_put_le (l : List (K × V)) (k : K) (v : V) : (put l k v).length ≤ l.length + 1 := by
  induction l with
  | nil => simp [put]
  | cons e rest ih =>
    obtain ⟨k', w⟩ := e
    unfold put
    split
    · simp
    · simp only [length_cons]
      omega

theorem size_insert_le (d : PyDict K V) (k : K) (v : V) : (d.insert k v).size ≤ d.size + 1 :=
  length_put_le d.entries k v

theorem length_put_of_mem (h : lookup l k ≠ none) (v : V) :
    (put l k v).length = l.length := by
  induction l with
  | nil => exact absurd rfl h
  | cons e rest ih =>
    obtain ⟨k', w⟩ := e
    rw [lookup] at h
    rw [put]
    split at h
    · next hk => rw [if_pos hk, length_cons, length_cons]
    · next hk => rw [if_neg hk, length_cons, length_cons, ih h]

theorem size_insert_of_mem (d : PyDict K V) (h : d.get? k ≠ none) (v : V) :
    (d.insert k v).size = d.size :=
  length_put_of_mem h v

end PyDict
