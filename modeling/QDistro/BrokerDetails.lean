/-
# Request details

A permission request carries a `details` mapping of texts supplied by the caller.
The broker reads it twice: raw, when it consults rules and cached approvals, and
sanitised, when it keeps the request for the admin.  This file has the two readings
and the selectors taken from them.
-/
import QDistro.PyDict
import QDistro.PyText
import Mathlib.Data.List.Sort

namespace Broker

/-- The `a{sv}` details of a request, with every value as `str` renders it. -/
abbrev Details := PyDict String String

variable (u : UnicodeDb)

/-! ## Sanitising -/

/-- Keep tabs, blanks and printable characters. -/
def scrub (s : String) : String :=
  String.ofList (s.toList.filter fun c => c == '\t' || c == ' ' || u.isprintable c)

/-- `MAX_VAL` -/
def maxVal : ℕ := 1024

/-- `MAX_KEYS` -/
def maxKeys : ℕ := 32

/-- The loop of `_sanitize_details`, with the mapping built so far. -/
def sanitizeLoop : List (String × String) → Details → Details
  | [], out => out
  | (k, v) :: rest, out =>
    if maxKeys ≤ out.size then out
    else
      let key := PyText.slice (scrub u k) 64
      let val := PyText.slice (scrub u v) maxVal
      sanitizeLoop rest (if key = "" then out else out.insert key val)

/-- `_sanitize_details` -/
def sanitizeDetails (raw : Details) : Details := sanitizeLoop u raw.entries ∅

/-! ## The argument vector -/

/-- The value of a run of decimal digits. -/
def digitsValue (digits : List Char) : Option ℕ :=
  (digits.mapM u.decimal).map fun ds => ds.foldl (fun n d => 10 * n + d) 0

/-- The index in a key of the form `argv[NN]`, with two to four digits. -/
def argvKeyIndex (k : String) : Option ℕ :=
  match k.toList with
  | 'a' :: 'r' :: 'g' :: 'v' :: '[' :: rest =>
    if rest.getLast? = some ']' ∧ 3 ≤ rest.length ∧ rest.length ≤ 5 then
      digitsValue u rest.dropLast
    else none
  | _ => none

/-- One entry's contribution to the argument vector; indices past the cap are dropped. -/
def argvItem (e : String × String) : Option (ℕ × String) :=
  (argvKeyIndex u e.1).bind fun idx => if 1024 < idx then none else some (idx, e.2)

/-- The indexed arguments in the order of the mapping. -/
def argvItems (entries : List (String × String)) : List (ℕ × String) :=
  entries.filterMap (argvItem u)

/-- `_argv_from_details`: the arguments by index, or `none` without an `argv[00]`. -/
def argvFromDetails (details : Details) : Option (List String) :=
  let indexed := argvItems u details.entries
  if indexed.any fun e => e.1 == 0 && e.2 != "" then
    some ((indexed.insertionSort fun a b => a.1 ≤ b.1).map Prod.snd)
  else none

/-- `_selector_from_details` -/
def selectorFromDetails (details : Details) (key : String) : String :=
  PyText.slice ((details.get? key).getD "") 128

/-- `dict(details, app_id=app, sandbox_engine=engine)` -/
def withSelectors (details : Details) (app engine : String) : Details :=
  (details.insert "app_id" app).insert "sandbox_engine" engine

/-! ## Selectors do not disturb the argument vector -/

variable {u}

theorem argvItems_put {k : String} (hk : argvKeyIndex u k = none) (v : String)
    (l : List (String × String)) : argvItems u (PyDict.put l k v) = argvItems u l := by
  have hitem : ∀ w, argvItem u (k, w) = none := by
    intro w
    rw [argvItem, hk, Option.bind_none]
  induction l with
  | nil => rw [PyDict.put, argvItems, List.filterMap_cons_none (hitem v)]; rfl
  | cons e rest ih =>
    obtain ⟨k', w⟩ := e
    rw [PyDict.put]
    split
    · next h =>
      subst h
      rw [argvItems, argvItems, List.filterMap_cons_none (hitem v),
        List.filterMap_cons_none (hitem w)]
    · simp only [argvItems, List.filterMap_cons] at ih ⊢
      rw [ih]

theorem argvFromDetails_insert {k : String} (hk : argvKeyIndex u k = none) (v : String)
    (d : Details) : argvFromDetails u (d.insert k v) = argvFromDetails u d := by
  rw [argvFromDetails, argvFromDetails, PyDict.insert, argvItems_put hk]

theorem argvFromDetails_withSelectors (d : Details) (app engine : String) :
    argvFromDetails u (withSelectors d app engine) = argvFromDetails u d := by
  rw [withSelectors, argvFromDetails_insert rfl, argvFromDetails_insert rfl]

/-! ## Where the arguments come from -/

/-- The arguments are those of the mapping, each from a key with an index of its own, and the first
is a non-empty text from a key with index zero. -/
def Sourced (u : UnicodeDb) (d : Details) (argv : List String) : Prop :=
  ∃ program rest, (program :: rest).Perm (argvItems u d.entries) ∧
    argv = (program :: rest).map Prod.snd ∧ program.1 = 0 ∧ program.2 ≠ "" ∧
    ((program :: rest).map Prod.fst).Nodup

/-- No two keys denote the same index up to the cap. -/
def DistinctIndices (u : UnicodeDb) (d : Details) : Prop :=
  d.entries.Pairwise fun e e' =>
    ∀ i ≤ 1024, ¬ (argvKeyIndex u e.1 = some i ∧ argvKeyIndex u e'.1 = some i)

theorem argvItem_eq_some {e : String × String} {i : ℕ} {v : String} :
    argvItem u e = some (i, v) ↔ argvKeyIndex u e.1 = some i ∧ i ≤ 1024 ∧ e.2 = v := by
  rw [argvItem, Option.bind_eq_some_iff]
  constructor
  · rintro ⟨idx, hkey, hidx⟩
    split_ifs at hidx with hcap
    cases hidx
    exact ⟨hkey, by omega, rfl⟩
  · rintro ⟨hkey, hcap, rfl⟩
    exact ⟨i, hkey, if_neg (by omega)⟩

theorem distinctIndices_iff {d : Details} :
    DistinctIndices u d ↔ ((argvItems u d.entries).map Prod.fst).Nodup := by
  rw [DistinctIndices, argvItems, List.Nodup, List.pairwise_map, List.pairwise_filterMap]
  refine List.Pairwise.iff fun e e' => ?_
  constructor
  · rintro h ⟨i, v⟩ hi ⟨j, w⟩ hj rfl
    obtain ⟨hi, hle, -⟩ := argvItem_eq_some.mp hi
    exact h i hle ⟨hi, (argvItem_eq_some.mp hj).1⟩
  · rintro h i hle ⟨hi, hj⟩
    exact h (i, e.2) (argvItem_eq_some.mpr ⟨hi, hle, rfl⟩) (i, e'.2)
      (argvItem_eq_some.mpr ⟨hj, hle, rfl⟩) rfl

theorem sourced_sort {d : Details} {v : String} (hmem : (0, v) ∈ argvItems u d.entries)
    (hv : v ≠ "") (hnodup : ((argvItems u d.entries).map Prod.fst).Nodup) :
    Sourced u d (((argvItems u d.entries).insertionSort fun a b => a.1 ≤ b.1).map Prod.snd) := by
  have hperm := List.perm_insertionSort (fun a b : ℕ × String => a.1 ≤ b.1)
    (argvItems u d.entries)
  have hsorted := List.pairwise_insertionSort (fun a b : ℕ × String => a.1 ≤ b.1)
    (argvItems u d.entries)
  have hnodup' := (hperm.map Prod.fst).nodup_iff.mpr hnodup
  have hmem' := hperm.mem_iff.mpr hmem
  generalize (argvItems u d.entries).insertionSort (fun a b => a.1 ≤ b.1) = sorted at *
  cases sorted with
  | nil => cases hmem'
  | cons program rest =>
    have hzero : program.1 = 0 := by
      rcases List.mem_cons.mp hmem' with rfl | hrest
      · rfl
      · have := (List.pairwise_cons.mp hsorted).1 _ hrest
        omega
    have hprogram : (0, v) = program :=
      List.inj_on_of_nodup_map hnodup' hmem' List.mem_cons_self hzero.symm
    exact ⟨program, rest, hperm, rfl, hzero, hprogram ▸ hv, hnodup'⟩

/-- **Arguments are sourced** exactly when no program is given, and there are none, or no two keys
denote the same index. -/
theorem argvFromDetails_sourced_iff (u : UnicodeDb) (d : Details) :
    (∀ argv, argvFromDetails u d = some argv → Sourced u d argv) ↔
      (∀ e ∈ d.entries, argvKeyIndex u e.1 = some 0 → e.2 = "") ∨ DistinctIndices u d := by
  rw [distinctIndices_iff]
  by_cases hprogram : ∀ e ∈ d.entries, argvKeyIndex u e.1 = some 0 → e.2 = ""
  · refine iff_of_true (fun argv h => ?_) (.inl hprogram)
    rw [argvFromDetails, if_neg] at h
    · cases h
    · rw [List.any_eq_true]
      rintro ⟨⟨i, v⟩, hitem, hzero⟩
      obtain ⟨e, he, hitem⟩ := List.mem_filterMap.mp hitem
      obtain ⟨hi, -, rfl⟩ := argvItem_eq_some.mp hitem
      simp only [Bool.and_eq_true, beq_iff_eq, bne_iff_ne] at hzero
      exact hzero.2 (hprogram e he (hzero.1 ▸ hi))
  · push Not at hprogram
    obtain ⟨e, he, hi, hv⟩ := hprogram
    have hitem : (0, e.2) ∈ argvItems u d.entries :=
      List.mem_filterMap.mpr ⟨e, he, argvItem_eq_some.mpr ⟨hi, Nat.zero_le _, rfl⟩⟩
    have hsome : argvFromDetails u d = some (((argvItems u d.entries).insertionSort
        fun a b => a.1 ≤ b.1).map Prod.snd) := by
      rw [argvFromDetails, if_pos (List.any_eq_true.mpr ⟨_, hitem, by simpa using hv⟩)]
    rw [hsome]
    constructor
    · intro h
      obtain ⟨program, rest, hperm, -, -, -, hnodup⟩ := h _ rfl
      exact .inr ((hperm.map Prod.fst).nodup_iff.mp hnodup)
    · rintro (hnone | hnodup) argv hargv
      · exact absurd (hnone e he hi) hv
      · exact Option.some.inj hargv ▸ sourced_sort hitem hv hnodup

/-- Two spellings of index zero: the program is empty, and the other text is its argument. -/
theorem two_programs_unsourced :
    argvFromDetails .ascii ((PyDict.insert ∅ "argv[00]" "").insert "argv[000]" "sh") =
      some ["", "sh"] ∧
    ¬ Sourced .ascii ((PyDict.insert ∅ "argv[00]" "").insert "argv[000]" "sh") ["", "sh"] := by
  refine ⟨by decide +kernel, ?_⟩
  rintro ⟨program, rest, -, hargv, -, hne, -⟩
  exact hne (List.cons.inj hargv).1.symm

end Broker
