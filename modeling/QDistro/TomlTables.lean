/-
# TOML tables

Reading the lines of `_emit_table` builds the table that they were written for, up to the order of its
keys: what is written under a path changes the table at that path and nothing else (`Effect`), so a
section may be taken as one key of the table above it.

A document is read back exactly when none of its keys breaks a line (`toml_reads_back_iff`).
-/
import QDistro.TomlText

open JsonText

namespace Toml

open PyDict
open List hiding lookup

/-! ## Tables are built as they were -/

theorem put_put (fs : Fields) (k : String) (v w : Json) :
    put (put fs k v) k w = put fs k w := by
  induction fs with
  | nil => simp [put]
  | cons f fs ih =>
    obtain ⟨k', v'⟩ := f
    by_cases h : k' = k
    · simp [put, h]
    · simp [put, h, ih]

theorem update_bind (f g : Fields → Option Fields) (path : List String) (fs : Fields) :
    (update f path fs).bind (update g path) = update (fun t => (f t).bind g) path fs := by
  induction path generalizing fs with
  | nil => rfl
  | cons k path ih =>
    rw [update, update]
    split
    next sub hsub =>
      rw [← ih, Option.bind_map, Option.map_bind]
      congr 1
      funext sub'
      simp only [Function.comp_apply]
      rw [update, lookup_put_self]
      simp only [put_put]
    next items hitems =>
      split
      next sub hsub =>
        rw [← ih, Option.bind_map, Option.map_bind]
        congr 1
        funext sub'
        simp only [Function.comp_apply]
        rw [update, lookup_put_self]
        simp only [getLast?_concat, dropLast_concat, put_put]
      next => rfl
    next => rfl

theorem update_snoc (f : Fields → Option Fields) (path : List String) (k : String) (fs : Fields) :
    update f (path ++ [k]) fs = update (update f [k]) path fs := by
  induction path generalizing fs with
  | nil => rfl
  | cons k' path ih =>
    rw [cons_append, update, update]
    simp only [ih]

/-! ## Sections -/

/-- Keys one after the other. -/
def addMany (new fs : Fields) : Option Fields := new.foldlM (fun t f => addKey f.1 f.2 t) fs

/-- The elements of an array of tables one after the other. -/
def addElements (k : String) (subs : List Fields) (fs : Fields) : Option Fields :=
  subs.foldlM (fun t sub => addElement k sub t) fs

/-- Arrays of tables one after the other. -/
def addArrays (new : List (String × List Fields)) (fs : Fields) : Option Fields :=
  new.foldlM (fun t a => addElements a.1 a.2 t) fs

/-- There is a table at the path. -/
def Reaches (path : List String) (fs : Fields) : Prop := update some path fs = some fs

variable {fs : Fields}

theorem reaches_of_update {f : Fields → Option Fields} {path : List String} {fs' : Fields}
    (h : update f path fs = some fs') : Reaches path fs' := by
  have hsame : (fun t => (f t).bind some) = f := by
    funext t
    cases f t <;> rfl
  have hbind := update_bind f some path fs
  rw [hsame, h] at hbind
  exact hbind

/-- The document after some lines, wherever the reader was before them: the table at the path is
changed. -/
def Effect (path : List String) (ls : List Line) (f : Fields → Option Fields) : Prop :=
  ∀ fs current, Reaches path fs → (ls.foldlM execute (fs, current)).map Prod.fst = update f path fs

theorem effect_nil (path : List String) : Effect path [] some := fun _ _ h => h.symm

theorem Effect.append {path : List String} {ls ls' : List Line} {f g : Fields → Option Fields}
    (h : Effect path ls f) (h' : Effect path ls' g) :
    Effect path (ls ++ ls') fun t => (f t).bind g := by
  intro fs current hreach
  have hfirst := h fs current hreach
  rw [← update_bind, ← hfirst, foldlM_append]
  show ((ls.foldlM execute (fs, current)).bind fun s => ls'.foldlM execute s).map Prod.fst = _
  cases hrun : ls.foldlM execute (fs, current) with
  | none => rfl
  | some s =>
    rw [hrun] at hfirst
    exact h' s.1 s.2 (reaches_of_update hfirst.symm)

theorem execute_assigns (new : Fields) {path : List String} (h : Reaches path fs) :
    (new.map fun f => Line.assign f.1 f.2).foldlM execute (fs, path) =
      (update (addMany new) path fs).map fun fs => (fs, path) := by
  induction new generalizing fs with
  | nil =>
    show some (fs, path) = (update some path fs).map _
    rw [show update some path fs = some fs from h]
    rfl
  | cons f new ih =>
    have hbind : update (addMany (f :: new)) path fs =
        (update (addKey f.1 f.2) path fs).bind (update (addMany new) path) := by
      rw [update_bind]
      rfl
    rw [map_cons, foldlM_cons, hbind]
    show ((update (addKey f.1 f.2) path fs).map _).bind _ = _
    cases hkey : update (addKey f.1 f.2) path fs with
    | none => rfl
    | some fs' => exact ih (reaches_of_update hkey)

variable {k : String}

theorem lookup_concat (h : k ∉ fs.map Prod.fst) (v : Json) :
    lookup (fs ++ [(k, v)]) k = some v := by
  rw [← put_of_not_mem h, lookup_put_self]

theorem put_concat (h : k ∉ fs.map Prod.fst) (v w : Json) :
    put (fs ++ [(k, v)]) k w = fs ++ [(k, w)] := by
  rw [← put_of_not_mem h, put_put, put_of_not_mem h]

theorem lookup_eq_none (h : lookup fs k = none) :
    k ∉ fs.map Prod.fst := by
  induction fs with
  | nil => exact not_mem_nil
  | cons f fs ih =>
    obtain ⟨k', v⟩ := f
    rw [lookup] at h
    split_ifs at h with hk
    rw [map_cons, mem_cons, not_or]
    exact ⟨fun heq => hk heq.symm, ih h⟩

theorem addKey_update (k : String) (f : Fields → Option Fields) (fs : Fields) :
    (addKey k (.obj []) fs).bind (update f [k]) = (f []).bind fun sub => addKey k (.obj sub) fs := by
  unfold addKey
  split_ifs with hk
  · cases f [] <;> rfl
  · rw [Option.bind_some, update, lookup_concat hk]
    simp only [update, put_concat hk]
    cases f [] <;> rfl

theorem addElement_update (k : String) (f : Fields → Option Fields) (fs : Fields) :
    (addElement k [] fs).bind (update f [k]) = (f []).bind fun sub => addElement k sub fs := by
  unfold addElement
  cases hlook : lookup fs k with
  | none =>
    have hk := lookup_eq_none hlook
    rw [Option.bind_some, update, lookup_concat hk]
    simp only [getLast?_singleton, update, put_concat hk]
    cases f [] <;> rfl
  | some v =>
    have hnone : (f []).bind (fun _ => (none : Option Fields)) = none := by cases f [] <;> rfl
    cases v with
    | arr items =>
      cases hlast : items.getLast? with
      | none =>
        simp only [hlast]
        exact hnone.symm
      | some item =>
        cases item with
        | obj sub =>
          simp only [hlast, Option.bind_some, update, lookup_put_self,
            getLast?_concat, dropLast_concat, put_put]
          cases f [] <;> rfl
        | _ =>
          simp only [hlast]
          exact hnone.symm
    | _ => exact hnone.symm

/-! ## Distinct keys -/

/-- The fields of arrays of tables. -/
def arrays (new : List (String × List Fields)) : Fields :=
  new.map fun a => (a.1, .arr (a.2.map .obj))

theorem addMany_eq {new : Fields} (h : ((fs ++ new).map Prod.fst).Nodup) :
    addMany new fs = some (fs ++ new) := by
  induction new generalizing fs with
  | nil =>
    rw [append_nil]
    rfl
  | cons f new ih =>
    have hsplit : fs ++ f :: new = fs ++ [f] ++ new := by simp
    have hk : f.1 ∉ fs.map Prod.fst := by
      rw [map_append, map_cons] at h
      exact fun hmem => (nodup_append.mp h).2.2 _ hmem _ mem_cons_self rfl
    rw [hsplit] at h ⊢
    rw [← ih h]
    show (addKey f.1 f.2 fs).bind _ = _
    rw [addKey, if_neg hk]
    rfl

theorem addElements_eq {subs : List Fields} (hne : subs ≠ []) (hk : k ∉ fs.map Prod.fst) :
    addElements k subs fs = some (fs ++ [(k, Json.arr (subs.map Json.obj))]) := by
  have hfirst : ∀ sub, addElement k sub fs = some (fs ++ [(k, Json.arr [Json.obj sub])]) := by
    intro sub
    have hnone : lookup fs k = none := by
      cases hlook : lookup fs k with
      | none => rfl
      | some v => exact absurd (mem_map.mpr ⟨_, lookup_mem hlook, rfl⟩) hk
    rw [addElement, hnone]
  have hrest : ∀ (subs : List Fields) (sub : Fields) (items : List Json),
      addElements k subs (fs ++ [(k, Json.arr (items ++ [Json.obj sub]))]) =
        some (fs ++ [(k, Json.arr (items ++ [Json.obj sub] ++ subs.map Json.obj))]) := by
    intro subs
    induction subs with
    | nil =>
      intro sub items
      rw [map_nil, append_nil]
      rfl
    | cons sub' subs ih =>
      intro sub items
      have hstep : addElement k sub' (fs ++ [(k, Json.arr (items ++ [Json.obj sub]))]) =
          some (fs ++ [(k, Json.arr (items ++ [Json.obj sub] ++ [Json.obj sub']))]) := by
        rw [addElement, lookup_concat hk]
        simp only [getLast?_concat, put_concat hk]
      show (addElement k sub' _).bind _ = _
      rw [hstep, Option.bind_some]
      show addElements k subs _ = _
      rw [ih]
      simp
  obtain ⟨sub, subs, rfl⟩ := exists_cons_of_ne_nil hne
  show (addElement k sub fs).bind _ = _
  rw [hfirst, Option.bind_some]
  exact hrest subs sub []

theorem addArrays_eq {new : List (String × List Fields)} (hne : ∀ a ∈ new, a.2 ≠ [])
    (h : ((fs ++ arrays new).map Prod.fst).Nodup) :
    addArrays new fs = some (fs ++ arrays new) := by
  induction new generalizing fs with
  | nil =>
    rw [arrays, map_nil, append_nil]
    rfl
  | cons a new ih =>
    have hsplit : fs ++ arrays (a :: new) = fs ++ [(a.1, Json.arr (a.2.map Json.obj))] ++ arrays new := by
      simp [arrays]
    have hk : a.1 ∉ fs.map Prod.fst := by
      rw [arrays, map_append, map_cons, map_cons] at h
      exact fun hmem => (nodup_append.mp h).2.2 _ hmem _ mem_cons_self rfl
    rw [hsplit] at h ⊢
    rw [← ih (fun x hx => hne x (mem_cons_of_mem _ hx)) h]
    show (addElements a.1 a.2 fs).bind _ = _
    rw [addElements_eq (hne a mem_cons_self) hk]
    rfl

theorem addMany_all {values tables : Fields} {elements : List (String × List Fields)}
    (hne : ∀ a ∈ elements, a.2 ≠ [])
    (hnodup : ((values ++ tables ++ arrays elements).map Prod.fst).Nodup) :
    ((addMany values []).bind fun t => (addMany tables t).bind (addArrays elements)) =
      some (values ++ tables ++ arrays elements) := by
  have hnodup₂ : ((values ++ tables).map Prod.fst).Nodup := by
    rw [map_append] at hnodup
    exact (nodup_append.mp hnodup).1
  have hnodup₁ : (values.map Prod.fst).Nodup := by
    rw [map_append] at hnodup₂
    exact (nodup_append.mp hnodup₂).1
  rw [@addMany_eq [] values hnodup₁]
  simp only [nil_append, Option.bind_some]
  rw [addMany_eq hnodup₂, Option.bind_some, addArrays_eq hne hnodup]

/-! ## What lines are written for -/

/-- The lines of a table do what its values, sub-tables and arrays of tables say. -/
structure Writes (path : List String) (p : Parts) (values tables : Fields)
    (elements : List (String × List Fields)) : Prop where
  assigns : p.1 = values.map fun f => .assign f.1 f.2
  sections : Effect path p.2.1 (addMany tables)
  lists : Effect path p.2.2 (addArrays elements)
  nonempty : ∀ a ∈ elements, a.2 ≠ []

section Section

variable {path : List String} {p : Parts} {values tables : Fields}
  {elements : List (String × List Fields)}

theorem Writes.run (h : Writes path p values tables elements) {fs : Fields} (hreach : Reaches path fs) :
    (p.lines.foldlM execute (fs, path)).map Prod.fst =
      update (fun t => (addMany values t).bind fun t => (addMany tables t).bind (addArrays elements))
        path fs := by
  have hrest := h.sections.append h.lists
  rw [Parts.lines, append_assoc, foldlM_append, h.assigns, execute_assigns values hreach,
    ← update_bind (addMany values)]
  show ((update (addMany values) path fs).map _ |>.bind fun s => (p.2.1 ++ p.2.2).foldlM execute s).map
    Prod.fst = _
  cases hrun : update (addMany values) path fs with
  | none => rfl
  | some fs' => exact hrest fs' path (reaches_of_update hrun)

theorem Writes.section_effect {k : String} {header : Line} (add : Fields → Fields → Option Fields)
    (h : Writes (path ++ [k]) p values tables elements)
    (hnodup : ((values ++ tables ++ arrays elements).map Prod.fst).Nodup)
    (hadd : ∀ f fs, (add [] fs).bind (update f [k]) = (f []).bind fun sub => add sub fs)
    (hheader : ∀ fs current, execute (fs, current) header =
      (update (add []) path fs).map fun fs => (fs, path ++ [k])) :
    Effect path (.blank :: header :: p.lines) (add (values ++ tables ++ arrays elements)) := by
  intro fs current hreach
  have hfields := addMany_all h.nonempty hnodup
  have hmerge : ∀ f, (update (add []) path fs).bind (update f (path ++ [k])) =
      update (fun t => (f []).bind fun sub => add sub t) path fs := by
    intro f
    have hfun : update f (path ++ [k]) = update (update f [k]) path := funext (update_snoc f path k)
    rw [hfun, update_bind]
    simp only [hadd]
  show ((execute (fs, current) header).bind fun s => p.lines.foldlM execute s).map Prod.fst = _
  have hgoal := hmerge fun t =>
    (addMany values t).bind fun t => (addMany tables t).bind (addArrays elements)
  rw [hfields] at hgoal
  simp only [Option.bind_some] at hgoal
  rw [hheader, ← hgoal]
  have hthere := hmerge some
  simp only [Option.bind_some] at hthere
  cases hrun : update (add []) path fs with
  | none => rfl
  | some fs' =>
    rw [hrun, Option.bind_some] at hthere
    exact h.run hthere

end Section

theorem sortKeys_obj_congr {gs : Fields} (h : (sortKeysFields fs).Perm (sortKeysFields gs))
    (hnodup : (gs.map Prod.fst).Nodup) : sortKeys (.obj fs) = sortKeys (.obj gs) := by
  have hkeys : ((sortKeysFields gs).map Prod.fst).Nodup := by
    rw [sortKeysFields_eq_map, map_map]
    exact hnodup
  rw [sortKeys, sortKeys]
  congr 1
  have hperm : (sortFields (sortKeysFields fs)).Perm (sortFields (sortKeysFields gs)) :=
    ((perm_insertionSort _ _).trans h).trans (perm_insertionSort _ _).symm
  refine hperm.eq_of_pairwise (fun a b ha hb hab hba => ?_) (pairwise_insertionSort _ _)
    (pairwise_insertionSort _ _)
  have ha' := h.mem_iff.mp ((perm_insertionSort _ _).mem_iff.mp ha)
  have hb' := (perm_insertionSort _ _).mem_iff.mp hb
  exact inj_on_of_nodup_map hkeys ha' hb' (le_antisymm hab hba)

theorem distinct_rest {v : Json} {rest : Fields} (h : Distinct (.obj ((k, v) :: rest))) :
    Distinct v ∧ Distinct (.obj rest) := by
  rw [Distinct, DistinctFields] at h
  refine ⟨h.2.1, ?_⟩
  rw [Distinct]
  exact ⟨(nodup_cons.mp h.1).2, h.2.2⟩

/-- The lines of a table, and the table that they are written for. -/
def Written (path : List String) (p : Parts) (fs : Fields) : Prop :=
  ∃ values tables elements, Writes path p values tables elements ∧
    (sortKeysFields (values ++ tables ++ arrays elements)).Perm (sortKeysFields fs)

theorem Written.nodup {values tables : Fields} {elements : List (String × List Fields)}
    (h : (sortKeysFields (values ++ tables ++ arrays elements)).Perm (sortKeysFields fs))
    (hd : Distinct (.obj fs)) : ((values ++ tables ++ arrays elements).map Prod.fst).Nodup := by
  have hkeys : ∀ gs : Fields, (sortKeysFields gs).map Prod.fst = gs.map Prod.fst := by
    intro gs
    rw [sortKeysFields_eq_map, map_map]
    rfl
  rw [← hkeys, (h.map Prod.fst).nodup_iff, hkeys]
  rw [Distinct] at hd
  exact hd.1

theorem perm_insert {a b rest : Fields} {v v' : Json} (k : String)
    (hperm : (sortKeysFields (a ++ b)).Perm (sortKeysFields rest)) (hv : sortKeys v = sortKeys v') :
    (sortKeysFields (a ++ (k, v) :: b)).Perm (sortKeysFields ((k, v') :: rest)) := by
  rw [sortKeysFields, ← hv]
  refine List.Perm.trans ?_ (hperm.cons _)
  rw [sortKeysFields_eq_map, sortKeysFields_eq_map]
  exact perm_middle.map _

theorem Written.value {path : List String} {p : Parts} {rest : Fields} (h : Written path p rest)
    (k : String) (v : Json) : Written path (.assign k v :: p.1, p.2) ((k, v) :: rest) := by
  obtain ⟨values, tables, elements, hw, hperm⟩ := h
  refine ⟨(k, v) :: values, tables, elements, ⟨?_, hw.sections, hw.lists, hw.nonempty⟩, ?_⟩
  · rw [map_cons, hw.assigns]
  · rw [cons_append, cons_append, sortKeysFields, sortKeysFields]
    exact hperm.cons _

/-! ## The keys on the lines -/

/-- A table that has a key which breaks its line. -/
def ownKeyBreaks : Json → Bool
  | .obj fs => fs.any fun f => breaksLine f.1
  | _ => false

/-- A table with such a key at some depth. -/
def keyBreaks (d : Fields) : Bool := hasAny ownKeyBreaks (.obj d)

theorem keyBreaks_cons (k : String) (v : Json) (rest : Fields) :
    keyBreaks ((k, v) :: rest) = (breaksLine k || hasAny ownKeyBreaks v || keyBreaks rest) := by
  simp only [keyBreaks, hasAny, hasAnyFields, ownKeyBreaks, any_cons]
  cases breaksLine k <;> cases hasAny ownKeyBreaks v <;> simp

theorem keyBreaks_plain {v : Json} (h : plain v = true) : hasAny ownKeyBreaks v = false := by
  rw [plain, Bool.not_eq_true'] at h
  rw [Bool.eq_false_iff] at h ⊢
  refine fun hbreaks => h (hasAny_mono (fun w hw => ?_) v hbreaks)
  cases w with
  | obj fs => rfl
  | _ => cases hw

/-- Lines under a path: they are sound, and a key breaks one of them exactly if `breaks` says so. -/
structure Lined (path : List String) (ls : List Line) (breaks : Bool) : Prop where
  sound : ∀ l ∈ ls, l.Sound
  good : (∀ k ∈ path, breaksLine k = false) → breaks = false →
    ∀ l ∈ ls, ∀ k ∈ l.keys, breaksLine k = false
  bad : breaks = true → ∃ l ∈ ls, ∃ k ∈ l.keys, breaksLine k = true

section Lined

variable {path : List String} {ls ls' : List Line} {b b' : Bool}

theorem lined_nil (path : List String) : Lined path [] false :=
  ⟨fun _ h => absurd h not_mem_nil, fun _ _ _ h => absurd h not_mem_nil,
    fun h => (by cases h)⟩

theorem Lined.append (h : Lined path ls b) (h' : Lined path ls' b') :
    Lined path (ls ++ ls') (b || b') := by
  refine ⟨fun l hl => ?_, fun hpath hb l hl => ?_, fun hb => ?_⟩
  · exact (mem_append.mp hl).elim (h.sound l) (h'.sound l)
  · rw [Bool.or_eq_false_iff] at hb
    exact (mem_append.mp hl).elim (h.good hpath hb.1 l) (h'.good hpath hb.2 l)
  · rcases Bool.or_eq_true_iff.mp hb with hb | hb
    · obtain ⟨l, hl, hk⟩ := h.bad hb
      exact ⟨l, mem_append_left _ hl, hk⟩
    · obtain ⟨l, hl, hk⟩ := h'.bad hb
      exact ⟨l, mem_append_right _ hl, hk⟩

theorem Lined.perm (h : Lined path ls b) (hperm : ls.Perm ls') : Lined path ls' b := by
  refine ⟨fun l hl => h.sound l (hperm.mem_iff.mpr hl),
    fun hpath hb l hl => h.good hpath hb l (hperm.mem_iff.mpr hl), fun hb => ?_⟩
  obtain ⟨l, hl, hk⟩ := h.bad hb
  exact ⟨l, hperm.mem_iff.mp hl, hk⟩

theorem Lined.header {l : Line} (h : Lined path ls b) (hsound : l.Sound) (hkeys : l.keys = path) :
    Lined path (.blank :: l :: ls) b := by
  refine ⟨fun x hx => ?_, fun hpath hb x hx => ?_, fun hb => ?_⟩
  · rcases mem_cons.mp hx with rfl | hx
    · trivial
    · rcases mem_cons.mp hx with rfl | hx
      · exact hsound
      · exact h.sound x hx
  · rcases mem_cons.mp hx with rfl | hx
    · exact fun k hk => absurd hk not_mem_nil
    · rcases mem_cons.mp hx with rfl | hx
      · rw [hkeys]
        exact hpath
      · exact h.good hpath hb x hx
  · obtain ⟨x, hx, hk⟩ := h.bad hb
    exact ⟨x, mem_cons_of_mem _ (mem_cons_of_mem _ hx), hk⟩

theorem Lined.up {k : String} (h : Lined (path ++ [k]) ls b) (hkeys : ∃ l ∈ ls, l.keys = path ++ [k]) :
    Lined path ls (breaksLine k || b) := by
  refine ⟨h.sound, fun hpath hb => ?_, fun hb => ?_⟩
  · rw [Bool.or_eq_false_iff] at hb
    refine h.good (fun x hx => ?_) hb.2
    rcases mem_append.mp hx with hx | hx
    · exact hpath x hx
    · rw [mem_singleton.mp hx]
      exact hb.1
  · rcases Bool.or_eq_true_iff.mp hb with hb | hb
    · obtain ⟨l, hl, heq⟩ := hkeys
      exact ⟨l, hl, k, by rw [heq]; exact mem_append_right _ (mem_singleton_self k), hb⟩
    · exact h.bad hb

theorem lined_assign (path : List String) {k : String} {v : Json} (hplain : plain v = true)
    (hd : Distinct v) : Lined path [.assign k v] (breaksLine k || hasAny ownKeyBreaks v) := by
  rw [keyBreaks_plain hplain, Bool.or_false]
  refine ⟨fun l hl => ?_, fun _ hb l hl x hx => ?_, fun hb => ?_⟩
  · rw [mem_singleton.mp hl]
    exact ⟨hplain, hd⟩
  · rw [mem_singleton.mp hl] at hx
    rw [mem_singleton.mp hx]
    exact hb
  · exact ⟨_, mem_singleton_self _, k, mem_singleton_self k, hb⟩

end Lined

/-! ## Tables -/

/-- The lines of a table. -/
def Emitted (path : List String) (p : Parts) (fs : Fields) : Prop :=
  Written path p fs ∧ Lined path p.lines (keyBreaks fs)

theorem Emitted.value {path : List String} {p : Parts} {rest : Fields} (h : Emitted path p rest)
    {v : Json} (hplain : plain v = true) (hd : Distinct v) :
    Emitted path (.assign k v :: p.1, p.2) ((k, v) :: rest) := by
  refine ⟨h.1.value k v, ?_⟩
  rw [keyBreaks_cons]
  exact (lined_assign path hplain hd).append h.2

theorem emitTable_value {path : List String} {v : Json} {rest : Fields} {p : Parts}
    (hv : ∀ sub, v ≠ .obj sub) (hv' : ∀ items, v ≠ .arr items)
    (h : emitTable path ((k, v) :: rest) = some p) :
    plain v = true ∧ ∃ r, emitTable path rest = some r ∧ p = (.assign k v :: r.1, r.2) := by
  rw [emitTable] at h
  · split_ifs at h with hplain
    obtain ⟨r, hr, rfl⟩ := Option.map_eq_some_iff.mp h
    exact ⟨hplain, r, hr, rfl⟩
  · exact hv
  · exact hv'

theorem emitted_value {path : List String} {v : Json} {rest : Fields} {p : Parts}
    (hv : ∀ sub, v ≠ .obj sub) (hv' : ∀ items, v ≠ .arr items)
    (h : emitTable path ((k, v) :: rest) = some p)
    (ih : ∀ r, emitTable path rest = some r → Distinct (.obj rest) → Emitted path r rest)
    (hd : Distinct (.obj ((k, v) :: rest))) : Emitted path p ((k, v) :: rest) := by
  obtain ⟨hplain, r, hr, rfl⟩ := emitTable_value hv hv' h
  exact (ih r hr (distinct_rest hd).2).value hplain (distinct_rest hd).1

theorem execute_table (path : List String) (k : String) (fs : Fields) (current : List String) :
    execute (fs, current) (.table (path ++ [k])) =
      (update (addKey k (.obj [])) path fs).map fun fs => (fs, path ++ [k]) := by
  rw [execute, getLast?_concat, dropLast_concat, Option.bind_some]

theorem execute_element (path : List String) (k : String) (fs : Fields) (current : List String) :
    execute (fs, current) (.element (path ++ [k])) =
      (update (addElement k []) path fs).map fun fs => (fs, path ++ [k]) := by
  rw [execute, getLast?_concat, dropLast_concat, Option.bind_some]

mutual

theorem emitTable_emitted : ∀ (path : List String) (fs : Fields) (p : Parts),
    emitTable path fs = some p → Distinct (.obj fs) → Emitted path p fs
  | path, [], p => fun h _ => by
    rw [emitTable] at h
    cases h
    exact ⟨⟨[], [], [], ⟨rfl, effect_nil path, effect_nil path, fun _ h => absurd h not_mem_nil⟩,
      .refl _⟩, lined_nil path⟩
  | path, (k, .obj sub) :: rest, p => fun h hd => by
    rw [emitTable] at h
    obtain ⟨s, hs, h⟩ := Option.bind_eq_some_iff.mp h
    obtain ⟨r, hr, rfl⟩ := Option.map_eq_some_iff.mp h
    obtain ⟨hsub, hrest⟩ := distinct_rest hd
    obtain ⟨⟨values, tables, elements, hw, hperm⟩, hl⟩ := emitTable_emitted (path ++ [k]) sub s hs hsub
    obtain ⟨⟨values', tables', elements', hw', hperm'⟩, hl'⟩ := emitTable_emitted path rest r hr hrest
    have hsection := hw.section_effect (fun sub => addKey k (.obj sub)) (Written.nodup hperm hsub)
      (addKey_update k) (execute_table path k)
    refine ⟨⟨values', (k, .obj (values ++ tables ++ arrays elements)) :: tables', elements',
      ⟨hw'.assigns, hsection.append hw'.sections, hw'.lists, hw'.nonempty⟩, ?_⟩, ?_⟩
    · rw [Distinct] at hsub
      rw [append_assoc, cons_append]
      rw [append_assoc] at hperm'
      exact perm_insert k hperm' (sortKeys_obj_congr hperm hsub.1)
    · have hup := (hl.header (l := .table (path ++ [k])) (by simp [Line.Sound]) rfl).up
        ⟨_, mem_cons_of_mem _ mem_cons_self, rfl⟩
      rw [keyBreaks_cons]
      refine (hup.append hl').perm ?_
      simp only [Parts.lines]
      rw [← append_assoc, ← append_assoc, ← append_assoc]
      exact (perm_append_comm.append_right _).append_right _
  | path, (k, .arr items) :: rest, p => fun h hd => by
    rw [emitTable] at h
    obtain ⟨hitems, hrest⟩ := distinct_rest hd
    split_ifs at h with htables hplain
    · obtain ⟨s, hs, h⟩ := Option.bind_eq_some_iff.mp h
      obtain ⟨r, hr, rfl⟩ := Option.map_eq_some_iff.mp h
      rw [Distinct, distinctItems_iff] at hitems
      obtain ⟨subs, heffect, hsame, hl, hfirst⟩ := emitElements_emitted path k items s hs hitems
      obtain ⟨⟨values, tables, elements, hw, hperm⟩, hl'⟩ := emitTable_emitted path rest r hr hrest
      have hne : items ≠ [] := by
        rintro rfl
        cases htables
      refine ⟨⟨values, tables, (k, subs) :: elements,
        ⟨hw.assigns, hw.sections, heffect.append hw.lists, ?_⟩, ?_⟩, ?_⟩
      · intro a ha
        rcases mem_cons.mp ha with rfl | ha
        · rintro rfl
          exact hne (map_eq_nil_iff.mp hsame.symm)
        · exact hw.nonempty a ha
      · refine perm_insert k hperm ?_
        rw [sortKeys, sortKeys, sortKeysItems_eq_map, sortKeysItems_eq_map, hsame]
      · rw [keyBreaks_cons, hasAny]
        show Lined path _ (breaksLine k || hasAnyItems ownKeyBreaks items || keyBreaks rest)
        refine ((hl.up (hfirst hne)).append hl').perm ?_
        simp only [Parts.lines]
        rw [← append_assoc, ← append_assoc (r.1 ++ r.2.1)]
        exact perm_append_comm.append_right _
    · obtain ⟨r, hr, rfl⟩ := Option.map_eq_some_iff.mp h
      exact (emitTable_emitted path rest r hr hrest).value hplain hitems
  | path, (k, .null) :: rest, p => fun h =>
    emitted_value (by simp) (by simp) h fun r => emitTable_emitted path rest r
  | path, (k, .bool _) :: rest, p => fun h =>
    emitted_value (by simp) (by simp) h fun r => emitTable_emitted path rest r
  | path, (k, .int _) :: rest, p => fun h =>
    emitted_value (by simp) (by simp) h fun r => emitTable_emitted path rest r
  | path, (k, .float _) :: rest, p => fun h =>
    emitted_value (by simp) (by simp) h fun r => emitTable_emitted path rest r
  | path, (k, .str _) :: rest, p => fun h =>
    emitted_value (by simp) (by simp) h fun r => emitTable_emitted path rest r

theorem emitElements_emitted : ∀ (path : List String) (k : String) (items : List Json) (ls : List Line),
    emitElements (path ++ [k]) items = some ls → (∀ v ∈ items, Distinct v) →
    ∃ subs : List Fields, Effect path ls (addElements k subs) ∧
      (subs.map Json.obj).map sortKeys = items.map sortKeys ∧
      Lined (path ++ [k]) ls (hasAnyItems ownKeyBreaks items) ∧
      (items ≠ [] → ∃ l ∈ ls, l.keys = path ++ [k])
  | path, k, [], ls => fun h _ => by
    rw [emitElements] at h
    cases h
    exact ⟨[], effect_nil path, rfl, lined_nil _, fun h => absurd rfl h⟩
  | path, k, .obj sub :: items, ls => fun h hd => by
    rw [emitElements] at h
    obtain ⟨s, hs, h⟩ := Option.bind_eq_some_iff.mp h
    obtain ⟨r, hr, rfl⟩ := Option.map_eq_some_iff.mp h
    have hsub := hd _ mem_cons_self
    obtain ⟨⟨values, tables, elements, hw, hperm⟩, hl⟩ := emitTable_emitted (path ++ [k]) sub s hs hsub
    obtain ⟨subs, heffect, hsame, hl', -⟩ := emitElements_emitted path k items r hr
      fun v hv => hd v (mem_cons_of_mem _ hv)
    have hsection := hw.section_effect (addElement k) (Written.nodup hperm hsub)
      (addElement_update k) (execute_element path k)
    refine ⟨(values ++ tables ++ arrays elements) :: subs, hsection.append heffect, ?_, ?_, ?_⟩
    · rw [Distinct] at hsub
      rw [map_cons, map_cons, map_cons, hsame, sortKeys_obj_congr hperm hsub.1]
    · rw [hasAnyItems]
      exact (hl.header (l := .element (path ++ [k])) (by simp [Line.Sound]) rfl).append hl'
    · exact fun _ => ⟨_, mem_cons_of_mem _ mem_cons_self, rfl⟩
  | path, k, .null :: items, ls => fun h => absurd h (by simp [emitElements])
  | path, k, .bool _ :: items, ls => fun h => absurd h (by simp [emitElements])
  | path, k, .int _ :: items, ls => fun h => absurd h (by simp [emitElements])
  | path, k, .float _ :: items, ls => fun h => absurd h (by simp [emitElements])
  | path, k, .str _ :: items, ls => fun h => absurd h (by simp [emitElements])
  | path, k, .arr _ :: items, ls => fun h => absurd h (by simp [emitElements])

end

/-! ## Documents -/

theorem splitLines_joinLines {ls : List Line} (hne : ls ≠ []) :
    splitLines (joinLines ls) = ls.flatMap fun l => splitLines l.text := by
  induction ls with
  | nil => exact absurd rfl hne
  | cons l ls ih =>
    cases ls with
    | nil => simp [joinLines]
    | cons l' ls =>
      have hjoin : joinLines (l :: l' :: ls) = l.text ++ '\n' :: joinLines (l' :: ls) := by
        rw [joinLines]
        simp
      rw [hjoin, splitLines_append, ih (by simp)]
      rfl

theorem loadsToml_newline (t : List Char) : loadsToml ('\n' :: t) = loadsToml t := by
  unfold loadsToml
  rw [splitLines, if_pos rfl, mapM_cons]
  show (((splitLines t).mapM parseLine).bind fun ls => some (Line.blank :: ls)).bind _ = _
  cases (splitLines t).mapM parseLine <;> rfl

theorem loadsToml_dropWhile (t : List Char) : loadsToml (t.dropWhile (· == '\n')) = loadsToml t := by
  induction t with
  | nil => rfl
  | cons c t ih =>
    by_cases hc : c = '\n'
    · subst hc
      rw [loadsToml_newline, ← ih]
      rfl
    · rw [dropWhile_cons_of_neg (by simpa using hc)]

theorem loadsToml_concat (t : List Char) : loadsToml (t ++ ['\n']) = loadsToml t := by
  unfold loadsToml
  rw [splitLines_append, mapM_append]
  show (((splitLines t).mapM parseLine).bind fun ls => some (ls ++ [Line.blank])).bind _ = _
  cases (splitLines t).mapM parseLine with
  | none => rfl
  | some ls =>
    show ((ls ++ [Line.blank]).foldlM execute ([], [])).map Prod.fst = (ls.foldlM execute ([], [])).map Prod.fst
    rw [foldlM_append]
    cases ls.foldlM execute (([] : Fields), ([] : List String)) <;> rfl

theorem loadsToml_dumps {d : Fields} {text : List Char} (h : dumpsToml d = some text) :
    ∃ p, emitTable [] d = some p ∧ loadsToml text = loadsToml (joinLines p.lines) := by
  obtain ⟨p, hp, rfl⟩ := Option.map_eq_some_iff.mp h
  refine ⟨p, hp, ?_⟩
  rw [← loadsToml_dropWhile (joinLines p.lines)]
  dsimp only
  split_ifs with htext
  · rw [htext]
  · exact loadsToml_concat _

theorem newline_pathText {ks : List String} (hgood : ∀ k ∈ ks, breaksLine k = false) :
    '\n' ∉ pathText ks := by
  induction ks with
  | nil => exact not_mem_nil
  | cons k ks ih =>
    have hk := newline_emitKey (hgood k mem_cons_self)
    cases ks with
    | nil => exact hk
    | cons k' ks =>
      rw [pathText_cons]
      simp only [mem_append, mem_cons, not_or]
      exact ⟨hk, by decide, ih fun x hx => hgood x (mem_cons_of_mem _ hx)⟩

theorem newline_text {l : Line} (hl : l.Sound) (hgood : ∀ k ∈ l.keys, breaksLine k = false) :
    '\n' ∉ l.text := by
  cases l with
  | blank => exact not_mem_nil
  | assign k v =>
    have hplain := hl.1
    rw [plain, Bool.not_eq_true'] at hplain
    simp only [Line.text, mem_append, mem_cons, not_or]
    exact ⟨newline_emitKey (hgood k mem_cons_self), by decide, by decide, by decide,
      newline_dumps v hplain⟩
  | table path =>
    have hpath : '\n' ∉ pathText path := newline_pathText hgood
    simp only [Line.text, mem_append, mem_cons, not_or, not_mem_nil, not_false_eq_true]
    exact ⟨by decide, hpath, by decide, trivial⟩
  | element path =>
    have hpath : '\n' ∉ pathText path := newline_pathText hgood
    simp only [Line.text, mem_append, mem_cons, not_or, not_mem_nil, not_false_eq_true]
    exact ⟨by decide, by decide, hpath, by decide, by decide, trivial⟩

theorem mapM_lines {ls : List Line} (hsound : ∀ l ∈ ls, l.Sound)
    (hgood : ∀ l ∈ ls, ∀ k ∈ l.keys, breaksLine k = false) :
    (ls.flatMap fun l => splitLines l.text).mapM parseLine = some ls := by
  induction ls with
  | nil => rfl
  | cons l ls ih =>
    have hl := hsound l mem_cons_self
    have hk := hgood l mem_cons_self
    rw [flatMap_cons, splitLines_of_not_mem (newline_text hl hk), singleton_append,
      mapM_cons, parseLine_text hl hk, ih (fun x hx => hsound x (mem_cons_of_mem _ hx))
        fun x hx => hgood x (mem_cons_of_mem _ hx)]
    rfl

theorem mapM_none {α β : Type} {f : α → Option β} {xs : List α} {x : α} (hx : x ∈ xs)
    (h : f x = none) : xs.mapM f = none := by
  induction xs with
  | nil => exact absurd hx not_mem_nil
  | cons y xs ih =>
    rw [mapM_cons]
    rcases mem_cons.mp hx with rfl | hx
    · rw [h]
      rfl
    · rw [ih hx]
      cases f y <;> rfl

theorem mapM_breaks {ls : List Line} (hbad : ∃ l ∈ ls, ∃ k ∈ l.keys, breaksLine k = true) :
    (ls.flatMap fun l => splitLines l.text).mapM parseLine = none := by
  obtain ⟨l, hl, hk⟩ := hbad
  obtain ⟨piece, hpiece, hparse⟩ := parseLine_breaks hk
  exact mapM_none (mem_flatMap.mpr ⟨l, hl, hpiece⟩) hparse

/-- **A document is read back exactly if none of its keys breaks a line.** -/
theorem toml_reads_back_iff (d : Fields) (text : List Char) (hd : Distinct (.obj d))
    (h : dumpsToml d = some text) :
    (∃ r, loadsToml text = some r ∧ sortKeys (.obj r) = sortKeys (.obj d)) ↔ keyBreaks d = false := by
  obtain ⟨p, hp, hloads⟩ := loadsToml_dumps h
  obtain ⟨⟨values, tables, elements, hw, hperm⟩, hlined⟩ := emitTable_emitted [] d p hp hd
  rw [hloads]
  constructor
  · rintro ⟨r, hr, -⟩
    by_contra hbreaks
    rw [Bool.not_eq_false] at hbreaks
    have hbad := hlined.bad hbreaks
    have hne : p.lines ≠ [] := by
      obtain ⟨l, hl, -⟩ := hbad
      exact List.ne_nil_of_mem hl
    rw [loadsToml, splitLines_joinLines hne, mapM_breaks hbad] at hr
    cases hr
  · intro hgood
    have hrun := hw.run (show Reaches [] [] from rfl)
    have hfields := addMany_all hw.nonempty (Written.nodup hperm hd)
    have hresult : (p.lines.foldlM execute ([], [])).map Prod.fst =
        some (values ++ tables ++ arrays elements) := hrun.trans hfields
    refine ⟨values ++ tables ++ arrays elements, ?_, ?_⟩
    · by_cases hne : p.lines = []
      · rw [hne] at hresult ⊢
        exact hresult
      · rw [loadsToml, splitLines_joinLines hne,
          mapM_lines hlined.sound (hlined.good (fun _ h => absurd h List.not_mem_nil) hgood),
          Option.bind_some, hresult]
    · rw [Distinct] at hd
      exact sortKeys_obj_congr hperm hd.1

/-- A template with a table and an array of tables. -/
def sampleDoc : Fields :=
  [("id", .str "base\n"), ("quoted key", .arr [.int 1, .bool true]), ("meta", .obj [("x", .str "\"")]),
    ("layers", .arr [.obj [("n", .int 0)], .obj [("n", .int (-7)), ("m", .obj [])]])]

theorem sampleDoc_reads_back : ∃ text, dumpsToml sampleDoc = some text ∧
    ∃ r, loadsToml text = some r ∧ sortKeys (.obj r) = sortKeys (.obj sampleDoc) := by
  obtain ⟨text, htext⟩ := Option.isSome_iff_exists.mp
    (show (dumpsToml sampleDoc).isSome = true by decide +kernel)
  have hd : Distinct (.obj sampleDoc) := by
    simp [sampleDoc, Distinct, DistinctFields, DistinctItems]
  exact ⟨text, htext, (toml_reads_back_iff sampleDoc text hd htext).mpr (by decide +kernel)⟩

/-- The key `"a\n"` is written bare, on two lines. -/
theorem newline_key_lost : dumpsToml [("a\n", .int 1)] = some "a\n = 1\n".toList ∧
    loadsToml "a\n = 1\n".toList = none := by
  have hnone : (loadsToml "a\n = 1\n".toList).isNone = true := by decide +kernel
  exact ⟨by decide +kernel, Option.isNone_iff_eq_none.mp hnone⟩

end Toml
