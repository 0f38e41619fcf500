/-
# A directory that is being filled

A program makes a new directory, puts new files into it, and renames it into place or takes it
apart.  `Staged base t m fs` says that the directory `t` of `fs` holds exactly the files of the map
`m`, each an inode of its own that is newer than `base`, and that nothing else of `base` has
changed.  Each operation in the directory is then an update of the map.

`Near` is the same up to a set of names, for steps whose effect on these names does not matter.
-/
import QDistro.InodeFs

namespace InodeFs

open EffectRules PyDict Function

/-- The directory `t` holds the files of `m`, and nothing else has changed since `base`. -/
structure Staged (base : Fs) (t : ℕ) (m : String → Option (List UInt8)) (fs : Fs) : Prop where
  next : base.next ≤ fs.next
  outer : ∀ i, i < base.next → i ≠ t → fs.node i = base.node i
  isDir : ∃ es, fs.node t = some (.dir es)
  gone : ∀ name, m name = none → fs.entry t name = none
  held : ∀ name bytes, m name = some bytes → ∃ i, fs.entry t name = some i ∧
    fs.node i = some (.file bytes) ∧ base.next ≤ i ∧ i < fs.next
  apart : ∀ a b i, fs.entry t a = some i → fs.entry t b = some i → a = b

namespace Staged

variable {base fs : Fs} {t i : ℕ} {m : String → Option (List UInt8)} {name : String}

theorem init (h : base.node t = some (.dir ∅)) : Staged base t (fun _ => none) base := by
  have hentry : ∀ name, base.entry t name = none := by
    intro name
    rw [Fs.entry_of_node h]
    rfl
  refine ⟨Nat.le_refl _, fun _ _ _ => rfl, ⟨_, h⟩, fun name _ => hentry name, ?_, ?_⟩
  · intro name bytes hm
    cases hm
  · intro a b i ha
    rw [hentry a] at ha
    cases ha

theorem entry_eq_none_iff (h : Staged base t m fs) : fs.entry t name = none ↔ m name = none := by
  constructor
  · intro hnone
    cases hm : m name with
    | none => rfl
    | some bytes =>
      obtain ⟨i, hi, -⟩ := h.held name bytes hm
      rw [hnone] at hi
      cases hi
  · exact h.gone name

theorem of_entry (h : Staged base t m fs) (hi : fs.entry t name = some i) :
    ∃ bytes, m name = some bytes ∧ fs.node i = some (.file bytes) ∧ base.next ≤ i ∧ i < fs.next := by
  cases hm : m name with
  | none =>
    rw [h.gone name hm] at hi
    cases hi
  | some bytes =>
    obtain ⟨j, hj, hrest⟩ := h.held name bytes hm
    rw [hi] at hj
    obtain rfl := Option.some.inj hj
    exact ⟨bytes, rfl, hrest⟩

variable {m' : String → Option (List UInt8)} {fs' : Fs}

/-- **Step rule.**  Only the directory and the inodes that are newer than `base` change, and the new
entries hold what `m'` says. -/
theorem step (h : Staged base t m fs) (hnext : fs.next ≤ fs'.next)
    (houter : ∀ i, i < base.next → i ≠ t → fs'.node i = fs.node i) {es : PyDict String ℕ}
    (hes : fs'.node t = some (.dir es)) (hgone : ∀ name, m' name = none → es.get? name = none)
    (hheld : ∀ name bytes, m' name = some bytes → ∃ i, es.get? name = some i ∧
      fs'.node i = some (.file bytes) ∧ base.next ≤ i ∧ i < fs'.next)
    (hapart : ∀ a b i, es.get? a = some i → es.get? b = some i → a = b) : Staged base t m' fs' := by
  have hentry : ∀ name, fs'.entry t name = es.get? name := Fs.entry_of_node hes
  refine ⟨Nat.le_trans h.next hnext, ?_, ⟨es, hes⟩, ?_, ?_, ?_⟩
  · intro i hi hne
    rw [houter i hi hne, h.outer i hi hne]
  · intro name hm
    rw [hentry, hgone name hm]
  · intro name bytes hm
    rw [hentry]
    exact hheld name bytes hm
  · intro a b i ha hb
    rw [hentry] at ha hb
    exact hapart a b i ha hb

section Operations

variable {es : PyDict String ℕ}

section

variable (h : Staged base t m fs)
include h

theorem add (ht : t < base.next) (hes : fs.node t = some (.dir es)) (bytes : List UInt8) :
    Staged base t (update m name (some bytes))
      ((fs.alloc (.file bytes)).set t (.dir (es.insert name fs.next))) := by
  have hle := h.next
  have hnode : ∀ i, i ≠ t → i ≠ fs.next →
      ((fs.alloc (.file bytes)).set t (.dir (es.insert name fs.next))).node i = fs.node i := by
    intro i hit hin
    rw [Fs.node_set_of_ne hit, Fs.node_alloc_of_ne hin]
  have hnew : ((fs.alloc (.file bytes)).set t (.dir (es.insert name fs.next))).node fs.next =
      some (.file bytes) := by
    rw [Fs.node_set_of_ne (by omega), Fs.node_alloc_self]
  have hold : ∀ x i, x ≠ name → (es.insert name fs.next).get? x = some i → fs.entry t x = some i := by
    intro x i hx hi
    rw [get?_insert_of_ne _ _ (Ne.symm hx)] at hi
    rw [Fs.entry_of_node hes, hi]
  refine h.step (Nat.le_succ _) (fun i hi hne => hnode i hne (by omega)) (Fs.node_set_self ..)
    ?_ ?_ ?_
  · intro x hx
    by_cases hxn : x = name
    · rw [hxn, update_self] at hx
      cases hx
    · rw [update_of_ne hxn] at hx
      rw [get?_insert_of_ne _ _ (Ne.symm hxn), ← Fs.entry_of_node hes, h.gone x hx]
  · intro x bs hx
    by_cases hxn : x = name
    · rw [hxn, update_self] at hx
      obtain rfl := Option.some.inj hx
      refine ⟨fs.next, ?_, hnew, hle, ?_⟩
      · rw [hxn, get?_insert_self]
      · show fs.next < fs.next + 1
        omega
    · rw [update_of_ne hxn] at hx
      obtain ⟨i, hi, hfile, hlow, hhigh⟩ := h.held x bs hx
      refine ⟨i, ?_, ?_, hlow, Nat.lt_succ_of_lt hhigh⟩
      · rw [get?_insert_of_ne _ _ (Ne.symm hxn), ← Fs.entry_of_node hes, hi]
      · rw [hnode i (by omega) (by omega), hfile]
  · intro a b i ha hb
    by_cases han : a = name <;> by_cases hbn : b = name
    · rw [han, hbn]
    · rw [han, get?_insert_self] at ha
      obtain rfl := Option.some.inj ha
      obtain ⟨-, -, -, -, hlt⟩ := h.of_entry (hold b _ hbn hb)
      omega
    · rw [hbn, get?_insert_self] at hb
      obtain rfl := Option.some.inj hb
      obtain ⟨-, -, -, -, hlt⟩ := h.of_entry (hold a _ han ha)
      omega
    · exact h.apart a b i (hold a i han ha) (hold b i hbn hb)

theorem write (ht : t < base.next) (hi : fs.entry t name = some i) (bytes : List UInt8) :
    Staged base t (update m name (some bytes)) (fs.set i (.file bytes)) := by
  obtain ⟨old, -, -, hlow, hhigh⟩ := h.of_entry hi
  obtain ⟨es, hes⟩ := h.isDir
  have hdir : (fs.set i (.file bytes)).node t = some (.dir es) := by
    rw [Fs.node_set_of_ne (by omega), hes]
  refine h.step (Nat.le_refl _) (fun j hj _ => Fs.node_set_of_ne (by omega) _) hdir ?_ ?_ ?_
  · intro x hx
    by_cases hxn : x = name
    · rw [hxn, update_self] at hx
      cases hx
    · rw [update_of_ne hxn] at hx
      rw [← Fs.entry_of_node hes, h.gone x hx]
  · intro x bs hx
    by_cases hxn : x = name
    · rw [hxn, update_self] at hx
      obtain rfl := Option.some.inj hx
      refine ⟨i, ?_, Fs.node_set_self .., hlow, hhigh⟩
      rw [hxn, ← Fs.entry_of_node hes, hi]
    · rw [update_of_ne hxn] at hx
      obtain ⟨j, hj, hfile, hlow', hhigh'⟩ := h.held x bs hx
      refine ⟨j, ?_, ?_, hlow', hhigh'⟩
      · rw [← Fs.entry_of_node hes, hj]
      · -- two names never share an inode
        have hne : j ≠ i := by
          rintro rfl
          exact hxn (h.apart x name j hj hi)
        rw [Fs.node_set_of_ne hne, hfile]
  · intro a b j ha hb
    rw [← Fs.entry_of_node hes] at ha hb
    exact h.apart a b j ha hb

theorem erase (ht : t < base.next) (hes : fs.node t = some (.dir es)) :
    Staged base t (update m name none) (fs.set t (.dir (es.erase name))) := by
  have hkeep : ∀ x i, (es.erase name).get? x = some i → x ≠ name ∧ fs.entry t x = some i := by
    intro x i hx
    have hxn : x ≠ name := by
      rintro rfl
      rw [get?_erase_self] at hx
      cases hx
    rw [get?_erase_of_ne _ hxn] at hx
    exact ⟨hxn, by rw [Fs.entry_of_node hes, hx]⟩
  refine h.step (Nat.le_refl _) (fun j hj hne => Fs.node_set_of_ne hne _) (Fs.node_set_self ..)
    ?_ ?_ ?_
  · intro x hx
    by_cases hxn : x = name
    · rw [hxn, get?_erase_self]
    · rw [update_of_ne hxn] at hx
      rw [get?_erase_of_ne _ hxn, ← Fs.entry_of_node hes, h.gone x hx]
  · intro x bs hx
    have hxn : x ≠ name := by
      rintro rfl
      rw [update_self] at hx
      cases hx
    rw [update_of_ne hxn] at hx
    obtain ⟨j, hj, hfile, hlow, hhigh⟩ := h.held x bs hx
    refine ⟨j, ?_, ?_, hlow, hhigh⟩
    · rw [get?_erase_of_ne _ hxn, ← Fs.entry_of_node hes, hj]
    · rw [Fs.node_set_of_ne (by omega), hfile]
  · intro a b j ha hb
    exact h.apart a b j (hkeep a j ha).2 (hkeep b j hb).2

theorem rename {src dst : String} (ht : t < base.next) (hne : src ≠ dst)
    (hes : fs.node t = some (.dir es)) (hsrc : es.get? src = some i) :
    Staged base t (update (update m src none) dst (m src))
      (fs.set t (.dir ((es.erase src).insert dst i))) := by
  have hi : fs.entry t src = some i := by rw [Fs.entry_of_node hes, hsrc]
  obtain ⟨old, hold, hnode, hlow, hhigh⟩ := h.of_entry hi
  -- the other names are as they were
  have hother : ∀ x, x ≠ src → x ≠ dst →
      ((es.erase src).insert dst i).get? x = fs.entry t x := by
    intro x hxs hxd
    rw [get?_insert_of_ne _ _ (Ne.symm hxd), get?_erase_of_ne _ hxs,
      Fs.entry_of_node hes]
  have hsrc' : ((es.erase src).insert dst i).get? src = none := by
    rw [get?_insert_of_ne _ _ (Ne.symm hne), get?_erase_self]
  refine h.step (Nat.le_refl _) (fun j hj hne => Fs.node_set_of_ne hne _) (Fs.node_set_self ..)
    ?_ ?_ ?_
  · intro x hx
    by_cases hxd : x = dst
    · rw [hxd, update_self, hold] at hx
      cases hx
    · by_cases hxs : x = src
      · rw [hxs, hsrc']
      · rw [update_of_ne hxd, update_of_ne hxs] at hx
        rw [hother x hxs hxd, h.gone x hx]
  · intro x bs hx
    by_cases hxd : x = dst
    · rw [hxd, update_self, hold] at hx
      obtain rfl := Option.some.inj hx
      refine ⟨i, ?_, ?_, hlow, hhigh⟩
      · rw [hxd, get?_insert_self]
      · rw [Fs.node_set_of_ne (by omega), hnode]
    · by_cases hxs : x = src
      · rw [hxs, update_of_ne hne, update_self] at hx
        cases hx
      · rw [update_of_ne hxd, update_of_ne hxs] at hx
        obtain ⟨j, hj, hfile, hlow', hhigh'⟩ := h.held x bs hx
        refine ⟨j, ?_, ?_, hlow', hhigh'⟩
        · rw [hother x hxs hxd, hj]
        · rw [Fs.node_set_of_ne (by omega), hfile]
  · -- an entry of the new directory is the moved one or an old one
    have hfrom : ∀ x j, ((es.erase src).insert dst i).get? x = some j →
        (x = dst ∧ j = i) ∨ (x ≠ src ∧ x ≠ dst ∧ fs.entry t x = some j) := by
      intro x j hx
      by_cases hxd : x = dst
      · rw [hxd, get?_insert_self] at hx
        exact .inl ⟨hxd, (Option.some.inj hx).symm⟩
      · have hxs : x ≠ src := by
          rintro rfl
          rw [hsrc'] at hx
          cases hx
        rw [hother x hxs hxd] at hx
        exact .inr ⟨hxs, hxd, hx⟩
    intro a b j ha hb
    rcases hfrom a j ha with ⟨rfl, rfl⟩ | ⟨has, -, ha'⟩ <;>
      rcases hfrom b j hb with ⟨rfl, hj⟩ | ⟨hbs, -, hb'⟩
    · rfl
    · exact absurd (h.apart b src j hb' hi) hbs
    · subst hj
      exact absurd (h.apart a src j ha' hi) has
    · exact h.apart a b j ha' hb'

end

end Operations

end Staged

/-! ## Up to some names -/

/-- The directory holds the files of `m` but for the names in `S`. -/
def Near (base : Fs) (t : ℕ) (m : String → Option (List UInt8)) (S : String → Prop) (fs : Fs) :
    Prop :=
  ∃ m', Staged base t m' fs ∧ ∀ name, ¬S name → m' name = m name

namespace Near

variable {base fs : Fs} {t i : ℕ} {m : String → Option (List UInt8)} {S : String → Prop}
  {name : String}

theorem of_staged (h : Staged base t m fs) : Near base t m S fs := ⟨m, h, fun _ _ => rfl⟩

theorem mono {S' : String → Prop} (h : Near base t m S fs) (hS : ∀ name, S name → S' name) :
    Near base t m S' fs := by
  obtain ⟨m', hm, hsame⟩ := h
  exact ⟨m', hm, fun name hname => hsame name fun hs => hname (hS name hs)⟩

theorem update {m' : String → Option (List UInt8)} {fs' : Fs} {v : Option (List UInt8)}
    (hm : Staged base t (update m' name v) fs') (hname : S name)
    (hsame : ∀ name, ¬S name → m' name = m name) : Near base t m S fs' := by
  refine ⟨_, hm, fun x hx => ?_⟩
  rw [update_of_ne (by rintro rfl; exact hx hname), hsame x hx]

theorem settle (h : Near base t m (fun x => S x ∨ x = name) fs) (hm : m name = none)
    (hnone : fs.entry t name = none) : Near base t m S fs := by
  obtain ⟨m', hstaged, hsame⟩ := h
  refine ⟨m', hstaged, fun x hx => ?_⟩
  by_cases hxn : x = name
  · rw [hxn, hm]
    exact hstaged.entry_eq_none_iff.1 (hxn ▸ hnone)
  · exact hsame x (by simp [hx, hxn])

variable {κ : Type} {site : κ}

section

variable (ht : t < base.next)
include ht

theorem addAt_rule (hname : S name) :
    Triple (fun w => Near base t m S w.fs) (addAt site t name (.file []))
      (fun i w => Near base t m S w.fs ∧ w.fs.entry t name = some i)
      (fun _ w => Near base t m S w.fs) := by
  refine InodeFs.addAt_rule (fun w w' e hw hfs _ _ => hfs ▸ hw) ?_
  intro w w' es hw hes _ hfs _ _
  obtain ⟨m', hm, hsame⟩ := hw
  rw [hfs]
  refine ⟨update (hm.add ht hes []) hname hsame, ?_⟩
  rw [Fs.entry_set_dir, get?_insert_self]

theorem write_rule (hname : S name) (data : List UInt8) :
    Triple (fun w => Near base t m S w.fs ∧ w.fs.entry t name = some i) (write site i data)
      (fun _ w => Near base t m S w.fs ∧ w.fs.entry t name = some i)
      (fun _ w => Near base t m S w.fs) := by
  refine InodeFs.write_rule (fun w w' e hw hfs _ _ => hfs ▸ hw.1) ?_
  rintro w w' k ⟨⟨m', hm, hsame⟩, hi⟩ - - hfs - -
  rw [hfs]
  obtain ⟨_, -, -, hlow, -⟩ := hm.of_entry hi
  refine ⟨update (hm.write ht hi _) hname hsame, ?_⟩
  rw [← hi]
  exact Fs.entry_congr (Fs.node_set_of_ne (by omega) _) _

theorem unlinkAt_rule (hname : S name) :
    Triple (fun w => Near base t m S w.fs) (unlinkAt site t name)
      (fun _ w => Near base t m S w.fs ∧ w.fs.entry t name = none)
      (fun _ w => Near base t m S w.fs ∧
        (w.fs.entry t name = none ∨ ∃ f ∈ w.failed, f.site = site ∧ f.stuck = true)) := by
  refine InodeFs.unlinkAt_rule ?_ ?_
  · intro w w' e hw hfs hf _
    refine ⟨hfs ▸ hw, ?_⟩
    rw [hfs, hf]
    cases hentry : w.fs.entry t name with
    | none => exact .inl rfl
    | some j => exact .inr ⟨_, List.mem_cons_self .., rfl, rfl⟩
  · intro w w' es i hw hes _ hfs _ _
    obtain ⟨m', hm, hsame⟩ := hw
    rw [hfs]
    refine ⟨update (hm.erase ht hes) hname hsame, ?_⟩
    rw [Fs.entry_set_dir, get?_erase_self]

theorem renameAt_rule {src dst : String} (hne : src ≠ dst) (hsrc : S src) (hdst : S dst) :
    Triple (fun w => Near base t m S w.fs) (renameAt site t src dst)
      (fun _ w => Near base t m S w.fs ∧ w.fs.entry t src = none)
      (fun _ w => Near base t m S w.fs) := by
  refine InodeFs.renameAt_rule (fun w w' e hw hfs _ _ => hfs ▸ hw) ?_
  intro w w' es i hw hes hi hfs _ _
  obtain ⟨m', hm, hsame⟩ := hw
  rw [hfs]
  refine ⟨update (hm.rename ht hne hes hi) hdst fun x hx => ?_, ?_⟩
  · rw [update_of_ne (by rintro rfl; exact hx hsrc), hsame x hx]
  · rw [Fs.entry_set_dir, get?_insert_of_ne _ _ (Ne.symm hne), get?_erase_self]

end

end Near

end InodeFs
