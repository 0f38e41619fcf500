/-
# The MCS category allocator

`qdistro_mcs_allocator.McsAllocator`: a pool of category numbers, a table of live
allocations under their (compartments, conflict classes) pair, and an index from
attachments to these pairs.  An allocation is counted by its attachments; the last release
gives its category back to the pool.

`Allocator.Consistent` is what holds between the pool and the two tables.  Each call either
changes nothing, attaches to an existing allocation, makes a fresh one, or detaches
(`allocate_cases`, `release_cases`), and every property of runs comes from these cases.
-/
import QDistro.PyDict
import QDistro.PyText
import QDistro.TransitionSystem
import Mathlib.Data.Finset.Sort
import Mathlib.Order.Interval.Finset.Nat

open TransitionSystem

namespace Mcs

open PyDict

/-! ## Value types -/

/-- A Python value given as a set of texts: `None`, a bare string, or an iterable whose
items may be anything (`none` stands for an item that is not a string). -/
inductive StrsArg where
  | none
  | bare (s : String)
  | items (vs : List (Option String))

/-- `_frozen_strs` -/
def frozenStrs : StrsArg → Finset String
  | .none => ∅
  | .bare s => {s}
  | .items vs => (vs.filterMap id).toFinset

/-- The (compartments, conflict classes) pair that attachments share an allocation under. -/
abbrev Key := Finset String × Finset String

/-- `McsResult` -/
structure McsResult where
  ok : Bool
  label : Option String := none
  categories : Finset ℕ := ∅
  reason : String := ""
  exhausted : Bool := false

/-- `_Allocation` -/
structure Allocation where
  compartments : Finset String
  conflictClasses : Finset String
  categories : Finset ℕ
  attachments : Finset String

/-- `McsAllocatorError` -/
structure McsAllocatorError where
  msg : String
  deriving DecidableEq

/-- `McsAllocator` -/
structure Allocator where
  poolSize : ℕ
  sensitivity : String
  free : Finset ℕ
  byKey : PyDict Key Allocation
  byAttachment : PyDict String Key

/-- `McsAllocator.__init__` -/
def Allocator.new (poolSize : ℤ) (sensitivity : String := "s0") :
    Except McsAllocatorError Allocator :=
  if poolSize ≤ 0 then .error ⟨"pool_size must be positive"⟩
  else .ok ⟨poolSize.toNat, sensitivity, Finset.range poolSize.toNat, ∅, ∅⟩

/-- The arguments of `allocate`. -/
structure Request where
  attachmentId : String
  compartments : StrsArg
  conflictClasses : StrsArg := .items []
  allowMulti : Bool := false
  authority : Option String := none

/-- The pair a request asks for. -/
def Request.key (r : Request) : Key := (frozenStrs r.compartments, frozenStrs r.conflictClasses)

section Methods

variable (u : UnicodeDb)

/-- `repr(sorted(values))` -/
def reprSorted (values : Finset String) : String :=
  "[" ++ ", ".intercalate ((values.sort (· ≤ ·)).map (PyText.pyRepr u)) ++ "]"

/-- `_format_label` -/
def Allocator.formatLabel (a : Allocator) (categories : Finset ℕ) : String :=
  if categories = ∅ then a.sensitivity
  else a.sensitivity ++ ":" ++ ",".intercalate ((categories.sort (· ≤ ·)).map fun n => s!"c{n}")

/-- `label_for` -/
def Allocator.labelFor (a : Allocator) (attachmentId : String) : Option String :=
  (a.byAttachment.get? attachmentId).bind fun key =>
    (a.byKey.get? key).map fun alloc => a.formatLabel alloc.categories

/-- Why a request for several compartments is refused; it always is. -/
def Request.multiRefusal (r : Request) : String :=
  if !r.allowMulti || r.authority.getD "" = "" then
    "multi-compartment allocation requires allow_multi=True "
      ++ "and an explicit authority (workflow approval); refused"
  else if r.key.2 = ∅ then
    "multi-compartment allocation requires conflict-class "
      ++ "metadata to prove it is non-bridging; none supplied"
  else
    "multi-compartment attachment carries conflict classes "
      ++ s!"{reprSorted u r.key.2}; a single label spanning them would bridge "
      ++ "conflicting silos; refused (fail closed)"

/-- Attach to an existing allocation. -/
def Allocator.share (a : Allocator) (attachmentId : String) (key : Key) (existing : Allocation) :
    Allocator :=
  { a with
    byKey := a.byKey.insert key
      { existing with attachments := insert attachmentId existing.attachments }
    byAttachment := a.byAttachment.insert attachmentId key }

/-- Allocate a category to a new pair. -/
def Allocator.fresh (a : Allocator) (attachmentId : String) (key : Key) (cat : ℕ) : Allocator :=
  { a with
    free := a.free.erase cat
    byKey := a.byKey.insert key ⟨key.1, key.2, {cat}, {attachmentId}⟩
    byAttachment := a.byAttachment.insert attachmentId key }

/-- `allocate` -/
def Allocator.allocate (a : Allocator) (r : Request) :
    Allocator × Except McsAllocatorError McsResult :=
  if r.attachmentId = "" then (a, .error ⟨"attachment_id must be non-empty"⟩)
  else if r.key.1 = ∅ then
    (a, .ok { ok := false, reason := "no compartments to confine (nothing to allocate)" })
  else if (a.byAttachment.get? r.attachmentId).isSome then
    (a, .ok { ok := false
              reason := s!"attachment {PyText.pyRepr u r.attachmentId} already has an allocation "
                ++ "(release it before re-allocating)" })
  else if 1 < r.key.1.card then (a, .ok { ok := false, reason := r.multiRefusal u })
  else
    match a.byKey.get? r.key with
    | some existing =>
      (a.share r.attachmentId r.key existing,
        .ok { ok := true
              label := some (a.formatLabel existing.categories)
              categories := existing.categories
              reason := "shared existing allocation for identical active "
                ++ "compartment/conflict set" })
    | none =>
      if h : a.free.Nonempty then
        (a.fresh r.attachmentId r.key (a.free.min' h),
          .ok { ok := true
                label := some (a.formatLabel {a.free.min' h})
                categories := {a.free.min' h}
                reason := "fresh single-compartment allocation" })
      else
        (a, .ok { ok := false
                  exhausted := true
                  reason := "MCS category pool exhausted; fall back to broker-only "
                    ++ "access with an explicit warning (never widen access)" })

end Methods

/-- Drop an attachment's reference; the last one frees the categories. -/
def Allocator.detach (a : Allocator) (attachmentId : String) (key : Key) (alloc : Allocation) :
    Allocator :=
  if alloc.attachments.erase attachmentId = ∅ then
    { a with
      free := a.free ∪ alloc.categories
      byKey := a.byKey.erase key
      byAttachment := a.byAttachment.erase attachmentId }
  else
    { a with
      byKey := a.byKey.insert key
        { alloc with attachments := alloc.attachments.erase attachmentId }
      byAttachment := a.byAttachment.erase attachmentId }

/-- `release` -/
def Allocator.release (a : Allocator) (attachmentId : String) : Allocator × Bool :=
  match a.byAttachment.get? attachmentId with
  | none => (a, false)
  | some key =>
    match a.byKey.get? key with
    -- the guard of an invariant: the index entry is already gone
    | none => ({ a with byAttachment := a.byAttachment.erase attachmentId }, false)
    | some alloc => (a.detach attachmentId key alloc, true)

/-! ## Runs -/

/-- A call of the allocator. -/
inductive Call where
  | allocate (r : Request)
  | release (attachmentId : String)

/-- The allocator after a call, whatever it returned or raised. -/
def step (u : UnicodeDb) (a : Allocator) : Call → Allocator
  | .allocate r => (a.allocate u r).1
  | .release attachmentId => (a.release attachmentId).1

/-- Whether `allocate` returned a label. -/
def granted (u : UnicodeDb) (a : Allocator) (r : Request) : Bool :=
  match (a.allocate u r).2 with
  | .ok res => res.ok
  | .error _ => false

/-- The live attachments of a run with the pairs they asked for: a granted request starts
one, a release ends it. -/
def sessions (u : UnicodeDb) (a : Allocator) (m : String → Option Key) :
    List Call → String → Option Key
  | [] => m
  | .allocate r :: rest =>
    sessions u (step u a (.allocate r))
      (if granted u a r then Function.update m r.attachmentId (some r.key) else m) rest
  | .release attachmentId :: rest =>
    sessions u (step u a (.release attachmentId)) (Function.update m attachmentId none) rest

/-! ## What one call does -/

variable {u : UnicodeDb}

/-- **Every outcome of `allocate`.**  Without a label nothing changes; with one, the
attachment was not live, and the pair either has an allocation or takes a free category. -/
theorem allocate_cases (a : Allocator) (r : Request) :
    (granted u a r = false ∧ (a.allocate u r).1 = a) ∨
      (granted u a r = true ∧ a.byAttachment.get? r.attachmentId = none ∧
        ((∃ existing, a.byKey.get? r.key = some existing ∧
            (a.allocate u r).1 = a.share r.attachmentId r.key existing) ∨
          (a.byKey.get? r.key = none ∧
            ∃ cat ∈ a.free, (a.allocate u r).1 = a.fresh r.attachmentId r.key cat))) := by
  unfold granted
  generalize hout : a.allocate u r = out
  unfold Allocator.allocate at hout
  split at hout
  · subst hout
    exact .inl ⟨rfl, rfl⟩
  split at hout
  · subst hout
    exact .inl ⟨rfl, rfl⟩
  split at hout
  · subst hout
    exact .inl ⟨rfl, rfl⟩
  next hlive =>
  have hnone : a.byAttachment.get? r.attachmentId = none := by simpa using hlive
  split at hout
  · subst hout
    exact .inl ⟨rfl, rfl⟩
  split at hout
  · next existing hkey =>
    subst hout
    exact .inr ⟨rfl, hnone, .inl ⟨existing, hkey, rfl⟩⟩
  · next hkey =>
    split at hout
    · next hfree =>
      subst hout
      exact .inr ⟨rfl, hnone, .inr ⟨hkey, _, a.free.min'_mem hfree, rfl⟩⟩
    · subst hout
      exact .inl ⟨rfl, rfl⟩

/-! ## The invariant -/

/-- The pool, the live allocations and the index of attachments agree. -/
structure Allocator.Consistent (a : Allocator) : Prop where
  /-- The free categories and those of the live allocations make up the pool. -/
  cover : ∀ c, c < a.poolSize ↔
    c ∈ a.free ∨ ∃ key alloc, a.byKey.get? key = some alloc ∧ c ∈ alloc.categories
  /-- A free category belongs to no live allocation. -/
  free_disjoint : ∀ key alloc, a.byKey.get? key = some alloc → Disjoint a.free alloc.categories
  /-- A category belongs to one live allocation. -/
  alloc_disjoint : ∀ key alloc key' alloc', a.byKey.get? key = some alloc →
    a.byKey.get? key' = some alloc' → key ≠ key' → Disjoint alloc.categories alloc'.categories
  /-- An allocation holds one category. -/
  single : ∀ key alloc, a.byKey.get? key = some alloc → ∃ c, alloc.categories = {c}
  /-- An allocation is stored under its own pair. -/
  own_key : ∀ key alloc, a.byKey.get? key = some alloc →
    (alloc.compartments, alloc.conflictClasses) = key
  /-- An allocation is attached to. -/
  attached : ∀ key alloc, a.byKey.get? key = some alloc → alloc.attachments.Nonempty
  /-- The index and the attachment sets are one relation. -/
  index : ∀ id key, a.byAttachment.get? id = some key ↔
    ∃ alloc, a.byKey.get? key = some alloc ∧ id ∈ alloc.attachments

variable {a : Allocator}

theorem consistent_new {poolSize : ℤ} {sensitivity : String}
    (h : Allocator.new poolSize sensitivity = .ok a) : a.Consistent := by
  unfold Allocator.new at h
  split at h
  · exact absurd h (by simp)
  · cases h
    refine ⟨?_, ?_, ?_, ?_, ?_, ?_, ?_⟩
    · intro c
      simp
    all_goals
      intros
      simp at *

/-- What an allocation holds, its attachments apart. -/
def Allocation.core (alloc : Allocation) : Finset String × Finset String × Finset ℕ :=
  (alloc.compartments, alloc.conflictClasses, alloc.categories)

theorem Allocator.Consistent.retable {a' : Allocator} (h : a.Consistent)
    (hpool : a'.poolSize = a.poolSize) (hfree : a'.free = a.free)
    (hkeys : ∀ key, (a'.byKey.get? key).map Allocation.core =
      (a.byKey.get? key).map Allocation.core)
    (hattached : ∀ key alloc, a'.byKey.get? key = some alloc → alloc.attachments.Nonempty)
    (hindex : ∀ id key, a'.byAttachment.get? id = some key ↔
      ∃ alloc, a'.byKey.get? key = some alloc ∧ id ∈ alloc.attachments)
    : a'.Consistent := by
  have hold : ∀ key alloc', a'.byKey.get? key = some alloc' →
      ∃ alloc, a.byKey.get? key = some alloc ∧ alloc.core = alloc'.core := by
    intro key alloc' hget
    have hcore := hkeys key
    rw [hget, Option.map_some] at hcore
    exact Option.map_eq_some_iff.mp hcore.symm
  have hnew : ∀ key alloc, a.byKey.get? key = some alloc →
      ∃ alloc', a'.byKey.get? key = some alloc' ∧ alloc'.core = alloc.core := by
    intro key alloc hget
    have hcore := hkeys key
    rw [hget, Option.map_some] at hcore
    exact Option.map_eq_some_iff.mp hcore
  have hcats : ∀ {alloc alloc' : Allocation}, alloc.core = alloc'.core →
      alloc.categories = alloc'.categories := fun hc => congrArg (fun p => p.2.2) hc
  refine ⟨?_, ?_, ?_, ?_, ?_, hattached, hindex⟩
  · intro c
    rw [hpool, hfree, h.cover c]
    constructor
    · rintro (hc | ⟨key, alloc, hget, hc⟩)
      · exact .inl hc
      · obtain ⟨alloc', hget', hcore⟩ := hnew key alloc hget
        exact .inr ⟨key, alloc', hget', by rwa [hcats hcore]⟩
    · rintro (hc | ⟨key, alloc', hget', hc⟩)
      · exact .inl hc
      · obtain ⟨alloc, hget, hcore⟩ := hold key alloc' hget'
        exact .inr ⟨key, alloc, hget, by rwa [hcats hcore]⟩
  · intro key alloc' hget'
    obtain ⟨alloc, hget, hcore⟩ := hold key alloc' hget'
    rw [hfree, ← hcats hcore]
    exact h.free_disjoint key alloc hget
  · intro key₁ alloc₁ key₂ alloc₂ h₁ h₂ hne
    obtain ⟨old₁, hold₁, hcore₁⟩ := hold key₁ alloc₁ h₁
    obtain ⟨old₂, hold₂, hcore₂⟩ := hold key₂ alloc₂ h₂
    rw [← hcats hcore₁, ← hcats hcore₂]
    exact h.alloc_disjoint key₁ old₁ key₂ old₂ hold₁ hold₂ hne
  · intro key alloc' hget'
    obtain ⟨alloc, hget, hcore⟩ := hold key alloc' hget'
    rw [← hcats hcore]
    exact h.single key alloc hget
  · intro key alloc' hget'
    obtain ⟨alloc, hget, hcore⟩ := hold key alloc' hget'
    rw [← h.own_key key alloc hget]
    exact congrArg (fun p => (p.1, p.2.1)) hcore.symm

theorem index_attach {byKey : PyDict Key Allocation} {byAttachment : PyDict String Key}
    (hindex : ∀ id key, byAttachment.get? id = some key ↔
      ∃ alloc, byKey.get? key = some alloc ∧ id ∈ alloc.attachments)
    {id : String} {key : Key} {alloc : Allocation} (hid : byAttachment.get? id = none)
    (halloc : ∀ id', id' ∈ alloc.attachments ↔
      id' = id ∨ ∃ old, byKey.get? key = some old ∧ id' ∈ old.attachments) (id' : String) (x : Key) :
    (byAttachment.insert id key).get? id' = some x ↔
      ∃ al, (byKey.insert key alloc).get? x = some al ∧ id' ∈ al.attachments := by
  have hne : ∀ {y}, byAttachment.get? id' = some y → id ≠ id' := by
    rintro y hy rfl
    rw [hid] at hy
    exact absurd hy (by simp)
  constructor
  · intro hget
    rcases get?_insert_cases hget with ⟨rfl, rfl⟩ | ⟨-, hget⟩
    · exact ⟨alloc, get?_insert_self _ _ _, (halloc id').mpr (.inl rfl)⟩
    · obtain ⟨al, hal, hmem⟩ := (hindex id' x).mp hget
      by_cases hx : x = key
      · subst hx
        exact ⟨alloc, get?_insert_self _ _ _, (halloc id').mpr (.inr ⟨al, hal, hmem⟩)⟩
      · exact ⟨al, by rw [get?_insert_of_ne _ _ (Ne.symm hx), hal], hmem⟩
  · rintro ⟨al, hal, hmem⟩
    rcases get?_insert_cases hal with ⟨rfl, rfl⟩ | ⟨-, hal⟩
    · rcases (halloc id').mp hmem with rfl | ⟨old, hold, hmem⟩
      · exact get?_insert_self _ _ _
      · have hget := (hindex id' x).mpr ⟨old, hold, hmem⟩
        rw [get?_insert_of_ne _ _ (hne hget), hget]
    · have hget := (hindex id' x).mpr ⟨al, hal, hmem⟩
      rw [get?_insert_of_ne _ _ (hne hget), hget]

section

variable (h : a.Consistent)
include h

theorem consistent_share {id : String} {key : Key} {existing : Allocation}
    (hid : a.byAttachment.get? id = none) (hkey : a.byKey.get? key = some existing) :
    (a.share id key existing).Consistent := by
  unfold Allocator.share
  refine h.retable rfl rfl ?_ ?_ (index_attach h.index hid ?_)
  · intro x
    by_cases hx : x = key
    · subst hx
      rw [get?_insert_self, hkey]
      rfl
    · rw [get?_insert_of_ne _ _ (Ne.symm hx)]
  · intro x alloc hget
    rcases get?_insert_cases hget with ⟨rfl, rfl⟩ | ⟨-, hget⟩
    · exact ⟨id, Finset.mem_insert_self _ _⟩
    · exact h.attached x alloc hget
  · intro id'
    simp [hkey]

theorem consistent_fresh {id : String} {key : Key} {cat : ℕ} (hid : a.byAttachment.get? id = none)
    (hkey : a.byKey.get? key = none) (hcat : cat ∈ a.free) :
    (a.fresh id key cat).Consistent := by
  have hother : ∀ x alloc, a.byKey.get? x = some alloc → cat ∉ alloc.categories :=
    fun x alloc hget => Finset.disjoint_left.mp (h.free_disjoint x alloc hget) hcat
  unfold Allocator.fresh
  refine ⟨?_, ?_, ?_, ?_, ?_, ?_, index_attach h.index hid ?_⟩
  · intro c
    show c < a.poolSize ↔ _
    rw [h.cover c]
    constructor
    · rintro (hc | ⟨x, alloc, hget, hc⟩)
      · by_cases hcc : c = cat
        · exact .inr ⟨key, _, get?_insert_self _ _ _, by simp [hcc]⟩
        · exact .inl (Finset.mem_erase.mpr ⟨hcc, hc⟩)
      · have hx : key ≠ x := by
          rintro rfl
          rw [hkey] at hget
          exact absurd hget (by simp)
        exact .inr ⟨x, alloc, by rw [get?_insert_of_ne _ _ hx, hget], hc⟩
    · rintro (hc | ⟨x, alloc, hget, hc⟩)
      · exact .inl (Finset.mem_of_mem_erase hc)
      · rcases get?_insert_cases hget with ⟨rfl, rfl⟩ | ⟨-, hget⟩
        · rw [Finset.mem_singleton.mp hc]
          exact .inl hcat
        · exact .inr ⟨x, alloc, hget, hc⟩
  · intro x alloc hget
    rcases get?_insert_cases hget with ⟨rfl, rfl⟩ | ⟨-, hget⟩
    · simp
    · exact (h.free_disjoint x alloc hget).mono_left (Finset.erase_subset _ _)
  · intro x alloc x' alloc' hget hget' hne
    rcases get?_insert_cases hget with ⟨rfl, rfl⟩ | ⟨-, hold⟩
    · rcases get?_insert_cases hget' with ⟨rfl, rfl⟩ | ⟨-, hold'⟩
      · exact absurd rfl hne
      · simpa using hother x' alloc' hold'
    · rcases get?_insert_cases hget' with ⟨rfl, rfl⟩ | ⟨-, hold'⟩
      · simpa using hother x alloc hold
      · exact h.alloc_disjoint x alloc x' alloc' hold hold' hne
  · intro x alloc hget
    rcases get?_insert_cases hget with ⟨rfl, rfl⟩ | ⟨-, hget⟩
    · exact ⟨cat, rfl⟩
    · exact h.single x alloc hget
  · intro x alloc hget
    rcases get?_insert_cases hget with ⟨rfl, rfl⟩ | ⟨-, hget⟩
    · rfl
    · exact h.own_key x alloc hget
  · intro x alloc hget
    rcases get?_insert_cases hget with ⟨rfl, rfl⟩ | ⟨-, hget⟩
    · exact ⟨id, Finset.mem_singleton_self _⟩
    · exact h.attached x alloc hget
  · intro id'
    simp [hkey]

theorem consistent_allocate (r : Request) :
    (a.allocate u r).1.Consistent := by
  rcases allocate_cases (u := u) a r with ⟨-, heq⟩ | ⟨-, hid, ⟨existing, hkey, heq⟩ | ⟨hkey, cat, hcat, heq⟩⟩
  · rw [heq]
    exact h
  · rw [heq]
    exact consistent_share h hid hkey
  · rw [heq]
    exact consistent_fresh h hid hkey hcat

/-! ### Release -/

theorem index_detach (id id' : String) (x : Key) :
    (a.byAttachment.erase id).get? id' = some x ↔
      ∃ al, a.byKey.get? x = some al ∧ id' ∈ al.attachments ∧ id' ≠ id := by
  constructor
  · intro hget
    obtain ⟨hne, hget⟩ := get?_erase_cases hget
    obtain ⟨al, hal, hmem⟩ := (h.index id' x).mp hget
    exact ⟨al, hal, hmem, hne⟩
  · rintro ⟨al, hal, hmem, hne⟩
    rw [get?_erase_of_ne _ hne]
    exact (h.index id' x).mpr ⟨al, hal, hmem⟩

theorem consistent_detach {id : String} {key : Key} {alloc : Allocation}
    (hid : a.byAttachment.get? id = some key) (hkey : a.byKey.get? key = some alloc) :
    (a.detach id key alloc).Consistent := by
  -- the attachment being released is attached to no other allocation
  have honly : ∀ x al, a.byKey.get? x = some al → x ≠ key → id ∉ al.attachments := by
    intro x al hal hx hmem
    have hget := (h.index id x).mpr ⟨al, hal, hmem⟩
    rw [hid] at hget
    exact hx (Option.some.inj hget).symm
  unfold Allocator.detach
  split
  · next hlast =>
    have hgone : ∀ id', id' ∈ alloc.attachments → id' = id := by
      intro id' hmem
      by_contra hne
      have : id' ∈ alloc.attachments.erase id := Finset.mem_erase.mpr ⟨hne, hmem⟩
      rw [hlast] at this
      exact absurd this (by simp)
    refine ⟨?_, ?_, ?_, ?_, ?_, ?_, ?_⟩
    · intro c
      show c < a.poolSize ↔ _
      rw [h.cover c]
      constructor
      · rintro (hc | ⟨x, al, hal, hc⟩)
        · exact .inl (Finset.mem_union_left _ hc)
        · by_cases hx : x = key
          · subst hx
            rw [hkey] at hal
            cases hal
            exact .inl (Finset.mem_union_right _ hc)
          · exact .inr ⟨x, al, by rw [get?_erase_of_ne _ hx, hal], hc⟩
      · rintro (hc | ⟨x, al, hal, hc⟩)
        · rcases Finset.mem_union.mp hc with hc | hc
          · exact .inl hc
          · exact .inr ⟨key, alloc, hkey, hc⟩
        · exact .inr ⟨x, al, (get?_erase_cases hal).2, hc⟩
    · intro x al hal
      obtain ⟨hx, hal⟩ := get?_erase_cases hal
      exact Finset.disjoint_union_left.mpr
        ⟨h.free_disjoint x al hal, h.alloc_disjoint key alloc x al hkey hal (Ne.symm hx)⟩
    · intro x al x' al' hal hal' hne
      exact h.alloc_disjoint x al x' al' (get?_erase_cases hal).2 (get?_erase_cases hal').2 hne
    · intro x al hal
      exact h.single x al (get?_erase_cases hal).2
    · intro x al hal
      exact h.own_key x al (get?_erase_cases hal).2
    · intro x al hal
      exact h.attached x al (get?_erase_cases hal).2
    · intro id' x
      show (a.byAttachment.erase id).get? id' = some x ↔ _
      rw [index_detach h id id' x]
      constructor
      · rintro ⟨al, hal, hmem, hne⟩
        have hx : x ≠ key := by
          rintro rfl
          rw [hkey] at hal
          cases hal
          exact hne (hgone id' hmem)
        exact ⟨al, by rw [get?_erase_of_ne _ hx, hal], hmem⟩
      · rintro ⟨al, hal, hmem⟩
        obtain ⟨hx, hold⟩ := get?_erase_cases hal
        refine ⟨al, hold, hmem, ?_⟩
        rintro rfl
        exact honly x al hold hx hmem
  · next hmore =>
    refine h.retable rfl rfl ?_ ?_ ?_
    · intro x
      by_cases hx : x = key
      · subst hx
        rw [get?_insert_self, hkey]
        rfl
      · rw [get?_insert_of_ne _ _ (Ne.symm hx)]
    · intro x al hal
      rcases get?_insert_cases hal with ⟨rfl, rfl⟩ | ⟨-, hal⟩
      · exact Finset.nonempty_iff_ne_empty.mpr hmore
      · exact h.attached x al hal
    · intro id' x
      show (a.byAttachment.erase id).get? id' = some x ↔ _
      rw [index_detach h id id' x]
      constructor
      · rintro ⟨al, hal, hmem, hne⟩
        by_cases hx : x = key
        · subst hx
          rw [hkey] at hal
          cases hal
          exact ⟨_, get?_insert_self _ _ _, Finset.mem_erase.mpr ⟨hne, hmem⟩⟩
        · exact ⟨al, by rw [get?_insert_of_ne _ _ (Ne.symm hx), hal], hmem⟩
      · rintro ⟨al, hal, hmem⟩
        rcases get?_insert_cases hal with ⟨rfl, rfl⟩ | ⟨hx, hold⟩
        · obtain ⟨hne, hmem⟩ := Finset.mem_erase.mp hmem
          exact ⟨alloc, hkey, hmem, hne⟩
        · refine ⟨al, hold, hmem, ?_⟩
          rintro rfl
          exact honly x al hold hx hmem

/-- **Every outcome of `release`** on a consistent allocator: the guard for a dangling index
entry is never taken. -/
theorem release_cases (id : String) :
    (a.byAttachment.get? id = none ∧ (a.release id).1 = a) ∨
      ∃ key alloc, a.byAttachment.get? id = some key ∧ a.byKey.get? key = some alloc ∧
        (a.release id).1 = a.detach id key alloc := by
  unfold Allocator.release
  cases hid : a.byAttachment.get? id with
  | none => exact .inl ⟨rfl, rfl⟩
  | some key =>
    obtain ⟨alloc, hkey, -⟩ := (h.index id key).mp hid
    simp only [hkey]
    exact .inr ⟨key, alloc, rfl, hkey, rfl⟩

theorem consistent_release (id : String) :
    (a.release id).1.Consistent := by
  rcases release_cases h id with ⟨-, heq⟩ | ⟨key, alloc, hid, hkey, heq⟩
  · rw [heq]
    exact h
  · rw [heq]
    exact consistent_detach h hid hkey

/-! ## Runs -/

theorem consistent_step (call : Call) :
    (step u a call).Consistent := by
  cases call with
  | allocate r => exact consistent_allocate h r
  | release id => exact consistent_release h id

theorem consistent_run (calls : List Call) :
    (run (step u) a calls).Consistent := by
  have hmeets : Meets (step u) (fun _ _ => True) a calls :=
    Meets.of_forall (fun _ _ => trivial) a calls
  exact hmeets.invariant (P := Allocator.Consistent) (fun _ call _ hs => consistent_step hs call) h

end

theorem byAttachment_detach (a : Allocator) (id : String) (key : Key) (alloc : Allocation) :
    (a.detach id key alloc).byAttachment = a.byAttachment.erase id := by
  unfold Allocator.detach
  split <;> rfl

/-- **The index is the map of live attachments**: at every moment it holds exactly the pairs
that the granted and not yet released requests asked for. -/
theorem byAttachment_eq_sessions (h : a.Consistent) (m : String → Option Key)
    (hm : ∀ id, a.byAttachment.get? id = m id) (calls : List Call) (id : String) :
    (run (step u) a calls).byAttachment.get? id = sessions u a m calls id := by
  induction calls generalizing a m with
  | nil => exact hm id
  | cons call rest ih =>
    have hnext := consistent_step (u := u) h call
    rw [run_cons]
    cases call with
    | allocate r =>
      refine ih hnext _ ?_
      intro id'
      rcases allocate_cases (u := u) a r with ⟨hg, heq⟩ |
        ⟨hg, -, ⟨existing, -, heq⟩ | ⟨-, cat, -, heq⟩⟩
      · rw [hg, if_neg (by simp)]
        show ((a.allocate u r).1).byAttachment.get? id' = m id'
        rw [heq]
        exact hm id'
      all_goals
        rw [hg, if_pos rfl]
        show ((a.allocate u r).1).byAttachment.get? id' = _
        rw [heq]
        by_cases hid : id' = r.attachmentId
        · subst hid
          rw [Function.update_self]
          exact get?_insert_self _ _ _
        · rw [Function.update_of_ne hid, ← hm id']
          exact get?_insert_of_ne _ _ (Ne.symm hid)
    | release id₀ =>
      refine ih hnext _ ?_
      intro id'
      show ((a.release id₀).1).byAttachment.get? id' = _
      by_cases hid : id' = id₀
      · subst hid
        rw [Function.update_self]
        rcases release_cases h id' with ⟨hnone, heq⟩ | ⟨key, alloc, -, -, heq⟩
        · rw [heq, hnone]
        · rw [heq, byAttachment_detach, get?_erase_self]
      · rw [Function.update_of_ne hid, ← hm id']
        rcases release_cases h id₀ with ⟨-, heq⟩ | ⟨key, alloc, -, -, heq⟩
        · rw [heq]
        · rw [heq, byAttachment_detach, get?_erase_of_ne _ hid]

/-- The categories of a live attachment. -/
def Allocator.categoriesOf (a : Allocator) (id : String) : Finset ℕ :=
  match a.byAttachment.get? id with
  | some key => ((a.byKey.get? key).map Allocation.categories).getD ∅
  | none => ∅

theorem Allocator.Consistent.categoriesOf_eq (h : a.Consistent) {id : String} {key : Key}
    (hid : a.byAttachment.get? id = some key) :
    ∃ alloc, a.byKey.get? key = some alloc ∧ a.categoriesOf id = alloc.categories := by
  obtain ⟨alloc, hkey, -⟩ := (h.index id key).mp hid
  refine ⟨alloc, hkey, ?_⟩
  unfold Allocator.categoriesOf
  rw [hid]
  show ((a.byKey.get? key).map Allocation.categories).getD ∅ = alloc.categories
  rw [hkey]
  rfl

theorem Allocator.Consistent.share_iff (h : a.Consistent) {id id' : String} {key key' : Key}
    (hid : a.byAttachment.get? id = some key) (hid' : a.byAttachment.get? id' = some key') :
    (∃ c, c ∈ a.categoriesOf id ∧ c ∈ a.categoriesOf id') ↔ key = key' := by
  obtain ⟨alloc, hkey, hcats⟩ := h.categoriesOf_eq hid
  obtain ⟨alloc', hkey', hcats'⟩ := h.categoriesOf_eq hid'
  rw [hcats, hcats']
  constructor
  · rintro ⟨c, hc, hc'⟩
    by_contra hne
    exact Finset.disjoint_left.mp
      (h.alloc_disjoint key alloc key' alloc' hkey hkey' hne) hc hc'
  · rintro rfl
    rw [hkey] at hkey'
    cases hkey'
    obtain ⟨c, hc⟩ := h.single key alloc hkey
    exact ⟨c, by simp [hc], by simp [hc]⟩

/-- **The allocator is consistent after every run**: the free set and the categories of the
live allocations partition the pool, every live allocation has one category and at least one
attachment, the two tables are one relation, two live attachments share a category exactly if
they asked for one pair, and a call of `allocate` that returns no label changes nothing. -/
theorem allocator_run (u : UnicodeDb) (poolSize : ℤ) (sensitivity : String) (a₀ : Allocator)
    (h : Allocator.new poolSize sensitivity = .ok a₀) (calls : List Call) :
    (run (step u) a₀ calls).Consistent ∧
      (∀ id, (run (step u) a₀ calls).byAttachment.get? id = sessions u a₀ (fun _ => none) calls id) ∧
      (∀ id id' key key', sessions u a₀ (fun _ => none) calls id = some key →
        sessions u a₀ (fun _ => none) calls id' = some key' →
        ((∃ c, c ∈ (run (step u) a₀ calls).categoriesOf id ∧
          c ∈ (run (step u) a₀ calls).categoriesOf id') ↔ key = key')) ∧
      ∀ r, granted u (run (step u) a₀ calls) r = false →
        ((run (step u) a₀ calls).allocate u r).1 = run (step u) a₀ calls := by
  have h₀ := consistent_new h
  have hrun := consistent_run (u := u) h₀ calls
  have hempty : ∀ id, a₀.byAttachment.get? id = none := by
    intro id
    unfold Allocator.new at h
    split at h
    · exact absurd h (by simp)
    · cases h
      rfl
  have hindex := byAttachment_eq_sessions (u := u) h₀ (fun _ => none) hempty calls
  refine ⟨hrun, hindex, ?_, ?_⟩
  · intro id id' key key' hid hid'
    rw [← hindex] at hid hid'
    exact hrun.share_iff hid hid'
  · intro r hr
    rcases allocate_cases (u := u) (run (step u) a₀ calls) r with ⟨-, heq⟩ | ⟨hg, -⟩
    · exact heq
    · rw [hr] at hg
      exact absurd hg (by simp)

/-- Two attachments of one silo and one of another, in a pool of two categories. -/
def attachThree : List Call :=
  [.allocate { attachmentId := "a1", compartments := .bare "work" },
    .allocate { attachmentId := "a2", compartments := .items [some "work"] },
    .allocate { attachmentId := "a3", compartments := .items [some "bank"],
                conflictClasses := .items [some "finance"] },
    .allocate { attachmentId := "a4", compartments := .bare "home" },
    .release "a2"]

theorem allocator_run_attachThree :
    ((run (step .ascii) ⟨2, "s0", Finset.range 2, ∅, ∅⟩ attachThree).Consistent ∧
      sessions .ascii ⟨2, "s0", Finset.range 2, ∅, ∅⟩ (fun _ => none) attachThree "a3" =
        some ({"bank"}, {"finance"})) ∧
      (run (step .ascii) ⟨2, "s0", Finset.range 2, ∅, ∅⟩ attachThree).byAttachment.get? "a4" =
        none :=
  ⟨⟨(allocator_run .ascii 2 "s0" ⟨2, "s0", Finset.range 2, ∅, ∅⟩ rfl attachThree).1,
    by decide +kernel⟩, by decide +kernel⟩

end Mcs
