/-
# Launch records and the subject resolver

`qdistro_launch_record.LaunchRecordStore`, a table of records under their identifiers with
an index from `(pid, starttime)`, and `qdistro_resolver.resolve_subject`, which turns a live
pid into a permission subject.

The store forgets records early (replacement, capacity) and late (expiry is lazy).  What it
must never do is answer for a process with a record of another one.  `attest` is the ideal
table: after every call it has, for each process, the last record registered for exactly
that process that was not revoked and has not expired since.  The store is below the ideal
table (`Below`), so a lookup finds either nothing or the ideal answer.

Clock readings are rational seconds; the generated record identifier is an argument of
`register`.
-/
import QDistro.PyDict
import QDistro.PyText
import QDistro.TransitionSystem
import Mathlib.Algebra.Order.Ring.Rat
import Mathlib.Data.Finset.Dedup
import Mathlib.Data.Finset.Order

open TransitionSystem

namespace LaunchRecords

open PyDict

/-! ## Records -/

/-- A process: its pid and its kernel start time. -/
abbrev Proc := ℤ × ℤ

/-- `LaunchRecord` -/
structure LaunchRecord where
  recordId : String
  silo : String
  sandboxEngine : String
  appId : String
  instanceId : String
  uid : ℤ
  pid : ℤ
  starttime : ℤ
  exe : String
  selinuxLabel : String
  cgroup : String
  nameSpace : String
  issuedAt : ℚ
  expiresAt : ℚ
  deriving DecidableEq

/-- The process a record is about. -/
def LaunchRecord.proc (r : LaunchRecord) : Proc := (r.pid, r.starttime)

/-- `is_expired` -/
def LaunchRecord.isExpired (r : LaunchRecord) (now : ℚ) : Bool :=
  r.expiresAt ≠ 0 && decide (r.expiresAt ≤ now)

/-- The arguments of `register`. -/
structure Registration where
  silo : String
  uid : ℤ
  pid : ℤ
  starttime : ℤ
  exe : String
  selinuxLabel : String := ""
  cgroup : String := ""
  sandboxEngine : String := ""
  appId : String := ""
  instanceId : String := ""
  nameSpace : String := ""
  ttl : Option ℤ := none

/-! ## The store -/

/-- `LaunchRecordStore` -/
structure RecordStore where
  ttl : ℤ
  maxRecords : ℤ
  byId : PyDict String LaunchRecord
  byProc : PyDict Proc String

/-- `LaunchRecordStore.__init__` -/
def RecordStore.new (ttl maxRecords : ℤ) : RecordStore := ⟨ttl, maxRecords, ∅, ∅⟩

namespace RecordStore

/-- The record that `register` builds. -/
def mint (s : RecordStore) (reg : Registration) (recordId : String) (now : ℚ) : LaunchRecord where
  recordId := recordId
  silo := reg.silo
  sandboxEngine := reg.sandboxEngine
  appId := reg.appId
  instanceId := reg.instanceId
  uid := reg.uid
  pid := reg.pid
  starttime := reg.starttime
  exe := reg.exe
  selinuxLabel := reg.selinuxLabel
  cgroup := reg.cgroup
  nameSpace := reg.nameSpace
  issuedAt := now
  expiresAt := if 0 < reg.ttl.getD s.ttl then now + reg.ttl.getD s.ttl else 0

/-- `_drop_locked` -/
def dropLocked (s : RecordStore) (r : LaunchRecord) : RecordStore :=
  { s with
    byId := s.byId.erase r.recordId
    byProc := if s.byProc.get? r.proc = some r.recordId then s.byProc.erase r.proc else s.byProc }

/-- The records of the table, in the order of the dictionary. -/
def records (s : RecordStore) : List LaunchRecord := s.byId.entries.map Prod.snd

/-- `_reap_locked` -/
def reapLocked (s : RecordStore) (now : ℚ) : RecordStore :=
  (s.records.filter fun r => r.isExpired now).foldl dropLocked s

/-- The tuple comparison of the eviction keys; a record that never expires has the
infinite expiry. -/
def evictBefore (r r' : LaunchRecord) : Bool :=
  if r.expiresAt = 0 then r'.expiresAt = 0 && decide (r.issuedAt < r'.issuedAt)
  else if r'.expiresAt = 0 then true
  else decide (r.expiresAt < r'.expiresAt) ||
    r.expiresAt = r'.expiresAt && decide (r.issuedAt < r'.issuedAt)

/-- `min(..., key=_key)`: the first record with the least key. -/
def victim (r : LaunchRecord) (rest : List LaunchRecord) : LaunchRecord :=
  rest.foldl (fun best r' => if evictBefore r' best then r' else best) r

/-- `_evict_one_locked` -/
def evictOneLocked (s : RecordStore) : RecordStore :=
  match s.records with
  | [] => s
  | r :: rest => s.dropLocked (victim r rest)

/-- Forget the identifier of the previous record of a process. -/
def dropPrevious (s : RecordStore) (p : Proc) : RecordStore :=
  match s.byProc.get? p with
  | none => s
  | some oldId => { s with byId := s.byId.erase oldId }

/-- The capacity backstop of `register`. -/
def makeRoom (s : RecordStore) : RecordStore :=
  if s.maxRecords ≤ s.byId.size then s.evictOneLocked else s

/-- Store a record in both tables. -/
def put (s : RecordStore) (r : LaunchRecord) : RecordStore :=
  { s with byId := s.byId.insert r.recordId r, byProc := s.byProc.insert r.proc r.recordId }

/-- `register` -/
def register (s : RecordStore) (reg : Registration) (recordId : String) (now : ℚ) :
    RecordStore × LaunchRecord :=
  let r := s.mint reg recordId now
  ((((s.reapLocked now).dropPrevious r.proc).makeRoom).put r, r)

/-- `get` -/
def get (s : RecordStore) (recordId : String) (now : ℚ) : RecordStore × Option LaunchRecord :=
  match s.byId.get? recordId with
  | none => (s, none)
  | some r => if r.isExpired now then (s.dropLocked r, none) else (s, some r)

/-- `find_by_proc` -/
def findByProc (s : RecordStore) (p : Proc) (now : ℚ) : RecordStore × Option LaunchRecord :=
  match s.byProc.get? p with
  | none => (s, none)
  | some rid =>
    match s.byId.get? rid with
    | none => ({ s with byProc := s.byProc.erase p }, none)
    | some r => if r.isExpired now then (s.dropLocked r, none) else (s, some r)

/-- `revoke_proc` -/
def revokeProc (s : RecordStore) (p : Proc) : RecordStore × Bool :=
  match s.byProc.get? p with
  | none => (s, false)
  | some rid => ({ s with byId := s.byId.erase rid, byProc := s.byProc.erase p }, true)

/-- `reap_expired` -/
def reapExpired (s : RecordStore) (now : ℚ) : RecordStore × ℕ :=
  (s.reapLocked now, (s.records.filter fun r => r.isExpired now).length)

end RecordStore

/-! ## Runs -/

/-- A method call, each with its reading of the clock. -/
inductive Call where
  | register (reg : Registration) (recordId : String)
  | get (recordId : String)
  | findByProc (p : Proc)
  | revokeProc (p : Proc)
  | reapExpired

/-- The store after a call. -/
def step (s : RecordStore) (c : Call × ℚ) : RecordStore :=
  match c.1 with
  | .register reg recordId => (s.register reg recordId c.2).1
  | .get recordId => (s.get recordId c.2).1
  | .findByProc p => (s.findByProc p c.2).1
  | .revokeProc p => (s.revokeProc p).1
  | .reapExpired => (s.reapExpired c.2).1

/-- A generated identifier is not in use. -/
def FreshId (s : RecordStore) (c : Call × ℚ) : Prop :=
  match c.1 with
  | .register _ recordId => s.byId.get? recordId = none
  | _ => True

instance (s : RecordStore) (c : Call × ℚ) : Decidable (FreshId s c) :=
  match c with
  | (.register _ recordId, _) => inferInstanceAs (Decidable (s.byId.get? recordId = none))
  | (.get _, _) | (.findByProc _, _) | (.revokeProc _, _) | (.reapExpired, _) => isTrue trivial

/-- The ideal table of a store's processes, after one more call: records that have expired
are gone, a registration replaces, a revocation removes. -/
def attest (s : RecordStore) (m : Proc → Option LaunchRecord) (c : Call × ℚ) :
    Proc → Option LaunchRecord :=
  let live : Proc → Option LaunchRecord := fun p => (m p).filter fun r => !r.isExpired c.2
  match c.1 with
  | .register reg recordId =>
    Function.update live (reg.pid, reg.starttime) (some (s.mint reg recordId c.2))
  | .revokeProc p => Function.update live p none
  | _ => live

/-- The ideal table after a run; `ttl` and `maxRecords` never change. -/
def attested (s : RecordStore) (calls : List (Call × ℚ)) : Proc → Option LaunchRecord :=
  calls.foldl (attest s) fun _ => none

/-! ## The two tables -/

/-- Every record is stored under its own identifier, and the index has exactly the processes
of the records, the process `skip` apart.  While a registration is under way its process has
an index entry and no record. -/
structure InvAt (s : RecordStore) (skip : Option Proc) : Prop where
  own : ∀ rid r, s.byId.get? rid = some r → r.recordId = rid ∧ some r.proc ≠ skip
  index : ∀ p rid, some p ≠ skip →
    (s.byProc.get? p = some rid ↔ ∃ r, s.byId.get? rid = some r ∧ r.proc = p)

/-- What a step that only forgets records leaves. -/
structure Shrinks (s s' : RecordStore) : Prop where
  ttl : s'.ttl = s.ttl
  maxRecords : s'.maxRecords = s.maxRecords
  byId : ∀ rid r, s'.byId.get? rid = some r → s.byId.get? rid = some r
  size : s'.byId.size ≤ s.byId.size

theorem Shrinks.refl (s : RecordStore) : Shrinks s s := ⟨rfl, rfl, fun _ _ h => h, le_rfl⟩

variable {s : RecordStore}

theorem Shrinks.trans {s' s'' : RecordStore} (h : Shrinks s s') (h' : Shrinks s' s'') :
    Shrinks s s'' :=
  ⟨h'.ttl.trans h.ttl, h'.maxRecords.trans h.maxRecords,
    fun rid r hr => h.byId rid r (h'.byId rid r hr), h'.size.trans h.size⟩

variable {r : LaunchRecord}

theorem mem_records :
    r ∈ s.records ↔ ∃ rid, s.byId.get? rid = some r := by
  unfold RecordStore.records
  rw [List.mem_map]
  constructor
  · rintro ⟨⟨rid, r'⟩, hmem, rfl⟩
    exact ⟨rid, (get?_eq_some_iff _ _ _).mpr hmem⟩
  · rintro ⟨rid, hget⟩
    exact ⟨(rid, r), (get?_eq_some_iff _ _ _).mp hget, rfl⟩

variable {skip : Option Proc}

theorem InvAt.get?_of_mem (h : InvAt s skip) (hr : r ∈ s.records) :
    s.byId.get? r.recordId = some r := by
  obtain ⟨rid, hget⟩ := mem_records.mp hr
  rw [(h.own rid r hget).1, hget]

theorem shrinks_dropLocked (s : RecordStore) (r : LaunchRecord) : Shrinks s (s.dropLocked r) :=
  ⟨rfl, rfl, fun _ _ h => (get?_erase_cases h).2, size_erase_le _ _⟩

theorem InvAt.dropLocked (h : InvAt s skip) (hr : ∀ r', s.byId.get? r.recordId = some r' → r' = r) :
    InvAt (s.dropLocked r) skip := by
  have hsub := (shrinks_dropLocked s r).byId
  refine ⟨fun rid r' hget => h.own rid r' (hsub rid r' hget), ?_⟩
  intro p rid hp
  show (if s.byProc.get? r.proc = some r.recordId then s.byProc.erase r.proc
    else s.byProc).get? p = some rid ↔ ∃ r', (s.byId.erase r.recordId).get? rid = some r' ∧ r'.proc = p
  constructor
  · intro hget
    have hold : s.byProc.get? p = some rid := by
      split at hget
      · exact (get?_erase_cases hget).2
      · exact hget
    obtain ⟨r', hr', hproc⟩ := (h.index p rid hp).mp hold
    have hne : rid ≠ r.recordId := by
      rintro rfl
      have heq := hr r' hr'
      rw [heq] at hproc
      rw [hproc, if_pos hold, get?_erase_self] at hget
      exact absurd hget (by simp)
    exact ⟨r', by rw [get?_erase_of_ne _ hne, hr'], hproc⟩
  · rintro ⟨r', hget, hproc⟩
    obtain ⟨hne, hget⟩ := get?_erase_cases hget
    have hold := (h.index p rid hp).mpr ⟨r', hget, hproc⟩
    split
    · next hown =>
      have hpne : p ≠ r.proc := by
        rintro rfl
        rw [hown] at hold
        exact hne (Option.some.inj hold).symm
      rw [get?_erase_of_ne _ hpne, hold]
    · exact hold

theorem foldl_dropLocked (rs : List LaunchRecord) (h : InvAt s skip)
    (hrs : ∀ r ∈ rs, ∀ r', s.byId.get? r.recordId = some r' → r' = r) :
    InvAt (rs.foldl RecordStore.dropLocked s) skip ∧
      Shrinks s (rs.foldl RecordStore.dropLocked s) := by
  induction rs generalizing s with
  | nil => exact ⟨h, .refl s⟩
  | cons r rest ih =>
    have hdrop := h.dropLocked (hrs r List.mem_cons_self)
    have hshrink := shrinks_dropLocked s r
    have hrest : ∀ q ∈ rest, ∀ r', (s.dropLocked r).byId.get? q.recordId = some r' → r' = q :=
      fun q hq r' hget => hrs q (List.mem_cons_of_mem _ hq) r' (hshrink.byId _ _ hget)
    obtain ⟨hinv, hsh⟩ := ih hdrop hrest
    exact ⟨hinv, hshrink.trans hsh⟩

theorem reapLocked_spec (h : InvAt s skip) (now : ℚ) :
    InvAt (s.reapLocked now) skip ∧ Shrinks s (s.reapLocked now) := by
  apply foldl_dropLocked _ h
  intro r hr r' hget
  rw [h.get?_of_mem (List.mem_filter.mp hr).1] at hget
  exact (Option.some.inj hget).symm

theorem victim_mem (r : LaunchRecord) (rest : List LaunchRecord) :
    RecordStore.victim r rest ∈ r :: rest := by
  unfold RecordStore.victim
  induction rest generalizing r with
  | nil => simp
  | cons r' rest ih =>
    rw [List.foldl_cons]
    split
    · exact List.mem_cons_of_mem _ (ih r')
    · rcases List.mem_cons.mp (ih r) with heq | hmem
      · rw [heq]
        exact List.mem_cons_self
      · exact List.mem_cons_of_mem _ (List.mem_cons_of_mem _ hmem)

theorem evictOneLocked_spec (h : InvAt s skip) :
    InvAt s.evictOneLocked skip ∧ Shrinks s s.evictOneLocked ∧
      (0 < s.byId.size → s.evictOneLocked.byId.size < s.byId.size) := by
  unfold RecordStore.evictOneLocked
  split
  · next hnil =>
    have hsize : s.byId.size = 0 := by
      have := congrArg List.length hnil
      unfold RecordStore.records at this
      simpa [size] using this
    exact ⟨h, .refl s, fun hpos => by omega⟩
  · next r rest hcons =>
    have hmem : RecordStore.victim r rest ∈ s.records := by
      rw [hcons]
      exact victim_mem r rest
    have hget := h.get?_of_mem hmem
    refine ⟨h.dropLocked ?_, shrinks_dropLocked s _, fun _ => size_erase_lt hget⟩
    intro r' hr'
    rw [hget] at hr'
    exact (Option.some.inj hr').symm

theorem dropPrevious_spec (h : InvAt s none) (p : Proc) :
    InvAt (s.dropPrevious p) (some p) ∧ Shrinks s (s.dropPrevious p) := by
  unfold RecordStore.dropPrevious
  cases hp : s.byProc.get? p with
  | none =>
    refine ⟨⟨?_, ?_⟩, .refl s⟩
    · intro rid r hget
      refine ⟨(h.own rid r hget).1, ?_⟩
      intro hproc
      have hidx := (h.index p rid (by simp)).mpr ⟨r, hget, Option.some.inj hproc⟩
      rw [hp] at hidx
      exact absurd hidx (by simp)
    · intro q rid _
      exact h.index q rid (by simp)
  | some oldId =>
    obtain ⟨old, hold, hproc⟩ := (h.index p oldId (by simp)).mp hp
    refine ⟨⟨?_, ?_⟩, rfl, rfl, fun _ _ hget => (get?_erase_cases hget).2,
      size_erase_le _ _⟩
    · intro rid r hget
      obtain ⟨hne, hget⟩ := get?_erase_cases hget
      refine ⟨(h.own rid r hget).1, ?_⟩
      intro hrp
      have hidx := (h.index p rid (by simp)).mpr ⟨r, hget, Option.some.inj hrp⟩
      rw [hp] at hidx
      exact hne (Option.some.inj hidx).symm
    · intro q rid hq
      show s.byProc.get? q = some rid ↔ ∃ r, (s.byId.erase oldId).get? rid = some r ∧ r.proc = q
      rw [h.index q rid (by simp)]
      constructor
      · rintro ⟨r, hget, hrq⟩
        have hne : rid ≠ oldId := by
          rintro rfl
          rw [hold] at hget
          cases hget
          exact hq (by rw [← hrq, hproc])
        exact ⟨r, by rw [get?_erase_of_ne _ hne, hget], hrq⟩
      · rintro ⟨r, hget, hrq⟩
        exact ⟨r, (get?_erase_cases hget).2, hrq⟩

theorem InvAt.put (h : InvAt s (some r.proc)) (hfresh : s.byId.get? r.recordId = none) :
    InvAt (s.put r) none := by
  unfold RecordStore.put
  refine ⟨?_, ?_⟩
  · intro rid r' hget
    rcases get?_insert_cases hget with ⟨rfl, rfl⟩ | ⟨-, hget⟩
    · exact ⟨rfl, by simp⟩
    · exact ⟨(h.own rid r' hget).1, by simp⟩
  · intro p rid _
    show (s.byProc.insert r.proc r.recordId).get? p = some rid ↔
      ∃ r', (s.byId.insert r.recordId r).get? rid = some r' ∧ r'.proc = p
    constructor
    · intro hget
      rcases get?_insert_cases hget with ⟨rfl, rfl⟩ | ⟨hp, hget⟩
      · exact ⟨r, get?_insert_self _ _ _, rfl⟩
      · obtain ⟨r', hr', hproc⟩ := (h.index p rid (by simpa using hp)).mp hget
        have hne : r.recordId ≠ rid := by
          rintro rfl
          rw [hfresh] at hr'
          exact absurd hr' (by simp)
        exact ⟨r', by rw [get?_insert_of_ne _ _ hne, hr'], hproc⟩
    · rintro ⟨r', hget, hproc⟩
      rcases get?_insert_cases hget with ⟨rfl, rfl⟩ | ⟨-, hget⟩
      · rw [← hproc, get?_insert_self]
      · have hp : p ≠ r.proc := by
          rintro rfl
          exact (h.own rid r' hget).2 (by rw [hproc])
        rw [get?_insert_of_ne _ _ (Ne.symm hp)]
        exact (h.index p rid (by simpa using hp)).mpr ⟨r', hget, hproc⟩

/-- The tables are in step and within capacity. -/
structure Inv (s : RecordStore) : Prop where
  tables : InvAt s none
  capacity : (s.byId.size : ℤ) ≤ s.maxRecords

theorem inv_new (ttl : ℤ) {maxRecords : ℤ} (h : 1 ≤ maxRecords) :
    Inv (RecordStore.new ttl maxRecords) := by
  refine ⟨⟨?_, ?_⟩, ?_⟩
  · intro rid r hget
    exact absurd hget (by simp [RecordStore.new])
  · intro p rid _
    simp [RecordStore.new]
  · show ((0 : ℕ) : ℤ) ≤ maxRecords
    omega

theorem makeRoom_spec (h : InvAt s skip) (hcap : (s.byId.size : ℤ) ≤ s.maxRecords)
    (hmax : 1 ≤ s.maxRecords) :
    InvAt s.makeRoom skip ∧ Shrinks s s.makeRoom ∧
      (s.makeRoom.byId.size : ℤ) + 1 ≤ s.maxRecords := by
  unfold RecordStore.makeRoom
  split
  · next hfull =>
    obtain ⟨hinv, hshrink, hlt⟩ := evictOneLocked_spec h
    have hlt := hlt (by omega)
    exact ⟨hinv, hshrink, by omega⟩
  · exact ⟨h, .refl s, by omega⟩

/-- **Registration** keeps the invariant; what it leaves is the new record and old records of
other processes. -/
theorem register_spec (h : Inv s) (hmax : 1 ≤ s.maxRecords) (reg : Registration)
    {recordId : String} (now : ℚ) (hfresh : s.byId.get? recordId = none) :
    Inv (s.register reg recordId now).1 ∧
      (s.register reg recordId now).1.ttl = s.ttl ∧
      (s.register reg recordId now).1.maxRecords = s.maxRecords ∧
      ∀ rid r, (s.register reg recordId now).1.byId.get? rid = some r →
        r = s.mint reg recordId now ∨
          s.byId.get? rid = some r ∧ r.proc ≠ (s.mint reg recordId now).proc := by
  unfold RecordStore.register
  set r₀ := s.mint reg recordId now with hr₀
  obtain ⟨hinv₁, hsh₁⟩ := reapLocked_spec h.tables now
  obtain ⟨hinv₂, hsh₂⟩ := dropPrevious_spec hinv₁ r₀.proc
  have hsh₂ := hsh₁.trans hsh₂
  have hcap₂ : (((s.reapLocked now).dropPrevious r₀.proc).byId.size : ℤ) ≤
      ((s.reapLocked now).dropPrevious r₀.proc).maxRecords := by
    have hsize := hsh₂.size
    have hcap := h.capacity
    rw [hsh₂.maxRecords]
    omega
  obtain ⟨hinv₃, hsh₃, hroom⟩ := makeRoom_spec hinv₂ hcap₂ (by rw [hsh₂.maxRecords]; exact hmax)
  have hsh₃ := hsh₂.trans hsh₃
  set s₃ := ((s.reapLocked now).dropPrevious r₀.proc).makeRoom with hs₃
  have hnone : s₃.byId.get? r₀.recordId = none := by
    cases hget : s₃.byId.get? r₀.recordId with
    | none => rfl
    | some r' =>
      have hold := hsh₃.byId _ _ hget
      have hid : r₀.recordId = recordId := rfl
      rw [hid, hfresh] at hold
      exact absurd hold (by simp)
  refine ⟨⟨hinv₃.put hnone, ?_⟩, hsh₃.ttl, hsh₃.maxRecords, ?_⟩
  · show ((s₃.byId.insert r₀.recordId r₀).size : ℤ) ≤ s₃.maxRecords
    have hsize := size_insert_le s₃.byId r₀.recordId r₀
    rw [hsh₂.maxRecords] at hroom
    rw [hsh₃.maxRecords]
    omega
  · intro rid r hget
    rcases get?_insert_cases hget with ⟨-, hr⟩ | ⟨-, hget⟩
    · exact .inl hr
    · refine .inr ⟨hsh₃.byId rid r hget, ?_⟩
      intro hproc
      exact (hinv₃.own rid r hget).2 (by rw [hproc])

theorem get_spec (h : InvAt s none) (recordId : String) (now : ℚ) :
    InvAt (s.get recordId now).1 none ∧ Shrinks s (s.get recordId now).1 := by
  unfold RecordStore.get
  split
  · exact ⟨h, .refl s⟩
  · next r hget =>
    split
    · refine ⟨h.dropLocked ?_, shrinks_dropLocked s r⟩
      intro r' hr'
      rw [(h.own recordId r hget).1, hget] at hr'
      exact (Option.some.inj hr').symm
    · exact ⟨h, .refl s⟩

/-- **Lookup** by process: the branch that repairs a dangling index entry is never taken. -/
theorem findByProc_spec (h : InvAt s none) (p : Proc) (now : ℚ) :
    InvAt (s.findByProc p now).1 none ∧ Shrinks s (s.findByProc p now).1 ∧
      ∀ r, (s.findByProc p now).2 = some r →
        s.byId.get? r.recordId = some r ∧ r.proc = p ∧ r.isExpired now = false := by
  unfold RecordStore.findByProc
  cases hp : s.byProc.get? p with
  | none => exact ⟨h, .refl s, fun r hr => absurd hr (by simp)⟩
  | some rid =>
    obtain ⟨r, hget, hproc⟩ := (h.index p rid (by simp)).mp hp
    have hid := (h.own rid r hget).1
    simp only [hget]
    split
    · refine ⟨h.dropLocked ?_, shrinks_dropLocked s r, fun r' hr' => absurd hr' (by simp)⟩
      intro r' hr'
      rw [hid, hget] at hr'
      exact (Option.some.inj hr').symm
    · next hexp =>
      refine ⟨h, .refl s, ?_⟩
      intro r' hr'
      cases hr'
      exact ⟨by rw [hid, hget], hproc, by simpa using hexp⟩

/-- **Revocation** leaves no record of the process. -/
theorem revokeProc_spec (h : InvAt s none) (p : Proc) :
    InvAt (s.revokeProc p).1 none ∧ Shrinks s (s.revokeProc p).1 ∧
      ∀ rid r, (s.revokeProc p).1.byId.get? rid = some r → r.proc ≠ p := by
  unfold RecordStore.revokeProc
  cases hp : s.byProc.get? p with
  | none =>
    refine ⟨h, .refl s, ?_⟩
    rintro rid r hget rfl
    have hidx := (h.index r.proc rid (by simp)).mpr ⟨r, hget, rfl⟩
    rw [hp] at hidx
    exact absurd hidx (by simp)
  | some rid₀ =>
    obtain ⟨r₀, hget₀, hproc₀⟩ := (h.index p rid₀ (by simp)).mp hp
    have hother : ∀ rid r, (s.byId.erase rid₀).get? rid = some r → r.proc ≠ p := by
      rintro rid r hget rfl
      obtain ⟨hne, hget⟩ := get?_erase_cases hget
      have hidx := (h.index r.proc rid (by simp)).mpr ⟨r, hget, rfl⟩
      rw [hp] at hidx
      exact hne (Option.some.inj hidx).symm
    refine ⟨⟨?_, ?_⟩, ⟨rfl, rfl, fun _ _ hget => (get?_erase_cases hget).2,
      size_erase_le _ _⟩, hother⟩
    · intro rid r hget
      exact h.own rid r (get?_erase_cases hget).2
    · intro q rid _
      show (s.byProc.erase p).get? q = some rid ↔
        ∃ r, (s.byId.erase rid₀).get? rid = some r ∧ r.proc = q
      constructor
      · intro hget
        obtain ⟨hq, hget⟩ := get?_erase_cases hget
        obtain ⟨r, hr, hproc⟩ := (h.index q rid (by simp)).mp hget
        have hne : rid ≠ rid₀ := by
          rintro rfl
          rw [hget₀] at hr
          cases hr
          exact hq (by rw [← hproc, hproc₀])
        exact ⟨r, by rw [get?_erase_of_ne _ hne, hr], hproc⟩
      · rintro ⟨r, hget, rfl⟩
        have hq := hother rid r hget
        rw [get?_erase_of_ne _ hq]
        exact (h.index r.proc rid (by simp)).mpr ⟨r, (get?_erase_cases hget).2, rfl⟩

/-! ## The ideal table -/

variable {now : ℚ}

theorem isExpired_mono {now' : ℚ} (h : r.isExpired now = true) (hle : now ≤ now') :
    r.isExpired now' = true := by
  unfold LaunchRecord.isExpired at *
  simp only [Bool.and_eq_true, decide_eq_true_eq] at *
  exact ⟨h.1, h.2.trans hle⟩

/-- Every stored record is the ideal answer for its process, or has expired. -/
def Below (s : RecordStore) (m : Proc → Option LaunchRecord) (now : ℚ) : Prop :=
  ∀ rid r, s.byId.get? rid = some r → m r.proc = some r ∨ r.isExpired now = true

variable {m : Proc → Option LaunchRecord}

theorem Below.expire {last : ℚ} (h : Below s m last) (hle : last ≤ now) :
    Below s (fun p => (m p).filter fun r => !r.isExpired now) now := by
  intro rid r hget
  cases hexp : r.isExpired now with
  | true => exact .inr rfl
  | false =>
    rcases h rid r hget with hm | hlast
    · refine .inl ?_
      show (m r.proc).filter _ = some r
      rw [hm, Option.filter_some, if_pos (by simp [hexp])]
    · rw [isExpired_mono hlast hle] at hexp
      exact absurd hexp (by simp)

theorem Below.shrinks {s' : RecordStore} (h : Below s m now) (hs : Shrinks s s') : Below s' m now :=
  fun rid r hget => h rid r (hs.byId rid r hget)

theorem Inv.shrinks {s' : RecordStore} (h : Inv s) (hinv : InvAt s' none) (hs : Shrinks s s') :
    Inv s' := by
  refine ⟨hinv, ?_⟩
  have hcap := h.capacity
  have hsize := hs.size
  rw [hs.maxRecords]
  omega

/-- **One call** keeps the tables in step and the store below the ideal table. -/
theorem step_below {s₀ : RecordStore} {last : ℚ} (h : Inv s) (hmax : 1 ≤ s.maxRecords)
    (httl : s.ttl = s₀.ttl) (hb : Below s m last) {c : Call × ℚ} (hle : last ≤ c.2)
    (hfresh : FreshId s c) :
    Inv (step s c) ∧ (step s c).maxRecords = s.maxRecords ∧ (step s c).ttl = s.ttl ∧
      Below (step s c) (attest s₀ m c) c.2 := by
  obtain ⟨call, now⟩ := c
  have hlive := hb.expire hle
  have hmint : ∀ reg recordId, s₀.mint reg recordId now = s.mint reg recordId now := by
    intro reg recordId
    unfold RecordStore.mint
    rw [httl]
  cases call with
  | register reg recordId =>
    obtain ⟨hinv, httl', hmax', hrecords⟩ := register_spec h hmax reg now hfresh
    refine ⟨hinv, hmax', httl', ?_⟩
    intro rid r hget
    show Function.update (fun p => (m p).filter fun r => !r.isExpired now)
      (reg.pid, reg.starttime) (some (s₀.mint reg recordId now)) r.proc = some r ∨ _
    rcases hrecords rid r hget with rfl | ⟨hold, hproc⟩
    · left
      have hkey : (s.mint reg recordId now).proc = (reg.pid, reg.starttime) := rfl
      rw [hkey, Function.update_self, hmint]
    · have hne : r.proc ≠ (reg.pid, reg.starttime) := hproc
      rw [Function.update_of_ne hne]
      exact hlive rid r hold
  | get recordId =>
    obtain ⟨hinv, hs⟩ := get_spec h.tables recordId now
    exact ⟨h.shrinks hinv hs, hs.maxRecords, hs.ttl, hlive.shrinks hs⟩
  | findByProc p =>
    obtain ⟨hinv, hs, -⟩ := findByProc_spec h.tables p now
    exact ⟨h.shrinks hinv hs, hs.maxRecords, hs.ttl, hlive.shrinks hs⟩
  | revokeProc p =>
    obtain ⟨hinv, hs, hgone⟩ := revokeProc_spec h.tables p
    refine ⟨h.shrinks hinv hs, hs.maxRecords, hs.ttl, ?_⟩
    intro rid r hget
    show Function.update (fun p => (m p).filter fun r => !r.isExpired now) p none r.proc
      = some r ∨ _
    rw [Function.update_of_ne (hgone rid r hget)]
    exact hlive rid r (hs.byId rid r hget)
  | reapExpired =>
    obtain ⟨hinv, hs⟩ := reapLocked_spec h.tables now
    exact ⟨h.shrinks hinv hs, hs.maxRecords, hs.ttl, hlive.shrinks hs⟩

/-- **A run** with a clock that does not go back. -/
theorem run_below {s₀ : RecordStore} {last : ℚ} (calls : List (Call × ℚ)) (h : Inv s)
    (hmax : 1 ≤ s.maxRecords) (httl : s.ttl = s₀.ttl) (hb : Below s m last)
    (hlast : ∀ c ∈ calls, last ≤ c.2) (hclock : (calls.map Prod.snd).Pairwise (· ≤ ·))
    (hfresh : Meets step FreshId s calls) (hnow : ∀ c ∈ calls, c.2 ≤ now) (hle : last ≤ now) :
    Inv (run step s calls) ∧ (run step s calls).maxRecords = s.maxRecords ∧
      Below (run step s calls) (calls.foldl (attest s₀) m) now := by
  induction calls generalizing s m last with
  | nil =>
    refine ⟨h, rfl, ?_⟩
    intro rid r hget
    exact (hb rid r hget).imp id fun hexp => isExpired_mono hexp hle
  | cons c rest ih =>
    obtain ⟨hinv, hmax', httl', hb'⟩ :=
      step_below h hmax httl hb (hlast c List.mem_cons_self) hfresh.1
    rw [List.map_cons, List.pairwise_cons] at hclock
    have hrest : ∀ c' ∈ rest, c.2 ≤ c'.2 := fun c' hc' =>
      hclock.1 c'.2 (List.mem_map.mpr ⟨c', hc', rfl⟩)
    obtain ⟨hinv, hmaxr, hbelow⟩ := ih hinv (by rw [hmax']; exact hmax)
      (httl'.trans httl) hb' hrest hclock.2 hfresh.2
      (fun c' hc' => hnow c' (List.mem_cons_of_mem _ hc')) (hnow c List.mem_cons_self)
    exact ⟨hinv, hmaxr.trans hmax', hbelow⟩

/-! ## The resolver -/

/-- `Subject` -/
structure Subject where
  uid : ℤ
  exe : String
  silo : String
  sandboxEngine : String
  appId : String
  selinuxLabel : String
  cgroup : String
  verified : Bool
  recordId : String
  reason : String

/-- The readers of `/proc`: executable and start time, real uid, label and cgroup. -/
structure ProcReaders where
  readExeAndStarttime : ℤ → String × ℤ
  readUid : ℤ → Option ℤ
  readSelinuxLabel : ℤ → String
  readCgroup : ℤ → String

/-- `_unknown` -/
def unknownSubject (uid : ℤ) (exe label cgroup reason : String) : Subject where
  uid := uid
  exe := exe
  silo := ""
  sandboxEngine := ""
  appId := ""
  selinuxLabel := label
  cgroup := cgroup
  verified := false
  recordId := ""
  reason := reason

section Resolver

variable (u : UnicodeDb)

/-- An axis that a record may carry: it must then be the live value. -/
def textMismatch (what live recorded : String) : List String :=
  if recorded = "" then []
  else if live = "" ∨ live ≠ recorded then
    [what ++ s!" live={PyText.pyRepr u live} record={PyText.pyRepr u recorded}"]
  else []

/-- The axes on which a record and the live process differ. -/
def mismatches (r : LaunchRecord) (liveUid : Option ℤ) (exe label cgroup : String) :
    List String :=
  let uidText := (liveUid.map (toString ·)).getD "None"
  (if liveUid = some r.uid then [] else [s!"uid live={uidText} record={r.uid}"]) ++
  (if r.exe ≠ "" ∧ r.exe ≠ "?" ∧ (exe = "" ∨ exe = "?" ∨ exe ≠ r.exe) then
    [s!"exe live={PyText.pyRepr u exe} record={PyText.pyRepr u r.exe}"] else []) ++
  textMismatch u "label" label r.selinuxLabel ++ textMismatch u "cgroup" cgroup r.cgroup

/-- `resolve_subject`; a pid that is no integer is `none`. -/
def resolveSubject (fs : ProcReaders) (pid : Option ℤ) (store : Option RecordStore) (now : ℚ) :
    Option RecordStore × Subject :=
  match pid with
  | none => (store, unknownSubject (-1) "?" "" "" "invalid-pid")
  | some pid =>
    if pid ≤ 0 then (store, unknownSubject (-1) "?" "" "" "invalid-pid")
    else
      let (exe, starttime) := fs.readExeAndStarttime pid
      if starttime = 0 then (store, unknownSubject (-1) exe "" "" "proc-gone")
      else
        let liveUid := fs.readUid pid
        let label := fs.readSelinuxLabel pid
        let cgroup := fs.readCgroup pid
        let uid := liveUid.getD (-1)
        match store with
        | none => (none, unknownSubject uid exe label cgroup "no-launch-record-store")
        | some s =>
          match s.findByProc (pid, starttime) now with
          | (s', none) => (some s', unknownSubject uid exe label cgroup "no-launch-record")
          | (s', some r) =>
            let bad := mismatches u r liveUid exe label cgroup
            if bad ≠ [] then
              (some s', unknownSubject uid exe label cgroup
                ("record-mismatch: " ++ "; ".intercalate bad))
            else
              (some s',
                { uid := uid
                  exe := exe
                  silo := r.silo
                  sandboxEngine := r.sandboxEngine
                  appId := r.appId
                  selinuxLabel := label
                  cgroup := cgroup
                  verified := true
                  recordId := r.recordId
                  reason := "ok" })

end Resolver

theorem verified_spec {u : UnicodeDb} {fs : ProcReaders} {pid : Option ℤ}
    (h : (resolveSubject u fs pid (some s) now).2.verified = true) :
    ∃ n r, pid = some n ∧
      (s.findByProc (n, (fs.readExeAndStarttime n).2) now).2 = some r ∧
      (resolveSubject u fs pid (some s) now).2.silo = r.silo ∧
      (resolveSubject u fs pid (some s) now).2.recordId = r.recordId ∧
      (resolveSubject u fs pid (some s) now).2.appId = r.appId ∧
      (resolveSubject u fs pid (some s) now).2.sandboxEngine = r.sandboxEngine := by
  generalize hres : resolveSubject u fs pid (some s) now = res at h ⊢
  unfold resolveSubject at hres
  cases pid with
  | none =>
    subst hres
    exact absurd h (by simp [unknownSubject])
  | some n =>
    simp only at hres
    split at hres
    · subst hres
      exact absurd h (by simp [unknownSubject])
    split at hres
    · subst hres
      exact absurd h (by simp [unknownSubject])
    split at hres
    · subst hres
      exact absurd h (by simp [unknownSubject])
    · next s' r hfind =>
      split at hres
      · subst hres
        exact absurd h (by simp [unknownSubject])
      · subst hres
        exact ⟨n, r, rfl, by rw [hfind], rfl, rfl, rfl, rfl⟩

/-! ## The store over whole runs -/

/-- **The launch-record store.**  After every run with a clock that does not go back, the two
tables are a bijection within capacity, a lookup answers nothing or the ideal answer, and so
a verified subject has the silo of the last record of exactly the live process. -/
theorem launch_records (u : UnicodeDb) (ttl maxRecords : ℤ) (hmax : 1 ≤ maxRecords)
    (calls : List (Call × ℚ)) (hclock : (calls.map Prod.snd).Pairwise (· ≤ ·))
    (hfresh : Meets step FreshId (RecordStore.new ttl maxRecords) calls) :
    (∀ rid r, (run step (RecordStore.new ttl maxRecords) calls).byId.get? rid = some r →
        r.recordId = rid) ∧
      (∀ p rid, (run step (RecordStore.new ttl maxRecords) calls).byProc.get? p = some rid ↔
        ∃ r, (run step (RecordStore.new ttl maxRecords) calls).byId.get? rid = some r ∧
          r.proc = p) ∧
      ((run step (RecordStore.new ttl maxRecords) calls).byId.size : ℤ) ≤ maxRecords ∧
      ∀ now, (∀ c ∈ calls, c.2 ≤ now) →
        (∀ p, ((run step (RecordStore.new ttl maxRecords) calls).findByProc p now).2 = none ∨
          ((run step (RecordStore.new ttl maxRecords) calls).findByProc p now).2 =
            attested (RecordStore.new ttl maxRecords) (calls ++ [(.findByProc p, now)]) p) ∧
        ∀ fs pid, (resolveSubject u fs pid
            (some (run step (RecordStore.new ttl maxRecords) calls)) now).2.verified = true →
          ∃ n r, pid = some n ∧
            attested (RecordStore.new ttl maxRecords)
              (calls ++ [(.findByProc (n, (fs.readExeAndStarttime n).2), now)])
              (n, (fs.readExeAndStarttime n).2) = some r ∧
            r.proc = (n, (fs.readExeAndStarttime n).2) ∧
            (resolveSubject u fs pid
              (some (run step (RecordStore.new ttl maxRecords) calls)) now).2.silo = r.silo := by
  set s₀ := RecordStore.new ttl maxRecords with hs₀
  have hempty : ∀ last, Below s₀ (fun _ => none) last :=
    fun last rid r hget => absurd hget (by simp [hs₀, RecordStore.new])
  -- a time before all calls
  obtain ⟨last, hlast⟩ : ∃ last : ℚ, ∀ c ∈ calls, last ≤ c.2 := by
    cases calls with
    | nil => exact ⟨0, fun c hc => absurd hc (by simp)⟩
    | cons c rest =>
      rw [List.map_cons, List.pairwise_cons] at hclock
      refine ⟨c.2, fun c' hc' => ?_⟩
      rcases List.mem_cons.mp hc' with rfl | hc'
      · exact le_rfl
      · exact hclock.1 c'.2 (List.mem_map.mpr ⟨c', hc', rfl⟩)
  have hafter : ∀ now, (∀ c ∈ calls, c.2 ≤ now) → Inv (run step s₀ calls) ∧
      (run step s₀ calls).maxRecords = maxRecords ∧
      Below (run step s₀ calls) (attested s₀ calls) now := by
    intro now hnow
    have hle : min last now ≤ now := min_le_right _ _
    exact run_below calls (inv_new ttl hmax) hmax rfl (hempty (min last now))
      (fun c hc => (min_le_left _ _).trans (hlast c hc)) hclock hfresh hnow hle
  have hfind : ∀ now, (∀ c ∈ calls, c.2 ≤ now) → ∀ p r,
      ((run step s₀ calls).findByProc p now).2 = some r →
        attested s₀ (calls ++ [(.findByProc p, now)]) p = some r ∧ r.proc = p := by
    intro now hnow p r hr
    obtain ⟨hinv, -, hbelow⟩ := hafter now hnow
    obtain ⟨hget, hproc, hexp⟩ := (findByProc_spec hinv.tables p now).2.2 r hr
    refine ⟨?_, hproc⟩
    rcases hbelow r.recordId r hget with hm | hold
    · unfold attested at hm ⊢
      rw [List.foldl_append]
      show (calls.foldl (attest s₀) (fun _ => none) p).filter _ = some r
      rw [← hproc, hm, Option.filter_some, if_pos (by simp [hexp])]
    · rw [hold] at hexp
      exact absurd hexp (by simp)
  obtain ⟨top, htop⟩ : ∃ top : ℚ, ∀ c ∈ calls, c.2 ≤ top := by
    obtain ⟨top, htop⟩ := (calls.map Prod.snd).toFinset.exists_le
    exact ⟨top, fun c hc => htop c.2 (List.mem_toFinset.mpr (List.mem_map.mpr ⟨c, hc, rfl⟩))⟩
  obtain ⟨hinv, hmaxr, -⟩ := hafter top htop
  refine ⟨fun rid r hget => (hinv.tables.own rid r hget).1,
    fun p rid => hinv.tables.index p rid (by simp), ?_, ?_⟩
  · rw [← hmaxr]
    exact hinv.capacity
  · intro now hnow
    refine ⟨?_, ?_⟩
    · intro p
      cases hr : ((run step s₀ calls).findByProc p now).2 with
      | none => exact .inl rfl
      | some r => exact .inr (hfind now hnow p r hr).1.symm
    · intro fs pid hv
      obtain ⟨n, r, hpid, hr, hsilo, -⟩ := verified_spec hv
      obtain ⟨hatt, hproc⟩ := hfind now hnow _ r hr
      exact ⟨n, r, hpid, hatt, hproc, hsilo⟩

/-- A process and a later one with its pid, in a store of one record. -/
def recycledPid : List (Call × ℚ) :=
  [(.register { silo := "work", uid := 1000, pid := 42, starttime := 7, exe := "/bin/app" } "r1", 1),
    (.register { silo := "bank", uid := 1000, pid := 42, starttime := 9, exe := "/bin/app" } "r2", 2),
    (.get "r1", 3)]

theorem launch_records_recycledPid :
    ((run step (RecordStore.new 60 1) recycledPid).byId.size : ℤ) ≤ 1 ∧
      ((run step (RecordStore.new 60 1) recycledPid).findByProc (42, 7) 4).2 = none ∧
      (((run step (RecordStore.new 60 1) recycledPid).findByProc (42, 9) 4).2.map
        LaunchRecord.silo) = some "bank" :=
  ⟨(launch_records .ascii 60 1 (by decide) recycledPid (by decide +kernel)
    (by decide +kernel)).2.2.1, by decide +kernel, by decide +kernel⟩

end LaunchRecords
