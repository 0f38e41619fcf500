/-
# The rate limiter of the broker

`RateLimiter.check`: one bucket of admitted times for each caller and action.  A call trims its own
bucket from the left and may evict the bucket of another key, so the rate is a property of a run:
between two evictions a bucket is what is left of everything that was admitted, and whatever is no
longer in it is too old to share a window with the call.
-/
import QDistro.PyDict
import Mathlib.Data.List.MinMax
import Mathlib.Data.List.TakeWhile
import Mathlib.Tactic.Linarith

/-- A limiter that its constructor accepts. -/
structure RateLimiter where
  limit : ℕ
  window : ℚ
  maxKeys : ℕ
  limit_pos : 1 ≤ limit
  window_pos : 0 < window
  maxKeys_pos : 1 ≤ maxKeys

namespace RateLimiter

open List

/-- `(int(uid), str(action))` -/
abbrev Key := ℤ × String

/-- `_buckets` -/
abbrev Buckets := PyDict Key (List ℚ)

structure Call where
  key : Key
  now : ℚ

/-- `_last_seen` -/
def lastSeen (item : Key × List ℚ) : ℚ := item.2.getLast?.getD (-1)

/-- `min(self._buckets.items(), key=_last_seen)[0]`: the first of the least. -/
def victim (b : Buckets) : Option Key := (b.entries.argmin lastSeen).map Prod.fst

variable (r : RateLimiter)

/-- The key whose bucket goes when a call comes in. -/
def evicted (b : Buckets) (key : Key) : Option Key :=
  if b.get? key = none ∧ r.maxKeys ≤ b.size then victim b else none

def evict (b : Buckets) (key : Key) : Buckets :=
  match r.evicted b key with
  | some v => b.erase v
  | none => b

/-- The bucket of a key, empty when there is none. -/
def bucket (b : Buckets) (key : Key) : List ℚ := (b.get? key).getD []

/-- The bucket of a call with the old entries gone. -/
def trimmed (b : Buckets) (c : Call) : List ℚ :=
  (bucket (r.evict b c.key) c.key).dropWhile fun x => decide (x < c.now - r.window)

/-- `check` -/
def check (b : Buckets) (c : Call) : Bool × Buckets :=
  if r.limit ≤ (r.trimmed b c).length then (false, (r.evict b c.key).insert c.key (r.trimmed b c))
  else (true, (r.evict b c.key).insert c.key (r.trimmed b c ++ [c.now]))

/-- The buckets after a run. -/
def after (b : Buckets) (calls : List Call) : Buckets :=
  calls.foldl (fun b c => (r.check b c).2) b

/-- The times at which calls of a key were admitted. -/
def admitted (key : Key) : Buckets → List Call → List ℚ
  | _, [] => []
  | b, c :: calls =>
    (if c.key = key ∧ (r.check b c).1 = true then [c.now] else []) ++
      admitted key (r.check b c).2 calls

/-- A stretch in which the bucket of a key is not evicted. -/
def Kept (key : Key) : Buckets → List Call → Prop
  | _, [] => True
  | b, c :: calls => r.evicted b c.key ≠ some key ∧ Kept key (r.check b c).2 calls

/-- A closed interval as long as the window. -/
def within (t x : ℚ) : Bool := decide (t ≤ x ∧ x ≤ t + r.window)

/-! ## One call -/

variable {r} {b : Buckets} {key : Key} {c : Call}

theorem mem_of_victim {v : Key} (h : victim b = some v) : ∃ l, b.get? v = some l := by
  obtain ⟨item, hitem, rfl⟩ := Option.map_eq_some_iff.mp h
  exact ⟨item.2, (b.get?_eq_some_iff _ _).mpr (argmin_mem hitem)⟩

theorem bucket_evict (h : r.evicted b c.key ≠ some key) :
    bucket (r.evict b c.key) key = bucket b key := by
  unfold bucket evict
  cases he : r.evicted b c.key with
  | none => rfl
  | some v =>
    have hne : key ≠ v := fun hv => h (he.trans (congrArg some hv.symm))
    dsimp only
    rw [PyDict.get?_erase_of_ne b hne]

theorem evicted_self (b : Buckets) (c : Call) : r.evicted b c.key ≠ some c.key := by
  intro h
  unfold evicted at h
  split at h
  · next hnew =>
    obtain ⟨l, hl⟩ := mem_of_victim h
    rw [hnew.1] at hl
    cases hl
  · cases h

theorem trimmed_eq (b : Buckets) (c : Call) :
    r.trimmed b c = (bucket b c.key).dropWhile fun x => decide (x < c.now - r.window) := by
  rw [trimmed, bucket_evict (evicted_self b c)]

theorem bucket_check_of_ne (hne : c.key ≠ key) (h : r.evicted b c.key ≠ some key) :
    bucket (r.check b c).2 key = bucket b key := by
  have hput : ∀ l, bucket ((r.evict b c.key).insert c.key l) key = bucket b key := by
    intro l
    rw [bucket, PyDict.get?_insert_of_ne _ _ hne]
    exact bucket_evict h
  unfold check
  split <;> exact hput _

/-- **What a call does to its own bucket.** -/
theorem check_self (b : Buckets) (c : Call) :
    ((r.check b c).1 = false ∧ r.limit ≤ (r.trimmed b c).length ∧
      bucket (r.check b c).2 c.key = r.trimmed b c) ∨
    ((r.check b c).1 = true ∧ (r.trimmed b c).length < r.limit ∧
      bucket (r.check b c).2 c.key = r.trimmed b c ++ [c.now]) := by
  unfold check bucket
  split
  · next h => exact .inl ⟨rfl, h, by simp⟩
  · next h => exact .inr ⟨rfl, not_le.mp h, by simp⟩

/-! ## Tracked keys -/

theorem size_check (h : b.size ≤ r.maxKeys) : (r.check b c).2.size ≤ r.maxKeys := by
  have hsize : ∀ l, ((r.evict b c.key).insert c.key l).size ≤ r.maxKeys := by
    intro l
    by_cases hnew : b.get? c.key = none
    · have hsmall : (r.evict b c.key).size < r.maxKeys := by
        unfold evict
        by_cases hfull : r.maxKeys ≤ b.size
        · have hevicted : r.evicted b c.key = victim b := if_pos ⟨hnew, hfull⟩
          rw [hevicted]
          cases hv : victim b with
          | none =>
            have hempty := argmin_eq_none.mp (Option.map_eq_none_iff.mp hv)
            rw [PyDict.size, hempty]
            exact r.maxKeys_pos
          | some v =>
            obtain ⟨l, hl⟩ := mem_of_victim hv
            exact (PyDict.size_erase_lt hl).trans_le h
        · rw [evicted, if_neg fun hc => hfull hc.2]
          exact not_le.mp hfull
      have := (r.evict b c.key).size_insert_le c.key l
      omega
    · have hsame : r.evict b c.key = b := by
        rw [evict, evicted, if_neg fun hc => hnew hc.1]
      rw [hsame]
      exact (b.size_insert_of_mem hnew l).le.trans h
  unfold check
  split <;> exact hsize _

theorem size_after (calls : List Call) (h : b.size ≤ r.maxKeys) :
    (r.after b calls).size ≤ r.maxKeys := by
  induction calls generalizing b with
  | nil => exact h
  | cons c calls ih => exact ih (size_check h)

/-! ## A bucket is the end of what was admitted -/

theorem bucket_check_suffix {hist : List ℚ} (h : bucket b key <:+ hist) :
    bucket (r.check b c).2 key <:+
      hist ++ if c.key = key ∧ (r.check b c).1 = true then [c.now] else [] := by
  by_cases hkey : c.key = key
  · subst hkey
    have htrim : r.trimmed b c <:+ hist := by
      rw [trimmed_eq]
      exact (dropWhile_suffix _).trans h
    rcases check_self (r := r) b c with ⟨hno, -, hb⟩ | ⟨hyes, -, hb⟩
    · rw [hb, if_neg (by simp [hno]), append_nil]
      exact htrim
    · rw [hb, if_pos ⟨rfl, hyes⟩]
      obtain ⟨d, rfl⟩ := htrim
      exact ⟨d, by rw [append_assoc]⟩
  · rw [if_neg fun hc => hkey hc.1, append_nil]
    by_cases hev : r.evicted b c.key = some key
    · have hnone : bucket (r.check b c).2 key = [] := by
        have hput : ∀ l, bucket ((r.evict b c.key).insert c.key l) key = [] := by
          intro l
          rw [bucket, PyDict.get?_insert_of_ne _ _ hkey, evict, hev]
          dsimp only
          rw [PyDict.get?_erase_self]
          rfl
        unfold check
        split <;> exact hput _
      rw [hnone]
      exact nil_suffix
    · rw [bucket_check_of_ne hkey hev]
      exact h

theorem bucket_after_suffix (calls : List Call) {hist : List ℚ} (h : bucket b key <:+ hist) :
    bucket (r.after b calls) key <:+ hist ++ r.admitted key b calls := by
  induction calls generalizing b hist with
  | nil => rwa [admitted, append_nil]
  | cons c calls ih =>
    rw [admitted, ← append_assoc]
    exact ih (bucket_check_suffix h)

theorem mem_admitted {x : ℚ} {calls : List Call} (h : x ∈ r.admitted key b calls) :
    ∃ c ∈ calls, c.now = x := by
  induction calls generalizing b with
  | nil => cases h
  | cons c calls ih =>
    rw [admitted] at h
    rcases mem_append.mp h with h | h
    · split at h
      · exact ⟨c, mem_cons_self, (mem_singleton.mp h).symm⟩
      · cases h
    · obtain ⟨d, hd, hx⟩ := ih h
      exact ⟨d, mem_cons_of_mem _ hd, hx⟩

theorem admitted_sorted {calls : List Call} (hclock : calls.Pairwise fun c d => c.now ≤ d.now) :
    (r.admitted key b calls).Pairwise (· ≤ ·) := by
  induction calls generalizing b with
  | nil => exact List.Pairwise.nil
  | cons c calls ih =>
    rw [pairwise_cons] at hclock
    rw [admitted, pairwise_append]
    refine ⟨by split <;> simp, ih hclock.2, fun x hx y hy => ?_⟩
    obtain ⟨d, hd, rfl⟩ := mem_admitted hy
    split at hx
    · rw [mem_singleton.mp hx]
      exact hclock.1 d hd
    · cases hx

theorem le_of_mem_dropWhile {l : List ℚ} (hl : l.Pairwise (· ≤ ·)) {t x : ℚ}
    (hx : x ∈ l.dropWhile fun x => decide (x < t)) : t ≤ x := by
  induction l with
  | nil => cases hx
  | cons a l ih =>
    rw [pairwise_cons] at hl
    rw [dropWhile_cons] at hx
    split at hx
    · exact ih hl.2 hx
    · next ha =>
      have hta : t ≤ a := by simpa using ha
      rcases mem_cons.mp hx with rfl | hx
      · exact hta
      · exact hta.trans (hl.1 x hx)

theorem rejected_of_admitted {calls : List Call}
    (hclock : (calls ++ [c]).Pairwise fun c d => c.now ≤ d.now)
    (h : (r.check (r.after ∅ calls) c).1 = false) :
    r.limit ≤ (r.admitted c.key ∅ calls).countP (r.within (c.now - r.window)) := by
  have hclock := pairwise_append.mp hclock
  have hbucket : bucket (r.after ∅ calls) c.key <:+ r.admitted c.key ∅ calls :=
    @bucket_after_suffix r ∅ c.key calls [] suffix_rfl
  have htrim := trimmed_eq (r := r) (r.after ∅ calls) c
  have hsuffix : r.trimmed (r.after ∅ calls) c <:+ r.admitted c.key ∅ calls := by
    rw [htrim]
    exact (dropWhile_suffix _).trans hbucket
  rcases check_self (r := r) (r.after ∅ calls) c with ⟨-, hfull, -⟩ | ⟨hyes, -⟩
  · have hall : ∀ x ∈ r.trimmed (r.after ∅ calls) c, r.within (c.now - r.window) x = true := by
      intro x hx
      obtain ⟨d, hd, rfl⟩ := mem_admitted (hsuffix.subset hx)
      rw [htrim] at hx
      have hlow := le_of_mem_dropWhile ((admitted_sorted hclock.1).sublist hbucket.sublist) hx
      have hhigh := hclock.2.2 d hd c (mem_singleton_self c)
      exact decide_eq_true ⟨hlow, by linarith⟩
    rw [← countP_eq_length.mpr hall] at hfull
    exact hfull.trans hsuffix.sublist.countP_le
  · rw [h] at hyes
    cases hyes

/-! ## A stretch without an eviction -/

/-- What has left the bucket `kept` of everything in `full` shares no window with a later call. -/
structure Window (r : RateLimiter) (full kept : List ℚ) (calls : List Call) : Prop where
  split : ∃ gone, full = gone ++ kept ∧ ∀ x ∈ gone, ∀ c ∈ calls, x < c.now - r.window
  rate : ∀ t, full.countP (r.within t) ≤ r.limit

variable {full : List ℚ}

theorem Window.trim {kept : List ℚ} {calls : List Call} (h : Window r full kept (c :: calls))
    (hclock : ∀ d ∈ calls, c.now ≤ d.now) :
    Window r full (kept.dropWhile fun x => decide (x < c.now - r.window)) (c :: calls) := by
  obtain ⟨⟨gone, rfl, hgone⟩, hrate⟩ := h
  refine ⟨⟨gone ++ kept.takeWhile fun x => decide (x < c.now - r.window), ?_, ?_⟩, hrate⟩
  · rw [append_assoc, takeWhile_append_dropWhile]
  · intro x hx d hd
    rcases mem_append.mp hx with hx | hx
    · exact hgone x hx d hd
    · have hlt : x < c.now - r.window := by simpa using mem_takeWhile_imp hx
      rcases mem_cons.mp hd with rfl | hd
      · exact hlt
      · have := hclock d hd
        linarith

theorem Window.later {kept : List ℚ} {calls : List Call} (h : Window r full kept (c :: calls)) :
    Window r full kept calls := by
  obtain ⟨⟨gone, hfull, hgone⟩, hrate⟩ := h
  exact ⟨⟨gone, hfull, fun x hx d hd => hgone x hx d (mem_cons_of_mem _ hd)⟩, hrate⟩

theorem Window.admit {kept : List ℚ} {calls : List Call} (h : Window r full kept (c :: calls))
    (hroom : kept.length < r.limit) : Window r (full ++ [c.now]) (kept ++ [c.now]) calls := by
  obtain ⟨⟨gone, rfl, hgone⟩, hrate⟩ := h
  refine ⟨⟨gone, by rw [append_assoc], fun x hx d hd =>
    hgone x hx d (mem_cons_of_mem _ hd)⟩, fun t => ?_⟩
  rw [countP_append, countP_singleton]
  by_cases hin : r.within t c.now = true
  · -- an interval with the call in it has left everything that is gone
    have hnone : gone.countP (r.within t) = 0 := by
      rw [countP_eq_zero]
      intro x hx hin'
      have h1 := (of_decide_eq_true hin).2
      have h2 := (of_decide_eq_true hin').1
      have h3 := hgone x hx c mem_cons_self
      linarith
    have hkept : kept.countP (r.within t) ≤ kept.length := countP_le_length
    rw [countP_append, if_pos hin]
    omega
  · rw [if_neg hin]
    exact hrate t

theorem Window.run {calls : List Call} (h : Window r full (bucket b key) calls)
    (hclock : calls.Pairwise fun c d => c.now ≤ d.now) (hkept : r.Kept key b calls) (t : ℚ) :
    (full ++ r.admitted key b calls).countP (r.within t) ≤ r.limit := by
  induction calls generalizing b full with
  | nil =>
    rw [admitted, append_nil]
    exact h.rate t
  | cons c calls ih =>
    rw [pairwise_cons] at hclock
    rw [admitted, ← append_assoc]
    refine ih ?_ hclock.2 hkept.2
    by_cases hkey : c.key = key
    · subst hkey
      have htrim := h.trim hclock.1
      rw [← trimmed_eq] at htrim
      rcases check_self (r := r) b c with ⟨hno, -, hb⟩ | ⟨hyes, hroom, hb⟩
      · rw [hb, if_neg (by simp [hno]), append_nil]
        exact htrim.later
      · rw [hb, if_pos ⟨rfl, hyes⟩]
        exact htrim.admit hroom
    · rw [if_neg fun hc => hkey hc.1, append_nil, bucket_check_of_ne hkey hkept.1]
      exact h.later

theorem bucket_check_length (h : ∀ key, (bucket b key).length ≤ r.limit) (key : Key) :
    (bucket (r.check b c).2 key).length ≤ r.limit := by
  by_cases hkey : c.key = key
  · subst hkey
    have hle : (r.trimmed b c).length ≤ r.limit := by
      rw [trimmed_eq]
      exact ((dropWhile_suffix _).length_le).trans (h c.key)
    rcases check_self (r := r) b c with ⟨-, -, hb⟩ | ⟨-, hroom, hb⟩
    · rwa [hb]
    · rw [hb, length_append, length_singleton]
      exact hroom
  · have hsuffix := bucket_check_suffix (r := r) (c := c) (suffix_refl (bucket b key))
    rw [if_neg fun hc => hkey hc.1, append_nil] at hsuffix
    exact hsuffix.length_le.trans (h key)

theorem bucket_after_length (calls : List Call) (h : ∀ key, (bucket b key).length ≤ r.limit)
    (key : Key) : (bucket (r.after b calls) key).length ≤ r.limit := by
  induction calls generalizing b with
  | nil => exact h key
  | cons c calls ih => exact ih (bucket_check_length h)

/-- **The rate of every key over a run with a clock that does not go back.** -/
theorem rate_of_run (r : RateLimiter) (calls : List Call)
    (hclock : calls.Pairwise fun c d => c.now ≤ d.now) :
    (∀ before, before <+: calls → (r.after ∅ before).size ≤ r.maxKeys) ∧
    (∀ key before stretch later, calls = before ++ stretch ++ later →
      r.Kept key (r.after ∅ before) stretch →
      ∀ t, (r.admitted key (r.after ∅ before) stretch).countP (r.within t) ≤ r.limit) ∧
    (∀ before c later, calls = before ++ c :: later → (r.check (r.after ∅ before) c).1 = false →
      r.limit ≤ (r.admitted c.key ∅ before).countP (r.within (c.now - r.window))) := by
  refine ⟨fun before _ => size_after before (Nat.zero_le _), ?_, ?_⟩
  · rintro key before stretch later rfl hkept t
    have hstretch := (List.pairwise_append.mp (List.pairwise_append.mp hclock).1).2.1
    have hstart : Window r (bucket (r.after ∅ before) key) (bucket (r.after ∅ before) key) stretch :=
      ⟨⟨[], rfl, fun x hx => by cases hx⟩, fun t => List.countP_le_length.trans
        (bucket_after_length before (fun _ => Nat.zero_le _) key)⟩
    have hrun := hstart.run hstretch hkept t
    rw [List.countP_append] at hrun
    exact (Nat.le_add_left _ _).trans hrun
  · rintro before c later rfl hno
    refine rejected_of_admitted ?_ hno
    rw [List.append_cons] at hclock
    exact (List.pairwise_append.mp hclock).1

/-- One call a second, and two keys. -/
def oneASecond : RateLimiter := ⟨1, 1, 2, by decide, by decide, by decide⟩

theorem oneASecond_rate :
    [(⟨(0, "a"), 0⟩ : Call), ⟨(0, "a"), 1⟩].Pairwise (fun c d => c.now ≤ d.now) ∧
    (oneASecond.check (oneASecond.after ∅ [⟨(0, "a"), 0⟩]) ⟨(0, "a"), 1⟩).1 = false ∧
    1 ≤ (oneASecond.admitted (0, "a") ∅ [⟨(0, "a"), 0⟩]).countP (oneASecond.within (1 - 1)) := by
  have hclock : [(⟨(0, "a"), 0⟩ : Call), ⟨(0, "a"), 1⟩].Pairwise (fun c d => c.now ≤ d.now) := by
    simp
  have hno : (oneASecond.check (oneASecond.after ∅ [⟨(0, "a"), 0⟩]) ⟨(0, "a"), 1⟩).1 = false := by
    decide +kernel
  exact ⟨hclock, hno, (rate_of_run oneASecond _ hclock).2.2 [⟨(0, "a"), 0⟩] ⟨(0, "a"), 1⟩ [] rfl hno⟩

end RateLimiter
