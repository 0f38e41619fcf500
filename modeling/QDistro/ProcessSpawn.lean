/-
# The watcher for new processes

`ProcessSpawnTrigger._scan_once`: each scan compares the processes that are listed in the matching
cgroups with those of the scan before and fires for the new ones.  The table of seen processes is
the last scan, unless that scan passed the cap: then the table is emptied, and the next scan takes
every process that is still there for a new one.
-/
import QDistro.PyDict
import Mathlib

namespace ProcessSpawnTrigger

open List

/-- The matching cgroups by their relative paths, with the pids that each one lists. -/
abbrev Scan := PyDict String (Finset ℕ)

/-- `_MAX_TRACKED_PIDS` -/
def maxTrackedPids : ℕ := 100000

structure State where
  /-- `_seen` -/
  seen : PyDict String (Finset ℕ)
  baselined : Bool

/-- The state that the constructor leaves. -/
def State.init : State := ⟨∅, false⟩

/-- The pids under a path. -/
def pidsOf (d : PyDict String (Finset ℕ)) (rel : String) : Finset ℕ := (d.get? rel).getD ∅

/-- One cgroup of a scan. -/
def visit (baseline : Bool) (acc : PyDict String (Finset ℕ) × List (String × ℕ))
    (entry : String × Finset ℕ) : PyDict String (Finset ℕ) × List (String × ℕ) :=
  (acc.1.insert entry.1 entry.2, if baseline = true then acc.2
    else acc.2 ++ ((entry.2 \ pidsOf acc.1 entry.1).sort (· ≤ ·)).map fun pid => (entry.1, pid))

/-- `sum(len(s) for s in self._seen.values())` -/
def tracked (d : PyDict String (Finset ℕ)) : ℕ := (d.entries.map fun e => e.2.card).sum

/-- `_scan_once`, with what it fires for. -/
def scanOnce (fireOnExisting : Bool) (s : State) (scan : Scan) : State × List (String × ℕ) :=
  let done := scan.entries.foldl (visit (!s.baselined && !fireOnExisting)) (s.seen, [])
  let seen := done.1.filter fun e => (scan.get? e.1).isSome
  (⟨if maxTrackedPids < tracked seen then ∅ else seen, true⟩, done.2)

/-- Scan after scan. -/
def scans (fireOnExisting : Bool) : State → List Scan → State × List (String × ℕ)
  | s, [] => (s, [])
  | s, scan :: rest =>
    let next := scanOnce fireOnExisting s scan
    ((scans fireOnExisting next.1 rest).1, next.2 ++ (scans fireOnExisting next.1 rest).2)

variable {fireOnExisting : Bool} {s : State} {scan : Scan} {rel : String} {pid : ℕ}

/-! ## One scan -/

theorem get?_visits (baseline : Bool) {l : List (String × Finset ℕ)}
    (hnd : (l.map Prod.fst).Nodup) (acc : PyDict String (Finset ℕ) × List (String × ℕ))
    (rel : String) :
    (l.foldl (visit baseline) acc).1.get? rel = (PyDict.lookup l rel).or (acc.1.get? rel) := by
  induction l generalizing acc with
  | nil => rfl
  | cons e rest ih =>
    obtain ⟨k, pids⟩ := e
    rw [map_cons, nodup_cons] at hnd
    rw [foldl_cons, ih hnd.2, PyDict.lookup]
    by_cases hk : k = rel
    · subst hk
      rw [PyDict.lookup_of_not_mem hnd.1, if_pos rfl]
      simp [visit]
    · rw [if_neg hk]
      show (PyDict.lookup rest rel).or ((acc.1.insert k pids).get? rel) = _
      rw [PyDict.get?_insert_of_ne _ _ hk]

theorem count_visit (baseline : Bool) (acc : PyDict String (Finset ℕ) × List (String × ℕ))
    (e : String × Finset ℕ) :
    (visit baseline acc e).2.count (rel, pid) = acc.2.count (rel, pid) +
      if baseline = false ∧ e.1 = rel ∧ pid ∈ e.2 \ pidsOf acc.1 rel then 1 else 0 := by
  unfold visit
  cases baseline with
  | true => simp
  | false =>
    rw [if_neg (by simp), count_append]
    congr 1
    by_cases hk : e.1 = rel
    · subst hk
      rw [count_map_of_injective _ _ fun a b h => (Prod.mk.inj h).2,
        List.Nodup.count (Finset.sort_nodup _ _)]
      simp
    · rw [if_neg fun h => hk h.2.1, count_eq_zero]
      intro hmem
      obtain ⟨x, -, hx⟩ := mem_map.mp hmem
      exact hk (congrArg Prod.fst hx)

theorem count_visits (baseline : Bool) {l : List (String × Finset ℕ)}
    (hnd : (l.map Prod.fst).Nodup) (acc : PyDict String (Finset ℕ) × List (String × ℕ)) :
    (l.foldl (visit baseline) acc).2.count (rel, pid) = acc.2.count (rel, pid) +
      if baseline = false ∧ pid ∈ ((PyDict.lookup l rel).getD ∅) \ pidsOf acc.1 rel then 1 else 0 := by
  induction l generalizing acc with
  | nil => simp [PyDict.lookup]
  | cons e rest ih =>
    obtain ⟨k, pids⟩ := e
    rw [map_cons, nodup_cons] at hnd
    rw [foldl_cons, ih hnd.2, count_visit, PyDict.lookup, Nat.add_assoc]
    congr 1
    by_cases hk : k = rel
    · subst hk
      rw [PyDict.lookup_of_not_mem hnd.1, if_pos rfl]
      simp
    · have hsame : pidsOf (visit baseline acc (k, pids)).1 rel = pidsOf acc.1 rel := by
        show pidsOf (acc.1.insert k pids) rel = _
        rw [pidsOf, PyDict.get?_insert_of_ne _ _ hk]
        rfl
      rw [hsame, if_neg hk, if_neg fun h => hk h.2.1, Nat.zero_add]

theorem count_scanOnce (fireOnExisting : Bool) (s : State) (scan : Scan) :
    (scanOnce fireOnExisting s scan).2.count (rel, pid) =
      if (!s.baselined && !fireOnExisting) = false ∧ pid ∈ pidsOf scan rel \ pidsOf s.seen rel
      then 1 else 0 := by
  refine (count_visits (!s.baselined && !fireOnExisting) scan.nodup (s.seen, [])).trans ?_
  rw [count_nil, Nat.zero_add]
  rfl

theorem get?_live (s : State) (scan : Scan) (baseline : Bool) (rel : String) :
    ((scan.entries.foldl (visit baseline) (s.seen, [])).1.filter
      fun e => (scan.get? e.1).isSome).get? rel = scan.get? rel := by
  apply Option.ext
  intro pids
  rw [PyDict.get?_filter_eq_some_iff, get?_visits baseline scan.nodup]
  show (scan.get? rel).or (s.seen.get? rel) = some pids ∧ (scan.get? rel).isSome = true ↔ _
  cases scan.get? rel <;> simp

theorem tracked_live (s : State) (scan : Scan) (baseline : Bool) :
    tracked ((scan.entries.foldl (visit baseline) (s.seen, [])).1.filter
      fun e => (scan.get? e.1).isSome) = tracked scan := by
  generalize hd : (scan.entries.foldl (visit baseline) (s.seen, [])).1.filter
    (fun e => (scan.get? e.1).isSome) = d
  have hperm : d.entries.Perm scan.entries := by
    rw [perm_ext_iff_of_nodup (.of_map _ d.nodup) (.of_map _ scan.nodup)]
    rintro ⟨rel, pids⟩
    rw [← PyDict.get?_eq_some_iff, ← PyDict.get?_eq_some_iff, ← hd, get?_live]
  exact (hperm.map _).sum_nat

/-- **A scan within the cap becomes the table.** -/
theorem pidsOf_scanOnce (fireOnExisting : Bool) (s : State)
    (h : tracked scan ≤ maxTrackedPids) (rel : String) :
    pidsOf (scanOnce fireOnExisting s scan).1.seen rel = pidsOf scan rel := by
  unfold scanOnce pidsOf
  dsimp only
  rw [tracked_live, if_neg (not_lt.mpr h), get?_live]

theorem scanOnce_reset (fireOnExisting : Bool) (s : State) (h : maxTrackedPids < tracked scan) :
    (scanOnce fireOnExisting s scan).1 = ⟨∅, true⟩ := by
  unfold scanOnce
  dsimp only
  rw [tracked_live, if_pos h]

/-! ## A stretch of scans -/

theorem count_scans_of_seen {stretch : List Scan} (hseen : pid ∈ pidsOf s.seen rel)
    (hcap : ∀ scan ∈ stretch, tracked scan ≤ maxTrackedPids)
    (hlisted : ∀ scan ∈ stretch, pid ∈ pidsOf scan rel) :
    (scans fireOnExisting s stretch).2.count (rel, pid) = 0 := by
  induction stretch generalizing s with
  | nil => rfl
  | cons scan rest ih =>
    have hnext : pid ∈ pidsOf (scanOnce fireOnExisting s scan).1.seen rel := by
      rw [pidsOf_scanOnce _ _ (hcap scan mem_cons_self)]
      exact hlisted scan mem_cons_self
    rw [scans, count_append, count_scanOnce,
      if_neg fun h => (Finset.mem_sdiff.mp h.2).2 hseen, Nat.zero_add]
    exact ih hnext (fun scan h => hcap scan (mem_cons_of_mem _ h))
      fun scan h => hlisted scan (mem_cons_of_mem _ h)

theorem count_scans_le {stretch : List Scan} (s : State)
    (hcap : ∀ scan ∈ stretch, tracked scan ≤ maxTrackedPids)
    (hlisted : ∀ scan ∈ stretch, pid ∈ pidsOf scan rel) :
    (scans fireOnExisting s stretch).2.count (rel, pid) ≤ 1 ∧
      ((!s.baselined && !fireOnExisting) = true →
        (scans fireOnExisting s stretch).2.count (rel, pid) = 0) := by
  cases stretch with
  | nil => exact ⟨Nat.zero_le _, fun _ => rfl⟩
  | cons scan rest =>
    have hrest : (scans fireOnExisting (scanOnce fireOnExisting s scan).1 rest).2.count (rel, pid)
        = 0 := by
      refine count_scans_of_seen ?_ (fun scan h => hcap scan (mem_cons_of_mem _ h))
        fun scan h => hlisted scan (mem_cons_of_mem _ h)
      rw [pidsOf_scanOnce _ _ (hcap scan mem_cons_self)]
      exact hlisted scan mem_cons_self
    rw [scans, count_append, count_scanOnce, hrest, Nat.add_zero]
    refine ⟨by split <;> omega, fun hbase => if_neg fun h => ?_⟩
    rw [hbase] at h
    exact absurd h.1 (by decide)

/-- **A process fires at most once while it stays listed**, and one that the first scan lists does
not fire at all, as long as no scan of the stretch passes the cap. -/
theorem fires_once (fireOnExisting : Bool) (before stretch : List Scan) (rel : String) (pid : ℕ)
    (hcap : ∀ scan ∈ stretch, tracked scan ≤ maxTrackedPids)
    (hlisted : ∀ scan ∈ stretch, pid ∈ pidsOf scan rel) :
    (scans fireOnExisting (scans fireOnExisting .init before).1 stretch).2.count (rel, pid) ≤ 1 ∧
    (fireOnExisting = false →
      (scans fireOnExisting .init stretch).2.count (rel, pid) = 0) := by
  refine ⟨(count_scans_le _ hcap hlisted).1, fun hfire => ?_⟩
  exact (count_scans_le State.init hcap hlisted).2 (by rw [hfire]; rfl)

/-- A cgroup with the pids below a bound. -/
def below (n : ℕ) : Scan := ⟨[("app", Finset.range n)], by simp⟩

theorem fires_once_below_three :
    (∀ scan ∈ [below 3, below 2], tracked scan ≤ maxTrackedPids) ∧
    (scans false .init [below 3, below 2]).2.count ("app", 1) = 0 := by
  have hcap : ∀ scan ∈ [below 3, below 2], tracked scan ≤ maxTrackedPids := by decide
  exact ⟨hcap, (fires_once false [] [below 3, below 2] "app" 1 hcap (by decide)).2 rfl⟩

theorem fires_past_cap {n : ℕ} (h : maxTrackedPids < n) :
    (∀ scan ∈ [below n, below n], 1 ∈ pidsOf scan "app") ∧
    (scans false .init [below n, below n]).2.count ("app", 1) = 1 := by
  have hin : 1 ∈ pidsOf (below n) "app" := by
    show 1 ∈ Finset.range n
    rw [Finset.mem_range]
    rw [maxTrackedPids] at h
    omega
  have hbig : maxTrackedPids < tracked (below n) := by simpa [tracked, below] using h
  refine ⟨by simpa using hin, ?_⟩
  rw [scans, scans, scans, scanOnce_reset false State.init hbig, append_nil, count_append,
    count_scanOnce, count_scanOnce, if_neg fun h => absurd h.1 (by decide),
    if_pos ⟨rfl, Finset.mem_sdiff.mpr ⟨hin, by simp [pidsOf]⟩⟩]

/-- **Past the cap a baselined process fires** although it stays listed. -/
theorem baselined_process_fires :
    (∀ scan ∈ [below (maxTrackedPids + 1), below (maxTrackedPids + 1)], 1 ∈ pidsOf scan "app") ∧
    (scans false .init [below (maxTrackedPids + 1), below (maxTrackedPids + 1)]).2.count
      ("app", 1) = 1 :=
  fires_past_cap (Nat.lt_succ_self _)

end ProcessSpawnTrigger
