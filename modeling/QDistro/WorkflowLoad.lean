/-
# How many runs the workflow engine has at a time

The engine counts the runs that are queued or executed (`_inflight`) and keeps the keys of the
automatic ones (`_active_keys`).  A count or a key that outlived its run would refuse later runs for
good; one that went too early would let two runs of one workflow act on the same control group.

Whatever the order of triggers, approvals, dispatches and steps, with any audit or pool failing, the
count is exact and bounded, and no two live runs have one key (`runs_in_flight`).
-/
import QDistro.PlanApproval
import Mathlib.Data.List.Perm.Basic
import Mathlib.Data.List.ReduceOption

namespace Workflow

open Engine List

/-- The keys of the runs that are queued or executed. -/
def Engine.liveKeys (e : Engine) : List (Option (String × String)) :=
  e.queue.map Task.key ++ e.workers.map Worker.key

/-- The count is that of the live runs, and the active keys are theirs. -/
structure Load (maxInflight : ℕ) (e : Engine) : Prop where
  inflight : e.inflight = e.liveKeys.length
  bounded : e.inflight ≤ maxInflight
  keys : e.activeKeys.Perm e.liveKeys.reduceOption
  single : e.activeKeys.Nodup

variable {maxInflight : ℕ} {e e' : Engine} {key : Option (String × String)}

/-- The live runs are the same, in another order. -/
theorem Load.perm (h : Load maxInflight e) (hlive : e'.liveKeys.Perm e.liveKeys)
    (hcount : e'.inflight = e.inflight) (hkeys : e'.activeKeys = e.activeKeys) :
    Load maxInflight e' := by
  refine ⟨?_, hcount ▸ h.bounded, ?_, hkeys ▸ h.single⟩
  · rw [hcount, h.inflight, hlive.length_eq]
  · rw [hkeys]
    exact h.keys.trans (hlive.symm.filterMap id)

/-- A run ends. -/
theorem Load.release (h : Load maxInflight e) (hlive : e.liveKeys.Perm (key :: e'.liveKeys))
    (hcount : e'.inflight = e.inflight) (hkeys : e'.activeKeys = e.activeKeys) :
    Load maxInflight (e'.releaseInflight key) := by
  have hlength := hlive.length_eq
  rw [length_cons, ← h.inflight, ← hcount] at hlength
  have hperm : e'.activeKeys.Perm (key :: e'.liveKeys).reduceOption := by
    rw [hkeys]
    exact h.keys.trans (hlive.filterMap id)
  have hsingle := h.single
  rw [← hkeys] at hsingle
  have hfilter : (e'.activeKeys.filter fun k => some k ≠ key).Perm e'.liveKeys.reduceOption := by
    cases key with
    | none => simpa using hperm
    | some k =>
      have hnd := hperm.nodup_iff.mp hsingle
      rw [reduceOption_cons_of_some, nodup_cons] at hnd
      have hfiltered := hperm.filter fun x => some x ≠ some k
      rw [reduceOption_cons_of_some, filter_cons_of_neg (by simp)] at hfiltered
      refine hfiltered.trans (Perm.of_eq (filter_eq_self.mpr fun x hx => ?_))
      simp only [ne_eq, Option.some.injEq, decide_eq_true_eq]
      rintro rfl
      exact hnd.1 hx
  refine ⟨?_, ?_, hfilter, hsingle.filter _⟩
  · show e'.inflight - 1 = e'.liveKeys.length
    omega
  · show e'.inflight - 1 ≤ maxInflight
    have := h.bounded
    omega

/-- A run is admitted. -/
theorem Load.admitted (h : Load maxInflight e) (hroom : e.inflight < maxInflight)
    (hnew : ∀ k, key = some k → k ∉ e.activeKeys)
    (hlive : e'.liveKeys.Perm (key :: e.liveKeys)) (hcount : e'.inflight = e.inflight + 1)
    (hkeys : e'.activeKeys = e.activeKeys ++ key.toList) : Load maxInflight e' := by
  refine ⟨?_, by omega, ?_, ?_⟩
  · rw [hcount, h.inflight, hlive.length_eq, length_cons]
  · rw [hkeys]
    have hreduce : (key :: e.liveKeys).reduceOption.Perm e'.liveKeys.reduceOption :=
      hlive.symm.filterMap id
    refine Perm.trans ?_ hreduce
    cases key with
    | none => simpa using h.keys
    | some k =>
      rw [reduceOption_cons_of_some]
      exact perm_append_comm.trans (h.keys.cons k)
  · rw [hkeys]
    cases key with
    | none => simpa using h.single
    | some k => exact h.single.append (nodup_singleton k) (by simpa using hnew k rfl)

/-- What touches only the runs. -/
theorem Load.frame (h : Load maxInflight e) (hqueue : e'.queue = e.queue)
    (hworkers : e'.workers = e.workers) (hcount : e'.inflight = e.inflight)
    (hkeys : e'.activeKeys = e.activeKeys) : Load maxInflight e' := by
  refine h.perm ?_ hcount hkeys
  rw [liveKeys, liveKeys, hqueue, hworkers]

theorem Load.validatePlan (h : Load maxInflight e) (id : ℕ) (r : WorkflowRun) :
    Load maxInflight (e.validatePlan id r).1 := by
  unfold Engine.validatePlan
  split <;> exact h.frame rfl rfl rfl rfl

theorem filter_append_key {l : List (String × String)} (hnew : ∀ k, key = some k → k ∉ l) :
    (l ++ key.toList).filter (fun k => some k ≠ key) = l := by
  cases key with
  | none => simp
  | some k =>
    rw [filter_append, filter_eq_self.mpr]
    · simp
    · intro x hx
      simp only [ne_eq, Option.some.injEq, decide_eq_true_eq]
      rintro rfl
      exact hnew x rfl hx

theorem Load.admitRun (h : Load maxInflight e) (d : LoadedDef) (name : String) (context : Context)
    (audited poolOpen : Bool) :
    Load maxInflight (e.admitRun maxInflight d name context audited poolOpen) := by
  unfold Engine.admitRun
  dsimp only
  split
  · exact h
  next hfull =>
  split
  · exact h
  next hactive =>
  have hnew : ∀ k, dedupKey name context = some k → k ∉ e.activeKeys := by
    intro k hk hmem
    rw [hk] at hactive
    exact hactive (elem_eq_true_of_mem hmem)
  -- a run that is not queued gives back what it was counted for
  split
  · exact h.frame rfl rfl (Nat.add_sub_cancel _ _) (filter_append_key hnew)
  split
  · refine h.admitted (not_le.mp hfull) hnew ?_ rfl rfl
    show (map Task.key (e.queue ++ [_]) ++ _).Perm _
    rw [map_append, append_assoc]
    exact perm_middle
  · exact h.frame rfl rfl (Nat.add_sub_cancel _ _) (filter_append_key hnew)

theorem Load.approveRun (h : Load maxInflight e) (id : ℕ) (expected : List Char)
    (audited poolOpen : Bool) :
    Load maxInflight (e.approveRun maxInflight id expected audited poolOpen).1 := by
  unfold Engine.approveRun
  split
  · exact h
  next r hr =>
  split
  · have hvalid := h.validatePlan id r
    split
    · next e' heq =>
      rw [heq] at hvalid
      exact hvalid
    · next e' heq =>
      rw [heq] at hvalid
      split
      · exact hvalid
      split
      · exact hvalid
      next hfull =>
      split
      · refine @Load.admitted _ e' _ none hvalid (not_le.mp hfull) (fun k hk => (by cases hk)) ?_ rfl
          (append_nil _).symm
        show (map Task.key (e'.queue ++ [_]) ++ _).Perm _
        rw [map_append, append_assoc]
        exact perm_middle
      · exact hvalid
  · exact h

/-- A task leaves the queue, for a worker or for good. -/
theorem Load.dispatch (h : Load maxInflight e) {i : ℕ} {task : Task} (hi : e.queue[i]? = some task) :
    Load maxInflight ({ e with queue := e.queue.eraseIdx i }.dispatch task).1 := by
  obtain ⟨hlt, rfl⟩ := List.getElem?_eq_some_iff.mp hi
  set e₁ : Engine := { e with queue := e.queue.eraseIdx i } with he₁
  have hlive : e.liveKeys.Perm (e.queue[i].key :: e₁.liveKeys) :=
    ((getElem_cons_eraseIdx_perm hlt).symm.map Task.key).append_right _
  have hvalid : ∀ r, (e₁.validatePlan e.queue[i].run r).1.liveKeys = e₁.liveKeys ∧
      (e₁.validatePlan e.queue[i].run r).1.inflight = e.inflight ∧
      (e₁.validatePlan e.queue[i].run r).1.activeKeys = e.activeKeys := by
    intro r
    unfold Engine.validatePlan
    split <;> exact ⟨rfl, rfl, rfl⟩
  unfold Engine.dispatch
  split
  · exact h.release hlive rfl rfl
  next r hr =>
  split
  · exact h.release hlive rfl rfl
  have hr := hvalid r
  split
  · next e' heq =>
    rw [heq] at hr
    exact h.release (hr.1 ▸ hlive) hr.2.1 hr.2.2
  · next e' heq =>
    rw [heq] at hr
    split
    · exact h.release (hr.1 ▸ hlive) hr.2.1 hr.2.2
    · refine h.perm ?_ hr.2.1 hr.2.2
      show (map Task.key e'.queue ++ map Worker.key (e'.workers ++ [_])).Perm _
      rw [map_append, ← append_assoc]
      have hsame : map Task.key e'.queue ++ map Worker.key e'.workers = e₁.liveKeys := hr.1
      rw [hsame]
      exact perm_append_comm.trans hlive.symm

/-- A worker leaves. -/
theorem Load.leave (h : Load maxInflight e) {i : ℕ} {w : Worker} (hi : e.workers[i]? = some w)
    (hqueue : e'.queue = e.queue) (hworkers : e'.workers = e.workers)
    (hcount : e'.inflight = e.inflight) (hkeys : e'.activeKeys = e.activeKeys) :
    Load maxInflight (e'.leave i w) := by
  obtain ⟨hlt, rfl⟩ := List.getElem?_eq_some_iff.mp hi
  refine h.release ?_ hcount hkeys
  rw [liveKeys, liveKeys, hqueue, hworkers]
  exact (((getElem_cons_eraseIdx_perm hlt).symm.map Worker.key).append_left _).trans perm_middle

theorem Load.work (h : Load maxInflight e) {i : ℕ} {w : Worker} (hi : e.workers[i]? = some w)
    (what : Work) : Load maxInflight (e.work i w what).1 := by
  have hadvance : ∀ phase, Load maxInflight (e.advance i w phase) := by
    intro phase
    obtain ⟨hlt, rfl⟩ := List.getElem?_eq_some_iff.mp hi
    refine h.perm (Perm.of_eq ?_) rfl rfl
    have hset : (map Worker.key e.workers).set i e.workers[i].key = map Worker.key e.workers := by
      rw [← map_set, set_getElem_self]
    rw [liveKeys, liveKeys, advance, map_set, hset]
  unfold Engine.work
  split
  · dsimp only
    split
    · exact hadvance _
    · exact h.leave hi rfl rfl rfl rfl
  · exact hadvance _
  · exact h.leave hi rfl rfl rfl rfl
  · split
    · exact h.leave hi rfl rfl rfl rfl
    · split
      · exact hadvance _
      · exact h.leave hi rfl rfl rfl rfl
      · exact h.leave hi rfl rfl rfl rfl
  · exact h

theorem Load.enqueuePending (h : Load maxInflight e) (name : String) (context : Context) :
    Load maxInflight (e.enqueuePending name context) := by
  unfold Engine.enqueuePending
  dsimp only
  split
  · exact h.frame rfl rfl rfl rfl
  · split <;> exact h.frame rfl rfl rfl rfl

theorem Load.step (h : Load maxInflight e) (ev : Event) :
    Load maxInflight (e.step maxInflight ev).1 := by
  cases ev with
  | reload defs => exact h.frame rfl rfl rfl rfl
  | trigger name context audited poolOpen =>
    show Load maxInflight (e.onTrigger maxInflight name context audited poolOpen)
    unfold onTrigger
    split
    · exact h
    · split
      · exact h.admitRun _ name context audited poolOpen
      · exact h.frame rfl rfl rfl rfl
  | enqueue i =>
    unfold Engine.step
    dsimp only
    split
    · exact h
    · next name context hi =>
      have hfired : Load maxInflight { e with fires := e.fires.eraseIdx i } :=
        h.frame rfl rfl rfl rfl
      exact hfired.enqueuePending name context
  | preview id =>
    show Load maxInflight (e.previewRun id).1
    unfold previewRun
    split
    · exact h
    next r hr =>
    split
    · have hvalid := h.validatePlan id r
      split <;> next heq => rw [heq] at hvalid; exact hvalid
    · exact h
  | approve id expected audited poolOpen => exact h.approveRun id expected audited poolOpen
  | dispatch i =>
    unfold Engine.step
    dsimp only
    split
    · exact h
    · next task hi =>
      have hdispatch := h.dispatch hi
      split <;> next heq => rw [heq] at hdispatch; exact hdispatch
  | work i what =>
    unfold Engine.step
    dsimp only
    split
    · exact h
    · next w hi =>
      have hwork := h.work hi what
      split <;> next heq => rw [heq] at hwork; exact hwork

/-- **The count of runs is exact and bounded, and no two live runs have one key.** -/
theorem runs_in_flight (maxInflight : ℕ) (past : List Record) (e : Engine)
    (h : History maxInflight past e) :
    e.inflight = e.queue.length + e.workers.length ∧ e.inflight ≤ maxInflight ∧
      (e.queue.map Task.key ++ e.workers.map Worker.key).reduceOption.Nodup := by
  have hload : Load maxInflight e := by
    induction h with
    | start => exact ⟨rfl, Nat.zero_le _, Perm.refl _, nodup_nil⟩
    | step h ev ih => exact ih.step ev
  refine ⟨?_, hload.bounded, hload.keys.nodup_iff.mp hload.single⟩
  rw [hload.inflight, liveKeys, length_append, length_map, length_map]

theorem hook_in_flight : (replay 1 [] {} hookEvents).2.inflight ≤ 1 :=
  (runs_in_flight 1 _ _ (History.start.replay hookEvents)).2.1

end Workflow
