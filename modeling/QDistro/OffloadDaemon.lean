/-
# The invariant of the offload pool

The invariant of a call carried over the whole daemon: the main thread works on one call at a
time, and the counters of the source are sums over the calls.
-/
import QDistro.OffloadCalls
import Mathlib.Algebra.Order.BigOperators.Group.List
import Mathlib.Algebra.Ring.Int.Defs
import Mathlib.Algebra.Ring.Nat

namespace Offload

open List

/-! ## Sums over the calls -/

variable {i : ℕ}

theorem sum_map_set {α M : Type} [AddCommMonoid M] (f : α → M) {l : List α} {a : α} (b : α)
    (ha : l[i]? = some a) : ((l.set i b).map f).sum + f a = (l.map f).sum + f b := by
  induction l generalizing i with
  | nil => cases ha
  | cons x rest ih =>
    cases i with
    | zero =>
      obtain rfl := Option.some.inj ha
      rw [set_cons_zero, map_cons, map_cons, sum_cons, sum_cons,
        add_comm (f b), add_comm (f x), add_right_comm]
    | succ i =>
      rw [set_cons_succ, map_cons, map_cons, sum_cons, sum_cons,
        add_assoc, ih ha, add_assoc]

/-- The call counts as running. -/
def activeOf (c : Call) : ℤ := if c.owned = true ∧ .retire ∈ c.worker then 1 else 0

/-- The answers in flight that the worker of the call counts. -/
def inFlightOf (c : Call) : ℤ := (c.worker.count .uncountStopped : ℕ)

/-- The slot that the call holds. -/
def slotOf (read : Bool) (c : Call) : ℤ :=
  if c.admitted = true ∧ c.read = read then 1 - c.uncounted else 0

section Exec

variable (full : Bool) (ends : WorkEnd) (x : Instr) (g : Shared) (c : Call)

theorem exec_shared : (exec full ends x g c).1.stopping = g.stopping ∧
    (exec full ends x g c).1.drained = g.drained := by
  cases x <;> simp only [exec, refuse, expire, claimPending, Shared.addSlots] <;> (repeat' split) <;>
    simp

theorem exec_delivering :
    (exec full ends x g c).1.delivering + ([x].count .uncountStopped : ℕ) =
      g.delivering + ((exec full ends x g c).2.2.count .uncountStopped : ℕ) := by
  cases x <;> simp only [exec, refuse, expire, claimPending, Shared.addSlots] <;> (repeat' split) <;>
    simp

theorem exec_active {k : List Instr} (hbelow : Below c.owned c.abandoned x k)
    (howned : x = .enter → c.owned = false) :
    (exec full ends x g c).1.active + activeOf { c with worker := x :: k } =
      g.active + activeOf { (exec full ends x g c).2.1 with
        worker := (exec full ends x g c).2.2 ++ k } := by
  revert hbelow
  cases x <;> simp only [exec, refuse, expire, claimPending, Shared.addSlots] <;> (repeat' split) <;>
    simp_all [activeOf, Below]

theorem exec_active_main {expired : Bool} (hx : OnMain expired x) :
    (exec full ends x g c).1.active = g.active ∧ (exec full ends x g c).2.1.owned = c.owned := by
  cases x <;> simp only [exec, refuse, expire, claimPending, Shared.addSlots] <;> (repeat' split) <;>
    simp_all [OnMain]

theorem exec_slots (read : Bool) (hadmitted : c.admitted = false → x.isInline = true) :
    (exec full ends x g c).1.slots read + slotOf read c =
      g.slots read + slotOf read (exec full ends x g c).2.1 := by
  cases x <;> simp only [exec, refuse, expire, claimPending, Shared.addSlots, Shared.slots, slotOf] <;>
    (repeat' split) <;> simp_all [Instr.isInline] <;> omega

end Exec

/-! ## The daemon -/

/-- What the main thread still does for a call. -/
def mainOf (todo : List (ℕ × Instr)) (i : ℕ) : List Instr :=
  (todo.filter fun p => p.1 = i).map Prod.snd

theorem mainOf_cons_self (i : ℕ) (x : Instr) (rest : List (ℕ × Instr)) :
    mainOf ((i, x) :: rest) i = x :: mainOf rest i := by
  simp [mainOf]

theorem mainOf_cons_of_ne {j : ℕ} (h : j ≠ i) (x : Instr) (rest : List (ℕ × Instr)) :
    mainOf ((i, x) :: rest) j = mainOf rest j := by
  have hij : ¬i = j := fun h' => h h'.symm
  simp [mainOf, hij]

theorem mainOf_next_self (i : ℕ) (next : List Instr) (rest : List (ℕ × Instr)) :
    mainOf (next.map (fun y => (i, y)) ++ rest) i = next ++ mainOf rest i := by
  induction next with
  | nil => rfl
  | cons y next ih => rw [map_cons, cons_append, mainOf_cons_self, ih, cons_append]

theorem mainOf_next_of_ne {j : ℕ} (h : j ≠ i) (next : List Instr) (rest : List (ℕ × Instr)) :
    mainOf (next.map (fun y => (i, y)) ++ rest) j = mainOf rest j := by
  induction next with
  | nil => rfl
  | cons y next ih => rw [map_cons, cons_append, mainOf_cons_of_ne h, ih]

variable {x : Instr}

theorem mem_mainOf {todo : List (ℕ × Instr)} :
    x ∈ mainOf todo i ↔ (i, x) ∈ todo := by
  simp [mainOf]

/-- The answers in flight that the main thread counts. -/
def inFlightMain (todo : List (ℕ × Instr)) : ℤ := (todo.countP fun p => p.2 = .uncountStopped : ℕ)

theorem inFlightMain_next (i : ℕ) (next : List Instr) (rest : List (ℕ × Instr)) :
    inFlightMain (next.map (fun y => (i, y)) ++ rest) =
      (next.count .uncountStopped : ℕ) + inFlightMain rest := by
  unfold inFlightMain
  rw [countP_append, countP_map, count]
  push_cast
  congr 2

/-- What holds of a call, its worker and the main thread. -/
structure CallOk (stopping : Bool) (m : List Instr) (c : Call) : Prop where
  inv : CallInv stopping (c.worker ++ m) c
  nest : Nest c.owned c.abandoned c.worker
  main : ∀ y ∈ m, OnMain c.expired y
  untaken : c.queued = true ∨ .enqueue ∈ m → c.worker = []

structure Inv (s : Daemon) : Prop where
  call : ∀ i c, s.calls[i]? = some c → CallOk s.shared.stopping (mainOf s.todo i) c
  todo : ∀ p ∈ s.todo, p.1 < s.calls.length
  active : s.shared.active = (s.calls.map activeOf).sum
  delivering : s.shared.delivering = (s.calls.map inFlightOf).sum + inFlightMain s.todo
  slots : ∀ read, s.shared.slots read = (s.calls.map (slotOf read)).sum
  bounded : ∀ read, s.shared.slots read ≤ bound read

theorem getElem?_set_cases {α : Type} {l : List α} {j : ℕ} {a b : α}
    (h : (l.set i b)[j]? = some a) : (j = i ∧ a = b) ∨ (j ≠ i ∧ l[j]? = some a) := by
  rw [getElem?_set] at h
  split at h
  · next hij =>
    split at h
    · exact .inl ⟨hij.symm, (Option.some.inj h).symm⟩
    · cases h
  · next hij => exact .inr ⟨fun hji => hij hji.symm, h⟩

variable {s : Daemon} {c : Call}

theorem Inv.set (h : Inv s) (hc : s.calls[i]? = some c) {c' : Call} {g : Shared}
    {todo : List (ℕ × Instr)} {stages : List Stage} {timedOut : Bool}
    (hstopping : g.stopping = s.shared.stopping) (hok : CallOk g.stopping (mainOf todo i) c')
    (hothers : ∀ j, j ≠ i → mainOf todo j = mainOf s.todo j)
    (htodo : ∀ p ∈ todo, p.1 < s.calls.length)
    (hactive : g.active + activeOf c = s.shared.active + activeOf c')
    (hdelivering : g.delivering + inFlightOf c + inFlightMain s.todo =
      s.shared.delivering + inFlightOf c' + inFlightMain todo)
    (hslots : ∀ read, g.slots read + slotOf read c = s.shared.slots read + slotOf read c')
    (hbounded : ∀ read, g.slots read ≤ bound read) :
    Inv { shared := g, calls := s.calls.set i c', todo, stages, timedOut } := by
  constructor
  · intro j d hd
    rcases getElem?_set_cases hd with ⟨rfl, rfl⟩ | ⟨hne, hd⟩
    · exact hok
    · show CallOk g.stopping (mainOf todo j) d
      rw [hothers j hne, hstopping]
      exact h.call j d hd
  · intro p hp
    rw [length_set]
    exact htodo p hp
  · have hsum := sum_map_set activeOf c' hc
    have := h.active
    show g.active = ((s.calls.set i c').map activeOf).sum
    omega
  · have hsum := sum_map_set inFlightOf c' hc
    have := h.delivering
    show g.delivering = ((s.calls.set i c').map inFlightOf).sum + inFlightMain todo
    omega
  · intro read
    have hsum := sum_map_set (slotOf read) c' hc
    have := h.slots read
    have := hslots read
    show g.slots read = ((s.calls.set i c').map (slotOf read)).sum
    omega
  · exact hbounded

theorem slots_exec_le (full : Bool) (ends : WorkEnd) (x : Instr) (g : Shared) (c : Call) (read : Bool) :
    (exec full ends x g c).1.slots read ≤ g.slots read := by
  cases x <;> simp only [exec, refuse, expire, claimPending, Shared.addSlots, Shared.slots] <;>
    (repeat' split) <;> simp_all

theorem CallInv.not_owned_of_enter {stopping : Bool} {k : List Instr}
    (h : CallInv stopping (.enter :: k) c) : c.owned = false := by
  have hstarts := h.starts
  rw [count_cons_self] at hstarts
  cases howned : c.owned with
  | false => rfl
  | true =>
    rw [(h.flags.owned howned).1, Bool.toNat_true] at hstarts
    omega

theorem Inv.worker (h : Inv s) (hc : s.calls[i]? = some c) {k : List Instr}
    (hw : c.worker = x :: k) (full : Bool) (ends : WorkEnd) :
    Inv { s with
      shared := (exec full ends x s.shared c).1
      calls := s.calls.set i { (exec full ends x s.shared c).2.1 with
        worker := (exec full ends x s.shared c).2.2 ++ k } } := by
  obtain ⟨hinv, hnest, hmain, huntaken⟩ := h.call i c hc
  obtain ⟨hstopping, -⟩ := exec_shared full ends x s.shared c
  rw [hw] at hinv hnest huntaken
  rw [cons_append] at hinv
  have hend : x = .abandon → .work ∉ k ++ mainOf s.todo i ∧
      (c.owned = true → ∀ y ∈ k ++ mainOf s.todo i, y.delivers = false) := by
    rintro rfl
    have hk : k = [] := hnest.1
    subst hk
    refine ⟨fun hmem => (hmain _ hmem).elim, ?_⟩
    intro howned y hy
    cases y with
    | deliver answer =>
      have hrefused := hinv.flags.expired (hmain _ hy)
      rw [(hinv.flags.owned howned).2] at hrefused
      cases hrefused
    | _ => rfl
  have hafter := hinv.after full ends hend
  rw [← append_assoc] at hafter
  have hold : { c with worker := x :: k } = c := by rw [← hw]
  refine h.set hc hstopping ⟨?_, hnest.after, ?_, ?_⟩ (fun _ _ => rfl) h.todo ?_ ?_ ?_ ?_
  · rw [hstopping]
    exact hafter.setWorker _
  · intro y hy
    exact (hmain y hy).mono (exec_mono full ends x s.shared c).2.1
  · rintro (hqueued | hmem)
    · rcases (exec_queued full ends x s.shared c).1 hqueued with hqueued | rfl
      · cases huntaken (.inl hqueued)
      · exact hnest.1.elim
    · cases huntaken (.inr hmem)
  · have hactive := exec_active full ends x s.shared c hnest.1
      (fun hx => by subst hx; exact hinv.not_owned_of_enter)
    rw [hold] at hactive
    exact hactive
  · have hdelivering := exec_delivering full ends x s.shared c
    show (exec full ends x s.shared c).1.delivering + (c.worker.count .uncountStopped : ℕ) + _ =
      s.shared.delivering + (((exec full ends x s.shared c).2.2 ++ k).count .uncountStopped : ℕ) + _
    rw [hw, count_append, ← singleton_append, count_append]
    push_cast
    omega
  · intro read
    exact exec_slots full ends x s.shared c read fun hno =>
      (hinv.inline hno).2.2.2.2.2.2 x mem_cons_self
  · intro read
    exact (slots_exec_le full ends x s.shared c read).trans (h.bounded read)

theorem Inv.main (h : Inv s) {rest : List (ℕ × Instr)} (htodo : s.todo = (i, x) :: rest)
    (hc : s.calls[i]? = some c) (full : Bool) (ends : WorkEnd) :
    Inv { s with
      shared := (exec full ends x s.shared c).1
      calls := s.calls.set i (exec full ends x s.shared c).2.1
      todo := (exec full ends x s.shared c).2.2.map (fun y => (i, y)) ++ rest } := by
  obtain ⟨hinv, hnest, hmain, huntaken⟩ := h.call i c hc
  obtain ⟨hstopping, -⟩ := exec_shared full ends x s.shared c
  obtain ⟨-, -, hworker⟩ := exec_frame full ends x s.shared c
  obtain ⟨-, mexpired, -, -, -, mabandoned, -, mowned, -, -⟩ := exec_mono full ends x s.shared c
  have hlt := h.todo
  rw [htodo] at hlt
  rw [htodo, mainOf_cons_self] at hinv hmain huntaken
  have hx := hmain x mem_cons_self
  have hend : x = .abandon → .work ∉ c.worker ++ mainOf rest i ∧
      (c.owned = true → ∀ y ∈ c.worker ++ mainOf rest i, y.delivers = false) := by
    rintro rfl
    exact hx.elim
  have hafter := (hinv.perm perm_middle).after full ends hend
  refine h.set hc hstopping ⟨?_, ?_, ?_, ?_⟩ ?_ ?_ ?_ ?_ ?_ ?_
  · rw [hstopping, mainOf_next_self, hworker]
    refine hafter.perm ?_
    rw [← append_assoc, ← append_assoc]
    exact perm_append_comm.append_right _
  · rw [hworker]
    exact hnest.mono mowned mabandoned
  · intro y hy
    rw [mainOf_next_self] at hy
    rcases mem_append.mp hy with hy | hy
    · exact hx.after hy
    · exact (hmain y (mem_cons_of_mem _ hy)).mono mexpired
  · rw [hworker, mainOf_next_self]
    rintro (hqueued | hmem)
    · rcases (exec_queued full ends x s.shared c).1 hqueued with hqueued | rfl
      · exact huntaken (.inl hqueued)
      · exact huntaken (.inr mem_cons_self)
    · rcases mem_append.mp hmem with hmem | hmem
      · exact absurd hmem (exec_queued full ends x s.shared c).2
      · exact huntaken (.inr (mem_cons_of_mem _ hmem))
  · intro j hj
    rw [mainOf_next_of_ne hj, htodo, mainOf_cons_of_ne hj]
  · intro p hp
    rcases mem_append.mp hp with hp | hp
    · obtain ⟨y, -, rfl⟩ := mem_map.mp hp
      exact hlt (i, x) mem_cons_self
    · exact hlt p (mem_cons_of_mem _ hp)
  · obtain ⟨hactive, howned⟩ := exec_active_main full ends x s.shared c hx
    unfold activeOf
    rw [hactive, howned, hworker]
  · have hdelivering := exec_delivering full ends x s.shared c
    have hold : inFlightMain s.todo = ([x].count .uncountStopped : ℕ) + inFlightMain rest := by
      rw [htodo]
      exact inFlightMain_next i [x] rest
    have hsame : inFlightOf (exec full ends x s.shared c).2.1 = inFlightOf c := by
      unfold inFlightOf
      rw [hworker]
    rw [hold, inFlightMain_next, hsame]
    omega
  · intro read
    exact exec_slots full ends x s.shared c read fun hno =>
      (hinv.inline hno).2.2.2.2.2.2 x (mem_append_right _ mem_cons_self)
  · intro read
    exact (slots_exec_le full ends x s.shared c read).trans (h.bounded read)

theorem Inv.begin (h : Inv s) (hidle : s.todo = []) (hc : s.calls[i]? = some c) {c' : Call}
    (hinv : CallInv s.shared.stopping (x :: c.worker) c') (hworker : c'.worker = c.worker)
    (howned : c'.owned = c.owned) (habandoned : c'.abandoned = c.abandoned)
    (hx : OnMain c'.expired x) (hslots : ∀ read, slotOf read c' = slotOf read c)
    (hbegins : x.begins = true) (hqueued : c'.queued = true → c.queued = true) :
    Inv { s with calls := s.calls.set i c', todo := [(i, x)] } := by
  obtain ⟨-, hnest, -, huntaken⟩ := h.call i c hc
  refine h.set hc rfl ⟨?_, ?_, ?_, ?_⟩ ?_ ?_ ?_ ?_ ?_ h.bounded
  · rw [mainOf_cons_self, hworker]
    exact hinv.perm ((perm_append_singleton x c.worker).symm)
  · rw [hworker, howned, habandoned]
    exact hnest
  · intro y hy
    rw [mainOf_cons_self] at hy
    obtain rfl := mem_singleton.mp hy
    exact hx
  · rw [hworker, mainOf_cons_self]
    rintro (hq | hmem)
    · exact huntaken (.inl (hqueued hq))
    · rw [← mem_singleton.mp hmem] at hbegins
      cases hbegins
  · intro j hj
    rw [mainOf_cons_of_ne hj, hidle]
  · intro p hp
    obtain rfl := List.mem_singleton.mp hp
    exact (List.getElem?_eq_some_iff.mp hc).1
  · unfold activeOf
    rw [hworker, howned]
  · unfold inFlightOf inFlightMain
    have hflight : x ≠ .uncountStopped := by
      rintro rfl
      cases hbegins
    rw [hworker, hidle]
    simp [hflight]
  · intro read
    rw [hslots read]

theorem loopIdle_iff : s.loopIdle = true ↔ s.todo = [] ∧ s.shared.stopping = false := by
  simp [Daemon.loopIdle]

theorem Inv.quiet (h : Inv s) (hidle : s.todo = []) (hc : s.calls[i]? = some c) :
    CallInv s.shared.stopping c.worker c := by
  have hinv := (h.call i c hc).inv
  rw [hidle, mainOf, filter_nil, map_nil, append_nil] at hinv
  exact hinv

theorem mem_queue {read : Bool} (h : i ∈ s.queue read) :
    ∃ c, s.calls[i]? = some c ∧ c.queued = true := by
  obtain ⟨-, hqueued⟩ := mem_filter.mp h
  cases hc : s.calls[i]? with
  | none =>
    rw [hc] at hqueued
    cases hqueued
  | some c =>
    rw [hc] at hqueued
    exact ⟨c, rfl, (Bool.and_eq_true_iff.mp hqueued).1⟩

theorem modify_eq_set {α : Type} {l : List α} {a : α} (f : α → α) (ha : l[i]? = some a) :
    l.modify i f = l.set i (f a) := by
  induction l generalizing i with
  | nil => cases ha
  | cons x rest ih =>
    cases i with
    | zero =>
      obtain rfl := Option.some.inj ha
      rfl
    | succ i => rw [modify_succ_cons, set_cons_succ, ih ha]

theorem Inv.take (h : Inv s) (hc : s.calls[i]? = some c) (hqueued : c.queued = true) :
    Inv { s with
      calls := s.calls.set i ({ c with queued := false, worker := [.enter, .retire, .abandon] }) } := by
  obtain ⟨hinv, hnest, hmain, huntaken⟩ := h.call i c hc
  have hworker := huntaken (.inl hqueued)
  rw [hworker, nil_append] at hinv
  refine h.set hc rfl ⟨?_, ?_, hmain, ?_⟩ (fun _ _ => rfl) h.todo ?_ ?_ (fun _ => rfl) h.bounded
  · exact (hinv.take hqueued).setWorker _
  · simp [Nest, Below]
  · rintro (hq | hmem)
    · cases hq
    · have hstarts := hinv.starts
      have hpos := count_pos_iff.mpr hmem
      rw [hqueued, Bool.toNat_true] at hstarts
      omega
  · have howned : c.owned = false := by
      have hstarts := hinv.starts
      rw [hqueued, Bool.toNat_true] at hstarts
      cases howned : c.owned with
      | false => rfl
      | true =>
        rw [(hinv.flags.owned howned).1, Bool.toNat_true] at hstarts
        omega
    simp [activeOf, howned]
  · simp [inFlightOf, hworker]

theorem Inv.append (h : Inv s) (hidle : s.todo = []) {g : Shared}
    (hinv : CallInv g.stopping [x] c) (hworker : c.worker = []) (hx : OnMain c.expired x)
    (hflight : x ≠ .uncountStopped) (hstopping : g.stopping = s.shared.stopping)
    (hactive : g.active = s.shared.active) (hdelivering : g.delivering = s.shared.delivering)
    (hslots : ∀ read, g.slots read = s.shared.slots read + slotOf read c)
    (hbounded : ∀ read, g.slots read ≤ bound read) :
    Inv { s with shared := g, calls := s.calls ++ [c], todo := [(s.calls.length, x)] } := by
  constructor
  · intro j d hd
    show CallOk g.stopping (mainOf [(s.calls.length, x)] j) d
    by_cases hj : j = s.calls.length
    · subst hj
      rw [getElem?_concat_length] at hd
      obtain rfl := Option.some.inj hd
      rw [mainOf_cons_self]
      refine ⟨?_, ?_, ?_, fun _ => hworker⟩
      · rw [hworker]
        exact hinv
      · rw [hworker]
        trivial
      · intro y hy
        rw [mem_singleton.mp hy]
        exact hx
    · have hd' : s.calls[j]? = some d := by
        have hlt := (List.getElem?_eq_some_iff.mp hd).1
        rw [List.length_append, List.length_singleton] at hlt
        rw [getElem?_append_left (by omega)] at hd
        exact hd
      have hold := h.call j d hd'
      rw [mainOf_cons_of_ne hj, hstopping, ← hidle]
      exact hold
  · intro p hp
    rw [mem_singleton.mp hp, length_append, length_singleton]
    exact Nat.lt_succ_self _
  · show g.active = ((s.calls ++ [c]).map activeOf).sum
    rw [map_append, sum_append, hactive, h.active]
    simp [activeOf, hworker]
  · show g.delivering = ((s.calls ++ [c]).map inFlightOf).sum + inFlightMain [(s.calls.length, x)]
    rw [map_append, sum_append, hdelivering, h.delivering, hidle]
    simp [inFlightOf, inFlightMain, hworker, hflight]
  · intro read
    show g.slots read = ((s.calls ++ [c]).map (slotOf read)).sum
    rw [map_append, sum_append, hslots read, h.slots read]
    simp
  · exact hbounded

theorem slots_addSlots (g : Shared) (read read' : Bool) (n : ℤ) :
    (g.addSlots read n).slots read' = g.slots read' + if read = read' then n else 0 := by
  cases read <;> cases read' <;> simp [Shared.addSlots, Shared.slots]

theorem Inv.admitCall (h : Inv s) (hidle : s.todo = []) (hrunning : s.shared.stopping = false)
    (op : String) (read : Bool) : Inv (s.admitCall op read) := by
  unfold Daemon.admitCall
  rw [if_neg (by rw [hrunning]; exact Bool.false_ne_true)]
  by_cases hfull : (bound read : ℤ) ≤ s.shared.slots read
  · rw [if_pos hfull]
    refine h.append hidle ?_ rfl trivial (by simp) rfl rfl rfl ?_ h.bounded
    · constructor
      case flags => exact ⟨by simp, by simp, by simp, by simp⟩
      all_goals simp [Call.claimed, Instr.answers, Instr.isInline, Instr.ofShutdown]
    · intro read'
      simp [slotOf]
  · rw [if_neg hfull]
    have hsame : (s.shared.addSlots read 1).stopping = s.shared.stopping ∧
        (s.shared.addSlots read 1).active = s.shared.active ∧
        (s.shared.addSlots read 1).delivering = s.shared.delivering := by
      cases read <;> exact ⟨rfl, rfl, rfl⟩
    refine h.append hidle ?_ rfl trivial (by simp) hsame.1 hsame.2.1 hsame.2.2 ?_ ?_
    · constructor
      case flags => exact ⟨by simp, by simp, by simp, by simp⟩
      all_goals
        simp [Call.claimed, Instr.answers, Instr.isInline, Instr.ofShutdown, Instr.finishes]
    · intro read'
      rw [slots_addSlots]
      simp [slotOf]
    · intro read'
      have := h.bounded read'
      rw [slots_addSlots]
      by_cases heq : read = read'
      · subst heq
        rw [if_pos rfl]
        omega
      · rw [if_neg heq]
        omega

theorem Inv.setStages (h : Inv s) (stages : List Stage) (timedOut : Bool) :
    Inv { s with stages := stages, timedOut := timedOut } :=
  ⟨h.call, h.todo, h.active, h.delivering, h.slots, h.bounded⟩

theorem Inv.shutdown (h : Inv s) :
    Inv { s with shared := { s.shared with stopping := true }, stages := teardown } := by
  refine ⟨?_, h.todo, h.active, h.delivering, h.slots, h.bounded⟩
  intro i c hc
  obtain ⟨hinv, hnest, hmain, huntaken⟩ := h.call i c hc
  exact ⟨hinv.stop, hnest, hmain, huntaken⟩

theorem CallInv.drain {acts m : List Instr} (h : CallInv true acts c)
    (hnow : ∀ y ∈ m, y = .claimNow) (hadmitted : m ≠ [] → c.admitted = true) :
    CallInv true (m ++ acts) c := by
  induction m with
  | nil => exact h
  | cons y m ih =>
    have hyes := hadmitted (cons_ne_nil _ _)
    obtain rfl := hnow y mem_cons_self
    have hrest := ih (fun z hz => hnow z (mem_cons_of_mem _ hz)) fun _ => hyes
    exact hrest.cons hyes rfl (fun _ => rfl) (by simp)

theorem mem_registeredCalls :
    i ∈ s.registeredCalls ↔ ∃ c, s.calls[i]? = some c ∧ c.registered = true := by
  unfold Daemon.registeredCalls
  rw [mem_filter, mem_range]
  constructor
  · rintro ⟨-, hregistered⟩
    cases hc : s.calls[i]? with
    | none =>
      rw [hc] at hregistered
      cases hregistered
    | some c =>
      rw [hc] at hregistered
      exact ⟨c, rfl, hregistered⟩
  · rintro ⟨c, hc, hregistered⟩
    refine ⟨(List.getElem?_eq_some_iff.mp hc).1, ?_⟩
    rw [hc]
    exact hregistered

theorem Inv.drainAnswers (h : Inv s) (hidle : s.todo = []) (hstopping : s.shared.stopping = true)
    (rest : List Stage) :
    Inv { s with todo := s.registeredCalls.map fun i => (i, .claimNow), stages := rest } := by
  have hmem : ∀ {p : ℕ × Instr}, p ∈ s.registeredCalls.map (fun i => (i, Instr.claimNow)) →
      (∃ c, s.calls[p.1]? = some c ∧ c.registered = true) ∧ p.2 = .claimNow := by
    intro p hp
    obtain ⟨i, hi, rfl⟩ := mem_map.mp hp
    exact ⟨mem_registeredCalls.mp hi, rfl⟩
  refine ⟨?_, ?_, h.active, ?_, h.slots, h.bounded⟩
  · intro i c hc
    obtain ⟨-, hnest, -, huntaken⟩ := h.call i c hc
    have hinv := h.quiet hidle hc
    rw [hstopping] at hinv
    have hnow : ∀ y ∈ mainOf (s.registeredCalls.map fun i => (i, .claimNow)) i, y = .claimNow :=
      fun y hy => (hmem (mem_mainOf.mp hy)).2
    have hadmitted : mainOf (s.registeredCalls.map fun i => (i, .claimNow)) i ≠ [] →
        c.admitted = true := by
      intro hne
      obtain ⟨y, hy⟩ := exists_mem_of_ne_nil _ hne
      obtain ⟨⟨d, hd, hregistered⟩, -⟩ := hmem (mem_mainOf.mp hy)
      rw [hc] at hd
      obtain rfl := Option.some.inj hd
      cases hno : c.admitted with
      | true => rfl
      | false =>
        rw [(hinv.inline hno).2.2.2.1] at hregistered
        cases hregistered
    refine ⟨?_, hnest, ?_, ?_⟩
    · show CallInv s.shared.stopping _ c
      rw [hstopping]
      exact (hinv.drain hnow hadmitted).perm perm_append_comm
    · intro y hy
      rw [hnow y hy]
      trivial
    · rintro (hqueued | hy)
      · exact huntaken (.inl hqueued)
      · cases hnow _ hy
  · intro p hp
    obtain ⟨⟨c, hc, -⟩, -⟩ := hmem hp
    exact (List.getElem?_eq_some_iff.mp hc).1
  · have hnone : inFlightMain (s.registeredCalls.map fun i => (i, Instr.claimNow)) = 0 := by
      unfold inFlightMain
      rw [countP_eq_zero.mpr]
      · rfl
      · intro p hp
        rw [(hmem hp).2]
        simp
    show s.shared.delivering = (s.calls.map inFlightOf).sum + inFlightMain _
    rw [hnone, h.delivering, hidle]
    rfl

theorem Inv.stage {s' : Daemon} (h : Inv s) (hidle : s.todo = [])
    (hstopping : s.shared.stopping = true) {stage : Stage} {rest : List Stage}
    (hstep : s.runStage stage rest = some s') : Inv s' := by
  cases stage with
  | drainQueue read =>
    simp only [Daemon.runStage] at hstep
    cases hhead : (s.queue read).head? with
    | none =>
      rw [hhead] at hstep
      obtain rfl := Option.some.inj hstep
      exact h.setStages rest s.timedOut
    | some i =>
      rw [hhead] at hstep
      obtain rfl := Option.some.inj hstep
      obtain ⟨c, hc, hqueued⟩ := mem_queue (mem_of_mem_head? hhead)
      have hinv := h.quiet hidle hc
      rw [modify_eq_set _ hc]
      refine h.begin hidle hc ?_ rfl rfl rfl trivial (fun _ => rfl) rfl (by simp)
      exact hinv.dequeue.cons (hinv.admitted_of_queued hqueued) rfl (fun _ => hstopping) (by simp)
  | waitIdle =>
    simp only [Daemon.runStage] at hstep
    split at hstep
    · obtain rfl := Option.some.inj hstep
      exact h.setStages rest s.timedOut
    · cases hstep
  | drainAnswers =>
    obtain rfl := Option.some.inj hstep
    exact h.drainAnswers hidle hstopping rest
  | fence =>
    obtain rfl := Option.some.inj hstep
    exact ⟨h.call, h.todo, h.active, h.delivering, h.slots, h.bounded⟩
  | waitDelivered =>
    simp only [Daemon.runStage] at hstep
    split at hstep
    · obtain rfl := Option.some.inj hstep
      exact h.setStages rest s.timedOut
    · cases hstep

/-! ## Events -/

/-- What an event can do. -/
inductive Moves (s : Daemon) : Event → Daemon → Prop
  | call (op : String) (read : Bool) (hidle : s.todo = []) (hrunning : s.shared.stopping = false) :
      Moves s (.call op read) (s.admitCall op read)
  | idle (i : ℕ) (c : Call) (hidle : s.todo = []) (hrunning : s.shared.stopping = false)
      (hc : s.calls[i]? = some c) (hidles : 0 < c.idles) :
      Moves s (.idle i) { s with
        calls := s.calls.set i { c with idles := c.idles - 1 }
        todo := [(i, .claimIdle)] }
  | deadline (i : ℕ) (c : Call) (hidle : s.todo = []) (hrunning : s.shared.stopping = false)
      (hc : s.calls[i]? = some c) (hdeadline : c.deadline = true) :
      Moves s (.deadline i) { s with
        calls := s.calls.set i { c with deadline := false }
        todo := [(i, .expireLate)] }
  | shutdown (hidle : s.todo = []) (hrunning : s.shared.stopping = false) :
      Moves s .shutdown { s with shared := { s.shared with stopping := true }, stages := teardown }
  | main (i : ℕ) (x : Instr) (rest : List (ℕ × Instr)) (c : Call) (htodo : s.todo = (i, x) :: rest)
      (hc : s.calls[i]? = some c) :
      Moves s .main { s with
        shared := (exec (s.isFull c.read) .returns x s.shared c).1
        calls := s.calls.set i (exec (s.isFull c.read) .returns x s.shared c).2.1
        todo := (exec (s.isFull c.read) .returns x s.shared c).2.2.map (fun y => (i, y)) ++ rest }
  | stage (stage : Stage) (rest : List Stage) (s' : Daemon) (hidle : s.todo = [])
      (hstages : s.stages = stage :: rest) (hrun : s.runStage stage rest = some s') : Moves s .main s'
  | timeout (stage : Stage) (rest : List Stage) (hidle : s.todo = [])
      (hstages : s.stages = stage :: rest) (hwait : stage = .waitIdle ∨ stage = .waitDelivered) :
      Moves s .timeout { s with stages := rest, timedOut := true }
  | take (read : Bool) (i : ℕ) (c : Call) (hc : s.calls[i]? = some c) (hqueued : c.queued = true) :
      Moves s (.take read) { s with
        calls := s.calls.set i ({ c with queued := false, worker := [.enter, .retire, .abandon] }) }
  | worker (i : ℕ) (ends : WorkEnd) (c : Call) (x : Instr) (k : List Instr)
      (hc : s.calls[i]? = some c) (hw : c.worker = x :: k) :
      Moves s (.worker i ends) { s with
        shared := (exec (s.isFull c.read) ends x s.shared c).1
        calls := s.calls.set i { (exec (s.isFull c.read) ends x s.shared c).2.1 with
          worker := (exec (s.isFull c.read) ends x s.shared c).2.2 ++ k } }

theorem moves_of_step {s' : Daemon} {ev : Event} (hstep : s.step ev = some s') : Moves s ev s' := by
  cases ev with
  | call op read =>
    simp only [Daemon.step] at hstep
    split at hstep
    · next hloop =>
      obtain ⟨hidle, hrunning⟩ := loopIdle_iff.mp hloop
      obtain rfl := Option.some.inj hstep
      exact .call op read hidle hrunning
    · cases hstep
  | idle i =>
    simp only [Daemon.step] at hstep
    cases hc : s.calls[i]? with
    | none =>
      rw [hc] at hstep
      cases hstep
    | some c =>
      rw [hc] at hstep
      dsimp only at hstep
      split at hstep
      · next hboth =>
        obtain ⟨hloop, hidles⟩ := Bool.and_eq_true_iff.mp hboth
        obtain ⟨hidle, hrunning⟩ := loopIdle_iff.mp hloop
        obtain rfl := Option.some.inj hstep
        exact .idle i c hidle hrunning hc (of_decide_eq_true hidles)
      · cases hstep
  | deadline i =>
    simp only [Daemon.step] at hstep
    cases hc : s.calls[i]? with
    | none =>
      rw [hc] at hstep
      cases hstep
    | some c =>
      rw [hc] at hstep
      dsimp only at hstep
      split at hstep
      · next hboth =>
        obtain ⟨hloop, hdeadline⟩ := Bool.and_eq_true_iff.mp hboth
        obtain ⟨hidle, hrunning⟩ := loopIdle_iff.mp hloop
        obtain rfl := Option.some.inj hstep
        exact .deadline i c hidle hrunning hc hdeadline
      · cases hstep
  | shutdown =>
    simp only [Daemon.step] at hstep
    split at hstep
    · next hloop =>
      obtain ⟨hidle, hrunning⟩ := loopIdle_iff.mp hloop
      obtain rfl := Option.some.inj hstep
      exact .shutdown hidle hrunning
    · cases hstep
  | main =>
    simp only [Daemon.step] at hstep
    cases htodo : s.todo with
    | cons p rest =>
      obtain ⟨i, x⟩ := p
      rw [htodo] at hstep
      simp only [Daemon.runTodo] at hstep
      cases hc : s.calls[i]? with
      | none =>
        rw [hc] at hstep
        cases hstep
      | some c =>
        rw [hc] at hstep
        obtain rfl := Option.some.inj hstep
        exact .main i x rest c htodo hc
    | nil =>
      rw [htodo] at hstep
      cases hstages : s.stages with
      | nil =>
        rw [hstages] at hstep
        cases hstep
      | cons stage rest =>
        rw [hstages] at hstep
        exact .stage stage rest s' htodo hstages hstep
  | timeout =>
    simp only [Daemon.step] at hstep
    split at hstep
    · next rest htodo hstages =>
      obtain rfl := Option.some.inj hstep
      exact .timeout .waitIdle rest htodo hstages (.inl rfl)
    · next rest htodo hstages =>
      obtain rfl := Option.some.inj hstep
      exact .timeout .waitDelivered rest htodo hstages (.inr rfl)
    · cases hstep
  | take read =>
    simp only [Daemon.step] at hstep
    cases hhead : (s.queue read).head? with
    | none =>
      rw [hhead] at hstep
      cases hstep
    | some i =>
      rw [hhead] at hstep
      obtain rfl := Option.some.inj hstep
      obtain ⟨c, hc, hqueued⟩ := mem_queue (mem_of_mem_head? hhead)
      rw [modify_eq_set _ hc]
      exact .take read i c hc hqueued
  | worker i ends =>
    simp only [Daemon.step] at hstep
    cases hc : s.calls[i]? with
    | none =>
      rw [hc] at hstep
      cases hstep
    | some c =>
      rw [hc] at hstep
      dsimp only at hstep
      cases hw : c.worker with
      | nil =>
        rw [hw] at hstep
        cases hstep
      | cons x k =>
        rw [hw] at hstep
        obtain rfl := Option.some.inj hstep
        exact .worker i ends c x k hc hw

theorem Inv.step {s' : Daemon} (h : Inv s) (hbegan : s.stages ≠ [] → s.shared.stopping = true)
    {ev : Event} (hmoves : Moves s ev s') : Inv s' := by
  cases hmoves with
  | call op read hidle hrunning => exact h.admitCall hidle hrunning op read
  | idle i c hidle hrunning hc hidles =>
    have hinv := h.quiet hidle hc
    have hadmitted : c.admitted = true := by
      cases hno : c.admitted with
      | true => rfl
      | false =>
        have hzero := (hinv.inline hno).2.1
        omega
    refine h.begin hidle hc ?_ rfl rfl rfl trivial (fun _ => rfl) rfl id
    exact (hinv.cons hadmitted rfl (by simp [Instr.ofShutdown]) (by simp)).takeIdle
      mem_cons_self
  | deadline i c hidle hrunning hc hdeadline =>
    have hinv := h.quiet hidle hc
    have hadmitted : c.admitted = true := by
      cases hno : c.admitted with
      | true => rfl
      | false =>
        rw [(hinv.inline hno).2.2.1] at hdeadline
        cases hdeadline
    refine h.begin hidle hc ?_ rfl rfl rfl trivial (fun _ => rfl) rfl id
    exact (hinv.cons hadmitted rfl (by simp [Instr.ofShutdown]) (by simp)).takeDeadline
      mem_cons_self
  | shutdown => exact h.shutdown
  | main i x rest c htodo hc => exact h.main htodo hc _ _
  | stage stage rest s' hidle hstages hrun =>
    exact h.stage hidle (hbegan (by rw [hstages]; exact cons_ne_nil _ _)) hrun
  | timeout stage rest => exact h.setStages rest true
  | take read i c hc hqueued => exact h.take hc hqueued
  | worker i ends c x k hc hw => exact h.worker hc hw _ _

end Offload
