/-
# Link watchers

`_start_egress_watcher` and `_stop_egress_watcher` of the session manager, with the threads that
`start_link_watcher` spawns.  A watcher thread calls `reattach` on every link-up; its callback
first compares the generation it was started with against the current one, and then runs the
address, link and route operations one by one without a lock.  A stop bumps the generation, takes
the handle out of the table, and joins the thread for a bounded time.

Callers and watcher threads are interleaved step by step.  The generation keeps a callback from
starting after the bump, but not one that has passed its check; only the join covers that.
`Settled` is what the join and the table of handles have to provide (`no_stale_reattach`).
-/
import QDistro.PyDict
import QDistro.TransitionSystem

namespace LinkWatch

open TransitionSystem

/-! ## Re-attaching -/

/-- An operation of the backend. -/
inductive NetOp
  | addrAdd (ns ifn address : String)
  | linkUp (ns ifn : String)
  | routeAddDefaultDev (ns ifn : String)
  deriving DecidableEq

/-- What a watcher captures: the namespace, the uid, whether the policy is `wg`, and the address
of the tunnel. -/
structure Target where
  ns : String
  uid : ℕ
  wg : Bool
  tunnel : Option String
  deriving DecidableEq

/-- `wg_ifname` -/
def wgIfname (uid : ℕ) : String := "wg-" ++ uid.repr

/-- `EgressBackend.reattach`, by `_bring_up_wg`. -/
def reattach (t : Target) : List NetOp :=
  match t.wg, t.tunnel with
  | true, some address =>
    [.addrAdd t.ns (wgIfname t.uid) address, .linkUp t.ns (wgIfname t.uid),
      .routeAddDefaultDev t.ns (wgIfname t.uid)]
  | _, _ => []

/-! ## State -/

/-- Where a watcher thread is: at its event stream, past the check of its callback with
operations left to do, or at its end. -/
inductive Phase
  | reading
  | attaching (rest : List NetOp)
  | ended
  deriving DecidableEq

/-- A watcher thread. -/
structure Watcher where
  name : String
  gen : ℕ
  target : Target
  phase : Phase
  deriving DecidableEq

/-- Where a caller is.  `then?` is the start that a stop is part of. -/
inductive Pc
  | idle
  | stopLock (name : String) (then? : Option Target)
  | stopBump (name : String) (then? : Option Target)
  | stopPop (name : String) (then? : Option Target) (gen : ℕ)
  | stopJoin (name : String) (then? : Option Target) (gen : ℕ) (w : ℕ)
  | stopReturn (name : String) (then? : Option Target) (gen : ℕ)
  | startRead (name : String) (t : Target)
  | startSpawn (name : String) (t : Target) (gen : ℕ)
  | startStore (name : String) (w : ℕ)
  deriving DecidableEq

/-- What is recorded: a stop that returned, with the generation it made, and an operation on
behalf of a generation. -/
inductive Event
  | stopped (name : String) (gen : ℕ)
  | operated (name : String) (gen : ℕ) (op : NetOp)
  deriving DecidableEq

/-- The store's tables, the threads, and the record, newest first. -/
structure State where
  /-- `_watcher_gen` -/
  gens : PyDict String ℕ
  /-- `_watchers` -/
  handles : PyDict String ℕ
  /-- The holder of `_watchers_lock`. -/
  lock : Option ℕ
  watchers : ℕ → Option Watcher
  spawned : ℕ
  callers : ℕ → Pc
  log : List Event

/-- What the environment chooses in a step of a caller. -/
inductive Choice
  /-- The spawn succeeds, or the thread has ended when it is joined. -/
  | ok
  /-- The spawn fails, or the join times out. -/
  | fails
  deriving DecidableEq

inductive Act
  | callStop (i : ℕ) (name : String)
  | callStart (i : ℕ) (name : String) (t : Target)
  | step (i : ℕ) (c : Choice)
  /-- A link-up event reaches the callback of a watcher. -/
  | linkUp (v : ℕ)
  /-- The callback runs its next operation, which may raise. -/
  | operate (v : ℕ) (ok : Bool)
  /-- The event stream of a watcher ends. -/
  | eof (v : ℕ)
  deriving DecidableEq

/-! ## Steps -/

namespace State

/-- Move a caller. -/
def goto (s : State) (i : ℕ) (pc : Pc) : State := { s with callers := Function.update s.callers i pc }

/-- Move a watcher thread. -/
def setPhase (s : State) (v : ℕ) (w : Watcher) (p : Phase) : State :=
  { s with watchers := Function.update s.watchers v (some { w with phase := p }) }

/-- `self._watcher_gen.get(name, 0)` -/
def gen (s : State) (name : String) : ℕ := (s.gens.get? name).getD 0

/-- The thread of a handle has ended. -/
def hasEnded (s : State) (v : ℕ) : Bool :=
  match s.watchers v with
  | some w => w.phase = .ended
  | none => true

end State

/-- Past the operations that are left, a callback returns to the event stream. -/
def Phase.next : List NetOp → Phase
  | [] => .reading
  | rest => .attaching rest

/-- One step of a caller. -/
def callerStep (s : State) (i : ℕ) (c : Choice) : State :=
  match s.callers i with
  | .idle => s
  | .stopLock name k =>
    if s.lock = none then { s with lock := some i }.goto i (.stopBump name k) else s
  | .stopBump name k =>
    { s with gens := s.gens.insert name (s.gen name + 1) }.goto i
      (.stopPop name k (s.gen name + 1))
  | .stopPop name k g =>
    match s.handles.get? name with
    | none => s.goto i (.stopReturn name k g)
    | some v => { s with handles := s.handles.erase name }.goto i (.stopJoin name k g v)
  | .stopJoin name k g v =>
    if c = .fails ∨ s.hasEnded v then s.goto i (.stopReturn name k g) else s
  | .stopReturn name k g =>
    { s with lock := none, log := .stopped name g :: s.log }.goto i
      (match k with
        | none => .idle
        | some t => .startRead name t)
  | .startRead name t => s.goto i (.startSpawn name t (s.gen name))
  | .startSpawn name t g =>
    match c with
    | .fails => s.goto i .idle
    | .ok =>
      { s with
        watchers := Function.update s.watchers s.spawned (some ⟨name, g, t, .reading⟩)
        spawned := s.spawned + 1 }.goto i (.startStore name s.spawned)
  | .startStore name v => { s with handles := s.handles.insert name v }.goto i .idle

/-- One step. -/
def step (s : State) : Act → State
  | .callStop i name =>
    if s.callers i = .idle then s.goto i (.stopLock name none) else s
  | .callStart i name t =>
    if s.callers i = .idle then s.goto i (.stopLock name (some t)) else s
  | .step i c => callerStep s i c
  | .linkUp v =>
    match s.watchers v with
    | some w =>
      if w.phase = .reading ∧ s.gens.get? w.name = some w.gen then
        s.setPhase v w (.next (reattach w.target))
      else s
    | none => s
  | .operate v ok =>
    match s.watchers v with
    | some w =>
      match w.phase with
      | .attaching (op :: rest) =>
        { s with log := .operated w.name w.gen op :: s.log }.setPhase v w
          (if ok then .next rest else .reading)
      | _ => s
    | none => s
  | .eof v =>
    match s.watchers v with
    | some w => if w.phase = .reading then s.setPhase v w .ended else s
    | none => s

/-- The daemon as it starts. -/
def boot : State := ⟨∅, ∅, none, fun _ => none, 0, fun _ => .idle, []⟩

/-! ## Stale operations -/

/-- No operation of a generation older than a stop comes after the stop has returned. -/
def NoStale (log : List Event) : Prop :=
  log.Pairwise fun newer older => ∀ name gen op g,
    newer = .operated name gen op → older = .stopped name g → g ≤ gen

/-- A watcher of an older generation than `g` that has passed the check of its callback. -/
def State.Midway (s : State) (name : String) (g v : ℕ) : Prop :=
  ∃ w, s.watchers v = some w ∧ w.name = name ∧ w.gen < g ∧ ∃ rest, w.phase = .attaching rest

/-- **The condition.**  When a stop takes the handle out of the table, no other watcher of the
silo is midway in a re-attach of an older generation; and a join that times out does not leave
its watcher midway. -/
def Settled (s : State) : Act → Prop
  | .step i c =>
    match s.callers i with
    | .stopPop name _ g => ∀ v, s.Midway name g v → s.handles.get? name = some v
    | .stopJoin name _ g v => c = .fails → ¬s.Midway name g v
    | _ => True
  | _ => True

/-! ## What a step can do -/

@[simp] theorem State.goto_gens (s : State) (i : ℕ) (pc : Pc) : (s.goto i pc).gens = s.gens := rfl
@[simp] theorem State.goto_watchers (s : State) (i : ℕ) (pc : Pc) :
    (s.goto i pc).watchers = s.watchers := rfl
@[simp] theorem State.goto_log (s : State) (i : ℕ) (pc : Pc) : (s.goto i pc).log = s.log := rfl
@[simp] theorem State.setPhase_gens (s : State) (v : ℕ) (w : Watcher) (p : Phase) :
    (s.setPhase v w p).gens = s.gens := rfl

theorem gen_mono (s : State) (a : Act) (name : String) : s.gen name ≤ (step s a).gen name := by
  have hcaller : ∀ i c, s.gen name ≤ (callerStep s i c).gen name := by
    intro i c
    unfold callerStep
    split
    case h_3 other k _ =>
      -- the bump is the one step that touches the table
      unfold State.gen
      by_cases hn : other = name
      · subst hn
        simp
      · simp [PyDict.get?_insert_of_ne _ _ hn]
    all_goals
      repeat' split
      all_goals exact Nat.le_refl _
  cases a with
  | step i c => exact hcaller i c
  | callStop i n =>
    simp only [step]
    split <;> exact Nat.le_refl _
  | callStart i n t =>
    simp only [step]
    split <;> exact Nat.le_refl _
  | linkUp v =>
    simp only [step]
    repeat' split
    all_goals exact Nat.le_refl _
  | operate v ok =>
    simp only [step]
    repeat' split
    all_goals exact Nat.le_refl _
  | eof v =>
    simp only [step]
    repeat' split
    all_goals exact Nat.le_refl _

variable {s : State}

theorem midway_setPhase {v : ℕ} {w : Watcher} {p : Phase} {name : String} {g u : ℕ}
    (hw : s.watchers v = some w) (h : (s.setPhase v w p).Midway name g u) :
    s.Midway name g u ∨ u = v ∧ w.name = name ∧ w.gen < g ∧ ∃ rest, p = .attaching rest := by
  obtain ⟨w', hw', hn, hg, rest, hp⟩ := h
  by_cases hu : u = v
  · subst hu
    simp only [State.setPhase, Function.update_self, Option.some.injEq] at hw'
    subst hw'
    exact .inr ⟨rfl, hn, hg, rest, hp⟩
  · left
    simp only [State.setPhase, Function.update_of_ne hu] at hw'
    exact ⟨w', hw', hn, hg, rest, hp⟩

/-- **Step lemma.**  Once the generation is past, no watcher of an older one goes midway. -/
theorem midway_step {a : Act} {name : String} {g u : ℕ} (hg : g ≤ s.gen name)
    (h : (step s a).Midway name g u) : s.Midway name g u := by
  cases a with
  | callStop i n =>
    simp only [step] at h
    split at h <;> exact h
  | callStart i n t =>
    simp only [step] at h
    split at h <;> exact h
  | step i c =>
    simp only [step] at h
    unfold callerStep at h
    split at h
    case h_8 other t g' _ =>
      cases c with
      | fails => exact h
      | ok =>
        obtain ⟨w, hw, hn, hlt, rest, hp⟩ := h
        by_cases hu : u = s.spawned
        · subst hu
          simp only [State.goto_watchers, Function.update_self, Option.some.injEq] at hw
          subst hw
          cases hp
        · simp only [State.goto_watchers, Function.update_of_ne hu] at hw
          exact ⟨w, hw, hn, hlt, rest, hp⟩
    all_goals
      repeat' split at h
      all_goals exact h
  | linkUp v =>
    simp only [step] at h
    split at h
    · next w hw =>
      split at h
      · next hcheck =>
        rcases midway_setPhase hw h with h | ⟨rfl, rfl, hlt, -⟩
        · exact h
        · -- the check lets only the current generation through
          unfold State.gen at hg
          rw [hcheck.2] at hg
          simp only [Option.getD_some] at hg
          omega
      · exact h
    · exact h
  | operate v ok =>
    simp only [step] at h
    split at h
    · next w hw =>
      split at h
      · next op rest hphase =>
        rcases midway_setPhase (s := { s with log := _ }) hw h with h | ⟨rfl, hn, hlt, -⟩
        · exact h
        · exact ⟨w, hw, hn, hlt, _, hphase⟩
      · exact h
    · exact h
  | eof v =>
    simp only [step] at h
    split at h
    · next w hw =>
      split at h
      · rcases midway_setPhase hw h with h | ⟨-, -, -, rest, hp⟩
        · exact h
        · cases hp
      · exact h
    · exact h

/-! ## The invariant -/

/-- The generation `g` is reached and no watcher of an older one is midway. -/
def State.Closed (s : State) (name : String) (g : ℕ) : Prop :=
  g ≤ s.gen name ∧ ∀ u, ¬s.Midway name g u

/-- What a caller has established at its place in the code. -/
def Owed (s : State) : Pc → Prop
  | .stopPop name _ g => g ≤ s.gen name
  | .stopJoin name _ g v => g ≤ s.gen name ∧ ∀ u, s.Midway name g u → u = v
  | .stopReturn name _ g => s.Closed name g
  | _ => True

/-- **Invariant.**  Every caller owes what its place says, and a stop that returned has closed its
generation. -/
structure Inv (s : State) : Prop where
  callers : ∀ i, Owed s (s.callers i)
  closed : ∀ name g, Event.stopped name g ∈ s.log → s.Closed name g
  noStale : NoStale s.log

theorem State.Closed.step {name : String} {g : ℕ} (h : s.Closed name g) (a : Act) :
    (step s a).Closed name g :=
  ⟨Nat.le_trans h.1 (gen_mono s a name), fun u hu => h.2 u (midway_step h.1 hu)⟩

theorem Owed.step {pc : Pc} (h : Owed s pc) (a : Act) : Owed (step s a) pc := by
  cases pc with
  | stopPop name k g => exact Nat.le_trans h (gen_mono s a name)
  | stopJoin name k g v =>
    exact ⟨Nat.le_trans h.1 (gen_mono s a name), fun u hu => h.2 u (midway_step h.1 hu)⟩
  | stopReturn name k g => exact State.Closed.step h a
  | _ => trivial

theorem owed_moved (h : Inv s) {i : ℕ} {c : Choice} (hok : Settled s (.step i c)) :
    Owed (callerStep s i c) ((callerStep s i c).callers i) := by
  have howed := h.callers i
  simp only [Settled] at hok
  unfold callerStep
  cases hpc : s.callers i with
  | idle =>
    dsimp only
    rw [hpc]
    trivial
  | stopLock name k =>
    dsimp only
    split
    · simp [State.goto, Owed]
    · rw [hpc]
      trivial
  | stopBump name k => simp [State.goto, Owed, State.gen]
  | stopPop name k g =>
    rw [hpc] at howed hok
    dsimp only at hok ⊢
    cases hh : s.handles.get? name with
    | none =>
      simp only [State.goto, Function.update_self]
      refine ⟨howed, fun u hu => ?_⟩
      have hnone := hok u hu
      rw [hh] at hnone
      cases hnone
    | some v =>
      simp only [State.goto, Function.update_self]
      refine ⟨howed, fun u hu => ?_⟩
      have hsome := hok u hu
      rw [hh] at hsome
      exact (Option.some.inj hsome).symm
  | stopJoin name k g v =>
    rw [hpc] at howed hok
    dsimp only at hok ⊢
    split
    · next hjoin =>
      simp only [State.goto, Function.update_self]
      refine ⟨howed.1, fun u hu => ?_⟩
      have huv := howed.2 u hu
      subst huv
      rcases hjoin with hc | hended
      · exact hok hc hu
      · obtain ⟨w, hw, -, -, rest, hp⟩ := hu
        have hw : s.watchers u = some w := hw
        rw [State.hasEnded, hw] at hended
        simp [hp] at hended
    · rw [hpc]
      exact howed
  | stopReturn name k g => cases k <;> simp [State.goto, Owed]
  | startRead name t => simp [State.goto, Owed]
  | startSpawn name t g => cases c <;> simp [State.goto, Owed]
  | startStore name v => simp [State.goto, Owed]

theorem callers_other {i j : ℕ} (c : Choice) (h : j ≠ i) :
    (callerStep s i c).callers j = s.callers j := by
  unfold callerStep
  repeat' split
  all_goals first
    | rfl
    | exact Function.update_of_ne h _ _

theorem Inv.callers_step (h : Inv s) {a : Act} (hok : Settled s a) (j : ℕ) :
    Owed (step s a) ((step s a).callers j) := by
  have hsame : (step s a).callers j = s.callers j → Owed (step s a) ((step s a).callers j) := by
    intro heq
    rw [heq]
    exact (h.callers j).step a
  cases a with
  | callStop i name =>
    by_cases hj : j = i
    · subst hj
      by_cases hidle : s.callers j = .idle
      · simp [step, hidle, State.goto, Owed]
      · exact hsame (by simp [step, hidle])
    · apply hsame
      simp only [step]
      split
      · exact Function.update_of_ne hj _ _
      · rfl
  | callStart i name t =>
    by_cases hj : j = i
    · subst hj
      by_cases hidle : s.callers j = .idle
      · simp [step, hidle, State.goto, Owed]
      · exact hsame (by simp [step, hidle])
    · apply hsame
      simp only [step]
      split
      · exact Function.update_of_ne hj _ _
      · rfl
  | step i c =>
    by_cases hj : j = i
    · subst hj
      exact owed_moved h hok
    · exact hsame (callers_other c hj)
  | linkUp v =>
    apply hsame
    simp only [step]
    repeat' split
    all_goals rfl
  | operate v ok =>
    apply hsame
    simp only [step]
    repeat' split
    all_goals rfl
  | eof v =>
    apply hsame
    simp only [step]
    repeat' split
    all_goals rfl

/-- What a step records: nothing, the return of a stop, or an operation of a watcher that is
midway. -/
theorem log_step (s : State) (a : Act) :
    (step s a).log = s.log ∨
      (∃ i c name k g, a = .step i c ∧ s.callers i = .stopReturn name k g ∧
        (step s a).log = .stopped name g :: s.log) ∨
      ∃ v w op rest, s.watchers v = some w ∧ w.phase = .attaching (op :: rest) ∧
        (step s a).log = .operated w.name w.gen op :: s.log := by
  cases a with
  | callStop i name =>
    left
    simp only [step]
    split <;> rfl
  | callStart i name t =>
    left
    simp only [step]
    split <;> rfl
  | step i c =>
    cases hpc : s.callers i with
    | stopReturn name k g =>
      right; left
      exact ⟨i, c, name, k, g, rfl, hpc, by simp only [step, callerStep, hpc]; rfl⟩
    | _ =>
      left
      simp only [step, callerStep, hpc]
      repeat' split
      all_goals rfl
  | linkUp v =>
    left
    simp only [step]
    repeat' split
    all_goals rfl
  | operate v ok =>
    simp only [step]
    split
    · next w hw =>
      split
      · next op rest hp => exact .inr (.inr ⟨v, w, op, rest, hw, hp, rfl⟩)
      · exact .inl rfl
    · exact .inl rfl
  | eof v =>
    left
    simp only [step]
    repeat' split
    all_goals rfl

theorem Inv.step (h : Inv s) {a : Act} (hok : Settled s a) : Inv (step s a) := by
  refine ⟨h.callers_step hok, ?_, ?_⟩
  · intro name g hmem
    rcases log_step s a with hl | ⟨i, c, n, k, g', rfl, hpc, hl⟩ | ⟨v, w, op, rest, -, -, hl⟩
    · rw [hl] at hmem
      exact (h.closed name g hmem).step a
    · rw [hl] at hmem
      rcases List.mem_cons.mp hmem with heq | hmem
      · cases heq
        have howed := h.callers i
        rw [hpc] at howed
        exact State.Closed.step howed _
      · exact (h.closed name g hmem).step _
    · rw [hl] at hmem
      rcases List.mem_cons.mp hmem with heq | hmem
      · cases heq
      · exact (h.closed name g hmem).step a
  · rcases log_step s a with hl | ⟨i, c, n, k, g', rfl, hpc, hl⟩ | ⟨v, w, op, rest, hw, hp, hl⟩
    · rw [hl]
      exact h.noStale
    · rw [hl]
      refine List.pairwise_cons.mpr ⟨fun e _ name gen op g hnew => ?_, h.noStale⟩
      cases hnew
    · rw [hl]
      refine List.pairwise_cons.mpr ⟨fun e he name gen op' g hnew hold => ?_, h.noStale⟩
      cases hnew
      subst hold
      -- an older generation cannot be midway once the stop has closed it
      by_contra hlt
      exact (h.closed _ g he).2 v ⟨w, hw, rfl, by omega, _, hp⟩

theorem inv_boot : Inv boot := by
  refine ⟨fun i => trivial, ?_, ?_⟩
  · intro name g hmem
    cases hmem
  · exact List.Pairwise.nil

/-- **No stale re-attach.**  In every interleaving whose steps are all settled, no operation is
executed for a generation after a stop that made a later one has returned. -/
theorem no_stale_reattach (acts : List Act) (h : Meets step Settled boot acts) :
    NoStale (run step boot acts).log :=
  (h.invariant (fun _ _ hok hs => Inv.step hs hok) inv_boot).noStale

/-! A watcher that is started and stopped, once in order and once in the middle of a re-attach. -/

def sampleTarget : Target := ⟨"qd-a", 2000, true, some "10.0.0.2/32"⟩

/-- Caller 0 starts a watcher, up to a first link-up. -/
def watched : List Act :=
  [.callStart 0 "a" sampleTarget, .step 0 .ok, .step 0 .ok, .step 0 .ok, .step 0 .ok, .step 0 .ok,
    .step 0 .ok, .step 0 .ok, .linkUp 0]

/-- Caller 1 stops it. -/
def stopping (c : Choice) : List Act :=
  [.callStop 1 "a", .step 1 .ok, .step 1 .ok, .step 1 .ok, .step 1 c, .step 1 .ok]

/-- The callback runs to its end and the thread ends before it is joined. -/
def orderly : List Act :=
  watched ++ [Act.operate 0 true, Act.operate 0 true, Act.operate 0 true, Act.eof 0] ++ stopping .ok

theorem no_stale_reattach_orderly :
    Event.stopped "a" 2 ∈ (run step boot orderly).log ∧ NoStale (run step boot orderly).log := by
  refine ⟨by decide, no_stale_reattach orderly ?_⟩
  refine ⟨trivial, trivial, trivial, ?_, trivial, trivial, trivial, trivial, trivial, trivial,
    trivial, trivial, trivial, trivial, trivial, trivial, ?_, ?_, trivial, trivial⟩
  · rintro v ⟨w, hw, -⟩
    cases hw
  · rintro v ⟨w, hw, -⟩
    cases v with
    | zero => rfl
    | succ v => cases hw
  · intro hc
    cases hc

/-- The join times out in the middle of a re-attach, which then goes on. -/
def overtaken : List Act := watched ++ stopping .fails ++ [Act.operate 0 true]

theorem overtaken_join_stale : ¬NoStale (run step boot overtaken).log := by
  intro h
  have hlog : (run step boot overtaken).log =
      [.operated "a" 1 (.addrAdd "qd-a" "wg-2000" "10.0.0.2/32"), .stopped "a" 2, .stopped "a" 1] := by
    decide
  rw [hlog] at h
  have hle := (List.pairwise_cons.mp h).1 (.stopped "a" 2) (by simp) "a" 1 _ 2 rfl rfl
  omega

end LinkWatch
