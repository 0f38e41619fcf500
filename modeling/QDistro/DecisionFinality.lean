/-
# Decisions are final and waiters hear them once

Seven methods write a request's decision, its finalizing flag and its waiters, and the
sections of different calls interleave freely.  A decision with the finalizing flag off
is meant to be final.  It is, and every waiter hears it exactly once, in every run whose
audited re-records of `_enqueue` succeed: that re-record is the one place that lowers a
decision without having flagged it provisional.
-/
import QDistro.BrokerEffects

namespace Broker

open TransitionSystem Status List

variable (cfg : Config)

/-! ## What is claimed of a state -/

/-- The request's decision is set and not marked provisional. -/
def FinallyDecided (s : State) (rid : ℕ) (b : Bool) : Prop :=
  ∃ r, s.reqs rid = some r ∧ r.decision = some b ∧ r.finalizing = false

/-- Is this the waiter's answer? -/
def Event.answers (w : Waiter) : Event → Bool
  | .answered w' _ _ => w' == w
  | _ => false

/-- Is this the waiter's call? -/
def Event.waits (w : Waiter) : Event → Bool
  | .waiting w' => w' == w
  | _ => false

/-- How often a waiter was answered. -/
def answerCount (w : Waiter) (t : List Event) : ℕ := t.countP (Event.answers w)

/-- How often a waiter's call was recorded. -/
def waitCount (w : Waiter) (t : List Event) : ℕ := t.countP (Event.waits w)

/-- An answer given before the request was reaped is the request's decision. -/
def AnswersFinal (s : State) : Prop :=
  ∀ w b, .answered w b true ∈ s.trace → FinallyDecided s w.rid b

/-- A waiter of a finally decided request has been answered, or is answered by the next
section of a method in progress. -/
def NoneDropped (s : State) : Prop :=
  ∀ w b, .waiting w ∈ s.trace → FinallyDecided s w.rid b →
    (∃ b' live, .answered w b' live ∈ s.trace)
      ∨ ∃ i < s.tasks.length, ∀ env, ∃ b' live,
        .answered w b' live ∈ (step cfg s (.resume env i)).trace

/-- No step records a request as allowed while its required audit row cannot be written. -/
def RecordsAudited (s : State) : Action → Prop
  | .resume env i =>
    ∀ rid basis r, s.tasks[i]? = some (.enqueueRecord rid basis) → s.reqs rid = some r →
      r.decision = some true → cfg.auditRequired = true →
      env.auditOk (basisRow cfg r.toFiling r.details basis true (some rid)) = true
  | .call _ _ => True

variable {cfg} {d : Discipline}

/-! ## A final decision stays -/

variable {s s' : State} {rid : ℕ} {b : Bool}

theorem FinallyDecided.of_keeps (h : FinallyDecided s rid b) (hk : Keeps s s' rid) :
    FinallyDecided s' rid b := by
  obtain ⟨r, hr, hd, hf⟩ := h
  obtain ⟨r', hr', -, hd', hf'⟩ := hk r hr
  exact ⟨r', hr', hd'.trans hd, hf'.trans hf⟩

variable {r : Request}

theorem finallyDecided_of_setStatus {f : Status → Status} (hr : s.reqs rid = some r)
    (hreqs : s'.reqs = (s.setStatus rid f).reqs) (hd : (f r.toStatus).decision = some b)
    (hf : (f r.toStatus).finalizing = false) :
    FinallyDecided s' rid b :=
  ⟨_, by rw [hreqs, setStatus_reqs_self hr], hd, hf⟩

theorem FinallyDecided.ne_of_undecided {rid' : ℕ} (h : FinallyDecided s rid b)
    (hr : s.reqs rid' = some r) (hd : r.decision = none) :
    rid ≠ rid' := by
  rintro rfl
  obtain ⟨r', hr', hd', -⟩ := h
  rw [hr] at hr'
  injection hr' with hr'
  rw [← hr', hd] at hd'
  exact absurd hd' (by simp)

theorem FinallyDecided.ne_of_finalizing {rid' : ℕ} (h : FinallyDecided s rid b)
    (hr : s.reqs rid' = some r) (hf : r.finalizing = true) :
    rid ≠ rid' := by
  rintro rfl
  obtain ⟨r', hr', -, hf'⟩ := h
  rw [hr] at hr'
  injection hr' with hr'
  rw [← hr', hf] at hf'
  exact absurd hf' (by simp)

variable {f : DecideFrame} {t : Task}

theorem Inv.finalizing_of_frame (h : Inv cfg s) {i : ℕ} (hi : s.tasks[i]? = some t)
    (ht : t.frame = some f) :
    ∃ r, s.reqs f.rid = some r ∧ r.decision = some f.allowed ∧ r.finalizing = true := by
  have hok := h.tasks t (mem_of_getElem? hi)
  cases t <;> simp only [Task.frame, Option.some.injEq, reduceCtorEq] at ht <;> subst ht <;>
    obtain ⟨r, hr, hd, hf, -⟩ := hok <;> exact ⟨r, hr, hd, hf⟩

/-- No audited re-record of the request is outstanding. -/
def Unrecorded (s : State) (rid : ℕ) : Prop := ∀ basis, .enqueueRecord rid basis ∉ s.tasks

theorem FinallyDecided.move (hinv : Inv cfg s) (hsteady : d.steady ∨ Unrecorded s rid)
    (m : Move cfg d s s') (h : FinallyDecided s rid b) :
    FinallyDecided s' rid b := by
  cases m with
  | quiet | tables | marks | decided | stored | responded | unbind | bind | answerNow | advance | push
  | drop | reap => exact h.of_keeps (.of_reqs rfl rid)
  | release => exact h.of_keeps (.of_reqs (by rw [answer_reqs]) rid)
  | create f raw decision _ _ _ _ _ =>
    obtain ⟨r, hr, hd, hf⟩ := h
    exact ⟨r, by rw [create_reqs_of_ne _ _ _ _ (hinv.ne_nextId hr), hr], hd, hf⟩
  | createDecided f raw basis _ _ _ _ _ =>
    obtain ⟨r, hr, hd, hf⟩ := h
    refine ⟨r, ?_, hd, hf⟩
    rw [push_reqs, emit_reqs, create_reqs_of_ne _ _ _ _ (hinv.ne_nextId hr), hr]
  | record i rid' basis r b' hi hr _ hkeep _ =>
    by_cases hrid : rid = rid'
    · subst hrid
      obtain ⟨r', hr', hd, hf⟩ := h
      rw [hr] at hr'
      injection hr' with hr'
      subst hr'
      rcases hsteady with hsteady | hnone
      · exact ⟨_, setStatus_reqs_self hr, (hkeep hsteady).symm.trans hd, hf⟩
      · exact absurd (mem_of_getElem? hi) (hnone basis)
    · exact h.of_keeps (.setStatus_of_ne rfl hrid)
  | park rid' => exact h.of_keeps (.setStatus (f := joined _) rfl (fun _ => ⟨rfl, rfl⟩) rid)
  | stamp rid' t => exact h.of_keeps (.setStatus (f := stamped t) rfl (fun _ => ⟨rfl, rfl⟩) rid)
  | settle rid' r b' hr hd _ =>
    refine h.of_keeps (.setStatus_of_ne (f := settled b') ?_ (h.ne_of_undecided hr hd))
    rw [Broker.settle, answer_reqs]
  | beginDecide f r hr hd _ _ =>
    exact h.of_keeps (.setStatus_of_ne rfl (h.ne_of_undecided hr hd))
  | hold rid' r hr hd _ =>
    exact h.of_keeps (.setStatus_of_ne rfl (h.ne_of_undecided hr hd))
  | downgrade i f error hi =>
    obtain ⟨r, hr, -, hf⟩ := hinv.finalizing_of_frame hi rfl
    refine h.of_keeps (.setStatus_of_ne (f := downgraded (decide (f.rid ∈ s.pending)))
      ?_ (h.ne_of_finalizing hr hf))
    rw [answer_reqs]
    rfl
  | finalise i f cachedOk hi =>
    obtain ⟨r, hr, -, hf⟩ := hinv.finalizing_of_frame hi rfl
    refine h.of_keeps (.setStatus_of_ne (f := finalised) ?_
      (h.ne_of_finalizing hr hf))
    rw [answer_reqs]
    rfl

/-! ## Every waiter is accounted for -/

/-- How often a waiter is among those the methods in progress will answer. -/
def heldCount (w : Waiter) (ts : List Task) : ℕ := (ts.map fun t => t.waiters.count w).sum

/-- A waiter's call is matched by one answer, or by one place where it waits. -/
structure Accounted (s : State) : Prop where
  law : ∀ w, waitCount w s.trace
    = answerCount w s.trace + (s.parked w.rid).count w + heldCount w s.tasks
  fresh : ∀ w : Waiter, s.nextWaiter ≤ w.serial → waitCount w s.trace = 0
  once : ∀ w, waitCount w s.trace ≤ 1
  parked : ∀ rid, ∀ w ∈ s.parked rid, w.rid = rid
  held : ∀ t ∈ s.tasks, ∀ w ∈ t.waiters, t.owner = some w.rid

theorem accounted_init (rules : List Rule) (cache : List CacheRow) :
    Accounted (State.init rules cache) where
  law _ := rfl
  fresh _ _ := rfl
  once _ := Nat.zero_le 1
  parked _ _ h := by simp [State.init, State.parked] at h
  held _ h := by simp [State.init] at h

section

variable (w : Waiter)

theorem waitCount_cons (e : Event) (t : List Event) :
    waitCount w (e :: t) = waitCount w t + if e.waits w then 1 else 0 := countP_cons

theorem answerCount_cons (e : Event) (t : List Event) :
    answerCount w (e :: t) = answerCount w t + if e.answers w then 1 else 0 := countP_cons

theorem waitCount_answers (ws : List Waiter) (b live : Bool) (t : List Event) :
    waitCount w ((ws.map fun w => Event.answered w b live).reverse ++ t) = waitCount w t := by
  rw [waitCount, countP_append, countP_reverse, countP_map, countP_eq_zero.mpr,
    Nat.zero_add, waitCount]
  intro w' _
  simp [Event.waits]

theorem answerCount_answers (ws : List Waiter) (b live : Bool) (t : List Event) :
    answerCount w ((ws.map fun w => Event.answered w b live).reverse ++ t)
      = ws.count w + answerCount w t := by
  rw [answerCount, countP_append, countP_reverse, countP_map]
  rfl

theorem heldCount_append (ts ts' : List Task) :
    heldCount w (ts ++ ts') = heldCount w ts + heldCount w ts' := by
  simp [heldCount]

theorem heldCount_singleton (t : Task) : heldCount w [t] = t.waiters.count w := by
  simp [heldCount]

end

theorem heldCount_eraseIdx {i : ℕ} (hi : s.tasks[i]? = some t) (w : Waiter) :
    t.waiters.count w + heldCount w (s.tasks.eraseIdx i) = heldCount w s.tasks := by
  have hsum := ((tasks_perm hi).map fun t => t.waiters.count w).sum_nat
  rwa [map_cons, sum_cons] at hsum

theorem parked_of_reqs (h : s'.reqs = s.reqs) (rid : ℕ) :
    s'.parked rid = s.parked rid := by
  rw [State.parked, State.parked, h]

theorem parked_of_some (h : s.reqs rid = some r) :
    s.parked rid = r.waiters := by
  rw [State.parked, h]
  rfl

/-- Nobody joins or leaves a request, and what the trace gains in answers the methods in
progress lose in waiters. -/
theorem Accounted.of_parked (h : Accounted s) (hparked : ∀ rid, s'.parked rid = s.parked rid)
    (hnext : s'.nextWaiter = s.nextWaiter)
    (hwait : ∀ w, waitCount w s'.trace = waitCount w s.trace)
    (hbal : ∀ w, answerCount w s'.trace + heldCount w s'.tasks
      = answerCount w s.trace + heldCount w s.tasks)
    (hheld : ∀ t ∈ s'.tasks, ∀ w ∈ t.waiters, t.owner = some w.rid) : Accounted s' where
  law w := by
    have hlaw := h.law w
    have hb := hbal w
    rw [hwait, hparked]
    omega
  fresh w hw := by rw [hwait, h.fresh w (hnext ▸ hw)]
  once w := by rw [hwait]; exact h.once w
  parked rid w hw := h.parked rid w (hparked rid ▸ hw)
  held := hheld

theorem Inv.parked_create (h : Inv cfg s) (f : Filing) (raw : Details) (decision : Option Bool)
    (rid : ℕ) : (s.create f raw decision).parked rid = s.parked rid := by
  by_cases hrid : rid = s.nextId
  · subst hrid
    rw [parked_of_some (create_reqs_self s f raw decision), State.parked, h.fresh _ le_rfl]
    rfl
  · rw [State.parked, create_reqs_of_ne _ _ _ _ hrid, State.parked]

theorem Accounted.of_setStatus (h : Accounted s) {f : Status → Status} (hr : s.reqs rid = some r)
    (hreqs : s'.reqs = (s.setStatus rid f).reqs) (hnext : s'.nextWaiter = s.nextWaiter)
    (hwait : ∀ w, waitCount w s'.trace = waitCount w s.trace)
    (hkept : ∀ w ∈ (f r.toStatus).waiters, w ∈ r.waiters)
    (hbal : ∀ w, answerCount w s'.trace + (f r.toStatus).waiters.count w + heldCount w s'.tasks
      = answerCount w s.trace + r.waiters.count w + heldCount w s.tasks)
    (hheld : ∀ t ∈ s'.tasks, ∀ w ∈ t.waiters, t.owner = some w.rid) : Accounted s' := by
  have hself : s'.parked rid = (f r.toStatus).waiters := by
    rw [parked_of_reqs hreqs, parked_of_some (setStatus_reqs_self hr)]
  have hother : ∀ i, i ≠ rid → s'.parked i = s.parked i := by
    intro i hi
    rw [parked_of_reqs hreqs, State.parked, setStatus_reqs_of_ne hi, State.parked]
  have hhome : ∀ w ∈ r.waiters, w.rid = rid := by
    intro w hw
    exact h.parked rid w (parked_of_some hr ▸ hw)
  refine ⟨fun w => ?_, fun w hw => ?_, fun w => ?_, fun i w hw => ?_, hheld⟩
  · have hlaw := h.law w
    have hb := hbal w
    rw [hwait]
    by_cases hw : w.rid = rid
    · rw [hw, hself]
      rw [hw, parked_of_some hr] at hlaw
      omega
    · -- a waiter of another request is parked on neither status of this one
      have hold : r.waiters.count w = 0 := count_eq_zero.mpr fun hmem => hw (hhome w hmem)
      have hnew : (f r.toStatus).waiters.count w = 0 :=
        count_eq_zero.mpr fun hmem => hw (hhome w (hkept w hmem))
      rw [hother _ hw]
      omega
  · rw [hwait, h.fresh w (hnext ▸ hw)]
  · rw [hwait]
    exact h.once w
  · by_cases hi : i = rid
    · subst hi
      rw [hself] at hw
      exact hhome w (hkept w hw)
    · rw [hother i hi] at hw
      exact h.parked i w hw

theorem Accounted.held_eraseIdx (h : Accounted s) (i : ℕ) :
    ∀ t ∈ s.tasks.eraseIdx i, ∀ w ∈ t.waiters, t.owner = some w.rid :=
  fun t ht => h.held t (mem_of_mem_eraseIdx ht)

theorem held_push {ts : List Task} (h : ∀ t ∈ ts, ∀ w ∈ t.waiters, t.owner = some w.rid)
    (ht : ∀ w ∈ t.waiters, t.owner = some w.rid) :
    ∀ t' ∈ ts ++ [t], ∀ w ∈ t'.waiters, t'.owner = some w.rid := by
  intro t' ht'
  rcases mem_append.mp ht' with hold | hnew
  · exact h t' hold
  · rw [mem_singleton.mp hnew]
    exact ht

theorem Task.waiters_of_frame (h : t.frame = some f) :
    t.waiters = f.waiters := by
  cases t <;> simp only [Task.frame, Option.some.injEq, reduceCtorEq] at h <;> subst h <;> rfl

theorem Task.waiters_of_owner (h : t.owner = none) : t.waiters = [] := by
  cases t <;> first | rfl | exact absurd h (by simp [Task.owner])

theorem Accounted.newWait (h : Accounted s) {w₀ : Waiter} (hserial : w₀.serial = s.nextWaiter)
    (hnext : s'.nextWaiter = s.nextWaiter + 1)
    (hwait : ∀ w, waitCount w s'.trace = waitCount w s.trace + if w₀ == w then 1 else 0) :
    (∀ w : Waiter, s'.nextWaiter ≤ w.serial → waitCount w s'.trace = 0)
      ∧ ∀ w, waitCount w s'.trace ≤ 1 := by
  constructor
  · intro w hw
    have hne : (w₀ == w) = false := beq_false_of_ne fun heq => by
      rw [← heq] at hw
      omega
    rw [hwait, hne, h.fresh w (by omega)]
    rfl
  · intro w
    rw [hwait]
    by_cases heq : w₀ = w
    · rw [← heq, h.fresh w₀ hserial.ge]
      simp
    · rw [beq_false_of_ne heq]
      simpa using h.once w

theorem Accounted.park (h : Accounted s) (hr : s.reqs rid = some r) :
    Accounted (({ s with nextWaiter := s.nextWaiter + 1 }.emit
        (.waiting (Waiter.mk rid s.nextWaiter))).setStatus rid
      (joined (Waiter.mk rid s.nextWaiter))) := by
  set w₀ : Waiter := Waiter.mk rid s.nextWaiter
  set s' := ({ s with nextWaiter := s.nextWaiter + 1 }.emit (.waiting w₀)).setStatus rid
    (joined w₀)
  have hself : s'.parked rid = r.waiters ++ [w₀] := parked_of_some (setStatus_reqs_self hr)
  have hother : ∀ i, i ≠ rid → s'.parked i = s.parked i := by
    intro i hi
    rw [State.parked, setStatus_reqs_of_ne hi]
    rfl
  have hwait : ∀ w, waitCount w s'.trace = waitCount w s.trace + if w₀ == w then 1 else 0 :=
    fun w => waitCount_cons w _ _
  have hanswer : ∀ w, answerCount w s'.trace = answerCount w s.trace :=
    fun w => answerCount_cons w _ _
  obtain ⟨hfresh, honce⟩ := h.newWait rfl rfl hwait
  refine ⟨fun w => ?_, hfresh, honce, fun i w hw => ?_, h.held⟩
  · have hlaw := h.law w
    rw [hwait, hanswer, show s'.tasks = s.tasks from rfl]
    by_cases hw : w.rid = rid
    · rw [hw, parked_of_some hr] at hlaw
      rw [hw, hself, count_append, count_singleton]
      omega
    · have hne : (w₀ == w) = false := beq_false_of_ne fun heq => hw (heq ▸ rfl)
      rw [hother _ hw, hne]
      simpa using hlaw
  · by_cases hi : i = rid
    · subst hi
      rw [hself, mem_append, mem_singleton] at hw
      rcases hw with hold | rfl
      · exact h.parked i w (parked_of_some hr ▸ hold)
      · rfl
    · exact h.parked i w (hother i hi ▸ hw)

theorem Accounted.answerNow (h : Accounted s) (rid : ℕ) (b : Bool) :
    Accounted (({ s with nextWaiter := s.nextWaiter + 1 }.emit
        (.waiting (Waiter.mk rid s.nextWaiter))).emit
      (.answered (Waiter.mk rid s.nextWaiter) b true)) := by
  set w₀ : Waiter := Waiter.mk rid s.nextWaiter
  set s' := ({ s with nextWaiter := s.nextWaiter + 1 }.emit (.waiting w₀)).emit
    (.answered w₀ b true)
  have hwait : ∀ w, waitCount w s'.trace = waitCount w s.trace + if w₀ == w then 1 else 0 := by
    intro w
    rw [show s'.trace = .answered w₀ b true :: .waiting w₀ :: s.trace from rfl, waitCount_cons,
      waitCount_cons]
    rfl
  have hanswer : ∀ w, answerCount w s'.trace = answerCount w s.trace + if w₀ == w then 1 else 0 := by
    intro w
    rw [show s'.trace = .answered w₀ b true :: .waiting w₀ :: s.trace from rfl, answerCount_cons,
      answerCount_cons]
    rfl
  obtain ⟨hfresh, honce⟩ := h.newWait rfl rfl hwait
  refine ⟨fun w => ?_, hfresh, honce, h.parked, h.held⟩
  · have hlaw := h.law w
    rw [hwait, hanswer, show s'.tasks = s.tasks from rfl,
      show s'.parked w.rid = s.parked w.rid from rfl]
    omega

theorem quiet_counts {e : Event} (h : e.quiet = true) (w : Waiter) (t : List Event) :
    waitCount w (e :: t) = waitCount w t ∧ answerCount w (e :: t) = answerCount w t := by
  rw [waitCount_cons, answerCount_cons]
  cases e <;> first | exact ⟨rfl, rfl⟩ | exact absurd h (by simp [Event.quiet])

theorem Accounted.finish (h : Accounted s) {i : ℕ} {g : Status → Status}
    (hi : s.tasks[i]? = some t) (ht : t.frame = some f) (hr : s.reqs f.rid = some r)
    (hg : (g r.toStatus).waiters = []) (b : Bool) :
    Accounted (({ s with tasks := s.tasks.eraseIdx i }.setStatus f.rid g).answer f.rid b
      (f.waiters ++ s.parked f.rid)) := by
  refine h.of_setStatus (f := g) hr (by rw [answer_reqs]; rfl) (by simp) (fun w => ?_)
    (fun w hw => ?_) (fun w => ?_) (by rw [answer_tasks]; exact h.held_eraseIdx i)
  · rw [answer_trace, waitCount_answers]
    rfl
  · rw [hg] at hw
    exact absurd hw not_mem_nil
  · have hheld := heldCount_eraseIdx hi w
    rw [Task.waiters_of_frame ht] at hheld
    rw [answer_trace, answerCount_answers, answer_tasks, hg, count_append, parked_of_some hr,
      count_nil]
    simp only [setStatus_trace, setStatus_tasks]
    omega

theorem accounted_move (hinv : Inv cfg s) (m : Move cfg d s s') (h : Accounted s) :
    Accounted s' := by
  cases m with
  | quiet e he =>
    refine h.of_parked (fun _ => rfl) rfl (fun w => (quiet_counts he w _).1) (fun w => ?_) h.held
    rw [emit_trace, (quiet_counts he w _).2, emit_tasks]
  | tables | marks | unbind | reap =>
    exact h.of_parked (fun _ => rfl) rfl (fun _ => rfl) (fun _ => rfl) h.held
  | decided | stored | responded | bind =>
    exact h.of_parked (fun _ => rfl) rfl (fun w => waitCount_cons w _ _)
      (fun w => congrArg (· + _) (answerCount_cons w _ _)) h.held
  | create f raw decision _ _ _ _ _ =>
    exact h.of_parked (hinv.parked_create f raw decision) rfl (fun w => waitCount_cons w _ _)
      (fun w => congrArg (· + _) (answerCount_cons w _ _)) h.held
  | createDecided f raw b _ _ _ _ _ =>
    refine h.of_parked (hinv.parked_create f raw _) rfl (fun w => ?_) (fun w => ?_)
      (held_push h.held (by simp [Task.waiters]))
    · rw [push_trace, emit_trace, waitCount_cons, State.create, waitCount_cons]
      rfl
    · rw [push_trace, emit_trace, answerCount_cons, State.create, answerCount_cons, push_tasks,
        heldCount_append, heldCount_singleton]
      rfl
  | record i rid basis r b hi hr _ _ _ =>
    refine h.of_setStatus (f := recorded b) hr rfl rfl (fun _ => rfl) (fun _ hw => hw)
      (fun w => ?_) (h.held_eraseIdx i)
    have hheld := heldCount_eraseIdx hi w
    simp only [Task.waiters, count_nil, Nat.zero_add] at hheld
    rw [setStatus_trace, setStatus_tasks, hheld]
    rfl
  | park rid r hr _ => exact h.park hr
  | answerNow rid r b _ _ _ => exact h.answerNow rid b
  | settle rid r b hr _ _ =>
    refine h.of_setStatus (f := settled b) hr (by rw [Broker.settle, answer_reqs])
      (by simp [Broker.settle]) (fun w => ?_) (by simp [settled]) (fun w => ?_)
      (by simpa [Broker.settle] using h.held)
    · rw [Broker.settle, answer_trace, waitCount_answers]
      rfl
    · rw [Broker.settle, answer_trace, answerCount_answers, answer_tasks, hr]
      simp only [settled, Option.map_some, Option.getD_some, count_nil,
        setStatus_trace, setStatus_tasks]
      omega
  | beginDecide f r hr _ hw _ =>
    refine h.of_setStatus (f := provisional f.allowed) hr rfl rfl (fun _ => rfl)
      (by simp [provisional]) (fun w => ?_) (held_push h.held fun w hmem => ?_)
    · rw [push_tasks, heldCount_append, heldCount_singleton]
      simp only [provisional, Task.waiters, hw, push_trace, setStatus_trace,
        setStatus_tasks, count_nil]
      omega
    · have hmem' : w ∈ s.parked f.rid := by
        rw [parked_of_some hr, ← hw]
        exact hmem
      rw [h.parked f.rid w hmem']
      rfl
  | hold rid r hr _ _ =>
    refine h.of_setStatus (f := settled true) hr rfl rfl (fun _ => rfl)
      (by simp [settled]) (fun w => ?_) (held_push h.held fun w hmem => ?_)
    · rw [push_tasks, heldCount_append, heldCount_singleton]
      simp only [settled, Task.waiters, push_trace, setStatus_trace, setStatus_tasks,
        count_nil]
      omega
    · have hmem' : w ∈ s.parked rid := by
        rw [parked_of_some hr]
        exact hmem
      rw [h.parked rid w hmem']
      rfl
  | advance i t t' f hi ht ht' _ =>
    refine h.of_parked (fun _ => rfl) rfl (fun _ => rfl) (fun w => ?_)
      (held_push (h.held_eraseIdx i) fun w hw => ?_)
    · have hheld := heldCount_eraseIdx hi w
      rw [Task.waiters_of_frame ht, ← Task.waiters_of_frame ht'] at hheld
      rw [heldCount_append, heldCount_singleton]
      dsimp only
      omega
    · rw [Task.owner_of_frame ht', ← Task.owner_of_frame ht]
      refine h.held t (mem_of_getElem? hi) w ?_
      rwa [Task.waiters_of_frame ht, ← Task.waiters_of_frame ht']
  | downgrade i f error hi =>
    obtain ⟨r, hr, -, -⟩ := hinv.finalizing_of_frame hi rfl
    refine h.finish hi rfl hr ?_ false
    rw [downgraded]
    split <;> rfl
  | finalise i f cachedOk hi =>
    obtain ⟨r, hr, -, -⟩ := hinv.finalizing_of_frame hi rfl
    exact h.finish hi rfl hr rfl f.allowed
  | release i rid ws hi =>
    refine h.of_parked (fun _ => parked_of_reqs (by rw [answer_reqs]) _) (by simp) (fun w => ?_)
      (fun w => ?_) (by rw [answer_tasks]; exact h.held_eraseIdx i)
    · rw [answer_trace, waitCount_answers]
    · have hheld := heldCount_eraseIdx hi w
      simp only [Task.waiters] at hheld
      rw [answer_trace, answerCount_answers, answer_tasks]
      dsimp only
      omega
  | push t ho _ =>
    have hnil := Task.waiters_of_owner ho
    refine h.of_parked (fun _ => rfl) rfl (fun _ => rfl) (fun w => ?_)
      (held_push h.held (by simp [hnil]))
    rw [push_tasks, heldCount_append, heldCount_singleton, hnil]
    rfl
  | drop i t hi ho =>
    refine h.of_parked (fun _ => rfl) rfl (fun _ => rfl) (fun w => ?_) (h.held_eraseIdx i)
    have hheld := heldCount_eraseIdx hi w
    rw [Task.waiters_of_owner ho, count_nil, Nat.zero_add] at hheld
    rw [hheld]
  | stamp rid t =>
    cases hr : s.reqs rid with
    | none =>
      refine h.of_parked (fun i => ?_) rfl (fun _ => rfl) (fun _ => rfl) h.held
      rw [State.parked, State.parked, State.setStatus]
      by_cases hi : i = rid
      · subst hi
        simp [hr]
      · simp [hi]
    | some r =>
      exact h.of_setStatus (f := stamped t) hr rfl rfl (fun _ => rfl) (fun _ hw => hw)
        (fun _ => rfl) h.held

/-! ## Nobody is parked on a final decision -/

/-- A finally decided request has no parked waiters. -/
def Idle (s : State) : Prop :=
  ∀ rid r, s.reqs rid = some r → r.decision ≠ none → r.finalizing = false → r.waiters = []

theorem Idle.of_setStatus (h : Idle s) {f : Status → Status}
    (hreqs : s'.reqs = (s.setStatus rid f).reqs)
    (hself : ∀ r, s.reqs rid = some r → (f r.toStatus).decision ≠ none →
      (f r.toStatus).finalizing = false → (f r.toStatus).waiters = [])
    : Idle s' := by
  intro i r' hr' hd hf
  rw [hreqs] at hr'
  obtain ⟨r, hr, -, hst⟩ := setStatus_reqs_inv hr'
  rw [show r'.decision = r'.toStatus.decision from rfl, hst] at hd
  rw [show r'.finalizing = r'.toStatus.finalizing from rfl, hst] at hf
  rw [show r'.waiters = r'.toStatus.waiters from rfl, hst]
  by_cases hi : i = rid
  · subst hi
    rw [if_pos rfl] at hd hf ⊢
    exact hself r hr hd hf
  · rw [if_neg hi] at hd hf ⊢
    exact h i r hr hd hf

theorem Idle.create (h : Idle s) (f : Filing) (raw : Details) (decision : Option Bool) :
    Idle (s.create f raw decision) := by
  intro i r hr hd hf
  rcases create_reqs_inv hr with ⟨-, rfl⟩ | ⟨-, hr⟩
  · rfl
  · exact h i r hr hd hf

theorem idle_move (hinv : Inv cfg s) (m : Move cfg d s s') (h : Idle s) :
    Idle s' := by
  cases m with
  | quiet | tables | marks | decided | stored | responded | unbind | bind | answerNow | advance | push
  | drop | reap => exact h
  | release =>
    intro i r hr
    rw [answer_reqs] at hr
    exact h i r hr
  | create f raw decision _ _ _ _ _ => exact h.create f raw decision
  | createDecided f raw b _ _ _ _ _ => exact h.create f raw (some b.allows)
  | record i rid basis r b hi hr _ _ _ =>
    refine h.of_setStatus (f := recorded b) rfl fun r' hr' _ hf => ?_
    obtain ⟨r0, hr0, hd0, -⟩ := hinv.tasks _ (mem_of_getElem? hi)
    rw [hr'] at hr0
    injection hr0 with hr0
    exact h rid r' hr' (hr0 ▸ hd0) hf
  | park rid r hr ho =>
    refine h.of_setStatus (f := joined ⟨rid, s.nextWaiter⟩) rfl fun r' hr' hd hf => ?_
    have hr0 : s.reqs rid = some r' := hr'
    rw [hr] at hr0
    injection hr0 with hr0
    exact absurd ⟨hr0 ▸ hd, hr0 ▸ hf⟩ ho
  | settle rid r b hr hd _ =>
    exact h.of_setStatus (f := settled b) (by rw [Broker.settle, answer_reqs])
      fun _ _ _ _ => rfl
  | beginDecide f => exact h.of_setStatus (f := provisional f.allowed) rfl fun _ _ _ _ => rfl
  | hold => exact h.of_setStatus (f := settled true) rfl fun _ _ _ _ => rfl
  | downgrade i f error hi =>
    refine h.of_setStatus (f := downgraded (decide (f.rid ∈ s.pending)))
      (by rw [answer_reqs]; rfl) fun _ _ _ _ => ?_
    rw [downgraded]
    split <;> rfl
  | finalise i f cachedOk hi =>
    exact h.of_setStatus (f := finalised) (by rw [answer_reqs]; rfl) fun _ _ _ _ => rfl
  | stamp rid t =>
    exact h.of_setStatus (f := stamped t) rfl fun r hr hd hf => h rid r hr hd hf

/-! ## Answers are final decisions -/

theorem AnswersFinal.of_stable (h : AnswersFinal s)
    (hstable : ∀ rid b, FinallyDecided s rid b → FinallyDecided s' rid b)
    (hnew : ∀ w b, .answered w b true ∈ s'.trace →
      .answered w b true ∈ s.trace ∨ FinallyDecided s' w.rid b)
    : AnswersFinal s' := by
  intro w b hmem
  rcases hnew w b hmem with hold | hfin
  · exact hstable _ _ (h w b hold)
  · exact hfin

variable {w : Waiter}

theorem answered_final {ws : List Waiter} {live : Bool} {t : List Event} {b' live' : Bool}
    (hmem : Event.answered w b' live' ∈ (ws.map fun w => Event.answered w b live).reverse ++ t)
    (hhome : ∀ w ∈ ws, w.rid = rid) (hfin : b' = b → live' = live → FinallyDecided s' rid b) :
    .answered w b' live' ∈ t ∨ FinallyDecided s' w.rid b' := by
  rcases mem_answers hmem with ⟨w', hw', heq⟩ | hold
  · injection heq with hw hb hlive
    subst hw hb
    exact .inr (hhome w hw' ▸ hfin rfl hlive)
  · exact .inl hold

theorem Accounted.rid_of_mem (h : Accounted s) {i : ℕ} (hi : s.tasks[i]? = some t)
    (ht : t.frame = some f) :
    ∀ w ∈ f.waiters ++ s.parked f.rid, w.rid = f.rid := by
  intro w hw
  rcases mem_append.mp hw with hheld | hparked
  · have ho := h.held t (mem_of_getElem? hi) w (by rwa [Task.waiters_of_frame ht])
    rw [Task.owner_of_frame ht] at ho
    injection ho with ho
    exact ho.symm
  · exact h.parked f.rid w hparked

/-- A move answers a waiter with the final decision of its request.  The exception is the
deny of a request that was reaped while its decision was provisional. -/
theorem answered_move (hinv : Inv cfg s) (m : Move cfg d s s') (hacc : Accounted s) {live : Bool}
    (hmem : .answered w b live ∈ s'.trace) (hheard : b = true ∨ live = true) :
    .answered w b live ∈ s.trace ∨ FinallyDecided s' w.rid b := by
  cases m with
  | tables | marks | unbind | record | beginDecide | hold | advance | push | drop | stamp | reap =>
    exact .inl hmem
  | quiet e he =>
    rcases mem_cons.mp hmem with rfl | hold
    · exact absurd he (by simp [Event.quiet])
    · exact .inl hold
  | decided | stored | responded | bind | create | park =>
    rcases mem_cons.mp hmem with heq | hold
    · exact absurd heq (by simp)
    · exact .inl hold
  | createDecided =>
    rcases mem_cons.mp hmem with heq | hmem
    · exact absurd heq (by simp)
    · rcases mem_cons.mp hmem with heq | hold
      · exact absurd heq (by simp)
      · exact .inl hold
  | answerNow rid r b' hr hd hf =>
    rcases mem_cons.mp hmem with heq | hmem
    · injection heq with hw hb
      subst hw hb
      exact .inr ⟨r, hr, hd, hf⟩
    · rcases mem_cons.mp hmem with heq | hold
      · exact absurd heq (by simp)
      · exact .inl hold
  | settle rid r b' hr hd _ =>
    have hfin : FinallyDecided (Broker.settle s rid b') rid b' :=
      finallyDecided_of_setStatus (f := settled b') hr (by rw [Broker.settle, answer_reqs])
        rfl (hinv.undecided rid r hr hd)
    rw [Broker.settle, answer_trace] at hmem
    exact answered_final hmem (fun w hw => hacc.parked rid w hw) fun _ _ => hfin
  | downgrade i f error hi =>
    obtain ⟨r, hr, -, -⟩ := hinv.finalizing_of_frame hi rfl
    rw [answer_trace] at hmem
    refine answered_final hmem (hacc.rid_of_mem hi rfl) fun hb hlive => ?_
    -- the request is still in the table, so the downgrade takes effect
    have hlive' : decide (f.rid ∈ s.pending) = true := by
      rcases hheard with htrue | hheard
      · rw [hb] at htrue
        cases htrue
      · exact hlive.symm.trans hheard
    refine finallyDecided_of_setStatus (f := downgraded (decide (f.rid ∈ s.pending))) hr
      (by rw [answer_reqs]; rfl) ?_ ?_ <;> rw [downgraded, if_pos hlive']
  | finalise i f cachedOk hi =>
    obtain ⟨r, hr, hd, -⟩ := hinv.finalizing_of_frame hi rfl
    rw [answer_trace] at hmem
    exact answered_final hmem (hacc.rid_of_mem hi rfl) fun _ _ =>
      finallyDecided_of_setStatus (f := finalised) hr (by rw [answer_reqs]; rfl) hd rfl
  | release i rid ws hi =>
    obtain ⟨r, hr, hd, hf, -⟩ := hinv.tasks _ (mem_of_getElem? hi)
    rw [answer_trace] at hmem
    refine answered_final hmem (fun w hw => ?_) fun _ _ =>
      ⟨r, by rw [answer_reqs]; exact hr, hd, hf⟩
    have ho := hacc.held _ (mem_of_getElem? hi) w hw
    injection ho with ho
    exact ho.symm

theorem answersFinal_move (hinv : Inv cfg s) (hsteady : d.steady) (m : Move cfg d s s')
    (hacc : Accounted s) (h : AnswersFinal s) : AnswersFinal s' := by
  refine h.of_stable (fun rid b hfin => hfin.move hinv (.inl hsteady) m) fun w b hmem => ?_
  exact answered_move hinv m hacc hmem (.inr rfl)

/-! ## Nobody is forgotten -/

theorem answered_of_answerCount {t : List Event} (h : 0 < answerCount w t) :
    ∃ b live, .answered w b live ∈ t := by
  obtain ⟨e, he, hw⟩ := countP_pos_iff.mp h
  cases e <;> simp only [Event.answers, Bool.false_eq_true, beq_iff_eq] at hw
  subst hw
  exact ⟨_, _, he⟩

theorem waitCount_of_waiting {t : List Event} (h : .waiting w ∈ t) :
    0 < waitCount w t :=
  countP_pos_iff.mpr ⟨_, h, by simp [Event.waits]⟩

theorem held_of_heldCount {ts : List Task} (h : heldCount w ts ≠ 0) :
    ∃ t ∈ ts, w ∈ t.waiters := by
  induction ts with
  | nil => exact absurd rfl h
  | cons t rest ih =>
    by_cases hw : w ∈ t.waiters
    · exact ⟨t, mem_cons_self, hw⟩
    · rw [heldCount, map_cons, sum_cons, count_eq_zero.mpr hw, Nat.zero_add] at h
      obtain ⟨t', ht', hw'⟩ := ih h
      exact ⟨t', mem_cons_of_mem _ ht', hw'⟩

theorem hookRelease_answers (hr : s.reqs rid = some r) {ws : List Waiter} (hw : w ∈ ws) :
    ∃ live, .answered w true live ∈ (hookRelease s rid ws).trace := by
  rw [hookRelease, hr]
  dsimp only
  rw [answer_trace]
  exact ⟨_, mem_append_left _ (mem_reverse.mpr (mem_map_of_mem hw))⟩

theorem Inv.hookRelease_of_final (h : Inv cfg s) (ht : t ∈ s.tasks) (hw : w ∈ t.waiters)
    (ho : t.owner = some w.rid) (hfin : FinallyDecided s w.rid b) :
    ∃ ws, t = .hookRelease w.rid ws ∧ w ∈ ws := by
  obtain ⟨i, hi⟩ := getElem?_of_mem ht
  cases hframe : t.frame with
  | some f =>
    obtain ⟨r, hr, -, hf⟩ := h.finalizing_of_frame hi hframe
    rw [Task.owner_of_frame hframe] at ho
    injection ho with ho
    exact absurd ho.symm (hfin.ne_of_finalizing hr hf)
  | none =>
    cases t <;> simp only [Task.frame, Task.waiters, not_mem_nil, reduceCtorEq] at hframe hw
    injection ho with ho
    subst ho
    exact ⟨_, rfl, hw⟩

theorem noneDropped_of_accounted (hinv : Inv cfg s) (hacc : Accounted s) (hidle : Idle s) :
    NoneDropped cfg s := by
  intro w b hwait hfin
  by_cases hans : 0 < answerCount w s.trace
  · exact .inl (answered_of_answerCount hans)
  · have hlaw := hacc.law w
    have hpos := waitCount_of_waiting hwait
    have hparked : (s.parked w.rid).count w = 0 := by
      obtain ⟨r, hr, hd, hf⟩ := hfin
      rw [parked_of_some hr, hidle w.rid r hr (by rw [hd]; simp) hf, count_nil]
    obtain ⟨t, ht, hmem⟩ := held_of_heldCount (show heldCount w s.tasks ≠ 0 by omega)
    obtain ⟨ws, rfl, hws⟩ := hinv.hookRelease_of_final ht hmem (hacc.held t ht w hmem) hfin
    obtain ⟨i, hi⟩ := List.getElem?_of_mem ht
    refine .inr ⟨i, (List.getElem?_eq_some_iff.mp hi).1, fun env => ?_⟩
    obtain ⟨r, hr, -, -⟩ := hfin
    obtain ⟨live, hlive⟩ := hookRelease_answers
      (s := { s with tasks := s.tasks.eraseIdx i }) hr hws
    refine ⟨true, live, ?_⟩
    rw [step, hi]
    exact hlive

/-! ## Runs -/

/-- The discipline of runs that meet `RecordsAudited`. -/
def steadyDiscipline : Discipline := { steady := True }

theorem steadyDiscipline_allows (s : State) (a : Action) (h : RecordsAudited cfg s a) :
    steadyDiscipline.allows cfg s a := by
  cases a with
  | call env c =>
    exact ⟨fun hf => absurd hf not_false, fun _ _ _ => trivial, fun _ _ => trivial⟩
  | resume env i =>
    intro t hi
    refine ⟨fun _ rid basis ht r hr hd hreq => ?_, fun _ _ => trivial, fun _ _ => trivial,
      fun _ => trivial⟩
    exact h rid basis r (ht ▸ hi) hr hd hreq

/-- **Decisions are final.**  In every run in which the audit row of every request that is
recorded as allowed can be written, whatever the interleaving: the waiters answered before
their request is reaped hear its final decision, no waiter is answered twice, none is
dropped, and a final decision is still the decision after any further steps. -/
theorem decisions_final (cfg : Config) (rules : List Rule) (cache : List CacheRow)
    (as bs : List Action)
    (hm : Meets (step cfg) (RecordsAudited cfg) (State.init rules cache) (as ++ bs)) :
    AnswersFinal (run (step cfg) (State.init rules cache) (as ++ bs))
    ∧ (∀ w, answerCount w (run (step cfg) (State.init rules cache) (as ++ bs)).trace ≤ 1)
    ∧ NoneDropped cfg (run (step cfg) (State.init rules cache) (as ++ bs))
    ∧ ∀ rid b, FinallyDecided (run (step cfg) (State.init rules cache) as) rid b →
        FinallyDecided (run (step cfg) (State.init rules cache) (as ++ bs)) rid b := by
  have hallow : ∀ s a, RecordsAudited cfg s a → steadyDiscipline.allows cfg s a :=
    steadyDiscipline_allows
  obtain ⟨hinv, hacc, hidle, hans⟩ :=
    run_invariant (P := fun s => Accounted s ∧ Idle s ∧ AnswersFinal s) (d := steadyDiscipline)
      (fun _ _ hinv m ⟨hacc, hidle, hans⟩ => ⟨accounted_move hinv m hacc, idle_move hinv m hidle,
        answersFinal_move hinv trivial m hacc hans⟩)
      (fun s a hok _ _ => hallow s a hok) hm (inv_init rules cache)
      ⟨accounted_init rules cache, fun _ _ hr => absurd hr (by simp [State.init]),
        fun _ _ hmem => absurd hmem (by simp [State.init])⟩
  refine ⟨hans, fun w => ?_, noneDropped_of_accounted hinv hacc hidle, fun rid b hfin => ?_⟩
  · have hlaw := hacc.law w
    have honce := hacc.once w
    omega
  · rw [run_append]
    exact (run_invariant (P := fun s => FinallyDecided s rid b) (d := steadyDiscipline)
      (fun _ _ hinv m hfin => hfin.move hinv (.inl trivial) m) (fun s a hok _ _ => hallow s a hok)
      (Meets.append.mp hm).2 (inv_run rules cache as) hfin).2

/-! ## A decision that is taken back -/

/-- A rule that allows every mount. -/
def mountRule : Rule := { decision := .allow, action := some "disk.mount" }

/-- A request that the rule allows is filed, and someone waits for it. -/
def waitRun : List Action :=
  [.call (sampleEnv 0 true) (.requestPermission alice "disk.mount" ∅), .resume (sampleEnv 0 true) 0,
    .call (sampleEnv 0 true) (.waitForDecision alice 1)]

/-- The request is recorded while the audit log works. -/
theorem decisions_final_waitRun :
    AnswersFinal (run (step sampleConfig) (State.init [mountRule] [])
      (waitRun ++ [Action.resume (sampleEnv 0 true) 0])) :=
  (decisions_final sampleConfig [mountRule] [] waitRun [Action.resume (sampleEnv 0 true) 0]
    ⟨trivial, fun _ _ _ _ _ _ _ => rfl, trivial, fun _ _ _ _ _ _ _ => rfl, trivial⟩).1

/-- The request is recorded while the audit log fails: its waiter has been answered allow,
and the decision becomes deny. -/
theorem waitRun_taken_back :
    ¬ AnswersFinal (run (step sampleConfig) (State.init [mountRule] [])
        (waitRun ++ [Action.resume (sampleEnv 0 false) 0]))
    ∧ FinallyDecided (run (step sampleConfig) (State.init [mountRule] []) waitRun) 1 true
    ∧ FinallyDecided (run (step sampleConfig) (State.init [mountRule] [])
        (waitRun ++ [Action.resume (sampleEnv 0 false) 0])) 1 false := by
  have hdeny : FinallyDecided (run (step sampleConfig) (State.init [mountRule] [])
      (waitRun ++ [Action.resume (sampleEnv 0 false) 0])) 1 false := ⟨_, rfl, by decide, by decide⟩
  refine ⟨fun hans => ?_, ⟨_, rfl, by decide, by decide⟩, hdeny⟩
  obtain ⟨r, hr, hd, -⟩ := hans ⟨1, 0⟩ true (by decide)
  obtain ⟨r', hr', hd', -⟩ := hdeny
  rw [hr] at hr'
  injection hr' with hr'
  rw [← hr', hd] at hd'
  exact absurd hd' (by simp)

end Broker
