/-
# A cancelled polkit session stays cancelled

When the agent relays a cancel, the broker denies what the connection has filed for the
cookie and remembers the cancel in a mark, so that a filing that arrives late is denied
too.  The mark of a cookie is one record: the connections that cancelled, and the time it
was made.  It protects a connection for as long as it is there, whatever other connections
announce, respond to or cancel.  Three things take it away too early, or leave it out: a
filing of the cookie by a connection the mark does not name, a mark made before the cancel
and expiring with its own time, and an empty cookie.
-/
import QDistro.BrokerEffects

namespace Broker

open TransitionSystem Status List

variable (cfg : Config) (before : State) (sender : Sender) (cookie : String)

/-! ## What a cancel promises -/

/-- Requests of the cookie by the connection are decided, and allowed only if they were
allowed before the cancel. -/
def Denied (s : State) : Prop :=
  ∀ rid r, s.reqs rid = some r → r.polkitCookie = cookie → r.filedBy = sender.name →
    r.decision ≠ none
      ∧ (r.decision = some true → ∃ r₀, before.reqs rid = some r₀ ∧ r₀.decision = some true)

/-- No response has been sent for the cookie on behalf of the connection. -/
def Silent (s : State) : Prop :=
  ∃ newer, s.trace = newer ++ before.trace
    ∧ ∀ p, .responded p ∈ newer → ¬ (p.owner = sender.name ∧ p.cookie = cookie)

/-- No filing of the cookie by the connection is under way that the mark would miss, and no
response of the connection to it. -/
def TaskClear : Task → Prop
  | .enqueueCreate fr =>
    fr.filing.polkitCookie = cookie → fr.filing.filedBy = sender.name → fr.pre = some .cancelled
  | .respondRelay sender' _ cookie' _ _ => ¬ (sender' = sender ∧ cookie' = cookie)
  | _ => True

/-- The step does not take the cookie's mark away: it is no accepted filing of the cookie
by a connection the mark does not name, and it does not prune a mark that is older than
the cancel. -/
def MarkKept (cancelledAt : Time) (s : State) : Action → Prop
  | .call env (.requestPolkitAuth sender' action _ cookie' _) =>
    cookie' = cookie → env.polkitPeer sender' = none →
      env.rateOk (cfg.connUid sender') action = true →
      ∀ m, s.cancelled.get? cookie = some m → m.names sender'.name = true
  | .call env (.announcePolkitAuth ..) | .call env (.cancelPolkitAuth ..) =>
    ∀ m, s.cancelled.get? cookie = some m → m.time < cancelledAt →
      freshMark env.now m.time = true
  | _ => True

/-! ## The state after a cancel -/

/-- What holds from the end of the cancel on. -/
structure Watched (s : State) : Prop where
  mark : ∃ m, s.cancelled.get? cookie = some m ∧ sender ∈ m.senders
  denied : Denied before sender cookie s
  silent : Silent before sender cookie s
  clear : ∀ t ∈ s.tasks, TaskClear sender cookie t

/-- What the steps after a cancel may do. -/
def watchDiscipline : Discipline :=
  { marks := fun old new => ∀ m, old.get? cookie = some m → sender ∈ m.senders →
      ∃ m', new.get? cookie = some m' ∧ sender ∈ m'.senders
    files := fun f decision => f.polkitCookie = cookie → f.filedBy = sender.name →
      decision = some false
    responds := fun p => ¬ (p.owner = sender.name ∧ p.cookie = cookie)
    pushes := TaskClear sender cookie }

variable {cfg before sender cookie}

variable {m : CancelMark}

theorem CancelMark.names_of_mem (h : sender ∈ m.senders) :
    m.names sender.name = true :=
  any_eq_true.mpr ⟨sender, h, beq_self_eq_true _⟩

/-! ### Decisions -/

variable {s s' : State}

theorem Denied.of_reqs (h : Denied before sender cookie s) (hreqs : s'.reqs = s.reqs) :
    Denied before sender cookie s' := by
  intro rid r hr
  rw [hreqs] at hr
  exact h rid r hr

variable {rid : ℕ}

theorem Denied.of_setStatus (h : Denied before sender cookie s) {f : Status → Status}
    (hreqs : s'.reqs = (s.setStatus rid f).reqs)
    (hf : ∀ r, s.reqs rid = some r → r.decision ≠ none → (f r.toStatus).decision ≠ none
      ∧ ((f r.toStatus).decision = some true → r.decision = some true)) :
    Denied before sender cookie s' := by
  intro i r' hr' hc hby
  rw [hreqs] at hr'
  obtain ⟨r, hr, hfil, hst⟩ := setStatus_reqs_inv hr'
  rw [hfil] at hc hby
  obtain ⟨hd, hallowed⟩ := h i r hr hc hby
  rw [show r'.decision = r'.toStatus.decision from rfl, hst]
  by_cases hi : i = rid
  · subst hi
    rw [if_pos rfl]
    obtain ⟨hd', hallowed'⟩ := hf r hr hd
    exact ⟨hd', fun htrue => hallowed (hallowed' htrue)⟩
  · rw [if_neg hi]
    exact ⟨hd, hallowed⟩

theorem Denied.create (h : Denied before sender cookie s) {f : Filing} (raw : Details)
    {decision : Option Bool}
    (hf : f.polkitCookie = cookie → f.filedBy = sender.name → decision = some false) :
    Denied before sender cookie (s.create f raw decision) := by
  intro i r hr hc hby
  rcases create_reqs_inv hr with ⟨-, rfl⟩ | ⟨-, hr⟩
  · have hd : decision = some false := hf hc hby
    subst hd
    exact ⟨by simp, by simp⟩
  · exact h i r hr hc hby

theorem denied_move (m : Move cfg (watchDiscipline sender cookie) s s')
    (h : Denied before sender cookie s) :
    Denied before sender cookie s' := by
  cases m with
  | quiet | tables | marks | decided | stored | responded | unbind | bind | answerNow | advance
  | push | drop | reap => exact h.of_reqs rfl
  | release => exact h.of_reqs (by rw [answer_reqs])
  | create f raw decision _ _ _ _ _ hf => exact h.create raw hf
  | createDecided f raw b _ _ _ _ _ hf => exact (h.create raw hf).of_reqs rfl
  | record i rid basis r b _ hr hlow _ _ =>
    refine h.of_setStatus (f := recorded b) rfl fun r' hr' _ => ⟨by simp [recorded],
      fun htrue => ?_⟩
    have hb : b = true := by simpa [recorded] using htrue
    have hr0 : s.reqs rid = some r' := hr'
    rw [hr] at hr0
    injection hr0 with hr0
    exact hr0 ▸ hlow hb
  | park rid =>
    exact h.of_setStatus (f := joined ⟨rid, s.nextWaiter⟩) rfl fun _ _ hd =>
      ⟨hd, fun htrue => htrue⟩
  | stamp rid t =>
    exact h.of_setStatus (f := stamped t) rfl fun _ _ hd => ⟨hd, fun htrue => htrue⟩
  | settle rid r b hr hd _ =>
    refine h.of_setStatus (f := settled b) (by rw [Broker.settle, answer_reqs])
      fun r' hr' hd' => absurd hd ?_
    rw [hr] at hr'
    injection hr' with hr'
    exact hr' ▸ hd'
  | beginDecide f r hr hd _ _ =>
    refine h.of_setStatus (f := provisional f.allowed) rfl fun r' hr' hd' => absurd hd ?_
    rw [hr] at hr'
    injection hr' with hr'
    exact hr' ▸ hd'
  | hold rid r hr hd _ =>
    refine h.of_setStatus (f := settled true) rfl fun r' hr' hd' => absurd hd ?_
    rw [hr] at hr'
    injection hr' with hr'
    exact hr' ▸ hd'
  | downgrade i f error _ =>
    refine h.of_setStatus (f := downgraded (decide (f.rid ∈ s.pending)))
      (by rw [answer_reqs]; rfl) fun r _ hd => ?_
    rw [downgraded]
    split
    · exact ⟨by simp, by simp⟩
    · exact ⟨hd, fun htrue => htrue⟩
  | finalise =>
    exact h.of_setStatus (f := finalised) (by rw [answer_reqs]; rfl) fun _ _ hd =>
      ⟨hd, fun htrue => htrue⟩

/-! ### Responses -/

theorem Silent.append (h : Silent before sender cookie s) {new : List Event}
    (htrace : s'.trace = new ++ s.trace)
    (hnew : ∀ p, .responded p ∈ new → ¬ (p.owner = sender.name ∧ p.cookie = cookie)) :
    Silent before sender cookie s' := by
  obtain ⟨newer, heq, hsilent⟩ := h
  refine ⟨new ++ newer, by rw [htrace, heq, append_assoc], fun p hp => ?_⟩
  rcases mem_append.mp hp with hp | hp
  · exact hnew p hp
  · exact hsilent p hp

theorem Silent.cons (h : Silent before sender cookie s) {e : Event}
    (htrace : s'.trace = e :: s.trace)
    (he : ∀ p, e = .responded p → ¬ (p.owner = sender.name ∧ p.cookie = cookie)) :
    Silent before sender cookie s' := by
  have hnew : ∀ p, .responded p ∈ [e] → ¬ (p.owner = sender.name ∧ p.cookie = cookie) :=
    fun p hp => he p (mem_singleton.mp hp).symm
  exact h.append htrace hnew

theorem Silent.answers (h : Silent before sender cookie s) {ws : List Waiter} {b live : Bool}
    (htrace : s'.trace = (ws.map fun w => Event.answered w b live).reverse ++ s.trace) :
    Silent before sender cookie s' := by
  refine h.append htrace fun p hp => ?_
  rw [mem_reverse, mem_map] at hp
  obtain ⟨w, -, heq⟩ := hp
  exact absurd heq (by simp)

theorem silent_move (m : Move cfg (watchDiscipline sender cookie) s s')
    (h : Silent before sender cookie s) : Silent before sender cookie s' := by
  cases m with
  | tables | marks | unbind | record | beginDecide | hold | advance | push | drop | stamp | reap =>
    exact h
  | quiet e he =>
    refine h.cons rfl ?_
    rintro p rfl
    exact absurd he (by simp [Event.quiet])
  | responded p _ _ hp =>
    refine h.cons rfl ?_
    rintro p' heq
    injection heq with heq
    exact heq ▸ hp
  | decided | stored | bind | create | park => exact h.cons rfl (by simp)
  | createDecided f raw b _ _ _ _ _ =>
    have hcreate : Silent before sender cookie (s.create f raw (some b.allows)) :=
      h.cons rfl (by simp)
    exact hcreate.cons rfl (by simp)
  | answerNow rid r b _ _ _ =>
    have hwaiting : Silent before sender cookie (s.emit (.waiting ⟨rid, s.nextWaiter⟩)) :=
      h.cons rfl (by simp)
    exact hwaiting.cons rfl (by simp)
  | settle => exact h.answers (by rw [Broker.settle, answer_trace]; rfl)
  | downgrade | finalise => exact h.answers (by rw [answer_trace]; rfl)
  | release => exact h.answers (by rw [answer_trace])

/-! ### Methods in progress -/

theorem TaskClear.of_frame {t : Task} {f : DecideFrame} (h : t.frame = some f) :
    TaskClear sender cookie t := by
  cases t <;> trivial

theorem clear_push {ts : List Task} {t : Task} (h : ∀ t ∈ ts, TaskClear sender cookie t)
    (ht : TaskClear sender cookie t) : ∀ t' ∈ ts ++ [t], TaskClear sender cookie t' := by
  intro t' ht'
  rcases mem_append.mp ht' with hold | hnew
  · exact h t' hold
  · rw [mem_singleton.mp hnew]
    exact ht

theorem clear_move (m : Move cfg (watchDiscipline sender cookie) s s')
    (h : ∀ t ∈ s.tasks, TaskClear sender cookie t) : ∀ t ∈ s'.tasks, TaskClear sender cookie t := by
  have herase : ∀ i, ∀ t ∈ s.tasks.eraseIdx i, TaskClear sender cookie t :=
    fun i t ht => h t (mem_of_mem_eraseIdx ht)
  cases m with
  | quiet | tables | marks | decided | stored | responded | unbind | bind | create | park
  | answerNow | stamp | reap => exact h
  | settle => simpa [Broker.settle] using h
  | createDecided | beginDecide | hold => exact clear_push h trivial
  | record i | drop i => exact herase i
  | downgrade i | finalise i | release i =>
    rw [answer_tasks]
    exact herase i
  | advance i t t' f _ _ ht' _ => exact clear_push (herase i) (TaskClear.of_frame ht')
  | push t _ _ hp => exact clear_push h hp

/-! ### The mark -/

theorem mark_move (m : Move cfg (watchDiscipline sender cookie) s s')
    (h : ∃ m, s.cancelled.get? cookie = some m ∧ sender ∈ m.senders) :
    ∃ m, s'.cancelled.get? cookie = some m ∧ sender ∈ m.senders := by
  cases m with
  | marks cancelled hm =>
    obtain ⟨mark, hget, hmem⟩ := h
    exact hm mark hget hmem
  | settle => simpa [Broker.settle] using h
  | downgrade | finalise | release => simpa using h
  | _ => exact h

theorem watched_move (m : Move cfg (watchDiscipline sender cookie) s s')
    (h : Watched before sender cookie s) : Watched before sender cookie s' :=
  ⟨mark_move m h.mark, denied_move m h.denied, silent_move m h.silent, clear_move m h.clear⟩

/-! ## The steps that keep the mark -/

theorem Watched.filingCancelled (h : Watched before sender cookie s) {f : Filing}
    (hc : f.polkitCookie = cookie) (hby : f.filedBy = sender.name) :
    filingCancelled s f = true := by
  obtain ⟨m, hm, hmem⟩ := h.mark
  rw [Broker.filingCancelled, hc, hm, hby]
  exact CancelMark.names_of_mem hmem

theorem Watched.cookieCancelled (h : Watched before sender cookie s) :
    polkitCookieCancelled s cookie sender.name = true := by
  obtain ⟨m, hm, hmem⟩ := h.mark
  rw [polkitCookieCancelled, hm, Option.any_some, CancelMark.names_of_mem hmem, Bool.or_true]

theorem prune_keeps {env : Env} (hm : s.cancelled.get? cookie = some m)
    (hfresh : freshMark env.now m.time = true) :
    (prunePolkitMarks env s).cancelled.get? cookie = some m :=
  (PyDict.get?_filter_eq_some_iff _ _ _ _).mpr ⟨hm, hfresh⟩

variable {cancelledAt : Time}

/-- Within the time to live from the cancel, a step that does not prune an older mark does
not prune the mark. -/
theorem fresh_of_kept {now : Time}
    (hkept : ∀ m, s.cancelled.get? cookie = some m → m.time < cancelledAt →
      freshMark now m.time = true)
    (hnow : now ≤ cancelledAt + polkitUndecidedTtl) (hm : s.cancelled.get? cookie = some m) :
    freshMark now m.time = true := by
  by_cases hold : m.time < cancelledAt
  · exact hkept m hm hold
  · rw [freshMark, decide_eq_true_eq]
    have hle : cancelledAt + polkitUndecidedTtl ≤ m.time + polkitUndecidedTtl :=
      Int.add_le_add_right (Int.not_lt.mp hold) _
    exact Int.sub_left_le_of_le_add (hnow.trans hle)

theorem reposition_keeps (cookie' : String) (hm : s.cancelled.get? cookie = some m) :
    (repositionMark s cookie').cancelled.get? cookie = some m := by
  rw [repositionMark]
  split
  · exact hm
  · next m' hm' =>
    by_cases hc : cookie' = cookie
    · subst hc
      rw [hm] at hm'
      injection hm' with hm'
      subst hm'
      exact PyDict.get?_insert_self _ _ _
    · dsimp only
      rw [PyDict.get?_insert_of_ne _ _ hc, PyDict.get?_erase_of_ne _ (Ne.symm hc), hm]

theorem noted_keeps {now : Time} {marks : PyDict String CancelMark} {sender' : Sender}
    {cookie' : String} {m' : CancelMark} (hnoted : NotedMark now marks sender' cookie' m')
    (hm : marks.get? cookie = some m) (hmem : sender ∈ m.senders) :
    ∃ m'', (marks.insert cookie' m').get? cookie = some m'' ∧ sender ∈ m''.senders := by
  by_cases hc : cookie' = cookie
  · subst hc
    exact ⟨m', PyDict.get?_insert_self _ _ _, (hnoted.kept m hm).2 sender hmem⟩
  · exact ⟨m, by rw [PyDict.get?_insert_of_ne _ _ hc, hm], hmem⟩

/-- A filing by a connection that the mark names does not retire it, and a filing of
another cookie does not touch it. -/
theorem retire_keeps {f : Filing} (hm : s.cancelled.get? cookie = some m)
    (hnames : f.polkitCookie = cookie → m.names f.filedBy = true) :
    (retireForeignMark s f).cancelled.get? cookie = some m := by
  rw [retireForeignMark]
  split
  · exact hm
  · next hnot =>
    by_cases hc : f.polkitCookie = cookie
    · rw [Broker.filingCancelled, hc, hm] at hnot
      exact absurd (hnames hc) hnot
    · dsimp only
      rw [PyDict.get?_erase_of_ne _ (Ne.symm hc), hm]

theorem Watched.callAllowed (h : Watched before sender cookie s) (hne : cookie ≠ "") {env : Env}
    {c : Call} (hnow : env.now ≤ cancelledAt + polkitUndecidedTtl)
    (hkept : MarkKept cfg cookie cancelledAt s (.call env c)) :
    CallAllowed cfg env (watchDiscipline sender cookie) s c := by
  refine ⟨fun hf => absurd hf not_false, fun old new hchange m hget hmem => ?_, fun t ht => ?_⟩
  · cases c <;> try exact hchange.elim
    case requestPolkitAuth sender' action details cookie' identities =>
      obtain ⟨hpeer, hrate, rfl, f, hfc, hby, rfl⟩ := hchange
      refine ⟨m, retire_keeps hget fun hc => ?_, hmem⟩
      rw [hby]
      exact hkept (hfc.symm.trans hc) hpeer hrate m hget
    case announcePolkitAuth sender' cookie' =>
      obtain ⟨-, -, ⟨rfl, rfl⟩ | ⟨rfl, rfl⟩⟩ := hchange
      · exact ⟨m, prune_keeps hget (fresh_of_kept hkept hnow hget), hmem⟩
      · exact ⟨m, reposition_keeps cookie' hget, hmem⟩
    case cancelPolkitAuth sender' cookie' =>
      obtain ⟨-, -, ⟨rfl, rfl⟩ | ⟨rfl, m', hnoted, rfl⟩⟩ := hchange
      · exact ⟨m, prune_keeps hget (fresh_of_kept hkept hnow hget), hmem⟩
      · exact noted_keeps hnoted hget hmem
  · cases c <;> try exact ht.elim
    case requestPermission =>
      obtain ⟨fr, rfl, hempty⟩ := ht
      exact fun hc => absurd (hc.symm.trans hempty) hne
    case requestPermissionAs =>
      obtain ⟨fr, rfl, hempty⟩ := ht
      exact fun hc => absurd (hc.symm.trans hempty) hne
    case requestPolkitAuth sender' action details cookie' identities =>
      obtain ⟨fr, f, rfl, hfor, -, -⟩ := ht
      intro hc hby
      exact hfor.cancelled rfl
        (h.filingCancelled (hfor.cookie.symm.trans hc) (hfor.filedBy.symm.trans hby))
    case respondPolkitAuth sender' cookie' identities =>
      obtain ⟨hlive, exe, req, rfl⟩ := ht
      rintro ⟨rfl, rfl⟩
      obtain ⟨m, hm, hmem⟩ := h.mark
      rw [hm, Option.any_some, contains_iff_mem.mpr hmem] at hlive
      exact absurd hlive (by simp)
    case cancelPolkitAuth sender' cookie' =>
      obtain ⟨exe, rfl⟩ := ht
      trivial

theorem Watched.taskAllowed (h : Watched before sender cookie s) {env : Env} {t : Task}
    (ht : t ∈ s.tasks) : TaskAllowed cfg env (watchDiscipline sender cookie) s t := by
  have hclear := h.clear t ht
  refine ⟨fun hf => absurd hf not_false, fun fr hfr hc hby => ?_, fun p hp => ?_, fun _ => trivial⟩
  · subst hfr
    rw [hclear hc hby]
    rfl
  · -- a request of the connection finds its cookie cancelled
    have hdead : ∀ r, ResponseFor s r p → ¬ (p.owner = sender.name ∧ p.cookie = cookie) := by
      rintro r hfor ⟨howner, hcookie⟩
      have hlive := hfor.live
      rw [← hfor.owner, ← hfor.cookie, howner, hcookie, h.cookieCancelled] at hlive
      exact absurd hlive (by simp)
    cases t <;> try exact hp.elim
    case decidePublish f =>
      obtain ⟨r, -, hfor⟩ := hp
      exact hdead r hfor
    case hookRelease rid ws =>
      obtain ⟨r, -, hfor⟩ := hp
      exact hdead r hfor
    case respondRelay sender' exe cookie' identities req =>
      rintro ⟨howner, hcookie⟩
      exact hclear ⟨Sender.eq_of_name (hp.1.symm.trans howner), hp.2.symm.trans hcookie⟩

theorem Watched.allows (h : Watched before sender cookie s) (hne : cookie ≠ "") {a : Action}
    (hnow : a.environment.now ≤ cancelledAt + polkitUndecidedTtl)
    (hkept : MarkKept cfg cookie cancelledAt s a) :
    (watchDiscipline sender cookie).allows cfg s a := by
  cases a with
  | call env c => exact h.callAllowed hne hnow hkept
  | resume env i => exact fun t ht => h.taskAllowed (mem_of_getElem? ht)

/-! ## Open requests are in the table -/

/-- A request that nobody has decided has not been reaped. -/
def Listed (s : State) : Prop :=
  ∀ rid r, s.reqs rid = some r → r.decision = none → rid ∈ s.pending

theorem Listed.of_setStatus (h : Listed s) {f : Status → Status}
    (hreqs : s'.reqs = (s.setStatus rid f).reqs) (hpend : s'.pending = s.pending)
    (hf : ∀ st, (f st).decision = none → st.decision = none) : Listed s' := by
  intro i r' hr' hd
  rw [hreqs] at hr'
  obtain ⟨r, hr, -, hst⟩ := setStatus_reqs_inv hr'
  rw [show r'.decision = r'.toStatus.decision from rfl, hst] at hd
  rw [hpend]
  split at hd
  · exact h i r hr (hf _ hd)
  · exact h i r hr hd

theorem Listed.create (h : Listed s) (f : Filing) (raw : Details) (decision : Option Bool) :
    Listed (s.create f raw decision) := by
  intro i r hr hd
  rcases create_reqs_inv hr with ⟨rfl, -⟩ | ⟨-, hr⟩
  · exact mem_append_right _ (mem_singleton_self _)
  · exact mem_append_left _ (h i r hr hd)

theorem listed_move {d : Discipline} (m : Move cfg d s s') (h : Listed s) :
    Listed s' := by
  cases m with
  | quiet | tables | marks | decided | stored | responded | unbind | bind | answerNow | advance
  | push | drop => exact h
  | create f raw decision => exact h.create f raw decision
  | createDecided f raw b => exact h.create f raw (some b.allows)
  | record i rid basis r b =>
    exact h.of_setStatus (f := recorded b) rfl rfl (by simp [recorded])
  | park rid => exact h.of_setStatus (f := joined ⟨rid, s.nextWaiter⟩) rfl rfl fun _ hd => hd
  | settle rid r b =>
    exact h.of_setStatus (f := settled b) (by rw [Broker.settle, answer_reqs])
      (by simp [Broker.settle]) (by simp [settled])
  | beginDecide f =>
    exact h.of_setStatus (f := provisional f.allowed) rfl rfl (by simp [provisional])
  | hold => exact h.of_setStatus (f := settled true) rfl rfl (by simp [settled])
  | downgrade i f =>
    refine h.of_setStatus (f := downgraded (decide (f.rid ∈ s.pending)))
      (by rw [answer_reqs]; rfl) (by simp) fun st hd => ?_
    rw [downgraded] at hd
    split at hd
    · exact absurd hd (by simp)
    · exact hd
  | finalise =>
    exact h.of_setStatus (f := finalised) (by rw [answer_reqs]; rfl) (by simp)
      fun _ hd => hd
  | release =>
    intro i r hr hd
    rw [answer_reqs] at hr
    rw [answer_pending]
    exact h i r hr hd
  | stamp rid t => exact h.of_setStatus (f := stamped t) rfl rfl fun _ hd => hd
  | reap rid r hr hdec =>
    intro i r' hr' hd
    have hi : i ≠ rid := by
      rintro rfl
      have hr0 : s.reqs i = some r' := hr'
      rw [hr] at hr0
      injection hr0 with hr0
      exact hdec (hr0 ▸ hd)
    exact (mem_erase_of_ne hi).mpr (h i r' hr' hd)

/-! ## The cancel itself -/

/-- The second state is the first with some requests turned into denies. -/
structure Lowers (s s' : State) : Prop where
  cancelled : s'.cancelled = s.cancelled
  tasks : s'.tasks = s.tasks
  trace : ∃ newer, s'.trace = newer ++ s.trace ∧ ∀ p, Event.responded p ∉ newer
  reqs : ∀ rid r', s'.reqs rid = some r' → ∃ r, s.reqs rid = some r ∧ r'.toFiling = r.toFiling
    ∧ (r'.decision = r.decision ∨ r'.decision = some false)

theorem Lowers.refl (s : State) : Lowers s s :=
  ⟨rfl, rfl, ⟨[], rfl, fun _ => not_mem_nil⟩, fun _ r hr => ⟨r, hr, rfl, Or.inl rfl⟩⟩

theorem Lowers.trans {t u : State} (h : Lowers s t) (h' : Lowers t u) : Lowers s u := by
  refine ⟨h'.cancelled.trans h.cancelled, h'.tasks.trans h.tasks, ?_, fun rid r'' hr'' => ?_⟩
  · obtain ⟨new, hnew, hno⟩ := h.trace
    obtain ⟨new', hnew', hno'⟩ := h'.trace
    refine ⟨new' ++ new, by rw [hnew', hnew, append_assoc], fun p hp => ?_⟩
    rcases mem_append.mp hp with hp | hp
    · exact hno' p hp
    · exact hno p hp
  · obtain ⟨r', hr', hfil', hd'⟩ := h'.reqs rid r'' hr''
    obtain ⟨r, hr, hfil, hd⟩ := h.reqs rid r' hr'
    refine ⟨r, hr, hfil'.trans hfil, ?_⟩
    rcases hd' with hd' | hd'
    · rw [hd']
      exact hd
    · exact Or.inr hd'

theorem lowers_emit (s : State) {e : Event} (he : ∀ p, e ≠ .responded p) : Lowers s (s.emit e) :=
  ⟨rfl, rfl, ⟨[e], rfl, fun p hp => he p (mem_singleton.mp hp).symm⟩,
    fun _ r hr => ⟨r, hr, rfl, Or.inl rfl⟩⟩

theorem lowers_audit (s : State) (env : Env) (row : AuditRow) : Lowers s (s.audit env row) := by
  rw [State.audit]
  split
  · exact lowers_emit s (by simp)
  · exact lowers_emit s (by simp)

theorem lowers_settle (s : State) (rid : ℕ) : Lowers s (settle s rid false) := by
  refine ⟨by simp [settle], by simp [settle], ⟨_, by rw [settle, answer_trace]; rfl, fun p hp => ?_⟩,
    fun i r' hr' => ?_⟩
  · rw [mem_reverse, mem_map] at hp
    obtain ⟨w, -, heq⟩ := hp
    exact absurd heq (by simp)
  · rw [settle, answer_reqs] at hr'
    obtain ⟨r, hr, hfil, hst⟩ := setStatus_reqs_inv hr'
    refine ⟨r, hr, hfil, ?_⟩
    rw [show r'.decision = r'.toStatus.decision from rfl, hst]
    split
    · exact Or.inr rfl
    · exact Or.inl rfl

theorem lowers_denyPolkit (env : Env) (source : String) (s : State) (rid : ℕ) :
    Lowers s (denyPolkit cfg env source s rid) := by
  rw [denyPolkit]
  split
  · exact Lowers.refl s
  · exact (((lowers_emit s (by simp)).trans (lowers_audit _ env _)).trans (lowers_settle _ rid)).trans
      (lowers_emit _ (by simp))

theorem lowers_cancelRequest (env : Env) (sender : Sender) (cookie : String) (s : State) (rid : ℕ) :
    Lowers s (cancelRequest cfg env sender cookie s rid) := by
  rw [cancelRequest]
  split
  · exact lowers_denyPolkit env _ s rid
  · exact Lowers.refl s

theorem lowers_foldl (env : Env) (sender : Sender) (cookie : String) (l : List ℕ) (s : State) :
    Lowers s (l.foldl (cancelRequest cfg env sender cookie) s) := by
  induction l generalizing s with
  | nil => exact Lowers.refl s
  | cons rid rest ih => exact (lowers_cancelRequest env sender cookie s rid).trans (ih _)

theorem cancelRequest_decides {env : Env} {r : Request} (hne : cookie ≠ "")
    (hr : (cancelRequest cfg env sender cookie s rid).reqs rid = some r)
    (hc : r.polkitCookie = cookie) (hby : r.filedBy = sender.name) : r.decision ≠ none := by
  rw [cancelRequest] at hr
  split at hr
  · next hhit =>
    obtain ⟨r₀, hr₀⟩ : ∃ r₀, s.reqs rid = some r₀ := by
      cases h : s.reqs rid with
      | none => rw [h] at hhit; exact absurd hhit (by simp)
      | some r₀ => exact ⟨r₀, rfl⟩
    rw [denyPolkit, hr₀] at hr
    simp only [emit_reqs, settle, answer_reqs] at hr
    obtain ⟨r₁, -, -, hst⟩ := setStatus_reqs_inv hr
    rw [show r.decision = r.toStatus.decision from rfl, hst, if_pos rfl]
    simp [settled]
  · next hmiss =>
    intro hd
    rw [hr, Option.any_some, cancelHit] at hmiss
    exact hmiss (by simp [hc, hby, hd, hne])

theorem foldl_cancelRequest_decides {env : Env} {l : List ℕ} {r : Request} (hne : cookie ≠ "")
    (hmem : rid ∈ l) (hr : (l.foldl (cancelRequest cfg env sender cookie) s).reqs rid = some r)
    (hc : r.polkitCookie = cookie) (hby : r.filedBy = sender.name) : r.decision ≠ none := by
  induction l generalizing s with
  | nil => exact absurd hmem not_mem_nil
  | cons rid' rest ih =>
    rw [foldl_cons] at hr
    rcases mem_cons.mp hmem with rfl | hrest
    · -- decided at its own turn, and never reopened
      obtain ⟨r₁, hr₁, hfil, hd⟩ := (lowers_foldl env sender cookie rest _).reqs rid r hr
      rw [hfil] at hc hby
      have hdec := cancelRequest_decides hne hr₁ hc hby
      rcases hd with hd | hd
      · rw [hd]
        exact hdec
      · rw [hd]
        simp
    · exact ih hrest hr

theorem lowers_releaseBinding (s : State) (sender : Sender) (cookie : String) :
    Lowers s (releaseBinding s sender cookie) := by
  rw [releaseBinding]
  split
  · exact ⟨rfl, rfl, ⟨[], rfl, fun _ => not_mem_nil⟩, fun _ r hr => ⟨r, hr, rfl, Or.inl rfl⟩⟩
  · exact Lowers.refl s

theorem releaseBinding_frame (s : State) (sender : Sender) (cookie : String) :
    (releaseBinding s sender cookie).reqs = s.reqs
      ∧ (releaseBinding s sender cookie).pending = s.pending := by
  rw [releaseBinding]
  split <;> exact ⟨rfl, rfl⟩

theorem lowers_cancelHits (env : Env) (s : State) (sender : Sender) (exe cookie : String) :
    Lowers s (cancelHits cfg env s sender exe cookie) := by
  rw [cancelHits]
  split
  · exact (lowers_releaseBinding s sender cookie).trans (lowers_audit _ env _)
  · exact (lowers_releaseBinding s sender cookie).trans (lowers_foldl env sender cookie _ _)

theorem cancelHits_decides {env : Env} {exe : String} {r : Request} (hne : cookie ≠ "")
    (hmem : rid ∈ s.pending) (hr : (cancelHits cfg env s sender exe cookie).reqs rid = some r)
    (hc : r.polkitCookie = cookie) (hby : r.filedBy = sender.name) : r.decision ≠ none := by
  obtain ⟨hreqs, hpend⟩ := releaseBinding_frame s sender cookie
  rw [cancelHits] at hr
  split at hr
  · next hnone =>
    intro hd
    rw [audit_reqs, hreqs] at hr
    have hmiss := find?_eq_none.mp hnone.2 rid (hpend.symm ▸ hmem)
    rw [hreqs, hr, Option.any_some, cancelHit] at hmiss
    exact hmiss (by simp [hc, hby, hd, hne])
  · exact foldl_cancelRequest_decides hne (hpend.symm ▸ hmem) hr hc hby

theorem step_cancelPolkitAuth {env : Env} (hne : cookie ≠ "")
    (hsuccess : (step cfg s (.call env (.cancelPolkitAuth sender cookie))).tasks ≠ s.tasks) :
    ∃ exe m, sender ∈ m.senders
      ∧ step cfg s (.call env (.cancelPolkitAuth sender cookie))
        = { prunePolkitMarks env s with
            cancelled := (prunePolkitMarks env s).cancelled.insert cookie m }.push
          (.cancelHits sender exe cookie) := by
  rw [step, callStep, cancelPolkitAuth, requirePolkitAgent] at hsuccess ⊢
  split at hsuccess
  · exact absurd rfl hsuccess
  · rw [noteCancelled, if_neg hne] at hsuccess ⊢
    dsimp only at hsuccess ⊢
    split at hsuccess
    · split at hsuccess
      · exact absurd rfl hsuccess
      · next hroom =>
        rw [if_neg hroom]
        exact ⟨_, _, mem_singleton_self _, rfl⟩
    · refine ⟨_, _, ?_, rfl⟩
      dsimp only
      split
      · next hmem => exact hmem
      · exact mem_append_right _ (mem_singleton_self _)

/-- The two sections of a cancel. -/
def cancelRun (s : State) (sender : Sender) (cookie : String) (env env' : Env) : List Action :=
  [.call env (.cancelPolkitAuth sender cookie), .resume env' s.tasks.length]

theorem watched_of_cancel (hlisted : Listed s) {env env' : Env} (hne : cookie ≠ "")
    (hclear : ∀ t ∈ s.tasks, TaskClear sender cookie t)
    (hsuccess : (step cfg s (.call env (.cancelPolkitAuth sender cookie))).tasks ≠ s.tasks) :
    Watched s sender cookie (run (step cfg) s (cancelRun s sender cookie env env')) := by
  obtain ⟨exe, m, hmem, hcall⟩ := step_cancelPolkitAuth hne hsuccess
  rw [cancelRun, run_cons, run_cons, run_nil, hcall, step_resume_push (by rfl), taskStep]
  set s₁ : State := { prunePolkitMarks env s with
    cancelled := (prunePolkitMarks env s).cancelled.insert cookie m }
  have hlow : Lowers s₁ (cancelHits cfg env' s₁ sender exe cookie) :=
    lowers_cancelHits env' s₁ sender exe cookie
  refine ⟨⟨m, ?_, hmem⟩, fun rid r' hr' hc hby => ?_, ?_, ?_⟩
  · rw [hlow.cancelled]
    exact PyDict.get?_insert_self _ _ _
  · obtain ⟨r, hr, -, hd⟩ := hlow.reqs rid r' hr'
    constructor
    · intro hopen
      have hold : r.decision = none := by
        rcases hd with hd | hd
        · rw [← hd, hopen]
        · rw [hopen] at hd
          exact absurd hd (by simp)
      have hpend : rid ∈ s₁.pending := hlisted rid r hr hold
      exact cancelHits_decides hne hpend hr' hc hby hopen
    · intro htrue
      refine ⟨r, hr, ?_⟩
      rcases hd with hd | hd
      · rw [← hd, htrue]
      · rw [htrue] at hd
        exact absurd hd (by simp)
  · obtain ⟨newer, htrace, hno⟩ := hlow.trace
    exact ⟨newer, htrace, fun p hp => absurd hp (hno p)⟩
  · rw [hlow.tasks]
    exact hclear

/-! ## Runs -/

/-- **A cancel holds.**  In every run in which a connection's cancel of a non-empty cookie
goes through, and for as long after it as a mark lives: if no filing or response of the
connection for the cookie was under way, and no step takes the cookie's mark away, then no
request of the cookie by the connection is open or newly allowed, and no response is sent
for the cookie on its behalf. -/
theorem cancel_holds (cfg : Config) (rules : List Rule) (cache : List CacheRow)
    (as bs : List Action) (sender : Sender) (cookie : String) (env env' : Env) (before : State)
    (hbefore : before = run (step cfg) (State.init rules cache) as) (hne : cookie ≠ "")
    (hclear : ∀ t ∈ before.tasks, TaskClear sender cookie t)
    (hsuccess : (step cfg before (.call env (.cancelPolkitAuth sender cookie))).tasks
      ≠ before.tasks)
    (hm : Meets (step cfg) (fun s a => a.environment.now ≤ env.now + polkitUndecidedTtl
        ∧ MarkKept cfg cookie env.now s a)
      (run (step cfg) before (cancelRun before sender cookie env env')) bs) :
    Denied before sender cookie
        (run (step cfg) before (cancelRun before sender cookie env env' ++ bs))
      ∧ Silent before sender cookie
        (run (step cfg) before (cancelRun before sender cookie env env' ++ bs)) := by
  obtain ⟨hinv, hlisted⟩ : Inv cfg before ∧ Listed before := by
    rw [hbefore]
    exact run_invariant_free (fun _ _ _ m h => listed_move m h) as (inv_init rules cache)
      fun _ _ hr => absurd hr (by simp [State.init])
  have hinv' : Inv cfg (run (step cfg) before (cancelRun before sender cookie env env')) :=
    (run_invariant_free (P := fun _ => True) (fun _ _ _ _ _ => trivial) _ hinv trivial).1
  have hwatched : Watched before sender cookie
      (run (step cfg) before (cancelRun before sender cookie env env')) :=
    watched_of_cancel hlisted hne hclear hsuccess
  have hrun := run_invariant (P := Watched before sender cookie)
    (d := watchDiscipline sender cookie) (fun _ _ _ m h => watched_move m h)
    (fun s a hok _ h => h.allows hne hok.1 hok.2) hm hinv' hwatched
  rw [run_append]
  exact ⟨hrun.2.denied, hrun.2.silent⟩

/-! ## A cancel that does not hold -/

/-- Alice files a cookie. -/
def filedRun (now : Time) (sender : Sender) : List Action :=
  [.call (sampleEnv now true) (.requestPolkitAuth sender "disk.mount" ∅ "c" []),
    .resume (sampleEnv now true) 0]

/-- The state in which Alice has filed a cookie. -/
def filedState : State := run (step sampleConfig) (State.init [] []) (filedRun 0 alice)

/-- Alice cancels, and files again in the same second: the second filing is denied. -/
theorem cancel_holds_refiled :
    Denied filedState alice "c" (run (step sampleConfig) filedState
      (cancelRun filedState alice "c" (sampleEnv 0 true) (sampleEnv 0 true) ++ filedRun 0 alice)) := by
  refine (cancel_holds sampleConfig [] [] (filedRun 0 alice) (filedRun 0 alice) alice "c"
    (sampleEnv 0 true) (sampleEnv 0 true) filedState rfl (by decide)
    (fun t ht => absurd ht (show t ∉ ([] : List Task) from List.not_mem_nil)) (by decide)
    ⟨⟨by decide, fun _ _ _ m hm => ?_⟩, ⟨by decide, trivial⟩, trivial⟩).1
  have hmark : (run (step sampleConfig) filedState
      (cancelRun filedState alice "c" (sampleEnv 0 true) (sampleEnv 0 true))).cancelled.get? "c"
        = some ⟨[alice], 0⟩ := by decide
  rw [hmark] at hm
  injection hm with hm
  subst hm
  decide

/-- Between Alice's cancel and her second filing another connection files the cookie.  It is
refused, but it takes the mark away, and Alice's filing is left open. -/
theorem foreign_filing_reopens :
    (step sampleConfig filedState (.call (sampleEnv 0 true) (.cancelPolkitAuth alice "c"))).tasks
      ≠ filedState.tasks
    ∧ ¬ Denied filedState alice "c" (run (step sampleConfig) filedState
        (cancelRun filedState alice "c" (sampleEnv 0 true) (sampleEnv 0 true)
          ++ (filedRun 0 mallory ++ filedRun 0 alice))) := by
  refine ⟨by decide, fun hdenied => ?_⟩
  have hopen : ∃ r, (run (step sampleConfig) filedState
      (cancelRun filedState alice "c" (sampleEnv 0 true) (sampleEnv 0 true)
        ++ (filedRun 0 mallory ++ filedRun 0 alice))).reqs 2 = some r
      ∧ r.polkitCookie = "c" ∧ r.filedBy = alice.name ∧ r.decision = none :=
    ⟨_, rfl, by decide, by decide, by decide⟩
  obtain ⟨r, hr, hc, hby, hd⟩ := hopen
  exact (hdenied 2 r hr hc hby).1 hd

end Broker
