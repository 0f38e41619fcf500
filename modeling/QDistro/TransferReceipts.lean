/-
# Transfers are forwarded once and their receipts are kept

A transfer's row is written by the forward callback, by the error callback and by polls, at
times the caller does not choose.  The broker answers a waiter at most once and allows it
only for a request that stays allowed, so each transfer has at most one outcome; until then
its row is as it was reserved, and afterwards only a poll of a receipt that is not terminal
changes it.

`Inv rest` is the invariant while the answers `rest` of the broker are still to be passed
on to the transfers.
-/
import QDistro.TransferRelay
import QDistro.DecisionFinality

open TransitionSystem Broker

namespace Broker

open List

variable {cfg : Config} {d : Discipline} {s s' : State}

/-! ## What the broker's moves do to a waiting transfer -/

theorem Move.suffix (m : Move cfg d s s') : s.trace <:+ s'.trace := by
  cases m with
  | tables | marks | unbind | record | beginDecide | hold | advance | push | drop | stamp | reap =>
    exact suffix_rfl
  | quiet | decided | stored | responded | bind | create | park => exact suffix_cons _ _
  | createDecided => exact (suffix_cons _ _).trans (suffix_cons _ _)
  | answerNow => exact (suffix_cons _ _).trans (suffix_cons _ _)
  | settle =>
    rw [Broker.settle, answer_trace]
    exact suffix_append _ _
  | downgrade | finalise | release =>
    rw [answer_trace]
    exact suffix_append _ _

theorem Moves.suffix (m : Moves cfg d s s') : s.trace <:+ s'.trace := by
  induction m with
  | refl => exact suffix_rfl
  | tail _ m ih => exact ih.trans m.suffix

theorem Unrecorded.move {rid : ℕ} (h : Unrecorded s rid) (hr : rid ≠ s.nextId)
    (m : Move cfg d s s') : Unrecorded s' rid := by
  intro basis hmem
  cases m with
  | quiet | tables | marks | decided | stored | responded | unbind | bind | create | park | answerNow
  | stamp | reap => exact h basis hmem
  | settle =>
    rw [Broker.settle, answer_tasks] at hmem
    exact h basis hmem
  | createDecided =>
    rcases mem_append.mp hmem with hold | hnew
    · exact h basis hold
    · cases mem_singleton.mp hnew
      exact hr rfl
  | record => exact h basis (mem_of_mem_eraseIdx hmem)
  | drop => exact h basis (mem_of_mem_eraseIdx hmem)
  | beginDecide | hold =>
    rcases mem_append.mp hmem with hold | hnew
    · exact h basis hold
    · cases mem_singleton.mp hnew
  | push t ho =>
    rcases mem_append.mp hmem with hold | hnew
    · exact h basis hold
    · cases mem_singleton.mp hnew
      cases ho
  | advance i t t' f _ _ ht' =>
    rcases mem_append.mp hmem with hold | hnew
    · exact h basis (mem_of_mem_eraseIdx hold)
    · cases mem_singleton.mp hnew
      cases ht'
  | downgrade | finalise | release =>
    rw [answer_tasks] at hmem
    exact h basis (mem_of_mem_eraseIdx hmem)

/-- Every allow the waiter has heard is the final decision of its request. -/
def Granted (s : State) (w : Waiter) : Prop :=
  ∀ live, .answered w true live ∈ s.trace → FinallyDecided s w.rid true

theorem Granted.move (hinv : Inv cfg s) (hacc : Accounted s) {w : Waiter} (h : Granted s w)
    (hu : Unrecorded s w.rid) (m : Move cfg d s s') : Granted s' w := by
  intro live hmem
  rcases answered_move hinv m hacc hmem (.inl rfl) with hold | hnew
  · exact (h live hold).move hinv (.inr hu) m
  · exact hnew

end Broker

namespace Transfer

variable {cfg : Broker.Config} {d : Discipline}

/-- The request of a transfer: it asks for this transfer and no re-record of it is
outstanding. -/
structure RequestOf (b : Broker.State) (c : Closure) (rid : ℕ) : Prop where
  request : ∃ r, b.reqs rid = some r ∧ r.action = sendAction c ∧ r.uid = c.actor.uid
  steady : Unrecorded b rid

/-- What holds of the broker throughout. -/
structure BrokerOk (cfg : Broker.Config) (b : Broker.State) : Prop where
  inv : Broker.Inv cfg b
  accounted : Accounted b

variable {b b' : Broker.State}

theorem BrokerOk.move (h : BrokerOk cfg b) (m : Move cfg d b b') :
    BrokerOk cfg b' :=
  ⟨h.inv.move m, accounted_move h.inv m h.accounted⟩

theorem BrokerOk.moves (h : BrokerOk cfg b) (m : Moves cfg d b b') :
    BrokerOk cfg b' := by
  induction m with
  | refl => exact h
  | tail _ m ih => exact ih.move m

theorem RequestOf.moves (hok : BrokerOk cfg b) {c : Closure} {rid : ℕ} (h : RequestOf b c rid)
    (m : Moves cfg d b b') : RequestOf b' c rid := by
  induction m with
  | refl => exact h
  | tail ms m ih =>
    have hok' := hok.moves ms
    obtain ⟨r, hr, haction, huid⟩ := ih.request
    obtain ⟨r', hr', hfiling⟩ := (m.extends hok'.inv).reqs rid r hr
    refine ⟨⟨r', hr', ?_, ?_⟩, ih.steady.move (hok'.inv.ne_nextId hr) m⟩
    · rw [← haction]
      exact congrArg Filing.action hfiling
    · rw [← huid]
      exact congrArg Filing.uid hfiling

theorem granted_moves (hok : BrokerOk cfg b) {c : Closure} {w : Waiter}
    (hreq : RequestOf b c w.rid) (h : Granted b w) (m : Moves cfg d b b') : Granted b' w := by
  induction m with
  | refl => exact h
  | tail ms m ih =>
    have hok' := hok.moves ms
    exact ih.move hok'.inv hok'.accounted (hreq.moves hok ms).steady m

/-! ## Filing and waiting -/

theorem enqueue_moves {env : Broker.Env} {f : Filing} {rid : Option ℕ} (hok : BrokerOk cfg b)
    (hby : f.filedBy = "") (hcookie : f.polkitCookie = "") (h : enqueue cfg env b f = (b', rid)) :
    Moves cfg Discipline.free b b' := by
  have hbegin : Moves cfg Discipline.free b (enqueueBegin cfg env b f false) :=
    moves_enqueueBegin (fun hne => absurd hby hne) (fun _ => hcookie) (fun hf => by cases hf)
      fun _ _ => trivial
  unfold enqueue at h
  dsimp only at h
  split at h
  · cases h
    exact hbegin.trans (step_moves (hok.moves hbegin).inv (Discipline.free_allows _ _))
  · cases h
    exact hbegin

theorem enqueue_cases (cfg : Broker.Config) (env : Broker.Env) (b : Broker.State) {f : Filing}
    (hshot : f.oneShot = true) :
    (∃ f' : Filing, f'.action = f.action ∧ f'.uid = f.uid ∧ enqueue cfg env b f =
        (((b.create f' f.details none).emit (.requestPending b.nextId)).emit
          (.returned (toString b.nextId)), some b.nextId)) ∨
      ∃ row message, enqueue cfg env b f =
        ((b.audit env row).raise "RateLimited" message, none) := by
  unfold enqueue
  cases hrate : env.rateOk f.uid f.action with
  | false =>
    right
    simp only [enqueueBegin, hrate, Bool.not_false, if_true, State.raise, emit_tasks,
      audit_tasks, Nat.lt_irrefl, if_false]
    exact ⟨_, _, rfl⟩
  | true =>
    left
    -- the section that creates the request is the one just pushed
    simp only [enqueueBegin, hrate, hshot, Bool.not_true, Bool.false_eq_true, if_false,
      Bool.false_or, Bool.false_and, push_tasks, List.length_append, List.length_singleton,
      Nat.lt_add_one, if_true]
    rw [step_resume_push rfl]
    simp only [taskStep, enqueueCreate, polkitConflict, Bool.not_false, if_true, startHook,
      Bool.not_true, Bool.false_and, Bool.false_eq_true, if_false, Option.map_none]
    refine ⟨_, ?_, ?_, rfl⟩
    · rfl
    · rfl

theorem enqueue_spec {env : Broker.Env} {f : Filing} {rid : ℕ} (hshot : f.oneShot = true)
    (h : enqueue cfg env b f = (b', some rid)) :
    rid = b.nextId ∧ b'.tasks = b.tasks ∧
      ∃ r, b'.reqs rid = some r ∧ r.action = f.action ∧ r.uid = f.uid := by
  obtain ⟨f', haction, huid, heq⟩ | ⟨row, message, heq⟩ := enqueue_cases cfg env b hshot
  · rw [heq] at h
    cases h
    exact ⟨rfl, rfl, _, create_reqs_self b f' f.details none, haction, huid⟩
  · rw [heq] at h
    cases h

theorem registerWaiter_spec {rid : ℕ} {w : Waiter} (hok : BrokerOk cfg b)
    (h : registerWaiter b rid = (b', some w)) :
    Moves cfg Discipline.free b b' ∧ w.rid = rid ∧ waitCount w b.trace = 0 ∧
      waitCount w b'.trace = 1 := by
  unfold registerWaiter at h
  split at h
  · cases h
  · rename_i r hr
    have hreq := (getPending_eq_some hr).2
    have hfresh := hok.accounted.fresh ⟨rid, b.nextWaiter⟩ le_rfl
    have hself : Broker.Event.waits ⟨rid, b.nextWaiter⟩ (.waiting ⟨rid, b.nextWaiter⟩) = true :=
      beq_self_eq_true _
    dsimp only at h
    split at h
    · rename_i v hd hf
      cases h
      refine ⟨.single (.answerNow b rid r v hreq hd hf), rfl, hfresh, ?_⟩
      rw [emit_trace, emit_trace, waitCount_cons, waitCount_cons, hfresh, hself]
      rfl
    · rename_i hne
      cases h
      refine ⟨.single (.park b rid r hreq ?_), rfl, hfresh, ?_⟩
      · rintro ⟨hd, hf⟩
        obtain ⟨v, hv⟩ := Option.ne_none_iff_exists'.mp hd
        exact hne v hv hf
      · rw [setStatus_trace, emit_trace, waitCount_cons, hfresh, hself]
        rfl

/-! ## Answers that are still to be passed on -/

/-- How often a waiter is among the answers. -/
def pendingCount (w : Waiter) (answers : List (Waiter × Bool)) : ℕ :=
  answers.countP fun a => a.1 == w

theorem pendingCount_cons (w : Waiter) (a : Waiter × Bool) (rest : List (Waiter × Bool)) :
    pendingCount w (a :: rest) = pendingCount w rest + if a.1 == w then 1 else 0 :=
  List.countP_cons

theorem newAnswers_append (new old : List Broker.Event) :
    newAnswers old (new ++ old) = new.reverse.filterMap answerOf := by
  rw [newAnswers, List.length_append, Nat.add_sub_cancel, List.take_left]

theorem newAnswers_of_silent (new : List Broker.Event) {old : List Broker.Event}
    (h : ∀ e ∈ new, answerOf e = none) :
    newAnswers old (new ++ old) = [] := by
  rw [newAnswers_append, List.filterMap_eq_nil_iff]
  intro e he
  exact h e (List.mem_reverse.mp he)

theorem newAnswers_audit (b : Broker.State) (env : Broker.Env) (row : AuditRow) :
    newAnswers b.trace (b.audit env row).trace = [] := by
  refine newAnswers_of_silent [_] fun e he => ?_
  rw [List.mem_singleton.mp he]
  split
  · rfl
  · rfl

theorem newAnswers_enqueue {env : Broker.Env} {f : Filing} {rid : Option ℕ}
    (hshot : f.oneShot = true) (h : enqueue cfg env b f = (b', rid)) :
    newAnswers b.trace b'.trace = [] := by
  obtain ⟨f', -, -, heq⟩ | ⟨row, message, heq⟩ := enqueue_cases cfg env b hshot
  · rw [heq] at h
    cases h
    exact newAnswers_of_silent [.returned _, .requestPending b.nextId, .filed b.nextId f' f.details]
      (by simp [answerOf])
  · rw [heq] at h
    cases h
    refine newAnswers_of_silent [.raised _, _] fun e he => ?_
    rcases List.mem_cons.mp he with rfl | he
    · rfl
    · rw [List.mem_singleton.mp he]
      split
      · rfl
      · rfl

theorem answerCount_newAnswers (w : Waiter) {old new : List Broker.Event} (h : old <:+ new) :
    answerCount w new = answerCount w old + pendingCount w (newAnswers old new) := by
  obtain ⟨l, rfl⟩ := h
  have hcount : ∀ t : List Broker.Event,
      (t.filterMap answerOf).countP (fun a => a.1 == w) = t.countP (Broker.Event.answers w) := by
    intro t
    induction t with
    | nil => rfl
    | cons e t ih =>
      rw [List.filterMap_cons, List.countP_cons, ← ih]
      cases e <;> simp [answerOf, Broker.Event.answers, List.countP_cons]
  rw [newAnswers_append, pendingCount, hcount, List.countP_reverse, answerCount, answerCount,
    List.countP_append, Nat.add_comm]

theorem mem_newAnswers {old new : List Broker.Event} {w : Waiter} {b : Bool}
    (h : (w, b) ∈ newAnswers old new) : ∃ live, .answered w b live ∈ new := by
  obtain ⟨e, he, heq⟩ := List.mem_filterMap.mp h
  have he := List.mem_of_mem_take (List.mem_reverse.mp he)
  cases e <;> simp only [answerOf, reduceCtorEq, Option.some.injEq, Prod.mk.injEq] at heq
  obtain ⟨rfl, rfl⟩ := heq
  exact ⟨_, he⟩

/-! ## The invariant -/

/-- The row is as it was reserved: staged, with no receiver known. -/
def Row.Untouched (row : Row) : Prop := row.receipt.state = .staged ∧ row.receiverId = ""

/-- Is this a call of `ForwardTransfer` for the token? -/
def Event.forwards (token : String) : Event → Bool
  | .forwarded t => t == token
  | _ => false

/-- How often `ForwardTransfer` was called for a token. -/
def forwardCount (token : String) (log : List Event) : ℕ := log.countP (Event.forwards token)

/-- What holds of a transfer in each of its phases. -/
def PhaseOk (cfg : Broker.Config) (rest : List (Waiter × Bool)) (b : Broker.State)
    (log : List Event) (c : Closure) (row : Row) : Phase → Prop
  | .reserved => row.Untouched ∧ forwardCount row.token log = 0
  | .filed rid => row.Untouched ∧ forwardCount row.token log = 0 ∧ RequestOf b c rid
  | .waiting w =>
    RequestOf b c w.rid ∧ Granted b w ∧ waitCount w b.trace = 1 ∧
      forwardCount row.token log + pendingCount w rest ≤ answerCount w b.trace ∧
      (answerCount w b.trace = pendingCount w rest → row.Untouched) ∧
      (0 < forwardCount row.token log → ∃ live, .answered w true live ∈ b.trace)
  | .done => forwardCount row.token log ≤ 1 ∧
      (0 < forwardCount row.token log → cfg.connUid c.sender = c.uid)

/-- A phase depends on the answers and on the log only through the counts of its own
waiter and token. -/
theorem PhaseOk.of_counts {rest rest' : List (Waiter × Bool)} {log log' : List Event}
    {c : Closure} {row : Row} {p : Phase} (h : PhaseOk cfg rest b log c row p)
    (hcount : forwardCount row.token log' = forwardCount row.token log)
    (hpending : ∀ w, p = .waiting w → pendingCount w rest' = pendingCount w rest) :
    PhaseOk cfg rest' b log' c row p := by
  cases p with
  | reserved => exact ⟨h.1, hcount ▸ h.2⟩
  | filed rid => exact ⟨h.1, hcount ▸ h.2.1, h.2.2⟩
  | waiting w =>
    simp only [PhaseOk, hcount, hpending w rfl]
    exact h
  | done =>
    simp only [PhaseOk, hcount]
    exact h

structure TransferOk (cfg : Broker.Config) (rest : List (Waiter × Bool)) (s : System) (c : Closure)
    (row : Row) : Prop where
  owner : row.actor = c.actor
  peer : c.actor.uid = cfg.connUid c.sender
  phase : PhaseOk cfg rest s.broker s.log c row c.phase

/-- What holds while the answers `rest` are to be passed on. -/
structure Inv (cfg : Broker.Config) (rest : List (Waiter × Bool)) (s : System) : Prop where
  broker : BrokerOk cfg s.broker
  sizes : s.transfers.length = s.ledger.rows.length
  tokens : (s.ledger.rows.map Row.token).Nodup
  entries : ∀ e ∈ s.ledger.entries, ∃ row, s.ledger.rows[e.2]? = some row ∧ row.token = e.1
  transfers : ∀ (i : ℕ) c row, s.transfers[i]? = some c → s.ledger.rows[i]? = some row →
    TransferOk cfg rest s c row
  waiters : ∀ (i j : ℕ) c c' w, s.transfers[i]? = some c → s.transfers[j]? = some c' →
    c.phase = .waiting w → c'.phase = .waiting w → i = j
  forwarded : ∀ t, 0 < forwardCount t s.log → t ∈ s.ledger.rows.map Row.token
  answered : ∀ a (i : ℕ) r, .answered a (some i) r ∈ s.log →
    ∃ row, s.ledger.rows[i]? = some row ∧ row.actor = a
  pending : ∀ w, (w, true) ∈ rest → ∃ live, .answered w true live ∈ s.broker.trace

theorem inv_init (rules : List Rule) (cache : List CacheRow) :
    Inv cfg [] { broker := State.init rules cache } where
  broker := ⟨Broker.inv_init rules cache, accounted_init rules cache⟩
  sizes := rfl
  tokens := List.nodup_nil
  entries := by
    intro e he
    cases he
  transfers := by
    intro i c row hc
    cases hc
  waiters := by
    intro i j c c' w hc
    cases hc
  forwarded := by
    intro t ht
    exact absurd ht (Nat.lt_irrefl 0)
  answered := by
    intro a i r h
    cases h
  pending := by
    intro w hw
    cases hw

theorem Inv.forwardCount_le {rest : List (Waiter × Bool)} {s : System} (h : Inv cfg rest s) {i : ℕ}
    {c : Closure} {row : Row} (hc : s.transfers[i]? = some c)
    (hrow : s.ledger.rows[i]? = some row) : forwardCount row.token s.log ≤ 1 := by
  have hphase := (h.transfers i c row hc hrow).phase
  cases hp : c.phase with
  | reserved =>
    rw [hp] at hphase
    rw [hphase.2]
    exact Nat.zero_le 1
  | filed rid =>
    rw [hp] at hphase
    rw [hphase.2.1]
    exact Nat.zero_le 1
  | waiting w =>
    rw [hp] at hphase
    obtain ⟨-, -, hwait, hcount, -, -⟩ := hphase
    have hlaw := h.broker.accounted.law w
    omega
  | done =>
    rw [hp] at hphase
    exact hphase.1

theorem Inv.moves {s : System} (h : Inv cfg [] s) (m : Moves cfg d s.broker b) :
    Inv cfg (newAnswers s.broker.trace b.trace) { s with broker := b } where
  broker := h.broker.moves m
  sizes := h.sizes
  tokens := h.tokens
  entries := h.entries
  transfers := by
    intro i c row hc hrow
    have hok := h.transfers i c row hc hrow
    refine ⟨hok.owner, hok.peer, ?_⟩
    have hphase := hok.phase
    cases hp : c.phase with
    | reserved =>
      rw [hp] at hphase
      exact hphase
    | filed rid =>
      rw [hp] at hphase
      exact ⟨hphase.1, hphase.2.1, hphase.2.2.moves h.broker m⟩
    | waiting w =>
      rw [hp] at hphase
      obtain ⟨hreq, hgranted, hwait, hcount, huntouched, hheard⟩ := hphase
      have hanswers := answerCount_newAnswers w m.suffix
      have hnone : pendingCount w [] = 0 := rfl
      -- a waiter is recorded once, also in the longer trace
      have hwait' : waitCount w b.trace = 1 := by
        obtain ⟨l, hl⟩ := m.suffix
        have hle := (h.broker.moves m).accounted.once w
        rw [← hl, waitCount, List.countP_append] at hle ⊢
        rw [waitCount] at hwait
        omega
      refine ⟨hreq.moves h.broker m, granted_moves h.broker hreq hgranted m, hwait', ?_, ?_, ?_⟩
      · show forwardCount row.token s.log + _ ≤ answerCount w b.trace
        omega
      · intro heq
        exact huntouched (by dsimp only at heq; omega)
      · intro hpos
        obtain ⟨live, hmem⟩ := hheard hpos
        exact ⟨live, m.suffix.subset hmem⟩
    | done =>
      rw [hp] at hphase
      exact hphase
  waiters := h.waiters
  forwarded := h.forwarded
  answered := h.answered
  pending := fun _ hmem => mem_newAnswers hmem

/-! ## Writing one row -/

/-- The fields of a row that no write changes. -/
structure SameRow (row row' : Row) : Prop where
  token : row'.token = row.token
  actor : row'.actor = row.actor
  route : row'.route = row.route
  expires : row'.expires = row.expires

theorem SameRow.rfl {row : Row} : SameRow row row := ⟨by rfl, by rfl, by rfl, by rfl⟩

theorem SameRow.trans {row row' row'' : Row} (h : SameRow row row') (h' : SameRow row' row'') :
    SameRow row row'' :=
  ⟨h'.token.trans h.token, h'.actor.trans h.actor, h'.route.trans h.route,
    h'.expires.trans h.expires⟩

/-- An entry that is missing later has expired at one of the clock readings. -/
def OnlyExpired (clock : Broker.Time → Prop) (l l' : Ledger) : Prop :=
  ∀ e ∈ l.entries, e ∈ l'.entries ∨
    ∃ row, l.rows[e.2]? = some row ∧ ∃ t, clock t ∧ row.expires ≤ t

/-- What the callbacks and the polls of one transfer do: they write its row, let entries of
the ledger expire, answer its actor and call `ForwardTransfer` some number of times. -/
structure Writes (clock : Broker.Time → Prop) (i : ℕ) (row : Row) (calls : ℕ) (s s' : System) :
    Prop where
  broker : s'.broker = s.broker
  transfers : s'.transfers = s.transfers
  rows : ∃ row', s'.ledger.rows = s.ledger.rows.set i row' ∧ SameRow row row'
  fewer : ∀ e ∈ s'.ledger.entries, e ∈ s.ledger.entries
  expired : OnlyExpired clock s.ledger s'.ledger
  count : ∀ t, forwardCount t s'.log = forwardCount t s.log + if t = row.token then calls else 0
  answered : ∀ a j r, .answered a (some j) r ∈ s'.log →
    .answered a (some j) r ∈ s.log ∨ j = i ∧ a = row.actor

section Writes

variable {clock : Broker.Time → Prop} {i : ℕ} {row : Row} {s s' s'' : System}

theorem set_of_getElem? {α : Type} {l : List α} {x : α} (h : l[i]? = some x) :
    l.set i x = l := by
  obtain ⟨hi, hx⟩ := getElem?_eq_some_iff.mp h
  rw [← hx]
  exact List.set_getElem_self hi

theorem Writes.trans {row' : Row} {m n : ℕ} (h : Writes clock i row m s s')
    (hrow : s.ledger.rows[i]? = some row) (hrow' : s'.ledger.rows[i]? = some row')
    (h' : Writes clock i row' n s' s'') : Writes clock i row (m + n) s s'' := by
  obtain ⟨mid, hmid, hsame⟩ := h.rows
  obtain ⟨last, hlast, hsame'⟩ := h'.rows
  have hi : i < s.ledger.rows.length := (getElem?_eq_some_iff.mp hrow).1
  have hmid' : row' = mid := by
    rw [hmid, List.getElem?_set_self hi] at hrow'
    exact (Option.some.inj hrow').symm
  subst hmid'
  refine ⟨h'.broker.trans h.broker, h'.transfers.trans h.transfers, ⟨last, ?_, hsame.trans hsame'⟩,
    fun e he => h.fewer e (h'.fewer e he), fun e he => ?_, fun t => ?_, fun a j r hmem => ?_⟩
  · rw [hlast, hmid, List.set_set]
  · rcases h.expired e he with hkept | hgone
    · rcases h'.expired e hkept with hkept' | ⟨r, hr, t, ht, hle⟩
      · exact .inl hkept'
      · -- the expiry time of a row never changes
        right
        rw [hmid] at hr
        by_cases hei : e.2 = i
        · rw [hei, List.getElem?_set_self hi] at hr
          cases hr
          exact ⟨row, by rw [hei, hrow], t, ht, hsame.expires ▸ hle⟩
        · rw [List.getElem?_set_ne (Ne.symm hei)] at hr
          exact ⟨r, hr, t, ht, hle⟩
    · exact .inr hgone
  · rw [h'.count, h.count, hsame.token]
    split <;> omega
  · rcases h'.answered a j r hmem with hold | ⟨hj, ha⟩
    · exact h.answered a j r hold
    · exact .inr ⟨hj, ha.trans hsame.actor⟩

theorem Writes.after {n : ℕ} (h : Writes clock i row n s s') (hrow : s.ledger.rows[i]? = some row) :
    ∃ row', s'.ledger.rows[i]? = some row' ∧ SameRow row row' := by
  obtain ⟨row', hrows, hsame⟩ := h.rows
  have hi : i < s.ledger.rows.length := (List.getElem?_eq_some_iff.mp hrow).1
  exact ⟨row', by rw [hrows, List.getElem?_set_self hi], hsame⟩

section

variable (hrow : s.ledger.rows[i]? = some row)
include hrow

theorem writes_update {f : Row → Row} (hf : SameRow row (f row)) :
    Writes clock i row 0 s { s with ledger := s.ledger.update i f } where
  broker := by rfl
  transfers := by rfl
  rows := by
    refine ⟨f row, ?_, hf⟩
    show s.ledger.rows.modify i f = _
    have hi : i < s.ledger.rows.length := (List.getElem?_eq_some_iff.mp hrow).1
    rw [List.modify_eq_set_getElem? f i s.ledger.rows, hrow]
    rfl
  fewer := fun _ he => he
  expired := fun _ he => .inl he
  count := fun t => by simp
  answered := fun _ _ _ h => .inl h

theorem writes_expire {now : Broker.Time} (hnow : clock now) :
    Writes clock i row 0 s { s with ledger := s.ledger.expire now } where
  broker := by rfl
  transfers := by rfl
  rows := ⟨row, (set_of_getElem? hrow).symm, .rfl⟩
  fewer := fun _ he => (List.mem_filter.mp he).1
  expired := by
    intro e he
    by_cases hexp : s.ledger.entryIs (fun row => row.expires ≤ now) e = true
    · right
      unfold Ledger.entryIs at hexp
      cases hr : s.ledger.rows[e.2]? with
      | none =>
        rw [hr] at hexp
        cases hexp
      | some r =>
        rw [hr] at hexp
        exact ⟨r, by rfl, now, hnow, of_decide_eq_true hexp⟩
    · left
      exact List.mem_filter.mpr ⟨he, by simpa using hexp⟩
  count := fun t => by simp
  answered := fun _ _ _ h => .inl h

theorem writes_answered (r : Receipt) :
    Writes clock i row 0 s (s.emit (.answered row.actor (some i) r)) where
  broker := by rfl
  transfers := by rfl
  rows := ⟨row, (set_of_getElem? hrow).symm, .rfl⟩
  fewer := fun _ he => he
  expired := fun _ he => .inl he
  count := fun t => by simp [System.emit, forwardCount, Event.forwards]
  answered := by
    intro a j r' hmem
    rcases List.mem_cons.mp hmem with heq | hold
    · cases heq
      exact .inr ⟨by rfl, by rfl⟩
    · exact .inl hold

theorem writes_forwarded :
    Writes clock i row 1 s (s.emit (.forwarded row.token)) where
  broker := by rfl
  transfers := by rfl
  rows := ⟨row, (set_of_getElem? hrow).symm, .rfl⟩
  fewer := fun _ he => he
  expired := fun _ he => .inl he
  count := by
    intro t
    show List.countP _ (_ :: _) = _
    rw [List.countP_cons]
    by_cases ht : t = row.token
    · simp [Event.forwards, forwardCount, ht]
    · simp [Event.forwards, forwardCount, ht, Ne.symm ht]
  answered := by
    intro a j r' hmem
    rcases List.mem_cons.mp hmem with heq | hold
    · cases heq
    · exact .inl hold

theorem writes_setReceipt (instanceId : String) (state : ReceiptState) (reason : String) :
    Writes clock i row 0 s (s.setReceipt i instanceId state reason) :=
  writes_update hrow ⟨by rfl, by rfl, by rfl, by rfl⟩

theorem writes_reply {c : Closure} (howner : row.actor = c.actor)
    : Writes clock i row 0 s (s.reply i c) := by
  unfold System.reply
  rw [hrow, ← howner]
  exact writes_answered hrow _

theorem writes_replyError {c : Closure} (howner : row.actor = c.actor)
    : Writes clock i row 0 s (s.replyError i c) := by
  have hset : Writes clock i row 0 s _ :=
    writes_setReceipt hrow c.instanceId .rejected "approval or active gate denied"
  obtain ⟨row', hrow', hsame⟩ := hset.after hrow
  exact hset.trans hrow hrow' (writes_reply hrow' (hsame.actor.trans howner))

theorem writes_forwardCall (env : RelayEnv) (c : Closure) :
    Writes clock i row 1 s (s.forwardCall env i row.token c) := by
  have hcall : Writes clock i row 1 s _ := writes_forwarded hrow
  have hrow' : (s.emit (.forwarded row.token)).ledger.rows[i]? = some row := hrow
  unfold System.forwardCall
  dsimp only
  split
  · exact hcall.trans hrow hrow' (writes_setReceipt hrow' _ _ _)
  · exact hcall.trans hrow hrow' (writes_update hrow' ⟨by rfl, by rfl, by rfl, by rfl⟩)

theorem writes_forward {env : RelayEnv} (hclock : clock env.clock) (c : Closure) :
    ∃ n ≤ 1, Writes clock i row n s (s.forward cfg env i c) := by
  unfold System.forward
  rw [hrow]
  dsimp only
  split
  · exact ⟨0, Nat.zero_le 1, writes_setReceipt hrow _ _ _⟩
  · have hexpire : Writes clock i row 0 s _ := writes_expire hrow hclock
    have hrow' : ({ s with ledger := s.ledger.expire env.clock } : System).ledger.rows[i]? =
        some row := hrow
    split
    · exact ⟨0, Nat.zero_le 1, hexpire.trans hrow hrow' (writes_setReceipt hrow' _ _ _)⟩
    · split
      · exact ⟨0, Nat.zero_le 1, hexpire.trans hrow hrow' (writes_setReceipt hrow' _ _ _)⟩
      · split
        · exact ⟨0, Nat.zero_le 1, hexpire.trans hrow hrow' (writes_setReceipt hrow' _ _ _)⟩
        · exact ⟨1, le_rfl, hexpire.trans hrow hrow' (writes_forwardCall hrow' env c)⟩

theorem writes_relayReply {env : RelayEnv} {allowed : Bool}
    (hclock : allowed = true → clock env.clock) {c : Closure} (howner : row.actor = c.actor) :
    ∃ n ≤ 1, (n = 1 → allowed = true) ∧
      Writes clock i row n s (s.relayReply cfg env i c allowed) := by
  cases allowed with
  | false => exact ⟨0, Nat.zero_le 1, fun h => absurd h Nat.zero_ne_one, writes_replyError hrow howner⟩
  | true =>
    obtain ⟨n, hn, hforward⟩ : ∃ n ≤ 1, Writes clock i row n s (s.forward cfg env i c) :=
      writes_forward hrow (hclock rfl) c
    obtain ⟨row', hrow', hsame⟩ := hforward.after hrow
    have hreply : Writes clock i row' 0 _ _ := writes_reply hrow' (hsame.actor.trans howner)
    exact ⟨n, hn, fun _ => by rfl, hforward.trans hrow hrow' hreply⟩

end

theorem Inv.writes {rest rest' : List (Waiter × Bool)} {c : Closure} {n : ℕ}
    (h : Inv cfg rest s) (hc : s.transfers[i]? = some c) (hrow : s.ledger.rows[i]? = some row)
    (hw : Writes clock i row n s s')
    (hphase : ∀ row', s'.ledger.rows[i]? = some row' → SameRow row row' →
      PhaseOk cfg rest' s.broker s'.log c row' c.phase)
    (hother : ∀ (j : ℕ) c' w', s.transfers[j]? = some c' → j ≠ i → c'.phase = .waiting w' →
      pendingCount w' rest' = pendingCount w' rest)
    (hpending : ∀ a ∈ rest', a ∈ rest) : Inv cfg rest' s' := by
  obtain ⟨row', hrows, hsame⟩ := hw.rows
  have hi : i < s.ledger.rows.length := (List.getElem?_eq_some_iff.mp hrow).1
  have hset : s'.ledger.rows[i]? = some row' := by rw [hrows, List.getElem?_set_self hi]
  have htokens : s'.ledger.rows.map Row.token = s.ledger.rows.map Row.token := by
    rw [hrows, List.map_set, hsame.token]
    exact set_of_getElem? (by rw [List.getElem?_map, hrow]; rfl)
  refine ⟨hw.broker ▸ h.broker, ?_, htokens ▸ h.tokens, ?_, ?_, ?_, ?_, ?_, ?_⟩
  · rw [hw.transfers, hrows, List.length_set]
    exact h.sizes
  · intro e he
    obtain ⟨r, hr, ht⟩ := h.entries e (hw.fewer e he)
    by_cases hei : e.2 = i
    · rw [hei] at hr ⊢
      rw [hrow] at hr
      cases hr
      exact ⟨row', hset, hsame.token.trans ht⟩
    · exact ⟨r, by rw [hrows, List.getElem?_set_ne (Ne.symm hei), hr], ht⟩
  · intro j c' r hc' hr
    rw [hw.transfers] at hc'
    by_cases hj : j = i
    · subst hj
      rw [hc] at hc'
      cases hc'
      rw [hset] at hr
      cases hr
      have hok := h.transfers j c row hc hrow
      refine ⟨hsame.actor.trans hok.owner, hok.peer, ?_⟩
      rw [hw.broker]
      exact hphase row' hset hsame
    · rw [hrows, List.getElem?_set_ne (Ne.symm hj)] at hr
      have hok := h.transfers j c' r hc' hr
      refine ⟨hok.owner, hok.peer, ?_⟩
      -- another transfer has another token, and waits on another waiter
      have hne : r.token ≠ row.token := by
        intro heq
        have hj' : j < s.ledger.rows.length := (List.getElem?_eq_some_iff.mp hr).1
        refine hj ((List.getElem?_inj (by simpa using hj') h.tokens).mp ?_)
        rw [List.getElem?_map, List.getElem?_map, hr, hrow, Option.map_some, Option.map_some, heq]
      have hcount : forwardCount r.token s'.log = forwardCount r.token s.log := by
        rw [hw.count, if_neg hne, Nat.add_zero]
      rw [hw.broker]
      exact hok.phase.of_counts hcount fun w' hp => hother j c' w' hc' hj hp
  · rw [hw.transfers]
    exact h.waiters
  · intro t ht
    rw [htokens]
    rw [hw.count] at ht
    by_cases heq : t = row.token
    · rw [heq]
      exact List.mem_map_of_mem (List.mem_of_getElem? hrow)
    · rw [if_neg heq, Nat.add_zero] at ht
      exact h.forwarded t ht
  · intro a j r hmem
    rcases hw.answered a j r hmem with hold | ⟨rfl, rfl⟩
    · obtain ⟨r', hr', ha⟩ := h.answered a j r hold
      by_cases hj : j = i
      · rw [hj] at hr' ⊢
        rw [hrow] at hr'
        cases hr'
        exact ⟨row', hset, hsame.actor.trans ha⟩
      · exact ⟨r', by rw [hrows, List.getElem?_set_ne (Ne.symm hj), hr'], ha⟩
    · exact ⟨row', hset, hsame.actor⟩
  · intro w hmem
    rw [hw.broker]
    exact h.pending w (hpending _ hmem)

end Writes

end Transfer
