/-
# Every run of the relay

The steps of the relay keep the invariant of `TransferReceipts`, and each of them leaves
terminal receipts as they are: an outcome is written to a row that is still untouched, and a
poll only to a row that is not terminal.  A row leaves the ledger when it has expired, or
when `reserve` evicts it, and `reserve` evicts only terminal rows.
-/
import QDistro.TransferReceipts

open TransitionSystem Broker JsonText

namespace Transfer

open List

variable {cfg : Broker.Config}

/-! ## What a step keeps -/

/-- Rows stay, and a terminal receipt stays as it is. -/
def RowsKept (s s' : System) : Prop :=
  ∀ (i : ℕ) row, s.ledger.rows[i]? = some row → ∃ row', s'.ledger.rows[i]? = some row' ∧
    SameRow row row' ∧ (row.receipt.state.isTerminal = true → row'.receipt = row.receipt)

theorem RowsKept.rfl {s : System} : RowsKept s s :=
  fun _ row hrow => ⟨row, hrow, .rfl, fun _ => by rfl⟩

theorem RowsKept.trans {s s' s'' : System} (h : RowsKept s s') (h' : RowsKept s' s'') :
    RowsKept s s'' := by
  intro i row hrow
  obtain ⟨row', hrow', hsame, hterm⟩ := h i row hrow
  obtain ⟨row'', hrow'', hsame', hterm'⟩ := h' i row' hrow'
  refine ⟨row'', hrow'', hsame.trans hsame', fun ht => ?_⟩
  have hreceipt := hterm ht
  exact (hterm' (hreceipt ▸ ht)).trans hreceipt

/-- Rows are kept, and entries only expire. -/
structure Kept (clock : Broker.Time → Prop) (s s' : System) : Prop where
  rows : RowsKept s s'
  entries : ∀ e ∈ s.ledger.entries, ∀ row, s.ledger.rows[e.2]? = some row →
    e ∈ s'.ledger.entries ∨ ∃ t, clock t ∧ row.expires ≤ t

section Kept

variable {clock : Broker.Time → Prop} {s s' s'' : System} {i : ℕ} {row : Row}

theorem Kept.of_ledger (h : s'.ledger = s.ledger) : Kept clock s s' := by
  constructor
  · intro i row hrow
    exact ⟨row, h ▸ hrow, .rfl, fun _ => by rfl⟩
  · intro e he row _
    exact .inl (h ▸ he)

theorem Kept.trans (h : Kept clock s s') (h' : Kept clock s' s'') : Kept clock s s'' := by
  refine ⟨h.rows.trans h'.rows, ?_⟩
  · intro e he row hrow
    obtain ⟨row', hrow', hsame, -⟩ := h.rows e.2 row hrow
    rcases h.entries e he row hrow with hkept | hgone
    · rcases h'.entries e hkept row' hrow' with hkept' | ⟨t, ht, hle⟩
      · exact .inl hkept'
      · exact .inr ⟨t, ht, hsame.expires ▸ hle⟩
    · exact .inr hgone

theorem Writes.kept {n : ℕ} (hw : Writes clock i row n s s') (hrow : s.ledger.rows[i]? = some row)
    (hopen : row.receipt.state.isTerminal = false) : Kept clock s s' := by
  obtain ⟨row', hrows, hsame⟩ := hw.rows
  have hi : i < s.ledger.rows.length := (List.getElem?_eq_some_iff.mp hrow).1
  constructor
  · intro j r hr
    by_cases hj : j = i
    · subst hj
      rw [hrow] at hr
      cases hr
      refine ⟨row', by rw [hrows, getElem?_set_self hi], hsame, fun ht => ?_⟩
      rw [hopen] at ht
      cases ht
    · exact ⟨r, by rw [hrows, getElem?_set_ne (Ne.symm hj), hr], .rfl, fun _ => by rfl⟩
  · intro e he r hr
    rcases hw.expired e he with hkept | ⟨r', hr', t, ht, hle⟩
    · exact .inl hkept
    · rw [hr] at hr'
      cases hr'
      exact .inr ⟨t, ht, hle⟩

theorem Row.Untouched.isOpen (h : row.Untouched) : row.receipt.state.isTerminal = false := by
  rw [h.1]
  rfl

end Kept

/-! ## Moving one transfer -/

section Phases

variable {rest : List (Waiter × Bool)} {s : System} {i : ℕ} {c : Closure} {row : Row}

theorem Inv.row_of (h : Inv cfg rest s) (hc : s.transfers[i]? = some c) :
    ∃ row, s.ledger.rows[i]? = some row := by
  have hi : i < s.transfers.length := (List.getElem?_eq_some_iff.mp hc).1
  rw [h.sizes] at hi
  exact ⟨_, getElem?_eq_getElem hi⟩

theorem setPhase_self (hc : s.transfers[i]? = some c) (p : Phase) :
    (s.setPhase i p).transfers[i]? = some { c with phase := p } := by
  unfold System.setPhase
  rw [getElem?_modify_eq, hc]
  rfl

theorem setPhase_ne {j : ℕ} (hj : j ≠ i) (p : Phase) :
    (s.setPhase i p).transfers[j]? = s.transfers[j]? :=
  getElem?_modify_ne _ _ (Ne.symm hj)

theorem Inv.setPhase (h : Inv cfg rest s) (hc : s.transfers[i]? = some c)
    (hrow : s.ledger.rows[i]? = some row) {p : Phase}
    (hphase : PhaseOk cfg rest s.broker s.log { c with phase := p } row p)
    (hfresh : ∀ w, p = .waiting w → ∀ c' ∈ s.transfers, c'.phase ≠ .waiting w) :
    Inv cfg rest (s.setPhase i p) where
  broker := h.broker
  sizes := by
    rw [System.setPhase, length_modify]
    exact h.sizes
  tokens := h.tokens
  entries := h.entries
  transfers := by
    intro j c' r hc' hr
    by_cases hj : j = i
    · subst hj
      rw [setPhase_self hc] at hc'
      cases hc'
      have hr : s.ledger.rows[j]? = some r := hr
      rw [hrow] at hr
      cases hr
      have hok := h.transfers j c row hc hrow
      exact ⟨hok.owner, hok.peer, hphase⟩
    · rw [setPhase_ne hj] at hc'
      have hok := h.transfers j c' r hc' hr
      exact ⟨hok.owner, hok.peer, hok.phase⟩
  waiters := by
    intro j k c₁ c₂ w h₁ h₂ hp₁ hp₂
    by_cases hj : j = i
    · by_cases hk : k = i
      · rw [hj, hk]
      · rw [hj, setPhase_self hc] at h₁
        rw [setPhase_ne hk] at h₂
        cases h₁
        exact absurd hp₂ (hfresh w hp₁ c₂ (mem_of_getElem? h₂))
    · rw [setPhase_ne hj] at h₁
      by_cases hk : k = i
      · rw [hk, setPhase_self hc] at h₂
        cases h₂
        exact absurd hp₁ (hfresh w hp₂ c₁ (mem_of_getElem? h₁))
      · rw [setPhase_ne hk] at h₂
        exact h.waiters j k c₁ c₂ w h₁ h₂ hp₁ hp₂
  forwarded := h.forwarded
  answered := h.answered
  pending := h.pending

end Phases

/-! ## Answers -/

section Answers

variable {clock : Broker.Time → Prop} {rest : List (Waiter × Bool)} {s : System}

theorem Inv.forget {rest' : List (Waiter × Bool)} (h : Inv cfg rest s)
    (hcount : ∀ c ∈ s.transfers, ∀ w, c.phase = .waiting w →
      pendingCount w rest' = pendingCount w rest)
    (hpending : ∀ a ∈ rest', a ∈ rest) : Inv cfg rest' s where
  broker := h.broker
  sizes := h.sizes
  tokens := h.tokens
  entries := h.entries
  transfers := by
    intro i c row hc hrow
    have hok := h.transfers i c row hc hrow
    exact ⟨hok.owner, hok.peer, hok.phase.of_counts (by rfl) (hcount c (mem_of_getElem? hc))⟩
  waiters := h.waiters
  forwarded := h.forwarded
  answered := h.answered
  pending := fun w hmem => h.pending w (hpending _ hmem)

/-- The callback of one answer.  A waiter is answered once, so the row of its transfer is
as it was reserved. -/
theorem deliver_keeps {answer : Waiter × Bool} {env : Waiter → RelayEnv}
    (h : Inv cfg (answer :: rest) s)
    (hclock : answer.2 = true → clock (env answer.1).clock) :
    Inv cfg rest (deliver cfg env s answer) ∧ Kept clock s (deliver cfg env s answer) := by
  have hsub : ∀ a ∈ rest, a ∈ answer :: rest := fun a ha => mem_cons_of_mem _ ha
  unfold deliver
  split
  · rename_i hnone
    refine ⟨h.forget (fun c hc w hw => ?_) hsub, .of_ledger rfl⟩
    have hne : answer.1 ≠ w := by
      intro heq
      have hnot := findIdx?_eq_none_iff.mp hnone c hc
      rw [heq, hw] at hnot
      simp at hnot
    rw [pendingCount_cons, if_neg (by simpa using hne), Nat.add_zero]
  · rename_i i hfound
    split
    · rename_i hno
      have hi := (findIdx?_eq_some_iff_getElem.mp hfound).1
      rw [getElem?_eq_getElem hi] at hno
      cases hno
    · rename_i c hc
      have hphase : c.phase = .waiting answer.1 := by
        obtain ⟨hi, hp, -⟩ := findIdx?_eq_some_iff_getElem.mp hfound
        rw [getElem?_eq_getElem hi] at hc
        cases hc
        simpa using hp
      obtain ⟨row, hrow⟩ := h.row_of hc
      have hok := h.transfers i c row hc hrow
      have hwaits := hok.phase
      rw [hphase] at hwaits
      obtain ⟨hreq, hgranted, hwait, hcount, huntouched, hheard⟩ := hwaits
      -- the answer is the only one the waiter has
      have hlaw := h.broker.accounted.law answer.1
      have hself : pendingCount answer.1 (answer :: rest) = pendingCount answer.1 rest + 1 := by
        rw [pendingCount_cons, if_pos (by simp)]
      have hone : answerCount answer.1 s.broker.trace = 1 := by omega
      have hnone : forwardCount row.token s.log = 0 := by omega
      have hlast : pendingCount answer.1 rest = 0 := by omega
      have hrowOpen := huntouched (by omega)
      obtain ⟨n, hn, hallow, hw⟩ :
          ∃ n ≤ 1, (n = 1 → answer.2 = true) ∧
            Writes clock i row n s (s.relayReply cfg (env answer.1) i c answer.2) :=
        writes_relayReply hrow hclock hok.owner
      refine ⟨h.writes hc hrow hw (fun row' hrow' hsame => ?_) (fun j c' w' hc' hj hp' => ?_) hsub,
        hw.kept hrow hrowOpen.isOpen⟩
      · have hcalls : forwardCount row'.token (s.relayReply cfg (env answer.1) i c answer.2).log
            = n := by
          rw [hsame.token, hw.count, if_pos rfl, hnone, Nat.zero_add]
        rw [hphase]
        refine ⟨hreq, hgranted, hwait, ?_, fun heq => ?_, fun hpos => ?_⟩
        · omega
        · omega
        · have hpair : answer = (answer.1, true) := by rw [← hallow (by omega)]
          exact h.pending answer.1 (hpair ▸ mem_cons_self)
      · have hne : answer.1 ≠ w' := by
          intro heq
          exact hj (h.waiters j i c' c w' hc' hc hp' (heq ▸ hphase))
        rw [pendingCount_cons, if_neg (by simpa using hne), Nat.add_zero]

theorem foldl_deliver_keeps {env : Waiter → RelayEnv} {answers : List (Waiter × Bool)}
    (h : Inv cfg answers s) (hclock : ∀ w, (w, true) ∈ answers → clock (env w).clock) :
    Inv cfg [] (answers.foldl (deliver cfg env) s) ∧
      Kept clock s (answers.foldl (deliver cfg env) s) := by
  induction answers generalizing s with
  | nil => exact ⟨h, .of_ledger rfl⟩
  | cons answer rest ih =>
    have hfirst : answer.2 = true → clock (env answer.1).clock := by
      intro htrue
      have hpair : answer = (answer.1, true) := by rw [← htrue]
      exact hclock answer.1 (hpair ▸ mem_cons_self)
    obtain ⟨hinv, hkept⟩ := deliver_keeps h hfirst
    obtain ⟨hinv', hkept'⟩ := ih hinv fun w hw => hclock w (mem_cons_of_mem _ hw)
    exact ⟨hinv', hkept.trans hkept'⟩

theorem deliverAll_keeps {d : Discipline} {env : Waiter → RelayEnv} {b : Broker.State}
    (h : Inv cfg [] s) (m : Moves cfg d s.broker b)
    (hclock : ∀ w, (w, true) ∈ newAnswers s.broker.trace b.trace → clock (env w).clock) :
    Inv cfg [] (deliverAll cfg env s b) ∧ Kept clock s (deliverAll cfg env s b) := by
  obtain ⟨hinv, hkept⟩ := foldl_deliver_keeps (h.moves m) hclock
  have hmove : Kept clock s { s with broker := b } := .of_ledger rfl
  exact ⟨hinv, hmove.trans hkept⟩

theorem Inv.silent {d : Discipline} {b : Broker.State} (h : Inv cfg [] s)
    (m : Moves cfg d s.broker b) (hsilent : newAnswers s.broker.trace b.trace = []) :
    Inv cfg [] { s with broker := b } := by
  have hmoves := h.moves m
  rw [hsilent] at hmoves
  exact hmoves

end Answers

/-! ## The sections of a transfer -/

section Sections

variable {clock : Broker.Time → Prop} {s : System} {i : ℕ} {c : Closure} {row : Row}

theorem reply_ledger (s : System) (i : ℕ) (c : Closure) : (s.reply i c).ledger = s.ledger := by
  unfold System.reply
  split
  · rfl
  · rfl

theorem Inv.setDone (h : Inv cfg [] s) (hc : s.transfers[i]? = some c)
    (hrow : s.ledger.rows[i]? = some row) (hzero : forwardCount row.token s.log = 0) :
    Inv cfg [] (s.setPhase i .done) := by
  refine h.setPhase hc hrow ⟨?_, fun hpos => ?_⟩ fun w hw => ?_
  · omega
  · omega
  · cases hw

theorem reject_keeps (h : Inv cfg [] s) (hc : s.transfers[i]? = some c)
    (hrow : s.ledger.rows[i]? = some row) (hopen : row.Untouched)
    (hzero : forwardCount row.token s.log = 0) :
    Inv cfg [] ((s.setPhase i .done).replyError i c) ∧
      Kept clock s ((s.setPhase i .done).replyError i c) := by
  have hdone := h.setDone hc hrow hzero
  have hrow' : (s.setPhase i .done).ledger.rows[i]? = some row := hrow
  have hw : Writes clock i row 0 (s.setPhase i .done) ((s.setPhase i .done).replyError i c) :=
    writes_replyError hrow' (h.transfers i c row hc hrow).owner
  have hset : Kept clock s (s.setPhase i .done) := .of_ledger rfl
  refine ⟨hdone.writes (setPhase_self hc .done) hrow' hw (fun row' _ hsame => ?_)
    (fun _ _ _ _ _ _ => rfl) (fun _ ha => ha), hset.trans (hw.kept hrow' hopen.isOpen)⟩
  have hcount : forwardCount row'.token ((s.setPhase i .done).replyError i c).log = 0 := by
    rw [hsame.token, hw.count, if_pos rfl]
    exact hzero
  refine ⟨?_, fun hpos => ?_⟩
  · omega
  · omega

theorem sameSilo_keeps {env : RelayEnv} (h : Inv cfg [] s) (hc : s.transfers[i]? = some c)
    (hrow : s.ledger.rows[i]? = some row) (hopen : row.Untouched)
    (hzero : forwardCount row.token s.log = 0) (hsame : cfg.connUid c.sender = c.uid)
    (hclock : clock env.clock) (row' : AuditRow) :
    let s' := (s.setPhase i .done).forward cfg env i c
    let s'' : System := { s' with broker := s'.broker.audit env.host row' }
    Inv cfg [] (s''.reply i c) ∧ Kept clock s (s''.reply i c) := by
  intro s' s''
  have hdone := h.setDone hc hrow hzero
  have hrow₀ : (s.setPhase i .done).ledger.rows[i]? = some row := hrow
  obtain ⟨n, hn, hw⟩ : ∃ n ≤ 1, Writes clock i row n (s.setPhase i .done) s' :=
    writes_forward hrow₀ hclock c
  have hforward : Inv cfg [] s' := by
    refine hdone.writes (setPhase_self hc .done) hrow₀ hw (fun r _ hr => ⟨?_, fun _ => hsame⟩)
      (fun _ _ _ _ _ _ => rfl) (fun _ ha => ha)
    have hcount : forwardCount r.token s'.log = forwardCount row.token s.log + n := by
      rw [hr.token, hw.count, if_pos rfl]
      rfl
    omega
  have haudit : Inv cfg [] s'' :=
    hforward.silent (d := Discipline.free) (moves_audit _ _ _) (newAnswers_audit _ _ _)
  have hset : Kept clock s (s.setPhase i .done) := .of_ledger rfl
  have hreply : Kept clock s' (s''.reply i c) := .of_ledger (reply_ledger s'' i c)
  refine ⟨?_, (hset.trans (hw.kept hrow₀ hopen.isOpen)).trans hreply⟩
  -- the reply writes nothing
  obtain ⟨r, hr, hr'⟩ := hw.after hrow₀
  have hc' : s''.transfers[i]? = some { c with phase := .done } := by
    show s'.transfers[i]? = _
    rw [hw.transfers, setPhase_self hc]
  have hr : s''.ledger.rows[i]? = some r := hr
  have hok := haudit.transfers i _ r hc' hr
  have howner : r.actor = c.actor := hok.owner
  have hanswer : Writes clock i r 0 s'' (s''.reply i c) := writes_reply hr howner
  refine haudit.writes hc' hr hanswer (fun r' hr'' hsame' => ?_) (fun _ _ _ _ _ _ => rfl)
    (fun _ ha => ha)
  have hcount : forwardCount r'.token (s''.reply i c).log = forwardCount r.token s''.log := by
    rw [hsame'.token, hanswer.count, if_pos rfl, Nat.add_zero]
  have hphase := hok.phase
  simp only [PhaseOk] at hphase ⊢
  rw [hcount]
  exact hphase

theorem BrokerOk.unrecorded {b b' : Broker.State} (h : BrokerOk cfg b) (htasks : b'.tasks = b.tasks) :
    Unrecorded b' b.nextId := by
  intro basis hmem
  rw [htasks] at hmem
  obtain ⟨r, hr, -⟩ := h.inv.tasks _ hmem
  rw [h.inv.fresh b.nextId le_rfl] at hr
  cases hr

theorem relayGate_keeps {env : RelayEnv} (h : Inv cfg [] s) (hc : s.transfers[i]? = some c)
    (hphase : c.phase = .reserved) (hclock : clock env.clock) :
    Inv cfg [] (relayGate cfg env s i c) ∧ Kept clock s (relayGate cfg env s i c) := by
  obtain ⟨row, hrow⟩ := h.row_of hc
  have hok := h.transfers i c row hc hrow
  have hreserved := hok.phase
  rw [hphase] at hreserved
  obtain ⟨hopen, hzero⟩ := hreserved
  unfold relayGate
  dsimp only
  split
  · exact reject_keeps h hc hrow hopen hzero
  · split
    · rename_i hsame
      exact sameSilo_keeps h hc hrow hopen hzero hsame hclock _
    · split
      · rename_i b henqueue
        have hmoves := enqueue_moves h.broker rfl rfl henqueue
        have hfiled := h.silent hmoves (newAnswers_enqueue rfl henqueue)
        have hkept : Kept clock s { s with broker := b } := .of_ledger rfl
        obtain ⟨hinv, hrest⟩ := reject_keeps hfiled hc hrow hopen hzero
        exact ⟨hinv, hkept.trans hrest⟩
      · rename_i b rid henqueue
        have hmoves := enqueue_moves h.broker rfl rfl henqueue
        have hfiled := h.silent hmoves (newAnswers_enqueue rfl henqueue)
        obtain ⟨hrid, htasks, r, hr, haction, huid⟩ := enqueue_spec rfl henqueue
        refine ⟨hfiled.setPhase hc hrow ⟨hopen, hzero, ⟨r, hr, haction, ?_⟩, ?_⟩ fun w hw => ?_,
          .of_ledger rfl⟩
        · exact huid.trans hok.peer.symm
        · rw [hrid]
          exact h.broker.unrecorded htasks
        · cases hw

theorem register_keeps {env : RelayEnv} (h : Inv cfg [] s) (hc : s.transfers[i]? = some c)
    {rid : ℕ} (hphase : c.phase = .filed rid) {b : Broker.State} {w : Waiter}
    (hreg : registerWaiter s.broker rid = (b, some w)) (hclock : clock env.clock) :
    let s' := deliverAll cfg (fun _ => env) (s.setPhase i (.waiting w)) b
    Inv cfg [] s' ∧ Kept clock s s' := by
  intro s'
  obtain ⟨row, hrow⟩ := h.row_of hc
  have hfiled := (h.transfers i c row hc hrow).phase
  rw [hphase] at hfiled
  obtain ⟨hopen, hzero, hreq⟩ := hfiled
  obtain ⟨hmoves, hrid, hnever, hwait⟩ := registerWaiter_spec h.broker hreg
  subst hrid
  have hunanswered : answerCount w s.broker.trace = 0 := by
    have hlaw := h.broker.accounted.law w
    omega
  have hgranted : Granted s.broker w := by
    intro live hmem
    have hpos : 0 < answerCount w s.broker.trace :=
      countP_pos_iff.mpr ⟨_, hmem, by simp [Broker.Event.answers]⟩
    omega
  have hcount := answerCount_newAnswers w hmoves.suffix
  have hmoved := h.moves hmoves
  have hwaiting : Inv cfg (newAnswers s.broker.trace b.trace)
      (({ s with broker := b } : System).setPhase i (.waiting w)) := by
    refine hmoved.setPhase hc hrow ?_ fun w' hw' c' hc' hp' => ?_
    · have hreq' := hreq.moves h.broker hmoves
      refine ⟨⟨hreq'.request, hreq'.steady⟩, granted_moves h.broker hreq hgranted hmoves, hwait, ?_,
        fun _ => hopen, fun hpos => ?_⟩
      · show forwardCount row.token s.log + _ ≤ answerCount w b.trace
        omega
      · have hpos : 0 < forwardCount row.token s.log := hpos
        omega
    · -- no other transfer waits on a waiter that is new
      cases hw'
      obtain ⟨j, hj⟩ := mem_iff_getElem?.mp hc'
      obtain ⟨row', hrow'⟩ := h.row_of hj
      have hother := (h.transfers j c' row' hj hrow').phase
      rw [hp'] at hother
      have hone := hother.2.2.1
      omega
  obtain ⟨hinv, hkept⟩ := foldl_deliver_keeps hwaiting fun _ _ => hclock
  have hset : Kept clock s (({ s with broker := b } : System).setPhase i (.waiting w)) :=
    .of_ledger rfl
  exact ⟨hinv, hset.trans hkept⟩

theorem resume_keeps {env : RelayEnv} (h : Inv cfg [] s) (hc : s.transfers[i]? = some c)
    (hclock : clock env.clock) :
    Inv cfg [] (resume cfg env s i c) ∧ Kept clock s (resume cfg env s i c) := by
  unfold resume
  split
  · rename_i hphase
    exact relayGate_keeps h hc hphase hclock
  · rename_i rid hphase
    split
    · obtain ⟨row, hrow⟩ := h.row_of hc
      have hfiled := (h.transfers i c row hc hrow).phase
      rw [hphase] at hfiled
      exact reject_keeps h hc hrow hfiled.1 hfiled.2.1
    · rename_i b w hreg
      exact register_keeps h hc hphase hreg hclock
  · exact ⟨h, .of_ledger rfl⟩
  · exact ⟨h, .of_ledger rfl⟩

end Sections

/-! ## The ledger -/

section Ledger

variable {s : System}

/-- An event that neither forwards nor shows a row. -/
def Event.plain : Event → Bool
  | .answered _ none _ | .refused => true
  | _ => false

theorem Inv.emit {rest : List (Waiter × Bool)} (h : Inv cfg rest s) {e : Event}
    (he : e.plain = true) : Inv cfg rest (s.emit e) := by
  have hcount : ∀ t, forwardCount t (s.emit e).log = forwardCount t s.log := by
    intro t
    show countP _ (e :: s.log) = _
    rw [countP_cons_of_neg]
    · rfl
    · cases e <;> simp_all [Event.plain, Event.forwards]
  refine ⟨h.broker, h.sizes, h.tokens, h.entries, ?_, h.waiters, ?_, ?_, h.pending⟩
  · intro i c row hc hrow
    have hok := h.transfers i c row hc hrow
    exact ⟨hok.owner, hok.peer, hok.phase.of_counts (hcount row.token) fun _ _ => rfl⟩
  · intro t ht
    exact h.forwarded t (hcount t ▸ ht)
  · intro a i r hmem
    rcases mem_cons.mp hmem with rfl | hold
    · cases he
    · exact h.answered a i r hold

variable {l : Ledger}

theorem Inv.fewer {rest : List (Waiter × Bool)} (h : Inv cfg rest s)
    (hrows : l.rows = s.ledger.rows) (hfewer : ∀ e ∈ l.entries, e ∈ s.ledger.entries) :
    Inv cfg rest { s with ledger := l } where
  broker := h.broker
  sizes := by
    rw [hrows]
    exact h.sizes
  tokens := by
    rw [hrows]
    exact h.tokens
  entries := by
    intro e he
    rw [hrows]
    exact h.entries e (hfewer e he)
  transfers := by
    intro i c row hc hrow
    rw [hrows] at hrow
    have hok := h.transfers i c row hc hrow
    exact ⟨hok.owner, hok.peer, hok.phase⟩
  waiters := h.waiters
  forwarded := by
    rw [hrows]
    exact h.forwarded
  answered := by
    rw [hrows]
    exact h.answered
  pending := h.pending

theorem Ledger.mem_of_mem_evict {e : String × ℕ} (h : e ∈ l.evict.entries) :
    e ∈ l.entries := by
  unfold Ledger.evict at h
  split at h
  · exact mem_of_mem_eraseP h
  · exact h

theorem Ledger.evict_rows (l : Ledger) : l.evict.rows = l.rows := by
  unfold Ledger.evict
  split
  · rfl
  · rfl

theorem Ledger.mem_evict {e : String × ℕ} {row : Row} (h : e ∈ l.entries)
    (hrow : l.rows[e.2]? = some row) (hopen : row.receipt.state.isTerminal = false) :
    e ∈ l.evict.entries := by
  unfold Ledger.evict
  split
  · refine (mem_eraseP_of_neg ?_).mpr h
    rw [Ledger.entryIs, hrow, Option.any_some, hopen]
    exact Bool.false_ne_true
  · exact h

theorem Ledger.mem_expire {e : String × ℕ} {row : Row} {now : Broker.Time} (h : e ∈ l.entries)
    (hrow : l.rows[e.2]? = some row) (hlive : ¬ row.expires ≤ now) :
    e ∈ (l.expire now).entries := by
  refine mem_filter.mpr ⟨h, ?_⟩
  rw [Ledger.entryIs, hrow, Option.any_some, decide_eq_false hlive]
  rfl

/-- What `reserve` does: it drops entries that have expired, or one that is terminal, and it
appends a row if there is room for it. -/
theorem Ledger.reserve_spec {l' : Ledger} {now later : Broker.Time} {token : String}
    {actor : Actor} {route : Route} {instanceId : String} {n : Option ℕ}
    (h : l.reserve now later token actor route instanceId = (l', n)) :
    (n = none ∧ l' = (l.expire now).evict) ∨
      ∃ row : Row, row.token = token ∧ row.actor = actor ∧ row.Untouched ∧
        l' = { rows := l.rows ++ [row]
               entries := PyDict.put (l.expire now).evict.entries token l.rows.length } ∧
        n ≠ none := by
  unfold Ledger.reserve at h
  dsimp only at h
  split at h
  · cases h
    exact .inl ⟨rfl, rfl⟩
  · cases h
    right
    refine ⟨{ token := token, actor := actor, route := route, expires := later + ttl
              receipt := receipt instanceId token .staged "awaiting dispatch" },
      rfl, rfl, ⟨rfl, rfl⟩, ?_, Option.some_ne_none _⟩
    rw [Ledger.evict_rows]
    rfl

theorem transferActor_uid {env : RelayEnv} {sender : Sender} {actor : Actor}
    (h : transferActor cfg env sender = some actor) : actor.uid = cfg.connUid sender := by
  unfold transferActor at h
  dsimp only at h
  split at h
  · cases h
  · cases h
    rfl

theorem relayTransfer_cases {env : RelayEnv} {s' : System} {call : RelayCall}
    (h : relayTransfer cfg env s call = s') :
    (∃ e : Event, e.plain = true ∧ s' = s.emit e) ∨
      ∃ actor route instanceId l n, transferActor cfg env call.sender = some actor ∧
        s.ledger.reserve env.clock env.clockLater env.token actor route instanceId = (l, n) ∧
        ((n = none ∧ ∃ e : Event, e.plain = true ∧ s' = { s with ledger := l }.emit e) ∨
          (n ≠ none ∧ ∃ c : Closure, c.sender = call.sender ∧ c.actor = actor ∧
            c.phase = .reserved ∧
            s' = { s with ledger := l, transfers := s.transfers ++ [c] })) := by
  unfold relayTransfer at h
  split at h
  · exact .inl ⟨_, rfl, h.symm⟩
  · rename_i actor hactor
    split at h
    · exact .inl ⟨_, rfl, h.symm⟩
    · rename_i instanceId _
      split at h
      · exact .inl ⟨_, rfl, h.symm⟩
      · split at h
        · exact .inl ⟨_, rfl, h.symm⟩
        · rename_i owner receiverOwner caps _
          split at h
          · exact .inl ⟨_, rfl, h.symm⟩
          · right
            split at h
            · rename_i l hreserve
              exact ⟨actor, _, instanceId, l, none, hactor, hreserve, .inl ⟨rfl, _, rfl, h.symm⟩⟩
            · rename_i l n hreserve
              exact ⟨actor, _, instanceId, l, some n, hactor, hreserve,
                .inr ⟨Option.some_ne_none _, _, rfl, rfl, rfl, h.symm⟩⟩

theorem Inv.reserve (h : Inv cfg [] s) {row : Row} {c : Closure} {token : String}
    (hrows : l.rows = s.ledger.rows ++ [row])
    (hentries : ∀ e ∈ l.entries, e ∈ s.ledger.entries ∨ e = (token, s.ledger.rows.length))
    (htoken : row.token = token) (hfresh : token ∉ s.ledger.rows.map Row.token)
    (hopen : row.Untouched) (howner : row.actor = c.actor)
    (hpeer : c.actor.uid = cfg.connUid c.sender) (hphase : c.phase = .reserved) :
    Inv cfg [] { s with ledger := l, transfers := s.transfers ++ [c] } := by
  have hold : ∀ (i : ℕ) r, s.ledger.rows[i]? = some r → l.rows[i]? = some r := by
    intro i r hr
    have hi : i < s.ledger.rows.length := (List.getElem?_eq_some_iff.mp hr).1
    rw [hrows, List.getElem?_append_left hi, hr]
  have hnew : l.rows[s.ledger.rows.length]? = some row := by
    rw [hrows, getElem?_concat_length]
  have hzero : forwardCount row.token s.log = 0 := by
    by_contra hne
    rw [htoken] at hne
    exact hfresh (h.forwarded token (Nat.pos_of_ne_zero hne))
  refine ⟨h.broker, ?_, ?_, ?_, ?_, ?_, ?_, ?_, h.pending⟩
  · rw [hrows, length_append, length_append, h.sizes]
    rfl
  · show (l.rows.map Row.token).Nodup
    rw [hrows, map_append]
    refine List.Nodup.append h.tokens (nodup_singleton _) fun t ht ht' => ?_
    rw [map_cons, map_nil, mem_singleton, htoken] at ht'
    exact hfresh (ht' ▸ ht)
  · intro e he
    rcases hentries e he with hmem | rfl
    · obtain ⟨r, hr, ht⟩ := h.entries e hmem
      exact ⟨r, hold _ r hr, ht⟩
    · exact ⟨row, hnew, htoken⟩
  · intro i c' r hc' hr
    dsimp only at hc' hr
    rcases Nat.lt_or_ge i s.transfers.length with hi | hi
    · rw [getElem?_append_left hi] at hc'
      obtain ⟨r', hr'⟩ := h.row_of hc'
      rw [hold i r' hr'] at hr
      cases hr
      have hok := h.transfers i c' r hc' hr'
      exact ⟨hok.owner, hok.peer, hok.phase⟩
    · have hlen : i < (s.transfers ++ [c]).length := (List.getElem?_eq_some_iff.mp hc').1
      rw [List.length_append, List.length_singleton] at hlen
      have hi : i = s.transfers.length := by omega
      subst hi
      rw [getElem?_concat_length] at hc'
      rw [h.sizes, hnew] at hr
      cases hc'
      cases hr
      refine ⟨howner, hpeer, ?_⟩
      rw [hphase]
      exact ⟨hopen, hzero⟩
  · -- the new transfer does not wait yet
    intro i j c₁ c₂ w h₁ h₂ hp₁ hp₂
    have hwaits : ∀ (k : ℕ) c', (s.transfers ++ [c])[k]? = some c' → c'.phase = .waiting w →
        s.transfers[k]? = some c' := by
      intro k c' hk hp
      rcases Nat.lt_or_ge k s.transfers.length with hlt | hge
      · rw [getElem?_append_left hlt] at hk
        exact hk
      · rw [getElem?_append_right hge] at hk
        have hmem := mem_of_getElem? hk
        rw [mem_singleton.mp hmem, hphase] at hp
        cases hp
    exact h.waiters i j c₁ c₂ w (hwaits i c₁ h₁ hp₁) (hwaits j c₂ h₂ hp₂) hp₁ hp₂
  · intro t ht
    show t ∈ l.rows.map Row.token
    rw [hrows, map_append]
    exact mem_append_left _ (h.forwarded t ht)
  · intro a i r hmem
    obtain ⟨r', hr', ha⟩ := h.answered a i r hmem
    exact ⟨r', hold i r' hr', ha⟩

end Ledger

/-! ## Steps -/

section Steps

variable {s : System}

/-- The token drawn by `RelayTransfer` is new: `secrets.token_hex` does not repeat itself. -/
def TokenFresh (s : System) : Action → Prop
  | .relayTransfer env _ => env.token ∉ s.ledger.rows.map Row.token
  | _ => True

/-- The clock readings at which a step lets rows expire. -/
def Reads (cfg : Broker.Config) (s : System) : Action → Broker.Time → Prop
  | .broker a env, t => ∃ w,
      (w, true) ∈ newAnswers s.broker.trace (Broker.step cfg s.broker a).trace ∧ t = (env w).clock
  | .relayTransfer env _, t | .resume env _, t | .getTransferStatus env _ _, t => t = env.clock

/-- What one step does to the rows and to the entries of the ledger. -/
structure StepKept (cfg : Broker.Config) (s : System) (a : Action) (s' : System) : Prop where
  rows : RowsKept s s'
  entries : ∀ e ∈ s.ledger.entries, ∀ row, s.ledger.rows[e.2]? = some row →
    row.receipt.state.isTerminal = false →
    e ∈ s'.ledger.entries ∨ ∃ t, Reads cfg s a t ∧ row.expires ≤ t

theorem Kept.step {a : Action} {s' : System} (h : Kept (Reads cfg s a) s s') :
    StepKept cfg s a s' :=
  ⟨h.rows, fun e he row hrow _ => h.entries e he row hrow⟩

theorem relayTransfer_keeps {env : RelayEnv} {call : RelayCall} (h : Inv cfg [] s)
    (hfresh : env.token ∉ s.ledger.rows.map Row.token) :
    Inv cfg [] (relayTransfer cfg env s call) ∧
      StepKept cfg s (.relayTransfer env call) (relayTransfer cfg env s call) := by
  -- an open row that has not expired survives both ways of leaving
  have hstays : ∀ e ∈ s.ledger.entries, ∀ row, s.ledger.rows[e.2]? = some row →
      row.receipt.state.isTerminal = false →
      e ∈ (s.ledger.expire env.clock).evict.entries ∨ row.expires ≤ env.clock := by
    intro e he row hrow hopen
    by_cases hexp : row.expires ≤ env.clock
    · exact .inr hexp
    · exact .inl (Ledger.mem_evict (Ledger.mem_expire he hrow hexp) hrow hopen)
  have hsub : ∀ e ∈ (s.ledger.expire env.clock).evict.entries, e ∈ s.ledger.entries :=
    fun e he => (mem_filter.mp (Ledger.mem_of_mem_evict he)).1
  generalize hout : relayTransfer cfg env s call = s'
  obtain ⟨e, he, rfl⟩ | ⟨actor, route, instanceId, l, n, hactor, hreserve, hcase⟩ :=
    relayTransfer_cases hout
  · exact ⟨h.emit he, Kept.step (.of_ledger rfl)⟩
  · obtain ⟨hn, rfl⟩ | ⟨row, htoken, howner, hopen, rfl, hn⟩ := Ledger.reserve_spec hreserve
    · obtain ⟨-, e, he, rfl⟩ | ⟨hn', -⟩ := hcase
      · have hrows : (s.ledger.expire env.clock).evict.rows = s.ledger.rows :=
          Ledger.evict_rows _
        refine ⟨(h.fewer hrows hsub).emit he, ?_, ?_⟩
        · intro i r hr
          exact ⟨r, hrows ▸ hr, .rfl, fun _ => rfl⟩
        · intro e he r hr hopen
          rcases hstays e he r hr hopen with hkept | hexp
          · exact .inl hkept
          · exact .inr ⟨env.clock, rfl, hexp⟩
      · exact absurd hn hn'
    · obtain ⟨hn', -⟩ | ⟨-, c, hsender, hactor', hphase, rfl⟩ := hcase
      · exact absurd hn' hn
      · have hput : PyDict.put (s.ledger.expire env.clock).evict.entries env.token
            s.ledger.rows.length = (s.ledger.expire env.clock).evict.entries ++
              [(env.token, s.ledger.rows.length)] := by
          refine PyDict.put_of_not_mem (fun hmem => ?_) _
          obtain ⟨e, he, hkey⟩ := mem_map.mp hmem
          obtain ⟨r, hr, ht⟩ := h.entries e (hsub e he)
          refine hfresh (mem_map.mpr ⟨r, mem_of_getElem? hr, ?_⟩)
          rw [ht, hkey]
        rw [hput]
        refine ⟨h.reserve rfl (fun e he => ?_) htoken hfresh hopen ?_ ?_ hphase, ?_, ?_⟩
        · rcases mem_append.mp he with hmem | hmem
          · exact .inl (hsub e hmem)
          · exact .inr (mem_singleton.mp hmem)
        · rw [howner, hactor']
        · rw [hactor', hsender]
          exact transferActor_uid hactor
        · intro i r hr
          have hi : i < s.ledger.rows.length := (List.getElem?_eq_some_iff.mp hr).1
          exact ⟨r, by rw [List.getElem?_append_left hi, hr], .rfl, fun _ => rfl⟩
        · intro e he r hr hopen
          rcases hstays e he r hr hopen with hkept | hexp
          · exact .inl (mem_append_left _ hkept)
          · exact .inr ⟨env.clock, rfl, hexp⟩

variable {clock : Broker.Time → Prop}

/-- A poll writes only the row of a transfer that the receiver has accepted and not
finished. -/
theorem pollStatus_writes {env : RelayEnv} {i : ℕ} {row : Row} {actor : Actor}
    (hrow : s.ledger.rows[i]? = some row) :
    pollStatus env s i row actor = s ∨
      (row.receipt.state.isTerminal = false ∧ row.receiverId ≠ "" ∧
        Writes clock i row 0 s (pollStatus env s i row actor)) := by
  unfold pollStatus
  split
  · exact .inl rfl
  · rename_i hguard
    rw [Bool.or_eq_true, not_or] at hguard
    right
    refine ⟨by simpa using hguard.1, by simpa using hguard.2, ?_⟩
    split
    · exact writes_setReceipt hrow _ _ _
    · split
      · exact writes_setReceipt hrow _ _ _
      · exact writes_update hrow ⟨by rfl, by rfl, by rfl, by rfl⟩

theorem Inv.transfer_of {rest : List (Waiter × Bool)} (h : Inv cfg rest s) {i : ℕ} {row : Row}
    (hrow : s.ledger.rows[i]? = some row) : ∃ c, s.transfers[i]? = some c := by
  have hi : i < s.ledger.rows.length := (List.getElem?_eq_some_iff.mp hrow).1
  rw [← h.sizes] at hi
  exact ⟨_, getElem?_eq_getElem hi⟩

theorem pollStatus_keeps {env : RelayEnv} {i : ℕ} {row : Row} {actor : Actor} (h : Inv cfg [] s)
    (hrow : s.ledger.rows[i]? = some row) :
    Inv cfg [] (pollStatus env s i row actor) ∧ Kept clock s (pollStatus env s i row actor) := by
  obtain heq | ⟨hopen, hreceiver, hw⟩ :
      pollStatus env s i row actor = s ∨ (row.receipt.state.isTerminal = false ∧
        row.receiverId ≠ "" ∧ Writes clock i row 0 s (pollStatus env s i row actor)) :=
    pollStatus_writes hrow
  · rw [heq]
    exact ⟨h, .of_ledger rfl⟩
  · obtain ⟨c, hc⟩ := h.transfer_of hrow
    have hphase := (h.transfers i c row hc hrow).phase
    refine ⟨h.writes hc hrow hw (fun row' _ hsame => ?_) (fun _ _ _ _ _ _ => rfl) fun _ ha => ha,
      hw.kept hrow hopen⟩
    have hcount : forwardCount row'.token (pollStatus env s i row actor).log =
        forwardCount row.token s.log := by
      rw [hsame.token, hw.count, if_pos rfl, Nat.add_zero]
    -- the receiver has accepted the transfer, so its row is no longer untouched
    cases hp : c.phase with
    | reserved =>
      rw [hp] at hphase
      exact absurd hphase.1.2 hreceiver
    | filed rid =>
      rw [hp] at hphase
      exact absurd hphase.1.2 hreceiver
    | waiting w =>
      rw [hp] at hphase
      obtain ⟨hreq, hgranted, hwait, hle, huntouched, hheard⟩ := hphase
      refine ⟨hreq, hgranted, hwait, ?_, fun heq => ?_, fun hpos => ?_⟩
      · rw [hcount]
        exact hle
      · exact absurd (huntouched heq).2 hreceiver
      · exact hheard (hcount ▸ hpos)
    | done =>
      rw [hp] at hphase
      simp only [PhaseOk, hcount]
      exact hphase

theorem Inv.answer {i : ℕ} {row : Row} (h : Inv cfg [] s) (hrow : s.ledger.rows[i]? = some row)
    (r : Receipt) : Inv cfg [] (s.emit (.answered row.actor (some i) r)) := by
  obtain ⟨c, hc⟩ := h.transfer_of hrow
  have hw : Writes (fun _ => True) i row 0 s (s.emit (.answered row.actor (some i) r)) :=
    writes_answered hrow r
  refine h.writes hc hrow hw (fun row' hrow' hsame => ?_) (fun _ _ _ _ _ _ => rfl) fun _ ha => ha
  have hrow' : s.ledger.rows[i]? = some row' := hrow'
  rw [hrow] at hrow'
  cases hrow'
  refine (h.transfers i c row hc hrow).phase.of_counts ?_ fun _ _ => rfl
  rw [hw.count, if_pos rfl, Nat.add_zero]

theorem getTransferStatus_keeps {env : RelayEnv} {sender : Sender} {transferId : String}
    (h : Inv cfg [] s) (hclock : clock env.clock) :
    Inv cfg [] (getTransferStatus cfg env s sender transferId) ∧
      Kept clock s (getTransferStatus cfg env s sender transferId) := by
  unfold getTransferStatus
  split
  · exact ⟨h.emit rfl, .of_ledger rfl⟩
  · rename_i actor _
    dsimp only
    have hexpire : Inv cfg [] { s with ledger := s.ledger.expire env.clock } :=
      h.fewer rfl fun e he => (mem_filter.mp he).1
    have hkept : Kept clock s { s with ledger := s.ledger.expire env.clock } := by
      refine ⟨.rfl, fun e he row hrow => ?_⟩
      by_cases hexp : row.expires ≤ env.clock
      · exact .inr ⟨env.clock, hclock, hexp⟩
      · exact .inl (Ledger.mem_expire he hrow hexp)
    split
    · exact ⟨hexpire.emit rfl, hkept.trans (.of_ledger rfl)⟩
    · rename_i i row hfind
      have hrow : s.ledger.rows[i]? = some row := by
        obtain ⟨j, -, hj⟩ := Option.bind_eq_some_iff.mp hfind
        obtain ⟨r, hr, heq⟩ := Option.map_eq_some_iff.mp hj
        cases heq
        exact hr
      split
      · exact ⟨hexpire.emit rfl, hkept.trans (.of_ledger rfl)⟩
      · rename_i hactor
        rw [not_not] at hactor
        subst hactor
        let t : System := { s with ledger := s.ledger.expire env.clock }
        obtain ⟨hpoll, hkept'⟩ :
            Inv cfg [] (pollStatus env t i row row.actor) ∧
              Kept clock t (pollStatus env t i row row.actor) := pollStatus_keeps hexpire hrow
        obtain ⟨row', hrow', hsame, -⟩ := hkept'.rows i row hrow
        have hanswer := hpoll.answer hrow' row'.receipt
        rw [hsame.actor] at hanswer
        rw [hrow']
        exact ⟨hanswer, (hkept.trans hkept').trans (.of_ledger rfl)⟩

theorem step_keeps {a : Action} (h : Inv cfg [] s) (hfresh : TokenFresh s a) :
    Inv cfg [] (step cfg s a) ∧ StepKept cfg s a (step cfg s a) := by
  cases a with
  | broker a env =>
    obtain ⟨hinv, hkept⟩ :
        Inv cfg [] (step cfg s (.broker a env)) ∧
          Kept (Reads cfg s (.broker a env)) s (step cfg s (.broker a env)) :=
      deliverAll_keeps h (step_moves h.broker.inv (Discipline.free_allows s.broker a))
        fun w hw => ⟨w, hw, rfl⟩
    exact ⟨hinv, hkept.step⟩
  | relayTransfer env call => exact relayTransfer_keeps h hfresh
  | resume env i =>
    unfold step
    dsimp only
    split
    · exact ⟨h, Kept.step (.of_ledger rfl)⟩
    · rename_i c hc
      obtain ⟨hinv, hkept⟩ :
          Inv cfg [] (resume cfg env s i c) ∧
            Kept (Reads cfg s (.resume env i)) s (resume cfg env s i c) := resume_keeps h hc rfl
      exact ⟨hinv, hkept.step⟩
  | getTransferStatus env sender transferId =>
    obtain ⟨hinv, hkept⟩ :
        Inv cfg [] (step cfg s (.getTransferStatus env sender transferId)) ∧
          Kept (Reads cfg s (.getTransferStatus env sender transferId)) s
            (step cfg s (.getTransferStatus env sender transferId)) :=
      getTransferStatus_keeps h rfl
    exact ⟨hinv, hkept.step⟩

end Steps

/-! ## Runs -/

/-- The transfer stays within its silo, or its own request is decided allow. -/
def Permitted (s : System) (c : Closure) : Prop :=
  c.actor.uid = c.uid ∨
    ∃ w r, c.phase = .waiting w ∧ s.broker.reqs w.rid = some r ∧ r.action = sendAction c ∧
      r.uid = c.actor.uid ∧ FinallyDecided s.broker w.rid true

theorem Inv.permitted {s : System} (h : Inv cfg [] s) {token : String}
    (hpos : 0 < forwardCount token s.log) :
    ∃ (i : ℕ) (c : Closure) (row : Row), s.transfers[i]? = some c ∧
      s.ledger.rows[i]? = some row ∧ row.token = token ∧ row.actor = c.actor ∧ Permitted s c := by
  obtain ⟨row, hmem, rfl⟩ := mem_map.mp (h.forwarded token hpos)
  obtain ⟨i, hrow⟩ := mem_iff_getElem?.mp hmem
  obtain ⟨c, hc⟩ := h.transfer_of hrow
  have hok := h.transfers i c row hc hrow
  refine ⟨i, c, row, hc, hrow, rfl, hok.owner, ?_⟩
  have hphase := hok.phase
  cases hp : c.phase with
  | reserved =>
    rw [hp] at hphase
    have hzero := hphase.2
    omega
  | filed rid =>
    rw [hp] at hphase
    have hzero := hphase.2.1
    omega
  | waiting w =>
    rw [hp] at hphase
    obtain ⟨hreq, hgranted, -, -, -, hheard⟩ := hphase
    obtain ⟨live, hanswer⟩ := hheard hpos
    obtain ⟨r, hr, haction, huid⟩ := hreq.request
    exact .inr ⟨w, r, hp, hr, haction, huid, hgranted live hanswer⟩
  | done =>
    rw [hp] at hphase
    exact .inl (hok.peer.trans (hphase.2 hpos))

/-- **Transfers are relayed once and their receipts are kept.**  In every run in which no
token is drawn twice: `ForwardTransfer` is called at most once for a token, and only for a
transfer within one silo or one whose request is decided allow; a receipt goes only to the
actor that reserved its row; from any state of the run on, a terminal receipt stays as it is;
and the entry of a row that is not terminal leaves the ledger only in a step that reads the
clock at or after the row's expiry. -/
theorem transfers_relayed_once (cfg : Broker.Config) (rules : List Rule) (cache : List CacheRow)
    (acts : List Action)
    (hfresh : Meets (step cfg) TokenFresh { broker := State.init rules cache } acts) :
    let start : System := { broker := State.init rules cache }
    let final := run (step cfg) start acts
    (∀ token, forwardCount token final.log ≤ 1) ∧
    (∀ token, 0 < forwardCount token final.log →
      ∃ (i : ℕ) (c : Closure) (row : Row), final.transfers[i]? = some c ∧
        final.ledger.rows[i]? = some row ∧ row.token = token ∧ row.actor = c.actor ∧
        Permitted final c) ∧
    (∀ actor (i : ℕ) r, .answered actor (some i) r ∈ final.log →
      ∃ row, final.ledger.rows[i]? = some row ∧ row.actor = actor) ∧
    (∀ before after, acts = before ++ after → ∀ (i : ℕ) row,
      (run (step cfg) start before).ledger.rows[i]? = some row →
      row.receipt.state.isTerminal = true →
      ∃ row', final.ledger.rows[i]? = some row' ∧ row'.receipt = row.receipt) ∧
    (∀ before a after, acts = before ++ a :: after →
      let s := run (step cfg) start before
      ∀ e ∈ s.ledger.entries, ∀ row, s.ledger.rows[e.2]? = some row →
        row.receipt.state.isTerminal = false → e ∉ (step cfg s a).ledger.entries →
        ∃ t, Reads cfg s a t ∧ row.expires ≤ t) := by
  intro start final
  have hinv : ∀ acts', Meets (step cfg) TokenFresh start acts' →
      Inv cfg [] (run (step cfg) start acts') := by
    intro acts' hmeets
    exact hmeets.invariant (fun s a hok h => (step_keeps h hok).1) (inv_init rules cache)
  have hfinal : Inv cfg [] final := hinv acts hfresh
  refine ⟨fun token => ?_, fun token hpos => hfinal.permitted hpos, hfinal.answered, ?_, ?_⟩
  · rcases Nat.eq_zero_or_pos (forwardCount token final.log) with hzero | hpos
    · omega
    · obtain ⟨i, c, row, hc, hrow, rfl, -⟩ := hfinal.permitted hpos
      exact hfinal.forwardCount_le hc hrow
  · intro before after hacts i row hrow hterm
    subst hacts
    obtain ⟨hbefore, hafter⟩ := Meets.append.mp hfresh
    have hkept : RowsKept (run (step cfg) start before) final := by
      have hrun : final = run (step cfg) (run (step cfg) start before) after := run_append _ _ _ _
      rw [hrun]
      exact hafter.relation (P := Inv cfg []) (fun _ => .rfl) (fun _ _ _ h h' => h.trans h')
        (fun s a hok h => (step_keeps h hok).1) (fun s a hok h => (step_keeps h hok).2.rows)
        (hinv before hbefore)
    obtain ⟨row', hrow', -, hsame⟩ := hkept i row hrow
    exact ⟨row', hrow', hsame hterm⟩
  · intro before a after hacts s e he row hrow hopen hgone
    subst hacts
    obtain ⟨hbefore, hafter⟩ := Meets.append.mp hfresh
    rcases (step_keeps (hinv before hbefore) hafter.1).2.entries e he row hrow hopen with
      hkept | hexpired
    · exact absurd hkept hgone
    · exact hexpired

/-! ## A transfer that is admitted -/

theorem loadObject_dumps {fields : List (String × Json)} (hdistinct : Distinct (.obj fields))
    (hplain : hasAny (fun v => isConstant v || isLongInt v) (.obj fields) = false)
    (hlen : ((dumps defaultSeps (.obj fields)).map Char.utf8Size).sum ≤ 8192) :
    loadObject (String.ofList (dumps defaultSeps (.obj fields))) = some fields := by
  rw [loadObject, utf8Length, String.toList_ofList, if_neg (Nat.not_lt.mpr hlen),
    dumps_eq_dumpsWith,
    loadsWith_dumpsWith parseString_escapeChar keepsDistinct_uniqueHook defaultSeps hdistinct]
  dsimp only
  rw [hplain]
  rfl

theorem transferTarget_admits {env : RelayEnv} {uid : ℤ} {service owner raw receiverOwner : String}
    {envelope : List (String × Json)} {caps : Capabilities} (huid : 0 ≤ uid)
    (hservice : serviceNameOk service = true) (howner : env.relayOwner = some owner)
    (hunique : isUnique owner = true) (hraw : env.capabilities = some raw)
    (hload : loadObject raw = some envelope)
    (hreceiver : identity false (PyDict.lookup envelope "owner") = some receiverOwner)
    (hafter : env.relayOwnerAfter = some owner) (hunique' : isUnique receiverOwner = true)
    (hcaps : Transfer.capabilities (String.ofList (dumps defaultSeps
      ((PyDict.lookup envelope "capabilities").getD .null))) = some caps) :
    transferTarget env uid service = some (owner, receiverOwner, caps) := by
  have hneg : ¬ uid < 0 := by omega
  simp [transferTarget, hneg, hservice, howner, hunique, hraw, hload, hreceiver, hafter, hunique',
    hcaps]

theorem relayTransfer_reserves {env : RelayEnv} {s : System} {call : RelayCall} {actor : Actor}
    {instanceId owner receiverOwner : String} {caps : Capabilities} {l : Ledger} {n : ℕ}
    (hactor : transferActor cfg env call.sender = some actor)
    (hid : identity false (some (.str call.expectedInstance)) = some instanceId)
    (hinput : (call.payload.toList.any (fun ch => ch.toNat == 0) ||
      maxBytes < utf8Length call.payload || call.targetUid < 0 ||
      !serviceNameOk call.targetService) = false)
    (htarget : transferTarget env call.targetUid call.targetService =
      some (owner, receiverOwner, caps))
    (hinstance : caps.instanceId = instanceId)
    (hpayload : payloadAccepted call.kind call.payload caps = true)
    (hreserve : s.ledger.reserve env.clock env.clockLater env.token actor
      ⟨call.targetUid, call.targetService, owner, receiverOwner⟩ instanceId = (l, some n)) :
    relayTransfer cfg env s call =
      { s with
        ledger := l
        transfers := s.transfers ++
          [{ sender := call.sender, actor := actor, uid := call.targetUid
             service := call.targetService, receiverOwner := receiverOwner
             instanceId := instanceId, kind := call.kind, value := call.payload }] } := by
  rw [relayTransfer, hactor]
  dsimp only
  rw [hid]
  dsimp only
  rw [hinput, htarget]
  simp only [Bool.false_eq_true, if_false, Option.filter_some, hinstance, BEq.rfl, if_true,
    hpayload, Bool.not_true, hreserve]

/-- What a receiver in another silo says of itself. -/
def notesFields : List (String × Json) :=
  [("version", .int 1), ("instance_id", .str "i1"), ("kinds", .arr [.str "text"]),
    ("max_bytes", .int 9), ("encoding", .str "utf-8"), ("available", .bool true),
    ("confirmation_required", .bool true)]

def notesEnvelope : List (String × Json) :=
  [("owner", .str ":1.21"), ("capabilities", .obj notesFields)]

def notesCaps : Capabilities := ⟨"i1", ["text"], 9, true, true, ""⟩

/-- The relay knows the receiver; the answer to `ForwardTransfer` is lost. -/
def notesEnv : RelayEnv where
  host := sampleEnv 0 true
  peerKnown := true
  siloState := fun _ => some "Active"
  clock := 0
  clockLater := 0
  token := "3f9a"
  relayOwner := some ":1.20"
  capabilities := some (String.ofList (dumps defaultSeps (.obj notesEnvelope)))
  relayOwnerAfter := some ":1.20"
  forwardReply := none
  statusReply := none

theorem capabilities_notes :
    capabilities (String.ofList (dumps defaultSeps (.obj notesFields))) = some notesCaps := by
  have hload : loadObject (String.ofList (dumps defaultSeps (.obj notesFields))) =
      some notesFields := by
    apply loadObject_dumps
    · simp [Distinct, DistinctFields, DistinctItems, notesFields]
    · decide +kernel
    · decide +kernel
  rw [capabilities, hload]
  decide +kernel

theorem transferTarget_notes :
    transferTarget notesEnv 1001 "org.qdistro.Notes" = some (":1.20", ":1.21", notesCaps) := by
  have hload : loadObject (String.ofList (dumps defaultSeps (.obj notesEnvelope))) =
      some notesEnvelope := by
    apply loadObject_dumps
    · simp [Distinct, DistinctFields, DistinctItems, notesEnvelope, notesFields]
    · decide +kernel
    · decide +kernel
  exact transferTarget_admits (by decide) (by decide +kernel) rfl (by decide +kernel) rfl hload
    (by decide +kernel) rfl (by decide +kernel) capabilities_notes

def notesActor : Actor := ⟨1000, 77, "/usr/bin/app", 500⟩

/-- A transfer to the receiver has reserved its row. -/
def notesReserved : System where
  broker := State.init [] []
  ledger :=
    { rows :=
        [{ token := "3f9a", actor := notesActor
           route := ⟨1001, "org.qdistro.Notes", ":1.20", ":1.21"⟩, expires := ttl
           receipt := receipt "i1" "3f9a" .staged "awaiting dispatch" }]
      entries := [("3f9a", 0)] }
  transfers :=
    [{ sender := alice, actor := notesActor, uid := 1001, service := "org.qdistro.Notes"
       receiverOwner := ":1.21", instanceId := "i1", kind := "text", value := "hello" }]

def notesCall : RelayCall := ⟨alice, 1001, "org.qdistro.Notes", "i1", "text", "hello"⟩

theorem relayTransfer_notes :
    relayTransfer sampleConfig notesEnv { broker := State.init [] [] } notesCall = notesReserved := by
  have hactor : transferActor sampleConfig notesEnv alice = some notesActor := by decide +kernel
  exact relayTransfer_reserves hactor (by decide +kernel) (by decide +kernel) transferTarget_notes
    rfl (by decide +kernel) rfl

/-- The transfer files its request and waits; an admin approves it. -/
def approveTransfer : List Action :=
  [.resume notesEnv 0, .resume notesEnv 0,
    .broker (.call (sampleEnv 0 true) (.decideRequest alice 1 "allow" "once")) fun _ => notesEnv,
    .broker (.resume (sampleEnv 0 true) 0) fun _ => notesEnv,
    .broker (.resume (sampleEnv 0 true) 0) fun _ => notesEnv,
    .broker (.resume (sampleEnv 0 true) 0) fun _ => notesEnv]

theorem run_notes :
    run (step sampleConfig) { broker := State.init [] [] }
        (.relayTransfer notesEnv notesCall :: approveTransfer) =
      run (step sampleConfig) notesReserved approveTransfer := by
  rw [run_cons, step, relayTransfer_notes]

theorem forwardCount_notes :
    forwardCount "3f9a" (run (step sampleConfig) notesReserved approveTransfer).log = 1 := by
  decide +kernel

theorem transfers_relayed_once_notes :
    let final := run (step sampleConfig) { broker := State.init [] [] }
      (.relayTransfer notesEnv notesCall :: approveTransfer)
    0 < forwardCount "3f9a" final.log ∧
      ∃ (i : ℕ) (c : Closure) (row : Row), final.transfers[i]? = some c ∧
        final.ledger.rows[i]? = some row ∧ row.token = "3f9a" ∧ row.actor = c.actor ∧
        Permitted final c := by
  -- only the first step draws a token, and no row is reserved before it
  have hfresh : Meets (step sampleConfig) TokenFresh { broker := State.init [] [] }
      (.relayTransfer notesEnv notesCall :: approveTransfer) :=
    ⟨List.not_mem_nil, trivial, trivial, trivial, trivial, trivial, trivial, trivial⟩
  have hpos : 0 < forwardCount "3f9a" (run (step sampleConfig) { broker := State.init [] [] }
      (.relayTransfer notesEnv notesCall :: approveTransfer)).log := by
    rw [run_notes, forwardCount_notes]
    exact Nat.one_pos
  exact ⟨hpos, (transfers_relayed_once sampleConfig [] [] _ hfresh).2.1 "3f9a" hpos⟩

end Transfer
