/-
# When the primary may call the panel safe

The agent of the primary answers "safe" or "restored" for one of four reasons: the peer said so,
the peer released the panel, the peer confirmed its restoration, or the connection is gone and the
agent's own deadline has passed.  The last is right as long as that deadline is not earlier than
the peer's.  It is set when a response arrives, so after the peer's own renewal; but a renewal
whose response is lost moves the peer's deadline alone (`lostRenewal_disagrees`).

The invariant `Inv` compares the two deadlines through every delay and loss.  It holds in every
run in which the grants of the peer are acknowledged (`safe_answers_agree`).
-/
import QDistro.PanelLink
import QDistro.PanelExpiry

namespace PanelControl

open JsonText DisplayDock RemoteNested PanelLeaseState PanelLink

/-! ## Messages -/

theorem ofText_text (kind : PanelKind) : PanelKind.ofText kind.text = some kind := by
  cases kind <;> rfl

theorem resultOfText_text (r : PanelResult) : PanelResult.ofText r.text = some r := by
  cases r <;> rfl

theorem acceptRequest_requestJson (py : PyJson) (spec : PanelLeaseSpec) (last seq : ℤ)
    (kind : PanelKind) :
    acceptRequest py spec last (requestJson spec seq kind) =
      if seq = last + 1 then .ok (seq, kind)
      else .error (controlError "panel request sequence is invalid") := by
  unfold acceptRequest requestJson
  dsimp only
  rw [if_pos (show hasExactly _ requestFields = true from rfl),
    if_pos (by simp [itemOf, List.lookup_cons, eqText, PyJson.eqInt])]
  show (if seq = last + 1 then (requestKind (.str kind.text)).map fun kind => (seq, kind)
    else _) = _
  rw [requestKind, ofText_text]
  rfl

theorem readResponse_restored (py : PyJson) (spec : PanelLeaseSpec) (seq : ℤ) (kind : PanelKind) :
    readResponse py spec seq kind (restoredJson spec) = .error peerRestored := by
  unfold readResponse restoredJson
  dsimp only
  rw [if_pos]
  simp [itemOf, List.lookup_cons, eqText, PyJson.eqInt]
  rfl

theorem text_injective {k k' : PanelKind} (h : k.text = k'.text) : k = k' := by
  have htext := congrArg PanelKind.ofText h
  rw [ofText_text, ofText_text] at htext
  exact Option.some.inj htext

theorem readResponse_response (py : PyJson) (spec : PanelLeaseSpec) (seq n : ℤ)
    (kind k : PanelKind) (r : PanelResult) :
    readResponse py spec seq kind (responseJson n k r) =
      if n = seq ∧ k = kind then .ok r else .error (controlError "panel response is invalid") := by
  unfold readResponse responseJson
  dsimp only
  rw [show hasExactly _ ["schema", "event", "session_id", "generation", "slot_name"] = false from rfl]
  show (if (_ && (n == seq) && (k.text == kind.text)) = true then
    responseResult (.str r.text) else _) = _
  rw [responseResult, resultOfText_text]
  by_cases hmatch : n = seq ∧ k = kind
  · obtain ⟨rfl, rfl⟩ := hmatch
    rw [if_pos (by simp [hasExactly, itemOf, eqText]), if_pos ⟨rfl, rfl⟩]
  · rw [if_neg hmatch, if_neg]
    simp only [Bool.and_eq_true, beq_iff_eq]
    rintro ⟨⟨-, hseq⟩, hkind⟩
    exact hmatch ⟨hseq, text_injective hkind⟩

/-! ## The lease under one step of the peer -/

/-- The lease is as it was, or closed. -/
def Lessens (s s' : PanelLeaseState) : Prop := s' = s ∨ s' = .closed

theorem Lessens.trans {a b c : PanelLeaseState} (h : Lessens a b) (h' : Lessens b c) :
    Lessens a c := by
  rcases h' with rfl | rfl
  · exact h
  · exact .inr rfl

variable {s : PanelLeaseState}

theorem Lessens.reserved {s' : PanelLeaseState} (h : Lessens s s')
    (hreserved : s'.reserved = true) :
    s' = s := by
  rcases h with rfl | rfl
  · rfl
  · cases hreserved

theorem Lessens.over {s' : PanelLeaseState} (h : Lessens s s')
    (hover : s.terminal = true ∧ s.reserved = false) :
    s'.terminal = true ∧ s'.reserved = false := by
  rcases h with rfl | rfl
  · exact hover
  · exact ⟨rfl, rfl⟩

theorem grant_spec {spec : PanelLeaseSpec} {kind : PanelKind} {e : PanelEnv}
    (h : isGrant kind (kind.run spec s e).result = true) :
    s.terminal = false ∧
      (kind.run spec s e).state = ⟨true, some (e.renewed + spec.heartbeat), false⟩ ∧
      ((kind = .reserve ∧ (kind.run spec s e).result = .ok .reserved) ∨
        (kind = .heartbeat ∧ (kind.run spec s e).result = .ok .renewed ∧ s.reserved = true ∧
          s.expired spec e = false)) := by
  cases kind with
  | reserve =>
    unfold PanelKind.run reserve at h ⊢
    dsimp only at h ⊢
    split at h
    · cases h
    next hterminal =>
    split at h
    · cases h
    next hwall =>
    rw [if_neg hterminal, if_neg hwall]
    have hlive : s.terminal = false := by simpa using hterminal
    split at h
    · next hreserved =>
      rw [if_pos hreserved]
      exact ⟨hlive, by rw [renewDeadline, hreserved, hlive], .inl ⟨rfl, rfl⟩⟩
    · next hfree =>
      rw [if_neg hfree]
      cases hblank : e.blank with
      | some err =>
        rw [hblank] at h
        cases h
      | none => exact ⟨hlive, by simp [renewDeadline, hlive], .inl ⟨rfl, rfl⟩⟩
  | heartbeat =>
    unfold PanelKind.run heartbeat at h ⊢
    dsimp only at h ⊢
    split at h
    · cases h
    next hheld =>
    rw [if_neg hheld]
    simp only [Bool.or_eq_true, Bool.not_eq_true', not_or, Bool.not_eq_true,
      Bool.not_eq_false] at hheld
    split at h
    · rcases expire_reserved e hheld.2 with ⟨err, -, ho⟩ | ho
      · rw [ho] at h
        cases h
      · rw [ho] at h
        cases h
    · next hfresh =>
      rw [if_neg hfresh]
      refine ⟨hheld.1, by rw [renewDeadline, hheld.1, hheld.2],
        .inr ⟨rfl, rfl, hheld.2, ?_⟩⟩
      simpa using hfresh
  | release => cases h
  | status => cases h

theorem run_lessens {spec : PanelLeaseSpec} {kind : PanelKind} {e : PanelEnv}
    (hwf : s.terminal = true → s.reserved = false)
    (h : isGrant kind (kind.run spec s e).result = false) :
    Lessens s (kind.run spec s e).state := by
  have hspec : CallSpec spec s ⟨s, .request kind, e, (PanelCall.request kind).run spec s e⟩ :=
    call_spec hwf rfl
  rcases hspec with hrenewed | hclosed | hkept
  · exfalso
    have hgrants := hrenewed.grants
    have hcall := hrenewed.call
    simp only [PanelEvent.grants, PanelCall.run, Outcome.map] at hgrants
    rcases hresult : (kind.run spec s e).result with err | r
    · rw [hresult] at hgrants
      cases hgrants
    · rw [hresult] at h
      rcases hcall with hcall | ⟨hcall, -⟩
      · cases hcall
        cases h
      · cases hcall
        cases h
  · exact .inr hclosed.state
  · exact .inl hkept.state

theorem expire_lessens (s : PanelLeaseState) (e : PanelEnv) : Lessens s (s.expire e).state := by
  unfold expire
  split
  · split
    · exact .inl rfl
    · exact .inr rfl
  · exact .inl rfl

theorem tick_lessens (spec : PanelLeaseSpec) (s : PanelLeaseState) (e : PanelEnv) :
    Lessens s (s.tick spec e).state := by
  unfold tick
  split
  · exact expire_lessens s e
  · exact .inl rfl

theorem status_state (spec : PanelLeaseSpec) (s : PanelLeaseState) (e : PanelEnv) :
    (s.status spec e).state = (s.tick spec e).state := by
  unfold status
  dsimp only
  split
  · rfl
  · split <;> rfl

theorem status_safe {spec : PanelLeaseSpec} {e : PanelEnv}
    (h : (s.status spec e).result = .ok .safe) : (s.status spec e).state.reserved = false := by
  unfold status at h ⊢
  dsimp only at h ⊢
  split at h
  · cases h
  · split at h
    · cases h
    · next hfree =>
      rw [if_neg hfree]
      simpa using hfree

theorem release_closed {e : PanelEnv} {r : PanelResult} (h : (s.release e).result = .ok r) :
    (s.release e).state = .closed := by
  unfold release at h ⊢
  split
  · next hreserved =>
    rw [if_pos hreserved] at h
    cases hrestore : e.restore with
    | some err =>
      rw [hrestore] at h
      cases h
    | none => rfl
  · rfl

theorem finishServing_spec (spec : PanelLeaseSpec) (e : PanelEnv)
    (hwf : s.terminal = true → s.reserved = false) :
    Lessens s (finishServing spec s e).1 ∧
      ((finishServing spec s e).2 = true →
        (finishServing spec s e).1.terminal = true ∧ (finishServing spec s e).1.reserved = false) := by
  have hexpire := expire_lessens s e
  have hstatus : ∀ s : PanelLeaseState, Lessens s (s.status spec e).state := by
    intro s
    rw [status_state]
    exact tick_lessens spec s e
  unfold finishServing
  dsimp only
  split
  · exact ⟨hexpire, fun h => (Bool.false_ne_true h).elim⟩
  · next restored hrestored =>
    split
    · next hdone =>
      refine ⟨hexpire.trans (hstatus _), fun _ => (hstatus _).over ?_⟩
      rw [Bool.or_eq_true] at hdone
      rcases hdone with rfl | hterminal
      · -- `expire` returned true, so it closed the lease
        unfold expire at hrestored ⊢
        split
        · next hreserved =>
          rw [if_pos hreserved] at hrestored
          cases hrestore : e.restore with
          | some err =>
            rw [hrestore] at hrestored
            cases hrestored
          | none => exact ⟨rfl, rfl⟩
        · next hfree =>
          rw [if_neg hfree] at hrestored
          cases hrestored
      · rcases hexpire with heq | heq
        · rw [heq] at hterminal ⊢
          exact ⟨hterminal, hwf hterminal⟩
        · rw [heq]
          exact ⟨rfl, rfl⟩
    · exact ⟨hexpire, fun h => (Bool.false_ne_true h).elim⟩

/-! ## The invariant -/

namespace PanelLink

/-- What the last response of the peer says about its lease. -/
def Consistent (l : PanelLink) (kind : PanelKind) (r : PanelResult) : Prop :=
  match kind with
  | .reserve => r = .reserved ∧ ∃ t, l.granted = some (l.peer.lastSeq, t)
  | .heartbeat => r = .renewed ∧ ∃ t, l.granted = some (l.peer.lastSeq, t)
  | .release => l.peer.lease.reserved = false
  | .status => r = .safe → l.peer.lease.reserved = false

/-- A request in flight: the last one is the one that the primary waits for. -/
def RequestOk (spec : PanelLeaseSpec) (l : PanelLink) (v : Json) : Prop :=
  ∃ n kind, v = requestJson spec n kind ∧ n ≤ l.seq ∧
    ∀ action w, l.waiting = some (action, w) → n = l.seq → kind = w.kind

/-- A message of the peer in flight. -/
def ResponseOk (spec : PanelLeaseSpec) (l : PanelLink) (v : Json) : Prop :=
  (v = restoredJson spec ∧ l.peer.lease.terminal = true ∧ l.peer.lease.reserved = false) ∨
    ∃ n kind r, v = responseJson n kind r ∧ n ≤ l.peer.lastSeq ∧
      (n = l.peer.lastSeq → l.Consistent kind r)

/-- The two deadlines, on the common time: the agent's is later than the peer's, or the agent
believes nothing and will not learn more. -/
def Ordered (o : Offsets) (l : PanelLink) : Prop :=
  ∀ d, l.peer.lease.reserved = true → l.peer.lease.deadline = some d →
    (∃ D, l.agent.deadline = some D ∧ d - o.peer < D - o.primary) ∨
      (l.noBelief ∧ l.closed = true)

structure Inv (spec : PanelLeaseSpec) (o : Offsets) (l : PanelLink) : Prop where
  wf : l.peer.lease.terminal = true → l.peer.lease.reserved = false
  dated : l.peer.lease.reserved = true → ∃ d, l.peer.lease.deadline = some d
  seqs : l.peer.lastSeq ≤ l.seq
  idle : l.closed = false → l.waiting = none → l.peer.lastSeq = l.seq
  busy : l.waiting ≠ none → l.closed = false ∧ l.seq ≤ l.peer.lastSeq + 1
  requests : ∀ v ∈ l.requests, l.RequestOk spec v
  responses : ∀ v ∈ l.responses, l.ResponseOk spec v
  grantSeq : ∀ n t, l.granted = some (n, t) → n ≤ l.peer.lastSeq
  grantTime : ∀ n t d, l.granted = some (n, t) → l.peer.lease.reserved = true →
    l.peer.lease.deadline = some d → d = t + o.peer + spec.heartbeat
  ordered : l.awaitsGrant = false → l.Ordered o
  belief : l.agent.safe = true → l.Held o →
    l.awaitsGrant = true ∧ ∃ action, l.waiting = some (action, .blank)

variable {py : PyJson} {spec : PanelLeaseSpec} {o : Offsets}

theorem Inv.init (now : ℚ) : Inv spec o { now := now } where
  wf h := by cases h
  dated h := by cases h
  seqs := le_rfl
  idle _ _ := rfl
  busy h := absurd rfl h
  requests v hv := by cases hv
  responses v hv := by cases hv
  grantSeq n t h := by cases h
  grantTime n t d h := by cases h
  ordered _ d h := by cases h
  belief h := by cases h

variable {l : PanelLink}

theorem Held.of_later {l' : PanelLink} (h : l'.Held o)
    (hlease : Lessens l.peer.lease l'.peer.lease) (hnow : l.now ≤ l'.now) : l.Held o := by
  obtain ⟨hreserved, d, hd, hle⟩ := h
  have heq := hlease.reserved hreserved
  rw [heq] at hreserved hd
  exact ⟨hreserved, d, hd, by linarith⟩

theorem Inv.weaken {l' : PanelLink} (h : Inv spec o l) (hagent : l'.agent = l.agent)
    (hseq : l'.seq = l.seq) (hclosed : l'.closed = l.closed) (hwaiting : l'.waiting = l.waiting)
    (hlast : l'.peer.lastSeq = l.peer.lastSeq) (hgranted : l'.granted = l.granted)
    (hlease : Lessens l.peer.lease l'.peer.lease) (hnow : l.now ≤ l'.now)
    (hrequests : l'.requests ⊆ l.requests) (hresponses : l'.responses ⊆ l.responses) :
    Inv spec o l' := by
  have hawaits : l'.awaitsGrant = l.awaitsGrant := by
    unfold awaitsGrant
    rw [hwaiting, hgranted, hseq]
  have hfree : l.peer.lease.reserved = false → l'.peer.lease.reserved = false := by
    intro hfree
    by_contra hreserved
    rw [Bool.not_eq_false] at hreserved
    have heq := hlease.reserved hreserved
    rw [heq, hfree] at hreserved
    cases hreserved
  refine ⟨?_, ?_, ?_, ?_, ?_, ?_, ?_, ?_, ?_, ?_, ?_⟩
  · intro hterminal
    by_contra hreserved
    rw [Bool.not_eq_false] at hreserved
    have heq := hlease.reserved hreserved
    rw [heq] at hterminal hreserved
    rw [h.wf hterminal] at hreserved
    cases hreserved
  · intro hreserved
    have heq := hlease.reserved hreserved
    rw [heq] at hreserved ⊢
    exact h.dated hreserved
  · rw [hlast, hseq]
    exact h.seqs
  · rw [hlast, hseq, hclosed, hwaiting]
    exact h.idle
  · rw [hlast, hseq, hclosed, hwaiting]
    exact h.busy
  · intro v hv
    have hok := h.requests v (hrequests hv)
    unfold RequestOk at hok ⊢
    rw [hseq, hwaiting]
    exact hok
  · intro v hv
    rcases h.responses v (hresponses hv) with ⟨hv, hover⟩ | ⟨n, kind, r, hv, hn, hconsistent⟩
    · exact .inl ⟨hv, hlease.over hover⟩
    · refine .inr ⟨n, kind, r, hv, by rw [hlast]; exact hn, ?_⟩
      intro heq
      rw [hlast] at heq
      have hconsistent := hconsistent heq
      cases kind with
      | reserve =>
        unfold Consistent at hconsistent ⊢
        rw [hgranted, hlast]
        exact hconsistent
      | heartbeat =>
        unfold Consistent at hconsistent ⊢
        rw [hgranted, hlast]
        exact hconsistent
      | release => exact hfree hconsistent
      | status => exact fun hr => hfree (hconsistent hr)
  · rw [hgranted, hlast]
    exact h.grantSeq
  · intro n t d hg hreserved hd
    rw [hgranted] at hg
    have heq := hlease.reserved hreserved
    rw [heq] at hreserved hd
    exact h.grantTime n t d hg hreserved hd
  · intro hnot d hreserved hd
    have heq := hlease.reserved hreserved
    rw [heq] at hreserved hd
    rw [hawaits] at hnot
    have hordered := h.ordered hnot d hreserved hd
    unfold noBelief at hordered ⊢
    rw [hagent, hclosed]
    exact hordered
  · rw [hagent, hawaits, hwaiting]
    intro hsafe hheld
    exact h.belief hsafe (hheld.of_later hlease hnow)

theorem Inv.addResponse {v : Json} (h : Inv spec o l) (hv : l.ResponseOk spec v) :
    Inv spec o { l with responses := l.responses ++ [v] } := by
  refine { h with responses := ?_ }
  intro u hu
  rcases List.mem_append.mp hu with hu | hu
  · exact h.responses u hu
  · rw [List.mem_singleton.mp hu]
    exact hv

theorem Inv.finish (h : Inv spec o l) (e : PanelEnv) :
    Inv spec o (l.finish spec e) := by
  obtain ⟨hlease, hconfirmed⟩ := finishServing_spec spec e h.wf
  unfold PanelLink.finish
  rcases hf : finishServing spec l.peer.lease e with ⟨lease, confirmed⟩
  rw [hf] at hlease hconfirmed
  dsimp only at hlease hconfirmed ⊢
  have hbase : Inv spec o { l with peer := { l.peer with lease := lease }, serving := false } :=
    h.weaken rfl rfl rfl rfl rfl rfl hlease le_rfl (.refl _) (.refl _)
  cases confirmed with
  | false => exact hbase
  | true => exact hbase.addResponse (.inl ⟨rfl, hconfirmed rfl⟩)

/-! ## The agent -/

theorem deadlineSafe_deadline (a : PrimaryPanelAgent) (t : ℚ) :
    (a.deadlineSafe t).deadline = a.deadline := by
  unfold PrimaryPanelAgent.deadlineSafe
  split
  · split <;> rfl
  · rfl

variable {a : PrimaryPanelAgent} {t : ℚ}

theorem deadlineSafe_safe (h : (a.deadlineSafe t).safe = true) :
    a.safe = true ∨ ∃ D, a.deadline = some D ∧ D ≤ t := by
  unfold PrimaryPanelAgent.deadlineSafe at h
  split at h
  · next D _ hD =>
    split at h
    · next hle => exact .inr ⟨D, hD, hle⟩
    · exact .inl h
  · exact .inl h

theorem failClosed_deadline (a : PrimaryPanelAgent) (error : PyError) (t : ℚ) :
    (a.failClosed error t).deadline = a.deadline := deadlineSafe_deadline _ _

theorem failClosed_safe {error : PyError} (h : (a.failClosed error t).safe = true) :
    a.safe = true ∨ error.name = "PanelPeerRestored" ∨ ∃ D, a.deadline = some D ∧ D ≤ t := by
  rcases deadlineSafe_safe h with h | h
  · rw [Bool.or_eq_true, decide_eq_true_eq] at h
    rcases h with h | h
    · exact .inl h
    · exact .inr (.inl h)
  · exact .inr (.inr h)

theorem Inv.not_held (h : Inv spec o l) (hsafe : l.agent.safe = true)
    (hwaiting : l.waiting = none) : ¬l.Held o := by
  intro hheld
  obtain ⟨-, action, hblank⟩ := h.belief hsafe hheld
  rw [hwaiting] at hblank
  cases hblank

theorem Ordered.not_held {D : ℚ} (h : l.Ordered o) (hD : l.agent.deadline = some D)
    (ht : D ≤ t + o.primary) : ¬{ l with now := t }.Held o := by
  rintro ⟨hreserved, d, hd, hle⟩
  rcases h d hreserved hd with ⟨D', hD', hlt⟩ | ⟨⟨-, hnone⟩, -⟩
  · rw [hD] at hD'
    obtain rfl := Option.some.inj hD'
    dsimp only at hle
    linarith
  · rw [hD] at hnone
    cases hnone

theorem Inv.settle (h : Inv spec o l) {c : Bool} (hidle : c = false → l.peer.lastSeq = l.seq)
    (hordered : { l with agent := a, closed := c, waiting := none, now := t }.Ordered o)
    (hbelief : a.safe = true → ¬{ l with now := t }.Held o) :
    Inv spec o { l with agent := a, closed := c, waiting := none, now := t } := by
  refine { h with idle := ?_, busy := ?_, requests := ?_, responses := ?_, ordered := ?_, belief := ?_ }
  · intro hc _
    exact hidle hc
  · intro hwaiting
    exact absurd rfl hwaiting
  · intro v hv
    obtain ⟨n, kind, hv, hn, -⟩ := h.requests v hv
    exact ⟨n, kind, hv, hn, fun action w hw => by cases hw⟩
  · exact h.responses
  · exact fun _ => hordered
  · intro hsafe hheld
    exact absurd hheld (hbelief hsafe)

theorem Inv.giveUp (h : Inv spec o l) (action : DockAction) {error : PyError} (hnow : l.now ≤ t)
    (hawaits : l.awaitsGrant = true → l.noBelief ∨ l.peer.lease.reserved = false)
    (herror : error.name = "PanelPeerRestored" → l.peer.lease.reserved = false) :
    Inv spec o (l.giveUp o action error t).1 := by
  have hheld : { l with now := t }.Held o → l.Held o := fun hheld => hheld.of_later (.inl rfl) hnow
  -- what the agent believes after `fail_closed`, if the panel is reserved
  have hbelief : l.peer.lease.reserved = true → l.noBelief →
      (l.agent.failClosed error (t + o.primary)).safe = true → False := by
    rintro hreserved ⟨hbad, hnone⟩ hsafe
    rcases failClosed_safe hsafe with hsafe | hname | ⟨D, hD, -⟩
    · rw [hbad] at hsafe
      cases hsafe
    · rw [herror hname] at hreserved
      cases hreserved
    · rw [hnone] at hD
      cases hD
  refine h.settle (fun hc => by cases hc) ?_ ?_
  · intro d hreserved hd
    have hkeep : l.noBelief →
        { l with agent := l.agent.failClosed error (t + o.primary), closed := true,
                 waiting := none, now := t }.noBelief := by
      intro hnone
      refine ⟨?_, (failClosed_deadline _ _ _).trans hnone.2⟩
      by_contra hsafe
      exact hbelief hreserved hnone (Bool.not_eq_false _ ▸ hsafe)
    rcases hgrant : l.awaitsGrant with _ | _
    · rcases h.ordered hgrant d hreserved hd with ⟨D, hD, hlt⟩ | ⟨hnone, -⟩
      · exact .inl ⟨D, (failClosed_deadline _ _ _).trans hD, hlt⟩
      · exact .inr ⟨hkeep hnone, rfl⟩
    · rcases hawaits hgrant with hnone | hfree
      · exact .inr ⟨hkeep hnone, rfl⟩
      · have hreserved : l.peer.lease.reserved = true := hreserved
        rw [hfree] at hreserved
        cases hreserved
  · intro hsafe hnowheld
    have hreserved : l.peer.lease.reserved = true := hnowheld.1
    have hnot : l.awaitsGrant = false := by
      by_contra hgrant
      rcases hawaits (Bool.not_eq_false _ ▸ hgrant) with hnone | hfree
      · exact hbelief hreserved hnone hsafe
      · rw [hfree] at hreserved
        cases hreserved
    rcases failClosed_safe hsafe with hsafe | hname | ⟨D, hD, hle⟩
    · have hgrant := (h.belief hsafe (hheld hnowheld)).1
      rw [hnot] at hgrant
      cases hgrant
    · rw [herror hname] at hreserved
      cases hreserved
    · exact (h.ordered hnot).not_held hD hle hnowheld

theorem Inv.request (h : Inv spec o l) (action : DockAction) (w : Waiting) (hnow : l.now ≤ t)
    (hlast : l.peer.lastSeq = l.seq) (hclosed : l.closed = false) (hnot : l.awaitsGrant = false) :
    Inv spec o { l with
      seq := l.seq + 1
      now := t
      waiting := some (action, w)
      requests := l.requests ++ [requestJson spec (l.seq + 1) w.kind] } := by
  set l' : PanelLink := { l with
    seq := l.seq + 1
    now := t
    waiting := some (action, w)
    requests := l.requests ++ [requestJson spec (l.seq + 1) w.kind] } with hl'
  have hheld : l'.Held o → l.Held o := fun hheld => hheld.of_later (.inl rfl) hnow
  refine { h with seqs := ?_, idle := ?_, busy := ?_, requests := ?_, responses := ?_, ordered := ?_, belief := ?_ }
  · show l.peer.lastSeq ≤ l.seq + 1
    omega
  · intro _ hwaiting
    cases hwaiting
  · intro _
    exact ⟨hclosed, by show l.seq + 1 ≤ l.peer.lastSeq + 1; omega⟩
  · intro v hv
    rcases List.mem_append.mp hv with hv | hv
    · obtain ⟨n, kind, hv, hn, -⟩ := h.requests v hv
      refine ⟨n, kind, hv, by show n ≤ l.seq + 1; omega, ?_⟩
      intro action w hw heq
      have heq : n = l.seq + 1 := heq
      omega
    · refine ⟨l.seq + 1, w.kind, List.mem_singleton.mp hv, le_rfl, ?_⟩
      intro action' w' hw' _
      cases hw'
      rfl
  · exact h.responses
  · exact fun _ => h.ordered hnot
  · intro hsafe hheld'
    have hgrant := (h.belief hsafe (hheld hheld')).1
    rw [hnot] at hgrant
    cases hgrant

/-! ## Steps -/

/-- The invariant, and an answer that rests on a belief of the agent. -/
def Sound (spec : PanelLeaseSpec) (o : Offsets) (res : PanelLink × Option PrimaryAnswer) : Prop :=
  Inv spec o res.1 ∧ ∀ answer, res.2 = some answer → answer.saysSafe = true →
    res.1.agent.safe = true ∧ res.1.waiting = none

theorem safe_of_saysSafe {safe : Bool} {answer : PrimaryAnswer}
    (h : (if safe then answer else .unsafePanel).saysSafe = true) : safe = true := by
  cases safe with
  | true => rfl
  | false => cases h

theorem failAnswer_safe {action : DockAction} {answer : PrimaryAnswer}
    (h : failAnswer a action = some answer) : a.safe = true := by
  unfold failAnswer at h
  cases hsafe : a.safe with
  | true => rfl
  | false =>
    rw [hsafe] at h
    cases action <;> cases h

theorem Inv.giveUp_sound (h : Inv spec o l) (action : DockAction) {error : PyError}
    (hnow : l.now ≤ t)
    (hawaits : l.awaitsGrant = true → l.noBelief ∨ l.peer.lease.reserved = false)
    (herror : error.name = "PanelPeerRestored" → l.peer.lease.reserved = false) :
    Sound spec o (l.giveUp o action error t) := by
  refine ⟨h.giveUp action hnow hawaits herror, ?_⟩
  intro answer hanswer _
  exact ⟨failAnswer_safe hanswer, rfl⟩

theorem awaitsGrant_of_idle (h : l.waiting = none) : l.awaitsGrant = false := by
  rw [awaitsGrant, h]

section

variable (h : Inv spec o l)
include h

theorem Inv.send_sound (action : DockAction) (w : Waiting) (hnow : l.now ≤ t)
    (hlast : l.closed = false → l.peer.lastSeq = l.seq) (hnot : l.awaitsGrant = false) :
    Sound spec o (l.send spec o action w t) := by
  unfold send
  dsimp only
  split
  · next hclosed =>
    have hwaiting : l.waiting = none := by
      by_contra hwaiting
      rw [(h.busy hwaiting).1] at hclosed
      cases hclosed
    have hbase : Inv spec o { l with seq := l.seq + 1, now := t } := by
      refine { h with seqs := ?_, idle := ?_, busy := ?_, requests := ?_, responses := ?_, ordered := ?_, belief := ?_ }
      · show l.peer.lastSeq ≤ l.seq + 1
        have := h.seqs
        omega
      · intro hopen
        have hopen : l.closed = false := hopen
        rw [hclosed] at hopen
        cases hopen
      · intro hbusy
        exact absurd hwaiting hbusy
      · intro v hv
        obtain ⟨n, kind, hv, hn, -⟩ := h.requests v hv
        refine ⟨n, kind, hv, by show n ≤ l.seq + 1; omega, ?_⟩
        intro action w hw
        have hw : l.waiting = some (action, w) := hw
        rw [hwaiting] at hw
        cases hw
      · exact h.responses
      · exact fun _ => h.ordered hnot
      · intro hsafe hheld
        have hearlier : l.Held o := hheld.of_later (.inl rfl) hnow
        exact absurd hearlier (h.not_held hsafe hwaiting)
    refine hbase.giveUp_sound action le_rfl ?_ ?_
    · intro hgrant
      rw [awaitsGrant_of_idle (show { l with seq := l.seq + 1, now := t }.waiting = none from hwaiting)]
        at hgrant
      cases hgrant
    · intro hname
      exact absurd hname (by decide)
  · next hopen =>
    have hopen : l.closed = false := by simpa using hopen
    exact ⟨h.request action w hnow (hlast hopen) hopen hnot, fun answer hanswer => by cases hanswer⟩

theorem Inv.deadlineSafe (hnow : l.now ≤ t) (hlast : l.closed = false → l.peer.lastSeq = l.seq)
    (hnot : l.awaitsGrant = false) (hdeadline : a.deadline = l.agent.deadline)
    (hsafe : a.safe = true → l.agent.safe = true ∨ l.peer.lease.reserved = false ∨ ∃ D, l.agent.deadline = some D ∧ D ≤ t + o.primary)
    :
    Inv spec o { l with agent := a, waiting := none, now := t } := by
  refine h.settle hlast ?_ ?_
  · intro d hreserved hd
    rcases h.ordered hnot d hreserved hd with ⟨D, hD, hlt⟩ | ⟨⟨hbad, hnone⟩, hclosed⟩
    · exact .inl ⟨D, hdeadline.trans hD, hlt⟩
    · refine .inr ⟨⟨?_, hdeadline.trans hnone⟩, hclosed⟩
      by_contra hbelieves
      rcases hsafe (Bool.not_eq_false _ ▸ hbelieves) with hsafe | hfree | ⟨D, hD, -⟩
      · rw [hbad] at hsafe
        cases hsafe
      · have hreserved : l.peer.lease.reserved = true := hreserved
        rw [hfree] at hreserved
        cases hreserved
      · rw [hnone] at hD
        cases hD
  · intro hbelieves hheld
    rcases hsafe hbelieves with hsafe | hfree | ⟨D, hD, hle⟩
    · have hgrant := (h.belief hsafe (hheld.of_later (.inl rfl) hnow)).1
      rw [hnot] at hgrant
      cases hgrant
    · have hreserved : l.peer.lease.reserved = true := hheld.1
      rw [hfree] at hreserved
      cases hreserved
    · exact (h.ordered hnot).not_held hD hle hheld

theorem Inv.start_sound (action : DockAction) {t' : ℚ} (hnow : l.now ≤ t) (ht : t ≤ t')
    (hwaiting : l.waiting = none) :
    Sound spec o (l.proceed spec o action
      (l.agent.start action (t + o.primary) (t' + o.primary)) t') := by
  have hnot := awaitsGrant_of_idle hwaiting
  have hlast : l.closed = false → l.peer.lastSeq = l.seq := fun hopen => h.idle hopen hwaiting
  have hsend : ∀ w, Sound spec o (l.send spec o action w t') := fun w =>
    h.send_sound action w (hnow.trans ht) hlast hnot
  have hfirst : (l.agent.deadlineSafe (t + o.primary)).safe = true →
      l.agent.safe = true ∨ l.peer.lease.reserved = false ∨
        ∃ D, l.agent.deadline = some D ∧ D ≤ t' + o.primary := by
    intro hsafe
    rcases deadlineSafe_safe hsafe with hsafe | ⟨D, hD, hle⟩
    · exact .inl hsafe
    · exact .inr (.inr ⟨D, hD, by linarith⟩)
  -- the agent answers by its belief, with the clock read twice
  have hanswer : Sound spec o (l.proceed spec o action
      ((l.agent.deadlineSafe (t + o.primary)).answerSafe (t' + o.primary)) t') := by
    refine ⟨h.deadlineSafe (hnow.trans ht) hlast hnot ?_ ?_, ?_⟩
    · rw [deadlineSafe_deadline, deadlineSafe_deadline]
    · intro hsafe
      rcases deadlineSafe_safe hsafe with hsafe | ⟨D, hD, hle⟩
      · exact hfirst hsafe
      · rw [deadlineSafe_deadline] at hD
        exact .inr (.inr ⟨D, hD, hle⟩)
    · intro answer hanswer hsays
      refine ⟨?_, rfl⟩
      obtain rfl := Option.some.inj hanswer
      exact safe_of_saysSafe hsays
  cases action with
  | peerBlankPanel => exact hsend .blank
  | heartbeat => exact hsend .heartbeat
  | peerUnblankPanel =>
    show Sound spec o (l.proceed spec o _ (if _ then _ else _) t')
    split
    · next hsafe =>
      exact ⟨h.deadlineSafe (hnow.trans ht) hlast hnot (deadlineSafe_deadline _ _) hfirst,
        fun _ _ _ => ⟨hsafe, rfl⟩⟩
    · exact hsend .unblank
  | safe =>
    show Sound spec o (l.proceed spec o _ (if _ then _ else _) t')
    split
    · exact hsend .safeStatus
    · exact hanswer
  | recover =>
    show Sound spec o (l.proceed spec o _ (if _ then _ else _) t')
    split
    · exact hsend .recoverStatus
    · exact hanswer

theorem Inv.accepted {seq : ℤ} {kind : PanelKind}
    (haccepted : l.accepted py spec = some (seq, kind)) :
    seq = l.peer.lastSeq + 1 ∧ seq ≤ l.seq ∧
      (∀ action w, l.waiting = some (action, w) → kind = w.kind ∧ seq = l.seq) ∧
      (l.waiting = none → l.closed = true) := by
  unfold PanelLink.accepted at haccepted
  rcases hrequests : l.requests with _ | ⟨request, rest⟩
  · rw [hrequests] at haccepted
    cases haccepted
  · rw [hrequests] at haccepted
    obtain ⟨n, k, rfl, hn, hkind⟩ := h.requests request (by rw [hrequests]; exact .head _)
    dsimp only at haccepted
    rw [acceptRequest_requestJson] at haccepted
    split at haccepted
    · next hnext =>
      cases haccepted
      refine ⟨hnext, hn, ?_, ?_⟩
      · intro action w hw
        have hbusy := (h.busy (by rw [hw]; exact Option.some_ne_none _)).2
        have heq : seq = l.seq := by omega
        exact ⟨hkind action w hw heq, heq⟩
      · intro hnone
        by_contra hopen
        have hidle := h.idle (Bool.not_eq_true _ ▸ hopen) hnone
        omega
    · cases haccepted

theorem Inv.count {seq : ℤ} (hnext : seq = l.peer.lastSeq + 1) (hle : seq ≤ l.seq)
    (hbusy : l.waiting = none → l.closed = true) :
    Inv spec o { l with peer := { l.peer with lastSeq := seq } } := by
  refine { h with seqs := hle, idle := ?_, busy := ?_, responses := ?_, grantSeq := ?_, requests := ?_, ordered := ?_, belief := ?_ }
  · intro hopen hnone
    have hclosed := hbusy hnone
    have hopen : l.closed = false := hopen
    rw [hclosed] at hopen
    cases hopen
  · intro hwaiting
    obtain ⟨hopen, hseq⟩ := h.busy hwaiting
    refine ⟨hopen, ?_⟩
    show l.seq ≤ seq + 1
    omega
  · exact h.requests
  · intro v hv
    rcases h.responses v hv with hrestored | ⟨n, kind, r, hv, hn, -⟩
    · exact .inl hrestored
    · refine .inr ⟨n, kind, r, hv, by show n ≤ seq; omega, ?_⟩
      intro heq
      have heq : n = seq := heq
      omega
  · intro n t hg
    have hn := h.grantSeq n t hg
    show n ≤ seq
    omega
  · exact h.ordered
  · exact h.belief

theorem Inv.grant {seq : ℤ} {kind : PanelKind} {m : PeerMeets} {t' : ℚ} (hnow : l.now ≤ t)
    (haccepted : l.accepted py spec = some (seq, kind))
    (hgrant : isGrant kind (kind.run spec l.peer.lease (m.env o t t')).result = true)
    (hack : l.waiting = none → l.noBelief) {r : PanelResult}
    (hr : (kind.run spec l.peer.lease (m.env o t t')).result = .ok r) :
    Inv spec o { l with
      requests := l.requests.tail
      peer := ⟨(kind.run spec l.peer.lease (m.env o t t')).state, seq⟩
      now := t'
      granted := some (seq, t')
      responses := l.responses ++ [responseJson seq kind r] } := by
  obtain ⟨hnext, hle, hwaits, hidle⟩ := h.accepted haccepted
  obtain ⟨hlive, hstate, hkind⟩ := grant_spec hgrant
  rw [hstate]
  set l' : PanelLink := { l with
    requests := l.requests.tail
    peer := ⟨⟨true, some ((m.env o t t').renewed + spec.heartbeat), false⟩, seq⟩
    now := t'
    granted := some (seq, t')
    responses := l.responses ++ [responseJson seq kind r] } with hl'
  have hconsistent : l'.Consistent kind r := by
    rcases hkind with ⟨rfl, hresult⟩ | ⟨rfl, hresult, -⟩
    · rw [hr] at hresult
      exact ⟨Except.ok.inj hresult, t', rfl⟩
    · rw [hr] at hresult
      exact ⟨Except.ok.inj hresult, t', rfl⟩
  -- a primary that waits, waits for this grant
  have hawaits : ∀ action w, l.waiting = some (action, w) → l'.awaitsGrant = true := by
    intro action w hw
    obtain ⟨hwkind, hseq⟩ := hwaits action w hw
    have hw' : l'.waiting = some (action, w) := hw
    rw [awaitsGrant, hw']
    show ((w == .blank || w == .heartbeat) && decide (seq = l.seq)) = true
    rw [decide_eq_true hseq, Bool.and_true]
    rcases hkind with ⟨rfl, -⟩ | ⟨rfl, -⟩
    · cases w <;> first | rfl | cases hwkind
    · cases w <;> first | rfl | cases hwkind
  refine ⟨?_, ?_, hle, ?_, ?_, ?_, ?_, ?_, ?_, ?_, ?_⟩
  · intro hterminal
    cases hterminal
  · exact fun _ => ⟨_, rfl⟩
  · intro hopen hnone
    have hclosed := hidle hnone
    have hopen : l.closed = false := hopen
    rw [hclosed] at hopen
    cases hopen
  · intro hwaiting
    obtain ⟨hopen, hseq⟩ := h.busy hwaiting
    refine ⟨hopen, ?_⟩
    show l.seq ≤ seq + 1
    omega
  · exact fun v hv => h.requests v (List.mem_of_mem_tail hv)
  · intro v hv
    rcases List.mem_append.mp hv with hv | hv
    · rcases h.responses v hv with ⟨-, hterminal, hfree⟩ | ⟨n, k, r', hv, hn, -⟩
      · -- a closed lease grants nothing
        rw [hlive] at hterminal
        cases hterminal
      · refine .inr ⟨n, k, r', hv, by show n ≤ seq; omega, ?_⟩
        intro heq
        have heq : n = seq := heq
        omega
    · exact .inr ⟨seq, kind, r, List.mem_singleton.mp hv, le_rfl, fun _ => hconsistent⟩
  · intro n t₀ hg
    cases hg
    exact le_rfl
  · intro n t₀ d hg _ hd
    cases hg
    exact (Option.some.inj hd).symm
  · intro hnot d _ _
    rcases hwaiting : l.waiting with _ | ⟨action, w⟩
    · exact .inr ⟨hack hwaiting, hidle hwaiting⟩
    · rw [hawaits action w hwaiting] at hnot
      cases hnot
  · intro hsafe hheld
    rcases hwaiting : l.waiting with _ | ⟨action, w⟩
    · have hbad := (hack hwaiting).1
      have hsafe : l.agent.safe = true := hsafe
      rw [hbad] at hsafe
      cases hsafe
    · refine ⟨hawaits action w hwaiting, ?_⟩
      obtain ⟨hwkind, -⟩ := hwaits action w hwaiting
      rcases hkind with ⟨rfl, -⟩ | ⟨rfl, -, hreserved, hfresh⟩
      · cases w <;> first | exact ⟨action, rfl⟩ | cases hwkind
      · -- the heartbeat found the panel held, which the agent's belief excludes
        exfalso
        obtain ⟨d, hd⟩ := h.dated hreserved
        have hle := (expired_eq_false.mp hfresh).2 d hd
        have hheld : l.Held o := ⟨hreserved, d, hd, by
          have hle : t + o.peer ≤ d := hle
          linarith⟩
        obtain ⟨-, action', hblank⟩ := h.belief hsafe hheld
        rw [hwaiting] at hblank
        cases hblank
        cases hwkind

theorem Inv.answerRequest {seq : ℤ} {kind : PanelKind} (m f : PeerMeets) {t' : ℚ}
    (hnow : l.now ≤ t) (ht : t ≤ t') (haccepted : l.accepted py spec = some (seq, kind))
    (hack : isGrant kind (kind.run spec l.peer.lease (m.env o t t')).result = true → l.waiting = none → l.noBelief)
    :
    Inv spec o ({ l with requests := l.requests.tail, now := t' }.answerRequest spec o seq kind
      m f t t') := by
  obtain ⟨hnext, hle, -, hidle⟩ := h.accepted haccepted
  unfold PanelLink.answerRequest
  dsimp only
  cases hgrant : isGrant kind (kind.run spec l.peer.lease (m.env o t t')).result with
  | true =>
    rcases hr : (kind.run spec l.peer.lease (m.env o t t')).result with err | r
    · rw [hr] at hgrant
      cases kind <;> cases hgrant
    · rw [if_pos rfl]
      exact h.grant hnow haccepted hgrant (hack hgrant) hr
  | false =>
    rw [if_neg Bool.false_ne_true]
    have hlease := run_lessens h.wf hgrant
    have hbase : Inv spec o { l with
        requests := l.requests.tail
        peer := ⟨(kind.run spec l.peer.lease (m.env o t t')).state, seq⟩
        now := t' } := by
      have hweak : Inv spec o { l with
          requests := l.requests.tail
          peer := ⟨(kind.run spec l.peer.lease (m.env o t t')).state, l.peer.lastSeq⟩
          now := t' } :=
        h.weaken rfl rfl rfl rfl rfl rfl hlease (hnow.trans ht) (fun _ hv => List.mem_of_mem_tail hv)
          (.refl _)
      exact hweak.count hnext hle hidle
    rcases hr : (kind.run spec l.peer.lease (m.env o t t')).result with err | r
    · exact hbase.finish _
    · refine hbase.addResponse (.inr ⟨seq, kind, r, rfl, le_rfl, fun _ => ?_⟩)
      cases kind with
      | reserve =>
        rw [hr] at hgrant
        cases hgrant
      | heartbeat =>
        rw [hr] at hgrant
        cases hgrant
      | release =>
        show (l.peer.lease.release _).state.reserved = false
        rw [release_closed hr]
        rfl
      | status =>
        rintro rfl
        exact status_safe hr

theorem Inv.response {w : Waiting} {frames : ℕ} {r : PanelResult}
    (hread : l.readFrames py spec w (l.responses.take frames) = .ok r) :
    l.peer.lastSeq = l.seq ∧ l.Consistent w.kind r := by
  unfold readFrames at hread
  split at hread
  · next frame hframe =>
    have hmem : frame ∈ l.responses :=
      List.mem_of_mem_take (by rw [hframe]; exact .head _ : frame ∈ l.responses.take frames)
    rcases h.responses frame hmem with ⟨rfl, -⟩ | ⟨n, kind, r', rfl, hn, hconsistent⟩
    · rw [readResponse_restored] at hread
      cases hread
    · rw [readResponse_response] at hread
      split at hread
      · next hmatch =>
        obtain ⟨rfl, rfl⟩ := hmatch
        obtain rfl := Except.ok.inj hread
        have hlast : l.peer.lastSeq = l.seq := le_antisymm h.seqs hn
        exact ⟨hlast, hconsistent hlast.symm⟩
      · cases hread
  · cases hread

theorem Inv.restored {w : Waiting} {frames : ℕ} {error : PyError}
    (hread : l.readFrames py spec w (l.responses.take frames) = .error error)
    (hname : error.name = "PanelPeerRestored") : l.peer.lease.reserved = false := by
  unfold readFrames at hread
  split at hread
  · next frame hframe =>
    have hmem : frame ∈ l.responses :=
      List.mem_of_mem_take (by rw [hframe]; exact .head _ : frame ∈ l.responses.take frames)
    rcases h.responses frame hmem with ⟨-, -, hfree⟩ | ⟨n, kind, r', rfl, -⟩
    · exact hfree
    · rw [readResponse_response] at hread
      split at hread
      · cases hread
      · cases hread
        exact absurd hname (by decide)
  · cases hread
    exact absurd hname (by decide)

theorem Inv.answerSafe_sound (action : DockAction) (safe : Bool) (hnow : l.now ≤ t)
    (hlast : l.peer.lastSeq = l.seq) (hnot : l.awaitsGrant = false)
    (hsafe : safe = true → l.peer.lease.reserved = false) :
    Sound spec o (l.proceed spec o action ((l.agent.believe safe).answerSafe (t + o.primary)) t) := by
  refine ⟨h.deadlineSafe hnow (fun _ => hlast) hnot (deadlineSafe_deadline _ _) ?_, ?_⟩
  · intro hbelieves
    rcases deadlineSafe_safe hbelieves with hbelieves | hD
    · exact .inr (.inl (hsafe hbelieves))
    · exact .inr (.inr hD)
  · intro answer hanswer hsays
    obtain rfl := Option.some.inj hanswer
    exact ⟨safe_of_saysSafe hsays, rfl⟩

theorem Inv.resume_sound {action : DockAction} {w : Waiting} {r : PanelResult} (hnow : l.now ≤ t)
    (hwaiting : l.waiting = some (action, w)) (hlast : l.peer.lastSeq = l.seq)
    (hconsistent : l.Consistent w.kind r)
    (hlater : l.awaitsGrant = true → ∀ seq t₀, l.granted = some (seq, t₀) → t₀ < t) :
    Sound spec o (l.proceed spec o action
      (l.agent.resume spec.heartbeat w r (t + o.primary)) t) := by
  have hopen := (h.busy (by rw [hwaiting]; exact Option.some_ne_none _)).1
  -- the deadline of a renewal that was just acknowledged
  have hrenews : ∀ a : PrimaryPanelAgent, a.deadline = some (t + o.primary + spec.heartbeat) →
      (w = .blank ∨ w = .heartbeat) → (∃ t₀, l.granted = some (l.peer.lastSeq, t₀)) →
      { l with agent := a, closed := l.closed, waiting := none, now := t }.Ordered o := by
    intro a ha hw ⟨t₀, hg⟩ d hreserved hd
    have hgrant : l.awaitsGrant = true := by
      rw [awaitsGrant, hwaiting, hg]
      rcases hw with rfl | rfl
      · simp [hlast]
      · simp [hlast]
    have htime := h.grantTime _ t₀ d hg hreserved hd
    have hlt := hlater hgrant _ t₀ hg
    exact .inl ⟨_, ha, by linarith⟩
  have hnot : w ≠ .blank → w ≠ .heartbeat → l.awaitsGrant = false := by
    intro hblank hbeat
    rw [awaitsGrant, hwaiting]
    rcases l.granted with _ | ⟨seq, t₀⟩
    · rfl
    · cases w <;> first | rfl | exact absurd rfl hblank | exact absurd rfl hbeat
  cases w with
  | blank =>
    obtain ⟨rfl, hg⟩ := hconsistent
    refine ⟨h.settle (fun _ => hlast) (hrenews _ rfl (.inl rfl) hg) ?_, ?_⟩
    · intro hsafe
      cases hsafe
    · intro answer hanswer hsays
      obtain rfl := Option.some.inj hanswer
      cases hsays
  | heartbeat =>
    obtain ⟨rfl, hg⟩ := hconsistent
    refine ⟨h.settle (fun _ => hlast) (hrenews _ rfl (.inr rfl) hg) ?_, ?_⟩
    · intro hsafe hheld
      obtain ⟨-, action', hblank⟩ := h.belief hsafe (hheld.of_later (.inl rfl) hnow)
      rw [hwaiting] at hblank
      cases hblank
    · intro answer hanswer hsays
      obtain rfl := Option.some.inj hanswer
      cases hsays
  | unblank =>
    have hfree : l.peer.lease.reserved = false := hconsistent
    refine ⟨h.deadlineSafe hnow (fun _ => hlast) (hnot (by decide) (by decide)) rfl
      (fun _ => .inr (.inl hfree)), ?_⟩
    intro answer hanswer hsays
    obtain rfl := Option.some.inj hanswer
    refine ⟨?_, rfl⟩
    by_contra hne
    have hne : ¬r = .released := fun heq => hne (decide_eq_true heq)
    rw [if_neg hne] at hsays
    cases hsays
  | recoverStatus =>
    have hnot := hnot (by decide) (by decide)
    show Sound spec o (l.proceed spec o action (if _ then _ else _) t)
    split
    · exact h.send_sound action .recoverRelease hnow (fun _ => hlast) hnot
    · exact h.answerSafe_sound action _ hnow hlast hnot fun hsafe =>
        hconsistent (of_decide_eq_true hsafe)
  | recoverRelease =>
    exact h.answerSafe_sound action _ hnow hlast (hnot (by decide) (by decide)) fun _ => hconsistent
  | safeStatus =>
    exact h.answerSafe_sound action _ hnow hlast (hnot (by decide) (by decide)) fun hsafe =>
      hconsistent (of_decide_eq_true hsafe)

theorem Inv.step_sound {ev : LinkEvent} {res : PanelLink × Option PrimaryAnswer}
    (hack : l.Acknowledged py spec o ev) (hstep : l.step py spec o ev = some res) :
    Sound spec o res := by
  have hquiet : ∀ {l' : PanelLink}, Inv spec o l' → Sound spec o (l', none) := fun h' =>
    ⟨h', fun answer hanswer => by cases hanswer⟩
  cases ev with
  | perform action t t' =>
    simp only [step] at hstep
    split at hstep
    · next hguard =>
      obtain rfl := Option.some.inj hstep
      exact h.start_sound action hguard.1 hguard.2.1 hguard.2.2
    · cases hstep
  | handle m f t t' =>
    simp only [step] at hstep
    split at hstep
    · next hguard =>
      obtain ⟨hnow, ht, -, -⟩ := hguard
      split at hstep
      · next seq kind haccepted =>
        obtain rfl := Option.some.inj hstep
        exact hquiet (h.answerRequest m f hnow ht haccepted (hack seq kind haccepted))
      · obtain rfl := Option.some.inj hstep
        have hbase : Inv spec o { l with requests := l.requests.tail, now := t' } :=
          h.weaken rfl rfl rfl rfl rfl rfl (.inl rfl) (hnow.trans ht)
            (fun _ hv => List.mem_of_mem_tail hv) (.refl _)
        exact hquiet (hbase.finish _)
    · cases hstep
  | poll m f t t' =>
    simp only [step] at hstep
    split at hstep
    · next hguard =>
      obtain ⟨hnow, ht, -⟩ := hguard
      have hbase : Inv spec o { l with
          peer := { l.peer with lease := (l.peer.lease.tick spec (m.env o t t')).state }
          now := t' } :=
        h.weaken rfl rfl rfl rfl rfl rfl (tick_lessens spec _ _) (hnow.trans ht)
          (.refl _) (.refl _)
      split at hstep
      · obtain rfl := Option.some.inj hstep
        exact hquiet hbase
      · obtain rfl := Option.some.inj hstep
        exact hquiet (hbase.finish _)
    · cases hstep
  | hangUp f t t' =>
    simp only [step] at hstep
    split at hstep
    · next hguard =>
      obtain ⟨hnow, ht, -⟩ := hguard
      obtain rfl := Option.some.inj hstep
      have hbase : Inv spec o { l with now := t' } :=
        h.weaken rfl rfl rfl rfl rfl rfl (.inl rfl) (hnow.trans ht) (.refl _)
          (.refl _)
      exact hquiet (hbase.finish _)
    · cases hstep
  | crash =>
    obtain rfl := Option.some.inj hstep
    exact hquiet (h.weaken rfl rfl rfl rfl rfl rfl (.inl rfl) le_rfl (.refl _)
      (.refl _))
  | loseRequest i =>
    obtain rfl := Option.some.inj hstep
    exact hquiet (h.weaken rfl rfl rfl rfl rfl rfl (.inl rfl) le_rfl
      (List.eraseIdx_subset) (.refl _))
  | loseResponse i =>
    obtain rfl := Option.some.inj hstep
    exact hquiet (h.weaken rfl rfl rfl rfl rfl rfl (.inl rfl) le_rfl
      (.refl _) (List.eraseIdx_subset))
  | receive frames t =>
    simp only [step] at hstep
    split at hstep
    · next action w hwaiting =>
      split at hstep
      · next hguard =>
        obtain rfl := Option.some.inj hstep
        have hbase : Inv spec o { l with responses := l.responses.drop frames } :=
          h.weaken rfl rfl rfl rfl rfl rfl (.inl rfl) le_rfl (.refl _)
            (List.drop_subset _ _)
        unfold received
        rcases hread : l.readFrames py spec w (l.responses.take frames) with error | r
        · have hread' : { l with responses := l.responses.drop frames }.readFrames py spec w
              (l.responses.take frames) = .error error := hread
          rw [hread']
          refine hbase.giveUp_sound action hguard.1 ?_ (h.restored hread)
          intro hgrant
          by_cases hname : error = peerRestored
          · exact .inr (h.restored hread (by rw [hname]; rfl))
          · exact .inl ((hack hgrant).2 action w error hwaiting hread hname)
        · have hread' : { l with responses := l.responses.drop frames }.readFrames py spec w
              (l.responses.take frames) = .ok r := hread
          rw [hread']
          obtain ⟨hlast, hconsistent⟩ := h.response hread
          exact hbase.resume_sound hguard.1 hwaiting hlast hconsistent fun hgrant =>
            (hack hgrant).1
      · cases hstep
    · cases hstep
  | fail error t =>
    simp only [step] at hstep
    split at hstep
    · next action w hwaiting =>
      split at hstep
      · next hguard =>
        obtain rfl := Option.some.inj hstep
        refine h.giveUp_sound action hguard.1 ?_ (fun hname => absurd hname hguard.2)
        exact fun hgrant => .inl (hack hgrant)
      · cases hstep
    · cases hstep

end

theorem Reaches.inv (h : Reaches py spec o (Acknowledged py spec o) l) :
    Inv spec o l := by
  induction h with
  | start now => exact Inv.init now
  | step _ hallowed hstep ih => exact (ih.step_sound hallowed hstep).1

/-- Whenever the primary's endpoint answers that the panel is safe or restored, it is not reserved
under a deadline that has not passed. -/
def SafeAnswersAgree (py : PyJson) (spec : PanelLeaseSpec) (o : Offsets)
    (allowed : PanelLink → LinkEvent → Prop) : Prop :=
  ∀ l ev l' answer, Reaches py spec o allowed l → allowed l ev →
    l.step py spec o ev = some (l', some answer) → answer.saysSafe = true → ¬l'.Held o

/-- In every run whose grants are acknowledged the two sides agree. -/
theorem safe_answers_agree (py : PyJson) (spec : PanelLeaseSpec) (o : Offsets) :
    SafeAnswersAgree py spec o (Acknowledged py spec o) := by
  intro l ev l' answer hreaches hallowed hstep hsays
  obtain ⟨hinv, hanswer⟩ := hreaches.inv.step_sound hallowed hstep
  obtain ⟨hsafe, hwaiting⟩ := hanswer answer rfl hsays
  exact hinv.not_held hsafe hwaiting

/-! ## Grants that are not acknowledged -/

/-- The state after a list of events. -/
def after (py : PyJson) (spec : PanelLeaseSpec) (o : Offsets) (l : PanelLink) :
    List LinkEvent → Option PanelLink
  | [] => some l
  | ev :: rest => do
    let (l', _) ← l.step py spec o ev
    l'.after py spec o rest

theorem Reaches.after {events : List LinkEvent} :
    ∀ {l l' : PanelLink}, Reaches py spec o (fun _ _ => True) l →
      l.after py spec o events = some l' → Reaches py spec o (fun _ _ => True) l' := by
  induction events with
  | nil =>
    intro l l' h hafter
    obtain rfl := Option.some.inj hafter
    exact h
  | cons ev rest ih =>
    intro l l' h hafter
    rw [PanelLink.after, Option.bind_eq_bind, Option.bind_eq_some_iff] at hafter
    obtain ⟨⟨l₁, answer⟩, hstep, hrest⟩ := hafter
    exact ih (h.step trivial hstep) hrest

/-- The deadline of a reserved panel has not passed. -/
def heldNow (o : Offsets) (l : PanelLink) : Bool :=
  match l.peer.lease with
  | ⟨true, some d, _⟩ => decide (l.now + o.peer ≤ d)
  | _ => false

/-- After the events, the last one is answered "safe" or "restored" while the panel is held. -/
def disagrees (py : PyJson) (spec : PanelLeaseSpec) (o : Offsets) (events : List LinkEvent)
    (last : LinkEvent) : Bool :=
  match ({ now := 0 } : PanelLink).after py spec o events with
  | none => false
  | some l =>
    match l.step py spec o last with
    | some (l', some answer) => answer.saysSafe && l'.heldNow o
    | _ => false

theorem not_agree_of_disagrees {events : List LinkEvent} {last : LinkEvent}
    (h : disagrees py spec o events last = true) :
    ¬SafeAnswersAgree py spec o fun _ _ => True := by
  intro hagree
  unfold disagrees at h
  split at h
  · cases h
  next l hafter =>
  split at h
  next l' answer hstep =>
    rw [Bool.and_eq_true] at h
    refine hagree l last l' answer (Reaches.after (.start 0) hafter) trivial hstep h.1 ?_
    have hheld := h.2
    unfold heldNow at hheld
    unfold Held
    split at hheld
    next d _ hlease =>
      rw [hlease]
      exact ⟨rfl, d, rfl, of_decide_eq_true hheld⟩
    next => cases hheld
  next => cases h

/-- A lease of ten seconds. -/
def tenSeconds : PanelLeaseSpec := ⟨"display-session", 90, "rdp-0", 10000, 5000⟩

/-- The panel actions succeed. -/
def meets : PeerMeets := ⟨1000, none, none, .ok true⟩

/-- A heartbeat that the peer grants at 6 s moves its deadline to 16 s; its response is lost, the
socket times out at 11 s, and the agent's deadline of 11 s has passed. -/
theorem lostRenewal_disagrees :
    ¬SafeAnswersAgree noJson tenSeconds ⟨0, 0⟩ fun _ _ => True := by
  have h : disagrees noJson tenSeconds ⟨0, 0⟩
      [.perform .peerBlankPanel 0 0, .handle meets meets 0 0, .receive 1 1,
        .perform .heartbeat 6 6, .handle meets meets 6 6, .loseResponse 0,
        .fail ⟨"TimeoutError", "The read operation timed out"⟩ 11] (.perform .safe 11 11) = true := by
    decide +kernel
  exact not_agree_of_disagrees h

-- an agent that once found the panel safe keeps that belief when the response to a `reserve` is lost
example :
    disagrees noJson tenSeconds ⟨0, 0⟩
      [.perform .safe 0 0, .handle meets meets 0 0, .receive 1 1,
        .perform .peerBlankPanel 2 2, .handle meets meets 2 2, .loseResponse 0,
        .fail ⟨"TimeoutError", "The read operation timed out"⟩ 7] (.perform .recover 7 7) = true := by
  decide +kernel

end PanelLink

end PanelControl
