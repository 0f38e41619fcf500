/-
# All or nothing, with evidence

A `reclassify` call that is denied leaves the store alone, and one that raises leaves it as it
found it unless a transaction was open around it, whose rows its own join.  A call that is
allowed and moves a field has written, in the same transaction, a sealed assertion with the
actor and the scope that authorises each field it touches.
-/
import QDistro.SecurityLadders

open JsonText Lineage SecurityGrants

namespace Lineage

/-- The store went from `s` to `s'` by sealing the rows `ws` into the chain. -/
def Wrote (s s' : Store) (ws : List Write) : Prop :=
  s'.scope = s.scope ∧ ∃ ids, s.db.writeAll ws = (s'.db, .ok ids)

variable {u : UnicodeDb} {s s' s'' : Store}

theorem Db.writeAll_append {ws ws' : List Write} {db db' db'' : Db} {ids ids' : List ℤ}
    (h : db.writeAll ws = (db', .ok ids)) (h' : db'.writeAll ws' = (db'', .ok ids')) :
    ∃ ids'', db.writeAll (ws ++ ws') = (db'', .ok ids'') := by
  induction ws generalizing db ids with
  | nil =>
    cases h
    exact ⟨ids', h'⟩
  | cons w ws ih =>
    rw [Db.writeAll] at h
    rw [List.cons_append, Db.writeAll]
    cases hw : db.write w with
    | mk db₁ r =>
      rw [hw] at h
      cases r with
      | error e => cases h
      | ok id =>
        dsimp only at h ⊢
        obtain ⟨hdb, hids⟩ := Prod.mk.inj h
        obtain ⟨ids₁, hids₁, -⟩ := except_map_ok hids
        obtain ⟨ids₂, h₂⟩ := ih (Prod.ext hdb hids₁)
        rw [h₂]
        exact ⟨id :: ids₂, rfl⟩

theorem Wrote.trans {ws ws' : List Write} (h : Wrote s s' ws) (h' : Wrote s' s'' ws') :
    Wrote s s'' (ws ++ ws') := by
  obtain ⟨hscope, ids, hids⟩ := h
  obtain ⟨hscope', ids', hids'⟩ := h'
  exact ⟨hscope'.trans hscope, Db.writeAll_append hids hids'⟩

theorem wrote_perform {op : Op} (hop : op.Records) {r : Reply}
    (h : (s.perform u op).2 = .ok r) : Wrote s (s.perform u op).1 (op.writes u) := by
  have hrecord : ∀ (writes : Except Err (List Write)) (f : List ℤ → Reply),
      ((s.record writes).map id (·.map f)).2 = .ok r →
        Wrote s ((s.record writes).map id (·.map f)).1 (writes.toOption.getD []) := by
    intro writes f hr
    obtain ⟨ids, hids, -⟩ := except_map_ok hr
    cases writes with
    | error e => cases hids
    | ok ws =>
      have hscope := s.scope_txn fun db => db.writeAll ws
      exact ⟨hscope, ids, Prod.ext (Store.txn_ok hids).symm ((s.txn_result _).symm.trans hids)⟩
  cases op with
  | recordEntity ent now => exact hrecord _ _ h
  | recordActivity act now verdictNow => exact hrecord _ _ h
  | recordAgent agent now => exact hrecord _ _ h
  | recordEdge predicate subject obj activity now => exact hrecord _ _ h
  | recordAssertion a now => exact hrecord _ _ h
  | recordReceipt r now => exact hrecord _ _ h
  | recordMapping m now => exact hrecord _ _ h
  | _ => exact absurd hop (by simp [Op.Records])

theorem wrote_performAll {ops : List Op} (hops : ∀ op ∈ ops, op.Records)
    (h : (s.performAll u ops).2 = .ok ()) :
    Wrote s (s.performAll u ops).1 (ops.flatMap (Op.writes u)) := by
  induction ops generalizing s with
  | nil => exact ⟨rfl, [], rfl⟩
  | cons op ops ih =>
    rw [Store.performAll] at h ⊢
    cases hp : s.perform u op with
    | mk s₁ r =>
      rw [hp] at h
      cases r with
      | error e => cases h
      | ok r =>
        have hone := wrote_perform (hops op List.mem_cons_self) (congrArg Prod.snd hp)
        rw [hp] at hone
        exact hone.trans (ih (fun op' hop' => hops op' (List.mem_cons_of_mem _ hop')) h)

theorem wrote_transaction {α : Type} {body : Store → Store × Except Exc α} {v : α}
    (h : (s.transaction body).2 = .ok v) :
    (body s.enter).2 = .ok v ∧ ∀ ws, Wrote s.enter (body s.enter).1 ws →
      Wrote s (s.transaction body).1 ws := by
  unfold Store.transaction at h ⊢
  cases hb : body s.enter with
  | mk s₁ r =>
    rw [hb] at h
    cases r with
    | error e => cases h
    | ok v' =>
      refine ⟨h, fun ws hws => ?_⟩
      obtain ⟨hscope, hids⟩ := hws
      rw [s.enter_db] at hids
      have hleave : (s₁.leave false).scope = s.scope ∧ (s₁.leave false).db = s₁.db := by
        cases hs : s.scope with
        | none =>
          have henter : s.enter.scope = some (s.db, 0) := by simp [Store.enter, hs]
          rw [Store.leave, hscope.trans henter]
          exact ⟨rfl, rfl⟩
        | some p =>
          have henter : s.enter.scope = some (p.1, p.2 + 1) := by simp [Store.enter, hs]
          rw [Store.leave, hscope.trans henter]
          exact ⟨rfl, rfl⟩
      exact ⟨hleave.1, by rw [hleave.2]; exact hids⟩

theorem transaction_raised {α : Type} {body : Store → Store × Except Exc α} {e : Exc}
    {ws : List Write} (hbody : Recorded s.enter (body s.enter) ws)
    (h : (s.transaction body).2 = .error e) :
    (s.transaction body).1.scope = s.scope ∧ (s.scope = none → (s.transaction body).1 = s) := by
  obtain ⟨ws', -, hext, -⟩ := hbody.transaction
  refine ⟨hext.scope, fun hs => ?_⟩
  obtain ⟨ws₁, -, hext₁, -⟩ := hbody
  have henter : s.enter.scope = some (s.db, 0) := by simp [Store.enter, hs]
  unfold Store.transaction at h ⊢
  cases hb : body s.enter with
  | mk s₁ r =>
    rw [hb] at h hext₁
    cases r with
    | ok v => cases h
    | error e' =>
      show s₁.leave true = s
      rw [Store.leave, hext₁.scope.trans henter]
      cases s
      cases hs
      rfl

end Lineage

namespace SecurityMutation

variable {u : UnicodeDb} {admin : String}

/-! ## Who authorised what -/

/-- Every field has the scope under which the principal was allowed to change it. -/
def Authorised (u : UnicodeDb) (admin : String) (db : Db) (principal : String)
    (fields : List String) (via : List (String × String)) : Prop :=
  ∀ f ∈ fields, ∃ chk, check u admin db principal f = .ok chk ∧ chk.allowed = true ∧
    (f, if given chk.via then chk.via.getD "" else "unknown") ∈ via

variable {via : List (String × String)}

theorem checkFields_authorised {db : Db} {principal reason : String}
    {via' : List (String × String)} {fields : List String}
    (h : checkFields u admin db principal via fields = .ok (true, reason, via')) :
    via <+: via' ∧ Authorised u admin db principal fields via' := by
  induction fields generalizing via with
  | nil =>
    cases h
    exact ⟨List.prefix_refl _, fun f hf => absurd hf List.not_mem_nil⟩
  | cons f fields ih =>
    rw [checkFields] at h
    cases hchk : check u admin db principal f with
    | error e =>
      rw [hchk] at h
      cases h
    | ok chk =>
      rw [hchk, Except.bind] at h
      by_cases hallowed : chk.allowed = true
      · rw [if_pos hallowed] at h
        obtain ⟨hpre, hrest⟩ := ih h
        refine ⟨(List.prefix_append _ _).trans hpre, fun f' hf' => ?_⟩
        rcases List.mem_cons.mp hf' with rfl | hf'
        · exact ⟨chk, hchk, hallowed, hpre.subset (List.mem_append_right _ (by simp))⟩
        · exact hrest f' hf'
      · rw [if_neg hallowed] at h
        cases h

theorem gate_authorised {db : Db} {c : Reclassify} {current : Entity} {klass : ChangeClass}
    (h : gate u admin db c = .ok (.inr (current, klass, via))) :
    Authorised u admin db (c.principal.getD admin) (touchedFields current c.change) via := by
  unfold gate at h
  split at h
  · cases h
  next current' hcur =>
  split at h
  · cases h
  dsimp only at h
  split at h
  · cases h
  split at h
  · cases h
  next reason via' hcheck =>
    cases h
    intro f hf
    exact (checkFields_authorised hcheck).2 f (mem_sortedSet.mpr hf)
  · cases h

theorem gate_answer {db : Db} {c : Reclassify} {result : MutationResult}
    (h : gate u admin db c = .ok (.inl result)) (hallowed : result.allowed = true) :
    result.changeClass = .noop := by
  unfold gate at h
  split at h
  · cases h
  split at h
  · cases h
  dsimp only at h
  split at h
  · next hnoop =>
    cases h
    exact hnoop
  split at h
  · cases h
  · cases h
  · cases h
    cases hallowed

/-! ## The evidence -/

/-- The assertion names the actor and the scopes, on the word of the broker. -/
def Names (c : Reclassify) (via : List (String × String)) (a : Assertion) : Prop :=
  a.authority = "broker-derived" ∧ ∃ fields, a.value = .obj fields ∧
    ("actor", .str c.actor) ∈ fields ∧ ("delegated_via", viaJson via) ∈ fields

/-- A transaction of the call sealed an assertion with the actor and the scopes. -/
def Evident (s s' : Store) (c : Reclassify) (via : List (String × String)) : Prop :=
  ∃ a now ws, Names c via a ∧ assertionWrite a now ∈ ws ∧ Wrote s s' ws

theorem writes_recordAssertion {a : Assertion} (ha : a.authority = "broker-derived") (now : ℤ) :
    Op.writes u (.recordAssertion a now) = [assertionWrite a now] := by
  have hwrites : assertionWrites u a now = .ok [assertionWrite a now] := by
    rw [assertionWrites, ha]
    rfl
  rw [Op.writes, hwrites]
  rfl

/-- What a branch of the call may do: answer without a write, raise, or leave its evidence. -/
structure Done (s : Store) (c : Reclassify) (via : List (String × String))
    (r : Store × Except MutationExc MutationResult) : Prop where
  denied : ∀ result, r.2 = .ok result → result.allowed = false → r.1 = s
  raised : ∀ e, r.2 = .error e → r.1.scope = s.scope ∧ (s.scope = none → r.1 = s)
  allowed : ∀ result, r.2 = .ok result → result.allowed = true → Evident s r.1 c via

theorem done_denied {s : Store} {c : Reclassify} {result : MutationResult}
    (h : result.allowed = false) : Done s c via (s, .ok result) := by
  refine ⟨fun _ _ _ => rfl, fun e he => (by cases he), fun result' hr hallowed => ?_⟩
  cases hr
  rw [h] at hallowed
  cases hallowed

/-- A branch that runs one transaction: it raises if the transaction does, and is allowed
otherwise. -/
theorem done_transaction {α : Type} {s : Store} {c : Reclassify}
    {body : Store → Store × Except Exc α} {ws : List Write}
    {r : Store × Except MutationExc MutationResult} (hbody : Recorded s.enter (body s.enter) ws)
    (hevident : ∀ v, (body s.enter).2 = .ok v → Evident s.enter (body s.enter).1 c via)
    (hstore : r.1 = (s.transaction body).1)
    (hok : ∀ v, (s.transaction body).2 = .ok v → ∃ result, r.2 = .ok result ∧ result.allowed = true)
    (herror : ∀ e, (s.transaction body).2 = .error e → ∃ e', r.2 = .error e') :
    Done s c via r := by
  cases ht : (s.transaction body).2 with
  | ok v =>
    obtain ⟨result, hr, hallowed⟩ := hok v ht
    refine ⟨fun result' hr' hdenied => ?_, fun e he => ?_, fun result' _ _ => ?_⟩
    · cases hr.symm.trans hr'
      rw [hallowed] at hdenied
      cases hdenied
    · cases hr.symm.trans he
    · obtain ⟨hbodyok, hwrote⟩ := wrote_transaction ht
      obtain ⟨a, now, ws', hnames, hmem, hws'⟩ := hevident v hbodyok
      rw [hstore]
      exact ⟨a, now, ws', hnames, hmem, hwrote ws' hws'⟩
  | error e =>
    obtain ⟨e', hr⟩ := herror e ht
    refine ⟨fun result' hr' _ => ?_, fun _ _ => ?_, fun result' hr' _ => ?_⟩
    · cases hr.symm.trans hr'
    · rw [hstore]
      exact transaction_raised hbody ht
    · cases hr.symm.trans hr'

theorem done_tighten (s : Store) (current : Entity) (c : Reclassify)
    (via : List (String × String)) : Done s c via (doTighten u current c via s) := by
  obtain ⟨ws, hrec, -⟩ := recorded_tightenBody (u := u) current c via s.enter
  refine done_transaction hrec (fun v hv => ?_) rfl (fun v hv => ?_) fun e he => ?_
  · have hnames : Names c via (tightenAssertion current c via) := ⟨rfl, _, rfl, by simp, by simp⟩
    have hmem : assertionWrite (tightenAssertion current c via) (c.clock 1) ∈
        [Op.recordEntity (tightened current c) (c.clock 0),
          .recordAssertion (tightenAssertion current c via) (c.clock 1)].flatMap (Op.writes u) := by
      rw [List.flatMap_cons, List.flatMap_cons, writes_recordAssertion rfl]
      simp
    unfold tightenBody at hv ⊢
    cases hp : s.enter.performAll u [.recordEntity (tightened current c) (c.clock 0),
        .recordAssertion (tightenAssertion current c via) (c.clock 1)] with
    | mk s₁ r =>
      rw [hp] at hv
      cases r with
      | error e => cases hv
      | ok r =>
        have hfirst := wrote_performAll (u := u) (by simp [Op.Records]) (congrArg Prod.snd hp)
        rw [hp] at hfirst
        dsimp only at hv ⊢
        split at hv
        · next hprop =>
          rw [if_pos hprop]
          obtain ⟨_, hrest, -⟩ := except_map_ok hv
          refine ⟨_, _, _, hnames, List.mem_append_left _ hmem,
            hfirst.trans (wrote_performAll (fun op hop => ?_) hrest)⟩
          obtain ⟨i, hi, rfl⟩ := List.mem_mapIdx.mp hop
          trivial
        · next hprop =>
          rw [if_neg hprop]
          exact ⟨_, _, _, hnames, hmem, hfirst⟩
  · rw [doTighten, Prod.map_snd, hv]
    exact ⟨_, rfl, rfl⟩
  · rw [doTighten, Prod.map_snd, he]
    exact ⟨_, rfl⟩

theorem done_state (s : Store) (current : Entity) (c : Reclassify)
    (via : List (String × String)) : Done s c via (doState u current c via s) := by
  unfold doState
  dsimp only
  generalize c.change.declassification.getD "" = target
  split
  · exact ⟨fun _ hr _ => (by cases hr), fun _ _ => ⟨rfl, fun _ => rfl⟩, fun _ hr _ => (by cases hr)⟩
  split
  · exact done_denied rfl
  split
  · exact done_denied rfl
  have hops : ∀ op ∈ [Op.recordEntity (moved current c target) (c.clock 0),
      .recordAssertion (stateAssertion current c via target) (c.clock 1)], op.Records := by
    simp [Op.Records]
  have hrec := recorded_performAll (u := u) _ hops s.enter
  refine @done_transaction via Unit s c (fun s => s.performAll u
    [.recordEntity (moved current c target) (c.clock 0),
      .recordAssertion (stateAssertion current c via target) (c.clock 1)]) _ _ hrec
    (fun v hv => ?_) (Prod.map_fst _ _ _) (fun v hv => ?_) fun e he => ?_
  · refine ⟨stateAssertion current c via target, c.clock 1, _, ⟨rfl, _, rfl, by simp, by simp⟩, ?_,
      wrote_performAll (u := u) hops hv⟩
    rw [List.flatMap_cons, List.flatMap_cons, writes_recordAssertion rfl]
    simp
  · rw [Prod.map_snd, hv]
    exact ⟨_, rfl, rfl⟩
  · rw [Prod.map_snd, he]
    exact ⟨_, rfl⟩

theorem done_narrow (s : Store) (current : Entity) (c : Reclassify)
    (via : List (String × String)) : Done s c via (doNarrow u current c via s) := by
  obtain ⟨ws, hrec, -⟩ := recorded_narrowBody (u := u) current c via s.enter
  unfold doNarrow
  split
  · exact done_denied rfl
  split
  · exact done_denied rfl
  have hevident : ∀ out, (narrowBody u current c via s.enter).2 = .ok out →
      Evident s.enter (narrowBody u current c via s.enter).1 c via := by
    intro out hout
    unfold narrowBody at hout ⊢
    cases hd : s.enter.declassify u (declassifyCall current c) with
    | mk s₁ r =>
      rw [hd] at hout
      cases r with
      | error e => cases hout
      | ok out' =>
        dsimp only at hout ⊢
        rw [Prod.map_snd] at hout
        obtain ⟨_, hcontext, -⟩ := except_map_ok hout
        have hfirst : Wrote s.enter s₁ ((declassifyCall current c).ops.flatMap (Op.writes u)) := by
          unfold Store.declassify at hd
          split at hd
          · cases hd
          split at hd
          · cases hd
          have hstore := congrArg Prod.fst hd
          have hresult := congrArg Prod.snd hd
          rw [Prod.map_fst] at hstore
          rw [Prod.map_snd] at hresult
          obtain ⟨v, hv, -⟩ := except_map_ok hresult
          obtain ⟨hbody, hwrote⟩ := wrote_transaction hv
          rw [← show _ = s₁ from hstore]
          exact hwrote _ (wrote_performAll (records_declassifyOps _) hbody)
        refine ⟨contextAssertion current c via out', c.contextNow, _,
          ⟨rfl, _, rfl, by simp, by simp⟩, ?_,
          hfirst.trans (wrote_performAll (u := u) (by simp [Op.Records]) hcontext)⟩
        rw [List.flatMap_cons, writes_recordAssertion rfl]
        simp
  cases ht : s.transaction (narrowBody u current c via) with
  | mk s₁ r =>
    have hfst : s₁ = (s.transaction (narrowBody u current c via)).1 := by rw [ht]
    have hsnd : (s.transaction (narrowBody u current c via)).2 = r := by rw [ht]
    cases r with
    | error e =>
      refine done_transaction hrec hevident hfst (fun v hv => ?_) fun _ _ => ⟨_, rfl⟩
      cases hsnd.symm.trans hv
    | ok out =>
      refine done_transaction hrec hevident hfst (fun _ _ => ⟨_, rfl, rfl⟩) fun e he => ?_
      cases hsnd.symm.trans he

/-- **A `reclassify` call is all or nothing, with evidence.**  Denied, it leaves the store alone;
raising, it leaves it as it was unless a transaction is open around the call, which it leaves open;
allowed and not without effect, it has sealed a broker-derived assertion with the actor and, for
every field it touches, the scope that authorises it. -/
theorem reclassify_evident (u : UnicodeDb) (admin : String) (s : Store) (c : Reclassify) :
    (∀ result, (reclassify u admin s c).2 = .ok result → result.allowed = false →
      (reclassify u admin s c).1 = s) ∧
    (∀ e, (reclassify u admin s c).2 = .error e →
      (reclassify u admin s c).1.scope = s.scope ∧
        (s.scope = none → (reclassify u admin s c).1 = s)) ∧
    ∀ result, (reclassify u admin s c).2 = .ok result → result.allowed = true →
      result.changeClass ≠ .noop →
      ∃ current via, s.db.getEntity c.eid = some current ∧
        Authorised u admin s.db (c.principal.getD admin) (touchedFields current c.change) via ∧
        Evident s (reclassify u admin s c).1 c via := by
  cases hgate : gate u admin s.db c with
  | error e =>
    have heq : reclassify u admin s c = (s, .error e) := by rw [reclassify, hgate]
    rw [heq]
    exact ⟨fun _ _ _ => rfl, fun _ _ => ⟨rfl, fun _ => rfl⟩, fun _ hr => (by cases hr)⟩
  | ok answer =>
    cases answer with
    | inl result =>
      have heq : reclassify u admin s c = (s, .ok result) := by rw [reclassify, hgate]
      rw [heq]
      refine ⟨fun _ _ _ => rfl, fun _ hr => (by cases hr), fun result' hr hallowed hne => ?_⟩
      cases hr
      exact absurd (gate_answer hgate hallowed) hne
    | inr plan =>
      obtain ⟨current, klass, via⟩ := plan
      have hdone : Done s c via (reclassify u admin s c) := by
        rw [reclassify, hgate]
        cases klass with
        | narrow => exact done_narrow s current c via
        | state => exact done_state s current c via
        | tighten => exact done_tighten s current c via
        | noop => exact done_tighten s current c via
      refine ⟨hdone.denied, hdone.raised, fun result hr hallowed _ => ?_⟩
      exact ⟨current, via, (gate_spec hgate).1, gate_authorised hgate,
        hdone.allowed result hr hallowed⟩

/-- A narrowing that fails at its derivative, whose kind is none. -/
def failingNarrow : Reclassify :=
  { request { guards := some [] } (some "person:officer") with
    policyVerdict := some declassifyVerdict
    outputKind := "" }

/-- Inside an open transaction the rows before the failure stay, for the outer one to decide. -/
theorem raised_keeps_rows :
    (reclassify UnicodeDb.ascii adminAppPrincipal restrictedStore.enter
      failingNarrow).2.toOption.isNone = true ∧
    ((reclassify UnicodeDb.ascii adminAppPrincipal restrictedStore.enter
      failingNarrow).1.db.cells .activities).length ≠
        (restrictedStore.enter.db.cells .activities).length := by
  decide +kernel

end SecurityMutation
