/-
# The rows of a chokepoint that returned

A chokepoint that returns has made its method calls in order and every one of them has
returned (`Performed`).  So the rows it added are those of its calls: the receipts among them
are the sealed envelopes, and the newest snapshot of an artifact is the one the call recorded.
A chokepoint that raises is rolled back, and one that denies records no receipt.
-/
import QDistro.LineageReceipts
import QDistro.GuardPropagation
import QDistro.ExportLineage

open JsonText

namespace Lineage

open List

open ChokepointCall

open Store

variable {u : UnicodeDb}

/-! ## Calls that return -/

/-- The method calls were made in order, and each returned. -/
structure Performed (u : UnicodeDb) (s s' : Store) (ops : List Op) : Prop where
  rows : Extends s s' (ops.flatMap (Op.writes u))
  returned : ∀ op ∈ ops, ∃ (t : Store) (r : Reply), (t.perform u op).2 = .ok r

theorem Performed.nil (s : Store) : Performed u s s [] := ⟨.refl s, fun _ h => nomatch h⟩

variable {s s' : Store}

theorem Performed.trans {s'' : Store} {ops ops' : List Op} (h : Performed u s s' ops)
    (h' : Performed u s' s'' ops') : Performed u s s'' (ops ++ ops') := by
  refine ⟨?_, fun op hop => ?_⟩
  · rw [flatMap_append]
    exact h.rows.trans h'.rows
  · rcases mem_append.mp hop with hop | hop
    · exact h.returned op hop
    · exact h'.returned op hop

theorem Store.performAll_returned {ops : List Op} {v : Unit}
    (h : s.performAll u ops = (s', .ok v)) :
    ∀ op ∈ ops, ∃ (t : Store) (r : Reply), (t.perform u op).2 = .ok r := by
  induction ops generalizing s with
  | nil => exact fun _ hop => nomatch hop
  | cons op ops ih =>
    rw [performAll] at h
    split at h
    · next t r heq =>
      intro op' hop'
      rcases mem_cons.mp hop' with rfl | hop'
      · exact ⟨s, r, by rw [heq]⟩
      · exact ih h op' hop'
    · cases h

theorem performed_performAll {ops : List Op} (hrecords : ∀ op ∈ ops, op.Records) {v : Unit}
    (h : s.performAll u ops = (s', .ok v)) : Performed u s s' ops := by
  refine ⟨?_, performAll_returned h⟩
  obtain ⟨ws, -, hext, hok⟩ := s.performAll_extends (u := u) hrecords
  rw [h] at hext hok
  rw [hok v rfl] at hext
  exact hext

theorem Performed.transaction {α : Type} {body : Store → Store × Except Exc α} {v : α}
    {ops : List Op} (h : s.transaction body = (s', .ok v))
    (hbody : ∀ t, body s.enter = (t, .ok v) → Performed u s.enter t ops) :
    Performed u s s' ops := by
  rw [Store.transaction] at h
  split at h
  · next t w heq =>
    cases h
    have hdone := hbody t heq
    refine ⟨?_, hdone.returned⟩
    rcases hdone.rows.leave false with hext | ⟨hraised, -⟩
    · exact hext
    · cases hraised
  · cases h

theorem Store.transaction_result {α : Type} {body : Store → Store × Except Exc α} {v : α}
    (h : s.transaction body = (s', .ok v)) : ∃ t, body s.enter = (t, .ok v) := by
  rw [transaction] at h
  split at h
  · next t w heq =>
    cases h
    exact ⟨t, heq⟩
  · cases h

/-- **A transaction that raises** at the outermost scope leaves the store as it was. -/
theorem Store.transaction_rollback {α : Type} {body : Store → Store × Except Exc α} {e : Exc}
    (hscope : s.scope = none) (h : s.transaction body = (s', .error e))
    (hbody : (body s.enter).1.scope = s.enter.scope) : s' = s := by
  have henter : s.enter.scope = some (s.db, 0) := by
    rw [enter, hscope]
  rw [transaction] at h
  split at h
  · cases h
  · next t e' heq =>
    rw [heq, henter] at hbody
    cases h
    rw [leave, hbody]
    cases s
    cases hscope
    rfl

/-! ## Rows of calls that returned -/

theorem Store.record_returned {writes : Except Err (List Write)} {ids : List ℤ}
    (h : (s.record writes).2 = .ok ids) :
    ∃ ws, writes = .ok ws ∧ ∀ w ∈ ws, w.Storable := by
  cases writes with
  | error e => cases h
  | ok ws =>
    have hresult : (s.record (.ok ws)).2 = (s.db.writeAll ws).2 :=
      s.txn_result fun db => db.writeAll ws
    exact ⟨ws, rfl, Db.writeAll_ok (hresult.symm.trans h)⟩

theorem Write.Storable.cellsIn {w : Write} (h : w.Storable) : ∃ cells, w.cellsIn w.table = some cells := by
  obtain ⟨p, hp⟩ := Option.ne_none_iff_exists'.mp h
  exact ⟨p.1, by rw [Write.cellsIn, if_pos rfl, hp]; rfl⟩

variable {now : ℤ}

theorem perform_recordEntity {ent : Entity} {r : Reply}
    (h : (s.perform u (.recordEntity ent now)).2 = .ok r) :
    ∃ cells, (entityWrite ent now).cellsIn .entities = some cells ∧
      cellsOf ((Op.recordEntity ent now).writes u) .entities = [cells] := by
  obtain ⟨ids, hids, -⟩ := except_map_ok h
  obtain ⟨ws, hws, hstor⟩ := record_returned hids
  obtain rfl := Except.ok.inj (ok_of_require (ok_of_require hws))
  obtain ⟨cells, hcells⟩ := (hstor (entityWrite ent now) mem_cons_self).cellsIn
  refine ⟨cells, hcells, ?_⟩
  rw [Op.writes, hws]
  show filterMap _ [entityWrite ent now] = [cells]
  rw [filterMap_cons, show Write.cellsIn .entities (entityWrite ent now) = some cells from hcells]
  rfl

theorem perform_recordReceipt {r : Receipt} {reply : Reply}
    (h : (s.perform u (.recordReceipt r now)).2 = .ok reply) :
    ∃ cells, (receiptWrite r now).cellsIn .receipts = some cells ∧
      cellsOf ((Op.recordReceipt r now).writes u) .receipts = [cells] := by
  obtain ⟨ids, hids, -⟩ := except_map_ok h
  obtain ⟨ws, hws, hstor⟩ := record_returned hids
  obtain rfl := Except.ok.inj (ok_of_require hws)
  obtain ⟨cells, hcells⟩ := (hstor (receiptWrite r now) mem_cons_self).cellsIn
  refine ⟨cells, hcells, ?_⟩
  rw [Op.writes, hws]
  show filterMap _ [receiptWrite r now] = [cells]
  rw [filterMap_cons, show Write.cellsIn .receipts (receiptWrite r now) = some cells from hcells]
  rfl

/-! ## Reading back a receipt -/

/-- **A receipt is read back as it was recorded**, its payload with sorted keys. -/
theorem readReceipt_receiptWrite {r : Receipt} {cells : List Cell}
    (h : (receiptWrite r now).cellsIn .receipts = some cells) (hd : Distinct (.obj r.payload)) :
    colOf .receipts cells "entity" = .text r.entity ∧
      readReceipt cells =
        ⟨some r.kind, if r.payload = [] then none else some (sortKeys (.obj r.payload))⟩ := by
  rw [Write.cellsIn, if_pos (by rfl), Option.map_eq_some_iff] at h
  obtain ⟨⟨_, cache⟩, hst, rfl⟩ := h
  have hcells := mapM_eq_some_iff.mp (Write.stored_eq hst)
  simp only [receiptWrite, forall₂_cons_left_iff, forall₂_nil_left_iff] at hcells
  obtain ⟨c₁, _, h₁, ⟨c₂, _, h₂, ⟨c₃, _, h₃, ⟨c₄, _, h₄, ⟨c₅, _, h₅, ⟨c₆, _, h₆, rfl, rfl⟩, rfl⟩,
    rfl⟩, rfl⟩, rfl⟩, rfl⟩ := hcells
  cases h₁
  cases h₂
  refine ⟨rfl, ?_⟩
  have hkind : colOf .receipts [.text r.entity, .text r.kind, c₃, c₄, c₅, c₆] "kind" =
      .text r.kind := rfl
  have hpayload : colOf .receipts [.text r.entity, .text r.kind, c₃, c₄, c₅, c₆] "payload" = c₅ :=
    rfl
  rw [readReceipt, hkind, hpayload, Param.str?_store_ofText h₅, jdict]
  by_cases hp : r.payload = []
  · rw [if_pos hp, if_pos hp]
    rfl
  · have hne : String.ofList (dumpsSorted defaultSeps (.obj r.payload)) ≠ "" := by
      intro hempty
      have hlen := congrArg (fun t => t.toList.length) hempty
      have hpos := dumps_length_pos defaultSeps (sortKeys (.obj r.payload))
      simp only [String.toList_ofList, dumpsSorted] at hlen
      rw [hlen] at hpos
      exact Nat.lt_irrefl 0 hpos
    rw [if_neg hp, if_neg hp, Option.bind_some, if_neg hne, String.toList_ofList,
      loads_dumpsSorted defaultSeps hd]
    rfl

theorem isSealed_readReceipt {r : Receipt} {cells : List Cell} {kind : Json} {want : List UInt8}
    (h : (receiptWrite r now).cellsIn .receipts = some cells) (hd : Distinct (.obj r.payload)) :
    (readReceipt cells).isSealed kind want = true ↔
      kind = .str r.kind ∧ r.payload ≠ [] ∧ canonicalBytes (.obj r.payload) = some want := by
  have hkind : isText r.kind kind = true ↔ kind = .str r.kind := by
    cases kind <;> simp [isText]
  rw [(readReceipt_receiptWrite h hd).2, StoredReceipt.isSealed, Option.any_some, Bool.and_eq_true,
    hkind]
  by_cases hp : r.payload = []
  · simp [hp]
  · have hnull : isNull (sortKeys (.obj r.payload)) = false := by
      rw [sortKeys]
      rfl
    rw [if_neg hp, Option.any_some, hnull, canonicalBytes_sortKeys]
    simp [hp]

section Rows

variable {s s' : Store} {ops : List Op}

theorem Performed.mem_receipts (h : Performed u s s' ops) (cells : List Cell) :
    cells ∈ s'.db.cells .receipts ↔ cells ∈ s.db.cells .receipts ∨
      ∃ r now, .recordReceipt r now ∈ ops ∧
        (receiptWrite r now).cellsIn .receipts = some cells := by
  rw [h.rows.cells, mem_append, cellsOf_flatMap, mem_flatMap]
  refine or_congr_right ⟨?_, ?_⟩
  · rintro ⟨op, hop, hcells⟩
    have htable : Table.receipts ∈ op.tables := by
      by_contra hnot
      rw [Op.cellsOf_writes hnot] at hcells
      exact not_mem_nil hcells
    obtain ⟨t, reply, hreply⟩ := h.returned op hop
    cases op with
    | recordReceipt r now =>
      obtain ⟨cells', hcells', heq⟩ := perform_recordReceipt hreply
      rw [heq, mem_singleton] at hcells
      exact ⟨r, now, hop, hcells ▸ hcells'⟩
    | _ => simp [Op.tables] at htable
  · rintro ⟨r, now, hop, hcells⟩
    obtain ⟨t, reply, hreply⟩ := h.returned _ hop
    obtain ⟨cells', hcells', heq⟩ := perform_recordReceipt hreply
    rw [hcells] at hcells'
    cases hcells'
    exact ⟨_, hop, by rw [heq]; exact mem_cons_self⟩

theorem Performed.getEntity (h : Performed u s s' ops) {eid : String}
    (hdistinct : ∀ ent now, .recordEntity ent now ∈ ops → Distinct (.obj ent.facets))
    (hsome : ∃ ent now, .recordEntity ent now ∈ ops ∧ ent.eid = eid) :
    ∃ ent now, .recordEntity ent now ∈ ops ∧ ent.eid = eid ∧
      s'.db.getEntity eid = some (ent.readBack now) := by
  have hrow : ∀ ent now, .recordEntity ent now ∈ ops →
      ∃ cells ∈ cellsOf (ops.flatMap (Op.writes u)) .entities,
        colOf .entities cells "eid" = .text ent.eid := by
    intro ent now hop
    obtain ⟨t, reply, hreply⟩ := h.returned _ hop
    obtain ⟨cells, hcells, heq⟩ := perform_recordEntity hreply
    refine ⟨cells, ?_, (readEntity_entityWrite hcells (hdistinct ent now hop)).1⟩
    rw [cellsOf_flatMap, mem_flatMap]
    exact ⟨_, hop, by rw [heq]; exact mem_cons_self⟩
  -- some row has the identifier, so there is a newest one
  obtain ⟨found, hfound⟩ : ∃ ent, latest (cellsOf (ops.flatMap (Op.writes u)) .entities) eid = some ent := by
    obtain ⟨ent, now, hop, heid⟩ := hsome
    obtain ⟨cells, hmem, hcol⟩ := hrow ent now hop
    have hfilter : cells ∈ (cellsOf (ops.flatMap (Op.writes u)) .entities).filter
        fun cells => colOf .entities cells "eid" = .text eid :=
      mem_filter.mpr ⟨hmem, by rw [hcol, heid]; exact decide_eq_true rfl⟩
    obtain ⟨last, hlast⟩ := Option.isSome_iff_exists.mp
      (getLast?_isSome.mpr (ne_nil_of_mem hfilter))
    exact ⟨readEntity last, by rw [latest, hlast]; rfl⟩
  obtain ⟨cells, hmem, hcol, hread⟩ := latest_mem hfound
  rw [cellsOf_flatMap, mem_flatMap] at hmem
  obtain ⟨op, hop, hcells⟩ := hmem
  have htable : Table.entities ∈ op.tables := by
    by_contra hnot
    rw [Op.cellsOf_writes hnot] at hcells
    exact not_mem_nil hcells
  obtain ⟨t, reply, hreply⟩ := h.returned op hop
  cases op with
  | recordEntity ent now =>
    obtain ⟨cells', hcells', heq⟩ := perform_recordEntity hreply
    rw [heq, mem_singleton] at hcells
    subst hcells
    obtain ⟨heid, hback⟩ := readEntity_entityWrite hcells' (hdistinct ent now hop)
    rw [heid] at hcol
    refine ⟨ent, now, hop, Cell.text.inj hcol, ?_⟩
    rw [h.rows.getEntity, hfound, Option.some_or, ← hread, hback]
  | _ => simp [Op.tables] at htable

end Rows

/-! ## Chokepoints that return -/

theorem Op.IsRecord.records {op : Op} (h : op.IsRecord) : op.Records := by
  cases op <;> trivial

theorem Recorded.scope {α : Type} {r : Store × Except Exc α} {ws : List Write}
    (h : Recorded s r ws) : r.1.scope = s.scope := by
  obtain ⟨ws', -, hext, -⟩ := h
  exact hext.scope

theorem recorded_recordChokepoint (s : Store) (c : ChokepointCall) :
    Recorded s (s.recordChokepoint u c) ((c.ops u).flatMap (Op.writes u)) := by
  unfold recordChokepoint
  split
  · exact ⟨[], nil_prefix, .refl s, fun v hv => nomatch hv⟩
  · exact ((recorded_performAll (c.ops u) (fun op hop => (c.isRecord_ops op hop).records) _).transaction
      (fun s => s.performAll u (c.ops u))).map _

theorem performed_recordChokepoint {c : ChokepointCall} {res : ChokepointResult}
    (h : s.recordChokepoint u c = (s', .ok res)) : Performed u s s' (c.ops u) := by
  unfold recordChokepoint at h
  split at h
  · cases h
  · cases htxn : s.transaction fun s => s.performAll u (c.ops u) with
    | mk t r =>
      rw [htxn] at h
      cases r with
      | error e => cases h
      | ok v =>
        cases h
        exact Performed.transaction htxn fun _ hbody =>
          performed_performAll (fun op hop => (c.isRecord_ops op hop).records) hbody

theorem ChokepointCall.mem_ops {c : ChokepointCall} {op : Op} (h : op ∈ c.ops u) :
    (Table.entities ∉ op.tables ∧ Table.receipts ∉ op.tables) ∨
      c.mints u = true ∧ ∃ now, op = .recordEntity (c.outputEntity u) now := by
  obtain ⟨f, hf, t, rfl⟩ := mem_mapIdx_clock h
  rcases mem_append.mp hf with hf | hf
  · left
    rw [activityOps] at hf
    simp only [mem_cons, mem_append, mem_map] at hf
    rcases hf with rfl | ⟨gid, -, rfl⟩ | ⟨i, -, rfl⟩
    · simp [Op.tables]
    · simp [Op.tables, edge]
    · simp [Op.tables, edge]
  · split at hf
    · next hmints =>
      rw [outputEdges] at hf
      simp only [mem_cons, mem_append, mem_map] at hf
      rcases hf with rfl | rfl | ⟨i, -, rfl⟩ | ⟨gid, -, rfl⟩
      · exact .inr ⟨hmints, t, rfl⟩
      · simp [Op.tables, edge]
      · simp [Op.tables, edge]
      · simp [Op.tables, edge]
    · exact absurd hf not_mem_nil

theorem ChokepointCall.no_receipt (c : ChokepointCall) (r : Receipt) (now : ℤ) :
    .recordReceipt r now ∉ c.ops u := by
  intro hop
  rcases mem_ops hop with ⟨-, hnone⟩ | ⟨-, now', heq⟩
  · exact hnone mem_cons_self
  · cases heq

theorem ChokepointCall.entity_of_mem {c : ChokepointCall} {ent : Entity}
    (hop : .recordEntity ent now ∈ c.ops u) : c.mints u = true ∧ ent = c.outputEntity u := by
  rcases mem_ops hop with ⟨hnone, -⟩ | ⟨hmints, now', heq⟩
  · exact absurd mem_cons_self hnone
  · cases heq
    exact ⟨hmints, rfl⟩

theorem ChokepointCall.entity_mem {c : ChokepointCall} (h : c.mints u = true) :
    ∃ now, .recordEntity (c.outputEntity u) now ∈ c.ops u := by
  rw [ops, h, if_pos rfl, mapIdx_append, mapIdx_cons]
  exact ⟨_, mem_append_right _ mem_cons_self⟩

/-! ## Commits -/

/-- The receipt of a commit. -/
def CommitCall.receipt (c : CommitCall) (env : List (String × Json)) : Receipt :=
  ⟨c.commitEid, "git-trailer", c.branch, c.treeDigest, env⟩

/-- What a commit that returned has built and recorded. -/
structure CommitDone (u : UnicodeDb) (s : Store) (c : CommitCall) (env : List (String × Json))
    (s' : Store) : Prop where
  built : ∃ head, buildEnvelope u ⟨c.commitEid, "git-trailer", head, c.now, c.treeDigest, c.branch,
    lineageIssuer, none⟩ = .ok env
  performed : ∃ inputs, (c.chokepoint inputs).mints u = true ∧
    Performed u s s' ((c.chokepoint inputs).ops u ++ [.recordReceipt (c.receipt env) c.receiptNow])

theorem recordCommitReceipt_done {c : CommitCall} {env : List (String × Json)}
    (h : s.recordCommitReceipt u c = (s', .ok env)) :
    (∃ head, buildEnvelope u ⟨c.commitEid, "git-trailer", head, c.now, c.treeDigest, c.branch,
      lineageIssuer, none⟩ = .ok env) ∧
      Performed u s s' [.recordReceipt (c.receipt env) c.receiptNow] := by
  unfold recordCommitReceipt at h
  split at h
  · cases h
  · next env' hbuilt =>
    cases hperform : s.performAll u [.recordReceipt (c.receipt env') c.receiptNow] with
    | mk t r =>
      rw [CommitCall.receipt] at hperform
      rw [hperform] at h
      cases r with
      | error e => cases h
      | ok v =>
        cases h
        exact ⟨⟨_, hbuilt⟩, performed_performAll (by simp [Op.Records]) hperform⟩

theorem recordCommitReceipt_scope (s : Store) (c : CommitCall) :
    (s.recordCommitReceipt u c).1.scope = s.scope := by
  unfold recordCommitReceipt
  split
  · rfl
  · exact (recorded_performAll (u := u) [_] (by simp [Op.Records]) s).scope

theorem CommitCall.mints_chokepoint (c : CommitCall) (inputs : List ChokepointInput) :
    (c.chokepoint inputs).mints u = (c.chokepoint inputs).allowed u := by
  have h : derivingChokepoints.elem (c.chokepoint inputs).chokepoint = true := by
    change derivingChokepoints.elem "commit-create" = true
    decide
  rw [mints, h, Bool.and_true]

/-- The body of the transaction of `record_commit`. -/
def commitBody (u : UnicodeDb) (c : CommitCall) (call : ChokepointCall) (s : Store) :
    Store × Except Exc (Option (List (String × Json))) :=
  match s.recordChokepoint u call with
  | (s', .error e) => (s', .error e)
  | (s', .ok res) =>
    if res.allowed then (s'.recordCommitReceipt u c).map id (·.map some) else (s', .ok none)

theorem commitBody_scope (c : CommitCall) (call : ChokepointCall) (s : Store) :
    (commitBody u c call s).1.scope = s.scope := by
  have hfirst := (recorded_recordChokepoint (u := u) s call).scope
  unfold commitBody
  split
  · next heq =>
    rw [heq] at hfirst
    exact hfirst
  · next t res heq =>
    rw [heq] at hfirst
    split
    · exact (recordCommitReceipt_scope t c).trans hfirst
    · exact hfirst

/-- What is raised for a denied commit. -/
def commitDenial (u : UnicodeDb) (call : ChokepointCall) : Exc :=
  .commitDenied ((call.flows u).flatMap FlowVerdict.reasons)

theorem recordCommit_of_check {c : CommitCall} {inputs : List ChokepointInput}
    (h : c.check u s.db = .ok inputs) :
    s.recordCommit u c =
      let (s', r) := s.transaction (commitBody u c (c.chokepoint inputs))
      (s', r.bind fun envelope? => match envelope? with
        | some envelope => .ok envelope
        | none => .error (commitDenial u (c.chokepoint inputs))) := by
  rw [recordCommit, h]
  rfl

theorem transaction_scope {α : Type} {body : Store → Store × Except Exc α}
    (hbody : ∀ t, (body t).1.scope = t.scope) : (s.transaction body).1.scope = s.scope := by
  have hleave : ∀ (t : Store) raised, t.scope = s.enter.scope → (t.leave raised).scope = s.scope := by
    intro t raised ht
    rw [leave, ht, enter]
    cases hs : s.scope with
    | none => rfl
    | some p => rfl
  have hscope := hbody s.enter
  rw [transaction]
  split
  · next heq =>
    rw [heq] at hscope
    exact hleave _ _ hscope
  · next heq =>
    rw [heq] at hscope
    exact hleave _ _ hscope

theorem commitBody_returned {t : Store} {c : CommitCall} {inputs : List ChokepointInput}
    {envelope? : Option (List (String × Json))}
    (h : commitBody u c (c.chokepoint inputs) s = (t, .ok envelope?)) :
    match envelope? with
    | none => Performed u s t ((c.chokepoint inputs).ops u)
    | some env =>
      (∃ head, buildEnvelope u ⟨c.commitEid, "git-trailer", head, c.now, c.treeDigest, c.branch,
        lineageIssuer, none⟩ = .ok env) ∧
      (c.chokepoint inputs).mints u = true ∧
      Performed u s t ((c.chokepoint inputs).ops u ++
        [.recordReceipt (c.receipt env) c.receiptNow]) := by
  unfold commitBody at h
  split at h
  · cases h
  · next t' res heq =>
    have hfirst := performed_recordChokepoint heq
    have hallowed : res.allowed = (c.chokepoint inputs).allowed u :=
      recordChokepoint_allowed (by rw [heq])
    split at h
    · next hyes =>
      cases hreceipt : t'.recordCommitReceipt u c with
      | mk t'' r =>
        rw [hreceipt] at h
        cases r with
        | error e => cases h
        | ok env =>
          cases h
          obtain ⟨hbuilt, hsealed⟩ := recordCommitReceipt_done hreceipt
          refine ⟨hbuilt, ?_, hfirst.trans hsealed⟩
          rw [c.mints_chokepoint, ← hallowed, hyes]
    · cases h
      exact hfirst

theorem Performed.receipts_eq {ops : List Op} (h : Performed u s s' ops)
    (hnone : ∀ op ∈ ops, Table.receipts ∉ op.tables) :
    s'.db.cells .receipts = s.db.cells .receipts := by
  rw [h.rows.cells, cellsOf_flatMap_eq_nil hnone, append_nil]

theorem ChokepointCall.receipts_not_mem {c : ChokepointCall} {op : Op} (h : op ∈ c.ops u) :
    Table.receipts ∉ op.tables := by
  rcases mem_ops h with ⟨-, hnone⟩ | ⟨-, now, rfl⟩
  · exact hnone
  · simp [Op.tables]

/-- **A commit** returns and has sealed its envelope, or raises and has sealed nothing. -/
theorem recordCommit_cases (s : Store) (c : CommitCall) :
    (∃ env, (s.recordCommit u c).2 = .ok env ∧ CommitDone u s c env (s.recordCommit u c).1) ∨
      ∃ e, (s.recordCommit u c).2 = .error e ∧ (s.recordCommit u c).1.scope = s.scope ∧
        (s.scope = none →
          (s.recordCommit u c).1.db.cells .receipts = s.db.cells .receipts) := by
  cases hcheck : c.check u s.db with
  | error e =>
    have heq : s.recordCommit u c = (s, .error e) := by rw [recordCommit, hcheck]
    rw [heq]
    exact .inr ⟨e, rfl, rfl, fun _ => rfl⟩
  | ok inputs =>
    rw [recordCommit_of_check hcheck]
    have hscope := transaction_scope (s := s) (commitBody_scope (u := u) c (c.chokepoint inputs))
    cases htxn : s.transaction (commitBody u c (c.chokepoint inputs)) with
    | mk s' r =>
      rw [htxn] at hscope
      cases r with
      | error e =>
        refine .inr ⟨e, rfl, hscope, fun hnone => ?_⟩
        rw [transaction_rollback hnone htxn (commitBody_scope c _ _)]
      | ok envelope? =>
        cases envelope? with
        | none =>
          have hdone : Performed u s s' _ :=
            Performed.transaction htxn fun _ hbody => commitBody_returned hbody
          exact .inr ⟨_, rfl, hscope, fun _ =>
            hdone.receipts_eq fun op hop => receipts_not_mem hop⟩
        | some env =>
          obtain ⟨t, hresult⟩ := transaction_result htxn
          obtain ⟨hbuilt, hmints, -⟩ := commitBody_returned hresult
          exact .inl ⟨env, rfl, hbuilt, inputs, hmints,
            Performed.transaction htxn fun _ hbody => (commitBody_returned hbody).2.2⟩

/-! ## Uploads -/

/-- What the envelope of an uploaded file is built from. -/
def UploadCall.envelopeArgs (c : UploadCall) (head : String) (f : UploadFile) : EnvelopeArgs :=
  ⟨f.outEid, "upload-receipt", head, c.now, some f.digest, f.locator, lineageIssuer,
    some [("destination", .str c.destination)]⟩

/-- The receipt of an uploaded file. -/
def UploadFile.receipt (f : UploadFile) (child : List (String × Json)) : Receipt :=
  ⟨f.outEid, "upload-receipt", f.locator, some f.digest, child⟩

/-- The calls for one file of an upload. -/
def UploadCall.fileOps (c : UploadCall) (p : UploadFile × List (String × Json)) : List Op :=
  c.outputOps p.1 ++ [Op.recordReceipt (p.1.receipt p.2) p.1.receiptNow]

variable {c : UploadCall}

theorem uploadFile_done {head : String} {f : UploadFile} {child : List (String × Json)}
    (h : s.uploadFile u c head f = (s', .ok child)) :
    buildEnvelope u (c.envelopeArgs head f) = .ok child ∧ Performed u s s' (c.fileOps (f, child)) := by
  unfold uploadFile at h
  split at h
  · cases h
  · next t v heq =>
    have hfirst : Performed u s t (c.outputOps f) :=
      performed_performAll (fun op hop => (c.isRecord_outputOps f op hop).records) heq
    split at h
    · cases h
    · next child' hbuilt =>
      cases hperform : t.performAll u [.recordReceipt (f.receipt child') f.receiptNow] with
      | mk t' r =>
        rw [UploadFile.receipt] at hperform
        rw [hperform] at h
        cases r with
        | error e => cases h
        | ok v =>
          cases h
          exact ⟨hbuilt, hfirst.trans (performed_performAll (by simp [Op.Records]) hperform)⟩

theorem uploadFile_scope (s : Store) (c : UploadCall) (head : String) (f : UploadFile) :
    (s.uploadFile u c head f).1.scope = s.scope := by
  have hfirst := (recorded_performAll (u := u) (c.outputOps f)
    (fun op hop => (c.isRecord_outputOps f op hop).records) s).scope
  unfold uploadFile
  split
  · next heq =>
    rw [heq] at hfirst
    exact hfirst
  · next t v heq =>
    rw [heq] at hfirst
    split
    · exact hfirst
    · exact (recorded_performAll (u := u) [_] (by simp [Op.Records]) t).scope.trans hfirst

theorem uploadFiles_done {head : String} {files : List UploadFile}
    {children : List (List (String × Json))}
    (h : s.uploadFiles u c head files = (s', .ok children)) :
    List.Forall₂ (fun f child => buildEnvelope u (c.envelopeArgs head f) = .ok child) files children ∧
      Performed u s s' ((files.zip children).flatMap c.fileOps) := by
  induction files generalizing s children with
  | nil =>
    cases h
    exact ⟨.nil, .nil _⟩
  | cons f rest ih =>
    unfold uploadFiles at h
    split at h
    · cases h
    · next t child heq =>
      obtain ⟨hbuilt, hfirst⟩ := uploadFile_done heq
      cases hrest : t.uploadFiles u c head rest with
      | mk t' r =>
        rw [hrest] at h
        cases r with
        | error e => cases h
        | ok children' =>
          cases h
          obtain ⟨hbuilts, hothers⟩ := ih hrest
          exact ⟨.cons hbuilt hbuilts, hfirst.trans hothers⟩

theorem uploadFiles_scope (c : UploadCall) (head : String) (files : List UploadFile) (s : Store) :
    (s.uploadFiles u c head files).1.scope = s.scope := by
  induction files generalizing s with
  | nil => rfl
  | cons f rest ih =>
    have hfirst := uploadFile_scope (u := u) s c head f
    unfold uploadFiles
    split
    · next heq =>
      rw [heq] at hfirst
      exact hfirst
    · next t child heq =>
      rw [heq] at hfirst
      exact (ih t).trans hfirst

theorem uploadChokepoints_done {plan : List (UploadFile × FlowEndpoint)}
    {v : List String × List String} (h : s.uploadChokepoints u c plan = (s', .ok v)) :
    Performed u s s' (plan.flatMap fun p => (c.chokepoint p).ops u) := by
  induction plan generalizing s v with
  | nil =>
    cases h
    exact .nil _
  | cons p rest ih =>
    unfold uploadChokepoints at h
    split at h
    · cases h
    · next t res heq =>
      have hfirst := performed_recordChokepoint heq
      cases hrest : t.uploadChokepoints u c rest with
      | mk t' r =>
        rw [hrest] at h
        cases r with
        | error e => cases h
        | ok w =>
          cases h
          exact hfirst.trans (ih hrest)

theorem uploadChokepoints_scope (c : UploadCall) (plan : List (UploadFile × FlowEndpoint))
    (s : Store) : (s.uploadChokepoints u c plan).1.scope = s.scope := by
  induction plan generalizing s with
  | nil => rfl
  | cons p rest ih =>
    have hfirst := (recorded_recordChokepoint (u := u) s (c.chokepoint p)).scope
    unfold uploadChokepoints
    split
    · next heq =>
      rw [heq] at hfirst
      exact hfirst
    · next t res heq =>
      rw [heq] at hfirst
      exact (ih t).trans hfirst

theorem uploadBatch_scope (c : UploadCall) (plan : List (UploadFile × FlowEndpoint)) (s : Store) :
    (uploadBatch u c plan s).1.scope = s.scope := by
  have hfirst := uploadChokepoints_scope (u := u) c plan s
  unfold uploadBatch
  dsimp only
  split
  · next heq =>
    rw [heq] at hfirst
    exact hfirst
  · next t denied reasons heq =>
    rw [heq] at hfirst
    split
    · exact (uploadFiles_scope c _ _ t).trans hfirst
    · exact hfirst

theorem uploadBatch_returned {t : Store} {plan : List (UploadFile × FlowEndpoint)}
    {outcome : List (List (String × Json)) ⊕ List String × List String}
    (h : uploadBatch u c plan s = (t, .ok outcome)) :
    match outcome with
    | .inr _ => Performed u s t (plan.flatMap fun p => (c.chokepoint p).ops u)
    | .inl children =>
      (∃ head, List.Forall₂ (fun f child => buildEnvelope u (c.envelopeArgs head f) = .ok child)
        (plan.map Prod.fst) children) ∧
      Performed u s t ((plan.flatMap fun p => (c.chokepoint p).ops u) ++
        ((plan.map Prod.fst).zip children).flatMap c.fileOps) := by
  unfold uploadBatch at h
  dsimp only at h
  split at h
  · cases h
  · next t' denied reasons heq =>
    have hfirst := uploadChokepoints_done heq
    split at h
    · cases hfiles : t'.uploadFiles u c (String.ofList s.db.chainHead) (plan.map Prod.fst) with
      | mk t'' r =>
        rw [hfiles] at h
        cases r with
        | error e => cases h
        | ok children =>
          cases h
          obtain ⟨hbuilt, hrest⟩ := uploadFiles_done hfiles
          exact ⟨⟨_, hbuilt⟩, hfirst.trans hrest⟩
    · cases h
      exact hfirst

theorem files_of_planFiles {db : Db} {seen : List String} {files : List UploadFile}
    {plan : List (UploadFile × FlowEndpoint)} (h : planFiles u db seen files = .ok plan) :
    plan.map Prod.fst = files := by
  induction files generalizing seen plan with
  | nil =>
    cases h
    rfl
  | cons f rest ih =>
    rw [planFiles] at h
    split at h
    · cases h
    split at h
    · cases h
    split at h
    · cases h
    split at h
    · cases h
    · obtain ⟨plan', hrest, rfl⟩ := except_map_ok h
      rw [map_cons, ih hrest]

theorem UploadCall.files_of_plan {db : Db} {plan : List (UploadFile × FlowEndpoint)}
    (h : c.plan u db = .ok plan) :
    plan.map Prod.fst = c.files := by
  rw [UploadCall.plan] at h
  split at h
  · cases h
  split at h
  · cases h
  exact files_of_planFiles h

/-- What an upload that returned has built and recorded. -/
structure UploadDone (u : UnicodeDb) (s : Store) (c : UploadCall)
    (children : List (List (String × Json))) (s' : Store) : Prop where
  built : ∃ head, List.Forall₂ (fun f child => buildEnvelope u (c.envelopeArgs head f) = .ok child)
    c.files children
  performed : ∃ plan : List (UploadFile × FlowEndpoint),
    Performed u s s' ((plan.flatMap fun p => (c.chokepoint p).ops u) ++
      (c.files.zip children).flatMap c.fileOps)

theorem recordUpload_of_plan {plan : List (UploadFile × FlowEndpoint)}
    (h : c.plan u s.db = .ok plan) :
    s.recordUpload u c =
      let (s', r) := s.transaction (uploadBatch u c plan)
      (s', r.bind fun outcome => match outcome with
        | .inl children => .ok children
        | .inr (denied, reasons) => .error (.uploadDenied denied reasons)) := by
  rw [recordUpload, h] <;> rfl

/-- **An upload** returns and has sealed its envelopes, or raises and has sealed nothing. -/
theorem recordUpload_cases (s : Store) (c : UploadCall) :
    (∃ children, (s.recordUpload u c).2 = .ok children ∧
        UploadDone u s c children (s.recordUpload u c).1) ∨
      ∃ e, (s.recordUpload u c).2 = .error e ∧ (s.recordUpload u c).1.scope = s.scope ∧
        (s.scope = none →
          (s.recordUpload u c).1.db.cells .receipts = s.db.cells .receipts) := by
  cases hplan : c.plan u s.db with
  | error e =>
    have heq : s.recordUpload u c = (s, .error e) := by rw [recordUpload, hplan]
    rw [heq]
    exact .inr ⟨e, rfl, rfl, fun _ => rfl⟩
  | ok plan =>
    rw [recordUpload_of_plan hplan]
    have hscope := transaction_scope (s := s) (uploadBatch_scope (u := u) c plan)
    cases htxn : s.transaction (uploadBatch u c plan) with
    | mk s' r =>
      rw [htxn] at hscope
      cases r with
      | error e =>
        refine .inr ⟨e, rfl, hscope, fun hnone => ?_⟩
        rw [transaction_rollback hnone htxn (uploadBatch_scope c plan _)]
      | ok outcome =>
        cases outcome with
        | inr denial =>
          have hdone : Performed u s s' _ :=
            Performed.transaction htxn fun _ hbody => uploadBatch_returned hbody
          refine .inr ⟨_, rfl, hscope, fun _ => hdone.receipts_eq fun op hop => ?_⟩
          obtain ⟨p, -, hop⟩ := mem_flatMap.mp hop
          exact receipts_not_mem hop
        | inl children =>
          obtain ⟨t, hresult⟩ := transaction_result htxn
          have hbuilt := (uploadBatch_returned hresult).1
          have hdone : Performed u s s' _ :=
            Performed.transaction htxn fun _ hbody => (uploadBatch_returned hbody).2
          rw [UploadCall.files_of_plan hplan] at hbuilt hdone
          exact .inl ⟨children, rfl, hbuilt, plan, hdone⟩

/-! ## Exports -/

theorem exportFile_done {c : ExportCall} {f : ExportFile} {v : Unit}
    (h : s.exportFile u c f = (s', .ok v)) : Performed u s s' (c.allFileOps u f) := by
  unfold exportFile at h
  split at h
  · cases h
  · next t w heq =>
    have hfirst : Performed u s t (c.fileOps f) :=
      performed_performAll (by simp [ExportCall.fileOps, ExportCall.edge, Op.Records]) heq
    rw [ExportCall.allFileOps]
    cases hm : c.manifest with
    | none =>
      rw [hm] at h
      cases h
      exact hfirst.trans (.nil _)
    | some children =>
      rw [hm] at h
      dsimp only at h
      cases hchild : manifestChild u children f.entity with
      | error e =>
        rw [hchild] at h
        cases h
      | ok child =>
        rw [hchild] at h
        rw [Option.bind_some, hchild]
        exact hfirst.trans (performed_performAll (by simp [Op.Records]) h)

theorem exportFiles_done {c : ExportCall} {files : List ExportFile} {v : Unit}
    (h : s.exportFiles u c files = (s', .ok v)) :
    Performed u s s' (files.flatMap (c.allFileOps u)) := by
  induction files generalizing s with
  | nil =>
    cases h
    exact .nil _
  | cons f rest ih =>
    unfold exportFiles at h
    split at h
    · cases h
    · next t w heq => exact (exportFile_done heq).trans (ih h)

theorem exportBody_done {c : ExportCall} {v : Unit} (h : exportBody u c s = (s', .ok v)) :
    Performed u s s' (c.allOps u) := by
  unfold exportBody at h
  split at h
  · cases h
  · next t w heq =>
    have hfirst : Performed u s t c.sourceOps :=
      performed_performAll (by simp [ExportCall.sourceOps, ExportCall.edge, Op.Records]) heq
    exact hfirst.trans (exportFiles_done h)

theorem exportBody_scope (c : ExportCall) (s : Store) :
    (exportBody u c s).1.scope = s.scope := by
  have hfirst := (recorded_performAll (u := u) c.sourceOps
    (by simp [ExportCall.sourceOps, ExportCall.edge, Op.Records]) s).scope
  unfold exportBody
  split
  · next heq =>
    rw [heq] at hfirst
    exact hfirst
  · next t w heq =>
    rw [heq] at hfirst
    exact (recorded_exportFiles c c.files t).scope.trans hfirst

/-- **An export** returns and has made all its calls, or raises and has sealed nothing. -/
theorem recordExport_cases (s : Store) (c : ExportCall) :
    (∃ res, (s.recordExport u c).2 = .ok res ∧ Performed u s (s.recordExport u c).1 (c.allOps u)) ∨
      ∃ e, (s.recordExport u c).2 = .error e ∧ (s.recordExport u c).1.scope = s.scope ∧
        (s.scope = none →
          (s.recordExport u c).1.db.cells .receipts = s.db.cells .receipts) := by
  have hscope := transaction_scope (s := s) (exportBody_scope (u := u) c)
  unfold recordExport
  cases htxn : s.transaction (exportBody u c) with
  | mk s' r =>
    rw [htxn] at hscope
    cases r with
    | error e =>
      refine .inr ⟨e, rfl, hscope, fun hnone => ?_⟩
      rw [transaction_rollback hnone htxn (exportBody_scope c _)]
    | ok v =>
      exact .inl ⟨_, rfl, Performed.transaction htxn fun _ hbody => exportBody_done hbody⟩

end Lineage
