/-
# The ledger and its audit

`verify_chain` accepts a content that is audited: its walk over the ledger succeeds,
and what the walk expects of each table is what the table holds.  The walk is tied to
the ledger by `Walk.Traces`: what it expects is the multiset of entries that no
tombstone has retired.

Recording a row keeps a content audited, and so does a `gc` whose doomed bodies are
fresh, that is, named by no tombstone yet.  The loop of `gc` retires the first entry
with the right body that it has not consumed itself, so the fresh case is the one in
which that entry is not retired already.
-/
import QDistro.LineageChain
import QDistro.JsonRecord
import Mathlib.Data.List.Induction

open JsonText

namespace Lineage

open List

open Walk

variable {u : UnicodeDb}

/-! ## The walk -/

theorem Walk.run_append (w : Walk) (rows rows' : List ChainRow) :
    w.run u (rows ++ rows') = (w.run u rows).bind fun w' => w'.run u rows' := by
  induction rows generalizing w with
  | nil => rfl
  | cons r rows ih =>
    rw [cons_append, run, run, Option.bind_assoc]
    congr 1
    funext w'
    exact ih w'

variable {w : Walk} {rows : List ChainRow} {r : ChainRow}

theorem Walk.run_concat {w' : Walk} :
    w.run u (rows ++ [r]) = some w' ↔ ∃ v, w.run u rows = some v ∧ v.step u r = some w' := by
  rw [run_append, Option.bind_eq_some_iff]
  simp [run]

theorem Walk.step_cases {w' : Walk} (h : w.step u r = some w') :
    sealValue w.prev r.tbl r.body = r.sealVal ∧
      (r.tbl ≠ tombstone ∧
          w' = ⟨r.sealVal, w.retired, (r.seq, r.tbl, r.body) :: w.seqBody,
            (r.tbl, r.body) :: w.expected⟩ ∨
        r.tbl = tombstone ∧ ∃ n tbl body, parseTombstone u r.body = some (n, tbl, body) ∧
          PyDict.lookup w.seqBody n = some (tbl, body) ∧ n ∉ w.retired ∧
          (tbl, body) ∈ w.expected ∧
          w' = ⟨r.sealVal, n :: w.retired, (r.seq, r.tbl, r.body) :: w.seqBody,
            w.expected.erase (tbl, body)⟩) := by
  rw [step] at h
  split at h
  · exact absurd h (by simp)
  · next hseal =>
    refine ⟨not_not.mp hseal, ?_⟩
    split at h
    · next ht =>
      refine .inr ⟨ht, ?_⟩
      split at h
      · exact absurd h (by simp)
      · next n tbl body hparse =>
        split at h
        · exact absurd h (by simp)
        · next hlook =>
          split at h
          · exact absurd h (by simp)
          · next hret =>
            split at h
            · exact absurd h (by simp)
            · next hexp =>
              exact ⟨n, tbl, body, hparse, not_not.mp hlook, hret, not_not.mp hexp,
                (Option.some.inj h).symm⟩
    · next ht => exact .inl ⟨ht, (Option.some.inj h).symm⟩

theorem Walk.step_entry (hseal : sealValue w.prev r.tbl r.body = r.sealVal)
    (ht : r.tbl ≠ tombstone) :
    w.step u r = some ⟨r.sealVal, w.retired, (r.seq, r.tbl, r.body) :: w.seqBody,
      (r.tbl, r.body) :: w.expected⟩ := by
  rw [step, if_neg (not_not.mpr hseal), if_neg ht]

theorem Walk.step_tombstone {n : ℤ} {tbl body : List Char}
    (hseal : sealValue w.prev r.tbl r.body = r.sealVal) (ht : r.tbl = tombstone)
    (hparse : parseTombstone u r.body = some (n, tbl, body))
    (hlook : PyDict.lookup w.seqBody n = some (tbl, body)) (hret : n ∉ w.retired)
    (hexp : (tbl, body) ∈ w.expected) :
    w.step u r = some ⟨r.sealVal, n :: w.retired, (r.seq, r.tbl, r.body) :: w.seqBody,
      w.expected.erase (tbl, body)⟩ := by
  simp only [step, if_neg (not_not.mpr hseal), if_pos ht, hparse,
    if_neg (not_not.mpr hlook), if_neg hret, if_neg (not_not.mpr hexp)]

theorem parseTombstone_tombstoneBody (n : ℤ) (t : Table) (body : List Char) :
    parseTombstone u (tombstoneBody n t.name body) = some (n, t.name, body) := by
  have hn : sep ∉ intText n := fun h => absurd (le_of_mem_intText h) (by decide)
  rw [parseTombstone, tombstoneBody, PyText.split_append sep 1 _ _ hn,
    PyText.split_append sep 0 _ _ t.sep_not_mem_name]
  simp only [PyText.split, pyInt_intText, Option.map_some]

/-! ## What the walk has seen -/

/-- The table and the body of an entry. -/
def ChainRow.pair (r : ChainRow) : List Char × List Char := (r.tbl, r.body)

/-- An entry that is no tombstone and that none has retired. -/
def ChainRow.current (retired : List ℤ) (r : ChainRow) : Bool :=
  decide (r.tbl ≠ tombstone) && decide (r.seq ∉ retired)

/-- The local variables of the loop after some rows of the ledger. -/
structure Walk.Traces (u : UnicodeDb) (rows : List ChainRow) (w : Walk) : Prop where
  prev_eq : w.prev = match rows.getLast? with
    | some r => r.sealVal
    | none => genesis
  seqBody_eq : w.seqBody = (rows.map fun r => (r.seq, r.tbl, r.body)).reverse
  expected_perm : w.expected.Perm ((rows.filter (ChainRow.current w.retired)).map ChainRow.pair)
  retired_by : ∀ n ∈ w.retired, ∃ e ∈ rows, e.seq = n ∧
    ∃ r ∈ rows, r.tbl = tombstone ∧ parseTombstone u r.body = some (n, e.tbl, e.body)
  retires : ∀ r ∈ rows, r.tbl = tombstone →
    ∃ n, (parseTombstone u r.body).map Prod.fst = some n ∧ n ∈ w.retired

theorem nodup_seq (h : rows.Pairwise fun a b => a.seq < b.seq) :
    (rows.map ChainRow.seq).Nodup :=
  (pairwise_map.mpr (h.imp fun hlt => ne_of_lt hlt))

theorem eq_of_seq_eq (h : rows.Pairwise fun a b => a.seq < b.seq) {a b : ChainRow} (ha : a ∈ rows)
    (hb : b ∈ rows) (hab : a.seq = b.seq) : a = b :=
  inj_on_of_nodup_map (nodup_seq h) ha hb hab

theorem Walk.Traces.lookup_iff (h : w.Traces u rows)
    (hsorted : rows.Pairwise fun a b => a.seq < b.seq) (n : ℤ) (p : List Char × List Char) :
    PyDict.lookup w.seqBody n = some p ↔ ∃ e ∈ rows, e.seq = n ∧ e.pair = p := by
  have hnd : (w.seqBody.map Prod.fst).Nodup := by
    rw [h.seqBody_eq, map_reverse, nodup_reverse, map_map]
    exact nodup_seq hsorted
  have hmem : (n, p) ∈ w.seqBody ↔ ∃ e ∈ rows, e.seq = n ∧ e.pair = p := by
    rw [h.seqBody_eq, mem_reverse, mem_map]
    constructor
    · rintro ⟨e, he, heq⟩
      exact ⟨e, he, (Prod.mk.inj heq).1, (Prod.mk.inj heq).2⟩
    · rintro ⟨e, he, rfl, rfl⟩
      exact ⟨e, he, rfl⟩
  exact ⟨fun hl => hmem.mp (PyDict.lookup_mem hl), fun he => PyDict.lookup_of_mem hnd (hmem.mpr he)⟩

theorem Walk.Traces.mem_expected (h : w.Traces u rows) {p : List Char × List Char}
    (hp : p ∈ w.expected) :
    ∃ e ∈ rows, e.tbl ≠ tombstone ∧ e.seq ∉ w.retired ∧ e.pair = p := by
  obtain ⟨e, he, hpe⟩ := mem_map.mp (h.expected_perm.subset hp)
  rw [mem_filter, ChainRow.current] at he
  simp only [Bool.and_eq_true, decide_eq_true_eq] at he
  exact ⟨e, he.1, he.2.1, he.2.2, hpe⟩

theorem filter_current_perm {retired : List ℤ} {e : ChainRow}
    (hsorted : rows.Pairwise fun a b => a.seq < b.seq) (he : e ∈ rows)
    (hcur : e.current retired = true) :
    (rows.filter (ChainRow.current retired)).Perm
      (e :: rows.filter (ChainRow.current (e.seq :: retired))) := by
  have hnd : rows.Nodup := (nodup_seq hsorted).of_map _
  have hout : e ∉ rows.filter (ChainRow.current (e.seq :: retired)) := by
    simp [ChainRow.current]
  rw [perm_ext_iff_of_nodup (hnd.filter _) (nodup_cons.mpr ⟨hout, hnd.filter _⟩)]
  intro r
  rw [mem_cons, mem_filter, mem_filter]
  constructor
  · rintro ⟨hr, hc⟩
    by_cases hre : r = e
    · exact .inl hre
    · refine .inr ⟨hr, ?_⟩
      have hseq : r.seq ≠ e.seq := fun hs => hre (eq_of_seq_eq hsorted hr he hs)
      simp only [ChainRow.current, Bool.and_eq_true, decide_eq_true_eq, mem_cons,
        not_or] at hc ⊢
      exact ⟨hc.1, hseq, hc.2⟩
  · rintro (rfl | ⟨hr, hc⟩)
    · exact ⟨he, hcur⟩
    · simp only [ChainRow.current, Bool.and_eq_true, decide_eq_true_eq, mem_cons,
        not_or] at hc ⊢
      exact ⟨hr, hc.1, hc.2.2⟩

theorem Walk.Traces.init : Walk.init.Traces u [] :=
  ⟨rfl, rfl, List.Perm.nil, by simp [Walk.init], by simp⟩

theorem Walk.Traces.step {w' : Walk} (hsorted : (rows ++ [r]).Pairwise fun a b => a.seq < b.seq)
    (h : w.Traces u rows) (hstep : w.step u r = some w') : w'.Traces u (rows ++ [r]) := by
  have hrows : rows.Pairwise fun a b => a.seq < b.seq := (pairwise_append.mp hsorted).1
  have hold : ∀ n ∈ w.retired, ∃ e ∈ rows ++ [r], e.seq = n ∧
      ∃ d ∈ rows ++ [r], d.tbl = tombstone ∧ parseTombstone u d.body = some (n, e.tbl, e.body) := by
    intro n hn
    obtain ⟨e, he, hen, d, hd, hdt, hparse⟩ := h.retired_by n hn
    exact ⟨e, mem_append_left _ he, hen, d, mem_append_left _ hd, hdt, hparse⟩
  obtain ⟨-, ⟨ht, rfl⟩ | ⟨ht, n, tbl, body, hparse, hlook, hret, hexp, rfl⟩⟩ :=
    step_cases hstep
  · -- the new entry has a new number, so no tombstone has retired it
    have hnew : r.seq ∉ w.retired := by
      intro hmem
      obtain ⟨e, he, hen, -⟩ := h.retired_by r.seq hmem
      have := (pairwise_append.mp hsorted).2.2 e he r (by simp)
      omega
    refine ⟨by simp, by simp [h.seqBody_eq], ?_, hold, ?_⟩
    rotate_left
    · intro d hd hdt
      rcases mem_append.mp hd with hd | hd
      · exact h.retires d hd hdt
      · rw [mem_singleton.mp hd] at hdt
        exact absurd hdt ht
    have hcur : r.current w.retired = true := by simp [ChainRow.current, ht, hnew]
    rw [filter_append, filter_cons, if_pos hcur, map_append]
    exact (h.expected_perm.cons r.pair).trans (perm_append_singleton _ _).symm
  · obtain ⟨e, he, hen, hep⟩ := (h.lookup_iff hrows n (tbl, body)).mp hlook
    obtain ⟨rfl, rfl⟩ := Prod.mk.inj hep
    have hcur : e.current w.retired = true := by
      obtain ⟨e', -, he't, -, he'p⟩ := h.mem_expected hexp
      have : e.tbl ≠ tombstone := by rwa [← (Prod.mk.inj he'p).1]
      simp [ChainRow.current, this, hen, hret]
    refine ⟨by simp, by simp [h.seqBody_eq], ?_, ?_, ?_⟩
    · have hdrop : r.current (n :: w.retired) = false := by simp [ChainRow.current, ht]
      rw [filter_append, filter_cons, hdrop, ← hen]
      simp only [Bool.false_eq_true, if_false, filter_nil, append_nil]
      have hperm := h.expected_perm.trans ((filter_current_perm hrows he hcur).map ChainRow.pair)
      rw [map_cons] at hperm
      have herase := hperm.erase e.pair
      rwa [erase_cons_head] at herase
    · intro m hm
      rcases mem_cons.mp hm with rfl | hm
      · exact ⟨e, mem_append_left _ he, hen, r, by simp, ht, hparse⟩
      · exact hold m hm
    · intro d hd hdt
      rcases mem_append.mp hd with hd | hd
      · obtain ⟨m, hm, hmr⟩ := h.retires d hd hdt
        exact ⟨m, hm, mem_cons_of_mem _ hmr⟩
      · rw [mem_singleton.mp hd, hparse]
        exact ⟨n, rfl, mem_cons_self⟩

/-- **The walk traces the ledger.** -/
theorem Walk.run_traces (hsorted : rows.Pairwise fun a b => a.seq < b.seq)
    (h : init.run u rows = some w) : w.Traces u rows := by
  induction rows using reverseRecOn generalizing w with
  | nil =>
    rw [← Option.some.inj h]
    exact .init
  | append_singleton rows r ih =>
    obtain ⟨v, hv, hstep⟩ := run_concat.mp h
    exact (ih (pairwise_append.mp hsorted).1 hv).step hsorted hstep

theorem Walk.run_tombstones_nodup (hsorted : rows.Pairwise fun a b => a.seq < b.seq)
    (h : init.run u rows = some w) :
    ((rows.filter fun r => r.tbl = tombstone).map ChainRow.body).Nodup := by
  induction rows using reverseRecOn generalizing w with
  | nil => simp
  | append_singleton rows r ih =>
    obtain ⟨v, hv, hstep⟩ := run_concat.mp h
    have hrows := (pairwise_append.mp hsorted).1
    have hnd := ih hrows hv
    rw [filter_append, map_append]
    obtain ⟨-, ⟨ht, -⟩ | ⟨ht, n, tbl, body, hparse, -, hret, -⟩⟩ := step_cases hstep
    · simpa [ht] using hnd
    · rw [filter_cons, if_pos (by simpa using ht), filter_nil, map_singleton,
        nodup_append]
      refine ⟨hnd, nodup_singleton _, ?_⟩
      intro b hb b' hb' heq
      rw [mem_singleton.mp hb'] at heq
      obtain ⟨d, hd, rfl⟩ := mem_map.mp hb
      rw [mem_filter, decide_eq_true_eq] at hd
      -- the earlier tombstone has retired the entry that this one names
      obtain ⟨m, hm, hmr⟩ := (run_traces hrows hv).retires d hd.1 hd.2
      rw [heq, hparse] at hm
      rw [← Option.some.inj hm] at hmr
      exact hret hmr

/-! ## Audited contents -/

/-- What `verify_chain` checks: the walk succeeds and expects what is live. -/
def Db.Audited (u : UnicodeDb) (db : Db) : Prop :=
  ∃ w, Walk.init.run u db.chain = some w ∧
    ∀ t, ∃ live, db.liveBodies t = some live ∧ (w.want t).Perm live

variable {db : Db}

theorem compareTables_true (h : ∀ t, ∃ live, db.liveBodies t = some live ∧ (w.want t).Perm live)
    (ts : List Table) :
    compareTables w db ts = some true := by
  induction ts with
  | nil => rfl
  | cons t ts ih =>
    obtain ⟨live, hlive, hperm⟩ := h t
    rw [compareTables, hlive, Option.bind_some, if_pos hperm, ih]

theorem Db.walk_prev (h : init.run u db.chain = some w) :
    w.prev = db.chainHead :=
  (run_traces db.chain_sorted h).prev_eq

theorem Db.Audited.verifyChain (h : db.Audited u) :
    db.verifyChain u none = some true ∧ db.verifyChain u (some db.chainHead) = some true := by
  obtain ⟨w, hw, htables⟩ := h
  rw [Db.verifyChain, Db.verifyChain, hw]
  simp only [Db.walk_prev hw, ne_eq, not_true_eq_false, false_and, and_false, if_false]
  exact ⟨compareTables_true htables _, compareTables_true htables _⟩

theorem audited_empty : Db.empty.Audited u :=
  ⟨init, rfl, fun _ => ⟨[], rfl, List.Perm.nil⟩⟩

theorem Db.run_append_entry (h : init.run u db.chain = some w) {tbl : List Char}
    (ht : tbl ≠ tombstone) (body : List Char) :
    init.run u (db.chain ++ [db.nextEntry tbl body]) =
      some ⟨(db.nextEntry tbl body).sealVal, w.retired,
        ((db.nextEntry tbl body).seq, tbl, body) :: w.seqBody, (tbl, body) :: w.expected⟩ := by
  refine run_concat.mpr ⟨w, h, step_entry ?_ ht⟩
  rw [Db.walk_prev h]
  rfl

theorem Db.Audited.write (h : db.Audited u) {w : Write} (hw : w.Storable) :
    (db.write w).1.Audited u := by
  obtain ⟨v, hv, htables⟩ := h
  have hrun := Db.run_append_entry hv w.table.name_ne_tombstone w.body
  rw [← Db.chain_write] at hrun
  refine ⟨_, hrun, fun t => ?_⟩
  obtain ⟨live, hlive, hperm⟩ := htables t
  refine ⟨_, Db.liveBodies_write hw hlive, ?_⟩
  by_cases ht : t = w.table
  · subst ht
    rw [if_pos rfl, want, filter_cons, if_pos (by simp), map_cons]
    exact (hperm.cons w.body).trans (perm_append_singleton _ _).symm
  · have hne : w.table.name ≠ t.name := fun hn => ht (Table.name_injective hn.symm)
    rw [if_neg ht, want, filter_cons, if_neg (by simpa using hne)]
    exact hperm

theorem Db.Audited.update (h : db.Audited u) (aid : String) (v e : Cell) :
    (db.updateActivities aid v e).Audited u := by
  obtain ⟨w, hw, htables⟩ := h
  refine ⟨w, hw, fun t => ?_⟩
  rw [Db.liveBodies_updateActivities]
  exact htables t

/-! ## Retention -/

/-- A tombstone of the ledger names this entity body. -/
def Db.Retired (u : UnicodeDb) (db : Db) (body : List Char) : Prop :=
  ∃ r ∈ db.chain, r.tbl = tombstone ∧
    (parseTombstone u r.body).map Prod.snd = some (Table.entities.name, body)

instance (db : Db) (body : List Char) : Decidable (db.Retired u body) :=
  inferInstanceAs (Decidable (∃ r ∈ db.chain, _ ∧ _))

/-- No row that a `gc` would delete has a body that is retired already. -/
def Db.Fresh (u : UnicodeDb) (db : Db) (kind : String) (cutoff : ℤ) : Prop :=
  ∀ r ∈ db.rows .entities, doomed kind cutoff r = true → ∀ body ∈ r.body, ¬ db.Retired u body

instance (db : Db) (kind : String) (cutoff : ℤ) : Decidable (db.Fresh u kind cutoff) :=
  inferInstanceAs (Decidable (∀ r ∈ db.rows .entities, _ → ∀ body ∈ r.body, _))

theorem want_erase_self (w : Walk) (t : Table) {body : List Char}
    (h : (t.name, body) ∈ w.expected) :
    (w.want t).Perm
      (body :: ((w.expected.erase (t.name, body)).filter fun e => e.1 = t.name).map Prod.snd) := by
  have hperm := ((perm_cons_erase h).filter fun e => e.1 = t.name).map Prod.snd
  rwa [filter_cons, if_pos (by simp), map_cons] at hperm

theorem want_erase_of_ne (w : Walk) {t t' : Table} (h : t ≠ t') (body : List Char) :
    ((w.expected.erase (t.name, body)).filter fun e => e.1 = t'.name) =
      w.expected.filter fun e => e.1 = t'.name := by
  have hne : t.name ≠ t'.name := fun hn => h (Table.name_injective hn)
  rw [← erase_filter, erase_of_not_mem]
  simp [hne]

theorem mem_want {t : Table} {body : List Char} :
    body ∈ w.want t ↔ (t.name, body) ∈ w.expected := by
  rw [want, mem_map]
  constructor
  · rintro ⟨⟨tbl, b⟩, hp, rfl⟩
    rw [mem_filter, decide_eq_true_eq] at hp
    obtain ⟨hp, rfl⟩ := hp
    exact hp
  · intro h
    exact ⟨(t.name, body), mem_filter.mpr ⟨h, by simp⟩, rfl⟩

theorem Db.entryFor_current (hw : init.run u db.chain = some w) {body : List Char}
    {consumed : List ℤ} (hexp : (Table.entities.name, body) ∈ w.expected)
    (hcons : ∀ n ∈ consumed, n ∈ w.retired)
    (hfresh : ∀ e ∈ db.chain, e.pair = (Table.entities.name, body) → e.seq ∈ w.retired →
      e.seq ∈ consumed) :
    ∃ e ∈ db.chain, db.entryFor body consumed = some e ∧
      e.pair = (Table.entities.name, body) ∧ e.seq ∉ w.retired := by
  obtain ⟨e₀, he₀, -, hret₀, hp₀⟩ := (run_traces db.chain_sorted hw).mem_expected hexp
  cases hfind : db.entryFor body consumed with
  | none =>
    have hno := find?_eq_none.mp hfind e₀ he₀
    obtain ⟨ht, hb⟩ := Prod.mk.inj hp₀
    have : e₀.seq ∉ consumed := fun hc => hret₀ (hcons _ hc)
    exact absurd (by simp [ht, hb, this]) hno
  | some e =>
    have hpred := find?_some hfind
    simp only [Bool.and_eq_true, decide_eq_true_eq] at hpred
    obtain ⟨⟨ht, hb⟩, hc⟩ := hpred
    have hp : e.pair = (Table.entities.name, body) := by rw [ChainRow.pair, ht, hb]
    have hmem := mem_of_find?_eq_some hfind
    exact ⟨e, hmem, rfl, hp, fun hr => hc (hfresh e hmem hp hr)⟩

/-- **The loop of `gc`.**  With the doomed bodies expected and fresh, every tombstone is
accepted, and what is expected afterwards are the survivors. -/
theorem Db.retire_walk {rows : List (Row .entities)} {bodies survivors : List (List Char)}
    (hrows : List.Forall₂ (fun r b => Row.body r = some b) rows bodies) {consumed : List ℤ}
    (hw : init.run u db.chain = some w)
    (hwant : (w.want .entities).Perm (bodies ++ survivors))
    (hcons : ∀ n ∈ consumed, n ∈ w.retired)
    (hfresh : ∀ e ∈ db.chain, ∀ b ∈ bodies, e.pair = (Table.entities.name, b) →
      e.seq ∈ w.retired → e.seq ∈ consumed) :
    ∃ w', init.run u (db.retire consumed rows).1.chain = some w' ∧
      (w'.want .entities).Perm survivors ∧ ∀ t, t ≠ .entities → w'.want t = w.want t := by
  induction hrows generalizing db consumed w with
  | nil => exact ⟨w, hw, hwant, fun _ _ => rfl⟩
  | @cons r b rows bodies hb _ ih =>
    have hexp : (Table.entities.name, b) ∈ w.expected := mem_want.mp (hwant.mem_iff.mpr (by simp))
    obtain ⟨e, he, hfind, hp, hret⟩ :=
      Db.entryFor_current hw hexp hcons fun e he hp => hfresh e he b (by simp) hp
    have htr := run_traces db.chain_sorted hw
    have hlook := (htr.lookup_iff db.chain_sorted e.seq _).mpr ⟨e, he, rfl, hp⟩
    have hstep := step_tombstone (u := u) (w := w)
      (r := db.nextEntry tombstone (tombstoneBody e.seq Table.entities.name b))
      (by rw [Db.walk_prev hw]; rfl) rfl (parseTombstone_tombstoneBody _ _ _) hlook hret hexp
    have hw' := run_concat.mpr ⟨w, hw, hstep⟩
    have hwant' := (want_erase_self w .entities hexp).symm.trans hwant
    have hcons' : ∀ n ∈ e.seq :: consumed, n ∈ e.seq :: w.retired := by
      intro n hn
      rcases mem_cons.mp hn with rfl | hn
      · exact mem_cons_self
      · exact mem_cons_of_mem _ (hcons n hn)
    have hfresh' : ∀ e' ∈ db.chain ++
        [db.nextEntry tombstone (tombstoneBody e.seq Table.entities.name b)],
        ∀ b' ∈ bodies, e'.pair = (Table.entities.name, b') → e'.seq ∈ e.seq :: w.retired →
          e'.seq ∈ e.seq :: consumed := by
      intro e' he' b' hb' hp' hret'
      rcases mem_append.mp he' with he' | he'
      · rcases mem_cons.mp hret' with heq | hret'
        · rw [heq]
          exact mem_cons_self
        · exact mem_cons_of_mem _
            (hfresh e' he' b' (mem_cons_of_mem _ hb') hp' hret')
      · -- the tombstone itself is no entity
        rw [mem_singleton.mp he'] at hp'
        exact absurd (Prod.mk.inj hp').1.symm Table.entities.name_ne_tombstone
    obtain ⟨w'', hw'', hsurv, hother⟩ :=
      @ih _ (db.append tombstone (tombstoneBody e.seq Table.entities.name b)) (e.seq :: consumed)
        hw' ((perm_cons b).mp hwant') hcons' hfresh'
    rw [Db.retire]
    simp only [hb, hfind]
    refine ⟨w'', hw'', hsurv, fun t ht => ?_⟩
    rw [hother t ht, want, want_erase_of_ne w ht.symm]
    rfl

theorem forall₂_filter {α β : Type} {R : α → β → Prop} (p : α → Bool) {l : List α} {l' : List β}
    (h : List.Forall₂ R l l') : ∃ kept dropped, List.Forall₂ R (l.filter p) kept ∧
      List.Forall₂ R (l.filter fun a => !p a) dropped ∧ l'.Perm (kept ++ dropped) := by
  induction h with
  | nil => exact ⟨[], [], .nil, .nil, .nil⟩
  | @cons a b l l' hab _ ih =>
    obtain ⟨kept, dropped, hk, hd, hperm⟩ := ih
    cases hp : p a with
    | true =>
      refine ⟨b :: kept, dropped, ?_, ?_, hperm.cons b⟩
      · rw [filter_cons, if_pos hp]
        exact .cons hab hk
      · rw [filter_cons, if_neg (by simp [hp])]
        exact hd
    | false =>
      refine ⟨kept, b :: dropped, ?_, ?_, (hperm.cons b).trans perm_middle.symm⟩
      · rw [filter_cons, if_neg (by simp [hp])]
        exact hk
      · rw [filter_cons, if_pos (by simp [hp])]
        exact .cons hab hd

theorem Db.Audited.prune (h : db.Audited u) {kind : String} {cutoff : ℤ}
    (hfresh : db.Fresh u kind cutoff) : (db.prune kind cutoff).1.Audited u := by
  obtain ⟨w, hw, htables⟩ := h
  obtain ⟨live, hlive, hperm⟩ := htables .entities
  rw [Db.liveBodies_eq_some] at hlive
  have hser : ∀ r ∈ db.rows .entities, r.body ≠ none := by
    intro r hr
    obtain ⟨b, -, hb⟩ := forall₂_mem_left hlive hr
    rw [hb]
    simp
  obtain ⟨gone, survivors, hgone, hsurv, hsplit⟩ := forall₂_filter (doomed kind cutoff) hlive
  -- an entry with a doomed body cannot be retired, or a tombstone would name that body
  have hnone : ∀ e ∈ db.chain, ∀ b ∈ gone, e.pair = (Table.entities.name, b) →
      e.seq ∈ w.retired → e.seq ∈ ([] : List ℤ) := by
    intro e he b hb hp hret
    obtain ⟨r, hr, hrb⟩ := forall₂_mem_right hgone hb
    have hr' := mem_filter.mp hr
    obtain ⟨e', he', hseq, d, hd, hdt, hparse⟩ :=
      (run_traces db.chain_sorted hw).retired_by e.seq hret
    rw [eq_of_seq_eq db.chain_sorted he' he hseq] at hparse
    obtain ⟨ht, hb'⟩ := Prod.mk.inj hp
    rw [ht, hb'] at hparse
    exact absurd ⟨d, hd, hdt, by rw [hparse]; rfl⟩ (hfresh r hr'.1 hr'.2 b hrb)
  obtain ⟨w', hw', hwant', hother⟩ :=
    Db.retire_walk hgone hw (hperm.trans hsplit) (by simp) hnone
  rw [Db.prune_eq hser]
  refine ⟨w', hw', fun t => ?_⟩
  simp only [Db.liveBodies_eq_some, Db.deleteEntities, Db.rows_retire]
  by_cases ht : t = .entities
  · subst ht
    rw [Function.update_self]
    exact ⟨survivors, hsurv, hwant'⟩
  · rw [Function.update_of_ne ht, hother t ht]
    obtain ⟨live', hlive', hperm'⟩ := htables t
    exact ⟨live', Db.liveBodies_eq_some.mp hlive', hperm'⟩

/-! ## Every run -/

/-- The condition on an operation under which the audit stays sound: a writer inside an
open scope binds only integers that SQLite stores, and a `gc` deletes no row whose body
is retired already. -/
def OpOk (u : UnicodeDb) (s : Store) (op : Op) : Prop :=
  (s.scope.isSome = true → ∀ w ∈ op.writes u, w.Storable) ∧
    match op with
    | .gc kind age now => GcRuns kind age now → s.db.Fresh u kind (now - age)
    | _ => True

instance (s : Store) : ∀ op, Decidable (OpOk u s op)
  | .gc .. => inferInstanceAs (Decidable (_ ∧ (_ → _)))
  | .recordEntity .. | .recordActivity .. | .endActivity .. | .recordAgent .. | .recordEdge ..
  | .recordAssertion .. | .recordReceipt .. | .recordMapping .. | .enter | .leave _ =>
    inferInstanceAs (Decidable (_ ∧ True))

theorem kept_audited : Kept (Db.Audited u) False where
  write _ _ hw h := h.write (hw.resolve_right id)
  update _ aid v e h := h.update aid v e

theorem step_audited (s : Store) (op : Op) (hok : OpOk u s op) (h : s.Holds (Db.Audited u)) :
    (step u s op).Holds (Db.Audited u) := by
  refine step_holds kept_audited h ?_ ?_
  · by_cases hs : s.scope = none
    · exact .inr (.inl hs)
    · exact .inr (.inr (hok.1 (Option.isSome_iff_ne_none.mpr hs)))
  · rintro kind age now rfl hruns
    exact h.1.prune (hok.2 hruns)

/-- **The ledger never cries wolf** along a run that meets the condition: whatever was
recorded, pruned, committed or rolled back, `verify_chain` accepts every store reached,
with and without its own head. -/
theorem verifyChain_run (u : UnicodeDb) (ops : List Op)
    (hok : TransitionSystem.Meets (step u) (OpOk u) Store.empty ops) :
    (runOps u ops).db.verifyChain u none = some true ∧
      (runOps u ops).db.verifyChain u (some (runOps u ops).db.chainHead) = some true := by
  have hinv : (runOps u ops).Holds (Db.Audited u) :=
    TransitionSystem.Meets.invariant step_audited hok
      ⟨audited_empty, by simp [Store.empty]⟩
  exact hinv.1.verifyChain

/-- A payload whose creation time the caller fixed. -/
def samplePayload : Entity := { eid := "payload:1", kind := "payload", createdAt := 1 }

/-- Record the payload in a scope of its own, then let retention prune it. -/
def recordAndPrune : List Op :=
  [.enter, .recordEntity samplePayload 5, .leave false, .gc "payload" 0 10]

theorem verifyChain_recordAndPrune :
    (runOps .ascii recordAndPrune).db.verifyChain .ascii none = some true ∧
      (runOps .ascii recordAndPrune).db.verifyChain .ascii
        (some (runOps .ascii recordAndPrune).db.chainHead) = some true :=
  verifyChain_run .ascii recordAndPrune (by decide +kernel)

/-- Recorded and pruned a second time, the payload has the body of the entry that the
first tombstone retired, and the second tombstone retires it again. -/
theorem recordAndPrune_twice_rejected :
    (runOps .ascii (recordAndPrune ++ recordAndPrune)).db.verifyChain .ascii none = some false := by
  have hdup : ¬ (((runOps .ascii (recordAndPrune ++ recordAndPrune)).db.chain.filter
      fun r => r.tbl = tombstone).map ChainRow.body).Nodup := by decide +kernel
  cases hw : Walk.init.run .ascii (runOps .ascii (recordAndPrune ++ recordAndPrune)).db.chain with
  | none => rw [Db.verifyChain, hw]
  | some w => exact absurd (Walk.run_tombstones_nodup (Db.chain_sorted _) hw) hdup

end Lineage
