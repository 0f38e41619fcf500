/-
# What the head of the chain commits to

A trusted party keeps `chain_head()` and later runs `verify_chain(expected_head)` on
whatever content the database then has.  If SHA-256 has no collision among the texts
hashed, the head commits to the texts `tbl \x1f body` of the ledger, by the theorem on
hash chains.  It does not commit to how such a text is split: the text of a tombstone
contains the delimiter three times, and `verify_chain` skips entries of unknown tables.

So the evidence is complete exactly for a ledger whose every entry still has its live
row, or with an entry that no row can match, in which case nothing is accepted.
-/
import QDistro.HashChain
import QDistro.LedgerAudit
import Mathlib.Data.List.Perm.Basic

open JsonText

namespace Lineage

open List

open Db

open ChainRow

variable {u : UnicodeDb}

/-! ## The chain as a hash scheme -/

theorem append_sep_inj {a a' b b' : List Char} (ha : sep ∉ a) (ha' : sep ∉ a')
    (h : a ++ sep :: b = a' ++ sep :: b') : a = a' ∧ b = b' := by
  have hcut := congrArg (PyText.split sep 1) h
  rw [PyText.split_append sep 0 _ _ ha, PyText.split_append sep 0 _ _ ha'] at hcut
  simpa [PyText.split] using hcut

theorem sep_not_mem_hexdigest (text : List Char) : sep ∉ Sha256.hexdigest text :=
  fun h => absurd (Sha256.isHexDigit_of_mem_hexdigest h) (by decide)

theorem hexdigest_ne_genesis (text : List Char) : Sha256.hexdigest text ≠ genesis := by
  intro h
  have hq : 'q' ∈ Sha256.hexdigest text := by
    rw [h]
    decide
  exact absurd (Sha256.isHexDigit_of_mem_hexdigest hq) (by decide)

/-- The chain of `_seal_value`, with the text `tbl \x1f body` as payload. -/
def sealScheme : HashScheme (List Char) (List Char) (List Char) where
  hash := Sha256.hexdigest
  join prev text := prev ++ sep :: text
  genesis := genesis
  proper d := sep ∉ d
  proper_genesis := by decide
  proper_hash := sep_not_mem_hexdigest
  join_inj := append_sep_inj
  hash_ne_genesis := hexdigest_ne_genesis

/-- The text of an entry that its seal covers. -/
def ChainRow.text (r : ChainRow) : List Char := r.tbl ++ sep :: r.body

/-- The seal of every row is the hash of the row behind the seal before it. -/
def Sealed : List Char → List ChainRow → Prop
  | _, [] => True
  | prev, r :: rest => sealValue prev r.tbl r.body = r.sealVal ∧ Sealed r.sealVal rest

/-- The texts `verify_chain` hashes. -/
def hashedTexts : List Char → List ChainRow → List (List Char)
  | _, [] => []
  | prev, r :: rest => sealText prev r.tbl r.body :: hashedTexts r.sealVal rest

/-- The texts hashed for a content. -/
def Db.hashed (db : Db) : List (List Char) := hashedTexts genesis db.chain

variable {prev : List Char} {rows : List ChainRow}

theorem hashedTexts_eq (h : Sealed prev rows) :
    hashedTexts prev rows = sealScheme.preimages prev (rows.map text) := by
  induction rows generalizing prev with
  | nil => rfl
  | cons r rest ih =>
    rw [hashedTexts, ih h.2, map_cons, HashScheme.preimages, ← h.1]
    rfl

theorem digest_eq (h : Sealed prev rows) :
    sealScheme.digest prev (rows.map text) =
      (rows.getLast?.map sealVal).getD prev := by
  induction rows generalizing prev with
  | nil => rfl
  | cons r rest ih =>
    have hnext : sealScheme.next prev r.text = r.sealVal := h.1
    have hcons : sealScheme.digest prev ((r :: rest).map text) =
        sealScheme.digest (sealScheme.next prev r.text) (rest.map text) := rfl
    rw [hcons, hnext, ih h.2, getLast?_cons]
    cases rest.getLast? <;> rfl

variable {db : Db}

theorem Db.digest_eq_chainHead (h : Sealed genesis db.chain) :
    sealScheme.digest genesis (db.chain.map text) = db.chainHead := by
  rw [digest_eq h, chainHead]
  cases db.chain.getLast? <;> rfl

theorem sealed_concat {r : ChainRow} (h : Sealed prev rows)
    (hr : sealValue ((rows.getLast?.map sealVal).getD prev) r.tbl r.body = r.sealVal) :
    Sealed prev (rows ++ [r]) := by
  induction rows generalizing prev with
  | nil => exact ⟨hr, trivial⟩
  | cons a rows ih =>
    refine ⟨h.1, ih h.2 ?_⟩
    rw [getLast?_cons] at hr
    cases hl : rows.getLast? <;> simpa [hl] using hr

theorem sealed_of_run {w w' : Walk} (h : w.run u rows = some w') :
    Sealed w.prev rows := by
  induction rows generalizing w with
  | nil => trivial
  | cons r rest ih =>
    rw [Walk.run, Option.bind_eq_some_iff] at h
    obtain ⟨v, hstep, hrun⟩ := h
    obtain ⟨hseal, ⟨-, rfl⟩ | ⟨-, _, _, _, -, -, -, -, rfl⟩⟩ := Walk.step_cases hstep
    · exact ⟨hseal, ih hrun⟩
    · exact ⟨hseal, ih hrun⟩

variable {S : Db}

/-- **The head commits to the texts of the ledger.** -/
theorem texts_eq_of_head {S' : Db} (hS : Sealed genesis S.chain) (hS' : Sealed genesis S'.chain)
    (hcf : HashScheme.CollisionFree Sha256.hexdigest (S.hashed ++ S'.hashed))
    (hhead : S'.chainHead = S.chainHead) :
    S'.chain.map text = S.chain.map text := by
  refine (sealScheme.digest_injective ?_ ?_).symm
  · have hp := hashedTexts_eq hS
    have hp' := hashedTexts_eq hS'
    rw [hashed, hashed, hp, hp'] at hcf
    exact hcf
  · exact (digest_eq_chainHead hS).trans (hhead.symm.trans (digest_eq_chainHead hS').symm)

/-! ## What every reachable ledger contains -/

/-- The bodies the ledger has for a table, retired or not. -/
def Db.entries (db : Db) (t : Table) : List (List Char) :=
  (db.chain.filter fun r => r.tbl = t.name).map ChainRow.body

/-- An entry seals a row, or is a tombstone for a body that a row had. -/
def ChainRow.Proper (r : ChainRow) : Prop :=
  (∃ w : Write, r.tbl = w.table.name ∧ r.body = w.body) ∨
    r.tbl = tombstone ∧ ∃ (n : ℤ) (row : Row .entities) (b : List Char),
      row.body = some b ∧ r.body = tombstoneBody n Table.entities.name b

/-- What holds of every content a run of operations reaches.  The entries of a table are
its live rows and some lost ones, and a tombstone stands for a lost one. -/
structure Db.Ledgered (db : Db) : Prop where
  seals : Sealed genesis db.chain
  proper : ∀ r ∈ db.chain, r.Proper
  accounts : ∀ t, ∃ live lost, db.liveBodies t = some live ∧ (db.entries t).Perm (live ++ lost) ∧
    (t = .entities → (∃ r ∈ db.chain, r.tbl = tombstone) → lost ≠ [])

theorem Db.sealed_append (h : Sealed genesis db.chain) (tbl body : List Char) :
    Sealed genesis (db.append tbl body).chain := by
  refine sealed_concat h ?_
  rw [← digest_eq h, digest_eq_chainHead h]
  rfl

theorem Db.entries_append (db : Db) (tbl body : List Char) (t : Table) :
    (db.append tbl body).entries t =
      if tbl = t.name then db.entries t ++ [body] else db.entries t := by
  have htbl : (db.nextEntry tbl body).tbl = tbl := rfl
  rw [entries, append, filter_append, map_append, filter_cons, htbl]
  by_cases h : tbl = t.name
  · rw [if_pos (decide_eq_true h), if_pos h]
    rfl
  · rw [if_neg (by rw [decide_eq_true_eq]; exact h), if_neg h]
    simp [entries]

section

variable (h : db.Ledgered)
include h

theorem Db.sealRow_accounts (w : Write) (t : Table) :
    ∃ live lost, db.liveBodies t = some live ∧
      ((db.sealRow w).entries t).Perm (live ++ (if t = w.table then [w.body] else []) ++ lost) ∧
      (t = .entities → (∃ r ∈ (db.sealRow w).chain, r.tbl = tombstone) → lost ≠ []) := by
  obtain ⟨live, lost, hlive, hperm, hlost⟩ := h.accounts t
  refine ⟨live, lost, hlive, ?_, ?_⟩
  · rw [sealRow, entries_append]
    by_cases ht : t = w.table
    · subst ht
      rw [if_pos rfl, if_pos rfl, append_assoc]
      refine (hperm.append_right _).trans ?_
      rw [append_assoc]
      exact List.Perm.append_left _ perm_append_comm
    · rw [if_neg fun hn => ht (Table.name_injective hn).symm, if_neg ht, append_nil]
      exact hperm
  · rintro ht ⟨r, hr, hrt⟩
    refine hlost ht ?_
    rcases mem_append.mp hr with hr | hr
    · exact ⟨r, hr, hrt⟩
    · rw [mem_singleton.mp hr] at hrt
      exact absurd hrt w.table.name_ne_tombstone

theorem Db.Ledgered.write (w : Write) : (db.write w).1.Ledgered := by
  have hchain : (db.write w).1.chain = (db.sealRow w).chain := db.chain_write w
  have hentries : ∀ t, (db.write w).1.entries t = (db.sealRow w).entries t := by
    intro t
    rw [entries, entries, hchain]
  refine ⟨by rw [hchain]; exact sealed_append h.seals _ _, ?_, ?_⟩
  · intro r hr
    rw [hchain] at hr
    rcases mem_append.mp hr with hr | hr
    · exact h.proper r hr
    · rw [mem_singleton.mp hr]
      exact .inl ⟨w, rfl, rfl⟩
  · intro t
    obtain ⟨live, lost, hlive, hperm, hlost⟩ := sealRow_accounts h w t
    rw [hentries, hchain]
    by_cases hw : w.Storable
    · refine ⟨_, lost, liveBodies_write hw hlive, ?_, hlost⟩
      by_cases ht : t = w.table
      · rw [if_pos ht] at hperm ⊢
        exact hperm
      · rw [if_neg ht, append_nil] at hperm
        rw [if_neg ht]
        exact hperm
    · refine ⟨live, (if t = w.table then [w.body] else []) ++ lost, ?_, ?_, ?_⟩
      · rw [liveBodies, rows_write_of_not_storable db hw]
        exact hlive
      · rw [← append_assoc]
        exact hperm
      · intro ht htomb
        simp [hlost ht htomb]

theorem Db.Ledgered.update (aid : String) (v e : Cell) :
    (db.updateActivities aid v e).Ledgered := by
  refine ⟨h.seals, h.proper, fun t => ?_⟩
  rw [liveBodies_updateActivities]
  exact h.accounts t

theorem Db.Ledgered.retire (rows : List (Row .entities)) :
    Sealed genesis (db.retire [] rows).1.chain ∧
      (∀ r ∈ (db.retire [] rows).1.chain, r.Proper) ∧
      (∀ t, (db.retire [] rows).1.entries t = db.entries t) ∧
      ((∃ r ∈ (db.retire [] rows).1.chain, r.tbl = tombstone) →
        (∃ r ∈ db.chain, r.tbl = tombstone) ∨ rows ≠ []) := by
  refine retire_induct (P := fun db' => Sealed genesis db'.chain ∧
    (∀ r ∈ db'.chain, r.Proper) ∧ (∀ t, db'.entries t = db.entries t) ∧
    ((∃ r ∈ db'.chain, r.tbl = tombstone) → (∃ r ∈ db.chain, r.tbl = tombstone) ∨ rows ≠ []))
    (rows.filterMap Row.body) ?_ (fun r hr _ hb => mem_filterMap.mpr ⟨r, hr, hb⟩)
    ⟨h.seals, h.proper, fun _ => rfl, .inl⟩ []
  rintro db' n b hb ⟨hseal, hproper, hentries, -⟩
  obtain ⟨row, hrow, hrb⟩ := mem_filterMap.mp hb
  refine ⟨sealed_append hseal _ _, ?_, ?_, fun _ => .inr (ne_nil_of_mem hrow)⟩
  · intro r hr
    rcases mem_append.mp hr with hr | hr
    · exact hproper r hr
    · rw [mem_singleton.mp hr]
      exact .inr ⟨rfl, n, row, b, hrb, rfl⟩
  · intro t
    rw [entries_append, if_neg fun hn => t.name_ne_tombstone hn.symm, hentries]

theorem Db.Ledgered.prune (kind : String) (cutoff : ℤ) :
    (db.prune kind cutoff).1.Ledgered := by
  obtain ⟨live, lost, hlive, hperm, hlost⟩ := h.accounts .entities
  rw [liveBodies_eq_some] at hlive
  have hser : ∀ r ∈ db.rows .entities, r.body ≠ none := by
    intro r hr
    obtain ⟨b, -, hb⟩ := forall₂_mem_left hlive hr
    rw [hb]
    simp
  obtain ⟨gone, survivors, hgone, hsurv, hsplit⟩ := forall₂_filter (doomed kind cutoff) hlive
  obtain ⟨hseal, hproper, hentries, htomb⟩ :=
    h.retire ((db.rows .entities).filter (doomed kind cutoff))
  rw [prune_eq hser]
  refine ⟨hseal, hproper, fun t => ?_⟩
  have hent : ∀ t, entries ((db.retire [] ((db.rows .entities).filter
      (doomed kind cutoff))).1.deleteEntities (doomed kind cutoff)) t = db.entries t := hentries
  simp only [liveBodies_eq_some, hent]
  by_cases ht : t = .entities
  · subst ht
    refine ⟨survivors, gone ++ lost, ?_, ?_, ?_⟩
    · simp only [deleteEntities, rows_retire, Function.update_self]
      exact hsurv
    · rw [← append_assoc]
      exact hperm.trans ((hsplit.trans perm_append_comm).append_right lost)
    · intro _ hex hnil
      rw [append_eq_nil_iff] at hnil
      rcases htomb hex with hold | hrows
      · exact hlost rfl hold hnil.2
      · rw [hnil.1, forall₂_nil_right_iff] at hgone
        exact hrows hgone
  · obtain ⟨live', lost', hlive', hperm', -⟩ := h.accounts t
    refine ⟨live', lost', ?_, hperm', fun ht' => absurd ht' ht⟩
    simp only [deleteEntities, rows_retire, Function.update_of_ne ht]
    exact liveBodies_eq_some.mp hlive'

end

theorem ledgered_empty : empty.Ledgered :=
  ⟨trivial, by simp [empty], fun _ => ⟨[], [], rfl, .nil, by simp [empty]⟩⟩

/-- **Every reachable content is ledgered**, whatever the operations. -/
theorem ledgered_run (u : UnicodeDb) (ops : List Op) : (runOps u ops).db.Ledgered := by
  have hkept : Kept Db.Ledgered True := ⟨fun _ w _ h => h.write w, fun _ aid v e h => h.update aid v e⟩
  have hstep : ∀ s op, True → Store.Holds Db.Ledgered s → (step u s op).Holds Db.Ledgered := by
    intro s op _ h
    exact step_holds hkept h (.inl trivial) fun kind age now _ _ => h.1.prune kind (now - age)
  exact (TransitionSystem.Meets.invariant hstep (TransitionSystem.Meets.of_forall
    (fun _ _ => trivial) Store.empty ops) ⟨ledgered_empty, by simp [Store.empty]⟩).1

/-! ## Bodies determine cells -/

theorem Cell.json_injective {c c' : Cell} {j : Json} (h : c.json = some j) (h' : c'.json = some j) :
    c = c' := by
  cases c <;> cases c' <;> simp only [Cell.json, Option.some.injEq, reduceCtorEq] at h h' <;>
    subst h <;> simp only [reduceCtorEq, Json.int.injEq, Json.float.injEq, Json.str.injEq] at h'
  case null.null => rfl
  case int.int => rw [Subtype.ext h'.symm]
  case real.real => rw [h']
  case text.text => rw [h']

theorem Cell.isAtom_json {c : Cell} {j : Json} (h : c.json = some j) : j.isAtom = true := by
  cases c with
  | blob _ => exact absurd h (by simp [Cell.json])
  | _ => rw [← Option.some.inj h]; rfl

variable {t : Table}

theorem Row.body_eq_some {r : Row t} {b : List Char} (h : r.body = some b) :
    ∃ js, List.Forall₂ (fun c j => Cell.json c = some j) r.cells js ∧ canonical t js = b := by
  rw [Row.body, Option.map_eq_some_iff] at h
  obtain ⟨js, hjs, hb⟩ := h
  exact ⟨js, mapM_eq_some_iff.mp hjs, hb⟩

theorem Row.cells_eq_of_body {r r' : Row t} {b : List Char} (h : r.body = some b)
    (h' : r'.body = some b) : r.cells = r'.cells := by
  obtain ⟨js, hjs, hb⟩ := Row.body_eq_some h
  obtain ⟨js', hjs', hb'⟩ := Row.body_eq_some h'
  have hatom : ∀ j ∈ js, j.isAtom = true := by
    intro j hj
    obtain ⟨c, -, hc⟩ := forall₂_mem_right hjs hj
    exact Cell.isAtom_json hc
  have hatom' : ∀ j ∈ js', j.isAtom = true := by
    intro j hj
    obtain ⟨c, -, hc⟩ := forall₂_mem_right hjs' hj
    exact Cell.isAtom_json hc
  have heq : js = js' :=
    dumpsSorted_record_injective compactSeps t.columns_nodup (hjs.length_eq.symm.trans r.fits)
      (hjs'.length_eq.symm.trans r'.fits) hatom hatom' (hb.trans hb'.symm)
  subst heq
  have huniq : Relator.LeftUnique fun (c : Cell) (j : Json) => c.json = some j :=
    fun _ _ _ hc hc' => Cell.json_injective hc hc'
  exact left_unique_forall₂' huniq hjs hjs'

theorem sep_not_mem_canonical (t : Table) (js : List Json) : sep ∉ canonical t js :=
  fun h => absurd (le_of_mem_dumps compactSeps _ h) (by decide)

/-! ## Accepted contents -/

/-- The sealed column values of the live rows of a table. -/
def Db.sealedValues (db : Db) (t : Table) : List (List Cell) := (db.rows t).map Row.cells

/-- Two lists with the same images under `f` have the same images under what `f`
determines. -/
theorem map_perm_of_map_perm {α β γ : Type} {f : α → β} {g : α → γ} {l l' : List α}
    (hfg : ∀ a ∈ l, ∀ a' ∈ l', f a = f a' → g a = g a') (h : (l.map f).Perm (l'.map f)) :
    (l.map g).Perm (l'.map g) := by
  induction l generalizing l' with
  | nil =>
    rw [map_nil, nil_perm, map_eq_nil_iff] at h
    rw [h]
  | cons a l ih =>
    obtain ⟨a', ha', hfa⟩ := mem_map.mp (h.subset (by simp : f a ∈ (a :: l).map f))
    obtain ⟨pre, post, rfl⟩ := append_of_mem ha'
    rw [map_append, map_cons, map_cons, hfa] at h
    have hrest := (perm_cons _).mp (h.trans perm_middle)
    rw [← map_append] at hrest
    have hih := ih (fun b hb b' hb' => hfg b (mem_cons_of_mem _ hb) b' (by
      rcases mem_append.mp hb' with hb' | hb' <;> simp [hb'])) hrest
    rw [map_cons, hfg a mem_cons_self a' ha' hfa.symm, map_append, map_cons]
    rw [map_append] at hih
    exact (hih.cons _).trans perm_middle.symm

theorem map_body_of_live {live : List (List Char)} (h : db.liveBodies t = some live) :
    (db.rows t).map Row.body = live.map some := by
  rw [liveBodies_eq_some] at h
  generalize db.rows t = rows at h ⊢
  induction h with
  | nil => rfl
  | cons hb _ ih => rw [map_cons, map_cons, hb, ih]

theorem sealedValues_perm_iff {S' : Db} {live live' : List (List Char)}
    (h : S.liveBodies t = some live) (h' : S'.liveBodies t = some live') :
    (S'.sealedValues t).Perm (S.sealedValues t) ↔ live'.Perm live := by
  have hm := map_body_of_live h
  have hm' := map_body_of_live h'
  constructor
  · intro hp
    -- a body is a function of the cells
    have hbodies := hp.map fun cells => (cells.mapM Cell.json).map (canonical t)
    rw [sealedValues, sealedValues, map_map, map_map] at hbodies
    have hbodies' : ((S'.rows t).map Row.body).Perm ((S.rows t).map Row.body) := hbodies
    rw [hm, hm'] at hbodies'
    exact (map_perm_map_iff (Option.some_injective _)).mp hbodies'
  · intro hp
    refine map_perm_of_map_perm (f := Row.body) ?_ (by rw [hm, hm']; exact hp.map some)
    intro r hr r' hr' heq
    obtain ⟨b, -, hb⟩ := forall₂_mem_left (liveBodies_eq_some.mp h') hr
    exact Row.cells_eq_of_body hb (heq ▸ hb)

theorem Db.verifyChain_true {head : List Char} (h : db.verifyChain u (some head) = some true) :
    ∃ w, Walk.init.run u db.chain = some w ∧ db.chainHead = head ∧
      ∀ t, ∃ live, db.liveBodies t = some live ∧ (w.want t).Perm live := by
  rw [verifyChain] at h
  cases hw : Walk.init.run u db.chain with
  | none => simp [hw] at h
  | some w =>
    simp only [hw] at h
    split at h
    · exact absurd h (by simp)
    · next hhead =>
      refine ⟨w, rfl, ?_, fun t => ?_⟩
      · rw [← walk_prev hw]
        by_contra hne
        exact hhead ⟨by simp, fun heq => hne (Option.some.inj heq).symm⟩
      · -- the comparison went through every table
        have hall : ∀ ts, compareTables w db ts = some true → ∀ t ∈ ts,
            ∃ live, db.liveBodies t = some live ∧ (w.want t).Perm live := by
          intro ts
          induction ts with
          | nil => simp
          | cons t' ts ih =>
            intro hc t ht
            rw [compareTables, Option.bind_eq_some_iff] at hc
            obtain ⟨live, hlive, hc⟩ := hc
            split at hc
            · next hp =>
              rcases mem_cons.mp ht with rfl | ht
              · exact ⟨live, hlive, hp⟩
              · exact ih hc t ht
            · exact absurd hc (by simp)
        exact hall _ h t t.mem_all

/-- **Tamper evidence** of a content: whatever other content passes `verify_chain` against
its head has the same ledger and the same sealed values, unless SHA-256 collides. -/
def Db.TamperEvident (u : UnicodeDb) (S : Db) : Prop :=
  ∀ S' : Db, HashScheme.CollisionFree Sha256.hexdigest (S.hashed ++ S'.hashed) →
    S'.verifyChain u (some S.chainHead) = some true →
    S'.chain.map ChainRow.pair = S.chain.map ChainRow.pair ∧
      ∀ t, (S'.sealedValues t).Perm (S.sealedValues t)

/-- Every entry of the ledger still has its live row. -/
def Db.Accounted (db : Db) : Prop :=
  ∀ t, ∃ live, db.liveBodies t = some live ∧ (db.entries t).Perm live

/-- Some entry of the ledger is one that no row can match. -/
def Db.Unmatchable (db : Db) : Prop :=
  ∃ r ∈ db.chain, ∃ t : Table, r.tbl = t.name ∧ ∀ row : Row t, row.body ≠ some r.body

theorem exists_text_eq {S' : Db} (h : S'.chain.map text = S.chain.map text)
    {r : ChainRow} (hr : r ∈ S.chain) : ∃ r' ∈ S'.chain, r'.text = r.text := by
  have hmem : r.text ∈ S'.chain.map text := by
    rw [h]
    exact mem_map.mpr ⟨r, hr, rfl⟩
  exact mem_map.mp hmem

theorem pair_eq_of_text_eq {w : Write} {r r' : ChainRow} (ht : r.tbl = w.table.name)
    (hb : r.body = w.body) (h : r'.text = r.text) : r'.pair = r.pair := by
  have hbody : sep ∉ r.body := by
    rw [hb]
    exact sep_not_mem_canonical _ _
  have htbl : sep ∉ r.tbl := by
    rw [ht]
    exact w.table.sep_not_mem_name
  obtain ⟨h1, -, h2⟩ := (append_cons_inj_of_notMem htbl hbody).mp h.symm
  rw [pair, pair, h1, h2]

/-! ## Contents with complete evidence -/

theorem Db.entries_eq (db : Db) (t : Table) :
    db.entries t = ((db.chain.map pair).filter fun p => p.1 = t.name).map Prod.snd := by
  rw [filter_map, map_map]
  rfl

theorem want_perm_entries {w : Walk} (hw : Walk.init.run u db.chain = some w)
    (hno : ∀ r ∈ db.chain, r.tbl ≠ tombstone) (t : Table) : (w.want t).Perm (db.entries t) := by
  have htr := Walk.run_traces db.chain_sorted hw
  have hret : ∀ n, n ∉ w.retired := by
    intro n hn
    obtain ⟨_, -, -, r, hr, hrt, -⟩ := htr.retired_by n hn
    exact hno r hr hrt
  have hall : db.chain.filter (current w.retired) = db.chain := by
    rw [filter_eq_self]
    intro r hr
    simp [ChainRow.current, hno r hr, hret r.seq]
  have hexp := htr.expected_perm
  rw [hall] at hexp
  rw [Walk.want, entries_eq]
  exact (hexp.filter _).map _

theorem map_pair_eq {rows' : List ChainRow}
    (hproper : ∀ r ∈ rows, ∃ w : Write, r.tbl = w.table.name ∧ r.body = w.body)
    (h : rows'.map text = rows.map text) :
    rows'.map pair = rows.map pair := by
  induction rows generalizing rows' with
  | nil =>
    rw [map_nil, map_eq_nil_iff] at h
    rw [h]
  | cons r rows ih =>
    cases rows' with
    | nil => exact absurd h (by simp)
    | cons r' rows' =>
      rw [map_cons, map_cons, cons.injEq] at h
      obtain ⟨w, ht, hb⟩ := hproper r mem_cons_self
      rw [map_cons, map_cons, pair_eq_of_text_eq ht hb h.1,
        ih (fun r hr => hproper r (mem_cons_of_mem _ hr)) h.2]

theorem Db.Ledgered.no_tombstone (hS : S.Ledgered) (h : S.Accounted) :
    ∀ r ∈ S.chain, r.tbl ≠ tombstone := by
  intro r hr hrt
  obtain ⟨live, lost, hlive, hperm, hlost⟩ := hS.accounts .entities
  obtain ⟨live', hlive', hperm'⟩ := h .entities
  have heq : live' = live := Option.some.inj (hlive'.symm.trans hlive)
  subst heq
  have hlen := (hperm.symm.trans hperm').length_eq
  rw [length_append] at hlen
  exact hlost rfl ⟨r, hr, hrt⟩ (length_eq_zero_iff.mp (by omega))

theorem Db.Accounted.tamperEvident (hS : S.Ledgered) (h : S.Accounted) :
    S.TamperEvident u := by
  intro S' hcf hverify
  obtain ⟨w, hw, hhead, htables⟩ := verifyChain_true hverify
  have hno := hS.no_tombstone h
  have hpairs : S'.chain.map pair = S.chain.map pair := by
    refine map_pair_eq (fun r hr => ?_)
      (texts_eq_of_head hS.seals (sealed_of_run hw) hcf hhead)
    exact (hS.proper r hr).resolve_right fun ht => hno r hr ht.1
  have hno' : ∀ r ∈ S'.chain, r.tbl ≠ tombstone := by
    intro r hr hrt
    have hmem : r.pair ∈ S.chain.map pair := by
      rw [← hpairs]
      exact mem_map.mpr ⟨r, hr, rfl⟩
    obtain ⟨r', hr', hp⟩ := mem_map.mp hmem
    exact hno r' hr' ((Prod.mk.inj hp).1.trans hrt)
  refine ⟨hpairs, fun t => ?_⟩
  obtain ⟨live, hlive, hperm⟩ := h t
  obtain ⟨live', hlive', hperm'⟩ := htables t
  rw [sealedValues_perm_iff hlive hlive']
  have hentries : S'.entries t = S.entries t := by
    rw [entries_eq, entries_eq, hpairs]
  exact hperm'.symm.trans ((want_perm_entries hw hno' t).trans (hentries ▸ hperm))

theorem Db.Unmatchable.tamperEvident (hS : S.Ledgered) (h : S.Unmatchable) :
    S.TamperEvident u := by
  intro S' hcf hverify
  exfalso
  obtain ⟨r, hr, t, ht, hrow⟩ := h
  obtain ⟨w, hw, hhead, htables⟩ := verifyChain_true hverify
  have htexts := texts_eq_of_head hS.seals (sealed_of_run hw) hcf hhead
  have htr := Walk.run_traces S'.chain_sorted hw
  -- the entry stands in the other ledger too
  obtain ⟨wr, hwt, hwb⟩ : ∃ w : Write, r.tbl = w.table.name ∧ r.body = w.body :=
    (hS.proper r hr).resolve_right fun htomb => t.name_ne_tombstone (ht.symm.trans htomb.1)
  obtain ⟨r', hr', htext⟩ := exists_text_eq htexts hr
  obtain ⟨htbl, hbody⟩ := Prod.mk.inj (pair_eq_of_text_eq hwt hwb htext)
  by_cases hret : r'.seq ∈ w.retired
  · -- a tombstone for it would be one of the first ledger, for the body of a row
    obtain ⟨e, he, hseq, d', hd', hdt, hparse⟩ := htr.retired_by _ hret
    rw [eq_of_seq_eq S'.chain_sorted he hr' hseq] at hparse
    obtain ⟨d, hd, hdtext⟩ := exists_text_eq htexts.symm hd'
    rcases hS.proper d hd with ⟨wd, hdt', hdb⟩ | ⟨hdt', n, row, b, hb, hdb⟩
    · have hp := pair_eq_of_text_eq hdt' hdb hdtext.symm
      exact wd.table.name_ne_tombstone (hdt'.symm.trans ((Prod.mk.inj hp).1.symm.trans hdt))
    · rw [text, text, hdt, hdt'] at hdtext
      have hcut := append_sep_inj (by decide) (by decide) hdtext
      rw [← hcut.2, hdb, parseTombstone_tombstoneBody] at hparse
      obtain ⟨-, hname, hbody'⟩ := Prod.mk.inj (Option.some.inj hparse) |>.imp_right Prod.mk.inj
      have hte : Table.entities = t := Table.name_injective (hname.trans (htbl.trans ht))
      subst hte
      exact hrow row (by rw [hb, hbody', hbody])
  · have hcur : r'.current w.retired = true := by
      have : r'.tbl ≠ tombstone := by
        rw [htbl, ht]
        exact t.name_ne_tombstone
      simp [ChainRow.current, this, hret]
    have hexp : r'.pair ∈ w.expected :=
      htr.expected_perm.mem_iff.mpr (mem_map.mpr ⟨r', mem_filter.mpr ⟨hr', hcur⟩, rfl⟩)
    obtain ⟨live, hlive, hperm⟩ := htables t
    have hmem : r.body ∈ live := by
      refine hperm.subset (mem_want.mpr ?_)
      rw [← ht, ← htbl, ← hbody]
      exact hexp
    obtain ⟨row, -, hb⟩ := forall₂_mem_right (liveBodies_eq_some.mp hlive) hmem
    exact hrow row hb

/-! ## Contents that can be forged -/

/-- A tombstone with the delimiter before its target read as part of the table name. -/
def ChainRow.resplit (r : ChainRow) : ChainRow :=
  if r.tbl = tombstone then
    match PyText.split sep 1 r.body with
    | [a, b] => { r with tbl := tombstone ++ sep :: a, body := b }
    | _ => r
  else r

theorem ChainRow.resplit_spec {r : ChainRow} (h : r.Proper) :
    r.resplit.text = r.text ∧ r.resplit.sealVal = r.sealVal ∧ r.resplit.seq = r.seq ∧
      r.resplit.tbl ≠ tombstone ∧
      ∀ t : Table, r.resplit.tbl = t.name ∨ r.tbl = t.name → r.resplit = r := by
  rcases h with ⟨w, ht, -⟩ | ⟨ht, n, row, b, hb, hbody⟩
  · have hne : r.tbl ≠ tombstone := by
      rw [ht]
      exact w.table.name_ne_tombstone
    have hr : r.resplit = r := by rw [resplit, if_neg hne]
    rw [hr]
    exact ⟨rfl, rfl, rfl, hne, fun _ _ => rfl⟩
  · have hn : sep ∉ intText n := fun h => absurd (le_of_mem_intText h) (by decide)
    have hsplit : PyText.split sep 1 r.body =
        [intText n, Table.entities.name ++ sep :: b] := by
      rw [hbody, tombstoneBody, PyText.split_append sep 0 _ _ hn]
      rfl
    have hr : r.resplit = { r with tbl := tombstone ++ sep :: intText n
                                   body := Table.entities.name ++ sep :: b } := by
      simp only [resplit, if_pos ht, hsplit]
    rw [hr]
    refine ⟨?_, rfl, rfl, ?_, ?_⟩
    · rw [text, text, hbody, ht, tombstoneBody]
      simp
    · simp
    · rintro t (htn | htn)
      · have : sep ∈ t.name := by
          rw [← htn]
          simp
        exact absurd this t.sep_not_mem_name
      · exact absurd (htn.symm.trans ht) t.name_ne_tombstone

theorem sealed_resplit (hproper : ∀ r ∈ rows, r.Proper) (h : Sealed prev rows) :
    Sealed prev (rows.map resplit) ∧
      hashedTexts prev (rows.map resplit) = hashedTexts prev rows := by
  induction rows generalizing prev with
  | nil => exact ⟨trivial, rfl⟩
  | cons r rows ih =>
    obtain ⟨htext, hseal, -⟩ := resplit_spec (hproper r mem_cons_self)
    have hih := ih (fun r hr => hproper r (mem_cons_of_mem _ hr)) h.2
    have hsame : sealText prev r.resplit.tbl r.resplit.body = sealText prev r.tbl r.body :=
      congrArg (fun t => prev ++ sep :: t) htext
    constructor
    · refine ⟨?_, ?_⟩
      · rw [sealValue, hsame, hseal]
        exact h.1
      · rw [hseal]
        exact hih.1
    · rw [map_cons, hashedTexts, hashedTexts, hsame, hseal, hih.2]

theorem run_of_sealed {w : Walk} (h : Sealed w.prev rows) (hno : ∀ r ∈ rows, r.tbl ≠ tombstone) :
    ∃ w', w.run u rows = some w' := by
  induction rows generalizing w with
  | nil => exact ⟨w, rfl⟩
  | cons r rest ih =>
    rw [Walk.run, Walk.step_entry h.1 (hno r mem_cons_self), Option.bind_some]
    exact ih h.2 fun r hr => hno r (mem_cons_of_mem _ hr)

theorem exists_rows {bodies : List (List Char)}
    (h : ∀ b ∈ bodies, ∃ row : Row t, row.body = some b) :
    ∃ rows : List (Row t), (rows.Pairwise fun a b => a.id < b.id) ∧
      List.Forall₂ (fun r b => Row.body r = some b) rows bodies := by
  induction bodies using reverseRecOn with
  | nil => exact ⟨[], .nil, .nil⟩
  | append_singleton bodies b ih =>
    obtain ⟨rows, hsorted, hrows⟩ := ih fun b' hb' => h b' (mem_append_left _ hb')
    obtain ⟨row, hrow⟩ := h b (by simp)
    refine ⟨rows ++ [{ row with id := nextId (rows.map Row.id) }], ?_,
      rel_append hrows (.cons hrow .nil)⟩
    rw [pairwise_append]
    refine ⟨hsorted, pairwise_singleton _ _, ?_⟩
    intro a ha b hb
    rw [mem_singleton.mp hb]
    exact lt_nextId (pairwise_map.mpr hsorted) a.id (mem_map.mpr ⟨a, ha, rfl⟩)

/-- If every entry can be matched, there is a content with all of them live that passes
against the same head. -/
theorem exists_accepted (hS : S.Ledgered) (hm : ¬ S.Unmatchable) :
    ∃ S' : Db, S'.hashed = S.hashed ∧ S'.verifyChain u (some S.chainHead) = some true ∧
      ∀ t, S'.liveBodies t = some (S.entries t) := by
  have hrows : ∀ t, ∃ rows : List (Row t), (rows.Pairwise fun a b => a.id < b.id) ∧
      List.Forall₂ (fun r b => Row.body r = some b) rows (S.entries t) := by
    intro t
    refine exists_rows fun b hb => ?_
    obtain ⟨r, hr, rfl⟩ := mem_map.mp hb
    rw [mem_filter, decide_eq_true_eq] at hr
    by_contra hno
    exact hm ⟨r, hr.1, t, hr.2, fun row hrow => hno ⟨row, hrow⟩⟩
  choose rows hsorted hlive using hrows
  obtain ⟨hsealed, hhashed⟩ := sealed_resplit hS.proper hS.seals
  have hchain : (S.chain.map resplit).Pairwise fun a b => a.seq < b.seq := by
    rw [pairwise_map]
    refine S.chain_sorted.imp_of_mem fun ha hb hab => ?_
    rw [(resplit_spec (hS.proper _ ha)).2.2.1,
      (resplit_spec (hS.proper _ hb)).2.2.1]
    exact hab
  let S' : Db := ⟨S.chain.map resplit, rows, hchain, hsorted⟩
  have hlive' : ∀ t, S'.liveBodies t = some (S.entries t) :=
    fun t => liveBodies_eq_some.mpr (hlive t)
  have hno : ∀ r ∈ S'.chain, r.tbl ≠ tombstone := by
    intro r hr
    obtain ⟨r₀, hr₀, rfl⟩ := mem_map.mp hr
    exact (resplit_spec (hS.proper r₀ hr₀)).2.2.2.1
  -- entries of sealed tables are not touched by the new splits
  have hentries : ∀ t, S'.entries t = S.entries t := by
    intro t
    have hfilter : ∀ l : List ChainRow, (∀ r ∈ l, r.Proper) →
        (l.map resplit).filter (fun r => r.tbl = t.name) =
          l.filter fun r => r.tbl = t.name := by
      intro l hl
      induction l with
      | nil => rfl
      | cons r l ih =>
        have hspec := (resplit_spec (hl r mem_cons_self)).2.2.2.2 t
        rw [map_cons, filter_cons, filter_cons,
          ih fun r hr => hl r (mem_cons_of_mem _ hr)]
        by_cases ht : r.tbl = t.name
        · rw [hspec (.inr ht)]
        · have ht' : r.resplit.tbl ≠ t.name := by
            intro htn
            rw [hspec (.inl htn)] at htn
            exact ht htn
          rw [if_neg (by simpa using ht'), if_neg (by simpa using ht)]
    rw [entries, entries, hfilter S.chain hS.proper]
  have hhead : S'.chainHead = S.chainHead := by
    have hdigest : sealScheme.digest genesis (S'.chain.map text) = S'.chainHead :=
      digest_eq_chainHead hsealed
    rw [← hdigest, ← digest_eq_chainHead hS.seals]
    congr 1
    rw [map_map]
    exact map_congr_left fun r hr => (resplit_spec (hS.proper r hr)).1
  obtain ⟨w, hw⟩ := run_of_sealed (u := u) (w := Walk.init) hsealed hno
  have haudited : S'.Audited u := by
    refine ⟨w, hw, fun t => ⟨_, hlive' t, ?_⟩⟩
    rw [← hentries t]
    exact want_perm_entries hw hno t
  refine ⟨S', hhashed, ?_, hlive'⟩
  rw [← hhead]
  exact haudited.verifyChain.2

theorem Db.TamperEvident.accounted (hS : S.Ledgered)
    (hcf : HashScheme.CollisionFree Sha256.hexdigest S.hashed) (h : S.TamperEvident u)
    (hm : ¬ S.Unmatchable) : S.Accounted := by
  obtain ⟨S', hhashed, hverify, hlive'⟩ := exists_accepted (u := u) hS hm
  have hcf' : HashScheme.CollisionFree Sha256.hexdigest (S.hashed ++ S'.hashed) := by
    rw [hhashed]
    exact hcf.subset (by simp)
  obtain ⟨-, hvalues⟩ := h S' hcf' hverify
  intro t
  obtain ⟨live, -, hlive, -⟩ := hS.accounts t
  exact ⟨live, hlive, (sealedValues_perm_iff hlive (hlive' t)).mp (hvalues t)⟩

/-- **When the head is complete evidence.**  For a store reached by any operations, and
SHA-256 without a collision among the texts hashed for it: its head gives away every other
content exactly when each entry of its ledger still has its live row, or when some entry
is one that no row can match. -/
theorem tamperEvident_iff (u : UnicodeDb) (ops : List Op)
    (hcf : HashScheme.CollisionFree Sha256.hexdigest (runOps u ops).db.hashed) :
    (runOps u ops).db.TamperEvident u ↔
      (runOps u ops).db.Accounted ∨ (runOps u ops).db.Unmatchable := by
  have hS := ledgered_run u ops
  constructor
  · intro h
    by_cases hm : (runOps u ops).db.Unmatchable
    · exact .inr hm
    · exact .inl (h.accounted hS hcf hm)
  · rintro (h | h)
    · exact h.tamperEvident hS
    · exact h.tamperEvident hS

instance (db : Db) : Decidable db.Accounted :=
  decidable_of_iff (∀ t ∈ Table.all, ∃ live ∈ db.liveBodies t, (db.entries t).Perm live)
    ⟨fun h t => h t t.mem_all, fun h t _ => h t⟩

/-- A payload and an edge that names it. -/
def recordTwo : List Op :=
  [.recordEntity samplePayload 5, .recordEdge "used" "activity:1" "payload:1" none 6]

theorem tamperEvident_recordTwo : (runOps .ascii recordTwo).db.TamperEvident .ascii :=
  (tamperEvident_iff .ascii recordTwo (by decide +kernel)).mpr (.inl (by decide +kernel))

/-- The ledger of a pruned payload with its tombstone split differently, and the payload
back in its table. -/
def forged : Db where
  chain := (runOps .ascii recordAndPrune).db.chain.map ChainRow.resplit
  rows
    | .entities =>
      [{ id := 1
         cells := [.text "payload:1", .text "payload", .null, .null, .text "[]", .text "[]",
           .text "[]", .null, .text "active", .null, .int ⟨1, by decide⟩]
         cache := []
         sealVal := []
         fits := rfl }]
    | _ => []
  chain_sorted := by decide +kernel
  rows_sorted := by
    intro t
    cases t <;> simp

/-- The forged content passes against the head of the store it was made from, with the
pruned payload live again. -/
theorem forged_accepted :
    forged.verifyChain .ascii (some (runOps .ascii recordAndPrune).db.chainHead) = some true ∧
      ¬ (runOps .ascii recordAndPrune).db.TamperEvident .ascii := by
  have hverify : forged.verifyChain .ascii
      (some (runOps .ascii recordAndPrune).db.chainHead) = some true := by decide +kernel
  have hcf : HashScheme.CollisionFree Sha256.hexdigest
      ((runOps .ascii recordAndPrune).db.hashed ++ forged.hashed) := by decide +kernel
  have hvalues : ¬ (forged.sealedValues .entities).Perm
      ((runOps .ascii recordAndPrune).db.sealedValues .entities) := by decide +kernel
  exact ⟨hverify, fun h => hvalues ((h forged hcf hverify).2 .entities)⟩

end Lineage
