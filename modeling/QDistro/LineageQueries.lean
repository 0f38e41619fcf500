/-
# Current snapshots and derivations

What `LineageStore` answers about an entity: `get_entity` returns the row with the highest id, and
`downstream` and `upstream` walk the `wasDerivedFrom` edges breadth first, 64 levels deep.

`gc` goes by kind and time.  It changes no current snapshot, other than to none, exactly when it takes
a newest row only together with all the rows of its identifier (`retention_iff`).  A walk is complete
exactly when every derivative is within 64 edges (`downstream_iff`).
-/
import QDistro.BoundedWalk
import QDistro.SecurityMutation

open JsonText TransitionSystem

namespace Lineage

open List

variable {u : UnicodeDb}

/-! ## The rows of entities -/

/-- The cells of an entity that was recorded. -/
def FromEntity (cells : List Cell) : Prop :=
  ∃ ent now, (entityWrite ent now).cellsIn .entities = some cells

def Db.FromEntities (db : Db) : Prop := ∀ cells ∈ db.cells .entities, FromEntity cells

theorem fromEntity_of_writes {op : Op} {w : Write} (h : w ∈ op.writes u) {cells : List Cell}
    (hcells : w.cellsIn .entities = some cells) : FromEntity cells := by
  have htable : w.table = .entities := by
    by_contra hne
    rw [Write.cellsIn, if_neg hne] at hcells
    cases hcells
  have hmem := Op.mem_tables h
  rw [htable] at hmem
  cases op with
  | recordEntity ent now =>
    have hw := mem_singleton.mp (mem_of_require (mem_of_require h))
    exact ⟨ent, now, hw ▸ hcells⟩
  | _ => simp [Op.tables] at hmem

theorem Db.FromEntities.writeAll {db : Db} (h : db.FromEntities) {ws : List Write}
    (hws : ∀ w ∈ ws, ∀ cells, w.cellsIn .entities = some cells → FromEntity cells) :
    (db.writeAll ws).1.FromEntities := by
  obtain ⟨ws', hpre, hcells, -⟩ := Db.cells_writeAll ws db
  intro cells hmem
  rw [hcells, mem_append] at hmem
  rcases hmem with hmem | hmem
  · exact h cells hmem
  · obtain ⟨w, hw, hwc⟩ := mem_filterMap.mp hmem
    exact hws w (hpre.subset hw) cells hwc

theorem Store.Holds.fromEntities_record {s : Store} (h : s.Holds Db.FromEntities)
    {writes : Except Err (List Write)}
    (hws : ∀ w ∈ writes.toOption.getD [], ∀ cells, w.cellsIn .entities = some cells →
      FromEntity cells) : (s.record writes).1.Holds Db.FromEntities := by
  cases writes with
  | error e => exact h
  | ok ws => exact h.txn (fun _ _ => h.1.writeAll hws) (fun _ _ _ => h.1.writeAll hws)

theorem Db.FromEntities.endActivity {db : Db} (h : db.FromEntities) (aid : String)
    (verdict : Option String) (endedAt : Option ℤ) (now verdictNow : ℤ) :
    (db.endActivity aid verdict endedAt now verdictNow).1.FromEntities := by
  rw [Db.endActivity]
  split
  · next ended v _ _ =>
    have hsame : (db.updateActivities aid v ended).FromEntities := by
      intro cells hmem
      rw [Db.cells, Db.updateActivities] at hmem
      exact h cells hmem
    refine hsame.writeAll fun w hw cells hcells => ?_
    rw [Write.cellsIn, verdictWrites_table hw] at hcells
    exact absurd hcells (by simp)
  · exact h

theorem Store.Holds.fromEntities_endActivity {s : Store} (h : s.Holds Db.FromEntities) (aid : String)
    (verdict : Option String) (endedAt : Option ℤ) (now verdictNow : ℤ) :
    (s.endActivity aid verdict endedAt now verdictNow).1.Holds Db.FromEntities :=
  h.txn (fun _ _ => h.1.endActivity aid verdict endedAt now verdictNow)
    (fun _ _ _ => h.1.endActivity aid verdict endedAt now verdictNow)

theorem Db.rows_prune_subset (db : Db) (kind : String) (cutoff : ℤ) :
    (db.prune kind cutoff).1.rows .entities ⊆ db.rows .entities := by
  have hretire := db.rows_retire [] ((db.rows .entities).filter (doomed kind cutoff))
  rw [Db.prune]
  split
  · next db' e heq =>
    have hrows : db'.rows = db.rows := by rw [heq] at hretire; exact hretire
    rw [hrows]
    exact List.Subset.refl _
  · next db' r heq =>
    have hrows : db'.rows = db.rows := by rw [heq] at hretire; exact hretire
    simp only [Db.deleteEntities, Function.update_self, hrows]
    exact filter_subset_self _

theorem fromEntities_run (u : UnicodeDb) (ops : List Op) : (runOps u ops).db.FromEntities := by
  have hstep : ∀ s op, True → Store.Holds Db.FromEntities s →
      (step u s op).Holds Db.FromEntities := by
    intro s op _ h
    have hrecord : ∀ (op : Op) (writes : Except Err (List Write)),
        op.writes u = writes.toOption.getD [] → (s.record writes).1.Holds Db.FromEntities :=
      fun op writes heq =>
        h.fromEntities_record (heq ▸ fun w hw cells => fromEntity_of_writes hw)
    cases op with
    | recordEntity ent now => exact hrecord (.recordEntity ent now) _ rfl
    | recordActivity act now verdictNow => exact hrecord (.recordActivity act now verdictNow) _ rfl
    | endActivity aid verdict endedAt now verdictNow =>
      exact h.fromEntities_endActivity aid verdict endedAt now verdictNow
    | recordAgent agent now => exact hrecord (.recordAgent agent now) _ rfl
    | recordEdge predicate subject obj activity now =>
      exact hrecord (.recordEdge predicate subject obj activity now) _ rfl
    | recordAssertion a now => exact hrecord (.recordAssertion a now) _ rfl
    | recordReceipt r now => exact hrecord (.recordReceipt r now) _ rfl
    | recordMapping m now => exact hrecord (.recordMapping m now) _ rfl
    | gc kind age now =>
      refine h.gc fun _ cells hmem => ?_
      obtain ⟨r, hr, rfl⟩ := mem_map.mp hmem
      exact h.1 _ (mem_map_of_mem (s.db.rows_prune_subset kind _ hr))
    | enter => exact h.enter
    | leave raised => exact h.leave raised
  exact (Meets.invariant hstep (Meets.of_forall (fun _ _ => trivial) Store.empty ops)
    ⟨fun _ hmem => absurd hmem not_mem_nil, by simp [Store.empty]⟩).1

theorem FromEntity.typed {r : Row .entities} (h : FromEntity r.cells) :
    r.body ≠ none ∧ (∃ k, r.col "kind" = .text k) ∧ ∃ n, r.col "created_at" = .int n := by
  obtain ⟨ent, now, h⟩ := h
  rw [Write.cellsIn, if_pos (by rfl), Option.map_eq_some_iff] at h
  obtain ⟨⟨cells, cache⟩, hst, hcells⟩ := h
  subst hcells
  refine ⟨?_, ?_⟩
  · rw [Row.body]
    exact fun hnone => absurd (hnone.symm.trans (Write.body_stored hst)) (by simp)
  have hall := mapM_eq_some_iff.mp (Write.stored_eq hst)
  simp only [entityWrite, forall₂_cons_left_iff, forall₂_nil_left_iff] at hall
  obtain ⟨c₁, _, -, ⟨c₂, _, h₂, ⟨c₃, _, -, ⟨c₄, _, -, ⟨c₅, _, -, ⟨c₆, _, -, ⟨c₇, _, -,
    ⟨c₈, _, -, ⟨c₉, _, -, ⟨c₁₀, _, -, ⟨c₁₁, _, h₁₁, rfl, rfl⟩, rfl⟩, rfl⟩, rfl⟩, rfl⟩, rfl⟩,
    rfl⟩, rfl⟩, rfl⟩, rfl⟩, hrow⟩ := hall
  rw [Row.col, Row.col, hrow]
  refine ⟨⟨ent.kind, (Option.some.inj h₂).symm⟩, ?_⟩
  rw [Param.store] at h₁₁
  split at h₁₁
  · exact ⟨_, (Option.some.inj h₁₁).symm⟩
  · cases h₁₁

/-! ## Retention -/

/-- The row `get_entity` reads. -/
def Db.current (db : Db) (eid : String) : Option (Row .entities) :=
  ((db.rows .entities).filter fun r => r.col "eid" = .text eid).getLast?

theorem Db.getEntity_eq (db : Db) (eid : String) :
    db.getEntity eid = (db.current eid).map fun r => readEntity r.cells := by
  rw [Db.getEntity, latest, Db.cells, filter_map, getLast?_map, Option.map_map]
  rfl

theorem getLast?_filter {α : Type} {l : List α} {a : α} {p : α → Bool} (h : l.getLast? = some a)
    (hp : p a = true) : (l.filter p).getLast? = some a := by
  obtain ⟨pre, rfl⟩ := getLast?_eq_some_iff.mp h
  rw [filter_append, filter_cons_of_pos hp, filter_nil, getLast?_concat]

theorem doomed_iff {r : Row .entities} (h : FromEntity r.cells) (kind : String) (cutoff : ℤ) :
    doomed kind cutoff r = true ↔
      (readEntity r.cells).kind = kind ∧ (readEntity r.cells).createdAt < cutoff := by
  obtain ⟨-, ⟨k, hk⟩, n, hn⟩ := h.typed
  have hkind : (readEntity r.cells).kind = k := by
    show ((r.col "kind").str?).getD "" = k
    rw [hk]
    rfl
  have htime : (readEntity r.cells).createdAt = n.1 := by
    show (r.col "created_at").time = n.1
    rw [hn]
    rfl
  rw [doomed, hk, hn, hkind, htime]
  simp

theorem Store.rows_gc {s : Store} (h : s.db.FromEntities) (kind : String) (age now : ℤ) :
    (s.gc u kind age now).1.db.rows .entities =
      if GcRuns kind age now then
        (s.db.rows .entities).filter fun r => !doomed kind (now - age) r
      else s.db.rows .entities := by
  have hbody : ∀ r ∈ s.db.rows .entities, r.body ≠ none :=
    fun r hr => (h _ (mem_map_of_mem hr)).typed.1
  have hok : (s.db.prune kind (now - age)).2 =
      .ok ((s.db.rows .entities).filter (doomed kind (now - age))).length := by
    have hretire := Db.retire_ok ((s.db.rows .entities).filter (doomed kind (now - age)))
      (fun r hr => hbody r (mem_of_mem_filter hr)) s.db []
    rw [Db.prune]
    split
    · next heq =>
      rw [heq] at hretire
      cases hretire
    · rfl
  have hrows : (s.db.prune kind (now - age)).1.rows .entities =
      (s.db.rows .entities).filter fun r => !doomed kind (now - age) r := by
    rw [Db.prune_eq hbody]
    simp only [Db.deleteEntities, Function.update_self, Db.rows_retire]
  have htxn : (s.txn fun db => db.prune kind (now - age)).1.db =
      (s.db.prune kind (now - age)).1 := by
    rw [Store.txn]
    split
    · rfl
    · split
      · next heq => rw [heq]
      · next heq =>
        rw [heq] at hok
        cases hok
  by_cases hruns : GcRuns kind age now
  · rw [if_pos hruns]
    obtain ⟨hkind, hage, hstore⟩ := hruns
    obtain ⟨c, hc⟩ := Option.ne_none_iff_exists'.mp hstore
    rw [Store.gc, hkind, if_neg (by simp), if_neg (by omega), hc]
    exact htxn ▸ hrows
  · rw [if_neg hruns, Store.gc]
    split
    · rfl
    · next hkind =>
      split
      · rfl
      · next hage =>
        split
        · rfl
        · next c hc => exact absurd ⟨by simpa using hkind, by omega, by rw [hc]; simp⟩ hruns

/-- `gc` takes the newest row of an identifier only together with all of them. -/
def Db.PrunesWhole (db : Db) (kind : String) (cutoff : ℤ) : Prop :=
  ∀ eid r, db.current eid = some r → doomed kind cutoff r = true →
    ∀ r' ∈ db.rows .entities, r'.col "eid" = .text eid → doomed kind cutoff r' = true

/-- **Retention brings back no old snapshot** exactly when no newest row goes without the rows below
it. -/
theorem retention_iff (u : UnicodeDb) (ops : List Op) (kind : String) (age now : ℤ) :
    (∀ eid, ((runOps u ops).gc u kind age now).1.db.getEntity eid = (runOps u ops).db.getEntity eid ∨
      ((runOps u ops).gc u kind age now).1.db.getEntity eid = none) ↔
      (GcRuns kind age now → (runOps u ops).db.PrunesWhole kind (now - age)) := by
  have hfrom := fromEntities_run u ops
  have hrows := Store.rows_gc (u := u) hfrom kind age now
  generalize runOps u ops = s at hfrom hrows ⊢
  by_cases hruns : GcRuns kind age now
  swap
  · rw [if_neg hruns] at hrows
    refine ⟨fun _ h => absurd h hruns, fun _ eid => .inl ?_⟩
    rw [Db.getEntity_eq, Db.getEntity_eq, Db.current, hrows]
    rfl
  rw [if_pos hruns] at hrows
  have hcurrent : ∀ eid, (s.gc u kind age now).1.db.current eid =
      (((s.db.rows .entities).filter fun r => r.col "eid" = .text eid).filter
        fun r => !doomed kind (now - age) r).getLast? := by
    intro eid
    rw [Db.current, hrows, List.filter_filter, List.filter_filter]
    exact congrArg List.getLast? (List.filter_congr fun r _ => Bool.and_comm _ _)
  constructor
  · intro h _ eid r hr hdoomed r' hr' heid
    by_contra hkept
    have hmem : r' ∈ ((s.db.rows .entities).filter fun r => r.col "eid" = .text eid).filter
        fun r => !doomed kind (now - age) r :=
      List.mem_filter.mpr ⟨List.mem_filter.mpr ⟨hr', by simpa using heid⟩, by simpa using hkept⟩
    -- some row of the identifier is left, and it is not the one that was current
    obtain ⟨last, hlast⟩ := Option.ne_none_iff_exists'.mp
      (fun hnone => List.ne_nil_of_mem hmem (List.getLast?_eq_none_iff.mp hnone))
    have hlastmem := List.mem_filter.mp (List.mem_of_getLast? hlast)
    have hcur := h eid
    rw [Db.getEntity_eq, Db.getEntity_eq, hcurrent, hlast, hr] at hcur
    have hsame : readEntity last.cells = readEntity r.cells := by simpa using hcur
    have hrmem : r ∈ s.db.rows .entities := (List.mem_filter.mp (List.mem_of_getLast? hr)).1
    have hspec := (doomed_iff (hfrom _ (List.mem_map_of_mem hrmem)) kind (now - age)).mp hdoomed
    rw [← hsame] at hspec
    have hgone := (doomed_iff (hfrom _ (List.mem_map_of_mem (List.mem_filter.mp hlastmem.1).1))
      kind (now - age)).mpr hspec
    simp [hgone] at hlastmem
  · intro h eid
    rw [Db.getEntity_eq, Db.getEntity_eq, hcurrent]
    cases hr : s.db.current eid with
    | none =>
      rw [List.getLast?_eq_none_iff.mp hr]
      exact .inl rfl
    | some r =>
      by_cases hdoomed : doomed kind (now - age) r = true
      · right
        have hnil : (((s.db.rows .entities).filter fun r => r.col "eid" = .text eid).filter
            fun r => !doomed kind (now - age) r) = [] := by
          rw [List.filter_eq_nil_iff]
          intro r' hr'
          obtain ⟨hr', heid⟩ := List.mem_filter.mp hr'
          simp [h hruns eid r hr hdoomed r' hr' (by simpa using heid)]
        rw [hnil]
        rfl
      · left
        rw [getLast?_filter hr (by simpa using hdoomed)]

/-- An export is recorded, then recorded again with a guard by a clock that was set back. -/
def setBack : List Op :=
  [.recordEntity { eid := "file:1", kind := "file", createdAt := 200 } 200,
    .recordEntity { eid := "file:1", kind := "file", guards := ["no-export"], createdAt := 100 } 100]

/-- `gc` with a cutoff between the two times brings back the row without the guard. -/
theorem gc_resurrects :
    ((runOps .ascii setBack).db.getEntity "file:1").map Entity.guards = some ["no-export"] ∧
    (((runOps .ascii setBack).gc .ascii "file" 100 250).1.db.getEntity "file:1").map Entity.guards =
      some [] ∧
    ¬ ∀ ops kind age now eid, ((runOps .ascii ops).gc .ascii kind age now).1.db.getEntity eid =
          (runOps .ascii ops).db.getEntity eid ∨
        ((runOps .ascii ops).gc .ascii kind age now).1.db.getEntity eid = none := by
  have hbefore : ((runOps .ascii setBack).db.getEntity "file:1").map Entity.guards =
      some ["no-export"] := by decide +kernel
  have hafter : (((runOps .ascii setBack).gc .ascii "file" 100 250).1.db.getEntity "file:1").map
      Entity.guards = some [] := by decide +kernel
  refine ⟨hbefore, hafter, fun h => ?_⟩
  rcases h setBack "file" 100 250 "file:1" with hsame | hnone
  · rw [hsame, hbefore] at hafter
    exact absurd hafter (by decide)
  · rw [hnone] at hafter
    cases hafter

/-! ## Walking derivations -/

/-- A derivation: the second entity derives from the first. -/
def Db.Derives (db : Db) (x y : String) : Prop := (y, x) ∈ db.derivations

/-- One level of `_walk` along pairs of a taken and a matched column. -/
def walkLevel (edges : List (String × String)) (start : String) (seen frontier : List String) :
    List String :=
  ((edges.filter fun d => frontier.elem d.2).map Prod.fst).dedup.filter fun x =>
    !seen.elem x && x ≠ start

/-- `upstream`: `_walk` with the columns exchanged. -/
def Db.upstream (db : Db) (eid : String) : List String :=
  BoundedWalk.walkFrom (walkLevel (db.derivations.map Prod.swap) eid) 64 [] [eid]

theorem Db.walk_eq (db : Db) (start : String) (n : ℕ) (seen frontier : List String) :
    db.walk start n seen frontier =
      BoundedWalk.walkFrom (walkLevel db.derivations start) n seen frontier := by
  induction n generalizing seen frontier with
  | zero => rfl
  | succ n ih =>
    rw [Db.walk, BoundedWalk.walkFrom, ih]
    rfl

theorem levels_walkLevel (edges : List (String × String)) (start : String) :
    BoundedWalk.Levels (fun x y => (y, x) ∈ edges) start (walkLevel edges start) := by
  intro seen frontier y
  simp only [walkLevel, mem_filter, mem_dedup, mem_map, elem_eq_mem,
    decide_eq_true_eq, Bool.and_eq_true, Bool.not_eq_true', decide_eq_false_iff_not]
  constructor
  · rintro ⟨⟨⟨d, z⟩, ⟨hd, hz⟩, rfl⟩, hrest⟩
    exact ⟨⟨z, hz, hd⟩, hrest⟩
  · rintro ⟨⟨z, hz, hd⟩, hrest⟩
    exact ⟨⟨(y, z), ⟨hd, hz⟩, rfl⟩, hrest⟩

theorem Db.mem_downstream (db : Db) (x y : String) :
    y ∈ db.downstream x ↔
      y ≠ x ∧ ∃ k, 1 ≤ k ∧ k ≤ 64 ∧ BoundedWalk.Path db.Derives k x y := by
  rw [Db.downstream, Db.walk_eq]
  exact BoundedWalk.mem_walk (levels_walkLevel db.derivations x)

theorem Db.mem_upstream (db : Db) (x y : String) :
    x ∈ db.upstream y ↔
      x ≠ y ∧ ∃ k, 1 ≤ k ∧ k ≤ 64 ∧ BoundedWalk.Path (fun a b => db.Derives b a) k y x := by
  rw [Db.upstream, BoundedWalk.mem_walk (levels_walkLevel _ y)]
  have hedge : (fun a b => (b, a) ∈ db.derivations.map Prod.swap) = fun a b => db.Derives b a := by
    funext a b
    rw [Db.Derives, mem_map]
    refine propext ⟨?_, fun h => ⟨_, h, rfl⟩⟩
    rintro ⟨⟨c, d⟩, hmem, heq⟩
    cases heq
    exact hmem
  rw [hedge]

/-- **A walk finds every derivative**, and the converse walk its sources, exactly when every
derivative is within 64 edges. -/
theorem downstream_iff (db : Db) (x : String) :
    ((∀ y, y ∈ db.downstream x ↔ y ≠ x ∧ ∃ k, 1 ≤ k ∧ BoundedWalk.Path db.Derives k x y) ∧
      ∀ y, x ≠ y → (y ∈ db.downstream x ↔ x ∈ db.upstream y)) ↔
    ∀ y, y ≠ x → ∀ k, 1 ≤ k → BoundedWalk.Path db.Derives k x y →
      ∃ j, 1 ≤ j ∧ j ≤ 64 ∧ BoundedWalk.Path db.Derives j x y := by
  constructor
  · rintro ⟨hexact, -⟩ y hy k hk hpath
    exact ((db.mem_downstream x y).mp ((hexact y).mpr ⟨hy, k, hk, hpath⟩)).2
  · intro h
    refine ⟨fun y => ?_, fun y hne => ?_⟩
    · rw [db.mem_downstream]
      constructor
      · rintro ⟨hy, k, hk, -, hpath⟩
        exact ⟨hy, k, hk, hpath⟩
      · rintro ⟨hy, k, hk, hpath⟩
        exact ⟨hy, h y hy k hk hpath⟩
    · rw [db.mem_downstream, db.mem_upstream]
      constructor
      · rintro ⟨-, k, hk, hk', hpath⟩
        exact ⟨hne, k, hk, hk', hpath.converse⟩
      · rintro ⟨-, k, hk, hk', hpath⟩
        exact ⟨hne.symm, k, hk, hk', hpath.converse⟩

/-- The entities of a chain of derivations. -/
def link (i : ℕ) : String := String.singleton (Char.ofNat (200 + i))

/-- Each of 65 entities derives from the one before it. -/
def longChain : List Op :=
  (List.range 65).map fun i => .recordEdge "wasDerivedFrom" (link (i + 1)) (link i) none 1

theorem link_injective {i j : ℕ} (hi : i ≤ 65) (hj : j ≤ 65) (h : link i = link j) : i = j := by
  have hchar : ∀ k ≤ 65, (Char.ofNat (200 + k)).toNat = 200 + k := by decide
  have hlist := congrArg String.toList h
  rw [link, link, String.toList_singleton, String.toList_singleton] at hlist
  have hnat := congrArg Char.toNat (singleton_injective hlist)
  rw [hchar i hi, hchar j hj] at hnat
  omega

/-- The last entity derives from the first, and the walk does not get there. -/
theorem downstream_misses :
    link 65 ∉ (runOps .ascii longChain).db.downstream (link 0) ∧
    ¬ ∀ (db : Db) (x y : String), y ∈ db.downstream x ↔
      y ≠ x ∧ ∃ k, 1 ≤ k ∧ BoundedWalk.Path db.Derives k x y := by
  have hedges : (runOps .ascii longChain).db.derivations =
      (List.range 65).map fun i => (link (i + 1), link i) := by decide +kernel
  have hpath : ∀ i ≤ 65,
      BoundedWalk.Path (runOps .ascii longChain).db.Derives i (link 0) (link i) := by
    intro i
    induction i with
    | zero => exact fun _ => rfl
    | succ i ih =>
      intro hi
      refine (ih (by omega)).snoc ?_
      rw [Db.Derives, hedges]
      exact List.mem_map.mpr ⟨i, List.mem_range.mpr hi, rfl⟩
  -- along the chain every edge goes up by one
  have honly : ∀ k i y, i + k ≤ 65 →
      BoundedWalk.Path (runOps .ascii longChain).db.Derives k (link i) y → y = link (i + k) := by
    intro k
    induction k with
    | zero => exact fun i y _ h => h.symm
    | succ k ih =>
      rintro i y hi ⟨z, hz, hrest⟩
      rw [Db.Derives, hedges] at hz
      obtain ⟨j, hj, heq⟩ := List.mem_map.mp hz
      obtain ⟨rfl, hji⟩ := Prod.mk.inj heq
      have hj' := List.mem_range.mp hj
      have hij := link_injective (by omega) (by omega) hji
      subst hij
      rw [ih (j + 1) y (by omega) hrest, Nat.add_right_comm, Nat.add_assoc]
  have hmiss : link 65 ∉ (runOps .ascii longChain).db.downstream (link 0) := by
    intro hmem
    obtain ⟨-, k, hk, hk', hreach⟩ := (Db.mem_downstream _ _ _).mp hmem
    have hend := link_injective (by omega) (by omega) (honly k 0 _ (by omega) hreach)
    omega
  refine ⟨hmiss, fun h => hmiss ?_⟩
  exact (h _ (link 0) (link 65)).mpr ⟨by decide, 65, by omega, hpath 65 (Nat.le_refl _)⟩

end Lineage
