/-
# Guards along derivations

The broker's chokepoints record an output with a `wasDerivedFrom` edge to each of its
sources.  A commit or a deriving chokepoint records the union of its sources' security
fields, so its output carries them.  An upload records its output with no security fields
at all; it carries its source's only if these are empty.  What one operation carries, a
chain of operations carries, as long as no operation records an output under an identifier
whose snapshot it narrows.
-/
import QDistro.LineageLabels

open TransitionSystem

namespace Lineage

open List

open ChokepointCall

open Store

variable {u : UnicodeDb}

/-! ## What an output includes -/

/-- `e` has every guard, compartment and conflict class of `f`. -/
def FlowEndpoint.Includes (e f : FlowEndpoint) : Prop :=
  (∀ g ∈ f.guards, g ∈ e.guards) ∧ (∀ c ∈ f.compartments, c ∈ e.compartments) ∧
    ∀ c ∈ f.conflictClasses, c ∈ e.conflictClasses

instance (e f : FlowEndpoint) : Decidable (e.Includes f) :=
  inferInstanceAs (Decidable (_ ∧ _ ∧ _))

theorem FlowEndpoint.Includes.refl (e : FlowEndpoint) : e.Includes e :=
  ⟨fun _ h => h, fun _ h => h, fun _ h => h⟩

variable {e : FlowEndpoint}

theorem FlowEndpoint.Includes.trans {f g : FlowEndpoint} (h : e.Includes f) (h' : f.Includes g) :
    e.Includes g :=
  ⟨fun x hx => h.1 x (h'.1 x hx), fun x hx => h.2.1 x (h'.2.1 x hx),
    fun x hx => h.2.2 x (h'.2.2 x hx)⟩

/-- The union of the security fields of some inputs. -/
def unionEndpoint (inputs : List ChokepointInput) : FlowEndpoint where
  guards := inputs.flatMap (·.endpoint.guards)
  compartments := inputs.flatMap (·.endpoint.compartments)
  conflictClasses := inputs.flatMap (·.endpoint.conflictClasses)

variable {inputs : List ChokepointInput}

theorem unionEndpoint_includes {i : ChokepointInput} (h : i ∈ inputs) :
    (unionEndpoint inputs).Includes i.endpoint :=
  ⟨fun _ hg => mem_flatMap.mpr ⟨i, h, hg⟩, fun _ hg => mem_flatMap.mpr ⟨i, h, hg⟩,
    fun _ hg => mem_flatMap.mpr ⟨i, h, hg⟩⟩

theorem recorded_includes_union {c : ChokepointCall} (h : c.trustedMapping = none) :
    (c.outputEntity u).recorded.Includes (unionEndpoint c.inputs) := by
  refine ⟨fun g hg => ?_, fun x hx => ?_, fun x hx => ?_⟩
  · have hout : c.outputGuards u = c.unionGuards u := by rw [outputGuards, h]
    obtain ⟨i, hi, hgi⟩ := mem_flatMap.mp hg
    refine mem_sortedSet.mpr ?_
    change g ∈ c.outputGuards u
    rw [hout, unionGuards, mem_propagateGuards]
    exact ⟨_, mem_append_left _ (mem_map.mpr ⟨i, hi, rfl⟩), hgi⟩
  · exact mem_sortedSet.mpr (mem_dedup.mpr hx)
  · exact mem_sortedSet.mpr (mem_dedup.mpr hx)

/-! ## Chokepoints -/

theorem take_grounded {A B : List Op} {E : Op} (hA : ∀ op ∈ A, op.label = [] ∧ op.derivation = [])
    (hE : E.derivation = []) (hB : ∀ op ∈ B, op.label = []) (k : ℕ) :
    ((A ++ E :: B).take k).flatMap Op.label = [] ∧
        ((A ++ E :: B).take k).flatMap Op.derivation = [] ∨
      ((A ++ E :: B).take k).flatMap Op.label = E.label ∧
        ∀ d ∈ ((A ++ E :: B).take k).flatMap Op.derivation, ∃ op ∈ B, d ∈ op.derivation := by
  have hAl : ∀ j, (A.take j).flatMap Op.label = [] := fun j =>
    flatMap_eq_nil_iff.mpr fun op hop => (hA op (mem_of_mem_take hop)).1
  have hAd : ∀ j, (A.take j).flatMap Op.derivation = [] := fun j =>
    flatMap_eq_nil_iff.mpr fun op hop => (hA op (mem_of_mem_take hop)).2
  rw [take_append, flatMap_append, flatMap_append, hAl, hAd, nil_append,
    nil_append]
  cases k - A.length with
  | zero => exact .inl ⟨rfl, rfl⟩
  | succ j =>
    refine .inr ⟨?_, ?_⟩
    · rw [take_succ_cons, flatMap_cons, flatMap_eq_nil_iff.mpr fun op hop =>
        hB op (mem_of_mem_take hop), append_nil]
    · intro d hd
      rw [take_succ_cons, flatMap_cons, hE, nil_append] at hd
      obtain ⟨op, hop, hdop⟩ := mem_flatMap.mp hd
      exact ⟨op, mem_of_mem_take hop, hdop⟩

theorem mem_mapIdx_clock {fs : List (ℤ → Op)} {clock : ℕ → ℤ} {op : Op}
    (h : op ∈ fs.mapIdx fun i f => f (clock i)) : ∃ f ∈ fs, ∃ t, op = f t := by
  obtain ⟨i, hi, rfl⟩ := mem_mapIdx.mp h
  exact ⟨_, getElem_mem hi, _, rfl⟩

section

variable (c : ChokepointCall)

theorem ChokepointCall.activityOps_spec {f : ℤ → Op} (h : f ∈ c.activityOps u) (t : ℤ) :
    (f t).IsRecord ∧ (f t).label = [] ∧ (f t).derivation = [] := by
  rw [activityOps] at h
  simp only [mem_cons, mem_append, mem_map] at h
  rcases h with rfl | ⟨gid, -, rfl⟩ | ⟨i, -, rfl⟩
  · exact ⟨trivial, rfl, rfl⟩
  · exact ⟨trivial, rfl, by simp [edge, Op.derivation, edgeDerivation]⟩
  · exact ⟨trivial, rfl, by simp [edge, Op.derivation, edgeDerivation]⟩

theorem ChokepointCall.outputEdges_spec {f : ℤ → Op} (h : f ∈ c.outputEdges) (t : ℤ) :
    (f t).IsRecord ∧ (f t).label = [] ∧
      ∀ d ∈ (f t).derivation, d.1 = c.outEid ∧ ∃ i ∈ c.inputs, d.2 = i.eid := by
  rw [outputEdges] at h
  simp only [mem_cons, mem_append, mem_map] at h
  rcases h with rfl | ⟨i, hi, rfl⟩ | ⟨gid, -, rfl⟩
  · exact ⟨trivial, rfl, by simp [edge, Op.derivation, edgeDerivation]⟩
  · refine ⟨trivial, rfl, fun d hd => ?_⟩
    simp only [edge, Op.derivation, edgeDerivation, if_true,
      mem_singleton] at hd
    exact ⟨by rw [hd], i, hi, by rw [hd]⟩
  · exact ⟨trivial, rfl, by simp [edge, Op.derivation, edgeDerivation]⟩

/-- What a call of `record_chokepoint` can add: nothing, or its output with derivations
from its inputs. -/
def ChokepointCall.Adds (u : UnicodeDb) (c : ChokepointCall) (L : List (String × FlowEndpoint))
    (D : List (String × String)) : Prop :=
  L = [] ∧ D = [] ∨
    c.mints u = true ∧ L = [(c.outEid, (c.outputEntity u).recorded)] ∧
      ∀ d ∈ D, d.1 = c.outEid ∧ ∃ i ∈ c.inputs, d.2 = i.eid

theorem ChokepointCall.isRecord_ops : ∀ op ∈ c.ops u, op.IsRecord := by
  intro op hop
  obtain ⟨f, hf, t, rfl⟩ := mem_mapIdx_clock hop
  rcases mem_append.mp hf with hf | hf
  · exact (c.activityOps_spec hf t).1
  · split at hf
    · rcases mem_cons.mp hf with rfl | hf
      · trivial
      · exact (c.outputEdges_spec hf t).1
    · exact absurd hf (by simp)

theorem ChokepointCall.adds_take (k : ℕ) :
    c.Adds u (((c.ops u).take k).flatMap Op.label) (((c.ops u).take k).flatMap Op.derivation) := by
  have hA : ∀ op ∈ (c.activityOps u).mapIdx (fun i f => f (c.clock i)),
      op.label = [] ∧ op.derivation = [] := by
    intro op hop
    obtain ⟨f, hf, t, rfl⟩ := mem_mapIdx_clock hop
    exact (c.activityOps_spec hf t).2
  rw [ops, mapIdx_append]
  cases hm : c.mints u with
  | false =>
    refine .inl ⟨?_, ?_⟩
    · simp only [Bool.false_eq_true, if_false, mapIdx_nil, append_nil]
      exact flatMap_eq_nil_iff.mpr fun op hop => (hA op (mem_of_mem_take hop)).1
    · simp only [Bool.false_eq_true, if_false, mapIdx_nil, append_nil]
      exact flatMap_eq_nil_iff.mpr fun op hop => (hA op (mem_of_mem_take hop)).2
  | true =>
    simp only [if_true, mapIdx_cons]
    have hB : ∀ op ∈ c.outputEdges.mapIdx
        (fun i f => f (c.clock (i + 1 + (c.activityOps u).length))),
        op.label = [] ∧ ∀ d ∈ op.derivation, d.1 = c.outEid ∧ ∃ i ∈ c.inputs, d.2 = i.eid := by
      intro op hop
      obtain ⟨i, hi, rfl⟩ := mem_mapIdx.mp hop
      exact (c.outputEdges_spec (getElem_mem hi) _).2
    have hE : ∀ t, (Op.recordEntity (c.outputEntity u) t).derivation = [] := fun _ => rfl
    rcases take_grounded hA (hE _) (fun op hop => (hB op hop).1) k with hnone | ⟨hl, hd⟩
    · exact .inl hnone
    · refine .inr ⟨hm, hl, fun d hdmem => ?_⟩
      obtain ⟨op, hop, hdop⟩ := hd d hdmem
      exact (hB op hop).2 d hdop

end

theorem Store.recordChokepoint_grows (s : Store) (c : ChokepointCall) :
    ∃ L D, Grows s (s.recordChokepoint u c).1 L D ∧ c.Adds u L D := by
  rw [recordChokepoint]
  split
  · exact ⟨[], [], .refl s, .inl ⟨rfl, rfl⟩⟩
  · obtain ⟨k, hk⟩ := performAll_grows c.isRecord_ops s.enter
    rcases transaction_grows (fun s => s.performAll u (c.ops u)) hk with h | h
    · exact ⟨_, _, h, c.adds_take k⟩
    · exact ⟨[], [], h, .inl ⟨rfl, rfl⟩⟩

/-! ## Commits -/

theorem snapshot_of_resolveSources {db : Db} {bad : String → Exc} {what : String}
    {seen sources : List String} (h : resolveSources u db bad what seen sources = .ok inputs) :
    ∀ i ∈ inputs, db.snapshot i.eid = some i.endpoint := by
  induction sources generalizing seen inputs with
  | nil =>
    rw [← Except.ok.inj h]
    exact fun i hi => absurd hi (by simp)
  | cons eid rest ih =>
    rw [resolveSources] at h
    split at h
    · exact absurd h (by simp)
    split at h
    · exact absurd h (by simp)
    split at h
    · exact absurd h (by simp)
    · next endpoint hs =>
      obtain ⟨inputs', hrest, rfl⟩ := except_map_ok h
      intro i hi
      rcases mem_cons.mp hi with rfl | hi
      · exact hs
      · exact ih hrest i hi

theorem CommitCall.snapshot_of_check {db : Db} {c : CommitCall} (h : c.check u db = .ok inputs) :
    ∀ i ∈ inputs, db.snapshot i.eid = some i.endpoint := by
  rw [CommitCall.check] at h
  split at h
  · exact absurd h (by simp)
  split at h
  · exact absurd h (by simp)
  split at h
  · exact absurd h (by simp)
  exact snapshot_of_resolveSources h

theorem Store.performReceipt_grows (s : Store) (r : Receipt) (now : ℤ) :
    Grows s (s.performAll u [.recordReceipt r now]).1 [] [] := by
  have hrecord : ∀ op ∈ [Op.recordReceipt r now], op.IsRecord := by
    intro op hop
    rw [mem_singleton.mp hop]
    trivial
  obtain ⟨k, hk⟩ := performAll_grows (u := u) hrecord s
  have hnil : ∀ {α : Type} (f : Op → List α), f (.recordReceipt r now) = [] →
      (([.recordReceipt r now] : List Op).take k).flatMap f = [] := fun f hf =>
    flatMap_eq_nil_iff.mpr fun op hop => by
      rw [mem_singleton.mp (mem_of_mem_take hop), hf]
  rw [hnil _ rfl, hnil _ rfl] at hk
  exact hk

theorem Store.recordCommitReceipt_grows (s : Store) (c : CommitCall) :
    Grows s (s.recordCommitReceipt u c).1 [] [] := by
  rw [recordCommitReceipt]
  split
  · exact .refl s
  · exact s.performReceipt_grows _ _

variable {s : Store}

theorem Store.recordCommit_grows_of_check {c : CommitCall} (h : c.check u s.db = .ok inputs) :
    ∃ L D, Grows s (s.recordCommit u c).1 L D ∧ (c.chokepoint inputs).Adds u L D := by
  rw [recordCommit, h]
  obtain ⟨L, D, hg, hadds⟩ := s.enter.recordChokepoint_grows (u := u) (c.chokepoint inputs)
  refine (transaction_grows _ (L := L) (D := D) ?_).elim (fun h => ⟨L, D, h, hadds⟩)
    fun h => ⟨[], [], h, .inl ⟨rfl, rfl⟩⟩
  split
  · next heq => rw [heq] at hg; exact hg
  · next s' res heq =>
    rw [heq] at hg
    split
    · have := hg.trans (s'.recordCommitReceipt_grows (u := u) c)
      rw [append_nil, append_nil] at this
      exact this
    · exact hg

theorem Store.recordCommit_of_check_error {c : CommitCall} {e : Exc}
    (h : c.check u s.db = .error e) : (s.recordCommit u c).1 = s := by
  rw [recordCommit, h]

/-! ## Uploads -/

theorem snapshot_of_planFiles {db : Db} {seen : List String} {files : List UploadFile}
    {plan : List (UploadFile × FlowEndpoint)} (h : planFiles u db seen files = .ok plan) :
    ∀ p ∈ plan, db.snapshot p.1.sourceEid = some p.2 := by
  induction files generalizing seen plan with
  | nil =>
    rw [← Except.ok.inj h]
    exact fun p hp => absurd hp (by simp)
  | cons f rest ih =>
    rw [planFiles] at h
    split at h
    · exact absurd h (by simp)
    split at h
    · exact absurd h (by simp)
    split at h
    · exact absurd h (by simp)
    split at h
    · exact absurd h (by simp)
    · next endpoint hs =>
      obtain ⟨plan', hrest, rfl⟩ := except_map_ok h
      intro p hp
      rcases mem_cons.mp hp with rfl | hp
      · exact hs
      · exact ih hrest p hp

theorem UploadCall.snapshot_of_plan {db : Db} {c : UploadCall}
    {plan : List (UploadFile × FlowEndpoint)} (h : c.plan u db = .ok plan) :
    ∀ p ∈ plan, db.snapshot p.1.sourceEid = some p.2 := by
  rw [UploadCall.plan] at h
  split at h
  · exact absurd h (by simp)
  split at h
  · exact absurd h (by simp)
  exact snapshot_of_planFiles h

theorem UploadCall.mints_chokepoint (c : UploadCall) (p : UploadFile × FlowEndpoint) :
    (c.chokepoint p).mints u = false := by
  have h : derivingChokepoints.elem (c.chokepoint p).chokepoint = false := by
    change derivingChokepoints.elem "browser-upload" = false
    decide
  rw [mints, h, Bool.and_false]

theorem Store.uploadChokepoint_grows (s : Store) (c : UploadCall) (p : UploadFile × FlowEndpoint) :
    Grows s (s.recordChokepoint u (c.chokepoint p)).1 [] [] := by
  obtain ⟨L, D, hg, hadds⟩ := s.recordChokepoint_grows (u := u) (c.chokepoint p)
  rcases hadds with ⟨rfl, rfl⟩ | ⟨hm, -⟩
  · exact hg
  · rw [c.mints_chokepoint] at hm
    exact absurd hm (by simp)

theorem Store.recordChokepoint_allowed {c : ChokepointCall} {res : ChokepointResult}
    (h : (s.recordChokepoint u c).2 = .ok res) : res.allowed = c.allowed u := by
  rw [recordChokepoint] at h
  split at h
  · exact absurd h (by simp)
  · obtain ⟨r, -, rfl⟩ := except_map_ok h
    rfl

/-- **Phase 1** adds nothing, and only lets through a batch whose flows are all allowed. -/
theorem Store.uploadChokepoints_grows (c : UploadCall) (plan : List (UploadFile × FlowEndpoint))
    (s : Store) :
    Grows s (s.uploadChokepoints u c plan).1 [] [] ∧
      ∀ denied reasons, (s.uploadChokepoints u c plan).2 = .ok (denied, reasons) →
        denied = [] → ∀ p ∈ plan, (c.chokepoint p).allowed u = true := by
  induction plan generalizing s with
  | nil => exact ⟨.refl s, fun _ _ _ _ p hp => absurd hp (by simp)⟩
  | cons p rest ih =>
    have hg := s.uploadChokepoint_grows (u := u) c p
    rw [uploadChokepoints]
    split
    · next s' e heq =>
      rw [heq] at hg
      exact ⟨hg, fun _ _ h => absurd h (by simp)⟩
    · next s' res heq =>
      rw [heq] at hg
      have hallowed : res.allowed = (c.chokepoint p).allowed u :=
        recordChokepoint_allowed (by rw [heq])
      obtain ⟨hrest, hall⟩ := ih s'
      refine ⟨hg.trans hrest, fun denied reasons h hnil => ?_⟩
      obtain ⟨⟨denied', reasons'⟩, hok, hres⟩ := except_map_ok h
      simp only at hres
      by_cases ha : res.allowed = true
      · rw [if_pos ha] at hres
        have hnil' : denied' = [] := (congrArg Prod.fst hres).trans hnil
        intro q hq
        rcases mem_cons.mp hq with rfl | hq
        · rw [← hallowed, ha]
        · exact hall denied' reasons' hok hnil' q hq
      · rw [if_neg ha] at hres
        exact absurd ((congrArg Prod.fst hres).trans hnil) (by simp)

/-- What phase 2 can add: for some of the files, the artifact without security fields and a
derivation from its source. -/
structure UploadAdds (files : List UploadFile) (L : List (String × FlowEndpoint))
    (D : List (String × String)) : Prop where
  labels : ∀ l ∈ L, ∃ f ∈ files, l = (f.outEid, {})
  derivations : ∀ d ∈ D, (∃ f ∈ files, d = (f.outEid, f.sourceEid)) ∧ (d.1, {}) ∈ L

theorem UploadAdds.nil (files : List UploadFile) : UploadAdds files [] [] :=
  ⟨fun _ h => absurd h (by simp), fun _ h => absurd h (by simp)⟩

variable {L : List (String × FlowEndpoint)} {D : List (String × String)}

theorem UploadAdds.append {f : UploadFile} {files : List UploadFile}
    {L' : List (String × FlowEndpoint)} {D' : List (String × String)} (h : UploadAdds [f] L D)
    (h' : UploadAdds files L' D') :
    UploadAdds (f :: files) (L ++ L') (D ++ D') := by
  refine ⟨fun l hl => ?_, fun d hd => ?_⟩
  · rcases mem_append.mp hl with hl | hl
    · obtain ⟨f', hf', rfl⟩ := h.labels l hl
      exact ⟨f', by rw [mem_singleton.mp hf']; exact mem_cons_self, rfl⟩
    · obtain ⟨f', hf', rfl⟩ := h'.labels l hl
      exact ⟨f', mem_cons_of_mem _ hf', rfl⟩
  · rcases mem_append.mp hd with hd | hd
    · obtain ⟨⟨f', hf', hd'⟩, hmem⟩ := h.derivations d hd
      exact ⟨⟨f', by rw [mem_singleton.mp hf']; exact mem_cons_self, hd'⟩,
        mem_append_left _ hmem⟩
    · obtain ⟨⟨f', hf', hd'⟩, hmem⟩ := h'.derivations d hd
      exact ⟨⟨f', mem_cons_of_mem _ hf', hd'⟩, mem_append_right _ hmem⟩

theorem UploadCall.outputEdges_spec (c : UploadCall) (f : UploadFile) {g : ℤ → Op}
    (h : g ∈ c.outputEdges f) (t : ℤ) :
    (g t).IsRecord ∧ (g t).label = [] ∧ ∀ d ∈ (g t).derivation, d = (f.outEid, f.sourceEid) := by
  rw [UploadCall.outputEdges] at h
  simp only [mem_append, mem_cons, not_mem_nil, or_false, mem_map] at h
  rcases h with (rfl | rfl) | ⟨gid, -, rfl⟩
  · exact ⟨trivial, rfl, by simp [Op.derivation, edgeDerivation]⟩
  · exact ⟨trivial, rfl, by simp [Op.derivation, edgeDerivation]⟩
  · exact ⟨trivial, rfl, by simp [Op.derivation, edgeDerivation]⟩

theorem UploadCall.isRecord_outputOps (c : UploadCall) (f : UploadFile) :
    ∀ op ∈ c.outputOps f, op.IsRecord := by
  intro op hop
  obtain ⟨g, hg, t, rfl⟩ := mem_mapIdx_clock hop
  rcases mem_cons.mp hg with rfl | hg
  · trivial
  · exact (c.outputEdges_spec f hg t).1

theorem UploadCall.adds_take (c : UploadCall) (f : UploadFile) (k : ℕ) :
    UploadAdds [f] (((c.outputOps f).take k).flatMap Op.label)
      (((c.outputOps f).take k).flatMap Op.derivation) := by
  have hB : ∀ op ∈ (c.outputEdges f).mapIdx (fun i g => g (f.outputClock (i + 1))),
      op.label = [] ∧ ∀ d ∈ op.derivation, d = (f.outEid, f.sourceEid) := by
    intro op hop
    obtain ⟨i, hi, rfl⟩ := mem_mapIdx.mp hop
    exact (c.outputEdges_spec f (getElem_mem hi) _).2
  have hE : ∀ t, (Op.recordEntity (c.outputEntity f) t).derivation = [] := fun _ => rfl
  have hlabel : ∀ t, (Op.recordEntity (c.outputEntity f) t).label = [(f.outEid, {})] :=
    fun _ => rfl
  have hops : c.outputOps f = [] ++ Op.recordEntity (c.outputEntity f) (f.outputClock 0) ::
      (c.outputEdges f).mapIdx (fun i g => g (f.outputClock (i + 1))) := mapIdx_cons
  rw [hops]
  rcases take_grounded (A := []) (fun _ h => nomatch h) (hE _) (fun op hop => (hB op hop).1) k with
    ⟨hl, hd⟩ | ⟨hl, hd⟩
  · rw [hl, hd]
    exact .nil [f]
  · rw [hl, hlabel]
    refine ⟨fun l hl => ⟨f, mem_cons_self, mem_singleton.mp hl⟩, fun d hdmem => ?_⟩
    obtain ⟨op, hop, hdop⟩ := hd d hdmem
    have hd' := (hB op hop).2 d hdop
    exact ⟨⟨f, mem_cons_self, hd'⟩, by rw [hd']; exact mem_cons_self⟩

/-- **Phase 2 for one file.** -/
theorem Store.uploadFile_grows (s : Store) (c : UploadCall) (batchHead : String) (f : UploadFile) :
    ∃ L D, Grows s (s.uploadFile u c batchHead f).1 L D ∧ UploadAdds [f] L D := by
  obtain ⟨k, hk⟩ := performAll_grows (u := u) (c.isRecord_outputOps f) s
  refine ⟨_, _, ?_, c.adds_take f k⟩
  rw [uploadFile]
  split
  · next heq => rw [heq] at hk; exact hk
  · next s' r heq =>
    rw [heq] at hk
    split
    · exact hk
    · next child _ =>
      have hreceipt := s'.performReceipt_grows (u := u)
        ⟨f.outEid, "upload-receipt", f.locator, some f.digest, child⟩ f.receiptNow
      have := hk.trans hreceipt
      rw [append_nil, append_nil] at this
      exact this

/-- **Phase 2.** -/
theorem Store.uploadFiles_grows (c : UploadCall) (batchHead : String) (files : List UploadFile)
    (s : Store) :
    ∃ L D, Grows s (s.uploadFiles u c batchHead files).1 L D ∧ UploadAdds files L D := by
  induction files generalizing s with
  | nil => exact ⟨[], [], .refl s, .nil []⟩
  | cons f rest ih =>
    obtain ⟨L, D, hg, hadds⟩ := s.uploadFile_grows (u := u) c batchHead f
    rw [uploadFiles]
    split
    · next heq =>
      rw [heq] at hg
      exact ⟨L ++ [], D ++ [], by simpa using hg, hadds.append (.nil rest)⟩
    · next s' child heq =>
      rw [heq] at hg
      obtain ⟨L', D', hg', hadds'⟩ := ih s'
      exact ⟨L ++ L', D ++ D', hg.trans hg', hadds.append hadds'⟩

/-- What the transaction of an upload can add: nothing, or artifacts of a batch whose flows
are all allowed. -/
def UploadCall.Adds (u : UnicodeDb) (c : UploadCall) (plan : List (UploadFile × FlowEndpoint))
    (L : List (String × FlowEndpoint)) (D : List (String × String)) : Prop :=
  L = [] ∧ D = [] ∨
    (∀ p ∈ plan, (c.chokepoint p).allowed u = true) ∧ UploadAdds (plan.map Prod.fst) L D

theorem Store.uploadBatch_grows (c : UploadCall) (plan : List (UploadFile × FlowEndpoint))
    (s : Store) : ∃ L D, Grows s (s.uploadBatch u c plan).1 L D ∧ c.Adds u plan L D := by
  obtain ⟨hphase1, hallowed⟩ := uploadChokepoints_grows (u := u) c plan s
  rw [uploadBatch]
  split
  · next heq =>
    rw [heq] at hphase1
    exact ⟨[], [], hphase1, .inl ⟨rfl, rfl⟩⟩
  · next s' denied reasons heq =>
    rw [heq] at hphase1 hallowed
    split
    · next hempty =>
      obtain ⟨L, D, hg, hadds⟩ := uploadFiles_grows (u := u) c
        (String.ofList s.db.chainHead) (plan.map Prod.fst) s'
      have hall := hallowed denied reasons rfl (isEmpty_iff.mp hempty)
      exact ⟨L, D, hphase1.trans hg, .inr ⟨hall, hadds⟩⟩
    · exact ⟨[], [], hphase1, .inl ⟨rfl, rfl⟩⟩

theorem Store.recordUpload_grows_of_plan {c : UploadCall}
    {plan : List (UploadFile × FlowEndpoint)} (h : c.plan u s.db = .ok plan) :
    ∃ L D, Grows s (s.recordUpload u c).1 L D ∧ c.Adds u plan L D := by
  rw [recordUpload, h]
  obtain ⟨L, D, hbody, hadds⟩ := s.enter.uploadBatch_grows (u := u) c plan
  rcases transaction_grows (uploadBatch u c plan) hbody with hg | hg
  · exact ⟨L, D, hg, hadds⟩
  · exact ⟨[], [], hg, .inl ⟨rfl, rfl⟩⟩

theorem Store.recordUpload_of_plan_error {c : UploadCall} {e : Exc} (h : c.plan u s.db = .error e) :
    (s.recordUpload u c).1 = s := by
  rw [recordUpload, h]

/-! ## What one operation carries -/

/-- The entity rows recorded between two states of the store. -/
def newLabels (s s' : Store) : List (String × FlowEndpoint) :=
  s'.db.labels.drop s.db.labels.length

/-- The derivations recorded between two states of the store. -/
def newDerivations (s s' : Store) : List (String × String) :=
  s'.db.derivations.drop s.db.derivations.length

theorem Grows.newLabels_eq {s' : Store} (h : Grows s s' L D) : newLabels s s' = L := by
  rw [newLabels, h.labels, drop_left]

theorem Grows.newDerivations_eq {s' : Store} (h : Grows s s' L D) : newDerivations s s' = D := by
  rw [newDerivations, h.derivations, drop_left]

/-- Every entity recorded with a `wasDerivedFrom` edge to `x` carries what `x` had before the
operation. -/
def Carries (s s' : Store) : Prop :=
  ∀ d ∈ newDerivations s s', (∃ l ∈ newLabels s s', l.1 = d.1) ∧
    ∀ l ∈ newLabels s s', l.1 = d.1 → ∀ e ∈ s.db.snapshot d.2, l.2.Includes e

instance (s s' : Store) : Decidable (Carries s s') :=
  inferInstanceAs (Decidable (∀ d ∈ newDerivations s s', _ ∧ _))

/-- `record_chokepoint` is given the current snapshot of each input and no trusted mapping. -/
def Event.InDomain (s : Store) : Event → Prop
  | .chokepoint c =>
    c.trustedMapping = none ∧ ∀ i ∈ c.inputs, s.db.snapshot i.eid = some i.endpoint
  | .commit _ | .upload _ => True

/-- An upload that passes its checks and is allowed has only sources without security
fields. -/
def Event.Clean (u : UnicodeDb) (s : Store) : Event → Prop
  | .upload c => ∀ plan ∈ (c.plan u s.db).toOption,
      (∀ p ∈ plan, (c.chokepoint p).allowed u = true) → ∀ p ∈ plan, p.2 = {}
  | .chokepoint _ | .commit _ => True

/-- The output of a minting chokepoint has the security fields that its identifier already
has. -/
def ChokepointCall.Widens (u : UnicodeDb) (s : Store) (c : ChokepointCall) : Prop :=
  c.mints u = true → ∀ e ∈ s.db.snapshot c.outEid, (unionEndpoint c.inputs).Includes e

/-- No operation records an output under an identifier whose snapshot it narrows. -/
def Event.Keeps (u : UnicodeDb) (s : Store) : Event → Prop
  | .chokepoint c => c.Widens u s
  | .commit c => ∀ inputs ∈ (c.check u s.db).toOption, (c.chokepoint inputs).Widens u s
  | .upload c => ∀ plan ∈ (c.plan u s.db).toOption,
      (∀ p ∈ plan, (c.chokepoint p).allowed u = true) →
        ∀ p ∈ plan, ∀ e ∈ s.db.snapshot p.1.outEid, e = {}

instance (s : Store) (ev : Event) : Decidable (ev.InDomain s) :=
  match ev with
  | .chokepoint _ => inferInstanceAs (Decidable (_ ∧ _))
  | .commit _ | .upload _ => isTrue trivial

instance (u : UnicodeDb) (s : Store) (ev : Event) : Decidable (ev.Clean u s) :=
  match ev with
  | .upload c => inferInstanceAs (Decidable (∀ plan ∈ (c.plan u s.db).toOption, _))
  | .chokepoint _ | .commit _ => isTrue trivial

instance (u : UnicodeDb) (s : Store) (c : ChokepointCall) : Decidable (c.Widens u s) :=
  inferInstanceAs (Decidable (_ → _))

instance (u : UnicodeDb) (s : Store) (ev : Event) : Decidable (ev.Keeps u s) :=
  match ev with
  | .chokepoint c => inferInstanceAs (Decidable (c.Widens u s))
  | .commit c => inferInstanceAs (Decidable (∀ inputs ∈ (c.check u s.db).toOption, _))
  | .upload c => inferInstanceAs (Decidable (∀ plan ∈ (c.plan u s.db).toOption, _))

/-- What is recorded carries what it is derived from, and what its identifier had if the
operation keeps that. -/
structure CarriesNew (s : Store) (keeps : Prop) (L : List (String × FlowEndpoint))
    (D : List (String × String)) : Prop where
  labelled : ∀ d ∈ D, ∃ l ∈ L, l.1 = d.1
  carries : ∀ d ∈ D, ∀ l ∈ L, ∀ e ∈ s.db.snapshot d.2, l.2.Includes e
  keeps : keeps → ∀ l ∈ L, ∀ e ∈ s.db.snapshot l.1, l.2.Includes e

theorem CarriesNew.nil (s : Store) (keeps : Prop) : CarriesNew s keeps [] [] :=
  ⟨fun _ h => (nomatch h), fun _ h => (nomatch h), fun _ _ h => (nomatch h)⟩

theorem ChokepointCall.Adds.carriesNew {c : ChokepointCall} (h : c.Adds u L D)
    (hmap : c.trustedMapping = none) (hin : ∀ i ∈ c.inputs, s.db.snapshot i.eid = some i.endpoint) :
    CarriesNew s (c.Widens u s) L D := by
  rcases h with ⟨rfl, rfl⟩ | ⟨hm, rfl, hd⟩
  · exact .nil s _
  · have hunion := recorded_includes_union (u := u) hmap
    refine ⟨fun d hdmem => ⟨_, mem_cons_self, (hd d hdmem).1.symm⟩, ?_, ?_⟩
    · intro d hdmem l hl e he
      obtain ⟨-, i, hi, hdi⟩ := hd d hdmem
      have hei : i.endpoint = e := by
        rw [hdi, hin i hi] at he
        exact Option.some.inj he
      rw [mem_singleton.mp hl, ← hei]
      exact hunion.trans (unionEndpoint_includes hi)
    · intro hwidens l hl e he
      rw [mem_singleton.mp hl] at he ⊢
      exact hunion.trans (hwidens hm e he)

theorem UploadCall.Adds.carriesNew {c : UploadCall} {plan : List (UploadFile × FlowEndpoint)}
    (h : c.Adds u plan L D) (hplan : c.plan u s.db = .ok plan)
    (hclean : (Event.upload c).Clean u s) : CarriesNew s ((Event.upload c).Keeps u s) L D := by
  have hmem : plan ∈ (c.plan u s.db).toOption := by
    rw [hplan]
    rfl
  rcases h with ⟨rfl, rfl⟩ | ⟨hall, hadds⟩
  · exact .nil s _
  · refine ⟨fun d hd => ⟨_, (hadds.derivations d hd).2, rfl⟩, ?_, ?_⟩
    · intro d hd l hl e he
      obtain ⟨⟨f, hf, rfl⟩, -⟩ := hadds.derivations d hd
      obtain ⟨p, hp, rfl⟩ := mem_map.mp hf
      have hep : p.2 = e := by
        rw [c.snapshot_of_plan hplan p hp] at he
        exact Option.some.inj he
      rw [← hep, hclean plan hmem hall p hp]
      exact ⟨fun _ h => (nomatch h), fun _ h => (nomatch h), fun _ h => (nomatch h)⟩
    · intro hkeeps l hl e he
      obtain ⟨f, hf, rfl⟩ := hadds.labels l hl
      obtain ⟨p, hp, rfl⟩ := mem_map.mp hf
      rw [hkeeps plan hmem hall p hp e he]
      exact .refl _

/-- **One operation.** -/
theorem recordStep_grows {ev : Event} (hdom : ev.InDomain s) (hclean : ev.Clean u s) :
    ∃ L D, Grows s (recordStep u s ev) L D ∧ CarriesNew s (ev.Keeps u s) L D := by
  cases ev with
  | chokepoint c =>
    obtain ⟨L, D, hg, hadds⟩ := s.recordChokepoint_grows (u := u) c
    exact ⟨L, D, hg, hadds.carriesNew hdom.1 hdom.2⟩
  | commit c =>
    rw [recordStep]
    cases hc : c.check u s.db with
    | error e =>
      rw [recordCommit_of_check_error hc]
      exact ⟨[], [], .refl s, .nil s _⟩
    | ok inputs =>
      obtain ⟨L, D, hg, hadds⟩ := recordCommit_grows_of_check hc
      have hnew := hadds.carriesNew rfl (CommitCall.snapshot_of_check hc)
      refine ⟨L, D, hg, hnew.labelled, hnew.carries, fun hkeeps => hnew.keeps (hkeeps inputs ?_)⟩
      rw [hc]
      rfl
  | upload c =>
    rw [recordStep]
    cases hp : c.plan u s.db with
    | error e =>
      rw [recordUpload_of_plan_error hp]
      exact ⟨[], [], .refl s, .nil s _⟩
    | ok plan =>
      obtain ⟨L, D, hg, hadds⟩ := recordUpload_grows_of_plan hp
      exact ⟨L, D, hg, hadds.carriesNew hp hclean⟩

theorem carries_recordStep {ev : Event} (hdom : ev.InDomain s) (hclean : ev.Clean u s) :
    Carries s (recordStep u s ev) := by
  obtain ⟨L, D, hg, hnew⟩ := recordStep_grows hdom hclean
  intro d hd
  rw [hg.newDerivations_eq] at hd
  rw [hg.newLabels_eq]
  exact ⟨hnew.labelled d hd, fun l hl _ => hnew.carries d hd l hl⟩

variable {x : String}

theorem Grows.snapshot {s' : Store} (h : Grows s s' L D)
    (hkeeps : ∀ l ∈ L, ∀ e ∈ s.db.snapshot l.1, l.2.Includes e) (he : s.db.snapshot x = some e) :
    ∃ e', s'.db.snapshot x = some e' ∧ e'.Includes e := by
  rw [Db.snapshot_eq, h.labels, newest_append]
  cases hn : newest L x with
  | none => exact ⟨e, by rw [Option.none_or, ← Db.snapshot_eq, he], .refl e⟩
  | some e' => exact ⟨e', rfl, hkeeps _ (newest_mem hn) e he⟩

theorem snapshot_recordStep {ev : Event} (hdom : ev.InDomain s) (hclean : ev.Clean u s)
    (hkeeps : ev.Keeps u s) (he : s.db.snapshot x = some e) :
    ∃ e', (recordStep u s ev).db.snapshot x = some e' ∧ e'.Includes e := by
  obtain ⟨L, D, hg, hnew⟩ := recordStep_grows hdom hclean
  exact hg.snapshot (hnew.keeps hkeeps) he

theorem snapshot_of_derivation {ev : Event} (hdom : ev.InDomain s) (hclean : ev.Clean u s)
    {z : String} (hd : (z, x) ∈ newDerivations s (recordStep u s ev))
    (he : s.db.snapshot x = some e) :
    ∃ e', (recordStep u s ev).db.snapshot z = some e' ∧ e'.Includes e := by
  obtain ⟨L, D, hg, hnew⟩ := recordStep_grows hdom hclean
  rw [hg.newDerivations_eq] at hd
  obtain ⟨l, hl, hlz⟩ := hnew.labelled _ hd
  have hne : newest L z ≠ none := by
    intro hnone
    rw [newest, Option.map_eq_none_iff, getLast?_eq_none_iff, filter_eq_nil_iff] at hnone
    exact hnone l hl (by simpa using hlz)
  obtain ⟨e', he'⟩ := Option.ne_none_iff_exists'.mp hne
  refine ⟨e', ?_, hnew.carries _ hd _ (newest_mem he') e he⟩
  rw [Db.snapshot_eq, hg.labels, newest_append, he', Option.some_or]

/-! ## What a chain of operations carries -/

/-- A chain of operations along a run: the first derives from `x`, whose snapshot is then `e`,
each later one from the output of the one before, and the last records `y` with `f`. -/
inductive DerivationChain (u : UnicodeDb) :
    Store → List Event → String → FlowEndpoint → String → FlowEndpoint → Prop
  | skip {s : Store} {ev : Event} {evs : List Event} {x y : String} {e f : FlowEndpoint} :
      DerivationChain u (recordStep u s ev) evs x e y f → DerivationChain u s (ev :: evs) x e y f
  | last {s : Store} {ev : Event} {evs : List Event} {x y : String} {e f : FlowEndpoint} :
      s.db.snapshot x = some e → (y, x) ∈ newDerivations s (recordStep u s ev) →
      (y, f) ∈ newLabels s (recordStep u s ev) → DerivationChain u s (ev :: evs) x e y f
  | link {s : Store} {ev : Event} {evs : List Event} {x z y : String} {e e' f : FlowEndpoint} :
      s.db.snapshot x = some e → (z, x) ∈ newDerivations s (recordStep u s ev) →
      DerivationChain u (recordStep u s ev) evs z e' y f → DerivationChain u s (ev :: evs) x e y f

theorem DerivationChain.includes_start {evs : List Event} {y : String} {f : FlowEndpoint}
    (h : DerivationChain u s evs x e y f)
    (hm : Meets (recordStep u) (fun s ev => ev.InDomain s ∧ ev.Clean u s) s evs)
    (hk : Meets (recordStep u) (fun s ev => ev.Keeps u s) s evs) {e₀ : FlowEndpoint}
    (he₀ : s.db.snapshot x = some e₀) : f.Includes e₀ := by
  induction h generalizing e₀ with
  | skip _ ih =>
    obtain ⟨e₁, he₁, hinc⟩ := snapshot_recordStep hm.1.1 hm.1.2 hk.1 he₀
    exact (ih hm.2 hk.2 he₁).trans hinc
  | last _ hd hl => exact (carries_recordStep hm.1.1 hm.1.2 _ hd).2 _ hl rfl _ he₀
  | link _ hd _ ih =>
    obtain ⟨e₁, he₁, hinc⟩ := snapshot_of_derivation hm.1.1 hm.1.2 hd he₀
    exact (ih hm.2 hk.2 he₁).trans hinc

theorem DerivationChain.includes {evs : List Event} {y : String} {f : FlowEndpoint}
    (h : DerivationChain u s evs x e y f)
    (hm : Meets (recordStep u) (fun s ev => ev.InDomain s ∧ ev.Clean u s) s evs)
    (hk : Meets (recordStep u) (fun s ev => ev.Keeps u s) s evs) : f.Includes e := by
  induction h with
  | skip _ ih => exact ih hm.2 hk.2
  | last he hd hl => exact (DerivationChain.last he hd hl).includes_start hm hk he
  | link he hd hchain _ => exact (DerivationChain.link he hd hchain).includes_start hm hk he

/-- **No guard is laundered by derivation**, in a run whose uploads are of unguarded sources:
every operation's outputs carry what their sources had, and so do chains of operations that
narrow no output. -/
theorem no_guard_laundering (s₀ : Store) (evs : List Event)
    (hm : Meets (recordStep u) (fun s ev => ev.InDomain s ∧ ev.Clean u s) s₀ evs) :
    (∀ before ev after, evs = before ++ ev :: after →
      Carries (run (recordStep u) s₀ before) (recordStep u (run (recordStep u) s₀ before) ev)) ∧
    (Meets (recordStep u) (fun s ev => ev.Keeps u s) s₀ evs →
      ∀ x e y f, DerivationChain u s₀ evs x e y f → f.Includes e) := by
  refine ⟨?_, fun hk x e y f h => h.includes hm hk⟩
  rintro before ev after rfl
  rw [Meets.append] at hm
  exact carries_recordStep hm.2.1.1 hm.2.1.2

/-- A source under a guard, and a file without any. -/
def guardedStore : Store :=
  runOps .ascii
    [.recordEntity { eid := "source:1", kind := "artifact", guards := ["no-cross-contaminate"],
                     compartments := ["ledger"], conflictClasses := ["finance"], createdAt := 1 } 1,
      .recordEntity { eid := "file:1", kind := "artifact", createdAt := 1 } 1]

/-- An upload of one file. -/
def uploadOf (sourceEid outEid aid : String) : UploadCall where
  files := [{ sourceEid := sourceEid
              digest := String.ofList (List.replicate 64 'a')
              outEid := outEid
              aid := aid
              verdictNow := 2
              receiptNow := 2
              clock := fun _ => 2
              outputClock := fun _ => 2 }]
  destination := "https://example"
  now := 2

/-- The security fields of the guarded source. -/
def guarded : FlowEndpoint := ⟨["no-cross-contaminate"], ["ledger"], ["finance"]⟩

/-- A chokepoint that derives one entity from another. -/
def deriveFrom (chokepoint sourceEid : String) (endpoint : FlowEndpoint)
    (outputEid aid : String) : ChokepointCall where
  chokepoint := chokepoint
  inputs := [⟨sourceEid, endpoint⟩]
  outputEid := some outputEid
  now := 2
  aid := aid
  genEid := "entity:1"
  verdictNow := 2
  clock := fun _ => 2

/-- An archive of the guarded source, a copy of the archive, and an upload of the file. -/
def derivingRun : List Event :=
  [.chokepoint (deriveFrom "archive-create" "source:1" guarded "archive:1" "activity:1"),
    .chokepoint (deriveFrom "clipboard" "archive:1" guarded "copy:1" "activity:2"),
    .upload (uploadOf "file:1" "upload:1" "activity:3")]

theorem no_guard_laundering_derivingRun :
    DerivationChain .ascii guardedStore derivingRun "source:1" guarded "copy:1" guarded ∧
      ∀ x e y f, DerivationChain .ascii guardedStore derivingRun x e y f → f.Includes e := by
  have hm : Meets (recordStep .ascii) (fun s ev => ev.InDomain s ∧ ev.Clean .ascii s)
      guardedStore derivingRun := by decide +kernel
  have hk : Meets (recordStep .ascii) (fun s ev => ev.Keeps .ascii s)
      guardedStore derivingRun := by decide +kernel
  have harchive : DerivationChain .ascii
      (recordStep .ascii guardedStore
        (.chokepoint (deriveFrom "archive-create" "source:1" guarded "archive:1" "activity:1")))
      derivingRun.tail "archive:1" guarded "copy:1" guarded :=
    .last (by decide +kernel) (by decide +kernel) (by decide +kernel)
  exact ⟨.link (by decide +kernel) (by decide +kernel) harchive,
    (no_guard_laundering guardedStore derivingRun hm).2 hk⟩

/-- The upload of a guarded source is allowed, its chokepoint sharing no conflict class with
the source, and its output has no guard. -/
theorem upload_launders :
    (Event.upload (uploadOf "source:1" "upload:1" "activity:1")).InDomain guardedStore ∧
      ¬ Carries guardedStore (recordStep .ascii guardedStore
        (.upload (uploadOf "source:1" "upload:1" "activity:1"))) := by
  decide +kernel

end Lineage
