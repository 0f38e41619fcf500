/-
# The invariant behind every run

`Inv` collects what holds of the broker's tables in every reachable state: request
objects keep their filing, a decision in progress belongs to one method, and a polkit
cookie is bound to one connection.  Every move preserves it.
-/
import QDistro.BrokerMoves
import Mathlib.Data.List.Perm.Basic

namespace Broker

open Status List

variable (cfg : Config)

/-- What holds in every reachable state. -/
structure Inv (s : State) : Prop where
  fresh : ∀ i, s.nextId ≤ i → s.reqs i = none
  subject : ∀ i r, s.reqs i = some r → SubjectOk cfg r.toFiling
  filed : ∀ i r, s.reqs i = some r → ∃ raw, .filed i r.toFiling raw ∈ s.trace
  filing : ∀ i f raw, .filed i f raw ∈ s.trace →
    CleanDetails cfg f raw ∧ ∃ r, s.reqs i = some r ∧ r.toFiling = f
  undecided : ∀ i r, s.reqs i = some r → r.decision = none → r.finalizing = false
  announced : ∀ c sender t, s.announced.get? c = some (sender, t) →
    c ≠ "" ∧ .announced sender c ∈ s.trace
  bound : ∀ c sender t, s.announced.get? c = some (sender, t) →
    ∀ rid ∈ s.pending, ∀ r, s.reqs rid = some r → r.polkitCookie = c → r.filedBy = sender.name
  filers : ∀ rid ∈ s.pending, ∀ r, s.reqs rid = some r → r.polkitCookie ≠ "" →
    ∀ rid' ∈ s.pending, ∀ r', s.reqs rid' = some r' → r'.polkitCookie = r.polkitCookie →
      r'.filedBy = r.filedBy
  tasks : ∀ t ∈ s.tasks, TaskOk cfg s t
  owners : (s.tasks.filterMap Task.owner).Nodup

variable {cfg}

theorem inv_init (rules : List Rule) (cache : List CacheRow) :
    Inv cfg (State.init rules cache) where
  fresh _ _ := rfl
  subject _ _ h := by simp [State.init] at h
  filed _ _ h := by simp [State.init] at h
  filing _ _ _ h := by simp [State.init] at h
  undecided _ _ h := by simp [State.init] at h
  announced _ _ _ h := by simp [State.init] at h
  bound _ _ _ h := by simp [State.init] at h
  filers _ h := by simp [State.init] at h
  tasks _ h := by simp [State.init] at h
  owners := by simp [State.init]

/-! ## What survives a change of state -/

/-- The second state records at least as much, and every request keeps its filing. -/
structure Extends (s s' : State) : Prop where
  trace : ∀ e ∈ s.trace, e ∈ s'.trace
  reqs : ∀ i r, s.reqs i = some r → ∃ r', s'.reqs i = some r' ∧ r'.toFiling = r.toFiling

/-- The request keeps its filing, its decision and its finalizing flag. -/
def Keeps (s s' : State) (rid : ℕ) : Prop :=
  ∀ r, s.reqs rid = some r → ∃ r', s'.reqs rid = some r' ∧ r'.toFiling = r.toFiling
    ∧ r'.decision = r.decision ∧ r'.finalizing = r.finalizing

theorem AuditedAllow.mono {t t' : List Event} (h : ∀ e ∈ t, e ∈ t') {uid pid : ℤ}
    {action : String} (ha : AuditedAllow t uid pid action) : AuditedAllow t' uid pid action := by
  obtain ⟨row, hrow, hrest⟩ := ha
  exact ⟨row, h _ hrow, hrest⟩

theorem Introduced.mono {t t' : List Event} (h : ∀ e ∈ t, e ∈ t') {name cookie : String}
    (hi : Introduced t name cookie) : Introduced t' name cookie := by
  rcases hi with ⟨sender, hname, hmem⟩ | ⟨rid, f, raw, hmem, hf⟩
  · exact .inl ⟨sender, hname, h _ hmem⟩
  · exact .inr ⟨rid, f, raw, h _ hmem, hf⟩

variable {s s' : State} {f : Filing}

theorem AllowAudited.mono (h : ∀ e ∈ s.trace, e ∈ s'.trace) {b : Bool}
    (ha : AllowAudited cfg s f b) : AllowAudited cfg s' f b :=
  fun hb hreq => (ha hb hreq).mono h

theorem Extends.of_trace (hreqs : s'.reqs = s.reqs) (htrace : ∀ e ∈ s.trace, e ∈ s'.trace) :
    Extends s s' :=
  ⟨htrace, fun i r h => ⟨r, by rw [hreqs, h], rfl⟩⟩

theorem Extends.setStatus (rid : ℕ) (f : Status → Status)
    (hreqs : s'.reqs = (s.setStatus rid f).reqs) (htrace : ∀ e ∈ s.trace, e ∈ s'.trace) :
    Extends s s' := by
  refine ⟨htrace, fun i r h => ?_⟩
  rw [hreqs]
  by_cases hi : i = rid
  · subst hi
    exact ⟨_, setStatus_reqs_self h, rfl⟩
  · exact ⟨r, by rw [setStatus_reqs_of_ne hi, h], rfl⟩

theorem Keeps.of_reqs (hreqs : s'.reqs = s.reqs) (rid : ℕ) : Keeps s s' rid :=
  fun r h => ⟨r, by rw [hreqs, h], rfl, rfl, rfl⟩

variable {rid i : ℕ}

theorem Keeps.setStatus_of_ne {f : Status → Status} (hreqs : s'.reqs = (s.setStatus rid f).reqs)
    (hi : i ≠ rid) : Keeps s s' i :=
  fun r h => ⟨r, by rw [hreqs, setStatus_reqs_of_ne hi, h], rfl, rfl, rfl⟩

theorem Keeps.setStatus {f : Status → Status} (hreqs : s'.reqs = (s.setStatus rid f).reqs)
    (hf : ∀ st, (f st).decision = st.decision ∧ (f st).finalizing = st.finalizing) (i : ℕ) :
    Keeps s s' i := by
  by_cases hi : i = rid
  · subst hi
    intro r h
    have hself := setStatus_reqs_self (f := f) h
    rw [← hreqs] at hself
    exact ⟨_, hself, rfl, (hf r.toStatus).1, (hf r.toStatus).2⟩
  · exact .setStatus_of_ne hreqs hi

variable {t : Task}

theorem TaskOk.mono (ht : TaskOk cfg s t) (he : Extends s s')
    (hk : ∀ rid, t.owner = some rid → Keeps s s' rid) : TaskOk cfg s' t := by
  cases t with
  | enqueueCreate fr => exact ht
  | enqueueRecord rid b =>
    obtain ⟨r, hr, hd, hf⟩ := ht
    obtain ⟨r', hr', -, hd', hf'⟩ := hk rid rfl r hr
    exact ⟨r', hr', hd' ▸ hd, hf' ▸ hf⟩
  | decideAudit f =>
    obtain ⟨r, hr, hd, hf, hc⟩ := ht
    obtain ⟨r', hr', hfil, hd', hf'⟩ := hk f.rid rfl r hr
    exact ⟨r', hr', hd' ▸ hd, hf' ▸ hf, by rw [hc, hfil]⟩
  | decideDowngrade f e =>
    obtain ⟨r, hr, hd, hf, hc⟩ := ht
    obtain ⟨r', hr', hfil, hd', hf'⟩ := hk f.rid rfl r hr
    exact ⟨r', hr', hd' ▸ hd, hf' ▸ hf, by rw [hc, hfil]⟩
  | decidePublish f =>
    obtain ⟨r, hr, hd, hf, hc, ha⟩ := ht
    obtain ⟨r', hr', hfil, hd', hf'⟩ := hk f.rid rfl r hr
    exact ⟨r', hr', hd' ▸ hd, hf' ▸ hf, by rw [hc, hfil], hfil ▸ ha.mono he.trace⟩
  | decideFinalise f c =>
    obtain ⟨r, hr, hd, hf, hc, ha⟩ := ht
    obtain ⟨r', hr', hfil, hd', hf'⟩ := hk f.rid rfl r hr
    exact ⟨r', hr', hd' ▸ hd, hf' ▸ hf, by rw [hc, hfil], hfil ▸ ha.mono he.trace⟩
  | hookRelease rid ws =>
    obtain ⟨r, hr, hd, hf, ha⟩ := ht
    obtain ⟨r', hr', hfil, hd', hf'⟩ := hk rid rfl r hr
    exact ⟨r', hr', hd' ▸ hd, hf' ▸ hf, hfil ▸ ha.mono he.trace⟩
  | respondRelay sender exe cookie ids req =>
    refine ⟨ht.1.mono he.trace, fun rid hrid => ?_⟩
    obtain ⟨r, hr, hby⟩ := ht.2 rid hrid
    obtain ⟨r', hr', hfil⟩ := he.reqs rid r hr
    exact ⟨r', hr', by rw [hfil, hby]⟩
  | respondResolve rid =>
    obtain ⟨r, hr, ha⟩ := ht
    obtain ⟨r', hr', hfil⟩ := he.reqs rid r hr
    exact ⟨r', hr', hfil ▸ ha.mono he.trace⟩
  | cancelHits sender exe cookie => trivial

/-! ## Ownership of decisions in progress -/

theorem tasks_perm (hi : s.tasks[i]? = some t) :
    List.Perm (t :: s.tasks.eraseIdx i) s.tasks := by
  obtain ⟨h, rfl⟩ := List.getElem?_eq_some_iff.mp hi
  exact List.getElem_cons_eraseIdx_perm h

theorem owners_eraseIdx (h : (s.tasks.filterMap Task.owner).Nodup) (i : ℕ) :
    ((s.tasks.eraseIdx i).filterMap Task.owner).Nodup :=
  h.sublist ((eraseIdx_sublist _ _).filterMap _)

theorem owner_ne_of_mem_eraseIdx (h : (s.tasks.filterMap Task.owner).Nodup)
    (hi : s.tasks[i]? = some t) (ho : t.owner = some rid) :
    ∀ t' ∈ s.tasks.eraseIdx i, t'.owner ≠ some rid := by
  intro t' ht' ho'
  have hperm := (tasks_perm hi).filterMap Task.owner
  rw [filterMap_cons_some ho] at hperm
  have hnd := nodup_cons.mp (hperm.nodup_iff.mpr h)
  exact hnd.1 (mem_filterMap.mpr ⟨t', ht', ho'⟩)

section

variable (h : Inv cfg s)
include h

theorem Inv.owner_decided (ht : t ∈ s.tasks) (ho : t.owner = some rid) :
    ∃ r, s.reqs rid = some r ∧ r.decision ≠ none := by
  have hok := h.tasks t ht
  cases t <;> simp only [Task.owner, Option.some.injEq, reduceCtorEq] at ho <;> subst ho <;>
    obtain ⟨r, hr, hd, -⟩ := hok
  · exact ⟨r, hr, hd⟩
  all_goals exact ⟨r, hr, by rw [hd]; simp⟩

theorem Inv.owner_ne_of_undecided {r : Request} (hr : s.reqs rid = some r)
    (hd : r.decision = none) :
    ∀ t ∈ s.tasks, t.owner ≠ some rid := by
  intro t ht ho
  obtain ⟨r', hr', hd'⟩ := h.owner_decided ht ho
  rw [hr] at hr'
  injection hr' with hr'
  exact hd' (hr' ▸ hd)

/-! ## Preservation -/

section

variable (hnext : s'.nextId = s.nextId)
include hnext

/-- The part of the invariant that a step must re-establish when it creates no request
and binds no cookie. -/
theorem Inv.of_extends (he : Extends s s')
    (hback : ∀ i r', s'.reqs i = some r' → ∃ r, s.reqs i = some r ∧ r'.toFiling = r.toFiling)
    (hund : ∀ i r', s'.reqs i = some r' → r'.decision = none → r'.finalizing = false)
    (hpend : ∀ rid ∈ s'.pending, rid ∈ s.pending)
    (hann : ∀ c b, s'.announced.get? c = some b → s.announced.get? c = some b)
    (hfiled : ∀ i f raw, .filed i f raw ∈ s'.trace → .filed i f raw ∈ s.trace)
    (htasks : ∀ t ∈ s'.tasks, TaskOk cfg s' t) (howners : (s'.tasks.filterMap Task.owner).Nodup) :
    Inv cfg s' where
  fresh i hi := by
    cases hr : s'.reqs i with
    | none => rfl
    | some r' =>
      obtain ⟨r, hr0, -⟩ := hback i r' hr
      rw [h.fresh i (hnext ▸ hi)] at hr0
      exact absurd hr0 (by simp)
  subject i r' hr' := by
    obtain ⟨r, hr, hf⟩ := hback i r' hr'
    exact hf ▸ h.subject i r hr
  filed i r' hr' := by
    obtain ⟨r, hr, hf⟩ := hback i r' hr'
    obtain ⟨raw, hraw⟩ := h.filed i r hr
    exact ⟨raw, hf ▸ he.trace _ hraw⟩
  filing i f raw hmem := by
    obtain ⟨hc, r, hr, hf⟩ := h.filing i f raw (hfiled i f raw hmem)
    obtain ⟨r', hr', hf'⟩ := he.reqs i r hr
    exact ⟨hc, r', hr', hf'.trans hf⟩
  undecided := hund
  announced c sender t hb := by
    obtain ⟨hne, hmem⟩ := h.announced c sender t (hann c _ hb)
    exact ⟨hne, he.trace _ hmem⟩
  bound c sender t hb rid hrid r' hr' hc := by
    obtain ⟨r, hr, hf⟩ := hback rid r' hr'
    rw [hf] at hc ⊢
    exact h.bound c sender t (hann c _ hb) rid (hpend rid hrid) r hr hc
  filers rid hrid r' hr' hne rid2 hrid2 r2' hr2' hc := by
    obtain ⟨r, hr, hf⟩ := hback rid r' hr'
    obtain ⟨r2, hr2, hf2⟩ := hback rid2 r2' hr2'
    rw [hf] at hne
    rw [hf, hf2] at hc
    rw [hf, hf2]
    exact h.filers rid (hpend rid hrid) r hr hne rid2 (hpend rid2 hrid2) r2 hr2 hc
  tasks := htasks
  owners := howners

theorem Inv.of_reqs (hreqs : s'.reqs = s.reqs) (htrace : ∀ e ∈ s.trace, e ∈ s'.trace)
    (hpend : ∀ rid ∈ s'.pending, rid ∈ s.pending)
    (hann : ∀ c b, s'.announced.get? c = some b → s.announced.get? c = some b)
    (hfiled : ∀ i f raw, .filed i f raw ∈ s'.trace → .filed i f raw ∈ s.trace)
    (htasks : ∀ t ∈ s'.tasks, t ∈ s.tasks ∨ TaskOk cfg s' t)
    (howners : (s'.tasks.filterMap Task.owner).Nodup) : Inv cfg s' := by
  have he := Extends.of_trace hreqs htrace
  refine h.of_extends hnext he (fun i r hr => ⟨r, hreqs ▸ hr, rfl⟩)
    (fun i r hr => h.undecided i r (hreqs ▸ hr)) hpend hann hfiled (fun t ht => ?_) howners
  rcases htasks t ht with hold | hnew
  · exact (h.tasks t hold).mono he fun rid _ => .of_reqs hreqs rid
  · exact hnew

theorem Inv.of_setStatus {f : Status → Status} (hreqs : s'.reqs = (s.setStatus rid f).reqs)
    (htrace : ∀ e ∈ s.trace, e ∈ s'.trace) (hpend : s'.pending = s.pending)
    (hann : s'.announced = s.announced)
    (hfiled : ∀ i f raw, .filed i f raw ∈ s'.trace → .filed i f raw ∈ s.trace)
    (hund : ∀ r, s.reqs rid = some r → (f r.toStatus).decision = none → (f r.toStatus).finalizing = false)
    (htasks : ∀ t ∈ s'.tasks, (t ∈ s.tasks ∧ t.owner ≠ some rid) ∨ TaskOk cfg s' t)
    (howners : (s'.tasks.filterMap Task.owner).Nodup) : Inv cfg s' := by
  have he := Extends.setStatus rid f hreqs htrace
  refine h.of_extends hnext he (fun i r' hr' => ?_) (fun i r' hr' hd => ?_)
    (fun i hi => hpend ▸ hi) (fun c b hb => hann ▸ hb) hfiled (fun t ht => ?_) howners
  · rw [hreqs] at hr'
    obtain ⟨r, hr, hf, -⟩ := setStatus_reqs_inv hr'
    exact ⟨r, hr, hf⟩
  · rw [hreqs] at hr'
    obtain ⟨r, hr, -, hst⟩ := setStatus_reqs_inv hr'
    by_cases hi : i = rid
    · subst hi
      rw [if_pos rfl] at hst
      have hd' : (f r.toStatus).decision = none := by rw [← hst]; exact hd
      have := hund r hr hd'
      rwa [← hst] at this
    · rw [if_neg hi] at hst
      have hd' : r.toStatus.decision = none := by rw [← hst]; exact hd
      have := h.undecided i r hr hd'
      rw [show r'.finalizing = r'.toStatus.finalizing from rfl, hst]
      exact this
  · rcases htasks t ht with ⟨hold, hne⟩ | hnew
    · exact (h.tasks t hold).mono he fun rid' ho => .setStatus_of_ne hreqs fun heq =>
        hne (heq ▸ ho)
    · exact hnew

theorem Inv.of_keeping {f : Status → Status} (hreqs : s'.reqs = (s.setStatus rid f).reqs)
    (htrace : ∀ e ∈ s.trace, e ∈ s'.trace) (hpend : s'.pending = s.pending)
    (hann : s'.announced = s.announced)
    (hfiled : ∀ i f raw, .filed i f raw ∈ s'.trace → .filed i f raw ∈ s.trace)
    (hf : ∀ st, (f st).decision = st.decision ∧ (f st).finalizing = st.finalizing)
    (htasks : s'.tasks = s.tasks) : Inv cfg s' := by
  have he := Extends.setStatus rid f hreqs htrace
  refine h.of_extends hnext he (fun i r' hr' => ?_) (fun i r' hr' hd => ?_)
    (fun i hi => hpend ▸ hi) (fun c b hb => hann ▸ hb) hfiled (fun t ht => ?_)
    (htasks ▸ h.owners)
  · rw [hreqs] at hr'
    obtain ⟨r, hr, hfil, -⟩ := setStatus_reqs_inv hr'
    exact ⟨r, hr, hfil⟩
  · rw [hreqs] at hr'
    obtain ⟨r, hr, -, hst⟩ := setStatus_reqs_inv hr'
    have hdec : r'.decision = r.decision ∧ r'.finalizing = r.finalizing := by
      rw [show r'.decision = r'.toStatus.decision from rfl,
        show r'.finalizing = r'.toStatus.finalizing from rfl, hst]
      split
      · exact hf r.toStatus
      · exact ⟨rfl, rfl⟩
    rw [hdec.2]
    exact h.undecided i r hr (hdec.1 ▸ hd)
  · exact (h.tasks t (htasks ▸ ht)).mono he fun i _ => .setStatus hreqs hf i

end

end

/-! ## New requests -/

theorem create_reqs_self (s : State) (f : Filing) (raw : Details) (decision : Option Bool) :
    (s.create f raw decision).reqs s.nextId = some { f with decision := decision } :=
  if_pos rfl

theorem create_reqs_of_ne (s : State) (f : Filing) (raw : Details) (decision : Option Bool)
    (h : i ≠ s.nextId) : (s.create f raw decision).reqs i = s.reqs i :=
  if_neg h

theorem create_reqs_inv {raw : Details} {decision : Option Bool} {r : Request}
    (h : (s.create f raw decision).reqs i = some r) :
    (i = s.nextId ∧ r = { f with decision := decision }) ∨ (i ≠ s.nextId ∧ s.reqs i = some r) := by
  by_cases hi : i = s.nextId
  · subst hi
    rw [create_reqs_self] at h
    injection h with h
    exact .inl ⟨rfl, h.symm⟩
  · rw [create_reqs_of_ne _ _ _ _ hi] at h
    exact .inr ⟨hi, h⟩

theorem Inv.ne_nextId (h : Inv cfg s) {r : Request} (hr : s.reqs i = some r) :
    i ≠ s.nextId := by
  rintro rfl
  rw [h.fresh _ le_rfl] at hr
  exact absurd hr (by simp)

theorem Inv.extends_create (h : Inv cfg s) (f : Filing) (raw : Details) (decision : Option Bool) :
    Extends s (s.create f raw decision) :=
  ⟨fun _ he => mem_cons_of_mem _ he, fun i r hr =>
    ⟨r, by rw [create_reqs_of_ne _ _ _ _ (h.ne_nextId hr), hr], rfl⟩⟩

theorem Inv.create (h : Inv cfg s) {raw : Details} (decision : Option Bool) (hs : SubjectOk cfg f)
    (hc : CleanDetails cfg f raw)
    (hann : f.polkitCookie ≠ "" → ∀ sender t, s.announced.get? f.polkitCookie = some (sender, t) →
      sender.name = f.filedBy)
    (hfiled : f.polkitCookie ≠ "" → ∀ rid ∈ s.pending, ∀ r, s.reqs rid = some r →
      r.polkitCookie = f.polkitCookie → r.filedBy = f.filedBy) :
    Inv cfg (s.create f raw decision) where
  fresh i hi := by
    have hlt : s.nextId < i := hi
    rw [create_reqs_of_ne _ _ _ _ (by omega)]
    exact h.fresh i (by omega)
  subject i r hr := by
    rcases create_reqs_inv hr with ⟨-, rfl⟩ | ⟨-, hr⟩
    · exact hs
    · exact h.subject i r hr
  filed i r hr := by
    rcases create_reqs_inv hr with ⟨rfl, rfl⟩ | ⟨-, hr⟩
    · exact ⟨raw, mem_cons_self⟩
    · obtain ⟨raw', hraw⟩ := h.filed i r hr
      exact ⟨raw', mem_cons_of_mem _ hraw⟩
  filing i f' raw' hmem := by
    rcases mem_cons.mp hmem with heq | hold
    · injection heq with hi hf hraw
      subst hi hf hraw
      exact ⟨hc, _, create_reqs_self _ _ _ _, rfl⟩
    · obtain ⟨hclean, r, hr, hf⟩ := h.filing i f' raw' hold
      obtain ⟨r', hr', hf'⟩ := (h.extends_create f raw decision).reqs i r hr
      exact ⟨hclean, r', hr', hf'.trans hf⟩
  undecided i r hr hd := by
    rcases create_reqs_inv hr with ⟨-, rfl⟩ | ⟨-, hr⟩
    · rfl
    · exact h.undecided i r hr hd
  announced c sender t hb := by
    obtain ⟨hne, hmem⟩ := h.announced c sender t hb
    exact ⟨hne, mem_cons_of_mem _ hmem⟩
  bound c sender t hb rid hrid r hr hcookie := by
    rcases create_reqs_inv hr with ⟨-, rfl⟩ | ⟨hne, hr⟩
    · subst hcookie
      exact (hann (h.announced _ sender t hb).1 sender t hb).symm
    · rcases mem_append.mp hrid with hold | hnew
      · exact h.bound c sender t hb rid hold r hr hcookie
      · exact absurd (mem_singleton.mp hnew) hne
  filers rid hrid r hr hne rid' hrid' r' hr' hcookie := by
    rcases create_reqs_inv hr with ⟨-, rfl⟩ | ⟨hi, hr⟩
    · rcases create_reqs_inv hr' with ⟨-, rfl⟩ | ⟨hi', hr'⟩
      · rfl
      · rcases mem_append.mp hrid' with hold | hnew
        · exact hfiled hne rid' hold r' hr' hcookie
        · exact absurd (mem_singleton.mp hnew) hi'
    · rcases mem_append.mp hrid with hold | hnew
      · rcases create_reqs_inv hr' with ⟨-, rfl⟩ | ⟨hi', hr'⟩
        · have hcookie' : f.polkitCookie = r.polkitCookie := hcookie
          exact (hfiled (hcookie' ▸ hne) rid hold r hr hcookie'.symm).symm
        · rcases mem_append.mp hrid' with hold' | hnew'
          · exact h.filers rid hold r hr hne rid' hold' r' hr' hcookie
          · exact absurd (mem_singleton.mp hnew') hi'
      · exact absurd (mem_singleton.mp hnew) hi
  tasks t ht := by
    refine (h.tasks t ht).mono (h.extends_create f raw decision) fun rid _ r hr => ?_
    exact ⟨r, by rw [create_reqs_of_ne _ _ _ _ (h.ne_nextId hr), hr], rfl, rfl, rfl⟩
  owners := h.owners

theorem Inv.owner_ne_nextId (h : Inv cfg s) :
    ∀ t ∈ s.tasks, t.owner ≠ some s.nextId := by
  intro t ht ho
  obtain ⟨r, hr, -⟩ := h.owner_decided ht ho
  exact h.ne_nextId hr rfl

/-! ## Every move preserves the invariant -/

theorem owners_push {l : List Task} (h : (l.filterMap Task.owner).Nodup)
    (ho : ∀ rid, t.owner = some rid → ∀ t' ∈ l, t'.owner ≠ some rid) :
    ((l ++ [t]).filterMap Task.owner).Nodup := by
  rw [filterMap_append]
  cases hto : t.owner with
  | none => rwa [filterMap_cons_none hto, filterMap_nil, append_nil]
  | some rid =>
    rw [filterMap_cons_some hto, filterMap_nil]
    refine h.append (nodup_singleton _) ?_
    intro x hx hx'
    rw [mem_singleton] at hx'
    subst hx'
    obtain ⟨t', ht', ho'⟩ := mem_filterMap.mp hx
    exact ho x hto t' ht' ho'

theorem mem_answers {ws : List Waiter} {b live : Bool} {t : List Event} {e : Event}
    (h : e ∈ (ws.map fun w => Event.answered w b live).reverse ++ t) :
    (∃ w ∈ ws, e = .answered w b live) ∨ e ∈ t := by
  rcases mem_append.mp h with hnew | hold
  · rw [mem_reverse, mem_map] at hnew
    obtain ⟨w, hw, rfl⟩ := hnew
    exact .inl ⟨w, hw, rfl⟩
  · exact .inr hold

theorem filed_of_answers {ws : List Waiter} {b live : Bool} {t : List Event} {raw : Details}
    (h : Event.filed i f raw ∈ (ws.map fun w => Event.answered w b live).reverse ++ t) :
    Event.filed i f raw ∈ t := by
  rcases mem_answers h with ⟨w, -, heq⟩ | hold
  · exact absurd heq (by simp)
  · exact hold

theorem filed_of_cons {e : Event} {t : List Event} {raw : Details}
    (he : ∀ i f raw, e ≠ .filed i f raw) (h : Event.filed i f raw ∈ e :: t) :
    Event.filed i f raw ∈ t := by
  rcases mem_cons.mp h with heq | hold
  · exact absurd heq.symm (he i f raw)
  · exact hold

theorem Inv.emit (h : Inv cfg s) {e : Event} (he : ∀ i f raw, e ≠ .filed i f raw) :
    Inv cfg (s.emit e) :=
  h.of_reqs rfl rfl (fun _ hm => mem_cons_of_mem _ hm) (fun _ hm => hm) (fun _ _ hb => hb)
    (fun _ _ _ hm => filed_of_cons he hm) (fun _ ht => .inl ht) h.owners

theorem Inv.push (h : Inv cfg s) (hok : TaskOk cfg s t)
    (ho : ∀ rid, t.owner = some rid → ∀ t' ∈ s.tasks, t'.owner ≠ some rid) :
    Inv cfg (s.push t) := by
  refine h.of_reqs rfl rfl (fun _ hm => hm) (fun _ hm => hm) (fun _ _ hb => hb)
    (fun _ _ _ hm => hm) (fun t' ht' => ?_) (owners_push h.owners ho)
  rcases mem_append.mp ht' with hold | hnew
  · exact .inl hold
  · rw [mem_singleton.mp hnew]
    exact .inr (hok.mono (.of_trace rfl fun _ hm => hm) fun rid _ => .of_reqs rfl rid)

theorem Inv.finish (h : Inv cfg s) {f : Status → Status} (hi : s.tasks[i]? = some t)
    (ho : t.owner = some rid) (hnext : s'.nextId = s.nextId)
    (hreqs : s'.reqs = (s.setStatus rid f).reqs) (htrace : ∀ e ∈ s.trace, e ∈ s'.trace)
    (hpend : s'.pending = s.pending) (hann : s'.announced = s.announced)
    (hfiled : ∀ i f raw, .filed i f raw ∈ s'.trace → .filed i f raw ∈ s.trace)
    (hund : ∀ r, s.reqs rid = some r → (f r.toStatus).decision = none →
      (f r.toStatus).finalizing = false)
    (htasks : s'.tasks = s.tasks.eraseIdx i) : Inv cfg s' := by
  refine h.of_setStatus hnext hreqs htrace hpend hann hfiled hund (fun t' ht' => ?_)
    (htasks ▸ owners_eraseIdx h.owners i)
  rw [htasks] at ht'
  exact .inl ⟨mem_of_mem_eraseIdx ht', owner_ne_of_mem_eraseIdx h.owners hi ho t' ht'⟩

theorem Task.owner_of_frame {f : DecideFrame} (h : t.frame = some f) :
    t.owner = some f.rid := by
  cases t <;> simp only [Task.frame, Option.some.injEq, reduceCtorEq] at h <;> subst h <;> rfl

variable {d : Discipline}

/-- **Every move preserves the invariant.** -/
theorem Inv.move (h : Inv cfg s) (m : Move cfg d s s') : Inv cfg s' := by
  cases m with
  | quiet e he => exact h.emit (by rintro i f raw rfl; simp [Event.quiet] at he)
  | tables rules cache hookPending =>
    exact h.of_reqs rfl rfl (fun _ hm => hm) (fun _ hm => hm) (fun _ _ hb => hb)
      (fun _ _ _ hm => hm) (fun _ ht => .inl ht) h.owners
  | marks cancelled _ =>
    exact h.of_reqs rfl rfl (fun _ hm => hm) (fun _ hm => hm) (fun _ _ hb => hb)
      (fun _ _ _ hm => hm) (fun _ ht => .inl ht) h.owners
  | decided rid b basis r _ _ => exact h.emit (by simp)
  | stored rid scope row r _ _ _ => exact h.emit (by simp)
  | responded p _ _ => exact h.emit (by simp)
  | unbind p =>
    exact h.of_reqs rfl rfl (fun _ hm => hm) (fun _ hm => hm)
      (fun c b hb => ((PyDict.get?_filter_eq_some_iff _ _ _ _).mp hb).1)
      (fun _ _ _ hm => hm) (fun _ ht => .inl ht) h.owners
  | bind sender cookie t hne hp =>
    have he : Extends s ({ s with announced := s.announced.insert cookie (sender, t) }.emit
        (.announced sender cookie)) :=
      Extends.of_trace rfl fun _ hm => mem_cons_of_mem _ hm
    refine ⟨h.fresh, h.subject, ?_, ?_, h.undecided, ?_, ?_, h.filers, ?_, h.owners⟩
    · intro i r hr
      obtain ⟨raw, hraw⟩ := h.filed i r hr
      exact ⟨raw, he.trace _ hraw⟩
    · intro i f raw hmem
      exact h.filing i f raw (filed_of_cons (by simp) hmem)
    · intro c sender' t' hb
      by_cases hc : cookie = c
      · subst hc
        simp only [emit_announced, PyDict.get?_insert_self, Option.some.injEq, Prod.mk.injEq] at hb
        rw [← hb.1]
        exact ⟨hne, mem_cons_self⟩
      · simp only [emit_announced, PyDict.get?_insert_of_ne _ _ hc] at hb
        obtain ⟨hne', hmem⟩ := h.announced c sender' t' hb
        exact ⟨hne', he.trace _ hmem⟩
    · intro c sender' t' hb rid hrid r hr hcookie
      by_cases hc : cookie = c
      · subst hc
        simp only [emit_announced, PyDict.get?_insert_self, Option.some.injEq, Prod.mk.injEq] at hb
        rw [← hb.1]
        exact hp rid hrid r hr hcookie
      · simp only [emit_announced, PyDict.get?_insert_of_ne _ _ hc] at hb
        exact h.bound c sender' t' hb rid hrid r hr hcookie
    · intro t' ht'
      exact (h.tasks t' ht').mono he fun rid _ => .of_reqs rfl rid
  | create f raw decision _ hs hc hann hfiled => exact h.create decision hs hc hann hfiled
  | createDecided f raw b hs hc _ hann hfiled =>
    have hcr := h.create (some b.allows) hs hc hann hfiled
    refine (hcr.emit (by simp)).push ?_ ?_
    · exact ⟨_, create_reqs_self s f raw (some b.allows), by simp, rfl⟩
    · intro rid hrid t' ht'
      injection hrid with hrid
      exact hrid ▸ h.owner_ne_nextId t' ht'
  | record i rid basis r b hi hr _ _ _ =>
    exact h.finish (f := recorded b) hi rfl rfl rfl (fun _ hm => hm) rfl rfl
      (fun _ _ _ hm => hm) (fun _ _ hd => absurd hd (by simp [recorded])) rfl
  | park rid r hr ho =>
    exact h.of_keeping (f := joined ⟨rid, s.nextWaiter⟩) rfl rfl
      (fun _ hm => mem_cons_of_mem _ hm) rfl rfl (fun _ _ _ hm => filed_of_cons (by simp) hm)
      (fun _ => ⟨rfl, rfl⟩) rfl
  | answerNow rid r b hr hd hf =>
    refine h.of_reqs rfl rfl (fun _ hm => mem_cons_of_mem _ (mem_cons_of_mem _ hm))
      (fun _ hm => hm) (fun _ _ hb => hb) (fun _ _ _ hm => ?_) (fun _ ht => .inl ht) h.owners
    exact filed_of_cons (by simp) (filed_of_cons (by simp) hm)
  | settle rid r b hr hd _ =>
    refine h.of_setStatus (f := settled b) (by simp [Broker.settle])
      (by rw [Broker.settle, answer_reqs]) (fun _ hm => ?_) (by simp [Broker.settle])
      (by simp [Broker.settle]) (fun i f raw hm => ?_)
      (fun _ _ hd => absurd hd (by simp [settled])) (fun t ht => ?_)
      (by simpa [Broker.settle] using h.owners)
    · simp only [Broker.settle, answer_trace]
      exact mem_append_right _ hm
    · simp only [Broker.settle, answer_trace] at hm
      exact filed_of_answers hm
    · simp only [Broker.settle, answer_tasks, setStatus_tasks] at ht
      exact .inl ⟨ht, h.owner_ne_of_undecided hr hd t ht⟩
  | beginDecide f r hr hd hw hc =>
    have hfree := h.owner_ne_of_undecided hr hd
    refine h.of_setStatus (f := provisional f.allowed) rfl rfl (fun _ hm => hm) rfl rfl
      (fun _ _ _ hm => hm) (fun _ _ hd => absurd hd (by simp [provisional]))
      (fun t ht => ?_) (owners_push h.owners fun rid hrid => ?_)
    · rcases mem_append.mp ht with hold | hnew
      · exact .inl ⟨hold, hfree t hold⟩
      · rw [mem_singleton.mp hnew]
        exact .inr ⟨_, setStatus_reqs_self hr, rfl, rfl, hc⟩
    · injection hrid with hrid
      exact hrid ▸ hfree
  | hold rid r hr hd ha =>
    have hfree := h.owner_ne_of_undecided hr hd
    have hfin := h.undecided rid r hr hd
    refine h.of_setStatus (f := settled true) rfl rfl (fun _ hm => hm) rfl rfl
      (fun _ _ _ hm => hm) (fun _ _ hd => absurd hd (by simp [settled]))
      (fun t ht => ?_) (owners_push h.owners fun rid' hrid => ?_)
    · rcases mem_append.mp ht with hold | hnew
      · exact .inl ⟨hold, hfree t hold⟩
      · rw [mem_singleton.mp hnew]
        exact .inr ⟨_, setStatus_reqs_self hr, rfl, hfin, ha⟩
    · injection hrid with hrid
      exact hrid ▸ hfree
  | advance i t t' f hi ht ht' hok =>
    refine h.of_reqs rfl rfl (fun _ hm => hm) (fun _ hm => hm) (fun _ _ hb => hb)
      (fun _ _ _ hm => hm) (fun t2 ht2 => ?_)
      (owners_push (owners_eraseIdx h.owners i) fun rid hrid => ?_)
    · rcases mem_append.mp ht2 with hold | hnew
      · exact .inl (mem_of_mem_eraseIdx hold)
      · rw [mem_singleton.mp hnew]
        exact .inr (hok.mono (.of_trace rfl fun _ hm => hm) fun rid _ =>
          Keeps.of_reqs rfl rid)
    · have hsame : t.owner = some rid := by
        rw [Task.owner_of_frame ht, ← Task.owner_of_frame ht', hrid]
      exact owner_ne_of_mem_eraseIdx h.owners hi hsame
  | downgrade i f error hi =>
    refine h.finish (f := downgraded (decide (f.rid ∈ s.pending))) hi rfl (by simp)
      (by rw [answer_reqs]; rfl) (fun _ hm => ?_) (by simp) (by simp)
      (fun _ _ _ hm => ?_) (fun r hr hd => ?_) (by simp)
    · rw [answer_trace]
      exact mem_append_right _ hm
    · rw [answer_trace] at hm
      exact filed_of_answers hm
    · rw [downgraded] at hd
      split at hd
      · exact absurd hd (by simp)
      · exact absurd hd ((h.tasks _ (mem_of_getElem? hi)).elim fun r' hr' => by
          have heq := hr'.1
          rw [hr] at heq
          injection heq with heq
          rw [heq, hr'.2.1]
          simp)
  | finalise i f cachedOk hi =>
    refine h.finish (f := finalised) hi rfl (by simp) (by rw [answer_reqs]; rfl)
      (fun _ hm => ?_) (by simp) (by simp) (fun _ _ _ hm => ?_) (fun _ _ _ => rfl) (by simp)
    · rw [answer_trace]
      exact mem_append_right _ hm
    · rw [answer_trace] at hm
      exact filed_of_answers hm
  | release i rid ws hi =>
    refine h.of_reqs (by simp) (by simp) (fun _ hm => ?_) (fun _ hm => by simpa using hm)
      (fun _ _ hb => by simpa using hb) (fun _ _ _ hm => ?_) (fun t ht => ?_)
      (by simpa using owners_eraseIdx h.owners i)
    · rw [answer_trace]
      exact mem_append_right _ hm
    · rw [answer_trace] at hm
      exact filed_of_answers hm
    · rw [answer_tasks] at ht
      exact .inl (mem_of_mem_eraseIdx ht)
  | push t ho hok => exact h.push hok fun rid hrid => absurd hrid (by rw [ho]; simp)
  | drop i t hi ho =>
    exact h.of_reqs rfl rfl (fun _ hm => hm) (fun _ hm => hm) (fun _ _ hb => hb)
      (fun _ _ _ hm => hm) (fun _ ht => .inl (mem_of_mem_eraseIdx ht))
      (owners_eraseIdx h.owners i)
  | stamp rid t =>
    exact h.of_keeping (f := stamped t) rfl rfl (fun _ hm => hm) rfl rfl
      (fun _ _ _ hm => hm) (fun _ => ⟨rfl, rfl⟩) rfl
  | reap rid =>
    exact h.of_reqs rfl rfl (fun _ hm => hm) (fun _ hm => mem_of_mem_erase hm)
      (fun _ _ hb => hb) (fun _ _ _ hm => hm) (fun _ ht => .inl ht) h.owners

theorem Move.extends (m : Move cfg d s s') (h : Inv cfg s) : Extends s s' := by
  cases m with
  | create f raw decision _ _ _ _ _ => exact h.extends_create f raw decision
  | createDecided f raw b _ _ _ _ _ =>
    have he := h.extends_create f raw (some b.allows)
    exact ⟨fun e hm => mem_cons_of_mem _ (he.trace e hm), he.reqs⟩
  | quiet | decided | stored | responded | bind =>
    exact .of_trace rfl fun _ hm => mem_cons_of_mem _ hm
  | tables | marks | unbind | advance | push | drop | reap =>
    exact .of_trace rfl fun _ hm => hm
  | record i rid _ _ b =>
    exact .setStatus rid (recorded b) rfl fun _ hm => hm
  | park rid =>
    exact .setStatus rid (joined ⟨rid, s.nextWaiter⟩) rfl
      fun _ hm => mem_cons_of_mem _ hm
  | answerNow =>
    exact .of_trace rfl fun _ hm => mem_cons_of_mem _ (mem_cons_of_mem _ hm)
  | settle rid r b =>
    refine .setStatus rid (settled b)
      (by rw [Broker.settle, answer_reqs]) fun _ hm => ?_
    rw [Broker.settle, answer_trace]
    exact mem_append_right _ hm
  | beginDecide f =>
    exact .setStatus f.rid (provisional f.allowed) rfl fun _ hm => hm
  | hold rid => exact .setStatus rid (settled true) rfl fun _ hm => hm
  | downgrade i f =>
    refine .setStatus f.rid (downgraded (decide (f.rid ∈ s.pending))) (by rw [answer_reqs]; rfl)
      fun _ hm => ?_
    rw [answer_trace]
    exact mem_append_right _ hm
  | finalise i f =>
    refine .setStatus f.rid finalised (by rw [answer_reqs]; rfl)
      fun _ hm => ?_
    rw [answer_trace]
    exact mem_append_right _ hm
  | release =>
    refine .of_trace (by rw [answer_reqs]) fun _ hm => ?_
    rw [answer_trace]
    exact mem_append_right _ hm
  | stamp rid t =>
    exact .setStatus rid (stamped t) rfl fun _ hm => hm

theorem Inv.moves (h : Inv cfg s) (m : Moves cfg d s s') : Inv cfg s' := by
  induction m with
  | refl => exact h
  | tail _ m ih => exact ih.move m

end Broker
