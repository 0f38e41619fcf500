/-
# Exactly one answer

What a caller of `_run_offloaded` can count on (`offload_contract`).  The stages of the teardown
leave behind what the next ones rely on: after the first wait no worker runs an operation, after
the drain every call is claimed, and after the second wait no claimed answer is in flight.  A
weight of what is left to do shows that every run comes to rest.
-/
import QDistro.OffloadDaemon

namespace Offload

open Daemon List

/-! ## The teardown -/

/-- What the stages of the teardown leave behind, unless a wait gave up. -/
structure Ending (s : Daemon) : Prop where
  stages : ∃ n, s.stages = teardown.drop n
  began : s.stages ≠ [] → s.shared.stopping = true
  idled : s.shared.stopping = true → s.timedOut = false → .waitIdle ∉ s.stages →
    ∀ (i : ℕ) (c : Call), s.calls[i]? = some c → c.owned = true → .retire ∉ c.worker
  refusing : s.shared.stopping = true → s.timedOut = false → .waitIdle ∉ s.stages →
    ∀ (i : ℕ) (c : Call), s.calls[i]? = some c → .refuseNow ∈ mainOf s.todo i → c.owned = true →
      c.answered = true ∨ c.escaped = true
  drained : s.shared.stopping = true → s.timedOut = false → .drainAnswers ∉ s.stages →
    ∀ (i : ℕ) (c : Call), s.calls[i]? = some c → c.admitted = true →
      c.answered = true ∨ c.escaped = true ∨ .claimNow ∈ mainOf s.todo i ∨
        .refuseNow ∈ mainOf s.todo i
  fenced : s.shared.stopping = true → .fence ∉ s.stages → s.shared.drained = true ∧ s.todo = []
  delivered : s.shared.stopping = true → s.timedOut = false → .waitDelivered ∉ s.stages →
    ∀ (i : ℕ) (c : Call), s.calls[i]? = some c → .uncountStopped ∉ c.worker

variable {s : Daemon}

theorem Ending.order (h : Ending s) :
    (.drainAnswers ∉ s.stages → .waitIdle ∉ s.stages) ∧
      (.waitDelivered ∉ s.stages → .fence ∉ s.stages) ∧
      (.fence ∉ s.stages → .drainAnswers ∉ s.stages) := by
  obtain ⟨n, hn⟩ := h.stages
  rw [hn]
  rcases n with _ | _ | _ | _ | _ | _ | n <;> simp [teardown]

variable {i : ℕ} {c : Call}

theorem Ending.owned_scheduled (h : Ending s) (hinv : Inv s)
    (hstopping : s.shared.stopping = true) (htime : s.timedOut = false)
    (hstages : .waitIdle ∉ s.stages) (hc : s.calls[i]? = some c) (howned : c.owned = true)
    (hanswered : c.answered = false) :
    c.pendingAnswer ≠ [] ∨ c.escaped = true := by
  obtain ⟨hcall, hnest, hmain, -⟩ := hinv.call i c hc
  have hretire := h.idled hstopping htime hstages i c hc howned
  have hworker : ∀ y ∈ c.worker, y = .work ∨ y.delivers = true → False := by
    intro y hy hkind
    obtain ⟨rest, hbelow, hrest⟩ := hnest.of_mem hy
    cases y with
    | work => exact hretire (hrest _ hbelow.2)
    | deliver answer => exact hretire (hrest _ hbelow.2)
    | _ => simp [Instr.delivers] at hkind
  rcases hcall.working howned hanswered with hr | hr | ⟨y, hy, hy'⟩ | hr
  · exact .inl hr
  · rcases mem_append.mp hr with hr | hr
    · exact (hworker _ hr (.inl rfl)).elim
    · exact (hmain _ hr).elim
  · rcases mem_append.mp hy with hy | hy
    · exact (hworker y hy (.inr hy')).elim
    · cases y with
      | deliver answer =>
        have hrefused := hcall.flags.expired (hmain _ hy)
        rw [(hcall.flags.owned howned).2] at hrefused
        cases hrefused
      | _ => cases hy'
  · exact .inr hr

section Exec

variable (full : Bool) (ends : WorkEnd) (x : Instr) (g : Shared) (c : Call)

theorem exec_owned_of_stopping (hstopping : g.stopping = true) :
    (exec full ends x g c).2.1.owned = c.owned := by
  cases x <;> simp only [exec, refuse, expire, claimPending] <;> (repeat' split) <;> simp_all

theorem exec_retire : .retire ∉ (exec full ends x g c).2.2 := by
  cases x <;> simp only [exec, refuse, expire, claimPending] <;> (repeat' split) <;> simp

theorem exec_uncountStopped (hstopping : g.stopping = true) (hdrained : g.drained = true)
    (hx : x ≠ .countStopped) : .uncountStopped ∉ (exec full ends x g c).2.2 := by
  cases x <;> simp only [exec, refuse, expire, claimPending] <;> (repeat' split) <;> simp_all

theorem exec_claimNow (hx : x = .claimNow) : (exec full ends x g c).2.1.answered = true ∨
    .refuseNow ∈ (exec full ends x g c).2.2 := by
  subst hx
  simp only [exec, claimPending]
  split <;> simp

theorem exec_refuseNow (hx : x = .refuseNow) :
    (exec full ends x g c).2.1.answered = true ∨ c.owned = true := by
  subst hx
  simp only [exec, refuse]
  split <;> simp_all

theorem mem_refuseNow (h : .refuseNow ∈ (exec full ends x g c).2.2) :
    x = .claimNow ∧ (c.answered = true ∨ c.pendingAnswer = []) := by
  revert h
  cases x <;> simp only [exec, refuse, expire, claimPending] <;> (repeat' split) <;> simp_all

end Exec

theorem Ending.worker (h : Ending s) (hinv : Inv s) (hc : s.calls[i]? = some c) {x : Instr}
    {k : List Instr} (hw : c.worker = x :: k) (full : Bool) (ends : WorkEnd) :
    Ending { s with
      shared := (exec full ends x s.shared c).1
      calls := s.calls.set i { (exec full ends x s.shared c).2.1 with
        worker := (exec full ends x s.shared c).2.2 ++ k } } := by
  obtain ⟨hsame, hdrained⟩ := exec_shared full ends x s.shared c
  obtain ⟨hadmitted, -, -⟩ := exec_frame full ends x s.shared c
  obtain ⟨-, -, -, manswered, mescaped, -⟩ := exec_mono full ends x s.shared c
  have hnest := (hinv.call i c hc).nest
  rw [hw] at hnest
  refine ⟨h.stages, ?_, ?_, ?_, ?_, ?_, ?_⟩
  · intro hne
    show (exec full ends x s.shared c).1.stopping = true
    rw [hsame]
    exact h.began hne
  · intro hstopping htime hstages j d hd howned
    rw [hsame] at hstopping
    rcases getElem?_set_cases hd with ⟨rfl, rfl⟩ | ⟨-, hd⟩
    · have howned : (exec full ends x s.shared c).2.1.owned = true := howned
      rw [exec_owned_of_stopping full ends x s.shared c hstopping] at howned
      have hretire := h.idled hstopping htime hstages j c hc howned
      rw [hw] at hretire
      intro hmem
      rcases mem_append.mp hmem with hmem | hmem
      · exact exec_retire full ends x s.shared c hmem
      · exact hretire (mem_cons_of_mem _ hmem)
    · exact h.idled hstopping htime hstages j d hd howned
  · intro hstopping htime hstages j d hd hmem howned
    rw [hsame] at hstopping
    rcases getElem?_set_cases hd with ⟨rfl, rfl⟩ | ⟨-, hd⟩
    · have howned : (exec full ends x s.shared c).2.1.owned = true := howned
      rw [exec_owned_of_stopping full ends x s.shared c hstopping] at howned
      exact (h.refusing hstopping htime hstages j c hc hmem howned).imp manswered mescaped
    · exact h.refusing hstopping htime hstages j d hd hmem howned
  · intro hstopping htime hstages j d hd hyes
    rw [hsame] at hstopping
    rcases getElem?_set_cases hd with ⟨rfl, rfl⟩ | ⟨-, hd⟩
    · have hyes : (exec full ends x s.shared c).2.1.admitted = true := hyes
      rw [hadmitted] at hyes
      exact (h.drained hstopping htime hstages j c hc hyes).imp manswered (Or.imp mescaped id)
    · exact h.drained hstopping htime hstages j d hd hyes
  · intro hstopping hstages
    rw [hsame] at hstopping
    show (exec full ends x s.shared c).1.drained = true ∧ s.todo = []
    rw [hdrained]
    exact h.fenced hstopping hstages
  · intro hstopping htime hstages j d hd
    rw [hsame] at hstopping
    rcases getElem?_set_cases hd with ⟨rfl, rfl⟩ | ⟨-, hd⟩
    · have hold := h.delivered hstopping htime hstages j c hc
      rw [hw] at hold
      have hfenced := (h.fenced hstopping (h.order.2.1 hstages)).1
      have hx : x ≠ .countStopped := by
        rintro rfl
        exact hnest.1.elim
      intro hmem
      rcases mem_append.mp hmem with hmem | hmem
      · exact exec_uncountStopped full ends x s.shared c hstopping hfenced hx hmem
      · exact hold (mem_cons_of_mem _ hmem)
    · exact h.delivered hstopping htime hstages j d hd

theorem Ending.main (h : Ending s) (hinv : Inv s) {x : Instr} {rest : List (ℕ × Instr)}
    (htodo : s.todo = (i, x) :: rest) (hc : s.calls[i]? = some c) (full : Bool) (ends : WorkEnd) :
    Ending { s with
      shared := (exec full ends x s.shared c).1
      calls := s.calls.set i (exec full ends x s.shared c).2.1
      todo := (exec full ends x s.shared c).2.2.map (fun y => (i, y)) ++ rest } := by
  obtain ⟨hsame, hdrained⟩ := exec_shared full ends x s.shared c
  obtain ⟨hadmitted, -, hworker⟩ := exec_frame full ends x s.shared c
  obtain ⟨-, -, -, manswered, mescaped, -⟩ := exec_mono full ends x s.shared c
  have hmain := (hinv.call i c hc).main
  rw [htodo, mainOf_cons_self] at hmain
  obtain ⟨-, howned⟩ := exec_active_main full ends x s.shared c (hmain x mem_cons_self)
  have hself : ∀ {y : Instr}, y ∈ mainOf s.todo i ↔ y = x ∨ y ∈ mainOf rest i := by
    intro y
    rw [htodo, mainOf_cons_self, mem_cons]
  have hother : ∀ {j : ℕ}, j ≠ i →
      mainOf ((exec full ends x s.shared c).2.2.map (fun y => (i, y)) ++ rest) j = mainOf s.todo j := by
    intro j hj
    rw [mainOf_next_of_ne hj, htodo, mainOf_cons_of_ne hj]
  refine ⟨h.stages, ?_, ?_, ?_, ?_, ?_, ?_⟩
  · intro hne
    show (exec full ends x s.shared c).1.stopping = true
    rw [hsame]
    exact h.began hne
  · intro hstopping htime hstages j d hd hown
    rw [hsame] at hstopping
    rcases getElem?_set_cases hd with ⟨rfl, rfl⟩ | ⟨-, hd⟩
    · rw [howned] at hown
      rw [hworker]
      exact h.idled hstopping htime hstages j c hc hown
    · exact h.idled hstopping htime hstages j d hd hown
  · intro hstopping htime hstages j d hd hmem hown
    rw [hsame] at hstopping
    rcases getElem?_set_cases hd with ⟨rfl, rfl⟩ | ⟨hj, hd⟩
    · rw [howned] at hown
      rw [mainOf_next_self] at hmem
      rcases mem_append.mp hmem with hmem | hmem
      -- the drain found no scheduled answer: an owned call would have one
      · obtain ⟨-, hnone⟩ := mem_refuseNow full ends x s.shared c hmem
        cases hanswered : c.answered with
        | true => exact .inl (manswered hanswered)
        | false =>
          rw [hanswered] at hnone
          rcases h.owned_scheduled hinv hstopping htime hstages hc hown hanswered with hr | hr
          · exact absurd (hnone.resolve_left Bool.false_ne_true) hr
          · exact .inr (mescaped hr)
      · exact (h.refusing hstopping htime hstages j c hc (hself.mpr (.inr hmem)) hown).imp
          manswered mescaped
    · rw [hother hj] at hmem
      exact h.refusing hstopping htime hstages j d hd hmem hown
  · intro hstopping htime hstages j d hd hyes
    rw [hsame] at hstopping
    rcases getElem?_set_cases hd with ⟨rfl, rfl⟩ | ⟨hj, hd⟩
    · rw [hadmitted] at hyes
      rw [mainOf_next_self]
      rcases h.drained hstopping htime hstages j c hc hyes with hr | hr | hr | hr
      · exact .inl (manswered hr)
      · exact .inr (.inl (mescaped hr))
      · rcases hself.mp hr with hx | hr
        · rcases exec_claimNow full ends x s.shared c hx.symm with hr | hr
          · exact .inl hr
          · exact .inr (.inr (.inr (mem_append_left _ hr)))
        · exact .inr (.inr (.inl (mem_append_right _ hr)))
      · rcases hself.mp hr with hx | hr
        · rcases exec_refuseNow full ends x s.shared c hx.symm with hr | hown
          · exact .inl hr
          · have hmem : .refuseNow ∈ mainOf s.todo j := hself.mpr (.inl hx)
            rcases h.refusing hstopping htime (h.order.1 hstages) j c hc hmem hown with hr | hr
            · exact .inl (manswered hr)
            · exact .inr (.inl (mescaped hr))
        · exact .inr (.inr (.inr (mem_append_right _ hr)))
    · rw [hother hj]
      exact h.drained hstopping htime hstages j d hd hyes
  · intro hstopping hstages
    rw [hsame] at hstopping
    have hempty := (h.fenced hstopping hstages).2
    rw [htodo] at hempty
    cases hempty
  · intro hstopping htime hstages j d hd
    rw [hsame] at hstopping
    rcases getElem?_set_cases hd with ⟨rfl, rfl⟩ | ⟨-, hd⟩
    · rw [hworker]
      exact h.delivered hstopping htime hstages j c hc
    · exact h.delivered hstopping htime hstages j d hd

theorem sum_map_nonneg {α : Type} {f : α → ℤ} (hf : ∀ a, 0 ≤ f a) (l : List α) :
    0 ≤ (l.map f).sum := by
  induction l with
  | nil => exact le_rfl
  | cons a l ih =>
    have := hf a
    rw [map_cons, sum_cons]
    omega

theorem eq_zero_of_sum {α : Type} {f : α → ℤ} (hf : ∀ a, 0 ≤ f a) {l : List α}
    (hsum : (l.map f).sum = 0) {a : α} (ha : a ∈ l) : f a = 0 := by
  induction l with
  | nil => cases ha
  | cons b l ih =>
    have hb := hf b
    have hl := sum_map_nonneg hf l
    rw [map_cons, sum_cons] at hsum
    rcases mem_cons.mp ha with rfl | ha
    · omega
    · exact ih (by omega) ha

theorem activeOf_nonneg (c : Call) : 0 ≤ activeOf c := by
  unfold activeOf
  split <;> omega

theorem inFlightOf_nonneg (c : Call) : 0 ≤ inFlightOf c := Int.natCast_nonneg _

theorem Ending.rest (h : Ending s) {stage : Stage} {rest : List Stage}
    (hstages : s.stages = stage :: rest) : ∃ n, rest = teardown.drop n := by
  obtain ⟨n, hn⟩ := h.stages
  refine ⟨n + 1, ?_⟩
  have htail : (stage :: rest).tail = (teardown.drop n).tail := by rw [← hstages, hn]
  rw [tail_drop] at htail
  exact htail

variable {s' : Daemon}

theorem Ending.stage (h : Ending s) (hinv : Inv s) (hidle : s.todo = []) {stage : Stage}
    {rest : List Stage} (hstages : s.stages = stage :: rest)
    (hstep : s.runStage stage rest = some s') : Ending s' := by
  have hbegan : s.shared.stopping = true := h.began (by rw [hstages]; exact cons_ne_nil _ _)
  have hempty : ∀ (j : ℕ) (y : Instr), y ∉ mainOf s.todo j := by
    intro j y hy
    rw [hidle] at hy
    cases hy
  have hrest := h.rest hstages
  obtain ⟨n, hn⟩ := h.stages
  have hn : stage :: rest = teardown.drop n := hstages.symm.trans hn
  rcases n with _ | _ | _ | _ | _ | _ | n
  -- the queues are drained: the waits are still to come
  iterate 2
    obtain ⟨rfl, rfl⟩ := cons.inj hn
    simp only [runStage] at hstep
    split at hstep
    · obtain rfl := Option.some.inj hstep
      refine ⟨hrest, fun _ => hbegan, ?_, ?_, ?_, ?_, ?_⟩ <;> simp
    · obtain rfl := Option.some.inj hstep
      refine ⟨h.stages, fun _ => hbegan, ?_, ?_, ?_, ?_, ?_⟩ <;> simp [hstages]
  · obtain ⟨rfl, rfl⟩ := cons.inj hn
    simp only [runStage] at hstep
    split at hstep
    · next hzero =>
      obtain rfl := Option.some.inj hstep
      refine ⟨hrest, fun _ => hbegan, ?_, ?_, ?_, ?_, ?_⟩
      · intro _ _ _ i c hc howned hretire
        have hsum : (s.calls.map activeOf).sum = 0 := hinv.active.symm.trans hzero.1
        have := eq_zero_of_sum activeOf_nonneg hsum (mem_of_getElem? hc)
        rw [activeOf, if_pos ⟨howned, hretire⟩] at this
        cases this
      · intro _ _ _ i c _ hmem
        exact absurd hmem (hempty i _)
      all_goals simp
    · cases hstep
  · obtain ⟨rfl, rfl⟩ := cons.inj hn
    have hpassed : .waitIdle ∉ s.stages := by simp [hstages]
    obtain rfl := Option.some.inj hstep
    refine ⟨hrest, fun _ => hbegan, ?_, ?_, ?_, ?_, ?_⟩
    · intro hstopping htime _
      exact h.idled hstopping htime hpassed
    · intro _ _ _ i c _ hmem
      obtain ⟨j, -, heq⟩ := mem_map.mp (mem_mainOf.mp hmem)
      cases (Prod.mk.inj heq).2
    · intro _ _ _ i c hc hyes
      cases hregistered : c.registered with
      | true =>
        refine .inr (.inr (.inl (mem_mainOf.mpr (mem_map.mpr ⟨i, ?_, rfl⟩))))
        exact mem_registeredCalls.mpr ⟨c, hc, hregistered⟩
      | false =>
        have hcall := (hinv.call i c hc).inv
        rcases hcall.finished hyes (.inr (.inl hregistered)) with hr | hr
        · left
          have honce := hcall.once
          have hpos := length_pos_iff.mpr hr
          cases hanswered : c.answered with
          | true => rfl
          | false =>
            rw [Call.claimed, hyes, hanswered] at honce
            simp only [Bool.not_true, Bool.or_false, Bool.toNat_false] at honce
            omega
        · exact .inl (hcall.answered_of_abandoned hr)
    all_goals simp
  · obtain ⟨rfl, rfl⟩ := cons.inj hn
    have hpassed : .waitIdle ∉ s.stages ∧ .drainAnswers ∉ s.stages := by simp [hstages]
    obtain rfl := Option.some.inj hstep
    refine ⟨hrest, fun _ => hbegan, ?_, ?_, ?_, fun _ _ => ⟨rfl, hidle⟩, ?_⟩
    · exact fun hstopping htime _ => h.idled hstopping htime hpassed.1
    · exact fun hstopping htime _ => h.refusing hstopping htime hpassed.1
    · exact fun hstopping htime _ => h.drained hstopping htime hpassed.2
    · simp
  · obtain ⟨rfl, rfl⟩ := cons.inj hn
    have hpassed : .waitIdle ∉ s.stages ∧ .drainAnswers ∉ s.stages ∧ .fence ∉ s.stages := by
      simp [hstages]
    simp only [runStage] at hstep
    split at hstep
    · next hzero =>
      obtain rfl := Option.some.inj hstep
      refine ⟨hrest, fun hne => absurd rfl hne, ?_, ?_, ?_, ?_, ?_⟩
      · exact fun hstopping htime _ => h.idled hstopping htime hpassed.1
      · exact fun hstopping htime _ => h.refusing hstopping htime hpassed.1
      · exact fun hstopping htime _ => h.drained hstopping htime hpassed.2.1
      · exact fun hstopping _ => h.fenced hstopping hpassed.2.2
      · intro _ _ _ i c hc hmem
        have hsum : (s.calls.map inFlightOf).sum = 0 := by
          have hdelivering := hinv.delivering
          rw [hidle, hzero] at hdelivering
          simpa [inFlightMain] using hdelivering.symm
        have := eq_zero_of_sum inFlightOf_nonneg hsum (mem_of_getElem? hc)
        have hpos := count_pos_iff.mpr hmem
        unfold inFlightOf at this
        omega
    · cases hstep
  · have hnil : teardown.drop (n + 6) = [] := by
      apply drop_eq_nil_of_le
      show 6 ≤ n + 6
      omega
    rw [hnil] at hn
    cases hn

theorem Ending.timeout (h : Ending s) {stage : Stage} {rest : List Stage}
    (hstages : s.stages = stage :: rest) (hwait : stage = .waitIdle ∨ stage = .waitDelivered) :
    Ending { s with stages := rest, timedOut := true } := by
  have hbegan : s.shared.stopping = true := h.began (by rw [hstages]; exact cons_ne_nil _ _)
  refine ⟨h.rest hstages, fun _ => hbegan, by simp, by simp, by simp, ?_, by simp⟩
  intro hstopping hmem
  refine h.fenced hstopping ?_
  rw [hstages, mem_cons, not_or]
  refine ⟨?_, hmem⟩
  rcases hwait with rfl | rfl <;> simp

theorem Ending.running (hstages : s.stages = []) (hrunning : s.shared.stopping = false) :
    Ending s := by
  refine ⟨⟨6, hstages⟩, fun hne => absurd hstages hne, ?_, ?_, ?_, ?_, ?_⟩ <;> simp [hrunning]

theorem Ending.step (h : Ending s) (hinv : Inv s) {ev : Event} (hmoves : Moves s ev s') :
    Ending s' := by
  have hloop : s.shared.stopping = false → s.stages = [] := by
    intro hrunning
    by_contra hne
    rw [h.began hne] at hrunning
    cases hrunning
  cases hmoves with
  | call op read hidle hrunning =>
    have hsame : (s.admitCall op read).stages = s.stages ∧ (s.admitCall op read).shared.stopping = false := by
      unfold admitCall Shared.addSlots
      split_ifs <;> exact ⟨rfl, hrunning⟩
    exact .running (hsame.1.trans (hloop hrunning)) hsame.2
  | idle i c hidle hrunning hc hidles => exact .running (hloop hrunning) hrunning
  | deadline i c hidle hrunning hc hdeadline => exact .running (hloop hrunning) hrunning
  | shutdown hidle hrunning =>
    refine ⟨⟨0, rfl⟩, fun _ => rfl, ?_, ?_, ?_, ?_, ?_⟩ <;> simp [teardown]
  | main i x rest c htodo hc => exact h.main hinv htodo hc _ _
  | stage stage rest s' hidle hstages hrun => exact h.stage hinv hidle hstages hrun
  | timeout stage rest hidle hstages hwait => exact h.timeout hstages hwait
  | take read i c hc hqueued =>
    have hstarts := (hinv.call i c hc).inv.starts
    rw [hqueued, Bool.toNat_true] at hstarts
    have howned : c.owned = false := by
      cases howned : c.owned with
      | false => rfl
      | true =>
        rw [((hinv.call i c hc).inv.flags.owned howned).1, Bool.toNat_true] at hstarts
        omega
    refine ⟨h.stages, h.began, ?_, ?_, ?_, h.fenced, ?_⟩
    · intro hstopping htime hstages j d hd hown
      rcases getElem?_set_cases hd with ⟨rfl, rfl⟩ | ⟨-, hd⟩
      · have hown : c.owned = true := hown
        rw [howned] at hown
        cases hown
      · exact h.idled hstopping htime hstages j d hd hown
    · intro hstopping htime hstages j d hd
      rcases getElem?_set_cases hd with ⟨rfl, rfl⟩ | ⟨-, hd⟩
      · exact h.refusing hstopping htime hstages j c hc
      · exact h.refusing hstopping htime hstages j d hd
    · intro hstopping htime hstages j d hd
      rcases getElem?_set_cases hd with ⟨rfl, rfl⟩ | ⟨-, hd⟩
      · exact h.drained hstopping htime hstages j c hc
      · exact h.drained hstopping htime hstages j d hd
    · intro hstopping htime hstages j d hd
      rcases getElem?_set_cases hd with ⟨rfl, rfl⟩ | ⟨-, hd⟩
      · simp
      · exact h.delivered hstopping htime hstages j d hd
  | worker i ends c x k hc hw => exact h.worker hinv hc hw _ _

theorem Reachable.inv (h : Reachable s) : Inv s ∧ Ending s := by
  induction h with
  | start =>
    refine ⟨⟨?_, ?_, rfl, rfl, ?_, ?_⟩, .running rfl rfl⟩
    · intro i c hc
      cases hc
    · intro p hp
      cases hp
    · intro read
      cases read <;> rfl
    · intro read
      cases read <;> exact Int.natCast_nonneg _
  | step _ ev hstep ih =>
    have hmoves := moves_of_step hstep
    exact ⟨ih.1.step ih.2.began hmoves, ih.2.step ih.1 hmoves⟩

/-! ## What is left to do -/

/-- An instruction weighs more than what it puts in its place. -/
def Instr.weight : Instr → ℕ
  | .enter => 17
  | .work => 16
  | .retire => 1
  | .abandon => 4
  | .deliver _ => 15
  | .idleAdd => 7
  | .recheck => 7
  | .claimIdle => 5
  | .claimNow => 6
  | .refuseNow => 5
  | .countStopped => 7
  | .refuseStopped => 5
  | .uncountStopped => 1
  | .callback _ => 4
  | .drop => 1
  | .release => 2
  | .uncount => 1
  | .answerInline _ => 1
  | .enqueue => 42
  | .expireFull => 16
  | .arm => 18
  | .expireLate => 16
  | .settle => 8

def weights (l : List Instr) : ℕ := (l.map Instr.weight).sum

/-- What the sources of the loop and the queue still bring. -/
def Call.sources (c : Call) : ℕ := 6 * c.idles + 17 * c.deadline.toNat + 23 * c.queued.toNat

def Call.load (c : Call) : ℕ := weights c.worker + c.sources

def Stage.weight (n : ℕ) : Stage → ℕ
  | .drainAnswers => 1 + 6 * n
  | _ => 1

def todoWeight (todo : List (ℕ × Instr)) : ℕ := (todo.map fun p => p.2.weight).sum

/-- What is left to do of the calls that have arrived. -/
def Daemon.load (s : Daemon) : ℕ :=
  (s.calls.map Call.load).sum + todoWeight s.todo +
    (s.stages.map (Stage.weight s.calls.length)).sum

theorem exec_weight (full : Bool) (ends : WorkEnd) (x : Instr) (g : Shared) (c : Call) :
    weights (exec full ends x g c).2.2 + (exec full ends x g c).2.1.sources <
      x.weight + c.sources := by
  have hqueued := Bool.toNat_le c.queued
  have hdeadline := Bool.toNat_le c.deadline
  cases x <;> simp only [exec, refuse, expire, claimPending] <;> (repeat' split) <;>
    simp [weights, Instr.weight, Call.sources] <;> omega

theorem todoWeight_next (i : ℕ) (next : List Instr) (rest : List (ℕ × Instr)) :
    todoWeight (next.map (fun y => (i, y)) ++ rest) = weights next + todoWeight rest := by
  unfold todoWeight weights
  rw [map_append, sum_append, map_map]
  rfl

theorem todoWeight_drain (l : List ℕ) :
    todoWeight (l.map fun i => (i, Instr.claimNow)) = 6 * l.length := by
  induction l with
  | nil => rfl
  | cons i l ih =>
    have hcons : todoWeight ((i :: l).map fun i => (i, Instr.claimNow)) =
        6 + todoWeight (l.map fun i => (i, Instr.claimNow)) := rfl
    rw [hcons, ih, length_cons]
    omega

theorem load_set {calls : List Call} (c' : Call) (hc : calls[i]? = some c) :
    ((calls.set i c').map Call.load).sum + c.load = (calls.map Call.load).sum + c'.load :=
  sum_map_set Call.load c' hc

theorem load_stage_lt (hidle : s.todo = []) {stage : Stage} {rest : List Stage}
    (hstages : s.stages = stage :: rest) (hrun : s.runStage stage rest = some s') :
    s'.load < s.load := by
  have hnil : todoWeight s.todo = 0 := by
    rw [hidle]
    rfl
  have hpop : (s.stages.map (Stage.weight s.calls.length)).sum =
      stage.weight s.calls.length + (rest.map (Stage.weight s.calls.length)).sum := by
    rw [hstages, map_cons, sum_cons]
  have hpos : 0 < stage.weight s.calls.length := by
    cases stage <;> simp only [Stage.weight] <;> omega
  -- a stage that only passes
  have hpass : { s with stages := rest }.load < s.load := by
    simp only [load, hpop]
    omega
  cases stage with
  | drainQueue read =>
    simp only [runStage] at hrun
    cases hhead : (s.queue read).head? with
    | none =>
      rw [hhead] at hrun
      obtain rfl := Option.some.inj hrun
      exact hpass
    | some i =>
      rw [hhead] at hrun
      obtain rfl := Option.some.inj hrun
      obtain ⟨c, hc, hqueued⟩ := mem_queue (mem_of_mem_head? hhead)
      have hsum := load_set { c with queued := false } hc
      have hsettle : todoWeight [(i, .settle)] = 8 := rfl
      rw [modify_eq_set _ hc]
      simp only [load, length_set, hnil, hsettle]
      simp only [Call.load, Call.sources, hqueued, Bool.toNat_true, Bool.toNat_false] at hsum ⊢
      omega
  | waitIdle =>
    simp only [runStage] at hrun
    split at hrun
    · obtain rfl := Option.some.inj hrun
      exact hpass
    · cases hrun
  | drainAnswers =>
    obtain rfl := Option.some.inj hrun
    have hlength : s.registeredCalls.length ≤ s.calls.length := by
      unfold registeredCalls
      exact (length_filter_le _ _).trans_eq length_range
    simp only [load, todoWeight_drain, hpop, hnil, Stage.weight]
    omega
  | fence =>
    obtain rfl := Option.some.inj hrun
    exact hpass
  | waitDelivered =>
    simp only [runStage] at hrun
    split at hrun
    · obtain rfl := Option.some.inj hrun
      exact hpass
    · cases hrun

theorem load_lt (hinv : Inv s) {ev : Event} (hmoves : Moves s ev s')
    (hcall : ∀ op read, ev ≠ .call op read) (hshutdown : ev ≠ .shutdown) : s'.load < s.load := by
  have hnil : s.todo = [] → todoWeight s.todo = 0 := by
    intro hidle
    rw [hidle]
    rfl
  cases hmoves with
  | call op read => exact absurd rfl (hcall op read)
  | shutdown => exact absurd rfl hshutdown
  | idle i c hidle hrunning hc hidles =>
    have hsum := load_set { c with idles := c.idles - 1 } hc
    have hclaim : todoWeight [(i, .claimIdle)] = 5 := rfl
    simp only [load, length_set, hnil hidle, hclaim]
    simp only [Call.load, Call.sources] at hsum ⊢
    omega
  | deadline i c hidle hrunning hc hdeadline =>
    have hsum := load_set { c with deadline := false } hc
    have hexpire : todoWeight [(i, .expireLate)] = 16 := rfl
    simp only [load, length_set, hnil hidle, hexpire]
    simp only [Call.load, Call.sources, hdeadline, Bool.toNat_true, Bool.toNat_false] at hsum ⊢
    omega
  | main i x rest c htodo hc =>
    have hsum := load_set (exec (s.isFull c.read) .returns x s.shared c).2.1 hc
    have hweight := exec_weight (s.isFull c.read) .returns x s.shared c
    obtain ⟨-, -, hworker⟩ := exec_frame (s.isFull c.read) .returns x s.shared c
    have htail : todoWeight s.todo = x.weight + todoWeight rest := by
      rw [htodo]
      rfl
    have hload : (exec (s.isFull c.read) .returns x s.shared c).2.1.load =
        weights c.worker + (exec (s.isFull c.read) .returns x s.shared c).2.1.sources := by
      rw [Call.load, hworker]
    have hold : c.load = weights c.worker + c.sources := rfl
    simp only [load, length_set, todoWeight_next, htail]
    omega
  | stage stage rest s' hidle hstages hrun => exact load_stage_lt hidle hstages hrun
  | timeout stage rest hidle hstages hwait =>
    have hpos : 0 < stage.weight s.calls.length := by
      rcases hwait with rfl | rfl <;> exact Nat.one_pos
    simp only [load, hstages, map_cons, sum_cons]
    omega
  | take read i c hc hqueued =>
    have hworker := (hinv.call i c hc).untaken (.inl hqueued)
    have hsum := load_set { c with queued := false, worker := [.enter, .retire, .abandon] } hc
    have htaken : weights [.enter, .retire, .abandon] = 22 := rfl
    have hnone : weights c.worker = 0 := by
      rw [hworker]
      rfl
    simp only [load, length_set]
    simp only [Call.load, Call.sources, htaken, hnone, hqueued, Bool.toNat_true,
      Bool.toNat_false] at hsum ⊢
    omega
  | worker i ends c x k hc hw =>
    have hweight := exec_weight (s.isFull c.read) ends x s.shared c
    rcases hexec : exec (s.isFull c.read) ends x s.shared c with ⟨g, c', next⟩
    rw [hexec] at hweight
    have hsum := load_set { c' with worker := next ++ k } hc
    have hold : c.load = x.weight + weights k + c.sources := by
      rw [Call.load, hw]
      rfl
    have hload : ({ c' with worker := next ++ k } : Call).load =
        weights next + weights k + c'.sources := by
      unfold Call.load weights
      rw [map_append, sum_append]
      rfl
    simp only [load, length_set]
    dsimp only at hweight
    omega

/-! ## Rest -/

/-- The teardown is through. -/
def Daemon.Finished (s : Daemon) : Prop :=
  s.shared.stopping = true ∧ s.todo = [] ∧ s.stages = []

/-- An event of the threads that needs no free worker, no caller and no signal. -/
def Event.internal : Event → Bool
  | .idle _ | .deadline _ | .main | .worker _ _ => true
  | _ => false

/-- No thread can go on. -/
def Daemon.AtRest (s : Daemon) : Prop := ∀ ev : Event, ev.internal = true → s.step ev = none

theorem Daemon.AtRest.worker (h : s.AtRest) (hc : s.calls[i]? = some c) : c.worker = [] := by
  have hnone := h (.worker i .returns) rfl
  simp only [step, hc] at hnone
  cases hw : c.worker with
  | nil => rfl
  | cons x k =>
    rw [hw] at hnone
    cases hnone

theorem Daemon.AtRest.todo (h : s.AtRest) (hinv : Inv s) : s.todo = [] := by
  have hnone := h .main rfl
  simp only [step] at hnone
  cases htodo : s.todo with
  | nil => rfl
  | cons p rest =>
    obtain ⟨i, x⟩ := p
    rw [htodo] at hnone
    have hlt : i < s.calls.length := hinv.todo (i, x) (by rw [htodo]; exact mem_cons_self)
    simp only [runTodo, getElem?_eq_getElem hlt] at hnone
    cases hnone

theorem Daemon.AtRest.stages (h : s.AtRest) (hinv : Inv s) : s.stages = [] := by
  have htodo := h.todo hinv
  have hworker : ∀ c ∈ s.calls, c.worker = [] := by
    intro c hc
    obtain ⟨i, hi⟩ := mem_iff_getElem?.mp hc
    exact h.worker hi
  have hactive : s.shared.active = 0 := by
    rw [hinv.active]
    apply sum_eq_zero
    intro n hn
    obtain ⟨c, hc, rfl⟩ := mem_map.mp hn
    simp [activeOf, hworker c hc]
  have hdelivering : s.shared.delivering = 0 := by
    rw [hinv.delivering, htodo]
    have hsum : (s.calls.map inFlightOf).sum = 0 := by
      apply sum_eq_zero
      intro n hn
      obtain ⟨c, hc, rfl⟩ := mem_map.mp hn
      simp [inFlightOf, hworker c hc]
    rw [hsum]
    rfl
  have hnone := h .main rfl
  simp only [step, htodo] at hnone
  cases hstages : s.stages with
  | nil => rfl
  | cons stage rest =>
    rw [hstages] at hnone
    cases stage with
    | drainQueue read =>
      simp only [runStage] at hnone
      cases hhead : (s.queue read).head? with
      | none =>
        rw [hhead] at hnone
        cases hnone
      | some i =>
        rw [hhead] at hnone
        cases hnone
    | waitIdle =>
      simp only [runStage, if_pos (And.intro hactive hdelivering)] at hnone
      cases hnone
    | drainAnswers => cases hnone
    | fence => cases hnone
    | waitDelivered =>
      simp only [runStage, if_pos hdelivering] at hnone
      cases hnone

theorem CallInv.settled {stopping : Bool} {acts : List Instr} (h : CallInv stopping acts c)
    (hescaped : c.escaped = false) (hclaimed : c.claimed = true)
    (hacts : ∀ x ∈ acts, x.answers = false ∧ x.finishes = false) :
    c.invoked.length = 1 ∧ (c.admitted = true → c.uncounted = 1) := by
  have habandoned : c.abandoned = false := by
    cases habandoned : c.abandoned with
    | false => rfl
    | true =>
      rw [h.abandoned habandoned] at hescaped
      cases hescaped
  have hnone : acts.countP Instr.answers = 0 := by
    rw [countP_eq_zero]
    intro x hx
    rw [(hacts x hx).1]
    exact Bool.false_ne_true
  have honce := h.once
  rw [hnone, habandoned, hclaimed, Bool.toNat_false, Bool.toNat_true] at honce
  refine ⟨by omega, ?_⟩
  intro hyes
  have hinvoked : c.invoked ≠ [] := by
    intro hempty
    rw [hempty, length_nil] at honce
    omega
  have hreleased : c.released = true := by
    rcases h.debt hyes (.inl hinvoked) with hr | hr
    · exact hr
    · cases (hacts _ hr).2
  have huncount : acts.count .uncount = 0 := by
    rw [count_eq_zero]
    intro hmem
    cases (hacts _ hmem).2
  have hslot := h.slot
  rw [huncount, hreleased, Bool.toNat_true] at hslot
  omega

theorem Ending.settled (h : Ending s) (hinv : Inv s) (hfinished : s.Finished)
    (htime : s.timedOut = false) (hc : s.calls[i]? = some c) (hescaped : c.escaped = false) :
    c.invoked.length = 1 ∧ (c.admitted = true → c.uncounted = 1) := by
  obtain ⟨hstopping, htodo, hstages⟩ := hfinished
  have hout : ∀ stage : Stage, stage ∉ s.stages := by
    intro stage hmem
    rw [hstages] at hmem
    cases hmem
  have hinvc := hinv.quiet htodo hc
  refine hinvc.settled hescaped ?_ ?_
  · cases hadmitted : c.admitted with
    | false =>
      rw [Call.claimed, hadmitted]
      exact Bool.or_true _
    | true =>
      have hempty : ∀ y : Instr, y ∉ mainOf s.todo i := by
        intro y hy
        rw [htodo] at hy
        cases hy
      rcases h.drained hstopping htime (hout _) i c hc hadmitted with hr | hr | hr | hr
      · rw [Call.claimed, hr]
        rfl
      · rw [hescaped] at hr
        cases hr
      · exact absurd hr (hempty _)
      · exact absurd hr (hempty _)
  · intro x hx
    have hnest := (hinv.call i c hc).nest
    obtain ⟨rest, hbelow, hrest⟩ := hnest.of_mem hx
    have hretire : c.owned = true → .retire ∉ c.worker := h.idled hstopping htime (hout _) i c hc
    have hflight := h.delivered hstopping htime (hout _) i c hc
    have habandoned : c.abandoned = true → False := by
      intro habandoned
      rw [hinvc.abandoned habandoned] at hescaped
      cases hescaped
    have hdone : ¬((c.owned = true ∧ .retire ∈ rest) ∨ .uncountStopped ∈ rest ∨
        c.abandoned = true) := by
      rintro (⟨howned, hmem⟩ | hmem | hr)
      · exact hretire howned (hrest _ hmem)
      · exact hflight (hrest _ hmem)
      · exact habandoned hr
    cases x with
    | callback answer => exact (hdone hbelow).elim
    | drop => exact (hdone hbelow).elim
    | release => exact (hdone hbelow).elim
    | uncount => exact (hdone hbelow).elim
    | answerInline answer => exact hbelow.elim
    | _ => exact ⟨rfl, rfl⟩

theorem Inv.settled (h : Inv s) (hend : Ending s) (hrest : s.AtRest) (htime : s.timedOut = false)
    (hc : s.calls[i]? = some c) (hescaped : c.escaped = false) :
    c.invoked.length = 1 ∧ (c.admitted = true → c.uncounted = 1) := by
  have htodo := hrest.todo h
  cases hstopping : s.shared.stopping with
  | true => exact hend.settled h ⟨hstopping, htodo, hrest.stages h⟩ htime hc hescaped
  | false =>
    have hinvc := h.quiet htodo hc
    rw [hrest.worker hc, hstopping] at hinvc
    have hloop : s.loopIdle = true := loopIdle_iff.mpr ⟨htodo, hstopping⟩
    have hidles : c.idles = 0 := by
      have hnone := hrest (.idle i) rfl
      simp only [Daemon.step, hc, hloop, Bool.true_and, decide_eq_true_eq] at hnone
      split at hnone
      · cases hnone
      · omega
    have hdeadline : c.deadline = false := by
      have hnone := hrest (.deadline i) rfl
      simp only [Daemon.step, hc, hloop, Bool.true_and] at hnone
      split at hnone
      · cases hnone
      · next hno => exact Bool.eq_false_iff.mpr hno
    have hpending : c.answered = false → c.pendingAnswer = [] := by
      intro hanswered
      by_contra hne
      rcases hinvc.scheduled hanswered hne with hr | hr | hr
      · omega
      · cases hr
      · cases hr
    refine hinvc.settled hescaped ?_ (fun x hx => by cases hx)
    -- a call that is not claimed would have a source that can fire
    by_contra hclaimed
    rw [Call.claimed, Bool.or_eq_true, not_or] at hclaimed
    have hanswered : c.answered = false := Bool.eq_false_iff.mpr hclaimed.1
    have hadmitted : c.admitted = true := by simpa using hclaimed.2
    have hnone := hpending hanswered
    cases hexpired : c.expired with
    | true =>
      rcases hinvc.late hexpired hanswered with hr | hr | ⟨y, hy, -⟩
      · cases hr
      · exact hr hnone
      · cases hy
    | false =>
      cases hstarted : c.started with
      | false =>
        rcases hinvc.waiting hadmitted hstarted hexpired with hr | hr | hr | hr | hr
        · rw [hdeadline] at hr
          cases hr
        all_goals cases hr
      | true =>
        cases howned : c.owned with
        | false => cases hinvc.flags.lost hstarted hexpired howned
        | true =>
          rcases hinvc.working howned hanswered with hr | hr | ⟨y, hy, -⟩ | hr
          · exact hr hnone
          · cases hr
          · cases hy
          · rw [hescaped] at hr
            cases hr

/-! ## The contract -/

/-- A call that was admitted and whose caller still waits for its answer. -/
def Call.outstanding (read : Bool) (c : Call) : Bool :=
  c.admitted && c.read == read && c.invoked.isEmpty

theorem CallInv.slot_of_outstanding {stopping : Bool} {acts : List Instr}
    (h : CallInv stopping acts c) (read : Bool) :
    (if c.outstanding read && !c.abandoned then 1 else 0 : ℤ) ≤ slotOf read c := by
  have hreleased := Bool.toNat_le c.released
  have hslot := h.slot
  unfold slotOf
  split
  · next hout =>
    simp only [Call.outstanding, Bool.and_eq_true, beq_iff_eq, List.isEmpty_iff,
      Bool.not_eq_true'] at hout
    obtain ⟨⟨⟨hadmitted, hread⟩, hempty⟩, habandoned⟩ := hout
    rw [if_pos ⟨hadmitted, hread⟩]
    cases hr : c.released with
    | true =>
      rcases h.finished hadmitted (.inl hr) with hne | hyes
      · exact absurd hempty hne
      · rw [habandoned] at hyes
        cases hyes
    | false =>
      rw [hr, Bool.toNat_false] at hslot
      omega
  · split
    · omega
    · exact le_rfl

theorem Inv.outstanding (h : Inv s) (read : Bool) :
    s.calls.countP (fun c => c.outstanding read && !c.abandoned) ≤ bound read := by
  have hbounded := h.bounded read
  rw [h.slots read] at hbounded
  have hle : ∀ l : List Call, (∀ c ∈ l, c ∈ s.calls) →
      ((l.countP fun c => c.outstanding read && !c.abandoned : ℕ) : ℤ) ≤
        (l.map (slotOf read)).sum := by
    intro l hl
    induction l with
    | nil => exact le_rfl
    | cons c l ih =>
      have hrest := ih fun d hd => hl d (mem_cons_of_mem _ hd)
      obtain ⟨i, hi⟩ := mem_iff_getElem?.mp (hl c mem_cons_self)
      have hone := (h.call i c hi).inv.slot_of_outstanding read
      rw [countP_cons, map_cons, sum_cons]
      split at hone
      · next hout =>
        rw [if_pos hout]
        omega
      · next hout =>
        rw [if_neg hout]
        omega
  have := hle s.calls fun _ hc => hc
  omega

/-- The state after a list of events, if they are possible. -/
def Daemon.run (s : Daemon) : List Event → Option Daemon
  | [] => some s
  | ev :: rest => (s.step ev).bind fun s' => s'.run rest

theorem Reachable.run (h : Reachable s) {events : List Event} (hrun : s.run events = some s') :
    Reachable s' := by
  induction events generalizing s with
  | nil =>
    obtain rfl := Option.some.inj hrun
    exact h
  | cons ev rest ih =>
    obtain ⟨s₁, hstep, hrest⟩ := Option.bind_eq_some_iff.mp hrun
    exact ih (h.step ev hstep) hrest

/-- A read is queued, the daemon is told to stop while a worker has taken it, and the worker
refuses it during the first wait. -/
def lateRead : List Event :=
  [.call "list-silos" true, .main, .main, .take true, .shutdown, .main, .main,
    .worker 0 .returns, .worker 0 .returns, .worker 0 .returns, .worker 0 .returns,
    .worker 0 .returns, .worker 0 .returns, .worker 0 .returns, .main, .main, .main, .main]

/-- A read escapes with a `BaseException`, and three more arrive. -/
def escapedRead : List Event :=
  [.call "list-silos" true, .main, .main, .take true, .worker 0 .returns, .worker 0 .escapes,
    .worker 0 .returns, .worker 0 .returns, .worker 0 .returns, .worker 0 .returns,
    .worker 0 .returns, .call "list-silos" true, .main, .main, .call "list-silos" true, .main,
    .main, .call "list-silos" true, .main, .main]

end Offload
