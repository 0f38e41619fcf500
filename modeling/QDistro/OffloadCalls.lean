/-
# One call of the offload pool

What holds of a call, whatever its threads do (`CallInv`).  The instructions that the worker and
the main thread still execute on the call are one list here, in any order: each field of the
invariant counts them or asks whether one is left.  An instruction takes the head of the list and
puts others there, so every field comes down to what one instruction does, without regard to the
rest of the list.
-/
import QDistro.OffloadPool

namespace Offload

open List

/-! ## What the threads owe a call -/

/-- The instruction invokes a callback of the call. -/
def Instr.answers : Instr → Bool
  | .callback _ => true
  | .answerInline _ => true
  | _ => false

def Instr.delivers : Instr → Bool
  | .deliver _ => true
  | _ => false

/-- The instruction is reached only after the shutdown began. -/
def Instr.ofShutdown : Instr → Bool
  | .claimNow | .refuseNow | .countStopped | .refuseStopped | .settle => true
  | _ => false

/-- The instruction belongs to the end of a call that has its answer. -/
def Instr.finishes : Instr → Bool
  | .drop | .release | .uncount => true
  | _ => false

def Instr.isInline : Instr → Bool
  | .answerInline _ => true
  | _ => false

/-- The call has been claimed by the thread that answers it. -/
def Call.claimed (c : Call) : Bool := c.answered || !c.admitted

/-- The flags of a call that was taken or refused. -/
structure Flags (stopping : Bool) (c : Call) : Prop where
  owned : c.owned = true → c.started = true ∧ c.refused = false
  refused : c.refused = true → c.expired = true ∨ stopping = true
  expired : c.expired = true → c.refused = true
  lost : c.started = true → c.expired = false → c.owned = false → stopping = true

/-- What holds of a call, with the instructions that its threads still execute. -/
structure CallInv (stopping : Bool) (acts : List Instr) (c : Call) : Prop where
  once : c.invoked.length + acts.countP Instr.answers + c.abandoned.toNat = c.claimed.toNat
  starts : acts.count .enqueue + c.queued.toNat + acts.count .enter + c.started.toNat ≤ 1
  runs : acts.count .work + c.runs ≤ c.owned.toNat
  flags : Flags stopping c
  stopped : ∀ x ∈ acts, x.ofShutdown = true → stopping = true
  finished : c.admitted = true → (c.released = true ∨ c.registered = false ∨
    ∃ x ∈ acts, x.finishes = true) → c.invoked ≠ [] ∨ c.abandoned = true
  slot : c.uncounted + acts.count .uncount = c.released.toNat
  debt : c.admitted = true → c.invoked ≠ [] ∨ c.abandoned = true →
    c.released = true ∨ .release ∈ acts
  scheduled : c.answered = false → c.pendingAnswer ≠ [] →
    0 < c.idles ∨ .idleAdd ∈ acts ∨ .claimIdle ∈ acts
  waiting : c.admitted = true → c.started = false → c.expired = false →
    c.deadline = true ∨ .arm ∈ acts ∨ .enqueue ∈ acts ∨ .expireFull ∈ acts ∨ .expireLate ∈ acts
  late : c.expired = true → c.answered = false →
    stopping = true ∨ c.pendingAnswer ≠ [] ∨ ∃ x ∈ acts, x.delivers = true
  working : c.owned = true → c.answered = false →
    c.pendingAnswer ≠ [] ∨ .work ∈ acts ∨ (∃ x ∈ acts, x.delivers = true) ∨ c.escaped = true
  abandoned : c.abandoned = true → c.escaped = true
  inline : c.admitted = false → c.queued = false ∧ c.idles = 0 ∧ c.deadline = false ∧
    c.registered = false ∧ c.abandoned = false ∧ c.runs = 0 ∧ ∀ x ∈ acts, x.isInline = true
  ordinary : c.admitted = true → ∀ x ∈ acts, x.isInline = false

section Exec

variable (full : Bool) (ends : WorkEnd) (x : Instr) (g : Shared) (c : Call)

/-! ## What one instruction does -/

theorem exec_frame : (exec full ends x g c).2.1.admitted = c.admitted ∧
    (exec full ends x g c).2.1.read = c.read ∧ (exec full ends x g c).2.1.worker = c.worker := by
  cases x <;> simp only [exec, refuse, expire, claimPending] <;> (repeat' split) <;> simp

theorem exec_mono :
    (c.started = true → (exec full ends x g c).2.1.started = true) ∧
      (c.expired = true → (exec full ends x g c).2.1.expired = true) ∧
      (c.released = true → (exec full ends x g c).2.1.released = true) ∧
      (c.answered = true → (exec full ends x g c).2.1.answered = true) ∧
      (c.escaped = true → (exec full ends x g c).2.1.escaped = true) ∧
      (c.abandoned = true → (exec full ends x g c).2.1.abandoned = true) ∧
      (c.deadline = true → (exec full ends x g c).2.1.deadline = true) ∧
      (c.owned = true → (exec full ends x g c).2.1.owned = true) ∧
      (c.invoked ≠ [] → (exec full ends x g c).2.1.invoked ≠ []) ∧
      c.idles ≤ (exec full ends x g c).2.1.idles := by
  cases x <;> simp only [exec, refuse, expire, claimPending] <;> (repeat' split) <;> simp_all

theorem exec_once (hinline : c.admitted = false → x.isInline = true)
    (habandoned : c.abandoned = true → c.answered = true) :
    (exec full ends x g c).2.1.invoked.length + (exec full ends x g c).2.2.countP Instr.answers +
        (exec full ends x g c).2.1.abandoned.toNat + c.claimed.toNat =
      c.invoked.length + [x].countP Instr.answers + c.abandoned.toNat +
        (exec full ends x g c).2.1.claimed.toNat := by
  cases x <;> simp only [exec, refuse, expire, claimPending, Call.claimed] <;> (repeat' split) <;>
    simp_all [Instr.answers, Instr.isInline]

theorem exec_starts :
    (exec full ends x g c).2.2.count .enqueue + (exec full ends x g c).2.1.queued.toNat +
        (exec full ends x g c).2.2.count .enter + (exec full ends x g c).2.1.started.toNat ≤
      [x].count .enqueue + c.queued.toNat + [x].count .enter + c.started.toNat := by
  cases x <;> simp only [exec, refuse, expire, claimPending] <;> (repeat' split) <;> simp

theorem exec_runs (howned : x = .enter → c.owned = false) :
    (exec full ends x g c).2.2.count .work + (exec full ends x g c).2.1.runs + c.owned.toNat ≤
      [x].count .work + c.runs + (exec full ends x g c).2.1.owned.toNat := by
  cases x <;> simp only [exec, refuse, expire, claimPending] <;> (repeat' split) <;>
    simp_all <;> omega

theorem exec_flags (h : Flags g.stopping c) (hx : x.ofShutdown = true → g.stopping = true) :
    Flags g.stopping (exec full ends x g c).2.1 := by
  obtain ⟨howned, hrefused, hexpired, hlost⟩ := h
  constructor <;> revert hx <;>
    cases x <;> simp only [exec, refuse, expire, claimPending] <;> (repeat' split) <;>
      simp_all [Instr.ofShutdown]

theorem exec_stopped {y : Instr} (hy : y ∈ (exec full ends x g c).2.2)
    (hshutdown : y.ofShutdown = true) : g.stopping = true ∨ x.ofShutdown = true := by
  revert hy hshutdown
  cases x <;> simp only [exec, refuse, expire, claimPending] <;> (repeat' split) <;>
    simp_all [Instr.ofShutdown] <;> grind [Instr.ofShutdown]

theorem exec_finished (h : (exec full ends x g c).2.1.released = true ∨
      (exec full ends x g c).2.1.registered = false ∨
      ∃ y ∈ (exec full ends x g c).2.2, y.finishes = true) :
    c.released = true ∨ c.registered = false ∨ x.finishes = true ∨
      (exec full ends x g c).2.1.invoked ≠ [] ∨ (exec full ends x g c).2.1.abandoned = true := by
  revert h
  cases x <;> simp only [exec, refuse, expire, claimPending] <;> (repeat' split) <;>
    simp_all [Instr.finishes] <;> tauto

theorem exec_slot :
    (exec full ends x g c).2.1.uncounted + (exec full ends x g c).2.2.count .uncount +
        c.released.toNat =
      c.uncounted + [x].count .uncount + (exec full ends x g c).2.1.released.toNat := by
  cases x <;> simp only [exec, refuse, expire, claimPending] <;> (repeat' split) <;>
    simp_all

theorem exec_debt (hinline : x.isInline = false) (hnew : (exec full ends x g c).2.1.invoked ≠ [] ∨
      (exec full ends x g c).2.1.abandoned = true) :
    c.invoked ≠ [] ∨ c.abandoned = true ∨ .release ∈ (exec full ends x g c).2.2 := by
  revert hnew
  cases x <;> simp only [exec, refuse, expire, claimPending] <;> (repeat' split) <;>
    simp_all [Instr.isInline]

theorem exec_release (hx : x = .release) : (exec full ends x g c).2.1.released = true := by
  subst hx
  simp only [exec]
  split <;> simp_all

theorem exec_scheduled (hanswered : (exec full ends x g c).2.1.answered = false)
    (hpending : (exec full ends x g c).2.1.pendingAnswer ≠ []) :
    (c.answered = false ∧ c.pendingAnswer ≠ []) ∨ .idleAdd ∈ (exec full ends x g c).2.2 := by
  revert hanswered hpending
  cases x <;> simp only [exec, refuse, expire, claimPending] <;> (repeat' split) <;> simp_all

theorem exec_claimIdle (hx : x = .claimIdle) : (exec full ends x g c).2.1.answered = true ∨
    (exec full ends x g c).2.1.pendingAnswer = [] := by
  subst hx
  simp only [exec, claimPending]
  split <;> simp_all

theorem exec_pending (hanswered : (exec full ends x g c).2.1.answered = false)
    (hpending : c.pendingAnswer ≠ [] ∨ x.delivers = true) :
    (exec full ends x g c).2.1.pendingAnswer ≠ [] := by
  revert hanswered hpending
  cases x <;> simp only [exec, refuse, expire, claimPending] <;> (repeat' split) <;>
    simp_all [Instr.delivers]

theorem exec_waiting (hstarted : (exec full ends x g c).2.1.started = false)
    (hexpired : (exec full ends x g c).2.1.expired = false)
    (hx : x = .arm ∨ x = .enqueue ∨ x = .expireFull ∨ x = .expireLate) :
    (exec full ends x g c).2.1.deadline = true ∨ .arm ∈ (exec full ends x g c).2.2 ∨
      .expireFull ∈ (exec full ends x g c).2.2 := by
  revert hstarted hexpired
  rcases hx with rfl | rfl | rfl | rfl <;> simp only [exec, expire] <;> (repeat' split) <;>
    simp_all <;> grind

theorem exec_late (hexpired : (exec full ends x g c).2.1.expired = true) :
    c.expired = true ∨ x.ofShutdown = true ∨
      ∃ y ∈ (exec full ends x g c).2.2, y.delivers = true := by
  revert hexpired
  cases x <;> simp only [exec, refuse, expire, claimPending] <;> (repeat' split) <;>
    simp_all [Instr.delivers, Instr.ofShutdown]

theorem exec_owned (howned : (exec full ends x g c).2.1.owned = true) :
    c.owned = true ∨ .work ∈ (exec full ends x g c).2.2 := by
  revert howned
  cases x <;> simp only [exec, refuse, expire, claimPending] <;> (repeat' split) <;> simp_all

theorem exec_work (hx : x = .work) :
    (exec full ends x g c).2.1.escaped = true ∨
      ∃ y ∈ (exec full ends x g c).2.2, y.delivers = true := by
  subst hx
  simp only [exec]
  split <;> simp [Instr.delivers]

theorem exec_abandoned (h : (exec full ends x g c).2.1.abandoned = true) :
    c.abandoned = true ∨
      (x = .abandon ∧ c.owned = true ∧ c.answered = false ∧ c.pendingAnswer = []) := by
  revert h
  cases x <;> simp only [exec, refuse, expire, claimPending] <;> (repeat' split) <;> simp_all

theorem exec_inline (hx : x.isInline = true) :
    (exec full ends x g c).2.1.queued = c.queued ∧ (exec full ends x g c).2.1.idles = c.idles ∧
      (exec full ends x g c).2.1.deadline = c.deadline ∧
      (exec full ends x g c).2.1.registered = c.registered ∧
      (exec full ends x g c).2.1.abandoned = c.abandoned ∧
      (exec full ends x g c).2.1.runs = c.runs ∧ (exec full ends x g c).2.2 = [] := by
  cases x <;> simp_all [Instr.isInline, exec]

theorem exec_not_inline {y : Instr} (hy : y ∈ (exec full ends x g c).2.2) : y.isInline = false := by
  revert hy
  cases x <;> simp only [exec, refuse, expire, claimPending] <;> (repeat' split) <;>
    simp_all [Instr.isInline] <;> rintro (rfl | rfl) <;> rfl

theorem exec_queued : ((exec full ends x g c).2.1.queued = true → c.queued = true ∨ x = .enqueue) ∧
    .enqueue ∉ (exec full ends x g c).2.2 := by
  cases x <;> simp only [exec, refuse, expire, claimPending] <;> (repeat' split) <;> simp

end Exec

variable {acts : List Instr} {c : Call}

theorem CallInv.answered_of_abandoned {stopping : Bool} (h : CallInv stopping acts c)
    (habandoned : c.abandoned = true) : c.answered = true := by
  have honce := h.once
  cases hadmitted : c.admitted with
  | false =>
    rw [(h.inline hadmitted).2.2.2.2.1] at habandoned
    cases habandoned
  | true =>
    cases hanswered : c.answered with
    | true => rfl
    | false => simp [Call.claimed, hadmitted, hanswered, habandoned] at honce

variable {x : Instr}

theorem CallInv.after {g : Shared} {k : List Instr} (h : CallInv g.stopping (x :: k) c)
    (full : Bool) (ends : WorkEnd)
    (hend : x = .abandon → .work ∉ k ∧ (c.owned = true → ∀ y ∈ k, y.delivers = false)) :
    CallInv g.stopping ((exec full ends x g c).2.2 ++ k) (exec full ends x g c).2.1 := by
  obtain ⟨hadmitted, -, -⟩ := exec_frame full ends x g c
  obtain ⟨mstarted, mexpired, mreleased, manswered, mescaped, mabandoned, mdeadline, mowned,
    minvoked, midles⟩ := exec_mono full ends x g c
  have hshutdown : x.ofShutdown = true → g.stopping = true := h.stopped x mem_cons_self
  have hrest : ∀ {y : Instr}, y ∈ k → y ∈ x :: k := fun hy => mem_cons_of_mem _ hy
  have hback : ∀ {b b' : Bool}, (b = true → b' = true) → b' = false → b = false := by
    intro b b' hmono hfalse
    cases b with
    | false => rfl
    | true => exact absurd (hmono rfl) (by rw [hfalse]; exact Bool.false_ne_true)
  constructor
  · have hdelta := exec_once full ends x g c
      (fun hno => (h.inline hno).2.2.2.2.2.2 x mem_cons_self) h.answered_of_abandoned
    have honce := h.once
    rw [countP_append]
    rw [← singleton_append, countP_append] at honce
    omega
  · have hdelta := exec_starts full ends x g c
    have hstarts := h.starts
    rw [count_append, count_append]
    rw [← singleton_append, count_append, count_append] at hstarts
    omega
  · have hdelta := exec_runs full ends x g c (by
      rintro rfl
      have hstarts := h.starts
      rw [count_cons_self] at hstarts
      cases howned : c.owned with
      | false => rfl
      | true =>
        rw [(h.flags.owned howned).1, Bool.toNat_true] at hstarts
        omega)
    have hruns := h.runs
    rw [count_append]
    rw [← singleton_append, count_append] at hruns
    omega
  · exact exec_flags full ends x g c h.flags hshutdown
  · intro y hy hy'
    rcases mem_append.mp hy with hy | hy
    · exact (exec_stopped full ends x g c hy hy').elim id hshutdown
    · exact h.stopped y (hrest hy) hy'
  · intro hyes hfin
    rw [hadmitted] at hyes
    have hold : c.released = true ∨ c.registered = false ∨ (∃ y ∈ x :: k, y.finishes = true) →
        (exec full ends x g c).2.1.invoked ≠ [] ∨ (exec full ends x g c).2.1.abandoned = true :=
      fun hfin => (h.finished hyes hfin).imp minvoked mabandoned
    have hfin : ((exec full ends x g c).2.1.released = true ∨
        (exec full ends x g c).2.1.registered = false ∨
          ∃ y ∈ (exec full ends x g c).2.2, y.finishes = true) ∨ ∃ y ∈ k, y.finishes = true := by
      rcases hfin with hfin | hfin | ⟨y, hy, hy'⟩
      · exact .inl (.inl hfin)
      · exact .inl (.inr (.inl hfin))
      · rcases mem_append.mp hy with hy | hy
        · exact .inl (.inr (.inr ⟨y, hy, hy'⟩))
        · exact .inr ⟨y, hy, hy'⟩
    rcases hfin with hfin | ⟨y, hy, hy'⟩
    · rcases exec_finished full ends x g c hfin with hr | hr | hr | hr
      · exact hold (.inl hr)
      · exact hold (.inr (.inl hr))
      · exact hold (.inr (.inr ⟨x, mem_cons_self, hr⟩))
      · exact hr
    · exact hold (.inr (.inr ⟨y, hrest hy, hy'⟩))
  · have hdelta := exec_slot full ends x g c
    have hslot := h.slot
    rw [count_append]
    rw [← singleton_append, count_append] at hslot
    omega
  · intro hyes hdone
    rw [hadmitted] at hyes
    have hold : c.invoked ≠ [] ∨ c.abandoned = true →
        (exec full ends x g c).2.1.released = true ∨ .release ∈ (exec full ends x g c).2.2 ++ k := by
      intro hold
      rcases h.debt hyes hold with hreleased | hmem
      · exact .inl (mreleased hreleased)
      · rcases mem_cons.mp hmem with hx | hmem
        · exact .inl (exec_release full ends x g c hx.symm)
        · exact .inr (mem_append_right _ hmem)
    rcases exec_debt full ends x g c (h.ordinary hyes x mem_cons_self) hdone with hr | hr | hr
    · exact hold (.inl hr)
    · exact hold (.inr hr)
    · exact .inr (mem_append_left _ hr)
  · intro hanswered hpending
    rcases exec_scheduled full ends x g c hanswered hpending with ⟨ha, hp⟩ | hmem
    · rcases h.scheduled ha hp with hidles | hmem | hmem
      · exact .inl (by omega)
      · rcases mem_cons.mp hmem with rfl | hmem
        · exact .inl (Nat.succ_pos _)
        · exact .inr (.inl (mem_append_right _ hmem))
      · rcases mem_cons.mp hmem with hx | hmem
        · rcases exec_claimIdle full ends x g c hx.symm with hr | hr
          · rw [hr] at hanswered
            cases hanswered
          · exact absurd hr hpending
        · exact .inr (.inr (mem_append_right _ hmem))
    · exact .inr (.inl (mem_append_left _ hmem))
  · intro hyes hstarted hexpired
    rw [hadmitted] at hyes
    have hnew := exec_waiting full ends x g c hstarted hexpired
    have hleft : ∀ {y : Instr}, y ∈ (exec full ends x g c).2.2 → y ∈ (exec full ends x g c).2.2 ++ k :=
      fun hy => mem_append_left _ hy
    have hright : ∀ {y : Instr}, y ∈ k → y ∈ (exec full ends x g c).2.2 ++ k :=
      fun hy => mem_append_right _ hy
    -- the instruction that arms the deadline is executed now, or it still comes
    have hx : x = .arm ∨ x = .enqueue ∨ x = .expireFull ∨ x = .expireLate →
        (exec full ends x g c).2.1.deadline = true ∨ .arm ∈ (exec full ends x g c).2.2 ++ k ∨
          .enqueue ∈ (exec full ends x g c).2.2 ++ k ∨
          .expireFull ∈ (exec full ends x g c).2.2 ++ k ∨
          .expireLate ∈ (exec full ends x g c).2.2 ++ k := by
      intro hx
      rcases hnew hx with hr | hr | hr
      · exact .inl hr
      · exact .inr (.inl (hleft hr))
      · exact .inr (.inr (.inr (.inl (hleft hr))))
    rcases h.waiting hyes (hback mstarted hstarted) (hback mexpired hexpired) with
      hr | hr | hr | hr | hr
    · exact .inl (mdeadline hr)
    · rcases mem_cons.mp hr with hr | hr
      · exact hx (.inl hr.symm)
      · exact .inr (.inl (hright hr))
    · rcases mem_cons.mp hr with hr | hr
      · exact hx (.inr (.inl hr.symm))
      · exact .inr (.inr (.inl (hright hr)))
    · rcases mem_cons.mp hr with hr | hr
      · exact hx (.inr (.inr (.inl hr.symm)))
      · exact .inr (.inr (.inr (.inl (hright hr))))
    · rcases mem_cons.mp hr with hr | hr
      · exact hx (.inr (.inr (.inr hr.symm)))
      · exact .inr (.inr (.inr (.inr (hright hr))))
  · intro hexpired hanswered
    have hdelivers : x.delivers = true → (exec full ends x g c).2.1.pendingAnswer ≠ [] :=
      fun hx => exec_pending full ends x g c hanswered (.inr hx)
    rcases exec_late full ends x g c hexpired with hr | hr | ⟨y, hy, hy'⟩
    · rcases h.late hr (hback manswered hanswered) with hr | hr | ⟨y, hy, hy'⟩
      · exact .inl hr
      · exact .inr (.inl (exec_pending full ends x g c hanswered (.inl hr)))
      · rcases mem_cons.mp hy with rfl | hy
        · exact .inr (.inl (hdelivers hy'))
        · exact .inr (.inr ⟨y, mem_append_right _ hy, hy'⟩)
    · exact .inl (hshutdown hr)
    · exact .inr (.inr ⟨y, mem_append_left _ hy, hy'⟩)
  · intro howned hanswered
    rcases exec_owned full ends x g c howned with hr | hr
    · rcases h.working hr (hback manswered hanswered) with hr | hr | ⟨y, hy, hy'⟩ | hr
      · exact .inl (exec_pending full ends x g c hanswered (.inl hr))
      · rcases mem_cons.mp hr with hr | hr
        · rcases exec_work full ends x g c hr.symm with hr | ⟨y, hy, hy'⟩
          · exact .inr (.inr (.inr hr))
          · exact .inr (.inr (.inl ⟨y, mem_append_left _ hy, hy'⟩))
        · exact .inr (.inl (mem_append_right _ hr))
      · rcases mem_cons.mp hy with rfl | hy
        · exact .inl (exec_pending full ends _ g c hanswered (.inr hy'))
        · exact .inr (.inr (.inl ⟨y, mem_append_right _ hy, hy'⟩))
      · exact .inr (.inr (.inr (mescaped hr)))
    · exact .inr (.inl (mem_append_left _ hr))
  · intro habandoned
    rcases exec_abandoned full ends x g c habandoned with hr | ⟨hx, howned, hanswered, hpending⟩
    · exact mescaped (h.abandoned hr)
    · obtain ⟨hwork, hdelivers⟩ := hend hx
      rcases h.working howned hanswered with hr | hr | ⟨y, hy, hy'⟩ | hr
      · exact absurd hpending hr
      · rcases mem_cons.mp hr with hr | hr
        · rw [hx] at hr
          cases hr
        · exact absurd hr hwork
      · rcases mem_cons.mp hy with rfl | hy
        · rw [hx] at hy'
          cases hy'
        · rw [hdelivers howned y hy] at hy'
          cases hy'
      · exact mescaped hr
  · intro hno
    rw [hadmitted] at hno
    obtain ⟨hqueued, hidles, hdeadline, hregistered, habandoned, hruns, hacts⟩ := h.inline hno
    obtain ⟨equeued, eidles, edeadline, eregistered, eabandoned, eruns, enext⟩ :=
      exec_inline full ends x g c (hacts x mem_cons_self)
    rw [equeued, eidles, edeadline, eregistered, eabandoned, eruns, enext]
    exact ⟨hqueued, hidles, hdeadline, hregistered, habandoned, hruns,
      fun y hy => hacts y (hrest hy)⟩
  · intro hyes y hy
    rcases mem_append.mp hy with hy | hy
    · exact exec_not_inline full ends x g c hy
    · rw [hadmitted] at hyes
      exact h.ordinary hyes y (hrest hy)

theorem CallInv.perm {stopping : Bool} {acts' : List Instr} (h : CallInv stopping acts c)
    (hperm : acts.Perm acts') : CallInv stopping acts' c := by
  have hmem : ∀ {x : Instr}, x ∈ acts ↔ x ∈ acts' := hperm.mem_iff
  constructor
  · rw [← hperm.countP_eq]
    exact h.once
  · rw [← hperm.count_eq, ← hperm.count_eq]
    exact h.starts
  · rw [← hperm.count_eq]
    exact h.runs
  · exact h.flags
  · exact fun x hx => h.stopped x (hmem.mpr hx)
  · simp only [← hmem]
    exact h.finished
  · rw [← hperm.count_eq]
    exact h.slot
  · simp only [← hmem]
    exact h.debt
  · simp only [← hmem]
    exact h.scheduled
  · simp only [← hmem]
    exact h.waiting
  · simp only [← hmem]
    exact h.late
  · simp only [← hmem]
    exact h.working
  · exact h.abandoned
  · simp only [← hmem]
    exact h.inline
  · simp only [← hmem]
    exact h.ordinary

/-- An instruction that a thread begins with. -/
@[simp] def Instr.begins : Instr → Bool
  | .enter | .retire | .abandon | .claimIdle | .expireLate | .claimNow | .settle => true
  | _ => false

theorem CallInv.cons {stopping : Bool} (h : CallInv stopping acts c)
    (hadmitted : c.admitted = true) (hx : x.begins = true)
    (hshutdown : x.ofShutdown = true → stopping = true)
    (henter : x = .enter → acts.count .enqueue + c.queued.toNat + acts.count .enter +
      c.started.toNat = 0)
    : CallInv stopping (x :: acts) c := by
  have hmem : ∀ {y : Instr}, y ∈ acts → y ∈ x :: acts := fun hy => mem_cons_of_mem _ hy
  have hcount : ∀ y : Instr, y.begins = false → (x :: acts).count y = acts.count y := by
    intro y hy
    apply count_cons_of_ne
    rintro rfl
    rw [hx] at hy
    cases hy
  have hkind : x.answers = false ∧ x.finishes = false ∧ x.isInline = false := by
    cases x <;> simp_all [Instr.answers, Instr.finishes, Instr.isInline]
  constructor
  · rw [countP_cons_of_neg (by rw [hkind.1]; exact Bool.false_ne_true)]
    exact h.once
  · have hstarts := h.starts
    rw [hcount _ rfl]
    by_cases hx : x = .enter
    · have hzero := henter hx
      rw [hx, count_cons_self]
      omega
    · rw [count_cons_of_ne hx]
      exact hstarts
  · rw [hcount _ rfl]
    exact h.runs
  · exact h.flags
  · intro y hy hy'
    rcases mem_cons.mp hy with rfl | hy
    · exact hshutdown hy'
    · exact h.stopped y hy hy'
  · rintro hyes (hr | hr | ⟨y, hy, hy'⟩)
    · exact h.finished hyes (.inl hr)
    · exact h.finished hyes (.inr (.inl hr))
    · rcases mem_cons.mp hy with rfl | hy
      · rw [hkind.2.1] at hy'
        cases hy'
      · exact h.finished hyes (.inr (.inr ⟨y, hy, hy'⟩))
  · rw [hcount _ rfl]
    exact h.slot
  · exact fun hyes hdone => (h.debt hyes hdone).imp id hmem
  · exact fun ha hp => (h.scheduled ha hp).imp id (Or.imp hmem hmem)
  · exact fun hyes hs he => (h.waiting hyes hs he).imp id
      (Or.imp hmem (Or.imp hmem (Or.imp hmem hmem)))
  · exact fun he ha => (h.late he ha).imp id (Or.imp id fun ⟨y, hy, hy'⟩ => ⟨y, hmem hy, hy'⟩)
  · exact fun ho ha => (h.working ho ha).imp id
      (Or.imp hmem (Or.imp (fun ⟨y, hy, hy'⟩ => ⟨y, hmem hy, hy'⟩) id))
  · exact h.abandoned
  · intro hno
    rw [hadmitted] at hno
    cases hno
  · intro hyes y hy
    rcases mem_cons.mp hy with rfl | hy
    · exact hkind.2.2
    · exact h.ordinary hyes y hy

theorem CallInv.takeIdle {stopping : Bool} (h : CallInv stopping acts c)
    (hmem : .claimIdle ∈ acts) :
    CallInv stopping acts { c with idles := c.idles - 1 } :=
  { h with
    flags := { h.flags with }
    scheduled := fun _ _ => .inr (.inr hmem)
    inline := fun hno => by
      obtain ⟨hqueued, hidles, hrest⟩ := h.inline hno
      exact ⟨hqueued, by rw [hidles], hrest⟩ }

theorem CallInv.takeDeadline {stopping : Bool} (h : CallInv stopping acts c)
    (hmem : .expireLate ∈ acts) :
    CallInv stopping acts { c with deadline := false } :=
  { h with
    flags := { h.flags with }
    waiting := fun _ _ _ => .inr (.inr (.inr (.inr hmem)))
    inline := fun hno => by
      obtain ⟨hqueued, hidles, -, hrest⟩ := h.inline hno
      exact ⟨hqueued, hidles, rfl, hrest⟩ }

theorem CallInv.dequeue {stopping : Bool} (h : CallInv stopping acts c) :
    CallInv stopping acts { c with queued := false } :=
  { h with
    flags := { h.flags with }
    starts := by
      have hstarts := h.starts
      show _ + false.toNat + _ + c.started.toNat ≤ 1
      rw [Bool.toNat_false]
      omega
    inline := fun hno => ⟨rfl, (h.inline hno).2⟩ }

theorem CallInv.admitted_of_queued {stopping : Bool} (h : CallInv stopping acts c)
    (hqueued : c.queued = true) : c.admitted = true := by
  cases hno : c.admitted with
  | true => rfl
  | false =>
    rw [(h.inline hno).1] at hqueued
    cases hqueued

theorem CallInv.take {stopping : Bool} (h : CallInv stopping acts c) (hqueued : c.queued = true) :
    CallInv stopping (.enter :: .retire :: .abandon :: acts) { c with queued := false } := by
  have hadmitted := h.admitted_of_queued hqueued
  have hshutdown : ∀ {x : Instr}, x.ofShutdown = false → x.ofShutdown = true → stopping = true := by
    intro x hno hyes
    rw [hno] at hyes
    cases hyes
  have habandon := h.dequeue.cons hadmitted (x := .abandon) rfl (hshutdown rfl) (by simp)
  have hretire := habandon.cons hadmitted (x := .retire) rfl (hshutdown rfl) (by simp)
  refine hretire.cons hadmitted rfl (hshutdown rfl) fun _ => ?_
  have hstarts := h.starts
  rw [hqueued, Bool.toNat_true] at hstarts
  show _ + false.toNat + _ + c.started.toNat = 0
  rw [Bool.toNat_false]
  simp only [count_cons_of_ne, ne_eq, reduceCtorEq, not_false_eq_true]
  omega

theorem CallInv.setWorker {stopping : Bool} (h : CallInv stopping acts c) (worker : List Instr) :
    CallInv stopping acts { c with worker := worker } :=
  { h with flags := { h.flags with } }

theorem CallInv.stop {stopping : Bool} (h : CallInv stopping acts c) :
    CallInv true acts c :=
  { h with
    flags := ⟨h.flags.owned, fun _ => .inr rfl, h.flags.expired, fun _ _ _ => rfl⟩
    stopped := fun _ _ _ => rfl
    late := fun _ _ => .inl rfl }

/-! ## What a worker still does -/

/-- What comes later in the worker that is about to execute an instruction. -/
def Below (owned abandoned : Bool) (x : Instr) (rest : List Instr) : Prop :=
  match x with
  | .enter => .retire ∈ rest
  | .work | .deliver _ | .idleAdd | .recheck | .claimNow | .refuseNow =>
    owned = true ∧ .retire ∈ rest
  | .callback _ | .drop | .release | .uncount =>
    (owned = true ∧ .retire ∈ rest) ∨ .uncountStopped ∈ rest ∨ abandoned = true
  | .refuseStopped => .uncountStopped ∈ rest
  | .uncountStopped => True
  | .retire => .retire ∉ rest
  | .abandon => rest = []
  | _ => False

/-- A worker answers before it retires, or before it leaves the count of the answers in flight. -/
def Nest (owned abandoned : Bool) : List Instr → Prop
  | [] => True
  | x :: rest => Below owned abandoned x rest ∧ Nest owned abandoned rest

theorem Nest.mono {owned abandoned owned' abandoned' : Bool} {l : List Instr}
    (h : Nest owned abandoned l) (howned : owned = true → owned' = true)
    (habandoned : abandoned = true → abandoned' = true) : Nest owned' abandoned' l := by
  induction l with
  | nil => trivial
  | cons x rest ih =>
    refine ⟨?_, ih h.2⟩
    have hx := h.1
    cases x <;> simp only [Below] at hx ⊢ <;> tauto

theorem Nest.of_mem {owned abandoned : Bool} {l : List Instr} (h : Nest owned abandoned l)
    (hx : x ∈ l) : ∃ rest, Below owned abandoned x rest ∧ ∀ y ∈ rest, y ∈ l := by
  induction l with
  | nil => cases hx
  | cons z k ih =>
    rcases mem_cons.mp hx with rfl | hx
    · exact ⟨k, h.1, fun y hy => mem_cons_of_mem _ hy⟩
    · obtain ⟨rest, hbelow, hrest⟩ := ih h.2 hx
      exact ⟨rest, hbelow, fun y hy => mem_cons_of_mem _ (hrest y hy)⟩

theorem Nest.after {full : Bool} {ends : WorkEnd} {g : Shared} {k : List Instr}
    (h : Nest c.owned c.abandoned (x :: k)) :
    Nest (exec full ends x g c).2.1.owned (exec full ends x g c).2.1.abandoned
      ((exec full ends x g c).2.2 ++ k) := by
  obtain ⟨hbelow, hrest⟩ := h
  obtain ⟨-, -, -, -, -, mabandoned, -, mowned, -, -⟩ := exec_mono full ends x g c
  have hrest' := hrest.mono mowned mabandoned
  revert hbelow hrest'
  cases x <;> simp only [exec, refuse, expire, claimPending] <;> (repeat' split) <;>
    simp_all [Nest, Below]

/-- The instructions of the main thread, with what it has refused. -/
def OnMain (expired : Bool) (x : Instr) : Prop :=
  match x with
  | .enter | .work | .retire | .abandon => False
  | .deliver _ => expired = true
  | _ => True

theorem OnMain.mono {expired expired' : Bool} (h : OnMain expired x)
    (hexpired : expired = true → expired' = true) : OnMain expired' x := by
  cases x with
  | deliver answer => exact hexpired h
  | _ => exact h

theorem OnMain.after {full : Bool} {ends : WorkEnd} {g : Shared} (h : OnMain c.expired x)
    {y : Instr} (hy : y ∈ (exec full ends x g c).2.2) :
    OnMain (exec full ends x g c).2.1.expired y := by
  revert hy
  cases x <;> simp only [exec, refuse, expire, claimPending] <;> (repeat' split) <;>
    simp_all [OnMain] <;> rintro (rfl | rfl) <;> trivial

end Offload
