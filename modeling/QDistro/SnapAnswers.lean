/-
# What a recovery answers

`recover` says `aborted` when it left the old tree in place and `completed` when it put the clone
there.  The journal of the two renames has one phase for the moment before the first and the moment
after the second: a state path that is there again is taken for one that was never moved.  The
answer is then false, and it is also false when the journal names the paths wrongly between the two
renames, because the old tree is moved back instead of the clone.
-/
import QDistro.SnapRecovery

namespace SnapSwap

open EffectRules

variable {τ : Type} {u : UnicodeDb} {p : StatePath} {temp rejected : Path} {old clone : τ}

/-- An answer and the disk that it describes. -/
def Truthful (p : StatePath) (old clone : τ) : Outcome → Fs τ → Prop
  | .aborted, fs => fs p.text = some (.dir old)
  | .completed, fs => fs p.text = some (.dir clone)
  | _, _ => True

/-- What the moved phase puts at a state path that is not there. -/
def incoming (fs : Fs τ) (temp rejected : Path) : Option (Node τ) :=
  if temp ≠ [] ∧ (fs temp).isSome = true then fs temp
  else if rejected ≠ [] then fs rejected
  else none

/-- A disk on which the moved phase, if that is what the journal says, is what it looks like: the
tree at the state path is the old one, or there is none and the clone is what comes in. -/
def Unmistakable (u : UnicodeDb) (p : StatePath) (old clone : τ) (fs : Fs τ) : Prop :=
  ∀ text, fs (markerPath p) = some (.file text) → field (parseMarker u text) "phase" = phaseMoved →
    (∀ node, fs p.text = some node → node = .dir old) ∧
    (fs p.text = none → ∀ node, incoming fs (field (parseMarker u text) "temp")
      (field (parseMarker u text) "rejected") = some node → node = .dir clone)

/-- How a finished move ends. -/
def Finish (p : StatePath) (temp rejected : Path) (fs : Fs τ) (o : Outcome) (m : Machine τ) : Prop :=
  ∃ node, m.fs p.text = some node ∧ ((o = .aborted ∧ fs p.text = some node) ∨
    (o = .completed ∧ fs p.text = none ∧ incoming fs temp rejected = some node))

theorem marker_ne (p : StatePath) : p.text ≠ markerPath p := by
  intro h
  exact absurd (List.append_right_eq_self.mp h.symm) (by decide)

theorem answer_triple (o : Outcome) (w : Option (Node τ)) :
    Triple (fun m : Machine τ => m.fs p.text = w) (do clearMarker p; pure o)
      (fun o' m => o' = o ∧ m.fs p.text = w) (fun e _ => e = .crash) := by
  have hclear : Triple (fun m : Machine τ => m.fs p.text = w) (clearMarker p)
      (fun _ m => m.fs p.text = w) (fun e _ => e = .crash) := by
    refine effect_keeps (P := fun g => g p.text = w) (fun _ _ => rfl) fun g hg => ?_
    rw [Function.update_of_ne (marker_ne p)]
    exact hg
  exact hclear.bind fun _ => .pure fun _ hm => ⟨rfl, hm⟩

theorem moveIn_triple {source : Path} {node : Node τ} (fs : Fs τ) (hs : fs p.text = none)
    (hnode : fs source = some node) :
    Triple (fun m : Machine τ => m.fs = fs)
      (do rename source p.text; clearMarker p; pure Outcome.completed)
      (fun o m => o = .completed ∧ m.fs p.text = some node) (fun e _ => e = .crash) := by
  have hne : p.text ≠ source := by
    rintro rfl
    rw [hs] at hnode
    cases hnode
  refine (rename_triple (P := fun g => g = fs) (Q := fun g => g p.text = some node)
    (fun _ _ => rfl) ?_ ?_ ?_).bind fun _ => answer_triple _ _
  · rintro g rfl
    rw [hnode]
    exact Option.some_ne_none _
  · rintro g rfl t ht
    rw [hs] at ht
    cases ht
  · rintro g n rfl hn
    rw [Function.update_of_ne hne, Function.update_self, ← hn, hnode]

theorem leave_triple (part : τ) {w : Option (Node τ)} (ht : p.text ≠ temp) :
    Triple (fun m : Machine τ => m.fs p.text = w)
      (do dropClone part temp; clearMarker p; pure Outcome.aborted)
      (fun o m => o = .aborted ∧ m.fs p.text = w) (fun e _ => e = .crash) := by
  refine (dropClone_triple (P := fun g => g p.text = w) part (fun _ _ => rfl) fun g _ hg => ?_).bind
    fun _ => answer_triple _ _
  rw [Function.update_of_ne ht]
  exact hg

/-- **What the moved phase answers, and what it leaves.**  Only a crash or a disk without any of the
trees keeps it from answering. -/
theorem finishMove_triple (part : τ) (ht : p.text ≠ temp) (fs : Fs τ) :
    Triple (fun m => m.fs = fs) (finishMove part p temp rejected) (Finish p temp rejected fs)
      (fun e _ => e = .crash ∨ (fs p.text = none ∧ incoming fs temp rejected = none)) := by
  rintro ⟨g, k⟩ (rfl : g = fs)
  rw [finishMove, Act.bind_eq_of_ok (lexists_eq _ _), Act.bind_eq_of_ok (lexists_eq _ _),
    Act.bind_eq_of_ok (lexists_eq _ _)]
  dsimp only
  rcases Option.eq_none_or_eq_some (g p.text) with hs | ⟨node, hs⟩
  on_goal 2 =>
    rw [if_pos (by rw [hs]; rfl)]
    exact (leave_triple part ht).conseq (fun m (hm : m.fs = g) => congrFun hm _)
      (fun o m hm => ⟨node, hm.2.trans hs, .inl ⟨hm.1, hs⟩⟩) (fun _ _ => .inl) ⟨g, k⟩ rfl
  · rw [if_neg (by rw [hs]; exact Bool.false_ne_true)]
    have hmove : ∀ {source : Path} {node : Node τ}, g source = some node →
        incoming g temp rejected = some node → Ends (Finish p temp rejected g)
          (fun e _ => e = .crash ∨ (g p.text = none ∧ incoming g temp rejected = none))
          ((do rename source p.text; clearMarker p; pure Outcome.completed : SwapM τ Outcome)
            ⟨g, k⟩) := fun {_} {node} hnode hin =>
      (moveIn_triple g hs hnode).conseq (fun _ => id)
        (fun o m hm => ⟨node, hm.2, .inr ⟨hm.1, hs, hin⟩⟩) (fun _ _ => .inl) ⟨g, k⟩ rfl
    by_cases hc : temp ≠ [] ∧ (g temp).isSome = true
    · obtain ⟨node, hnode⟩ := Option.isSome_iff_exists.mp hc.2
      rw [if_pos hc]
      exact hmove hnode ((if_pos hc).trans hnode)
    · have hin : incoming g temp rejected = if rejected ≠ [] then g rejected else none := if_neg hc
      rw [if_neg hc]
      by_cases hr : rejected ≠ [] ∧ (g rejected).isSome = true
      · obtain ⟨node, hnode⟩ := Option.isSome_iff_exists.mp hr.2
        rw [if_pos hr.1] at hin
        rw [if_pos hr]
        exact hmove hnode (hin.trans hnode)
      · rw [if_neg hr]
        refine Or.inr ⟨hs, hin.trans ?_⟩
        split
        · next hne => simpa [hne] using hr
        · rfl

/-! ## The answer after a crash -/

theorem le_length_escaped (u : UnicodeDb) (s : List Char) : s.length ≤ (escaped u s).length := by
  have hone : ∀ q c, PyText.reprChar u q c ≠ [] := by
    intro q c
    unfold PyText.reprChar
    split_ifs <;> simp
  unfold escaped
  generalize quoteOf s = q
  induction s with
  | nil => exact Nat.zero_le _
  | cons c rest ih =>
    have := List.length_pos_iff.mpr (hone q c)
    rw [List.flatMap_cons, List.length_append, List.length_cons]
    omega

theorem text_ne_escaped (ms pid : ℕ) : p.text ≠ escaped u (siblingTemp p ms pid) := by
  intro heq
  have hl := le_length_escaped u (siblingTemp p ms pid)
  rw [← heq] at hl
  simp only [siblingTemp, StatePath.text, List.length_append, List.length_cons] at hl
  omega

theorem rename_runs (fs : Fs τ) (k : ℕ) (source target : Path) :
    (rename source target ⟨fs, k + 1⟩).1 = .error .failed ∨
      ∃ g, rename source target ⟨fs, k + 1⟩ = (.ok (), ⟨g, k⟩) := by
  rw [rename, Act.bind_eq_of_ok (look_eq _ _)]
  dsimp only
  generalize fs source = node, fs target = there
  rcases node with _ | node
  · exact .inl rfl
  rcases there with _ | t | text
  · exact .inr ⟨_, rfl⟩
  · exact .inl rfl
  · exact .inr ⟨_, rfl⟩

theorem finishMove_runs (part : τ) (fs : Fs τ) :
    (finishMove part p temp rejected ⟨fs, 3⟩).1 ≠ .error .crash := by
  have hmove : ∀ source, ((do rename source p.text; clearMarker p; pure Outcome.completed :
      SwapM τ Outcome) ⟨fs, 3⟩).1 ≠ .error .crash := by
    intro source
    rcases hres : rename source p.text ⟨fs, 3⟩ with ⟨r, m⟩
    rcases rename_runs fs 2 source p.text with h | ⟨g, h⟩
    · rw [hres] at h
      obtain rfl : r = _ := h
      rw [Act.bind_eq_of_error hres]
      exact fun h => by cases h
    · rw [Act.bind_eq_of_ok h]
      exact fun h => by cases h
  rw [finishMove, Act.bind_eq_of_ok (lexists_eq _ _), Act.bind_eq_of_ok (lexists_eq _ _),
    Act.bind_eq_of_ok (lexists_eq _ _)]
  dsimp only
  split
  · have hdrop : ∃ g k, dropClone part temp ⟨fs, 3⟩ = (.ok (), ⟨g, k + 1⟩) := by
      rw [dropClone, Act.bind_eq_of_ok (lexists_eq _ _)]
      dsimp only
      split
      · exact ⟨_, 0, rfl⟩
      · exact ⟨_, 2, rfl⟩
    obtain ⟨g, k, hdrop⟩ := hdrop
    rw [Act.bind_eq_of_ok hdrop]
    exact fun h => by cases h
  split
  · exact hmove temp
  split
  · exact hmove rejected
  · exact fun h => by cases h

/-- **On a disk in the moved phase, recovery tells the truth exactly when nothing can be mistaken.** -/
theorem finishMove_truthful (ht : p.text ≠ temp) (fs : Fs τ) :
    (∀ (part : τ) k outcome m, finishMove part p temp rejected ⟨fs, k⟩ = (.ok outcome, m) →
      Truthful p old clone outcome m.fs) ↔
    (∀ node, fs p.text = some node → node = .dir old) ∧
      (fs p.text = none → ∀ node, incoming fs temp rejected = some node → node = .dir clone) := by
  constructor
  · intro h
    -- with the three effects it needs, the recovery answers
    have hanswer : (fs p.text ≠ none ∨ incoming fs temp rejected ≠ none) → ∃ outcome m,
        Truthful p old clone outcome m.fs ∧ Finish p temp rejected fs outcome m := by
      intro hthere
      have hend : Ends _ _ (finishMove old p temp rejected ⟨fs, 3⟩) :=
        finishMove_triple old ht fs ⟨fs, 3⟩ rfl
      have hruns : (finishMove old p temp rejected ⟨fs, 3⟩).1 ≠ .error .crash :=
        finishMove_runs old fs
      rcases hres : finishMove old p temp rejected ⟨fs, 3⟩ with ⟨e | outcome, m⟩
      · rw [hres] at hend hruns
        rcases hend with rfl | ⟨hs, hin⟩
        · exact absurd rfl hruns
        · exact absurd hthere (by simp [hs, hin])
      · rw [hres] at hend
        exact ⟨outcome, m, h old 3 outcome m hres, hend⟩
    refine ⟨fun node hs => ?_, fun hs node hin => ?_⟩
    · obtain ⟨outcome, m, htrue, n, hm, ⟨rfl, hs'⟩ | ⟨-, hs', -⟩⟩ := hanswer (.inl (by simp [hs]))
      · exact Option.some.inj (hs.symm.trans (hs'.trans (hm.symm.trans htrue)))
      · rw [hs] at hs'
        cases hs'
    · obtain ⟨outcome, m, htrue, n, hm, ⟨-, hs'⟩ | ⟨rfl, -, hin'⟩⟩ := hanswer (.inr (by simp [hin]))
      · rw [hs] at hs'
        cases hs'
      · exact Option.some.inj (hin.symm.trans (hin'.trans (hm.symm.trans htrue)))
  · rintro ⟨hold, hclone⟩ part k outcome m heq
    have hend : Ends _ _ (finishMove part p temp rejected ⟨fs, k⟩) :=
      finishMove_triple part ht fs ⟨fs, k⟩ rfl
    rw [heq] at hend
    obtain ⟨node, hm, ⟨rfl, hs⟩ | ⟨rfl, hs, hin⟩⟩ := hend
    · rw [hold node hs] at hm
      exact hm
    · rw [hclone hs node hin] at hm
      exact hm

/-- Whatever a recovery answers on a disk is true. -/
def AnswersTruthfully (u : UnicodeDb) (p : StatePath) (fuel : ℕ) (old clone : τ) (disk : Fs τ) :
    Prop :=
  ∀ part k outcome m, recover u part fuel p ⟨disk, k⟩ = (.ok outcome, m) →
    Truthful p old clone outcome m.fs

theorem answers_journalled {phase snapshot : List Char} {disk : Fs τ} (fuel : ℕ)
    (ht : p.text ≠ escaped u temp) (hplain : Plain u phase)
    (hj : Journalled u p temp rejected snapshot phase disk)
    (hphase : (phase = phaseMaterialized ∧ disk p.text = some (.dir old)) ∨
      phase = phaseExchanged ∨ phase = phaseMoved) :
    AnswersTruthfully u p fuel old clone disk ↔ Unmistakable u p old clone disk := by
  obtain ⟨h1, h2, h3⟩ := @field_journal u phase temp rejected snapshot
  rw [hplain.escaped] at h1
  have hrecover : ∀ part k, recover u part fuel p ⟨disk, k⟩ = recoverFrom part fuel p phase
      (escaped u temp) (escaped u rejected) ⟨disk, k⟩ := by
    intro part k
    rw [recover_journalled (m := ⟨disk, k⟩) hj, hplain.escaped]
  have hread : Unmistakable u p old clone disk ↔ (phase = phaseMoved →
      (∀ node, disk p.text = some node → node = .dir old) ∧ (disk p.text = none →
        ∀ node, incoming disk (escaped u temp) (escaped u rejected) = some node →
          node = .dir clone)) := by
    constructor
    · intro h
      have := h _ hj
      rwa [h1, h2, h3] at this
    · intro h text htext
      obtain rfl := Node.file.inj (Option.some.inj (htext.symm.trans hj))
      rwa [h1, h2, h3]
  rw [hread]
  rcases hphase with ⟨rfl, hold⟩ | rfl | rfl
  · refine iff_of_true (fun part k outcome m heq => ?_) fun h => absurd h (by decide)
    have hend := leave_triple part ht ⟨disk, k⟩ hold
    rw [hrecover, recoverFrom, if_pos rfl] at heq
    rw [heq] at hend
    obtain ⟨rfl, hm⟩ := hend
    exact hm
  · refine iff_of_true (fun part k outcome m heq => ?_) fun h => absurd h (by decide)
    have hany : ∀ {α : Type} (x : SwapM τ α),
        Triple (fun _ => True) x (fun _ _ => True) (fun _ _ => True) := by
      intro α x m _
      rcases x m with ⟨e | a, m'⟩ <;> trivial
    have hend : Ends (fun o _ => o = .cleaned) (fun _ _ => True) (recoverFrom part fuel p
        phaseExchanged (escaped u temp) (escaped u rejected) ⟨disk, k⟩) := by
      rw [recoverFrom, if_neg (by decide), if_pos rfl]
      exact (hany _).bind (fun _ => (hany _).bind fun _ => .pure fun _ _ => rfl) _ trivial
    rw [← hrecover, heq] at hend
    obtain rfl : outcome = .cleaned := hend
    trivial
  · have hmoved : ∀ part k, recover u part fuel p ⟨disk, k⟩ =
        finishMove part p (escaped u temp) (escaped u rejected) ⟨disk, k⟩ := by
      intro part k
      rw [hrecover, recoverFrom, if_neg (by decide), if_neg (by decide), if_pos rfl]
    rw [forall_prop_of_true rfl, ← finishMove_truthful ht, AnswersTruthfully]
    simp only [hmoved]

/-- **The answer of a recovery after a crash anywhere in a restore** is true exactly when the disk
that the crash left cannot be mistaken. -/
theorem recover_answers_truthfully (u : UnicodeDb) (p : StatePath) (env : Env τ) (snapshot : Path)
    (fs : Fs τ) (old : τ) (hs : fs p.text = some (.dir old)) (hm : fs (markerPath p) = none)
    (n : ℕ) :
    AnswersTruthfully u p env.fuel old env.clone (restore u env p snapshot ⟨fs, n⟩).2.fs ↔
      Unmistakable u p old env.clone (restore u env p snapshot ⟨fs, n⟩).2.fs := by
  have hclear : ∀ {disk : Fs τ}, disk (markerPath p) = none →
      (AnswersTruthfully u p env.fuel old env.clone disk ↔
        Unmistakable u p old env.clone disk) := by
    intro disk hnone
    refine iff_of_true (fun part k outcome m heq => ?_) fun text htext => ?_
    · rw [recover_clear (m := ⟨disk, k⟩) hnone] at heq
      cases heq
      trivial
    · rw [hnone] at htext
      cases htext
  have ht : p.text ≠ escaped u (siblingTemp p env.ms env.pid) := text_ne_escaped _ _
  have hM : Plain u phaseMaterialized := plain_word (forall_mem_of_all (by decide))
  have hX : Plain u phaseExchanged := plain_word (forall_mem_of_all (by decide))
  have hV : Plain u phaseMoved := plain_word (forall_mem_of_all (by decide))
  rcases @restore_ends τ u p fs old env snapshot hs hm n with ⟨-, hsame⟩ | ⟨rejected, -, hmid⟩
  · rw [hsame]
    exact hclear hm
  · cases hmid with
    | settled h => exact hclear h.1
    | materialized hj hs => exact answers_journalled _ ht hM hj (.inl ⟨rfl, hs⟩)
    | exchanging hj hs hr => exact answers_journalled _ ht hX hj (.inr (.inl rfl))
    | unused hj hs h => exact answers_journalled _ ht hX hj (.inr (.inl rfl))
    | exchanged hj hs h hr => exact answers_journalled _ ht hX hj (.inr (.inl rfl))
    | displaced hj hs h hr => exact answers_journalled _ ht hX hj (.inr (.inl rfl))
    | moving hj hs => exact answers_journalled _ ht hV hj (.inr (.inr rfl))
    | between hj hs h hr => exact answers_journalled _ ht hV hj (.inr (.inr rfl))
    | moved hj hs h hr => exact answers_journalled _ ht hV hj (.inr (.inr rfl))

theorem recover_st_answers :
    AnswersTruthfully .ascii stPath 2 0 1
      (restore .ascii exchangeEnv stPath ['n'] ⟨oneTree stPath, 9⟩).2.fs ↔
    Unmistakable .ascii stPath 0 1
      (restore .ascii exchangeEnv stPath ['n'] ⟨oneTree stPath, 9⟩).2.fs :=
  recover_answers_truthfully .ascii stPath exchangeEnv ['n'] (oneTree stPath) 0 (by decide +kernel)
    (by decide +kernel) 9

/-- A restore by two renames that is cut short before the journal is removed. -/
def renamed : Fs ℕ :=
  (restore .ascii { exchangeEnv with allowExchange := false } stPath ['n']
    ⟨oneTree stPath, 10⟩).2.fs

/-- **The restored clone is reported as an aborted restore.** -/
theorem recover_calls_clone_aborted : ¬ AnswersTruthfully .ascii stPath 2 0 1 renamed := by
  intro h
  have hanswer : (recover .ascii 9 2 stPath ⟨renamed, 4⟩).1 = .ok .aborted := by decide +kernel
  have hstate : (recover .ascii 9 2 stPath ⟨renamed, 4⟩).2.fs stPath.text = some (.dir 1) := by
    decide +kernel
  have htrue : Truthful stPath 0 1 .aborted (recover .ascii 9 2 stPath ⟨renamed, 4⟩).2.fs :=
    h 9 4 .aborted _ (Prod.ext hanswer rfl)
  rw [Truthful, hstate] at htrue
  exact absurd htrue (by decide)

end SnapSwap
