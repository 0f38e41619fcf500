/-
# Runs of a deterministic transition system

A system is a function `step : σ → α → σ` that answers every action in every
state; a run is a list of actions.  `Meets ok` says that every step of a run is
taken from a state that allows it, so that a property of runs can be proved for
the runs whose steps all meet a condition.

A system that logs events, newest first, has a property of its log proved event by
event: `Justified P` says that each event satisfies `P` relative to the older ones.

The two rules used by every safety proof are `Meets.invariant` (what one step
preserves, a run preserves) and `Meets.relation` (a preorder that holds across
every step holds across a run).
-/
import Mathlib.Data.List.Basic

namespace TransitionSystem

variable {σ α : Type*} (step : σ → α → σ)

/-- The state after a list of actions. -/
def run (s : σ) (as : List α) : σ := as.foldl step s

@[simp] theorem run_nil (s : σ) : run step s [] = s := rfl

@[simp] theorem run_cons (s : σ) (a : α) (as : List α) :
    run step s (a :: as) = run step (step s a) as := rfl

theorem run_append (s : σ) (as bs : List α) :
    run step s (as ++ bs) = run step (run step s as) bs :=
  List.foldl_append

/-- Every step of the run is allowed by `ok` in the state it is taken from. -/
def Meets (ok : σ → α → Prop) : σ → List α → Prop
  | _, [] => True
  | s, a :: as => ok s a ∧ Meets ok (step s a) as

/-- A condition that can be tested can be tested along a run. -/
instance decidableMeets (ok : σ → α → Prop) [∀ s a, Decidable (ok s a)] :
    ∀ (s : σ) (as : List α), Decidable (Meets step ok s as)
  | _, [] => isTrue trivial
  | s, a :: as => @instDecidableAnd _ _ _ (decidableMeets ok (step s a) as)

variable {step}

variable {s : σ} {as : List α}

theorem Meets.append {ok : σ → α → Prop} {bs : List α} :
    Meets step ok s (as ++ bs) ↔ Meets step ok s as ∧ Meets step ok (run step s as) bs := by
  induction as generalizing s with
  | nil => simp [Meets]
  | cons a as ih => simp [Meets, ih, and_assoc]

/-- A condition that every step satisfies is met by every run. -/
theorem Meets.of_forall {ok : σ → α → Prop} (h : ∀ s a, ok s a) (s : σ) (as : List α) :
    Meets step ok s as := by
  induction as generalizing s with
  | nil => trivial
  | cons a as ih => exact ⟨h s a, ih _⟩

theorem Meets.of_mem {ok : α → Prop} (h : ∀ a ∈ as, ok a) (s : σ) :
    Meets step (fun _ a => ok a) s as := by
  induction as generalizing s with
  | nil => trivial
  | cons a as ih =>
    exact ⟨h a List.mem_cons_self, ih (fun x hx => h x (List.mem_cons_of_mem _ hx)) _⟩

/-- **Invariant rule.**  What every allowed step preserves holds after every run
whose steps are all allowed. -/
theorem Meets.invariant {ok : σ → α → Prop} {P : σ → Prop}
    (hstep : ∀ s a, ok s a → P s → P (step s a)) (hm : Meets step ok s as) (h0 : P s) :
    P (run step s as) := by
  induction as generalizing s with
  | nil => exact h0
  | cons a as ih => exact ih hm.2 (hstep s a hm.1 h0)

/-- **Progress rule.**  A preorder that relates the two ends of every allowed step
from an invariant state relates the two ends of a run. -/
theorem Meets.relation {ok : σ → α → Prop} {P : σ → Prop} {R : σ → σ → Prop} (hrefl : ∀ s, R s s)
    (htrans : ∀ s t u, R s t → R t u → R s u) (hinv : ∀ s a, ok s a → P s → P (step s a))
    (hstep : ∀ s a, ok s a → P s → R s (step s a)) (hm : Meets step ok s as) (h0 : P s) :
    R s (run step s as) := by
  induction as generalizing s with
  | nil => exact hrefl s
  | cons a as ih =>
    exact htrans _ _ _ (hstep s a hm.1 h0) (ih hm.2 (hinv s a hm.1 h0))

theorem Meets.and {ok ok' : σ → α → Prop} (h : Meets step ok s as) (h' : Meets step ok' s as) :
    Meets step (fun s a => ok s a ∧ ok' s a) s as := by
  induction as generalizing s with
  | nil => trivial
  | cons a as ih => exact ⟨⟨h.1, h'.1⟩, ih h.2 h'.2⟩

/-- **Exactness rule.**  Two conditions that agree in every invariant state are met by the same
runs, when either of them keeps the invariant. -/
theorem Meets.congr {ok ok' : σ → α → Prop} {P : σ → Prop}
    (hiff : ∀ s a, P s → (ok s a ↔ ok' s a)) (hstep : ∀ s a, ok s a → P s → P (step s a))
    (h0 : P s) : Meets step ok s as ↔ Meets step ok' s as := by
  induction as generalizing s with
  | nil => exact Iff.rfl
  | cons a as ih =>
    constructor
    · intro h
      exact ⟨(hiff s a h0).mp h.1, (ih (hstep s a h.1 h0)).mp h.2⟩
    · intro h
      have hok := (hiff s a h0).mpr h.1
      exact ⟨hok, (ih (hstep s a hok h0)).mpr h.2⟩

/-- **Consequence rule.**  What follows from an invariant and an allowed step holds at every step. -/
theorem Meets.consequence {ok ok' : σ → α → Prop} {P : σ → Prop}
    (himp : ∀ s a, P s → ok s a → ok' s a) (hstep : ∀ s a, ok s a → P s → P (step s a))
    (hm : Meets step ok s as) (h0 : P s) : Meets step ok' s as := by
  induction as generalizing s with
  | nil => trivial
  | cons a as ih => exact ⟨himp s a h0 hm.1, ih hm.2 (hstep s a hm.1 h0)⟩

/-- **Progress between two states of a run.** -/
theorem Meets.between {ok : σ → α → Prop} {R : σ → σ → Prop} (hrefl : ∀ s, R s s)
    (htrans : ∀ s t u, R s t → R t u → R s u) (hstep : ∀ s a, ok s a → R s (step s a))
    {before mid after : List α} (hm : Meets step ok s (before ++ mid ++ after)) :
    R (run step s before) (run step s (before ++ mid)) := by
  have hmid := (Meets.append.mp (Meets.append.mp hm).1).2
  rw [run_append]
  exact Meets.relation (P := fun _ => True) hrefl htrans (fun _ _ _ _ => trivial)
    (fun s a hok _ => hstep s a hok) hmid trivial

/-! ## Logs -/

variable {ε : Type*}

/-- Every event of a newest-first log satisfies `P` relative to the older events. -/
def Justified (P : List ε → ε → Prop) : List ε → Prop
  | [] => True
  | e :: older => P older e ∧ Justified P older

theorem Justified.of_append {P : List ε → ε → Prop} {newer older : List ε} {e : ε}
    (h : Justified P (newer ++ e :: older)) : P older e := by
  induction newer with
  | nil => exact h.1
  | cons _ _ ih => exact ih h.2

/-- Events that are justified whatever came before them. -/
theorem Justified.append {P : List ε → ε → Prop} {new older : List ε}
    (hnew : ∀ e ∈ new, ∀ t, P t e) (h : Justified P older) : Justified P (new ++ older) := by
  induction new with
  | nil => exact h
  | cons e rest ih =>
    exact ⟨hnew e List.mem_cons_self _, ih fun e' he' => hnew e' (List.mem_cons_of_mem _ he')⟩

end TransitionSystem
