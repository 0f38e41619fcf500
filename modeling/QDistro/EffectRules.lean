/-
# State, exceptions and triples

A computation of a program with a store and exceptions: it reads and changes a state, and it
returns or raises.  The state reached is kept when it raises, so that a handler sees the effects
of the part that failed.

`Triple P x Q E` is total correctness with an exceptional postcondition: from a state with `P`,
the computation returns a value and a state with `Q` or raises an error in a state with `E`.  The
rules follow the shape of a `do` block, so that the specification of a function is proved along
its text.
-/
import Mathlib.Init

namespace EffectRules

variable {σ ε α β γ : Type}

/-- A computation over a state that returns or raises. -/
def Act (σ ε α : Type) : Type := σ → Except ε α × σ

namespace Act

/-- Do the first part; when it returned, go on with its value. -/
def andThen (x : Act σ ε α) (f : α → Act σ ε β) : Act σ ε β := fun s =>
  match x s with
  | (.ok a, t) => f a t
  | (.error e, t) => (.error e, t)

/-- Do the first part; when it raised, go on with the error. -/
def orElse (x : Act σ ε α) (h : ε → Act σ ε α) : Act σ ε α := fun s =>
  match x s with
  | (.ok a, t) => (.ok a, t)
  | (.error e, t) => h e t

instance : Monad (Act σ ε) where
  pure a := fun s => (.ok a, s)
  bind := andThen

instance : MonadExceptOf ε (Act σ ε) where
  throw e := fun s => (.error e, s)
  tryCatch := orElse

/-- Raise another error instead. -/
def mapError {ε' : Type} (f : ε → ε') (x : Act σ ε α) : Act σ ε' α := fun s =>
  match x s with
  | (.ok a, t) => (.ok a, t)
  | (.error e, t) => (.error (f e), t)

/-- Return the error as a value. -/
def attempt {ε' : Type} (x : Act σ ε α) : Act σ ε' (Except ε α) := fun s => (.ok (x s).1, (x s).2)

/-- Do the second part however the first one ends; when it returns, end like the first one. -/
def ensuring (x : Act σ ε α) (y : Act σ ε Unit) : Act σ ε α := fun s =>
  match x s with
  | (r, t) =>
    match y t with
    | (.ok (), u) => (r, u)
    | (.error e, u) => (.error e, u)

/-- The current state. -/
def get : Act σ ε σ := fun s => (.ok s, s)

/-- Change the state. -/
def modify (f : σ → σ) : Act σ ε Unit := fun s => (.ok (), f s)

end Act

/-- Evaluation of a sequence, one part at a time. -/
theorem Act.bind_eq_of_ok {x : Act σ ε α} {f : α → Act σ ε β} {s t : σ} {a : α}
    (h : x s = (.ok a, t)) : (x >>= f) s = f a t := by
  show Act.andThen x f s = f a t
  rw [Act.andThen, h]

theorem Act.bind_eq_of_error {x : Act σ ε α} {f : α → Act σ ε β} {s t : σ} {e : ε}
    (h : x s = (.error e, t)) : (x >>= f) s = (.error e, t) := by
  show Act.andThen x f s = (.error e, t)
  rw [Act.andThen, h]

/-- What is known where a computation ends. -/
def Ends (Q : α → σ → Prop) (E : ε → σ → Prop) : Except ε α × σ → Prop
  | (.ok a, s) => Q a s
  | (.error e, s) => E e s

/-- From `P`, the computation returns with `Q` or raises with `E`. -/
def Triple (P : σ → Prop) (x : Act σ ε α) (Q : α → σ → Prop) (E : ε → σ → Prop) : Prop :=
  ∀ s, P s → Ends Q E (x s)

namespace Triple

variable {P O : σ → Prop} {Q Q' : α → σ → Prop} {E E' : ε → σ → Prop} {x : Act σ ε α}

theorem pure {a : α} (h : ∀ s, P s → Q a s) : Triple P (Pure.pure a) Q E := h

theorem throw {e : ε} (h : ∀ s, P s → E e s) : Triple P (MonadExcept.throw e) Q E := h

/-- What the first part establishes is what the second part may assume. -/
theorem bind {f : α → Act σ ε β} {R : β → σ → Prop} (hx : Triple P x Q E)
    (hf : ∀ a, Triple (Q a) (f a) R E) : Triple P (x >>= f) R E := by
  intro s hs
  have h := hx s hs
  show Ends R E (Act.andThen x f s)
  unfold Act.andThen
  rcases hres : x s with ⟨r, t⟩
  rw [hres] at h
  cases r with
  | ok a => exact hf a t h
  | error e => exact h

/-- A handler starts where the computation raised. -/
theorem tryCatch {h : ε → Act σ ε α} (hx : Triple P x Q E)
    (hh : ∀ e, Triple (E e) (h e) Q E') : Triple P (MonadExcept.tryCatch x h) Q E' := by
  intro s hs
  have hend := hx s hs
  show Ends Q E' (Act.orElse x h s)
  unfold Act.orElse
  rcases hres : x s with ⟨r, t⟩
  rw [hres] at hend
  cases r with
  | ok a => exact hend
  | error e => exact hh e t hend

/-- The error that is raised is the translated one. -/
theorem mapError {ε' : Type} {f : ε → ε'} {F : ε' → σ → Prop}
    (hx : Triple P x Q fun e => F (f e)) : Triple P (x.mapError f) Q F := by
  intro s hs
  have h := hx s hs
  show Ends Q F (Act.mapError f x s)
  unfold Act.mapError
  rcases hres : x s with ⟨r, t⟩
  rw [hres] at h
  cases r with
  | ok a => exact h
  | error e => exact h

/-- The value says how the computation ended. -/
theorem attempt {ε' : Type} {F : ε' → σ → Prop} (hx : Triple P x Q E) :
    Triple P x.attempt (fun r s => Ends Q E (r, s)) F := hx

/-- The second part runs from where the first one ended. -/
theorem ensuring {y : Act σ ε Unit} {R : α → σ → Prop} {F : ε → σ → Prop} (hx : Triple P x Q E)
    (hok : ∀ a, Triple (Q a) y (fun _ => R a) F) (herr : ∀ e, Triple (E e) y (fun _ => F e) F) :
    Triple P (x.ensuring y) R F := by
  intro s hs
  have h := hx s hs
  show Ends R F (Act.ensuring x y s)
  unfold Act.ensuring
  rcases hres : x s with ⟨r, t⟩
  rw [hres] at h
  cases r with
  | ok a =>
    have hy := hok a t h
    dsimp only
    rcases hfin : y t with ⟨r', u⟩
    rw [hfin] at hy
    cases r' with
    | ok _ => exact hy
    | error e => exact hy
  | error e =>
    have hy := herr e t h
    dsimp only
    rcases hfin : y t with ⟨r', u⟩
    rw [hfin] at hy
    cases r' with
    | ok _ => exact hy
    | error e' => exact hy

theorem conseq (hx : Triple O x Q' E') (hP : ∀ s, P s → O s)
    (hQ : ∀ a s, Q' a s → Q a s) (hE : ∀ e s, E' e s → E e s) : Triple P x Q E := by
  intro s hs
  have h := hx s (hP s hs)
  rcases hres : x s with ⟨r, t⟩
  rw [hres] at h
  cases r with
  | ok a => exact hQ a t h
  | error e => exact hE e t h

theorem weaken (hx : Triple O x Q E) (hP : ∀ s, P s → O s) : Triple P x Q E :=
  hx.conseq hP (fun _ _ h => h) (fun _ _ h => h)

theorem ite {c : Prop} [Decidable c] {y : Act σ ε α} (hx : c → Triple P x Q E)
    (hy : ¬ c → Triple P y Q E) : Triple P (if c then x else y) Q E := by
  by_cases h : c
  · rw [if_pos h]
    exact hx h
  · rw [if_neg h]
    exact hy h

/-- The state that is read is the one the rest starts from. -/
theorem get_bind {f : σ → Act σ ε β} {R : β → σ → Prop}
    (hf : ∀ s, P s → Triple (fun t => t = s) (f s) R E) : Triple P (Act.get >>= f) R E := by
  intro s hs
  exact hf s hs s rfl

theorem modify {f : σ → σ} {R : Unit → σ → Prop} (h : ∀ s, P s → R () (f s)) :
    Triple P (Act.modify f) R E := h

/-- A fact that holds whatever the state is may be assumed. -/
theorem of_forall (h : ∀ s, P s → Triple (fun t => t = s) x Q E) : Triple P x Q E := by
  intro s hs
  exact h s hs s rfl

/-- **Loop rule.**  The invariant speaks of the elements done so far. -/
theorem foldlM {f : β → γ → Act σ ε β} {I : List γ → β → σ → Prop} {l : List γ}
    (hstep : ∀ before x after b, l = before ++ x :: after →
      Triple (I before b) (f b x) (fun b' => I (before ++ [x]) b') E) (b : β) :
    Triple (I [] b) (l.foldlM f b) (fun b' => I l b') E := by
  have hrest : ∀ rest before b, l = before ++ rest →
      Triple (I before b) (rest.foldlM f b) (fun b' => I l b') E := by
    intro rest
    induction rest with
    | nil =>
      intro before b hl
      rw [List.append_nil] at hl
      subst hl
      exact pure fun _ h => h
    | cons x rest ih =>
      intro before b hl
      rw [List.foldlM_cons]
      refine bind (hstep before x rest b hl) fun b' => ih (before ++ [x]) b' ?_
      rw [hl, List.append_assoc, List.singleton_append]
  exact hrest l [] b rfl

end Triple

/-! ## What a computation leaves alone -/

variable {τ : Type}

/-- The computation does not change what `f` reads of the state. -/
def Preserves (f : σ → τ) (x : Act σ ε α) : Prop := ∀ s, f (x s).2 = f s

namespace Preserves

variable {f : σ → τ} {x : Act σ ε α}

theorem pure {a : α} : Preserves f (Pure.pure a : Act σ ε α) := fun _ => rfl

theorem throw {e : ε} : Preserves f (MonadExcept.throw e : Act σ ε α) := fun _ => rfl

theorem get : Preserves f (Act.get : Act σ ε σ) := fun _ => rfl

theorem bind {g : α → Act σ ε β} (hx : Preserves f x) (hg : ∀ a, Preserves f (g a)) :
    Preserves f (x >>= g) := by
  intro s
  have h := hx s
  show f (Act.andThen x g s).2 = f s
  unfold Act.andThen
  rcases hres : x s with ⟨r, t⟩
  rw [hres] at h
  cases r with
  | ok a => exact (hg a t).trans h
  | error e => exact h

theorem tryCatch {g : ε → Act σ ε α} (hx : Preserves f x) (hg : ∀ e, Preserves f (g e)) :
    Preserves f (MonadExcept.tryCatch x g) := by
  intro s
  have h := hx s
  show f (Act.orElse x g s).2 = f s
  unfold Act.orElse
  rcases hres : x s with ⟨r, t⟩
  rw [hres] at h
  cases r with
  | ok a => exact h
  | error e => exact (hg e t).trans h

theorem mapError {ε' : Type} {g : ε → ε'} (hx : Preserves f x) : Preserves f (x.mapError g) := by
  intro s
  have h := hx s
  show f (Act.mapError g x s).2 = f s
  unfold Act.mapError
  rcases hres : x s with ⟨r, t⟩
  rw [hres] at h
  cases r with
  | ok a => exact h
  | error e => exact h

theorem attempt {ε' : Type} (hx : Preserves f x) :
    Preserves f (x.attempt : Act σ ε' (Except ε α)) := hx

theorem ensuring {y : Act σ ε Unit} (hx : Preserves f x) (hy : Preserves f y) :
    Preserves f (x.ensuring y) := by
  intro s
  have h := hx s
  show f (Act.ensuring x y s).2 = f s
  unfold Act.ensuring
  rcases hres : x s with ⟨r, t⟩
  rw [hres] at h
  have h' := hy t
  dsimp only
  rcases hfin : y t with ⟨r', u⟩
  rw [hfin] at h'
  cases r' with
  | ok _ => exact h'.trans h
  | error e => exact h'.trans h

theorem ite {c : Prop} [Decidable c] {y : Act σ ε α} (hx : Preserves f x)
    (hy : Preserves f y) : Preserves f (if c then x else y) := by
  by_cases h : c
  · rw [if_pos h]
    exact hx
  · rw [if_neg h]
    exact hy

theorem foldlM {g : β → γ → Act σ ε β} (hg : ∀ b x, Preserves f (g b x)) (l : List γ) (b : β) :
    Preserves f (l.foldlM g b) := by
  induction l generalizing b with
  | nil => exact pure
  | cons x l ih =>
    rw [List.foldlM_cons]
    exact bind (hg b x) fun b' => ih b'

/-- **Frame rule.**  What is left alone may be assumed to hold afterwards. -/
theorem frame {P : σ → Prop} {Q : α → σ → Prop} {E : ε → σ → Prop} (hx : Preserves f x)
    (R : τ → Prop) (h : Triple P x Q E) :
    Triple (fun s => P s ∧ R (f s)) x (fun a s => Q a s ∧ R (f s)) (fun e s => E e s ∧ R (f s)) := by
  intro s hs
  have hend := h s hs.1
  have hf := hx s
  rcases hres : x s with ⟨r, t⟩
  rw [hres] at hend hf
  have hR : R (f t) := by
    rw [show f t = f s from hf]
    exact hs.2
  cases r with
  | ok a => exact ⟨hend, hR⟩
  | error e => exact ⟨hend, hR⟩

theorem prod {υ : Type} {g : σ → υ} (hf : Preserves f x) (hg : Preserves g x) :
    Preserves (fun s => (f s, g s)) x := fun s => Prod.ext (hf s) (hg s)

/-- An assertion about what is left alone is kept. -/
theorem triple (hx : Preserves f x) (R : τ → Prop) :
    Triple (fun s => R (f s)) x (fun _ s => R (f s)) (fun _ s => R (f s)) := by
  have h : Triple (fun _ => True) x (fun _ _ => True) (fun _ _ => True) := by
    intro s _
    rcases x s with ⟨r, t⟩
    cases r <;> trivial
  exact (hx.frame R h).conseq (fun _ hs => ⟨trivial, hs⟩) (fun _ _ hs => hs.2)
    (fun _ _ hs => hs.2)

end Preserves

/-- What a triple says of the state a computation ends in. -/
theorem Ends.state {Q : α → σ → Prop} {E : ε → σ → Prop} {R : σ → Prop} {r : Except ε α × σ}
    (h : Ends Q E r) (hQ : ∀ a s, Q a s → R s) (hE : ∀ e s, E e s → R s) : R r.2 := by
  obtain ⟨r, s⟩ := r
  cases r with
  | ok a => exact hQ a s h
  | error e => exact hE e s h

end EffectRules
