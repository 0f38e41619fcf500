/-
# What a fallible computation comes to

`Yields E Q x` says of `x : Except ε α` what a total-correctness triple with an exceptional
postcondition says: if `x` raises, the error satisfies `E`; if it returns, the value satisfies
`Q`.  The rules follow the shape of the computation, so that the specification of a function is
proved along its `do` block.
-/
import Mathlib.Init

namespace ErrorRules

variable {ε α β : Type} {E E' : ε → Prop} {Q Q' : α → Prop}

/-- An error satisfies `E`, a value satisfies `Q`. -/
def Yields (E : ε → Prop) (Q : α → Prop) : Except ε α → Prop
  | .error e => E e
  | .ok a => Q a

theorem Yields.ok {a : α} (h : Q a) : Yields E Q (.ok a) := h

theorem Yields.error {e : ε} (h : E e) : Yields E Q (.error e) := h

variable {x : Except ε α}

/-- What the first part yields is what the second part may assume. -/
theorem Yields.bind {f : α → Except ε β} {R : β → Prop} (hx : Yields E Q x)
    (hf : ∀ a, Q a → Yields E R (f a)) : Yields E R (x >>= f) := by
  cases x with
  | error e => exact hx
  | ok a => exact hf a hx

theorem Yields.mono (hx : Yields E Q x) (hE : ∀ e, E e → E' e) (hQ : ∀ a, Q a → Q' a) :
    Yields E' Q' x := by
  cases x with
  | error e => exact hE e hx
  | ok a => exact hQ a hx

/-- What is known of the value is known of it in the end. -/
theorem Yields.of_eq_ok {a : α} (hx : Yields E Q x) (h : x = .ok a) : Q a := by
  subst h
  exact hx

theorem Yields.of_eq_error {e : ε} (hx : Yields E Q x) (h : x = .error e) :
    E e := by
  subst h
  exact hx

/-- The value satisfies what can be read off the fact that it was returned. -/
theorem Yields.and_eq (hx : Yields E Q x) :
    Yields E (fun a => Q a ∧ x = .ok a) x := by
  cases x with
  | error e => exact hx
  | ok a => exact ⟨hx, rfl⟩

/-- A sequence returns what its second part returns on the value of the first. -/
theorem bind_eq_ok {f : α → Except ε β} {b : β} :
    (x >>= f) = .ok b ↔ ∃ a, x = .ok a ∧ f a = .ok b := by
  cases x with
  | error e =>
    refine ⟨fun h => (by cases h), ?_⟩
    rintro ⟨a, ha, -⟩
    cases ha
  | ok a =>
    refine ⟨fun h => ⟨a, rfl, h⟩, ?_⟩
    rintro ⟨a', ha, h⟩
    rw [Except.ok.inj ha]
    exact h

/-- A guard that raises was not taken when a value came back. -/
theorem ite_error_eq_ok {c : Prop} [Decidable c] {e : ε} {a : α} :
    (if c then .error e else x) = .ok a ↔ ¬ c ∧ x = .ok a := by
  by_cases h : c
  · rw [if_pos h]
    exact ⟨fun h' => (by cases h'), fun h' => absurd h h'.1⟩
  · rw [if_neg h]
    exact ⟨fun h' => ⟨h, h'⟩, fun h' => h'.2⟩

end ErrorRules
