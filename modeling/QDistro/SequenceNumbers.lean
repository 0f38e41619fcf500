/-
# Sequence numbers in flight

What lies in a queue between a sender's counter and a receiver's counter.  `Consecutive lo l hi`
says that `l` is exactly the numbers from `lo` up to but not including `hi`: a lossless channel.
`Increasing lo l hi` says that `l` increases strictly above `lo` and up to `hi`: a channel of
cumulative acknowledgements.  Both are kept when the sender appends and when the receiver takes
the first element.
-/
import Mathlib.Data.List.Basic
import Mathlib.Order.Nat

namespace SequenceNumbers

/-! ## Consecutive numbers -/

/-- `l` is `lo, lo + 1, …, hi - 1`. -/
def Consecutive : ℕ → List ℕ → ℕ → Prop
  | lo, [], hi => lo = hi
  | lo, a :: l, hi => a = lo ∧ Consecutive (lo + 1) l hi

variable {lo hi a : ℕ} {l : List ℕ}

section

variable (h : Consecutive lo l hi)
include h

theorem Consecutive.push : Consecutive lo (l ++ [hi]) (hi + 1) := by
  induction l generalizing lo with
  | nil => exact ⟨h.symm, by rw [show lo = hi from h]; rfl⟩
  | cons a l ih => exact ⟨h.1, ih h.2⟩

theorem Consecutive.length : hi = lo + l.length := by
  induction l generalizing lo with
  | nil => exact h.symm
  | cons a l ih =>
    have hrest := ih h.2
    rw [List.length_cons]
    omega

theorem Consecutive.mem_iff : a ∈ l ↔ lo ≤ a ∧ a < hi := by
  induction l generalizing lo with
  | nil =>
    have hempty : lo = hi := h
    constructor
    · intro hmem
      cases hmem
    · rintro ⟨hle, hlt⟩
      omega
  | cons b l ih =>
    have hb : b = lo := h.1
    have hlen := h.2.length
    rw [List.mem_cons, ih h.2]
    omega

/-- The receiver moves on to a number past what it holds. -/
theorem Consecutive.filter (hlo : lo ≤ a + 1) (hhi : a < hi) :
    Consecutive (a + 1) (l.filter (a < ·)) hi := by
  induction l generalizing lo with
  | nil =>
    have hempty : lo = hi := h
    show a + 1 = hi
    omega
  | cons b l ih =>
    obtain ⟨hb, hrest⟩ := h
    subst hb
    by_cases hle : b ≤ a
    · rw [List.filter_cons_of_neg (by simpa using hle)]
      exact ih hrest (by omega)
    · -- the first number kept, and all that follow it
      have heq : b = a + 1 := by omega
      have hall : ∀ x ∈ l, decide (a < x) = true := by
        intro x hx
        have hbounds := hrest.mem_iff.mp hx
        exact decide_eq_true (by omega)
      rw [List.filter_cons_of_pos (by simpa using hle), List.filter_eq_self.mpr hall, heq]
      exact ⟨rfl, heq ▸ hrest⟩

end

/-! ## Increasing numbers -/

/-- `l` increases strictly, above `lo` and up to `hi`. -/
def Increasing : ℕ → List ℕ → ℕ → Prop
  | lo, [], hi => lo ≤ hi
  | lo, a :: l, hi => lo < a ∧ Increasing a l hi

theorem Increasing.le (h : Increasing lo l hi) : lo ≤ hi := by
  induction l generalizing lo with
  | nil => exact h
  | cons a l ih => exact le_trans (le_of_lt h.1) (ih h.2)

theorem Increasing.le_of_mem (h : Increasing lo l hi) (ha : a ∈ l) : a ≤ hi := by
  induction l generalizing lo with
  | nil => cases ha
  | cons b l ih =>
    rcases List.mem_cons.mp ha with rfl | hrest
    · exact h.2.le
    · exact ih h.2 hrest

theorem Increasing.push (h : Increasing lo l hi) (ha : hi < a) : Increasing lo (l ++ [a]) a := by
  induction l generalizing lo with
  | nil => exact ⟨lt_of_le_of_lt h ha, le_refl a⟩
  | cons b l ih => exact ⟨h.1, ih h.2⟩

end SequenceNumbers
