/-
# Delegation logs

A log of who handed which capability to whom, newest entry first.  A principal holds a
capability if the newest entry about the two is a grant.  When every grant of the log was
made by the root or by a principal that held a covering capability at that time, nobody
holds what the root did not grant in a covering form (`root_of_holds`).
-/
import QDistro.TransitionSystem

open TransitionSystem

namespace Delegation

variable {P C : Type*}

/-- An entry of a delegation log. -/
inductive Entry (P C : Type*) where
  | grant (granter principal : P) (cap : C)
  | revoke (granter principal : P) (cap : C)

/-- The principal an entry is about. -/
def Entry.principal : Entry P C → P
  | .grant _ p _ => p
  | .revoke _ p _ => p

/-- The capability an entry is about. -/
def Entry.cap : Entry P C → C
  | .grant _ _ c => c
  | .revoke _ _ c => c

/-- The newest entry about the principal and the capability is a grant. -/
def Holds (p : P) (c : C) : List (Entry P C) → Prop
  | [] => False
  | .grant _ q d :: older => (q = p ∧ d = c) ∨ Holds p c older
  | .revoke _ q d :: older => ¬ (q = p ∧ d = c) ∧ Holds p c older

/-- A grant comes from the root or from a holder of a covering capability. -/
def Authorised (root : P) (covers : C → C → Prop) (older : List (Entry P C)) : Entry P C → Prop
  | .grant g _ c => g = root ∨ ∃ d, covers d c ∧ Holds g d older
  | .revoke .. => True

variable {root : P} {covers : C → C → Prop}

/-- **No escalation.**  Whatever is held goes back to a covering grant of the root. -/
theorem root_of_holds (hrefl : ∀ c, covers c c)
    (htrans : ∀ a b c, covers a b → covers b c → covers a c) {log : List (Entry P C)}
    (hlog : Justified (Authorised root covers) log) {p : P} {c : C} (h : Holds p c log) :
    ∃ q d, Entry.grant root q d ∈ log ∧ covers d c := by
  -- on the log: a grant by a holder is traced back through the older entries
  induction log generalizing p c with
  | nil => exact absurd h (by simp [Holds])
  | cons e older ih =>
    obtain ⟨hauth, hlog⟩ := hlog
    have holder : ∀ {p : P} {c : C}, Holds p c older →
        ∃ q d, Entry.grant root q d ∈ e :: older ∧ covers d c := by
      intro p c h
      obtain ⟨q, d, hmem, hcov⟩ := ih hlog h
      exact ⟨q, d, List.mem_cons_of_mem _ hmem, hcov⟩
    cases e with
    | revoke g q d => exact holder h.2
    | grant g q d =>
      rcases h with ⟨rfl, rfl⟩ | h
      · rcases hauth with rfl | ⟨d', hcov, hheld⟩
        · exact ⟨q, d, List.mem_cons_self, hrefl d⟩
        · obtain ⟨q', d'', hmem, hcov'⟩ := holder hheld
          exact ⟨q', d'', hmem, htrans _ _ _ hcov' hcov⟩
      · exact holder h

end Delegation
