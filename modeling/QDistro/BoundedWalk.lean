/-
# Breadth-first walks

A walk collects level by level what can be reached from `start` along a relation, for at most `n`
levels and without `start` itself.  How a level is computed is a parameter: all that matters is which
nodes are on it (`Levels`).

A walk holds exactly the nodes other than `start` at the end of a path of one to `n` edges
(`mem_walk`), whatever cycles there are: a node that was expanded has its successors among the nodes
seen (`Expanded`), so a path can only leave them through the frontier.
-/
import Mathlib.Data.List.Basic

namespace BoundedWalk

variable {α : Type*}

/-- A path of so many edges. -/
def Path (edge : α → α → Prop) : ℕ → α → α → Prop
  | 0, x, y => x = y
  | n + 1, x, y => ∃ z, edge x z ∧ Path edge n z y

theorem Path.snoc {edge : α → α → Prop} {n : ℕ} {x y z : α} (h : Path edge n x y) (hz : edge y z) :
    Path edge (n + 1) x z := by
  induction n generalizing x with
  | zero =>
    subst h
    exact ⟨z, hz, rfl⟩
  | succ n ih =>
    obtain ⟨w, hw, hrest⟩ := h
    exact ⟨w, hw, ih hrest⟩

/-- Paths of the converse graph. -/
theorem Path.converse {edge : α → α → Prop} {n : ℕ} {x y : α} (h : Path edge n x y) :
    Path (fun a b => edge b a) n y x := by
  induction n generalizing x with
  | zero => exact h.symm
  | succ n ih =>
    obtain ⟨z, hz, hrest⟩ := h
    exact (ih hrest).snoc hz

/-- `level` gives the successors of the frontier that are new. -/
def Levels (edge : α → α → Prop) (start : α) (level : List α → List α → List α) : Prop :=
  ∀ seen frontier y, y ∈ level seen frontier ↔ (∃ z ∈ frontier, edge z y) ∧ y ∉ seen ∧ y ≠ start

/-- What was seen after at most `n` more levels. -/
def walkFrom (level : List α → List α → List α) : ℕ → List α → List α → List α
  | 0, seen, _ => seen
  | n + 1, seen, frontier =>
    if frontier.isEmpty then seen
    else walkFrom level n (seen ++ level seen frontier) (level seen frontier)

/-- Every node seen is in the frontier, or its successors are seen. -/
def Expanded (edge : α → α → Prop) (start : α) (seen frontier : List α) : Prop :=
  ∀ z, z = start ∨ z ∈ seen → z ∈ frontier ∨ ∀ y, edge z y → y = start ∨ y ∈ seen

variable {edge : α → α → Prop} {start : α} {level : List α → List α → List α}

theorem Expanded.next (hlevel : Levels edge start level) {seen frontier : List α}
    (h : Expanded edge start seen frontier) :
    Expanded edge start (seen ++ level seen frontier) (level seen frontier) := by
  intro z hz
  by_cases hnew : z ∈ level seen frontier
  · exact .inl hnew
  have hold : z = start ∨ z ∈ seen := by
    rcases hz with hz | hz
    · exact .inl hz
    · exact .inr ((List.mem_append.mp hz).resolve_right hnew)
  right
  intro y hy
  by_cases hyold : y = start ∨ y ∈ seen
  · exact hyold.imp_right (List.mem_append_left _)
  · rw [not_or] at hyold
    rcases h z hold with hfront | hseen
    · exact .inr (List.mem_append_right _ ((hlevel _ _ _).mpr ⟨⟨z, hfront, hy⟩, hyold.2, hyold.1⟩))
    · exact absurd (hseen y hy) (not_or.mpr hyold)

/-- A path that starts at a node seen ends at one, or goes on from the frontier. -/
theorem Expanded.path {seen frontier : List α} (h : Expanded edge start seen frontier) {n : ℕ}
    {z y : α} (hz : z = start ∨ z ∈ seen) (hpath : Path edge n z y) (hy : y ≠ start) :
    y ∈ seen ∨ ∃ w ∈ frontier, ∃ k, 1 ≤ k ∧ k ≤ n ∧ Path edge k w y := by
  induction n generalizing z with
  | zero =>
    subst hpath
    exact .inl (hz.resolve_left hy)
  | succ n ih =>
    obtain ⟨w, hw, hrest⟩ := hpath
    rcases h z hz with hfront | hseen
    · exact .inr ⟨z, hfront, n + 1, by omega, Nat.le_refl _, w, hw, hrest⟩
    · rcases ih (hseen w hw) hrest with hdone | ⟨v, hv, k, hk, hkn, hp⟩
      · exact .inl hdone
      · exact .inr ⟨v, hv, k, hk, by omega, hp⟩

theorem mem_walkFrom (hlevel : Levels edge start level) {n : ℕ} {seen frontier : List α} {y : α}
    (h : Expanded edge start seen frontier) :
    y ∈ walkFrom level n seen frontier ↔
      y ∈ seen ∨ y ≠ start ∧ ∃ z ∈ frontier, ∃ k, 1 ≤ k ∧ k ≤ n ∧ Path edge k z y := by
  induction n generalizing seen frontier with
  | zero =>
    refine ⟨.inl, fun hy => hy.resolve_right ?_⟩
    rintro ⟨-, z, -, k, hk, hk', -⟩
    omega
  | succ n ih =>
    rw [walkFrom]
    by_cases hempty : frontier.isEmpty
    · rw [if_pos hempty, List.isEmpty_iff.mp hempty]
      simp
    rw [if_neg hempty, ih (h.next hlevel)]
    constructor
    · rintro (hy | ⟨hy, z, hz, k, hk, hkn, hpath⟩)
      · rcases List.mem_append.mp hy with hy | hy
        · exact .inl hy
        · obtain ⟨⟨z, hz, hnext⟩, -, hstart⟩ := (hlevel _ _ _).mp hy
          exact .inr ⟨hstart, z, hz, 1, Nat.le_refl _, by omega, y, hnext, rfl⟩
      · obtain ⟨⟨w, hw, hnext⟩, -, -⟩ := (hlevel _ _ _).mp hz
        exact .inr ⟨hy, w, hw, k + 1, by omega, by omega, z, hnext, hpath⟩
    · rintro (hy | ⟨hy, z, hz, k, hk, hkn, hpath⟩)
      · exact .inl (List.mem_append_left _ hy)
      obtain ⟨k, rfl⟩ : ∃ m, k = m + 1 := ⟨k - 1, by omega⟩
      obtain ⟨w, hw, hrest⟩ := hpath
      -- the first edge ends at the start, at a node seen or on the next level
      have hseen : w = start ∨ w ∈ seen ++ level seen frontier := by
        by_cases hstart : w = start
        · exact .inl hstart
        by_cases hold : w ∈ seen
        · exact .inr (List.mem_append_left _ hold)
        · exact .inr (List.mem_append_right _ ((hlevel _ _ _).mpr ⟨⟨z, hz, hw⟩, hold, hstart⟩))
      rcases (h.next hlevel).path hseen hrest hy with hdone | ⟨v, hv, j, hj, hjk, hp⟩
      · exact .inl hdone
      · exact .inr ⟨hy, v, hv, j, hj, by omega, hp⟩

/-- **A walk finds what is reached by one to `n` edges**, the start apart. -/
theorem mem_walk (hlevel : Levels edge start level) {n : ℕ} {y : α} :
    y ∈ walkFrom level n [] [start] ↔ y ≠ start ∧ ∃ k, 1 ≤ k ∧ k ≤ n ∧ Path edge k start y := by
  have hexpanded : Expanded edge start [] [start] := by
    intro z hz
    rcases hz with rfl | hz
    · exact .inl (List.mem_singleton_self _)
    · exact absurd hz List.not_mem_nil
  rw [mem_walkFrom hlevel hexpanded]
  simp

end BoundedWalk
