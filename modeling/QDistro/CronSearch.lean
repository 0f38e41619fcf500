/-
# Cron expressions

`cron_parser`: five fields of lists, ranges and steps, and the next minute after a moment that
satisfies them.  A field is kept as the terms it is written with; the sets of values are expanded
where they are used (`values`).  Moments are microseconds and minutes are counted from the start of
the year 1.

`next_after` tries the minutes of four years in turn.  It finds the first one that satisfies the
expression if there is one among them, and otherwise says that there is none
(`nextAfter_correct_iff`); but eight years pass between the leap days around a common century.
-/
import QDistro.PyText
import Mathlib.Tactic.Linarith

namespace Cron

open PyText

variable (u : UnicodeDb)

/-! ## Fields -/

/-- `start-stop/step` -/
structure Term where
  (start stop step : ℤ)
  positive : 0 < step
  deriving DecidableEq

/-- `str.partition` -/
def partition (sep : Char) (s : List Char) : List Char × List Char :=
  (s.takeWhile (· ≠ sep), (s.dropWhile (· ≠ sep)).tail)

def quoted (s : List Char) : String := pyRepr u (String.ofList s)

/-- The step of a term. -/
def parseStep (part : List Char) : Except String { n : ℤ // 0 < n } :=
  let text := (partition '/' part).2
  if '/' ∈ part then
    match pyInt u text with
    | none => .error s!"bad step {quoted u text} in {quoted u part}"
    | some n =>
      if h : 0 < n then .ok ⟨n, h⟩ else .error s!"step must be positive in {quoted u part}"
  else .ok ⟨1, by decide⟩

/-- The first and the last value of a term. -/
def parseBounds (lo hi : ℤ) (base : List Char) : Except String (ℤ × ℤ) :=
  if base = ['*'] then .ok (lo, hi)
  else if '-' ∈ base then
    match pyInt u (partition '-' base).1, pyInt u (partition '-' base).2 with
    | some a, some b => .ok (a, b)
    | _, _ => .error s!"bad range {quoted u base}"
  else
    match pyInt u base with
    | some n => .ok (n, n)
    | none => .error s!"bad value {quoted u base}"

/-- One round of the loop of `_parse_field`. -/
def parseTerm (spec : List Char) (lo hi top : ℤ) (text : List Char) : Except String Term := do
  let part := strip u text
  if part = [] then throw s!"empty term in field {quoted u spec}"
  let step ← parseStep u part
  let base := (partition '/' part).1
  let (start, stop) ← parseBounds u lo hi base
  if start > stop then throw s!"range start > end in {quoted u base}"
  if start < lo ∨ stop > top then throw s!"value out of bounds [{lo},{top}] in {quoted u part}"
  return ⟨start, stop, step.1, step.2⟩

/-- `_parse_field`, as terms; `top` is `parse_hi`. -/
def parseField (lo hi top : ℤ) (spec : List Char) : Except String (List Term) :=
  (spec.splitOn ',').mapM (parseTerm u spec lo hi top)

structure CronExpr where
  (minutes hours doms months dows : List Term)
  (domRestricted dowRestricted : Bool)
  deriving DecidableEq

/-- `CronExpr.__init__` -/
def parse (expr : String) : Except String CronExpr :=
  match (expr.toList.splitOnP u.isspace).filter (· ≠ []) with
  | [minute, hour, dom, month, dow] => do
    return ⟨← parseField u 0 59 59 minute, ← parseField u 0 23 23 hour,
      ← parseField u 1 31 31 dom, ← parseField u 1 12 12 month, ← parseField u 0 6 7 dow,
      strip u dom ≠ ['*'], strip u dow ≠ ['*']⟩
  | fields => .error
      s!"cron expression must have 5 fields, got {fields.length}: {quoted u expr.toList}"

/-- `range(start, stop + 1, step)` -/
def Term.range (t : Term) : List ℤ :=
  (List.range ((t.stop - t.start) / t.step + 1).toNat).map fun i : ℕ => t.start + t.step * i

/-- The set of a field; `is_dow` makes `7` a Sunday. -/
def values (isDow : Bool) (terms : List Term) : List ℤ :=
  terms.flatMap fun t => t.range.map fun v => if isDow ∧ v = 7 then 0 else v

/-! ## The calendar -/

/-- The month and the day of the month, by the lengths of the months. -/
def monthOf : List ℕ → ℕ → ℤ × ℤ
  | [], d => (1, d + 1)
  | n :: rest, d =>
    if d < n then (1, d + 1) else ((monthOf rest (d - n)).1 + 1, (monthOf rest (d - n)).2)

/-- The month and the day of the month of a day, counted from the first of January of the year 1
of the Gregorian calendar. -/
def monthDay (day : ℕ) : ℤ × ℤ :=
  let cycle := day % 146097
  let century := min (cycle / 36524) 3
  let inCentury := cycle - 36524 * century
  let year := min (inCentury % 1461 / 365) 3
  let leap := year = 3 ∧ (inCentury / 1461 ≠ 24 ∨ century = 3)
  monthOf [31, if leap then 29 else 28, 31, 30, 31, 30, 31, 31, 30, 31, 30, 31]
    (inCentury % 1461 - 365 * year)

/-- `(dt.weekday() + 1) % 7`; the first day was a Monday. -/
def cronDow (day : ℕ) : ℤ := ((day % 7 + 1) % 7 : ℕ)

/-- `matches` -/
def CronExpr.matchesAt (c : CronExpr) (m : ℕ) : Bool :=
  let (month, day) := monthDay (m / 1440)
  let domOk := (values false c.doms).elem day
  let dowOk := (values true c.dows).elem (cronDow (m / 1440))
  (values false c.minutes).elem (m % 60 : ℤ) && (values false c.hours).elem (m / 60 % 24 : ℤ) &&
    (values false c.months).elem month &&
    if c.domRestricted && c.dowRestricted then domOk || dowOk else domOk && dowOk

/-- `_MAX_SEARCH_MINUTES` -/
def maxSearchMinutes : ℕ := 4 * 366 * 24 * 60

/-- A naive `datetime` before the year 9000. -/
def Moment : Type := Fin (3286817 * 86400000000)

/-- The minute after a moment. -/
def Moment.next (t : Moment) : ℕ := t.val / 60000000 + 1

/-- `next_after` -/
def CronExpr.nextAfter (c : CronExpr) (t : Moment) : Except String ℕ :=
  match (List.range' t.next maxSearchMinutes).find? c.matchesAt with
  | some m => .ok m
  | none => .error "cron expression has no match within search window"

/-! ## What an expression asks for -/

/-- One of the terms covers the value. -/
def Covered (terms : List Term) (v : ℤ) : Prop :=
  ∃ t ∈ terms, t.start ≤ v ∧ v ≤ t.stop ∧ t.step ∣ v - t.start

/-- The minute satisfies the expression; a Sunday is day `0` and day `7`. -/
def CronExpr.Satisfied (c : CronExpr) (m : ℕ) : Prop :=
  let dom := Covered c.doms (monthDay (m / 1440)).2
  let dow := Covered c.dows (cronDow (m / 1440)) ∨ cronDow (m / 1440) = 0 ∧ Covered c.dows 7
  Covered c.minutes (m % 60 : ℤ) ∧ Covered c.hours (m / 60 % 24 : ℤ) ∧
    Covered c.months (monthDay (m / 1440)).1 ∧
    if c.domRestricted && c.dowRestricted then dom ∨ dow else dom ∧ dow

theorem Term.mem_range {t : Term} {v : ℤ} :
    v ∈ t.range ↔ t.start ≤ v ∧ v ≤ t.stop ∧ t.step ∣ v - t.start := by
  have hpos := t.positive
  rw [Term.range, List.mem_map]
  constructor
  · rintro ⟨i, hi, rfl⟩
    rw [List.mem_range, Int.lt_toNat] at hi
    have hle := (Int.le_ediv_iff_mul_le hpos).mp (Int.lt_add_one_iff.mp hi)
    have hi0 := Int.mul_nonneg hpos.le (Int.natCast_nonneg i)
    exact ⟨by linarith, by linarith, i, add_sub_cancel_left _ _⟩
  · rintro ⟨hlo, hhi, k, hk⟩
    have hk0 : 0 ≤ k := by
      by_contra hneg
      nlinarith
    have hle : k ≤ (t.stop - t.start) / t.step :=
      (Int.le_ediv_iff_mul_le hpos).mpr (by linarith)
    refine ⟨k.toNat, ?_, ?_⟩
    · rw [List.mem_range]
      omega
    · rw [Int.toNat_of_nonneg hk0]
      linarith

theorem mem_values {terms : List Term} {v : ℤ} : v ∈ values false terms ↔ Covered terms v := by
  simp [values, Covered, Term.mem_range]

theorem mem_values_dow {terms : List Term} {v : ℤ} (hv : v ≠ 7) :
    v ∈ values true terms ↔ Covered terms v ∨ v = 0 ∧ Covered terms 7 := by
  simp only [values, List.mem_flatMap, List.mem_map, Term.mem_range, true_and]
  constructor
  · rintro ⟨t, ht, w, hw, rfl⟩
    split_ifs with h7
    · exact .inr ⟨rfl, t, ht, h7 ▸ hw⟩
    · exact .inl ⟨t, ht, hw⟩
  · rintro (⟨t, ht, hw⟩ | ⟨rfl, t, ht, hw⟩)
    · exact ⟨t, ht, v, hw, if_neg hv⟩
    · exact ⟨t, ht, 7, hw, if_pos rfl⟩

variable {c : CronExpr}

theorem matchesAt_iff {m : ℕ} : c.matchesAt m = true ↔ c.Satisfied m := by
  have hdow : cronDow (m / 1440) ≠ 7 := by
    rw [cronDow]
    omega
  unfold CronExpr.matchesAt CronExpr.Satisfied
  dsimp only
  rw [Bool.and_eq_true, Bool.and_eq_true, Bool.and_eq_true, List.elem_iff, List.elem_iff,
    List.elem_iff, mem_values, mem_values, mem_values, and_assoc, and_assoc]
  split_ifs
  · rw [Bool.or_eq_true, List.elem_iff, List.elem_iff, mem_values, mem_values_dow hdow]
  · rw [Bool.and_eq_true, List.elem_iff, List.elem_iff, mem_values, mem_values_dow hdow]

/-! ## The search -/

/-- The answer is the earliest minute after the moment that satisfies the expression, and there is
no answer only if no minute does. -/
def CronExpr.NextCorrect (c : CronExpr) (t : Moment) : Prop :=
  (∀ m, c.nextAfter t = .ok m → t.val < m * 60000000 ∧ c.Satisfied m ∧
    ∀ m', t.val < m' * 60000000 → m' < m → ¬ c.Satisfied m') ∧
  ∀ e, c.nextAfter t = .error e → ∀ m, ¬ c.Satisfied m

theorem Moment.next_le_iff {t : Moment} {m : ℕ} : t.next ≤ m ↔ t.val < m * 60000000 := by
  rw [Moment.next, Nat.succ_le_iff, Nat.div_lt_iff_lt_mul (by decide)]

theorem nextAfter_cases (c : CronExpr) (t : Moment) :
    (∃ m, c.nextAfter t = .ok m ∧ t.next ≤ m ∧ m < t.next + maxSearchMinutes ∧
      c.Satisfied m ∧ ∀ m', t.next ≤ m' → m' < m → ¬ c.Satisfied m') ∨
    (∃ e, c.nextAfter t = .error e) ∧
      ∀ m, t.next ≤ m → m < t.next + maxSearchMinutes → ¬ c.Satisfied m := by
  have hnot : ∀ {m}, (!c.matchesAt m) = true → ¬ c.Satisfied m := fun h hsat => by
    rw [matchesAt_iff.mpr hsat] at h
    cases h
  unfold CronExpr.nextAfter
  split
  · next m hfind =>
    obtain ⟨hm, hmem, hleast⟩ := List.find?_range'_eq_some.mp hfind
    obtain ⟨hle, hlt⟩ := List.mem_range'_1.mp hmem
    exact .inl ⟨m, rfl, hle, hlt, matchesAt_iff.mp hm,
      fun m' hle hlt => hnot (hleast m' hle hlt)⟩
  · next hfind =>
    exact .inr ⟨⟨_, rfl⟩, fun m hle hlt => hnot (List.find?_range'_eq_none.mp hfind m hle hlt)⟩

/-- **The search is right** exactly when no minute at all satisfies the expression or one of the
minutes that it tries does. -/
theorem nextAfter_correct_iff (c : CronExpr) (t : Moment) :
    c.NextCorrect t ↔ (∀ m, ¬ c.Satisfied m) ∨
      ∃ m, t.next ≤ m ∧ m < t.next + maxSearchMinutes ∧ c.Satisfied m := by
  rcases nextAfter_cases c t with ⟨m, hm, hle, hlt, hsat, hleast⟩ | ⟨⟨e, he⟩, hwindow⟩
  · refine iff_of_true ⟨fun m' hm' => ?_, fun e he => ?_⟩ (.inr ⟨m, hle, hlt, hsat⟩)
    · cases hm.symm.trans hm'
      exact ⟨Moment.next_le_iff.mp hle, hsat, fun m' h => hleast m' (Moment.next_le_iff.mpr h)⟩
    · cases hm.symm.trans he
  · constructor
    · rintro ⟨-, herror⟩
      exact .inl (herror e he)
    · rintro (hnone | ⟨m, hle, hlt, hsat⟩)
      · refine ⟨fun m hm => ?_, fun _ _ => hnone⟩
        cases he.symm.trans hm
      · exact absurd hsat (hwindow m hle hlt)

/-- The start of 1 March 2096. -/
def march2096 : Moment := ⟨765243 * 86400000000, by decide⟩

/-- `0 0 29 2 *` -/
def leapDay : CronExpr :=
  ⟨[⟨0, 0, 1, by decide⟩], [⟨0, 0, 1, by decide⟩], [⟨29, 29, 1, by decide⟩],
    [⟨2, 2, 1, by decide⟩], [⟨0, 6, 1, by decide⟩], true, false⟩

/-- The leap day after that of 2096 is in 2104, and the search does not find it. -/
theorem leapDay_missed :
    parse .ascii "0 0 29 2 *" = .ok leapDay ∧ ¬ leapDay.NextCorrect march2096 := by
  refine ⟨by decide +kernel, ?_⟩
  rintro ⟨-, herror⟩
  have hdays : ∀ k < 1465, monthDay (765243 + k) ≠ (2, 29) := by decide +kernel
  rcases nextAfter_cases leapDay march2096 with ⟨m, -, hle, hlt, hsat, -⟩ | ⟨⟨e, he⟩, -⟩
  · obtain ⟨-, -, ⟨t, ht, hmonth⟩, ⟨t', ht', hday⟩, -⟩ := hsat
    cases List.mem_singleton.mp ht
    cases List.mem_singleton.mp ht'
    have hnext : march2096.next = 1101949921 := by decide +kernel
    have hmax : maxSearchMinutes = 2108160 := rfl
    refine hdays (m / 1440 - 765243) (by omega) ?_
    rw [Nat.add_sub_cancel' (by omega)]
    exact Prod.ext (le_antisymm hmonth.2.1 hmonth.1) (le_antisymm hday.2.1 hday.1)
  · exact herror e he 1106154720 (matchesAt_iff.mp (by decide +kernel))

end Cron
