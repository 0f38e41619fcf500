/-
# The approval cache

Rows of the `approvals` table, how an admin's scope becomes a row, and which row
answers a later request.  A row pins more or less of the request: its argument
vector, the program's basename, a leading part of the arguments, only the
executable, or nothing beyond `(uid, action)`.

Times in this file are whole seconds, as `int(time.time())` gives them.
-/
import QDistro.JsonRoundTrip
import QDistro.BrokerDetails

namespace Broker

/-- The scopes an admin can pick. -/
inductive Scope where
  | once | oneHour | oneDay | forever | foreverExe | foreverArgv | foreverBasename | foreverPrefix
  deriving DecidableEq, Repr

/-- The text of a scope. -/
def Scope.text : Scope → String
  | .once => "once"
  | .oneHour => "1h"
  | .oneDay => "24h"
  | .forever => "forever"
  | .foreverExe => "forever_exe"
  | .foreverArgv => "forever_argv"
  | .foreverBasename => "forever_basename"
  | .foreverPrefix => "forever_prefix"

/-- `_VALID_SCOPES` -/
def validScopes : List Scope :=
  [.once, .oneHour, .oneDay, .forever, .foreverExe, .foreverArgv, .foreverBasename, .foreverPrefix]

/-- The scope a text names. -/
def Scope.ofText (s : String) : Option Scope := validScopes.find? fun sc => sc.text == s

theorem Scope.ofText_text (sc : Scope) : Scope.ofText sc.text = some sc := by
  cases sc <;> decide

/-- The `match_kind` column.  `other` is any text outside the vocabulary. -/
inductive MatchKind where
  | argvExact | argvPrefix | basename | exeOnly | always
  | other (text : String)
  deriving DecidableEq, Repr

/-- `_PRIORITY`, the most specific kind first. -/
def MatchKind.priority : MatchKind → ℕ
  | .argvExact => 0
  | .argvPrefix => 1
  | .basename => 2
  | .exeOnly => 3
  | .always => 4
  | .other _ => 5

/-- `_ARGV_BLIND_KINDS`: the kinds that ignore the request's arguments. -/
def MatchKind.argvBlind : MatchKind → Bool
  | .exeOnly => true
  | .always => true
  | _ => false

/-- A row of the `approvals` table. -/
structure CacheRow where
  id : ℕ
  callerUid : ℤ
  action : String
  matchKind : MatchKind
  matchValue : String
  argv : String
  decision : Bool
  expiresAt : Option ℤ
  createdAt : ℤ
  approverUid : ℤ
  scope : Option String
  deriving DecidableEq, Repr

/-! ## From a scope to a row -/

/-- `scope_to_row`: the match kind and the time to live, or `none` for "do not persist". -/
def scopeToRow : Scope → Option (MatchKind × Option ℤ)
  | .once => none
  | .oneHour => some (.argvExact, some 3600)
  | .oneDay => some (.argvExact, some 86400)
  | .forever => some (.always, none)
  | .foreverExe => some (.exeOnly, none)
  | .foreverArgv => some (.argvExact, none)
  | .foreverBasename => some (.basename, none)
  | .foreverPrefix => some (.argvPrefix, none)

/-- The basename of the program, or `""` without arguments. -/
def argvBasename : List String → String
  | [] => ""
  | head :: _ => PyText.basename head

/-- `json.dumps(argv_list)` -/
def argvText (argv : List String) : String :=
  String.ofList (JsonText.dumps JsonText.defaultSeps (.arr (argv.map .str)))

/-- The kind that is written: without arguments a timed approval falls back to the
executable and every other argv-pinned approval writes nothing. -/
def storedKind (scope : Scope) (kind : MatchKind) (argv : List String) : Option MatchKind :=
  match kind with
  | .argvExact | .basename | .argvPrefix =>
    if argv = [] then
      if scope = .oneHour ∨ scope = .oneDay then some .exeOnly else none
    else some kind
  | _ => some kind

/-- The `(match_value, argv)` columns of a kind. -/
def storedPattern (kind : MatchKind) (exe : String) (argv : List String) : String × String :=
  match kind with
  | .argvExact => (exe, argvText argv)
  | .basename => ("", argvBasename argv)
  | .argvPrefix => ("", argvText argv)
  | .exeOnly => (exe, "")
  | _ => ("", "")

/-- The id SQLite gives the next row. -/
def nextRowId (rows : List CacheRow) : ℕ := (rows.map CacheRow.id).foldr max 0 + 1

/-- `ApprovalCache.store`: the row that is written, if one is. -/
def storeRow (rows : List CacheRow) (now callerUid : ℤ) (action exe : String) (scope : Scope)
    (decision : Bool) (approverUid : ℤ) (argv : Option (List String)) : Option CacheRow :=
  (scopeToRow scope).bind fun (kind, ttl) =>
    (storedKind scope kind (argv.getD [])).map fun kind =>
      let pattern := storedPattern kind exe (argv.getD [])
      { id := nextRowId rows
        callerUid := callerUid
        action := action
        matchKind := kind
        matchValue := pattern.1
        argv := pattern.2
        decision := decision
        expiresAt := ttl.map (now + ·)
        createdAt := now
        approverUid := approverUid
        scope := some scope.text }

/-! ## From a request to a row -/

/-- `_decode_pattern` -/
def decodePattern (text : String) : List JsonText.Json :=
  if text = "" then []
  else
    match JsonText.loads text.toList with
    | some (.arr items) => items
    | _ => []

/-- The texts of a JSON list, or `none` when an item is not a string. -/
def jsonTexts : List JsonText.Json → Option (List String)
  | [] => some []
  | .str s :: rest => (jsonTexts rest).map (s :: ·)
  | _ :: _ => none

/-- `_match_row_argv` -/
def matchRowArgv (kind : MatchKind) (value pattern exe : String) (argv : Option (List String)) :
    Bool :=
  match kind, argv.getD [] with
  | .always, _ => true
  | .exeOnly, _ => value == exe
  | .argvExact, [] => false
  | .basename, [] => false
  | .argvPrefix, [] => false
  | .argvExact, actual => value == exe && jsonTexts (decodePattern pattern) == some actual
  | .basename, actual => pattern == argvBasename actual
  | .argvPrefix, actual =>
    -- a pattern with a non-string item equals no list of arguments
    match jsonTexts (decodePattern pattern) with
    | none => false
    | some [] => false
    | some leading => actual.take leading.length == leading
  | .other _, _ => false

/-- A row the lookup considers: unexpired, of the subject's uid and action, not skipped
as argv-blind, and matching the executable and the arguments. -/
def CacheRow.answers (row : CacheRow) (now callerUid : ℤ) (action exe : String)
    (argv : Option (List String)) (skipBlind : Bool) : Bool :=
  row.callerUid == callerUid && row.action == action
    && (match row.expiresAt with
        | none => true
        | some t => decide (now < t))
    && !(skipBlind && row.matchKind.argvBlind)
    && matchRowArgv row.matchKind row.matchValue row.argv exe argv

/-- Keep the more specific of two rows; between equals the newer one. -/
def betterRow (best : Option CacheRow) (row : CacheRow) : Option CacheRow :=
  match best with
  | none => some row
  | some b =>
    if row.matchKind.priority < b.matchKind.priority
        ∨ (row.matchKind.priority = b.matchKind.priority ∧ b.id < row.id) then some row
    else some b

/-- `ApprovalCache.lookup_detail` -/
def lookupDetail (rows : List CacheRow) (now callerUid : ℤ) (action exe : String)
    (argv : Option (List String)) (delegated sandboxed : Bool) : Option CacheRow :=
  (rows.filter fun row => row.answers now callerUid action exe argv (delegated || sandboxed)).foldl
    betterRow none

/-! ## What a lookup returns -/

variable {row : CacheRow}

theorem foldl_betterRow_mem (rows : List CacheRow) (best : Option CacheRow)
    (h : rows.foldl betterRow best = some row) : row ∈ rows ∨ best = some row := by
  induction rows generalizing best with
  | nil => exact Or.inr h
  | cons r rest ih =>
    rw [List.foldl_cons] at h
    rcases ih _ h with hmem | hbest
    · exact Or.inl (List.mem_cons_of_mem _ hmem)
    · cases best with
      | none =>
        injection hbest with heq
        exact Or.inl (heq ▸ List.mem_cons_self)
      | some b =>
        rw [betterRow] at hbest
        split at hbest
        · injection hbest with heq
          exact Or.inl (heq ▸ List.mem_cons_self)
        · exact Or.inr hbest

variable {argv : Option (List String)}

theorem lookupDetail_spec {rows : List CacheRow} {now callerUid : ℤ} {action exe : String}
    {delegated sandboxed : Bool}
    (h : lookupDetail rows now callerUid action exe argv delegated sandboxed = some row) :
    row ∈ rows ∧ row.answers now callerUid action exe argv (delegated || sandboxed) = true := by
  rcases foldl_betterRow_mem _ _ h with hmem | hnone
  · exact List.mem_filter.mp hmem
  · exact absurd hnone (by simp)

theorem lookupDetail_argvBlind {rows : List CacheRow} {now callerUid : ℤ} {action exe : String}
    {delegated sandboxed : Bool}
    (h : lookupDetail rows now callerUid action exe argv delegated sandboxed = some row)
    (hskip : delegated = true ∨ sandboxed = true) : row.matchKind.argvBlind = false := by
  have hskip' : (delegated || sandboxed) = true := by
    rcases hskip with h | h <;> simp [h]
  have hans := (lookupDetail_spec h).2
  rw [hskip', CacheRow.answers] at hans
  simp only [Bool.true_and, Bool.and_eq_true, Bool.not_eq_eq_eq_not, Bool.not_true] at hans
  exact hans.1.2

/-! ## Stored patterns read back -/

theorem jsonTexts_map_str (argv : List String) : jsonTexts (argv.map .str) = some argv := by
  induction argv with
  | nil => rfl
  | cons a rest ih => rw [List.map_cons, jsonTexts, ih, Option.map_some]

theorem distinctItems_map_str (argv : List String) :
    JsonText.DistinctItems (argv.map .str) := by
  induction argv with
  | nil => simp [JsonText.DistinctItems]
  | cons a rest ih =>
    rw [List.map_cons, JsonText.DistinctItems]
    exact ⟨by simp [JsonText.Distinct], ih⟩

theorem argvText_ne_empty (argv : List String) : argvText argv ≠ "" := by
  intro h
  have hlen := JsonText.dumps_length_pos JsonText.defaultSeps (.arr (argv.map .str))
  have hnil := congrArg String.toList h
  rw [argvText, String.toList_ofList] at hnil
  rw [hnil] at hlen
  exact absurd hlen (by decide)

theorem jsonTexts_decodePattern_argvText (argv : List String) :
    jsonTexts (decodePattern (argvText argv)) = some argv := by
  rw [decodePattern, if_neg (argvText_ne_empty argv), argvText, String.toList_ofList,
    JsonText.loads_dumps _ _ (by rw [JsonText.Distinct]; exact distinctItems_map_str argv)]
  exact jsonTexts_map_str argv

/-! ## The best row -/

/-- `row` goes before `other`: its kind is more specific, or as specific and the row is newer. -/
def CacheRow.Before (row other : CacheRow) : Prop :=
  row.matchKind.priority < other.matchKind.priority
    ∨ (row.matchKind.priority = other.matchKind.priority ∧ other.id < row.id)

theorem CacheRow.Before.asymm {other : CacheRow} (h : row.Before other) :
    ¬ other.Before row := by
  unfold CacheRow.Before at h ⊢
  omega

theorem CacheRow.before_of_not_before {other : CacheRow} (h : ¬ other.Before row)
    (hid : other.id ≠ row.id) : row.Before other := by
  unfold CacheRow.Before at h ⊢
  omega

theorem betterRow_some (b row : CacheRow) [Decidable (row.Before b)] :
    betterRow (some b) row = if row.Before b then some row else some b := by
  rw [betterRow]
  exact if_congr Iff.rfl rfl rfl

theorem foldl_betterRow_first (rows : List CacheRow) (best : Option CacheRow)
    (h : rows.foldl betterRow best = some row) :
    (∀ b, best = some b → ¬ b.Before row) ∧ ∀ other ∈ rows, ¬ other.Before row := by
  classical
  induction rows generalizing best with
  | nil =>
    refine ⟨fun b hb => ?_, fun _ hmem => absurd hmem List.not_mem_nil⟩
    rw [List.foldl_nil, hb] at h
    injection h with heq
    rw [heq]
    exact fun hlt => hlt.asymm hlt
  | cons r rest ih =>
    rw [List.foldl_cons] at h
    obtain ⟨hkept, hrest⟩ := ih _ h
    -- the row kept after `r` is not beaten by `r`, nor by the best row before it
    have hstep : (∀ b, best = some b → ¬ b.Before row) ∧ ¬ r.Before row := by
      cases best with
      | none => exact ⟨fun b hb => absurd hb (by simp), hkept r rfl⟩
      | some b =>
        rw [betterRow_some] at hkept
        by_cases hlt : r.Before b
        · have hr := hkept r (if_pos hlt)
          refine ⟨fun c hc hcr => ?_, hr⟩
          injection hc with hbc
          subst hbc
          unfold CacheRow.Before at hlt hr hcr
          omega
        · have hb := hkept b (if_neg hlt)
          refine ⟨fun c hc => ?_, fun hrr => ?_⟩
          · injection hc with hbc
            exact hbc ▸ hb
          · unfold CacheRow.Before at hlt hb hrr
            omega
    refine ⟨hstep.1, fun other hmem => ?_⟩
    rcases List.mem_cons.mp hmem with heq | hmem
    · exact heq ▸ hstep.2
    · exact hrest other hmem

theorem foldl_betterRow_isSome (rows : List CacheRow) (b : CacheRow) :
    ∃ row, rows.foldl betterRow (some b) = some row := by
  classical
  induction rows generalizing b with
  | nil => exact ⟨b, rfl⟩
  | cons r rest ih =>
    rw [List.foldl_cons, betterRow_some]
    by_cases h : r.Before b
    · rw [if_pos h]
      exact ih r
    · rw [if_neg h]
      exact ih b

theorem foldl_betterRow_eq_none (rows : List CacheRow) :
    rows.foldl betterRow none = none ↔ rows = [] := by
  cases rows with
  | nil => exact ⟨fun _ => rfl, fun _ => rfl⟩
  | cons r rest =>
    obtain ⟨row, hrow⟩ := foldl_betterRow_isSome rest r
    rw [List.foldl_cons, betterRow, hrow]
    exact ⟨fun h => absurd h (by simp), fun h => absurd h (by simp)⟩

theorem foldl_betterRow_eq_some {rows : List CacheRow} (hids : (rows.map CacheRow.id).Nodup)
    (row : CacheRow) :
    rows.foldl betterRow none = some row
      ↔ row ∈ rows ∧ ∀ other ∈ rows, other ≠ row → row.Before other := by
  have first : ∀ {kept}, rows.foldl betterRow none = some kept →
      kept ∈ rows ∧ ∀ other ∈ rows, other ≠ kept → kept.Before other := by
    intro kept h
    have hmem : kept ∈ rows := (foldl_betterRow_mem _ _ h).resolve_right (by simp)
    refine ⟨hmem, fun other hother hne => ?_⟩
    refine CacheRow.before_of_not_before ((foldl_betterRow_first _ _ h).2 other hother) ?_
    exact fun hid => hne (List.inj_on_of_nodup_map hids hother hmem hid)
  refine ⟨first, fun ⟨hmem, hbefore⟩ => ?_⟩
  cases h : rows.foldl betterRow none with
  | none =>
    rw [(foldl_betterRow_eq_none rows).mp h] at hmem
    exact absurd hmem List.not_mem_nil
  | some kept =>
    obtain ⟨hkept, hfirst⟩ := first h
    by_cases heq : kept = row
    · rw [heq]
    · exact absurd (hfirst row hmem (Ne.symm heq)) (hbefore kept hkept heq).asymm

/-! ## The table -/

/-- The `approvals` table.  Its `id` column is the primary key. -/
structure Approvals where
  rows : List CacheRow
  ids : (rows.map CacheRow.id).Nodup

/-- A row that `gc` deletes: `expires_at IS NOT NULL AND expires_at <= ?`. -/
def CacheRow.expired (row : CacheRow) (now : ℤ) : Bool :=
  match row.expiresAt with
  | none => false
  | some t => decide (t ≤ now)

/-- `ApprovalCache.gc` -/
def Approvals.gc (t : Approvals) (now : ℤ) : Approvals :=
  ⟨t.rows.filter fun row => !row.expired now, t.ids.sublist (List.filter_sublist.map _)⟩

theorem CacheRow.answers_of_expired {now later callerUid : ℤ} {action exe : String}
    {skipBlind : Bool} (h : row.expired now = true) (hle : now ≤ later) :
    row.answers later callerUid action exe argv skipBlind = false := by
  have hpast : (match row.expiresAt with
      | none => true
      | some t => decide (later < t)) = false := by
    rw [CacheRow.expired] at h
    cases ht : row.expiresAt with
    | none =>
      rw [ht] at h
      exact absurd h (by simp)
    | some t =>
      rw [ht] at h
      have : t ≤ now := of_decide_eq_true h
      exact decide_eq_false (by omega)
  rw [CacheRow.answers, hpast]
  simp

/-- A lookup returns the row that goes before every other row that answers, and `none` when no
row answers; removing the expired rows changes no lookup from then on. -/
theorem lookup_returns_best (t : Approvals) (now callerUid : ℤ) (action exe : String)
    (argv : Option (List String)) (delegated sandboxed : Bool) :
    (∀ row, lookupDetail t.rows now callerUid action exe argv delegated sandboxed = some row
      ↔ row ∈ t.rows ∧ row.answers now callerUid action exe argv (delegated || sandboxed) = true
        ∧ ∀ other ∈ t.rows,
          other.answers now callerUid action exe argv (delegated || sandboxed) = true →
          other ≠ row → row.Before other)
    ∧ (lookupDetail t.rows now callerUid action exe argv delegated sandboxed = none
      ↔ ∀ row ∈ t.rows, row.answers now callerUid action exe argv (delegated || sandboxed) = false)
    ∧ ∀ collected ≤ now,
        lookupDetail (t.gc collected).rows now callerUid action exe argv delegated sandboxed
          = lookupDetail t.rows now callerUid action exe argv delegated sandboxed := by
  have hids : ((t.rows.filter fun row =>
      row.answers now callerUid action exe argv (delegated || sandboxed)).map
        CacheRow.id).Nodup := t.ids.sublist (List.filter_sublist.map _)
  refine ⟨fun row => ?_, ?_, fun collected hle => ?_⟩
  · rw [lookupDetail, foldl_betterRow_eq_some hids]
    simp only [List.mem_filter, and_imp, and_assoc]
  · rw [lookupDetail, foldl_betterRow_eq_none, List.filter_eq_nil_iff]
    simp only [Bool.not_eq_true]
  · rw [lookupDetail, lookupDetail, Approvals.gc, List.filter_filter]
    refine congrArg (List.foldl betterRow none) (List.filter_congr fun row _ => ?_)
    cases hexp : row.expired collected with
    | false => rw [Bool.not_false, Bool.and_true]
    | true => rw [CacheRow.answers_of_expired hexp hle, Bool.false_and]

/-- Two rows for one program, one of them about to expire. -/
def sampleApprovals : Approvals where
  rows := [⟨1, 1000, "net.up", .exeOnly, "/usr/bin/nmcli", "", true, none, 10, 0,
      some "forever_exe"⟩,
    ⟨2, 1000, "net.up", .argvExact, "/usr/bin/nmcli", "[\"/usr/bin/nmcli\"]", false, some 3610, 10, 0,
      some "1h"⟩]
  ids := by decide

/-- The exact row answers until it expires, with or without the row being collected. -/
theorem sampleApprovals_lookup :
    lookupDetail (sampleApprovals.gc 3600).rows 3600 1000 "net.up" "/usr/bin/nmcli"
        (some ["/usr/bin/nmcli"]) false false
      = lookupDetail sampleApprovals.rows 3600 1000 "net.up" "/usr/bin/nmcli"
        (some ["/usr/bin/nmcli"]) false false
    ∧ lookupDetail (sampleApprovals.gc 3610).rows 3620 1000 "net.up" "/usr/bin/nmcli"
        (some ["/usr/bin/nmcli"]) false false
      = lookupDetail sampleApprovals.rows 3620 1000 "net.up" "/usr/bin/nmcli"
        (some ["/usr/bin/nmcli"]) false false
    ∧ (sampleApprovals.gc 3610).rows.length = 1 :=
  ⟨(lookup_returns_best sampleApprovals 3600 1000 "net.up" "/usr/bin/nmcli"
      (some ["/usr/bin/nmcli"]) false false).2.2 3600 (by decide),
    (lookup_returns_best sampleApprovals 3620 1000 "net.up" "/usr/bin/nmcli"
      (some ["/usr/bin/nmcli"]) false false).2.2 3610 (by decide),
    by decide⟩

end Broker
