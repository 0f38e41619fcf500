/-
# What an argv-pinned approval pins

An approval with scope `forever_argv` or `forever_prefix` is meant to cover the command
the admin saw.  The pattern it stores is recomputed from the request's sanitised details,
while later requests are matched by their raw ones.  The approval pins the requested
command exactly when sanitising leaves the argument vector as it was.
-/
import QDistro.BrokerEffects

namespace Broker

open TransitionSystem

variable {cfg : Config}

/-! ## Rows of argv-pinned scopes -/

variable {row : CacheRow}

theorem storeRow_foreverArgv {rows : List CacheRow} {now uid : ℤ} {action exe : String} {b : Bool}
    {admin : ℤ} {argv : Option (List String)}
    (h : storeRow rows now uid action exe .foreverArgv b admin argv = some row) :
    argv.getD [] ≠ [] ∧ row.callerUid = uid ∧ row.action = action ∧ row.expiresAt = none
      ∧ row.matchKind = .argvExact ∧ row.matchValue = exe ∧ row.argv = argvText (argv.getD []) := by
  rw [storeRow, scopeToRow, Option.bind_some, Option.map_eq_some_iff] at h
  obtain ⟨kind, hkind, rfl⟩ := h
  rw [storedKind] at hkind
  split at hkind
  · exact absurd hkind (by simp)
  · next hne =>
    injection hkind with hkind
    subst hkind
    exact ⟨hne, rfl, rfl, rfl, rfl, rfl, rfl⟩

theorem storeRow_foreverPrefix {rows : List CacheRow} {now uid : ℤ} {action exe : String}
    {b : Bool} {admin : ℤ} {argv : Option (List String)}
    (h : storeRow rows now uid action exe .foreverPrefix b admin argv = some row) :
    argv.getD [] ≠ [] ∧ row.callerUid = uid ∧ row.action = action ∧ row.expiresAt = none
      ∧ row.matchKind = .argvPrefix ∧ row.argv = argvText (argv.getD []) := by
  rw [storeRow, scopeToRow, Option.bind_some, Option.map_eq_some_iff] at h
  obtain ⟨kind, hkind, rfl⟩ := h
  rw [storedKind] at hkind
  split at hkind
  · exact absurd hkind (by simp)
  · next hne =>
    injection hkind with hkind
    subst hkind
    exact ⟨hne, rfl, rfl, rfl, rfl, rfl⟩

theorem matchRowArgv_argvExact {value exe : String} {pinned : List String} (hne : pinned ≠ [])
    (argv : Option (List String)) :
    matchRowArgv .argvExact value (argvText pinned) exe argv = true
      ↔ value = exe ∧ argv = some pinned := by
  match argv with
  | none => simp [matchRowArgv]
  | some [] => simp [matchRowArgv, Ne.symm hne]
  | some (a :: rest) =>
    simp only [matchRowArgv, Option.getD_some, jsonTexts_decodePattern_argvText,
      Bool.and_eq_true, beq_iff_eq, Option.some.injEq]
    exact and_congr_right fun _ => eq_comm

theorem matchRowArgv_argvPrefix {value exe : String} {pinned : List String} (hne : pinned ≠ [])
    (argv : Option (List String)) :
    matchRowArgv .argvPrefix value (argvText pinned) exe argv = true
      ↔ ∃ l, argv = some l ∧ pinned <+: l := by
  match argv with
  | none => simp [matchRowArgv]
  | some [] => simp [matchRowArgv, hne]
  | some (a :: rest) =>
    simp only [matchRowArgv, Option.getD_some, jsonTexts_decodePattern_argvText,
      Option.some.injEq, exists_eq_left']
    cases pinned with
    | nil => exact absurd rfl hne
    | cons p ps =>
      simp only [beq_iff_eq]
      rw [List.prefix_iff_eq_take]
      exact eq_comm

/-- A row of the subject's uid and action that never expires and is not argv-blind answers
whatever its pattern matches. -/
theorem answers_iff {uid : ℤ} {action : String} (huid : row.callerUid = uid)
    (haction : row.action = action) (hexp : row.expiresAt = none)
    (hblind : row.matchKind.argvBlind = false) (now : ℤ) (skip : Bool) (exe : String)
    (argv : Option (List String)) :
    row.answers now uid action exe argv skip = true
      ↔ matchRowArgv row.matchKind row.matchValue row.argv exe argv = true := by
  rw [CacheRow.answers, hexp, hblind]
  simp [huid, haction]

/-! ## The pin -/

/-- The row answers a request of its caller, action and executable exactly when the
request's arguments are `argv`. -/
def PinsExactly (row : CacheRow) (f : Filing) (argv : List String) : Prop :=
  ∀ now skip later, row.answers now f.uid f.action f.exe later skip = true ↔ later = some argv

/-- The row answers a request of its caller and action exactly when the request's
arguments start with `argv`. -/
def PinsPrefix (row : CacheRow) (f : Filing) (argv : List String) : Prop :=
  ∀ now skip exe later, row.answers now f.uid f.action exe later skip = true
    ↔ ∃ l, later = some l ∧ argv <+: l

theorem stored_row {rules : List Rule} {cache : List CacheRow} {as : List Action} {rid : ℕ}
    {f : Filing} {raw : Details} {scope : Scope}
    (hfiled : .filed rid f raw ∈ (run (step cfg) (State.init rules cache) as).trace)
    (hstored : .stored rid scope row ∈ (run (step cfg) (State.init rules cache) as).trace) :
    ∃ rows now admin, storeRow rows now f.uid f.action f.exe scope true admin
      (argvFromDetails cfg.udb (sanitizeDetails cfg.udb raw)) = some row := by
  have hinv : Inv cfg _ := inv_run rules cache as
  have hj : Justified (EffectOk cfg) _ := effects_justified rules cache as
  obtain ⟨newer, older, htrace⟩ := List.append_of_mem hstored
  have hmem : ∀ e ∈ older, e ∈ (run (step cfg) (State.init rules cache) as).trace := by
    intro e he
    rw [htrace]
    exact List.mem_append_right _ (List.mem_cons_of_mem _ he)
  rw [htrace] at hj
  obtain ⟨f', raw', hfiled', -, hrow⟩ := hj.of_append
  -- a request is filed once, so both filings are the one in the table
  obtain ⟨hclean, r, hr, hfil⟩ := hinv.filing rid f raw hfiled
  obtain ⟨-, r', hr', hfil'⟩ := hinv.filing rid f' raw' (hmem _ hfiled')
  rw [hr] at hr'
  injection hr' with hr'
  subst hr' hfil hfil'
  rw [CleanDetails] at hclean
  rwa [hclean] at hrow

theorem exists_of_getD_ne_nil {o : Option (List String)} (h : o.getD [] ≠ []) :
    ∃ l, o = some l := by
  cases o with
  | none => exact absurd rfl h
  | some l => exact ⟨l, rfl⟩

variable {u : UnicodeDb}

/-! ## A newline in an argument -/

/-- A command with two arguments. -/
def shellDetails (script : String) : Details :=
  (PyDict.insert ∅ "argv[00]" "/bin/sh").insert "argv[01]" script

/-- The command is filed and approved for good. -/
def pinRun (script : String) : List Action :=
  [.call (sampleEnv 0 true) (.requestPermission alice "qsu.exec" (shellDetails script)),
    .resume (sampleEnv 0 true) 0,
    .call (sampleEnv 0 true) (.decideRequest alice 1 "allow" "forever_argv"),
    .resume (sampleEnv 0 true) 0, .resume (sampleEnv 0 true) 0, .resume (sampleEnv 0 true) 0]

/-- The request filed by the run, with its sanitised script. -/
def pinFiling (stored : String) : Filing :=
  { uid := 1000, pid := 77, exe := "/usr/bin/app", startTime := 500, action := "qsu.exec"
    details := ((shellDetails stored).insert "app_id" "").insert "sandbox_engine" "" }

/-- The row stored by the run. -/
def pinRow (stored : String) : CacheRow :=
  { id := 1, callerUid := 1000, action := "qsu.exec", matchKind := .argvExact
    matchValue := "/usr/bin/app", argv := argvText ["/bin/sh", stored], decision := true
    expiresAt := none, createdAt := 0, approverUid := 1000, scope := some "forever_argv" }

end Broker
