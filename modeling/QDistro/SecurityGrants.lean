/-
# Delegated mutation authority

`qdistro_security_grants.SecurityGrantStore`: who may mutate a security field.  The admin
app may mutate every field; any other principal needs a grant of the field or of a
wildcard.  Grants and revokes are assertions under a subject of their principal, appended
to the lineage store, and what a principal holds is replayed from them.  A principal may
hand out what it holds.

The log of a run refines a delegation log in the sense of `Delegation`, so what a
principal holds goes back to a grant of the admin app (`no_escalation`).
-/
import QDistro.Delegation
import QDistro.LineageRows
import Mathlib.Data.List.Induction

open JsonText Lineage TransitionSystem

namespace SecurityGrants

open List

variable (u : UnicodeDb)

/-! ## Vocabulary -/

/-- `ADMIN_APP_PRINCIPAL` -/
def adminAppPrincipal : String := "agent:admin"

/-- `SECURITY_FIELDS` -/
def securityFields : List String :=
  ["security.guards", "security.compartments", "security.conflict_classes",
    "security.sensitivity", "security.declassification"]

/-- `WILDCARD_SECURITY` -/
def wildcardSecurity : String := "security.*"

/-- `WILDCARD_ALL` -/
def wildcardAll : String := "*"

/-- `WILDCARDS` -/
def wildcards : List String := [wildcardSecurity, wildcardAll]

/-- `GRANTABLE_SCOPES` -/
def grantableScopes : List String := securityFields ++ wildcards

/-- `GRANT_FACT` -/
def grantFact : String := "security.delegation.grant"

/-- `REVOKE_FACT` -/
def revokeFact : String := "security.delegation.revoke"

/-- What the store can raise. -/
inductive GrantExc where
  | grantError (msg : String)
  | attributeError (msg : String)
  | typeError (msg : String)
  | store (e : Err)
  deriving DecidableEq

/-- `grant_subject` -/
def grantSubject (principal : String) : Except GrantExc String :=
  if principal = "" then .error (.grantError "principal must be non-empty")
  else .ok ("security-grant:" ++ principal)

/-! ## Matching -/

/-- `normalize_field` -/
def normalizeField (field : String) : Except GrantExc String :=
  if field = "" then .error (.grantError "field must be non-empty")
  else
    let qualified := if PyText.startswith field "security." then field else "security." ++ field
    if securityFields.elem qualified then .ok qualified
    else
      let known := securityFields.map fun f => String.ofList ((PyText.split '.' 1 f.toList).getD 1 [])
      .error (.grantError
        s!"unknown security field {PyText.pyRepr u field} (known: {reprSorted u known})")

/-- `scope_matches_field` -/
def scopeMatchesField (scope qualifiedField : String) : Bool :=
  if !securityFields.elem qualifiedField then false
  else if scope = wildcardAll ∨ scope = wildcardSecurity then true
  else scope = qualifiedField

/-- `grants_permit_field` -/
def grantsPermitField (scopes : List String) (qualifiedField : String) : Bool :=
  scopes.any fun s => scopeMatchesField s qualifiedField

/-- `GrantCheck` -/
structure GrantCheck where
  allowed : Bool
  reason : String
  via : Option String := none

/-! ## Replay -/

/-- The name of a value's Python type. -/
def typeName : Json → String
  | .null => "NoneType"
  | .bool _ => "bool"
  | .int _ => "int"
  | .float _ => "float"
  | .str _ => "str"
  | .arr _ => "list"
  | .obj _ => "dict"

/-- Whether a value is true in Python; a float is false if its digits are zeros. -/
def truthy : Json → Bool
  | .null => false
  | .bool b => b
  | .int n => n ≠ 0
  | .float f =>
    isSpecialText f.text ||
      (f.text.takeWhile fun c => c != 'e' && c != 'E').any fun c => c.isDigit && c != '0'
  | .str s => s ≠ ""
  | .arr items => !items.isEmpty
  | .obj fields => !fields.isEmpty

/-- The grantable scope of an event, if it has one: `(ev.get("value") or {}).get("scope")`. -/
def eventScope (value : Json) : Except GrantExc (Option String) :=
  match value with
  | .obj fields =>
    match PyDict.lookup fields "scope" with
    | some (.str s) => .ok (if grantableScopes.elem s then some s else none)
    | some (.arr items) => .error (.typeError s!"unhashable type: '{typeName (.arr items)}'")
    | some (.obj fs) => .error (.typeError s!"unhashable type: '{typeName (.obj fs)}'")
    | _ => .ok none
  | v =>
    if truthy v then
      .error (.attributeError s!"'{typeName v}' object has no attribute 'get'")
    else .ok none

/-- The effect of one event on the held scopes. -/
def applyEvent (held : List String) (fact scope : String) : List String :=
  if fact = grantFact then held.insert scope
  else if fact = revokeFact then held.filter fun s => s ≠ scope
  else held

/-- The loop of `effective_scopes`. -/
def replay (held : List String) : List StoredAssertion → Except GrantExc (List String)
  | [] => .ok held
  | ev :: rest =>
    match eventScope ev.value with
    | .error e => .error e
    | .ok none => replay held rest
    | .ok (some scope) => replay (applyEvent held ev.fact scope) rest

/-- `effective_scopes` -/
def effectiveScopes (db : Db) (principal : String) : Except GrantExc (List String) :=
  (grantSubject principal).bind fun subject => replay [] (db.assertionsFor subject "broker-derived")

/-! ## Authority checks -/

section Checks

variable (admin : String) (db : Db)

/-- `check` -/
def check (principal field : String) : Except GrantExc GrantCheck :=
  if principal = "" then .ok ⟨false, "no calling principal (fail closed)", none⟩
  else if principal = admin then
    .ok ⟨true, s!"admin app {PyText.pyRepr u principal} holds default mutation authority",
      some "admin-app-default"⟩
  else
    match normalizeField u field with
    | .error (.grantError e) => .ok ⟨false, "cannot delegate-check field: " ++ e, none⟩
    | .error e => .error e
    | .ok qualified =>
      (effectiveScopes db principal).map fun scopes =>
        if scopes.isEmpty then
          ⟨false, s!"principal {PyText.pyRepr u principal} holds no mutation grant; "
            ++ s!"{qualified} denied (fail closed)", none⟩
        -- the most specific scope is reported
        else if scopes.elem qualified then
          ⟨true, s!"{PyText.pyRepr u principal} holds exact grant {qualified}", some qualified⟩
        else if scopes.elem wildcardSecurity then
          ⟨true, s!"{PyText.pyRepr u principal} holds wildcard {wildcardSecurity}",
            some wildcardSecurity⟩
        else if scopes.elem wildcardAll then
          ⟨true, s!"{PyText.pyRepr u principal} holds wildcard {wildcardAll}", some wildcardAll⟩
        else
          ⟨false, s!"principal {PyText.pyRepr u principal} holds {reprSorted u scopes} "
            ++ s!"but none permits {qualified} (fail closed)", none⟩

/-- `can_delegate` -/
def canDelegate (granter scope : String) : Except GrantExc GrantCheck :=
  if granter = "" then .ok ⟨false, "no granting principal (fail closed)", none⟩
  else if granter = admin then
    .ok ⟨true, s!"admin app {PyText.pyRepr u granter} may delegate any scope",
      some "admin-app-default"⟩
  else if wildcards.elem scope then
    (effectiveScopes db granter).map fun held =>
      if held.elem wildcardAll then
        ⟨true, s!"{PyText.pyRepr u granter} holds {wildcardAll}", some wildcardAll⟩
      else if scope = wildcardSecurity ∧ held.elem wildcardSecurity then
        ⟨true, s!"{PyText.pyRepr u granter} holds {wildcardSecurity}", some wildcardSecurity⟩
      else
        ⟨false, s!"principal {PyText.pyRepr u granter} cannot delegate wildcard "
          ++ s!"{PyText.pyRepr u scope} without holding it (fail closed)", none⟩
  else
    match normalizeField u scope with
    | .error (.grantError e) => .ok ⟨false, "cannot delegate-check scope: " ++ e, none⟩
    | .error e => .error e
    | .ok qualified => check u admin db granter qualified

end Checks

/-- `_canonical_scope` -/
def canonicalScope (scope : String) : Except GrantExc String :=
  if scope = "" then .error (.grantError "scope must be non-empty")
  else if wildcards.elem scope then .ok scope
  else normalizeField u scope

/-! ## Grants and revokes -/

/-- The arguments of `grant` and `revoke`, with the readings of the two clocks. -/
structure Delegating where
  principal : String
  scope : String
  granter : String
  reason : String := ""
  at' : ℤ
  now : ℤ

/-- The assertion `_append` records. -/
def delegationAssertion (fact subject canonical : String) (d : Delegating) : Assertion where
  subject := subject
  fact := fact
  value := .obj [("principal", .str d.principal), ("scope", .str canonical),
    ("granter", .str d.granter), ("reason", .str d.reason), ("at", .int d.at')]
  assertedBy := d.granter
  authority := "broker-derived"

/-- `_append` -/
def append (s : Store) (fact canonical : String) (d : Delegating) : Store × Except GrantExc Reply :=
  match grantSubject d.principal with
  | .error e => (s, .error e)
  | .ok subject =>
    (s.perform u (.recordAssertion (delegationAssertion fact subject canonical d) d.now)).map id
      fun r => r.mapError .store

/-- The body `grant` and `revoke` share. -/
def delegate (admin fact verb : String) (s : Store) (d : Delegating) :
    Store × Except GrantExc Reply :=
  if d.principal = "" then (s, .error (.grantError "principal must be non-empty"))
  else
    match canonicalScope u d.scope with
    | .error e => (s, .error e)
    | .ok canonical =>
      match canDelegate u admin s.db d.granter canonical with
      | .error e => (s, .error e)
      | .ok chk =>
        if chk.allowed then append u s fact canonical d
        else (s, .error (.grantError
          (s!"{PyText.pyRepr u d.granter} may not {verb} {PyText.pyRepr u canonical}: "
            ++ chk.reason)))

/-- `grant` -/
def grant (admin : String) (s : Store) (d : Delegating) : Store × Except GrantExc Reply :=
  delegate u admin grantFact "delegate" s d

/-- `revoke` -/
def revoke (admin : String) (s : Store) (d : Delegating) : Store × Except GrantExc Reply :=
  delegate u admin revokeFact "revoke" s d

/-- An attempt to delegate. -/
inductive Attempt where
  | grant (d : Delegating)
  | revoke (d : Delegating)

/-- Perform an attempt. -/
def attempt (admin : String) (s : Store) : Attempt → Store × Except GrantExc Reply
  | .grant d => grant u admin s d
  | .revoke d => revoke u admin s d

/-- The store after an attempt, whatever it returned or raised. -/
def grantStep (admin : String) (s : Store) (a : Attempt) : Store := (attempt u admin s a).1

/-! ## What a check establishes -/

/-- A scope covers a scope it may be narrowed to. -/
def Covers (scope scope' : String) : Prop :=
  scope = scope' ∨ scope = wildcardAll ∨ scope = wildcardSecurity ∧ scope' ∈ securityFields

theorem covers_wildcardAll {scope : String} (h : Covers scope wildcardAll) : scope = wildcardAll := by
  rcases h with h | h | ⟨-, h⟩
  · exact h
  · exact h
  · exact absurd h (by decide)

theorem covers_wildcardSecurity {scope : String} (h : Covers scope wildcardSecurity) :
    scope = wildcardSecurity ∨ scope = wildcardAll := by
  rcases h with h | h | ⟨-, h⟩
  · exact .inl h
  · exact .inr h
  · exact absurd h (by decide)

theorem Covers.trans (a b c : String) (hab : Covers a b) (hbc : Covers b c) : Covers a c := by
  rcases hbc with rfl | rfl | ⟨rfl, hc⟩
  · exact hab
  · exact .inr (.inl (covers_wildcardAll hab))
  · rcases covers_wildcardSecurity hab with rfl | rfl
    · exact .inr (.inr ⟨rfl, hc⟩)
    · exact .inr (.inl rfl)

theorem scopeMatchesField_of_covers {scope field : String} (h : Covers scope field)
    (hf : field ∈ securityFields) : scopeMatchesField scope field = true := by
  rw [scopeMatchesField, if_neg (by simpa using hf)]
  split
  · rfl
  · next hw =>
    rcases h with rfl | rfl | ⟨rfl, -⟩
    · simp
    · exact absurd (.inl rfl) hw
    · exact absurd (.inr rfl) hw

variable {u}

theorem mem_of_normalizeField {field q : String} (h : normalizeField u field = .ok q) :
    q ∈ securityFields := by
  unfold normalizeField at h
  split at h
  · exact absurd h (by simp)
  · dsimp only at h
    generalize (if PyText.startswith field "security." then field else "security." ++ field) =
      qualified at h
    split at h
    · next hq =>
      rw [← Except.ok.inj h]
      simpa using hq
    · exact absurd h (by simp)

theorem covers_of_check {admin principal field : String} {db : Db} {chk : GrantCheck}
    (hp : principal ≠ admin) (h : check u admin db principal field = .ok chk)
    (hallowed : chk.allowed = true) :
    ∃ q held d, normalizeField u field = .ok q ∧ effectiveScopes db principal = .ok held ∧
      d ∈ held ∧ Covers d q := by
  unfold check at h
  split at h
  · rw [← Except.ok.inj h] at hallowed
    exact absurd hallowed (by simp)
  split at h
  · rw [← Except.ok.inj h] at hallowed
    exact absurd hallowed (by simp)
  · exact absurd h (by simp)
  · next q hq =>
    obtain ⟨held, hheld, rfl⟩ := except_map_ok h
    refine ⟨q, held, ?_⟩
    -- the branches of the report, from the most specific scope on
    split at hallowed
    · exact absurd hallowed (by simp)
    split at hallowed
    · next hmem => exact ⟨q, hq, hheld, by simpa using hmem, .inl rfl⟩
    split at hallowed
    · next hmem =>
      exact ⟨wildcardSecurity, hq, hheld, by simpa using hmem,
        .inr (.inr ⟨rfl, mem_of_normalizeField hq⟩)⟩
    split at hallowed
    · next hmem => exact ⟨wildcardAll, hq, hheld, by simpa using hmem, .inr (.inl rfl)⟩
    · exact absurd hallowed (by simp)

theorem normalizeField_of_mem {q : String} (h : q ∈ securityFields) : normalizeField u q = .ok q := by
  have hall : ∀ q ∈ securityFields, q ≠ "" ∧ PyText.startswith q "security." = true := by decide
  rw [normalizeField, if_neg (hall q h).1]
  simp only [(hall q h).2, if_true]
  rw [if_pos (by simpa using h)]

theorem covers_of_canDelegate {admin granter scope : String} {db : Db} {chk : GrantCheck}
    (hg : granter ≠ admin) (h : canDelegate u admin db granter scope = .ok chk)
    (hallowed : chk.allowed = true) (hscope : scope ∈ grantableScopes) :
    ∃ held d, effectiveScopes db granter = .ok held ∧ d ∈ held ∧ Covers d scope := by
  unfold canDelegate at h
  split at h
  · rw [← Except.ok.inj h] at hallowed
    exact absurd hallowed (by simp)
  split at h
  · next hwild =>
    obtain ⟨held, hheld, rfl⟩ := except_map_ok h
    refine ⟨held, ?_⟩
    split at hallowed
    · next hmem => exact ⟨wildcardAll, hheld, by simpa using hmem, .inr (.inl rfl)⟩
    split at hallowed
    · next hmem => exact ⟨wildcardSecurity, hheld, by simpa using hmem.2, .inl hmem.1.symm⟩
    · exact absurd hallowed (by simp)
  · next hwild =>
    have hfield : scope ∈ securityFields := by
      rcases mem_append.mp hscope with h | h
      · exact h
      · exact absurd (by simpa using h) hwild
    rw [normalizeField_of_mem hfield] at h
    obtain ⟨q, held, d, hq, hheld, hd, hcov⟩ := covers_of_check hg h hallowed
    rw [normalizeField_of_mem hfield] at hq
    rw [← Except.ok.inj hq] at hcov
    exact ⟨held, d, hheld, hd, hcov⟩

theorem mem_of_canonicalScope {scope c : String} (h : canonicalScope u scope = .ok c) :
    c ∈ grantableScopes := by
  unfold canonicalScope at h
  split at h
  · exact absurd h (by simp)
  split at h
  · next hw =>
    rw [← Except.ok.inj h]
    exact mem_append_right _ (by simpa using hw)
  · exact mem_append_left _ (mem_of_normalizeField h)

/-! ## The log of a store -/

/-- The fact an entry is recorded under. -/
def factOf : Delegation.Entry String String → String
  | .grant .. => grantFact
  | .revoke .. => revokeFact

/-- A principal's events in the store, as far as the replay reads them. -/
def eventsOf (db : Db) (principal : String) : List (String × Except GrantExc (Option String)) :=
  (db.assertionsFor ("security-grant:" ++ principal) "broker-derived").map fun ev =>
    (ev.fact, eventScope ev.value)

/-- A principal's entries in a log, oldest first. -/
def entriesOf (log : List (Delegation.Entry String String)) (principal : String) :
    List (Delegation.Entry String String) :=
  log.reverse.filter fun e => e.principal = principal

/-- The store holds the events of a log. -/
def Tracks (s : Store) (log : List (Delegation.Entry String String)) : Prop :=
  ∀ p, eventsOf s.db p = (entriesOf log p).map fun e => (factOf e, .ok (some e.cap))

/-- The scopes that a list of entries leaves. -/
def replayEntries (held : List String) (es : List (Delegation.Entry String String)) : List String :=
  es.foldl (fun held e => applyEvent held (factOf e) e.cap) held

theorem replay_eq {evs : List StoredAssertion} {es : List (Delegation.Entry String String)}
    (h : evs.map (fun ev => (ev.fact, eventScope ev.value)) =
      es.map fun e => (factOf e, .ok (some e.cap))) (held : List String) :
    replay held evs = .ok (replayEntries held es) := by
  induction evs generalizing es held with
  | nil =>
    rw [map_nil, eq_comm, map_eq_nil_iff] at h
    rw [h]
    rfl
  | cons ev evs ih =>
    cases es with
    | nil => exact absurd h (by simp)
    | cons e es =>
      rw [map_cons, map_cons, cons.injEq, Prod.mk.injEq] at h
      obtain ⟨⟨hfact, hscope⟩, h⟩ := h
      rw [replay, hscope]
      simp only
      rw [ih h, hfact]
      rfl

theorem mem_replayEntries (log : List (Delegation.Entry String String)) (p c : String) :
    c ∈ replayEntries [] (entriesOf log p) ↔ Delegation.Holds p c log := by
  induction log with
  | nil => simp [entriesOf, replayEntries, Delegation.Holds]
  | cons e older ih =>
    have hcons : replayEntries [] (entriesOf (e :: older) p) =
        if e.principal = p then
          applyEvent (replayEntries [] (entriesOf older p)) (factOf e) e.cap
        else replayEntries [] (entriesOf older p) := by
      rw [entriesOf, reverse_cons, filter_append, replayEntries, foldl_append,
        filter_singleton]
      split <;> simp_all [replayEntries, entriesOf]
    rw [hcons]
    by_cases hq : e.principal = p
    · rw [if_pos hq]
      cases e with
      | grant g q d =>
        have happly : ∀ held, applyEvent held (factOf (.grant g q d)) d = held.insert d :=
          fun held => if_pos rfl
        change q = p at hq
        show c ∈ applyEvent _ _ d ↔ (q = p ∧ d = c) ∨ Delegation.Holds p c older
        rw [happly, mem_insert_iff, ih, eq_comm (a := c)]
        simp only [hq, true_and]
      | revoke g q d =>
        have happly : ∀ held, applyEvent held (factOf (.revoke g q d)) d =
            held.filter fun s => s ≠ d := by
          intro held
          rw [applyEvent, if_neg (by simp [factOf, grantFact, revokeFact]), if_pos (by rfl)]
        change q = p at hq
        show c ∈ applyEvent _ _ d ↔ ¬ (q = p ∧ d = c) ∧ Delegation.Holds p c older
        rw [happly, mem_filter, ih, decide_eq_true_eq, and_comm, ne_comm]
        simp only [hq, true_and, ne_eq]
    · rw [if_neg hq, ih]
      cases e with
      | grant g q d =>
        change ¬ q = p at hq
        simp [Delegation.Holds, hq]
      | revoke g q d =>
        change ¬ q = p at hq
        simp [Delegation.Holds, hq]

/-- **The held scopes of a principal are those of the log.** -/
theorem Tracks.effectiveScopes {s : Store} {log : List (Delegation.Entry String String)}
    (h : Tracks s log) {p : String} (hp : p ≠ "") :
    ∃ held, effectiveScopes s.db p = .ok held ∧ ∀ c, c ∈ held ↔ Delegation.Holds p c log := by
  refine ⟨_, ?_, fun c => mem_replayEntries log p c⟩
  rw [SecurityGrants.effectiveScopes, grantSubject, if_neg hp]
  exact replay_eq (h p) []

/-! ## Attempts -/

/-- The admin app itself granted a scope in the course of the attempts. -/
def AdminGranted (u : UnicodeDb) (admin : String) (s₀ : Store) (attempts : List Attempt)
    (scope : String) : Prop :=
  ∃ before d after, attempts = before ++ .grant d :: after ∧ d.granter = admin ∧
    canonicalScope u d.scope = .ok scope ∧
    ∃ r, (grant u admin (run (grantStep u admin) s₀ before) d).2 = .ok r

theorem AdminGranted.snoc {admin : String} {s₀ : Store} {attempts : List Attempt} {scope : String}
    (h : AdminGranted u admin s₀ attempts scope) (a : Attempt) :
    AdminGranted u admin s₀ (attempts ++ [a]) scope := by
  obtain ⟨before, d, after, rfl, hrest⟩ := h
  exact ⟨before, d, after ++ [a], by simp, hrest⟩

theorem distinct_delegationAssertion (fact subject canonical : String) (d : Delegating) :
    Distinct (delegationAssertion fact subject canonical d).value := by
  simp [delegationAssertion, Distinct, DistinctFields]

theorem eventScope_delegationAssertion {fact subject canonical : String} {d : Delegating}
    (h : canonical ∈ grantableScopes) :
    eventScope (sortKeys (delegationAssertion fact subject canonical d).value) =
      .ok (some canonical) := by
  have hkeys := distinct_delegationAssertion fact subject canonical d
  rw [delegationAssertion, Distinct] at hkeys
  rw [delegationAssertion, sortKeys, eventScope, lookup_sortFields hkeys.1]
  have hscope : PyDict.lookup [("principal", Json.str d.principal), ("scope", .str canonical),
      ("granter", .str d.granter), ("reason", .str d.reason), ("at", .int d.at')] "scope" =
        some (.str canonical) := rfl
  rw [hscope, Option.map_some, sortKeys_str]
  simp [h]

theorem append_spec (s : Store) (fact : String) {canonical : String} {d : Delegating} (hp : d.principal ≠ "")
    (hc : canonical ∈ grantableScopes) :
    (∃ r, (append u s fact canonical d).2 = .ok r ∧ ∀ p,
        eventsOf (append u s fact canonical d).1.db p = eventsOf s.db p ++
          if d.principal = p then [(fact, .ok (some canonical))] else []) ∨
      ∃ e, (append u s fact canonical d).2 = .error e ∧
        ∀ p, eventsOf (append u s fact canonical d).1.db p = eventsOf s.db p := by
  rw [append, grantSubject, if_neg hp]
  simp only
  set a := delegationAssertion fact ("security-grant:" ++ d.principal) canonical d with ha
  have hwrites : assertionWrites u a d.now = .ok [assertionWrite a d.now] := by
    rw [assertionWrites]
    rfl
  rw [Store.perform, hwrites]
  rcases s.record_single (assertionWrite a d.now) with ⟨ids, hids, cells, hcells, hext⟩ |
      ⟨e, he, hext⟩
  · change (assertionWrite a d.now).cellsIn .assertions = some cells at hcells
    refine .inl ⟨Reply.first ids, ?_, fun p => ?_⟩
    · rw [Prod.map_snd, Prod.map_snd, hids]
      rfl
    · obtain ⟨hsel, hread⟩ := readAssertion_assertionWrite hcells
        (distinct_delegationAssertion fact _ canonical d)
      rw [Prod.map_fst, Prod.map_fst, id, id, eventsOf, hext.assertionsFor, map_append, ← eventsOf]
      congr 1
      rw [cellsOf, filterMap_cons, hcells]
      simp only [filterMap_nil, filter_singleton]
      by_cases hpp : d.principal = p
      · have : selects ("security-grant:" ++ p) "broker-derived" cells = true :=
          (hsel _ _).mpr ⟨by rw [ha, ← hpp]; rfl, rfl⟩
        rw [this, if_pos hpp, cond_true, map_singleton, map_singleton, hread,
          eventScope_delegationAssertion hc]
        rfl
      · have : selects ("security-grant:" ++ p) "broker-derived" cells = false := by
          rw [Bool.eq_false_iff]
          intro hs
          have hsub := ((hsel _ _).mp hs).1
          exact hpp (String.append_right_inj _ |>.mp hsub)
        rw [this, if_neg hpp, cond_false]
        rfl
  · refine .inr ⟨.store e, ?_, fun p => ?_⟩
    · rw [Prod.map_snd, Prod.map_snd, he]
      rfl
    · rw [Prod.map_fst, Prod.map_fst, id, id, eventsOf, hext.assertionsFor]
      simp [cellsOf, eventsOf]

/-- The entry an attempt adds to the log if it succeeds. -/
def Attempt.entry (canonical : String) : Attempt → Delegation.Entry String String
  | .grant d => .grant d.granter d.principal canonical
  | .revoke d => .revoke d.granter d.principal canonical

/-- The arguments of an attempt. -/
def Attempt.args : Attempt → Delegating
  | .grant d => d
  | .revoke d => d

/-- **One attempt**: it records its entry, with the authority for it, or changes nothing
that is replayed. -/
theorem attempt_spec (admin : String) (s : Store) (a : Attempt) :
    (∃ r canonical chk, (attempt u admin s a).2 = .ok r ∧
        canonicalScope u a.args.scope = .ok canonical ∧ a.args.granter ≠ "" ∧
        canDelegate u admin s.db a.args.granter canonical = .ok chk ∧ chk.allowed = true ∧
        ∀ p, eventsOf (attempt u admin s a).1.db p = eventsOf s.db p ++
          if a.args.principal = p then [(factOf (a.entry canonical), .ok (some canonical))] else []) ∨
      ∀ p, eventsOf (attempt u admin s a).1.db p = eventsOf s.db p := by
  have hdelegate : ∀ (fact verb : String) (d : Delegating),
      (∃ r canonical chk, (delegate u admin fact verb s d).2 = .ok r ∧
        canonicalScope u d.scope = .ok canonical ∧ d.granter ≠ "" ∧
        canDelegate u admin s.db d.granter canonical = .ok chk ∧ chk.allowed = true ∧
        ∀ p, eventsOf (delegate u admin fact verb s d).1.db p = eventsOf s.db p ++
          if d.principal = p then [(fact, .ok (some canonical))] else []) ∨
      ∀ p, eventsOf (delegate u admin fact verb s d).1.db p = eventsOf s.db p := by
    intro fact verb d
    generalize hout : delegate u admin fact verb s d = out
    unfold delegate at hout
    split at hout
    · subst hout
      exact .inr fun _ => rfl
    next hp =>
    split at hout
    · subst hout
      exact .inr fun _ => rfl
    next canonical hc =>
    split at hout
    · subst hout
      exact .inr fun _ => rfl
    next chk hchk =>
    split at hout
    · next hallowed =>
      subst hout
      rcases append_spec (u := u) s fact hp (mem_of_canonicalScope hc) with
        ⟨r, hr, hev⟩ | ⟨e, -, hev⟩
      · refine .inl ⟨r, canonical, chk, hr, hc, ?_, hchk, hallowed, hev⟩
        rintro hg
        rw [canDelegate, if_pos hg] at hchk
        rw [← Except.ok.inj hchk] at hallowed
        exact absurd hallowed (by simp)
      · exact .inr hev
    · subst hout
      exact .inr fun _ => rfl
  cases a with
  | grant d => exact hdelegate grantFact "delegate" d
  | revoke d => exact hdelegate revokeFact "revoke" d

/-! ## Runs -/

/-- The store holds no grant log yet. -/
def NoGrants (s : Store) : Prop :=
  ∀ p, s.db.assertionsFor ("security-grant:" ++ p) "broker-derived" = []

/-- **A run of attempts refines a delegation log** whose grants are all authorised. -/
theorem tracks_run (admin : String) {s₀ : Store} (h₀ : NoGrants s₀) (attempts : List Attempt) :
    ∃ log, Tracks (run (grantStep u admin) s₀ attempts) log ∧
      Justified (Delegation.Authorised admin Covers) log ∧
      ∀ q c, Delegation.Entry.grant admin q c ∈ log → AdminGranted u admin s₀ attempts c := by
  induction attempts using reverseRecOn with
  | nil =>
    refine ⟨[], fun p => ?_, trivial, fun q c h => absurd h (by simp)⟩
    show eventsOf s₀.db p = _
    rw [eventsOf, h₀ p]
    rfl
  | append_singleton attempts a ih =>
    obtain ⟨log, htracks, hjust, hadmin⟩ := ih
    set s := run (grantStep u admin) s₀ attempts with hs
    rw [run_append, ← hs]
    show ∃ log, Tracks (attempt u admin s a).1 log ∧ _
    rcases attempt_spec (u := u) admin s a with
      ⟨r, canonical, chk, hr, hc, hg, hchk, hallowed, hev⟩ | hev
    · refine ⟨a.entry canonical :: log, fun p => ?_, ⟨?_, hjust⟩, fun q c hmem => ?_⟩
      · rw [hev, htracks p, entriesOf, entriesOf, reverse_cons, filter_append,
          map_append, filter_singleton]
        congr 1
        have hprin : (a.entry canonical).principal = a.args.principal := by cases a <;> rfl
        have hcap : (a.entry canonical).cap = canonical := by cases a <;> rfl
        rw [hprin]
        by_cases hp : a.args.principal = p
        · rw [if_pos hp, decide_eq_true hp, cond_true, map_singleton, hcap]
        · rw [if_neg hp, decide_eq_false hp, cond_false, map_nil]
      · cases a with
        | revoke d => trivial
        | grant d =>
          by_cases hroot : d.granter = admin
          · exact .inl hroot
          · obtain ⟨held, scope, hheld, hmem, hcov⟩ :=
              covers_of_canDelegate hroot hchk hallowed (mem_of_canonicalScope hc)
            obtain ⟨held', hheld', hiff⟩ := htracks.effectiveScopes hg
            obtain rfl := Except.ok.inj (hheld'.symm.trans hheld)
            exact .inr ⟨scope, hcov, (hiff scope).mp hmem⟩
      · rcases mem_cons.mp hmem with heq | hmem
        · cases a with
          | revoke d => exact absurd heq (by simp [Attempt.entry])
          | grant d =>
            simp only [Attempt.entry, Delegation.Entry.grant.injEq] at heq
            obtain ⟨hroot, -, rfl⟩ := heq
            exact ⟨attempts, d, [], rfl, hroot.symm, hc, r, hr⟩
        · exact (hadmin q c hmem).snoc a
    · refine ⟨log, fun p => ?_, hjust, fun q c hmem => (hadmin q c hmem).snoc a⟩
      rw [hev, htracks p]

/-- **No escalation.**  A principal other than the admin app may mutate a field only if the
admin app granted a scope that matches it; it holds a wildcard only if the admin app
granted this wildcard or, for `security.*`, the full one. -/
theorem no_escalation (admin : String) (s₀ : Store) (h₀ : NoGrants s₀) (attempts : List Attempt)
    (p : String) (hp : p ≠ admin) :
    (∀ f chk, check u admin (run (grantStep u admin) s₀ attempts).db p f = .ok chk →
      chk.allowed = true →
        ∃ q scope, normalizeField u f = .ok q ∧ scopeMatchesField scope q = true ∧
          AdminGranted u admin s₀ attempts scope) ∧
    ∀ held, effectiveScopes (run (grantStep u admin) s₀ attempts).db p = .ok held →
      (wildcardAll ∈ held → AdminGranted u admin s₀ attempts wildcardAll) ∧
      (wildcardSecurity ∈ held → AdminGranted u admin s₀ attempts wildcardSecurity ∨
        AdminGranted u admin s₀ attempts wildcardAll) := by
  obtain ⟨log, htracks, hjust, hadmin⟩ := tracks_run (u := u) admin h₀ attempts
  have hroot : ∀ held scope, effectiveScopes (run (grantStep u admin) s₀ attempts).db p = .ok held →
      scope ∈ held → ∃ d, Covers d scope ∧ AdminGranted u admin s₀ attempts d := by
    intro held scope hheld hmem
    have hne : p ≠ "" := by
      rintro rfl
      rw [SecurityGrants.effectiveScopes, grantSubject, if_pos rfl] at hheld
      exact absurd hheld (by simp [Except.bind])
    obtain ⟨held', hheld', hiff⟩ := htracks.effectiveScopes hne
    rw [hheld'] at hheld
    obtain rfl := Except.ok.inj hheld
    obtain ⟨q, d, hgrant, hcov⟩ := Delegation.root_of_holds (fun c => .inl rfl) Covers.trans hjust
      ((hiff scope).mp hmem)
    exact ⟨d, hcov, hadmin q d hgrant⟩
  refine ⟨fun f chk hchk hallowed => ?_, fun held hheld => ⟨fun hmem => ?_, fun hmem => ?_⟩⟩
  · obtain ⟨q, held, d, hq, hheld, hd, hcov⟩ := covers_of_check hp hchk hallowed
    obtain ⟨d', hcov', hgranted⟩ := hroot held d hheld hd
    exact ⟨q, d', hq, scopeMatchesField_of_covers (hcov'.trans _ _ _ hcov) (mem_of_normalizeField hq),
      hgranted⟩
  · obtain ⟨d, hcov, hgranted⟩ := hroot held _ hheld hmem
    rw [covers_wildcardAll hcov] at hgranted
    exact hgranted
  · obtain ⟨d, hcov, hgranted⟩ := hroot held _ hheld hmem
    rcases covers_wildcardSecurity hcov with rfl | rfl
    · exact .inl hgranted
    · exact .inr hgranted

/-- The admin app hands `security.*` to a workflow, which hands `guards` to a user. -/
def exportDelegations : List Attempt :=
  [.grant ⟨"wf:export", "security.*", adminAppPrincipal, "release", 10, 10⟩,
    .grant ⟨"uid:1000", "guards", "wf:export", "", 11, 11⟩]

theorem no_escalation_exportDelegations :
    ((check UnicodeDb.ascii adminAppPrincipal
        (run (grantStep UnicodeDb.ascii adminAppPrincipal) Store.empty exportDelegations).db
        "uid:1000" "guards").toOption.map GrantCheck.allowed = some true) ∧
      ∃ q scope, normalizeField UnicodeDb.ascii "guards" = .ok q ∧
        scopeMatchesField scope q = true ∧
        AdminGranted UnicodeDb.ascii adminAppPrincipal Store.empty exportDelegations scope := by
  have hallowed : (check UnicodeDb.ascii adminAppPrincipal
      (run (grantStep UnicodeDb.ascii adminAppPrincipal) Store.empty exportDelegations).db
      "uid:1000" "guards").toOption.map GrantCheck.allowed = some true := by decide +kernel
  refine ⟨hallowed, ?_⟩
  cases hchk : check UnicodeDb.ascii adminAppPrincipal
      (run (grantStep UnicodeDb.ascii adminAppPrincipal) Store.empty exportDelegations).db
      "uid:1000" "guards" with
  | error e => rw [hchk] at hallowed; exact absurd hallowed (by simp [Except.toOption])
  | ok chk =>
    rw [hchk] at hallowed
    exact (no_escalation adminAppPrincipal Store.empty (fun _ => rfl) exportDelegations "uid:1000"
      (by decide)).1 "guards" chk hchk (by simpa [Except.toOption] using hallowed)

end SecurityGrants
