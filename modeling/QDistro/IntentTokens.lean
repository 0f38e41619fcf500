/-
# Intent tokens

`verify_intent_token` of the browser bridge: the checks up to the HMAC read the clock once, and a
second part under the lock sweeps the replay memory by that reading and records the request id.
Threads may be anywhere between the two.

A token is valid from one second before its own time until its TTL has passed, and is remembered for
the TTL from its acceptance.  Where it is never presented before its time and the second parts run in
the order of the readings, its validity ends before it is forgotten (`intent_token_single_use`).
-/
import QDistro.JsonRoundTrip
import QDistro.TransitionSystem
import Mathlib.Tactic.Linarith

namespace IntentTokens

open JsonText
open TransitionSystem

/-- `INTENT_TOKEN_TTL_S` -/
def intentTokenTtlS : ℚ := 5

/-- The secrets: the master, and the one derived for an extension. -/
inductive Key
  | master
  | derived (extensionId : String)
  deriving DecidableEq

/-! ## Time stamps -/

/-- `isinstance(ts, (int, float))` -/
def isNumber : Json → Bool
  | .int _ | .bool _ | .float _ => true
  | _ => false

inductive Reading
  | nan
  | negInf
  | finite (q : ℚ)
  | posInf

/-- The number a time stamp is; `floatValue` gives the finite floats. -/
def reading (floatValue : FloatLit → ℚ) : Json → Reading
  | .int n => .finite n
  | .bool b => .finite (if b then 1 else 0)
  | .float f =>
    if f.text = "NaN".toList then .nan
    else if f.text = "Infinity".toList then .posInf
    else if f.text = "-Infinity".toList then .negInf
    else .finite (floatValue f)
  | _ => .nan

/-- `ts > now + 1.0` -/
def Reading.future (now : ℚ) : Reading → Bool
  | .finite q => decide (now + 1 < q)
  | .posInf => true
  | _ => false

/-- `now - ts > INTENT_TOKEN_TTL_S` -/
def Reading.expired (now : ℚ) : Reading → Bool
  | .finite q => decide (intentTokenTtlS < now - q)
  | .negInf => true
  | _ => false

/-- `str(ts)` -/
def stampText : Json → List Char
  | .int n => intText n
  | .bool b => (PyText.pyBool b).toList
  | .float f =>
    if f.text = "NaN".toList then "nan".toList
    else if f.text = "Infinity".toList then "inf".toList
    else if f.text = "-Infinity".toList then "-inf".toList
    else f.text
  | _ => []

/-- `f"{request_id}|{ts}|{op}"` -/
def message (requestId : String) (ts : Json) (op : String) : List Char :=
  requestId.toList ++ '|' :: (stampText ts ++ '|' :: op.toList)

/-! ## Verification -/

/-- The arguments of a call. -/
structure Call where
  token : Json
  op : String
  extensionId : Option String

/-- What a call carries past its checks. -/
structure Checked where
  extensionId : Option String
  key : Key
  requestId : String
  ts : Json
  op : String
  mac : String
  now : ℚ

variable (floatValue : FloatLit → ℚ) (tag : Key → List Char → String) (testMode : Bool)

/-- The secret a call is checked against. -/
def lookupSecret (registered : List String) : Option String → Except String Key
  | none => .ok .master
  | some e =>
    if e ∈ registered then .ok (.derived e)
    else if testMode then .ok .master
    else .error "intent_token_no_handshake"

/-- `verify_intent_token` up to its lock. -/
def verifyChecks (registered : List String) (c : Call) (now : ℚ) : Except String Checked :=
  match c.token with
  | .obj fields =>
    match PyDict.lookup fields "request_id", PyDict.lookup fields "ts",
      PyDict.lookup fields "op", PyDict.lookup fields "hmac" with
    | some (.str requestId), some ts, some (.str tokOp), some (.str mac) =>
      if requestId = "" ∨ isNumber ts = false ∨ mac = "" then .error "missing_intent_token"
      else if tokOp ≠ c.op then .error "intent_token_op_mismatch"
      else if (reading floatValue ts).future now then .error "intent_token_future"
      else if (reading floatValue ts).expired now then .error "intent_token_expired"
      else
        match lookupSecret testMode registered c.extensionId with
        | .error e => .error e
        | .ok key =>
          if tag key (message requestId ts tokOp) ≠ mac then .error "intent_token_bad_hmac"
          else .ok ⟨c.extensionId, key, requestId, ts, tokOp, mac, now⟩
    | _, _, _, _ => .error "missing_intent_token"
  | _ => .error "missing_intent_token"

structure Verifier where
  clock : ℚ
  /-- The extensions that shook hands. -/
  registered : List String
  used : PyDict String ℚ
  /-- The calls between their checks and the lock. -/
  inflight : ℕ → Option Checked
  accepted : List Checked
  /-- The readings by which the memory was swept. -/
  swept : List ℚ

inductive Action
  | handshake (extensionId : String)
  | check (thread : ℕ) (c : Call) (now : ℚ)
  | commit (thread : ℕ)

/-- `_sweep_used_tokens(now)` -/
def sweepUsedTokens (used : PyDict String ℚ) (now : ℚ) : PyDict String ℚ :=
  used.filter fun e => !decide (e.2 < now - intentTokenTtlS)

def step (s : Verifier) : Action → Verifier
  | .handshake e => { s with registered := e :: s.registered }
  | .check thread c now =>
    -- the clock does not go back, and a thread makes one call at a time
    if now < s.clock ∨ (s.inflight thread).isSome then s
    else
      match verifyChecks floatValue tag testMode s.registered c now with
      | .ok k => { s with clock := now, inflight := Function.update s.inflight thread (some k) }
      | .error _ => { s with clock := now }
  | .commit thread =>
    match s.inflight thread with
    | none => s
    | some k =>
      let used := sweepUsedTokens s.used k.now
      let s' := { s with
        inflight := Function.update s.inflight thread none
        swept := k.now :: s.swept }
      if (used.get? k.requestId).isSome then { s' with used := used }
      else { s' with used := used.insert k.requestId k.now, accepted := k :: s.accepted }

/-- A session at its start. -/
def initial (clock : ℚ) : Verifier := ⟨clock, [], .empty, fun _ => none, [], []⟩

/-! ## The message names the token -/

theorem float_text {f : FloatLit} (h₁ : f.text ≠ "NaN".toList) (h₂ : f.text ≠ "Infinity".toList)
    (h₃ : f.text ≠ "-Infinity".toList) :
    (∀ c ∈ f.text, isNumChar c = true) ∧ isIntText f.text = false := by
  have hwf := f.wf
  simp only [isSpecialText, beq_eq_false_iff_ne.mpr h₁, beq_eq_false_iff_ne.mpr h₂,
    beq_eq_false_iff_ne.mpr h₃, Bool.or_false, Bool.false_or] at hwf
  simp only [isFloatText, Bool.and_eq_true, List.all_eq_true, Bool.not_eq_eq_eq_not,
    Bool.not_true] at hwf
  exact ⟨hwf.1.1.1, hwf.1.1.2⟩

/-- The time stamps whose text is a word. -/
inductive Word : List Char → Json → Prop
  | yes : Word "True".toList (.bool true)
  | no : Word "False".toList (.bool false)
  | nan {f : FloatLit} (h : f.text = "NaN".toList) : Word "nan".toList (.float f)
  | posInf {f : FloatLit} (h : f.text = "Infinity".toList) : Word "inf".toList (.float f)
  | negInf {f : FloatLit} (h : f.text = "-Infinity".toList) : Word "-inf".toList (.float f)

/-- What the text of a time stamp is. -/
inductive StampText (t : List Char) : Json → Prop
  | int {n : ℤ} (h : t = intText n) : StampText t (.int n)
  | float {f : FloatLit} (h : t = f.text) (hnum : ∀ c ∈ f.text, isNumChar c = true)
      (hint : isIntText f.text = false) : StampText t (.float f)
  | word {ts : Json} (h : Word t ts) : StampText t ts

variable {ts : Json}

theorem stampText_spec (h : isNumber ts = true) : StampText (stampText ts) ts := by
  cases ts with
  | int n => exact .int rfl
  | bool b =>
    cases b with
    | false => exact .word .no
    | true => exact .word .yes
  | float f =>
    rw [stampText]
    split_ifs with h₁ h₂ h₃
    · exact .word (.nan h₁)
    · exact .word (.posInf h₂)
    · exact .word (.negInf h₃)
    · obtain ⟨hnum, hint⟩ := float_text h₁ h₂ h₃
      exact .float rfl hnum hint
  | null => cases h
  | str s => cases h
  | arr items => cases h
  | obj fields => cases h

theorem Word.mem {t : List Char} (h : Word t ts) : t ∈ ["True".toList,
    "False".toList, "nan".toList, "inf".toList, "-inf".toList] := by
  cases h <;> decide

theorem Word.not_num {t : List Char} (h : Word t ts) :
    ¬ ∀ c ∈ t, isNumChar c = true := by
  have hwords : ∀ w ∈ ["True".toList, "False".toList, "nan".toList, "inf".toList, "-inf".toList],
      w.all isNumChar = false := by decide
  intro hall
  rw [← List.all_eq_true, hwords t h.mem] at hall
  cases hall

theorem float_eq {f f' : FloatLit} (h : f.text = f'.text) : Json.float f = .float f' := by
  cases f
  cases f'
  cases h
  rfl

theorem Word.unique {t : List Char} {a b : Json} (ha : Word t a) (hb : Word t b) : a = b := by
  generalize ht : t = t' at hb
  cases ha with
  | yes => cases hb <;> first | rfl | exact absurd ht (by decide)
  | no => cases hb <;> first | rfl | exact absurd ht (by decide)
  | nan h => cases hb <;> first | exact absurd ht (by decide) | exact float_eq (h.trans (Eq.symm ‹_›))
  | posInf h =>
    cases hb <;> first | exact absurd ht (by decide) | exact float_eq (h.trans (Eq.symm ‹_›))
  | negInf h =>
    cases hb <;> first | exact absurd ht (by decide) | exact float_eq (h.trans (Eq.symm ‹_›))

theorem bar_not_mem_stampText (h : isNumber ts = true) : '|' ∉ stampText ts := by
  intro hmem
  cases stampText_spec h with
  | int hn =>
    rw [hn] at hmem
    exact absurd (isNumChar_of_mem_intText hmem) (by decide)
  | float hf hnum _ =>
    rw [hf] at hmem
    exact absurd (hnum _ hmem) (by decide)
  | word hw =>
    have hwords : ∀ w ∈ ["True".toList, "False".toList, "nan".toList, "inf".toList,
        "-inf".toList], '|' ∉ w := by decide
    exact hwords _ hw.mem hmem

/-- **A text is that of one time stamp.** -/
theorem StampText.unique {t : List Char} {a b : Json} (ha : StampText t a) (hb : StampText t b) :
    a = b := by
  cases ha with
  | @int n h =>
    cases hb with
    | int h' => rw [← intValue_intText n, ← h, h', intValue_intText]
    | float h' _ hint =>
      rw [← h', h, isIntText_intText] at hint
      cases hint
    | word h' =>
      refine absurd ?_ h'.not_num
      rw [h]
      exact fun c hc => isNumChar_of_mem_intText hc
  | float h hnum hint =>
    cases hb with
    | int h' =>
      rw [← h, h', isIntText_intText] at hint
      cases hint
    | float h' _ _ => exact float_eq (h.symm.trans h')
    | word h' => exact absurd (fun c hc => hnum c (h ▸ hc)) h'.not_num
  | word h =>
    cases hb with
    | int h' =>
      refine absurd ?_ h.not_num
      rw [h']
      exact fun c hc => isNumChar_of_mem_intText hc
    | float h' hnum _ => exact absurd (fun c hc => hnum c (h' ▸ hc)) h.not_num
    | word h' => exact h.unique h'

/-- **The message names the token** where its op has no bar. -/
theorem message_inj {r r' op op' : String} {ts' : Json} (hts : isNumber ts = true)
    (hts' : isNumber ts' = true) (hop : '|' ∉ op.toList) (hop' : '|' ∉ op'.toList)
    (h : message r ts op = message r' ts' op') : r = r' ∧ ts = ts' ∧ op = op' := by
  have hfields : ∀ {r op : String} {ts : Json}, isNumber ts = true → '|' ∉ op.toList →
      PyText.split '|' 2 (message r ts op).reverse =
        [op.toList.reverse, (stampText ts).reverse, r.toList.reverse] := by
    intro r op ts hts hop
    have htext : (message r ts op).reverse =
        op.toList.reverse ++ '|' :: ((stampText ts).reverse ++ '|' :: r.toList.reverse) := by
      simp [message]
    rw [htext, PyText.split_append _ _ _ _ (by simpa using hop),
      PyText.split_append _ _ _ _ (by simpa using bar_not_mem_stampText hts)]
    rfl
  have heq := hfields hts hop (r := r)
  rw [h, hfields hts' hop'] at heq
  simp only [List.cons.injEq, and_true, List.reverse_inj] at heq
  obtain ⟨hop, hstamp, hr⟩ := heq
  refine ⟨String.toList_inj.mp hr.symm, ?_, String.toList_inj.mp hop.symm⟩
  have hspec := stampText_spec hts'
  rw [hstamp] at hspec
  exact (stampText_spec hts).unique hspec

/-! ## One token -/

/-- A token an extension mints under its derived secret. -/
structure Token where
  extensionId : String
  requestId : String
  ts : Json
  op : String

def Token.mac (T : Token) : String :=
  tag (.derived T.extensionId) (message T.requestId T.ts T.op)

/-- The call presents a token with this tag. -/
def Call.Carries (c : Call) (mac : String) : Prop :=
  ∃ fields, c.token = .obj fields ∧ PyDict.lookup fields "hmac" = some (.str mac)

/-- What the checks leave. -/
structure Passed (c : Call) (now : ℚ) (k : Checked) : Prop where
  carries : c.Carries k.mac
  extensionId : k.extensionId = c.extensionId
  op : k.op = c.op
  time : k.now = now
  isNumber : isNumber k.ts = true
  notExpired : (reading floatValue k.ts).expired now = false
  tag : tag k.key (message k.requestId k.ts k.op) = k.mac
  key : ∀ e, k.key = .derived e → k.extensionId = some e

theorem lookupSecret_derived {registered : List String} {x : Option String} {e : String}
    (h : lookupSecret testMode registered x = .ok (.derived e)) : x = some e := by
  cases x with
  | none => cases h
  | some e' =>
    rw [lookupSecret] at h
    split_ifs at h
    · cases h
      rfl
    · cases h

theorem verifyChecks_spec {registered : List String} {c : Call} {now : ℚ} {k : Checked}
    (h : verifyChecks floatValue tag testMode registered c now = .ok k) :
    Passed floatValue tag c now k := by
  unfold verifyChecks at h
  split at h
  next fields hfields =>
    split at h
    next requestId ts tokOp mac _ _ _ hmac =>
      split_ifs at h with hshape hop hfuture hexpired
      split at h
      next => cases h
      next key hkey =>
        split_ifs at h with htag
        cases h
        simp only [not_or, Bool.not_eq_false] at hshape
        exact
          { carries := ⟨fields, hfields, hmac⟩
            extensionId := rfl
            op := not_not.mp hop
            time := rfl
            isNumber := hshape.2.1
            notExpired := Bool.not_eq_true _ ▸ hexpired
            tag := not_not.mp htag
            key := fun e he => lookupSecret_derived testMode (hkey.trans (congrArg Except.ok he)) }
    next => cases h
  next => cases h

/-- The token is a number, no call presents it before its time or for an op with a bar in its name,
and the second parts run in the order of the readings. -/
def ok (T : Token) (s : Verifier) : Action → Prop
  | .handshake _ => True
  | .check _ c now => c.Carries (T.mac tag) →
      '|' ∉ c.op.toList ∧ ∃ q, reading floatValue T.ts = .finite q ∧ q ≤ now
  | .commit thread => ∀ k, s.inflight thread = some k → ∀ t ∈ s.swept, t ≤ k.now

/-- A call that presents the token is the one it was minted for, within its time. -/
def Fits (T : Token) (k : Checked) : Prop :=
  k.mac = T.mac tag → k.extensionId = some T.extensionId ∧ k.op = T.op ∧
    k.requestId = T.requestId ∧
    ∃ q, reading floatValue T.ts = .finite q ∧ q ≤ k.now ∧ k.now ≤ q + intentTokenTtlS

structure Inv (T : Token) (s : Verifier) : Prop where
  inflight : ∀ thread k, s.inflight thread = some k → Fits floatValue tag T k
  accepted : ∀ k ∈ s.accepted, Fits floatValue tag T k
  once : (s.accepted.filter fun k => k.mac = T.mac tag).length ≤ 1
  /-- An accepted token is remembered, or a sweep has passed the end of its validity. -/
  memory : ∀ k ∈ s.accepted, k.mac = T.mac tag → s.used.get? T.requestId = some k.now ∨
    ∃ t ∈ s.swept, ∀ q, reading floatValue T.ts = .finite q → q + intentTokenTtlS < t

variable {floatValue} {tag} {testMode} {T : Token} {s : Verifier}

theorem fits_of_passed {c : Call} {now : ℚ} {k : Checked} (h : Passed floatValue tag c now k)
    (hnum : isNumber T.ts = true) (hop : '|' ∉ T.op.toList)
    (hunforged : ∀ key m, tag key m = T.mac tag →
      key = .derived T.extensionId ∧ m = message T.requestId T.ts T.op)
    (hok : c.Carries (T.mac tag) →
      '|' ∉ c.op.toList ∧ ∃ q, reading floatValue T.ts = .finite q ∧ q ≤ now) :
    Fits floatValue tag T k := by
  intro hmac
  obtain ⟨hbar, q, hq, hle⟩ := hok (hmac ▸ h.carries)
  obtain ⟨hkey, hmessage⟩ := hunforged _ _ (h.tag.trans hmac)
  rw [← h.op] at hbar
  obtain ⟨hr, hts, hop⟩ := message_inj h.isNumber hnum hbar hop hmessage
  refine ⟨h.key _ hkey, hop, hr, q, hq, ?_, ?_⟩
  · rw [h.time]
    exact hle
  · have hexpired := h.notExpired
    rw [hts, hq, Reading.expired, decide_eq_false_iff_not] at hexpired
    rw [h.time]
    linarith

theorem get?_sweep {used : PyDict String ℚ} {r : String} {t : ℚ} (now : ℚ)
    (h : used.get? r = some t) : (sweepUsedTokens used now).get? r = some t ∨
      t + intentTokenTtlS < now := by
  by_cases hlt : t < now - intentTokenTtlS
  · right
    linarith
  · left
    rw [sweepUsedTokens, PyDict.get?_filter_eq_some_iff]
    exact ⟨h, by simp [hlt]⟩

theorem Inv.commit (h : Inv floatValue tag T s) {thread : ℕ}
    (hok : ok floatValue tag T s (.commit thread)) :
    Inv floatValue tag T (step floatValue tag testMode s (.commit thread)) := by
  rw [step]
  split
  next => exact h
  next k hk =>
    have hfits := h.inflight thread k hk
    have hinflight : ∀ thread' k', Function.update s.inflight thread none thread' = some k' →
        Fits floatValue tag T k' := by
      intro thread' k' hk'
      by_cases heq : thread' = thread
      · rw [heq, Function.update_self] at hk'
        cases hk'
      · rw [Function.update_of_ne heq] at hk'
        exact h.inflight thread' k' hk'
    -- the sweep forgets the token only after its validity
    have hmemory : ∀ k' ∈ s.accepted, k'.mac = T.mac tag →
        (sweepUsedTokens s.used k.now).get? T.requestId = some k'.now ∨
          ∃ t ∈ k.now :: s.swept, ∀ q, reading floatValue T.ts = .finite q →
            q + intentTokenTtlS < t := by
      intro k' hk' hmac
      rcases h.memory k' hk' hmac with hused | ⟨t, ht, hpast⟩
      · rcases get?_sweep k.now hused with hkept | hlt
        · exact .inl hkept
        · refine .inr ⟨k.now, List.mem_cons_self, fun q hq => ?_⟩
          obtain ⟨-, -, -, q', hq', hle, -⟩ := h.accepted k' hk' hmac
          rw [hq] at hq'
          cases hq'
          linarith
      · exact .inr ⟨t, List.mem_cons_of_mem _ ht, hpast⟩
    dsimp only
    split_ifs with hused
    · exact ⟨hinflight, h.accepted, h.once, hmemory⟩
    · have hnone := Option.not_isSome_iff_eq_none.mp hused
      -- a token that is forgotten is no longer valid
      have hfirst : k.mac = T.mac tag → ∀ k' ∈ s.accepted, k'.mac ≠ T.mac tag := by
        intro hmac k' hk' hmac'
        obtain ⟨-, -, hr, q, hq, -, hvalid⟩ := hfits hmac
        rcases hmemory k' hk' hmac' with hget | ⟨t, ht, hpast⟩
        · rw [← hr, hnone] at hget
          cases hget
        · have hlt := hpast q hq
          rcases List.mem_cons.mp ht with rfl | ht
          · linarith
          · have := hok k hk t ht
            linarith
      refine ⟨hinflight, ?_, ?_, ?_⟩
      · intro k' hk'
        rcases List.mem_cons.mp hk' with rfl | hk'
        · exact hfits
        · exact h.accepted k' hk'
      · dsimp only
        rw [List.filter_cons]
        split_ifs with hmac
        · have hempty : (s.accepted.filter fun k => k.mac = T.mac tag) = [] := by
            rw [List.filter_eq_nil_iff]
            intro k' hk'
            simpa using hfirst (by simpa using hmac) k' hk'
          rw [hempty]
          rfl
        · exact h.once
      · intro k' hk' hmac
        rcases List.mem_cons.mp hk' with rfl | hk'
        · left
          rw [← (hfits hmac).2.2.1]
          exact PyDict.get?_insert_self _ _ _
        · rcases hmemory k' hk' hmac with hget | hpast
          · left
            have hne : k.requestId ≠ T.requestId := by
              intro heq
              rw [← heq, hnone] at hget
              cases hget
            dsimp only
            rw [PyDict.get?_insert_of_ne _ _ hne]
            exact hget
          · exact .inr hpast

theorem Inv.step (h : Inv floatValue tag T s) (hnum : isNumber T.ts = true)
    (hop : '|' ∉ T.op.toList)
    (hunforged : ∀ key m, tag key m = T.mac tag →
      key = .derived T.extensionId ∧ m = message T.requestId T.ts T.op)
    {a : Action} (hok : ok floatValue tag T s a) :
    Inv floatValue tag T (IntentTokens.step floatValue tag testMode s a) := by
  cases a with
  | handshake e => exact ⟨h.inflight, h.accepted, h.once, h.memory⟩
  | check thread c now =>
    rw [IntentTokens.step]
    split_ifs with hbusy
    · exact h
    split
    next k hk =>
      refine ⟨?_, h.accepted, h.once, h.memory⟩
      intro thread' k' hk'
      dsimp only at hk'
      by_cases heq : thread' = thread
      · rw [heq, Function.update_self] at hk'
        cases hk'
        exact fits_of_passed (verifyChecks_spec _ _ _ hk) hnum hop hunforged hok
      · rw [Function.update_of_ne heq] at hk'
        exact h.inflight thread' k' hk'
    next => exact ⟨h.inflight, h.accepted, h.once, h.memory⟩
  | commit thread => exact h.commit hok

variable (floatValue) (tag) (testMode)

/-- **A token is accepted once, for its extension and op, within its time.**  `hunforged` says that
its tag is the tag of no other secret and message. -/
theorem intent_token_single_use {clock : ℚ} {as : List Action} (T : Token)
    (h : Meets (step floatValue tag testMode) (ok floatValue tag T) (initial clock) as)
    (hnum : isNumber T.ts = true) (hop : '|' ∉ T.op.toList)
    (hunforged : ∀ key m, tag key m = T.mac tag →
      key = .derived T.extensionId ∧ m = message T.requestId T.ts T.op) :
    let accepted := (run (step floatValue tag testMode) (initial clock) as).accepted
    (accepted.filter fun k => k.mac = T.mac tag).length ≤ 1 ∧
      ∀ k ∈ accepted, k.mac = T.mac tag → k.extensionId = some T.extensionId ∧ k.op = T.op ∧
        ∃ q, reading floatValue T.ts = .finite q ∧ q - 1 ≤ k.now ∧
          k.now ≤ q + intentTokenTtlS := by
  have hinv : Inv floatValue tag T (run (step floatValue tag testMode) (initial clock) as) := by
    refine h.invariant (fun s a hok hs => hs.step hnum hop hunforged hok) ⟨?_, ?_, ?_, ?_⟩
    · exact fun thread k hk => (by cases hk)
    · exact fun k hk => absurd hk List.not_mem_nil
    · exact Nat.zero_le _
    · exact fun k hk => absurd hk List.not_mem_nil
  refine ⟨hinv.once, fun k hk hmac => ?_⟩
  obtain ⟨hext, hop, -, q, hq, hle, hvalid⟩ := hinv.accepted k hk hmac
  exact ⟨hext, hop, q, hq, by linarith, hvalid⟩

/-! ## A token of ten seconds past the epoch -/

def fillToken : Token := ⟨"ext@qdistro", "q1", .int 10, "pwd.fill"⟩

/-- Tags that no one forges. -/
def idealTag (key : Key) (m : List Char) : String :=
  if key = .derived "ext@qdistro" ∧ m = message "q1" (.int 10) "pwd.fill" then "7a" else "00"

theorem idealTag_unforged (key : Key) (m : List Char) (h : idealTag key m = fillToken.mac idealTag) :
    key = .derived fillToken.extensionId ∧
      m = message fillToken.requestId fillToken.ts fillToken.op := by
  have hmac : fillToken.mac idealTag = "7a" := by decide +kernel
  rw [hmac, idealTag] at h
  split_ifs at h with hkey
  · exact hkey
  · exact absurd h (by decide)

def fillCall : Call where
  token := .obj [("request_id", .str "q1"), ("ts", .int 10), ("op", .str "pwd.fill"),
    ("hmac", .str "7a")]
  op := "pwd.fill"
  extensionId := some "ext@qdistro"

theorem swept_check (s : Verifier) (thread : ℕ) (c : Call) (now : ℚ) :
    (step floatValue tag testMode s (.check thread c now)).swept = s.swept := by
  rw [step]
  split_ifs
  · rfl
  split <;> rfl

theorem fillToken_accepted :
    Meets (step (fun _ => 0) idealTag false) (ok (fun _ => 0) idealTag fillToken) (initial 9)
      [.handshake "ext@qdistro", .check 0 fillCall 11, .commit 0] ∧
    ((run (step (fun _ => 0) idealTag false) (initial 9)
      [.handshake "ext@qdistro", .check 0 fillCall 11, .commit 0]).accepted.filter
        fun k => k.mac = fillToken.mac idealTag).length ≤ 1 ∧
    (run (step (fun _ => 0) idealTag false) (initial 9)
      [.handshake "ext@qdistro", .check 0 fillCall 11, .commit 0]).accepted.length = 1 := by
  have hmeets : Meets (step (fun _ => 0) idealTag false) (ok (fun _ => 0) idealTag fillToken)
      (initial 9) [.handshake "ext@qdistro", .check 0 fillCall 11, .commit 0] := by
    refine ⟨trivial, fun _ => ⟨by decide, 10, rfl, by norm_num⟩, ?_, trivial⟩
    intro k _ t ht
    rw [swept_check] at ht
    exact absurd ht List.not_mem_nil
  refine ⟨hmeets, ?_, by decide +kernel⟩
  exact (intent_token_single_use _ _ _ fillToken hmeets rfl (by decide) idealTag_unforged).1

/-- **A token presented before its time is accepted twice**: it is forgotten five seconds after its
acceptance, and valid for five seconds after its time. -/
theorem early_token_accepted_twice :
    (∀ key m, idealTag key m = fillToken.mac idealTag → key = .derived fillToken.extensionId ∧
      m = message fillToken.requestId fillToken.ts fillToken.op) ∧
    ((run (step (fun _ => 0) idealTag false) (initial 9)
      [.handshake "ext@qdistro", .check 0 fillCall 9, .commit 0, .check 0 fillCall 15,
        .commit 0]).accepted.filter fun k => k.mac = fillToken.mac idealTag).length = 2 :=
  ⟨idealTag_unforged, by decide +kernel⟩

end IntentTokens
