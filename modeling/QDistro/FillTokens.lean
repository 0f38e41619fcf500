/-
# Fill tokens

`Fill` lists credentials without their passwords and hands out a token; `FillConfirm` turns the
token and one listed username into the password.  The approvals live in a table that expiry, use
and every lock of the browser vault empty.

One lemma for each way a call can touch the table (`serve_tokens`, `serve_locks`,
`serve_released`) carries the invariant `Backed`: behind every approval of the table stands the
`Fill` that stored it, and since then the browser vault was not locked and the approval not used.
-/
import QDistro.PasswordDaemon

namespace Pwd

open JsonText TransitionSystem Daemon
open SecurityGrants (truthy)

variable (P : Platform) (cfg : Config)

/-! ## What a served call did -/

/-- The call locked the browser vault. -/
def Served.Locks (st : Served) : Prop :=
  st.before.isUnlocked cfg.browserVault = true ∧ st.after.isUnlocked cfg.browserVault = false

/-- The call released the password of `username` for `token`. -/
def Served.Releases (st : Served) (token username : String) : Prop :=
  ∃ caller fields c password, st.call = .fillConfirm caller (some (.obj fields)) ∧
    textField fields "username" = some username ∧ truthy (reqGet fields "fill_token") = true ∧
    P.format (reqGet fields "fill_token") = token ∧ st.reply = .released c password

/-- The call is a `Fill` of process `pid` that returned `token` with `username` listed for
`origin`. -/
def Served.Grants (st : Served) (pid : ℕ) (origin token username : String) : Prop :=
  ∃ caller req credentials, st.call = .fill caller req ∧ caller.pid = pid ∧
    st.reply = .listed credentials token ∧
    ∃ c ∈ credentials, c.username = username ∧ c.url = origin

/-- The call is a `Fill` that drew `token` and raised at its audit row, so that nobody was told
the token. -/
def Served.Withholds (st : Served) (token : String) : Prop :=
  ∃ caller req, st.call = .fill caller req ∧ st.env.token = token ∧
    st.reply = .raised .auditError

/-- Nobody presents a token that was never handed out: what `secrets.token_urlsafe` is for. -/
def Unguessed (w : World) (c : Call × Env) : Prop :=
  ∀ caller fields, c.1 = .fillConfirm caller (some (.obj fields)) →
    ∀ st ∈ w.log, ¬st.Withholds (P.format (reqGet fields "fill_token"))

/-- No two `Fill`s returned the same token. -/
def FreshTokens (log : List Served) : Prop :=
  log.Pairwise fun a b => ∀ token pid₁ origin₁ username₁ pid₂ origin₂ username₂,
    a.Grants pid₁ origin₁ token username₁ → ¬b.Grants pid₂ origin₂ token username₂

/-- The approval behind a release: a `Fill` that returned the token to the same process for the
same origin with the username listed, not expired, with neither a lock of the browser vault nor a
release of that token and username since.  If tokens do not repeat, there was none ever. -/
structure Approved (older : List Served) (pid : ℕ) (origin token username : String) (now : ℤ) :
    Prop where
  granted : ∃ newer fill rest, older = newer ++ fill :: rest ∧
    fill.Grants pid origin token username ∧ now ≤ fill.env.now + fillTokenTtl ∧
    ∀ st ∈ newer, ¬st.Locks cfg ∧ ¬st.Releases P token username
  unused : FreshTokens older → ∀ st ∈ older, ¬st.Releases P token username

/-- The request names the process, origin and username of an approval. -/
def Fits (caller : Caller) (req : Option Json) (t : FillToken) : Prop :=
  ∃ fields url username, req = some (.obj fields) ∧ textField fields "url" = some url ∧
    textField fields "username" = some username ∧ t.origin = normalizeUrlOrigin P url ∧
    t.username = username ∧ t.pid = caller.pid

/-! ## The table, call by call -/

@[simp] theorem Daemon.touch_fillTokens (s : Daemon) (vault : String) (now : ℤ) :
    (s.touch vault now).fillTokens = s.fillTokens := by
  unfold touch
  split <;> rfl

@[simp] theorem Daemon.touch_items (s : Daemon) (vault name : String) (now : ℤ) :
    (s.touch vault now).items name = s.items name := by
  unfold touch
  split <;> rfl

@[simp] theorem Daemon.touch_isUnlocked (s : Daemon) (vault name : String) (now : ℤ) :
    (s.touch vault now).isUnlocked name = s.isUnlocked name := by
  unfold touch isUnlocked
  split
  · rfl
  · next v hv =>
    by_cases hn : name = vault
    · subst hn
      simp [hv]
    · rw [PyDict.get?_insert_of_ne _ _ (Ne.symm hn)]

variable {s : Daemon} {k : String} {t : FillToken}

theorem Daemon.relock_fillTokens {vault : String}
    (h : (s.relock cfg vault).fillTokens.get? k = some t) :
    vault ≠ cfg.browserVault ∧ s.fillTokens.get? k = some t := by
  unfold relock at h
  by_cases hv : vault = cfg.browserVault
  · simp [hv] at h
  · exact ⟨hv, by simpa [hv] using h⟩

theorem Daemon.relock_isUnlocked {vault name : String} (h : vault ≠ name) :
    (s.relock cfg vault).isUnlocked name = s.isUnlocked name := by
  unfold relock isUnlocked
  rw [PyDict.get?_erase_of_ne _ (Ne.symm h)]

variable {e : Env}

/-- The approvals that are left after a lock loop were there before it, and the loop did not lock
the browser vault. -/
theorem lockEach_fillTokens {names : List String} :
    ∀ {i : ℕ} {s : Daemon}, (lockEach cfg e i names s).1.fillTokens.get? k = some t →
      s.fillTokens.get? k = some t ∧
        (lockEach cfg e i names s).1.isUnlocked cfg.browserVault =
          s.isUnlocked cfg.browserVault := by
  induction names with
  | nil =>
    intro i s h
    exact ⟨h, rfl⟩
  | cons n rest ih =>
    intro i s h
    rw [lockEach] at h ⊢
    by_cases hu : s.isUnlocked n = true
    · rw [if_pos hu] at h ⊢
      by_cases hf : e.auditFails = some i
      · rw [if_pos hf] at h ⊢
        obtain ⟨hn, hs⟩ := relock_fillTokens cfg h
        exact ⟨hs, relock_isUnlocked cfg hn⟩
      · rw [if_neg hf] at h ⊢
        obtain ⟨hr, hl⟩ := ih h
        obtain ⟨hn, hs⟩ := relock_fillTokens cfg hr
        exact ⟨hs, hl.trans (relock_isUnlocked cfg hn)⟩
    · rw [if_neg hu] at h ⊢
      exact ih h

variable {token : String}

theorem mint_cases {origin : String} {pid : ℕ} {expires : ℤ} {found : List Credential} :
    ∀ {tokens : PyDict String FillToken},
    (mint token origin pid expires tokens found).get? k = some t →
      tokens.get? k = some t ∨ ∃ c ∈ found, k = tokenKey token c.username ∧
        t = ⟨origin, c.username, pid, expires⟩ := by
  induction found with
  | nil =>
    intro tokens h
    exact .inl h
  | cons c rest ih =>
    intro tokens h
    rcases @ih (tokens.insert (tokenKey token c.username)
      ⟨origin, c.username, pid, expires⟩) h with hk | ⟨c', hc', hk⟩
    · rcases PyDict.get?_insert_cases hk with ⟨rfl, rfl⟩ | ⟨_, hk⟩
      · exact .inr ⟨c, List.mem_cons_self, rfl, rfl⟩
      · exact .inl hk
    · exact .inr ⟨c', List.mem_cons_of_mem _ hc', hk⟩

/-- A call that stores no approval: what is in the table afterwards was there before, and then the
browser vault was not locked. -/
def KeepsTokens (s s' : Daemon) : Prop :=
  ∀ k t, s'.fillTokens.get? k = some t → s.fillTokens.get? k = some t ∧
    (s.isUnlocked cfg.browserVault = true → s'.isUnlocked cfg.browserVault = true)

variable {cfg}

theorem KeepsTokens.of_eq {s' : Daemon} (ht : s'.fillTokens = s.fillTokens)
    (hu : s'.isUnlocked cfg.browserVault = s.isUnlocked cfg.browserVault) :
    KeepsTokens cfg s s' := by
  intro k t h
  rw [ht] at h
  rw [hu]
  exact ⟨h, id⟩

theorem KeepsTokens.refl (s : Daemon) : KeepsTokens cfg s s := .of_eq rfl rfl

theorem KeepsTokens.relock (s : Daemon) (vault : String) :
    KeepsTokens cfg s (s.relock cfg vault) := by
  intro k t h
  obtain ⟨hv, hs⟩ := relock_fillTokens cfg h
  refine ⟨hs, fun hu => ?_⟩
  rw [relock_isUnlocked cfg hv, hu]

theorem KeepsTokens.lockEach (e : Env) (names : List String) (s : Daemon) :
    KeepsTokens cfg s (lockEach cfg e 0 names s).1 := by
  intro k t h
  obtain ⟨hs, hl⟩ := lockEach_fillTokens cfg h
  exact ⟨hs, fun hu => hl.trans hu⟩

theorem KeepsTokens.addItem {s' : Daemon} {vault : String} {it : Item}
    (h : Pwd.addItem s vault it e = .ok s') : KeepsTokens cfg s s' := by
  unfold Pwd.addItem at h
  split at h
  · cases h
  · split at h
    · cases h
    · split at h
      · cases h
        exact .of_eq rfl rfl
      · cases h

section

variable (s : Daemon)

theorem keeps_store (caller : Caller) (url origin username password : String) (e : Env)
    : KeepsTokens cfg s (store cfg s caller url origin username password e).1 := by
  unfold store
  dsimp only
  split
  · next h => exact .addItem h
  · exact .refl s
  · exact .refl s

theorem keeps_touch_store (caller : Caller) (url origin username password : String) (e : Env) :
    KeepsTokens cfg s (store cfg (s.touch cfg.browserVault e.touched) caller url origin username
      password e).1 := by
  intro k t h
  obtain ⟨ht, hu⟩ := keeps_store _ caller url origin username password e k t h
  rw [touch_fillTokens] at ht
  rw [touch_isUnlocked] at hu
  exact ⟨ht, hu⟩

theorem keeps_save (caller : Caller) (req : Option Json) (e : Env) :
    KeepsTokens cfg s (save P cfg s caller req e).1 := by
  have hsaved : ∀ url origin username password,
      KeepsTokens cfg s (saveUnlocked P cfg s caller url origin username password e).1 := by
    intro url origin username password
    unfold saveUnlocked
    dsimp only
    split
    · split
      · exact .of_eq (by simp) (by simp)
      · exact keeps_touch_store s caller url origin username password e
    · exact keeps_touch_store s caller url origin username password e
  unfold save
  dsimp only
  repeat' split
  all_goals first
    | exact .refl s
    | exact hsaved _ _ _ _

theorem keeps_addItemCall (uid : ℕ) (vault tag value exe selinux pinUid : String) (e : Env) :
    KeepsTokens cfg s (addItemCall P cfg s uid vault tag value exe selinux pinUid e).1 := by
  have hadd : ∀ n, KeepsTokens cfg s
      (addItemUnlocked (s.touch vault e.touched) vault tag value exe selinux n e).1 := by
    intro n k t h
    have hk : KeepsTokens cfg (s.touch vault e.touched)
        (addItemUnlocked (s.touch vault e.touched) vault tag value exe selinux n e).1 := by
      unfold addItemUnlocked
      dsimp only
      generalize Item.mk tag value _ _ = it
      split
      · next h => exact .addItem h
      · exact .refl _
      · exact .refl _
    obtain ⟨ht, hu⟩ := hk k t h
    rw [touch_fillTokens] at ht
    rw [touch_isUnlocked] at hu
    exact ⟨ht, hu⟩
  unfold addItemCall
  dsimp only
  split
  · exact .refl s
  · split
    · exact .refl s
    · split
      · exact hadd _
      · split
        · exact .of_eq (by simp) (by simp)
        · exact hadd _

theorem keeps_deleteItemCall (uid : ℕ) (vault tag : String) (e : Env) :
    KeepsTokens cfg s (deleteItemCall cfg s uid vault tag e).1 := by
  unfold deleteItemCall
  dsimp only
  repeat' split
  all_goals exact .of_eq rfl rfl

theorem keeps_createVault (uid : ℕ) (name : String) (e : Env) :
    KeepsTokens cfg s (createVault cfg s uid name e).1 := by
  unfold createVault
  repeat' split
  all_goals exact .of_eq rfl rfl

theorem keeps_unlockVault (name : String) (e : Env) :
    KeepsTokens cfg s (unlockVault s name e).1 := by
  unfold unlockVault
  split
  · exact .refl s
  · split
    · intro k t h
      refine ⟨h, fun hu => ?_⟩
      unfold isUnlocked at hu ⊢
      by_cases hn : name = cfg.browserVault
      · simp [hn]
      · rw [PyDict.get?_insert_of_ne _ _ hn, hu]
    · exact .refl s

theorem keeps_lockVault (name : String) (e : Env) :
    KeepsTokens cfg s (lockVault cfg s name e).1 := by
  unfold lockVault
  split
  · exact .relock s name
  · exact .refl s

theorem keeps_idleTick (e : Env) : KeepsTokens cfg s (idleTick cfg s e).1 := by
  unfold idleTick
  dsimp only
  split <;> exact .lockEach e _ s

theorem keeps_lockAllUnlocked (e : Env) :
    KeepsTokens cfg s (lockAllUnlocked cfg s e).1 := by
  unfold lockAllUnlocked
  dsimp only
  split
  · intro k t h
    simp at h
  · exact .lockEach e _ s

theorem keeps_lockAllVaults (uid : ℕ) (reason : String) (e : Env) :
    KeepsTokens cfg s (lockAllVaults cfg s uid reason e).1 := by
  unfold lockAllVaults
  split
  · exact .refl s
  · split
    · exact .refl s
    · exact keeps_lockAllUnlocked s e

theorem keeps_rotateVault (uid : ℕ) (name : String) (e : Env) :
    KeepsTokens cfg s (rotateVault cfg s uid name e).1 := by
  unfold rotateVault
  repeat' split
  all_goals first
    | exact .refl s
    | exact .relock s name

end

/-! ## Fill -/

variable {P}

variable {caller : Caller} {req : Option Json}

theorem fill_tokens (h : (fill P cfg s caller req e).1.fillTokens.get? k = some t) :
    s.fillTokens.get? k = some t ∨
      k = tokenKey e.token t.username ∧ t.pid = caller.pid ∧ t.expires = e.now + fillTokenTtl ∧
        ((fill P cfg s caller req e).2 = .raised .auditError ∨
          ∃ found, (fill P cfg s caller req e).2 = .listed found e.token ∧
            ∃ c ∈ found, c.username = t.username ∧ c.url = t.origin) := by
  revert h
  unfold fill
  dsimp only
  repeat' split
  all_goals try exact fun h => .inl h
  unfold fillUnlocked
  dsimp only
  rw [touch_items]
  repeat' split
  all_goals intro h
  · exact .inl (by simpa using h)
  · exact .inl (by simpa using h)
  · rcases mint_cases h with hold | ⟨c, hc, hk, ht⟩
    · exact .inl (by simpa using ((PyDict.get?_filter_eq_some_iff _ _ _ _).mp hold).1)
    · have hurl : c.url = t.origin := by
        subst ht
        obtain ⟨it, -, rfl⟩ := List.mem_map.mp hc
        rfl
      subst ht
      refine .inr ⟨hk, rfl, rfl, ?_⟩
      unfold audited
      split
      · exact .inl rfl
      · exact .inr ⟨_, rfl, c, hc, rfl, hurl⟩

theorem fill_isUnlocked (s : Daemon) (caller : Caller) (req : Option Json) (e : Env) :
    (fill P cfg s caller req e).1.isUnlocked cfg.browserVault =
      s.isUnlocked cfg.browserVault := by
  unfold fill
  dsimp only
  repeat' split
  all_goals try rfl
  unfold fillUnlocked
  dsimp only
  repeat' split
  all_goals exact touch_isUnlocked ..

/-! ## FillConfirm -/

theorem release_fst (s : Daemon) (caller : Caller) (origin username : String) (e : Env) :
    (release P cfg s caller origin username e).1 = s := by
  unfold release
  repeat' split
  all_goals rfl

variable {username : String}

theorem confirmUnlocked_keeps {fillToken : Json} {origin : String}
    (hk : s.fillTokens.get? k = some t) (hnow : e.now ≤ t.expires)
    (hfit : ¬(t.origin = origin ∧ t.username = username ∧ t.pid = caller.pid)) :
    (confirmUnlocked P cfg s caller fillToken origin username e).1.fillTokens.get? k = some t := by
  unfold confirmUnlocked
  dsimp only
  rw [touch_fillTokens]
  by_cases hkey : k = confirmKey P fillToken username
  · subst hkey
    rw [hk]
    dsimp only
    rw [if_neg (not_lt.mpr hnow), if_pos (by tauto)]
    simpa using hk
  · have herase : (s.fillTokens.erase (confirmKey P fillToken username)).get? k = some t := by
      rw [PyDict.get?_erase_of_ne _ hkey, hk]
    repeat' split
    · exact herase
    · exact herase
    · simpa using hk
    · rw [release_fst]
      exact herase

theorem keeps_fillConfirm (s : Daemon) (caller : Caller) (req : Option Json) (e : Env) :
    KeepsTokens cfg s (fillConfirm P cfg s caller req e).1 := by
  have herase : ∀ key, KeepsTokens cfg s
      { s.touch cfg.browserVault e.touched with
        fillTokens := (s.touch cfg.browserVault e.touched).fillTokens.erase key } := by
    intro key k t h
    have hk := (PyDict.get?_erase_cases h).2
    rw [touch_fillTokens] at hk
    refine ⟨hk, fun hu => ?_⟩
    exact (touch_isUnlocked s _ _ _).trans hu
  unfold fillConfirm
  dsimp only
  repeat' split
  all_goals try exact .refl s
  unfold confirmUnlocked
  dsimp only
  repeat' split
  · exact herase _
  · exact herase _
  · exact .of_eq (by simp) (by simp)
  · rw [release_fst]
    exact herase _

variable (P cfg) in
/-- **What a release needs**: an approval that fits and has not expired, which it uses up, and an
item whose pins match. -/
structure ReleasedBy (s : Daemon) (caller : Caller) (req : Option Json) (now : ℤ) (s' : Daemon)
    (c : Credential) (password : String) (fields : List (String × Json)) (url username : String)
    (t : FillToken) (it : Item) : Prop where
  request : req = some (.obj fields)
  urlField : textField fields "url" = some url
  userField : textField fields "username" = some username
  accepted : normalizeUrlOrigin P url ≠ ""
  approval : s.fillTokens.get? (confirmKey P (reqGet fields "fill_token") username) = some t
  unexpired : now ≤ t.expires
  origin : t.origin = normalizeUrlOrigin P url
  user : t.username = username
  pid : t.pid = caller.pid
  spent : s'.fillTokens.get? (confirmKey P (reqGet fields "fill_token") username) = none
  item : (s.items cfg.browserVault).bind
    (findItem · (credentialTag (normalizeUrlOrigin P url) username)) = some it
  pins : PinsMatch P it.pins caller
  credential : c = ⟨username, normalizeUrlOrigin P url, it.source⟩
  value : password = it.value

variable {password : String}

theorem audited_released {i : ℕ} {r : Reply} {c : Credential}
    (h : audited e i r = .released c password) : r = .released c password := by
  unfold audited at h
  split at h
  · cases h
  · exact h

theorem release_released {origin : String} {c : Credential}
    (h : (release P cfg s caller origin username e).2 = .released c password) :
    ∃ it, (s.items cfg.browserVault).bind (findItem · (credentialTag origin username)) = some it ∧
      PinsMatch P it.pins caller ∧ c = ⟨username, origin, it.source⟩ ∧ password = it.value := by
  unfold release at h
  cases hi : s.items cfg.browserVault with
  | none =>
    rw [hi] at h
    cases audited_released h
  | some items =>
    rw [hi] at h
    dsimp only at h
    cases hf : findItem items (credentialTag origin username) with
    | none =>
      rw [hf] at h
      cases audited_released h
    | some it =>
      rw [hf] at h
      dsimp only at h
      split at h
      · cases audited_released h
      · next hp =>
        split at h
        · cases audited_released h
        · cases audited_released h
          refine ⟨it, hf, (pinMatch_matched P).mp (not_not.mp hp), rfl, rfl⟩

theorem fillConfirm_released {c : Credential}
    (h : (fillConfirm P cfg s caller req e).2 = .released c password) :
    ∃ fields url username t it, ReleasedBy P cfg s caller req e.now
      (fillConfirm P cfg s caller req e).1 c password fields url username t it := by
  revert h
  unfold fillConfirm
  dsimp only
  repeat' split
  all_goals try
    intro h
    cases audited_released h
  rename_i fields _ _ url username hurl huser horigin _
  unfold confirmUnlocked
  dsimp only
  rw [touch_fillTokens]
  cases ht : s.fillTokens.get? (confirmKey P (reqGet fields "fill_token") username) with
  | none =>
    intro h
    cases audited_released h
  | some t =>
    dsimp only
    by_cases hnow : t.expires < e.now
    · rw [if_pos hnow]
      intro h
      cases audited_released h
    · rw [if_neg hnow]
      by_cases hfit : t.origin ≠ normalizeUrlOrigin P url ∨ t.username ≠ username ∨
          t.pid ≠ caller.pid
      · rw [if_pos hfit]
        intro h
        cases audited_released h
      · rw [if_neg hfit]
        intro h
        obtain ⟨it, hit, hpins, hc, hpw⟩ := release_released h
        simp only [not_or, ne_eq, not_not] at hfit
        refine ⟨fields, url, username, t, it, ?_⟩
        exact
          { request := rfl
            urlField := hurl
            userField := huser
            accepted := horigin
            approval := ht
            unexpired := not_lt.mp hnow
            origin := hfit.1
            user := hfit.2.1
            pid := hfit.2.2
            spent := by
              rw [release_fst]
              exact PyDict.get?_erase_self _ _
            item := by
              rw [← touch_items s cfg.browserVault cfg.browserVault e.touched]
              exact hit
            pins := hpins
            credential := hc
            value := hpw }

theorem fillConfirm_keeps (hk : s.fillTokens.get? k = some t) (hnow : e.now ≤ t.expires)
    (hfit : ¬Fits P caller req t) :
    (fillConfirm P cfg s caller req e).1.fillTokens.get? k = some t := by
  unfold fillConfirm
  dsimp only
  repeat' split
  all_goals try exact hk
  rename_i fields _ _ url username hurl huser _ _
  apply confirmUnlocked_keeps hk hnow
  intro h
  exact hfit ⟨fields, url, username, rfl, hurl, huser, h.1, h.2.1, h.2.2⟩

/-! ## Behind every approval stands a Fill -/

variable (P cfg) in
/-- The `Fill` behind an approval: it returned the token, or raised at its audit row, and the
approval is still as it stored it. -/
def Backed (log : List Served) (k : String) (t : FillToken) : Prop :=
  ∃ newer st older token, log = newer ++ st :: older ∧ k = tokenKey token t.username ∧
    t.expires = st.env.now + fillTokenTtl ∧
    (st.Grants t.pid t.origin token t.username ∨ st.Withholds token) ∧
    ∀ x ∈ newer, ¬x.Locks cfg ∧ ¬x.Releases P token t.username

theorem tokenKey_inj {token' : String} (h : tokenKey token username = tokenKey token' username) :
    token = token' := by
  unfold tokenKey at h
  have hl := congrArg String.toList h
  simp only [String.toList_append, List.append_assoc] at hl
  exact String.toList_injective (List.append_cancel_right hl)

theorem tokenKey_ne_empty (token username : String) : tokenKey token username ≠ "" := by
  intro h
  have hl := congrArg String.toList h
  simp [tokenKey] at hl

/-- What any call leaves in the table: what was there, the browser vault not having been locked,
or what a `Fill` just stored. -/
theorem serve_tokens {c : Call} (h : (serve P cfg s e c).1.fillTokens.get? k = some t) :
    (s.fillTokens.get? k = some t ∧ (s.isUnlocked cfg.browserVault = true →
        (serve P cfg s e c).1.isUnlocked cfg.browserVault = true)) ∨
      k = tokenKey e.token t.username ∧ t.expires = e.now + fillTokenTtl ∧
        ∀ s', Served.Grants ⟨s, c, e, (serve P cfg s e c).2, s'⟩ t.pid t.origin e.token t.username ∨
          Served.Withholds ⟨s, c, e, (serve P cfg s e c).2, s'⟩ e.token := by
  have hkeeps : ∀ s', KeepsTokens cfg s s' → s' = (serve P cfg s e c).1 →
      s.fillTokens.get? k = some t ∧ (s.isUnlocked cfg.browserVault = true →
        (serve P cfg s e c).1.isUnlocked cfg.browserVault = true) := by
    rintro s' hs' rfl
    exact hs' k t h
  cases c with
  | fill caller req =>
    rcases fill_tokens h with hold | ⟨hk, hpid, hexp, hrep⟩
    · exact .inl ⟨hold, fun hu => (fill_isUnlocked s caller req e).trans hu⟩
    · refine .inr ⟨hk, hexp, fun s' => ?_⟩
      rcases hrep with hr | ⟨found, hr, hc⟩
      · exact .inr ⟨caller, req, rfl, rfl, hr⟩
      · exact .inl ⟨caller, req, found, rfl, hpid.symm, hr, hc⟩
  | fillConfirm caller req => exact .inl (hkeeps _ (keeps_fillConfirm s caller req e) rfl)
  | save caller req => exact .inl (hkeeps _ (keeps_save P s caller req e) rfl)
  | addItem uid vault tag value exe selinux pinUid =>
    exact .inl (hkeeps _ (keeps_addItemCall P s uid vault tag value exe selinux pinUid e) rfl)
  | deleteItem uid vault tag => exact .inl (hkeeps _ (keeps_deleteItemCall s uid vault tag e) rfl)
  | createVault uid name => exact .inl (hkeeps _ (keeps_createVault s uid name e) rfl)
  | unlockVault name => exact .inl (hkeeps _ (keeps_unlockVault s name e) rfl)
  | lockVault name => exact .inl (hkeeps _ (keeps_lockVault s name e) rfl)
  | idleTick => exact .inl (hkeeps _ (keeps_idleTick s e) rfl)
  | lockAllVaults uid reason => exact .inl (hkeeps _ (keeps_lockAllVaults s uid reason e) rfl)
  | logindLock => exact .inl (hkeeps _ (keeps_lockAllUnlocked s e) rfl)
  | rotateVault uid name => exact .inl (hkeeps _ (keeps_rotateVault s uid name e) rfl)
  | restart => simp [serve] at h

theorem Served.Releases.spent {c : Call}
    (h : Served.Releases P ⟨s, c, e, (serve P cfg s e c).2, (serve P cfg s e c).1⟩ token username) :
    (serve P cfg s e c).1.fillTokens.get? (tokenKey token username) = none := by
  obtain ⟨caller, fields, cred, password, hcall, huser, htrue, htok, hrep⟩ := h
  dsimp only at hcall hrep
  subst hcall
  obtain ⟨fields', url, username', t, it, hr⟩ := fillConfirm_released hrep
  cases hr.request
  have hu : username' = username := by
    have := hr.userField.symm.trans huser
    simpa using this
  subst hu htok
  have hspent := hr.spent
  unfold confirmKey at hspent
  rw [if_pos htrue] at hspent
  exact hspent

/-- **Invariant.**  Every approval of the table is backed. -/
def TokensBacked (P : Platform) (cfg : Config) (w : World) : Prop :=
  ∀ k t, w.daemon.fillTokens.get? k = some t → Backed P cfg w.log k t

theorem TokensBacked.step {w : World} (hw : TokensBacked P cfg w) (c : Call × Env) :
    TokensBacked P cfg (step P cfg w c) := by
  intro k t h
  rcases serve_tokens h with ⟨hold, hlock⟩ | ⟨hk, hexp, hgr⟩
  · obtain ⟨newer, st, older, token, hlog, hk, hexp, hgr, hnone⟩ := hw k t hold
    refine ⟨_ :: newer, st, older, token, congrArg (List.cons _) hlog, hk, hexp, hgr, ?_⟩
    intro x hx
    rcases List.mem_cons.mp hx with rfl | hx
    · constructor
      · rintro ⟨hb, ha⟩
        rw [hlock hb] at ha
        cases ha
      · -- a release of this approval would have taken it from the table
        intro hrel
        have hspent := hrel.spent
        rw [← hk] at hspent
        cases hspent.symm.trans h
    · exact hnone x hx
  · exact ⟨[], _, w.log, c.2.token, rfl, hk, hexp, hgr _, by simp⟩

theorem tokensBacked_run {w : World} (hw : TokensBacked P cfg w) (calls : List (Call × Env)) :
    TokensBacked P cfg (run (Pwd.step P cfg) w calls) := by
  induction calls generalizing w with
  | nil => exact hw
  | cons c calls ih => exact ih (hw.step c)

theorem tokensBacked_boot (vaults : PyDict String (List Item)) :
    TokensBacked P cfg (World.boot vaults) := by
  intro k t h
  simp [World.boot] at h

/-! ## Releases -/

theorem released_granted {w : World} (hw : TokensBacked P cfg w)
    (hsecret : Unguessed P w (.fillConfirm caller req, e)) {s' : Daemon} {c : Credential}
    {fields : List (String × Json)} {url : String} {it : Item}
    (hr : ReleasedBy P cfg w.daemon caller req e.now s' c password fields url username t it) :
    truthy (reqGet fields "fill_token") = true ∧
      ∃ newer fill rest, w.log = newer ++ fill :: rest ∧
        fill.Grants caller.pid (normalizeUrlOrigin P url) (P.format (reqGet fields "fill_token"))
          username ∧ e.now ≤ fill.env.now + fillTokenTtl ∧
        ∀ st ∈ newer, ¬st.Locks cfg ∧
          ¬st.Releases P (P.format (reqGet fields "fill_token")) username := by
  obtain ⟨newer, fill, rest, token, hlog, hk, hexp, hgr, hnone⟩ := hw _ t hr.approval
  have htrue : truthy (reqGet fields "fill_token") = true := by
    by_contra hf
    unfold confirmKey at hk
    rw [if_neg hf] at hk
    exact tokenKey_ne_empty _ _ hk.symm
  have htok : P.format (reqGet fields "fill_token") = token := by
    unfold confirmKey at hk
    rw [if_pos htrue, hr.user] at hk
    exact tokenKey_inj hk
  rw [hr.user] at hnone
  refine ⟨htrue, newer, fill, rest, hlog, ?_, ?_, ?_⟩
  · rcases hgr with hg | hwh
    · rw [hr.pid, hr.origin, hr.user] at hg
      rw [htok]
      exact hg
    · -- the token was never handed out, so nobody presents it
      rw [← htok] at hwh
      have hmem : fill ∈ w.log := by
        rw [hlog]
        simp
      exact absurd hwh (hsecret caller fields (by rw [hr.request]) fill hmem)
  · rw [← hexp]
    exact hr.unexpired
  · rw [htok]
    exact hnone

theorem released_once {vaults : PyDict String (List Item)} {calls : List (Call × Env)}
    (hsecret : Meets (step P cfg) (Unguessed P) (World.boot vaults) calls)
    {newer rest : List Served} {fill : Served} {pid : ℕ} {origin : String}
    (hlog : (run (step P cfg) (World.boot vaults) calls).log = newer ++ fill :: rest)
    (hgr : fill.Grants pid origin token username)
    (hnone : ∀ st ∈ newer, ¬st.Releases P token username)
    (hfresh : FreshTokens (newer ++ fill :: rest)) :
    ∀ st ∈ newer ++ fill :: rest, ¬st.Releases P token username := by
  intro x hx hrel
  rcases List.mem_append.mp hx with hx | hx
  · exact hnone x hx hrel
  · have hx : x ∈ rest := by
      rcases List.mem_cons.mp hx with rfl | hx
      · obtain ⟨_, _, _, hcall, _⟩ := hgr
        obtain ⟨_, _, _, _, hcall', _⟩ := hrel
        rw [hcall] at hcall'
        cases hcall'
      · exact hx
    obtain ⟨between, older, hrest⟩ := List.append_of_mem hx
    -- the release goes back to a `Fill` of its own, older than the granting one
    have hat : (run (step P cfg) (World.boot vaults) calls).log =
        (newer ++ fill :: between) ++ x :: older := by
      rw [hlog, hrest]
      simp
    obtain ⟨before, c, after, hcalls, hold, hst⟩ := served_at P cfg hat
    obtain ⟨caller, fields, cred, password, hcall, huser, -, htok, hrep⟩ := hrel
    rw [hcalls] at hsecret
    have hun := (Meets.append.mp hsecret).2.1
    obtain ⟨c₁, e⟩ := c
    subst hst
    dsimp only [World.served] at hcall hrep
    subst hcall
    obtain ⟨fields', url, username', t, it, hr⟩ := fillConfirm_released hrep
    obtain ⟨-, n₂, fill₂, r₂, hlog₂, hgr₂, -⟩ :=
      released_granted (tokensBacked_run (tokensBacked_boot vaults) before) hun hr
    cases hr.request
    rw [htok] at hgr₂
    rw [hold] at hlog₂
    have hpair := List.pairwise_append.mp hfresh
    have hlater := (List.pairwise_cons.mp hpair.2.1).1 fill₂ (by rw [hrest, hlog₂]; simp)
    exact hlater _ _ _ _ _ _ _ hgr hgr₂

/-- **Fill tokens are bound and used once.**  In every run over the daemon's calls, a
`FillConfirm` releases a password only on an approval of the same process for the same origin and
username, and only where the item's pins match the caller; and a `FillConfirm` that does not fit
an unexpired approval leaves it in the table. -/
theorem fill_tokens_bound (vaults : PyDict String (List Item)) (calls : List (Call × Env))
    (hsecret : Meets (step P cfg) (Unguessed P) (World.boot vaults) calls)
    {newer older : List Served} {st : Served}
    (hlog : (run (step P cfg) (World.boot vaults) calls).log = newer ++ st :: older)
    {caller : Caller} {req : Option Json} (hcall : st.call = .fillConfirm caller req) :
    (∀ c password, st.reply = .released c password →
      ∃ fields url username it, req = some (.obj fields) ∧ textField fields "url" = some url ∧
        textField fields "username" = some username ∧
        Approved P cfg older caller.pid (normalizeUrlOrigin P url)
          (P.format (reqGet fields "fill_token")) username st.env.now ∧
        (st.before.items cfg.browserVault).bind
          (findItem · (credentialTag (normalizeUrlOrigin P url) username)) = some it ∧
        PinsMatch P it.pins caller ∧ c = ⟨username, normalizeUrlOrigin P url, it.source⟩ ∧
        password = it.value) ∧
      ∀ k t, st.before.fillTokens.get? k = some t → st.env.now ≤ t.expires →
        ¬Fits P caller req t → st.after.fillTokens.get? k = some t := by
  obtain ⟨before, c, after, hcalls, hold, hst⟩ := served_at P cfg hlog
  rw [hcalls] at hsecret
  obtain ⟨hbefore, hun, -⟩ := Meets.append.mp hsecret
  obtain ⟨c₁, e⟩ := c
  subst hst
  dsimp only [World.served] at hcall ⊢
  subst hcall
  constructor
  · intro cred password hrep
    obtain ⟨fields, url, username, t, it, hr⟩ := fillConfirm_released hrep
    obtain ⟨-, n₁, fill, rest, hsplit, hgr, hexp, hnone⟩ :=
      released_granted (tokensBacked_run (tokensBacked_boot vaults) before) hun hr
    refine ⟨fields, url, username, it, hr.request, hr.urlField, hr.userField, ?_, hr.item,
      hr.pins, hr.credential, hr.value⟩
    constructor
    · exact ⟨n₁, fill, rest, hold ▸ hsplit, hgr, hexp, hnone⟩
    · intro hfresh
      rw [← hold, hsplit] at hfresh ⊢
      exact released_once hbefore hsplit hgr (fun x hx => (hnone x hx).2) hfresh
  · intro k t hk hnow hfit
    exact fillConfirm_keeps hk hnow hfit

/-! A run in which a password is released. -/

/-- A quiet moment: nothing fails. -/
def quiet (now : ℤ) (token : String) : Env := ⟨now, now, token, true, true, none⟩

/-- The bridge of a browser. -/
def bridgeCaller : Caller := ⟨1000, 77, "/usr/bin/python3", "", true⟩

def sampleConfig : Config := ⟨"passwords", 1000, 600⟩

def saveRequest (url : String) : Json :=
  .obj [("url", .str url), ("username", .str "ann"), ("password", .str "pw")]

def confirmRequest (url : String) : Json :=
  .obj [("url", .str url), ("username", .str "ann"), ("fill_token", .str "tok")]

/-- Unlock, save, fill. -/
def fillRun : List (Call × Env) :=
  [(.unlockVault "passwords", quiet 0 ""),
    (.save bridgeCaller (some (saveRequest "https://a.example/")), quiet 1 ""),
    (.fill bridgeCaller (some (.obj [("url", .str "https://a.example/x")])), quiet 2 "tok")]

def confirmCall : Call × Env :=
  (.fillConfirm bridgeCaller (some (confirmRequest "https://a.example/")), quiet 3 "")

def fillBoot : World := World.boot (PyDict.empty.insert "passwords" [])

theorem fill_tokens_bound_sample :
    ((run (step .sample sampleConfig) fillBoot fillRun).served .sample sampleConfig
        confirmCall).reply = .released ⟨"ann", "https://a.example", "https://a.example/"⟩ "pw" ∧
      Approved .sample sampleConfig (run (step .sample sampleConfig) fillBoot fillRun).log 77
        "https://a.example" "tok" "ann" 3 := by
  have hrep : ((run (step .sample sampleConfig) fillBoot fillRun).served .sample sampleConfig
      confirmCall).reply =
        .released ⟨"ann", "https://a.example", "https://a.example/"⟩ "pw" := by
    decide +kernel
  refine ⟨hrep, ?_⟩
  have hsecret : Meets (step .sample sampleConfig) (Unguessed .sample) fillBoot
      (fillRun ++ [confirmCall]) := by
    refine ⟨fun _ _ h => (by cases h), fun _ _ h => (by cases h), fun _ _ h => (by cases h), ?_,
      trivial⟩
    rintro caller fields - st hst ⟨caller', req, hcall, -, hraised⟩
    have hall : ∀ st ∈ (run (step .sample sampleConfig) fillBoot fillRun).log,
        st.reply ≠ .raised .auditError := by
      have hreplies : Reply.raised .auditError ∉
          (run (step .sample sampleConfig) fillBoot fillRun).log.map Served.reply := by
        decide +kernel
      exact fun st hst h => hreplies (List.mem_map.mpr ⟨st, hst, h⟩)
    exact hall st hst hraised
  have hlog : (run (step .sample sampleConfig) fillBoot (fillRun ++ [confirmCall])).log =
      [] ++ (run (step .sample sampleConfig) fillBoot fillRun).served .sample sampleConfig
        confirmCall :: (run (step .sample sampleConfig) fillBoot fillRun).log := rfl
  obtain ⟨hreleased, -⟩ := fill_tokens_bound _ _ hsecret hlog rfl
  obtain ⟨fields, url, username, it, hreq, hurl, huser, happ, -⟩ := hreleased _ _ hrep
  cases hreq
  have hu : some url = some "https://a.example/" := hurl.symm.trans (by decide +kernel)
  have hn : some username = some "ann" := huser.symm.trans (by decide +kernel)
  cases hu
  cases hn
  exact happ

end Pwd
