/-
# Origin isolation

A credential is filed under the text of its origin, `pwd:<origin>/<username>`, and `Fill` and
`FillConfirm` find it by that text.  Credentials of two URLs are kept apart exactly when their
origins have different texts, so isolation is the injectivity of `_normalize_url_origin`.

It is not injective.  The brackets of an IPv6 host are dropped, so a port reads like the last
group of the address; and a port given as zero is treated as not given.  `Collide` names these
two kinds of pairs; every other pair of URLs is isolated (`origin_isolation_iff`).
-/
import QDistro.FillTokens

namespace Pwd

open JsonText TransitionSystem List
open SecurityGrants (truthy)

variable (P : Platform) (cfg : Config)

/-! ## Origins of URLs -/

/-- The port a URL names, or else its scheme's. -/
def Url.effectivePort (p : Url) : Option ℕ := p.port.map (·.getD (defaultPort (p.schemeOf P)))

/-- Two URLs with the same scheme, host and effective port. -/
def SameOrigin (url₁ url₂ : String) : Prop :=
  ∃ p q, P.urlparse url₁ = some p ∧ P.urlparse url₂ = some q ∧ p.schemeOf P = q.schemeOf P ∧
    p.host P = q.host P ∧ p.effectivePort P = q.effectivePort P

/-- What `_normalize_url_origin` accepts: the parts of a URL, with the port as given. -/
structure Parts (url : String) (p : Url) (port : Option ℕ) : Prop where
  parsed : P.urlparse url = some p
  scheme : p.schemeOf P = "http" ∨ p.schemeOf P = "https"
  host : ¬(p.host P = "" ∨ '\x00' ∈ (p.host P).toList)
  port : p.port = some port

/-- One port is given as zero, the other not at all or as the scheme's own. -/
def ZeroPort (p q : Url) (m n : Option ℕ) : Prop :=
  p.host P = q.host P ∧ writtenPort (p.schemeOf P) m = none ∧
    writtenPort (q.schemeOf P) n = none ∧ ¬(m = some 0 ↔ n = some 0)

/-- The second host ends in the first one's port, as an IPv6 address may. -/
def PortInHost (p q : Url) (m n : Option ℕ) : Prop :=
  ∃ k, writtenPort (p.schemeOf P) m = some k ∧ writtenPort (q.schemeOf P) n = none ∧
    q.host P = p.host P ++ ":" ++ k.repr

/-- Two URLs of one scheme whose origins differ and are written alike. -/
def Collide (url₁ url₂ : String) : Prop :=
  url₁ ≠ "" ∧ url₂ ≠ "" ∧ ∃ p q m n, Parts P url₁ p m ∧ Parts P url₂ q n ∧
    p.schemeOf P = q.schemeOf P ∧
    (ZeroPort P p q m n ∨ PortInHost P p q m n ∨ PortInHost P q p n m)

/-! ## The text of an origin -/

theorem originText_ne_empty (scheme host : String) (port : Option ℕ) :
    originText scheme host port ≠ "" := by
  intro h
  have hl := congrArg String.toList h
  cases port <;> simp [originText] at hl

variable {url : String}

theorem normalizeUrlOrigin_parts (h : normalizeUrlOrigin P url ≠ "") :
    ∃ p port, Parts P url p port ∧ normalizeUrlOrigin P url =
      originText (p.schemeOf P) (p.host P) (writtenPort (p.schemeOf P) port) := by
  unfold normalizeUrlOrigin at h ⊢
  cases hp : P.urlparse url with
  | none => simp [hp] at h
  | some p =>
    rw [hp] at h
    dsimp only at h ⊢
    split at h
    · exact absurd rfl h
    · next hs =>
      rw [if_neg hs]
      split at h
      · exact absurd rfl h
      · next hh =>
        rw [if_neg hh]
        split at h
        · exact absurd rfl h
        · next port hport =>
          refine ⟨p, port, ⟨hp, ?_, hh, hport⟩, rfl⟩
          by_contra hc
          exact hs (not_or.mp hc)

variable {port : Option ℕ}

theorem Parts.origin {p : Url} (h : Parts P url p port) :
    normalizeUrlOrigin P url =
      originText (p.schemeOf P) (p.host P) (writtenPort (p.schemeOf P) port) := by
  unfold normalizeUrlOrigin
  rw [h.parsed]
  dsimp only
  have hs : ¬(p.schemeOf P ≠ "http" ∧ p.schemeOf P ≠ "https") := by
    rintro ⟨h₁, h₂⟩
    exact h.scheme.elim h₁ h₂
  rw [if_neg hs, if_neg h.host, h.port]

/-- What follows the scheme in the text of an origin. -/
def authority (host : String) : Option ℕ → List Char
  | some n => host.toList ++ ':' :: n.repr.toList
  | none => host.toList

theorem originText_toList (scheme host : String) (port : Option ℕ) :
    (originText scheme host port).toList = scheme.toList ++ [':', '/', '/'] ++
      authority host port := by
  cases port <;> simp [originText, authority]

theorem Parts.host_slash {p : Url} (h : Parts P url p port) :
    '/' ∉ (p.host P).toList := by
  apply P.lower_slash
  cases hn : p.hostname with
  | none => simp
  | some host => exact P.hostname_slash url p host h.parsed hn

theorem authority_slash {host : String} (h : '/' ∉ host.toList) (port : Option ℕ) :
    '/' ∉ authority host port := by
  cases port with
  | none => exact h
  | some n =>
    simp only [authority, mem_append, mem_cons, not_or]
    exact ⟨h, by decide, PyText.not_mem_repr (by decide)⟩

theorem eq_of_prefix_sep {sep : Char} {l r rest : List Char} (hl : sep ∉ l) (hr : sep ∉ r)
    (h : (r ++ [sep]) <+: (l ++ sep :: rest)) : l = r := by
  induction r generalizing l with
  | nil =>
    cases l with
    | nil => rfl
    | cons c l =>
      have hc : sep = c := by simpa using h
      exact absurd (hc ▸ mem_cons_self) hl
  | cons c r ih =>
    rw [mem_cons, not_or] at hr
    cases l with
    | nil =>
      have hc : c = sep := by
        have := (cons_prefix_cons.mp (by simpa using h)).1
        exact this
      exact absurd hc.symm hr.1
    | cons d l =>
      rw [mem_cons, not_or] at hl
      obtain ⟨rfl, htail⟩ := cons_prefix_cons.mp h
      rw [ih hl.2 hr.2 htail]

variable {url₁ url₂ : String}

theorem origin_eq_of_startswith {username : String} (h₁ : normalizeUrlOrigin P url₁ ≠ "")
    (h₂ : normalizeUrlOrigin P url₂ ≠ "")
    (h : PyText.startswith (credentialTag (normalizeUrlOrigin P url₁) username)
      (tagPrefix (normalizeUrlOrigin P url₂)) = true) :
    normalizeUrlOrigin P url₁ = normalizeUrlOrigin P url₂ := by
  obtain ⟨p, m, hp, ho₁⟩ := normalizeUrlOrigin_parts P h₁
  obtain ⟨q, n, hq, ho₂⟩ := normalizeUrlOrigin_parts P h₂
  have hpre := isPrefixOf_iff_prefix.mp h
  rw [ho₁, ho₂] at hpre ⊢
  apply String.toList_injective
  rw [originText_toList, originText_toList]
  simp only [tagPrefix, credentialTag, String.toList_append, originText_toList,
    append_assoc] at hpre ⊢
  have hs₁ := authority_slash (Parts.host_slash P hp) (writtenPort (p.schemeOf P) m)
  have hs₂ := authority_slash (Parts.host_slash P hq) (writtenPort (q.schemeOf P) n)
  generalize authority (p.host P) (writtenPort (p.schemeOf P) m) = a₁ at hpre hs₁ ⊢
  generalize authority (q.host P) (writtenPort (q.schemeOf P) n) = a₂ at hpre hs₂ ⊢
  -- the two schemes part at the fifth character, unless they agree
  rcases hp.scheme with hps | hps <;> rcases hq.scheme with hqs | hqs <;>
    rw [hps, hqs] at hpre ⊢
  · rw [eq_of_prefix_sep hs₁ hs₂ (by simpa using hpre)]
  · simp at hpre
  · simp at hpre
  · rw [eq_of_prefix_sep hs₁ hs₂ (by simpa using hpre)]

/-! ## Origins that are written alike -/

theorem repr_inj {m n : ℕ} (h : m.repr = n.repr) : m = n := by
  have hm := PyText.pyInt_repr (u := .ascii) m
  rw [h, PyText.pyInt_repr] at hm
  exact_mod_cast (Option.some.inj hm).symm

/-- Two authorities that are written alike have the same host and port, or the host of the one
ends in the port of the other. -/
theorem authority_eq {host₁ host₂ : String} {w₁ w₂ : Option ℕ}
    (h : authority host₁ w₁ = authority host₂ w₂) :
    (host₁ = host₂ ∧ w₁ = w₂) ∨
      (∃ k, w₁ = some k ∧ w₂ = none ∧ host₂ = host₁ ++ ":" ++ k.repr) ∨
      ∃ k, w₂ = some k ∧ w₁ = none ∧ host₁ = host₂ ++ ":" ++ k.repr := by
  cases w₁ with
  | none =>
    cases w₂ with
    | none => exact .inl ⟨String.toList_injective h, rfl⟩
    | some n =>
      refine .inr (.inr ⟨n, rfl, rfl, String.toList_injective ?_⟩)
      simpa [authority] using h
  | some m =>
    cases w₂ with
    | none =>
      refine .inr (.inl ⟨m, rfl, rfl, String.toList_injective ?_⟩)
      simpa [authority] using h.symm
    | some n =>
      simp only [authority] at h
      -- the last colon stands before the port, which has none
      have hrev := congrArg reverse h
      simp only [reverse_append, reverse_cons, append_assoc,
        singleton_append] at hrev
      have hcolon : ∀ k : ℕ, ':' ∉ k.repr.toList.reverse := by
        intro k hk
        exact PyText.not_mem_repr (by decide) (mem_reverse.mp hk)
      have hport : m.repr.toList.reverse = n.repr.toList.reverse := by
        apply eq_of_prefix_sep (hcolon m) (hcolon n)
        rw [hrev]
        exact ⟨host₂.toList.reverse, by simp⟩
      have hmn : m = n := by
        apply repr_inj
        exact String.toList_injective (reverse_injective hport)
      subst hmn
      exact .inl ⟨String.toList_injective (append_cancel_right h), rfl⟩

theorem originText_eq {s₁ s₂ host₁ host₂ : String} {w₁ w₂ : Option ℕ}
    (hs₁ : s₁ = "http" ∨ s₁ = "https") (hs₂ : s₂ = "http" ∨ s₂ = "https")
    (h : originText s₁ host₁ w₁ = originText s₂ host₂ w₂) :
    s₁ = s₂ ∧ authority host₁ w₁ = authority host₂ w₂ := by
  have hl := congrArg String.toList h
  rw [originText_toList, originText_toList] at hl
  rcases hs₁ with rfl | rfl <;> rcases hs₂ with rfl | rfl
  · exact ⟨rfl, by simpa using hl⟩
  · simp at hl
  · simp at hl
  · exact ⟨rfl, by simpa using hl⟩

theorem writtenPort_none {scheme : String} (hs : scheme = "http" ∨ scheme = "https") :
    writtenPort scheme port = none ↔
      port = none ∨ port = some 0 ∨ port = some (defaultPort scheme) := by
  cases port with
  | none => simp [writtenPort]
  | some n =>
    unfold writtenPort defaultPort
    rcases hs with rfl | rfl
    · by_cases h0 : n = 0
      · simp [h0]
      · by_cases h80 : n = 80 <;> simp [h0, h80]
    · by_cases h0 : n = 0
      · simp [h0]
      · by_cases h443 : n = 443 <;> simp [h0, h443]

theorem writtenPort_some {scheme : String} {k : ℕ} (h : writtenPort scheme port = some k) :
    port = some k := by
  cases port with
  | none => cases h
  | some n =>
    rw [writtenPort] at h
    split at h
    · exact h
    · cases h

theorem defaultPort_ne_zero (scheme : String) : defaultPort scheme ≠ 0 := by
  unfold defaultPort
  split <;> decide

/-- Two unwritten ports of one scheme have the same effect exactly when both or neither are given
as zero. -/
theorem effective_of_unwritten {scheme : String} (hs : scheme = "http" ∨ scheme = "https")
    {m n : Option ℕ} (hm : writtenPort scheme m = none) (hn : writtenPort scheme n = none) :
    m.getD (defaultPort scheme) = n.getD (defaultPort scheme) ↔ (m = some 0 ↔ n = some 0) := by
  have h0 := defaultPort_ne_zero scheme
  rcases (writtenPort_none hs).mp hm with rfl | rfl | rfl <;>
    rcases (writtenPort_none hs).mp hn with rfl | rfl | rfl <;>
    simp [h0, Ne.symm h0]

/-- **Origins written alike.**  They are the same origin, or the pair collides. -/
theorem sameOrigin_or_collide (hne₁ : url₁ ≠ "") (hne₂ : url₂ ≠ "")
    (h₁ : normalizeUrlOrigin P url₁ ≠ "")
    (h : normalizeUrlOrigin P url₁ = normalizeUrlOrigin P url₂) :
    SameOrigin P url₁ url₂ ∨ Collide P url₁ url₂ := by
  obtain ⟨p, m, hp, ho₁⟩ := normalizeUrlOrigin_parts P h₁
  obtain ⟨q, n, hq, ho₂⟩ := normalizeUrlOrigin_parts P (h ▸ h₁)
  rw [ho₁, ho₂] at h
  obtain ⟨hscheme, hauth⟩ := originText_eq hp.scheme hq.scheme h
  have hcollide : ZeroPort P p q m n ∨ PortInHost P p q m n ∨ PortInHost P q p n m →
      Collide P url₁ url₂ := fun hc => ⟨hne₁, hne₂, p, q, m, n, hp, hq, hscheme, hc⟩
  rcases authority_eq hauth with ⟨hhost, hw⟩ | ⟨k, hm, hn, hhost⟩ | ⟨k, hn, hm, hhost⟩
  · have hsame : m.getD (defaultPort (p.schemeOf P)) = n.getD (defaultPort (q.schemeOf P)) →
        SameOrigin P url₁ url₂ := by
      intro he
      refine ⟨p, q, hp.parsed, hq.parsed, hscheme, hhost, ?_⟩
      unfold Url.effectivePort
      rw [hp.port, hq.port]
      exact congrArg some he
    cases hm : writtenPort (p.schemeOf P) m with
    | some k =>
      rw [hm] at hw
      left
      apply hsame
      rw [writtenPort_some hm, writtenPort_some hw.symm]
      rfl
    | none =>
      rw [hm] at hw
      by_cases hz : m = some 0 ↔ n = some 0
      · left
        apply hsame
        rw [← hscheme] at hw ⊢
        exact (effective_of_unwritten hp.scheme hm hw.symm).mpr hz
      · exact .inr (hcollide (.inl ⟨hhost, hm, hw.symm, hz⟩))
  · exact .inr (hcollide (.inr (.inl ⟨k, hm, hn, hhost⟩)))
  · exact .inr (hcollide (.inr (.inr ⟨k, hn, hm, hhost⟩)))

theorem append_colon_ne (host text : String) : host ++ ":" ++ text ≠ host := by
  intro h
  have hl := congrArg (fun s : String => s.toList.length) h
  simp at hl

theorem Collide.not_sameOrigin (h : Collide P url₁ url₂) :
    ¬SameOrigin P url₁ url₂ := by
  rintro ⟨p', q', hp', hq', -, hhost, hport⟩
  obtain ⟨-, -, p, q, m, n, hp, hq, hscheme, hkind⟩ := h
  cases hp.parsed.symm.trans hp'
  cases hq.parsed.symm.trans hq'
  rcases hkind with ⟨-, hm, hn, hz⟩ | ⟨k, -, -, hh⟩ | ⟨k, -, -, hh⟩
  · unfold Url.effectivePort at hport
    rw [hp.port, hq.port, ← hscheme] at hport
    rw [← hscheme] at hn
    exact hz ((effective_of_unwritten hp.scheme hm hn).mp (Option.some.inj hport))
  · exact append_colon_ne _ _ (hhost.trans hh).symm
  · exact append_colon_ne _ _ (hhost.symm.trans hh).symm

theorem originText_port (scheme host : String) (k : ℕ) :
    originText scheme host (some k) = originText scheme (host ++ ":" ++ k.repr) none := by
  simp [originText, String.append_assoc]

theorem Collide.origin_eq (h : Collide P url₁ url₂) :
    normalizeUrlOrigin P url₁ ≠ "" ∧ normalizeUrlOrigin P url₁ = normalizeUrlOrigin P url₂ := by
  obtain ⟨-, -, p, q, m, n, hp, hq, hscheme, hkind⟩ := h
  rw [hp.origin, hq.origin]
  refine ⟨originText_ne_empty _ _ _, ?_⟩
  rcases hkind with ⟨hhost, hm, hn, -⟩ | ⟨k, hm, hn, hhost⟩ | ⟨k, hn, hm, hhost⟩
  · rw [hm, hn, hhost, hscheme]
  · rw [hm, hn, hhost, originText_port, hscheme]
  · rw [hm, hn, hhost, originText_port, hscheme]

/-! ## Where saved credentials are filed -/

/-- **Invariant.**  A saved credential is filed under the origin of its URL, in every vault. -/
def Filed (vaults : PyDict String (List Item)) : Prop :=
  ∀ vault items it url, vaults.get? vault = some items → it ∈ items → it.source = some url →
    url ≠ "" ∧ normalizeUrlOrigin P url ≠ "" ∧
      ∃ username, it.tag = credentialTag (normalizeUrlOrigin P url) username

/-- Vault files that no `Save` has touched. -/
def Unsaved (vaults : PyDict String (List Item)) : Prop :=
  ∀ vault items it, vaults.get? vault = some items → it ∈ items → it.source = none

variable {vaults : PyDict String (List Item)}

theorem Unsaved.filed (h : Unsaved vaults) :
    Filed P vaults := by
  intro vault items it url hv hit hs
  rw [h vault items it hv hit] at hs
  cases hs

variable {P cfg}

theorem Filed.insert (h : Filed P vaults) {vault : String} {items : List Item}
    (hitems : ∀ it ∈ items, (∃ old, vaults.get? vault = some old ∧ it ∈ old) ∨
      ∀ url, it.source = some url → url ≠ "" ∧ normalizeUrlOrigin P url ≠ "" ∧
        ∃ username, it.tag = credentialTag (normalizeUrlOrigin P url) username) :
    Filed P (vaults.insert vault items) := by
  intro name found it url hv hit hs
  rcases PyDict.get?_insert_cases hv with ⟨rfl, rfl⟩ | ⟨-, hv⟩
  · rcases hitems it hit with ⟨old, hold, hmem⟩ | hnew
    · exact h name old it url hold hmem hs
    · exact hnew url hs
  · exact h name found it url hv hit hs

variable {s : Daemon}

theorem Filed.addItem {s' : Daemon} (h : Filed P s.vaults) {vault : String} {it : Item} {e : Env}
    (hadd : Pwd.addItem s vault it e = .ok s')
    (hit : ∀ url, it.source = some url → url ≠ "" ∧ normalizeUrlOrigin P url ≠ "" ∧
      ∃ username, it.tag = credentialTag (normalizeUrlOrigin P url) username) :
    Filed P s'.vaults := by
  unfold Pwd.addItem at hadd
  split at hadd
  · cases hadd
  · split at hadd
    · cases hadd
    · next items hitems =>
      split at hadd
      · cases hadd
        apply h.insert
        intro x hx
        rcases mem_upsert hx with rfl | hx
        · exact .inr hit
        · exact .inl ⟨items, hitems, hx⟩
      · cases hadd

theorem Filed.store (h : Filed P s.vaults) {caller : Caller} {username password : String}
    {e : Env} (hurl : url ≠ "") (horigin : normalizeUrlOrigin P url ≠ "") :
    Filed P (Pwd.store cfg s caller url (normalizeUrlOrigin P url) username password e).1.vaults := by
  unfold Pwd.store
  dsimp only
  split
  · next hadd =>
    refine h.addItem hadd ?_
    rintro url' hu
    cases hu
    exact ⟨hurl, horigin, username, rfl⟩
  · exact h
  · exact h

@[simp] theorem Daemon.touch_vaults (s : Daemon) (vault : String) (now : ℤ) :
    (s.touch vault now).vaults = s.vaults := by
  unfold Daemon.touch
  split <;> rfl

theorem textField_ne_empty {fields : List (String × Json)} {name s : String}
    (h : textField fields name = some s) : s ≠ "" := by
  unfold textField at h
  split at h
  · split at h
    · cases h
    · cases h
      assumption
  · cases h

section

variable (h : Filed P s.vaults)
include h

theorem Filed.save (caller : Caller) (req : Option Json) (e : Env) :
    Filed P (Pwd.save P cfg s caller req e).1.vaults := by
  unfold Pwd.save
  dsimp only
  repeat' split
  all_goals try exact h
  rename_i url username password hurl _ _ horigin _
  have htouch : Filed P (s.touch cfg.browserVault e.touched).vaults := by
    rw [Daemon.touch_vaults]
    exact h
  unfold saveUnlocked
  dsimp only
  repeat' split
  · exact htouch
  · exact htouch.store (textField_ne_empty hurl) horigin
  · exact htouch.store (textField_ne_empty hurl) horigin

theorem Filed.addItemCall (uid : ℕ) (vault tag value exe selinux pinUid : String) (e : Env) :
    Filed P (Pwd.addItemCall P cfg s uid vault tag value exe selinux pinUid e).1.vaults := by
  have htouch : Filed P (s.touch vault e.touched).vaults := by
    rw [Daemon.touch_vaults]
    exact h
  have hadd : ∀ n, Filed P
      (addItemUnlocked (s.touch vault e.touched) vault tag value exe selinux n e).1.vaults := by
    intro n
    unfold addItemUnlocked
    dsimp only
    generalize hit : Item.mk tag value _ none = it
    split
    · next hok =>
      refine htouch.addItem hok ?_
      intro url hu
      rw [← hit] at hu
      cases hu
    · exact htouch
    · exact htouch
  unfold Pwd.addItemCall
  dsimp only
  repeat' split
  · exact h
  · exact h
  · exact hadd _
  · exact htouch
  · exact hadd _

theorem Filed.deleteItemCall (uid : ℕ) (vault tag : String) (e : Env) :
    Filed P (Pwd.deleteItemCall cfg s uid vault tag e).1.vaults := by
  unfold Pwd.deleteItemCall
  dsimp only
  split
  · exact h
  · split
    · exact h
    · next items hitems =>
      split
      · exact h
      · split
        · apply h.insert
          intro it hit
          exact .inl ⟨items, hitems, (mem_filter.mp hit).1⟩
        · exact h

theorem Filed.createVault (uid : ℕ) (name : String) (e : Env) :
    Filed P (Pwd.createVault cfg s uid name e).1.vaults := by
  unfold Pwd.createVault
  repeat' split
  all_goals first
    | exact h
    | exact h.insert (by simp)

end

theorem lockEach_vaults (e : Env) (names : List String) :
    ∀ (i : ℕ) (s : Daemon), (lockEach cfg e i names s).1.vaults = s.vaults := by
  induction names with
  | nil => exact fun _ _ => rfl
  | cons n rest ih =>
    intro i s
    rw [lockEach]
    repeat' split
    · rfl
    · exact ih _ _
    · exact ih _ _

theorem fill_vaults (s : Daemon) (caller : Caller) (req : Option Json) (e : Env) :
    (fill P cfg s caller req e).1.vaults = s.vaults := by
  unfold fill fillUnlocked
  dsimp only
  repeat' split
  all_goals first
    | rfl
    | exact Daemon.touch_vaults ..

theorem fillConfirm_vaults (s : Daemon) (caller : Caller) (req : Option Json) (e : Env) :
    (fillConfirm P cfg s caller req e).1.vaults = s.vaults := by
  unfold fillConfirm confirmUnlocked
  dsimp only
  repeat' split
  all_goals first
    | rfl
    | exact Daemon.touch_vaults ..
    | (rw [release_fst]; exact Daemon.touch_vaults ..)

theorem lock_vaults (s : Daemon) (e : Env) :
    (∀ name, (unlockVault s name e).1.vaults = s.vaults) ∧
      (∀ name, (lockVault cfg s name e).1.vaults = s.vaults) ∧
      (idleTick cfg s e).1.vaults = s.vaults ∧ (lockAllUnlocked cfg s e).1.vaults = s.vaults ∧
      (∀ uid name, (rotateVault cfg s uid name e).1.vaults = s.vaults) := by
  refine ⟨fun name => ?_, fun name => ?_, ?_, ?_, fun uid name => ?_⟩
  · unfold unlockVault
    repeat' split
    all_goals rfl
  · unfold lockVault
    split <;> rfl
  · unfold idleTick
    dsimp only
    split <;> exact lockEach_vaults e _ 0 s
  · unfold lockAllUnlocked
    dsimp only
    split <;> exact lockEach_vaults e _ 0 s
  · unfold rotateVault
    repeat' split
    all_goals rfl

theorem Filed.serve (h : Filed P s.vaults) (e : Env) (c : Call) :
    Filed P (Pwd.serve P cfg s e c).1.vaults := by
  obtain ⟨hunlock, hlock, hidle, hall, hrot⟩ := @lock_vaults cfg s e
  cases c with
  | fill caller req => exact (fill_vaults s caller req e).symm ▸ h
  | fillConfirm caller req => exact (fillConfirm_vaults s caller req e).symm ▸ h
  | save caller req => exact h.save caller req e
  | addItem uid vault tag value exe selinux pinUid => 
      exact h.addItemCall uid vault tag value exe selinux pinUid e
  | deleteItem uid vault tag => exact h.deleteItemCall uid vault tag e
  | createVault uid name => exact h.createVault uid name e
  | unlockVault name => exact (hunlock name).symm ▸ h
  | lockVault name => exact (hlock name).symm ▸ h
  | idleTick => exact hidle.symm ▸ h
  | lockAllVaults uid reason =>
    show Filed P (Pwd.lockAllVaults cfg s uid reason e).1.vaults
    unfold Pwd.lockAllVaults
    repeat' split
    · exact h
    · exact h
    · exact hall.symm ▸ h
  | logindLock => exact hall.symm ▸ h
  | rotateVault uid name => exact (hrot uid name).symm ▸ h
  | restart => exact h

theorem filed_run (h : Unsaved vaults) (calls : List (Call × Env)) :
    Filed P (run (step P cfg) (World.boot vaults) calls).daemon.vaults := by
  have hrun : ∀ w : World, Filed P w.daemon.vaults →
      Filed P (run (step P cfg) w calls).daemon.vaults := by
    induction calls with
    | nil => exact fun w hw => hw
    | cons c calls ih => exact fun w hw => ih _ (hw.serve c.2 c.1)
  exact hrun _ (h.filed P)

/-! ## Isolation -/

/-- The call listed or released, for `url₂`, a credential saved under `url₁`. -/
def Served.Shows (st : Served) (url₁ url₂ : String) : Prop :=
  ∃ caller fields, textField fields "url" = some url₂ ∧
    ((st.call = .fill caller (some (.obj fields)) ∧ ∃ credentials token,
        st.reply = .listed credentials token ∧ ∃ c ∈ credentials, c.source = some url₁) ∨
      (st.call = .fillConfirm caller (some (.obj fields)) ∧ ∃ c password,
        st.reply = .released c password ∧ c.source = some url₁))

variable (P cfg) in
/-- In every run, what was saved under `url₁` is shown for `url₂` only if they have the same
origin. -/
def Isolated (url₁ url₂ : String) : Prop :=
  ∀ vaults, Unsaved vaults → ∀ calls, ∀ st ∈ (run (step P cfg) (World.boot vaults) calls).log,
    st.Shows url₁ url₂ → SameOrigin P url₁ url₂

theorem audited_listed {e : Env} {i : ℕ} {r : Reply} {found : List Credential} {token : String}
    (h : audited e i r = .listed found token) : r = .listed found token := by
  unfold audited at h
  split at h
  · cases h
  · exact h

theorem fill_listed {caller : Caller} {fields : List (String × Json)} {e : Env} {token : String}
    {found : List Credential} (hurl : textField fields "url" = some url)
    (h : (fill P cfg s caller (some (.obj fields)) e).2 = .listed found token) :
    normalizeUrlOrigin P url ≠ "" ∧ ∃ items, s.items cfg.browserVault = some items ∧
      ∀ c ∈ found, ∃ it ∈ items, c.source = it.source ∧
        PyText.startswith it.tag (tagPrefix (normalizeUrlOrigin P url)) = true := by
  revert h
  unfold fill
  dsimp only
  rw [hurl]
  dsimp only
  repeat' split
  all_goals try
    intro h
    cases audited_listed h
  next horigin _ =>
  unfold fillUnlocked
  dsimp only
  rw [Daemon.touch_items]
  repeat' split
  all_goals try
    intro h
    cases audited_listed h
  next items hitems _ =>
  refine ⟨horigin, items, hitems, ?_⟩
  intro c hc
  obtain ⟨it, hit, rfl⟩ := mem_map.mp hc
  obtain ⟨hmem, hcond⟩ := mem_filter.mp hit
  simp only [Bool.and_eq_true] at hcond
  exact ⟨it, hmem, rfl, hcond.1.1⟩

theorem startswith_credentialTag (origin username : String) :
    PyText.startswith (credentialTag origin username) (tagPrefix origin) = true := by
  apply isPrefixOf_iff_prefix.mpr
  exact ⟨username.toList, by simp [credentialTag, tagPrefix]⟩

theorem shows_origin_eq {w : World} (hw : Filed P w.daemon.vaults) {c : Call × Env}
    (h : (w.served P cfg c).Shows url₁ url₂) :
    url₁ ≠ "" ∧ url₂ ≠ "" ∧ normalizeUrlOrigin P url₁ ≠ "" ∧
      normalizeUrlOrigin P url₁ = normalizeUrlOrigin P url₂ := by
  obtain ⟨c₁, e⟩ := c
  obtain ⟨caller, fields, hurl, ⟨hcall, found, token, hrep, cred, hcred, hsrc⟩ |
    ⟨hcall, cred, password, hrep, hsrc⟩⟩ := h
  · dsimp only [World.served] at hcall hrep
    subst hcall
    obtain ⟨horigin, items, hitems, hfound⟩ := fill_listed hurl hrep
    obtain ⟨it, hit, hs, hpre⟩ := hfound cred hcred
    rw [hsrc] at hs
    obtain ⟨hne, ho, username, htag⟩ := hw _ items it url₁ hitems hit hs.symm
    rw [htag] at hpre
    exact ⟨hne, textField_ne_empty hurl, ho, origin_eq_of_startswith P ho horigin hpre⟩
  · dsimp only [World.served] at hcall hrep
    subst hcall
    obtain ⟨fields', url, username, t, it, hr⟩ := fillConfirm_released hrep
    cases hr.request
    cases hurl.symm.trans hr.urlField
    obtain ⟨items, hitems, hfind⟩ := Option.bind_eq_some_iff.mp hr.item
    have htag : it.tag = credentialTag (normalizeUrlOrigin P url₂) username := by
      have := find?_some hfind
      simpa using this
    rw [hr.credential] at hsrc
    obtain ⟨hne, ho, username', htag'⟩ :=
      hw _ items it url₁ hitems (mem_of_find?_eq_some hfind) hsrc
    have hpre : PyText.startswith (credentialTag (normalizeUrlOrigin P url₁) username')
        (tagPrefix (normalizeUrlOrigin P url₂)) = true := by
      rw [← htag', htag]
      exact startswith_credentialTag _ _
    exact ⟨hne, textField_ne_empty hurl, ho, origin_eq_of_startswith P ho hr.accepted hpre⟩

/-! ## Collisions are reached -/

/-- A caller that is pinned by its uid alone. -/
def uidCaller : Caller := ⟨0, 1, "", "", true⟩

variable (cfg) in
/-- Unlock the browser vault and save a credential under `url`. -/
def saveRun (url : String) : List (Call × Env) :=
  [(.unlockVault cfg.browserVault, quiet 0 ""), (.save uidCaller (some (saveRequest url)), quiet 1 "")]

/-- The item that the run saves. -/
def savedItem (P : Platform) (url : String) : Item :=
  ⟨credentialTag (normalizeUrlOrigin P url) "ann", "pw", ⟨"", "", some 0⟩, some url⟩

variable (cfg) in
/-- One empty browser vault. -/
def emptyVault : PyDict String (List Item) := PyDict.empty.insert cfg.browserVault []

theorem unsaved_emptyVault : Unsaved (emptyVault cfg) := by
  intro vault items it hv hit
  rcases PyDict.get?_insert_cases hv with ⟨-, rfl⟩ | ⟨-, hv⟩
  · cases hit
  · cases hv

theorem saveRun_daemon (hne : url ≠ "") (ho : normalizeUrlOrigin P url ≠ "") :
    (run (step P cfg) (World.boot (emptyVault cfg)) (saveRun cfg url)).daemon.items
        cfg.browserVault = some [savedItem P url] ∧
      (run (step P cfg) (World.boot (emptyVault cfg)) (saveRun cfg url)).daemon.isUnlocked
        cfg.browserVault = true := by
  have htag : credentialTag (normalizeUrlOrigin P url) "ann" ≠ "" := by
    intro h
    have hl := congrArg String.toList h
    simp [credentialTag] at hl
  simp [saveRun, run, step, World.boot, serve, unlockVault, quiet, Daemon.items, emptyVault, save,
    uidCaller, saveRequest, textField, reqGet, PyDict.lookup, hne, ho, Daemon.isUnlocked,
    saveUnlocked, Daemon.touch, findItem, store, addItem, htag, upsert, savedItem, audited]

theorem pinMatch_savedItem (url : String) :
    pinMatch P (savedItem P url).pins uidCaller = .matched := by
  have hstrip : stripped P "" = "" := rfl
  simp [pinMatch, savedItem, uidCaller, hstrip, selinuxGate, uidGate]

theorem shows_of_origin_eq (hne₁ : url₁ ≠ "") (hne₂ : url₂ ≠ "")
    (ho : normalizeUrlOrigin P url₁ ≠ "")
    (heq : normalizeUrlOrigin P url₁ = normalizeUrlOrigin P url₂) :
    ((run (step P cfg) (World.boot (emptyVault cfg)) (saveRun cfg url₁)).served P cfg
      (.fill uidCaller (some (.obj [("url", .str url₂)])), quiet 2 "tok")).Shows url₁ url₂ := by
  obtain ⟨hitems, hunlocked⟩ := @saveRun_daemon P cfg url₁ hne₁ ho
  have hurl : textField [("url", .str url₂)] "url" = some url₂ := by
    simp [textField, reqGet, PyDict.lookup, hne₂]
  have hfound : fillMatches P (normalizeUrlOrigin P url₂)
      (reqGet [("url", .str url₂)] "username") uidCaller [savedItem P url₁] =
        [⟨"ann", normalizeUrlOrigin P url₂, some url₁⟩] := by
    have hpre : PyText.startswith (savedItem P url₁).tag (tagPrefix (normalizeUrlOrigin P url₂)) =
        true := by
      rw [← heq]
      exact startswith_credentialTag _ _
    have huser : tagUsername (normalizeUrlOrigin P url₂) (savedItem P url₁).tag = "ann" := by
      rw [← heq]
      simp [tagUsername, savedItem, credentialTag, tagPrefix]
    have hfilter : filteredOut (reqGet [("url", .str url₂)] "username") "ann" = false := by
      simp [filteredOut, reqGet, PyDict.lookup, truthy]
    simp [fillMatches, hpre, huser, hfilter, pinMatch_savedItem]
    rfl
  refine ⟨uidCaller, _, hurl, .inl ⟨rfl, [⟨"ann", normalizeUrlOrigin P url₂, some url₁⟩], "tok",
    ?_, _, mem_singleton.mpr rfl, rfl⟩⟩
  rw [heq] at ho
  show (fill P cfg _ uidCaller (some (.obj [("url", .str url₂)])) (quiet 2 "tok")).2 = _
  unfold fill
  dsimp only
  rw [hurl]
  dsimp only
  rw [if_neg (by decide), if_neg ho, if_neg (by rw [hunlocked]; decide)]
  unfold fillUnlocked
  dsimp only
  rw [Daemon.touch_items, hitems]
  dsimp only
  rw [hfound, if_neg (by simp)]
  rfl

theorem Isolated.sameOrigin (h : Isolated P cfg url₁ url₂) (hne₁ : url₁ ≠ "") (hne₂ : url₂ ≠ "")
    (ho : normalizeUrlOrigin P url₁ ≠ "")
    (heq : normalizeUrlOrigin P url₁ = normalizeUrlOrigin P url₂) : SameOrigin P url₁ url₂ := by
  have hshows := @shows_of_origin_eq P cfg url₁ url₂ hne₁ hne₂ ho heq
  refine h (emptyVault cfg) unsaved_emptyVault (saveRun cfg url₁ ++
    [(Call.fill uidCaller (some (.obj [("url", .str url₂)])), quiet 2 "tok")]) _ ?_ hshows
  rw [run_append]
  exact mem_cons_self

/-- **Origin isolation, exactly.**  What was saved under one URL is shown for another only if they
have the same origin, unless the pair collides. -/
theorem origin_isolation_iff (url₁ url₂ : String) :
    Isolated P cfg url₁ url₂ ↔ ¬Collide P url₁ url₂ := by
  constructor
  · intro h hc
    obtain ⟨ho, heq⟩ := hc.origin_eq
    exact hc.not_sameOrigin P (h.sameOrigin hc.1 hc.2.1 ho heq)
  · intro hc vaults hunsaved calls st hst hshows
    obtain ⟨newer, older, hlog⟩ := List.append_of_mem hst
    obtain ⟨before, c, after, -, -, rfl⟩ := served_at P cfg hlog
    obtain ⟨hne₁, hne₂, ho, heq⟩ := shows_origin_eq (filed_run hunsaved before) hshows
    exact (sameOrigin_or_collide P hne₁ hne₂ ho heq).resolve_right hc

/-- The port of one URL reads like the end of the other one's address. -/
theorem ipv6_port_collides :
    ¬Isolated .sample sampleConfig "https://[fe80::1]:8080/" "https://[fe80::1:8080]/" := by
  intro hiso
  have hne : "https://[fe80::1]:8080/" ≠ "" ∧ "https://[fe80::1:8080]/" ≠ "" ∧
      normalizeUrlOrigin .sample "https://[fe80::1]:8080/" ≠ "" ∧
      normalizeUrlOrigin .sample "https://[fe80::1]:8080/" =
        normalizeUrlOrigin .sample "https://[fe80::1:8080]/" := by
    decide +kernel
  obtain ⟨hne₁, hne₂, ho, heq⟩ := hne
  obtain ⟨p, q, hp, hq, -, hhost, -⟩ := hiso.sameOrigin hne₁ hne₂ ho heq
  have hhosts : (Platform.sample.urlparse "https://[fe80::1]:8080/").map (Url.host .sample) ≠
      (Platform.sample.urlparse "https://[fe80::1:8080]/").map (Url.host .sample) := by
    decide +kernel
  rw [hp, hq] at hhosts
  exact hhosts (congrArg some hhost)

end Pwd
