/-
# One connection per polkit cookie

A cookie is a bearer secret: whoever presents it makes polkitd grant something.  The
broker therefore ties it to the connection that announced or filed it.  The tie is kept
in three places (the announcements, the pending filings, the methods in progress), which
expire at different moments.
-/
import QDistro.BrokerEffects

namespace Broker

open TransitionSystem

variable (cfg : Config)

/-- The cookie's announcement and all its pending filings name one connection. -/
def BoundToOne (s : State) (cookie : String) : Prop :=
  ∃ name, (∀ sender t, s.announced.get? cookie = some (sender, t) → sender.name = name)
    ∧ ∀ rid ∈ s.pending, ∀ r, s.reqs rid = some r → r.polkitCookie = cookie → r.filedBy = name

variable {cfg}

theorem Inv.boundToOne {s : State} (h : Inv cfg s) {cookie : String} (hne : cookie ≠ "") :
    BoundToOne s cookie := by
  cases hann : s.announced.get? cookie with
  | some b =>
    obtain ⟨sender, t⟩ := b
    refine ⟨sender.name, fun sender' t' hb => ?_, h.bound cookie sender t hann⟩
    rw [hann] at hb
    injection hb with hb
    injection hb with hb _
    rw [hb]
  | none =>
    by_cases hex : ∃ rid ∈ s.pending, ∃ r, s.reqs rid = some r ∧ r.polkitCookie = cookie
    · obtain ⟨rid, hrid, r, hr, hc⟩ := hex
      refine ⟨r.filedBy, fun _ _ hb => absurd hb (by simp [hann]), fun rid' hrid' r' hr' hc' => ?_⟩
      exact h.filers rid hrid r hr (hc ▸ hne) rid' hrid' r' hr' (hc'.trans hc.symm)
    · refine ⟨"", fun _ _ hb => absurd hb (by simp [hann]), fun rid hrid r hr hc => ?_⟩
      exact absurd ⟨rid, hrid, r, hr, hc⟩ hex

/-- **Cookie binding.**  In every reachable state each non-empty cookie is bound to at
most one connection, and `RespondPolkitAuth` has relayed a response only for connections
that had announced or filed the cookie before. -/
theorem polkit_cookie_binding (cfg : Config) (rules : List Rule) (cache : List CacheRow)
    (as : List Action) :
    (∀ cookie, cookie ≠ "" → BoundToOne (run (step cfg) (State.init rules cache) as) cookie)
      ∧ ∀ newer older p,
        (run (step cfg) (State.init rules cache) as).trace = newer ++ .responded p :: older →
        p.relayed = true → Introduced older p.owner p.cookie := by
  refine ⟨fun cookie hne => (inv_run rules cache as).boundToOne hne, ?_⟩
  intro newer older p htrace hrel
  have hj : Justified (EffectOk cfg) _ := effects_justified rules cache as
  rw [htrace] at hj
  exact hj.of_append.2 hrel

end Broker
