/-
# What precedes an effect

Two effects of the broker reach beyond its own tables: a cache row that will answer
later requests, and a response that makes polkitd grant an authorization.  In every run
each of them is preceded by what justifies it.
-/
import QDistro.BrokerRefine

namespace Broker

open TransitionSystem

variable (cfg : Config)

/-- What the older events must contain when an effect is recorded. -/
def EffectOk (older : List Event) : Event → Prop
  | .responded p =>
    (cfg.auditRequired = true → AuditedAllow older p.uid p.pid p.action)
      ∧ (p.relayed = true → Introduced older p.owner p.cookie)
  | .stored rid scope row =>
    ∃ f raw, .filed rid f raw ∈ older
      ∧ (cfg.auditRequired = true → AuditedAllow older f.uid f.pid f.action)
      ∧ ∃ rows now admin, storeRow rows now f.uid f.action f.exe scope true admin
        (argvFromDetails cfg.udb f.details) = some row
  | _ => True

variable {cfg} {d : Discipline}

theorem effectOk_of_quiet {e : Event} (h : e.quiet = true) (t : List Event) : EffectOk cfg t e := by
  cases e <;> trivial

theorem justified_answers {P : List Event → Event → Prop} {t : List Event} (h : Justified P t)
    (hans : ∀ w b live t, P t (.answered w b live)) (ws : List Waiter) (b live : Bool) :
    Justified P ((ws.map fun w => Event.answered w b live).reverse ++ t) := by
  refine h.append fun e he => ?_
  rw [List.mem_reverse, List.mem_map] at he
  obtain ⟨w, -, rfl⟩ := he
  exact hans w b live

theorem effects_move {s s' : State} (h : Inv cfg s) (m : Move cfg d s s')
    (hj : Justified (EffectOk cfg) s.trace) : Justified (EffectOk cfg) s'.trace := by
  cases m with
  | quiet e he => exact ⟨effectOk_of_quiet he _, hj⟩
  | decided rid b basis r _ _ => exact ⟨trivial, hj⟩
  | stored rid scope row r hr ha hrow =>
    obtain ⟨raw, hraw⟩ := h.filed rid r hr
    exact ⟨⟨r.toFiling, raw, hraw, fun hreq => ha rfl hreq, hrow⟩, hj⟩
  | responded p ha hi => exact ⟨⟨ha, hi⟩, hj⟩
  | bind sender cookie t _ _ => exact ⟨trivial, hj⟩
  | create f raw decision _ _ _ _ _ => exact ⟨trivial, hj⟩
  | createDecided f raw b _ _ _ _ _ => exact ⟨trivial, trivial, hj⟩
  | park rid r _ _ => exact ⟨trivial, hj⟩
  | answerNow rid r b _ _ _ => exact ⟨trivial, trivial, hj⟩
  | settle rid r b _ _ _ =>
    rw [Broker.settle, answer_trace]
    exact justified_answers hj (fun _ _ _ _ => trivial) _ _ _
  | downgrade i f error _ =>
    rw [answer_trace]
    exact justified_answers hj (fun _ _ _ _ => trivial) _ _ _
  | finalise i f cachedOk _ =>
    rw [answer_trace]
    exact justified_answers hj (fun _ _ _ _ => trivial) _ _ _
  | release i rid ws _ =>
    rw [answer_trace]
    exact justified_answers hj (fun _ _ _ _ => trivial) _ _ _
  | _ => exact hj

theorem effects_justified (rules : List Rule) (cache : List CacheRow) (as : List Action) :
    Justified (EffectOk cfg) (run (step cfg) (State.init rules cache) as).trace :=
  (run_invariant_free (P := fun s => Justified (EffectOk cfg) s.trace)
    (fun _ _ hinv m hj => effects_move hinv m hj) as (inv_init rules cache) trivial).2

theorem inv_run (rules : List Rule) (cache : List CacheRow) (as : List Action) :
    Inv cfg (run (step cfg) (State.init rules cache) as) :=
  (run_invariant_free (P := fun _ => True) (fun _ _ _ _ _ => trivial) as (inv_init rules cache)
    trivial).1

end Broker
