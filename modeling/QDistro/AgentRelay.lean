/-
# The relay in front of the ssh agents

One fixed socket per user stands in front of the agents of all signing runs.  The registrar points it
at the agent of one run at a time and only that run takes it away; a connection waits for a target,
and its peer has to be the process that triggered the run or a descendant of it.

Whatever the order of publications, scrubs and connections, a connection is relayed only to the agent
that the relay stood on when the connection looked, and only for a process of the tree of the run that
had published it; and no run takes the relay from another (`relayed_within_run`).
-/
import QDistro.TransitionSystem
import Mathlib.Data.Int.Order.Basic

namespace AgentRelay

open TransitionSystem

/-! ## The process tree -/

/-- One reading of `/proc/<pid>/stat`. -/
structure Proc where
  ppid : ℤ → Option ℤ
  starttime : ℤ → Option ℤ

def maxAncestryDepth : ℕ := 64

/-- The loop of `_is_self_or_descendant`, with the number of turns that are left.  Every turn reads
`/proc` anew. -/
def walk (proc : ℕ → Proc) (owner : ℤ) : ℕ → ℤ → Bool
  | 0, pid => pid == owner
  | turns + 1, pid =>
    if pid ≤ 1 ∨ pid = owner then pid == owner
    else
      match (proc turns).ppid pid with
      | none => false
      | some parent => if parent = pid then false else walk proc owner turns parent

/-- `_is_self_or_descendant` -/
def isSelfOrDescendant (now : Proc) (proc : ℕ → Proc) (peer owner : ℤ) (start : Option ℤ) : Bool :=
  match start, now.starttime owner with
  | some st, some live => live == st && walk proc owner (maxAncestryDepth + 1) peer
  | _, _ => false

/-- A process and its ancestors up to the owner, each the parent of the one before when it was
read. -/
inductive Descends (proc : ℕ → Proc) (owner : ℤ) : ℕ → ℤ → Prop
  | self (turns : ℕ) : Descends proc owner turns owner
  | parent {turns : ℕ} {pid up : ℤ} (hpid : 1 < pid) (hup : (proc turns).ppid pid = some up)
      (hne : up ≠ pid) (h : Descends proc owner turns up) : Descends proc owner (turns + 1) pid

theorem descends_of_walk {proc : ℕ → Proc} {owner : ℤ} {turns : ℕ} {pid : ℤ}
    (h : walk proc owner turns pid = true) : Descends proc owner turns pid := by
  induction turns generalizing pid with
  | zero =>
    rw [eq_of_beq h]
    exact .self 0
  | succ turns ih =>
    rw [walk] at h
    split_ifs at h with hstop
    · rw [eq_of_beq h]
      exact .self _
    · split at h
      · cases h
      · next up hup =>
        split_ifs at h with hloop
        exact .parent (by omega) hup hloop (ih h)

theorem descends_of_isSelfOrDescendant {now : Proc} {proc : ℕ → Proc} {peer owner : ℤ}
    {start : Option ℤ} (h : isSelfOrDescendant now proc peer owner start = true) :
    start ≠ none ∧ now.starttime owner = start ∧
      Descends proc owner (maxAncestryDepth + 1) peer := by
  unfold isSelfOrDescendant at h
  split at h
  · next st live hlive =>
    rw [Bool.and_eq_true] at h
    rw [hlive, eq_of_beq h.1]
    exact ⟨Option.some_ne_none _, rfl, descends_of_walk h.2⟩
  · cases h

/-! ## The relay and its registrar -/

/-- The agent socket, and the pid and start time of the process that triggered the run. -/
structure Target where
  sock : String
  pid : Option ℤ
  start : Option ℤ
  deriving DecidableEq

inductive Event where
  /-- The relay is pointed at the agent of a run. -/
  | pointed (run : String) (t : Target)
  /-- The run takes its target away. -/
  | cleared (run : String)
  /-- A connection finds a target. -/
  | found (conn : ℕ) (t : Target)
  /-- A connection is relayed, with what `/proc` said. -/
  | relayed (conn : ℕ) (peer : Option ℤ) (now : Proc) (proc : ℕ → Proc) (sock : String)

structure State where
  ownerRun : Option String := none
  target : Option Target := none
  /-- The connections, each with its peer and the target it found. -/
  conns : ℕ → Option (Option ℤ × Option Target) := fun _ => none
  log : List Event := []

def relayableChannels : List String := ["SSH_AUTH_SOCK"]

inductive Act where
  /-- `ChannelRelayRegistrar.__call__` -/
  | register (run name : String) (value : Option String) (pid start : Option ℤ)
  /-- A connection is accepted; `_peer_pid` may fail. -/
  | accept (conn : ℕ) (peer : Option ℤ)
  /-- `_current_target` in the loop of `_serve`; the wait may be over or the relay stopped. -/
  | poll (conn : ℕ) (late : Bool)
  /-- The rest of `_serve`; the agent may be out of reach. -/
  | serve (conn : ℕ) (now : Proc) (proc : ℕ → Proc) (reached : Bool)

/-- The gate of `_serve`. -/
def admits (t : Target) (peer : Option ℤ) (now : Proc) (proc : ℕ → Proc) : Bool :=
  match t.pid, peer with
  | none, _ => true
  | some _, none => false
  | some owner, some p => isSelfOrDescendant now proc p owner t.start

def step (s : State) : Act → State
  | .register run name value pid start =>
    if name ∉ relayableChannels then s
    else
      match value.filter (· ≠ "") with
      | some sock =>
        if s.ownerRun ≠ none ∧ s.ownerRun ≠ some run then s
        else
          { s with ownerRun := some run, target := some ⟨sock, pid, start⟩
                   log := .pointed run ⟨sock, pid, start⟩ :: s.log }
      | none =>
        if s.ownerRun = some run then
          { s with ownerRun := none, target := none, log := .cleared run :: s.log }
        else s
  | .accept c peer => { s with conns := Function.update s.conns c (some (peer, none)) }
  | .poll c late =>
    match s.conns c, s.target with
    | some (peer, none), some t =>
      { s with conns := Function.update s.conns c (some (peer, some t)), log := .found c t :: s.log }
    | some (_, none), none =>
      if late then { s with conns := Function.update s.conns c none } else s
    | _, _ => s
  | .serve c now proc reached =>
    match s.conns c with
    | some (peer, some t) =>
      { s with
        conns := Function.update s.conns c none
        log := if admits t peer now proc && reached then .relayed c peer now proc t.sock :: s.log
          else s.log }
    | _ => s

/-! ## Within the run -/

/-- Whether the registrar did something. -/
def Event.moves : Event → Bool
  | .pointed _ _ | .cleared _ => true
  | _ => false

/-- The run that owns the relay after the events. -/
def owner : List Event → Option String
  | [] => none
  | .pointed run _ :: _ => some run
  | .cleared _ :: _ => none
  | _ :: older => owner older

/-- The last thing the registrar did was to point the relay at the target of the run. -/
def StandsOn (older : List Event) (run : String) (t : Target) : Prop :=
  ∃ newer rest, older = newer ++ .pointed run t :: rest ∧ ∀ e ∈ newer, e.moves = false

/-- What has to precede an event. -/
def Bound (older : List Event) : Event → Prop
  | .pointed run _ => owner older = none ∨ owner older = some run
  | .cleared run => owner older = some run
  | .found _ t => ∃ run, StandsOn older run t
  | .relayed c peer now proc sock => ∃ t, .found c t ∈ older ∧ t.sock = sock ∧
    ∀ pid, t.pid = some pid → ∃ p, peer = some p ∧ t.start ≠ none ∧ now.starttime pid = t.start ∧
      Descends proc pid (maxAncestryDepth + 1) p

structure Inv (s : State) : Prop where
  owner : AgentRelay.owner s.log = s.ownerRun
  target : ∀ t, s.target = some t → ∃ run, StandsOn s.log run t
  conns : ∀ c peer t, s.conns c = some (peer, some t) → .found c t ∈ s.log
  bound : Justified Bound s.log

variable {s : State}

theorem StandsOn.cons {older : List Event} {run : String} {t : Target} (h : StandsOn older run t)
    {e : Event} (he : e.moves = false) : StandsOn (e :: older) run t := by
  obtain ⟨newer, rest, rfl, hnewer⟩ := h
  refine ⟨e :: newer, rest, rfl, fun x hx => ?_⟩
  rcases List.mem_cons.mp hx with rfl | hx
  · exact he
  · exact hnewer x hx

theorem admits_spec {t : Target} {peer : Option ℤ} {now : Proc} {proc : ℕ → Proc}
    (h : admits t peer now proc = true) {pid : ℤ} (hpid : t.pid = some pid) :
    ∃ p, peer = some p ∧ t.start ≠ none ∧ now.starttime pid = t.start ∧
      Descends proc pid (maxAncestryDepth + 1) p := by
  unfold admits at h
  rw [hpid] at h
  cases peer with
  | none => cases h
  | some p => exact ⟨p, rfl, descends_of_isSelfOrDescendant h⟩

theorem found_update {conns : ℕ → Option (Option ℤ × Option Target)} {log : List Event}
    (h : ∀ c peer t, conns c = some (peer, some t) → .found c t ∈ log) {c : ℕ}
    {x : Option (Option ℤ × Option Target)} (hx : ∀ peer t, x = some (peer, some t) → .found c t ∈ log)
    (c' : ℕ) (peer : Option ℤ) (t : Target)
    (hc : Function.update conns c x c' = some (peer, some t)) : .found c' t ∈ log := by
  by_cases heq : c' = c
  · subst heq
    rw [Function.update_self] at hc
    exact hx peer t hc
  · rw [Function.update_of_ne heq] at hc
    exact h c' peer t hc

/-- Only what the registrar does changes the owner. -/
theorem Inv.log (h : Inv s) {e : Event} (he : e.moves = false) (hbound : Bound s.log e)
    (conns : ℕ → Option (Option ℤ × Option Target))
    (hconns : ∀ c peer t, conns c = some (peer, some t) → .found c t ∈ e :: s.log) :
    Inv { s with conns, log := e :: s.log } := by
  refine ⟨?_, fun t ht => ?_, hconns, hbound, h.bound⟩
  · rw [← h.owner]
    cases e <;> first | rfl | cases he
  · obtain ⟨run, hrun⟩ := h.target t ht
    exact ⟨run, hrun.cons he⟩

theorem Inv.register (h : Inv s) (run name : String) (value : Option String)
    (pid start : Option ℤ) : Inv (step s (.register run name value pid start)) := by
  rw [step]
  split
  · exact h
  · split
    · next sock hsock =>
      split
      · exact h
      · next hfree =>
        refine ⟨rfl, fun t ht => ?_, fun c peer t hc => .tail _ (h.conns c peer t hc), ?_, h.bound⟩
        · cases ht
          exact ⟨run, [], s.log, rfl, fun e he => (by cases he)⟩
        · show AgentRelay.owner s.log = none ∨ AgentRelay.owner s.log = some run
          rw [h.owner]
          by_contra hor
          exact hfree (not_or.mp hor)
    · split
      · next howner =>
        exact ⟨rfl, fun t ht => (by cases ht), fun c peer t hc => .tail _ (h.conns c peer t hc),
          h.owner.trans howner, h.bound⟩
      · exact h

theorem Inv.poll (h : Inv s) (c : ℕ) (late : Bool) : Inv (step s (.poll c late)) := by
  rw [step]
  split
  · next peer t hc ht =>
    refine h.log (e := .found c t) rfl (h.target t ht) _ (found_update ?_ ?_)
    · exact fun c' peer' t' hc' => .tail _ (h.conns c' peer' t' hc')
    · intro peer' t' heq
      cases heq
      exact .head _
  · split
    · exact ⟨h.owner, h.target, found_update h.conns fun _ _ heq => (by cases heq), h.bound⟩
    · exact h
  · exact h

theorem Inv.serve (h : Inv s) (c : ℕ) (now : Proc) (proc : ℕ → Proc) (reached : Bool) :
    Inv (step s (.serve c now proc reached)) := by
  rw [step]
  split
  · next peer t hc =>
    have hconns := found_update (x := none) (c := c) h.conns fun _ _ heq => (by cases heq)
    split
    · next hadmits =>
      rw [Bool.and_eq_true] at hadmits
      exact h.log (e := .relayed c peer now proc t.sock) rfl
        ⟨t, h.conns c peer t hc, rfl, fun pid => admits_spec hadmits.1⟩ _
        fun c' peer' t' hc' => .tail _ (hconns c' peer' t' hc')
    · exact ⟨h.owner, h.target, hconns, h.bound⟩
  · exact h

theorem Inv.step (h : Inv s) (a : Act) : Inv (step s a) := by
  cases a with
  | register run name value pid start => exact h.register run name value pid start
  | accept c peer =>
    exact ⟨h.owner, h.target, found_update h.conns fun _ _ heq => (by cases heq), h.bound⟩
  | poll c late => exact h.poll c late
  | serve c now proc reached => exact h.serve c now proc reached

/-- **A relayed connection stays within its run.** -/
theorem relayed_within_run (acts : List Act) : Justified Bound (run step {} acts).log := by
  have hstart : Inv {} :=
    ⟨rfl, fun t ht => (by cases ht), fun c peer t hc => (by cases hc), trivial⟩
  have hmeets : Meets step (fun _ _ => True) {} acts := .of_forall (fun _ _ => trivial) _ _
  exact (Meets.invariant (fun s a _ h => h.step a) hmeets hstart).bound

end AgentRelay
