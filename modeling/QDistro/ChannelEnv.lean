/-
# References to delivered secrets

A workflow run delivers secrets through handles and publishes references to them (a socket or a
path) in its `channel_env`; `get_run_channel_env` gives the allowlisted ones to external processes.
The worker of the run and the calls interleave: a call looks at the state of the run, then reads the
references, then returns them, and a cleanup scrubs one handle after the other.

A reference is backed while an owned handle of the run that is not scrubbed has that path.  Every
reference that a call returns is backed (`answers_backed`) in the runs in which no delivery fails
after something was published, as such a failure scrubs the handles of a run that is still RUNNING,
and in which the run does not end within a call.
-/
import QDistro.PyDict
import QDistro.TransitionSystem

namespace ChannelEnv

open TransitionSystem

/-! ## The engine -/

inductive Method where
  | sshAgent | tmpfsMount | other
  deriving DecidableEq

/-- A `deliver_secret` step and the handle it makes. -/
structure Delivery where
  method : Method
  /-- `auth_sock` or `path` -/
  path : Option String
  exposeAs : Option String
  /-- `track`: the handle outlives the step. -/
  track : Bool
  command : Bool

structure Handle extends Delivery where
  owned : Bool := true
  scrubbed : Bool := false

inductive RunState where
  | running | completed | failed
  deriving DecidableEq

/-- Where the worker of the run is. -/
inductive Worker where
  | between
  | delivering (i : ℕ)
  | cleaning (todo : List ℕ) (failing : Bool)
  | failing
  deriving DecidableEq

structure State where
  run : RunState := .running
  worker : Worker := .between
  handles : List Handle := []
  channelEnv : PyDict String String := ∅
  /-- The calls that have seen a RUNNING run and not yet returned, with what they have read. -/
  calls : List (ℕ × List String) := []
  /-- What the calls returned, and whether it was backed at that moment. -/
  answers : List (String × Bool) := []

/-- `_publish_channel` -/
def Delivery.publish (d : Delivery) (env : PyDict String String) : PyDict String String :=
  match d.method, d.path.filter (· ≠ "") with
  | .sshAgent, some sock => env.insert (d.exposeAs.getD "SSH_AUTH_SOCK") sock
  | .tmpfsMount, some path => env.insert (d.exposeAs.getD "SECRET_PATH") path
  | _, _ => env

/-- The handles in `_delivery_handles`. -/
def State.owned (s : State) : List ℕ :=
  (List.range s.handles.length).filter fun i => (s.handles[i]?).any Handle.owned

/-- The rest of `_cleanup_owned`, and what the worker does after it. -/
def Worker.clean (todo : List ℕ) (failing : Bool) : Worker :=
  if todo = [] then if failing then .failing else .between else .cleaning todo failing

/-- One handle in a cleanup: it is left or its revocation fails, its audit row fails, or it is
released. -/
inductive Outcome where
  | kept | unaudited | released

def Outcome.apply (o : Outcome) (h : Handle) : Handle :=
  match o with
  | .kept => h
  | .unaudited => { h with scrubbed := true }
  | .released => { h with scrubbed := true, owned := false }

def State.backed (s : State) (v : String) : Bool :=
  s.handles.any fun h => h.owned && !h.scrubbed && h.path == some v

/-- `_EXTERNAL_CHANNEL_ENV_ALLOWLIST` -/
def allowlist : List String := ["SSH_AUTH_SOCK"]

/-- What `get_run_channel_env` reads. -/
def State.references (s : State) (names : Option (List String)) : List String :=
  (allowlist.filter fun n => names.all (·.elem n)).filterMap fun n =>
    (s.channelEnv.get? n).filter (· ≠ "")

inductive Act where
  /-- `make_delivery` and `_own_delivery` -/
  | own (d : Delivery)
  /-- `deliver()` returns or raises. -/
  | deliver (ok : Bool)
  | scrub (o : Outcome)
  /-- The run is marked failed or completed, and cleaned up. -/
  | finish (failed : Bool)
  | check (call : ℕ)
  | read (call : ℕ) (names : Option (List String))
  | answer (call : ℕ × List String)

def step (s : State) : Act → State
  | .own d =>
    if s.worker = .between ∧ s.run = .running then
      { s with handles := s.handles ++ [{ toDelivery := d }]
               worker := .delivering s.handles.length }
    else s
  | .deliver ok =>
    match s.worker with
    | .delivering i =>
      match s.handles[i]? with
      | none => s
      | some h =>
        if ok = false then { s with worker := .clean s.owned true }
        else if h.track = false then { s with worker := .clean [i] false }
        else
          { s with worker := .between
                   channelEnv := if h.command then s.channelEnv else h.publish s.channelEnv }
    | _ => s
  | .scrub o =>
    match s.worker with
    | .cleaning (i :: rest) failing =>
      { s with handles := s.handles.modify i o.apply, worker := .clean rest failing }
    | _ => s
  | .finish failed =>
    if s.run = .running ∧ (s.worker = .between ∨ s.worker = .failing ∧ failed = true) then
      { s with run := if failed then .failed else .completed, worker := .clean s.owned false }
    else s
  | .check call => if s.run = .running then { s with calls := (call, []) :: s.calls } else s
  | .read call names =>
    if (call, []) ∈ s.calls then
      { s with calls := (call, s.references names) :: s.calls.erase (call, []) }
    else s
  | .answer call =>
    if call ∈ s.calls then
      { s with calls := s.calls.erase call
               answers := s.answers ++ call.2.map fun v => (v, s.backed v) }
    else s

/-! ## Backed answers -/

/-- No delivery fails once something is published or read, and the run does not end within a
call. -/
def careful (s : State) : Act → Bool
  | .deliver ok => ok || s.channelEnv.entries.isEmpty && s.calls.all (·.2.isEmpty)
  | .finish _ => s.calls.isEmpty
  | _ => true

/-- The handles the worker is busy with. -/
def Worker.busy : Worker → List ℕ
  | .delivering i => [i]
  | .cleaning todo _ => todo
  | _ => []

theorem Worker.busy_clean (todo : List ℕ) (failing : Bool) :
    (Worker.clean todo failing).busy = todo := by
  unfold Worker.clean
  split_ifs with h hfailing
  · exact h.symm
  · exact h.symm
  · rfl

theorem Worker.clean_ne (todo : List ℕ) (failing : Bool) (i : ℕ) :
    Worker.clean todo failing ≠ .delivering i := by
  unfold Worker.clean
  split_ifs <;> exact fun h => (by cases h)

/-- The handle is live. -/
def State.Live (s : State) (i : ℕ) (v : Option String) : Prop :=
  ∃ h, s.handles[i]? = some h ∧ h.owned = true ∧ h.scrubbed = false ∧ h.path = v

/-- The reference is published, or a call has read it. -/
def State.Given (s : State) (v : String) : Prop :=
  (∃ k, s.channelEnv.get? k = some v) ∨ ∃ c ∈ s.calls, v ∈ c.2

structure Inv (s : State) : Prop where
  given : s.run = .running → ∀ v, s.Given v → ∃ i, s.Live i (some v) ∧ i ∉ s.worker.busy
  delivering : ∀ i, s.worker = .delivering i → ∃ v, s.Live i v
  ended : s.run ≠ .running → s.calls = []
  backed : ∀ a ∈ s.answers, a.2 = true

variable {s : State}

theorem publish_cases {d : Delivery} {env : PyDict String String} {k v : String}
    (h : (d.publish env).get? k = some v) : env.get? k = some v ∨ d.path = some v := by
  unfold Delivery.publish at h
  split at h
  · next hpath =>
    rcases PyDict.get?_insert_cases h with ⟨-, rfl⟩ | ⟨-, h⟩
    · exact .inr (Option.filter_eq_some_iff.mp hpath).1
    · exact .inl h
  · next hpath =>
    rcases PyDict.get?_insert_cases h with ⟨-, rfl⟩ | ⟨-, h⟩
    · exact .inr (Option.filter_eq_some_iff.mp hpath).1
    · exact .inl h
  · exact .inl h

theorem State.Live.backed {i : ℕ} {v : String} (h : s.Live i (some v)) : s.backed v = true := by
  obtain ⟨x, hx, howned, hscrubbed, hpath⟩ := h
  exact List.any_eq_true.mpr ⟨x, List.mem_of_getElem? hx, by simp [howned, hscrubbed, hpath]⟩

theorem Inv.own (h : Inv s) (d : Delivery) : Inv { s with
    handles := s.handles ++ [{ toDelivery := d }], worker := .delivering s.handles.length } := by
  refine ⟨fun hrun v hv => ?_, fun i hi => ?_, h.ended, h.backed⟩
  · obtain ⟨i, ⟨x, hx, hlive⟩, -⟩ := h.given hrun v hv
    have hlt := (List.getElem?_eq_some_iff.mp hx).1
    refine ⟨i, ⟨x, ?_, hlive⟩, fun hi => ?_⟩
    · rw [List.getElem?_append_left hlt, hx]
    · cases List.mem_singleton.mp hi
      omega
  · cases hi
    exact ⟨_, _, List.getElem?_concat_length, rfl, rfl, rfl⟩

theorem Inv.revoke (h : Inv s) {i : ℕ} (hw : s.worker = .delivering i) :
    Inv { s with worker := .clean [i] false } := by
  refine ⟨fun hrun v hv => ?_, fun j hj => (Worker.clean_ne [i] false j hj).elim, h.ended, h.backed⟩
  obtain ⟨j, hlive, hj⟩ := h.given hrun v hv
  rw [hw] at hj
  exact ⟨j, hlive, by rw [Worker.busy_clean]; exact hj⟩

theorem Inv.publish (h : Inv s) {i : ℕ} {x : Handle} (hw : s.worker = .delivering i)
    (hx : s.handles[i]? = some x) : Inv { s with
      worker := .between
      channelEnv := if x.command then s.channelEnv else x.publish s.channelEnv } := by
  refine ⟨fun hrun v hv => ?_, fun j hj => (by cases hj), h.ended, h.backed⟩
  have hcases : s.Given v ∨ x.path = some v := by
    rcases hv with ⟨k, hk⟩ | hread
    · dsimp only at hk
      split_ifs at hk
      · exact .inl (.inl ⟨k, hk⟩)
      · exact (publish_cases hk).imp_left fun hold => .inl ⟨k, hold⟩
    · exact .inl (.inr hread)
  rcases hcases with hv | hpath
  · obtain ⟨j, hlive, -⟩ := h.given hrun v hv
    exact ⟨j, hlive, List.not_mem_nil⟩
  · obtain ⟨w, y, hy, howned, hscrubbed, -⟩ := h.delivering i hw
    cases hx.symm.trans hy
    exact ⟨i, ⟨x, hx, howned, hscrubbed, hpath⟩, List.not_mem_nil⟩

theorem Inv.scrub (h : Inv s) {i : ℕ} {rest : List ℕ} {failing : Bool}
    (hw : s.worker = .cleaning (i :: rest) failing) (o : Outcome) :
    Inv { s with handles := s.handles.modify i o.apply, worker := .clean rest failing } := by
  refine ⟨fun hrun v hv => ?_, fun j hj => (Worker.clean_ne _ _ _ hj).elim, h.ended, h.backed⟩
  obtain ⟨j, ⟨x, hx, hlive⟩, hj⟩ := h.given hrun v hv
  rw [hw] at hj
  obtain ⟨hne, hrest⟩ := not_or.mp fun hor => hj (List.mem_cons.mpr hor)
  refine ⟨j, ⟨x, ?_, hlive⟩, by rw [Worker.busy_clean]; exact hrest⟩
  show (s.handles.modify i o.apply)[j]? = some x
  rw [List.getElem?_modify, hx]
  exact congrArg some (if_neg (Ne.symm hne))

theorem Inv.running (h : Inv s) {call : ℕ × List String} (hcall : call ∈ s.calls) :
    s.run = .running := by
  by_contra hne
  rw [h.ended hne] at hcall
  cases hcall

theorem Inv.read (h : Inv s) {call : ℕ} (hcall : (call, []) ∈ s.calls)
    (names : Option (List String)) :
    Inv { s with calls := (call, s.references names) :: s.calls.erase (call, []) } := by
  refine ⟨fun hrun v hv => h.given hrun v ?_, h.delivering,
    fun hne => absurd (h.running hcall) hne, h.backed⟩
  rcases hv with hv | ⟨c, hc, hv⟩
  · exact .inl hv
  · rcases List.mem_cons.mp hc with rfl | hc
    · obtain ⟨n, -, hn⟩ := List.mem_filterMap.mp hv
      exact .inl ⟨n, (Option.filter_eq_some_iff.mp hn).1⟩
    · exact .inr ⟨c, List.mem_of_mem_erase hc, hv⟩

theorem Inv.answer (h : Inv s) {call : ℕ × List String} (hcall : call ∈ s.calls) :
    Inv { s with
      calls := s.calls.erase call
      answers := s.answers ++ call.2.map fun v => (v, s.backed v) } := by
  have hrun := h.running hcall
  refine ⟨fun _ v hv => h.given hrun v ?_, h.delivering, fun hne => absurd hrun hne,
    fun a ha => ?_⟩
  · exact hv.imp_right fun ⟨c, hc, hv⟩ => ⟨c, List.mem_of_mem_erase hc, hv⟩
  · rcases List.mem_append.mp ha with ha | ha
    · exact h.backed a ha
    · obtain ⟨v, hv, rfl⟩ := List.mem_map.mp ha
      obtain ⟨i, hlive, -⟩ := h.given hrun v (.inr ⟨call, hcall, hv⟩)
      exact hlive.backed

theorem Inv.step (h : Inv s) {a : Act} (hok : careful s a = true) : Inv (step s a) := by
  unfold ChannelEnv.step
  cases a with
  | own d =>
    dsimp only
    split_ifs
    · exact h.own d
    · exact h
  | deliver ok =>
    dsimp only
    split
    · next i hw =>
      split
      · exact h
      · next x hx =>
        split
        · next hfails =>
          subst hfails
          obtain ⟨hempty, hnone⟩ : s.channelEnv.entries = [] ∧ ∀ c ∈ s.calls, c.2 = [] := by
            simpa [careful] using hok
          refine ⟨fun _ v hv => ?_, fun j hj => (Worker.clean_ne _ _ _ hj).elim, h.ended,
            h.backed⟩
          rcases hv with ⟨k, hk⟩ | ⟨c, hc, hv⟩
          · rw [PyDict.get?, hempty] at hk
            cases hk
          · rw [hnone c hc] at hv
            cases hv
        · split
          · exact h.revoke hw
          · exact h.publish hw hx
    · exact h
  | scrub o =>
    dsimp only
    split
    · next hw => exact h.scrub hw o
    · exact h
  | finish failed =>
    dsimp only
    split
    · have hcalls : s.calls = [] := by simpa [careful] using hok
      refine ⟨fun hrun' => ?_, fun j hj => (Worker.clean_ne _ _ _ hj).elim, fun _ => hcalls,
        h.backed⟩
      cases failed <;> cases hrun'
    · exact h
  | check call =>
    dsimp only
    split_ifs with hrun
    · refine ⟨fun _ v hv => h.given hrun v ?_, h.delivering, fun hne => absurd hrun hne, h.backed⟩
      rcases hv with hv | ⟨c, hc, hv⟩
      · exact .inl hv
      · rcases List.mem_cons.mp hc with rfl | hc
        · cases hv
        · exact .inr ⟨c, hc, hv⟩
    · exact h
  | read call names =>
    dsimp only
    split_ifs with hcall
    · exact h.read hcall names
    · exact h
  | answer call =>
    dsimp only
    split_ifs with hcall
    · exact h.answer hcall
    · exact h

/-- **Every returned reference is backed** in a run whose steps are all careful. -/
theorem answers_backed (acts : List Act)
    (h : Meets step (fun s a => careful s a = true) {} acts) :
    ∀ a ∈ (run step {} acts).answers, a.2 = true := by
  have hstart : Inv {} :=
    ⟨fun _ v hv => (by rcases hv with ⟨k, hk⟩ | ⟨c, hc, -⟩ <;> contradiction),
      fun i hi => (by cases hi), fun _ => rfl, fun a ha => (by cases ha)⟩
  exact (Meets.invariant (fun s a hok h => h.step hok) h hstart).backed

def agent : Delivery := ⟨.sshAgent, some "/run/agent.1", none, true, false⟩

def agentRun : List Act :=
  [.own agent, .deliver true, .check 0, .read 0 none, .answer (0, ["/run/agent.1"])]

theorem agent_backed : (run step {} agentRun).answers = [("/run/agent.1", true)] ∧
    ∀ a ∈ (run step {} agentRun).answers, a.2 = true :=
  ⟨by decide, answers_backed agentRun (by decide)⟩

/-- A second delivery fails: the agent of the first is scrubbed, and its socket still returned. -/
theorem scrubbed_agent_returned : ¬ ∀ acts, ∀ a ∈ (run step {} acts).answers, a.2 = true := by
  intro h
  exact absurd (h [.own agent, .deliver true, .own { agent with path := none }, .deliver false,
    .scrub .released, .check 0, .read 0 none, .answer (0, ["/run/agent.1"])]) (by decide)

end ChannelEnv
