/-
# Two sides of a panel lease

`display_panel_endpoint.py` and the primary's half of `display_panel_agent.py`: the dock asks
`PrimaryPanelAgent` to reserve, keep and give back the peer's panel, and whether the panel is
safe.  The agent sends one request at a time over one connection and waits for its response.
When an exchange fails it closes the connection for good, and from then on believes the panel
safe once a deadline of its own has passed.

`PanelLink` puts both sides together: the agent with the exchange it waits for, the messages in
flight, and the peer with its lease.  Messages may be delayed and lost, the peer may stop at any
time, and the two monotonic clocks differ by a constant.
-/
import QDistro.PanelLease

namespace PanelControl

open JsonText DisplayDock RemoteNested

/-! ## The client of the primary -/

/-- The request of a client, as a dictionary. -/
def requestJson (spec : PanelLeaseSpec) (seq : ℤ) (kind : PanelKind) : Json :=
  .obj [("schema", .str panelSchema), ("seq", .int seq), ("kind", .str kind.text),
    ("session_id", .str spec.sessionId), ("generation", .int spec.generation),
    ("slot_name", .str spec.slotName)]

/-- The event with which the peer confirms that the panel is restored. -/
def restoredJson (spec : PanelLeaseSpec) : Json :=
  .obj [("schema", .str panelSchema), ("event", .str "restored"),
    ("session_id", .str spec.sessionId), ("generation", .int spec.generation),
    ("slot_name", .str spec.slotName)]

/-- `PanelPeerRestored(text)` -/
def peerRestored : PyError := ⟨"PanelPeerRestored", "panel peer confirmed local restoration"⟩

/-- The result with a text. -/
def PanelResult.ofText (text : String) : Option PanelResult :=
  [PanelResult.reserved, .renewed, .released, .safe, .unsafePanel].find? fun r => r.text = text

/-- The result of a response; a set cannot be asked about a list or a dictionary. -/
def responseResult : Json → Except PyError PanelResult
  | .str text =>
    match PanelResult.ofText text with
    | some r => .ok r
    | none => .error (controlError "panel response is invalid")
  | .arr _ => .error ⟨"TypeError", "unhashable type: 'list'"⟩
  | .obj _ => .error ⟨"TypeError", "unhashable type: 'dict'"⟩
  | _ => .error (controlError "panel response is invalid")

/-- What `PanelPrimaryClient.request` makes of one decoded frame. -/
def readResponse (py : PyJson) (spec : PanelLeaseSpec) (seq : ℤ) (kind : PanelKind)
    (response : Json) : Except PyError PanelResult :=
  match response with
  | .obj fields =>
    if hasExactly fields ["schema", "event", "session_id", "generation", "slot_name"] &&
        eqText panelSchema (itemOf fields "schema") &&
        eqText "restored" (itemOf fields "event") &&
        eqText spec.sessionId (itemOf fields "session_id") &&
        py.eqInt spec.generation (itemOf fields "generation") &&
        eqText spec.slotName (itemOf fields "slot_name") then .error peerRestored
    else if hasExactly fields ["schema", "seq", "kind", "result"] &&
        eqText panelSchema (itemOf fields "schema") &&
        py.eqInt seq (itemOf fields "seq") &&
        eqText kind.text (itemOf fields "kind") then responseResult (itemOf fields "result")
    else .error (controlError "panel response is invalid")
  | _ => .error (controlError "panel response is invalid")

/-! ## The agent of the primary -/

/-- The actions of the dock role. -/
inductive DockAction where
  | peerBlankPanel
  | heartbeat
  | peerUnblankPanel
  | safe
  | recover
  deriving DecidableEq, Repr

/-- What the agent answers. -/
inductive PrimaryAnswer where
  | result (r : PanelResult)
  | restored
  | safe
  | unsafePanel
  deriving DecidableEq, Repr

/-- `PrimaryPanelAgent` -/
structure PrimaryPanelAgent where
  safe : Bool := false
  deadline : Option ℚ := none
  disconnected : Bool := false
  deriving DecidableEq, Repr

/-- `self._safe = safe` -/
def PrimaryPanelAgent.believe (a : PrimaryPanelAgent) (safe : Bool) : PrimaryPanelAgent :=
  { a with safe := safe }

/-- `_deadline_safe` at a reading of the clock: the agent after it believes what it returned. -/
def PrimaryPanelAgent.deadlineSafe (a : PrimaryPanelAgent) (t : ℚ) : PrimaryPanelAgent :=
  match a.disconnected, a.deadline with
  | true, some deadline => if deadline ≤ t then { a with safe := true } else a
  | _, _ => a

/-- `fail_closed` of the agent's own state. -/
def PrimaryPanelAgent.failClosed (a : PrimaryPanelAgent) (error : PyError) (t : ℚ) :
    PrimaryPanelAgent :=
  ({ a with
      disconnected := true
      safe := a.safe || decide (error.name = "PanelPeerRestored") }).deadlineSafe t

/-- Where `perform` waits for a response. -/
inductive Waiting where
  | blank
  | heartbeat
  | unblank
  | recoverStatus
  | recoverRelease
  | safeStatus
  deriving DecidableEq, Repr

/-- The request that `perform` waits for. -/
def Waiting.kind : Waiting → PanelKind
  | .blank => .reserve
  | .heartbeat => .heartbeat
  | .unblank | .recoverRelease => .release
  | .recoverStatus | .safeStatus => .status

/-- `perform`, up to its next request or to its end. -/
inductive Progress where
  | requests (w : Waiting)
  | answers (agent : PrimaryPanelAgent) (answer : PrimaryAnswer)
  deriving DecidableEq, Repr

/-- `return "safe" if self._deadline_safe() else "unsafe"` -/
def PrimaryPanelAgent.answerSafe (a : PrimaryPanelAgent) (t : ℚ) : Progress :=
  .answers (a.deadlineSafe t) (if (a.deadlineSafe t).safe then .safe else .unsafePanel)

/-- `perform(action)` up to its first request; it may read the clock twice. -/
def PrimaryPanelAgent.start (a : PrimaryPanelAgent) (action : DockAction) (t t' : ℚ) : Progress :=
  match action with
  | .peerBlankPanel => .requests .blank
  | .heartbeat => .requests .heartbeat
  | .peerUnblankPanel =>
    if (a.deadlineSafe t).safe then .answers (a.deadlineSafe t) .restored else .requests .unblank
  | .recover =>
    if !(a.deadlineSafe t).safe && !a.disconnected then .requests .recoverStatus
    else (a.deadlineSafe t).answerSafe t'
  | .safe =>
    if !(a.deadlineSafe t).safe && !a.disconnected then .requests .safeStatus
    else (a.deadlineSafe t).answerSafe t'

/-- `perform` after the response to its request. -/
def PrimaryPanelAgent.resume (a : PrimaryPanelAgent) (heartbeat : ℚ) (w : Waiting)
    (r : PanelResult) (t : ℚ) : Progress :=
  match w with
  | .blank =>
    let a := { a with safe := false, disconnected := false }
    .answers (if r = .reserved then { a with deadline := some (t + heartbeat) } else a) (.result r)
  | .heartbeat =>
    .answers (if r = .renewed then { a with deadline := some (t + heartbeat) } else a) (.result r)
  | .unblank =>
    .answers (a.believe (decide (r = .released)))
      (if r = .released then .restored else .unsafePanel)
  | .recoverStatus =>
    if r = .reserved then .requests .recoverRelease
    else (a.believe (decide (r = .safe))).answerSafe t
  | .recoverRelease => (a.believe (decide (r = .released))).answerSafe t
  | .safeStatus => (a.believe (decide (r = .safe))).answerSafe t

/-- What the endpoint answers when `perform` raised: the belief of the agent, to an action that
asks for it. -/
def failAnswer (a : PrimaryPanelAgent) (action : DockAction) : Option PrimaryAnswer :=
  match action with
  | .peerUnblankPanel => if a.safe then some .restored else none
  | .safe | .recover => if a.safe then some .safe else none
  | .peerBlankPanel | .heartbeat => none

/-! ## The link -/

/-- The two clocks: each is the common time plus an offset. -/
structure Offsets where
  primary : ℚ
  peer : ℚ

/-- Both sides and what is between them. -/
structure PanelLink where
  agent : PrimaryPanelAgent := {}
  /-- The sequence number of the client. -/
  seq : ℤ := 0
  /-- The client's socket is closed. -/
  closed : Bool := false
  /-- The action that `perform` works on, and the response it waits for. -/
  waiting : Option (DockAction × Waiting) := none
  peer : PanelPeer := {}
  /-- `serve_authenticated_panel` runs. -/
  serving : Bool := true
  requests : List Json := []
  responses : List Json := []
  now : ℚ
  /-- The last `reserve` or `heartbeat` that the peer granted: its number and its time. -/
  granted : Option (ℤ × ℚ) := none

/-- What one step of the peer meets, besides the common time: its wall clock and the panel
actions. -/
structure PeerMeets where
  wall : ℚ
  blank : Option PyError
  restore : Option PyError
  safe : Except PyError Bool
  deriving DecidableEq

/-- The readings of a step of the peer that begins at `t` and ends at `t'`. -/
def PeerMeets.env (m : PeerMeets) (o : Offsets) (t t' : ℚ) : PanelEnv :=
  ⟨m.wall, t + o.peer, t' + o.peer, m.blank, m.restore, m.safe⟩

/-- What happens next. -/
inductive LinkEvent where
  /-- The dock asks for an action. -/
  | perform (action : DockAction) (t t' : ℚ)
  /-- The peer handles the first request in flight, and serves no more if that raised. -/
  | handle (m finish : PeerMeets) (t t' : ℚ)
  /-- The peer's poll times out. -/
  | poll (m finish : PeerMeets) (t t' : ℚ)
  /-- The peer's connection ends, or brings something that is no request. -/
  | hangUp (finish : PeerMeets) (t t' : ℚ)
  /-- The peer's process is killed. -/
  | crash
  | loseRequest (i : ℕ)
  | loseResponse (i : ℕ)
  /-- The primary receives a number of frames at once. -/
  | receive (frames : ℕ) (t : ℚ)
  /-- The primary's socket times out, ends or fails. -/
  | fail (error : PyError) (t : ℚ)

/-- The `finally` of `serve_authenticated_panel`: the lease after it, and whether the restored
event is sent. -/
def finishServing (spec : PanelLeaseSpec) (s : PanelLeaseState) (e : PanelEnv) :
    PanelLeaseState × Bool :=
  let o := s.expire e
  match o.result with
  | .error _ => (o.state, false)
  | .ok restored =>
    if restored || o.state.terminal then
      let st := o.state.status spec e
      (st.state, match st.result with | .ok .safe => true | _ => false)
    else (o.state, false)

namespace PanelLink

variable (py : PyJson) (spec : PanelLeaseSpec) (o : Offsets)

/-- The peer stops serving. -/
def finish (l : PanelLink) (e : PanelEnv) : PanelLink :=
  let (lease, confirmed) := finishServing spec l.peer.lease e
  { l with
      peer := { l.peer with lease := lease }
      serving := false
      responses := if confirmed then l.responses ++ [restoredJson spec] else l.responses }

/-- The exchange failed: `fail_closed`, and the endpoint's answer. -/
def giveUp (l : PanelLink) (action : DockAction) (error : PyError) (t : ℚ) :
    PanelLink × Option PrimaryAnswer :=
  let agent := l.agent.failClosed error (t + o.primary)
  ({ l with agent := agent, closed := true, waiting := none, now := t }, failAnswer agent action)

/-- `request(kind)` of the client, up to its wait.  A closed socket raises at once. -/
def send (l : PanelLink) (action : DockAction) (w : Waiting) (t : ℚ) :
    PanelLink × Option PrimaryAnswer :=
  let l := { l with seq := l.seq + 1, now := t }
  if l.closed then l.giveUp o action ⟨"OSError", "[Errno 9] Bad file descriptor"⟩ t
  else
    ({ l with
        waiting := some (action, w)
        requests := l.requests ++ [requestJson spec l.seq w.kind] }, none)

/-- `perform` goes on. -/
def proceed (l : PanelLink) (action : DockAction) (p : Progress) (t : ℚ) :
    PanelLink × Option PrimaryAnswer :=
  match p with
  | .requests w => l.send spec o action w t
  | .answers agent answer => ({ l with agent := agent, waiting := none, now := t }, some answer)

/-- The call that the first request in flight makes. -/
def accepted (l : PanelLink) : Option (ℤ × PanelKind) :=
  match l.requests with
  | [] => none
  | request :: _ => (acceptRequest py spec l.peer.lastSeq request).toOption

/-- A `reserve` or a `heartbeat` that returned. -/
def isGrant (kind : PanelKind) (result : Except PyError PanelResult) : Bool :=
  match kind, result with
  | .reserve, .ok _ | .heartbeat, .ok _ => true
  | _, _ => false

/-- The peer handles a request that it accepts. -/
def answerRequest (l : PanelLink) (seq : ℤ) (kind : PanelKind) (m f : PeerMeets) (t t' : ℚ) :
    PanelLink :=
  let out := kind.run spec l.peer.lease (m.env o t t')
  let l := { l with
    peer := ⟨out.state, seq⟩
    now := t'
    granted := if isGrant kind out.result then some (seq, t') else l.granted }
  match out.result with
  | .ok r => { l with responses := l.responses ++ [responseJson seq kind r] }
  | .error _ => l.finish spec (f.env o t' t')

/-- What the client makes of the frames it receives at once. -/
def readFrames (l : PanelLink) (w : Waiting) (frames : List Json) : Except PyError PanelResult :=
  match frames with
  | [frame] => readResponse py spec l.seq w.kind frame
  | _ => .error (controlError "panel peer returned extra responses")

/-- The primary receives frames while it waits. -/
def received (l : PanelLink) (action : DockAction) (w : Waiting) (frames : List Json) (t : ℚ) :
    PanelLink × Option PrimaryAnswer :=
  match l.readFrames py spec w frames with
  | .ok r => l.proceed spec o action (l.agent.resume spec.heartbeat w r (t + o.primary)) t
  | .error error => l.giveUp o action error t

/-- One step, with the answer it gives to the dock; `none` when the event is not possible. -/
def step (l : PanelLink) (ev : LinkEvent) : Option (PanelLink × Option PrimaryAnswer) :=
  match ev with
  | .perform action t t' =>
    if l.now ≤ t ∧ t ≤ t' ∧ l.waiting = none then
      some (l.proceed spec o action
        (l.agent.start action (t + o.primary) (t' + o.primary)) t')
    else none
  | .handle m f t t' =>
    if l.now ≤ t ∧ t ≤ t' ∧ l.serving = true ∧ l.requests ≠ [] then
      let l' := { l with requests := l.requests.tail, now := t' }
      match l.accepted py spec with
      | some (seq, kind) => some (l'.answerRequest spec o seq kind m f t t', none)
      | none => some (l'.finish spec (f.env o t t'), none)
    else none
  | .poll m f t t' =>
    if l.now ≤ t ∧ t ≤ t' ∧ l.serving = true then
      let out := l.peer.lease.tick spec (m.env o t t')
      let l' := { l with peer := { l.peer with lease := out.state }, now := t' }
      match out.result with
      | .ok false => some (l', none)
      | _ => some (l'.finish spec (f.env o t' t'), none)
    else none
  | .hangUp f t t' =>
    if l.now ≤ t ∧ t ≤ t' ∧ l.serving = true then
      some ({ l with now := t' }.finish spec (f.env o t t'), none)
    else none
  | .crash => some ({ l with serving := false }, none)
  | .loseRequest i => some ({ l with requests := l.requests.eraseIdx i }, none)
  | .loseResponse i => some ({ l with responses := l.responses.eraseIdx i }, none)
  | .receive frames t =>
    match l.waiting with
    | some (action, w) =>
      if l.now ≤ t ∧ 0 < frames ∧ frames ≤ l.responses.length then
        some ({ l with responses := l.responses.drop frames }.received py spec o action w
          (l.responses.take frames) t)
      else none
    | none => none
  | .fail error t =>
    match l.waiting with
    | some (action, _) =>
      if l.now ≤ t ∧ error.name ≠ "PanelPeerRestored" then some (l.giveUp o action error t)
      else none
    | none => none

/-- The panel is reserved under a deadline that has not passed. -/
def Held (l : PanelLink) : Prop :=
  l.peer.lease.reserved = true ∧ ∃ d, l.peer.lease.deadline = some d ∧ l.now + o.peer ≤ d

/-- The primary waits for the response to the last grant. -/
def awaitsGrant (l : PanelLink) : Bool :=
  match l.waiting, l.granted with
  | some (_, w), some (seq, _) => (w == .blank || w == .heartbeat) && decide (seq = l.seq)
  | _, _ => false

/-- The belief of the agent does not rest on an earlier exchange: it has no deadline and does
not hold the panel safe. -/
def noBelief (l : PanelLink) : Prop := l.agent.safe = false ∧ l.agent.deadline = none

/-- Every grant is acknowledged: a grant is not made to a primary that has given up, the primary
does not give up on a grant, and the response arrives after the instant of the grant.  The first
two are harmless while the agent believes nothing. -/
def Acknowledged (l : PanelLink) (ev : LinkEvent) : Prop :=
  match ev with
  | .handle m _ t t' =>
    ∀ seq kind, l.accepted py spec = some (seq, kind) →
      isGrant kind (kind.run spec l.peer.lease (m.env o t t')).result = true →
      l.waiting = none → l.noBelief
  | .receive frames t =>
    l.awaitsGrant = true → (∀ seq t₀, l.granted = some (seq, t₀) → t₀ < t) ∧
      ∀ action w error, l.waiting = some (action, w) →
        l.readFrames py spec w (l.responses.take frames) = .error error →
        error ≠ peerRestored → l.noBelief
  | .fail _ _ => l.awaitsGrant = true → l.noBelief
  | _ => True

/-- The states of the runs whose steps are all allowed. -/
inductive Reaches (allowed : PanelLink → LinkEvent → Prop) : PanelLink → Prop
  | start (now : ℚ) : Reaches allowed { now := now }
  | step {l l' : PanelLink} {ev : LinkEvent} {answer : Option PrimaryAnswer}
      (h : Reaches allowed l) (hallowed : allowed l ev)
      (hstep : l.step py spec o ev = some (l', answer)) : Reaches allowed l'

end PanelLink

/-- "safe" and "restored" -/
def PrimaryAnswer.saysSafe : PrimaryAnswer → Bool
  | .restored | .safe | .result .safe => true
  | _ => false

end PanelControl
