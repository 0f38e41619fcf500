/-
# Helper messages and the loss of the link

The viewer controller reads two sockets.  What the helper sends was right when it was sent,
but the controller may have handled a `detached` or a `source_closed` in between.  The handlers
of the viewer raise on such a message, and an exception ends the controller, so a lost link ends
the viewer when a message of the helper is in flight.

The invariant compares the state of the controller with the view the helper will have once it
has read everything that was sent to it (`ViewerSession.view`): as long as the two agree, every
message in flight is one the controller accepts.
-/
import QDistro.ViewerReplies
import QDistro.TransitionSystem
import Mathlib.Order.Interval.Finset.Nat

open JsonText TransitionSystem

namespace RemoteNested

open List

/-! ## The helper -/

/-- What the helper knows from the messages it has read, and the last frame it acknowledged. -/
structure HelperView where
  /-- an announce, and no detached since -/
  attached : Bool := false
  /-- an announce, and no source_closed since -/
  alive : Bool := false
  revision : ℕ := 0
  /-- the frames of this connection -/
  delivered : List ℕ := []
  /-- those of them that no source_closed or detached has followed -/
  current : List ℕ := []
  acked : ℕ := 0
  deriving DecidableEq, Repr

namespace HelperView

/-- The helper reads a message. -/
def read (h : HelperView) (m : LocalBoundaryMessage) : HelperView :=
  match m.kind with
  | .connected => { h with delivered := [], current := [], acked := 0 }
  | .announce => { h with attached := true, alive := true, revision := m.seq }
  | .frame => { h with delivered := h.delivered ++ [m.seq], current := h.current ++ [m.seq] }
  | .sourceClosed => { h with alive := false, current := [] }
  | .detached => { h with attached := false, current := [] }
  | _ => h

/-- The helper sends a message. -/
def sent (h : HelperView) (m : LocalBoundaryMessage) : HelperView :=
  match m.kind with
  | .decoderAck => { h with acked := m.seq }
  | _ => h

/-- Whether the helper has a window to send input for. -/
def live (h : HelperView) : Bool := h.attached && h.alive

end HelperView

/-- The helper may send this message: input, acknowledgements and close requests, between an
announce and the detached that follows it, and it acknowledges only frames it was sent. -/
def HelperOk (h : HelperView) (m : LocalBoundaryMessage) : Prop :=
  h.attached = true ∧
    match m.kind with
    | .input kind => ∃ e, decodeLocalInputEvent kind m.payload = .ok e
    | .decoderAck => m.payload = [] ∧ m.seq ∈ h.delivered
    | .closeRequest => m.payload = [] ∧ m.seq = h.revision
    | _ => False

/-- A conforming endpoint and a conforming source: epochs increase, one display, messages only
while connected, announcements and revisions that are not stale, frames in sequence within the
window of the acknowledgements. -/
def EventOk (u : UnicodeDb) (jsonLoads : Bytes → Option Json) (c : Controller) :
    EndpointEvent → Prop
  | .connected epoch identity =>
    c.state.connected = false ∧ c.state.epoch < epoch ∧ epoch < 2 ^ 64 ∧
      identity.validate u = .ok () ∧
      (c.displayIdentity = none ∨ c.displayIdentity = some identity)
  | .detached epoch releases =>
    c.state.connected = true ∧ epoch = c.state.epoch ∧ releases = []
  | .received channel kind seq _ payload =>
    c.state.connected = true ∧
      match channel with
      | .control =>
        ((kind = "announce" ∨ kind = "reconcile") ∧
          ∃ a, decodeAnnouncement (jsonLoads payload) = .ok a ∧
            Controller.TakesAnnouncement c.state kind a) ∨
        (kind = "source_closed" ∧ ∃ revision,
          decodeSourceClosed (jsonLoads payload) = .ok revision ∧
            c.state.sourceRevision < revision ∧ revision < 2 ^ 64)
      | .media =>
        kind = "frame_bgrx" ∧ c.state.attached = true ∧ seq = c.state.lastMediaSeq + 1 ∧
          seq ≤ c.state.decoderAcked + maxLocalDecodePending ∧ seq < 2 ^ 64 ∧
          ∃ f a, RawFrame.decode payload = .ok f ∧ c.state.announcement = some a ∧
            f.matchesStream a = true
      | .input => False
  | .sent _ _ | .transportDropRequested _ => True
  | .error _ => False

/-! ## The session -/

/-- A viewer controller, its helper and the two directions of the socket between them. -/
structure ViewerSession where
  controller : Controller := {}
  raised : Option RemoteError := none
  helper : HelperView := {}
  toHelper : List LocalBoundaryMessage := []
  fromHelper : List LocalBoundaryMessage := []
  deriving DecidableEq, Repr

/-- What happens next. -/
inductive SessionAction where
  /-- the controller handles an event of its endpoint -/
  | event (e : EndpointEvent)
  /-- the helper reads one message -/
  | helperReads
  /-- the helper sends one message -/
  | helperSends (m : LocalBoundaryMessage)
  /-- the controller handles one message of the helper -/
  | controllerReads
  deriving DecidableEq, Repr

/-- Whether an event takes the window away from the helper. -/
def EndpointEvent.detaches : EndpointEvent → Bool
  | .detached _ _ => true
  | .received .control kind _ _ _ => kind == "source_closed"
  | _ => false

/-- Whether an event announces the source. -/
def EndpointEvent.announces : EndpointEvent → Bool
  | .received .control kind _ _ _ => kind == "announce" || kind == "reconcile"
  | _ => false

/-- Whether a message ends what the helper knew. -/
def LocalBoundaryMessage.ends (m : LocalBoundaryMessage) : Bool :=
  match m.kind with
  | .connected | .detached | .sourceClosed => true
  | _ => false

namespace ViewerSession

variable (u : UnicodeDb) (jsonLoads : Bytes → Option Json)

/-- What a handler comes to; an exception ends the controller. -/
def settle (s : ViewerSession) : Checked Reply → ViewerSession
  | .error e => { s with raised := some e }
  | .ok r => { s with controller := r.controller, toHelper := s.toHelper ++ r.toHelper }

/-- One action. -/
def step (s : ViewerSession) : SessionAction → ViewerSession
  | .event e =>
    if s.raised = none then s.settle (s.controller.handleEndpoint u jsonLoads e) else s
  | .helperReads =>
    match s.toHelper with
    | [] => s
    | m :: rest => { s with toHelper := rest, helper := s.helper.read m }
  | .helperSends m => { s with fromHelper := s.fromHelper ++ [m], helper := s.helper.sent m }
  | .controllerReads =>
    match s.fromHelper with
    | [] => s
    | m :: rest =>
      if s.raised = none then
        { s with fromHelper := rest }.settle (s.controller.handleViewerHelper m)
      else s

/-- The runs the helper and the endpoint may take part in. -/
def Conforms (s : ViewerSession) : SessionAction → Prop
  | .event e => EventOk u jsonLoads s.controller e
  | .helperSends m => HelperOk s.helper m
  | .helperReads | .controllerReads => True

/-- What must hold of every step: the controller has not raised. -/
def Survives (s : ViewerSession) (a : SessionAction) : Prop :=
  (s.step u jsonLoads a).raised = none

/-- The condition: no message of the helper crosses one that ends what it was sent for, and the
helper acknowledges each frame of its window once, in order. -/
def NoCrossing (s : ViewerSession) : SessionAction → Prop
  | .event e =>
    (e.detaches = true → s.fromHelper = []) ∧
      (e.announces = true → ∀ m ∈ s.fromHelper, m.kind ≠ .closeRequest)
  | .helperSends m =>
    s.helper.alive = true ∧ (∀ n ∈ s.toHelper, n.ends = false) ∧
      (m.kind = .closeRequest → ∀ n ∈ s.toHelper, n.kind ≠ .announce) ∧
      (m.kind = .decoderAck → m.seq ∈ s.helper.current ∧ s.helper.acked < m.seq)
  | .helperReads | .controllerReads => True

instance decidableNoCrossing (s : ViewerSession) : ∀ a, Decidable (s.NoCrossing a)
  | .event _ => inferInstanceAs (Decidable (_ ∧ _))
  | .helperSends _ => inferInstanceAs (Decidable (_ ∧ _ ∧ _ ∧ _))
  | .helperReads | .controllerReads => isTrue trivial

/-- What the helper will know once it has read everything. -/
def view (s : ViewerSession) : HelperView := s.toHelper.foldl HelperView.read s.helper

end ViewerSession

/-- The acknowledgements among the messages in flight. -/
def acksOf (messages : List LocalBoundaryMessage) : List ℕ :=
  messages.filterMap fun m => if m.kind = .decoderAck then some m.seq else none

/-- A message in flight that the controller accepts in this state, acknowledgements aside. -/
def Accepted (s : ViewerNestedState) (m : LocalBoundaryMessage) : Prop :=
  match m.kind with
  | .input kind => ∃ e, decodeLocalInputEvent kind m.payload = .ok e
  | .decoderAck => m.payload = []
  | .closeRequest => m.payload = [] ∧ m.seq = s.sourceRevision
  | _ => False

/-- What holds between two actions. -/
structure ViewerSession.Inv (s : ViewerSession) : Prop where
  up : s.raised = none
  epoch : s.controller.state.connected = true →
    0 < s.controller.state.epoch ∧ s.controller.state.epoch < 2 ^ 64
  ordered : s.controller.state.decoderPending.Pairwise (· < ·)
  window : ∀ p ∈ s.controller.state.decoderPending,
    s.controller.state.decoderAcked < p ∧ p ≤ s.controller.state.lastMediaSeq
  acked_le : s.controller.state.decoderAcked ≤ s.controller.state.lastMediaSeq
  live : s.view.live = true → s.controller.state.inputEnabled = true ∧
    s.view.revision = s.controller.state.sourceRevision
  revision : s.controller.state.inputEnabled = true → 0 < s.controller.state.sourceRevision
  pending : ∀ a ∈ s.view.current, s.view.acked < a → a ∈ s.controller.state.decoderPending
  acked : s.controller.state.decoderAcked ≤ s.view.acked
  enabled : s.fromHelper ≠ [] → s.controller.state.inputEnabled = true
  accepted : ∀ m ∈ s.fromHelper, Accepted s.controller.state m
  acks : (acksOf s.fromHelper).Pairwise (· < ·)
  acksPending : ∀ a ∈ acksOf s.fromHelper, a ∈ s.controller.state.decoderPending ∧ a ≤ s.view.acked

/-! ## The window -/

theorem length_le_of_pairwise {l : List ℕ} {lo hi : ℕ} (h : l.Pairwise (· < ·))
    (hbounds : ∀ x ∈ l, lo < x ∧ x ≤ hi) : l.length ≤ hi - lo := by
  have hnodup : l.Nodup := h.imp fun hlt => ne_of_lt hlt
  have hsub : l.toFinset ⊆ Finset.Ioc lo hi := by
    intro x hx
    rw [Finset.mem_Ioc]
    exact hbounds x (mem_toFinset.mp hx)
  have hcard := Finset.card_le_card hsub
  rwa [toFinset_card_of_nodup hnodup, Nat.card_Ioc] at hcard

/-! ## Views -/

namespace HelperView

variable {h : HelperView} {m : LocalBoundaryMessage} {queue : List LocalBoundaryMessage}

theorem read_of_not_ends (hm : m.ends = false) :
    (h.attached = true → (h.read m).attached = true) ∧ (h.alive = true → (h.read m).alive = true) ∧
      (∀ a ∈ h.current, a ∈ (h.read m).current) ∧ (h.read m).acked = h.acked ∧
      (m.kind ≠ .announce → (h.read m).revision = h.revision) := by
  obtain ⟨kind, seq, payload⟩ := m
  cases kind with
  | connected => cases hm
  | detached => cases hm
  | sourceClosed => cases hm
  | announce => exact ⟨fun _ => rfl, fun _ => rfl, fun a ha => ha, rfl, fun hne => absurd rfl hne⟩
  | frame =>
    refine ⟨id, id, fun a ha => ?_, rfl, fun _ => rfl⟩
    exact mem_append_left _ ha
  | _ => exact ⟨id, id, fun a ha => ha, rfl, fun _ => rfl⟩

theorem foldl_of_not_ends (hq : ∀ n ∈ queue, n.ends = false) :
    (h.attached = true → (queue.foldl read h).attached = true) ∧
      (h.alive = true → (queue.foldl read h).alive = true) ∧
      (∀ a ∈ h.current, a ∈ (queue.foldl read h).current) ∧ (queue.foldl read h).acked = h.acked ∧
      ((∀ n ∈ queue, n.kind ≠ .announce) → (queue.foldl read h).revision = h.revision) := by
  induction queue generalizing h with
  | nil => exact ⟨id, id, fun a ha => ha, rfl, fun _ => rfl⟩
  | cons m rest ih =>
    have hhead : (h.attached = true → (h.read m).attached = true) ∧ _ :=
      read_of_not_ends (hq m mem_cons_self)
    obtain ⟨hattached, halive, hcurrent, hacked, hrevision⟩ := hhead
    obtain ⟨hattached', halive', hcurrent', hacked', hrevision'⟩ :=
      ih (h := h.read m) fun n hn => hq n (mem_cons_of_mem _ hn)
    refine ⟨fun h => hattached' (hattached h), fun h => halive' (halive h),
      fun a ha => hcurrent' a (hcurrent a ha), hacked'.trans hacked, fun hnone => ?_⟩
    exact (hrevision' fun n hn => hnone n (mem_cons_of_mem _ hn)).trans
      (hrevision (hnone m mem_cons_self))

theorem foldl_sent (hq : ∀ n ∈ queue, n.ends = false) :
    queue.foldl read (h.sent m) = (queue.foldl read h).sent m := by
  obtain ⟨kind, seq, payload⟩ := m
  cases kind with
  | decoderAck =>
    induction queue generalizing h with
    | nil => rfl
    | cons n rest ih =>
      have hcomm : (h.sent ⟨.decoderAck, seq, payload⟩).read n =
          (h.read n).sent ⟨.decoderAck, seq, payload⟩ := by
        have hn := hq n mem_cons_self
        obtain ⟨kind, seq', payload'⟩ := n
        cases kind with
        | connected => cases hn
        | detached => cases hn
        | sourceClosed => cases hn
        | _ => rfl
      rw [foldl_cons, foldl_cons, hcomm]
      exact ih fun n' hn' => hq n' (mem_cons_of_mem _ hn')
  | _ => rfl

end HelperView

theorem acksOf_append (a b : List LocalBoundaryMessage) : acksOf (a ++ b) = acksOf a ++ acksOf b :=
  filterMap_append

/-! ## Events of the endpoint -/

namespace ViewerSession

variable {u : UnicodeDb} {jsonLoads : Bytes → Option Json} {s : ViewerSession}

theorem view_settle (s : ViewerSession) (r : Reply) :
    (s.settle (.ok r)).view = r.toHelper.foldl HelperView.read s.view :=
  foldl_append

theorem step_event (hup : s.raised = none) {e : EndpointEvent} {r : Reply}
    (hr : s.controller.handleEndpoint u jsonLoads e = .ok r) :
    s.step u jsonLoads (.event e) = s.settle (.ok r) := by
  simp only [step, hup, if_true, hr]

theorem Inv.nothing_in_flight (h : s.Inv) (hoff : s.controller.state.inputEnabled = false) :
    s.fromHelper = [] := by
  by_contra hne
  rw [h.enabled hne] at hoff
  cases hoff

theorem inputEnabled_of_not_connected {s : ViewerNestedState} (h : s.connected = false) :
    s.inputEnabled = false := by
  simp [ViewerNestedState.inputEnabled, h]

section

variable (h : s.Inv)
include h

theorem Inv.connected {epoch : ℕ} {identity : RemoteDisplayIdentity}
    (hoff : s.controller.state.connected = false) (hnew : s.controller.state.epoch < epoch)
    (hbound : epoch < 2 ^ 64) (hvalid : identity.validate u = .ok ())
    (hsame : s.controller.displayIdentity = none ∨ s.controller.displayIdentity = some identity) :
    (s.step u jsonLoads (.event (.connected epoch identity))).Inv := by
  have hdisabled := inputEnabled_of_not_connected hoff
  have hempty := h.nothing_in_flight hdisabled
  have hdead : s.view.live = false := by
    by_contra hlive
    rw [(h.live (by simpa using hlive)).1] at hdisabled
    cases hdisabled
  rw [step_event h.up (Controller.handleEndpoint_connected hnew hbound hvalid hsame)]
  have hview := view_settle s ⟨⟨s.controller.state.online epoch, some identity⟩,
    [{ kind := .connected, seq := epoch },
      { kind := .identity, seq := identity.generation, payload := identity.encode }], []⟩
  constructor
  case up => exact h.up
  case epoch => exact fun _ => ⟨by show 0 < epoch; omega, hbound⟩
  case ordered => exact List.Pairwise.nil
  case window => exact fun _ hp => absurd hp not_mem_nil
  case acked_le => exact Nat.zero_le _
  case live =>
    rw [hview]
    intro hlive
    have hlive : s.view.live = true := hlive
    rw [hdead] at hlive
    cases hlive
  case revision =>
    intro henabled
    exact absurd henabled (by simp [settle, ViewerNestedState.inputEnabled, ViewerNestedState.online])
  case pending =>
    rw [hview]
    exact fun _ ha => absurd ha not_mem_nil
  case acked => exact Nat.zero_le _
  case enabled => exact fun hne => absurd hempty hne
  case accepted =>
    show ∀ m ∈ s.fromHelper, _
    rw [hempty]
    exact fun _ hm => absurd hm not_mem_nil
  case acks =>
    show (acksOf s.fromHelper).Pairwise _
    rw [hempty]
    exact List.Pairwise.nil
  case acksPending =>
    show ∀ a ∈ acksOf s.fromHelper, _
    rw [hempty]
    exact fun _ ha => absurd ha not_mem_nil

theorem Inv.of_lost (hempty : s.fromHelper = []) {s' : ViewerSession}
    (hfrom : s'.fromHelper = s.fromHelper) (hup : s'.raised = none)
    (hepoch : s'.controller.state.connected = true → s.controller.state.connected = true ∧ s'.controller.state.epoch = s.controller.state.epoch)
    (hpending : s'.controller.state.decoderPending = [])
    (hacked : s'.controller.state.decoderAcked = s.controller.state.decoderAcked)
    (hlast : s'.controller.state.lastMediaSeq = s.controller.state.lastMediaSeq)
    (hoff : s'.controller.state.inputEnabled = false) (hlive : s'.view.live = false)
    (hcurrent : s'.view.current = []) (hviewed : s'.view.acked = s.view.acked) : s'.Inv := by
  have hempty' := hfrom.trans hempty
  constructor
  case up => exact hup
  case epoch =>
    intro hconnected
    obtain ⟨hbefore, heq⟩ := hepoch hconnected
    rw [heq]
    exact h.epoch hbefore
  case ordered =>
    rw [hpending]
    exact List.Pairwise.nil
  case window =>
    rw [hpending]
    exact fun _ hp => absurd hp not_mem_nil
  case acked_le =>
    rw [hacked, hlast]
    exact h.acked_le
  case live => exact fun hl => absurd hl (by rw [hlive]; simp)
  case revision => exact fun he => absurd he (by rw [hoff]; simp)
  case pending =>
    rw [hcurrent]
    exact fun _ ha => absurd ha not_mem_nil
  case acked =>
    rw [hacked, hviewed]
    exact h.acked
  case enabled => exact fun hne => absurd hempty' hne
  case accepted =>
    rw [hempty']
    exact fun _ hm => absurd hm not_mem_nil
  case acks =>
    rw [hempty']
    exact List.Pairwise.nil
  case acksPending =>
    rw [hempty']
    exact fun _ ha => absurd ha not_mem_nil

theorem Inv.detached (hon : s.controller.state.connected = true) (hempty : s.fromHelper = []) :
    (s.step u jsonLoads (.event (.detached s.controller.state.epoch []))).Inv := by
  obtain ⟨hpos, hbound⟩ := h.epoch hon
  rw [step_event h.up (Controller.handleEndpoint_detached hon hpos hbound)]
  have hview := view_settle s ⟨{ s.controller with state := s.controller.state.offline },
    [{ kind := .detached, seq := s.controller.state.epoch }], []⟩
  refine h.of_lost hempty rfl h.up (fun hc => by cases hc) rfl rfl rfl rfl ?_ ?_ ?_
  · rw [hview]
    rfl
  · rw [hview]
    rfl
  · rw [hview]
    rfl

theorem Inv.sourceClosed {seq ack revision : ℕ} {payload : Bytes}
    (hon : s.controller.state.connected = true)
    (hdecode : decodeSourceClosed (jsonLoads payload) = .ok revision)
    (hnewer : s.controller.state.sourceRevision < revision) (hbound : revision < 2 ^ 64)
    (hempty : s.fromHelper = []) :
    (s.step u jsonLoads (.event (.received .control "source_closed" seq ack payload))).Inv := by
  rw [step_event h.up (Controller.handleEndpoint_sourceClosed hon hdecode hnewer hbound)]
  have hview := view_settle s
    ⟨{ s.controller with state := s.controller.state.sourceGone revision },
      [{ kind := .sourceClosed, seq := revision }], []⟩
  refine h.of_lost hempty rfl h.up (fun hc => ⟨hc, rfl⟩) rfl rfl rfl ?_ ?_ ?_ ?_
  · show (_ && _ && false) = false
    exact Bool.and_false _
  · rw [hview]
    show (_ && false) = false
    exact Bool.and_false _
  · rw [hview]
    rfl
  · rw [hview]
    rfl

theorem Inv.announced {kind : String} {seq ack : ℕ} {payload : Bytes} {a : StreamAnnouncement}
    (hkind : kind = "announce" ∨ kind = "reconcile")
    (hdecode : decodeAnnouncement (jsonLoads payload) = .ok a)
    (htakes : Controller.TakesAnnouncement s.controller.state kind a)
    (hclose : ∀ m ∈ s.fromHelper, m.kind ≠ .closeRequest) :
    (s.step u jsonLoads (.event (.received .control kind seq ack payload))).Inv := by
  obtain ⟨hpos, -⟩ := decodeAnnouncement_bounds hdecode
  rw [step_event h.up (Controller.handleEndpoint_announced hkind hdecode htakes)]
  have hview := view_settle s ⟨{ s.controller with state := s.controller.state.announced a },
    [{ kind := .announce, seq := a.sourceRevision, payload := encodeLocalAnnouncement a }], []⟩
  have henabled : (s.controller.state.announced a).inputEnabled = true := by
    simp [ViewerNestedState.inputEnabled, ViewerNestedState.announced, htakes.connected]
  constructor
  case up => exact h.up
  case epoch => exact h.epoch
  case ordered => exact h.ordered
  case window => exact h.window
  case acked_le => exact h.acked_le
  case live =>
    rw [hview]
    exact fun _ => ⟨henabled, rfl⟩
  case revision => exact fun _ => hpos
  case pending =>
    rw [hview]
    exact h.pending
  case acked =>
    rw [hview]
    exact h.acked
  case enabled => exact fun _ => henabled
  case accepted =>
    intro m hm
    have hold := h.accepted m hm
    have hne := hclose m hm
    obtain ⟨kind, seq, payload⟩ := m
    cases kind with
    | closeRequest => exact absurd rfl hne
    | _ => exact hold
  case acks => exact h.acks
  case acksPending =>
    rw [hview]
    exact h.acksPending

theorem Inv.frame {seq ack : ℕ} {payload : Bytes} {f : RawFrame}
    (hframe : Controller.TakesFrame s.controller.state seq payload f) (hbound : seq < 2 ^ 64) :
    (s.step u jsonLoads (.event (.received .media "frame_bgrx" seq ack payload))).Inv := by
  have hnext := hframe.next
  rw [step_event h.up (Controller.handleEndpoint_frame hframe hbound)]
  have hview := view_settle s ⟨{ s.controller with state := s.controller.state.delivered seq },
    [{ kind := .frame, seq, payload := f.encode }], []⟩
  -- the new frame is above all that are pending
  have hwindow : ∀ p ∈ s.controller.state.decoderPending ++ [seq],
      s.controller.state.decoderAcked < p ∧ p ≤ seq := by
    intro p hp
    rcases mem_append.mp hp with hp | hp
    · obtain ⟨hlo, hhi⟩ := h.window p hp
      exact ⟨hlo, by omega⟩
    · obtain rfl := mem_singleton.mp hp
      refine ⟨?_, le_refl _⟩
      -- an acknowledged frame has been delivered
      have hle := h.acked_le
      omega
  constructor
  case up => exact h.up
  case epoch => exact h.epoch
  case ordered =>
    show (s.controller.state.decoderPending ++ [seq]).Pairwise (· < ·)
    rw [pairwise_append]
    refine ⟨h.ordered, pairwise_singleton _ _, fun p hp q hq => ?_⟩
    obtain rfl := mem_singleton.mp hq
    have := (h.window p hp).2
    omega
  case window => exact hwindow
  case acked_le =>
    show s.controller.state.decoderAcked ≤ seq
    have hle := h.acked_le
    omega
  case live =>
    rw [hview]
    exact h.live
  case revision => exact h.revision
  case pending =>
    rw [hview]
    intro a ha hlt
    show a ∈ s.controller.state.decoderPending ++ [seq]
    have ha : a ∈ s.view.current ++ [seq] := ha
    rcases mem_append.mp ha with ha | ha
    · exact mem_append_left _ (h.pending a ha hlt)
    · exact mem_append_right _ ha
  case acked =>
    rw [hview]
    exact h.acked
  case enabled => exact h.enabled
  case accepted => exact h.accepted
  case acks => exact h.acks
  case acksPending =>
    rw [hview]
    intro a ha
    obtain ⟨hpending, hle⟩ := h.acksPending a ha
    exact ⟨mem_append_left _ hpending, hle⟩

/-- **An event** of a conforming endpoint that no message of the helper crosses. -/
theorem Inv.event {e : EndpointEvent} (hok : EventOk u jsonLoads s.controller e)
    (hcross : s.NoCrossing (.event e)) : (s.step u jsonLoads (.event e)).Inv := by
  have hsame : s.controller.handleEndpoint u jsonLoads e = .ok { controller := s.controller } →
      (s.step u jsonLoads (.event e)).Inv := by
    intro hr
    rw [step_event h.up hr]
    have heq : s.settle (.ok { controller := s.controller }) = s := by
      simp [settle]
    rw [heq]
    exact h
  cases e with
  | connected epoch identity =>
    obtain ⟨hoff, hnew, hbound, hvalid, hsame⟩ := hok
    exact h.connected hoff hnew hbound hvalid hsame
  | detached epoch releases =>
    obtain ⟨hon, rfl, rfl⟩ := hok
    exact h.detached hon (hcross.1 rfl)
  | sent channel seq => exact hsame rfl
  | transportDropRequested epoch => exact hsame rfl
  | error message => exact absurd hok id
  | received channel kind seq ack payload =>
    obtain ⟨hon, hok⟩ := hok
    cases channel with
    | control =>
      rcases hok with ⟨hkind, a, hdecode, htakes⟩ | ⟨rfl, revision, hdecode, hnewer, hbound⟩
      · refine h.announced hkind hdecode htakes (hcross.2 ?_)
        rcases hkind with rfl | rfl <;> rfl
      · exact h.sourceClosed hon hdecode hnewer hbound (hcross.1 rfl)
    | media =>
      obtain ⟨rfl, hattached, hnext, hwindow, hbound, f, a, hdecode, ha, hmatches⟩ := hok
      have hroom : s.controller.state.decoderPending.length < maxLocalDecodePending := by
        have hlen := length_le_of_pairwise h.ordered h.window
        unfold maxLocalDecodePending at hwindow ⊢
        omega
      exact h.frame ⟨hon, hattached, hnext, hroom, hdecode, a, ha, hmatches⟩ hbound
    | input => exact absurd hok id

/-! ## Messages of the helper -/

theorem Inv.helperReads : (s.step u jsonLoads .helperReads).Inv := by
  cases hq : s.toHelper with
  | nil =>
    have hstep : s.step u jsonLoads .helperReads = s := by simp only [step, hq]
    rw [hstep]
    exact h
  | cons m rest =>
    have hstep : s.step u jsonLoads .helperReads =
        { s with toHelper := rest, helper := s.helper.read m } := by simp only [step, hq]
    have hview : ({ s with toHelper := rest, helper := s.helper.read m } : ViewerSession).view =
        s.view := by
      simp only [view, hq, foldl_cons]
    rw [hstep]
    exact ⟨h.up, h.epoch, h.ordered, h.window, h.acked_le, hview ▸ h.live, h.revision,
      hview ▸ h.pending, hview ▸ h.acked, h.enabled, h.accepted, h.acks, hview ▸ h.acksPending⟩

/-- **The helper sends** while nothing that ends its window is unread. -/
theorem Inv.helperSends {m : LocalBoundaryMessage} (hok : HelperOk s.helper m)
    (hcross : s.NoCrossing (.helperSends m)) :
    (s.step u jsonLoads (.helperSends m)).Inv := by
  obtain ⟨hattached, hmessage⟩ := hok
  obtain ⟨halive, hquiet, hclose, hack⟩ := hcross
  obtain ⟨hattached', halive', hcurrent, hacked, hrevision⟩ :=
    HelperView.foldl_of_not_ends (h := s.helper) hquiet
  have hlive : s.view.live = true := by
    show (s.view.attached && s.view.alive) = true
    rw [Bool.and_eq_true]
    exact ⟨hattached' hattached, halive' halive⟩
  obtain ⟨henabled, hknown⟩ := h.live hlive
  have hview : (s.step u jsonLoads (.helperSends m)).view = s.view.sent m :=
    HelperView.foldl_sent hquiet
  have hfrom : (s.step u jsonLoads (.helperSends m)).fromHelper = s.fromHelper ++ [m] := rfl
  have haccepted : Accepted s.controller.state m := by
    obtain ⟨kind, seq, payload⟩ := m
    cases kind with
    | closeRequest =>
      obtain ⟨hpayload, hseq⟩ := hmessage
      refine ⟨hpayload, ?_⟩
      rw [hseq, ← hrevision (hclose rfl)]
      exact hknown
    | decoderAck => exact hmessage.1
    | input kind => exact hmessage
    | _ => exact absurd hmessage id
  -- what an acknowledgement adds, and what it leaves for later ones
  have hacks : ∀ a ∈ acksOf [m], a ∈ s.controller.state.decoderPending ∧ s.view.acked < a ∧
      (s.view.sent m).acked = a := by
    intro a ha
    obtain ⟨kind, seq, payload⟩ := m
    cases kind with
    | decoderAck =>
      obtain rfl := mem_singleton.mp ha
      obtain ⟨hmem, hlt⟩ := hack rfl
      have hlt' : s.view.acked < a := by
        rw [show s.view.acked = s.helper.acked from hacked]
        exact hlt
      exact ⟨h.pending a (hcurrent a hmem) hlt', hlt', rfl⟩
    | _ => exact absurd ha not_mem_nil
  have hle : s.view.acked ≤ (s.view.sent m).acked := by
    obtain ⟨kind, seq, payload⟩ := m
    cases kind with
    | decoderAck => exact le_of_lt (hacks seq (mem_singleton.mpr rfl)).2.1
    | _ => exact le_refl _
  have hsame : (s.view.sent m).live = s.view.live ∧ (s.view.sent m).revision = s.view.revision ∧
      (s.view.sent m).current = s.view.current := by
    obtain ⟨kind, seq, payload⟩ := m
    cases kind <;> exact ⟨rfl, rfl, rfl⟩
  constructor
  case up => exact h.up
  case epoch => exact h.epoch
  case ordered => exact h.ordered
  case window => exact h.window
  case acked_le => exact h.acked_le
  case live =>
    rw [hview, hsame.1, hsame.2.1]
    exact h.live
  case revision => exact h.revision
  case pending =>
    rw [hview, hsame.2.2]
    exact fun a ha hlt => h.pending a ha (lt_of_le_of_lt hle hlt)
  case acked =>
    rw [hview]
    exact le_trans h.acked hle
  case enabled => exact fun _ => henabled
  case accepted =>
    rw [hfrom]
    intro n hn
    rcases mem_append.mp hn with hn | hn
    · exact h.accepted n hn
    · obtain rfl := mem_singleton.mp hn
      exact haccepted
  case acks =>
    rw [hfrom, acksOf_append, pairwise_append]
    refine ⟨h.acks, ?_, fun a ha b hb => ?_⟩
    · unfold acksOf
      rw [filterMap_cons]
      split <;> simp
    · exact lt_of_le_of_lt (h.acksPending a ha).2 (hacks b hb).2.1
  case acksPending =>
    rw [hfrom, hview, acksOf_append]
    intro a ha
    rcases mem_append.mp ha with ha | ha
    · obtain ⟨hpending, hle'⟩ := h.acksPending a ha
      exact ⟨hpending, le_trans hle' hle⟩
    · obtain ⟨hpending, -, heq⟩ := hacks a ha
      exact ⟨hpending, le_of_eq heq.symm⟩

theorem Inv.of_read {m : LocalBoundaryMessage} {rest : List LocalBoundaryMessage}
    (hq : s.fromHelper = m :: rest) (hkind : m.kind ≠ .decoderAck)
    {toEndpoint : List LocalRequest}
    (hr : s.controller.handleViewerHelper m = .ok { controller := s.controller, toEndpoint }) :
    (s.step u jsonLoads .controllerReads).Inv := by
  have hstep : s.step u jsonLoads .controllerReads = { s with fromHelper := rest } := by
    simp [step, hq, h.up, hr, settle]
  have hacks : acksOf s.fromHelper = acksOf rest := by
    rw [hq, acksOf, filterMap_cons, if_neg hkind]
    rfl
  have hrest : ∀ n ∈ rest, n ∈ s.fromHelper := by
    intro n hn
    rw [hq]
    exact mem_cons_of_mem _ hn
  have hne : s.fromHelper ≠ [] := by
    rw [hq]
    exact cons_ne_nil _ _
  rw [hstep]
  exact ⟨h.up, h.epoch, h.ordered, h.window, h.acked_le, h.live, h.revision, h.pending, h.acked,
    fun _ => h.enabled hne, fun n hn => h.accepted n (hrest n hn), hacks ▸ h.acks,
    hacks ▸ h.acksPending⟩

theorem Inv.readAck {seq : ℕ} {rest : List LocalBoundaryMessage}
    (hq : s.fromHelper = { kind := .decoderAck, seq } :: rest) :
    (s.step u jsonLoads .controllerReads).Inv := by
  have hacks : acksOf s.fromHelper = seq :: acksOf rest := by
    rw [hq]
    rfl
  have hordered := h.acks
  have hpending := h.acksPending
  rw [hacks] at hordered hpending
  obtain ⟨hmem, hseq⟩ := hpending seq mem_cons_self
  obtain ⟨hlo, hhi⟩ := h.window seq hmem
  have hr := Controller.handleViewerHelper_decoderAck (c := s.controller) hlo hhi hmem
  have hstep : s.step u jsonLoads .controllerReads =
      { s with
        fromHelper := rest
        controller := { s.controller with state := s.controller.state.acknowledged seq } } := by
    simp [step, hq, h.up, hr, settle]
  have hfilter : ∀ p, p ∈ (s.controller.state.acknowledged seq).decoderPending ↔
      p ∈ s.controller.state.decoderPending ∧ seq < p := by
    intro p
    show p ∈ s.controller.state.decoderPending.filter (seq < ·) ↔ _
    rw [mem_filter, decide_eq_true_iff]
  rw [hstep]
  constructor
  case up => exact h.up
  case epoch => exact h.epoch
  case ordered => exact h.ordered.filter _
  case window =>
    intro p hp
    obtain ⟨hp, hlt⟩ := (hfilter p).mp hp
    exact ⟨hlt, (h.window p hp).2⟩
  case acked_le => exact hhi
  case live => exact h.live
  case revision => exact h.revision
  case pending =>
    intro a ha hlt
    exact (hfilter a).mpr ⟨h.pending a ha hlt, lt_of_le_of_lt hseq hlt⟩
  case acked => exact hseq
  case enabled =>
    intro _
    refine h.enabled ?_
    rw [hq]
    exact cons_ne_nil _ _
  case accepted =>
    intro n hn
    refine h.accepted n ?_
    rw [hq]
    exact mem_cons_of_mem _ hn
  case acks => exact (pairwise_cons.mp hordered).2
  case acksPending =>
    intro a ha
    obtain ⟨hmem, hle⟩ := hpending a (mem_cons_of_mem _ ha)
    exact ⟨(hfilter a).mpr ⟨hmem, (pairwise_cons.mp hordered).1 a ha⟩, hle⟩

/-- **The controller takes every message in flight.** -/
theorem Inv.controllerReads : (s.step u jsonLoads .controllerReads).Inv := by
  cases hq : s.fromHelper with
  | nil =>
    have hstep : s.step u jsonLoads .controllerReads = s := by simp only [step, hq]
    rw [hstep]
    exact h
  | cons m rest =>
    have hmem : m ∈ s.fromHelper := by
      rw [hq]
      exact mem_cons_self
    have haccepted := h.accepted m hmem
    have henabled := h.enabled (ne_nil_of_mem hmem)
    obtain ⟨kind, seq, payload⟩ := m
    cases kind with
    | decoderAck =>
      obtain rfl : payload = [] := haccepted
      exact h.readAck hq
    | closeRequest =>
      obtain ⟨hpayload, hseq⟩ := haccepted
      obtain rfl : payload = [] := hpayload
      have hpos : 0 < seq := by
        rw [show seq = s.controller.state.sourceRevision from hseq]
        exact h.revision henabled
      obtain ⟨request, hr⟩ :=
        Controller.handleViewerHelper_closeRequest (c := s.controller) henabled hpos hseq
      exact h.of_read hq (fun hne => by cases hne) hr
    | input kind =>
      obtain ⟨e, hdecode⟩ := haccepted
      obtain ⟨request, hr⟩ :=
        Controller.handleViewerHelper_input (c := s.controller) henabled hdecode
      exact h.of_read hq (fun hne => by cases hne) hr
    | _ => exact absurd haccepted id

/-! ## Runs -/

theorem Inv.step (a : SessionAction) (hok : s.Conforms u jsonLoads a) (hcross : s.NoCrossing a)
    : (s.step u jsonLoads a).Inv := by
  cases a with
  | event e => exact h.event hok hcross
  | helperReads => exact h.helperReads
  | helperSends m => exact h.helperSends hok hcross
  | controllerReads => exact h.controllerReads

end

theorem inv_start : ({} : ViewerSession).Inv := by
  constructor
  all_goals simp [view, acksOf, HelperView.live, ViewerNestedState.inputEnabled]

/-- **Link loss is not the death of the viewer** as long as nothing of the helper crosses it: in
every run of a conforming endpoint, source and helper in which no message of the helper is in
flight across a loss, the controller never raises. -/
theorem link_loss_survived (u : UnicodeDb) (jsonLoads : Bytes → Option Json)
    (actions : List SessionAction)
    (hok : Meets (ViewerSession.step u jsonLoads) (Conforms u jsonLoads) {} actions)
    (hcross : Meets (ViewerSession.step u jsonLoads) NoCrossing {} actions) :
    Meets (ViewerSession.step u jsonLoads) (Survives u jsonLoads) {} actions := by
  have hinit := inv_start
  generalize ({} : ViewerSession) = s at hok hcross hinit
  induction actions generalizing s with
  | nil => trivial
  | cons a rest ih =>
    have hinv := hinit.step a hok.1 hcross.1
    exact ⟨hinv.up, ih _ hok.2 hcross.2 hinv⟩

/-! ## A key press that crosses a loss -/

/-- The display of a paired session. -/
def deskDisplay : RemoteDisplayIdentity := ⟨"laptop", "home", "stream-0123456789", 1⟩

/-- A stream of one pixel. -/
def pixelStream : StreamAnnouncement := ⟨1, 1, 1, 4, "editor", ""⟩

/-- Its announcement, as the source sends it. -/
def pixelPayload : Bytes :=
  asciiBytes (dumps compactSeps (.obj
    [("schema", .str streamSchema), ("source_revision", .int 1), ("width", .int 1),
     ("height", .int 1), ("stride", .int 4), ("pixel_format", .str pixelFormat),
     ("app_id", .str "editor"), ("title", .str "")]))

/-- The viewer connects and attaches, and its helper reads everything and reports a key. -/
def keyPressed : List SessionAction :=
  [.event (.connected 1 deskDisplay), .event (.received .control "announce" 1 0 pixelPayload),
    .helperReads, .helperReads, .helperReads,
    .helperSends { kind := .input .key, payload := pack 4 30 ++ [1, 0, 0, 0] }]

theorem keyPressed_conforms :
    Meets (ViewerSession.step .ascii asciiLoads) (Conforms .ascii asciiLoads) {} keyPressed := by
  refine ⟨⟨rfl, by decide, by decide, by decide +kernel, Or.inl rfl⟩, ⟨by decide +kernel, Or.inl
    ⟨Or.inl rfl, pixelStream, by decide +kernel, by decide +kernel, fun _ => by decide +kernel,
      by decide +kernel, fun _ => Or.inl (by decide +kernel)⟩⟩, trivial, trivial, trivial,
    ⟨by decide +kernel, .key 30 true, by decide +kernel⟩, trivial⟩

/-- The link is lost while the key press is in flight. -/
def keyLost : List SessionAction := keyPressed ++ [SessionAction.event (.detached 1 []), SessionAction.controllerReads]

/-- **The key press ends the viewer.** -/
theorem keyLost_raises :
    Meets (ViewerSession.step .ascii asciiLoads) (Conforms .ascii asciiLoads) {} keyLost ∧
      ¬ Meets (ViewerSession.step .ascii asciiLoads) (Survives .ascii asciiLoads) {} keyLost := by
  constructor
  · refine Meets.append.mpr ⟨keyPressed_conforms, ⟨by decide +kernel, by decide +kernel, rfl⟩,
      trivial, trivial⟩
  · intro h
    obtain ⟨-, -, hsurvives, -⟩ := Meets.append.mp h
    revert hsurvives
    unfold Survives
    decide +kernel

/-- The controller reads the key press before the link is lost. -/
theorem link_loss_survived_keyRead :
    Meets (ViewerSession.step .ascii asciiLoads) (Survives .ascii asciiLoads) {}
      (keyPressed ++ [SessionAction.controllerReads, SessionAction.event (.detached 1 [])]) := by
  refine link_loss_survived .ascii asciiLoads _ ?_ ?_
  · exact Meets.append.mpr ⟨keyPressed_conforms, trivial,
      ⟨by decide +kernel, by decide +kernel, rfl⟩, trivial⟩
  · decide +kernel

end ViewerSession

end RemoteNested
