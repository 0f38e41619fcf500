/-
# Input across a reconnect

An input request does not say for which connection it was made: the endpoint seals
whatever it reads under the epoch it has reached by then.  The two sides agree as long as
no input request is unread when the transport is lost and the controller makes none while
a `detached` event is waiting for it; `fresh_input` proves that this is enough, and
`input_crosses_reconnect` is a run in which a request is left in the socket.

`Tracks` says how far the controller is behind its endpoint: reading the waiting events
one by one brings its epoch and its connected flag to those of the endpoint.
-/
import QDistro.RemoteEndpoint
import QDistro.ViewerReplies

open JsonText TransitionSystem

namespace RemoteNested

open ViewerNestedState

open Checked

theorem Codec.openEnvelope_binding {u : UnicodeDb} {c : Codec} {now : ℤ} {d : Direction}
    {e m : Envelope} (h : c.openEnvelope u now d (some e) = .ok m) : e.binding = c.binding := by
  unfold Codec.openEnvelope at h
  obtain ⟨-, -, h⟩ := bind_eq_ok.mp h
  obtain ⟨_, hb, -⟩ := bind_eq_ok.mp h
  have hb := guardError_eq_ok.mp hb
  simpa using hb

/-! ## The endpoint -/

namespace Endpoint

variable {u : UnicodeDb} {ep ep' : Endpoint}

theorem resetWireEpoch_spec (h : ep.resetWireEpoch u = .ok ep') :
    ep'.binding = ep.binding ∧ ep'.phase = ep.phase := by
  unfold resetWireEpoch at h
  obtain ⟨-, -, h⟩ := bind_eq_ok.mp h
  cases h
  exact ⟨rfl, rfl⟩

theorem advanceEpoch_epoch (h : ep.advanceEpoch u = .ok ep') :
    ep'.binding.epoch = ep.binding.epoch + 1 := by
  unfold advanceEpoch at h
  obtain ⟨life, -, h⟩ := bind_eq_ok.mp h
  rw [(resetWireEpoch_spec h).1]

theorem make_phase {runtime : EndpointRuntime} (h : make u runtime = .ok ep) :
    ep.phase = .connecting := by
  unfold make at h
  obtain ⟨life, -, h⟩ := bind_eq_ok.mp h
  exact (resetWireEpoch_spec h).2

theorem sealRequest_spec {now : ℤ} {r : EndpointRequest} {e : Envelope}
    (h : ep.sealRequest now r = .ok e) : e.binding = ep.binding ∧ e.channel = r.channel := by
  simp only [sealRequest, bind_eq_ok] at h
  obtain ⟨_, -, _, -, _, -, _, -, h⟩ := h
  simp only [Codec.sealMessage, bind_eq_ok] at h
  obtain ⟨_, -, _, -, _, -, h⟩ := h
  cases h
  exact ⟨rfl, rfl⟩

theorem handleRemote_spec {now : ℤ} {frame : Option Envelope} {event : EndpointEvent}
    (h : ep.handleRemote u now frame = .ok (ep', event)) :
    ep'.binding = ep.binding ∧ ep'.phase = ep.phase ∧
      ∃ c k n a p, event = .received c k n a p := by
  unfold handleRemote at h
  obtain ⟨⟨m, lastSeq⟩, -, h⟩ := bind_eq_ok.mp h
  cases h
  exact ⟨rfl, rfl, _, _, _, _, _, rfl⟩

end Endpoint

/-! ## The controller -/

/-- The events that say nothing about the connection. -/
def EndpointEvent.isNeutral : EndpointEvent → Bool
  | .connected _ _ | .detached _ _ => false
  | _ => true

/-- Whether an event reports a lost connection. -/
def EndpointEvent.isDetached : EndpointEvent → Bool
  | .detached _ _ => true
  | _ => false

namespace Controller

variable {u : UnicodeDb} {jsonLoads : Bytes → Option Json} {c : Controller} {r : Reply}

/-- What the controller knows of the connection. -/
def view (c : Controller) : ℕ × Bool := (c.state.epoch, c.state.connected)

theorem receiveControl_view {s s' : ViewerNestedState} {kind : String} {payload : Option Json}
    {a : Option StreamAnnouncement} (h : s.receiveControl kind payload = .ok (s', a)) :
    s'.epoch = s.epoch ∧ s'.connected = s.connected := by
  unfold receiveControl at h
  obtain ⟨-, -, h⟩ := bind_eq_ok.mp h
  split at h
  · obtain ⟨⟨s'', a'⟩, hr, h⟩ := bind_eq_ok.mp h
    cases h
    simp only [receiveAnnouncement, bind_eq_ok] at hr
    obtain ⟨_, -, _, -, _, -, _, -, hr⟩ := hr
    cases hr
    exact ⟨rfl, rfl⟩
  · split at h
    · obtain ⟨s'', hr, h⟩ := bind_eq_ok.mp h
      cases h
      simp only [receiveSourceClosed, bind_eq_ok] at hr
      obtain ⟨_, -, _, -, hr⟩ := hr
      cases hr
      exact ⟨rfl, rfl⟩
    · cases h

theorem receiveMedia_view {s s' : ViewerNestedState} {seq : ℕ} {payload : Bytes} {f : RawFrame}
    (h : s.receiveMedia seq payload = .ok (s', f)) :
    s'.epoch = s.epoch ∧ s'.connected = s.connected := by
  unfold receiveMedia at h
  split at h
  · cases h
  · simp only [bind_eq_ok] at h
    obtain ⟨_, -, _, -, _, -, _, -, _, -, _, -, h⟩ := h
    cases h
    exact ⟨rfl, rfl⟩

theorem handleViewerReceived_spec {channel : Channel} {kind : String} {seq : ℕ}
    {payload : Bytes} (h : c.handleViewerReceived jsonLoads channel kind seq payload = .ok r) :
    r.controller.view = c.view ∧ r.toEndpoint = [] := by
  unfold handleViewerReceived at h
  split at h
  · obtain ⟨⟨s', a⟩, hr, h⟩ := bind_eq_ok.mp h
    obtain ⟨he, hc⟩ := receiveControl_view hr
    cases a with
    | none =>
      cases Reply.of_checked h
      exact ⟨Prod.ext he hc, rfl⟩
    | some a =>
      cases Reply.of_checked h
      exact ⟨Prod.ext he hc, rfl⟩
  · split at h
    · obtain ⟨⟨s', f⟩, hr, h⟩ := bind_eq_ok.mp h
      obtain ⟨he, hc⟩ := receiveMedia_view hr
      cases Reply.of_checked h
      exact ⟨Prod.ext he hc, rfl⟩
    · cases h

theorem positiveInteger_ofNat {label : String} {n k : ℕ}
    (h : positiveInteger label (.int n) = .ok k) : k = n := by
  cases n with
  | zero => cases h
  | succ n =>
    have h' : positiveInteger label (.int ((n + 1 : ℕ) : ℤ)) = .ok (n + 1) := rfl
    rw [h'] at h
    cases h
    rfl

theorem handleEndpoint_spec {event : EndpointEvent}
    (h : c.handleEndpoint u jsonLoads event = .ok r) :
    r.toEndpoint = [] ∧
      ((∃ e i, event = .connected e i ∧ r.controller.view = (e, true)) ∨
        (∃ e l, event = .detached e l ∧ r.controller.view = (c.state.epoch, false)) ∨
        event.isNeutral = true ∧ r.controller.view = c.view) := by
  cases event with
  | connected e i =>
    simp only [handleEndpoint, transportConnected, bind_eq_ok] at h
    obtain ⟨_, -, _, -, _, -, s', ⟨e', he, _, -, hs⟩, h⟩ := h
    cases hs
    cases Reply.of_checked h
    cases positiveInteger_ofNat he
    exact ⟨rfl, .inl ⟨e, i, rfl, rfl⟩⟩
  | detached e l =>
    simp only [handleEndpoint, transportDetached, bind_eq_ok] at h
    obtain ⟨_, -, _, -, s', ⟨_, -, hs⟩, h⟩ := h
    cases hs
    cases Reply.of_checked h
    exact ⟨rfl, .inr (.inl ⟨e, l, rfl, rfl⟩)⟩
  | sent channel seq =>
    cases h
    exact ⟨rfl, .inr (.inr ⟨rfl, rfl⟩)⟩
  | transportDropRequested e =>
    cases h
    exact ⟨rfl, .inr (.inr ⟨rfl, rfl⟩)⟩
  | error message => cases h
  | received channel kind seq ack payload =>
    obtain ⟨hv, hr⟩ := handleViewerReceived_spec h
    exact ⟨hr, .inr (.inr ⟨rfl, hv⟩)⟩

/-- Whether a frame of the helper is an input message. -/
def isInputFrame (frame : Bytes) : Bool :=
  match LocalBoundaryMessage.decode frame with
  | .ok ⟨.input _, _, _⟩ => true
  | _ => false

/-- A message of the helper leaves the view of the connection alone, and asks for input
only where input is enabled. -/
theorem handleHelper_spec {frame : Bytes} (h : c.handleHelper frame = .ok r) :
    r.controller.view = c.view ∧
      ∀ q ∈ r.toEndpoint, q.isInput = true → isInputFrame frame = true ∧
        c.state.inputEnabled = true := by
  unfold handleHelper at h
  split at h
  · cases h
  · rename_i message hdecode
    split at h
    · split at h <;> cases h
    · obtain ⟨kind, seq, payload⟩ := message
      generalize hm : c.handleViewerHelper ⟨kind, seq, payload⟩ = out at h
      cases out with
      | error e => cases h
      | ok r' =>
        cases h
        cases kind with
        | dropTransport =>
          simp only [handleViewerHelper] at hm
          obtain ⟨-, -, hm⟩ := bind_eq_ok.mp hm
          cases hm
          exact ⟨rfl, by simp [LocalRequest.isInput]⟩
        | decoderAck =>
          simp only [handleViewerHelper] at hm
          obtain ⟨-, -, hm⟩ := bind_eq_ok.mp hm
          obtain ⟨⟨s', q⟩, hq, hm⟩ := bind_eq_ok.mp hm
          cases hm
          simp only [decoderAcknowledged, bind_eq_ok] at hq
          obtain ⟨_, -, _, -, hq⟩ := hq
          cases hq
          exact ⟨rfl, by simp [LocalRequest.isInput]⟩
        | closeRequest =>
          simp only [handleViewerHelper] at hm
          obtain ⟨-, -, hm⟩ := bind_eq_ok.mp hm
          obtain ⟨q, hq, hm⟩ := bind_eq_ok.mp hm
          cases hm
          simp only [requestClose, bind_eq_ok] at hq
          obtain ⟨_, -, _, -, _, -, _, -, hq⟩ := hq
          cases hq
          exact ⟨rfl, by simp [LocalRequest.isInput]⟩
        | input kind =>
          simp only [handleViewerHelper] at hm
          obtain ⟨event, -, hm⟩ := bind_eq_ok.mp hm
          obtain ⟨q, hq, hm⟩ := bind_eq_ok.mp hm
          cases hm
          refine ⟨rfl, fun _ _ _ => ⟨?_, ?_⟩⟩
          · rw [isInputFrame, hdecode]
          · unfold sendInput at hq
            obtain ⟨_, henabled, -⟩ := bind_eq_ok.mp hq
            simpa using guardError_eq_ok.mp henabled
        | connected => cases hm
        | announce => cases hm
        | frame => cases hm
        | sourceClosed => cases hm
        | mediaAck => cases hm
        | detached => cases hm
        | shutdown => cases hm
        | identity => cases hm

end Controller

/-! ## How far the controller is behind -/

/-- Reading the waiting events takes the controller's epoch and connected flag to the epoch
and the flag of the endpoint. -/
def Tracks : ℕ × Bool → List EndpointEvent → ℕ → Bool → Prop
  | v, [], epoch, online => v.2 = online ∧ (online = true → v.1 = epoch)
  | v, .connected e _ :: rest, epoch, online => v.2 = false ∧ Tracks (e, true) rest epoch online
  | v, .detached _ _ :: rest, epoch, online => v.2 = true ∧ Tracks (v.1, false) rest epoch online
  | v, _ :: rest, epoch, online => Tracks v rest epoch online

section Tracks

variable {v : ℕ × Bool} {events : List EndpointEvent} {epoch : ℕ} {online : Bool}

theorem tracks_cons_neutral {event : EndpointEvent} (hn : event.isNeutral = true) :
    Tracks v (event :: events) epoch online ↔ Tracks v events epoch online := by
  cases event with
  | connected e i => cases hn
  | detached e l => cases hn
  | sent channel seq => rfl
  | transportDropRequested e => rfl
  | error message => rfl
  | received channel kind seq ack payload => rfl

theorem tracks_append {event : EndpointEvent} {epoch' : ℕ} {online' : Bool}
    (hlast : ∀ v, v.2 = online → (online = true → v.1 = epoch) → Tracks v [event] epoch' online')
    (h : Tracks v events epoch online) : Tracks v (events ++ [event]) epoch' online' := by
  induction events generalizing v with
  | nil => exact hlast v h.1 h.2
  | cons first rest ih =>
    cases first with
    | connected e i => exact ⟨h.1, ih h.2⟩
    | detached e l => exact ⟨h.1, ih h.2⟩
    | sent channel seq => exact ih h
    | transportDropRequested e => exact ih h
    | error message => exact ih h
    | received channel kind seq ack payload => exact ih h

theorem tracks_append_neutral {event : EndpointEvent} (hn : event.isNeutral = true)
    (h : Tracks v events epoch online) : Tracks v (events ++ [event]) epoch online :=
  tracks_append (fun _ h1 h2 => (tracks_cons_neutral hn).mpr ⟨h1, h2⟩) h

theorem tracks_append_connected {i : RemoteDisplayIdentity} (h : Tracks v events epoch false) :
    Tracks v (events ++ [EndpointEvent.connected epoch i]) epoch true :=
  tracks_append (fun _ h1 _ => ⟨h1, rfl, fun _ => rfl⟩) h

theorem tracks_append_detached {e : ℕ} {l : List InputRelease} (h : Tracks v events epoch true) :
    Tracks v (events ++ [EndpointEvent.detached e l]) (epoch + 1) false :=
  tracks_append (fun _ h1 _ => ⟨h1, rfl, fun hf => by cases hf⟩) h

theorem Tracks.epoch_eq (h : Tracks v events epoch online) (hup : v.2 = true)
    (hnone : ∀ event ∈ events, event.isDetached = false) : v.1 = epoch := by
  induction events generalizing v with
  | nil => exact h.2 (h.1.symm.trans hup)
  | cons first rest ih =>
    have hrest : ∀ event ∈ rest, event.isDetached = false :=
      fun event hmem => hnone event (List.mem_cons_of_mem _ hmem)
    cases first with
    | connected e i =>
      rw [h.1] at hup
      cases hup
    | detached e l => cases hnone _ List.mem_cons_self
    | sent channel seq => exact ih h hup hrest
    | transportDropRequested e => exact ih h hup hrest
    | error message => exact ih h hup hrest
    | received channel kind seq ack payload => exact ih h hup hrest

end Tracks

/-! ## The condition and the invariant -/

namespace Link

/-- Every input message was sealed in the epoch it was asked for in. -/
def Fresh (s : Link) : Prop :=
  ∀ d ∈ s.deliveries, d.envelope.channel = .input → d.envelope.binding.epoch = d.emittedAt

/-- None of these frames asks for an input message. -/
def NoInput (frames : List Emitted) : Prop := ∀ q ∈ frames, q.request.isInput = false

/-- The frames that stay unread when this action loses the transport. -/
def unreadAtLoss (s : Link) : Action → List Emitted
  | .networkLost => s.toEndpoint
  | .localRequest _ onWire =>
    match s.toEndpoint with
    | [] => []
    | q :: rest => if q.request = .dropTransport ∨ onWire = false then rest else []
  | _ => []

/-- Whether this action makes the controller ask for an input message. -/
def asksForInput (s : Link) : Action → Bool
  | .helper frame => Controller.isInputFrame frame && s.controller.state.inputEnabled
  | _ => false

/-- **The condition.**  When the transport is lost no input request is unread, and input is
accepted from the helper only while no `detached` event is waiting for the controller. -/
def Careful (s : Link) (a : Action) : Prop :=
  (s.endpoint.phase = .online → NoInput (s.unreadAtLoss a)) ∧
    (s.asksForInput a = true → ∀ event ∈ s.toController, event.isDetached = false)

instance (s : Link) (a : Action) : Decidable (Careful s a) :=
  inferInstanceAs (Decidable
    ((s.endpoint.phase = .online → ∀ q ∈ s.unreadAtLoss a, q.request.isInput = false) ∧
      (s.asksForInput a = true → ∀ event ∈ s.toController, event.isDetached = false)))

structure Inv (s : Link) : Prop where
  tracks : s.controllerUp = true → s.endpoint.phase ≠ .stopped →
    Tracks s.controller.view s.toController s.endpoint.binding.epoch
      (decide (s.endpoint.phase = .online))
  unread : s.endpoint.phase ≠ .stopped → ∀ q ∈ s.toEndpoint, q.request.isInput = true →
    q.epoch = s.endpoint.binding.epoch
  fresh : s.Fresh

variable {u : UnicodeDb} {jsonLoads : Bytes → Option Json} {s : Link}

theorem inv_start {ep : Endpoint} (h : ep.phase = .connecting) : Inv { endpoint := ep } where
  tracks := by
    intro _ _
    rw [h]
    exact ⟨rfl, fun hf => by cases hf⟩
  unread := by
    intro _ q hq
    cases hq
  fresh := by
    intro d hd
    cases hd

section

variable (h : Inv s)
include h

theorem Inv.stopEndpoint : Inv s.stopEndpoint where
  tracks := fun _ hphase => absurd rfl hphase
  unread := fun hphase => absurd rfl hphase
  fresh := h.fresh

theorem Inv.stopController : Inv s.stopController where
  tracks := by
    intro hup
    cases hup
  unread := h.unread
  fresh := h.fresh

theorem Inv.sendNeutral (event : EndpointEvent) (hn : event.isNeutral = true) :
    Inv (s.sendLocalEvent event) := by
  unfold sendLocalEvent
  split
  · exact ⟨fun hup hphase => tracks_append_neutral hn (h.tracks hup hphase), h.unread, h.fresh⟩
  · exact h.stopEndpoint

theorem Inv.endpointRaised (message : String) : Inv (s.endpointRaised message) :=
  (h.sendNeutral _ rfl).stopEndpoint

theorem Inv.endpoint {ep : Endpoint} (hb : ep.binding = s.endpoint.binding)
    (hp : ep.phase = s.endpoint.phase) : Inv { s with endpoint := ep } where
  tracks := by
    intro hup hphase
    have := h.tracks hup (by rwa [← hp])
    rw [← hb, ← hp] at this
    exact this
  unread := by
    intro hphase
    have := h.unread (by rwa [← hp])
    rw [← hb] at this
    exact this
  fresh := h.fresh

theorem Inv.transportLost (hphase : s.endpoint.phase = .online) (hnone : NoInput s.toEndpoint)
    : Inv (s.transportLost u) := by
  unfold Link.transportLost sendLocalEvent
  by_cases hup : s.controllerUp = true
  · simp only [hup, if_true, hphase, reduceCtorEq, if_false]
    have htracks := h.tracks hup (by rw [hphase]; simp)
    rw [hphase] at htracks
    have hdetached := tracks_append_detached (e := s.endpoint.binding.epoch)
      (l := s.endpoint.life.input.releases) htracks
    split
    · -- the next epoch was refused: the endpoint ends
      rename_i e _
      constructor
      · exact fun _ hp => absurd rfl hp
      · exact fun hp => absurd rfl hp
      · unfold Link.endpointRaised sendLocalEvent
        split <;> exact h.fresh
    · rename_i ep hadvance
      have hepoch := Endpoint.advanceEpoch_epoch hadvance
      constructor
      · intro _ _
        show Tracks _ _ ep.binding.epoch _
        rw [hepoch]
        exact hdetached
      · intro _ q hq hinput
        rw [hnone q hq] at hinput
        cases hinput
      · exact h.fresh
  · simp only [hup, Bool.false_eq_true, if_false, Link.stopEndpoint, if_true]
    exact ⟨fun _ hp => absurd rfl hp, fun hp => absurd rfl hp, h.fresh⟩

theorem Inv.controllerReply {r : Reply}
    (htracks : s.controllerUp = true → s.endpoint.phase ≠ .stopped → Tracks r.controller.view s.toController s.endpoint.binding.epoch (decide (s.endpoint.phase = .online)))
    (hrequests : s.endpoint.phase ≠ .stopped → ∀ q ∈ r.toEndpoint, q.isInput = true → s.controller.state.epoch = s.endpoint.binding.epoch)
    : Inv (s.controllerReply r) := by
  unfold Link.controllerReply
  by_cases hdead : s.endpoint.phase = .stopped ∧ r.toEndpoint ≠ []
  · rw [if_pos hdead]
    exact ⟨(fun hup => by cases hup), h.unread, h.fresh⟩
  · rw [if_neg hdead]
    refine ⟨htracks, fun hphase q hq hinput => ?_, h.fresh⟩
    rcases List.mem_append.mp hq with hq | hq
    · exact h.unread hphase q hq hinput
    · obtain ⟨request, hmem, rfl⟩ := List.mem_map.mp hq
      exact hrequests hphase request hmem hinput

/-! ## Steps -/

theorem Inv.readHelper (hup : s.controllerUp = true) {frame : Bytes}
    (hcareful : s.asksForInput (.helper frame) = true → ∀ event ∈ s.toController, event.isDetached = false)
    : Inv (s.readHelper frame) := by
  unfold Link.readHelper
  split
  · exact h.stopController
  · rename_i r hr
    obtain ⟨hview, hinput⟩ := Controller.handleHelper_spec hr
    refine h.controllerReply (fun hup hphase => ?_) (fun hphase q hq hq' => ?_)
    · rw [hview]
      exact h.tracks hup hphase
    · obtain ⟨hframe, henabled⟩ := hinput q hq hq'
      have hconnected : s.controller.state.connected = true := by
        unfold inputEnabled at henabled
        simp only [Bool.and_eq_true] at henabled
        exact henabled.1.1
      have hasks : s.asksForInput (.helper frame) = true := by
        rw [asksForInput, hframe, henabled]
        rfl
      exact (h.tracks hup hphase).epoch_eq hconnected (hcareful hasks)

theorem Inv.readEvent : Inv (s.readEvent u jsonLoads) := by
  unfold Link.readEvent
  split
  · split
    · exact h.stopController
    · exact h
  · rename_i event rest hevents
    -- the event is consumed; the controller is known to follow only once it has handled it
    have hstop : Inv { s with toController := rest, controllerUp := false } :=
      ⟨(fun hup => by cases hup), h.unread, h.fresh⟩
    dsimp only
    split
    · exact hstop
    · rename_i r hr
      obtain ⟨hnone, hview⟩ := Controller.handleEndpoint_spec hr
      have htracks : s.controllerUp = true → s.endpoint.phase ≠ .stopped →
          Tracks r.controller.view rest s.endpoint.binding.epoch
            (decide (s.endpoint.phase = .online)) := by
        intro hup hphase
        have ht := h.tracks hup hphase
        rw [hevents] at ht
        rcases hview with ⟨e, i, rfl, hv⟩ | ⟨e, l, rfl, hv⟩ | ⟨hn, hv⟩
        · rw [hv]
          exact ht.2
        · rw [hv]
          exact ht.2
        · rw [hv]
          exact (tracks_cons_neutral hn).mp ht
      unfold Link.controllerReply
      simp only [hnone, ne_eq, not_true_eq_false, and_false, if_false, List.map_nil,
        List.append_nil]
      exact ⟨htracks, h.unread, h.fresh⟩

theorem Inv.readRequest (hphase : s.endpoint.phase = .online) {now : ℤ} {onWire : Bool}
    (hcareful : NoInput (s.unreadAtLoss (.localRequest now onWire))) :
    Inv (s.readRequest u now onWire) := by
  unfold Link.readRequest
  split
  · split
    · exact h
    · exact h.stopEndpoint
  · rename_i e rest hqueue
    have hrest : NoInput rest := by
      simpa [unreadAtLoss, hqueue] using hcareful
    have hread : Inv { s with toEndpoint := rest } :=
      ⟨h.tracks, fun hp q hq => h.unread hp q (hqueue ▸ List.mem_cons_of_mem _ hq), h.fresh⟩
    have htold := hread.sendNeutral (.transportDropRequested s.endpoint.binding.epoch) rfl
    dsimp only
    split
    · exact htold
    · -- a running endpoint has reached its controller
      rename_i hrunning
      unfold sendLocalEvent at hrunning htold ⊢
      split at hrunning
      · rename_i hup
        rw [if_pos hup] at htold ⊢
        exact htold.transportLost hphase hrest
      · exact absurd rfl hrunning
  · rename_i epoch r rest hqueue
    have hread : Inv { s with toEndpoint := rest } :=
      ⟨h.tracks, fun hp q hq => h.unread hp q (hqueue ▸ List.mem_cons_of_mem _ hq), h.fresh⟩
    dsimp only
    split
    · exact hread.endpointRaised _
    · rename_i envelope hseal
      obtain ⟨hbinding, hchannel⟩ := Endpoint.sealRequest_spec hseal
      -- the request is of the current epoch, and so is the envelope
      have hfresh : Inv { s with toEndpoint := rest
                                 deliveries := s.deliveries ++ [⟨epoch, envelope⟩] } := by
        refine ⟨hread.tracks, hread.unread, fun d hd hinput => ?_⟩
        rcases List.mem_append.mp hd with hd | hd
        · exact h.fresh d hd hinput
        · rw [List.mem_singleton.mp hd] at hinput ⊢
          have hq := h.unread (by rw [hphase]; simp) ⟨epoch, .send r⟩
            (hqueue ▸ List.mem_cons_self)
          show envelope.binding.epoch = epoch
          rw [hbinding, ← hq]
          show (r.channel == .input) = true
          rw [← hchannel, beq_iff_eq]
          exact hinput
      split
      · apply Inv.sendNeutral
        · exact hfresh.endpoint rfl rfl
        · rfl
      · rename_i hwire
        refine hfresh.transportLost hphase ?_
        simpa [unreadAtLoss, hqueue, hwire] using hcareful

/-- **Every careful step keeps the invariant.** -/
theorem Inv.step {a : Action} (hcareful : Careful s a) :
    Inv (step u jsonLoads s a) := by
  cases a with
  | helper frame =>
    simp only [Link.step]
    split
    · rename_i hup
      exact h.readHelper hup hcareful.2
    · exact h
  | helperClosed => exact h.stopController
  | endpointEvent =>
    simp only [Link.step]
    split
    · exact h.readEvent
    · exact h
  | connect =>
    simp only [Link.step]
    split
    · rename_i hphase
      unfold sendLocalEvent
      split
      · rename_i hup
        refine ⟨fun _ _ => ?_, fun _ => h.unread (by rw [hphase]; simp), h.fresh⟩
        have ht := h.tracks hup (by rw [hphase]; simp)
        rw [hphase] at ht
        exact tracks_append_connected ht
      · exact ⟨fun _ hp => absurd rfl hp, fun hp => absurd rfl hp, h.fresh⟩
    · exact h
  | connectFailed fatal message =>
    simp only [Link.step]
    split
    · exact h.endpointRaised message
    · exact h
  | localRequest now onWire =>
    simp only [Link.step]
    split
    · rename_i hphase
      exact h.readRequest hphase (hcareful.1 hphase)
    · exact h
  | wire now frame =>
    simp only [Link.step]
    split
    · unfold readWire
      split
      · exact h.endpointRaised _
      · rename_i ep event hremote
        obtain ⟨hb, hp, c, k, n, a, p, rfl⟩ := Endpoint.handleRemote_spec hremote
        exact (h.endpoint hb hp).sendNeutral _ rfl
    · exact h
  | networkLost =>
    simp only [Link.step]
    split
    · rename_i hphase
      exact h.transportLost hphase (hcareful.1 hphase)
    · exact h

end

end Link

/-! ## Runs -/

open Link

/-- **Input stays in its epoch.**  From a fresh controller and endpoint, in every run whose
steps are all careful, every input message the endpoint has sealed carries the epoch the
controller had when it asked for it, and a source that accepts it is in that epoch. -/
theorem fresh_input (u : UnicodeDb) (jsonLoads : Bytes → Option Json) (runtime : EndpointRuntime)
    (ep : Endpoint) (acts : List Action) (hmake : Endpoint.make u runtime = .ok ep)
    (hcareful : Meets (step u jsonLoads) Careful { endpoint := ep } acts) :
    ∀ d ∈ (run (step u jsonLoads) { endpoint := ep } acts).deliveries, d.envelope.channel = .input →
        d.envelope.binding.epoch = d.emittedAt ∧
          ∀ (source : Codec) (now : ℤ) (m : Envelope),
            source.openEnvelope u now .viewerToSource (some d.envelope) = .ok m →
              source.binding.epoch = d.emittedAt := by
  have hinv := Meets.invariant (P := Inv) (fun s a hok h => h.step hok) hcareful
    (inv_start (Endpoint.make_phase hmake))
  intro d hd hinput
  have hepoch := hinv.fresh d hd hinput
  refine ⟨hepoch, fun source now m hopen => ?_⟩
  rw [← Codec.openEnvelope_binding hopen]
  exact hepoch

/-! ## A run of each kind -/

/-- A paired session with the input capability. -/
def deskRuntime : EndpointRuntime where
  allowInput := true
  binding :=
    { sourceMachine := "laptop", viewerMachine := "desk", trustDomainId := "home"
      generation := 1, sessionId := "dock-1", streamId := "stream-0123456789", epoch := 1
      keyId := "key-1", keyExpiresAt := 100
      sourceTlsCertSha256 := String.ofList (List.replicate 64 'a')
      viewerTlsCertSha256 := String.ofList (List.replicate 64 'b') }
  sessionKey := { keyId := "key-1", issuedAt := 0, expiresAt := 100 }

/-- The endpoint of that session before its first connection. -/
def deskEndpoint : Endpoint where
  runtime := deskRuntime
  binding := deskRuntime.binding
  life :=
    { state := .attached, sourceAlive := true, sourceRevision := 1, epoch := 1
      input := { epoch := 1, attached := true } }

theorem make_deskRuntime : Endpoint.make .ascii deskRuntime = .ok deskEndpoint := by
  decide +kernel

/-- The source tells the viewer, in this epoch, about a stream of one pixel. -/
def streamWire (epoch : ℕ) (kind : String) : Action :=
  .wire 1 (some
    { binding := { deskRuntime.binding with epoch := epoch }
      direction := .sourceToViewer, channel := .control, kind := kind, seq := 1, ack := 0
      payload := asciiBytes (dumps compactSeps (.obj
        [("schema", .str streamSchema), ("source_revision", .int 1), ("width", .int 1),
         ("height", .int 1), ("stride", .int 4), ("pixel_format", .str pixelFormat),
         ("app_id", .str "editor"), ("title", .str "")])) })

/-- The helper reports that a key is pressed. -/
def keyFrame : Action :=
  .helper (asciiBytes "QDML".toList ++ [1, 9, 0, 0] ++ pack 8 0 ++ pack 4 30 ++ [1, 0, 0, 0])

/-- The viewer attaches, a key is pressed in each epoch and each press is sealed before the
network is lost. -/
def carefulRun : List Action :=
  [.connect, .endpointEvent, streamWire 1 "announce", .endpointEvent, keyFrame,
    .localRequest 1 true, .networkLost, .endpointEvent, .endpointEvent, .connect, .endpointEvent,
    streamWire 2 "reconcile", .endpointEvent, keyFrame, .localRequest 1 true]

theorem fresh_input_carefulRun :
    ((run (step .ascii asciiLoads) { endpoint := deskEndpoint } carefulRun).deliveries.map
        fun d => (d.emittedAt, d.envelope.channel, d.envelope.binding.epoch)) =
          [(1, .input, 1), (2, .input, 2)] ∧
      ∀ d ∈ (run (step .ascii asciiLoads) { endpoint := deskEndpoint } carefulRun).deliveries,
        d.envelope.channel = .input → d.envelope.binding.epoch = d.emittedAt :=
  ⟨by decide +kernel, fun d hd hinput =>
    (fresh_input .ascii asciiLoads deskRuntime deskEndpoint carefulRun make_deskRuntime
      (by decide +kernel) d hd hinput).1⟩

/-- A key is pressed and the network is lost before the endpoint reads the request. -/
def staleRun : List Action :=
  [.connect, .endpointEvent, streamWire 1 "announce", .endpointEvent, keyFrame, .networkLost,
    .endpointEvent, .connect, .endpointEvent, .localRequest 1 true]

/-- **A key pressed in epoch 1 is sealed in epoch 2.** -/
theorem input_crosses_reconnect :
    ¬ ∀ (u : UnicodeDb) (jsonLoads : Bytes → Option Json) (runtime : EndpointRuntime)
        (ep : Endpoint) (acts : List Action), Endpoint.make u runtime = .ok ep →
      ∀ d ∈ (run (step u jsonLoads) { endpoint := ep } acts).deliveries,
        d.envelope.channel = .input → d.envelope.binding.epoch = d.emittedAt := by
  intro h
  have hrun : ∃ d ∈ (run (step .ascii asciiLoads) { endpoint := deskEndpoint } staleRun).deliveries,
      d.envelope.channel = .input ∧ d.envelope.binding.epoch = 2 ∧ d.emittedAt = 1 := by
    decide +kernel
  obtain ⟨d, hd, hinput, hsealed, hemitted⟩ := hrun
  have hfresh := h .ascii asciiLoads deskRuntime deskEndpoint staleRun make_deskRuntime d hd hinput
  rw [hsealed, hemitted] at hfresh
  cases hfresh

end RemoteNested
