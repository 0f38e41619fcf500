/-
# Media flow control, end to end

Every frame that the source controller hands over is counted by four components before its
acknowledgement comes back: the source controller, the flow control of its endpoint, the receiver
of the viewer endpoint and the decoder window of the viewer controller.  In every state of every
run the counters are ordered along the way of a frame,

  acknowledged to the source ≤ to its endpoint ≤ to the viewer ≤ by the decoder ≤ delivered
    ≤ received ≤ on the wire ≤ sent ≤ acknowledged to the source + 2,

and the queue between two of them holds what lies between their counters (`MediaLink.Inv`).
-/
import QDistro.MediaLink

open JsonText ErrorRules SequenceNumbers TransitionSystem

namespace RemoteNested

open List

open MediaLink

/-! ## Queues -/

/-- The frames of a queue of events, with their numbers. -/
def mediaEvents (events : List EndpointEvent) : List (ℕ × Bytes) :=
  events.filterMap fun
    | .received .media _ seq _ payload => some (seq, payload)
    | _ => none

/-- The control messages of a queue of events. -/
def controlEvents (events : List EndpointEvent) : List (String × Bytes) :=
  events.filterMap fun
    | .received .control kind _ _ payload => some (kind, payload)
    | _ => none

/-- The acknowledgements of a queue of events. -/
def ackEvents (events : List EndpointEvent) : List ℕ :=
  events.filterMap fun
    | .received _ _ _ ack _ => some ack
    | _ => none

/-- The payloads of a channel on the wire. -/
def wirePayloads (channel : Channel) (wire : List Envelope) : List Bytes :=
  (wire.filter (·.channel = channel)).map Envelope.payload

/-- The numbers of a channel on the wire. -/
def wireSeqs (channel : Channel) (wire : List Envelope) : List ℕ :=
  (wire.filter (·.channel = channel)).map Envelope.seq

def controlEnvelopes (wire : List Envelope) : List (String × Bytes) :=
  (wire.filter (·.channel = .control)).map fun m => (m.kind, m.payload)

def controlRequests (requests : List LocalRequest) : List (String × Bytes) :=
  requests.filterMap fun
    | .send r => if r.channel = .control then some (r.kind, r.payload) else none
    | .dropTransport => none

def requestAcks (requests : List LocalRequest) : List ℕ :=
  requests.filterMap fun
    | .send r => some r.ack
    | .dropTransport => none

/-- The numbers of the frames of a queue of messages. -/
def frameSeqs (messages : List LocalBoundaryMessage) : List ℕ :=
  (messages.filter (·.kind = .frame)).map LocalBoundaryMessage.seq

section Append

variable (a b : List EndpointEvent) (w w' : List Envelope) (r r' : List LocalRequest)
  (m m' : List LocalBoundaryMessage) (channel : Channel)

@[simp] theorem mediaEvents_append : mediaEvents (a ++ b) = mediaEvents a ++ mediaEvents b :=
  filterMap_append

@[simp] theorem controlEvents_append :
    controlEvents (a ++ b) = controlEvents a ++ controlEvents b :=
  filterMap_append

@[simp] theorem ackEvents_append : ackEvents (a ++ b) = ackEvents a ++ ackEvents b :=
  filterMap_append

@[simp] theorem mediaPayloads_append :
    mediaPayloads (r ++ r') = mediaPayloads r ++ mediaPayloads r' :=
  filterMap_append

@[simp] theorem controlRequests_append :
    controlRequests (r ++ r') = controlRequests r ++ controlRequests r' :=
  filterMap_append

@[simp] theorem requestAcks_append : requestAcks (r ++ r') = requestAcks r ++ requestAcks r' :=
  filterMap_append

@[simp] theorem wireSeqs_append :
    wireSeqs channel (w ++ w') = wireSeqs channel w ++ wireSeqs channel w' := by
  rw [wireSeqs, filter_append, map_append]
  rfl

theorem controlEvents_take (m : Envelope) (rest : List Envelope) :
    controlEvents (a ++ [EndpointEvent.received m.channel m.kind m.seq m.ack m.payload]) ++
      controlEnvelopes rest = controlEvents a ++ controlEnvelopes (m :: rest) := by
  obtain ⟨_, _, channel, _, _, _, _⟩ := m
  rw [controlEvents_append, append_assoc]
  cases channel <;> rfl

theorem mediaEvents_take (m : Envelope) (rest : List Envelope) :
    (mediaEvents (a ++ [EndpointEvent.received m.channel m.kind m.seq m.ack m.payload])).map Prod.snd ++
      wirePayloads .media rest =
      (mediaEvents a).map Prod.snd ++ wirePayloads .media (m :: rest) := by
  obtain ⟨_, _, channel, _, _, _, _⟩ := m
  rw [mediaEvents_append, map_append, append_assoc]
  cases channel <;> rfl

@[simp] theorem frameSeqs_append : frameSeqs (m ++ m') = frameSeqs m ++ frameSeqs m' := by
  rw [frameSeqs, filter_append, map_append]
  rfl

end Append

/-! ## The wire -/

/-- On each channel the wire holds the numbers between the two counters. -/
def Ordered (wire : List Envelope) (lastSeq nextSeq : PerChannel) : Prop :=
  ∀ channel, Consecutive (lastSeq.get channel + 1) (wireSeqs channel wire) (nextSeq.get channel)

@[simp] theorem PerChannel.get_set_self (p : PerChannel) (n : ℕ) (channel : Channel) :
    (p.set n channel).get channel = n := by
  cases channel <;> rfl

theorem PerChannel.get_set_of_ne (p : PerChannel) (n : ℕ) {channel other : Channel}
    (h : other ≠ channel) : (p.set n channel).get other = p.get other := by
  cases channel <;> cases other <;> first | rfl | exact absurd rfl h

theorem Ordered.push {wire : List Envelope} {lastSeq nextSeq : PerChannel} {m : Envelope}
    (h : Ordered wire lastSeq nextSeq) (hm : m.seq = nextSeq.get m.channel) :
    Ordered (wire ++ [m]) lastSeq (nextSeq.set (m.seq + 1) m.channel) := by
  intro channel
  rw [wireSeqs_append]
  by_cases hc : m.channel = channel
  · subst hc
    have hone : wireSeqs m.channel [m] = [m.seq] := by simp [wireSeqs]
    rw [hone, PerChannel.get_set_self, hm]
    exact (h m.channel).push
  · have hnone : wireSeqs channel [m] = [] := by simp [wireSeqs, hc]
    rw [hnone, append_nil, PerChannel.get_set_of_ne _ _ fun h => hc h.symm]
    exact h channel

theorem Ordered.pop {wire : List Envelope} {lastSeq nextSeq : PerChannel} {m : Envelope}
    (h : Ordered (m :: wire) lastSeq nextSeq) :
    m.seq = lastSeq.get m.channel + 1 ∧
      Ordered wire (lastSeq.set m.seq m.channel) nextSeq := by
  have hhead := h m.channel
  have hone : wireSeqs m.channel (m :: wire) = m.seq :: wireSeqs m.channel wire := by
    simp [wireSeqs]
  rw [hone] at hhead
  refine ⟨hhead.1, fun channel => ?_⟩
  by_cases hc : m.channel = channel
  · subst hc
    rw [PerChannel.get_set_self, hhead.1]
    exact hhead.2
  · have hnone : wireSeqs channel (m :: wire) = wireSeqs channel wire := by simp [wireSeqs, hc]
    rw [PerChannel.get_set_of_ne _ _ fun h => hc h.symm, ← hnone]
    exact h channel

/-! ## The invariant -/

/-- The message that passes a frame to the decoder. -/
def frameMessage (f : RawFrame × ℕ) : LocalBoundaryMessage :=
  { kind := .frame, seq := f.2, payload := f.1.encode }

/-- An event of a connection that stays up. -/
def EndpointEvent.IsTraffic : EndpointEvent → Prop
  | .sent _ _ | .error _ | .received _ _ _ _ _ => True
  | _ => False

/-- An event that carries no message. -/
def EndpointEvent.IsIdle : EndpointEvent → Prop
  | .sent _ _ | .error _ => True
  | _ => False

/-- An event of a connection on which the viewer only acknowledges. -/
def EndpointEvent.IsAck : EndpointEvent → Prop
  | .sent _ _ | .error _ => True
  | .received channel kind _ _ _ => channel = .control ∧ kind = "media_ack"
  | _ => False

namespace MediaLink

/-- The frames that were handed over: they are captured frames in order, with the one that is
kept behind them, and those the viewer has received were passed on under 1, 2, 3, …. -/
def Conserves (s : MediaLink) : Prop :=
  ∃ frames : List RawFrame, s.sent = frames.map RawFrame.encode ∧
    (frames ++ s.source.pendingFrame.toList).Sublist s.captured ∧
    s.delivered = ((frames.take s.viewer.state.lastMediaSeq).zipIdx 1).map frameMessage

/-- The control messages on their way to the viewer. -/
def controls (s : MediaLink) : List (String × Bytes) :=
  controlEvents s.toViewer ++ controlEnvelopes s.toViewerWire ++ controlRequests s.toSourceEp

/-- The frames on their way to the viewer controller. -/
def carried (s : MediaLink) : List Bytes :=
  (mediaEvents s.toViewer).map Prod.snd ++ wirePayloads .media s.toViewerWire ++
    mediaPayloads s.toSourceEp

/-- A frame is kept only while the window is full. -/
def Kept (s : MediaLink) : Prop :=
  s.source.pendingFrame ≠ none → s.source.mediaSent = s.source.mediaAcked + 2

/-- What the queues and counters satisfy between two actions. -/
structure Inv (jsonLoads : Bytes → Option Json) (s : MediaLink) : Prop where
  benign : ∀ e ∈ s.raised, e.Benign
  -- the source controller
  window : s.source.mediaSent ≤ s.source.mediaAcked + 2
  counted : s.sent.length = s.source.mediaSent
  valid : ∀ f ∈ s.captured, f.validate = .ok ()
  conserves : s.Conserves
  carries : s.carried = s.sent.drop s.viewer.state.lastMediaSeq
  -- the source endpoint
  offered : s.sourceEp.nextSeq.media + (mediaPayloads s.toSourceEp).length = s.source.mediaSent + 1
  together : s.sourceEp.flow.nextSeq = s.sourceEp.nextSeq.media
  inflight : Consecutive (s.sourceEp.flow.ackedSeq + 1) (s.sourceEp.flow.inflight.map Prod.fst)
    s.sourceEp.flow.nextSeq
  -- the viewer endpoint
  down : Ordered s.toViewerWire s.viewerEp.lastSeq s.sourceEp.nextSeq
  received : s.viewerEp.lastMediaReceived = s.viewerEp.lastSeq.media
  events : Consecutive (s.viewer.state.lastMediaSeq + 1) ((mediaEvents s.toViewer).map Prod.fst)
    (s.viewerEp.lastSeq.media + 1)
  traffic : ∀ e ∈ s.toViewer, e.IsTraffic
  once : s.controls.length ≤ 1
  taken : ∀ m ∈ s.controls, (m.1 = "announce" ∨ m.1 = "reconcile") ∧
    ∀ a, decodeAnnouncement (jsonLoads m.2) = .ok a →
      Controller.TakesAnnouncement s.viewer.state m.1 a
  -- the viewer controller and the decoder
  pending : Consecutive (s.viewer.state.decoderAcked + 1) s.viewer.state.decoderPending
    (s.viewer.state.lastMediaSeq + 1)
  read : Consecutive 1 (s.shown ++ frameSeqs s.toDecoder) (s.viewer.state.lastMediaSeq + 1)
  decoded : s.acked ≤ s.viewer.state.lastMediaSeq
  -- the acknowledgements
  messages : ∀ m ∈ s.fromDecoder, m = { kind := .decoderAck, seq := m.seq }
  messageAcks : Increasing s.viewer.state.decoderAcked (s.fromDecoder.map LocalBoundaryMessage.seq)
    s.acked
  requests : ∀ r ∈ s.toViewerEp, ∃ ack, r = .send (Endpoint.ackRequest ack)
  envelopes : ∀ m ∈ s.toSourceWire, m.channel = .control ∧ m.kind = "media_ack"
  wireAcks : Increasing s.sourceEp.flow.ackedSeq
    (s.toSourceWire.map Envelope.ack ++ requestAcks s.toViewerEp) s.viewer.state.decoderAcked
  up : Ordered s.toSourceWire s.sourceEp.lastSeq s.viewerEp.nextSeq
  acks : ∀ e ∈ s.toSource, e.IsAck
  eventAcks : Increasing s.source.mediaAcked (ackEvents s.toSource) s.sourceEp.flow.ackedSeq

variable {u : UnicodeDb} {jsonLoads : Bytes → Option Json} {s : MediaLink}

theorem Inv.ordered (h : s.Inv jsonLoads) :
    s.source.mediaAcked ≤ s.sourceEp.flow.ackedSeq ∧
      s.sourceEp.flow.ackedSeq ≤ s.viewer.state.decoderAcked ∧
      s.viewer.state.decoderAcked ≤ s.acked ∧ s.acked ≤ s.viewer.state.lastMediaSeq ∧
      s.viewer.state.lastMediaSeq ≤ s.viewerEp.lastSeq.media ∧
      s.viewerEp.lastSeq.media + 1 ≤ s.sourceEp.nextSeq.media ∧
      s.sourceEp.nextSeq.media ≤ s.source.mediaSent + 1 := by
  have hevents := h.events.length
  have hwire := (h.down .media).length
  have hoffered := h.offered
  refine ⟨h.eventAcks.le, h.wireAcks.le, h.messageAcks.le, h.decoded, by omega, ?_, by omega⟩
  show s.viewerEp.lastSeq.get .media + 1 ≤ s.sourceEp.nextSeq.get .media
  omega

variable {e : RemoteError}

section

variable (h : s.Inv jsonLoads)
include h

theorem Inv.benign_append (he : e.Benign) :
    ∀ e' ∈ s.raised ++ [e], e'.Benign := by
  intro e' hmem
  rcases mem_append.mp hmem with hold | hnew
  · exact h.benign e' hold
  · rw [mem_singleton.mp hnew]
    exact he

theorem Inv.sourceRaised (he : e.Benign) :
    (s.sourceRaised e).Inv jsonLoads :=
  { h with benign := h.benign_append he }

theorem Inv.viewerRaised (he : e.Benign) :
    (s.viewerRaised e).Inv jsonLoads :=
  { h with benign := h.benign_append he }

theorem Inv.tellSource {e : EndpointEvent} (he : e.IsIdle) :
    Inv jsonLoads { s with toSource := s.toSource ++ [e] } := by
  have hack : e.IsAck := by
    cases e <;> trivial
  have hnone : ackEvents (s.toSource ++ [e]) = ackEvents s.toSource := by
    rw [ackEvents_append]
    cases e <;> first | exact append_nil _ | exact he.elim
  refine { h with acks := ?_, eventAcks := ?_ }
  · intro e' hmem
    rcases mem_append.mp hmem with hold | hnew
    · exact h.acks e' hold
    · rw [mem_singleton.mp hnew]
      exact hack
  · show Increasing _ (ackEvents (s.toSource ++ [e])) _
    rw [hnone]
    exact h.eventAcks

theorem Inv.tellViewer {e : EndpointEvent} (he : e.IsIdle) :
    Inv jsonLoads { s with toViewer := s.toViewer ++ [e] } := by
  have htraffic : e.IsTraffic := by
    cases e <;> trivial
  have hmedia : mediaEvents (s.toViewer ++ [e]) = mediaEvents s.toViewer := by
    rw [mediaEvents_append]
    cases e <;> first | exact append_nil _ | exact he.elim
  have hcontrols : controls { s with toViewer := s.toViewer ++ [e] } = s.controls := by
    have hnone : controlEvents (s.toViewer ++ [e]) = controlEvents s.toViewer := by
      rw [controlEvents_append]
      cases e <;> first | exact append_nil _ | exact he.elim
    simp only [controls, hnone]
  refine { h with carries := ?_, events := ?_, traffic := ?_, once := ?_, taken := ?_ }
  · have hcarries := h.carries
    simp only [carried, hmedia] at hcarries ⊢
    exact hcarries
  · show Consecutive _ ((mediaEvents (s.toViewer ++ [e])).map Prod.fst) _
    rw [hmedia]
    exact h.events
  · intro e' hmem
    rcases mem_append.mp hmem with hold | hnew
    · exact h.traffic e' hold
    · rw [mem_singleton.mp hnew]
      exact htraffic
  · rw [hcontrols]
    exact h.once
  · rw [hcontrols]
    exact h.taken

theorem Inv.sourceEpRaised (he : e.Benign) :
    (s.sourceEpRaised e).Inv jsonLoads :=
  let told := h.tellSource (e := .error e.message) trivial
  { told with benign := told.benign_append he }

theorem Inv.viewerEpRaised (he : e.Benign) :
    (s.viewerEpRaised e).Inv jsonLoads :=
  let told := h.tellViewer (e := .error e.message) trivial
  { told with benign := told.benign_append he }

/-! ## The source controller -/

theorem Inv.sends {f : RawFrame} {captured : List RawFrame}
    (hroom : s.source.mediaSent < s.source.mediaAcked + 2)
    (hvalid : ∀ f ∈ captured, f.validate = .ok ())
    (hsub : ∀ frames : List RawFrame, (frames ++ s.source.pendingFrame.toList).Sublist s.captured → (frames ++ [f]).Sublist captured)
    :
    Inv jsonLoads { s with
      source := { s.source with pendingFrame := none, mediaSent := s.source.mediaSent + 1 }
      captured := captured
      toSourceEp := s.toSourceEp ++ [LocalRequest.send (frameRequest f)]
      sent := s.sent ++ [f.encode] } := by
  obtain ⟨frames, hsent, hfrom, hdelivered⟩ := h.conserves
  have hcounted := h.counted
  have hordered := h.ordered
  have hD : s.viewer.state.lastMediaSeq ≤ s.sent.length := by omega
  have hpayloads : mediaPayloads (s.toSourceEp ++ [LocalRequest.send (frameRequest f)]) =
      mediaPayloads s.toSourceEp ++ [f.encode] := mediaPayloads_append _ _
  have hcontrols : controlRequests (s.toSourceEp ++ [LocalRequest.send (frameRequest f)]) =
      controlRequests s.toSourceEp := by
    rw [controlRequests_append]
    exact append_nil _
  refine { h with
    window := ?_, counted := ?_, valid := hvalid, conserves := ?_, carries := ?_, offered := ?_,
    once := ?_, taken := ?_, eventAcks := h.eventAcks }
  · show s.source.mediaSent + 1 ≤ s.source.mediaAcked + 2
    omega
  · show (s.sent ++ [f.encode]).length = s.source.mediaSent + 1
    rw [length_append, hcounted]
    rfl
  · refine ⟨frames ++ [f], ?_, ?_, ?_⟩
    · show s.sent ++ [f.encode] = _
      rw [hsent, map_append]
      rfl
    · show ((frames ++ [f]) ++ []).Sublist captured
      rw [append_nil]
      exact hsub frames hfrom
    · have hlen : s.viewer.state.lastMediaSeq ≤ frames.length := by
        rw [hsent, length_map] at hD
        exact hD
      show s.delivered = (((frames ++ [f]).take s.viewer.state.lastMediaSeq).zipIdx 1).map _
      rw [take_append_of_le_length hlen]
      exact hdelivered
  · have hcarries := h.carries
    simp only [carried] at hcarries ⊢
    rw [hpayloads, ← append_assoc, hcarries, drop_append_of_le_length hD]
  · have hoffered := h.offered
    show s.sourceEp.nextSeq.media + (mediaPayloads (s.toSourceEp ++ [LocalRequest.send (frameRequest f)])).length
      = s.source.mediaSent + 1 + 1
    rw [hpayloads, length_append, length_singleton]
    omega
  · have honce := h.once
    simp only [controls, hcontrols] at honce ⊢
    exact honce
  · have htaken := h.taken
    simp only [controls, hcontrols] at htaken ⊢
    exact htaken

theorem Inv.captures (pending : Option RawFrame) {captured : List RawFrame}
    (hvalid : ∀ f ∈ captured, f.validate = .ok ())
    (hsub : ∀ frames : List RawFrame, (frames ++ s.source.pendingFrame.toList).Sublist s.captured → (frames ++ pending.toList).Sublist captured)
    :
    Inv jsonLoads { s with
      source := { s.source with pendingFrame := pending }, captured := captured } := by
  obtain ⟨frames, hsent, hfrom, hdelivered⟩ := h.conserves
  exact { h with
    valid := hvalid, conserves := ⟨frames, hsent, hsub frames hfrom, hdelivered⟩
    window := h.window, counted := h.counted, offered := h.offered, eventAcks := h.eventAcks }

end

theorem sourceReplies_none (c : SourceController) (m : List LocalBoundaryMessage) :
    s.sourceReplies { controller := c, toHelper := m } = { s with source := c } := by
  simp [sourceReplies, mediaPayloads]

theorem Inv.readCapture (h : s.Inv jsonLoads) (hkept : s.Kept) (payload : Bytes) :
    (s.readCapture payload).Inv jsonLoads ∧ (s.readCapture payload).Kept := by
  have hyields := s.source.handleSourceHelper_frame payload
  -- the captured frames, with the new one behind them
  have hvalid : ∀ f ∈ s.captured ++ (RawFrame.decode payload).toOption.toList,
      f.validate = .ok () := by
    intro f hf
    rcases mem_append.mp hf with hold | hnew
    · exact h.valid f hold
    · cases hdecode : RawFrame.decode payload with
      | error e =>
        rw [hdecode] at hnew
        cases hnew
      | ok f' =>
        rw [hdecode] at hnew
        rw [mem_singleton.mp hnew]
        exact (RawFrame.yields_decode payload).of_eq_ok hdecode
  have hnoted : Inv jsonLoads
      { s with captured := s.captured ++ (RawFrame.decode payload).toOption.toList } :=
    h.captures s.source.pendingFrame hvalid
      fun frames hsub => hsub.trans (sublist_append_left _ _)
  unfold MediaLink.readCapture
  dsimp only
  cases hr : s.source.handleSourceHelper { kind := .frame, payload } with
  | error e => exact ⟨hnoted.sourceRaised (hyields.of_eq_error hr), hkept⟩
  | ok r =>
    obtain ⟨f, hdecode, -, htakes⟩ := hyields.of_eq_ok hr
    have hf : (RawFrame.decode payload).toOption.toList = [f] := by
      rw [hdecode]
      rfl
    rw [hf] at hvalid hnoted ⊢
    dsimp only
    cases htakes with
    | dropped =>
      rw [sourceReplies_none]
      exact ⟨hnoted, hkept⟩
    | kept hfull =>
      rw [sourceReplies_none]
      have hwindow := h.window
      refine ⟨h.captures (some f) hvalid fun frames hsub => ?_, fun _ => ?_⟩
      · exact ((sublist_append_left _ _).trans hsub).append (List.Sublist.refl [f])
      · show s.source.mediaSent = s.source.mediaAcked + 2
        omega
    | sent hroom =>
      have hnone : s.source.pendingFrame = none := by
        by_contra hne
        have hfull := hkept hne
        omega
      have hsent := h.sends (f := f) (by omega) hvalid fun frames hsub =>
        ((sublist_append_left _ _).trans hsub).append (List.Sublist.refl [f])
      have hsame : { s.source with pendingFrame := none, mediaSent := s.source.mediaSent + 1 } =
          { s.source with mediaSent := s.source.mediaSent + 1 } := by
        rw [← hnone]
      rw [hsame] at hsent
      exact ⟨hsent, fun hne => absurd hnone hne⟩

variable {ack : ℕ}

section

variable (h : s.Inv jsonLoads)
include h

theorem Inv.acknowledges {rest : List EndpointEvent} (hle : s.source.mediaAcked ≤ ack)
    (hacks : ∀ e ∈ rest, e.IsAck)
    (hevents : Increasing ack (ackEvents rest) s.sourceEp.flow.ackedSeq) :
    Inv jsonLoads { s with source := { s.source with mediaAcked := ack }, toSource := rest } := by
  have hwindow := h.window
  exact { h with
    window := by
      show s.source.mediaSent ≤ ack + 2
      omega
    counted := h.counted, conserves := h.conserves, offered := h.offered
    acks := hacks, eventAcks := hevents }

theorem Inv.readSourceEvent (hkept : s.Kept) :
    (s.readSourceEvent jsonLoads).Inv jsonLoads ∧ (s.readSourceEvent jsonLoads).Kept := by
  unfold MediaLink.readSourceEvent
  split
  · exact ⟨h, hkept⟩
  · next event rest hqueue =>
    have hack : event.IsAck := h.acks event (by rw [hqueue]; exact mem_cons_self)
    have hacks : ∀ e ∈ rest, e.IsAck := fun e he =>
      h.acks e (by rw [hqueue]; exact mem_cons_of_mem _ he)
    have hevents := h.eventAcks
    rw [hqueue] at hevents
    cases event with
    | sent channel seq =>
      dsimp only [SourceController.handleEvent]
      split
      · next hraise =>
        split at hraise <;> cases hraise
      · exact ⟨{ h with }, hkept⟩
      · next r hok =>
        split at hok
        · cases hok
        · cases hok
          rw [sourceReplies_none]
          exact ⟨{ h with acks := hacks, eventAcks := hevents }, hkept⟩
    | error message => exact ⟨h.sourceRaised (benign_adapter _), hkept⟩
    | received channel kind seq ack payload =>
      obtain ⟨rfl, rfl⟩ := hack
      obtain ⟨hnew, hrest⟩ := hevents
      have hordered := h.ordered
      have hflow := hrest.le
      have hyields := SourceController.handleEvent_ack jsonLoads seq payload hnew
        (show ack ≤ s.source.mediaSent by omega)
      cases hr : s.source.handleEvent jsonLoads (.received .control "media_ack" seq ack payload) with
      | error halt =>
        obtain ⟨e, rfl, he⟩ := hyields.of_eq_error hr
        exact ⟨h.sourceRaised he, hkept⟩
      | ok r =>
        obtain ⟨flushed, hflushed, hcontroller, hendpoint⟩ := hyields.of_eq_ok hr
        have hacked := h.acknowledges (le_of_lt hnew) hacks hrest
        obtain ⟨controller, toHelper, toEndpoint⟩ := r
        dsimp only at hcontroller hendpoint ⊢
        subst hcontroller hendpoint
        cases hflushed with
        | nothing hnone =>
          rw [sourceReplies_none]
          exact ⟨hacked, fun hne => absurd hnone hne⟩
        | full hfull =>
          rw [sourceReplies_none]
          have hwindow := hacked.window
          refine ⟨hacked, fun _ => ?_⟩
          dsimp only at hfull hwindow ⊢
          omega
        | sent f hpending hroom =>
          have hroom' : s.source.mediaSent < ack + 2 := by
            dsimp only at hroom
            omega
          have hsent := hacked.sends (f := f) hroom' h.valid fun frames hsub => by
            have hkeeps : s.source.pendingFrame.toList = [f] := by
              rw [show s.source.pendingFrame = some f from hpending]
              rfl
            rw [← hkeeps]
            exact hsub
          exact ⟨hsent, fun hne => absurd rfl hne⟩
    | connected => exact hack.elim
    | detached => exact hack.elim
    | transportDropRequested => exact hack.elim

/-! ## The endpoints -/

theorem Inv.offers {r : EndpointRequest} {rest : List LocalRequest}
    (hqueue : s.toSourceEp = .send r :: rest) (hmedia : r.channel = .media) :
    s.sourceEp.Offers r := by
  have hpayloads : mediaPayloads s.toSourceEp = r.payload :: mediaPayloads rest := by
    rw [hqueue]
    simp [mediaPayloads, hmedia]
  refine ⟨?_, ?_, h.together⟩
  · -- the payload is that of a frame
    obtain ⟨frames, hsent, -, -⟩ := h.conserves
    have hmem : r.payload ∈ s.sent := by
      refine mem_of_mem_drop (i := s.viewer.state.lastMediaSeq) ?_
      rw [← h.carries, carried, hpayloads]
      exact mem_append_right _ mem_cons_self
    rw [hsent] at hmem
    obtain ⟨f, -, hf⟩ := mem_map.mp hmem
    rw [← hf]
    intro hempty
    cases hempty
  · have hinflight := h.inflight.length
    have hordered := h.ordered
    have hwindow := h.window
    have hoffered := h.offered
    have htogether := h.together
    rw [hpayloads, length_cons] at hoffered
    rw [length_map] at hinflight
    unfold maxInflight
    omega

theorem Inv.forwards {r : EndpointRequest} {rest : List LocalRequest}
    (hqueue : s.toSourceEp = .send r :: rest) :
    Inv jsonLoads { s with
      sourceEp := { s.sourceEp with
        flow := s.sourceEp.offered r
        nextSeq := s.sourceEp.nextSeq.set (s.sourceEp.nextSeq.get r.channel + 1) r.channel }
      toSourceEp := rest
      toViewerWire := s.toViewerWire ++ [⟨s.sourceEp.binding, .sourceToViewer, r.channel, r.kind,
        s.sourceEp.nextSeq.get r.channel, r.ack, r.payload⟩] } := by
  have hcarries := h.carries
  have hoffered := h.offered
  have honce := h.once
  have htaken := h.taken
  have hdown := h.down.push (m := ⟨s.sourceEp.binding, .sourceToViewer, r.channel, r.kind,
    s.sourceEp.nextSeq.get r.channel, r.ack, r.payload⟩) rfl
  simp only [carried, controls, hqueue] at hcarries hoffered honce htaken
  obtain ⟨channel, kind, payload, ack⟩ := r
  cases channel with
  | control | input =>
    refine { h with
      carries := ?_, offered := hoffered, together := h.together, inflight := h.inflight
      down := hdown, once := ?_, taken := ?_, wireAcks := h.wireAcks, eventAcks := h.eventAcks
      up := h.up }
    · simpa [carried, wirePayloads, mediaPayloads] using hcarries
    · simpa [controls, controlEnvelopes, controlRequests] using honce
    · simpa [controls, controlEnvelopes, controlRequests] using htaken
  | media =>
    refine { h with
      carries := ?_, offered := ?_, together := ?_, inflight := ?_
      down := hdown, once := ?_, taken := ?_, wireAcks := h.wireAcks, eventAcks := h.eventAcks
      up := h.up }
    · simpa [carried, wirePayloads, mediaPayloads] using hcarries
    · have hone : mediaPayloads (.send ⟨.media, kind, payload, ack⟩ :: rest) =
          payload :: mediaPayloads rest := rfl
      rw [hone, length_cons] at hoffered
      show s.sourceEp.nextSeq.media + 1 + (mediaPayloads rest).length = s.source.mediaSent + 1
      omega
    · show s.sourceEp.flow.nextSeq + 1 = s.sourceEp.nextSeq.media + 1
      rw [h.together]
    · show Consecutive (s.sourceEp.flow.ackedSeq + 1) ((s.sourceEp.flow.inflight ++
        [(s.sourceEp.flow.nextSeq, payload.length)]).map Prod.fst) (s.sourceEp.flow.nextSeq + 1)
      rw [map_append]
      exact h.inflight.push
    · simpa [controls, controlEnvelopes, controlRequests] using honce
    · simpa [controls, controlEnvelopes, controlRequests] using htaken

theorem Inv.readSourceRequest (now : ℤ) (onWire : Bool) :
    (s.readSourceRequest now onWire).Inv jsonLoads := by
  unfold MediaLink.readSourceRequest
  split
  · exact h
  · exact { h with }
  · next r rest hqueue =>
    have hyields := SourceEndpoint.handleLocal_yields now (r := r) fun hmedia =>
      h.offers hqueue hmedia
    split
    · next e he => exact h.sourceEpRaised (hyields.of_eq_error he)
    · next ep envelope event hok =>
      cases hyields.of_eq_ok hok
      split
      · exact (h.forwards hqueue).tellSource trivial
      · exact { h with }

theorem Inv.takesEnvelope {m : Envelope} {rest : List Envelope}
    (hqueue : s.toViewerWire = m :: rest) :
    Inv jsonLoads { s with
      viewerEp := { s.viewerEp with
        lastSeq := s.viewerEp.lastSeq.set m.seq m.channel
        lastMediaReceived := if m.channel = .media then m.seq else s.viewerEp.lastMediaReceived }
      toViewerWire := rest
      toViewer := s.toViewer ++
        [EndpointEvent.received m.channel m.kind m.seq m.ack m.payload] } := by
  have hcarries := h.carries
  have honce := h.once
  have htaken := h.taken
  have hdown := h.down
  rw [hqueue] at hdown
  obtain ⟨hseq, hdown⟩ := hdown.pop
  have htraffic : ∀ e ∈ s.toViewer ++
      [EndpointEvent.received m.channel m.kind m.seq m.ack m.payload], e.IsTraffic := by
    intro e he
    rcases mem_append.mp he with hold | hnew
    · exact h.traffic e hold
    · rw [mem_singleton.mp hnew]
      trivial
  rw [carried, hqueue, ← mediaEvents_take] at hcarries
  rw [controls, hqueue, ← controlEvents_take] at honce htaken
  have hevents : Consecutive (s.viewer.state.lastMediaSeq + 1)
      ((mediaEvents (s.toViewer ++
        [EndpointEvent.received m.channel m.kind m.seq m.ack m.payload])).map Prod.fst)
      ((s.viewerEp.lastSeq.set m.seq m.channel).media + 1) := by
    have hold := h.events
    rw [mediaEvents_append, map_append]
    obtain ⟨_, _, channel, kind, seq, ack, payload⟩ := m
    cases channel with
    | control => exact (append_nil _).symm ▸ hold
    | media =>
      show Consecutive _ ((mediaEvents s.toViewer).map Prod.fst ++ [seq]) (seq + 1)
      rw [show seq = s.viewerEp.lastSeq.media + 1 from hseq]
      exact hold.push
    | input => exact (append_nil _).symm ▸ hold
  refine { h with
    carries := hcarries, down := hdown, received := ?_, events := hevents, traffic := htraffic
    once := honce, taken := htaken, up := h.up }
  have hreceived := h.received
  obtain ⟨_, _, channel, _, _, _, _⟩ := m
  cases channel with
  | control => exact hreceived
  | media => rfl
  | input => exact hreceived

theorem Inv.readViewerWire (now : ℤ) :
    (s.readViewerWire u now).Inv jsonLoads := by
  unfold MediaLink.readViewerWire
  split
  · exact h
  · next m rest hqueue =>
    have hdown := h.down
    rw [hqueue] at hdown
    have hyields := Endpoint.handleRemote_yields u now hdown.pop.1
    split
    · next e he => exact h.viewerEpRaised (hyields.of_eq_error he)
    · next ep event hok =>
      cases hyields.of_eq_ok hok
      exact h.takesEnvelope hqueue

theorem Inv.returns {rest : List LocalRequest}
    (hqueue : s.toViewerEp = .send (Endpoint.ackRequest ack) :: rest) :
    Inv jsonLoads { s with
      viewerEp := s.viewerEp.requestSent .control
      toViewerEp := rest
      toSourceWire := s.toSourceWire ++ [⟨s.viewerEp.binding, .viewerToSource, .control,
        "media_ack", s.viewerEp.nextSeq.control, ack, []⟩] } := by
  have hrequests := h.requests
  have hacks := h.wireAcks
  rw [hqueue] at hrequests hacks
  have hup := h.up.push (m := ⟨s.viewerEp.binding, .viewerToSource, .control, "media_ack",
    s.viewerEp.nextSeq.control, ack, []⟩) rfl
  refine { h with
    requests := fun r hr => hrequests r (mem_cons_of_mem _ hr), envelopes := ?_
    wireAcks := ?_, up := hup, down := h.down, received := h.received, events := h.events }
  · intro m hm
    rcases mem_append.mp hm with hold | hnew
    · exact h.envelopes m hold
    · rw [mem_singleton.mp hnew]
      exact ⟨rfl, rfl⟩
  · show Increasing _ ((s.toSourceWire ++ [_]).map Envelope.ack ++ requestAcks rest) _
    rw [map_append, append_assoc]
    exact hacks

theorem Inv.readViewerRequest (now : ℤ) (onWire : Bool) :
    (s.readViewerRequest now onWire).Inv jsonLoads := by
  unfold MediaLink.readViewerRequest
  split
  · exact h
  · exact { h with }
  · next r rest hqueue =>
    have hrequests := h.requests
    have hacks := h.wireAcks
    rw [hqueue] at hrequests hacks
    obtain ⟨ack, hack⟩ := hrequests _ mem_cons_self
    cases hack
    have hle : ack ≤ s.viewerEp.lastMediaReceived := by
      have hordered := h.ordered
      have hdecoder : ack ≤ s.viewer.state.decoderAcked :=
        hacks.le_of_mem (mem_append_right _ mem_cons_self)
      rw [h.received]
      omega
    have hyields := Endpoint.sealRequest_ack now hle
    split
    · next e he => exact h.viewerEpRaised (hyields.of_eq_error he)
    · next envelope hok =>
      cases hyields.of_eq_ok hok
      split
      · exact (h.returns hqueue).tellViewer trivial
      · exact { h with }

theorem Inv.readSourceWire (now : ℤ) :
    (s.readSourceWire u jsonLoads now).Inv jsonLoads := by
  unfold MediaLink.readSourceWire
  split
  · exact h
  · next m rest hqueue =>
    have henvelopes := h.envelopes
    have hacks := h.wireAcks
    have hup := h.up
    rw [hqueue] at henvelopes hacks hup
    obtain ⟨hchannel, hkind⟩ := henvelopes m mem_cons_self
    obtain ⟨hseq, hup⟩ := hup.pop
    rw [hchannel] at hseq hup
    obtain ⟨hnew, hrest⟩ := hacks
    have hordered := h.ordered
    have hsent : m.ack < s.sourceEp.flow.nextSeq := by
      have hle := hrest.le
      rw [h.together]
      omega
    have hyields := SourceEndpoint.handleRemote_ack u jsonLoads now hchannel hkind hseq
      (le_of_lt hnew) hsent
    split
    · next e he => exact h.sourceEpRaised (hyields.of_eq_error he)
    · next ep event hok =>
      cases hyields.of_eq_ok hok
      refine { h with
        together := h.together, inflight := ?_, down := h.down, offered := h.offered
        envelopes := fun m' hm' => henvelopes m' (mem_cons_of_mem _ hm')
        wireAcks := hrest, up := hup, acks := ?_, eventAcks := ?_ }
      · show Consecutive (m.ack + 1)
          ((s.sourceEp.flow.inflight.filter (m.ack < ·.1)).map Prod.fst) s.sourceEp.flow.nextSeq
        have hfilter : (s.sourceEp.flow.inflight.filter (m.ack < ·.1)).map Prod.fst =
            (s.sourceEp.flow.inflight.map Prod.fst).filter (m.ack < ·) := by
          rw [filter_map]
          rfl
        rw [hfilter]
        exact h.inflight.filter (by omega) hsent
      · intro e he
        rcases mem_append.mp he with hold | hlast
        · exact h.acks e hold
        · rw [mem_singleton.mp hlast]
          exact ⟨rfl, rfl⟩
      · show Increasing s.source.mediaAcked
          (ackEvents (s.toSource ++ [EndpointEvent.received .control "media_ack" m.seq m.ack m.payload])) m.ack
        rw [ackEvents_append]
        exact h.eventAcks.push hnew

/-! ## The viewer controller and the decoder -/

theorem Inv.attaches {kind : String} {seq : ℕ} {payload : Bytes} {rest : List EndpointEvent}
    (a : StreamAnnouncement)
    (hqueue : s.toViewer = .received .control kind seq ack payload :: rest) :
    Inv jsonLoads { s with
      viewer := { s.viewer with state := s.viewer.state.announced a }
      toViewer := rest
      toDecoder := s.toDecoder ++
        [{ kind := .announce, seq := a.sourceRevision, payload := encodeLocalAnnouncement a }] } := by
  have hcarries := h.carries
  have hevents := h.events
  have htraffic := h.traffic
  have honce := h.once
  simp only [carried, controls, hqueue] at hcarries hevents htraffic honce
  -- the announcement was the one control message on its way
  have hempty : controlEvents rest ++ controlEnvelopes s.toViewerWire ++
      controlRequests s.toSourceEp = [] := by
    have hone : controlEvents (.received .control kind seq ack payload :: rest) =
        (kind, payload) :: controlEvents rest := rfl
    rw [hone] at honce
    apply eq_nil_of_length_eq_zero
    simp only [cons_append, length_cons] at honce
    omega
  refine { h with
    carries := hcarries, events := hevents, pending := h.pending, read := ?_
    traffic := fun e he => htraffic e (mem_cons_of_mem _ he), once := ?_, taken := ?_
    conserves := h.conserves, decoded := h.decoded, messageAcks := h.messageAcks
    wireAcks := h.wireAcks }
  · show (controlEvents rest ++ controlEnvelopes s.toViewerWire ++
      controlRequests s.toSourceEp).length ≤ 1
    rw [hempty]
    exact Nat.zero_le 1
  · show ∀ m ∈ controlEvents rest ++ controlEnvelopes s.toViewerWire ++
      controlRequests s.toSourceEp, _
    rw [hempty]
    intro m hm
    cases hm
  · show Consecutive 1 (s.shown ++ frameSeqs (s.toDecoder ++ [_])) _
    rw [frameSeqs_append, ← append_assoc]
    exact (append_nil (s.shown ++ frameSeqs s.toDecoder)).symm ▸ h.read

theorem Inv.delivers {kind : String} {seq : ℕ} {payload : Bytes} {rest : List EndpointEvent}
    {f : RawFrame} (hqueue : s.toViewer = .received .media kind seq ack payload :: rest)
    (hdecode : RawFrame.decode payload = .ok f) :
    Inv jsonLoads { s with
      viewer := { s.viewer with state := s.viewer.state.delivered seq }
      toViewer := rest
      toDecoder := s.toDecoder ++ [{ kind := .frame, seq, payload := f.encode }]
      delivered := s.delivered ++ [{ kind := .frame, seq, payload := f.encode }] } := by
  have hcarries := h.carries
  have hevents := h.events
  have htraffic := h.traffic
  have honce := h.once
  have htaken := h.taken
  simp only [carried, controls, hqueue] at hcarries hevents htraffic honce htaken
  have hmedia : mediaEvents (.received .media kind seq ack payload :: rest) =
      (seq, payload) :: mediaEvents rest := rfl
  rw [hmedia] at hcarries hevents
  obtain ⟨hseq, hevents⟩ := hevents
  dsimp only at hseq
  subst hseq
  obtain ⟨frames, hsent, hsub, hdelivered⟩ := h.conserves
  -- the frame that arrives is the next one that was sent
  simp only [map_cons, cons_append] at hcarries
  have hlt : s.viewer.state.lastMediaSeq < s.sent.length := by
    by_contra hge
    rw [drop_eq_nil_of_le (not_lt.mp hge)] at hcarries
    cases hcarries
  rw [drop_eq_getElem_cons hlt] at hcarries
  injection hcarries with hpayload hcarries
  have hlt' : s.viewer.state.lastMediaSeq < frames.length := by
    rw [hsent, length_map] at hlt
    exact hlt
  have hframe : frames[s.viewer.state.lastMediaSeq] = f := by
    have hencode : payload = frames[s.viewer.state.lastMediaSeq].encode := by
      rw [hpayload]
      simp only [hsent, getElem_map]
    have hvalid := h.valid _ (hsub.subset
      (mem_append_left _ (getElem_mem hlt')))
    rw [hencode, RawFrame.decode_encode hvalid] at hdecode
    cases hdecode
    rfl
  refine { h with
    carries := hcarries, events := hevents, pending := ?_, read := ?_
    traffic := fun e he => htraffic e (mem_cons_of_mem _ he), once := honce, taken := ?_
    conserves := ⟨frames, hsent, hsub, ?_⟩, decoded := ?_, messageAcks := h.messageAcks
    wireAcks := h.wireAcks }
  · show s.delivered ++ [_] =
      ((frames.take (s.viewer.state.lastMediaSeq + 1)).zipIdx 1).map frameMessage
    rw [take_succ_eq_append_getElem hlt', zipIdx_append, map_append, ← hdelivered,
      hframe, length_take, Nat.min_eq_left (le_of_lt hlt'), Nat.add_comm 1]
    rfl
  · intro m hm
    obtain ⟨hkind, htakes⟩ := htaken m hm
    refine ⟨hkind, fun a ha => ?_⟩
    obtain ⟨hconnected, hfirst, hnewer, hsame⟩ := htakes a ha
    exact ⟨hconnected, hfirst, hnewer, hsame⟩
  · exact h.pending.push
  · show Consecutive 1 (s.shown ++ frameSeqs (s.toDecoder ++ [_])) _
    rw [frameSeqs_append, ← append_assoc]
    exact h.read.push
  · show s.acked ≤ s.viewer.state.lastMediaSeq + 1
    exact le_trans h.decoded (Nat.le_succ _)

theorem Inv.room {kind : String} {seq : ℕ} {payload : Bytes} {rest : List EndpointEvent}
    (hqueue : s.toViewer = .received .media kind seq ack payload :: rest) :
    seq = s.viewer.state.lastMediaSeq + 1 ∧
      s.viewer.state.decoderPending.length < maxLocalDecodePending := by
  have hevents := h.events
  rw [hqueue] at hevents
  obtain ⟨hseq, hevents⟩ := hevents
  have hpending := h.pending.length
  have hordered := h.ordered
  have hwindow := h.window
  have hlater := hevents.length
  refine ⟨hseq, ?_⟩
  unfold maxLocalDecodePending
  omega

end

theorem viewerReplies_toHelper (c : Controller) (m : List LocalBoundaryMessage) :
    s.viewerReplies ⟨c, m, []⟩ =
      { s with
        viewer := c, toDecoder := s.toDecoder ++ m
        delivered := s.delivered ++ m.filter (·.kind = .frame) } := by
  simp [viewerReplies]

section

variable (h : s.Inv jsonLoads)
include h

theorem Inv.readViewerEvent :
    (s.readViewerEvent u jsonLoads).Inv jsonLoads := by
  unfold MediaLink.readViewerEvent
  split
  · exact h
  · next event rest hqueue =>
    have htraffic := h.traffic event (by rw [hqueue]; exact mem_cons_self)
    cases event with
    | sent channel seq =>
      have hcarries := h.carries
      have hevents := h.events
      have htraffic := h.traffic
      have honce := h.once
      have htaken := h.taken
      simp only [carried, controls, hqueue] at hcarries hevents htraffic honce htaken
      dsimp only [Controller.handleEndpoint]
      rw [viewerReplies_toHelper, filter_nil, append_nil, append_nil]
      exact { h with
        carries := hcarries, events := hevents, once := honce, taken := htaken
        traffic := fun e he => htraffic e (mem_cons_of_mem _ he) }
    | error message => exact h.viewerRaised (benign_adapter _)
    | received channel kind seq ack payload =>
      cases channel with
      | control =>
        have htaken := h.taken (kind, payload) (by
          rw [controls, hqueue]
          exact mem_append_left _ (mem_append_left _ mem_cons_self))
        have hyields := Controller.handleEndpoint_announcement u seq ack htaken.1 htaken.2
        split
        · next e he => exact h.viewerRaised (hyields.of_eq_error he)
        · next r hok =>
          obtain ⟨a, rfl⟩ := hyields.of_eq_ok hok
          rw [viewerReplies_toHelper]
          exact (append_nil s.delivered).symm ▸ h.attaches a hqueue
      | media =>
        obtain ⟨hseq, hroom⟩ := h.room hqueue
        have hyields := Controller.handleEndpoint_media u jsonLoads kind ack payload hseq hroom
        split
        · next e he => exact h.viewerRaised (hyields.of_eq_error he)
        · next r hok =>
          obtain ⟨f, hdecode, rfl⟩ := hyields.of_eq_ok hok
          rw [viewerReplies_toHelper]
          exact h.delivers hqueue hdecode
      | input => exact h.viewerRaised (benign_adapter _)
    | connected => exact htraffic.elim
    | detached => exact htraffic.elim
    | transportDropRequested => exact htraffic.elim

theorem Inv.decoderRead : s.decoderRead.Inv jsonLoads := by
  unfold MediaLink.decoderRead
  split
  · exact h
  · next m rest hqueue =>
    have hread := h.read
    rw [hqueue] at hread
    refine { h with read := ?_ }
    by_cases hframe : m.kind = .frame
    · have hone : frameSeqs (m :: rest) = m.seq :: frameSeqs rest := by simp [frameSeqs, hframe]
      rw [hone] at hread
      dsimp only
      rw [if_pos hframe, append_assoc]
      exact hread
    · have hnone : frameSeqs (m :: rest) = frameSeqs rest := by simp [frameSeqs, hframe]
      rw [hnone] at hread
      dsimp only
      rw [if_neg hframe]
      exact hread

theorem Inv.decoderAck (seq : ℕ) : (s.decoderAck seq).Inv jsonLoads := by
  unfold MediaLink.decoderAck
  split
  · next hok =>
    obtain ⟨hshown, hnew⟩ := hok
    refine { h with decoded := ?_, messages := ?_, messageAcks := ?_ }
    · have hbounds := h.read.mem_iff.mp (mem_append_left _ hshown)
      show seq ≤ s.viewer.state.lastMediaSeq
      omega
    · intro m hm
      rcases mem_append.mp hm with hold | hlast
      · exact h.messages m hold
      · rw [mem_singleton.mp hlast]
    · show Increasing _ ((s.fromDecoder ++ [_]).map LocalBoundaryMessage.seq) seq
      rw [map_append]
      exact h.messageAcks.push hnew
  · exact h

theorem Inv.readViewerMessage :
    s.readViewerMessage.Inv jsonLoads := by
  unfold MediaLink.readViewerMessage
  split
  · exact h
  · next m rest hqueue =>
    have hmessages := h.messages
    have hacks := h.messageAcks
    rw [hqueue] at hmessages hacks
    obtain ⟨hnew, hrest⟩ := hacks
    have hlater := hrest.le
    have hdecoded := h.decoded
    have hpending : m.seq ∈ s.viewer.state.decoderPending := h.pending.mem_iff.mpr ⟨hnew, by omega⟩
    have hwindow := h.pending.filter (show _ ≤ m.seq + 1 by omega) (by omega)
    rw [hmessages m mem_cons_self,
      Controller.handleViewerHelper_decoderAck hnew (by omega) hpending]
    dsimp only [viewerReplies]
    rw [filter_nil, append_nil, append_nil]
    refine { h with
      conserves := h.conserves, carries := h.carries, events := h.events, taken := ?_
      pending := hwindow, read := h.read, decoded := h.decoded
      messages := fun m' hm' => hmessages m' (mem_cons_of_mem _ hm'), messageAcks := hrest
      requests := ?_, wireAcks := ?_ }
    · intro m' hm'
      obtain ⟨hkind, htakes⟩ := h.taken m' hm'
      refine ⟨hkind, fun a ha => ?_⟩
      obtain ⟨hconnected, hfirst, hnewer, hsame⟩ := htakes a ha
      exact ⟨hconnected, hfirst, hnewer, hsame⟩
    · intro r hr
      rcases mem_append.mp hr with hold | hlast
      · exact h.requests r hold
      · exact ⟨m.seq, mem_singleton.mp hlast⟩
    · show Increasing _ (s.toSourceWire.map Envelope.ack ++ requestAcks (s.toViewerEp ++ [_])) m.seq
      rw [requestAcks_append, ← append_assoc]
      exact h.wireAcks.push hnew

end

/-! ## Runs -/

theorem step_source {a : FlowAction} (hcapture : ∀ payload, a ≠ .capture payload)
    (hevent : a ≠ .sourceEvent) : (s.step u jsonLoads a).source = s.source := by
  cases a with
  | capture payload => exact absurd rfl (hcapture payload)
  | sourceEvent => exact absurd rfl hevent
  | sourceRequest now onWire =>
    dsimp only [step, readSourceRequest]
    repeat' split
    all_goals rfl
  | viewerWire now =>
    dsimp only [step, readViewerWire]
    repeat' split
    all_goals rfl
  | viewerEvent =>
    dsimp only [step, readViewerEvent]
    repeat' split
    all_goals rfl
  | decoderReads =>
    dsimp only [step, decoderRead]
    split <;> rfl
  | decoderAcks seq =>
    dsimp only [step, decoderAck]
    split <;> rfl
  | viewerMessage =>
    dsimp only [step, readViewerMessage]
    repeat' split
    all_goals rfl
  | viewerRequest now onWire =>
    dsimp only [step, readViewerRequest]
    repeat' split
    all_goals rfl
  | sourceWire now =>
    dsimp only [step, readSourceWire]
    repeat' split
    all_goals rfl

theorem Inv.ite {up : Bool} {t : MediaLink} (h : s.Inv jsonLoads) (ht : t.Inv jsonLoads) :
    Inv jsonLoads (if up then t else s) := by
  cases up
  · exact h
  · exact ht

theorem Inv.step (h : s.Inv jsonLoads) (hkept : s.Kept) (a : FlowAction) :
    (s.step u jsonLoads a).Inv jsonLoads := by
  cases a with
  | capture payload => exact h.ite (h.readCapture hkept payload).1
  | sourceRequest now onWire => exact h.ite (h.readSourceRequest now onWire)
  | viewerWire now => exact h.ite (h.readViewerWire now)
  | viewerEvent => exact h.ite h.readViewerEvent
  | decoderReads => exact h.decoderRead
  | decoderAcks seq => exact h.decoderAck seq
  | viewerMessage => exact h.ite h.readViewerMessage
  | viewerRequest now onWire => exact h.ite (h.readViewerRequest now onWire)
  | sourceWire now => exact h.ite (h.readSourceWire now)
  | sourceEvent => exact h.ite (h.readSourceEvent hkept).1

theorem Kept.step (h : s.Inv jsonLoads) (hkept : s.Kept) (a : FlowAction) :
    (s.step u jsonLoads a).Kept := by
  by_cases hcapture : ∃ payload, a = .capture payload
  · obtain ⟨payload, rfl⟩ := hcapture
    dsimp only [MediaLink.step]
    split
    · exact (h.readCapture hkept payload).2
    · exact hkept
  · by_cases hevent : a = .sourceEvent
    · subst hevent
      dsimp only [MediaLink.step]
      split
      · exact (h.readSourceEvent hkept).2
      · exact hkept
    · unfold Kept
      rw [step_source (fun payload heq => hcapture ⟨payload, heq⟩) hevent]
      exact hkept

theorem Opens.inv (h : s.Opens jsonLoads) : s.Inv jsonLoads ∧ s.Kept := by
  obtain ⟨⟨hsent, hacked, hpending⟩, ⟨hnext, hlast, hflow⟩, ⟨hvnext, hvlast, hvreceived⟩,
    ⟨hseq, hwindow, hdecoder⟩, ⟨kind, payload, hrequest, hkind, htakes⟩,
    ⟨hwire, hevents, htodecoder, hfromdecoder, hrequests, hup, hsource⟩,
    ⟨hshown, hacked', hcaptured, hpayloads, hdelivered, hraised⟩⟩ := h
  have hcontrols : s.controls = [(kind, payload)] := by
    rw [controls, hevents, hwire, hrequest]
    rfl
  have hordered : Ordered [] ⟨0, 0, 0⟩ ⟨1, 1, 1⟩ := by
    intro channel
    cases channel <;> rfl
  refine ⟨{
    benign := by simp [hraised]
    window := by omega
    counted := by simp [hpayloads, hsent]
    valid := by simp [hcaptured]
    conserves := ⟨[], by simp [hpayloads], by simp [hpending, hcaptured], by simp [hdelivered]⟩
    carries := by
      simp [carried, hevents, hwire, hrequest, hpayloads, mediaEvents, wirePayloads, mediaPayloads]
    offered := by simp [hnext, hrequest, hsent, mediaPayloads]
    together := by simp [hflow, hnext]
    inflight := by simp [hflow, Consecutive]
    down := by simpa only [hwire, hvlast, hnext] using hordered
    received := by simp [hvlast, hvreceived]
    events := by simp [hevents, hseq, hvlast, mediaEvents, Consecutive]
    traffic := by simp [hevents]
    once := by simp [hcontrols]
    taken := ?_
    pending := by simp [hwindow, hdecoder, hseq, Consecutive]
    read := by simp [hshown, htodecoder, hseq, frameSeqs, Consecutive]
    decoded := by omega
    messages := by simp [hfromdecoder]
    messageAcks := by simp [hfromdecoder, hdecoder, hacked', Increasing]
    requests := by simp [hrequests]
    envelopes := by simp [hup]
    wireAcks := by simp [hup, hrequests, hflow, hdecoder, requestAcks, Increasing]
    up := by simpa only [hup, hlast, hvnext] using hordered
    acks := by simp [hsource]
    eventAcks := by simp [hsource, hacked, hflow, ackEvents, Increasing] }, ?_⟩
  · rw [hcontrols]
    intro m hm
    rw [mem_singleton.mp hm]
    exact ⟨hkind, htakes⟩
  · intro hne
    exact absurd hpending hne

theorem Opens.reached (h : s.Opens jsonLoads) (as : List FlowAction) :
    (run (step u jsonLoads) s as).Inv jsonLoads := by
  have hmeets : Meets (step u jsonLoads) (fun _ _ => True) s as :=
    Meets.of_forall (fun _ _ => trivial) s as
  have hrun := hmeets.invariant (P := fun s => s.Inv jsonLoads ∧ s.Kept)
    (fun s a _ h => ⟨h.1.step h.2 a, Kept.step h.1 h.2 a⟩) h.inv
  exact hrun.1

/-- **Media flow control within one epoch.**  In every state of every run of the four components,
the decoder acknowledging frames it was shown in any increasing order: at most two frames are sent
and not acknowledged, no error of flow control or of sequence was raised, and the frames passed to
the decoder are captured frames, in order, under the numbers 1, 2, 3, …. -/
theorem media_flow_controlled (h : s.Opens jsonLoads) (as : List FlowAction) :
    (run (MediaLink.step u jsonLoads) s as).sent.length ≤
        (run (MediaLink.step u jsonLoads) s as).source.mediaAcked + 2 ∧
      (∀ e ∈ (run (MediaLink.step u jsonLoads) s as).raised,
        e.kind ≠ .flowControl ∧ e.kind ≠ .replay) ∧
      ∃ frames : List RawFrame, frames.Sublist (run (MediaLink.step u jsonLoads) s as).captured ∧
          (run (MediaLink.step u jsonLoads) s as).delivered =
            (frames.zipIdx 1).map frameMessage := by
  have hinv := h.reached (u := u) as
  obtain ⟨frames, -, hsub, hdelivered⟩ := hinv.conserves
  refine ⟨?_, hinv.benign, frames.take _, ?_, hdelivered⟩
  · rw [hinv.counted]
    exact hinv.window
  · exact (List.take_sublist _ _).trans ((List.sublist_append_left _ _).trans hsub)

/-- A stream of one pixel. -/
def pixelStream : StreamAnnouncement := ⟨1, 1, 1, 4, "editor", ""⟩

def pixelRuntime : EndpointRuntime where
  allowInput := false
  binding :=
    { sourceMachine := "laptop", viewerMachine := "desk", trustDomainId := "home"
      generation := 1, sessionId := "dock-1", streamId := "stream-0123456789", epoch := 1
      keyId := "key-1", keyExpiresAt := 100
      sourceTlsCertSha256 := String.ofList (List.replicate 64 'a')
      viewerTlsCertSha256 := String.ofList (List.replicate 64 'b') }
  sessionKey := { keyId := "key-1", issuedAt := 0, expiresAt := 100 }

/-- The source has announced the stream on a new connection. -/
def pixelLink : MediaLink where
  source := { state := { epoch := 1, connected := true, sourceRevision := 1
                         announcement := some pixelStream } }
  sourceEp := { runtime := pixelRuntime, binding := pixelRuntime.binding }
  viewerEp := { runtime := pixelRuntime, binding := pixelRuntime.binding, phase := .online }
  viewer := { state := { epoch := 1, connected := true } }
  toSourceEp :=
    [.send { channel := .control, kind := "announce", payload := pixelStream.encode }]

theorem pixelLink_opens : pixelLink.Opens asciiLoads where
  sourceFresh := ⟨rfl, rfl, rfl⟩
  sourceEpFresh := ⟨rfl, rfl, rfl⟩
  viewerEpFresh := ⟨rfl, rfl, rfl⟩
  viewerFresh := ⟨rfl, rfl, rfl⟩
  announcement := ⟨"announce", pixelStream.encode, rfl, .inl rfl, fun _ _ =>
    ⟨rfl, fun _ => rfl, Nat.zero_le _, fun _ => .inl rfl⟩⟩
  quiet := ⟨rfl, rfl, rfl, rfl, rfl, rfl, rfl⟩
  unused := ⟨rfl, rfl, rfl, rfl, rfl, rfl⟩

/-- Four frames are captured: two are sent, the third is overtaken by the fourth while the window
is full, and the fourth is sent once the decoder has acknowledged the second. -/
def pixelRun : List FlowAction :=
  ([.sourceRequest 1 true, .viewerWire 1, .viewerEvent] : List FlowAction) ++
    [1, 2, 3, 4].map (fun shade => FlowAction.capture (RawFrame.encode ⟨1, 1, 4, [shade, 0, 0, 0]⟩)) ++
    ([.sourceRequest 1 true, .sourceRequest 1 true, .viewerWire 1, .viewerWire 1, .viewerEvent,
      .viewerEvent, .decoderReads, .decoderReads, .decoderReads, .decoderAcks 2, .viewerMessage,
      .viewerRequest 1 true, .sourceWire 1, .sourceEvent, .sourceEvent, .sourceEvent, .sourceEvent,
      .sourceRequest 1 true, .viewerWire 1, .viewerEvent, .viewerEvent] : List FlowAction)

/-- Frames 1, 2 and 4 are passed to the decoder. -/
theorem media_flow_controlled_pixelRun :
    (run (MediaLink.step .ascii asciiLoads) pixelLink pixelRun).delivered =
        ([1, 2, 4].zipIdx 1).map (fun p => frameMessage (⟨1, 1, 4, [p.1, 0, 0, 0]⟩, p.2)) ∧
      (run (MediaLink.step .ascii asciiLoads) pixelLink pixelRun).sent.length ≤
        (run (MediaLink.step .ascii asciiLoads) pixelLink pixelRun).source.mediaAcked + 2 :=
  ⟨by decide +kernel, (media_flow_controlled (u := .ascii) pixelLink_opens pixelRun).1⟩

end MediaLink

end RemoteNested
