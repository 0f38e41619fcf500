/-
# A media connection

A source controller, its endpoint, a viewer endpoint and its controller during one epoch of a
connection, with the capture helper on one side and the decoder on the other.  The queues between
them are FIFO; each action is one iteration of one of the loops.  A handler that raises ends its
component: the error is recorded and the component reads nothing more.

The history that no step reads: the frames that were captured, the payloads the source controller
handed to its endpoint, the frames that were passed to the decoder and the errors.
-/
import QDistro.MediaSource
import QDistro.ErrorRules
import QDistro.SequenceNumbers

open JsonText ErrorRules SequenceNumbers

namespace RemoteNested

/-! ## The system -/

/-- The components of a connection and the queues between them. -/
structure MediaLink where
  source : SourceController
  sourceUp : Bool := true
  sourceEp : SourceEndpoint
  sourceEpUp : Bool := true
  viewerEp : Endpoint
  viewerEpUp : Bool := true
  viewer : Controller
  viewerUp : Bool := true
  /-- from the source controller to its endpoint -/
  toSourceEp : List LocalRequest := []
  /-- from the source endpoint to the viewer endpoint -/
  toViewerWire : List Envelope := []
  toViewer : List EndpointEvent := []
  toDecoder : List LocalBoundaryMessage := []
  fromDecoder : List LocalBoundaryMessage := []
  toViewerEp : List LocalRequest := []
  toSourceWire : List Envelope := []
  toSource : List EndpointEvent := []
  /-- the frames the decoder has read, and the last one it acknowledged -/
  shown : List ℕ := []
  acked : ℕ := 0
  captured : List RawFrame := []
  sent : List Bytes := []
  delivered : List LocalBoundaryMessage := []
  raised : List RemoteError := []
  deriving DecidableEq, Repr

/-- What happens next. -/
inductive FlowAction where
  /-- the source controller reads a frame of its capture helper -/
  | capture (payload : Bytes)
  /-- the source endpoint reads a request; `onWire` unless the TLS send fails -/
  | sourceRequest (now : ℤ) (onWire : Bool)
  /-- the viewer endpoint reads an envelope -/
  | viewerWire (now : ℤ)
  /-- the viewer controller reads an event -/
  | viewerEvent
  /-- the decoder reads a message -/
  | decoderReads
  /-- the decoder acknowledges a frame -/
  | decoderAcks (seq : ℕ)
  /-- the viewer controller reads a message of the decoder -/
  | viewerMessage
  /-- the viewer endpoint reads a request -/
  | viewerRequest (now : ℤ) (onWire : Bool)
  /-- the source endpoint reads an envelope -/
  | sourceWire (now : ℤ)
  /-- the source controller reads an event -/
  | sourceEvent
  deriving DecidableEq, Repr

/-- The payloads of the media requests of a queue. -/
def mediaPayloads (requests : List LocalRequest) : List Bytes :=
  requests.filterMap fun
    | .send r => if r.channel = .media then some r.payload else none
    | .dropTransport => none

namespace MediaLink

variable (u : UnicodeDb) (jsonLoads : Bytes → Option Json) (s : MediaLink)

def sourceRaised (e : RemoteError) : MediaLink :=
  { s with sourceUp := false, raised := s.raised ++ [e] }

def viewerRaised (e : RemoteError) : MediaLink :=
  { s with viewerUp := false, raised := s.raised ++ [e] }

/-- An endpoint that raises tells its controller. -/
def sourceEpRaised (e : RemoteError) : MediaLink :=
  { s with
    sourceEpUp := false, raised := s.raised ++ [e], toSource := s.toSource ++ [.error e.message] }

def viewerEpRaised (e : RemoteError) : MediaLink :=
  { s with
    viewerEpUp := false, raised := s.raised ++ [e], toViewer := s.toViewer ++ [.error e.message] }

/-- What a handler of the source controller sends. -/
def sourceReplies (r : SourceReply) : MediaLink :=
  { s with
    source := r.controller
    toSourceEp := s.toSourceEp ++ r.toEndpoint
    sent := s.sent ++ mediaPayloads r.toEndpoint }

/-- What a handler of the viewer controller sends. -/
def viewerReplies (r : Reply) : MediaLink :=
  { s with
    viewer := r.controller
    toDecoder := s.toDecoder ++ r.toHelper
    toViewerEp := s.toViewerEp ++ r.toEndpoint
    delivered := s.delivered ++ r.toHelper.filter (·.kind = .frame) }

def readCapture (payload : Bytes) : MediaLink :=
  let s : MediaLink :=
    { s with captured := s.captured ++ (RawFrame.decode payload).toOption.toList }
  match s.source.handleSourceHelper { kind := .frame, payload } with
  | .error e => s.sourceRaised e
  | .ok r => s.sourceReplies r

def readSourceRequest (now : ℤ) (onWire : Bool) : MediaLink :=
  match s.toSourceEp with
  | [] => s
  | .dropTransport :: _ => { s with sourceEpUp := false }
  | .send r :: rest =>
    match s.sourceEp.handleLocal now r with
    | .error e => s.sourceEpRaised e
    | .ok (ep, envelope, event) =>
      if onWire then
        { s with
          sourceEp := ep, toSourceEp := rest, toViewerWire := s.toViewerWire ++ [envelope]
          toSource := s.toSource ++ [event] }
      else { s with sourceEpUp := false }

def readViewerWire (now : ℤ) : MediaLink :=
  match s.toViewerWire with
  | [] => s
  | m :: rest =>
    match s.viewerEp.handleRemote u now (some m) with
    | .error e => s.viewerEpRaised e
    | .ok (ep, event) =>
      { s with viewerEp := ep, toViewerWire := rest, toViewer := s.toViewer ++ [event] }

def readViewerEvent : MediaLink :=
  match s.toViewer with
  | [] => s
  | event :: rest =>
    match s.viewer.handleEndpoint u jsonLoads event with
    | .error e => s.viewerRaised e
    | .ok r => { s with toViewer := rest }.viewerReplies r

def decoderRead : MediaLink :=
  match s.toDecoder with
  | [] => s
  | m :: rest =>
    { s with toDecoder := rest, shown := if m.kind = .frame then s.shown ++ [m.seq] else s.shown }

/-- The decoder acknowledges a frame it has read, later than those it has acknowledged. -/
def decoderAck (seq : ℕ) : MediaLink :=
  if seq ∈ s.shown ∧ s.acked < seq then
    { s with acked := seq, fromDecoder := s.fromDecoder ++ [{ kind := .decoderAck, seq }] }
  else s

def readViewerMessage : MediaLink :=
  match s.fromDecoder with
  | [] => s
  | m :: rest =>
    match s.viewer.handleViewerHelper m with
    | .error e => s.viewerRaised e
    | .ok r => { s with fromDecoder := rest }.viewerReplies r

def readViewerRequest (now : ℤ) (onWire : Bool) : MediaLink :=
  match s.toViewerEp with
  | [] => s
  | .dropTransport :: _ => { s with viewerEpUp := false }
  | .send r :: rest =>
    match s.viewerEp.sealRequest now r with
    | .error e => s.viewerEpRaised e
    | .ok envelope =>
      if onWire then
        { s with
          viewerEp := s.viewerEp.requestSent r.channel, toViewerEp := rest
          toSourceWire := s.toSourceWire ++ [envelope]
          toViewer := s.toViewer ++ [.sent r.channel (s.viewerEp.nextSeq.get r.channel)] }
      else { s with viewerEpUp := false }

def readSourceWire (now : ℤ) : MediaLink :=
  match s.toSourceWire with
  | [] => s
  | m :: rest =>
    match s.sourceEp.handleRemote u jsonLoads now (some m) with
    | .error e => s.sourceEpRaised e
    | .ok (ep, event) =>
      { s with sourceEp := ep, toSourceWire := rest, toSource := s.toSource ++ [event] }

def readSourceEvent : MediaLink :=
  match s.toSource with
  | [] => s
  | event :: rest =>
    match s.source.handleEvent jsonLoads event with
    | .error (.raised e) => s.sourceRaised e
    | .error .shutdown => { s with sourceUp := false }
    | .ok r => { s with toSource := rest }.sourceReplies r

/-- One step; a component that has ended does nothing. -/
def step (s : MediaLink) : FlowAction → MediaLink
  | .capture payload => if s.sourceUp then s.readCapture payload else s
  | .sourceRequest now onWire => if s.sourceEpUp then s.readSourceRequest now onWire else s
  | .viewerWire now => if s.viewerEpUp then s.readViewerWire u now else s
  | .viewerEvent => if s.viewerUp then s.readViewerEvent u jsonLoads else s
  | .decoderReads => s.decoderRead
  | .decoderAcks seq => s.decoderAck seq
  | .viewerMessage => if s.viewerUp then s.readViewerMessage else s
  | .viewerRequest now onWire => if s.viewerEpUp then s.readViewerRequest now onWire else s
  | .sourceWire now => if s.sourceEpUp then s.readSourceWire u jsonLoads now else s
  | .sourceEvent => if s.sourceUp then s.readSourceEvent jsonLoads else s

/-- The start of an epoch: both controllers have been told of the connection, every counter is
fresh, and the source's announcement is the one message on its way.  It is not stale for the
viewer. -/
structure Opens (s : MediaLink) : Prop where
  sourceFresh : s.source.mediaSent = 0 ∧ s.source.mediaAcked = 0 ∧ s.source.pendingFrame = none
  sourceEpFresh : s.sourceEp.nextSeq = ⟨1, 1, 1⟩ ∧ s.sourceEp.lastSeq = ⟨0, 0, 0⟩ ∧
    s.sourceEp.flow = {}
  viewerEpFresh : s.viewerEp.nextSeq = ⟨1, 1, 1⟩ ∧ s.viewerEp.lastSeq = ⟨0, 0, 0⟩ ∧
    s.viewerEp.lastMediaReceived = 0
  viewerFresh : s.viewer.state.lastMediaSeq = 0 ∧ s.viewer.state.decoderPending = [] ∧
    s.viewer.state.decoderAcked = 0
  announcement : ∃ kind payload, s.toSourceEp = [.send { channel := .control, kind, payload }] ∧
      (kind = "announce" ∨ kind = "reconcile") ∧
      ∀ a, decodeAnnouncement (jsonLoads payload) = .ok a →
        Controller.TakesAnnouncement s.viewer.state kind a
  quiet : s.toViewerWire = [] ∧ s.toViewer = [] ∧ s.toDecoder = [] ∧ s.fromDecoder = [] ∧
    s.toViewerEp = [] ∧ s.toSourceWire = [] ∧ s.toSource = []
  unused : s.shown = [] ∧ s.acked = 0 ∧ s.captured = [] ∧ s.sent = [] ∧ s.delivered = [] ∧
    s.raised = []

end MediaLink

/-! ## Errors -/

/-- Neither an error of flow control nor one of sequence. -/
def RemoteError.Benign (e : RemoteError) : Prop := e.kind ≠ .flowControl ∧ e.kind ≠ .replay

theorem benign_adapter (message : String) : RemoteError.Benign ⟨.adapter, message⟩ := by
  constructor <;> intro h <;> cases h

theorem benign_authentication (message : String) :
    RemoteError.Benign ⟨.authentication, message⟩ := by
  constructor <;> intro h <;> cases h

theorem yields_guard {bad : Bool} {kind : ErrorKind} {message : String}
    (h : RemoteError.Benign ⟨kind, message⟩) :
    Yields RemoteError.Benign (fun _ => bad = false) (guardError bad kind message) := by
  cases bad
  · rfl
  · exact h

theorem yields_adapter {α : Type} {Q : α → Prop} {bad : Bool} {message : String}
    {f : Unit → Checked α} (hf : bad = false → Yields RemoteError.Benign Q (f ())) :
    Yields RemoteError.Benign Q (guardError bad .adapter message >>= f) :=
  Yields.bind (yields_guard (benign_adapter _)) fun _ h => hf h

theorem yields_guard_pass {bad : Bool} {kind : ErrorKind} {message : String} (h : bad = false) :
    Yields RemoteError.Benign (fun _ => True) (guardError bad kind message) := by
  rw [guardError_pass h]
  trivial

theorem yields_guard_true {bad : Bool} {kind : ErrorKind} {message : String}
    (h : RemoteError.Benign ⟨kind, message⟩) :
    Yields RemoteError.Benign (fun _ => True) (guardError bad kind message) :=
  (yields_guard h).mono (fun _ h => h) fun _ _ => trivial

theorem yields_reject {α : Type} {Q : α → Prop} (message : String) :
    Yields RemoteError.Benign Q (reject message) := benign_adapter message

theorem yields_integer (label : String) (minimum maximum : ℤ) (v : Json) :
    Yields RemoteError.Benign (fun _ => True) (integer label minimum maximum v) := by
  unfold integer
  split
  · split
    · exact yields_reject _
    · trivial
  · exact yields_reject _

theorem yields_positiveInteger (label : String) (n : ℕ) :
    Yields RemoteError.Benign (fun m => m = n) (positiveInteger label (.int n)) := by
  cases n with
  | zero => exact yields_reject _
  | succ n => rfl

theorem yields_text (label : String) (allowEmpty : Bool) (v : Json) :
    Yields RemoteError.Benign (fun _ => True) (text label allowEmpty v) := by
  unfold text
  split
  · split
    · exact yields_reject _
    · split
      · exact yields_reject _
      · trivial
  · exact yields_reject _

theorem LocalBoundaryMessage.yields_check (m : LocalBoundaryMessage) :
    Yields RemoteError.Benign (fun _ => True) m.check := by
  unfold LocalBoundaryMessage.check
  refine yields_adapter fun _ => ?_
  exact yields_guard_true (benign_adapter _)

/-! ## What the codec yields -/

theorem RemoteSessionBinding.yields_validate (u : UnicodeDb) (b : RemoteSessionBinding) :
    Yields RemoteError.Benign (fun _ => True) (b.validate u) := by
  unfold RemoteSessionBinding.validate
  iterate 10 refine yields_adapter fun _ => ?_
  exact yields_guard_true (benign_adapter _)

theorem validateHeader_yields (kind : String) (seq : ℕ) :
    Yields RemoteError.Benign (fun _ => True) (validateHeader kind seq) := by
  unfold validateHeader
  refine yields_adapter fun _ => ?_
  exact yields_guard_true (benign_adapter _)

theorem RemoteSessionKey.yields_requireActive (k : RemoteSessionKey) (now : ℤ) :
    Yields RemoteError.Benign (fun _ => True) (k.requireActive now) := by
  unfold RemoteSessionKey.requireActive
  refine .bind (yields_guard (benign_authentication _)) fun _ _ => ?_
  refine .bind (yields_guard (benign_authentication _)) fun _ _ => ?_
  exact yields_guard_true (benign_authentication _)

theorem Codec.sealMessage_yields (c : Codec) (now : ℤ) (direction : Direction) (channel : Channel)
    (kind : String) (seq : ℕ) (payload : Bytes) (ack : ℕ) :
    Yields RemoteError.Benign (· = ⟨c.binding, direction, channel, kind, seq, ack, payload⟩)
      (c.sealMessage now direction channel kind seq payload ack) := by
  unfold Codec.sealMessage
  refine .bind (validateHeader_yields kind seq) fun _ _ => ?_
  refine yields_adapter fun _ => ?_
  exact .bind (c.sessionKey.yields_requireActive now) fun _ _ => rfl

theorem Codec.openEnvelope_yields (u : UnicodeDb) (c : Codec) (now : ℤ) (expected : Direction)
    (m : Envelope) :
    Yields RemoteError.Benign (· = m) (c.openEnvelope u now expected (some m)) := by
  unfold Codec.openEnvelope
  refine .bind (m.binding.yields_validate u) fun _ _ => ?_
  refine .bind (yields_guard (benign_authentication _)) fun _ _ => ?_
  refine .bind (validateHeader_yields m.kind m.seq) fun _ _ => ?_
  refine .bind (yields_guard (benign_authentication _)) fun _ _ => ?_
  refine .bind (c.sessionKey.yields_requireActive now) fun _ _ => ?_
  exact yields_adapter fun _ => rfl

theorem receive_yields {u : UnicodeDb} {c : Codec} {allowInput : Bool} {lastSeq : PerChannel}
    {now : ℤ} {direction : Direction} {m : Envelope}
    (hseq : m.seq = lastSeq.get m.channel + 1) :
    Yields RemoteError.Benign (· = (m, lastSeq.set m.seq m.channel))
      (receive u c allowInput lastSeq now direction (some m)) := by
  unfold receive
  refine .bind (c.openEnvelope_yields u now direction m) fun m' hm => ?_
  subst hm
  refine .bind (yields_guard (benign_authentication _)) fun _ _ => ?_
  exact .bind (yields_guard_pass (decide_eq_false (not_not.mpr hseq))) fun _ _ => rfl

/-! ## What the source yields -/

theorem RawFrame.yields_validate (f : RawFrame) :
    Yields RemoteError.Benign (fun _ => True) f.validate := by
  unfold RawFrame.validate
  iterate 3 refine .bind (yields_integer _ _ _ _) fun _ _ => ?_
  iterate 2 refine yields_adapter fun _ => ?_
  exact yields_guard_true (benign_adapter _)

theorem RawFrame.yields_decode (payload : Bytes) :
    Yields RemoteError.Benign (fun f => f.validate = .ok ()) (RawFrame.decode payload) := by
  unfold RawFrame.decode
  iterate 4 refine yields_adapter fun _ => ?_
  exact .bind (RawFrame.yields_validate _).and_eq fun _ h => h.2

/-- The request that carries a frame. -/
def frameRequest (f : RawFrame) : EndpointRequest :=
  { channel := .media, kind := "frame_bgrx", payload := f.encode }

theorem SourceNestedState.captureFrame_yields (s : SourceNestedState) (f : RawFrame) :
    Yields RemoteError.Benign (· = frameRequest f) (s.captureFrame f) := by
  unfold SourceNestedState.captureFrame
  refine yields_adapter fun _ => ?_
  split
  · refine .bind f.yields_validate fun _ _ => ?_
    exact yields_adapter fun _ => rfl
  · exact yields_reject _

namespace SourceController

variable {c : SourceController}

theorem sendSourceFrame_yields (c : SourceController) (f : RawFrame) :
    Yields RemoteError.Benign (· = ({ c with mediaSent := c.mediaSent + 1 }, frameRequest f))
      (c.sendSourceFrame f) := by
  unfold sendSourceFrame
  refine .bind (c.state.captureFrame_yields f) fun r hr => ?_
  subst hr
  rfl

/-- A captured frame is dropped, kept for later or sent. -/
inductive TakesCapture (c : SourceController) (f : RawFrame) : SourceReply → Prop
  | dropped : TakesCapture c f { controller := c }
  | kept (h : 2 ≤ c.mediaSent - c.mediaAcked) :
      TakesCapture c f { controller := { c with pendingFrame := some f } }
  | sent (h : c.mediaSent - c.mediaAcked < 2) :
      TakesCapture c f
        { controller := { c with mediaSent := c.mediaSent + 1 }
          toEndpoint := [.send (frameRequest f)] }

theorem handleSourceHelper_frame (c : SourceController) (payload : Bytes) :
    Yields RemoteError.Benign
      (fun r => ∃ f, RawFrame.decode payload = .ok f ∧ f.validate = .ok () ∧ TakesCapture c f r)
      (c.handleSourceHelper { kind := .frame, payload }) := by
  unfold handleSourceHelper
  refine .bind (RawFrame.yields_decode payload).and_eq fun f hf => ?_
  split
  · exact ⟨f, hf.2, hf.1, .dropped⟩
  · split
    · next h => exact ⟨f, hf.2, hf.1, .kept h⟩
    · next h =>
      refine .bind (c.sendSourceFrame_yields f) fun r hr => ?_
      subst hr
      exact ⟨f, hf.2, hf.1, .sent (not_le.mp h)⟩

/-- After an acknowledgement the frame that was kept is sent, if the window has room. -/
inductive Flushes (c : SourceController) : SourceController × List LocalRequest → Prop
  | nothing (h : c.pendingFrame = none) : Flushes c (c, [])
  | full (h : 2 ≤ c.mediaSent - c.mediaAcked) : Flushes c (c, [])
  | sent (f : RawFrame) (h : c.pendingFrame = some f) (hroom : c.mediaSent - c.mediaAcked < 2) :
      Flushes c ({ c with pendingFrame := none, mediaSent := c.mediaSent + 1 },
        [.send (frameRequest f)])

theorem flushPendingFrame_yields (c : SourceController) :
    Yields RemoteError.Benign (Flushes c) c.flushPendingFrame := by
  unfold flushPendingFrame
  split
  · next h => exact .nothing h
  · next f h =>
    split
    · next hroom =>
      refine .bind (sendSourceFrame_yields _ f) fun r hr => ?_
      subst hr
      exact .sent f h hroom
    · next hfull => exact .full (not_lt.mp hfull)

theorem handleEvent_ack (jsonLoads : Bytes → Option Json) (seq : ℕ) (payload : Bytes) {ack : ℕ}
    (hnew : c.mediaAcked < ack) (hsent : ack ≤ c.mediaSent) :
    Yields (fun halt => ∃ e, halt = .raised e ∧ e.Benign)
      (fun r => ∃ flushed, Flushes { c with mediaAcked := ack } flushed ∧
        r.controller = flushed.1 ∧ r.toEndpoint = flushed.2)
      (c.handleEvent jsonLoads (.received .control "media_ack" seq ack payload)) := by
  have hreceived : Yields RemoteError.Benign
      (fun r => ∃ flushed, Flushes { c with mediaAcked := ack } flushed ∧
        r.controller = flushed.1 ∧ r.toEndpoint = flushed.2)
      (c.handleSourceReceived jsonLoads .control "media_ack" seq ack payload) := by
    unfold handleSourceReceived
    refine .bind (yields_positiveInteger _ seq) fun _ _ => ?_
    refine .bind (yields_positiveInteger _ ack) fun n hn => ?_
    subst hn
    refine .bind (yields_guard_pass (decide_eq_false (by omega))) fun _ _ => ?_
    refine .bind (LocalBoundaryMessage.yields_check _) fun _ _ => ?_
    refine .bind (flushPendingFrame_yields _) fun flushed hflushed => ?_
    exact ⟨flushed, hflushed, rfl, rfl⟩
  show Yields _ _ ((c.handleSourceReceived jsonLoads .control "media_ack" seq ack payload).mapError
    Halt.raised)
  cases hr : c.handleSourceReceived jsonLoads .control "media_ack" seq ack payload with
  | error e => exact ⟨e, rfl, hreceived.of_eq_error hr⟩
  | ok r => exact hreceived.of_eq_ok hr

end SourceController

/-! ## What the endpoints yield -/

namespace SourceEndpoint

variable {ep : SourceEndpoint}

/-- The flow control after a request. -/
def offered (ep : SourceEndpoint) (r : EndpointRequest) : MediaFlowController :=
  if r.channel = .media then
    { ep.flow with
      nextSeq := ep.flow.nextSeq + 1
      inflight := ep.flow.inflight ++ [(ep.flow.nextSeq, r.payload.length)] }
  else ep.flow

/-- A media request that the window has room for. -/
structure Offers (ep : SourceEndpoint) (r : EndpointRequest) : Prop where
  nonempty : r.payload ≠ []
  room : ep.flow.inflight.length < maxInflight
  together : ep.flow.nextSeq = ep.nextSeq.media

theorem offerMedia_yields {r : EndpointRequest} (hlen : r.payload.length ≤ r.channel.payloadLimit)
    (h : r.channel = .media → ep.Offers r) :
    Yields RemoteError.Benign (· = ep.offered r) (ep.offerMedia r) := by
  unfold offerMedia offered
  by_cases hmedia : r.channel = .media
  · obtain ⟨hnonempty, hroom, htogether⟩ := h hmedia
    rw [hmedia] at hlen
    have hoffer : ep.flow.offer r.payload = .ok (ep.flow.nextSeq, { ep.flow with
        nextSeq := ep.flow.nextSeq + 1
        inflight := ep.flow.inflight ++ [(ep.flow.nextSeq, r.payload.length)] }) := by
      unfold MediaFlowController.offer
      rw [guardError_pass (by simpa using hnonempty), Checked.ok_bind,
        guardError_pass (decide_eq_false (not_lt.mpr hlen)), Checked.ok_bind,
        guardError_pass (decide_eq_false (not_le.mpr hroom))]
      rfl
    rw [if_pos hmedia, if_pos hmedia, hoffer, Checked.ok_bind]
    exact .bind (yields_guard_pass (decide_eq_false (not_not.mpr htogether))) fun _ _ => rfl
  · rw [if_neg hmedia, if_neg hmedia]
    rfl

theorem handleLocal_yields (now : ℤ) {r : EndpointRequest} (h : r.channel = .media → ep.Offers r) :
    Yields RemoteError.Benign
      (· = ({ ep with
          flow := ep.offered r
          nextSeq := ep.nextSeq.set (ep.nextSeq.get r.channel + 1) r.channel },
        ⟨ep.binding, .sourceToViewer, r.channel, r.kind, ep.nextSeq.get r.channel, r.ack,
          r.payload⟩,
        .sent r.channel (ep.nextSeq.get r.channel)))
      (ep.handleLocal now r) := by
  unfold handleLocal
  refine yields_adapter fun _ => ?_
  refine yields_adapter fun hlen => ?_
  refine .bind (offerMedia_yields (not_lt.mp (of_decide_eq_false hlen)) h) fun flow hflow => ?_
  subst hflow
  refine .bind (Codec.sealMessage_yields _ _ _ _ _ _ _ _) fun envelope henvelope => ?_
  subst henvelope
  rfl

/-- The flow control after an acknowledgement. -/
def acknowledged (ep : SourceEndpoint) (ack : ℕ) : MediaFlowController :=
  { ep.flow with ackedSeq := ack, inflight := ep.flow.inflight.filter (ack < ·.1) }

theorem handleRemote_ack (u : UnicodeDb) (jsonLoads : Bytes → Option Json) (now : ℤ)
    {m : Envelope} (hchannel : m.channel = .control) (hkind : m.kind = "media_ack")
    (hseq : m.seq = ep.lastSeq.control + 1) (hstale : ep.flow.ackedSeq ≤ m.ack) (hsent : m.ack < ep.flow.nextSeq) :
    Yields RemoteError.Benign
      (· = ({ ep with
          lastSeq := ep.lastSeq.set m.seq .control
          flow := ep.acknowledged m.ack },
        .received .control "media_ack" m.seq m.ack m.payload))
      (ep.handleRemote u jsonLoads now (some m)) := by
  unfold handleRemote
  have hget : m.seq = ep.lastSeq.get m.channel + 1 := by
    rw [hchannel]
    exact hseq
  refine .bind (receive_yields hget) fun r hr => ?_
  subst hr
  have hack : ep.flow.acknowledge m.ack = .ok (ep.acknowledged m.ack) := by
    unfold MediaFlowController.acknowledge
    rw [guardError_pass (decide_eq_false (by omega))]
    rfl
  have hinput : ep.recordInput jsonLoads m = .ok ep.life := by
    unfold recordInput
    rw [if_neg (by rw [hchannel]; decide)]
  simp only [hchannel, hkind, and_self, if_true, hack, Checked.ok_bind, hinput]
  rfl

end SourceEndpoint

namespace Endpoint

variable {ep : Endpoint}

theorem handleRemote_yields (u : UnicodeDb) (now : ℤ) {m : Envelope}
    (hseq : m.seq = ep.lastSeq.get m.channel + 1) :
    Yields RemoteError.Benign
      (· = ({ ep with
          lastSeq := ep.lastSeq.set m.seq m.channel
          lastMediaReceived := if m.channel = .media then m.seq else ep.lastMediaReceived },
        .received m.channel m.kind m.seq m.ack m.payload))
      (ep.handleRemote u now (some m)) := by
  unfold handleRemote
  refine .bind (receive_yields hseq) fun r hr => ?_
  subst hr
  rfl

/-- The request that carries an acknowledgement. -/
def ackRequest (ack : ℕ) : EndpointRequest := { channel := .control, kind := "media_ack", ack }

theorem sealRequest_ack (now : ℤ) {ack : ℕ} (h : ack ≤ ep.lastMediaReceived) :
    Yields RemoteError.Benign
      (· = ⟨ep.binding, .viewerToSource, .control, "media_ack", ep.nextSeq.control, ack, []⟩)
      (ep.sealRequest now (ackRequest ack)) := by
  unfold sealRequest
  iterate 3 refine yields_adapter fun _ => ?_
  refine .bind (yields_guard_pass (decide_eq_false ?_)) fun _ _ => ?_
  · rintro ⟨-, hne | hlt⟩
    · exact hne rfl
    · exact absurd h (not_le.mpr hlt)
  · exact Codec.sealMessage_yields _ _ _ _ _ _ _ _

end Endpoint

/-! ## What the viewer yields -/

theorem yields_validateAnnouncement (fields : List (String × Json)) :
    Yields RemoteError.Benign (fun _ => True) (validateAnnouncement fields) := by
  unfold validateAnnouncement
  iterate 4 refine .bind (yields_integer _ _ _ _) fun _ _ => ?_
  iterate 2 refine yields_adapter fun _ => ?_
  refine .bind (yields_text _ _ _) fun _ _ => ?_
  refine yields_adapter fun _ => ?_
  exact .bind (yields_text _ _ _) fun _ _ => trivial

theorem yields_decodeAnnouncement (v : Option Json) :
    Yields RemoteError.Benign (fun _ => True) (decodeAnnouncement v) := by
  unfold decodeAnnouncement
  split
  · exact yields_reject _
  · iterate 3 refine yields_adapter fun _ => ?_
    exact yields_validateAnnouncement _
  · exact yields_reject _

namespace Controller

variable {jsonLoads : Bytes → Option Json} {c : Controller}

theorem handleEndpoint_announcement (u : UnicodeDb) (seq ack : ℕ) {kind : String} {payload : Bytes}
    (hkind : kind = "announce" ∨ kind = "reconcile")
    (htakes : ∀ a, decodeAnnouncement (jsonLoads payload) = .ok a →
      TakesAnnouncement c.state kind a) :
    Yields RemoteError.Benign
      (fun r => ∃ a, r = ⟨{ c with state := c.state.announced a },
        [{ kind := .announce, seq := a.sourceRevision, payload := encodeLocalAnnouncement a }], []⟩)
      (c.handleEndpoint u jsonLoads (.received .control kind seq ack payload)) := by
  cases hdecode : decodeAnnouncement (jsonLoads payload) with
  | ok a =>
    rw [handleEndpoint_announced hkind hdecode (htakes a hdecode)]
    exact ⟨a, rfl⟩
  | error e =>
    have hany : Channel.control = .control ∧
        (kind = "announce" ∨ kind = "reconcile" ∨ kind = "source_closed") := by
      rcases hkind with rfl | rfl <;> simp
    show Yields _ _ (c.handleViewerReceived jsonLoads .control kind seq payload)
    unfold handleViewerReceived ViewerNestedState.receiveControl
    rw [if_pos hany, if_pos hkind]
    refine .bind (Q := fun _ => False) ?_ fun _ h => h.elim
    refine yields_adapter fun _ => ?_
    refine .bind (Q := fun _ => False) ?_ fun _ h => h.elim
    unfold ViewerNestedState.receiveAnnouncement
    rw [hdecode]
    exact (yields_decodeAnnouncement _).of_eq_error hdecode

theorem handleEndpoint_media (u : UnicodeDb) (jsonLoads : Bytes → Option Json) (kind : String)
    (ack : ℕ) (payload : Bytes) {seq : ℕ}
    (hnext : seq = c.state.lastMediaSeq + 1)
    (hroom : c.state.decoderPending.length < maxLocalDecodePending) :
    Yields RemoteError.Benign
      (fun r => ∃ f, RawFrame.decode payload = .ok f ∧
        r = ⟨{ c with state := c.state.delivered seq },
          [{ kind := .frame, seq, payload := f.encode }], []⟩)
      (c.handleEndpoint u jsonLoads (.received .media kind seq ack payload)) := by
  show Yields _ _ (c.handleViewerReceived jsonLoads .media kind seq payload)
  unfold handleViewerReceived
  rw [if_neg (by rintro ⟨h, -⟩; cases h)]
  by_cases hkind : Channel.media = .media ∧ kind = "frame_bgrx"
  · rw [if_pos hkind]
    refine .bind (Q := fun r => RawFrame.decode payload = .ok r.2 ∧
      r.1 = c.state.delivered seq) ?_ ?_
    · unfold ViewerNestedState.receiveMedia
      split
      · exact yields_reject _
      · next a ha =>
        refine yields_adapter fun _ => ?_
        refine .bind (yields_positiveInteger _ seq) fun n hn => ?_
        subst hn
        refine .bind (yields_guard_pass (decide_eq_false (not_not.mpr hnext))) fun _ _ => ?_
        refine .bind (yields_guard_pass (decide_eq_false (not_le.mpr hroom))) fun _ _ => ?_
        refine .bind (RawFrame.yields_decode payload).and_eq fun f hf => ?_
        exact yields_adapter fun _ => ⟨hf.2, rfl⟩
    · rintro ⟨state, f⟩ ⟨hdecode, hstate⟩
      cases hstate
      unfold Reply.checked
      refine .bind (Q := fun _ => True) ?_ fun _ _ => ⟨f, hdecode, rfl⟩
      exact .bind (LocalBoundaryMessage.yields_check _) fun _ _ => trivial
  · rw [if_neg hkind]
    exact yields_reject _

end Controller

end RemoteNested
