/-
# When the viewer controller answers

The handlers of the viewer controller, said once each: under which conditions a handler
returns, and what it then leaves.  A message that the controller sends to its helper has a
bounded sequence number and a bounded payload, so encoding it never raises.
-/
import QDistro.RemoteViewer

open JsonText

namespace RemoteNested

open ViewerNestedState

/-! ## Lengths -/

@[simp] theorem length_asciiBytes (t : List Char) : (asciiBytes t).length = t.length :=
  List.length_map _

theorem length_utf8Bytes_le (s : String) : (utf8Bytes s).length ≤ 4 * s.toList.length := by
  unfold utf8Bytes
  induction s.toList with
  | nil => exact le_refl 0
  | cons c rest ih =>
    have hc : (String.utf8EncodeChar c).length ≤ 4 := by
      rw [String.length_utf8EncodeChar]
      exact Char.utf8Size_le_four c
    rw [List.flatMap_cons, List.length_append, List.length_cons]
    omega

theorem length_of_matchName {inClass : Char → Bool} {extra : ℕ} {s : String}
    (h : matchName inClass extra s = true) : s.toList.length ≤ extra + 1 := by
  unfold matchName at h
  split at h
  · cases h
  · next c rest heq =>
    simp only [Bool.and_eq_true, decide_eq_true_iff] at h
    rw [heq, List.length_cons]
    omega

/-! ## Checks that go through -/

theorem Checked.bind_eq_ok {α β : Type} {x : Checked α} {f : α → Checked β} {b : β} :
    (x >>= f) = .ok b ↔ ∃ a, x = .ok a ∧ f a = .ok b := by
  cases x with
  | error e =>
    constructor
    · intro h
      cases h
    · rintro ⟨a, ha, -⟩
      cases ha
  | ok a =>
    constructor
    · intro h
      exact ⟨a, rfl, h⟩
    · rintro ⟨a', ha, h⟩
      cases ha
      exact h

@[simp] theorem Checked.ok_bind {α β : Type} (a : α) (f : α → Checked β) :
    ((.ok a : Checked α) >>= f) = f a := rfl

theorem guardError_eq_ok {bad : Bool} {kind : ErrorKind} {message : String} {v : Unit} :
    guardError bad kind message = .ok v ↔ bad = false := by
  cases bad
  · constructor <;> intro <;> rfl
  · constructor <;> intro h <;> cases h

theorem guardError_pass {bad : Bool} (h : bad = false) (kind : ErrorKind) (message : String) :
    guardError bad kind message = .ok () :=
  guardError_eq_ok.mpr h

theorem positiveInteger_of_pos {n : ℕ} (h : 0 < n) (label : String) :
    positiveInteger label (.int n) = .ok n := by
  cases n with
  | zero => exact absurd h (lt_irrefl 0)
  | succ n => rfl

theorem integer_eq_ok {label : String} {minimum maximum m : ℤ} {v : Json}
    (h : integer label minimum maximum v = .ok m) : v = .int m ∧ minimum ≤ m ∧ m ≤ maximum := by
  unfold integer at h
  split at h
  · split at h
    · cases h
    · next hbounds =>
      cases h
      exact ⟨rfl, by omega, by omega⟩
  · cases h

theorem integer_of_bounds {minimum maximum n : ℤ} (hmin : minimum ≤ n) (hmax : n ≤ maximum)
    (label : String) : integer label minimum maximum (.int n) = .ok n := by
  have hbounds : ¬(n < minimum ∨ maximum < n) := by omega
  exact if_neg hbounds

theorem text_eq_ok {label : String} {allowEmpty : Bool} {v : Json} {s : String}
    (h : text label allowEmpty v = .ok s) : v = .str s ∧ (utf8Bytes s).length ≤ maxTextBytes := by
  unfold text at h
  split at h
  · split at h
    · cases h
    · next hlen =>
      split at h
      · cases h
      · cases h
        refine ⟨rfl, ?_⟩
        simp only [Bool.or_eq_true, decide_eq_true_iff, not_or] at hlen
        exact not_lt.mp hlen.2
  · cases h

/-- A message that fits the local boundary. -/
def LocalBoundaryMessage.Fits (m : LocalBoundaryMessage) : Prop :=
  m.seq < 2 ^ 64 ∧ m.payload.length ≤ Channel.media.payloadLimit

theorem LocalBoundaryMessage.Fits.check {m : LocalBoundaryMessage} (h : m.Fits) :
    m.check = .ok () := by
  obtain ⟨hseq, hlen⟩ := h
  unfold LocalBoundaryMessage.check
  rw [guardError_pass (decide_eq_false (by omega))]
  exact guardError_pass (decide_eq_false (by omega)) _ _

theorem Reply.checked_of_fits {r : Reply} (h : ∀ m ∈ r.toHelper, m.Fits) :
    r.checked = .ok r := by
  have hall : r.toHelper.forM LocalBoundaryMessage.check = (.ok () : Checked PUnit) := by
    revert h
    generalize r.toHelper = messages
    intro h
    induction messages with
    | nil => rfl
    | cons m rest ih =>
      show (m.check >>= fun _ => rest.forM LocalBoundaryMessage.check) = _
      rw [(h m List.mem_cons_self).check]
      exact ih fun m' hm' => h m' (List.mem_cons_of_mem _ hm')
  unfold Reply.checked
  rw [hall]
  rfl

theorem Reply.of_checked {r r' : Reply} (h : r.checked = .ok r') : r' = r := by
  unfold Reply.checked at h
  obtain ⟨-, -, h⟩ := Checked.bind_eq_ok.mp h
  cases h
  rfl

/-! ## Payloads for the helper -/

theorem RemoteDisplayIdentity.fits {u : UnicodeDb} {i : RemoteDisplayIdentity}
    (h : i.validate u = .ok ()) :
    LocalBoundaryMessage.Fits { kind := .identity, seq := i.generation, payload := i.encode } := by
  simp only [validate, Checked.bind_eq_ok, guardError_eq_ok, Bool.not_eq_false'] at h
  obtain ⟨_, hmachine, _, hdomain, _, hstream, generation, hgeneration, -⟩ := h
  have hm := length_of_matchName hmachine
  have hd := length_of_matchName hdomain
  have hs : i.streamId.toList.length ≤ 128 := by
    simp only [matchStreamId, Bool.and_eq_true, decide_eq_true_iff] at hstream
    exact hstream.2
  obtain ⟨hint, -, hmax⟩ := integer_eq_ok hgeneration
  injection hint with hint
  have hm' := length_utf8Bytes_le i.sourceMachine
  have hd' := length_utf8Bytes_le i.trustDomainId
  have hs' := length_utf8Bytes_le i.streamId
  constructor
  · show i.generation < 2 ^ 64
    omega
  · show i.encode.length ≤ 3 * 1024 * 1024
    have hascii : ("QDMI".toList).length = 4 := rfl
    simp only [encode, List.length_append, length_asciiBytes, length_pack, List.length_cons,
      List.length_nil, hascii]
    omega

theorem decodeAnnouncement_bounds {v : Option Json} {a : StreamAnnouncement}
    (h : decodeAnnouncement v = .ok a) :
    0 < a.sourceRevision ∧ a.sourceRevision < 2 ^ 63 ∧ (utf8Bytes a.appId).length ≤ maxTextBytes ∧
      (utf8Bytes a.title).length ≤ maxTextBytes := by
  unfold decodeAnnouncement at h
  split at h
  · cases h
  · simp only [validateAnnouncement, Checked.bind_eq_ok] at h
    obtain ⟨_, -, _, -, _, -, revision, hrevision, _, -, _, -, _, -, _, -, _, -, appId, happ, _, -,
      title, htitle, h⟩ := h
    cases h
    obtain ⟨-, hmin, hmax⟩ := integer_eq_ok hrevision
    refine ⟨?_, ?_, (text_eq_ok happ).2, (text_eq_ok htitle).2⟩
    · show 0 < revision.toNat
      omega
    · show revision.toNat < 2 ^ 63
      omega
  · cases h

theorem StreamAnnouncement.fits {v : Option Json} {a : StreamAnnouncement}
    (h : decodeAnnouncement v = .ok a) :
    LocalBoundaryMessage.Fits
      { kind := .announce, seq := a.sourceRevision, payload := encodeLocalAnnouncement a } := by
  obtain ⟨-, hrevision, happ, htitle⟩ := decodeAnnouncement_bounds h
  constructor
  · show a.sourceRevision < 2 ^ 64
    omega
  · show (encodeLocalAnnouncement a).length ≤ 3 * 1024 * 1024
    have hascii : ("QDMA".toList).length = 4 := rfl
    unfold maxTextBytes at happ htitle
    simp only [encodeLocalAnnouncement, List.length_append, length_asciiBytes, length_pack,
      List.length_cons, List.length_nil, hascii]
    omega

theorem RawFrame.fits {payload : Bytes} {f : RawFrame} (h : RawFrame.decode payload = .ok f)
    {seq : ℕ} (hseq : seq < 2 ^ 64) :
    LocalBoundaryMessage.Fits { kind := .frame, seq, payload := f.encode } := by
  simp only [RawFrame.decode, RawFrame.validate, Checked.bind_eq_ok] at h
  obtain ⟨_, -, _, -, _, -, _, -, _, hvalid, h⟩ := h
  cases h
  obtain ⟨_, -, _, -, _, -, _, -, _, -, hlimit⟩ := hvalid
  have hlimit := of_decide_eq_false (guardError_eq_ok.mp hlimit)
  refine ⟨hseq, ?_⟩
  have hascii : ("QDMF".toList).length = 4 := rfl
  simp only [RawFrame.encode, List.length_append, length_asciiBytes, length_pack,
    List.length_cons, List.length_nil, hascii]
  have hsize : frameHeaderSize = 24 := rfl
  omega

/-! ## The state after a message -/

namespace ViewerNestedState

variable (s : ViewerNestedState)

/-- A new connection. -/
def online (epoch : ℕ) : ViewerNestedState :=
  { s with
    epoch := epoch, connected := true, attached := false, lastMediaSeq := 0,
    decoderPending := [], decoderAcked := 0 }

/-- The source is announced. -/
def announced (a : StreamAnnouncement) : ViewerNestedState :=
  { s with
    sourceRevision := a.sourceRevision, announcement := some a, sourceAlive := true,
    attached := true }

/-- The source is closed. -/
def sourceGone (revision : ℕ) : ViewerNestedState :=
  { s with
    sourceRevision := revision, sourceAlive := false, attached := false, announcement := none,
    decoderPending := [] }

/-- A frame is passed on. -/
def delivered (seq : ℕ) : ViewerNestedState :=
  { s with lastMediaSeq := seq, decoderPending := s.decoderPending ++ [seq] }

/-- The helper has decoded up to a frame. -/
def acknowledged (seq : ℕ) : ViewerNestedState :=
  { s with decoderAcked := seq, decoderPending := s.decoderPending.filter (seq < ·) }

/-- The connection is lost. -/
def offline : ViewerNestedState :=
  { s with connected := false, attached := false, decoderPending := [] }

end ViewerNestedState

/-! ## Handlers that return -/

namespace Controller

variable {u : UnicodeDb} {jsonLoads : Bytes → Option Json} {c : Controller}

theorem handleEndpoint_connected {epoch : ℕ} {identity : RemoteDisplayIdentity}
    (hnew : c.state.epoch < epoch) (hbound : epoch < 2 ^ 64)
    (hvalid : identity.validate u = .ok ())
    (hsame : c.displayIdentity = none ∨ c.displayIdentity = some identity) :
    c.handleEndpoint u jsonLoads (.connected epoch identity) =
      .ok ⟨⟨c.state.online epoch, some identity⟩, [{ kind := .connected, seq := epoch },
         { kind := .identity, seq := identity.generation, payload := identity.encode }], []⟩ := by
  have hpos : 0 < epoch := by omega
  have hkept : decide (c.displayIdentity ≠ none ∧ c.displayIdentity ≠ some identity) = false := by
    rcases hsame with h | h <;> simp [h]
  have hstate : c.state.transportConnected epoch = .ok (c.state.online epoch) := by
    unfold transportConnected
    rw [positiveInteger_of_pos hpos, Checked.ok_bind,
      guardError_pass (decide_eq_false (not_le.mpr hnew))]
    rfl
  unfold handleEndpoint
  simp only [positiveInteger_of_pos hpos, Checked.ok_bind, hvalid, guardError_pass hkept, hstate]
  refine Reply.checked_of_fits fun m hm => ?_
  simp only [List.mem_cons, List.not_mem_nil, or_false] at hm
  rcases hm with rfl | rfl
  · exact ⟨hbound, Nat.zero_le _⟩
  · exact RemoteDisplayIdentity.fits hvalid

theorem handleEndpoint_detached (hconnected : c.state.connected = true) (hpos : 0 < c.state.epoch)
    (hbound : c.state.epoch < 2 ^ 64) :
    c.handleEndpoint u jsonLoads (.detached c.state.epoch []) =
      .ok ⟨{ c with state := c.state.offline }, [{ kind := .detached, seq := c.state.epoch }],
        []⟩ := by
  have hstate : c.state.transportDetached c.state.epoch = .ok c.state.offline := by
    unfold transportDetached
    rw [guardError_pass (by simp [hconnected])]
    rfl
  unfold handleEndpoint
  simp only [positiveInteger_of_pos hpos, Checked.ok_bind, hstate]
  rw [guardError_pass (by rfl), Checked.ok_bind]
  refine Reply.checked_of_fits fun m hm => ?_
  obtain rfl := List.mem_singleton.mp hm
  exact ⟨hbound, Nat.zero_le _⟩

/-- What an announcement must be to be taken. -/
structure TakesAnnouncement (s : ViewerNestedState) (kind : String) (a : StreamAnnouncement) :
    Prop where
  connected : s.connected = true
  first : kind = "announce" → s.sourceRevision = 0
  newer : s.sourceRevision ≤ a.sourceRevision
  same : a.sourceRevision = s.sourceRevision → s.announcement = none ∨ s.announcement = some a

variable {payload : Bytes}

theorem handleEndpoint_announced {kind : String} {seq ack : ℕ} {a : StreamAnnouncement}
    (hkind : kind = "announce" ∨ kind = "reconcile")
    (hdecode : decodeAnnouncement (jsonLoads payload) = .ok a)
    (htakes : TakesAnnouncement c.state kind a) :
    c.handleEndpoint u jsonLoads (.received .control kind seq ack payload) =
      .ok ⟨{ c with state := c.state.announced a },
        [{ kind := .announce, seq := a.sourceRevision, payload := encodeLocalAnnouncement a }],
        []⟩ := by
  have hstate : c.state.receiveControl kind (jsonLoads payload) =
      .ok (c.state.announced a, some a) := by
    unfold receiveControl receiveAnnouncement
    rw [guardError_pass (by simp [htakes.connected]), Checked.ok_bind, if_pos hkind, hdecode,
      Checked.ok_bind]
    rw [guardError_pass, Checked.ok_bind, guardError_pass, Checked.ok_bind, guardError_pass]
    · rfl
    · refine decide_eq_false ?_
      rintro ⟨heq, hsome, hne⟩
      rcases htakes.same heq with h | h
      · exact hsome h
      · exact hne h.symm
    · exact decide_eq_false (not_lt.mpr htakes.newer)
    · refine decide_eq_false ?_
      rintro ⟨hfirst, hne⟩
      exact hne (htakes.first hfirst)
  have hany : Channel.control = .control ∧
      (kind = "announce" ∨ kind = "reconcile" ∨ kind = "source_closed") := by
    rcases hkind with rfl | rfl <;> simp
  show c.handleViewerReceived jsonLoads .control kind seq payload = _
  unfold handleViewerReceived
  rw [if_pos hany, hstate, Checked.ok_bind]
  refine Reply.checked_of_fits fun m hm => ?_
  obtain rfl := List.mem_singleton.mp hm
  exact StreamAnnouncement.fits hdecode

theorem handleEndpoint_sourceClosed {seq ack revision : ℕ} (hconnected : c.state.connected = true)
    (hdecode : decodeSourceClosed (jsonLoads payload) = .ok revision)
    (hnewer : c.state.sourceRevision < revision) (hbound : revision < 2 ^ 64) :
    c.handleEndpoint u jsonLoads (.received .control "source_closed" seq ack payload) =
      .ok ⟨{ c with state := c.state.sourceGone revision },
        [{ kind := .sourceClosed, seq := revision }], []⟩ := by
  have hstate : c.state.receiveControl "source_closed" (jsonLoads payload) =
      .ok (c.state.sourceGone revision, none) := by
    unfold receiveControl receiveSourceClosed
    rw [guardError_pass (by simp [hconnected]), Checked.ok_bind, if_neg (by decide),
      if_pos rfl, hdecode, Checked.ok_bind,
      guardError_pass (decide_eq_false (not_le.mpr hnewer))]
    rfl
  show c.handleViewerReceived jsonLoads .control "source_closed" seq payload = _
  unfold handleViewerReceived
  rw [if_pos (by decide), hstate, Checked.ok_bind]
  refine Reply.checked_of_fits fun m hm => ?_
  obtain rfl := List.mem_singleton.mp hm
  exact ⟨hbound, Nat.zero_le _⟩

/-- What a frame must be to be passed on. -/
structure TakesFrame (s : ViewerNestedState) (seq : ℕ) (payload : Bytes) (f : RawFrame) :
    Prop where
  connected : s.connected = true
  attached : s.attached = true
  next : seq = s.lastMediaSeq + 1
  room : s.decoderPending.length < maxLocalDecodePending
  decoded : RawFrame.decode payload = .ok f
  shown : ∃ a, s.announcement = some a ∧ f.matchesStream a = true

theorem receiveMedia_eq {s : ViewerNestedState} {seq : ℕ} {f : RawFrame}
    (h : TakesFrame s seq payload f) : s.receiveMedia seq payload = .ok (s.delivered seq, f) := by
  obtain ⟨a, ha, hmatches⟩ := h.shown
  have hpos : 0 < seq := by
    rw [h.next]
    omega
  unfold receiveMedia
  simp only [ha]
  rw [guardError_pass (by simp [h.connected, h.attached]), Checked.ok_bind,
    positiveInteger_of_pos hpos, Checked.ok_bind,
    guardError_pass (decide_eq_false (not_not.mpr h.next)), Checked.ok_bind,
    guardError_pass (decide_eq_false (not_le.mpr h.room)), Checked.ok_bind, h.decoded,
    Checked.ok_bind, guardError_pass (by simp [hmatches]), delivered, ha]
  rfl

theorem handleEndpoint_frame {seq ack : ℕ} {f : RawFrame} (h : TakesFrame c.state seq payload f)
    (hbound : seq < 2 ^ 64) :
    c.handleEndpoint u jsonLoads (.received .media "frame_bgrx" seq ack payload) =
      .ok ⟨{ c with state := c.state.delivered seq },
        [{ kind := .frame, seq, payload := f.encode }], []⟩ := by
  show c.handleViewerReceived jsonLoads .media "frame_bgrx" seq payload = _
  unfold handleViewerReceived
  rw [if_neg (by decide), if_pos (by decide), receiveMedia_eq h, Checked.ok_bind]
  refine Reply.checked_of_fits fun m hm => ?_
  obtain rfl := List.mem_singleton.mp hm
  exact RawFrame.fits h.decoded hbound

theorem handleViewerHelper_decoderAck {seq : ℕ} (hacked : c.state.decoderAcked < seq)
    (hsent : seq ≤ c.state.lastMediaSeq) (hpending : seq ∈ c.state.decoderPending) :
    c.handleViewerHelper { kind := .decoderAck, seq } =
      .ok { controller := { c with state := c.state.acknowledged seq }
            toEndpoint := [.send { channel := .control, kind := "media_ack", ack := seq }] } := by
  have hpos : 0 < seq := by omega
  have hstate : c.state.decoderAcknowledged seq =
      .ok (c.state.acknowledged seq, { channel := .control, kind := "media_ack", ack := seq }) := by
    unfold decoderAcknowledged
    rw [positiveInteger_of_pos hpos, Checked.ok_bind, guardError_pass]
    · rfl
    · refine decide_eq_false ?_
      rintro (h | h | h)
      · omega
      · omega
      · exact h hpending
  unfold handleViewerHelper
  simp only [hstate, Checked.ok_bind]
  rfl

theorem handleViewerHelper_closeRequest {seq : ℕ} (henabled : c.state.inputEnabled = true)
    (hpos : 0 < seq) (hrevision : seq = c.state.sourceRevision) :
    ∃ request, c.handleViewerHelper { kind := .closeRequest, seq } =
      .ok { controller := c, toEndpoint := [.send request] } := by
  refine ⟨⟨.control, "close_request", asciiBytes (dumps compactSeps
    (.obj [("source_revision", .int seq)])), 0⟩, ?_⟩
  have hstate : c.state.requestClose seq = .ok ⟨.control, "close_request",
      asciiBytes (dumps compactSeps (.obj [("source_revision", .int seq)])), 0⟩ := by
    unfold requestClose sourceClosedPayload
    rw [guardError_pass (by simp [henabled]), Checked.ok_bind, positiveInteger_of_pos hpos,
      Checked.ok_bind, guardError_pass (decide_eq_false (not_not.mpr hrevision)), Checked.ok_bind,
      positiveInteger_of_pos hpos]
    rfl
  unfold handleViewerHelper
  simp only [hstate, Checked.ok_bind]
  rfl

theorem validateInputEvent_eq_ok {e e' : InputEvent} (h : validateInputEvent e = .ok e') :
    e' = e := by
  cases e with
  | motion x y =>
    simp only [validateInputEvent, Checked.bind_eq_ok] at h
    obtain ⟨x', hx, y', hy, h⟩ := h
    cases h
    obtain ⟨hx, -⟩ := integer_eq_ok hx
    obtain ⟨hy, -⟩ := integer_eq_ok hy
    injection hx with hx
    injection hy with hy
    rw [hx, hy]
  | button code pressed =>
    simp only [validateInputEvent, Checked.bind_eq_ok] at h
    obtain ⟨code', hcode, h⟩ := h
    cases h
    obtain ⟨hcode, -⟩ := integer_eq_ok hcode
    injection hcode with hcode
    rw [hcode]
  | key code pressed =>
    simp only [validateInputEvent, Checked.bind_eq_ok] at h
    obtain ⟨code', hcode, h⟩ := h
    cases h
    obtain ⟨hcode, -⟩ := integer_eq_ok hcode
    injection hcode with hcode
    rw [hcode]
  | axis which value =>
    simp only [validateInputEvent, Checked.bind_eq_ok] at h
    obtain ⟨which', hwhich, value', hvalue, h⟩ := h
    cases h
    obtain ⟨hwhich, -⟩ := integer_eq_ok hwhich
    obtain ⟨hvalue, -⟩ := integer_eq_ok hvalue
    injection hwhich with hwhich
    injection hvalue with hvalue
    rw [hwhich, hvalue]
  | focus focused =>
    cases h
    rfl

theorem decodeLocalInputEvent_valid {kind : InputKind} {e : InputEvent}
    (h : decodeLocalInputEvent kind payload = .ok e) : validateInputEvent e = .ok e := by
  have hvalid : ∀ e', validateInputEvent e' = .ok e → validateInputEvent e = .ok e := by
    intro e' h
    cases validateInputEvent_eq_ok h
    exact h
  unfold decodeLocalInputEvent at h
  split at h
  · exact hvalid _ h
  · obtain ⟨_, -, h⟩ := Checked.bind_eq_ok.mp h
    exact hvalid _ h
  · obtain ⟨_, -, h⟩ := Checked.bind_eq_ok.mp h
    exact hvalid _ h
  · exact hvalid _ h
  · obtain ⟨_, -, h⟩ := Checked.bind_eq_ok.mp h
    exact hvalid _ h
  · cases h

theorem handleViewerHelper_input {kind : InputKind} {seq : ℕ} {e : InputEvent}
    (henabled : c.state.inputEnabled = true)
    (hdecode : decodeLocalInputEvent kind payload = .ok e) :
    ∃ request, c.handleViewerHelper { kind := .input kind, seq, payload } =
      .ok { controller := c, toEndpoint := [.send request] } := by
  refine ⟨⟨.input, kind.name, asciiBytes (dumpsSorted compactSeps e.json), 0⟩, ?_⟩
  have hstate : c.state.sendInput kind e =
      .ok ⟨.input, kind.name, asciiBytes (dumpsSorted compactSeps e.json), 0⟩ := by
    unfold sendInput encodeInputEvent
    rw [guardError_pass (by simp [henabled]), Checked.ok_bind, decodeLocalInputEvent_valid hdecode]
    rfl
  unfold handleViewerHelper
  simp only [hdecode, hstate, Checked.ok_bind]
  rfl

end Controller

end RemoteNested
