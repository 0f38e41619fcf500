/-
# The local protocol of the remote nested adapter

`remote_nested_protocol`: the messages between a controller and its C helper, the stream
announcement, the raw frame and the semantic input events, with the validation each of
them goes through.

Bytes are `List UInt8`.  What `json.loads` makes of a byte string is a parameter of the
readers that use it, because the library guesses the encoding of its argument; `none`
stands for a byte string it rejects.
-/
import QDistro.JsonText
import Mathlib.Algebra.Group.Int.Defs

open JsonText

namespace RemoteNested

abbrev Bytes := List UInt8

/-! ## Errors -/

/-- `RemoteAdapterError` and its subclasses. -/
inductive ErrorKind where
  | adapter
  | authentication
  | replay
  | flowControl
  deriving DecidableEq, Repr

structure RemoteError where
  kind : ErrorKind
  message : String
  deriving DecidableEq, Repr

abbrev Checked := Except RemoteError

/-- `raise RemoteAdapterError(message)` -/
def reject {α : Type} (message : String) : Checked α := .error ⟨.adapter, message⟩

/-- `if bad: raise ...` -/
def guardError (bad : Bool) (kind : ErrorKind) (message : String) : Checked Unit :=
  if bad then .error ⟨kind, message⟩ else .ok ()

/-! ## Bytes -/

/-- A big-endian unsigned integer of a `struct` format. -/
def unsigned (b : Bytes) : ℕ := b.foldl (fun n x => 256 * n + x.toNat) 0

/-- A big-endian signed integer of four bytes. -/
def signed32 (b : Bytes) : ℤ :=
  if unsigned b < 2 ^ 31 then unsigned b else (unsigned b : ℤ) - 2 ^ 32

/-- A big-endian unsigned integer of `width` bytes. -/
def pack : ℕ → ℕ → Bytes
  | 0, _ => []
  | width + 1, n => pack width (n / 256) ++ [UInt8.ofNat (n % 256)]

@[simp] theorem length_pack (width n : ℕ) : (pack width n).length = width := by
  induction width generalizing n with
  | zero => rfl
  | succ width ih => simp [pack, ih]

/-- The bytes of an ASCII text. -/
def asciiBytes (t : List Char) : Bytes := t.map fun c => UInt8.ofNat c.toNat

/-- `json.loads` of an ASCII byte string. -/
def asciiLoads (b : Bytes) : Option Json := loads (b.map fun x => Char.ofNat x.toNat)

/-- `text.encode("utf-8")` -/
def utf8Bytes (s : String) : Bytes := s.toList.flatMap String.utf8EncodeChar

/-! ## Numbers and texts -/

/-- `_positive_integer` -/
def positiveInteger (label : String) : Json → Checked ℕ
  | .int (.ofNat (n + 1)) => .ok (n + 1)
  | _ => reject s!"{label} must be a positive integer"

/-- `_integer` -/
def integer (label : String) (minimum maximum : ℤ) : Json → Checked ℤ
  | .int n =>
    if n < minimum ∨ maximum < n then
      reject s!"{label} must be an integer in {minimum}..{maximum}"
    else .ok n
  | _ => reject s!"{label} must be an integer in {minimum}..{maximum}"

def maxTextBytes : ℕ := 4096

/-- `_text` -/
def text (label : String) (allowEmpty : Bool) : Json → Checked String
  | .str s =>
    if (!allowEmpty && s.toList.isEmpty) || maxTextBytes < (utf8Bytes s).length then
      reject s!"{label} length is out of bounds"
    else if s.toList.any fun c => c.toNat < 0x20 || c.toNat == 0x7f then
      reject s!"{label} contains control characters"
    else .ok s
  | _ => reject s!"{label} must be a string"

/-- A character of `[A-Za-z0-9]`. -/
def isAlnum (c : Char) : Bool := c.isAlpha || c.isDigit

/-- Full match of `[A-Za-z0-9][class]{0,extra}`. -/
def matchName (inClass : Char → Bool) (extra : ℕ) (s : String) : Bool :=
  match s.toList with
  | [] => false
  | c :: rest => isAlnum c && rest.all inClass && rest.length ≤ extra

/-- `_APP_ID` -/
def matchAppId : String → Bool :=
  matchName (fun c => isAlnum c || c == '.' || c == '_' || c == '-') 255

/-- `_IDENTITY` -/
def matchIdentity : String → Bool :=
  matchName (fun c => isAlnum c || c == '.' || c == '_' || c == ':' || c == '-') 127

/-- `_STREAM_ID` -/
def matchStreamId (s : String) : Bool :=
  s.toList.all (fun c => isAlnum c || c == '_' || c == '-') &&
    16 ≤ s.toList.length && s.toList.length ≤ 128

/-! ## Channels -/

inductive Channel where
  | control
  | media
  | input
  deriving DecidableEq, Repr

/-- `CHANNEL_PAYLOAD_LIMITS` -/
def Channel.payloadLimit : Channel → ℕ
  | .control => 64 * 1024
  | .input => 4 * 1024
  | .media => 3 * 1024 * 1024

/-! ## Input events -/

/-- `INPUT_KINDS` -/
inductive InputKind where
  | motion
  | button
  | key
  | axis
  | focus
  deriving DecidableEq, Repr

def InputKind.name : InputKind → String
  | .motion => "motion"
  | .button => "button"
  | .key => "key"
  | .axis => "axis"
  | .focus => "focus"

/-- The mapping of an input event, with the fields its kind prescribes. -/
inductive InputEvent where
  | motion (xFixed yFixed : ℤ)
  | button (code : ℤ) (pressed : Bool)
  | key (code : ℤ) (pressed : Bool)
  | axis (axis valueFixed : ℤ)
  | focus (focused : Bool)
  deriving DecidableEq, Repr

/-- `validate_input_event` on an event with the fields of its kind. -/
def validateInputEvent : InputEvent → Checked InputEvent
  | .motion x y => do
    let x ← integer "motion x_fixed" (-(2 ^ 31)) (2 ^ 31 - 1) (.int x)
    let y ← integer "motion y_fixed" (-(2 ^ 31)) (2 ^ 31 - 1) (.int y)
    return .motion x y
  | .button code pressed => do
    let code ← integer "button code" 1 0xffff (.int code)
    return .button code pressed
  | .key code pressed => do
    let code ← integer "key code" 1 0xffff (.int code)
    return .key code pressed
  | .axis axis value => do
    let axis ← integer "axis" 0 1 (.int axis)
    let value ← integer "axis value_fixed" (-(2 ^ 31)) (2 ^ 31 - 1) (.int value)
    return .axis axis value
  | .focus focused => .ok (.focus focused)

/-- The mapping as a JSON object. -/
def InputEvent.json : InputEvent → Json
  | .motion x y => .obj [("x_fixed", .int x), ("y_fixed", .int y)]
  | .button code pressed | .key code pressed =>
    .obj [("code", .int code), ("pressed", .bool pressed)]
  | .axis which value => .obj [("axis", .int which), ("value_fixed", .int value)]
  | .focus focused => .obj [("focused", .bool focused)]

/-- `encode_input_event` -/
def encodeInputEvent (event : InputEvent) : Checked Bytes := do
  let event ← validateInputEvent event
  return asciiBytes (dumpsSorted compactSeps event.json)

/-- The flag byte of a fixed-width record. -/
def flag (message : String) (b : UInt8) : Checked Bool :=
  if b = 0 then .ok false else if b = 1 then .ok true else reject message

/-- `decode_local_input_event`: the records `!ii`, `!IB3x`, `!Ii` and `!B3x`. -/
def decodeLocalInputEvent (kind : InputKind) (payload : Bytes) : Checked InputEvent :=
  match kind, payload with
  | .motion, [a, b, c, d, e, f, g, h] =>
    validateInputEvent (.motion (signed32 [a, b, c, d]) (signed32 [e, f, g, h]))
  | .button, [a, b, c, d, p, _, _, _] => do
    let pressed ← flag "local input pressed flag is invalid" p
    validateInputEvent (.button (unsigned [a, b, c, d]) pressed)
  | .key, [a, b, c, d, p, _, _, _] => do
    let pressed ← flag "local input pressed flag is invalid" p
    validateInputEvent (.key (unsigned [a, b, c, d]) pressed)
  | .axis, [a, b, c, d, e, f, g, h] =>
    validateInputEvent (.axis (unsigned [a, b, c, d]) (signed32 [e, f, g, h]))
  | .focus, [p, _, _, _] => do
    let focused ← flag "local input focus flag is invalid" p
    validateInputEvent (.focus focused)
  | _, _ => reject "local input payload length is invalid"

/-! ## Stream announcements -/

/-- A validated `StreamAnnouncement`. -/
structure StreamAnnouncement where
  sourceRevision : ℕ
  width : ℕ
  height : ℕ
  stride : ℕ
  appId : String
  title : String
  deriving DecidableEq, Repr

def streamSchema : String := "qdistro-mm-nested-stream-v1"

def pixelFormat : String := "BGRx"

def maxDimension : ℕ := 8192

/-- `FRAME_HEADER.size` -/
def frameHeaderSize : ℕ := 24

/-- `set(value) == fields` for a dictionary. -/
def hasExactly (fields : List (String × Json)) (names : List String) : Bool :=
  fields.all (fun f => names.elem f.1) && names.all fun n => (fields.map Prod.fst).elem n

/-- `value[name]` of a field known to be there. -/
def field (fields : List (String × Json)) (name : String) : Json :=
  (PyDict.lookup fields name).getD .null

/-- Whether a JSON value is this string. -/
def isStr (v : Json) (s : String) : Bool :=
  match v with
  | .str t => t == s
  | _ => false

/-- `StreamAnnouncement.validate` on the fields of a decoded announcement. -/
def validateAnnouncement (fields : List (String × Json)) : Checked StreamAnnouncement := do
  let revision ← integer "source_revision" 1 (2 ^ 63 - 1) (field fields "source_revision")
  let width ← integer "width" 1 maxDimension (field fields "width")
  let height ← integer "height" 1 maxDimension (field fields "height")
  let stride ← integer "stride" 4 (maxDimension * 4) (field fields "stride")
  guardError (stride ≠ width * 4) .adapter "BGRx stride must equal width * 4"
  guardError (height * stride + frameHeaderSize > Channel.media.payloadLimit) .adapter
    "announced frame exceeds media limit"
  let appId ← text "app_id" false (field fields "app_id")
  guardError (!matchAppId appId) .adapter "app_id has invalid syntax"
  let title ← text "title" true (field fields "title")
  return ⟨revision.toNat, width.toNat, height.toNat, stride.toNat, appId, title⟩

/-- `encode_local_announcement`: the record `!4sBBHQIIIHH` and the two texts. -/
def encodeLocalAnnouncement (a : StreamAnnouncement) : Bytes :=
  asciiBytes "QDMA".toList ++ [1, 1, 0, 0] ++ pack 8 a.sourceRevision ++ pack 4 a.width ++
    pack 4 a.height ++ pack 4 a.stride ++ pack 2 (utf8Bytes a.appId).length ++
    pack 2 (utf8Bytes a.title).length ++ utf8Bytes a.appId ++ utf8Bytes a.title

/-- `StreamAnnouncement.decode` on what `json.loads` made of the payload. -/
def decodeAnnouncement : Option Json → Checked StreamAnnouncement
  | none => reject "stream announcement is not JSON"
  | some (.obj fields) => do
    guardError (!hasExactly fields ["schema", "source_revision", "width", "height", "stride",
      "pixel_format", "app_id", "title"]) .adapter
      "stream announcement fields do not match schema"
    guardError (!isStr (field fields "schema") streamSchema) .adapter
      "unsupported stream announcement schema"
    guardError (!isStr (field fields "pixel_format") pixelFormat) .adapter
      "unsupported stream pixel format"
    validateAnnouncement fields
  | some _ => reject "stream announcement must be a JSON object"

/-- `_decode_source_closed` on what `json.loads` made of the payload. -/
def decodeSourceClosed : Option Json → Checked ℕ
  | none => reject "source_closed payload is not JSON"
  | some (.obj fields) => do
    guardError (!hasExactly fields ["source_revision"]) .adapter
      "source_closed fields do not match schema"
    positiveInteger "source_revision" (field fields "source_revision")
  | some _ => reject "source_closed fields do not match schema"

/-- `_source_closed_payload` -/
def sourceClosedPayload (sourceRevision : ℕ) : Checked Bytes := do
  let revision ← positiveInteger "source_revision" (.int sourceRevision)
  return asciiBytes (dumps compactSeps (.obj [("source_revision", .int revision)]))

/-! ## Frames -/

/-- A validated `RawFrame`. -/
structure RawFrame where
  width : ℕ
  height : ℕ
  stride : ℕ
  pixels : Bytes
  deriving DecidableEq, Repr

/-- `RawFrame.validate` -/
def RawFrame.validate (f : RawFrame) : Checked Unit := do
  let width ← integer "frame width" 1 maxDimension (.int f.width)
  let height ← integer "frame height" 1 maxDimension (.int f.height)
  let stride ← integer "frame stride" 4 (maxDimension * 4) (.int f.stride)
  guardError (stride ≠ width * 4) .adapter "BGRx frame stride must equal width * 4"
  guardError (f.pixels.length ≠ height * stride) .adapter
    "BGRx frame payload size does not match geometry"
  guardError (frameHeaderSize + f.pixels.length > Channel.media.payloadLimit) .adapter
    "frame packet exceeds media limit"

/-- `RawFrame.encode` of a validated frame: the header `!4sBBHIIII` and the pixels. -/
def RawFrame.encode (f : RawFrame) : Bytes :=
  asciiBytes "QDMF".toList ++ [1, 1, 0, 0] ++ pack 4 f.width ++ pack 4 f.height ++
    pack 4 f.stride ++ pack 4 f.pixels.length ++ f.pixels

/-- `RawFrame.decode`: the header `!4sBBHIIII` and the pixels. -/
def RawFrame.decode (payload : Bytes) : Checked RawFrame := do
  guardError (payload.length < frameHeaderSize) .adapter "frame packet is truncated"
  let header := payload.take frameHeaderSize
  guardError (header.take 4 ≠ asciiBytes "QDMF".toList ∨ (header.drop 4).take 1 ≠ [1]) .adapter
    "unsupported frame packet"
  guardError ((header.drop 5).take 1 ≠ [1] ∨ (header.drop 6).take 2 ≠ [0, 0]) .adapter
    "unsupported frame packet format or flags"
  guardError (unsigned ((header.drop 20).take 4) ≠ payload.length - frameHeaderSize) .adapter
    "frame packet length does not match header"
  let frame : RawFrame :=
    ⟨unsigned ((header.drop 8).take 4), unsigned ((header.drop 12).take 4),
      unsigned ((header.drop 16).take 4), payload.drop frameHeaderSize⟩
  frame.validate
  return frame

/-- `RawFrame.matches` -/
def RawFrame.matchesStream (f : RawFrame) (a : StreamAnnouncement) : Bool :=
  f.width == a.width && f.height == a.height && f.stride == a.stride

/-! ## Identities -/

/-- `RemoteDisplayIdentity` -/
structure RemoteDisplayIdentity where
  sourceMachine : String
  trustDomainId : String
  streamId : String
  generation : ℕ
  deriving DecidableEq, Repr

/-- `RemoteDisplayIdentity.validate` -/
def RemoteDisplayIdentity.validate (u : UnicodeDb) (i : RemoteDisplayIdentity) :
    Checked Unit := do
  guardError (!matchIdentity i.sourceMachine) .adapter
    s!"invalid display source_machine {PyText.pyRepr u i.sourceMachine}"
  guardError (!matchIdentity i.trustDomainId) .adapter
    s!"invalid display trust_domain_id {PyText.pyRepr u i.trustDomainId}"
  guardError (!matchStreamId i.streamId) .adapter
    s!"invalid display stream_id {PyText.pyRepr u i.streamId}"
  let _ ← integer "display generation" 1 (2 ^ 64 - 1) (.int i.generation)

/-- `RemoteDisplayIdentity.encode` of a validated identity: the record `!4sBBQHHH` and the
three names. -/
def RemoteDisplayIdentity.encode (i : RemoteDisplayIdentity) : Bytes :=
  asciiBytes "QDMI".toList ++ [1, 0] ++ pack 8 i.generation ++
    pack 2 (utf8Bytes i.sourceMachine).length ++ pack 2 (utf8Bytes i.trustDomainId).length ++
    pack 2 (utf8Bytes i.streamId).length ++ utf8Bytes i.sourceMachine ++
    utf8Bytes i.trustDomainId ++ utf8Bytes i.streamId

/-! ## Messages of the C helper -/

/-- `LOCAL_MESSAGE_TYPES` -/
inductive LocalKind where
  | connected
  | announce
  | frame
  | sourceClosed
  | decoderAck
  | mediaAck
  | input (kind : InputKind)
  | detached
  | dropTransport
  | shutdown
  | closeRequest
  | identity
  deriving DecidableEq, Repr

/-- `_LOCAL_MESSAGE_NAMES` -/
def LocalKind.ofId : ℕ → Option LocalKind
  | 1 => some .connected
  | 2 => some .announce
  | 3 => some .frame
  | 4 => some .sourceClosed
  | 5 => some .decoderAck
  | 6 => some .mediaAck
  | 7 => some (.input .motion)
  | 8 => some (.input .button)
  | 9 => some (.input .key)
  | 10 => some (.input .axis)
  | 11 => some (.input .focus)
  | 12 => some .detached
  | 13 => some .dropTransport
  | 14 => some .shutdown
  | 15 => some .closeRequest
  | 16 => some .identity
  | _ => none

/-- `LocalBoundaryMessage` -/
structure LocalBoundaryMessage where
  kind : LocalKind
  seq : ℕ := 0
  payload : Bytes := []
  deriving DecidableEq, Repr

/-- The checks of `LocalBoundaryMessage.encode`. -/
def LocalBoundaryMessage.check (m : LocalBoundaryMessage) : Checked Unit := do
  guardError (m.seq > 2 ^ 64 - 1) .adapter "local boundary sequence is out of bounds"
  guardError (m.payload.length > Channel.media.payloadLimit) .adapter
    "local boundary payload exceeds limit"

/-- `LocalBoundaryMessage.decode`: the header `!4sBBHQ` and the payload. -/
def LocalBoundaryMessage.decode (payload : Bytes) : Checked LocalBoundaryMessage := do
  guardError (payload.length < 16) .adapter "local boundary message is truncated"
  guardError (payload.take 4 ≠ asciiBytes "QDML".toList ∨ (payload.drop 4).take 1 ≠ [1] ∨
    (payload.drop 6).take 2 ≠ [0, 0]) .adapter "unsupported local boundary message"
  match LocalKind.ofId (unsigned ((payload.drop 5).take 1)) with
  | none => reject "unknown local boundary message kind"
  | some kind =>
    let message : LocalBoundaryMessage :=
      ⟨kind, unsigned ((payload.drop 8).take 8), payload.drop 16⟩
    message.check
    return message

end RemoteNested
