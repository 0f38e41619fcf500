/-
# Local records, both ways

The rest of `remote_nested_protocol`: the source helper's configuration, the decoders of the
records that a C helper writes, and the encoders of those it reads.  A record is a header of
fixed-width big-endian fields followed by texts whose lengths the header states.

A record that was encoded decodes to what it was made from (`RawFrame.decode_encode` and its
siblings).
-/
import QDistro.ViewerReplies

open JsonText

namespace RemoteNested

/-! ## Texts -/

/-- `payload.decode("utf-8")` -/
def utf8Decode (b : Bytes) : Option String :=
  b.toByteArray.utf8Decode?.map fun chars => String.ofList chars.toList

/-- `payload.decode("ascii")` -/
def asciiDecode (b : Bytes) : Option String :=
  if b.all (· < 128) then some (String.ofList (b.map fun x => Char.ofNat x.toNat)) else none

theorem utf8Decode_utf8Bytes (s : String) : utf8Decode (utf8Bytes s) = some s := by
  show (s.toList.utf8Encode.utf8Decode?).map (fun chars => String.ofList chars.toList) = some s
  rw [List.utf8Decode?_utf8Encode]
  simp

/-! ## Announcements -/

namespace StreamAnnouncement

/-- The fields that `validate` looks at. -/
def fields (a : StreamAnnouncement) : List (String × Json) :=
  [("source_revision", .int a.sourceRevision), ("width", .int a.width), ("height", .int a.height),
    ("stride", .int a.stride), ("app_id", .str a.appId), ("title", .str a.title)]

/-- `StreamAnnouncement.validate` -/
def validate (a : StreamAnnouncement) : Checked Unit := do
  discard (validateAnnouncement a.fields)

/-- `StreamAnnouncement.encode` of a validated announcement. -/
def encode (a : StreamAnnouncement) : Bytes :=
  asciiBytes (dumpsSorted compactSeps (.obj
    ([("schema", Json.str streamSchema), ("pixel_format", Json.str pixelFormat)] ++ a.fields)))

end StreamAnnouncement

/-- What a valid announcement satisfies. -/
structure StreamAnnouncement.Valid (a : StreamAnnouncement) : Prop where
  revision : 1 ≤ a.sourceRevision ∧ a.sourceRevision < 2 ^ 63
  width : 1 ≤ a.width ∧ a.width ≤ maxDimension
  height : 1 ≤ a.height ∧ a.height ≤ maxDimension
  stride : a.stride = a.width * 4
  limit : a.height * a.stride + frameHeaderSize ≤ Channel.media.payloadLimit
  appId : text "app_id" false (.str a.appId) = .ok a.appId
  name : matchAppId a.appId = true
  title : text "title" true (.str a.title) = .ok a.title

theorem StreamAnnouncement.validate_eq_ok {a : StreamAnnouncement} (h : a.validate = .ok ()) :
    a.Valid := by
  obtain ⟨_, h, -⟩ := Checked.bind_eq_ok.mp h
  simp only [validateAnnouncement, Checked.bind_eq_ok, guardError_eq_ok, decide_eq_false_iff_not,
    not_not, not_lt, Bool.not_eq_false'] at h
  obtain ⟨revision, hrevision, width, hwidth, height, hheight, stride, hstride, _, hrow, _, hlimit,
    appId, happ, _, hname, title, htitle, -⟩ := h
  obtain ⟨hr, hr1, hr2⟩ := integer_eq_ok hrevision
  obtain ⟨hw, hw1, hw2⟩ := integer_eq_ok hwidth
  obtain ⟨hh, hh1, hh2⟩ := integer_eq_ok hheight
  obtain ⟨hs, -, -⟩ := integer_eq_ok hstride
  have happ' : Json.str a.appId = .str appId := (text_eq_ok happ).1
  have htitle' : Json.str a.title = .str title := (text_eq_ok htitle).1
  injection (show Json.int a.sourceRevision = .int revision from hr) with hr
  injection (show Json.int a.width = .int width from hw) with hw
  injection (show Json.int a.height = .int height from hh) with hh
  injection (show Json.int a.stride = .int stride from hs) with hs
  injection happ' with happ'
  injection htitle' with htitle'
  subst hr hw hh hs happ' htitle'
  refine ⟨by omega, by omega, by omega, by omega, ?_, happ, hname, htitle⟩
  exact_mod_cast hlimit

theorem StreamAnnouncement.Valid.validate {a : StreamAnnouncement} (h : a.Valid) :
    a.validate = .ok () := by
  obtain ⟨hr, hw, hh, hs, hlimit, happ, hname, htitle⟩ := h
  have hmax : maxDimension = 8192 := rfl
  have hfields : validateAnnouncement a.fields = .ok a := by
    unfold validateAnnouncement
    have h1 : field a.fields "source_revision" = .int a.sourceRevision := rfl
    have h2 : field a.fields "width" = .int a.width := rfl
    have h3 : field a.fields "height" = .int a.height := rfl
    have h4 : field a.fields "stride" = .int a.stride := rfl
    have h5 : field a.fields "app_id" = .str a.appId := rfl
    have h6 : field a.fields "title" = .str a.title := rfl
    rw [h1, h2, h3, h4, h5, h6, integer_of_bounds (by omega) (by omega), Checked.ok_bind,
      integer_of_bounds (by omega) (by omega), Checked.ok_bind,
      integer_of_bounds (by omega) (by omega), Checked.ok_bind,
      integer_of_bounds (by omega) (by omega), Checked.ok_bind,
      guardError_pass (decide_eq_false (by omega)), Checked.ok_bind, guardError_pass, Checked.ok_bind,
      happ, Checked.ok_bind, guardError_pass (by rw [hname]; rfl), Checked.ok_bind, htitle]
    · rfl
    · refine decide_eq_false (not_lt.mpr ?_)
      exact_mod_cast hlimit
  unfold StreamAnnouncement.validate
  rw [hfields]
  rfl

/-- `decode_local_announcement`: the header `!4sBBHQIIIHH` and the two texts. -/
def decodeLocalAnnouncement (payload : Bytes) : Checked StreamAnnouncement := do
  guardError (payload.length < 32) .adapter "local announcement is truncated"
  guardError (payload.take 4 ≠ asciiBytes "QDMA".toList ∨ (payload.drop 4).take 4 ≠ [1, 1, 0, 0])
    .adapter "unsupported local announcement"
  let appLen := unsigned ((payload.drop 28).take 2)
  let titleLen := unsigned ((payload.drop 30).take 2)
  guardError (appLen + titleLen ≠ payload.length - 32) .adapter
    "local announcement length does not match header"
  match utf8Decode ((payload.drop 32).take appLen), utf8Decode (payload.drop (32 + appLen)) with
  | some appId, some title =>
    let announcement : StreamAnnouncement :=
      ⟨unsigned ((payload.drop 8).take 8), unsigned ((payload.drop 16).take 4),
        unsigned ((payload.drop 20).take 4), unsigned ((payload.drop 24).take 4), appId, title⟩
    announcement.validate
    return announcement
  | _, _ => reject "local announcement text is not UTF-8"

/-! ## Source configuration -/

/-- `SourceHelperConfig` -/
structure SourceHelperConfig where
  sourceRevision : ℕ
  pwNode : String
  inputSink : String
  appId : String
  title : String
  deriving DecidableEq, Repr

/-- A character of `[0-9]`. -/
def isNumeral (c : Char) : Bool := decide ('0' ≤ c) && decide (c ≤ '9')

/-- What follows a fixed text. -/
def afterText (text : String) (s : List Char) : Option (List Char) :=
  if text.toList.isPrefixOf s then some (s.drop text.toList.length) else none

/-- Full match of `[1-9][0-9]*`. -/
def isPositiveDecimal (s : List Char) : Bool :=
  match s with
  | [] => false
  | c :: rest => isNumeral c && c != '0' && rest.all isNumeral

/-- `_PW_NODE`: the prefix, a number of up to ten digits, a colon and a name. -/
def matchPwNode (s : String) : Bool :=
  match afterText "weston.pipewire:" s.toList with
  | none => false
  | some rest =>
    let digits := rest.takeWhile isNumeral
    isPositiveDecimal digits && decide (digits.length ≤ 10) &&
      match rest.dropWhile isNumeral with
      | ':' :: name =>
        matchName (fun c => isAlnum c || c == '.' || c == '_' || c == '-') 63
          (String.ofList name)
      | _ => false

/-- The last component of a sink: `qdwin-nested-input-[1-9][0-9]*-[1-9][0-9]*\.sock`. -/
def matchSinkName (name : List Char) : Bool :=
  match afterText "qdwin-nested-input-" name with
  | none => false
  | some rest =>
    isPositiveDecimal (rest.takeWhile isNumeral) &&
      match rest.dropWhile isNumeral with
      | '-' :: rest =>
        isPositiveDecimal (rest.takeWhile isNumeral) &&
          rest.dropWhile isNumeral == ".sock".toList
      | _ => false

/-- Whether some suffix that starts with a slash is a sink name; `.` does not match a newline. -/
def sinkAfterSlash : List Char → Bool
  | [] => false
  | c :: rest => (c == '/' && matchSinkName rest) || (c != '\n' && sinkAfterSlash rest)

/-- `_INPUT_SINK` -/
def matchInputSink (s : String) : Bool :=
  match s.toList with
  | '/' :: rest => sinkAfterSlash rest
  | _ => false

/-- `"/../" in value or value.endswith("/..")` -/
def climbs : List Char → Bool
  | [] => false
  | c :: rest =>
    (c == '/' && (rest == ['.', '.'] || ['.', '.', '/'].isPrefixOf rest)) || climbs rest

/-- `len(value.encode("ascii", errors="ignore")) == len(value)` -/
def isAsciiText (s : String) : Bool := s.toList.all fun c => decide (c.toNat < 128)

namespace SourceHelperConfig

/-- `SourceHelperConfig.validate` -/
def validate (c : SourceHelperConfig) : Checked Unit := do
  let _ ← integer "source_revision" 1 (2 ^ 63 - 1) (.int c.sourceRevision)
  let pwNode ← text "pw_node" false (.str c.pwNode)
  guardError (!isAsciiText pwNode) .adapter "pw_node must be ASCII"
  guardError (decide (pwNode.toList.length > 128) || !matchPwNode pwNode) .adapter
    "pw_node has invalid syntax"
  let inputSink ← text "input_sink" false (.str c.inputSink)
  guardError (!isAsciiText inputSink || decide (inputSink.toList.length > 107) ||
    !matchInputSink inputSink || climbs inputSink.toList) .adapter "input_sink has invalid syntax"
  let appId ← text "app_id" false (.str c.appId)
  guardError (!matchAppId appId) .adapter "app_id has invalid syntax"
  discard (text "title" true (.str c.title))

/-- `SourceHelperConfig.encode` of a validated configuration: the header `!4sBBHQHHHH` and the
four texts. -/
def encode (c : SourceHelperConfig) : Bytes :=
  asciiBytes "QDMS".toList ++ [1, 0, 0, 0] ++ pack 8 c.sourceRevision ++
    pack 2 (utf8Bytes c.pwNode).length ++ pack 2 (utf8Bytes c.inputSink).length ++
    pack 2 (utf8Bytes c.appId).length ++ pack 2 (utf8Bytes c.title).length ++
    utf8Bytes c.pwNode ++ utf8Bytes c.inputSink ++ utf8Bytes c.appId ++ utf8Bytes c.title

end SourceHelperConfig

/-! ## Input events -/

/-- A kind of input by its name. -/
def InputKind.ofName (name : String) : Option InputKind :=
  if name = "motion" then some .motion
  else if name = "button" then some .button
  else if name = "key" then some .key
  else if name = "axis" then some .axis
  else if name = "focus" then some .focus
  else none

/-- The kind of an event. -/
def InputEvent.kind : InputEvent → InputKind
  | .motion _ _ => .motion
  | .button _ _ => .button
  | .key _ _ => .key
  | .axis _ _ => .axis
  | .focus _ => .focus

/-- The press of a button or a key: `_integer` for the code, then a boolean. -/
def pressOf (name : String) (fields : List (String × Json)) : Checked (ℤ × Bool) := do
  guardError (!hasExactly fields ["code", "pressed"]) .adapter
    s!"{name} input fields do not match schema"
  let code ← integer s!"{name} code" 1 0xffff (field fields "code")
  match field fields "pressed" with
  | .bool pressed => return (code, pressed)
  | _ => reject s!"{name} pressed must be boolean"

/-- `validate_input_event` on a mapping. -/
def inputEventOf (kind : InputKind) (fields : List (String × Json)) : Checked InputEvent :=
  match kind with
  | .key => do
    let (code, pressed) ← pressOf "key" fields
    return .key code pressed
  | .button => do
    let (code, pressed) ← pressOf "button" fields
    return .button code pressed
  | .motion => do
    guardError (!hasExactly fields ["x_fixed", "y_fixed"]) .adapter
      "motion input fields do not match schema"
    let x ← integer "motion x_fixed" (-(2 ^ 31)) (2 ^ 31 - 1) (field fields "x_fixed")
    let y ← integer "motion y_fixed" (-(2 ^ 31)) (2 ^ 31 - 1) (field fields "y_fixed")
    return .motion x y
  | .axis => do
    guardError (!hasExactly fields ["axis", "value_fixed"]) .adapter
      "axis input fields do not match schema"
    let which ← integer "axis" 0 1 (field fields "axis")
    let value ← integer "axis value_fixed" (-(2 ^ 31)) (2 ^ 31 - 1) (field fields "value_fixed")
    return .axis which value
  | .focus =>
    match hasExactly fields ["focused"], field fields "focused" with
    | true, .bool focused => .ok (.focus focused)
    | _, _ => reject "focus input fields do not match schema"

/-- `decode_input_event` on what `json.loads` made of the payload. -/
def decodeInputEvent (kind : String) : Option Json → Checked InputEvent
  | none => reject "input event is not JSON"
  | some (.obj fields) =>
    match InputKind.ofName kind with
    | none => reject "unsupported nested input kind"
    | some kind => inputEventOf kind fields
  | some _ => reject "input event must be a JSON object"

/-- A four-byte two's complement field, of a number in its range. -/
def packSigned (n : ℤ) : Bytes := pack 4 (n % 2 ^ 32).toNat

/-- `encode_local_input_event` of a validated event. -/
def encodeLocalInputEvent : InputEvent → Bytes
  | .motion x y => packSigned x ++ packSigned y
  | .button code pressed | .key code pressed =>
    pack 4 code.toNat ++ [if pressed then 1 else 0, 0, 0, 0]
  | .axis which value => pack 4 which.toNat ++ packSigned value
  | .focus focused => [if focused then 1 else 0, 0, 0, 0]

/-! ## Messages -/

/-- `LOCAL_MESSAGE_TYPES` -/
def LocalKind.id : LocalKind → UInt8
  | .connected => 1
  | .announce => 2
  | .frame => 3
  | .sourceClosed => 4
  | .decoderAck => 5
  | .mediaAck => 6
  | .input .motion => 7
  | .input .button => 8
  | .input .key => 9
  | .input .axis => 10
  | .input .focus => 11
  | .detached => 12
  | .dropTransport => 13
  | .shutdown => 14
  | .closeRequest => 15
  | .identity => 16

/-- The bytes of `LocalBoundaryMessage.encode`, once it has been checked. -/
def LocalBoundaryMessage.bytes (m : LocalBoundaryMessage) : Bytes :=
  asciiBytes "QDML".toList ++ [1, m.kind.id, 0, 0] ++ pack 8 m.seq ++ m.payload

/-- `LocalBoundaryMessage.encode` -/
def LocalBoundaryMessage.encode (m : LocalBoundaryMessage) : Checked Bytes := do
  m.check
  return m.bytes

/-! ## Big-endian fields -/

theorem unsigned_append (a : Bytes) (x : UInt8) : unsigned (a ++ [x]) = 256 * unsigned a + x.toNat := by
  simp [unsigned]

theorem unsigned_pack {width n : ℕ} (h : n < 256 ^ width) : unsigned (pack width n) = n := by
  induction width generalizing n with
  | zero =>
    have hzero : n = 0 := by simpa using h
    subst hzero
    rfl
  | succ width ih =>
    have hdiv : n / 256 < 256 ^ width := by
      rw [Nat.div_lt_iff_lt_mul (by decide), ← Nat.pow_succ]
      exact h
    have hbyte : (UInt8.ofNat (n % 256)).toNat = n % 256 := by
      rw [UInt8.toNat_ofNat']
      exact Nat.mod_eq_of_lt (Nat.mod_lt n (by decide))
    rw [pack, unsigned_append, ih hdiv, hbyte]
    omega

/-! ## Frames -/

theorem RawFrame.validate_eq_ok {f : RawFrame} (h : f.validate = .ok ()) :
    0 < f.width ∧ f.width ≤ maxDimension ∧ 0 < f.height ∧ f.height ≤ maxDimension ∧
      f.stride = f.width * 4 ∧ f.pixels.length = f.height * f.stride ∧
      frameHeaderSize + f.pixels.length ≤ Channel.media.payloadLimit := by
  simp only [RawFrame.validate, Checked.bind_eq_ok, guardError_eq_ok, decide_eq_false_iff_not,
    not_not, not_lt] at h
  obtain ⟨width, hwidth, height, hheight, stride, hstride, _, hrow, _, hsize, hlimit⟩ := h
  obtain ⟨hw, hw1, hw2⟩ := integer_eq_ok hwidth
  obtain ⟨hh, hh1, hh2⟩ := integer_eq_ok hheight
  obtain ⟨hs, hs1, hs2⟩ := integer_eq_ok hstride
  injection hw with hw
  injection hh with hh
  injection hs with hs
  subst hw hh hs
  refine ⟨by omega, by omega, by omega, by omega, by omega, ?_, hlimit⟩
  exact_mod_cast hsize

/-- **A frame that was encoded decodes to itself.** -/
theorem RawFrame.decode_encode {f : RawFrame} (h : f.validate = .ok ()) :
    RawFrame.decode f.encode = .ok f := by
  obtain ⟨-, hw, -, hh, hstride, hlen, hlimit⟩ := validate_eq_ok h
  have hmax : maxDimension = 8192 := rfl
  have hmedia : Channel.media.payloadLimit = 3145728 := rfl
  have hsize : frameHeaderSize = 24 := rfl
  have hwidth : unsigned (pack 4 f.width) = f.width := unsigned_pack (by omega)
  have hheight : unsigned (pack 4 f.height) = f.height := unsigned_pack (by omega)
  have hrow : unsigned (pack 4 f.stride) = f.stride := unsigned_pack (by omega)
  have hpixels : unsigned (pack 4 f.pixels.length) = f.pixels.length := unsigned_pack (by omega)
  -- the header, with the pixels behind it
  set head : Bytes := asciiBytes "QDMF".toList ++ [1, 1, 0, 0] ++ pack 4 f.width ++
    pack 4 f.height ++ pack 4 f.stride ++ pack 4 f.pixels.length with hhead
  have hheadlen : head.length = 24 := by
    simp [hhead]
  have hencode : f.encode = head ++ f.pixels := rfl
  have htake : f.encode.take 24 = head := by
    rw [hencode, ← hheadlen, List.take_left]
  have hdrop : f.encode.drop 24 = f.pixels := by
    rw [hencode, ← hheadlen, List.drop_left]
  have hmagic : head.take 4 = asciiBytes "QDMF".toList := rfl
  have hversion : (head.drop 4).take 1 = [1] := rfl
  have hformat : (head.drop 5).take 1 = [1] ∧ (head.drop 6).take 2 = [0, 0] := ⟨rfl, rfl⟩
  have hw4 : (head.drop 8).take 4 = pack 4 f.width := rfl
  have hh4 : (head.drop 12).take 4 = pack 4 f.height := rfl
  have hs4 : (head.drop 16).take 4 = pack 4 f.stride := rfl
  have hp4 : (head.drop 20).take 4 = pack 4 f.pixels.length := rfl
  have hlength : f.encode.length = 24 + f.pixels.length := by
    rw [hencode, List.length_append, hheadlen]
  unfold RawFrame.decode
  simp only [hsize, htake, hdrop, hmagic, hversion, hformat.1, hformat.2, hw4, hh4, hs4, hp4,
    hwidth, hheight, hrow, hpixels, hlength]
  rw [guardError_pass (decide_eq_false (by omega)), Checked.ok_bind, guardError_pass (by simp),
    Checked.ok_bind, guardError_pass (by simp), Checked.ok_bind,
    guardError_pass (decide_eq_false (by omega)), Checked.ok_bind]
  show (f.validate >>= fun _ => _) = _
  rw [h]
  rfl

end RemoteNested
