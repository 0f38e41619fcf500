/-
# The C helpers' half of the local protocol

`mm-remote-frame.c`: the parsers and builders of the C helpers.  A pointer and a length are a
list of bytes, and pointers are not null.  A function that returns -1 returns `none`, one that
fills a view or a buffer returns it.  `uint32_t` arithmetic wraps; the products that are computed
in 64 bits do not reach 2^64.
-/
import QDistro.LocalRecords

namespace RemoteNested

namespace HelperC

/-! ## Fields -/

/-- `read_be16`, `read_be32` and `read_be64` -/
def readBe (width at' : ℕ) (b : Bytes) : ℕ := unsigned ((b.drop at').take width)

/-- `read_le16` and `read_le32` -/
def readLe (width at' : ℕ) (b : Bytes) : ℕ := unsigned ((b.drop at').take width).reverse

/-- `write_le16` and `write_le32` -/
def writeLe (width n : ℕ) : Bytes := (pack width n).reverse

def maxLocalBytes : ℕ := 3 * 1024 * 1024 + 16

/-- `UINT16_MAX` -/
def uint16Max : ℕ := 65535

/-- `INT64_MAX` -/
def int64Max : ℕ := 2 ^ 63 - 1

/-! ## Messages -/

/-- `struct qdmm_local_message_view` -/
structure LocalView where
  kind : UInt8
  seq : ℕ
  payload : Bytes
  deriving DecidableEq, Repr

/-- `qdmm_parse_local_message` -/
def parseLocalMessage (message : Bytes) : Option LocalView :=
  if message.length < 16 ∨ message.length > maxLocalBytes ∨
      message.take 4 ≠ asciiBytes "QDML".toList ∨ (message.drop 4).take 1 ≠ [1] ∨
      readBe 1 5 message < 1 ∨ readBe 1 5 message > 16 ∨ (message.drop 6).take 2 ≠ [0, 0] then none
  else some ⟨UInt8.ofNat (readBe 1 5 message), readBe 8 8 message, message.drop 16⟩

/-! ## Texts -/

/-- `alpha_num`: `a` to `z`, `A` to `Z` and `0` to `9`. -/
def alphaNum (c : UInt8) : Bool :=
  (97 ≤ c && c ≤ 122) || (65 ≤ c && c ≤ 90) || (48 ≤ c && c ≤ 57)

/-- A loop over a text that accepts alphanumeric characters, and others after the first. -/
def nameLoop (inner : UInt8 → Bool) (text : Bytes) : Bool :=
  text.zipIdx.all fun p => alphaNum p.1 || (decide (p.2 > 0) && inner p.1)

/-- `identity_valid`: `_`, `-` and, unless `stream`, `.` and `:` after the first character. -/
def identityValid (text : Bytes) (stream : Bool) : Bool :=
  if text.isEmpty ∨ text.length > 128 then false
  else
    nameLoop (fun c => c == 95 || c == 45 || (!stream && (c == 46 || c == 58))) text &&
      (!stream || decide (16 ≤ text.length))

/-- `app_id_valid` -/
def appIdValid (text : Bytes) : Bool :=
  if text.isEmpty ∨ text.length > 256 then false
  else nameLoop (fun c => c == 46 || c == 95 || c == 45) text

/-- `(continuation & 0xc0) == 0x80` -/
def isContinuation (c : UInt8) : Bool := 0x80 ≤ c && c < 0xc0

/-- `code << 6 | (continuation & 0x3f)` -/
def addBits (code : ℕ) (c : UInt8) : ℕ := code * 64 + c.toNat % 64

/-- The code point is not overlong, not past the last plane and not a surrogate. -/
def codeOk (need code : ℕ) : Bool :=
  !((need == 2 && decide (code < 0x800)) || (need == 3 && decide (code < 0x10000)) ||
    decide (code > 0x10ffff) || (decide (0xd800 ≤ code) && decide (code ≤ 0xdfff)))

/-- The loop of `utf8_text_valid`, with the loop over the continuation bytes written out. -/
def utf8Loop : Bytes → Bool
  | [] => true
  | c :: rest =>
    if c < 0x80 then !(decide (c < 0x20) || c == 0x7f) && utf8Loop rest
    else if 0xc2 ≤ c ∧ c ≤ 0xdf then
      match rest with
      | d :: rest =>
        isContinuation d && codeOk 1 (addBits (c.toNat % 32) d) && utf8Loop rest
      | _ => false
    else if 0xe0 ≤ c ∧ c ≤ 0xef then
      match rest with
      | d :: e :: rest =>
        isContinuation d && isContinuation e &&
          codeOk 2 (addBits (addBits (c.toNat % 16) d) e) && utf8Loop rest
      | _ => false
    else if 0xf0 ≤ c ∧ c ≤ 0xf4 then
      match rest with
      | d :: e :: f :: rest =>
        isContinuation d && isContinuation e && isContinuation f &&
          codeOk 3 (addBits (addBits (addBits (c.toNat % 8) d) e) f) && utf8Loop rest
      | _ => false
    else false

/-- `utf8_text_valid` -/
def utf8TextValid (text : Bytes) : Bool :=
  if text.length > maxTextBytes then false else utf8Loop text

/-- `safe_ascii_component` -/
def safeAsciiComponent (text : Bytes) : Bool :=
  !text.isEmpty && text.all fun c => alphaNum c || c == 46 || c == 95 || c == 45

/-- `0` to `9` -/
def digit (c : UInt8) : Bool := 48 ≤ c && c ≤ 57

/-- `pw_node_valid` -/
def pwNodeValid (text : Bytes) : Bool :=
  if text.length ≤ 16 ∨ text.length > 128 ∨ text.take 16 ≠ asciiBytes "weston.pipewire:".toList then
    false
  else
    let rest := text.drop 16
    let digits := rest.takeWhile digit
    match rest.head?, rest.dropWhile digit with
    | some first, 58 :: name =>
      49 ≤ first && first ≤ 57 && decide (digits.length ≤ 10) && decide (name.length ≤ 64) &&
        safeAsciiComponent name
    | _, _ => false

/-- `positive_decimal` -/
def positiveDecimal (text : Bytes) : Bool :=
  match text with
  | [] => false
  | c :: rest => 49 ≤ c && c ≤ 57 && rest.all digit

/-- The first loop of `input_sink_valid`: a component `..` anywhere. -/
def parentComponent : Bytes → Bool
  | [] => false
  | c :: rest =>
    (c == 47 && rest.take 2 == [46, 46] &&
      (rest.length == 2 || (rest.drop 2).head? == some 47)) || parentComponent rest

/-- What follows the last slash. -/
def basename (text : Bytes) : Bytes := (text.reverse.takeWhile (· != 47)).reverse

/-- `input_sink_valid` -/
def inputSinkValid (text : Bytes) : Bool :=
  if text.length < 2 ∨ text.length > 107 ∨ text.head? ≠ some 47 ∨ parentComponent text then false
  else
    let name := basename text
    if name.length ≤ 24 ∨ name.take 19 ≠ asciiBytes "qdwin-nested-input-".toList ∨
        text.drop (text.length - 5) ≠ asciiBytes ".sock".toList then false
    else
      let numbers := (name.drop 19).take (name.length - 24)
      match numbers.dropWhile (· != 45) with
      | _ :: second => positiveDecimal (numbers.takeWhile (· != 45)) && positiveDecimal second
      | [] => false

/-! ## Identities -/

/-- `struct qdmm_identity_view` -/
structure IdentityView where
  generation : ℕ
  sourceMachine : Bytes
  trustDomainId : Bytes
  streamId : Bytes
  deriving DecidableEq, Repr

/-- `qdmm_parse_identity` -/
def parseIdentity (message : Bytes) : Option IdentityView := do
  let m ← parseLocalMessage message
  let identity := m.payload
  if m.kind ≠ 16 ∨ identity.length < 20 ∨ identity.take 4 ≠ asciiBytes "QDMI".toList ∨
      (identity.drop 4).take 2 ≠ [1, 0] then none
  else
    let generation := readBe 8 6 identity
    let sourceLen := readBe 2 14 identity
    let trustLen := readBe 2 16 identity
    let streamLen := readBe 2 18 identity
    if generation = 0 ∨ sourceLen + trustLen + streamLen ≠ identity.length - 20 then none
    else
      let source := (identity.drop 20).take sourceLen
      let trust := (identity.drop (20 + sourceLen)).take trustLen
      let stream := (identity.drop (20 + sourceLen + trustLen)).take streamLen
      if identityValid source false && identityValid trust false && identityValid stream true then
        some ⟨generation, source, trust, stream⟩
      else none

/-! ## Announcements -/

/-- `struct qdmm_announcement_view` -/
structure AnnouncementView where
  sourceRevision : ℕ
  width : ℕ
  height : ℕ
  stride : ℕ
  appId : Bytes
  title : Bytes
  deriving DecidableEq, Repr

/-- The geometry that the parsers and builders refuse. -/
def badGeometry (width height stride : ℕ) : Prop :=
  width = 0 ∨ height = 0 ∨ width > 8192 ∨ height > 8192 ∨ stride ≠ width * 4 % 2 ^ 32

instance decidableBadGeometry (width height stride : ℕ) :
    Decidable (badGeometry width height stride) :=
  inferInstanceAs (Decidable (_ ∨ _ ∨ _ ∨ _ ∨ _))

/-- `qdmm_parse_announcement` -/
def parseAnnouncement (message : Bytes) : Option AnnouncementView := do
  let m ← parseLocalMessage message
  let a := m.payload
  if m.kind ≠ 2 ∨ a.length < 32 ∨ a.take 4 ≠ asciiBytes "QDMA".toList ∨
      (a.drop 4).take 4 ≠ [1, 1, 0, 0] then none
  else
    let revision := readBe 8 8 a
    let width := readBe 4 16 a
    let height := readBe 4 20 a
    let stride := readBe 4 24 a
    let appLen := readBe 2 28 a
    let titleLen := readBe 2 30 a
    if revision = 0 ∨ revision > int64Max ∨ badGeometry width height stride ∨
        stride * height + 24 > 3 * 1024 * 1024 ∨ appLen + titleLen ≠ a.length - 32 then none
    else
      let appId := (a.drop 32).take appLen
      let title := (a.drop (32 + appLen)).take titleLen
      if appIdValid appId && utf8TextValid title then
        some ⟨revision, width, height, stride, appId, title⟩
      else none

/-! ## Source configuration -/

/-- `struct qdmm_source_config_view` -/
structure SourceConfigView where
  sourceRevision : ℕ
  pwNode : Bytes
  inputSink : Bytes
  appId : Bytes
  title : Bytes
  deriving DecidableEq, Repr

/-- `qdmm_parse_source_config` -/
def parseSourceConfig (config : Bytes) : Option SourceConfigView :=
  if config.length < 24 ∨ config.take 4 ≠ asciiBytes "QDMS".toList ∨
      (config.drop 4).take 4 ≠ [1, 0, 0, 0] then none
  else
    let revision := readBe 8 8 config
    let pwLen := readBe 2 16 config
    let inputLen := readBe 2 18 config
    let appLen := readBe 2 20 config
    let titleLen := readBe 2 22 config
    if revision = 0 ∨ revision > int64Max ∨
        pwLen + inputLen + appLen + titleLen ≠ config.length - 24 then none
    else
      let pwNode := (config.drop 24).take pwLen
      let inputSink := (config.drop (24 + pwLen)).take inputLen
      let appId := (config.drop (24 + pwLen + inputLen)).take appLen
      let title := (config.drop (24 + pwLen + inputLen + appLen)).take titleLen
      if pwNodeValid pwNode && inputSinkValid inputSink && appIdValid appId &&
          utf8TextValid title then
        some ⟨revision, pwNode, inputSink, appId, title⟩
      else none

/-- The length of a message, and the message. -/
def framed (message : Bytes) : Bytes := pack 4 message.length ++ message

/-- `qdmm_build_announcement_wire` into a buffer of `outSize` bytes. -/
def buildAnnouncementWire (config : SourceConfigView) (width height stride outSize : ℕ) :
    Option Bytes :=
  if config.sourceRevision = 0 ∨ badGeometry width height stride ∨
      stride * height + 24 > 3 * 1024 * 1024 ∨ config.appId.length > uint16Max ∨
      config.title.length > uint16Max then none
  else
    let announcement := asciiBytes "QDMA".toList ++ [1, 1, 0, 0] ++ pack 8 config.sourceRevision ++
      pack 4 width ++ pack 4 height ++ pack 4 stride ++ pack 2 config.appId.length ++
      pack 2 config.title.length ++ config.appId ++ config.title
    let message := asciiBytes "QDML".toList ++ [1, 2, 0, 0] ++ pack 8 config.sourceRevision ++
      announcement
    if outSize < 4 + message.length then none else some (framed message)

/-! ## Frames -/

/-- `struct qdmm_frame_view` -/
structure FrameView where
  seq : ℕ
  width : ℕ
  height : ℕ
  stride : ℕ
  pixels : Bytes
  deriving DecidableEq, Repr

/-- `qdmm_parse_frame` -/
def parseFrame (message : Bytes) : Option FrameView := do
  let m ← parseLocalMessage message
  let frame := m.payload
  if m.kind ≠ 3 ∨ frame.length < 24 ∨ frame.take 4 ≠ asciiBytes "QDMF".toList ∨
      (frame.drop 4).take 4 ≠ [1, 1, 0, 0] then none
  else
    let width := readBe 4 8 frame
    let height := readBe 4 12 frame
    let stride := readBe 4 16 frame
    let pixelsLen := readBe 4 20 frame
    if badGeometry width height stride ∨ pixelsLen ≠ frame.length - 24 ∨
        stride * height ≠ pixelsLen ∨ frame.length > 3 * 1024 * 1024 ∨ m.seq = 0 then none
    else some ⟨m.seq, width, height, stride, frame.drop 24⟩

/-- `qdmm_build_frame_wire` into a buffer of `outSize` bytes. -/
def buildFrameWire (seq width height stride : ℕ) (pixels : Bytes) (outSize : ℕ) : Option Bytes :=
  if seq = 0 ∨ badGeometry width height stride ∨ pixels.length ≠ stride * height ∨
      pixels.length + 24 > 3 * 1024 * 1024 then none
  else
    let message := asciiBytes "QDML".toList ++ [1, 3, 0, 0] ++ pack 8 seq ++
      (asciiBytes "QDMF".toList ++ [1, 1, 0, 0] ++ pack 4 width ++ pack 4 height ++
        pack 4 stride ++ pack 4 pixels.length ++ pixels)
    if outSize < 4 + message.length then none else some (framed message)

/-! ## Input -/

/-- The bytes of `QDMM_QDNI_MAGIC`. -/
def qdniMagic : Bytes := [0x51, 0x4e, 0x44, 0x49]

/-- `build_local_input` -/
def buildLocalInput (kind : UInt8) (payload : Bytes) : Bytes :=
  framed (asciiBytes "QDML".toList ++ [1, kind, 0, 0] ++ pack 8 0 ++ payload)

/-- What `qdmm_qdni_to_local` returns. -/
inductive Translated where
  | malformed
  | ping
  | output (wire : Bytes)
  deriving DecidableEq, Repr

/-- `qdmm_qdni_to_local` -/
def qdniToLocal (packet : Bytes) : Translated :=
  if packet.length < 8 ∨ packet.take 4 ≠ qdniMagic ∨ (packet.drop 4).take 1 ≠ [1] ∨
      readLe 2 6 packet ≠ packet.length - 8 then .malformed
  else
    match readBe 1 5 packet with
    | 1 => if packet.length = 8 then .ping else .malformed
    | 2 =>
      if packet.length ≠ 20 then .malformed
      else .output (buildLocalInput 7 (pack 4 (readLe 4 12 packet) ++ pack 4 (readLe 4 16 packet)))
    | 3 | 4 =>
      let code := readLe 4 12 packet
      let pressed := readLe 4 16 packet
      if packet.length ≠ 20 ∨ code = 0 ∨ code > 0xffff ∨ pressed > 1 then .malformed
      else
        .output (buildLocalInput (if readBe 1 5 packet = 3 then 8 else 9)
          (pack 4 code ++ [UInt8.ofNat pressed, 0, 0, 0]))
    | 5 =>
      let which := readLe 4 12 packet
      if packet.length ≠ 20 ∨ which > 1 then .malformed
      else .output (buildLocalInput 10 (pack 4 which ++ pack 4 (readLe 4 16 packet)))
    | 6 =>
      let focused := readLe 4 8 packet
      if packet.length ≠ 12 ∨ focused > 1 then .malformed
      else .output (buildLocalInput 11 [UInt8.ofNat focused, 0, 0, 0])
    | _ => .malformed

/-- A QDNI packet with a time stamp and two fields. -/
def timedPacket (eventType : UInt8) (timeMsec first second : ℕ) : Bytes :=
  qdniMagic ++ [1, eventType] ++ writeLe 2 12 ++ writeLe 4 timeMsec ++ writeLe 4 first ++
    writeLe 4 second

/-- `qdmm_local_to_qdni` -/
def localToQdni (message : Bytes) (timeMsec : ℕ) : Option Bytes := do
  let m ← parseLocalMessage message
  let p := m.payload
  if m.seq ≠ 0 then none
  else
    match m.kind with
    | 7 =>
      if p.length ≠ 8 then none
      else some (timedPacket 2 timeMsec (readBe 4 0 p) (readBe 4 4 p))
    | 8 | 9 =>
      if p.length ≠ 8 ∨ readBe 4 0 p = 0 ∨ readBe 4 0 p > 0xffff ∨ readBe 1 4 p > 1 ∨
          p.drop 5 ≠ [0, 0, 0] then none
      else
        some (timedPacket (if m.kind = 8 then 3 else 4) timeMsec (readBe 4 0 p) (readBe 1 4 p))
    | 10 =>
      if p.length ≠ 8 ∨ readBe 4 0 p > 1 then none
      else some (timedPacket 5 timeMsec (readBe 4 0 p) (readBe 4 4 p))
    | 11 =>
      if p.length ≠ 4 ∨ readBe 1 0 p > 1 ∨ p.drop 1 ≠ [0, 0, 0] then none
      else some (qdniMagic ++ [1, 6] ++ writeLe 2 4 ++ writeLe 4 (readBe 1 0 p))
    | _ => none

end HelperC

end RemoteNested
