/-
# The controller and the C helpers agree on the wire

What the controller encodes the C parsers accept, with the same field values, and what the C
builders write the controller's decoders accept.  There is one exception.  A stream id may start
with `_` or `-` for the controller (`_STREAM_ID`), while `identity_valid` allows these characters
only after the first: an identity with such a stream id is refused by the viewer helper
(`helpers_agree`, `leadingDash_refused`).
-/
import QDistro.HelperTexts
import Mathlib.Data.List.Induction

open JsonText

namespace RemoteNested

open List

open Checked

open LocalBoundaryMessage

namespace HelperC

/-! ## Fields -/

variable {width : ℕ} {b : Bytes}

theorem readBe_eq {at' n : ℕ} (h : (b.drop at').take width = pack width n) (hn : n < 256 ^ width) :
    readBe width at' b = n := by
  rw [readBe, h, unsigned_pack hn]

theorem text_at {p x y : Bytes} {n : ℕ} (h : p.drop n = x ++ y) :
    (p.drop n).take x.length = x ∧ p.drop (n + x.length) = y := by
  constructor
  · rw [h, take_left]
  · rw [← drop_drop, h, drop_left]

theorem field_at (k' : ℕ) {n k : ℕ} {p y : Bytes} (h : p.drop k = pack width n ++ y)
    (hn : n < 256 ^ width) (hk : k + width = k') : readBe width k p = n ∧ p.drop k' = y := by
  obtain ⟨htake, hdrop⟩ := text_at h
  rw [length_pack] at htake hdrop
  rw [hk] at hdrop
  exact ⟨readBe_eq htake hn, hdrop⟩

theorem parseLocalMessage_eq {kind : UInt8} {seq : ℕ} {payload : Bytes} (hseq : seq < 2 ^ 64)
    (hkind : 1 ≤ kind.toNat ∧ kind.toNat ≤ 16) (hlen : payload.length ≤ 3 * 1024 * 1024) :
    parseLocalMessage (asciiBytes "QDML".toList ++ [1, kind, 0, 0] ++ pack 8 seq ++ payload) =
      some ⟨kind, seq, payload⟩ := by
  set message : Bytes := asciiBytes "QDML".toList ++ [1, kind, 0, 0] ++ pack 8 seq ++ payload
    with hmessage
  have hsize : message.length = 16 + payload.length := by
    rw [hmessage]
    simp only [length_append, length_asciiBytes, length_pack, length_cons,
      length_nil]
    rfl
  have hid : readBe 1 5 message = kind.toNat := by
    show unsigned [kind] = kind.toNat
    simp [unsigned]
  have hseq' : readBe 8 8 message = seq := readBe_eq rfl hseq
  unfold parseLocalMessage
  rw [if_neg]
  · rw [hid, hseq', UInt8.ofNat_toNat]
    rfl
  · rw [hid, hsize]
    have hmax : maxLocalBytes = 3145744 := rfl
    rintro (h | h | h | h | h | h | h)
    · omega
    · omega
    · exact h rfl
    · exact h rfl
    · omega
    · omega
    · exact h rfl

theorem parseLocalMessage_bytes {m : LocalBoundaryMessage} (h : m.Fits) :
    parseLocalMessage m.bytes = some ⟨m.kind.id, m.seq, m.payload⟩ := by
  refine parseLocalMessage_eq h.1 ?_ h.2
  cases m.kind with
  | input kind => cases kind <;> decide
  | _ => decide

theorem encode_of_fits {m : LocalBoundaryMessage} (h : m.Fits) : m.encode = .ok m.bytes := by
  unfold encode
  rw [h.check]
  rfl

/-! ## Identities -/

/-- What the controller's message carries to the helper. -/
def IdentityCarried (i : RemoteDisplayIdentity) (seq : ℕ) : Prop :=
  ∃ b, LocalBoundaryMessage.encode ⟨.identity, seq, i.encode⟩ = .ok b ∧
    parseIdentity b = some ⟨i.generation, utf8Bytes i.sourceMachine, utf8Bytes i.trustDomainId,
      utf8Bytes i.streamId⟩

theorem length_of_identityValid {stream : Bool} (h : identityValid b stream = true) :
    b.length ≤ 128 := by
  unfold identityValid at h
  split at h
  · cases h
  · next hlen =>
    simp only [not_or, not_lt] at hlen
    exact hlen.2

theorem identityCarried_iff {u : UnicodeDb} {i : RemoteDisplayIdentity} {seq : ℕ}
    (h : i.validate u = .ok ()) (hseq : seq < 2 ^ 64) :
    IdentityCarried i seq ↔ startsAlnum i.streamId = true := by
  have hfits := RemoteDisplayIdentity.fits h
  have hm : LocalBoundaryMessage.Fits ⟨.identity, seq, i.encode⟩ := ⟨hseq, hfits.2⟩
  simp only [RemoteDisplayIdentity.validate, bind_eq_ok, guardError_eq_ok,
    Bool.not_eq_false'] at h
  obtain ⟨_, hmachine, _, hdomain, _, hstream, generation, hgeneration, -⟩ := h
  obtain ⟨hint, hmin, hmax⟩ := integer_eq_ok hgeneration
  injection hint with hint
  have hsource := identityValid_of_matchIdentity hmachine
  have htrust := identityValid_of_matchIdentity hdomain
  have hsourceLen := length_of_identityValid hsource
  have htrustLen := length_of_identityValid htrust
  have hstreamLen : (utf8Bytes i.streamId).length ≤ 128 := by
    simp only [matchStreamId, Bool.and_eq_true, decide_eq_true_eq] at hstream
    rw [utf8Bytes_ascii fun c hc =>
      sameClass_stream.ascii (all_eq_true.mp hstream.1.1 c hc), length_map]
    exact hstream.2
  -- the header
  have hmagic : i.encode.take 4 = asciiBytes "QDMI".toList ∧ (i.encode.drop 4).take 2 = [1, 0] :=
    ⟨rfl, rfl⟩
  have hd : i.encode.drop 6 = pack 8 i.generation ++ (pack 2 (utf8Bytes i.sourceMachine).length ++
      (pack 2 (utf8Bytes i.trustDomainId).length ++ (pack 2 (utf8Bytes i.streamId).length ++
        (utf8Bytes i.sourceMachine ++ (utf8Bytes i.trustDomainId ++ utf8Bytes i.streamId))))) := by
    rw [RemoteDisplayIdentity.encode]
    simp only [append_assoc]
    rfl
  obtain ⟨hread, hd⟩ := field_at 14 hd (by omega) rfl
  obtain ⟨hread1, hd⟩ := field_at 16 hd (by omega) rfl
  obtain ⟨hread2, hd⟩ := field_at 18 hd (by omega) rfl
  obtain ⟨hread3, hdrop⟩ := field_at 20 hd (by omega) rfl
  have hsize : i.encode.length = 20 + ((utf8Bytes i.sourceMachine).length +
      (utf8Bytes i.trustDomainId).length + (utf8Bytes i.streamId).length) := by
    have hascii : ("QDMI".toList).length = 4 := rfl
    simp only [RemoteDisplayIdentity.encode, length_append, length_asciiBytes, length_pack,
      length_cons, length_nil, hascii]
    omega
  have hparse : parseIdentity (bytes ⟨.identity, seq, i.encode⟩) =
      if startsAlnum i.streamId then some ⟨i.generation, utf8Bytes i.sourceMachine,
        utf8Bytes i.trustDomainId, utf8Bytes i.streamId⟩ else none := by
    obtain ⟨htake1, hdrop1⟩ := text_at hdrop
    obtain ⟨htake2, hdrop2⟩ := text_at hdrop1
    have htake3 : ((i.encode.drop (20 + (utf8Bytes i.sourceMachine).length +
        (utf8Bytes i.trustDomainId).length)).take (utf8Bytes i.streamId).length) =
        utf8Bytes i.streamId := by
      rw [hdrop2, take_length]
    unfold parseIdentity
    rw [parseLocalMessage_bytes hm, Option.bind_eq_bind, Option.bind_some]
    dsimp only
    rw [hread, hread1, hread2, hread3, htake1, htake2, htake3, hsource, htrust,
      identityValid_stream hstream, if_neg, if_neg]
    · rw [Bool.true_and, Bool.true_and]
    · rintro (hzero | hne)
      · omega
      · omega
    · rintro (hk | hk | hk | hk)
      · exact hk rfl
      · omega
      · exact hk hmagic.1
      · exact hk hmagic.2
  constructor
  · rintro ⟨b, hb, hsome⟩
    rw [encode_of_fits hm] at hb
    cases hb
    rw [hparse] at hsome
    split at hsome
    · assumption
    · cases hsome
  · intro hstart
    refine ⟨_, encode_of_fits hm, ?_⟩
    rw [hparse, if_pos hstart]

/-! ## Announcements -/

/-- What the controller's message carries to the helper. -/
def AnnouncementCarried (a : StreamAnnouncement) (seq : ℕ) : Prop :=
  ∃ b, LocalBoundaryMessage.encode ⟨.announce, seq, encodeLocalAnnouncement a⟩ = .ok b ∧
    parseAnnouncement b = some ⟨a.sourceRevision, a.width, a.height, a.stride, utf8Bytes a.appId,
      utf8Bytes a.title⟩

theorem length_of_appIdValid (h : appIdValid b = true) : b.length ≤ 256 := by
  unfold appIdValid at h
  split at h
  · cases h
  · next hlen =>
    simp only [not_or, not_lt] at hlen
    exact hlen.2

theorem length_of_utf8TextValid (h : utf8TextValid b = true) : b.length ≤ 4096 := by
  unfold utf8TextValid at h
  split at h
  · cases h
  · next hlen => exact not_lt.mp hlen

variable {height stride : ℕ}

theorem not_badGeometry (hw : 1 ≤ width ∧ width ≤ maxDimension)
    (hh : 1 ≤ height ∧ height ≤ maxDimension) (hs : stride = width * 4) :
    ¬badGeometry width height stride := by
  have hmax : maxDimension = 8192 := rfl
  unfold badGeometry
  omega

theorem of_not_badGeometry (h : ¬badGeometry width height stride) :
    (1 ≤ width ∧ width ≤ maxDimension) ∧ (1 ≤ height ∧ height ≤ maxDimension) ∧
      stride = width * 4 := by
  have hmax : maxDimension = 8192 := rfl
  unfold badGeometry at h
  omega

theorem announcement_fields (a : StreamAnnouncement) (hr : a.sourceRevision < 2 ^ 64)
    (hw : a.width < 2 ^ 32) (hh : a.height < 2 ^ 32) (hs : a.stride < 2 ^ 32)
    (happ : (utf8Bytes a.appId).length < 2 ^ 16) (htitle : (utf8Bytes a.title).length < 2 ^ 16) :
    readBe 8 8 (encodeLocalAnnouncement a) = a.sourceRevision ∧
      readBe 4 16 (encodeLocalAnnouncement a) = a.width ∧
      readBe 4 20 (encodeLocalAnnouncement a) = a.height ∧
      readBe 4 24 (encodeLocalAnnouncement a) = a.stride ∧
      readBe 2 28 (encodeLocalAnnouncement a) = (utf8Bytes a.appId).length ∧
      readBe 2 30 (encodeLocalAnnouncement a) = (utf8Bytes a.title).length ∧
      (encodeLocalAnnouncement a).drop 32 = utf8Bytes a.appId ++ utf8Bytes a.title ∧
      (encodeLocalAnnouncement a).length =
        32 + ((utf8Bytes a.appId).length + (utf8Bytes a.title).length) := by
  set p := encodeLocalAnnouncement a with hp
  have hd : p.drop 8 = pack 8 a.sourceRevision ++ (pack 4 a.width ++ (pack 4 a.height ++
      (pack 4 a.stride ++ (pack 2 (utf8Bytes a.appId).length ++ (pack 2 (utf8Bytes a.title).length ++
        (utf8Bytes a.appId ++ utf8Bytes a.title)))))) := by
    rw [hp, encodeLocalAnnouncement]
    simp only [append_assoc]
    rfl
  obtain ⟨hread1, hd⟩ := field_at 16 hd (by omega) rfl
  obtain ⟨hread2, hd⟩ := field_at 20 hd (by omega) rfl
  obtain ⟨hread3, hd⟩ := field_at 24 hd (by omega) rfl
  obtain ⟨hread4, hd⟩ := field_at 28 hd (by omega) rfl
  obtain ⟨hread5, hd⟩ := field_at 30 hd (by omega) rfl
  obtain ⟨hread6, hdrop⟩ := field_at 32 hd (by omega) rfl
  refine ⟨hread1, hread2, hread3, hread4, hread5, hread6, hdrop, ?_⟩
  have hascii : ("QDMA".toList).length = 4 := rfl
  simp only [hp, encodeLocalAnnouncement, length_append, length_asciiBytes, length_pack,
    length_cons, length_nil, hascii]
  omega

theorem announcementCarried {a : StreamAnnouncement} {seq : ℕ} (h : a.validate = .ok ())
    (hseq : seq < 2 ^ 64) : AnnouncementCarried a seq := by
  obtain ⟨hr, hw, hh, hs, hlimit, -, hname, htitle⟩ := StreamAnnouncement.validate_eq_ok h
  have hmax : maxDimension = 8192 := rfl
  have happ := appIdValid_of_matchAppId hname
  have htext := utf8TextValid_of_text htitle
  have happLen := length_of_appIdValid happ
  have htitleLen := length_of_utf8TextValid htext
  obtain ⟨hread1, hread2, hread3, hread4, hread5, hread6, hdrop, hsize⟩ :=
    announcement_fields a (by omega) (by omega) (by omega) (by omega) (by omega) (by omega)
  set p := encodeLocalAnnouncement a with hp
  have hmagic : p.take 4 = asciiBytes "QDMA".toList ∧ (p.drop 4).take 4 = [1, 1, 0, 0] := ⟨rfl, rfl⟩
  have hm : LocalBoundaryMessage.Fits ⟨.announce, seq, p⟩ := by
    refine ⟨hseq, ?_⟩
    show p.length ≤ 3 * 1024 * 1024
    omega
  obtain ⟨htake1, hdrop1⟩ := text_at hdrop
  have htake2 : (p.drop (32 + (utf8Bytes a.appId).length)).take (utf8Bytes a.title).length =
      utf8Bytes a.title := by
    rw [hdrop1, take_length]
  refine ⟨_, encode_of_fits hm, ?_⟩
  unfold parseAnnouncement
  rw [parseLocalMessage_bytes hm, Option.bind_eq_bind, Option.bind_some]
  dsimp only
  rw [hread1, hread2, hread3, hread4, hread5, hread6, htake1, htake2, happ, htext, if_neg, if_neg]
  · rfl
  · have hbytes : a.stride * a.height + 24 ≤ 3 * 1024 * 1024 := by
      rw [Nat.mul_comm]
      exact hlimit
    have hint : int64Max = 2 ^ 63 - 1 := rfl
    rintro (hzero | hbig | hbad | hbad | hbad)
    · omega
    · omega
    · exact not_badGeometry hw hh hs hbad
    · omega
    · omega
  · rintro (hk | hk | hk | hk)
    · exact hk rfl
    · omega
    · exact hk hmagic.1
    · exact hk hmagic.2

/-! ## Source configuration -/

/-- What the controller's record carries to the helper. -/
def SourceConfigCarried (c : SourceHelperConfig) : Prop :=
  parseSourceConfig c.encode = some ⟨c.sourceRevision, utf8Bytes c.pwNode, utf8Bytes c.inputSink,
    utf8Bytes c.appId, utf8Bytes c.title⟩

theorem ascii_of_isAsciiText {s : String} (h : isAsciiText s = true) :
    ∀ c ∈ s.toList, c.toNat < 128 := fun c hc =>
  of_decide_eq_true (all_eq_true.mp h c hc)

theorem sourceConfigCarried {c : SourceHelperConfig} (h : c.validate = .ok ()) :
    SourceConfigCarried c := by
  simp only [SourceHelperConfig.validate, bind_eq_ok, guardError_eq_ok,
    Bool.not_eq_false', Bool.or_eq_false_iff, decide_eq_false_iff_not, not_lt] at h
  obtain ⟨revision, hrevision, pwNode, hpw, _, hpwAscii, _, ⟨hpwLen, hpwMatch⟩, sink, hsink, _,
    ⟨⟨⟨hsinkAscii, hsinkLen⟩, hsinkMatch⟩, hclimbs⟩, appId, happ, _, hname, htitle⟩ := h
  obtain ⟨hr, hr1, hr2⟩ := integer_eq_ok hrevision
  have hr := Json.int.inj hr
  have hpw' := Json.str.inj (text_eq_ok hpw).1
  have hsink' := Json.str.inj (text_eq_ok hsink).1
  have happ' := Json.str.inj (text_eq_ok happ).1
  subst hpw' hsink' happ'
  obtain ⟨title, htitle, -⟩ := bind_eq_ok.mp htitle
  have htitle' := Json.str.inj (text_eq_ok htitle).1
  subst htitle'
  have hpwValid := pwNodeValid_of_matchPwNode (ascii_of_isAsciiText hpwAscii) hpwLen hpwMatch
  have hsinkValid := inputSinkValid_of_matchInputSink (ascii_of_isAsciiText hsinkAscii) hsinkLen
    hsinkMatch hclimbs
  have happValid := appIdValid_of_matchAppId hname
  have htext := utf8TextValid_of_text htitle
  have h1 : (utf8Bytes c.pwNode).length ≤ 128 := by
    rw [utf8Bytes_ascii (ascii_of_isAsciiText hpwAscii), length_map]
    exact hpwLen
  have h2 : (utf8Bytes c.inputSink).length ≤ 107 := by
    rw [utf8Bytes_ascii (ascii_of_isAsciiText hsinkAscii), length_map]
    exact hsinkLen
  have h3 := length_of_appIdValid happValid
  have h4 := length_of_utf8TextValid htext
  set p := c.encode with hp
  have hmagic : p.take 4 = asciiBytes "QDMS".toList ∧ (p.drop 4).take 4 = [1, 0, 0, 0] := ⟨rfl, rfl⟩
  have hd : p.drop 8 = pack 8 c.sourceRevision ++ (pack 2 (utf8Bytes c.pwNode).length ++
      (pack 2 (utf8Bytes c.inputSink).length ++ (pack 2 (utf8Bytes c.appId).length ++
        (pack 2 (utf8Bytes c.title).length ++ (utf8Bytes c.pwNode ++ (utf8Bytes c.inputSink ++
          (utf8Bytes c.appId ++ utf8Bytes c.title))))))) := by
    rw [hp, SourceHelperConfig.encode]
    simp only [append_assoc]
    rfl
  obtain ⟨hread1, hd⟩ := field_at 16 hd (by omega) rfl
  obtain ⟨hread2, hd⟩ := field_at 18 hd (by omega) rfl
  obtain ⟨hread3, hd⟩ := field_at 20 hd (by omega) rfl
  obtain ⟨hread4, hd⟩ := field_at 22 hd (by omega) rfl
  obtain ⟨hread5, hdrop⟩ := field_at 24 hd (by omega) rfl
  have hsize : p.length = 24 + ((utf8Bytes c.pwNode).length + (utf8Bytes c.inputSink).length +
      (utf8Bytes c.appId).length + (utf8Bytes c.title).length) := by
    have hascii : ("QDMS".toList).length = 4 := rfl
    simp only [hp, SourceHelperConfig.encode, length_append, length_asciiBytes, length_pack,
      length_cons, length_nil, hascii]
    omega
  obtain ⟨htake1, hdrop1⟩ := text_at hdrop
  obtain ⟨htake2, hdrop2⟩ := text_at hdrop1
  obtain ⟨htake3, hdrop3⟩ := text_at hdrop2
  show parseSourceConfig p = _
  unfold parseSourceConfig
  rw [if_neg]
  · dsimp only
    rw [hread1, hread2, hread3, hread4, hread5,
      htake1, htake2, htake3, hdrop3, take_length, hpwValid, hsinkValid, happValid, htext,
      if_neg]
    · rfl
    · have hint : int64Max = 2 ^ 63 - 1 := rfl
      rintro (hzero | hbig | hbad)
      · omega
      · omega
      · omega
  · rintro (hk | hk | hk)
    · omega
    · exact hk hmagic.1
    · exact hk hmagic.2

/-! ## Frames -/

/-- What the controller's message carries to the helper. -/
def FrameCarried (f : RawFrame) (seq : ℕ) : Prop :=
  ∃ b, LocalBoundaryMessage.encode ⟨.frame, seq, f.encode⟩ = .ok b ∧
    parseFrame b = some ⟨seq, f.width, f.height, f.stride, f.pixels⟩

theorem frameCarried {f : RawFrame} {seq : ℕ} (h : f.validate = .ok ()) (hpos : 0 < seq)
    (hseq : seq < 2 ^ 64) : FrameCarried f seq := by
  obtain ⟨hw, hw', hh, hh', hs, hpixels, hlimit⟩ := RawFrame.validate_eq_ok h
  have hmax : maxDimension = 8192 := rfl
  have hmedia : Channel.media.payloadLimit = 3145728 := rfl
  have hheader : frameHeaderSize = 24 := rfl
  set p := f.encode with hp
  have hmagic : p.take 4 = asciiBytes "QDMF".toList ∧ (p.drop 4).take 4 = [1, 1, 0, 0] := ⟨rfl, rfl⟩
  have hd : p.drop 8 = pack 4 f.width ++ (pack 4 f.height ++ (pack 4 f.stride ++
      (pack 4 f.pixels.length ++ f.pixels))) := by
    rw [hp, RawFrame.encode]
    simp only [append_assoc]
    rfl
  obtain ⟨hread1, hd⟩ := field_at 12 hd (by omega) rfl
  obtain ⟨hread2, hd⟩ := field_at 16 hd (by omega) rfl
  obtain ⟨hread3, hd⟩ := field_at 20 hd (by omega) rfl
  obtain ⟨hread4, hdrop⟩ := field_at 24 hd (by omega) rfl
  have hsize : p.length = 24 + f.pixels.length := by
    have hascii : ("QDMF".toList).length = 4 := rfl
    simp only [hp, RawFrame.encode, length_append, length_asciiBytes, length_pack,
      length_cons, length_nil, hascii]
  have hm : LocalBoundaryMessage.Fits ⟨.frame, seq, p⟩ := by
    refine ⟨hseq, ?_⟩
    show p.length ≤ Channel.media.payloadLimit
    omega
  refine ⟨_, encode_of_fits hm, ?_⟩
  unfold parseFrame
  rw [parseLocalMessage_bytes hm, Option.bind_eq_bind, Option.bind_some]
  dsimp only
  rw [hread1, hread2, hread3, hread4, hdrop, if_neg, if_neg]
  · have hbytes : f.stride * f.height = f.pixels.length := by
      rw [Nat.mul_comm]
      exact hpixels.symm
    rintro (hbad | hbad | hbad | hbad | hbad)
    · exact not_badGeometry ⟨hw, hw'⟩ ⟨hh, hh'⟩ hs hbad
    · omega
    · omega
    · omega
    · omega
  · rintro (hk | hk | hk | hk)
    · exact hk rfl
    · omega
    · exact hk hmagic.1
    · exact hk hmagic.2

/-! ## What the C builders write -/

theorem decode_bytes {m : LocalBoundaryMessage} (hfits : m.Fits) :
    decode m.bytes = .ok m := by
  obtain ⟨kind, seq, payload⟩ := m
  obtain ⟨hseq, hlen⟩ := hfits
  dsimp only at hseq hlen
  show decode
    (asciiBytes "QDML".toList ++ [1, kind.id, 0, 0] ++ pack 8 seq ++ payload) = _
  set message : Bytes := asciiBytes "QDML".toList ++ [1, kind.id, 0, 0] ++ pack 8 seq ++ payload
    with hmessage
  have hsize : message.length = 16 + payload.length := by
    rw [hmessage]
    simp only [length_append, length_asciiBytes, length_pack, length_cons,
      length_nil]
    rfl
  have hseq' : readBe 8 8 message = seq := readBe_eq rfl hseq
  rw [readBe] at hseq'
  have hkind : LocalKind.ofId (unsigned ((message.drop 5).take 1)) = some kind := by
    show LocalKind.ofId (unsigned [kind.id]) = some kind
    cases kind with
    | input kind => cases kind <;> rfl
    | _ => rfl
  have hfits : LocalBoundaryMessage.Fits ⟨kind, seq, payload⟩ := ⟨hseq, hlen⟩
  unfold decode
  rw [guardError_pass (decide_eq_false (by omega)), ok_bind, guardError_pass,
    ok_bind, hkind]
  · dsimp only
    rw [hseq']
    show (check ⟨kind, seq, payload⟩ >>= fun _ => _) = _
    rw [hfits.check]
    rfl
  · refine decide_eq_false ?_
    rintro (h | h | h)
    · exact h rfl
    · exact h rfl
    · exact h rfl

/-- The controller reads the frame that a C builder wrote. -/
def FrameBuilt (seq width height stride : ℕ) (pixels wire : Bytes) : Prop :=
  ∃ message payload, wire = framed message ∧
    LocalBoundaryMessage.decode message = .ok ⟨.frame, seq, payload⟩ ∧
    RawFrame.decode payload = .ok ⟨width, height, stride, pixels⟩

theorem frameBuilt {seq outSize : ℕ} {pixels wire : Bytes} (hseq : seq < 2 ^ 64)
    (h : buildFrameWire seq width height stride pixels outSize = some wire) :
    FrameBuilt seq width height stride pixels wire := by
  unfold buildFrameWire at h
  split at h
  · cases h
  · next hok =>
    simp only [not_or, not_not, not_lt] at hok
    obtain ⟨hpos, hgeometry, hpixels, hlimit⟩ := hok
    obtain ⟨hw, hh, hs⟩ := of_not_badGeometry hgeometry
    dsimp only at h
    split at h
    · cases h
    · cases h
      have hmax : maxDimension = 8192 := rfl
      have hvalid : RawFrame.validate ⟨width, height, stride, pixels⟩ = .ok () := by
        unfold RawFrame.validate
        dsimp only
        rw [integer_of_bounds (by omega) (by omega), ok_bind,
          integer_of_bounds (by omega) (by omega), ok_bind,
          integer_of_bounds (by omega) (by omega), ok_bind,
          guardError_pass (decide_eq_false (by omega)), ok_bind, guardError_pass,
          ok_bind, guardError_pass]
        · refine decide_eq_false (not_lt.mpr ?_)
          show 24 + pixels.length ≤ 3 * 1024 * 1024
          omega
        · refine decide_eq_false (not_not.mpr ?_)
          rw [hpixels, Nat.mul_comm]
          push_cast
          rfl
      have hlen : (RawFrame.encode ⟨width, height, stride, pixels⟩).length ≤ 3 * 1024 * 1024 := by
        have hascii : ("QDMF".toList).length = 4 := rfl
        simp only [RawFrame.encode, length_append, length_asciiBytes, length_pack,
          length_cons, length_nil, hascii]
        omega
      exact ⟨bytes ⟨.frame, seq, RawFrame.encode ⟨width, height, stride, pixels⟩⟩,
        _, rfl, decode_bytes ⟨hseq, hlen⟩, RawFrame.decode_encode hvalid⟩

theorem decodeLocalAnnouncement_encode {a : StreamAnnouncement} (h : a.Valid) :
    decodeLocalAnnouncement (encodeLocalAnnouncement a) = .ok a := by
  have hvalidate := h.validate
  obtain ⟨hr, hw, hh, hs, -, happ, -, htitle⟩ := h
  have hmax : maxDimension = 8192 := rfl
  have htext : maxTextBytes = 4096 := rfl
  have happLen := (text_eq_ok happ).2
  have htitleLen := (text_eq_ok htitle).2
  obtain ⟨hread1, hread2, hread3, hread4, hread5, hread6, hdrop, hsize⟩ :=
    announcement_fields a (by omega) (by omega) (by omega) (by omega) (by omega) (by omega)
  set p := encodeLocalAnnouncement a with hp
  have hmagic : p.take 4 = asciiBytes "QDMA".toList ∧ (p.drop 4).take 4 = [1, 1, 0, 0] := ⟨rfl, rfl⟩
  obtain ⟨htake1, hdrop1⟩ := text_at hdrop
  unfold decodeLocalAnnouncement
  rw [guardError_pass (decide_eq_false (by omega)), ok_bind, guardError_pass,
    ok_bind]
  · dsimp only
    rw [show unsigned ((p.drop 28).take 2) = _ from hread5,
      show unsigned ((p.drop 30).take 2) = _ from hread6,
      guardError_pass (decide_eq_false (by omega)), ok_bind, htake1, hdrop1,
      utf8Decode_utf8Bytes, utf8Decode_utf8Bytes]
    dsimp only
    rw [show unsigned ((p.drop 8).take 8) = _ from hread1,
      show unsigned ((p.drop 16).take 4) = _ from hread2,
      show unsigned ((p.drop 20).take 4) = _ from hread3,
      show unsigned ((p.drop 24).take 4) = _ from hread4]
    show (a.validate >>= fun _ => _) = _
    rw [hvalidate]
    rfl
  · refine decide_eq_false ?_
    rintro (hk | hk)
    · exact hk hmagic.1
    · exact hk hmagic.2

theorem parseSourceConfig_eq_some {config : SourceConfigView}
    (h : parseSourceConfig b = some config) :
    0 < config.sourceRevision ∧ config.sourceRevision ≤ int64Max ∧
      appIdValid config.appId = true ∧ utf8TextValid config.title = true := by
  unfold parseSourceConfig at h
  split at h
  · cases h
  · dsimp only at h
    split at h
    · cases h
    · next hrevision =>
      simp only [not_or, not_lt] at hrevision
      split at h
      · next htexts =>
        cases h
        simp only [Bool.and_eq_true] at htexts
        exact ⟨Nat.pos_of_ne_zero hrevision.1, hrevision.2.1, htexts.1.2, htexts.2⟩
      · cases h

/-- The controller reads the announcement that a C builder wrote. -/
def AnnouncementBuilt (config : SourceConfigView) (width height stride : ℕ) (wire : Bytes) : Prop :=
  ∃ message payload a, wire = framed message ∧
    LocalBoundaryMessage.decode message = .ok ⟨.announce, config.sourceRevision, payload⟩ ∧
    decodeLocalAnnouncement payload = .ok a ∧ a.sourceRevision = config.sourceRevision ∧
    a.width = width ∧ a.height = height ∧ a.stride = stride ∧
    utf8Bytes a.appId = config.appId ∧ utf8Bytes a.title = config.title

theorem text_of_matchAppId {s : String} (h : matchAppId s = true) :
    text "app_id" false (.str s) = .ok s := by
  obtain ⟨hascii, -, hne, hlen⟩ := sameClass_appId.nameLoop_of_matchName h
  have hnonempty : s.toList ≠ [] := by
    intro hnil
    rw [utf8Bytes, hnil] at hne
    exact hne rfl
  have hclass : ∀ c ∈ s.toList, (isAlnum c || c == '.' || c == '_' || c == '-') = true := by
    unfold matchAppId matchName at h
    split at h
    · cases h
    · next c rest heq =>
      simp only [Bool.and_eq_true] at h
      intro d hd
      rw [heq] at hd
      rcases List.mem_cons.mp hd with rfl | hmem
      · simp [h.1.1]
      · exact List.all_eq_true.mp h.1.2 d hmem
  have hnone : (s.toList.any isControl) = false := by
    rw [List.any_eq_false]
    intro c hc
    have hprintable : (isAlnum c || c == '.' || c == '_' || c == '-') = true → isControl c = false :=
      forall_ascii (P := fun c => (isAlnum c || c == '.' || c == '_' || c == '-') = true →
        isControl c = false) (by decide) (hascii c hc)
    rw [hprintable (hclass c hc)]
    decide
  dsimp only [text]
  rw [if_neg, if_neg]
  · rw [any_control, hnone]
    decide
  · have hmax : maxTextBytes = 4096 := rfl
    simp only [Bool.not_false, Bool.true_and, Bool.or_eq_true, List.isEmpty_iff,
      decide_eq_true_eq, not_or, not_lt]
    exact ⟨hnonempty, by omega⟩

theorem announcementBuilt {config : SourceConfigView} {outSize : ℕ} {wire : Bytes}
    (hconfig : parseSourceConfig b = some config)
    (h : buildAnnouncementWire config width height stride outSize = some wire) :
    AnnouncementBuilt config width height stride wire := by
  obtain ⟨hpos, hint, happ, htext⟩ := parseSourceConfig_eq_some hconfig
  have happLen := length_of_appIdValid happ
  have htitleLen := length_of_utf8TextValid htext
  obtain ⟨appId, happBytes, hname⟩ := matchAppId_of_appIdValid happ
  obtain ⟨title, htitleBytes, htitle⟩ := text_of_utf8TextValid htext "title"
  unfold buildAnnouncementWire at h
  split at h
  · cases h
  · next hok =>
    simp only [not_or, not_lt] at hok
    obtain ⟨-, hgeometry, hlimit, -, -⟩ := hok
    obtain ⟨hw, hh, hs⟩ := of_not_badGeometry hgeometry
    dsimp only at h
    split at h
    · cases h
    · cases h
      have hmax : int64Max = 2 ^ 63 - 1 := rfl
      have hvalid : StreamAnnouncement.Valid
          ⟨config.sourceRevision, width, height, stride, appId, title⟩ := by
        refine ⟨⟨hpos, by dsimp only; omega⟩, hw, hh, hs, ?_, text_of_matchAppId hname, hname, htitle⟩
        show height * stride + 24 ≤ 3 * 1024 * 1024
        rw [Nat.mul_comm]
        exact hlimit
      set a : StreamAnnouncement := ⟨config.sourceRevision, width, height, stride, appId, title⟩
        with ha
      have hlen : (encodeLocalAnnouncement a).length ≤ 3 * 1024 * 1024 := by
        have hascii : ("QDMA".toList).length = 4 := rfl
        simp only [encodeLocalAnnouncement, length_append, length_asciiBytes, length_pack,
          length_cons, length_nil, hascii, ha, ← happBytes, ← htitleBytes]
        omega
      refine ⟨bytes ⟨.announce, config.sourceRevision,
        encodeLocalAnnouncement a⟩, _, a, ?_, decode_bytes ⟨by dsimp only; omega, hlen⟩,
        decodeLocalAnnouncement_encode hvalid, rfl, rfl, rfl, rfl, happBytes.symm, htitleBytes.symm⟩
      rw [happBytes, htitleBytes]
      rfl

/-! ## Input -/

/-- A two's complement field of a QDNI packet. -/
def signedLe (at' : ℕ) (packet : Bytes) : ℤ := signed32 ((packet.drop at').take 4).reverse

/-- The event that a QDNI packet describes. -/
def qdniEvent (packet : Bytes) : Option InputEvent :=
  match readBe 1 5 packet with
  | 2 => some (.motion (signedLe 12 packet) (signedLe 16 packet))
  | 3 => some (.button (readLe 4 12 packet) (readLe 4 16 packet == 1))
  | 4 => some (.key (readLe 4 12 packet) (readLe 4 16 packet == 1))
  | 5 => some (.axis (readLe 4 12 packet) (signedLe 16 packet))
  | 6 => some (.focus (readLe 4 8 packet == 1))
  | _ => none

theorem unsigned_lt (b : Bytes) : unsigned b < 256 ^ b.length := by
  induction b using reverseRecOn with
  | nil => decide
  | append_singleton b x ih =>
    rw [unsigned_append, length_append, length_singleton, Nat.pow_succ]
    have hx := x.toNat_lt
    omega

theorem signed32_pack {n : ℕ} (h : unsigned b = n) (hn : n < 2 ^ 32) :
    signed32 (pack 4 n) = signed32 b := by
  unfold signed32
  rw [unsigned_pack (by omega), h]

theorem signed32_bounds (h : unsigned b < 2 ^ 32) :
    -(2 ^ 31) ≤ signed32 b ∧ signed32 b ≤ 2 ^ 31 - 1 := by
  unfold signed32
  split <;> omega

theorem signed32_packNat {x : ℤ} (hmin : -(2 ^ 31) ≤ x) (hmax : x ≤ 2 ^ 31 - 1) :
    signed32 (pack 4 (x % 2 ^ 32).toNat) = x := by
  have hlt : (x % 2 ^ 32).toNat < 256 ^ 4 := by omega
  unfold signed32
  rw [unsigned_pack hlt]
  split <;> omega

theorem readLe_eq {at' n : ℕ} (h : (b.drop at').take width = writeLe width n)
    (hn : n < 256 ^ width) : readLe width at' b = n := by
  rw [readLe, h, writeLe, reverse_reverse, unsigned_pack hn]

/-- What the controller's message carries into a QDNI packet. -/
def InputCarried (e : InputEvent) (timeMsec : ℕ) : Prop :=
  ∃ b packet, LocalBoundaryMessage.encode ⟨.input e.kind, 0, encodeLocalInputEvent e⟩ = .ok b ∧
    localToQdni b timeMsec = some packet ∧ qdniEvent packet = some e

theorem timedPacket_fields (t : UInt8) (timeMsec : ℕ) {first second : ℕ} (h1 : first < 2 ^ 32)
    (h2 : second < 2 ^ 32) :
    readBe 1 5 (timedPacket t timeMsec first second) = t.toNat ∧
      readLe 4 12 (timedPacket t timeMsec first second) = first ∧
      readLe 4 16 (timedPacket t timeMsec first second) = second ∧
      signedLe 12 (timedPacket t timeMsec first second) = signed32 (pack 4 first) ∧
      signedLe 16 (timedPacket t timeMsec first second) = signed32 (pack 4 second) := by
  have hd : (timedPacket t timeMsec first second).drop 12 = writeLe 4 first ++ (writeLe 4 second ++ []) := by
    rw [timedPacket]
    simp only [append_assoc, append_nil]
    rfl
  have hlen : ∀ n, (writeLe 4 n).length = 4 := by
    intro n
    rw [writeLe, length_reverse, length_pack]
  obtain ⟨hfirst, hd'⟩ := text_at hd
  rw [hlen] at hfirst hd'
  obtain ⟨hsecond, -⟩ := text_at hd'
  rw [hlen] at hsecond
  refine ⟨?_, readLe_eq hfirst h1, readLe_eq hsecond h2, ?_, ?_⟩
  · show unsigned [t] = t.toNat
    simp [unsigned]
  · rw [signedLe, hfirst, writeLe, reverse_reverse]
  · rw [signedLe, hsecond, writeLe, reverse_reverse]

theorem record_fields {a b : ℕ} (ha : a < 2 ^ 32) (hb : b < 2 ^ 32) :
    (pack 4 a ++ pack 4 b).length = 8 ∧ readBe 4 0 (pack 4 a ++ pack 4 b) = a ∧
      readBe 4 4 (pack 4 a ++ pack 4 b) = b := by
  have hd : (pack 4 a ++ pack 4 b).drop 0 = pack 4 a ++ (pack 4 b ++ []) := by
    rw [drop_zero, append_nil]
  obtain ⟨hread1, hd⟩ := field_at 4 hd (by omega) rfl
  obtain ⟨hread2, -⟩ := field_at 8 hd (by omega) rfl
  refine ⟨?_, hread1, hread2⟩
  rw [length_append, length_pack, length_pack]

theorem press_fields {code : ℕ} (hcode : code < 2 ^ 32) (b : UInt8) :
    (pack 4 code ++ [b, 0, 0, 0]).length = 8 ∧ readBe 4 0 (pack 4 code ++ [b, 0, 0, 0]) = code ∧
      readBe 1 4 (pack 4 code ++ [b, 0, 0, 0]) = b.toNat ∧
      (pack 4 code ++ [b, 0, 0, 0]).drop 5 = [0, 0, 0] := by
  have hd : (pack 4 code ++ [b, 0, 0, 0]).drop 0 = pack 4 code ++ [b, 0, 0, 0] := drop_zero
  obtain ⟨hread1, hd⟩ := field_at 4 hd (by omega) rfl
  refine ⟨?_, hread1, ?_, rfl⟩
  · rw [length_append, length_pack]
    rfl
  · rw [readBe, hd]
    simp [unsigned]

theorem flagByte (pressed : Bool) :
    (if pressed then (1 : UInt8) else 0).toNat ≤ 1 ∧
      ((if pressed then (1 : UInt8) else 0).toNat == 1) = pressed := by
  cases pressed <;> decide

theorem pressCarried {e : InputEvent} {timeMsec : ℕ} {code : ℤ} {pressed : Bool} (t : UInt8)
    (hparse : parseLocalMessage
      (bytes ⟨.input e.kind, 0, encodeLocalInputEvent e⟩) =
        some ⟨(LocalKind.input e.kind).id, 0, encodeLocalInputEvent e⟩)
    (hencode : encode ⟨.input e.kind, 0, encodeLocalInputEvent e⟩ =
      .ok (bytes ⟨.input e.kind, 0, encodeLocalInputEvent e⟩))
    (hcode : 1 ≤ code ∧ code ≤ 0xffff)
    (hpayload : encodeLocalInputEvent e = pack 4 code.toNat ++ [if pressed then 1 else 0, 0, 0, 0])
    (hkind : (t = 3 ∧ e = .button code pressed) ∨ (t = 4 ∧ e = .key code pressed)) :
    InputCarried e timeMsec := by
  have hlt : code.toNat < 2 ^ 32 := by omega
  have hflag := flagByte pressed
  set flagged : UInt8 := if pressed then 1 else 0 with hflagged
  obtain ⟨hlen, hread1, hread2, hdrop⟩ := press_fields hlt flagged
  obtain ⟨htype, hfirst, hsecond, -, -⟩ := timedPacket_fields t timeMsec hlt
    (show flagged.toNat < 2 ^ 32 by omega)
  rw [hpayload] at hparse hencode
  refine ⟨bytes ⟨.input e.kind, 0, pack 4 code.toNat ++ [flagged, 0, 0, 0]⟩,
    timedPacket t timeMsec code.toNat flagged.toNat, ?_, ?_, ?_⟩
  · rw [hpayload]
    exact hencode
  · unfold localToQdni
    rw [hparse, Option.bind_eq_bind, Option.bind_some]
    have hok : ¬((pack 4 code.toNat ++ [flagged, 0, 0, 0]).length ≠ 8 ∨
        readBe 4 0 (pack 4 code.toNat ++ [flagged, 0, 0, 0]) = 0 ∨
        readBe 4 0 (pack 4 code.toNat ++ [flagged, 0, 0, 0]) > 0xffff ∨
        readBe 1 4 (pack 4 code.toNat ++ [flagged, 0, 0, 0]) > 1 ∨
        (pack 4 code.toNat ++ [flagged, 0, 0, 0]).drop 5 ≠ [0, 0, 0]) := by
      rw [hlen, hread1, hread2, hdrop]
      rintro (hbad | hbad | hbad | hbad | hbad)
      · exact hbad rfl
      · omega
      · omega
      · omega
      · exact hbad rfl
    rcases hkind with ⟨rfl, rfl⟩ | ⟨rfl, rfl⟩
    · show (if _ then none else some (timedPacket 3 timeMsec _ _)) = _
      rw [if_neg hok, hread1, hread2]
    · show (if _ then none else some (timedPacket 4 timeMsec _ _)) = _
      rw [if_neg hok, hread1, hread2]
  · unfold qdniEvent
    rcases hkind with ⟨rfl, rfl⟩ | ⟨rfl, rfl⟩
    · rw [htype]
      show some (InputEvent.button _ _) = _
      rw [hfirst, hsecond, hflag.2, Int.toNat_of_nonneg (by omega)]
    · rw [htype]
      show some (InputEvent.key _ _) = _
      rw [hfirst, hsecond, hflag.2, Int.toNat_of_nonneg (by omega)]

theorem inputCarried {e : InputEvent} (h : validateInputEvent e = .ok e) (timeMsec : ℕ) :
    InputCarried e timeMsec := by
  have hm : LocalBoundaryMessage.Fits ⟨.input e.kind, 0, encodeLocalInputEvent e⟩ := by
    refine ⟨show 0 < 2 ^ 64 by decide, ?_⟩
    show (encodeLocalInputEvent e).length ≤ 3 * 1024 * 1024
    cases e <;> simp [encodeLocalInputEvent, packSigned]
  have hparse := parseLocalMessage_bytes hm
  have hencode := encode_of_fits hm
  cases e with
  | motion x y =>
    simp only [validateInputEvent, bind_eq_ok] at h
    obtain ⟨x', hx, y', hy, h⟩ := h
    cases h
    obtain ⟨-, hx1, hx2⟩ := integer_eq_ok hx
    obtain ⟨-, hy1, hy2⟩ := integer_eq_ok hy
    have hxlt : (x % 2 ^ 32).toNat < 2 ^ 32 := by omega
    have hylt : (y % 2 ^ 32).toNat < 2 ^ 32 := by omega
    obtain ⟨hlen, hread1, hread2⟩ := record_fields hxlt hylt
    obtain ⟨htype, -, -, hfirst, hsecond⟩ := timedPacket_fields 2 timeMsec hxlt hylt
    refine ⟨_, timedPacket 2 timeMsec (x % 2 ^ 32).toNat (y % 2 ^ 32).toNat, hencode, ?_, ?_⟩
    · unfold localToQdni
      rw [hparse, Option.bind_eq_bind, Option.bind_some]
      show (if (packSigned x ++ packSigned y).length ≠ 8 then none else
        some (timedPacket 2 timeMsec (readBe 4 0 (packSigned x ++ packSigned y))
          (readBe 4 4 (packSigned x ++ packSigned y)))) = _
      rw [packSigned, packSigned, hlen, hread1, hread2]
      rfl
    · unfold qdniEvent
      rw [htype]
      show some (InputEvent.motion _ _) = _
      rw [hfirst, hsecond, signed32_packNat hx1 hx2, signed32_packNat hy1 hy2]
  | button code pressed =>
    simp only [validateInputEvent, bind_eq_ok] at h
    obtain ⟨code', hcode, h⟩ := h
    cases h
    exact pressCarried 3 hparse hencode (integer_eq_ok hcode).2 rfl (.inl ⟨rfl, rfl⟩)
  | key code pressed =>
    simp only [validateInputEvent, bind_eq_ok] at h
    obtain ⟨code', hcode, h⟩ := h
    cases h
    exact pressCarried 4 hparse hencode (integer_eq_ok hcode).2 rfl (.inr ⟨rfl, rfl⟩)
  | axis which value =>
    simp only [validateInputEvent, bind_eq_ok] at h
    obtain ⟨which', hwhich, value', hvalue, h⟩ := h
    cases h
    obtain ⟨-, hw1, hw2⟩ := integer_eq_ok hwhich
    obtain ⟨-, hv1, hv2⟩ := integer_eq_ok hvalue
    have hwlt : which.toNat < 2 ^ 32 := by omega
    have hvlt : (value % 2 ^ 32).toNat < 2 ^ 32 := by omega
    obtain ⟨hlen, hread1, hread2⟩ := record_fields hwlt hvlt
    obtain ⟨htype, hfirst, -, -, hsecond⟩ := timedPacket_fields 5 timeMsec hwlt hvlt
    refine ⟨_, timedPacket 5 timeMsec which.toNat (value % 2 ^ 32).toNat, hencode, ?_, ?_⟩
    · unfold localToQdni
      rw [hparse, Option.bind_eq_bind, Option.bind_some]
      show (if (pack 4 which.toNat ++ packSigned value).length ≠ 8 ∨
          readBe 4 0 (pack 4 which.toNat ++ packSigned value) > 1 then none else
        some (timedPacket 5 timeMsec (readBe 4 0 (pack 4 which.toNat ++ packSigned value))
          (readBe 4 4 (pack 4 which.toNat ++ packSigned value)))) = _
      rw [packSigned, hlen, hread1, hread2, if_neg (by omega)]
    · unfold qdniEvent
      rw [htype]
      show some (InputEvent.axis _ _) = _
      rw [hfirst, hsecond, signed32_packNat hv1 hv2, Int.toNat_of_nonneg hw1]
  | focus focused =>
    have hflag := flagByte focused
    set flagged : UInt8 := if focused then 1 else 0 with hflagged
    have hread : readBe 1 0 [flagged, 0, 0, 0] = flagged.toNat := by
      show unsigned [flagged] = flagged.toNat
      simp [unsigned]
    have hle : readLe 4 8 (qdniMagic ++ [1, 6] ++ writeLe 2 4 ++ writeLe 4 flagged.toNat) =
        flagged.toNat := readLe_eq rfl (by omega)
    refine ⟨_, qdniMagic ++ [1, 6] ++ writeLe 2 4 ++ writeLe 4 flagged.toNat, hencode, ?_, ?_⟩
    · unfold localToQdni
      rw [hparse, Option.bind_eq_bind, Option.bind_some]
      show (if [flagged, 0, 0, 0].length ≠ 4 ∨ readBe 1 0 [flagged, 0, 0, 0] > 1 ∨
          [flagged, 0, 0, 0].drop 1 ≠ [0, 0, 0] then none else
        some (qdniMagic ++ [1, 6] ++ writeLe 2 4 ++
          writeLe 4 (readBe 1 0 [flagged, 0, 0, 0]))) = _
      rw [hread, if_neg]
      rintro (hbad | hbad | hbad)
      · exact hbad rfl
      · omega
      · exact hbad rfl
    · show some (InputEvent.focus _) = _
      rw [hle, hflag.2]

/-! ## Input records of the C builder -/

/-- The controller reads the input record that a C builder wrote. -/
def InputBuilt (packet wire : Bytes) : Prop :=
  ∃ message kind payload e, wire = framed message ∧
    LocalBoundaryMessage.decode message = .ok ⟨.input kind, 0, payload⟩ ∧
    decodeLocalInputEvent kind payload = .ok e ∧ qdniEvent packet = some e

theorem readLe_lt (at' : ℕ) (packet : Bytes) : readLe 4 at' packet < 2 ^ 32 := by
  have hlt := unsigned_lt ((packet.drop at').take 4).reverse
  rw [length_reverse] at hlt
  have hlen : ((packet.drop at').take 4).length ≤ 4 := length_take_le 4 _
  calc readLe 4 at' packet < 256 ^ ((packet.drop at').take 4).length := hlt
    _ ≤ 256 ^ 4 := Nat.pow_le_pow_right (by decide) hlen
    _ = 2 ^ 32 := by decide

theorem signed32_readLe (at' : ℕ) (packet : Bytes) :
    signed32 (pack 4 (readLe 4 at' packet)) = signedLe at' packet :=
  signed32_pack rfl (readLe_lt at' packet)

theorem signedLe_bounds (at' : ℕ) (packet : Bytes) :
    -(2 ^ 31) ≤ signedLe at' packet ∧ signedLe at' packet ≤ 2 ^ 31 - 1 :=
  signed32_bounds (readLe_lt at' packet)

theorem flag_ofNat {n : ℕ} (message : String) (h : n ≤ 1) :
    flag message (UInt8.ofNat n) = .ok (n == 1) := by
  have hn : n = 0 ∨ n = 1 := by omega
  rcases hn with rfl | rfl <;> rfl

theorem inputBuilt_of {packet payload : Bytes} {kind : InputKind} {e : InputEvent}
    (hlen : payload.length ≤ 8) (hdecode : decodeLocalInputEvent kind payload = .ok e)
    (hevent : qdniEvent packet = some e) :
    InputBuilt packet (buildLocalInput (LocalKind.input kind).id payload) := by
  refine ⟨bytes ⟨.input kind, 0, payload⟩, kind, payload, e, rfl, ?_, hdecode,
    hevent⟩
  apply decode_bytes
  refine ⟨show 0 < 2 ^ 64 by decide, ?_⟩
  show payload.length ≤ 3 * 1024 * 1024
  omega

theorem decode_press {kind : InputKind} {code pressed : ℕ} {e : InputEvent}
    (hcode : 1 ≤ code ∧ code ≤ 0xffff) (hpressed : pressed ≤ 1)
    (hkind : (kind = .button ∧ e = .button code (pressed == 1)) ∨
      (kind = .key ∧ e = .key code (pressed == 1))) :
    decodeLocalInputEvent kind (pack 4 code ++ [UInt8.ofNat pressed, 0, 0, 0]) = .ok e := by
  have hread : unsigned (pack 4 code) = code := unsigned_pack (by omega)
  have hint : ∀ label, integer label 1 0xffff (.int code) = .ok (code : ℤ) :=
    integer_of_bounds (by omega) (by omega)
  rcases hkind with ⟨rfl, rfl⟩ | ⟨rfl, rfl⟩
  · show (flag "local input pressed flag is invalid" _ >>= fun pressed =>
      validateInputEvent (.button (unsigned (pack 4 code)) pressed)) = _
    rw [flag_ofNat _ hpressed, ok_bind, hread, validateInputEvent, hint, ok_bind]
    rfl
  · show (flag "local input pressed flag is invalid" _ >>= fun pressed =>
      validateInputEvent (.key (unsigned (pack 4 code)) pressed)) = _
    rw [flag_ofNat _ hpressed, ok_bind, hread, validateInputEvent, hint, ok_bind]
    rfl

theorem inputBuilt {packet wire : Bytes} (h : qdniToLocal packet = .output wire) :
    InputBuilt packet wire := by
  unfold qdniToLocal at h
  split at h
  · cases h
  · split at h
    · split at h <;> cases h
    · next htype =>
      split at h
      · cases h
      · cases h
        obtain ⟨hx1, hx2⟩ := signedLe_bounds 12 packet
        obtain ⟨hy1, hy2⟩ := signedLe_bounds 16 packet
        refine @inputBuilt_of packet _ .motion (.motion (signedLe 12 packet) (signedLe 16 packet))
          (by simp) ?_ (by rw [qdniEvent, htype]; rfl)
        show validateInputEvent (.motion (signed32 (pack 4 _)) (signed32 (pack 4 _))) = _
        rw [signed32_readLe, signed32_readLe, validateInputEvent, integer_of_bounds hx1 hx2,
          ok_bind, integer_of_bounds hy1 hy2, ok_bind]
        rfl
    · next htype =>
      dsimp only at h
      split at h
      · cases h
      · next hok =>
        simp only [not_or, not_not, not_lt] at hok
        cases h
        refine @inputBuilt_of packet _ .button _ (by simp)
          (decode_press ⟨by omega, hok.2.2.1⟩ hok.2.2.2 (.inl ⟨rfl, rfl⟩)) (by rw [qdniEvent, htype]; rfl)
    · next htype =>
      dsimp only at h
      split at h
      · cases h
      · next hok =>
        simp only [not_or, not_not, not_lt] at hok
        rw [if_neg (by omega)] at h
        cases h
        refine @inputBuilt_of packet _ .key _ (by simp)
          (decode_press ⟨by omega, hok.2.2.1⟩ hok.2.2.2 (.inr ⟨rfl, rfl⟩)) (by rw [qdniEvent, htype]; rfl)
    · next htype =>
      dsimp only at h
      split at h
      · cases h
      · next hok =>
        simp only [not_or, not_not, not_lt] at hok
        cases h
        have hread : unsigned (pack 4 (readLe 4 12 packet)) = readLe 4 12 packet :=
          unsigned_pack (readLe_lt 12 packet)
        obtain ⟨hv1, hv2⟩ := signedLe_bounds 16 packet
        refine @inputBuilt_of packet _ .axis (.axis (readLe 4 12 packet) (signedLe 16 packet))
          (by simp) ?_ (by rw [qdniEvent, htype]; rfl)
        show validateInputEvent (.axis (unsigned (pack 4 _)) (signed32 (pack 4 _))) = _
        rw [signed32_readLe, hread, validateInputEvent, integer_of_bounds (by omega) (by omega),
          ok_bind, integer_of_bounds hv1 hv2, ok_bind]
        rfl
    · next htype =>
      dsimp only at h
      split at h
      · cases h
      · next hok =>
        simp only [not_or, not_not, not_lt] at hok
        cases h
        refine @inputBuilt_of packet _ .focus (.focus (readLe 4 8 packet == 1)) (by simp) ?_
          (by rw [qdniEvent, htype]; rfl)
        show (flag "local input focus flag is invalid" _ >>= fun focused =>
          validateInputEvent (.focus focused)) = _
        rw [flag_ofNat _ hok.2, ok_bind]
        rfl
    · cases h

/-! ## Agreement -/

/-- Everything that is valid on one side of the local socket arrives on the other with the same
field values, except an identity whose stream id does not start with a letter or a digit. -/
theorem helpers_agree (u : UnicodeDb) :
    (∀ (i : RemoteDisplayIdentity) (seq : ℕ), i.validate u = .ok () → seq < 2 ^ 64 →
      (IdentityCarried i seq ↔ startsAlnum i.streamId = true)) ∧
    (∀ (a : StreamAnnouncement) (seq : ℕ), a.validate = .ok () → seq < 2 ^ 64 →
      AnnouncementCarried a seq) ∧
    (∀ c : SourceHelperConfig, c.validate = .ok () → SourceConfigCarried c) ∧
    (∀ (f : RawFrame) (seq : ℕ), f.validate = .ok () → 0 < seq → seq < 2 ^ 64 →
      FrameCarried f seq) ∧
    (∀ (e : InputEvent) (timeMsec : ℕ), validateInputEvent e = .ok e → InputCarried e timeMsec) ∧
    (∀ (b : Bytes) (config : SourceConfigView) (width height stride outSize : ℕ) (wire : Bytes),
      parseSourceConfig b = some config →
      buildAnnouncementWire config width height stride outSize = some wire →
      AnnouncementBuilt config width height stride wire) ∧
    (∀ (seq width height stride outSize : ℕ) (pixels wire : Bytes), seq < 2 ^ 64 →
      buildFrameWire seq width height stride pixels outSize = some wire →
      FrameBuilt seq width height stride pixels wire) ∧
    (∀ packet wire : Bytes, qdniToLocal packet = .output wire → InputBuilt packet wire) := by
  refine ⟨?_, ?_, ?_, ?_, ?_, ?_, ?_, ?_⟩
  · intro i seq hvalid hseq
    exact identityCarried_iff hvalid hseq
  · intro a seq hvalid hseq
    exact announcementCarried hvalid hseq
  · intro c hvalid
    exact sourceConfigCarried hvalid
  · intro f seq hvalid hpos hseq
    exact frameCarried hvalid hpos hseq
  · intro e timeMsec hvalid
    exact inputCarried hvalid timeMsec
  · intro b config width height stride outSize wire hconfig hwire
    exact announcementBuilt hconfig hwire
  · intro seq width height stride outSize pixels wire hseq hwire
    exact frameBuilt hseq hwire
  · intro packet wire hwire
    exact inputBuilt hwire

/-- The identity of a stream that starts with a dash. -/
def dashIdentity : RemoteDisplayIdentity :=
  ⟨"laptop-1", "domain-1", "-0123456789abcdef", 1⟩

/-- An identity that the helper accepts, a frame, and a key press. -/
theorem helpers_agree_instances :
    IdentityCarried ⟨"laptop-1", "domain-1", "0123456789abcdef", 1⟩ 1 ∧
      FrameCarried ⟨1, 1, 4, [1, 2, 3, 0]⟩ 1 ∧ InputCarried (.key 30 true) 5 := by
  obtain ⟨hidentity, -, -, hframe, hinput, -⟩ := helpers_agree UnicodeDb.ascii
  refine ⟨?_, ?_, ?_⟩
  · exact (hidentity _ 1 (by decide +kernel) (by decide)).mpr (by decide +kernel)
  · exact hframe _ 1 (by decide +kernel) (by decide) (by decide)
  · exact hinput _ 5 (by decide +kernel)

/-- The controller accepts the identity and the helper does not. -/
theorem leadingDash_refused :
    dashIdentity.validate UnicodeDb.ascii = .ok () ∧ ¬IdentityCarried dashIdentity 1 := by
  have hvalid : dashIdentity.validate UnicodeDb.ascii = .ok () := by decide +kernel
  refine ⟨hvalid, ?_⟩
  rw [identityCarried_iff hvalid (by decide)]
  decide +kernel

end HelperC

end RemoteNested
