/-
# The input translators and their buffers

`qdmm_qdni_to_local` and `qdmm_local_to_qdni` with every access to a buffer written out: an
access outside the buffer makes the result `none`.  They agree with the translators on values,
so they never leave their buffers, and the second takes back what the first made.
-/
import QDistro.HelperAgreement

namespace RemoteNested

open List

namespace HelperC

/-! ## Accesses -/

/-- The `n` bytes at `off`, if they lie in the buffer. -/
def loadAt (buf : Bytes) (off n : ℕ) : Option Bytes :=
  if off + n ≤ buf.length then some ((buf.drop off).take n) else none

/-- `p[off]`, `read_be32` and `read_be64` -/
def loadBe (width off : ℕ) (buf : Bytes) : Option ℕ := (loadAt buf off width).map unsigned

/-- `read_le16` and `read_le32` -/
def loadLe (width off : ℕ) (buf : Bytes) : Option ℕ :=
  (loadAt buf off width).map fun b => unsigned b.reverse

/-- The buffer with bytes written at `off`, if they fit. -/
def storeAt (buf : Bytes) (off : ℕ) (bytes : Bytes) : Option Bytes :=
  if off + bytes.length ≤ buf.length then
    some (buf.take off ++ bytes ++ buf.drop (off + bytes.length))
  else none

/-- A sequence of writes. -/
def storeAll (buf : Bytes) (writes : List (ℕ × Bytes)) : Option Bytes :=
  writes.foldlM (fun buf w => storeAt buf w.1 w.2) buf

/-- `a || b || ...`: an operand is evaluated only when those before it are false. -/
def cOr : List (Option Bool) → Option Bool
  | [] => some false
  | x :: xs => x.bind fun b => if b then some true else cOr xs

/-- What a translator leaves: its result, its output array and `*out_len` if it was written. -/
structure CReply where
  code : ℤ
  out : Bytes
  outLen : Option ℕ := none
  deriving DecidableEq, Repr

/-! ## From QDNI to the local protocol -/

/-- `build_local_input` -/
def buildLocalInputAt (kind : UInt8) (payload : Bytes) (payloadLen : ℕ) (out : Bytes) :
    Option CReply :=
  if payloadLen > 8 then some { code := -1, out }
  else do
    let bytes ← loadAt payload 0 payloadLen
    let out ← storeAll out [(0, pack 4 (16 + payloadLen)), (4, asciiBytes "QDML".toList), (8, [1]),
      (9, [kind]), (10, [0]), (11, [0]), (12, List.replicate 8 0), (20, bytes)]
    return { code := 0, out, outLen := some (4 + 16 + payloadLen) }

/-- The first test of `qdmm_qdni_to_local`. -/
def badHeaderAt (packet : Bytes) : Option Bool :=
  cOr [some (decide (packet.length < 8)), (loadLe 4 0 packet).map (· != 0x49444e51),
    (loadBe 1 4 packet).map (· != 1), (loadLe 2 6 packet).map (· != packet.length - 8)]

/-- The `switch` of `qdmm_qdni_to_local`, on `packet[5]`. -/
def translateAt (packet out : Bytes) (type : ℕ) : Option CReply :=
  let payload : Bytes := List.replicate 8 0
  match type with
  | 1 => some (if packet.length = 8 then { code := 1, out } else { code := -1, out })
  | 2 =>
    if packet.length ≠ 20 then some { code := -1, out }
    else do
      let x ← loadLe 4 12 packet
      let y ← loadLe 4 16 packet
      let payload ← storeAll payload [(0, pack 4 x), (4, pack 4 y)]
      buildLocalInputAt 7 payload 8 out
  | 3 | 4 =>
    if packet.length ≠ 20 then some { code := -1, out }
    else do
      let code ← loadLe 4 12 packet
      let pressed ← loadLe 4 16 packet
      if code = 0 ∨ code > 0xffff ∨ pressed > 1 then some { code := -1, out }
      else do
        let payload ← storeAll payload [(0, pack 4 code), (4, [UInt8.ofNat pressed])]
        buildLocalInputAt (if type = 3 then 8 else 9) payload 8 out
  | 5 =>
    if packet.length ≠ 20 then some { code := -1, out }
    else do
      let which ← loadLe 4 12 packet
      if which > 1 then some { code := -1, out }
      else do
        let value ← loadLe 4 16 packet
        let payload ← storeAll payload [(0, pack 4 which), (4, pack 4 value)]
        buildLocalInputAt 10 payload 8 out
  | 6 =>
    if packet.length ≠ 12 then some { code := -1, out }
    else do
      let focused ← loadLe 4 8 packet
      if focused > 1 then some { code := -1, out }
      else do
        let payload ← storeAll payload [(0, [UInt8.ofNat focused])]
        buildLocalInputAt 11 payload 4 out
  | _ => some { code := -1, out }

/-- `qdmm_qdni_to_local` -/
def qdniToLocalAt (packet out : Bytes) : Option CReply :=
  (badHeaderAt packet).bind fun bad =>
    if bad then some { code := -1, out }
    else (loadBe 1 5 packet).bind (translateAt packet out)

/-! ## From the local protocol to QDNI -/

/-- `qdmm_parse_local_message`; the inner `none` is its `-1`. -/
def parseLocalMessageAt (message : Bytes) : Option (Option LocalView) :=
  (cOr [some (decide (message.length < 16)), some (decide (message.length > maxLocalBytes)),
    (loadAt message 0 4).map (· != asciiBytes "QDML".toList), (loadBe 1 4 message).map (· != 1),
    (loadBe 1 5 message).map (decide <| · < 1), (loadBe 1 5 message).map (decide <| · > 16),
    (loadBe 1 6 message).map (· != 0), (loadBe 1 7 message).map (· != 0)]).bind fun bad =>
      if bad then some none
      else do
        let kind ← loadBe 1 5 message
        let seq ← loadBe 8 8 message
        return some ⟨UInt8.ofNat kind, seq, message.drop 16⟩

/-- The event type and the payload length of a kind of local message. -/
def eventOf (kind : UInt8) : Option (UInt8 × ℕ) :=
  if kind = 7 then some (2, 12)
  else if kind = 8 then some (3, 12)
  else if kind = 9 then some (4, 12)
  else if kind = 10 then some (5, 12)
  else if kind = 11 then some (6, 4)
  else none

/-- The tests of the payload, by kind. -/
def badPayloadAt (kind : UInt8) (p : Bytes) : Option Bool :=
  if kind = 8 ∨ kind = 9 then
    cOr [(loadBe 4 0 p).map (· == 0), (loadBe 4 0 p).map (decide <| · > 0xffff),
      (loadBe 1 4 p).map (decide <| · > 1), (loadBe 1 5 p).map (· != 0),
      (loadBe 1 6 p).map (· != 0), (loadBe 1 7 p).map (· != 0)]
  else if kind = 10 then (loadBe 4 0 p).map (decide <| · > 1)
  else if kind = 11 then
    cOr [(loadBe 1 0 p).map (decide <| · > 1), (loadBe 1 1 p).map (· != 0),
      (loadBe 1 2 p).map (· != 0), (loadBe 1 3 p).map (· != 0)]
  else some false

/-- The writes after the header of the packet. -/
def fieldWrites (eventType : UInt8) (timeMsec : ℕ) (p : Bytes) : Option (List (ℕ × Bytes)) :=
  if eventType = 6 then do
    let focused ← loadBe 1 0 p
    return [(8, writeLe 4 focused)]
  else do
    let first ← loadBe 4 0 p
    let second ← loadBe (if eventType = 2 ∨ eventType = 5 then 4 else 1) 4 p
    return [(8, writeLe 4 timeMsec), (12, writeLe 4 first), (16, writeLe 4 second)]

/-- The writes of `qdmm_local_to_qdni` once the message has passed. -/
def writePacketAt (eventType : UInt8) (payloadLen timeMsec : ℕ) (p out : Bytes) :
    Option CReply := do
  let fields ← fieldWrites eventType timeMsec p
  let header : List (ℕ × Bytes) := [(0, writeLe 4 0x49444e51), (4, [1]), (5, [eventType]),
    (6, writeLe 2 payloadLen)]
  let out ← storeAll out (header ++ fields)
  return { code := 0, out, outLen := some (8 + payloadLen) }

/-- `qdmm_local_to_qdni` of a parsed message. -/
def encodeAt (m : LocalView) (timeMsec : ℕ) (out : Bytes) : Option CReply :=
  match eventOf m.kind with
  | none => some { code := -1, out }
  | some (eventType, payloadLen) =>
    if m.payload.length ≠ (if m.kind = 11 then 4 else 8) then some { code := -1, out }
    else
      (badPayloadAt m.kind m.payload).bind fun bad =>
        if bad then some { code := -1, out }
        else writePacketAt eventType payloadLen timeMsec m.payload out

/-- `qdmm_local_to_qdni` -/
def localToQdniAt (message : Bytes) (timeMsec : ℕ) (out : Bytes) : Option CReply :=
  (parseLocalMessageAt message).bind fun parsed =>
    match parsed with
    | none => some { code := -1, out }
    | some m => if m.seq ≠ 0 then some { code := -1, out } else encodeAt m timeMsec out

/-! ## Accesses that stay inside -/

variable {buf : Bytes} {off n : ℕ}

theorem loadAt_eq (h : off + n ≤ buf.length) :
    loadAt buf off n = some ((buf.drop off).take n) := if_pos h

theorem loadBe_eq {width : ℕ} (h : off + width ≤ buf.length) :
    loadBe width off buf = some (readBe width off buf) := by
  rw [loadBe, loadAt_eq h]
  rfl

theorem loadLe_eq {width : ℕ} (h : off + width ≤ buf.length) :
    loadLe width off buf = some (readLe width off buf) := by
  rw [loadLe, loadAt_eq h]
  rfl

@[simp] theorem cOr_some (b : Bool) (xs : List (Option Bool)) :
    cOr (some b :: xs) = if b then some true else cOr xs := rfl

theorem cOr_cons {b : Bool} {c d : Prop} [Decidable c] [Decidable d] {xs : List (Option Bool)}
    (hb : b = true ↔ c) (h : cOr xs = some (decide d)) :
    cOr (some b :: xs) = some (decide (c ∨ d)) := by
  rw [cOr_some, h]
  by_cases hc : c
  · simp [hb.mpr hc, hc]
  · simp [mt hb.mp hc, hc]

theorem cOr_last {b : Bool} {c : Prop} [Decidable c] (hb : b = true ↔ c) :
    cOr [some b] = some (decide c) := by
  rw [cOr_cons hb (d := False) rfl]
  simp only [or_false]

/-- The buffer has `n` bytes and starts with `w`. -/
def Written (n : ℕ) (w buf : Bytes) : Prop := buf.length = n ∧ w <+: buf

/-- The writes follow each other from `off` on. -/
def Contiguous (off : ℕ) : List (ℕ × Bytes) → Prop
  | [] => True
  | w :: writes => w.1 = off ∧ Contiguous (off + w.2.length) writes

theorem Written.storeAt {w b : Bytes} (h : Written n w buf) (hoff : off = w.length)
    (hfit : off + b.length ≤ n) :
    ∃ buf', HelperC.storeAt buf off b = some buf' ∧ Written n (w ++ b) buf' := by
  obtain ⟨hlen, rest, rfl⟩ := h
  subst hoff
  rw [length_append] at hlen
  refine ⟨w ++ b ++ rest.drop b.length, ?_, ?_, prefix_append _ _⟩
  · unfold HelperC.storeAt
    rw [if_pos (by rw [length_append]; omega), take_left, ← drop_drop,
      drop_left]
  · simp only [length_append, length_drop]
    omega

theorem Written.storeAll (writes : List (ℕ × Bytes)) {w : Bytes} (h : Written n w buf)
    (hwrites : Contiguous w.length writes) (hfit : (w ++ writes.flatMap Prod.snd).length ≤ n) :
    ∃ buf', HelperC.storeAll buf writes = some buf' ∧
      Written n (w ++ writes.flatMap Prod.snd) buf' := by
  induction writes generalizing w buf with
  | nil => exact ⟨buf, rfl, by simpa using h⟩
  | cons x writes ih =>
    rw [flatMap_cons, ← append_assoc] at hfit ⊢
    obtain ⟨buf₁, hstore, h₁⟩ := h.storeAt (b := x.2) hwrites.1 (by
      rw [hwrites.1]
      simp only [length_append] at hfit
      omega)
    obtain ⟨buf', hrest, h'⟩ := ih h₁ (by rw [length_append]; exact hwrites.2) hfit
    refine ⟨buf', ?_, h'⟩
    unfold HelperC.storeAll
    rw [foldlM_cons, hstore]
    exact hrest

theorem written_nil (buf : Bytes) : Written buf.length [] buf := ⟨rfl, nil_prefix⟩

/-- The output array after a translation. -/
def Agrees (out : Bytes) : Translated → CReply → Prop
  | .malformed, r => r = { code := -1, out }
  | .ping, r => r = { code := 1, out }
  | .output wire, r => r.code = 0 ∧ r.outLen = some wire.length ∧ Written out.length wire r.out

variable {out : Bytes}

theorem buildLocalInputAt_eq (kind : UInt8) {payload body : Bytes} (hpayload : payload.length = 8)
    (hn : n ≤ 8) (hbody : payload.take n = body) (hout : out.length = 28) :
    ∃ r, buildLocalInputAt kind payload n out = some r ∧
      Agrees out (.output (buildLocalInput kind body)) r := by
  subst hbody
  have htake : (payload.take n).length = n := by
    rw [length_take]
    omega
  have hsize : (asciiBytes "QDML".toList ++ [1, kind, 0, 0] ++ pack 8 0 ++
      payload.take n).length = 16 + n := by
    rw [length_append, htake]
    rfl
  obtain ⟨buf, hstore, hbuf⟩ := (written_nil out).storeAll
    [(0, pack 4 (16 + n)), (4, asciiBytes "QDML".toList), (8, [1]), (9, [kind]), (10, [0]),
      (11, [0]), (12, replicate 8 0), (20, payload.take n)]
    ⟨rfl, rfl, rfl, rfl, rfl, rfl, rfl, rfl, trivial⟩ (by
      simp only [flatMap_cons, flatMap_nil, nil_append, length_append,
        length_pack, length_asciiBytes, htake]
      rw [hout]
      show 4 + (4 + (1 + (1 + (1 + (1 + (8 + (n + 0))))))) ≤ 28
      omega)
  refine ⟨{ code := 0, out := buf, outLen := some (4 + 16 + n) }, ?_, rfl, ?_, ?_⟩
  · unfold buildLocalInputAt
    rw [if_neg (by omega), loadAt_eq (by omega)]
    show (HelperC.storeAll out _).bind _ = _
    rw [drop_zero, hstore]
    rfl
  · rw [buildLocalInput, framed, length_append, length_pack, hsize]
    exact congrArg some (by omega)
  · have hzero : pack 8 0 = replicate 8 0 := rfl
    rw [buildLocalInput, framed, hsize, hzero]
    simpa using hbuf

/-! ## Fields and their bytes -/

theorem pack_unsigned (b : Bytes) : pack b.length (unsigned b) = b := by
  induction b using reverseRecOn with
  | nil => rfl
  | append_singleton b x ih =>
    have hx := x.toNat_lt
    rw [length_append, length_singleton, pack, unsigned_append,
      show (256 * unsigned b + x.toNat) / 256 = unsigned b by omega,
      show (256 * unsigned b + x.toNat) % 256 = x.toNat by omega, ih, UInt8.ofNat_toNat]

variable {p : Bytes}

theorem pack_readBe {width : ℕ} (h : off + width ≤ p.length) :
    pack width (readBe width off p) = (p.drop off).take width := by
  have hlen : ((p.drop off).take width).length = width := by
    rw [length_take, length_drop]
    omega
  have hpack := pack_unsigned ((p.drop off).take width)
  rwa [hlen] at hpack

theorem writeLe_readLe {width : ℕ} (h : off + width ≤ p.length) :
    writeLe width (readLe width off p) = (p.drop off).take width := by
  have hlen : ((p.drop off).take width).reverse.length = width := by
    rw [length_reverse, length_take, length_drop]
    omega
  have hpack := pack_unsigned ((p.drop off).take width).reverse
  rw [hlen] at hpack
  rw [writeLe, readLe, hpack, reverse_reverse]

theorem readBe_one_iff (h : off + 1 ≤ p.length) (b : UInt8) :
    readBe 1 off p = b.toNat ↔ (p.drop off).take 1 = [b] := by
  constructor
  · intro hread
    rw [← pack_readBe h, hread]
    show [UInt8.ofNat (b.toNat % 256)] = [b]
    rw [Nat.mod_eq_of_lt b.toNat_lt, UInt8.ofNat_toNat]
  · intro hbyte
    rw [readBe, hbyte]
    show 256 * 0 + b.toNat = b.toNat
    omega

theorem readLe_magic_iff (h : 4 ≤ p.length) :
    readLe 4 0 p = 0x49444e51 ↔ p.take 4 = qdniMagic := by
  constructor
  · intro hread
    have hw := @writeLe_readLe 0 p 4 (by omega)
    rw [hread] at hw
    exact hw.symm
  · intro hmagic
    rw [readLe, drop_zero, hmagic]
    decide

theorem badHeaderAt_eq (packet : Bytes) :
    badHeaderAt packet = some (decide (packet.length < 8 ∨ packet.take 4 ≠ qdniMagic ∨
      (packet.drop 4).take 1 ≠ [1] ∨ readLe 2 6 packet ≠ packet.length - 8)) := by
  unfold badHeaderAt
  by_cases hlen : packet.length < 8
  · simp [hlen]
  have hone := @readBe_one_iff 4 packet (by omega) 1
  have hmagic := readLe_magic_iff (p := packet) (by omega)
  rw [loadLe_eq (by omega), loadBe_eq (by omega), loadLe_eq (by omega)]
  refine cOr_cons decide_eq_true_iff (cOr_cons ?_ (cOr_cons ?_ (cOr_last ?_)))
  · rw [bne_iff_ne, ne_eq, hmagic]
  · exact bne_iff_ne.trans (not_congr hone)
  · exact bne_iff_ne

/-! ## The translators agree with those on values -/

variable {packet : Bytes}

theorem translateAt_agrees {v body : Bytes} {type len : ℕ} {kind : UInt8} {c : Prop}
    [Decidable c] (hout : out.length = 28) (hpayload : v.length = 8) (hn : n ≤ 8)
    (hbody : v.take n = body)
    (hrun : packet.length = len → translateAt packet out type =
      if c then some { code := -1, out } else buildLocalInputAt kind v n out)
    (hshort : packet.length ≠ len → translateAt packet out type = some { code := -1, out }) :
    ∃ r, translateAt packet out type = some r ∧
      Agrees out (if packet.length ≠ len ∨ c then .malformed
        else .output (buildLocalInput kind body)) r := by
  by_cases hlen : packet.length = len
  · rw [hrun hlen]
    by_cases hc : c
    · rw [if_pos hc, if_pos (.inr hc)]
      exact ⟨_, rfl, rfl⟩
    · rw [if_neg hc, if_neg (not_or.mpr ⟨not_not_intro hlen, hc⟩)]
      exact buildLocalInputAt_eq kind hpayload hn hbody hout
  · rw [hshort hlen, if_pos (.inl hlen)]
    exact ⟨_, rfl, rfl⟩

theorem qdniToLocalAt_agrees (packet : Bytes) (hout : out.length = 28) :
    ∃ r, qdniToLocalAt packet out = some r ∧ Agrees out (qdniToLocal packet) r := by
  have hrefused : ∃ r, some ({ code := -1, out } : CReply) = some r ∧
      Agrees out .malformed r := ⟨_, rfl, rfl⟩
  unfold qdniToLocalAt qdniToLocal
  rw [badHeaderAt_eq, Option.bind_some]
  by_cases hbad : packet.length < 8 ∨ packet.take 4 ≠ qdniMagic ∨
      (packet.drop 4).take 1 ≠ [1] ∨ readLe 2 6 packet ≠ packet.length - 8
  · rw [if_pos (decide_eq_true hbad), if_pos hbad]
    exact hrefused
  rw [if_neg (by simpa using hbad), if_neg hbad]
  have hlen : 8 ≤ packet.length := by
    by_contra hlt
    exact hbad (.inl (by omega))
  rw [loadBe_eq (by omega), Option.bind_some]
  have hload : packet.length = 20 → loadLe 4 12 packet = some (readLe 4 12 packet) ∧
      loadLe 4 16 packet = some (readLe 4 16 packet) :=
    fun h20 => ⟨loadLe_eq (by omega), loadLe_eq (by omega)⟩
  generalize readBe 1 5 packet = type
  rcases type with _ | _ | _ | _ | _ | _ | _ | type
  · exact hrefused
  · by_cases h8 : packet.length = 8
    · exact ⟨{ code := 1, out }, by simp [translateAt, h8], by simp [h8, Agrees]⟩
    · exact ⟨{ code := -1, out }, by simp [translateAt, h8], by simp [h8, Agrees]⟩
  · have hrun : packet.length = 20 → translateAt packet out 2 =
        if False then some { code := -1, out } else
        buildLocalInputAt 7 (pack 4 (readLe 4 12 packet) ++ pack 4 (readLe 4 16 packet)) 8 out := by
      intro h20
      obtain ⟨hx, hy⟩ := hload h20
      rw [translateAt, if_neg (not_not_intro h20), hx, hy]
      rfl
    have h := translateAt_agrees hout (by simp) le_rfl (take_of_length_le (by simp)) hrun
      fun h20 => by rw [translateAt, if_pos h20]
    simp only [or_false] at h
    exact h
  iterate 3
    · refine translateAt_agrees hout (by simp) le_rfl (take_of_length_le (by simp))
        (fun h20 => ?_) fun h20 => by rw [translateAt, if_pos h20]
      obtain ⟨hx, hy⟩ := hload h20
      rw [translateAt, if_neg (not_not_intro h20), hx, hy]
      rfl
  · refine translateAt_agrees (n := 4)
      (v := [UInt8.ofNat (readLe 4 8 packet), 0, 0, 0, 0, 0, 0, 0]) hout rfl (by decide) rfl
      (fun h12 => ?_) fun h12 => by rw [translateAt, if_pos h12]
    rw [translateAt, if_neg (not_not_intro h12), loadLe_eq (by omega)]
    rfl
  · exact hrefused

theorem zero_cons_iff {rest : Bytes} {k : ℕ} (h : off + 1 ≤ p.length) :
    (p.drop off).take (k + 1) = 0 :: rest ↔
      readBe 1 off p = 0 ∧ (p.drop (off + 1)).take k = rest := by
  have hbyte := readBe_one_iff h 0
  rw [drop_eq_getElem_cons (by omega)] at hbyte ⊢
  rw [take_succ_cons, cons.injEq]
  simp only [take_succ_cons, take_zero, cons.injEq, and_true] at hbyte
  exact and_congr_left' hbyte.symm

theorem parseLocalMessageAt_eq (message : Bytes) :
    parseLocalMessageAt message = some (parseLocalMessage message) := by
  unfold parseLocalMessageAt parseLocalMessage
  by_cases hlen : message.length < 16
  · rw [cOr_some, if_pos (decide_eq_true hlen), if_pos (.inl hlen)]
    rfl
  have hone := @readBe_one_iff 4 message (by omega) 1
  have hzero : cOr [some (readBe 1 6 message != 0), some (readBe 1 7 message != 0)] =
      some (decide ((message.drop 6).take 2 ≠ [0, 0])) := by
    rw [cOr_cons bne_iff_ne (cOr_last bne_iff_ne)]
    refine congrArg some (decide_eq_decide.mpr ?_)
    rw [ne_eq ((message.drop 6).take 2), zero_cons_iff (by omega), zero_cons_iff (by omega)]
    simp only [take_zero, and_true]
    exact not_and_or.symm
  have hbad := cOr_cons (b := decide (message.length < 16)) decide_eq_true_iff
    (cOr_cons (b := decide (message.length > maxLocalBytes)) decide_eq_true_iff
    (cOr_cons (b := (message.drop 0).take 4 != asciiBytes "QDML".toList) bne_iff_ne
    (cOr_cons (b := readBe 1 4 message != 1) (c := (message.drop 4).take 1 ≠ [1])
      (bne_iff_ne.trans (not_congr hone))
    (cOr_cons (b := decide (readBe 1 5 message < 1)) decide_eq_true_iff
    (cOr_cons (b := decide (readBe 1 5 message > 16)) decide_eq_true_iff hzero)))))
  rw [loadAt_eq (by omega), loadBe_eq (by omega), loadBe_eq (by omega), loadBe_eq (by omega),
    loadBe_eq (by omega), loadBe_eq (by omega)]
  simp only [Option.map_some]
  rw [hbad, Option.bind_some]
  simp only [decide_eq_true_iff, drop_zero]
  split_ifs
  · rfl
  · rfl

/-- The output array after `qdmm_local_to_qdni`. -/
def AgreesPacket (out : Bytes) : Option Bytes → CReply → Prop
  | none, r => r = { code := -1, out }
  | some packet, r =>
    r.code = 0 ∧ r.outLen = some packet.length ∧ Written out.length packet r.out

variable {eventType : UInt8}

theorem writePacketAt_eq {payloadLen timeMsec : ℕ} {f : List (ℕ × Bytes)}
    (hout : out.length = 20) (hfields : fieldWrites eventType timeMsec p = some f)
    (hcontiguous : Contiguous 8 f)
    (hpacket : qdniMagic ++ [1, eventType] ++ writeLe 2 payloadLen ++
      f.flatMap Prod.snd = packet)
    (hlen : packet.length = 8 + payloadLen) (hle : payloadLen ≤ 12) :
    ∃ r, writePacketAt eventType payloadLen timeMsec p out = some r ∧
      AgreesPacket out (some packet) r := by
  have hflat : ([] : Bytes) ++ (([(0, writeLe 4 0x49444e51), (4, [1]), (5, [eventType]),
      (6, writeLe 2 payloadLen)] : List (ℕ × Bytes)) ++ f).flatMap Prod.snd = packet := by
    rw [← hpacket]
    simp only [flatMap_append, flatMap_cons, flatMap_nil, nil_append,
      append_nil, append_assoc]
    rfl
  obtain ⟨buf, hstore, hbuf⟩ := (written_nil out).storeAll
    (([(0, writeLe 4 0x49444e51), (4, [1]), (5, [eventType]),
      (6, writeLe 2 payloadLen)] : List (ℕ × Bytes)) ++ f)
    ⟨rfl, rfl, rfl, rfl, hcontiguous⟩ (by rw [hflat, hlen, hout]; omega)
  rw [hflat] at hbuf
  refine ⟨{ code := 0, out := buf, outLen := some (8 + payloadLen) }, ?_, rfl, ?_, hbuf⟩
  · unfold writePacketAt
    rw [hfields]
    show (HelperC.storeAll out _).bind _ = _
    rw [hstore]
    rfl
  · rw [hlen]

theorem timedPacket_agrees {timeMsec first second : ℕ} (hout : out.length = 20)
    (hfields : fieldWrites eventType timeMsec p = some [(8, writeLe 4 timeMsec),
      (12, writeLe 4 first), (16, writeLe 4 second)]) :
    ∃ r, writePacketAt eventType 12 timeMsec p out = some r ∧
      AgreesPacket out (some (timedPacket eventType timeMsec first second)) r := by
  refine writePacketAt_eq hout hfields ⟨rfl, rfl, rfl, trivial⟩ ?_ rfl le_rfl
  simp only [timedPacket, flatMap_cons, flatMap_nil, append_assoc, append_nil]

theorem fieldWrites_timed (timeMsec : ℕ) (hp : p.length = 8) (htype : eventType ≠ 6) :
    fieldWrites eventType timeMsec p = some [(8, writeLe 4 timeMsec),
      (12, writeLe 4 (readBe 4 0 p)),
      (16, writeLe 4 (readBe (if eventType = 2 ∨ eventType = 5 then 4 else 1) 4 p))] := by
  unfold fieldWrites
  rw [if_neg htype, loadBe_eq (by omega), loadBe_eq (by split_ifs <;> omega)]
  rfl

theorem encodeAt_agrees {k : UInt8} {payloadLen s timeMsec : ℕ} {c : Prop} [Decidable c]
    (hevent : eventOf k = some (eventType, payloadLen)) (hn : (if k = 11 then 4 else 8) = n)
    (hbad : p.length = n → badPayloadAt k p = some (decide c))
    (hwrite : p.length = n → ∃ r, writePacketAt eventType payloadLen timeMsec p out = some r ∧
      AgreesPacket out (some packet) r) :
    ∃ r, encodeAt ⟨k, s, p⟩ timeMsec out = some r ∧
      AgreesPacket out (if p.length ≠ n ∨ c then none else some packet) r := by
  unfold encodeAt
  rw [hevent]
  dsimp only
  rw [hn]
  by_cases hp : p.length = n
  · rw [if_neg (not_not_intro hp), hbad hp, Option.bind_some]
    by_cases hc : c
    · rw [if_pos (decide_eq_true hc), if_pos (.inr hc)]
      exact ⟨_, rfl, rfl⟩
    · rw [if_neg (by simpa using hc), if_neg (not_or.mpr ⟨not_not_intro hp, hc⟩)]
      exact hwrite hp
  · rw [if_pos hp, if_pos (.inl hp)]
    exact ⟨_, rfl, rfl⟩

theorem three_zero_iff (hp : p.length = off + 3) :
    readBe 1 off p ≠ 0 ∨ readBe 1 (off + 1) p ≠ 0 ∨ readBe 1 (off + 2) p ≠ 0 ↔
      p.drop off ≠ [0, 0, 0] := by
  have htake : p.drop off = (p.drop off).take 3 :=
    (take_of_length_le (by rw [length_drop]; omega)).symm
  rw [htake, ne_eq ((p.drop off).take 3), zero_cons_iff (by omega), zero_cons_iff (by omega),
    zero_cons_iff (by omega)]
  simp only [take_zero, and_true]
  rw [not_and_or, not_and_or]

theorem badPress_eq (hp : p.length = 8) {kind : UInt8} (hkind : kind = 8 ∨ kind = 9) :
    badPayloadAt kind p = some (decide (readBe 4 0 p = 0 ∨ readBe 4 0 p > 0xffff ∨
      readBe 1 4 p > 1 ∨ p.drop 5 ≠ [0, 0, 0])) := by
  have hzero := @three_zero_iff 5 p hp
  unfold badPayloadAt
  rw [if_pos hkind, loadBe_eq (by omega), loadBe_eq (by omega), loadBe_eq (by omega),
    loadBe_eq (by omega), loadBe_eq (by omega)]
  simp only [Option.map_some]
  rw [cOr_cons beq_iff_eq (cOr_cons decide_eq_true_iff (cOr_cons decide_eq_true_iff
    (cOr_cons bne_iff_ne (cOr_cons bne_iff_ne (cOr_last bne_iff_ne)))))]
  simp only [hzero]

theorem badFocus_eq (hp : p.length = 4) :
    badPayloadAt 11 p = some (decide (readBe 1 0 p > 1 ∨ p.drop 1 ≠ [0, 0, 0])) := by
  have hzero := @three_zero_iff 1 p hp
  unfold badPayloadAt
  rw [if_neg (by decide), if_neg (by decide), if_pos rfl, loadBe_eq (by omega),
    loadBe_eq (by omega), loadBe_eq (by omega), loadBe_eq (by omega)]
  simp only [Option.map_some]
  rw [cOr_cons decide_eq_true_iff (cOr_cons bne_iff_ne (cOr_cons bne_iff_ne
    (cOr_last bne_iff_ne)))]
  simp only [hzero]

theorem localToQdniAt_agrees (message : Bytes) (timeMsec : ℕ) (hout : out.length = 20) :
    ∃ r, localToQdniAt message timeMsec out = some r ∧
      AgreesPacket out (localToQdni message timeMsec) r := by
  have hrefused : ∃ r, some ({ code := -1, out } : CReply) = some r ∧ AgreesPacket out none r :=
    ⟨_, rfl, rfl⟩
  unfold localToQdniAt localToQdni
  rw [parseLocalMessageAt_eq, Option.bind_some]
  cases parseLocalMessage message with
  | none => exact hrefused
  | some m =>
    rcases m with ⟨kind, seq, p⟩
    dsimp only [Option.bind_eq_bind, Option.bind_some]
    by_cases hseq : seq ≠ 0
    · rw [if_pos hseq, if_pos hseq]
      exact hrefused
    rw [if_neg hseq, if_neg hseq]
    have htimed : ∀ eventType : UInt8, eventType ≠ 6 → p.length = 8 → _ := fun eventType hne hp =>
      timedPacket_agrees hout (fieldWrites_timed timeMsec hp hne)
    split
    · have hbad : p.length = 8 → badPayloadAt 7 p = some (decide False) := fun _ => rfl
      have h := encodeAt_agrees (k := 7) (s := seq) (n := 8) rfl rfl hbad
        (htimed 2 (by decide))
      simp only [or_false] at h
      exact h
    · exact encodeAt_agrees rfl rfl (fun hp => badPress_eq hp (.inl rfl)) (htimed 3 (by decide))
    · exact encodeAt_agrees rfl rfl (fun hp => badPress_eq hp (.inr rfl)) (htimed 4 (by decide))
    · refine encodeAt_agrees rfl rfl (fun hp => ?_) (htimed 5 (by decide))
      unfold badPayloadAt
      rw [if_neg (by decide), if_pos rfl, loadBe_eq (by omega)]
      rfl
    · refine encodeAt_agrees rfl rfl badFocus_eq fun hp => ?_
      refine writePacketAt_eq (f := [(8, writeLe 4 (readBe 1 0 p))]) hout ?_
        ⟨rfl, trivial⟩ ?_ ?_ (by decide)
      · unfold fieldWrites
        rw [if_pos rfl, loadBe_eq (by omega)]
        rfl
      · simp only [flatMap_cons, flatMap_nil, append_nil]
      · rfl
    · next h7 h8 h9 h10 h11 =>
      have hnone : eventOf kind = none := by
        unfold eventOf
        rw [if_neg h7, if_neg h8, if_neg h9, if_neg h10, if_neg h11]
      unfold encodeAt
      rw [hnone]
      exact hrefused

/-! ## There and back -/

/-- The packet with its event time replaced; the packet of a focus event has none. -/
def withTime (packet : Bytes) (timeMsec : ℕ) : Bytes :=
  if readBe 1 5 packet = 6 then packet
  else packet.take 8 ++ writeLe 4 timeMsec ++ packet.drop 12

theorem take_eight {t : UInt8} (hlen : 8 ≤ packet.length) (hmagic : packet.take 4 = qdniMagic)
    (hone : (packet.drop 4).take 1 = [1]) (htype : readBe 1 5 packet = t.toNat)
    (hsize : readLe 2 6 packet = packet.length - 8) :
    packet.take 8 = qdniMagic ++ [1, t] ++ writeLe 2 (packet.length - 8) := by
  have h5 := (readBe_one_iff (by omega) t).mp htype
  have h6 := @writeLe_readLe 6 packet 2 (by omega)
  rw [hsize] at h6
  calc packet.take 8
      = packet.take 4 ++ ((packet.drop 4).take 1 ++ (packet.drop 5).take 1) ++
          (packet.drop 6).take 2 := by
        rw [take_add (i := 6) (j := 2), take_add (i := 5) (j := 1),
          take_add (i := 4) (j := 1), append_assoc (packet.take 4)]
    _ = qdniMagic ++ [1, t] ++ writeLe 2 (packet.length - 8) := by
        rw [hmagic, hone, h5, h6]
        rfl

theorem drop_twelve (hlen : packet.length = 20) :
    packet.drop 12 = writeLe 4 (readLe 4 12 packet) ++ writeLe 4 (readLe 4 16 packet) := by
  have hdrop : (packet.drop 12).drop 4 = packet.drop 16 := drop_drop
  rw [writeLe_readLe (by omega), writeLe_readLe (by omega), ← hdrop, ← take_add,
    take_of_length_le (by rw [length_drop]; omega)]

theorem parse_buildLocalInput {kind : UInt8} {payload : Bytes}
    (hkind : 1 ≤ kind.toNat ∧ kind.toNat ≤ 16) (hlen : payload.length ≤ 8) :
    parseLocalMessage ((buildLocalInput kind payload).drop 4) = some ⟨kind, 0, payload⟩ := by
  have hdrop : (buildLocalInput kind payload).drop 4 =
      asciiBytes "QDML".toList ++ [1, kind, 0, 0] ++ pack 8 0 ++ payload := by
    unfold buildLocalInput framed
    exact drop_left' (length_pack 4 _)
  rw [hdrop]
  exact parseLocalMessage_eq (by decide) hkind (by omega)

theorem withTime_eq {t : UInt8} (timeMsec : ℕ) (hlen : packet.length = 20)
    (hmagic : packet.take 4 = qdniMagic) (hone : (packet.drop 4).take 1 = [1])
    (htype : readBe 1 5 packet = t.toNat) (hsize : readLe 2 6 packet = packet.length - 8)
    (hne : t ≠ 6) :
    withTime packet timeMsec =
      timedPacket t timeMsec (readLe 4 12 packet) (readLe 4 16 packet) := by
  have hne' : readBe 1 5 packet ≠ 6 := fun h => hne (UInt8.toNat_inj.mp (htype.symm.trans h))
  rw [withTime, if_neg hne', take_eight (by omega) hmagic hone htype hsize, drop_twelve hlen, hlen,
    timedPacket, ← append_assoc]

theorem readBe_pack_left (hn : n < 2 ^ 32) (b : Bytes) : readBe 4 0 (pack 4 n ++ b) = n :=
  readBe_eq (take_left' (length_pack 4 n)) (by omega)

theorem readBe_pack_right {m : ℕ} (hn : n < 2 ^ 32) :
    readBe 4 4 (pack 4 m ++ pack 4 n) = n := by
  refine readBe_eq ?_ (by omega)
  rw [drop_left' (length_pack 4 m), take_of_length_le (length_pack 4 n).le]

theorem press_back {t kind : UInt8} (timeMsec : ℕ)
    (hkind : t = 3 ∧ kind = 8 ∨ t = 4 ∧ kind = 9)
    (hok : ¬ (packet.length ≠ 20 ∨ readLe 4 12 packet = 0 ∨ readLe 4 12 packet > 0xffff ∨
      readLe 4 16 packet > 1))
    (hmagic : packet.take 4 = qdniMagic) (hone : (packet.drop 4).take 1 = [1])
    (htype : readBe 1 5 packet = t.toNat) (hsize : readLe 2 6 packet = packet.length - 8) :
    localToQdni ((buildLocalInput kind (pack 4 (readLe 4 12 packet) ++
      [UInt8.ofNat (readLe 4 16 packet), 0, 0, 0])).drop 4) timeMsec =
        some (withTime packet timeMsec) := by
  simp only [not_or, not_not, not_lt] at hok
  obtain ⟨hlen, hcode, hcode', hpressed⟩ := hok
  set payload := pack 4 (readLe 4 12 packet) ++ [UInt8.ofNat (readLe 4 16 packet), 0, 0, 0]
    with hpayload
  have h8 : payload.length = 8 := by simp [hpayload]
  have hx : readBe 4 0 payload = readLe 4 12 packet := readBe_pack_left (readLe_lt 12 packet) _
  have hy : readBe 1 4 payload = readLe 4 16 packet := by
    show 256 * 0 + (UInt8.ofNat (readLe 4 16 packet)).toNat = _
    rw [UInt8.toNat_ofNat']
    omega
  have hzero : payload.drop 5 = [0, 0, 0] := rfl
  rcases hkind with ⟨rfl, rfl⟩ | ⟨rfl, rfl⟩ <;>
  · rw [withTime_eq timeMsec hlen hmagic hone htype hsize (by decide), localToQdni,
      parse_buildLocalInput (by decide) h8.le]
    simp [h8, hx, hy, hzero, hcode, hcode', hpressed]

theorem focus_back (timeMsec : ℕ) (hok : ¬ (packet.length ≠ 12 ∨ readLe 4 8 packet > 1))
    (hmagic : packet.take 4 = qdniMagic) (hone : (packet.drop 4).take 1 = [1])
    (htype : readBe 1 5 packet = 6) (hsize : readLe 2 6 packet = packet.length - 8) :
    localToQdni ((buildLocalInput 11 [UInt8.ofNat (readLe 4 8 packet), 0, 0, 0]).drop 4) timeMsec =
      some (withTime packet timeMsec) := by
  simp only [not_or, not_not, not_lt] at hok
  obtain ⟨hlen, hfocused⟩ := hok
  have hread : readBe 1 0 [UInt8.ofNat (readLe 4 8 packet), 0, 0, 0] = readLe 4 8 packet := by
    show 256 * 0 + (UInt8.ofNat (readLe 4 8 packet)).toNat = _
    rw [UInt8.toNat_ofNat']
    omega
  have hpacket : packet = qdniMagic ++ [1, 6] ++ writeLe 2 4 ++ writeLe 4 (readLe 4 8 packet) := by
    have hhead := take_eight (t := 6) (by omega) hmagic hone htype hsize
    rw [hlen] at hhead
    rw [← hhead, writeLe_readLe (by omega), ← take_add, take_of_length_le hlen.le]
  rw [withTime, if_pos htype, localToQdni, parse_buildLocalInput (by decide) (by simp)]
  simp only [Option.bind_eq_bind, Option.bind_some, hread]
  rw [← hpacket]
  simp [hfocused]

/-- **There and back**: what the first translator makes of a packet the second turns into the
packet again, with the time it is given. -/
theorem localToQdni_qdniToLocal {wire : Bytes} (h : qdniToLocal packet = .output wire)
    (timeMsec : ℕ) : localToQdni (wire.drop 4) timeMsec = some (withTime packet timeMsec) := by
  unfold qdniToLocal at h
  by_cases hbad : packet.length < 8 ∨ packet.take 4 ≠ qdniMagic ∨
      (packet.drop 4).take 1 ≠ [1] ∨ readLe 2 6 packet ≠ packet.length - 8
  · rw [if_pos hbad] at h
    cases h
  rw [if_neg hbad] at h
  simp only [not_or, not_not, not_lt] at hbad
  obtain ⟨hlen, hmagic, hone, hsize⟩ := hbad
  have hx := readLe_lt 12 packet
  have hy := readLe_lt 16 packet
  split at h
  · split at h <;> cases h
  · next htype =>
    split at h
    · cases h
    · next h20 =>
      cases h
      rw [withTime_eq (t := 2) timeMsec (not_not.mp h20) hmagic hone htype hsize (by decide),
        localToQdni, parse_buildLocalInput (by decide) (by simp)]
      simp [readBe_pack_left hx, readBe_pack_right hy]
  · next htype =>
    dsimp only at h
    rw [htype, if_pos rfl] at h
    split at h
    · cases h
    · next hok =>
      cases h
      exact press_back (t := 3) timeMsec (.inl ⟨rfl, rfl⟩) hok hmagic hone htype hsize
  · next htype =>
    dsimp only at h
    rw [htype] at h
    split at h
    · cases h
    · next hok =>
      rw [if_neg (by decide)] at h
      cases h
      exact press_back (t := 4) timeMsec (.inr ⟨rfl, rfl⟩) hok hmagic hone htype hsize
  · next htype =>
    dsimp only at h
    split at h
    · cases h
    · next hok =>
      cases h
      simp only [not_or, not_not] at hok
      rw [withTime_eq (t := 5) timeMsec hok.1 hmagic hone htype hsize (by decide),
        localToQdni, parse_buildLocalInput (by decide) (by simp)]
      simp [readBe_pack_left hx, readBe_pack_right hy, hok.2]
  · next htype =>
    dsimp only at h
    split at h
    · cases h
    · next hok =>
      cases h
      exact focus_back timeMsec hok hmagic hone htype hsize
  · cases h

/-- The translators with their buffers: an output array of the declared size is never exceeded,
no byte outside the input is read, and an accepted packet comes back with the time given. -/
theorem translators_bounded_and_inverse :
    (∀ packet out : Bytes, out.length = 28 →
      ∃ r, qdniToLocalAt packet out = some r ∧ r.out.length = 28) ∧
    (∀ (message out : Bytes) (timeMsec : UInt32), out.length = 20 →
      ∃ r, localToQdniAt message timeMsec.toNat out = some r ∧ r.out.length = 20) ∧
    ∀ (packet out out' : Bytes) (r : CReply) (timeMsec : UInt32), out.length = 28 →
      out'.length = 20 → qdniToLocalAt packet out = some r → r.code = 0 →
      ∃ n r' m, r.outLen = some n ∧
        localToQdniAt ((r.out.take n).drop 4) timeMsec.toNat out' = some r' ∧ r'.code = 0 ∧
        r'.outLen = some m ∧ r'.out.take m = withTime packet timeMsec.toNat := by
  refine ⟨?_, ?_, ?_⟩
  · intro packet out hout
    obtain ⟨r, hr, hagrees⟩ := qdniToLocalAt_agrees packet hout
    refine ⟨r, hr, ?_⟩
    cases h : qdniToLocal packet with
    | malformed | ping =>
      rw [h] at hagrees
      rw [hagrees]
      exact hout
    | output wire =>
      rw [h] at hagrees
      exact hagrees.2.2.1.trans hout
  · intro message out timeMsec hout
    obtain ⟨r, hr, hagrees⟩ := localToQdniAt_agrees message timeMsec.toNat hout
    refine ⟨r, hr, ?_⟩
    cases h : localToQdni message timeMsec.toNat with
    | none =>
      rw [h] at hagrees
      rw [hagrees]
      exact hout
    | some packet =>
      rw [h] at hagrees
      exact hagrees.2.2.1.trans hout
  · intro packet out out' r timeMsec hout hout' hr hcode
    obtain ⟨r₁, hr₁, hagrees⟩ := qdniToLocalAt_agrees packet hout
    obtain rfl : r₁ = r := Option.some.inj (hr₁.symm.trans hr)
    cases h : qdniToLocal packet with
    | malformed | ping =>
      rw [h] at hagrees
      rw [hagrees] at hcode
      cases hcode
    | output wire =>
      rw [h] at hagrees
      obtain ⟨-, hn, hwritten⟩ := hagrees
      have htake : r₁.out.take wire.length = wire := (List.prefix_iff_eq_take.mp hwritten.2).symm
      obtain ⟨r', hr', hagrees'⟩ := localToQdniAt_agrees (wire.drop 4) timeMsec.toNat hout'
      rw [localToQdni_qdniToLocal h] at hagrees'
      obtain ⟨hcode', hm, hwritten'⟩ := hagrees'
      refine ⟨wire.length, r', _, hn, ?_, hcode', hm, ?_⟩
      · rw [htake]
        exact hr'
      · exact (List.prefix_iff_eq_take.mp hwritten'.2).symm

end HelperC

end RemoteNested
