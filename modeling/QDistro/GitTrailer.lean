/-
# Receipts in commit messages

`append_git_trailer` and `parse_git_trailer`: a `Qdistro-Lineage` trailer carries the Base64 of
an envelope's canonical bytes in the final paragraph of a commit message.

The writer checks neither the size of the value nor the trailers of the paragraph it joins, and
the reader lets a `TypeError` of `validate_envelope` through.  So a trailer is read back as the
last envelope of the message exactly when it fits and no trailer beside it has a kind that
cannot be looked up in a set.  Texts are lists of characters; the interpreter's limit on the
nesting of JSON is left out.
-/
import QDistro.Base64
import QDistro.LineageReceipts
import Mathlib.Data.List.DropRight

open JsonText

namespace Lineage

open List

open Base64

/-! ## Paragraphs -/

/-- `message.replace("\r\n", "\n")` -/
def joinCrLf : List Char → List Char
  | '\r' :: '\n' :: rest => '\n' :: joinCrLf rest
  | c :: rest => c :: joinCrLf rest
  | [] => []

/-- `_normalize_newlines` -/
def normalizeNewlines (message : List Char) : List Char :=
  (joinCrLf message).map fun c => if c = '\r' then '\n' else c

/-- `_normalize_newlines(message).rstrip("\n")` -/
def messageBody (message : List Char) : List Char :=
  (normalizeNewlines message).rdropWhile (· = '\n')

/-- `_final_paragraph`: the lines after the last blank one. -/
def finalParagraph (body : List Char) : List (List Char) :=
  if body = [] then [] else (body.splitOn '\n').rtakeWhile (· ≠ [])

/-- `[A-Za-z0-9-]` -/
def isTokenChar (c : Char) : Bool :=
  c.isUpper || c.isLower || c.isDigit || c = '-'

/-- `_TRAILER_LINE_RE.match(line)`; a colon is no character of the token. -/
def isTrailerLine (line : List Char) : Bool :=
  match line.takeWhile isTokenChar, line.dropWhile isTokenChar with
  | _ :: _, ':' :: ' ' :: _ :: _ => true
  | _, _ => false

/-- `_all_trailer_lines` -/
def allTrailerLines (lines : List (List Char)) : Bool :=
  !lines.isEmpty && lines.all isTrailerLine

/-! ## Writing -/

/-- `GIT_TRAILER_TOKEN + ": "` -/
def trailerStart : List Char := "Qdistro-Lineage: ".toList

/-- `GIT_TRAILER_MAX_VALUE_BYTES` -/
def gitTrailerMaxValueBytes : ℕ := 64 * 1024

/-- Whether the trailer joins the final paragraph of the body. -/
def joinsBlock (body : List Char) : Bool :=
  allTrailerLines (finalParagraph body) && (body.splitOn '\n').elem []

/-- The message with a trailer. -/
def withTrailer (u : UnicodeDb) (message trailer : List Char) : List Char :=
  let body := messageBody message
  if PyText.strip u body = [] then trailer ++ ['\n']
  else if joinsBlock body then body ++ '\n' :: trailer ++ ['\n']
  else body ++ '\n' :: '\n' :: trailer ++ ['\n']

/-- `append_git_trailer` -/
def appendGitTrailer (u : UnicodeDb) (message : List Char) (envelope : Json) :
    Except Exc (List Char) :=
  match validateEnvelope u (some "git-trailer") envelope with
  | .error e => .error e
  | .ok _ =>
    match canonicalBytes envelope with
    | none => .error (.valueError (unwritableText envelope))
    | some bytes => .ok (withTrailer u message (trailerStart ++ Base64.encode bytes))

/-! ## Reading -/

/-- `ReceiptError` -/
def Exc.isReceiptError : Exc → Bool
  | .malformedReceipt _ | .unsupportedReceipt _ => true
  | _ => false

/-- The value of a trailer up to its validation. -/
def trailerJson (u : UnicodeDb) (value : List Char) : Option Json :=
  if value = [] ∨ value.any u.isspace ∨ gitTrailerMaxValueBytes < value.length then none
  else (Base64.decode value).bind loadsStrict

/-- `_decode_trailer_value` -/
def decodeTrailerValue (u : UnicodeDb) (value : List Char) :
    Except Exc (Option (List (String × Json))) :=
  match trailerJson u value with
  | none => .ok none
  | some v =>
    match validateEnvelope u (some "git-trailer") v with
    | .ok env => .ok (some env)
    | .error e => if e.isReceiptError then .ok none else .error e

/-- The loop over the candidates. -/
def decodeTrailers (u : UnicodeDb) : List (List Char) → Except Exc (List (List (String × Json)))
  | [] => .ok []
  | value :: rest =>
    match decodeTrailerValue u value with
    | .error e => .error e
    | .ok none => decodeTrailers u rest
    | .ok (some env) => (decodeTrailers u rest).map (env :: ·)

/-- `ln[len(prefix):] for ln in last if ln.startswith(prefix)` -/
def trailerValues (lines : List (List Char)) : List (List Char) :=
  (lines.filter trailerStart.isPrefixOf).map (List.drop trailerStart.length)

/-- `parse_git_trailer` -/
def parseGitTrailer (u : UnicodeDb) (message : List Char) :
    Except Exc (List (List (String × Json))) :=
  let candidates := trailerValues (finalParagraph (messageBody message))
  if candidates = [] then .ok []
  else
    match decodeTrailers u candidates with
    | .error e => .error e
    | .ok [] =>
      .error (.malformedReceipt
        "Qdistro-Lineage trailer(s) present but none decoded to a valid receipt")
    | .ok out => .ok out

/-! ## The paragraph of the trailer -/

variable {u : UnicodeDb}

theorem normalizeNewlines_no_cr (message : List Char) : '\r' ∉ normalizeNewlines message := by
  intro h
  obtain ⟨c, -, hc⟩ := mem_map.mp h
  split at hc
  · cases hc
  · next hne => exact hne hc

theorem normalizeNewlines_eq {message : List Char} (h : '\r' ∉ message) :
    normalizeNewlines message = message := by
  have hjoin : joinCrLf message = message := by
    induction message using joinCrLf.induct with
    | case1 rest _ => exact absurd mem_cons_self h
    | case2 c rest hne ih =>
      rw [joinCrLf, ih fun hr => h (mem_cons_of_mem _ hr)]
      exact hne
    | case3 => rfl
  have hkeep : ∀ c ∈ message, (if c = '\r' then '\n' else c) = c := by
    intro c hc
    rw [if_neg]
    rintro rfl
    exact h hc
  rw [normalizeNewlines, hjoin, map_congr_left hkeep, map_id']

theorem messageBody_no_cr (message : List Char) : '\r' ∉ messageBody message := fun h =>
  normalizeNewlines_no_cr message (( rdropWhile_prefix _ _).subset h)

variable {line : List Char}

theorem messageBody_line {text : List Char} (hcr : '\r' ∉ text ++ line) (hnl : '\n' ∉ line)
    (hne : line ≠ []) : messageBody (text ++ line ++ ['\n']) = text ++ line := by
  have hcr' : '\r' ∉ text ++ line ++ ['\n'] := by
    simpa using hcr
  rw [messageBody, normalizeNewlines_eq hcr', rdropWhile_concat_pos _ _ _ (by rfl),
    rdropWhile_eq_self_iff]
  intro hl
  rw [getLast_append_of_ne_nil _ hne, decide_eq_true_iff]
  intro heq
  exact hnl (heq ▸ getLast_mem hne)

theorem finalParagraph_line (body : List Char) (hnl : '\n' ∉ line) (hne : line ≠ []) :
    finalParagraph (body ++ '\n' :: line) = finalParagraph body ++ [line] := by
  have hsplit : (body ++ '\n' :: line).splitOn '\n' = body.splitOn '\n' ++ [line] := by
    rw [splitOn_append_cons_self, splitOn_eq_singleton hnl]
  rw [finalParagraph, if_neg (by simp), hsplit, rtakeWhile_concat_pos _ _ _ (by simpa using hne)]
  congr 1
  rw [finalParagraph]
  split
  · next hempty =>
    rw [hempty]
    rfl
  · rfl

theorem finalParagraph_blank (body : List Char) : finalParagraph (body ++ ['\n']) = [] := by
  rw [finalParagraph, if_neg (by simp), splitOn_append_cons_self, splitOn_nil]
  exact rtakeWhile_concat_neg _ _ _ (by simp)

theorem finalParagraph_single (hnl : '\n' ∉ line) (hne : line ≠ []) :
    finalParagraph line = [line] := by
  have hkeep : ∀ l ∈ [line], decide (l ≠ []) = true := by
    simpa using hne
  rw [finalParagraph, if_neg hne, splitOn_eq_singleton hnl,
    rtakeWhile_eq_self_iff.mpr hkeep]

/-- The lines that a new trailer joins. -/
def joinedLines (u : UnicodeDb) (message : List Char) : List (List Char) :=
  let body := messageBody message
  if PyText.strip u body ≠ [] ∧ joinsBlock body then finalParagraph body else []

/-- **The final paragraph of a message with a trailer** ends in the trailer. -/
theorem finalParagraph_withTrailer (u : UnicodeDb) (message : List Char) {trailer : List Char}
    (hcr : '\r' ∉ trailer) (hnl : '\n' ∉ trailer) (hne : trailer ≠ []) :
    finalParagraph (messageBody (withTrailer u message trailer)) =
      joinedLines u message ++ [trailer] := by
  have hbody := messageBody_no_cr message
  rw [withTrailer, joinedLines]
  split
  · next hblank =>
    have hline : messageBody ([] ++ trailer ++ ['\n']) = [] ++ trailer :=
      messageBody_line (by simpa using hcr) hnl hne
    rw [nil_append] at hline
    rw [hline, finalParagraph_single hnl hne, if_neg (fun h => h.1 hblank)]
    rfl
  · next hne' =>
    split
    · next hjoins =>
      rw [show messageBody message ++ '\n' :: trailer ++ ['\n'] =
          (messageBody message ++ ['\n']) ++ trailer ++ ['\n'] by simp,
        messageBody_line (by simp [hbody, hcr]) hnl hne, append_assoc, singleton_append,
        finalParagraph_line _ hnl hne, if_pos ⟨hne', hjoins⟩]
    · next hjoins =>
      rw [show messageBody message ++ '\n' :: '\n' :: trailer ++ ['\n'] =
          (messageBody message ++ ['\n'] ++ ['\n']) ++ trailer ++ ['\n'] by simp,
        messageBody_line (by simp [hbody, hcr]) hnl hne, append_assoc, singleton_append,
        finalParagraph_line _ hnl hne, finalParagraph_blank, if_neg (fun h => hjoins h.2)]

/-! ## Values of trailers -/

theorem trailer_ascii {bytes : List UInt8} {c : Char}
    (h : c ∈ trailerStart ++ encode bytes) : 32 ≤ c.toNat ∧ c.toNat < 127 := by
  rcases mem_append.mp h with h | h
  · have hall : trailerStart.all (fun c => decide (32 ≤ c.toNat) && decide (c.toNat < 127)) = true :=
      rfl
    simpa using all_eq_true.mp hall c h
  · obtain ⟨hlow, hhigh, -⟩ := encode_ascii h
    exact ⟨by omega, hhigh⟩

theorem trailerValues_append (lines : List (List Char)) (value : List Char) :
    trailerValues (lines ++ [trailerStart ++ value]) = trailerValues lines ++ [value] := by
  have hstart : trailerStart.isPrefixOf (trailerStart ++ value) = true :=
    isPrefixOf_iff_prefix.mpr (prefix_append _ _)
  simp only [trailerValues, filter_append, map_append, filter_cons, hstart, if_true,
    filter_nil, map_cons, map_nil, drop_left]

/-! ## Envelopes with sorted keys -/

theorem isText_sortKeys (text : String) (v : Json) : isText text (sortKeys v) = isText text v := by
  cases v <;> simp only [sortKeys] <;> rfl

section

variable (v : Json)

theorem unhashable_sortKeys : unhashable (sortKeys v) = unhashable v := by
  cases v <;> simp only [sortKeys] <;> rfl

theorem isReceiptKind_sortKeys : isReceiptKind (sortKeys v) = isReceiptKind v := by
  cases v <;> simp only [sortKeys] <;> rfl

theorem isNonEmptyText_sortKeys : isNonEmptyText (sortKeys v) = isNonEmptyText v := by
  cases v <;> simp only [sortKeys] <;> rfl

theorem isInteger_sortKeys : isInteger (sortKeys v) = isInteger v := by
  cases v <;> simp only [sortKeys] <;> rfl

theorem isDigestOrNull_sortKeys : isDigestOrNull (sortKeys v) = isDigestOrNull v := by
  cases v <;> simp only [sortKeys] <;> rfl

theorem isTextOrNull_sortKeys : isTextOrNull (sortKeys v) = isTextOrNull v := by
  cases v <;> simp only [sortKeys] <;> rfl

theorem isNull_sortKeys : isNull (sortKeys v) = isNull v := by
  cases v <;> simp only [sortKeys] <;> rfl

end

theorem envelopeChecks_sortKeys {env : List (String × Json)} (h : Distinct (.obj env))
    (expected : Option String) :
    (envelopeChecks u expected (sortFields (sortKeysFields env))).map Prod.fst =
      (envelopeChecks u expected env).map Prod.fst := by
  rw [Distinct] at h
  have hlook := lookup_sortFields h.1
  have hfield : ∀ key, field (sortFields (sortKeysFields env)) key = sortKeys (field env key) := by
    intro key
    rw [field, hlook, field]
    cases PyDict.lookup env key with
    | none => simp [sortKeys]
    | some v => rfl
  simp only [envelopeChecks, map_append, map_map, map_cons, map_nil, hfield,
    isText_sortKeys, unhashable_sortKeys, isReceiptKind_sortKeys, isNonEmptyText_sortKeys,
    isInteger_sortKeys, isDigestOrNull_sortKeys, isTextOrNull_sortKeys, Function.comp_def,
    isNull_sortKeys, hlook, Option.isSome_map]

theorem validateEnvelope_sortKeys {env : List (String × Json)} {expected : Option String}
    (hd : Distinct (.obj env)) (h : validateEnvelope u expected (.obj env) = .ok env) :
    validateEnvelope u expected (sortKeys (.obj env)) = .ok (sortFields (sortKeysFields env)) := by
  obtain ⟨v, hok, -⟩ := except_map_ok h
  have hall : ∀ b ∈ (envelopeChecks u expected env).map Prod.fst, b = true := by
    intro b hb
    obtain ⟨c, hc, rfl⟩ := mem_map.mp hb
    exact runChecks_eq_ok.mp hok c hc
  rw [← envelopeChecks_sortKeys hd] at hall
  have hsorted := runChecks_eq_ok.mpr fun c hc => hall c.1 (mem_map.mpr ⟨c, hc, rfl⟩)
  rw [sortKeys, validateEnvelope, hsorted]
  rfl

/-! ## Kinds that cannot be looked up -/

/-- The value has the fields of an envelope up to its kind, and the kind is a list or a
dictionary. -/
def hasUnhashableKind : Json → Bool
  | .obj env =>
    (requiredKeys.all fun key => (PyDict.lookup env key).isSome) &&
      isText receiptSchema (field env "schema") && isText chainAlgo (field env "chain_algo") &&
      (unhashable (field env "kind")).isSome
  | _ => false

theorem runChecks_append (checks checks' : List (Bool × Exc)) :
    runChecks (checks ++ checks') = (runChecks checks).bind fun _ => runChecks checks' := by
  induction checks with
  | nil => rfl
  | cons c rest ih =>
    obtain ⟨ok, e⟩ := c
    cases ok with
    | false => rfl
    | true => exact ih

theorem runChecks_error {checks : List (Bool × Exc)} {e : Exc} (h : runChecks checks = .error e) :
    ∃ c ∈ checks, c.1 = false ∧ c.2 = e := by
  induction checks with
  | nil => cases h
  | cons c rest ih =>
    obtain ⟨ok, e'⟩ := c
    cases ok with
    | false =>
      cases h
      exact ⟨_, mem_cons_self, rfl, rfl⟩
    | true =>
      obtain ⟨c, hc, hfail⟩ := ih h
      exact ⟨c, mem_cons_of_mem _ hc, hfail⟩

theorem envelopeChecks_split (expected : Option String) (env : List (String × Json)) :
    envelopeChecks u expected env = (envelopeChecks u expected env).take 14 ++
      ((unhashable (field env "kind")).isNone,
        unhashableError ((unhashable (field env "kind")).getD "")) ::
      (envelopeChecks u expected env).drop 15 :=
  rfl

theorem isReceiptError_of_mem {expected : Option String} {env : List (String × Json)}
    {c : Bool × Exc}
    (h : c ∈ (envelopeChecks u expected env).take 14 ++ (envelopeChecks u expected env).drop 15) :
    c.2.isReceiptError = true := by
  simp only [envelopeChecks, requiredKeys, map_cons, map_nil, cons_append,
    nil_append, take_succ_cons, take_zero, drop_succ_cons, drop_zero,
    mem_cons, not_mem_nil, or_false] at h
  rcases h with rfl | rfl | rfl | rfl | rfl | rfl | rfl | rfl | rfl | rfl | rfl | rfl | rfl | rfl |
    rfl | rfl | rfl | rfl | rfl | rfl | rfl | rfl | rfl | rfl | rfl <;> rfl

/-- **Validation raises something other than a receipt error** exactly for these values. -/
theorem validateEnvelope_raises (expected : Option String) (v : Json) :
    (∃ e, validateEnvelope u expected v = .error e ∧ e.isReceiptError = false) ↔
      hasUnhashableKind v = true := by
  cases v with
  | obj env =>
    have hhead : runChecks ((envelopeChecks u expected env).take 14) = .ok () ↔
        (requiredKeys.all fun key => (PyDict.lookup env key).isSome) = true ∧
          isText receiptSchema (field env "schema") = true ∧
          isText chainAlgo (field env "chain_algo") = true := by
      rw [runChecks_eq_ok]
      simp [envelopeChecks, requiredKeys, and_assoc]
    have hfail : ∀ e, (runChecks ((envelopeChecks u expected env).take 14) = .error e ∨
        runChecks ((envelopeChecks u expected env).drop 15) = .error e) →
        e.isReceiptError = true := by
      rintro e (h | h)
      · obtain ⟨c, hc, -, rfl⟩ := runChecks_error h
        exact isReceiptError_of_mem (mem_append_left _ hc)
      · obtain ⟨c, hc, -, rfl⟩ := runChecks_error h
        exact isReceiptError_of_mem (mem_append_right _ hc)
    rw [validateEnvelope, envelopeChecks_split, runChecks_append, hasUnhashableKind,
      Bool.and_eq_true, Bool.and_eq_true, Bool.and_eq_true, and_assoc, and_assoc]
    cases hr : runChecks ((envelopeChecks u expected env).take 14) with
    | error e =>
      constructor
      · rintro ⟨e', he, hno⟩
        cases he
        rw [hfail e (.inl hr)] at hno
        cases hno
      · rintro ⟨hkeys, hschema, halgo, -⟩
        rw [hhead.mpr ⟨hkeys, hschema, halgo⟩] at hr
        cases hr
    | ok _ =>
      obtain ⟨hkeys, hschema, halgo⟩ := hhead.mp hr
      cases hkind : unhashable (field env "kind") with
      | none =>
        constructor
        · rintro ⟨e, he, hno⟩
          cases hrest : runChecks ((envelopeChecks u expected env).drop 15) with
          | error e' =>
            rw [Except.bind, runChecks, Option.isNone_none, if_pos rfl, hrest] at he
            cases he
            rw [hfail e (.inr hrest)] at hno
            cases hno
          | ok _ =>
            rw [Except.bind, runChecks, Option.isNone_none, if_pos rfl, hrest] at he
            cases he
        · rintro ⟨-, -, -, h⟩
          cases h
      | some name =>
        exact ⟨fun _ => ⟨hkeys, hschema, halgo, rfl⟩, fun _ => ⟨unhashableError name, rfl, rfl⟩⟩
  | _ => simp [validateEnvelope, hasUnhashableKind, Exc.isReceiptError]

/-! ## Decoding -/

/-- The envelope of a trailer value, if it decodes to one. -/
def decoded (u : UnicodeDb) (value : List Char) : Option (List (String × Json)) :=
  (decodeTrailerValue u value).toOption.join

/-- The value decodes to an envelope whose kind is a list or a dictionary. -/
def RaisesTypeError (u : UnicodeDb) (value : List Char) : Prop :=
  (trailerJson u value).any hasUnhashableKind = true

theorem decodeTrailerValue_eq (value : List Char) :
    (∃ e, decodeTrailerValue u value = .error e ∧ RaisesTypeError u value) ∨
      decodeTrailerValue u value = .ok (decoded u value) ∧ ¬ RaisesTypeError u value := by
  rw [decoded, decodeTrailerValue, RaisesTypeError]
  cases trailerJson u value with
  | none => exact .inr ⟨rfl, by simp⟩
  | some v =>
    have hraises := validateEnvelope_raises (u := u) (some "git-trailer") v
    cases hv : validateEnvelope u (some "git-trailer") v with
    | ok env =>
      refine .inr ⟨by simp only [hv]; rfl, fun h => ?_⟩
      obtain ⟨e, he, -⟩ := hraises.mpr h
      rw [hv] at he
      cases he
    | error e =>
      cases he : e.isReceiptError with
      | true =>
        refine .inr ⟨?_, fun h => ?_⟩
        · simp only [hv, he]
          rfl
        · obtain ⟨e', he', hno⟩ := hraises.mpr h
          rw [hv] at he'
          cases he'
          rw [he] at hno
          cases hno
      | false =>
        refine .inl ⟨e, ?_, hraises.mp ⟨e, hv, he⟩⟩
        simp only [hv, he]
        rfl

/-- **The loop over the candidates** returns unless one of them raises. -/
theorem decodeTrailers_eq_ok {values : List (List Char)} {out : List (List (String × Json))} :
    decodeTrailers u values = .ok out ↔
      (∀ value ∈ values, ¬ RaisesTypeError u value) ∧ out = values.filterMap (decoded u) := by
  induction values generalizing out with
  | nil =>
    rw [decodeTrailers]
    constructor
    · intro h
      cases h
      exact ⟨(fun _ hv => nomatch hv), rfl⟩
    · rintro ⟨-, rfl⟩
      rfl
  | cons value rest ih =>
    rw [decodeTrailers]
    rcases decodeTrailerValue_eq (u := u) value with ⟨e, he, hraises⟩ | ⟨hok, hquiet⟩
    · rw [he]
      constructor
      · intro h
        cases h
      · rintro ⟨hnone, -⟩
        exact absurd hraises (hnone value mem_cons_self)
    · rw [hok, forall_mem_cons, filterMap_cons]
      cases hd : decoded u value with
      | none =>
        dsimp only
        rw [ih]
        exact ⟨fun h => ⟨⟨hquiet, h.1⟩, h.2⟩, fun h => ⟨h.1.2, h.2⟩⟩
      | some env =>
        dsimp only
        constructor
        · intro h
          obtain ⟨out', hout', rfl⟩ := except_map_ok h
          obtain ⟨hrest, rfl⟩ := ih.mp hout'
          exact ⟨⟨hquiet, hrest⟩, rfl⟩
        · rintro ⟨⟨-, hrest⟩, rfl⟩
          rw [ih.mpr ⟨hrest, rfl⟩]
          rfl

theorem isspace_encode {bytes : List UInt8} : (encode bytes).any u.isspace = false := by
  rw [any_eq_false]
  intro c hc
  obtain ⟨hlow, hhigh, -⟩ := encode_ascii hc
  rw [u.isspace_ascii c (by omega), decide_eq_true_iff]
  omega

theorem trailerJson_encode {v : Json} {bytes : List UInt8} (hd : Distinct v)
    (h : canonicalBytes v = some bytes) :
    trailerJson u (encode bytes) =
      if 4 * ((bytes.length + 2) / 3) ≤ gitTrailerMaxValueBytes then some (sortKeys v) else none := by
  have hread := loadsStrict_canonicalBytes hd h
  have hne : encode bytes ≠ [] := by
    intro hempty
    have hbytes := decode_encode bytes
    rw [hempty] at hbytes
    cases hbytes
    cases hread
  rw [trailerJson, isspace_encode, length_encode, decode_encode, Option.bind_some,
    hread]
  by_cases hfits : 4 * ((bytes.length + 2) / 3) ≤ gitTrailerMaxValueBytes
  · rw [if_pos hfits, if_neg]
    rintro (hempty | hspace | hlong)
    · exact hne hempty
    · cases hspace
    · omega
  · rw [if_neg hfits, if_pos (.inr (.inr (by omega)))]

/-- **What the trailer of a valid envelope decodes to.** -/
theorem decoded_encode {env : List (String × Json)} {bytes : List UInt8}
    (hd : Distinct (.obj env)) (hvalid : validateEnvelope u (some "git-trailer") (.obj env) = .ok env)
    (h : canonicalBytes (.obj env) = some bytes) :
    ¬ RaisesTypeError u (encode bytes) ∧
      decoded u (encode bytes) =
        if 4 * ((bytes.length + 2) / 3) ≤ gitTrailerMaxValueBytes then
          some (sortFields (sortKeysFields env))
        else none := by
  have hjson := trailerJson_encode (u := u) hd h
  have hsorted := validateEnvelope_sortKeys hd hvalid
  constructor
  · rw [RaisesTypeError, hjson]
    split
    · rw [Option.any_some, ← validateEnvelope_raises (u := u) (some "git-trailer")]
      rintro ⟨e, he, -⟩
      rw [hsorted] at he
      cases he
    · simp
  · rw [decoded, decodeTrailerValue, hjson]
    by_cases hfits : 4 * ((bytes.length + 2) / 3) ≤ gitTrailerMaxValueBytes
    · simp only [if_pos hfits, hsorted]
      rfl
    · simp only [if_neg hfits]
      rfl

/-! ## The round trip -/

/-- The message with the trailer of the envelope parses, and the last envelope in it is the one
that was appended, as a dictionary. -/
def ReadsBack (u : UnicodeDb) (message : List Char) (env : List (String × Json)) : Prop :=
  ∃ message' out last, appendGitTrailer u message (.obj env) = .ok message' ∧
    parseGitTrailer u message' = .ok out ∧ out.getLast? = some last ∧
    sortKeys (.obj last) = sortKeys (.obj env)

/-- The values of the trailers beside which a new one would stand. -/
def valuesBeside (u : UnicodeDb) (message : List Char) : List (List Char) :=
  trailerValues (joinedLines u message)

/-- When a trailer is read back: the envelope has canonical bytes, their Base64 text is not too
long or the last envelope beside it is the same one, and no trailer beside it has an unhashable
kind. -/
structure TrailerReadable (u : UnicodeDb) (message : List Char) (env : List (String × Json)) :
    Prop where
  writable : hasAny isUnwritable (.obj env) = false
  beside : ∀ value ∈ valuesBeside u message, ¬ RaisesTypeError u value
  fits : ∀ bytes, canonicalBytes (.obj env) = some bytes →
    4 * ((bytes.length + 2) / 3) ≤ gitTrailerMaxValueBytes ∨
      ∃ last, ((valuesBeside u message).filterMap (decoded u)).getLast? = some last ∧
        sortKeys (.obj last) = sortKeys (.obj env)

theorem parseGitTrailer_eq_ok {message : List Char} {values : List (List Char)}
    {out : List (List (String × Json))} {last : List (String × Json)}
    (hvalues : trailerValues (finalParagraph (messageBody message)) = values) (hne : values ≠ []) :
    parseGitTrailer u message = .ok out ∧ out.getLast? = some last ↔
      (∀ value ∈ values, ¬ RaisesTypeError u value) ∧ out = values.filterMap (decoded u) ∧
        out.getLast? = some last := by
  rw [parseGitTrailer, hvalues, if_neg hne, ← and_assoc, ← decodeTrailers_eq_ok]
  refine and_congr_left fun hlast => ?_
  cases decodeTrailers u values with
  | error e => simp
  | ok found =>
    cases found with
    | nil =>
      constructor
      · intro h
        cases h
      · intro h
        cases h
        cases hlast
    | cons env rest => exact Iff.rfl

theorem trailer_line (bytes : List UInt8) : '\r' ∉ trailerStart ++ encode bytes ∧
    '\n' ∉ trailerStart ++ encode bytes ∧ trailerStart ++ encode bytes ≠ [] := by
  have hascii : ∀ c ∈ trailerStart ++ encode bytes, 32 ≤ c.toNat :=
    fun c hc => (trailer_ascii hc).1
  exact ⟨fun h => absurd (hascii '\r' h) (by decide), fun h => absurd (hascii '\n' h) (by decide),
    append_ne_nil_of_left_ne_nil (by decide) _⟩

/-- **The candidates of a message with a trailer**: those beside it, and its own value. -/
theorem trailerValues_withTrailer (u : UnicodeDb) (message : List Char) (bytes : List UInt8) :
    trailerValues (finalParagraph (messageBody
      (withTrailer u message (trailerStart ++ encode bytes)))) =
      valuesBeside u message ++ [encode bytes] := by
  obtain ⟨hcr, hnl, hne⟩ := trailer_line bytes
  rw [finalParagraph_withTrailer u message hcr hnl hne, trailerValues_append]
  rfl

theorem filterMap_decoded_append (values : List (List Char)) (value : List Char) :
    (values ++ [value]).filterMap (decoded u) =
      values.filterMap (decoded u) ++ (decoded u value).toList := by
  rw [filterMap_append, filterMap_cons, filterMap_nil]
  cases decoded u value <;> rfl

section RoundTrip

variable {message : List Char} {env : List (String × Json)}

theorem ReadsBack.readable (hd : Distinct (.obj env))
    (hvalid : validateEnvelope u (some "git-trailer") (.obj env) = .ok env)
    (h : ReadsBack u message env) : TrailerReadable u message env := by
  obtain ⟨message', out, last, happend, hparsed, hlast, hsame⟩ := h
  have hsome := canonicalBytes_isSome (.obj env)
  rw [appendGitTrailer, hvalid] at happend
  cases hbytes : canonicalBytes (.obj env) with
  | none =>
    rw [hbytes] at happend
    cases happend
  | some bytes =>
    rw [hbytes] at happend hsome
    cases happend
    obtain ⟨hall, rfl, -⟩ := (parseGitTrailer_eq_ok (trailerValues_withTrailer u message bytes)
      (by simp)).mp ⟨hparsed, hlast⟩
    refine ⟨by simpa using hsome, fun value hv => hall value (mem_append_left _ hv), ?_⟩
    intro bytes' hbytes'
    cases hbytes.symm.trans hbytes'
    by_cases hfits : 4 * ((bytes.length + 2) / 3) ≤ gitTrailerMaxValueBytes
    · exact .inl hfits
    · -- the trailer itself is dropped, so the last envelope was there before
      rw [filterMap_decoded_append, (decoded_encode hd hvalid hbytes).2, if_neg hfits,
        Option.toList_none, append_nil] at hlast
      exact .inr ⟨last, hlast, hsame⟩

theorem TrailerReadable.readsBack (hd : Distinct (.obj env))
    (hvalid : validateEnvelope u (some "git-trailer") (.obj env) = .ok env)
    (h : TrailerReadable u message env) : ReadsBack u message env := by
  have hsome := canonicalBytes_isSome (.obj env)
  rw [h.writable, Bool.not_false, Option.isSome_iff_exists] at hsome
  obtain ⟨bytes, hbytes⟩ := hsome
  obtain ⟨hquiet, hdecoded⟩ := decoded_encode hd hvalid hbytes
  have happend : appendGitTrailer u message (.obj env) =
      .ok (withTrailer u message (trailerStart ++ encode bytes)) := by
    rw [appendGitTrailer, hvalid, hbytes]
  have hall : ∀ value ∈ valuesBeside u message ++ [encode bytes],
      ¬ RaisesTypeError u value := by
    intro value hv
    rcases mem_append.mp hv with hv | hv
    · exact h.beside value hv
    · rw [mem_singleton.mp hv]
      exact hquiet
  -- the appended envelope is the last one, or else the last one beside it is the same
  obtain ⟨last, hlast, hsame⟩ : ∃ last, ((valuesBeside u message).filterMap (decoded u) ++
      (decoded u (encode bytes)).toList).getLast? = some last ∧
      sortKeys (.obj last) = sortKeys (.obj env) := by
    by_cases hfits : 4 * ((bytes.length + 2) / 3) ≤ gitTrailerMaxValueBytes
    · refine ⟨sortFields (sortKeysFields env), ?_, ?_⟩
      · rw [hdecoded, if_pos hfits, Option.toList_some, getLast?_concat]
      · have hsorted := sortKeys_sortKeys (.obj env)
        rwa [sortKeys] at hsorted
    · rw [hdecoded, if_neg hfits, Option.toList_none, append_nil]
      exact (h.fits bytes hbytes).resolve_left hfits
  rw [← filterMap_decoded_append] at hlast
  obtain ⟨hparsed, -⟩ := (parseGitTrailer_eq_ok (trailerValues_withTrailer u message bytes)
    (by simp)).mpr ⟨hall, rfl, hlast⟩
  exact ⟨_, _, last, happend, hparsed, hlast, hsame⟩

end RoundTrip

/-- **A valid envelope is read back from its trailer exactly when the trailer is readable.** -/
theorem git_trailer_reads_back_iff (message : List Char) (env : List (String × Json))
    (hd : Distinct (.obj env))
    (hvalid : validateEnvelope u (some "git-trailer") (.obj env) = .ok env) :
    ReadsBack u message env ↔ TrailerReadable u message env :=
  ⟨ReadsBack.readable hd hvalid, TrailerReadable.readsBack hd hvalid⟩

/-- An envelope of a commit, with a kind. -/
def commitEnvelope (kind : Json) : List (String × Json) :=
  [("schema", .str receiptSchema), ("kind", kind), ("entity", .str "commit:1"),
    ("artifact_digest", .null), ("locator", .null), ("issuer", .str "qdistro-broker"),
    ("chain_algo", .str chainAlgo), ("chain_head", .str "head"), ("signature_algo", .null),
    ("key_id", .null), ("signature", .null), ("created_at", .int 1)]

theorem distinct_commitEnvelope {kind : Json} (h : Distinct kind) :
    Distinct (.obj (commitEnvelope kind)) := by
  have hkeys : (commitEnvelope kind).map Prod.fst = requiredKeys := rfl
  have hstr : ∀ t, Distinct (.str t) := fun _ => trivial
  have hint : ∀ n, Distinct (.int n) := fun _ => trivial
  have hnull : Distinct .null := trivial
  rw [Distinct, hkeys]
  refine ⟨by decide, ?_⟩
  simp only [commitEnvelope, DistinctFields, h, hstr, hint, hnull, and_self]

theorem fits_of_length {v : Json} {bytes : List UInt8}
    (h : ((canonicalBytes v).all fun b => decide (b.length ≤ 49152)) = true)
    (hbytes : canonicalBytes v = some bytes) :
    4 * ((bytes.length + 2) / 3) ≤ gitTrailerMaxValueBytes := by
  rw [hbytes, Option.all_some, decide_eq_true_iff] at h
  show 4 * ((bytes.length + 2) / 3) ≤ 64 * 1024
  omega

theorem validate_commitEnvelope :
    validateEnvelope .ascii (some "git-trailer") (.obj (commitEnvelope (.str "git-trailer"))) =
      .ok (commitEnvelope (.str "git-trailer")) := by
  have hall : ∀ b ∈ (envelopeChecks .ascii (some "git-trailer")
      (commitEnvelope (.str "git-trailer"))).map Prod.fst, b = true := by decide +kernel
  rw [validateEnvelope, runChecks_eq_ok.mpr fun c hc => hall c.1 (mem_map.mpr ⟨c, hc, rfl⟩)]
  rfl

theorem bytes_commitEnvelope : ∃ bytes,
    canonicalBytes (.obj (commitEnvelope (.str "git-trailer"))) = some bytes ∧
      4 * ((bytes.length + 2) / 3) ≤ gitTrailerMaxValueBytes := by
  have hsome := canonicalBytes_isSome (.obj (commitEnvelope (.str "git-trailer")))
  rw [show hasAny isUnwritable (.obj (commitEnvelope (.str "git-trailer"))) = false by
    decide +kernel] at hsome
  obtain ⟨bytes, hbytes⟩ := Option.isSome_iff_exists.mp hsome
  exact ⟨bytes, hbytes, fits_of_length (by decide +kernel) hbytes⟩

theorem git_trailer_reads_back_subject :
    ReadsBack .ascii "Subject".toList (commitEnvelope (.str "git-trailer")) := by
  have hbeside : valuesBeside .ascii "Subject".toList = [] := by decide +kernel
  have hkind : Distinct (.str "git-trailer") := trivial
  refine (git_trailer_reads_back_iff "Subject".toList _ (distinct_commitEnvelope hkind)
    validate_commitEnvelope).mpr ⟨by decide +kernel, ?_, fun bytes hbytes => .inl ?_⟩
  · rw [hbeside]
    exact fun _ h => nomatch h
  · exact fits_of_length (by decide +kernel) hbytes

/-- The canonical bytes of an envelope whose kind is a list. -/
def strayBytes : List UInt8 := (canonicalBytes (.obj (commitEnvelope (.arr [])))).getD []

/-- A message that ends in a trailer with these bytes. -/
def strayMessage : List Char := "Subject\n\n".toList ++ (trailerStart ++ Base64.encode strayBytes)

/-- A valid envelope appended to this message is not read back: the other trailer of its
paragraph makes the parser raise. -/
theorem stray_trailer_raises :
    validateEnvelope .ascii (some "git-trailer") (.obj (commitEnvelope (.str "git-trailer"))) =
        .ok (commitEnvelope (.str "git-trailer")) ∧
      ¬ ReadsBack .ascii strayMessage (commitEnvelope (.str "git-trailer")) := by
  refine ⟨validate_commitEnvelope, fun h => ?_⟩
  have hkind : Distinct (.str "git-trailer") := trivial
  have hlist : Distinct (.arr []) := trivial
  have hread := h.readable (distinct_commitEnvelope hkind) validate_commitEnvelope
  have hmem : Base64.encode strayBytes ∈ valuesBeside .ascii strayMessage := by decide +kernel
  have hbytes : canonicalBytes (.obj (commitEnvelope (.arr []))) = some strayBytes := by
    have hsome := canonicalBytes_isSome (.obj (commitEnvelope (.arr [])))
    rw [show hasAny isUnwritable (.obj (commitEnvelope (.arr []))) = false by decide +kernel] at hsome
    obtain ⟨bytes, hbytes⟩ := Option.isSome_iff_exists.mp hsome
    rw [strayBytes, hbytes]
    rfl
  refine hread.beside _ hmem ?_
  rw [RaisesTypeError, trailerJson_encode (distinct_commitEnvelope hlist) hbytes,
    if_pos (fits_of_length (by decide +kernel) hbytes)]
  decide +kernel

/-! ## A trailer after others -/

theorem mem_of_mem_splitOn {a c : Char} {l : List Char} (hl : line ∈ l.splitOn a) (hc : c ∈ line) :
    c ∈ l := by
  induction l generalizing line with
  | nil =>
    rw [splitOn_nil, mem_singleton] at hl
    exact hl ▸ hc
  | cons x xs ih =>
    rw [splitOn_cons_eq_if_modifyHead] at hl
    split at hl
    · rcases mem_cons.mp hl with rfl | hl
      · exact absurd hc not_mem_nil
      · exact mem_cons_of_mem _ (ih hl hc)
    · obtain ⟨first, rest, hsplit⟩ := exists_cons_of_ne_nil (splitOn_ne_nil a xs)
      rw [hsplit, modifyHead_cons] at hl
      rcases mem_cons.mp hl with rfl | hl
      · rcases mem_cons.mp hc with rfl | hc
        · exact mem_cons_self
        · exact mem_cons_of_mem _ (ih (hsplit ▸ mem_cons_self) hc)
      · exact mem_cons_of_mem _ (ih (hsplit ▸ mem_cons_of_mem _ hl) hc)

theorem strip_ne_nil {l : List Char} {c : Char} (hc : c ∈ l) (hs : u.isspace c = false) :
    PyText.strip u l ≠ [] := by
  intro h
  rw [PyText.strip, reverse_eq_nil_iff, dropWhile_eq_nil_iff] at h
  rw [← takeWhile_append_dropWhile (p := u.isspace) (l := l), mem_append] at hc
  rcases hc with hc | hc
  · rw [mem_takeWhile_imp hc] at hs
    cases hs
  · rw [h c (mem_reverse.mpr hc)] at hs
    cases hs

theorem values_of_parse {message : List Char} {L : List (List (String × Json))}
    (h : parseGitTrailer u message = .ok L) :
    (∀ value ∈ trailerValues (finalParagraph (messageBody message)), ¬ RaisesTypeError u value) ∧
      L = (trailerValues (finalParagraph (messageBody message))).filterMap (decoded u) ∧
      (L = [] → trailerValues (finalParagraph (messageBody message)) = []) := by
  rw [parseGitTrailer] at h
  by_cases hnone : trailerValues (finalParagraph (messageBody message)) = []
  · rw [if_pos hnone] at h
    cases h
    rw [hnone]
    exact ⟨fun _ hv => absurd hv not_mem_nil, rfl, fun _ => rfl⟩
  rw [if_neg hnone] at h
  cases hdec : decodeTrailers u (trailerValues (finalParagraph (messageBody message))) with
  | error e =>
    rw [hdec] at h
    cases h
  | ok found =>
    rw [hdec] at h
    obtain ⟨hquiet, hfound⟩ := decodeTrailers_eq_ok.mp hdec
    cases found with
    | nil => cases h
    | cons first rest =>
      cases h
      exact ⟨hquiet, hfound, fun hempty => absurd hempty (cons_ne_nil _ _)⟩

theorem valuesBeside_eq {message : List Char}
    (hsome : trailerValues (finalParagraph (messageBody message)) ≠ []) :
    valuesBeside u message =
      if joinsBlock (messageBody message) then trailerValues (finalParagraph (messageBody message))
      else [] := by
  have hstrip : PyText.strip u (messageBody message) ≠ [] := by
    obtain ⟨value, hvalue⟩ := exists_mem_of_ne_nil _ hsome
    obtain ⟨line, hline, -⟩ := mem_map.mp hvalue
    obtain ⟨hline, hstart⟩ := mem_filter.mp hline
    -- the line starts with a letter, so the body is not blank
    have hletter : 'Q' ∈ line := ( isPrefixOf_iff_prefix.mp hstart).subset (by decide)
    rw [finalParagraph] at hline
    split at hline
    · exact absurd hline not_mem_nil
    · have hsplit := (rtakeWhile_suffix _ _).subset hline
      refine strip_ne_nil (mem_of_mem_splitOn hsplit hletter) ?_
      rw [u.isspace_ascii 'Q' (by decide)]
      decide
  rw [valuesBeside, joinedLines]
  by_cases hjoins : joinsBlock (messageBody message)
  · rw [if_pos ⟨hstrip, hjoins⟩, if_pos hjoins]
  · rw [if_neg fun h => hjoins h.2, if_neg hjoins]
    rfl

theorem parse_withTrailer {message : List Char} {env : List (String × Json)} {bytes : List UInt8}
    (hd : Distinct (.obj env))
    (hvalid : validateEnvelope u (some "git-trailer") (.obj env) = .ok env)
    (hbytes : canonicalBytes (.obj env) = some bytes)
    (hfits : 4 * ((bytes.length + 2) / 3) ≤ gitTrailerMaxValueBytes)
    (hbeside : ∀ value ∈ valuesBeside u message, ¬ RaisesTypeError u value) :
    parseGitTrailer u (withTrailer u message (trailerStart ++ encode bytes)) =
      .ok ((valuesBeside u message).filterMap (decoded u) ++ [sortFields (sortKeysFields env)]) := by
  obtain ⟨hquiet, hdecoded⟩ := decoded_encode hd hvalid hbytes
  have hall : ∀ value ∈ valuesBeside u message ++ [encode bytes],
      ¬ RaisesTypeError u value := by
    intro value hv
    rcases mem_append.mp hv with hv | hv
    · exact hbeside value hv
    · rw [mem_singleton.mp hv]
      exact hquiet
  refine ((parseGitTrailer_eq_ok (trailerValues_withTrailer u message bytes) (by simp)).mpr
    ⟨hall, ?_, getLast?_concat⟩).1
  rw [filterMap_decoded_append, hdecoded, if_pos hfits]
  rfl

/-- The message with the trailer of the envelope parses to the envelopes `L` and then, as a
dictionary, the one that was appended. -/
def KeepsTrailers (u : UnicodeDb) (message : List Char) (L : List (List (String × Json)))
    (env : List (String × Json)) : Prop :=
  ∃ message' last, appendGitTrailer u message (.obj env) = .ok message' ∧
    parseGitTrailer u message' = .ok (L ++ [last]) ∧ sortKeys (.obj last) = sortKeys (.obj env)

theorem not_keepsTrailers {message : List Char} {L : List (List (String × Json))}
    {env : List (String × Json)} {bytes : List UInt8} (hd : Distinct (.obj env))
    (hvalid : validateEnvelope u (some "git-trailer") (.obj env) = .ok env)
    (hbytes : canonicalBytes (.obj env) = some bytes)
    (hfits : 4 * ((bytes.length + 2) / 3) ≤ gitTrailerMaxValueBytes)
    (hbeside : valuesBeside u message = []) (hL : L ≠ []) : ¬ KeepsTrailers u message L env := by
  rintro ⟨message', last, happend, hparse, -⟩
  rw [appendGitTrailer, hvalid, hbytes] at happend
  cases happend
  rw [parse_withTrailer hd hvalid hbytes hfits (by rw [hbeside]; exact fun _ h => (by cases h)),
    hbeside] at hparse
  have hlen := congrArg length (Except.ok.inj hparse)
  rw [filterMap_nil, nil_append, length_append] at hlen
  have := length_pos_iff.mpr hL
  simp only [length_singleton] at hlen
  omega

/-- **Appending a trailer keeps the ones there are** exactly when there are none, or the final
paragraph has only trailers and another one before it. -/
theorem trailers_kept_iff {message : List Char} {L : List (List (String × Json))}
    {env : List (String × Json)} {bytes : List UInt8} (hparse : parseGitTrailer u message = .ok L)
    (hd : Distinct (.obj env))
    (hvalid : validateEnvelope u (some "git-trailer") (.obj env) = .ok env)
    (hbytes : canonicalBytes (.obj env) = some bytes)
    (hfits : (Base64.encode bytes).length ≤ gitTrailerMaxValueBytes) :
    KeepsTrailers u message L env ↔ L = [] ∨ joinsBlock (messageBody message) = true := by
  rw [Base64.length_encode] at hfits
  obtain ⟨hquiet, hL, hnone⟩ := values_of_parse hparse
  have happend : appendGitTrailer u message (.obj env) =
      .ok (withTrailer u message (trailerStart ++ Base64.encode bytes)) := by
    rw [appendGitTrailer, hvalid, hbytes]
  have hsame : sortKeys (.obj (sortFields (sortKeysFields env))) = sortKeys (.obj env) := by
    have hsorted := sortKeys_sortKeys (.obj env)
    rwa [sortKeys] at hsorted
  by_cases hempty : trailerValues (finalParagraph (messageBody message)) = []
  · have hbeside : valuesBeside u message = [] := by
      rw [valuesBeside, joinedLines]
      split
      · exact hempty
      · rfl
    have hLnil : L = [] := by rw [hL, hempty, List.filterMap_nil]
    refine ⟨fun _ => .inl hLnil, fun _ => ?_⟩
    refine ⟨_, sortFields (sortKeysFields env), happend, ?_, hsame⟩
    rw [parse_withTrailer hd hvalid hbytes hfits (by rw [hbeside]; exact fun _ h => (by cases h)),
      hbeside, hLnil, List.filterMap_nil]
  have hbeside := valuesBeside_eq (u := u) hempty
  have hLne : L ≠ [] := fun h => hempty (hnone h)
  by_cases hjoins : joinsBlock (messageBody message) = true
  · rw [if_pos hjoins] at hbeside
    refine ⟨fun _ => .inr hjoins, fun _ => ?_⟩
    refine ⟨_, sortFields (sortKeysFields env), happend, ?_, hsame⟩
    rw [parse_withTrailer hd hvalid hbytes hfits (by rw [hbeside]; exact hquiet), hbeside, ← hL]
  · rw [if_neg hjoins] at hbeside
    constructor
    · exact fun h => absurd h (not_keepsTrailers hd hvalid hbytes hfits hbeside hLne)
    · rintro (h | h)
      · exact absurd h hLne
      · exact absurd h hjoins

/-- A message without a trailer. -/
theorem trailers_kept_subject :
    KeepsTrailers .ascii "Subject".toList [] (commitEnvelope (.str "git-trailer")) := by
  have hkind : Distinct (.str "git-trailer") := trivial
  obtain ⟨bytes, hbytes, hfits⟩ := bytes_commitEnvelope
  have hparse : parseGitTrailer .ascii "Subject".toList = .ok [] := by
    rw [parseGitTrailer, if_pos (by decide +kernel)]
  exact (trailers_kept_iff hparse (distinct_commitEnvelope hkind) validate_commitEnvelope hbytes
    (by rw [Base64.length_encode]; exact hfits)).mpr (.inl rfl)

/-- What `git cherry-pick -x` adds. -/
def cherryPicked : List Char := "(cherry picked from commit 0123abc)".toList

/-- A message with a trailer that was picked. -/
def pickedMessage (trailer : List Char) : List Char :=
  "Subject\n".toList ++ '\n' :: trailer ++ ['\n'] ++ cherryPicked ++ ['\n']

theorem messageBody_picked (hcr : '\r' ∉ line) :
    messageBody (pickedMessage line) =
      "Subject\n".toList ++ '\n' :: line ++ '\n' :: cherryPicked := by
  have hsubject : '\r' ∉ "Subject\n".toList := by decide
  have hpicked : '\r' ∉ cherryPicked ∧ '\n' ∉ cherryPicked ∧ cherryPicked ≠ [] := by decide
  unfold pickedMessage
  generalize "Subject\n".toList = subject at hsubject ⊢
  have hall : '\r' ∉ subject ++ '\n' :: line ++ ['\n'] ++ cherryPicked := by
    simp [hsubject, hcr, hpicked.1]
  rw [messageBody_line hall hpicked.2.1 hpicked.2.2, append_assoc (subject ++ '\n' :: line),
    singleton_append]

/-- Another trailer goes into a paragraph of its own, where the parser no longer sees the first. -/
theorem cherry_pick_hides : ∃ bytes L,
    canonicalBytes (.obj (commitEnvelope (.str "git-trailer"))) = some bytes ∧
    (Base64.encode bytes).length ≤ gitTrailerMaxValueBytes ∧
    parseGitTrailer .ascii (pickedMessage (trailerStart ++ Base64.encode bytes)) = .ok L ∧
    ¬ KeepsTrailers .ascii (pickedMessage (trailerStart ++ Base64.encode bytes)) L
      (commitEnvelope (.str "git-trailer")) := by
  have hkind : Distinct (.str "git-trailer") := trivial
  have hd := distinct_commitEnvelope hkind
  obtain ⟨bytes, hbytes, hfits⟩ := bytes_commitEnvelope
  obtain ⟨hquiet, hdecoded⟩ := decoded_encode hd validate_commitEnvelope hbytes
  rw [if_pos hfits] at hdecoded
  obtain ⟨hcr, hnl, hne⟩ := trailer_line bytes
  generalize hline : trailerStart ++ Base64.encode bytes = line at hcr hnl hne
  have hbody : messageBody (pickedMessage line) =
      "Subject\n".toList ++ '\n' :: line ++ '\n' :: cherryPicked :=
    messageBody_picked hcr
  have hlines : finalParagraph (messageBody (pickedMessage line)) = [line, cherryPicked] := by
    have hblank : finalParagraph "Subject\n".toList = [] := by decide +kernel
    have hpicked : '\n' ∉ cherryPicked ∧ cherryPicked ≠ [] := by decide
    rw [hbody, finalParagraph_line _ hpicked.1 hpicked.2, finalParagraph_line _ hnl hne, hblank]
    rfl
  have hvalues : trailerValues (finalParagraph (messageBody (pickedMessage line))) =
      [Base64.encode bytes] := by
    have hpicked : trailerValues [cherryPicked] = [] := by decide
    have hone := trailerValues_append [] (Base64.encode bytes)
    rw [hline] at hone
    rw [hlines, show [line, cherryPicked] = [line] ++ [cherryPicked] from rfl, trailerValues,
      List.filter_append, List.map_append]
    exact congrArg₂ (· ++ ·) hone hpicked
  have hbeside : valuesBeside .ascii (pickedMessage line) = [] := by
    have hjoins : joinsBlock (messageBody (pickedMessage line)) = false := by
      rw [joinsBlock, hlines, allTrailerLines, List.all_cons, List.all_cons,
        show isTrailerLine cherryPicked = false by decide]
      simp
    rw [valuesBeside_eq (by rw [hvalues]; simp), if_neg (by rw [hjoins]; simp)]
  refine ⟨bytes, [sortFields (sortKeysFields (commitEnvelope (.str "git-trailer")))], hbytes,
    by rw [Base64.length_encode]; exact hfits, ?_, ?_⟩
  · rw [hline]
    refine ((parseGitTrailer_eq_ok hvalues (by simp)).mpr
      ⟨?_, ?_, List.getLast?_singleton⟩).1
    · intro value hv
      rw [List.mem_singleton.mp hv]
      exact hquiet
    · rw [List.filterMap_cons, hdecoded, List.filterMap_nil]
  · rw [hline]
    exact not_keepsTrailers hd validate_commitEnvelope hbytes hfits hbeside (by simp)

end Lineage
