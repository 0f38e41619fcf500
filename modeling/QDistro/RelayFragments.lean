/-
# Relay policy fragments

The generated D-Bus policy files of the session manager: one file for each silo, named after the
silo, with the silo's uid in its text.  `relay_policy_uids` reads the numeric users of a file with
a regular expression that matches the generated spelling only.

A file name determines the silo (`relayPolicySiloName_eq_some`), and the numeric users that the
expression finds in a generated text are exactly its uid (`policyUids_relayPolicyXml`).
-/
import QDistro.PyText

namespace Silo

open List

/-! ## Silo names -/

/-- The first character of a name: `[a-z_]`. -/
def nameHead (c : Char) : Bool := ('a' ≤ c && c ≤ 'z') || c = '_'

/-- The other characters of a name: `[a-z0-9_-]`. -/
def nameTail (c : Char) : Bool := nameHead c || ('0' ≤ c && c ≤ '9') || c = '-'

/-- `validate_name` -/
def validName (name : String) : Bool :=
  (match name.toList with
    | [] => false
    | c :: rest => nameHead c && rest.all nameTail && rest.length ≤ 31) &&
  !(["admin", "root", "qdistro"].contains name)

/-- A name that `validate_name` accepts. -/
abbrev SiloName := { name : String // validName name = true }

theorem SiloName.nameTail_of_mem (n : SiloName) : ∀ c ∈ n.val.toList, nameTail c = true := by
  obtain ⟨name, h⟩ := n
  intro c hc
  simp only [validName, Bool.and_eq_true] at h
  rcases hl : name.toList with _ | ⟨d, rest⟩
  · rw [hl] at hc
    cases hc
  · rw [hl] at h hc
    simp only [Bool.and_eq_true, all_eq_true] at h
    rcases mem_cons.mp hc with rfl | hc
    · simp [nameTail, h.1.1.1]
    · exact h.1.1.2 c hc

/-! ## File names -/

/-- `RELAY_POLICY_PREFIX` -/
def relayPolicyPrefix : String := "org.qdistro.UserRelay.silo-"

/-- `relay_policy_filename` -/
def relayPolicyFilename (n : SiloName) : String := relayPolicyPrefix ++ n.val ++ ".conf"

/-- `relay_policy_silo_name`: the silo of a generated fragment. -/
def relayPolicySiloName (filename : String) : Option SiloName :=
  if relayPolicyPrefix.toList.isPrefixOf filename.toList &&
      ".conf".toList.isSuffixOf filename.toList then
    let rest := filename.toList.drop relayPolicyPrefix.toList.length
    let stem := String.ofList (rest.take (rest.length - ".conf".toList.length))
    if h : validName stem = true then some ⟨stem, h⟩ else none
  else none

theorem take_conf (l : List Char) :
    (l ++ ".conf".toList).take ((l ++ ".conf".toList).length - ".conf".toList.length) = l := by
  rw [length_append, Nat.add_sub_cancel, take_left]

theorem relayPolicySiloName_filename (n : SiloName) :
    relayPolicySiloName (relayPolicyFilename n) = some n := by
  have hlist : (relayPolicyFilename n).toList =
      relayPolicyPrefix.toList ++ (n.val.toList ++ ".conf".toList) := by
    simp only [relayPolicyFilename, String.toList_append, append_assoc]
  unfold relayPolicySiloName
  rw [hlist]
  have hstart : relayPolicyPrefix.toList.isPrefixOf
      (relayPolicyPrefix.toList ++ (n.val.toList ++ ".conf".toList)) = true := by
    rw [ isPrefixOf_iff_prefix]
    exact prefix_append _ _
  have hsuffix : ".conf".toList.isSuffixOf
      (relayPolicyPrefix.toList ++ (n.val.toList ++ ".conf".toList)) = true := by
    rw [isSuffixOf_iff_suffix, ← append_assoc]
    exact suffix_append _ _
  simp only [hstart, hsuffix, Bool.and_self, if_true, drop_left, take_conf,
    String.ofList_toList, n.property, dif_pos, -String.reduceToList]

theorem relayPolicyFilename_injective {n m : SiloName}
    (h : relayPolicyFilename n = relayPolicyFilename m) : n = m := by
  have hn := relayPolicySiloName_filename n
  rw [h, relayPolicySiloName_filename] at hn
  exact (Option.some.inj hn).symm

/-! ## The generated text -/

/-- `RELAY_BUS_NAME_FMT.format(uid=uid)` -/
def relayBusName (uid : ℕ) : String := "org.qdistro.UserRelay.uid" ++ uid.repr

/-- The text up to the silo's name. -/
def xmlHead : String := "<!DOCTYPE busconfig PUBLIC
 \"-//freedesktop//DTD D-Bus Bus Configuration 1.0//EN\"
 \"http://www.freedesktop.org/standards/dbus/1.0/busconfig.dtd\">
<busconfig>
  <!-- GENERATED by qdistro-session-manager for silo \""

/-- The text between the silo's uid in the comment and the first bus name. -/
def xmlRoot : String := ").
       Do not edit: rewritten when the silo is created, removed when it is
       deleted, and reconciled against silos.yaml at daemon startup. -->

  <!-- The broker (root) calls ListLocalReceivers + Forward on the relay. -->
  <policy user=\"root\">
    <allow send_destination=\""

/-- The text between the bus names and the policy of the silo. -/
def xmlComment : String := "\"/>
  </policy>

  <!-- Only this silo's own uid may own this silo's relay name. The relay
       derives the name from os.geteuid(), so it cannot ask for another
       silo's name; this policy is what stops a silo that tries anyway.

       Keyed on the NUMERIC uid, not the username. dbus resolves a
       `user=` attribute as a uid when it parses as one. The username is
       the wrong key for two reasons: it is what made this whole grant
       unreachable in the first place (the static rules named `work` and
       `work2`, users nothing ever creates), and a username is recyclable
       — userdel frees it, and a fragment stranded by a crash mid-delete
       would then grant a silo's relay name to whoever next takes the
       name. A uid is the silo's durable identity: it is what the relay
       runs as (`User=%i` in qdistro-user-relay@.service), what it derives
       its bus name from, and what the silo row is keyed on. -->
  "

/-- The text between the two bus names of the broker's policy. -/
def xmlReceive : String := "\"/>
    <allow receive_sender=\""

/-- The text between the uid of the silo's policy and the name it may own, less a quote. -/
def xmlOwn : String := ">
    <allow own=\""

/-- The text between the name the silo may own and the name that nobody else may. -/
def xmlDefault : String := "\"/>
  </policy>

  <policy context=\"default\">
    <deny own=\""

/-- The end of the text. -/
def xmlTail : String := "\"/>
  </policy>
</busconfig>
"

/-- `relay_policy_xml` -/
def relayPolicyXml (n : SiloName) (uid : ℕ) : String :=
  xmlHead ++ n.val ++ "\" (uid " ++ uid.repr ++ xmlRoot ++ relayBusName uid ++ xmlReceive ++
    relayBusName uid ++ xmlComment ++ "<policy user=\"" ++ uid.repr ++ "\"" ++ xmlOwn ++
    relayBusName uid ++ xmlDefault ++ relayBusName uid ++ xmlTail

/-! ## Reading a fragment -/

/-- What is in a file: text, or bytes that are not UTF-8. -/
inductive Content
  | text (s : String)
  | bytes (b : List UInt8)
  deriving DecidableEq

/-- The line ends of a file opened in text mode. -/
def universalNewlines : List Char → List Char
  | '\r' :: '\n' :: rest => '\n' :: universalNewlines rest
  | '\r' :: rest => '\n' :: universalNewlines rest
  | c :: rest => c :: universalNewlines rest
  | [] => []

/-- `p.read_text(encoding="utf-8")`, or `none` where it raises `UnicodeDecodeError`. -/
def readText : Content → Option (List Char)
  | .text s => some (universalNewlines s.toList)
  | .bytes _ => none

/-- What follows the given text. -/
def after? : List Char → List Char → Option (List Char)
  | [], s => some s
  | c :: cs, d :: s => if c = d then after? cs s else none
  | _ :: _, [] => none

section Reading

variable (u : UnicodeDb)

/-- `<policy\s+user="(\d+)"` at the head of a text: the digits of the group. -/
def matchPolicy (s : List Char) : Option (List Char) :=
  (after? "<policy".toList s).bind fun rest =>
    if (rest.takeWhile u.isspace).isEmpty then none
    else (after? "user=\"".toList (rest.dropWhile u.isspace)).bind fun rest =>
      let digits := rest.takeWhile fun c => (u.decimal c).isSome
      if digits.isEmpty then none
      else (after? ['"'] (rest.dropWhile fun c => (u.decimal c).isSome)).map fun _ => digits

/-- `re.finditer`: a match holds one `<`, its first character, so that matches never overlap. -/
def findPolicies : List Char → List (List Char)
  | [] => []
  | c :: rest => (matchPolicy u (c :: rest)).toList ++ findPolicies rest

/-- `int(digits)`, or `none` where it raises `ValueError` on more than 4300 digits. -/
def groupValue (digits : List Char) : Option ℕ :=
  if 4300 < digits.length then none
  else some (digits.foldl (fun acc c => 10 * acc + (u.decimal c).getD 0) 0)

/-- `relay_policy_uids` on a file that can be opened, or `none` where it raises. -/
def policyUids (c : Content) : Option (List ℕ) :=
  (readText c).bind fun s => (findPolicies u s).mapM (groupValue u)

/-! ## The numeric users of a generated text -/

variable {u : UnicodeDb}

variable {l : List Char}

theorem universalNewlines_eq_self (h : '\r' ∉ l) : universalNewlines l = l := by
  induction l with
  | nil => rfl
  | cons c l ih =>
    rw [mem_cons, not_or] at h
    rw [universalNewlines.eq_3 c l (fun rest hc => by exact absurd hc (Ne.symm h.1))
      (fun hc => by exact absurd hc (Ne.symm h.1)), ih h.2]

theorem matchPolicy_of_ne {c : Char} (h : c ≠ '<') (rest : List Char) :
    matchPolicy u (c :: rest) = none := by
  have hlit : "<policy".toList = '<' :: "policy".toList := rfl
  rw [matchPolicy, hlit, after?, if_neg (Ne.symm h), Option.bind_none]

theorem findPolicies_append_of_not_mem (h : '<' ∉ l) (rest : List Char) :
    findPolicies u (l ++ rest) = findPolicies u rest := by
  induction l with
  | nil => rfl
  | cons c l ih =>
    rw [mem_cons, not_or] at h
    rw [cons_append, findPolicies, matchPolicy_of_ne (Ne.symm h.1), Option.toList_none,
      nil_append, ih h.2]

/-- The beginnings of the generated text's elements that are no numeric policy. -/
def plain : List Char → Bool
  | '<' :: c :: rest =>
    c ≠ 'p' || "<policy user=\"r".toList.isPrefixOf ('<' :: c :: rest) ||
      "<policy c".toList.isPrefixOf ('<' :: c :: rest)
  | '<' :: [] => false
  | _ => true

theorem matchPolicy_of_plain {s : List Char} (hne : s ≠ []) (h : plain s = true)
    (rest : List Char) : matchPolicy u (s ++ rest) = none := by
  have hspace : u.isspace ' ' = true := by rw [u.isspace_ascii _ (by decide)]; rfl
  have hu : u.isspace 'u' = false := by rw [u.isspace_ascii _ (by decide)]; rfl
  have hc : u.isspace 'c' = false := by rw [u.isspace_ascii _ (by decide)]; rfl
  have hr : u.decimal 'r' = none := by rw [u.decimal_ascii _ (by decide)]; rfl
  have hlit : "<policy".toList = ['<', 'p', 'o', 'l', 'i', 'c', 'y'] := rfl
  have huser : "user=\"".toList = ['u', 's', 'e', 'r', '=', '"'] := rfl
  unfold plain at h
  split at h
  · next c t =>
      rw [Bool.or_eq_true, Bool.or_eq_true, isPrefixOf_iff_prefix,
        isPrefixOf_iff_prefix] at h
      rcases h with (h | ⟨t', h⟩) | ⟨t', h⟩
      · have hcp : ¬ 'p' = c := by
          rintro rfl
          exact absurd h (by decide)
        rw [matchPolicy, hlit, cons_append, cons_append, after?, if_pos rfl, after?,
          if_neg hcp, Option.bind_none]
      · rw [← h]
        have : "<policy user=\"r".toList =
          ['<', 'p', 'o', 'l', 'i', 'c', 'y', ' ', 'u', 's', 'e', 'r', '=', '"', 'r'] := rfl
        simp [matchPolicy, hlit, huser, this, after?, hspace, hu, hr]
      · rw [← h]
        have : "<policy c".toList = ['<', 'p', 'o', 'l', 'i', 'c', 'y', ' ', 'c'] := rfl
        simp [matchPolicy, hlit, huser, this, after?, hspace, hc]
  · cases h
  · next hno1 hno2 =>
      rcases s with _ | ⟨c, s⟩
      · exact absurd rfl hne
      · have hcne : c ≠ '<' := by
          rintro rfl
          rcases s with _ | ⟨d, s⟩
          · exact hno2 rfl
          · exact hno1 d s rfl
        exact matchPolicy_of_ne hcne _

/-- No numeric policy begins in the text, whatever follows it. -/
def allPlain : List Char → Bool
  | [] => true
  | c :: rest => plain (c :: rest) && allPlain rest

theorem findPolicies_append_of_plain (h : allPlain l = true) (rest : List Char) :
    findPolicies u (l ++ rest) = findPolicies u rest := by
  induction l with
  | nil => rfl
  | cons c l ih =>
    rw [allPlain, Bool.and_eq_true] at h
    have hnone : matchPolicy u (c :: (l ++ rest)) = none :=
      matchPolicy_of_plain (s := c :: l) (cons_ne_nil _ _) h.1 rest
    rw [cons_append, findPolicies, hnone, Option.toList_none, nil_append, ih h.2]

theorem allPlain_ofList (h : allPlain l = true) :
    allPlain (String.ofList l).toList = true := by
  rw [String.toList_ofList]
  exact h

theorem not_mem_ofList {c : Char} (h : c ∉ l) :
    c ∉ (String.ofList l).toList := by
  rw [String.toList_ofList]
  exact h

theorem findPolicies_policy {digits : List Char} (hne : digits ≠ [])
    (h : ∀ c ∈ digits, c.isDigit = true) (rest : List Char) :
    findPolicies u ("<policy user=\"".toList ++ (digits ++ '"' :: rest)) =
      digits :: findPolicies u rest := by
  have hspace : u.isspace ' ' = true := by rw [u.isspace_ascii _ (by decide)]; rfl
  have hu : u.isspace 'u' = false := by rw [u.isspace_ascii _ (by decide)]; rfl
  have hq : u.decimal '"' = none := by rw [u.decimal_ascii _ (by decide)]; rfl
  have hopen : "<policy user=\"".toList = '<' :: "policy user=\"".toList := rfl
  have hlit : "<policy".toList = ['<', 'p', 'o', 'l', 'i', 'c', 'y'] := rfl
  have huser : "user=\"".toList = ['u', 's', 'e', 'r', '=', '"'] := rfl
  have htail : "policy user=\"".toList =
    ['p', 'o', 'l', 'i', 'c', 'y', ' ', 'u', 's', 'e', 'r', '=', '"'] := rfl
  have hall : ∀ c ∈ digits, (u.decimal c).isSome = true := by
    intro c hc
    rw [PyText.decimal_of_isDigit (h c hc)]
    rfl
  have htake : (digits ++ '"' :: rest).takeWhile (fun c => (u.decimal c).isSome) = digits := by
    rw [takeWhile_append_of_pos hall]
    simp [hq]
  have hdrop : (digits ++ '"' :: rest).dropWhile (fun c => (u.decimal c).isSome) =
      '"' :: rest := by
    rw [dropWhile_append_of_pos hall]
    simp [hq]
  have hmatch : matchPolicy u ('<' :: ("policy user=\"".toList ++ (digits ++ '"' :: rest))) =
      some digits := by
    generalize digits ++ '"' :: rest = after at htake hdrop
    have hafter : after? "<policy".toList ('<' :: ("policy user=\"".toList ++ after)) =
        some (' ' :: 'u' :: 's' :: 'e' :: 'r' :: '=' :: '"' :: after) := by
      simp [hlit, htail, after?]
    have hquote : after? "user=\"".toList ('u' :: 's' :: 'e' :: 'r' :: '=' :: '"' :: after) =
        some after := by
      simp [huser, after?]
    have hempty : digits.isEmpty = false := by
      rw [isEmpty_eq_false_iff]
      exact hne
    have hspaces : (' ' :: 'u' :: 's' :: 'e' :: 'r' :: '=' :: '"' :: after).takeWhile u.isspace =
        [' '] := by
      rw [takeWhile_cons_of_pos hspace, takeWhile_cons_of_neg (by simp [hu])]
    have hdropped : (' ' :: 'u' :: 's' :: 'e' :: 'r' :: '=' :: '"' :: after).dropWhile u.isspace =
        'u' :: 's' :: 'e' :: 'r' :: '=' :: '"' :: after := by
      rw [dropWhile_cons_of_pos hspace, dropWhile_cons_of_neg (by simp [hu])]
    rw [matchPolicy, hafter, Option.bind_some, hspaces, hdropped, hquote]
    show (if (after.takeWhile fun c => (u.decimal c).isSome).isEmpty then none else
      (after? ['"'] (after.dropWhile fun c => (u.decimal c).isSome)).map
        fun _ => after.takeWhile fun c => (u.decimal c).isSome) = some digits
    rw [htake, hdrop, hempty]
    simp [after?]
  have hlt : '<' ∉ "policy user=\"".toList := by decide
  have hdigits : '<' ∉ digits ++ ['"'] := by
    intro hmem
    rcases mem_append.mp hmem with hmem | hmem
    · exact absurd (h _ hmem) (by decide)
    · exact absurd (mem_singleton.mp hmem) (by decide)
  have hrest : digits ++ '"' :: rest = (digits ++ ['"']) ++ rest := by simp
  rw [hopen, cons_append, findPolicies, hmatch, Option.toList_some,
    findPolicies_append_of_not_mem hlt, hrest, findPolicies_append_of_not_mem hdigits]
  rfl

theorem SiloName.not_mem (n : SiloName) {c : Char} (h : nameTail c = false) : c ∉ n.val.toList := by
  intro hmem
  rw [n.nameTail_of_mem c hmem] at h
  cases h

theorem not_mem_append {c : Char} {s t : String} (hs : c ∉ s.toList) (ht : c ∉ t.toList) :
    c ∉ (s ++ t).toList := by
  rw [String.toList_append]
  intro hmem
  exact (mem_append.mp hmem).elim hs ht

theorem not_mem_relayBusName {uid : ℕ} {c : Char} (hdigit : c.isDigit = false)
    (h : c ∉ "org.qdistro.UserRelay.uid".toList) : c ∉ (relayBusName uid).toList := by
  exact not_mem_append h (PyText.not_mem_repr hdigit)

section Literals

set_option maxRecDepth 20000

theorem allPlain_xml : allPlain xmlHead.toList = true ∧ allPlain xmlRoot.toList = true ∧
    allPlain xmlReceive.toList = true ∧ allPlain xmlComment.toList = true ∧
    allPlain xmlOwn.toList = true ∧ allPlain xmlDefault.toList = true ∧
    allPlain xmlTail.toList = true := by
  unfold xmlHead xmlRoot xmlReceive xmlComment xmlOwn xmlDefault xmlTail
  refine ⟨allPlain_ofList ?_, allPlain_ofList ?_, allPlain_ofList ?_, allPlain_ofList ?_,
    allPlain_ofList ?_, allPlain_ofList ?_, allPlain_ofList ?_⟩ <;> decide +kernel

theorem not_mem_xml : '\r' ∉ xmlHead.toList ∧ '\r' ∉ xmlRoot.toList ∧ '\r' ∉ xmlReceive.toList ∧
    '\r' ∉ xmlComment.toList ∧ '\r' ∉ xmlOwn.toList ∧ '\r' ∉ xmlDefault.toList ∧
    '\r' ∉ xmlTail.toList := by
  unfold xmlHead xmlRoot xmlReceive xmlComment xmlOwn xmlDefault xmlTail
  refine ⟨not_mem_ofList ?_, not_mem_ofList ?_, not_mem_ofList ?_, not_mem_ofList ?_,
    not_mem_ofList ?_, not_mem_ofList ?_, not_mem_ofList ?_⟩ <;> decide +kernel

end Literals

theorem findPolicies_relayPolicyXml (n : SiloName) (uid : ℕ) :
    findPolicies u (relayPolicyXml n uid).toList = [uid.repr.toList] := by
  have hname : '<' ∉ n.val.toList := n.not_mem (by decide)
  have huid : '<' ∉ uid.repr.toList := PyText.not_mem_repr (by decide)
  have hbus : '<' ∉ (relayBusName uid).toList :=
    not_mem_relayBusName (by decide) (not_mem_ofList (by decide))
  have hdigits : ∀ c ∈ uid.repr.toList, c.isDigit = true := by
    intro c hc
    by_contra hno
    exact PyText.not_mem_repr (by simpa using hno) hc
  have hne : uid.repr.toList ≠ [] := by
    rw [Nat.toList_repr]
    exact Nat.toDigits_ne_nil
  have hcomment : '<' ∉ "\" (uid ".toList := not_mem_ofList (by decide)
  have hquote : "\"".toList = ['"'] := rfl
  have htail : xmlTail.toList = xmlTail.toList ++ [] := (append_nil _).symm
  obtain ⟨h1, h2, h3, h4, h5, h6, h7⟩ := allPlain_xml
  unfold relayPolicyXml
  simp only [String.toList_append, append_assoc, hquote, cons_append, nil_append,
    -String.reduceToList]
  rw [findPolicies_append_of_plain h1, findPolicies_append_of_not_mem hname,
    findPolicies_append_of_not_mem hcomment, findPolicies_append_of_not_mem huid,
    findPolicies_append_of_plain h2, findPolicies_append_of_not_mem hbus,
    findPolicies_append_of_plain h3, findPolicies_append_of_not_mem hbus,
    findPolicies_append_of_plain h4, findPolicies_policy hne hdigits,
    findPolicies_append_of_plain h5, findPolicies_append_of_not_mem hbus,
    findPolicies_append_of_plain h6, findPolicies_append_of_not_mem hbus, htail,
    findPolicies_append_of_plain h7]
  rfl

theorem groupValue_repr {n : ℕ} (hn : n ≤ 60000) : groupValue u n.repr.toList = some n := by
  have hdigits : ∀ c ∈ n.repr.toList, c.isDigit = true := by
    intro c hc
    rw [Nat.toList_repr] at hc
    exact Nat.isDigit_of_mem_toDigits (by decide) (by decide) hc
  have hfold : ∀ (l : List Char) (acc : ℕ), (∀ c ∈ l, c.isDigit = true) →
      l.foldl (fun acc c => 10 * acc + (u.decimal c).getD 0) acc = Nat.ofDigitChars 10 l acc := by
    intro l
    induction l with
    | nil => exact fun acc _ => rfl
    | cons c l ih =>
      intro acc h
      rw [foldl_cons, ih _ (fun d hd => h d (mem_cons_of_mem _ hd)),
        PyText.decimal_of_isDigit (h c mem_cons_self), Nat.ofDigitChars_cons]
      rfl
  have hlen : n.repr.toList.length ≤ 5 := by
    rw [Nat.toList_repr]
    exact (Nat.length_toDigits_le_iff (by decide) (by decide)).mpr (by omega)
  rw [groupValue, if_neg (by omega), hfold _ _ hdigits, Nat.toList_repr,
    Nat.ofDigitChars_ten_toDigits]

/-- **The numeric users that `relay_policy_uids` finds in a generated fragment are its uid.** -/
theorem policyUids_relayPolicyXml (n : SiloName) {uid : ℕ} (huid : uid ≤ 60000) :
    policyUids u (.text (relayPolicyXml n uid)) = some [uid] := by
  have hname : '\r' ∉ n.val.toList := n.not_mem (by decide)
  have hrepr : '\r' ∉ uid.repr.toList := PyText.not_mem_repr (by decide)
  have hbus : '\r' ∉ (relayBusName uid).toList :=
    not_mem_relayBusName (by decide) (not_mem_ofList (by decide))
  have hcomment : '\r' ∉ "\" (uid ".toList := not_mem_ofList (by decide)
  have hopen : '\r' ∉ "<policy user=\"".toList := not_mem_ofList (by decide)
  have hquote : '\r' ∉ "\"".toList := not_mem_ofList (by decide)
  have hline : '\r' ∉ (relayPolicyXml n uid).toList := by
    obtain ⟨h1, h2, h3, h4, h5, h6, h7⟩ := not_mem_xml
    have hcommented := not_mem_append (not_mem_append (not_mem_append h1 hname) hcomment) hrepr
    have hbroker := not_mem_append (not_mem_append (not_mem_append hcommented h2) hbus) h3
    have hopened := not_mem_append (not_mem_append (not_mem_append hbroker hbus) h4) hopen
    have hsilo := not_mem_append (not_mem_append (not_mem_append hopened hrepr) hquote) h5
    exact not_mem_append (not_mem_append (not_mem_append (not_mem_append hsilo hbus) h6) hbus) h7
  rw [policyUids, readText, Option.bind_some, universalNewlines_eq_self hline,
    findPolicies_relayPolicyXml, mapM_cons, groupValue_repr huid]
  rfl

end Reading

end Silo
