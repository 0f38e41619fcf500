/-
# The password vaults

The part of `qdistro_pwd_vault` and `qdistro_pwd_identity` that the browser's fill and save
calls use: the items of a vault with their pins, the pin gate, and the normalisation of a URL to
the origin under which a credential is filed.

What the interpreter contributes (the split of a URL, letter case, the text of a value in an
f-string) is a `Platform`; its fields say what the code relies on.
-/
import QDistro.SecurityGrants
import Mathlib.Data.List.TakeWhile

namespace Pwd

open JsonText

/-! ## The interpreter -/

/-- What `urllib.parse.urlparse` makes of a URL; `port` is `none` where reading it raises. -/
structure Url where
  scheme : String
  hostname : Option String
  port : Option (Option ℕ)
  deriving DecidableEq

/-- The library functions behind the daemon. -/
structure Platform where
  u : UnicodeDb
  /-- `str.lower` -/
  lower : String → String
  /-- `urllib.parse.urlparse`, `none` for a `ValueError`. -/
  urlparse : String → Option Url
  /-- `f"{value}"` -/
  format : Json → String
  lower_slash : ∀ s, '/' ∉ s.toList → '/' ∉ (lower s).toList
  /-- A network location ends at the first slash. -/
  hostname_slash : ∀ url p h, urlparse url = some p → p.hostname = some h → '/' ∉ h.toList
  format_str : ∀ s, format (.str s) = s

variable (P : Platform)

/-! ## Origins -/

/-- `(parsed.scheme or "https").lower()` -/
def Url.schemeOf (p : Url) : String := P.lower (if p.scheme = "" then "https" else p.scheme)

/-- `(parsed.hostname or "").lower()` -/
def Url.host (p : Url) : String := P.lower (p.hostname.getD "")

/-- The port that a scheme implies. -/
def defaultPort (scheme : String) : ℕ := if scheme = "https" then 443 else 80

/-- The port that an origin writes: given, not zero, and not the scheme's own. -/
def writtenPort (scheme : String) : Option ℕ → Option ℕ
  | none => none
  | some n =>
    if n ≠ 0 ∧ ¬((scheme = "https" ∧ n = 443) ∨ (scheme = "http" ∧ n = 80)) then some n
    else none

/-- `f"{scheme}://{host}:{port}"`, or without the port. -/
def originText (scheme host : String) : Option ℕ → String
  | some n => scheme ++ "://" ++ host ++ ":" ++ n.repr
  | none => scheme ++ "://" ++ host

/-- `_normalize_url_origin` -/
def normalizeUrlOrigin (url : String) : String :=
  match P.urlparse url with
  | none => ""
  | some p =>
    let scheme := p.schemeOf P
    if scheme ≠ "http" ∧ scheme ≠ "https" then ""
    else
      let host := p.host P
      if host = "" ∨ '\x00' ∈ host.toList then ""
      else
        match p.port with
        | none => ""
        | some port => originText scheme host (writtenPort scheme port)

/-! ## An interpreter for small URLs -/

theorem toLower_slash {c : Char} (h : c.toLower = '/') : c = '/' := by
  unfold Char.toLower at h
  split at h
  · next hc =>
    -- a capital is moved to 97..122, past the slash
    have hv := congrArg Char.val h
    have h1 := UInt32.le_iff_toNat_le.mp hc.1
    have h2 := UInt32.le_iff_toNat_le.mp hc.2
    have h3 := congrArg UInt32.toNat hv
    simp at h1 h2 h3
    omega
  · exact h

/-- The value of a decimal text. -/
def digitsValue (ds : List Char) : ℕ := ds.foldl (fun n c => 10 * n + (c.toNat - 48)) 0

/-- What follows the host: nothing, or a colon and a port. -/
def samplePort : List Char → Option (Option ℕ)
  | ':' :: [] => some none
  | ':' :: ds =>
    if ds.all Char.isDigit ∧ digitsValue ds ≤ 65535 then some (some (digitsValue ds)) else none
  | _ => some none

/-- The host and port of a network location without user info. -/
def sampleNetloc (scheme : String) (netloc : List Char) : Url :=
  match netloc with
  | '[' :: rest =>
    ⟨scheme, some (String.ofList (rest.takeWhile (· ≠ ']'))),
      samplePort ((rest.dropWhile (· ≠ ']')).drop 1)⟩
  | rest =>
    ⟨scheme, some (String.ofList (rest.takeWhile (· ≠ ':'))), samplePort (rest.dropWhile (· ≠ ':'))⟩

/-- `urlparse` on a lower-case URL of a scheme, a network location and a path. -/
def sampleUrlparse (url : String) : Option Url :=
  if PyText.startswith url "https://" then
    some (sampleNetloc "https" ((url.toList.drop 8).takeWhile (· ≠ '/')))
  else if PyText.startswith url "http://" then
    some (sampleNetloc "http" ((url.toList.drop 7).takeWhile (· ≠ '/')))
  else some ⟨"", none, some none⟩

theorem sampleNetloc_slash {scheme h : String} {netloc : List Char} (hn : '/' ∉ netloc)
    (hh : (sampleNetloc scheme netloc).hostname = some h) : '/' ∉ h.toList := by
  unfold sampleNetloc at hh
  split at hh
  · cases hh
    rw [String.toList_ofList]
    exact fun hm => hn (List.mem_cons_of_mem _ (List.takeWhile_subset _ hm))
  · cases hh
    rw [String.toList_ofList]
    exact fun hm => hn (List.takeWhile_subset _ hm)

theorem not_mem_takeWhile_ne (l : List Char) (c : Char) : c ∉ l.takeWhile (· ≠ c) := by
  intro h
  have := List.mem_takeWhile_imp h
  simp at this

/-- An interpreter that knows ASCII, for URLs in their usual shape. -/
def Platform.sample : Platform where
  u := .ascii
  lower s := String.ofList (s.toList.map Char.toLower)
  urlparse := sampleUrlparse
  format v :=
    match v with
    | .str s => s
    | .bool b => PyText.pyBool b
    | .int n => String.ofList (intText n)
    | _ => "None"
  lower_slash := by
    intro s h hm
    rw [String.toList_ofList] at hm
    obtain ⟨c, hc, hs⟩ := List.mem_map.mp hm
    rw [toLower_slash hs] at hc
    exact h hc
  hostname_slash := by
    intro url p h hp hh
    unfold sampleUrlparse at hp
    split at hp
    · cases hp
      exact sampleNetloc_slash (not_mem_takeWhile_ne _ _) hh
    · split at hp
      · cases hp
        exact sampleNetloc_slash (not_mem_takeWhile_ne _ _) hh
      · cases hp
        cases hh
  format_str := fun _ => rfl

/-! ## Callers and pins -/

/-- `snapshot_caller`, with the verdict of `_browser_bridge_allowed` on the process. -/
structure Caller where
  uid : ℕ
  pid : ℕ
  exe : String
  selinuxLabel : String
  bridge : Bool
  deriving DecidableEq

/-- The pins of an item. -/
structure Pins where
  appExe : String
  selinux : String
  uid : Option ℤ
  deriving DecidableEq

/-- The verdicts of the pin gate. -/
inductive PinVerdict
  | matched
  | noPinSet
  | exeUnreadable
  | exeMismatch (caller pin : String)
  | noLabel
  | selinuxMismatch (caller pin : String)
  | uidMismatch (caller : ℕ) (pin : ℤ)
  deriving DecidableEq

/-- `s.strip()` -/
def stripped (s : String) : String := String.ofList (PyText.strip P.u s.toList)

/-- The last check of `pin_match`. -/
def uidGate (pins : Pins) (caller : Caller) : PinVerdict :=
  match pins.uid with
  | none => .matched
  | some n => if (caller.uid : ℤ) ≠ n then .uidMismatch caller.uid n else .matched

/-- The second check of `pin_match`. -/
def selinuxGate (pins : Pins) (caller : Caller) : PinVerdict :=
  if stripped P pins.selinux ≠ "" then
    if caller.selinuxLabel = "" then .noLabel
    else if caller.selinuxLabel ≠ stripped P pins.selinux then
      .selinuxMismatch caller.selinuxLabel (stripped P pins.selinux)
    else uidGate pins caller
  else uidGate pins caller

/-- `pin_match` -/
def pinMatch (pins : Pins) (caller : Caller) : PinVerdict :=
  if stripped P pins.appExe = "" ∧ stripped P pins.selinux = "" ∧ pins.uid = none then .noPinSet
  else if stripped P pins.appExe ≠ "" then
    if caller.exe = "" then .exeUnreadable
    else if caller.exe ≠ stripped P pins.appExe then
      .exeMismatch caller.exe (stripped P pins.appExe)
    else selinuxGate P pins caller
  else selinuxGate P pins caller

/-- What a pin set asks for: at least one pin, and every pin that is set agrees with the
calling process. -/
structure PinsMatch (pins : Pins) (caller : Caller) : Prop where
  pinned : stripped P pins.appExe ≠ "" ∨ stripped P pins.selinux ≠ "" ∨ pins.uid ≠ none
  exe : stripped P pins.appExe ≠ "" → caller.exe = stripped P pins.appExe
  selinux : stripped P pins.selinux ≠ "" → caller.selinuxLabel = stripped P pins.selinux
  uid : ∀ n, pins.uid = some n → (caller.uid : ℤ) = n

theorem uidGate_matched {pins : Pins} {caller : Caller} :
    uidGate pins caller = .matched ↔ ∀ n, pins.uid = some n → (caller.uid : ℤ) = n := by
  unfold uidGate
  cases pins.uid with
  | none => simp
  | some n => by_cases h : (caller.uid : ℤ) = n <;> simp [h]

theorem selinuxGate_matched {pins : Pins} {caller : Caller} :
    selinuxGate P pins caller = .matched ↔
      (stripped P pins.selinux ≠ "" → caller.selinuxLabel = stripped P pins.selinux) ∧
        ∀ n, pins.uid = some n → (caller.uid : ℤ) = n := by
  unfold selinuxGate
  by_cases hs : stripped P pins.selinux = ""
  · simp [hs, uidGate_matched]
  · by_cases hl : caller.selinuxLabel = ""
    · simp only [hs, hl, ne_eq, not_false_eq_true, if_true, reduceCtorEq, false_iff, not_and]
      intro h
      exact absurd (h trivial).symm hs
    · by_cases he : caller.selinuxLabel = stripped P pins.selinux
      · simp [hs, he, uidGate_matched]
      · simp [hs, hl, he]

/-- **The pin gate.**  It passes exactly the callers that a pin set asks for. -/
theorem pinMatch_matched {pins : Pins} {caller : Caller} :
    pinMatch P pins caller = .matched ↔ PinsMatch P pins caller := by
  have hshape : PinsMatch P pins caller ↔
      (stripped P pins.appExe ≠ "" ∨ stripped P pins.selinux ≠ "" ∨ pins.uid ≠ none) ∧
        (stripped P pins.appExe ≠ "" → caller.exe = stripped P pins.appExe) ∧
        selinuxGate P pins caller = .matched := by
    rw [selinuxGate_matched]
    exact ⟨fun h => ⟨h.pinned, h.exe, h.selinux, h.uid⟩, fun h => ⟨h.1, h.2.1, h.2.2.1, h.2.2.2⟩⟩
  rw [hshape]
  unfold pinMatch
  by_cases hx : stripped P pins.appExe = ""
  · by_cases hn : stripped P pins.selinux = "" ∧ pins.uid = none
    · simp [hx, hn.1, hn.2]
    · have hpinned : stripped P pins.selinux ≠ "" ∨ pins.uid ≠ none := not_and_or.mp hn
      rw [if_neg (fun h => hn h.2), if_neg (not_not.mpr hx)]
      exact ⟨fun h => ⟨.inr hpinned, fun h' => absurd hx h', h⟩, fun h => h.2.2⟩
  · rw [if_neg (fun h => hx h.1), if_pos hx]
    by_cases hc : caller.exe = ""
    · rw [if_pos hc]
      refine ⟨fun h => (by cases h), fun h => ?_⟩
      exact absurd ((h.2.1 hx).symm.trans hc) hx
    · rw [if_neg hc]
      by_cases he : caller.exe = stripped P pins.appExe
      · rw [if_neg (not_not.mpr he)]
        exact ⟨fun h => ⟨.inl hx, fun _ => he, h⟩, fun h => h.2.2⟩
      · rw [if_pos he]
        exact ⟨fun h => (by cases h), fun h => absurd (h.2.1 hx) he⟩

/-! ## Items -/

/-- An item of a vault.  `source` is a ghost: the URL of the `Save` that stored it. -/
structure Item where
  tag : String
  value : String
  pins : Pins
  source : Option String
  deriving DecidableEq

/-- `next((it for it in items if it["tag"] == tag), None)` -/
def findItem (items : List Item) (tag : String) : Option Item := items.find? (·.tag = tag)

/-- The upsert of `add_item`: the first item with the tag is replaced in place. -/
def upsert : List Item → Item → List Item
  | [], it => [it]
  | x :: rest, it => if x.tag = it.tag then it :: rest else x :: upsert rest it

/-- The filter of `delete_item`. -/
def deleteItems (items : List Item) (tag : String) : List Item :=
  items.filter fun it => it.tag ≠ tag

theorem mem_upsert {items : List Item} {it x : Item} (h : x ∈ upsert items it) :
    x = it ∨ x ∈ items := by
  induction items with
  | nil => exact .inl (by simpa [upsert] using h)
  | cons y rest ih =>
    rw [upsert] at h
    split at h
    · rcases List.mem_cons.mp h with rfl | hr
      · exact .inl rfl
      · exact .inr (List.mem_cons_of_mem _ hr)
    · rcases List.mem_cons.mp h with rfl | hr
      · exact .inr List.mem_cons_self
      · exact (ih hr).imp id (List.mem_cons_of_mem _)

end Pwd
