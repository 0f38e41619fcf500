/-
# The net-VM manifest and its activation guard

`qdistro_netvm_manifest`: a manifest declares what the net VM may hold, and `validate_domain`
compares a rendered libvirt domain with it.  The manifest comes in as decoded JSON, the domain as
the element tree that `ElementTree` builds.

This file has the manifest: its checks, `parse`, and the MAC addresses that it declares.  The guard
is in `NetvmGuard`.
-/
import QDistro.SecurityGrants

namespace Netvm

open JsonText
open SecurityGrants (truthy typeName)

/-! ## The interpreter -/

/-- The library functions behind the manifest. -/
structure Platform where
  u : UnicodeDb
  /-- `str.lower` -/
  lower : String → String
  /-- `repr(value)` -/
  repr : Json → String
  /-- `str(value)` -/
  str : Json → String
  /-- `int(text, 16)`, `none` for a `ValueError`. -/
  int16 : String → Option ℤ

variable (P : Platform)

/-! ## Elements -/

/-- An element of the tree: its tag, its attributes and its children. -/
inductive Xml where
  | node (tag : String) (attrs : List (String × String)) (children : List Xml)

namespace Xml

def tag : Xml → String
  | node t _ _ => t

def children : Xml → List Xml
  | node _ _ cs => cs

/-- `el.get(name)` -/
def attr (el : Xml) (name : String) : Option String :=
  match el with
  | node _ as _ => PyDict.lookup as name

/-- `el.find(tag)`: the first child with the tag. -/
def find (el : Xml) (tag : String) : Option Xml := el.children.find? (·.tag = tag)

mutual

/-- The tags of `el.iter()`. -/
def tags : Xml → List String
  | node t _ cs => t :: tagsOf cs

def tagsOf : List Xml → List String
  | [] => []
  | c :: cs => c.tags ++ tagsOf cs

end

end Xml

/-! ## Texts -/

/-- Whether a text has one character of each class. -/
def shaped : List (Char → Bool) → List Char → Bool
  | [], [] => true
  | p :: ps, c :: cs => p c && shaped ps cs
  | _, _ => false

/-- The same up to a final newline, which `$` in a pattern allows. -/
def shapedLine (ps : List (Char → Bool)) (cs : List Char) : Bool :=
  shaped ps cs || shaped (ps ++ [(· == '\n')]) cs

/-- `[0-9a-f]` -/
def hexLower (c : Char) : Bool := c.isDigit || ('a' ≤ c && c ≤ 'f')

/-- `[0-9a-fA-F]` -/
def hexAny (c : Char) : Bool := hexLower c || ('A' ≤ c && c ≤ 'F')

/-- `([0-9a-f]{2}:){n}` -/
def octets (hex : Char → Bool) (n : ℕ) : List (Char → Bool) :=
  (List.replicate n [hex, hex, (· == ':')]).flatten

/-- `_MAC_RE` -/
def macRe : List (Char → Bool) := octets hexLower 5 ++ [hexLower, hexLower]

/-- `_norm_mac` -/
def normMac (mac : Json) : Option String :=
  match mac with
  | .str s =>
    let m := P.lower (String.ofList (PyText.strip P.u s.toList))
    if shapedLine macRe m.toList then some m else none
  | _ => none

/-- `s.removeprefix("0x")` -/
def bare (s : String) : String :=
  if PyText.startswith s "0x" then String.ofList (s.toList.drop 2) else s

/-- `"{:0<width>x}".format(n)` -/
def hexFormat (width : ℕ) (n : ℤ) : List Char :=
  let digits := Nat.toDigits 16 n.natAbs
  let sign := if n < 0 then ['-'] else []
  sign ++ List.replicate (width - sign.length - digits.length) '0' ++ digits

/-! ## The manifest -/

/-- `NetVMManifest` -/
structure NetVMManifest where
  name : String
  transport : String
  endpoint : String
  mgmtMac : Option String
  wanMac : Option String
  recoveryMac : Option String
  siloVifPrefix : Option String
  maxSiloVifs : ℤ
  exposed : List (String × List String)
  usbAllow : List (String × String)
  pciAllow : List String
  allowVsock : Bool
  allowGraphics : Bool
  deriving DecidableEq

/-- The last octet: `int(m.rsplit(":", 1)[1], 16)`. -/
def vifSlot (m : String) : Option ℤ :=
  P.int16 (String.ofList (m.toList.reverse.takeWhile (· ≠ ':')).reverse)

/-- `NetVMManifest.declares_mac` -/
def NetVMManifest.declaresMac (m : NetVMManifest) (mac : String) : Bool :=
  match normMac P (.str mac) with
  | none => false
  | some a =>
    if some a = m.mgmtMac ∨ some a = m.wanMac ∨ some a = m.recoveryMac then true
    else
      match m.siloVifPrefix with
      | none => false
      | some p =>
        if PyText.startswith a p then
          match vifSlot P a with
          | none => false
          | some slot => 0 ≤ slot ∧ slot < m.maxSiloVifs
        else false

/-- `obj.get(name)` -/
def get (fields : List (String × Json)) (name : String) : Json :=
  (PyDict.lookup fields name).getD .null

/-- The fields of a value that must be an object, or an error and none. -/
def objectField (v : Json) (message : String) : List (String × Json) × List String :=
  match v with
  | .obj fields => (fields, [])
  | _ => ([], [message])

/-- An error unless the value is a non-empty string. -/
def textErrors (v : Json) (message : String) : List String :=
  match v with
  | .str s => if s = "" then [message] else []
  | _ => [message]

/-- The errors of `controlPlane`. -/
def controlErrors (cp : List (String × Json)) : List String :=
  (match get cp "transport" with
    | .str s => if s = "rpcd-http" ∨ s = "vsock" then []
        else ["controlPlane.transport must be 'rpcd-http' or 'vsock', got " ++ P.repr (.str s)]
    | v => ["controlPlane.transport must be 'rpcd-http' or 'vsock', got " ++ P.repr v]) ++
  textErrors (get cp "endpoint") "controlPlane.endpoint must be a non-empty string" ++
  (if normMac P (get cp "mgmtMac") = none then
    ["controlPlane.mgmtMac is not a valid MAC: " ++ P.repr (get cp "mgmtMac")] else [])

/-- The error of an optional MAC address of `interfaces`. -/
def optionalMacErrors (ifaces : List (String × Json)) (key : String) : List String :=
  match get ifaces key with
  | .null => []
  | v => if normMac P v = none then ["interfaces." ++ key ++ " is not a valid MAC: " ++ P.repr v]
      else []

/-- The error of `siloVifPrefix`. -/
def prefixErrors (ifaces : List (String × Json)) : List String :=
  let message := "interfaces.siloVifPrefix must be 5 hex octets ending in ':' " ++
    "(e.g. '52:54:00:9c:01:'), got "
  match get ifaces "siloVifPrefix" with
  | .null => []
  | .str s => if shapedLine (octets hexAny 5) s.toList then [] else [message ++ P.repr (.str s)]
  | v => [message ++ P.repr v]

/-- `ifaces.get("maxSiloVifs", 0)` -/
def maxVifs (ifaces : List (String × Json)) : Json :=
  (PyDict.lookup ifaces "maxSiloVifs").getD (.int 0)

/-- The error of `maxSiloVifs`. -/
def maxVifsErrors (ifaces : List (String × Json)) : List String :=
  match maxVifs ifaces with
  | .int n => if 0 ≤ n ∧ n ≤ 256 then []
      else ["interfaces.maxSiloVifs must be an int in 0..256, got " ++ P.repr (.int n)]
  | v => ["interfaces.maxSiloVifs must be an int in 0..256, got " ++ P.repr v]

/-- The strings of a list of strings. -/
def strings : List Json → Option (List String)
  | [] => some []
  | .str s :: rest => (strings rest).map (s :: ·)
  | _ :: _ => none

/-- The methods of a service: a non-empty list of strings. -/
def methodsOf (v : Json) : Option (List String) :=
  match v with
  | .arr (i :: items) => strings (i :: items)
  | _ => none

/-- The loop of `_validate_exposed`. -/
def exposedErrors : ℕ → List String → List Json → List String
  | _, _, [] => []
  | i, seen, e :: rest =>
    match e with
    | .obj fields =>
      match get fields "object" with
      | .str o =>
        if o = "" then
          ("exposedServices[" ++ i.repr ++ "].object must be a string") ::
            exposedErrors (i + 1) seen rest
        else
          (if o ∈ seen then
            ["exposedServices: duplicate object " ++ P.repr (.str o)] else []) ++
          (if (methodsOf (get fields "methods")).isNone then
            ["exposedServices[" ++ i.repr ++ "].methods must be a non-empty string list"]
          else []) ++ exposedErrors (i + 1) (o :: seen) rest
      | _ => ("exposedServices[" ++ i.repr ++ "].object must be a string") ::
          exposedErrors (i + 1) seen rest
    | _ => ("exposedServices[" ++ i.repr ++ "] must be an object") ::
        exposedErrors (i + 1) seen rest

/-- `_validate_exposed` -/
def validateExposed (services : Json) : List String :=
  match services with
  | .null => []
  | .arr items => exposedErrors P 0 [] items
  | _ => ["exposedServices must be a list"]

/-- `str(e.get(name, ""))` -/
def strField (fields : List (String × Json)) (name : String) : String :=
  match PyDict.lookup fields name with
  | none => ""
  | some v => P.str v

/-- `re.match(r"^[0-9a-fA-F]{4}$", ...)` -/
def isId (s : String) : Bool := shapedLine (List.replicate 4 hexAny) s.toList

/-- The vendor and product of an entry of `usbHostdevAllow`. -/
def usbEntry (e : Json) : Option (String × String) :=
  match e with
  | .obj fields =>
    if isId (strField P fields "vendor") && isId (strField P fields "product") then
      some (strField P fields "vendor", strField P fields "product")
    else none
  | _ => none

/-- `DDDD:BB:SS.F` -/
def pciRe : List (Char → Bool) :=
  List.replicate 4 hexAny ++ [(· == ':')] ++ List.replicate 2 hexAny ++ [(· == ':')] ++
    List.replicate 2 hexAny ++ [(· == '.'), hexAny]

/-- The address of an entry of `pciPassthrough`. -/
def pciEntry (e : Json) : Option String :=
  match e with
  | .obj fields =>
    match get fields "address" with
    | .str s => if shapedLine pciRe s.toList then some s else none
    | _ => none
  | _ => none

/-- The errors of the entries that are not accepted. -/
def entryErrors {α : Type} (read : Json → Option α) (list : String) (needs : String) :
    ℕ → List Json → List String
  | _, [] => []
  | i, e :: rest =>
    (if (read e).isNone then [list ++ "[" ++ i.repr ++ "]" ++ needs] else []) ++
      entryErrors read list needs (i + 1) rest

/-- `_validate_hostdev_allow` -/
def validateHostdevAllow (usb pci : Json) : List String :=
  (match usb with
    | .null => []
    | .arr items => entryErrors (usbEntry P) "usbHostdevAllow" " needs 4-hex vendor+product" 0 items
    | _ => ["usbHostdevAllow must be a list"]) ++
  (match pci with
    | .null => []
    | .arr items =>
      entryErrors pciEntry "pciPassthrough" ".address must be DDDD:BB:SS.F PCI form" 0 items
    | _ => ["pciPassthrough must be a list"])

/-- `validate_manifest` -/
def validateManifest (obj : Json) : List String :=
  match obj with
  | .obj fields =>
    let cp := objectField (get fields "controlPlane") "manifest.controlPlane must be an object"
    let ifaces := objectField (get fields "interfaces") "manifest.interfaces must be an object"
    textErrors (get fields "name") "manifest.name must be a non-empty string" ++
      cp.2 ++ controlErrors P cp.1 ++ ifaces.2 ++ optionalMacErrors P ifaces.1 "wanMac" ++
      optionalMacErrors P ifaces.1 "recoveryMac" ++ prefixErrors P ifaces.1 ++
      maxVifsErrors P ifaces.1 ++ validateExposed P (get fields "exposedServices") ++
      validateHostdevAllow P (get fields "usbHostdevAllow") (get fields "pciPassthrough")
  | v => ["manifest must be an object, got " ++ typeName v]

/-- The text of a string value. -/
def textOf : Json → String
  | .str s => s
  | _ => ""

/-- The items of a list value. -/
def itemsOf : Json → List Json
  | .arr items => items
  | _ => []

/-- The fields of an object value. -/
def fieldsOf : Json → List (String × Json)
  | .obj fields => fields
  | _ => []

/-- `parse`: the errors, or the manifest. -/
def parse (obj : Json) : Except (List String) NetVMManifest :=
  if validateManifest P obj ≠ [] then .error (validateManifest P obj)
  else
    let fields := fieldsOf obj
    let cp := fieldsOf (get fields "controlPlane")
    let ifaces := fieldsOf (get fields "interfaces")
    .ok
      { name := textOf (get fields "name")
        transport := textOf (get cp "transport")
        endpoint := textOf (get cp "endpoint")
        mgmtMac := normMac P (get cp "mgmtMac")
        wanMac := normMac P (get ifaces "wanMac")
        recoveryMac := normMac P (get ifaces "recoveryMac")
        siloVifPrefix :=
          match get ifaces "siloVifPrefix" with
          | .str s => if s = "" then none else some (P.lower s)
          | _ => none
        maxSiloVifs :=
          match maxVifs ifaces with
          | .int n => n
          | _ => 0
        exposed := (itemsOf (get fields "exposedServices")).map fun e =>
          (textOf (get (fieldsOf e) "object"), (methodsOf (get (fieldsOf e) "methods")).getD [])
        usbAllow := (itemsOf (get fields "usbHostdevAllow")).filterMap fun e =>
          (usbEntry P e).map fun k => (P.lower k.1, P.lower k.2)
        pciAllow := (itemsOf (get fields "pciPassthrough")).filterMap fun e =>
          (pciEntry e).map P.lower
        allowVsock := textOf (get cp "transport") = "vsock"
        allowGraphics := truthy (get fields "graphics") }

end Netvm
