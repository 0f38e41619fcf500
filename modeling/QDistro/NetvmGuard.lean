/-
# The activation guard of the net VM

`validate_domain` cross-checks a rendered libvirt domain against the manifest.  The domain is the
element tree that `ElementTree` builds, and libvirt is a parameter here: `read` is how it reads the
numbers of an address or an id.

The guard walks the first `<devices>` element only.  Of an interface it reads the MAC address but
not the host device that an interface of type `hostdev` assigns, and it names a host device by its
own reading of the numbers.  `declared_iff_blind_spots` says that these are its only blind spots.
-/
import QDistro.NetvmManifest

namespace Netvm

variable (P : Platform)

/-! ## The guard -/

/-- `_BASELINE_MAX`, whose keys are `_BASELINE_DEVICES`. -/
def baselineMax : List (String × ℕ) :=
  [("emulator", 1), ("serial", 1), ("console", 1), ("channel", 1), ("memballoon", 1), ("rng", 1),
    ("disk", 1), ("watchdog", 1), ("controller", 4), ("input", 4)]

/-- `repr` of a text or `None`. -/
def reprText : Option String → String
  | none => P.repr .null
  | some s => P.repr (.str s)

/-- The MAC address of an interface. -/
def macOf (dev : Xml) : Option String := (dev.find "mac").bind (·.attr "address")

/-- The `id` of a vendor or a product. -/
def idOf (source : Option Xml) (tag : String) : String :=
  ((source.bind (·.find tag)).bind (·.attr "id")).getD ""

/-- The vendor and the product of a USB device, as the guard normalises them. -/
def usbKey (source : Option Xml) : String × String :=
  (bare (P.lower (idOf source "vendor")), bare (P.lower (idOf source "product")))

/-- `"{:04x}:{:02x}:{:02x}.{:x}"` of an address, its numbers read by `read`. -/
def pciAddress (read : String → Option ℤ) (addr : Xml) : Option String := do
  let domain ← read ((addr.attr "domain").getD "0x0")
  let bus ← read ((addr.attr "bus").getD "0x0")
  let slot ← read ((addr.attr "slot").getD "0x0")
  let function ← read ((addr.attr "function").getD "0x0")
  some (String.ofList (hexFormat 4 domain ++ ':' :: hexFormat 2 bus ++ ':' :: hexFormat 2 slot ++
    '.' :: hexFormat 1 function))

-- named for the test of allowed USB devices
local instance lawfulBEq_pair : LawfulBEq (String × String) := inferInstance

/-- `_check_hostdev`: the errors, or `none` for a `ValueError`. -/
def checkHostdev (m : NetVMManifest) (dev : Xml) : Option (List String) :=
  if dev.attr "type" = some "usb" then
    let key := usbKey P (dev.find "source")
    if key ∈ m.usbAllow then some []
    else some ["undeclared USB hostdev " ++ key.1 ++ ":" ++ key.2 ++
      ": not in manifest.usbHostdevAllow"]
  else if dev.attr "type" = some "pci" then
    match (dev.find "source").bind (·.find "address") with
    | none => some ["PCI hostdev has no <address>"]
    | some addr =>
      match pciAddress P.int16 addr with
      | none => none
      | some dbsf =>
        if dbsf ∈ m.pciAllow then some []
        else some ["undeclared PCI hostdev " ++ dbsf ++ ": not in manifest.pciPassthrough"]
  else some ["unsupported hostdev type " ++ reprText P (dev.attr "type")]

/-- `_check_disk` -/
def checkDisk (dev : Xml) : List String :=
  (if (dev.attr "device").getD "disk" ≠ "disk" then
    ["undeclared disk device='" ++ (dev.attr "device").getD "None" ++ "' (expected 'disk')"]
  else []) ++
  (if dev.attr "type" ≠ none ∧ dev.attr "type" ≠ some "file" then
    ["undeclared disk type='" ++ (dev.attr "type").getD "None" ++
      "': only a file-backed image is allowed, not a host block/dir/network disk"]
  else [])

/-- The name that a channel targets. -/
def channelTarget (dev : Xml) : Option String := (dev.find "target").bind (·.attr "name")

/-- `_check_channel` -/
def checkChannel (dev : Xml) : List String :=
  if channelTarget dev ≠ some "org.qemu.guest_agent.0" then
    ["undeclared <channel> target " ++ reprText P (channelTarget dev) ++
      ": only the guest agent channel is baseline"]
  else []

/-- The errors of one device. -/
def deviceErrors (m : NetVMManifest) (dev : Xml) : Option (List String) :=
  if dev.tag = "interface" then
    if (macOf dev).any (m.declaresMac P) then some []
    else some ["undeclared <interface> MAC " ++ reprText P (macOf dev) ++
      ": not the mgmt/wan/recovery vif nor a declared per-silo vif"]
  else if dev.tag = "hostdev" then checkHostdev P m dev
  else if dev.tag = "vsock" then
    if m.allowVsock then some []
    else some ["undeclared <vsock>: control-plane transport is " ++ P.repr (.str m.transport) ++
      ", vsock not declared"]
  else if dev.tag = "graphics" then
    if m.allowGraphics then some []
    else some ["undeclared <graphics>: the net VM is headless (manifest.graphics is false)"]
  else if dev.tag = "video" then
    if m.allowGraphics then some [] else some ["undeclared <video>: net VM is headless"]
  else if dev.tag = "disk" then some (checkDisk dev)
  else if dev.tag = "channel" then some (checkChannel P dev)
  else if dev.tag ∈ baselineMax.map Prod.fst then some []
  else some ["undeclared device <" ++ dev.tag ++ ">"]

/-- `counts.get(tag, 0)` after the loop. -/
def countOf (tag : String) (devs : List Xml) : ℕ := devs.countP (·.tag = tag)

/-- The errors of the multiplicity caps. -/
def capErrors (devs : List Xml) : List String :=
  (baselineMax.filter fun p => p.2 < countOf p.1 devs).map fun p =>
    "too many <" ++ p.1 ++ "> (" ++ (countOf p.1 devs).repr ++ " > " ++ p.2.repr ++
      "): only the baseline instance is declared"

/-- The errors of the namespaced elements. -/
def extensionErrors (root : Xml) : List String :=
  (root.tags.filter (PyText.startswith · "\x7b")).map fun t =>
    "undeclared namespaced element <" ++ t ++
      ">: qemu/extension overrides can add devices outside <devices>"

/-- `validate_domain`: the errors, or `none` for a `ValueError`.  A text that is no XML comes in as
the message of its `ParseError`. -/
def validateDomain (m : NetVMManifest) (doc : Except String Xml) : Option (List String) :=
  match doc with
  | .error e => some ["domain XML is not well-formed: " ++ e]
  | .ok root =>
    match root.find "devices" with
    | none => some (extensionErrors root ++ ["domain has no <devices> section"])
    | some devices =>
      match devices.children.mapM (deviceErrors P m) with
      | none => none
      | some errs =>
        some (extensionErrors root ++ errs.flatten ++ capErrors devices.children)

/-! ## What the domain describes -/

/-- A host device, named as the manifest names it. -/
inductive HostDevice where
  | usb (vendor product : String)
  | pci (address : String)
  deriving DecidableEq

/-- The device is on the allowlist. -/
def HostDevice.Allowed (m : NetVMManifest) : HostDevice → Prop
  | .usb vendor product => (vendor, product) ∈ m.usbAllow
  | .pci address => address ∈ m.pciAllow

/-- A USB device by its vendor and product. -/
def usbDevice (read : String → Option ℤ) (source : Option Xml) : Option HostDevice := do
  let vendor ← read (idOf source "vendor")
  let product ← read (idOf source "product")
  some (.usb (String.ofList (hexFormat 4 vendor)) (String.ofList (hexFormat 4 product)))

/-- A PCI device by its address. -/
def pciDevice (read : String → Option ℤ) (source : Option Xml) : Option HostDevice :=
  ((source.bind (·.find "address")).bind (pciAddress read)).map .pci

/-- The type of the host device behind a device: the one of a `hostdev`, and for an interface of
type `hostdev` the one of its source address; a vendor alone implies a USB device. -/
def hostType (dev : Xml) : Option String :=
  if dev.tag = "hostdev" then dev.attr "type"
  else
    match ((dev.find "source").bind (·.find "address")).bind (·.attr "type") with
    | some t => some t
    | none => ((dev.find "source").bind (·.find "vendor")).map fun _ => "usb"

/-- A device that assigns a host device. -/
def Assigns (dev : Xml) : Prop :=
  dev.tag = "hostdev" ∨ dev.tag = "interface" ∧ dev.attr "type" = some "hostdev"

/-- The host device that libvirt assigns; `none` when the allowlists have no name for it. -/
def hostDevice (read : String → Option ℤ) (dev : Xml) : Option HostDevice :=
  if hostType dev = some "usb" then usbDevice read (dev.find "source")
  else if hostType dev = some "pci" then pciDevice read (dev.find "source")
  else none

/-- The host device that the guard reads off a `hostdev`. -/
def guardDevice (dev : Xml) : Option HostDevice :=
  if dev.attr "type" = some "usb" then
    some (.usb (usbKey P (dev.find "source")).1 (usbKey P (dev.find "source")).2)
  else if dev.attr "type" = some "pci" then pciDevice P.int16 (dev.find "source")
  else none

/-- The MAC address is the one of a declared interface, or of a silo's within the budget. -/
def MacDeclared (m : NetVMManifest) (mac : String) : Prop :=
  ∃ a, normMac P (.str mac) = some a ∧
    ((some a = m.mgmtMac ∨ some a = m.wanMac ∨ some a = m.recoveryMac) ∨
      ∃ p slot, m.siloVifPrefix = some p ∧ PyText.startswith a p = true ∧
        vifSlot P a = some slot ∧ 0 ≤ slot ∧ slot < m.maxSiloVifs)

/-- The kind of the device is declared, with what the manifest says about its kind. -/
def KindDeclared (m : NetVMManifest) (dev : Xml) : Prop :=
  (dev.tag = "interface" ∧ ∃ mac, macOf dev = some mac ∧ MacDeclared P m mac) ∨
  dev.tag = "hostdev" ∨
  (dev.tag = "vsock" ∧ m.allowVsock = true) ∨
  ((dev.tag = "graphics" ∨ dev.tag = "video") ∧ m.allowGraphics = true) ∨
  (dev.tag = "disk" ∧ (dev.attr "device").getD "disk" = "disk" ∧
    (dev.attr "type" = none ∨ dev.attr "type" = some "file")) ∨
  (dev.tag = "channel" ∧ channelTarget dev = some "org.qemu.guest_agent.0") ∨
  (dev.tag ≠ "disk" ∧ dev.tag ≠ "channel" ∧ dev.tag ∈ baselineMax.map Prod.fst)

/-- The host device that libvirt assigns has a name on the allowlist. -/
def HostAllowed (read : String → Option ℤ) (m : NetVMManifest) (dev : Xml) : Prop :=
  ∃ d, hostDevice read dev = some d ∧ d.Allowed m

/-- The device is declared: its kind, and the host device that it assigns. -/
structure DeviceDeclared (read : String → Option ℤ) (m : NetVMManifest) (dev : Xml) : Prop where
  kind : KindDeclared P m dev
  host : Assigns dev → HostAllowed read m dev

/-- The `<devices>` elements of the domain. -/
def sections (root : Xml) : List Xml := root.children.filter (·.tag = "devices")

/-- The devices of all of them. -/
def allDevices (root : Xml) : List Xml := (sections root).flatMap Xml.children

/-- Everything that the domain describes is declared. -/
structure Declared (read : String → Option ℤ) (m : NetVMManifest) (root : Xml) : Prop where
  devices : ∀ dev ∈ allDevices root, DeviceDeclared P read m dev
  caps : ∀ p ∈ baselineMax, countOf p.1 (allDevices root) ≤ p.2

/-! ## What the guard does not look at -/

/-- The devices of the first `<devices>` element. -/
def firstDevices (root : Xml) : List Xml := ((sections root).take 1).flatMap Xml.children

/-- The devices of the later ones. -/
def laterDevices (root : Xml) : List Xml := ((sections root).drop 1).flatMap Xml.children

/-- The blind spots of the guard hold nothing undeclared: the later `<devices>` elements, with what
the first one leaves of the caps, the host devices behind the interfaces of the first one, and its
host devices that the guard names otherwise than libvirt. -/
structure BlindSpotsDeclared (read : String → Option ℤ) (m : NetVMManifest) (root : Xml) :
    Prop where
  later : ∀ dev ∈ laterDevices root, DeviceDeclared P read m dev
  room : ∀ p ∈ baselineMax, countOf p.1 (laterDevices root) ≤ p.2 - countOf p.1 (firstDevices root)
  interfaces : ∀ dev ∈ firstDevices root, dev.tag = "interface" → dev.attr "type" = some "hostdev" →
    HostAllowed read m dev
  misread : ∀ dev ∈ firstDevices root, dev.tag = "hostdev" →
    guardDevice P dev ≠ hostDevice read dev → HostAllowed read m dev

variable {P} {m : NetVMManifest} {root dev : Xml} {read : String → Option ℤ}

theorem allDevices_eq : allDevices root = firstDevices root ++ laterDevices root := by
  rw [firstDevices, laterDevices, ← List.flatMap_append, List.take_append_drop]
  rfl

theorem find_devices : root.find "devices" = (sections root).head? := by
  rw [Xml.find, sections, List.head?_filter]

theorem firstDevices_of_find {devices : Xml} (h : root.find "devices" = some devices) :
    firstDevices root = devices.children := by
  rw [find_devices] at h
  obtain ⟨rest, hrest⟩ := List.head?_eq_some_iff.1 h
  simp [firstDevices, hrest]

theorem countOf_append (tag : String) (xs ys : List Xml) :
    countOf tag (xs ++ ys) = countOf tag xs + countOf tag ys :=
  List.countP_append

/-! ## The checks of one device -/

theorem declaresMac_iff {mac : String} : m.declaresMac P mac = true ↔ MacDeclared P m mac := by
  unfold NetVMManifest.declaresMac MacDeclared
  cases hmac : normMac P (.str mac) with
  | none => simp
  | some a =>
    dsimp only
    by_cases hnamed : some a = m.mgmtMac ∨ some a = m.wanMac ∨ some a = m.recoveryMac
    · rw [if_pos hnamed]
      exact ⟨fun _ => ⟨a, rfl, .inl hnamed⟩, fun _ => rfl⟩
    · rw [if_neg hnamed]
      cases hp : m.siloVifPrefix with
      | none => simp [hnamed]
      | some p =>
        by_cases hstart : PyText.startswith a p = true
        · cases hslot : vifSlot P a <;> simp [hnamed, hstart, hslot]
        · simp [hnamed, hstart]

theorem checkHostdev_nil (h : checkHostdev P m dev = some []) :
    ∃ d, guardDevice P dev = some d ∧ d.Allowed m := by
  unfold checkHostdev at h
  unfold guardDevice
  by_cases husb : dev.attr "type" = some "usb"
  · rw [if_pos husb] at h ⊢
    dsimp only at h
    split at h
    · exact ⟨_, rfl, by assumption⟩
    · simp at h
  · rw [if_neg husb] at h ⊢
    by_cases hpci : dev.attr "type" = some "pci"
    · rw [if_pos hpci] at h ⊢
      cases haddr : (dev.find "source").bind (·.find "address") with
      | none => simp [haddr] at h
      | some addr =>
        cases hname : pciAddress P.int16 addr with
        | none => simp [haddr, hname] at h
        | some dbsf =>
          simp only [haddr, hname] at h
          split at h
          · exact ⟨.pci dbsf, by simp [pciDevice, haddr, hname], by assumption⟩
          · simp at h
    · simp [if_neg hpci] at h

theorem checkDisk_nil (h : checkDisk dev = []) : (dev.attr "device").getD "disk" = "disk" ∧
    (dev.attr "type" = none ∨ dev.attr "type" = some "file") := by
  rw [checkDisk, List.append_eq_nil_iff] at h
  obtain ⟨hdevice, htype⟩ := h
  constructor
  · by_contra hne
    simp [hne] at hdevice
  · by_contra hne
    rw [not_or] at hne
    simp [hne] at htype

theorem checkChannel_nil (h : checkChannel P dev = []) :
    channelTarget dev = some "org.qemu.guest_agent.0" := by
  by_contra hne
  simp [checkChannel, hne] at h

theorem kindDeclared_of_nil (h : deviceErrors P m dev = some []) : KindDeclared P m dev := by
  unfold deviceErrors at h
  unfold KindDeclared
  -- the branches stand in the order of the kinds
  split at h
  next htag =>
    refine .inl ⟨htag, ?_⟩
    cases hmac : macOf dev with
    | none => simp [hmac] at h
    | some mac =>
      refine ⟨mac, rfl, declaresMac_iff.1 ?_⟩
      by_contra hne
      simp [hmac, hne] at h
  split at h
  next htag => exact .inr (.inl htag)
  split at h
  next htag =>
    refine .inr (.inr (.inl ⟨htag, ?_⟩))
    by_contra hne
    simp [hne] at h
  split at h
  next htag =>
    refine .inr (.inr (.inr (.inl ⟨.inl htag, ?_⟩)))
    by_contra hne
    simp [hne] at h
  split at h
  next htag =>
    refine .inr (.inr (.inr (.inl ⟨.inr htag, ?_⟩)))
    by_contra hne
    simp [hne] at h
  split at h
  next htag =>
    exact .inr (.inr (.inr (.inr (.inl ⟨htag, checkDisk_nil (Option.some.inj h)⟩))))
  next hdisk =>
    split at h
    next htag =>
      exact .inr (.inr (.inr (.inr (.inr (.inl ⟨htag, checkChannel_nil (Option.some.inj h)⟩)))))
    next hchannel =>
      split at h
      next hbase => exact .inr (.inr (.inr (.inr (.inr (.inr ⟨hdisk, hchannel, hbase⟩)))))
      · simp at h

theorem hostAllowed_of_nil (h : deviceErrors P m dev = some []) (htag : dev.tag = "hostdev")
    (hsame : guardDevice P dev = hostDevice read dev) : HostAllowed read m dev := by
  have hcheck : checkHostdev P m dev = some [] := by simpa [deviceErrors, htag] using h
  obtain ⟨d, hd, hallowed⟩ := checkHostdev_nil hcheck
  exact ⟨d, hsame ▸ hd, hallowed⟩

/-! ## Accepted domains -/

theorem mapM_deviceErrors {devs : List Xml} {errs : List (List String)}
    (h : devs.mapM (deviceErrors P m) = some errs) (hnil : errs.flatten = []) :
    ∀ dev ∈ devs, deviceErrors P m dev = some [] := by
  induction devs generalizing errs with
  | nil => simp
  | cons d rest ih =>
    rw [List.mapM_cons] at h
    cases hd : deviceErrors P m d with
    | none => simp [hd] at h
    | some e =>
      cases hrest : rest.mapM (deviceErrors P m) with
      | none => simp [hd, hrest] at h
      | some es =>
        have herrs : e :: es = errs := by simpa [hd, hrest] using h
        rw [← herrs, List.flatten_cons, List.append_eq_nil_iff] at hnil
        intro dev hdev
        rcases List.mem_cons.1 hdev with rfl | hdev
        · rw [hd, hnil.1]
        · exact ih hrest hnil.2 dev hdev

theorem accepted_spec (h : validateDomain P m (.ok root) = some []) :
    (∀ dev ∈ firstDevices root, deviceErrors P m dev = some []) ∧
      ∀ p ∈ baselineMax, countOf p.1 (firstDevices root) ≤ p.2 := by
  unfold validateDomain at h
  cases hfind : root.find "devices" with
  | none => simp [hfind] at h
  | some devices =>
    rw [firstDevices_of_find hfind]
    cases herrs : devices.children.mapM (deviceErrors P m) with
    | none => simp [hfind, herrs] at h
    | some errs =>
      simp only [hfind, herrs, Option.some.injEq, List.append_eq_nil_iff] at h
      obtain ⟨⟨-, hflat⟩, hcaps⟩ := h
      refine ⟨mapM_deviceErrors herrs hflat, fun p hp => ?_⟩
      rw [capErrors, List.map_eq_nil_iff, List.filter_eq_nil_iff] at hcaps
      have := hcaps p hp
      simp only [decide_eq_true_eq] at this
      omega

/-- **The guard is complete exactly where its blind spots hold nothing undeclared.** -/
theorem declared_iff_blind_spots (h : validateDomain P m (.ok root) = some []) :
    Declared P read m root ↔ BlindSpotsDeclared P read m root := by
  obtain ⟨hfirst, hcaps⟩ := accepted_spec h
  constructor
  · rintro ⟨hdevices, hall⟩
    rw [allDevices_eq] at hdevices hall
    have hone : ∀ dev ∈ firstDevices root, DeviceDeclared P read m dev :=
      fun dev hdev => hdevices dev (List.mem_append_left _ hdev)
    refine ⟨fun dev hdev => hdevices dev (List.mem_append_right _ hdev), ?_, ?_, ?_⟩
    · intro p hp
      have hsum := hall p hp
      rw [countOf_append] at hsum
      omega
    · intro dev hdev htag htype
      exact (hone dev hdev).host (.inr ⟨htag, htype⟩)
    · intro dev hdev htag _
      exact (hone dev hdev).host (.inl htag)
  · rintro ⟨hlater, hroom, hinterfaces, hmisread⟩
    refine ⟨fun dev hdev => ?_, fun p hp => ?_⟩
    · rw [allDevices_eq] at hdev
      rcases List.mem_append.1 hdev with hdev | hdev
      · refine ⟨kindDeclared_of_nil (hfirst dev hdev), ?_⟩
        rintro (htag | ⟨htag, htype⟩)
        · by_cases hsame : guardDevice P dev = hostDevice read dev
          · exact hostAllowed_of_nil (hfirst dev hdev) htag hsame
          · exact hmisread dev hdev htag hsame
        · exact hinterfaces dev hdev htag htype
      · exact hlater dev hdev
    · rw [allDevices_eq, countOf_append]
      have hleft := hcaps p hp
      have hright := hroom p hp
      omega

/-! ## Domains of one manifest -/

/-- The value of a text of digits in a base. -/
def digitsValue (base : ℕ) (s : String) : Option ℤ :=
  if s = "" then none
  else
    s.toList.foldl (fun n c => do
      let n ← n
      let d ← JsonText.hexVal c
      if d < base then some (base * n + d) else none) (some 0)

/-- The functions of the interpreter on ASCII texts. -/
def asciiPlatform : Platform where
  u := UnicodeDb.ascii
  lower := fun s => String.ofList (s.toList.map Char.toLower)
  repr := fun v => match v with | .str s => "'" ++ s ++ "'" | _ => "None"
  str := fun v => match v with | .str s => s | _ => "None"
  int16 := fun s => digitsValue 16 (bare s)

/-- `strtoul` with base 0, for numbers that are not octal. -/
def readAuto (s : String) : Option ℤ :=
  if PyText.startswith s "0x" then digitsValue 16 (bare s) else digitsValue 10 s

/-- A manifest with one dongle and no PCI device. -/
def dongleManifest : JsonText.Json :=
  .obj
    [("name", .str "netvm"),
      ("controlPlane", .obj [("transport", .str "rpcd-http"), ("endpoint", .str "http://netvm/ubus"),
        ("mgmtMac", .str "52:54:00:9C:00:01")]),
      ("interfaces", .obj [("siloVifPrefix", .str "52:54:00:9c:01:"), ("maxSiloVifs", .int 16)]),
      ("usbHostdevAllow", .arr [.obj [("vendor", .str "0E8D"), ("product", .str "7612")]])]

/-- The same, parsed. -/
def dongle : NetVMManifest where
  name := "netvm"
  transport := "rpcd-http"
  endpoint := "http://netvm/ubus"
  mgmtMac := some "52:54:00:9c:00:01"
  wanMac := none
  recoveryMac := none
  siloVifPrefix := some "52:54:00:9c:01:"
  maxSiloVifs := 16
  exposed := []
  usbAllow := [("0e8d", "7612")]
  pciAllow := []
  allowVsock := false
  allowGraphics := false

/-- An interface with further attributes and a source. -/
def vif (mac : String) (attrs : List (String × String)) (source : List Xml) : Xml :=
  .node "interface" attrs (.node "mac" [("address", mac)] [] :: source)

/-- The address of the host's second PCI slot. -/
def pciSource : Xml :=
  .node "source" [] [.node "address"
    [("type", "pci"), ("domain", "0x0000"), ("bus", "0x02"), ("slot", "0x00"), ("function", "0x0")]
    []]

/-- The dongle as a `hostdev`. -/
def dongleDevice : Xml :=
  .node "hostdev" [("mode", "subsystem"), ("type", "usb")]
    [.node "source" [] [.node "vendor" [("id", "0x0e8d")] [], .node "product" [("id", "0x7612")] []]]

/-- A domain with one `<devices>` element. -/
def plainDomain (devs : List Xml) : Xml :=
  .node "domain" [("type", "kvm")] [.node "name" [] [], .node "devices" [] devs]

/-- The domain that the manifest is meant for. -/
def dongleDomain : Xml :=
  plainDomain [.node "emulator" [] [], vif "52:54:00:9c:00:01" [("type", "network")] [],
    vif "52:54:00:9c:01:0f" [("type", "bridge")] [], dongleDevice]

theorem dongleDomain_declared :
    (parse asciiPlatform dongleManifest).toOption = some dongle ∧
      validateDomain asciiPlatform dongle (.ok dongleDomain) = some [] ∧
      Declared asciiPlatform readAuto dongle dongleDomain := by
  have haccepted : validateDomain asciiPlatform dongle (.ok dongleDomain) = some [] := by
    decide +kernel
  refine ⟨by decide +kernel, haccepted, (declared_iff_blind_spots haccepted).2 ⟨?_, ?_, ?_, ?_⟩⟩
  · intro dev hdev
    cases hdev
  · decide +kernel
  · have hnone : ∀ dev ∈ firstDevices dongleDomain,
        ¬(dev.tag = "interface" ∧ dev.attr "type" = some "hostdev") := by decide +kernel
    intro dev hdev htag htype
    exact absurd ⟨htag, htype⟩ (hnone dev hdev)
  · have hsame : ∀ dev ∈ firstDevices dongleDomain, dev.tag = "hostdev" →
        guardDevice asciiPlatform dev = hostDevice readAuto dev := by decide +kernel
    intro dev hdev htag hne
    exact absurd (hsame dev hdev htag) hne

/-- A PCI device as a `hostdev`. -/
def pciHostdev : Xml := .node "hostdev" [("mode", "subsystem"), ("type", "pci")] [pciSource]

/-- The same device behind an interface. -/
def pciInterface : Xml := vif "52:54:00:9c:00:01" [("type", "hostdev")] [pciSource]

/-- The `hostdev` in a second `<devices>` element. -/
def secondDevices : Xml :=
  .node "domain" [("type", "kvm")]
    [.node "devices" [] [vif "52:54:00:9c:00:01" [("type", "network")] []],
      .node "devices" [] [pciHostdev]]

theorem not_declared_of_hostDevice {d : HostDevice} (hdev : dev ∈ allDevices root)
    (hassigns : Assigns dev) (hd : hostDevice read dev = some d) (hnot : ¬ d.Allowed m) :
    ¬ Declared P read m root := by
  intro hdeclared
  obtain ⟨d', hd', hallowed⟩ := (hdeclared.devices dev hdev).host hassigns
  rw [hd] at hd'
  exact hnot (Option.some.inj hd' ▸ hallowed)

theorem second_devices_unseen :
    (parse asciiPlatform dongleManifest).toOption = some dongle ∧
      (validateDomain asciiPlatform dongle (.ok secondDevices) = some [] ∧
        ¬ Declared asciiPlatform readAuto dongle secondDevices) ∧
      validateDomain asciiPlatform dongle (.ok (plainDomain [pciInterface])) = some [] ∧
        ¬ Declared asciiPlatform readAuto dongle (plainDomain [pciInterface]) := by
  have hnot : ∀ address, ¬ (HostDevice.pci address).Allowed dongle := by
    intro address hallowed
    cases hallowed
  refine ⟨by decide +kernel, ⟨by decide +kernel, ?_⟩, by decide +kernel, ?_⟩
  · have hname : hostDevice readAuto pciHostdev = some (.pci "0000:02:00.0") := by decide +kernel
    exact not_declared_of_hostDevice (.tail _ (.head _)) (.inl rfl) hname (hnot _)
  · have hname : hostDevice readAuto pciInterface = some (.pci "0000:02:00.0") := by decide +kernel
    exact not_declared_of_hostDevice (.head _) (.inr ⟨rfl, rfl⟩) hname (hnot _)

end Netvm
