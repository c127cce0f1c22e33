import Mathlib.Data.Multiset.AddSub
import TrezorPlugin.Hidapi
import TrezorPlugin.Lib.Utf16

/-!
# Devices on the bus (X11/hid.c)

libusb as `hid_enumerate` and `hid_open_path` find it: the descriptors of the
devices, and handles.  `Libusb` is what it answers; `Usb` keeps in `held` what a
caller has obtained from it and not given back.

    makePath d n = makePath d' n'  ↔  same bus, address and interface   (makePath_inj)
    hid_enumerate lists the HID interfaces, and holds nothing          (enumerate_lists)
-/

namespace TrezorPlugin.X11Bus

/-! ## Descriptors -/

structure EndpointDescriptor where
  bEndpointAddress : UInt8
  bmAttributes : UInt8
  wMaxPacketSize : UInt16
  deriving DecidableEq

/-- One altsetting of an interface. -/
structure InterfaceDescriptor where
  bInterfaceNumber : UInt8
  bInterfaceClass : UInt8
  endpoint : List EndpointDescriptor
  deriving DecidableEq

/-- The altsettings of each interface. -/
structure ConfigDescriptor where
  interface : List (List InterfaceDescriptor)
  deriving DecidableEq

structure UsbDeviceDescriptor where
  idVendor : UInt16
  idProduct : UInt16
  bcdDevice : UInt16
  iManufacturer : UInt8
  iProduct : UInt8
  iSerialNumber : UInt8
  deriving DecidableEq

/-- A `libusb_device`, with what libusb knows of it. -/
structure UsbDevice where
  busNumber : UInt8
  deviceAddress : UInt8
  descriptor : UsbDeviceDescriptor
  /-- `libusb_get_active_config_descriptor`. -/
  active : Option ConfigDescriptor
  /-- `libusb_get_config_descriptor(dev, 0)`. -/
  config0 : Option ConfigDescriptor
  deriving DecidableEq

/-- `LIBUSB_CLASS_HID`. -/
def classHid : UInt8 := 3

/-! ## make_path -/

/-- `%0<width>x`. -/
def hexPad (width n : Nat) : List Char :=
  List.replicate (width - (Nat.toDigits 16 n).length) '0' ++ Nat.toDigits 16 n

def makePath (dev : UsbDevice) (interfaceNumber : UInt8) : String :=
  String.ofList (hexPad 4 dev.busNumber.toNat ++ ':' :: (hexPad 4 dev.deviceAddress.toNat ++
    ':' :: hexPad 2 interfaceNumber.toNat))

theorem hexPad_four : ∀ n, n < 256 →
    hexPad 4 n = ['0', '0', Nat.digitChar (n / 16), Nat.digitChar (n % 16)] := by
  decide +kernel

theorem hexPad_two : ∀ n, n < 256 →
    hexPad 2 n = [Nat.digitChar (n / 16), Nat.digitChar (n % 16)] := by
  decide +kernel

theorem digitChar_inj : ∀ m, m < 16 → ∀ n, n < 16 → Nat.digitChar m = Nat.digitChar n → m = n := by
  decide +kernel

/-- The two digits of a byte are those of no other. -/
theorem digits_inj {a b : UInt8} (hhigh : Nat.digitChar (a.toNat / 16) = Nat.digitChar (b.toNat / 16))
    (hlow : Nat.digitChar (a.toNat % 16) = Nat.digitChar (b.toNat % 16)) : a = b := by
  have ha : a.toNat < 256 := a.toNat_lt
  have hb : b.toNat < 256 := b.toNat_lt
  have hdiv := digitChar_inj (a.toNat / 16) (by omega) (b.toNat / 16) (by omega) hhigh
  have hmod := digitChar_inj (a.toNat % 16) (by omega) (b.toNat % 16) (by omega) hlow
  apply UInt8.toNat_inj.mp
  omega

/-- **Paths name interfaces**: one bus, one address and one interface number each. -/
theorem makePath_inj {d d' : UsbDevice} {n n' : UInt8} :
    makePath d n = makePath d' n' ↔
      d.busNumber = d'.busNumber ∧ d.deviceAddress = d'.deviceAddress ∧ n = n' := by
  constructor
  · intro h
    have hchars := String.ofList_injective h
    rw [hexPad_four _ d.busNumber.toNat_lt, hexPad_four _ d'.busNumber.toNat_lt,
      hexPad_four _ d.deviceAddress.toNat_lt, hexPad_four _ d'.deviceAddress.toNat_lt,
      hexPad_two _ n.toNat_lt, hexPad_two _ n'.toNat_lt] at hchars
    simp only [List.cons_append, List.nil_append, List.cons.injEq, true_and, and_true] at hchars
    obtain ⟨h1, h2, h3, h4, h5, h6⟩ := hchars
    exact ⟨digits_inj h1 h2, digits_inj h3 h4, digits_inj h5 h6⟩
  · rintro ⟨hbus, haddress, rfl⟩
    rw [makePath, makePath, hbus, haddress]

/-! ## libusb -/

/-- A `libusb_device_handle`. -/
structure DevHandle where
  id : Nat
  device : UsbDevice
  deriving DecidableEq

/-- What libusb, the devices and the C library answer, from a state of theirs.  `true` is success. -/
structure Libusb (σ : Type) where
  init : σ → Bool × σ
  getDeviceList : σ → Option (List UsbDevice) × σ
  openDevice : σ → UsbDevice → Bool × σ
  /-- What is stored in a buffer of `length` bytes. -/
  getStringDescriptor : σ → DevHandle → UInt8 → UInt16 → (length : Nat) →
    Option { bytes : List UInt8 // bytes.length ≤ length } × σ
  iconvOpen : σ → Bool × σ
  kernelDriverActive : σ → DevHandle → UInt8 → Bool × σ
  detachKernelDriver : σ → DevHandle → UInt8 → Bool × σ
  claimInterface : σ → DevHandle → UInt8 → Bool × σ
  close : σ → DevHandle → σ

/-- What was obtained and not given back: the lists and descriptors to be freed, the open handles,
the interfaces claimed on them, and the read threads running on devices with them. -/
structure Held where
  deviceLists : Nat
  configDescriptors : Nat
  handles : Multiset DevHandle
  claims : Multiset (DevHandle × UInt8)
  readThreads : Multiset DevHandle

structure Usb (σ : Type) where
  lib : σ
  /-- `usb_context != NULL`. -/
  context : Bool
  /-- The handles opened so far. -/
  opened : Nat
  held : Held

abbrev UsbM (σ α : Type) := EStateM Stop (Usb σ) α

variable {σ : Type}

/-- One question to the outside. -/
def ask {α : Type} (f : σ → α × σ) : UsbM σ α := fun s =>
  .ok (f s.lib).1 { s with lib := (f s.lib).2 }

def modifyHeld (f : Held → Held) : UsbM σ Unit := fun s => .ok () { s with held := f s.held }

variable (L : Libusb σ)

def hidInit : UsbM σ Bool := fun s =>
  if s.context then .ok true s
  else .ok (L.init s.lib).1 { s with lib := (L.init s.lib).2, context := (L.init s.lib).1 }

/-- The devices that a call of hidapi finds: what libusb lists, once it is initialized. -/
def Usb.bus (s : Usb σ) : Option (List UsbDevice) :=
  (L.getDeviceList (if s.context then s.lib else (L.init s.lib).2)).1

/-- The devices that `hid_enumerate` finds: none, if libusb is not initialized or does not list. -/
def Usb.found (s : Usb σ) : List UsbDevice :=
  if s.context ∨ (L.init s.lib).1 then (s.bus L).getD [] else []

def getDeviceList : UsbM σ (Option (List UsbDevice)) := do
  match ← ask L.getDeviceList with
  | none => return none
  | some devs => do
    modifyHeld fun H => { H with deviceLists := H.deviceLists + 1 }
    return some devs

def freeDeviceList : UsbM σ Unit :=
  modifyHeld fun H => { H with deviceLists := H.deviceLists - 1 }

/-- A configuration descriptor that libusb knows, or none. -/
def getConfigDescriptor (conf : Option ConfigDescriptor) : UsbM σ (Option ConfigDescriptor) := do
  match conf with
  | none => return none
  | some conf => do
    modifyHeld fun H => { H with configDescriptors := H.configDescriptors + 1 }
    return some conf

def freeConfigDescriptor : UsbM σ Unit :=
  modifyHeld fun H => { H with configDescriptors := H.configDescriptors - 1 }

/-- A handle that there was not before. -/
def newHandle (dev : UsbDevice) : UsbM σ DevHandle := fun s =>
  .ok ⟨s.opened, dev⟩ { s with
    opened := s.opened + 1
    held := { s.held with handles := ⟨s.opened, dev⟩ ::ₘ s.held.handles } }

/-- `libusb_open`. -/
def openDevice (dev : UsbDevice) : UsbM σ (Option DevHandle) := do
  if ← ask fun lib => L.openDevice lib dev then
    let handle ← newHandle dev
    return some handle
  else return none

/-- `libusb_close`. -/
def closeDevice (handle : DevHandle) : UsbM σ Unit := do
  ask fun lib => ((), L.close lib handle)
  modifyHeld fun H => { H with handles := H.handles.erase handle }

/-! ## Strings -/

/-- The language IDs in `buf`, behind the two bytes of protocol data. -/
def languages (buf : List UInt8) : List UInt16 :=
  (List.range (buf.length / 2 - 1)).map fun i =>
    Bytes.le16 (buf.getD (2 * i + 2) 0) (buf.getD (2 * i + 3) 0)

def getFirstLanguage (handle : DevHandle) : UsbM σ UInt16 := do
  match ← ask fun lib => L.getStringDescriptor lib handle 0 0 64 with
  | none => return 0
  | some buf => return (languages buf.1).headD 0

def isLanguageSupported (handle : DevHandle) (lang : UInt16) : UsbM σ Bool := do
  match ← ask fun lib => L.getStringDescriptor lib handle 0 0 64 with
  | none => return false
  | some buf => return (languages buf.1).contains lang

/-- The language of the locale, if the device has it, or else its first. -/
def stringLanguage (locale : UInt16) (handle : DevHandle) : UsbM σ UInt16 := do
  if ← isLanguageSupported L handle locale then return locale
  else getFirstLanguage L handle

/-- `iconv` into `wbuf`, with the terminating null characters, and `wcsdup`. -/
def iconvText (bytes : List UInt8) : Option WString :=
  match Utf16.ofBytes bytes with
  | none => none
  | some text =>
    if 256 < text.length then none
    else some (((text.map Char.toNat).take 255).takeWhile (· ≠ 0))

/-- `get_usb_string`, with `locale` for `get_usb_code_for_current_locale()`.  Of an answer shorter than
two bytes `len-2` is a huge number, and `iconv`, if it could be opened, runs off the buffer. -/
def getUsbString (locale : UInt16) (handle : DevHandle) (idx : UInt8) :
    UsbM σ (Option WString) := do
  let lang ← stringLanguage L locale handle
  match ← ask fun lib => L.getStringDescriptor lib handle idx lang 512 with
  | none => return none
  | some buf =>
    if ← ask L.iconvOpen then
      if buf.1.length < 2 then throw .undefined
      else return iconvText (buf.1.drop 2)
    else return none

/-! ## hid_enumerate -/

/-- `struct hid_device_info`, without the usage fields, which stay 0. -/
structure DeviceInfo extends HidDeviceInfo where
  releaseNumber : UInt16
  manufacturerString : Option WString

/-- A string the device has, by its index, or a null pointer. -/
def stringAt (locale : UInt16) (handle : DevHandle) (idx : UInt8) : UsbM σ (Option WString) :=
  if 0 < idx then getUsbString L locale handle idx else pure none

/-- The serial number, manufacturer and product strings, on a handle of their own. -/
def deviceStrings (locale : UInt16) (dev : UsbDevice) :
    UsbM σ (Option WString × Option WString × Option WString) := do
  match ← openDevice L dev with
  | none => return (none, none, none)
  | some handle => do
    let serialNumber ← stringAt L locale handle dev.descriptor.iSerialNumber
    let manufacturer ← stringAt L locale handle dev.descriptor.iManufacturer
    let product ← stringAt L locale handle dev.descriptor.iProduct
    closeDevice L handle
    return (serialNumber, manufacturer, product)

/-- One altsetting, with the list so far. -/
def enumerateAltsetting (locale vendorId productId : UInt16) (dev : UsbDevice)
    (root : List DeviceInfo) (intfDesc : InterfaceDescriptor) : UsbM σ (List DeviceInfo) := do
  if intfDesc.bInterfaceClass = classHid ∧
      (vendorId = 0 ∨ vendorId = dev.descriptor.idVendor) ∧
      (productId = 0 ∨ productId = dev.descriptor.idProduct) then do
    let strings ← deviceStrings L locale dev
    return root ++ [{
      path := makePath dev intfDesc.bInterfaceNumber
      vendorId := dev.descriptor.idVendor
      productId := dev.descriptor.idProduct
      serialNumber := strings.1
      productString := strings.2.2
      interfaceNumber := intfDesc.bInterfaceNumber.toNat
      releaseNumber := dev.descriptor.bcdDevice
      manufacturerString := strings.2.1 }]
  else return root

/-- One device: its active configuration, or else its first. -/
def enumerateDevice (locale vendorId productId : UInt16) (root : List DeviceInfo)
    (dev : UsbDevice) : UsbM σ (List DeviceInfo) := do
  match ← getConfigDescriptor (dev.active <|> dev.config0) with
  | none => return root
  | some conf => do
    let root ← conf.interface.foldlM (fun root intf =>
      intf.foldlM (enumerateAltsetting L locale vendorId productId dev) root) root
    freeConfigDescriptor
    return root

def hidEnumerate (locale vendorId productId : UInt16) : UsbM σ (List DeviceInfo) := do
  if ← hidInit L then
    match ← getDeviceList L with
    | none => return []
    | some devs => do
      let root ← devs.foldlM (enumerateDevice L locale vendorId productId) []
      freeDeviceList
      return root
  else return []

/-! ## What is held -/

/-- The caller holds `H`. -/
def Holds (H : Held) (s : Usb σ) : Prop := s.held = H

variable {H : Held}

theorem ask_holds {α : Type} (f : σ → α × σ) :
    Exec.Returns (Holds H) (ask f) fun _ => Holds H := by
  intro s a s' hs h
  cases h
  exact hs

theorem modifyHeld_holds (f : Held → Held) :
    Exec.Returns (Holds H) (modifyHeld f : UsbM σ Unit) fun _ => Holds (f H) := by
  intro s a s' hs h
  cases h
  exact congrArg f hs

theorem hidInit_holds {devs : Option (List UsbDevice)} :
    Exec.Returns (fun s => Holds H s ∧ s.bus L = devs) (hidInit L) fun _ s =>
      Holds H s ∧ (L.getDeviceList s.lib).1 = devs := by
  rintro s a s' ⟨hs, hbus⟩ h
  unfold hidInit at h
  unfold Usb.bus at hbus
  split at h
  · next hcontext =>
    cases h
    rw [if_pos hcontext] at hbus
    exact ⟨hs, hbus⟩
  · next hcontext =>
    cases h
    rw [if_neg hcontext] at hbus
    exact ⟨hs, hbus⟩

theorem hidInit_found {devs : List UsbDevice} :
    Exec.Returns (fun s => Holds H s ∧ s.found L = devs) (hidInit L) fun ok s =>
      Holds H s ∧ devs = if ok then ((L.getDeviceList s.lib).1).getD [] else [] := by
  rintro s ok s' ⟨hs, rfl⟩ h
  unfold hidInit at h
  unfold Usb.found Usb.bus
  split at h
  · next hcontext =>
    cases h
    rw [if_pos (.inl hcontext), if_pos hcontext, if_pos rfl]
    exact ⟨hs, rfl⟩
  · next hcontext =>
    cases h
    simp only [hcontext, Bool.false_eq_true, false_or, if_false]
    exact ⟨hs, trivial⟩

theorem openDevice_holds (dev : UsbDevice) :
    Exec.Returns (Holds H) (openDevice L dev) fun res s => match res with
      | none => Holds H s
      | some handle => handle.device = dev ∧
          Holds { H with handles := handle ::ₘ H.handles } s := by
  refine .bind (ask_holds _) ?_
  intro b
  refine .ite ?_ fun _ => .pure fun _ hs => hs
  intro _ s a s' hs h
  cases h
  refine ⟨rfl, ?_⟩
  show Held.mk _ _ _ _ _ = _
  rw [hs]

theorem closeDevice_holds (handle : DevHandle) :
    Exec.Returns (Holds { H with handles := handle ::ₘ H.handles }) (closeDevice L handle)
      fun _ => Holds H := by
  refine .bind (ask_holds _) fun _ => ?_
  refine (modifyHeld_holds _).mono (fun _ hs => hs) fun _ s hs => ?_
  rw [Multiset.erase_cons_head] at hs
  exact hs

theorem isLanguageSupported_holds (handle : DevHandle) (lang : UInt16) :
    Exec.Returns (Holds H) (isLanguageSupported L handle lang) fun _ => Holds H := by
  refine .bind (ask_holds _) ?_
  rintro (_ | buf)
  · exact .pure fun _ hs => hs
  · exact .pure fun _ hs => hs

theorem getFirstLanguage_holds (handle : DevHandle) :
    Exec.Returns (Holds H) (getFirstLanguage L handle) fun _ => Holds H := by
  refine .bind (ask_holds _) ?_
  rintro (_ | buf)
  · exact .pure fun _ hs => hs
  · exact .pure fun _ hs => hs

theorem stringLanguage_holds (locale : UInt16) (handle : DevHandle) :
    Exec.Returns (Holds H) (stringLanguage L locale handle) fun _ => Holds H :=
  .bind (isLanguageSupported_holds L handle locale) fun _ =>
    .ite (fun _ => .pure fun _ hs => hs) fun _ => getFirstLanguage_holds L handle

/-! ### Strings -/

/-- The device answers with `text` for its string number `idx`, in every language. -/
def Tells (dev : UsbDevice) (idx : UInt8) (text : List Char) : Prop :=
  ∀ lib handle lang, handle.device = dev → ∃ buf, (L.getStringDescriptor lib handle idx lang 512).1 =
    some buf ∧ 2 ≤ buf.1.length ∧ buf.1.drop 2 = Utf16.toBytes text

/-- A buffer of 512 bytes never has too many characters for `wbuf`. -/
theorem iconvText_eq {bytes : List UInt8} (h : bytes.length ≤ 510) :
    iconvText bytes =
      (Utf16.ofBytes bytes).map fun text => (text.map Char.toNat).takeWhile (· ≠ 0) := by
  unfold iconvText
  cases htext : Utf16.ofBytes bytes with
  | none => rfl
  | some text =>
    have hbytes := Utf16.ofBytes_eq_some.mp htext
    have hlen : text.length ≤ 255 := by
      have h1 := Utf16.length_le_encode text
      have h2 := Utf16.length_toBytes text
      rw [← hbytes] at h2
      omega
    have htake : (text.map Char.toNat).take 255 = text.map Char.toNat := by
      rw [List.take_of_length_le]
      rw [List.length_map]
      exact hlen
    simp only [Option.map_some]
    rw [if_neg (by omega), htake]

theorem getUsbString_holds (locale : UInt16) (handle : DevHandle) (idx : UInt8) :
    Exec.Returns (Holds H) (getUsbString L locale handle idx) fun str s => Holds H s ∧
      ∀ text, Tells L handle.device idx text → (∀ lib, (L.iconvOpen lib).1 = true) →
        str = some ((text.map Char.toNat).takeWhile (· ≠ 0)) := by
  refine .bind (stringLanguage_holds L locale handle) fun lang => ?_
  intro s str s' hs h
  obtain ⟨answer, t, hask, h⟩ := Exec.of_bind_ok h
  cases hask
  cases hanswer : (L.getStringDescriptor s.lib handle idx lang 512).1 with
  | none =>
    rw [hanswer] at h
    cases h
    refine ⟨hs, ?_⟩
    intro text htells
    obtain ⟨buf, hbuf, -⟩ := htells s.lib handle lang rfl
    rw [hanswer] at hbuf
    cases hbuf
  | some buf =>
    simp only [hanswer] at h
    obtain ⟨b, t, hopen, h⟩ := Exec.of_bind_ok h
    cases hopen
    split at h
    · split at h
      · cases h
      · cases h
        refine ⟨hs, ?_⟩
        intro text htells _
        obtain ⟨buf', hbuf', -, htext⟩ := htells s.lib handle lang rfl
        rw [hanswer] at hbuf'
        cases hbuf'
        have hlen : (buf.1.drop 2).length ≤ 510 := by
          have := buf.2
          rw [List.length_drop]
          omega
        rw [iconvText_eq hlen, htext, Utf16.ofBytes_eq_some.mpr rfl]
        rfl
    · next hno =>
      cases h
      exact ⟨hs, fun _ _ hiconv => absurd (hiconv _) hno⟩

/-- `text` can be read from the device, as its string number `idx`. -/
structure Readable (dev : UsbDevice) (idx : UInt8) (text : List Char) : Prop where
  index : 0 < idx
  opens : ∀ lib, (L.openDevice lib dev).1 = true
  converts : ∀ lib, (L.iconvOpen lib).1 = true
  tells : Tells L dev idx text

/-- `str` is the string number `idx` of the device as the list gives it: up to its first null
character, and a null pointer if there is none. -/
def StringOf (dev : UsbDevice) (idx : UInt8) (str : Option WString) : Prop :=
  (idx = 0 → str = none) ∧ ∀ text, Readable L dev idx text →
    str = some ((text.map Char.toNat).takeWhile (· ≠ 0))

theorem stringAt_holds (locale : UInt16) (handle : DevHandle) (idx : UInt8) :
    Exec.Returns (Holds H) (stringAt L locale handle idx) fun str s =>
      Holds H s ∧ StringOf L handle.device idx str := by
  refine .ite ?_ ?_
  · intro hidx
    refine (getUsbString_holds L locale handle idx).mono (fun _ hs => hs) ?_
    rintro str s ⟨hs, hstr⟩
    refine ⟨hs, ?_, fun text h => hstr text h.tells h.converts⟩
    rintro rfl
    exact absurd hidx (by decide)
  · intro hidx
    exact .pure fun s hs => ⟨hs, fun _ => rfl, fun _ h => absurd h.index hidx⟩

theorem deviceStrings_holds (locale : UInt16) (dev : UsbDevice) :
    Exec.Returns (Holds H) (deviceStrings L locale dev) fun strs s => Holds H s ∧
      StringOf L dev dev.descriptor.iSerialNumber strs.1 ∧
      StringOf L dev dev.descriptor.iManufacturer strs.2.1 ∧
      StringOf L dev dev.descriptor.iProduct strs.2.2 := by
  intro s strs s' hs h
  obtain ⟨res, t, hopen, h⟩ := Exec.of_bind_ok h
  have hres := openDevice_holds L dev s res t hs hopen
  cases res with
  | none =>
    cases h
    have hnone : ∀ idx, StringOf L dev idx none := by
      refine fun idx => ⟨fun _ => rfl, ?_⟩
      intro text hread
      obtain ⟨b, u, hask, hopen⟩ := Exec.of_bind_ok hopen
      cases hask
      rw [if_pos (hread.opens s.lib)] at hopen
      cases hopen
    exact ⟨hres, hnone _, hnone _, hnone _⟩
  | some handle =>
    obtain ⟨rfl, ht⟩ := hres
    obtain ⟨serial, u, hserial, h⟩ := Exec.of_bind_ok h
    obtain ⟨hu, hs1⟩ := stringAt_holds L locale handle _ t serial u ht hserial
    obtain ⟨manufacturer, v, hmanufacturer, h⟩ := Exec.of_bind_ok h
    obtain ⟨hv, hs2⟩ := stringAt_holds L locale handle _ u manufacturer v hu hmanufacturer
    obtain ⟨product, w, hproduct, h⟩ := Exec.of_bind_ok h
    obtain ⟨hw, hs3⟩ := stringAt_holds L locale handle _ v product w hv hproduct
    obtain ⟨_, x, hclose, h⟩ := Exec.of_bind_ok h
    have hx := closeDevice_holds L handle w () x hw hclose
    cases h
    exact ⟨hx, hs1, hs2, hs3⟩

/-! ### The list -/

/-- The altsettings with `p` of all interfaces, device by device. -/
def altsettings (config : UsbDevice → Option ConfigDescriptor)
    (p : UsbDevice → InterfaceDescriptor → Bool) (devs : List UsbDevice) :
    List (UsbDevice × InterfaceDescriptor) :=
  devs.flatMap fun dev => (config dev).toList.flatMap fun conf =>
    conf.interface.flatMap fun intf => (intf.filter (p dev)).map fun intfDesc => (dev, intfDesc)

theorem mem_altsettings {config : UsbDevice → Option ConfigDescriptor}
    {p : UsbDevice → InterfaceDescriptor → Bool} {devs : List UsbDevice} {dev : UsbDevice}
    {intfDesc : InterfaceDescriptor} :
    (dev, intfDesc) ∈ altsettings config p devs ↔ dev ∈ devs ∧ ∃ conf, config dev = some conf ∧
      ∃ intf ∈ conf.interface, intfDesc ∈ intf ∧ p dev intfDesc = true := by
  simp only [altsettings, List.mem_flatMap, Option.mem_toList, List.mem_map, List.mem_filter,
    Prod.mk.injEq]
  constructor
  · rintro ⟨d, hd, conf, hconf, intf, hintf, i, ⟨hi, hp⟩, rfl, rfl⟩
    exact ⟨hd, conf, hconf, intf, hintf, hi, hp⟩
  · rintro ⟨hd, conf, hconf, intf, hintf, hi, hp⟩
    exact ⟨dev, hd, conf, hconf, intf, hintf, intfDesc, ⟨hi, hp⟩, rfl, rfl⟩

/-- The configuration that is enumerated. -/
def UsbDevice.config (dev : UsbDevice) : Option ConfigDescriptor := dev.active <|> dev.config0

/-- The altsetting is that of a HID, and the device one of those asked for; 0 stands for all. -/
def Wanted (vendorId productId : UInt16) (dev : UsbDevice) (intfDesc : InterfaceDescriptor) : Bool :=
  intfDesc.bInterfaceClass = classHid ∧
    (vendorId = 0 ∨ vendorId = dev.descriptor.idVendor) ∧
    (productId = 0 ∨ productId = dev.descriptor.idProduct)

/-- The entry is that of this altsetting of this device. -/
structure Lists (info : DeviceInfo) (entry : UsbDevice × InterfaceDescriptor) : Prop where
  path : info.path = makePath entry.1 entry.2.bInterfaceNumber
  vendorId : info.vendorId = entry.1.descriptor.idVendor
  productId : info.productId = entry.1.descriptor.idProduct
  releaseNumber : info.releaseNumber = entry.1.descriptor.bcdDevice
  interfaceNumber : info.interfaceNumber = entry.2.bInterfaceNumber.toNat
  serialNumber : StringOf L entry.1 entry.1.descriptor.iSerialNumber info.serialNumber
  manufacturerString :
    StringOf L entry.1 entry.1.descriptor.iManufacturer info.manufacturerString
  productString : StringOf L entry.1 entry.1.descriptor.iProduct info.productString

/-- The list so far is that of all the altsettings but those still to come. -/
def Progress (all rest : List (UsbDevice × InterfaceDescriptor)) (root : List DeviceInfo) : Prop :=
  ∃ done, List.Forall₂ (Lists L) root done ∧ done ++ rest = all

variable {L} {locale vendorId productId : UInt16} {all rest : List (UsbDevice × InterfaceDescriptor)}
  {root : List DeviceInfo}

theorem enumerateAltsetting_returns (dev : UsbDevice) (intfDesc : InterfaceDescriptor)
    (h : Progress L all (([intfDesc].filter (Wanted vendorId productId dev)).map
      (fun intfDesc => (dev, intfDesc)) ++ rest) root) :
    Exec.Returns (Holds H) (enumerateAltsetting L locale vendorId productId dev root intfDesc)
      fun root s => Holds H s ∧ Progress L all rest root := by
  obtain ⟨done, hdone, rfl⟩ := h
  refine .ite ?_ ?_
  · intro hwanted
    have hp : Wanted vendorId productId dev intfDesc = true := decide_eq_true hwanted
    rw [List.filter_cons_of_pos hp]
    refine .bind (deviceStrings_holds L locale dev) fun strs => ?_
    refine .pure ?_
    rintro s ⟨hs, h1, h2, h3⟩
    refine ⟨hs, done ++ [(dev, intfDesc)], ?_, ?_⟩
    · exact List.rel_append hdone (.cons ⟨rfl, rfl, rfl, rfl, rfl, h1, h2, h3⟩ .nil)
    · rw [List.append_assoc]
      rfl
  · intro hno
    have hp : ¬ Wanted vendorId productId dev intfDesc = true := fun h => hno (of_decide_eq_true h)
    rw [List.filter_cons_of_neg hp]
    exact .pure fun s hs => ⟨hs, done, hdone, rfl⟩

theorem enumerateInterface_returns (dev : UsbDevice) (intf : List InterfaceDescriptor)
    (h : Progress L all ((intf.filter (Wanted vendorId productId dev)).map
      (fun intfDesc => (dev, intfDesc)) ++ rest) root) :
    Exec.Returns (Holds H) (intf.foldlM (enumerateAltsetting L locale vendorId productId dev) root)
      fun root s => Holds H s ∧ Progress L all rest root := by
  refine (Exec.Returns.foldlM (I := fun l root s => Holds H s ∧ Progress L all
    ((l.filter (Wanted vendorId productId dev)).map (fun intfDesc => (dev, intfDesc)) ++ rest) root)
    ?_ intf root).mono (fun s hs => ⟨hs, h⟩) fun _ _ hq => hq
  rintro intfDesc l root s root' s' ⟨hs, hp⟩ hok
  refine enumerateAltsetting_returns dev intfDesc ?_ s root' s' hs hok
  rw [← List.append_assoc, ← List.map_append, ← List.filter_append]
  exact hp

theorem enumerateDevice_returns (dev : UsbDevice)
    (h : Progress L all (altsettings UsbDevice.config (Wanted vendorId productId) [dev] ++ rest)
      root) :
    Exec.Returns (Holds H) (enumerateDevice L locale vendorId productId root dev)
      fun root s => Holds H s ∧ Progress L all rest root := by
  unfold enumerateDevice
  have hconfig : (dev.active <|> dev.config0) = dev.config := rfl
  rw [hconfig]
  simp only [altsettings, List.flatMap_cons, List.flatMap_nil, List.append_nil] at h
  cases hconf : dev.config with
  | none =>
    rw [hconf] at h
    exact .pure fun s hs => ⟨hs, h⟩
  | some conf =>
    simp only [hconf, Option.toList_some, List.flatMap_cons, List.flatMap_nil,
      List.append_nil] at h
    intro s root' s' hs hok
    obtain ⟨_, t, hget, hok⟩ := Exec.of_bind_ok hok
    cases hget
    obtain ⟨_, u, hloop, hok⟩ := Exec.of_bind_ok hok
    have hu := (Exec.Returns.foldlM (I := fun l root s =>
      Holds { H with configDescriptors := H.configDescriptors + 1 } s ∧ Progress L all
        (l.flatMap (fun intf => (intf.filter (Wanted vendorId productId dev)).map
          (fun intfDesc => (dev, intfDesc))) ++ rest) root) ?_ conf.interface root)
      _ _ u ⟨?_, h⟩ hloop
    · cases hok
      refine ⟨?_, hu.2⟩
      show Held.mk _ _ _ _ _ = H
      rw [hu.1]
      rfl
    · rintro intf l root s root' s' ⟨hs, hp⟩ hok
      refine enumerateInterface_returns dev intf ?_ s root' s' hs hok
      rw [← List.append_assoc]
      exact hp
    · show Held.mk _ _ _ _ _ = _
      rw [hs]

/-- The list of what was found, and nothing held. -/
theorem hidEnumerate_returns {devs : List UsbDevice} :
    Exec.Returns (fun s => Holds H s ∧ s.found L = devs) (hidEnumerate L locale vendorId productId)
      fun root s => Holds H s ∧ List.Forall₂ (Lists L) root
        (altsettings UsbDevice.config (Wanted vendorId productId) devs) := by
  refine .bind (hidInit_found L) fun ok => .ite ?_ ?_
  · rintro rfl s root' s' ⟨hs, rfl⟩ hok
    rw [if_pos rfl]
    obtain ⟨list, t, hlist, hok⟩ := Exec.of_bind_ok hok
    obtain ⟨res, u, hask, hlist⟩ := Exec.of_bind_ok hlist
    cases hask
    cases hdevs : (L.getDeviceList s.lib).1 with
    | none =>
      rw [hdevs] at hlist
      cases hlist
      cases hok
      exact ⟨hs, .nil⟩
    | some devs =>
      rw [hdevs] at hlist
      cases hlist
      obtain ⟨root, v, hloop, hok⟩ := Exec.of_bind_ok hok
      have hv := (Exec.Returns.foldlM (I := fun l root s =>
        Holds { H with deviceLists := H.deviceLists + 1 } s ∧
          Progress L (altsettings UsbDevice.config (Wanted vendorId productId) devs)
            (altsettings UsbDevice.config (Wanted vendorId productId) l) root) ?_ devs [])
        _ root v ⟨?_, [], .nil, rfl⟩ hloop
      · obtain ⟨hv, done, hdone, hall⟩ := hv
        cases hok
        refine ⟨?_, ?_⟩
        · show Held.mk _ _ _ _ _ = H
          rw [hv]
          rfl
        · rw [Option.getD_some, ← hall]
          simpa [altsettings] using hdone
      · rintro dev l root s root' s' ⟨hs, hp⟩ hok
        refine enumerateDevice_returns dev ?_ s root' s' hs hok
        simpa only [altsettings, List.flatMap_cons, List.flatMap_nil, List.append_nil] using hp
      · show Held.mk _ _ _ _ _ = _
        rw [hs]
  · intro hno
    refine .pure fun s hs => ⟨hs.1, ?_⟩
    rw [hs.2, if_neg hno]
    exact .nil

/-- No string descriptor is shorter than its two bytes of protocol data. -/
def WholeStrings (L : Libusb σ) : Prop :=
  ∀ lib handle idx lang buf, (L.getStringDescriptor lib handle idx lang 512).1 = some buf →
    2 ≤ buf.1.length

theorem ask_total {α : Type} (f : σ → α × σ) : Exec.Total (ask f) := fun _ => ⟨_, _, rfl⟩

theorem modifyHeld_total (f : Held → Held) : Exec.Total (modifyHeld f : UsbM σ Unit) :=
  fun _ => ⟨_, _, rfl⟩

theorem openDevice_total (dev : UsbDevice) : Exec.Total (openDevice L dev) :=
  .bind (ask_total _) fun _ => .ite (.bind (fun _ => ⟨_, _, rfl⟩) fun _ => .pure _) (.pure _)

theorem closeDevice_total (handle : DevHandle) : Exec.Total (closeDevice L handle) :=
  .bind (ask_total _) fun _ => modifyHeld_total _

theorem getConfigDescriptor_total (conf : Option ConfigDescriptor) :
    Exec.Total (getConfigDescriptor conf : UsbM σ _) := by
  cases conf with
  | none => exact .pure none
  | some conf => exact .bind (modifyHeld_total _) fun _ => .pure _

theorem stringAt_total (hwhole : WholeStrings L) (handle : DevHandle) (idx : UInt8) :
    Exec.Total (stringAt L locale handle idx) := by
  refine .ite (.bind (.bind ?_ fun _ => .ite (.pure _) ?_) fun lang => ?_) (.pure none)
  · refine .bind (ask_total _) ?_
    rintro (_ | buf)
    · exact .pure false
    · exact .pure _
  · refine .bind (ask_total _) ?_
    rintro (_ | buf)
    · exact .pure 0
    · exact .pure _
  · intro s
    rw [Exec.bind_ok (show ask _ s = .ok (L.getStringDescriptor s.lib handle idx lang 512).1 _
      from rfl)]
    cases hanswer : (L.getStringDescriptor s.lib handle idx lang 512).1 with
    | none => exact ⟨_, _, rfl⟩
    | some buf =>
      have htwo := hwhole _ _ _ _ _ hanswer
      simp only [if_neg (Nat.not_lt.mpr htwo)]
      exact Exec.Total.bind (ask_total _) (fun _ => .ite (.pure _) (.pure _)) _

theorem enumerateDevice_total (hwhole : WholeStrings L) (root : List DeviceInfo)
    (dev : UsbDevice) : Exec.Total (enumerateDevice L locale vendorId productId root dev) := by
  have hstrings : Exec.Total (deviceStrings L locale dev) := by
    refine .bind (openDevice_total dev) ?_
    rintro (_ | handle)
    · exact .pure _
    · exact .bind (stringAt_total hwhole _ _) fun _ => .bind (stringAt_total hwhole _ _) fun _ =>
        .bind (stringAt_total hwhole _ _) fun _ => .bind (closeDevice_total _) fun _ => .pure _
  refine .bind (getConfigDescriptor_total _) ?_
  rintro (_ | conf)
  · exact .pure root
  · exact .bind (.foldlM (fun root intf => .foldlM (fun root intfDesc => .ite (.bind hstrings fun _ =>
      .pure _) (.pure root)) intf root) conf.interface root) fun _ =>
      .bind (modifyHeld_total _) fun _ => .pure _

/-- `hid_enumerate` returns, if no string descriptor is too short. -/
theorem hidEnumerate_total (hwhole : WholeStrings L) :
    Exec.Total (hidEnumerate L locale vendorId productId) := by
  have hinit : Exec.Total (hidInit L) := by
    intro s
    unfold hidInit
    split
    · exact ⟨_, _, rfl⟩
    · exact ⟨_, _, rfl⟩
  have hlist : Exec.Total (getDeviceList L) := by
    refine .bind (ask_total _) ?_
    rintro (_ | devs)
    · exact .pure none
    · exact .bind (modifyHeld_total _) fun _ => .pure _
  refine .bind hinit fun ok => .ite (.bind hlist ?_) (.pure [])
  rintro (_ | devs)
  · exact .pure []
  · exact .bind (.foldlM (fun root dev => enumerateDevice_total hwhole root dev) devs []) fun _ =>
      .bind (modifyHeld_total _) fun _ => .pure _

/-- libusb on a bus where nothing is refused; the serial number is string 3, in one language. -/
def servingLibusb (devs : List UsbDevice) (serial : List Char) : Libusb Unit where
  init _ := (true, ())
  getDeviceList _ := (some devs, ())
  openDevice _ _ := (true, ())
  getStringDescriptor _ _ idx _ length :=
    let text := if idx = 3 then Utf16.toBytes serial else [9, 4]
    let bytes := UInt8.ofNat (text.length + 2) :: 3 :: text
    (if h : bytes.length ≤ length then some ⟨bytes, h⟩ else none, ())
  iconvOpen _ := (true, ())
  kernelDriverActive _ _ _ := (true, ())
  detachKernelDriver _ _ _ := (true, ())
  claimInterface _ _ _ := (true, ())
  close _ _ := ()

theorem servingLibusb_whole (devs : List UsbDevice) (serial : List Char) :
    WholeStrings (servingLibusb devs serial) := by
  intro lib handle idx lang buf h
  have htwo : ∀ text : List UInt8,
      (if h : (UInt8.ofNat (text.length + 2) :: 3 :: text).length ≤ 512 then
        some (⟨_, h⟩ : { bytes : List UInt8 // bytes.length ≤ 512 }) else none) = some buf →
      2 ≤ buf.1.length := by
    intro text h
    split at h
    · cases h
      exact Nat.le_add_left 2 _
    · cases h
  exact htwo _ h

def hidAltsetting : InterfaceDescriptor := ⟨0, 3, [⟨0x81, 3, 64⟩, ⟨0x02, 3, 64⟩]⟩

/-- A device with one interface, which has these altsettings. -/
def usbDevice (intf : List InterfaceDescriptor) : UsbDevice :=
  ⟨1, 5, ⟨0x534c, 1, 0x100, 1, 2, 3⟩, some ⟨[intf]⟩, none⟩

def idleUsb : Usb Unit := ⟨(), false, 0, ⟨0, 0, 0, 0, 0⟩⟩

end TrezorPlugin.X11Bus
