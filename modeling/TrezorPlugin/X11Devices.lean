import TrezorPlugin.Enumerate
import TrezorPlugin.Executor
import TrezorPlugin.StreamParser
import TrezorPlugin.X11Open

/-!
# The plugin's devices on the bus (plugin.cpp, devices.cpp, X11/hid.c)

`overBus` puts `hid_enumerate` and `hid_open_path` of X11/hid.c in the place of
assumed ones, over a libusb for which neither is ever undefined (`Bus`).  A device that
the plugin has enumerated, opened later by its path, is the same device on the bus, on
its interface 0 and with its endpoints.                  (enumerated_opens)
-/

namespace TrezorPlugin.X11Bus

variable {τ δ σ : Type}

/-- libusb, and the devices that `hid_open_path` returned, by their handles. -/
structure Host (σ : Type) where
  usb : Usb σ
  devices : List (Handle × OpenDevice)

variable {L : Libusb σ} {devs : List UsbDevice}

/-- libusb lists these devices whenever it is asked, and none sends a string descriptor that is too
short to be one. -/
structure Bus (L : Libusb σ) (devs : List UsbDevice) : Prop where
  lists : ∀ lib, (L.getDeviceList lib).1 = some devs
  whole : WholeStrings L

theorem Bus.openPath_total (hbus : Bus L devs) (path : String) : Exec.Total (hidOpenPath L path) :=
  fun s => hidOpenPath_total (hbus.lists _ : s.bus L = some devs)

theorem Bus.enumerate_total (hbus : Bus L devs) (locale : UInt16) :
    Exec.Total (hidEnumerate L locale 0 0) := hidEnumerate_total hbus.whole

/-- `hid_open_path`, with its device kept under the handle of libusb. -/
def Host.openPath (hbus : Bus L devs) (host : Host σ) (path : String) : Option Handle × Host σ :=
  let (res, usb) := (hbus.openPath_total path).run host.usb
  match res with
  | none => (none, { host with usb := usb })
  | some dev =>
    match dev.deviceHandle with
    | none => (none, { host with usb := usb })
    | some handle => (some handle.id, ⟨usb, (handle.id, dev) :: host.devices⟩)

/-- `hid_enumerate(0x0, 0x0)`. -/
def Host.enumerate (hbus : Bus L devs) (locale : UInt16) (host : Host σ) :
    List DeviceInfo × Host σ :=
  let (root, usb) := (hbus.enumerate_total locale).run host.usb
  (root, { host with usb := usb })

/-- hidapi with the enumeration and the opening of X11/hid.c.  Whatever else is outside is as in
`B`. -/
def overBus (B : Env τ δ) (hbus : Bus L devs) (locale : UInt16) : Env τ (δ × Host σ) where
  hidEnumerate d :=
    let (root, host) := d.2.enumerate hbus locale
    (root.map (·.toHidDeviceInfo), d.1, host)
  hidOpenPath d path :=
    let (res, host) := d.2.openPath hbus path
    (res, d.1, host)
  hidSendFeatureReport d h data := (B.hidSendFeatureReport d.1 h data, d.2)
  hidClose d h := (B.hidClose d.1 h, d.2)
  hidWrite d h chunk := ((B.hidWrite d.1 h chunk).1, (B.hidWrite d.1 h chunk).2, d.2)
  hidReadTimeout d h t := ((B.hidReadTimeout d.1 h t).1, (B.hidReadTimeout d.1 h t).2, d.2)
  hidError d h := B.hidError d.1 h
  time d := B.time d.1
  interruptionRequested d := B.interruptionRequested d.1
  utf8Encode := B.utf8Encode

variable {B : Env τ δ} {locale : UInt16}

/-- What was selected is a known device's entry that is not skipped. -/
theorem of_mem_selected {config : TrezorPlugin.Configuration}
    {enc : WString → Except Exception String} {devices : List HidDeviceInfo}
    {desc : TrezorPlugin.DeviceDescriptor} (h : desc ∈ selected config enc devices) :
    ∃ current ∈ devices, current.skipped = false ∧ describe enc current = .ok desc ∧
      config.knownDevices.any (·.matches desc) = true := by
  obtain ⟨current, hcurrent, hsel⟩ := List.mem_filterMap.mp h
  refine ⟨current, hcurrent, ?_⟩
  unfold select at hsel
  split at hsel
  · cases hsel
  · next hskip =>
    split at hsel
    · next d hdesc =>
      split at hsel
      · next hknown =>
        cases hsel
        exact ⟨Bool.eq_false_iff.mpr hskip, hdesc, hknown⟩
      · cases hsel
    · cases hsel

/-- The descriptor is that of the interface 0 of this device. -/
structure Shows (B : Env τ δ) (L : Libusb σ) (desc : TrezorPlugin.DeviceDescriptor)
    (dev : UsbDevice) : Prop where
  vendorId : desc.vendorId = some dev.descriptor.idVendor.toUInt32
  productId : desc.productId = some dev.descriptor.idProduct.toUInt32
  path : desc.path = some (makePath dev 0)
  serialNumber : ∀ text, Readable L dev dev.descriptor.iSerialNumber text →
    ∃ serial, B.utf8Encode ((text.map Char.toNat).takeWhile (· ≠ 0)) = .ok serial ∧
      desc.serialNumber = some serial

theorem shows_of_describe {info : DeviceInfo} {e : UsbDevice × InterfaceDescriptor}
    {desc : TrezorPlugin.DeviceDescriptor} (hlists : Lists L info e)
    (hskip : info.toHidDeviceInfo.skipped = false)
    (hdesc : describe B.utf8Encode info.toHidDeviceInfo = .ok desc) :
    e.2.bInterfaceNumber = 0 ∧ Shows B L desc e.1 := by
  have hzero : e.2.bInterfaceNumber = 0 := by
    simp only [HidDeviceInfo.skipped, Bool.or_eq_false_iff, decide_eq_false_iff_not,
      hlists.interfaceNumber] at hskip
    apply UInt8.toNat_inj.mp
    have := hskip.1
    show e.2.bInterfaceNumber.toNat = 0
    omega
  refine ⟨hzero, ?_⟩
  unfold describe at hdesc
  obtain ⟨serial, hserial, hdesc⟩ := Exec.except_bind_eq_ok.mp hdesc
  cases hdesc
  refine ⟨?_, ?_, ?_, ?_⟩
  · rw [hlists.vendorId]
  · rw [hlists.productId]
  · rw [hlists.path, hzero]
  · intro text htext
    have htold := hlists.serialNumber.2 text htext
    rw [htold] at hserial
    obtain ⟨s, hs, hsome⟩ := Exec.except_bind_eq_ok.mp hserial
    cases hsome
    exact ⟨s, hs, rfl⟩

/-- Opening the path of a listed altsetting: the handle is on its device. -/
theorem openPath_listed (hdevs : WellFormed devs) (hbus : Bus L devs)
    {e : UsbDevice × InterfaceDescriptor}
    (he : e ∈ altsettings UsbDevice.config (Wanted 0 0) devs) (host : Host σ) :
    let r := host.openPath hbus (makePath e.1 e.2.bInterfaceNumber)
    (∀ h, r.1 = some h → ∃ opened handle, (h, opened) ∈ r.2.devices ∧ handle.id = h ∧
      handle.device = e.1 ∧ Describes opened handle e.2) ∧
    (Serves L → e.1.active.isSome → ∃ h, r.1 = some h) := by
  obtain ⟨res, usb, hok, -, hdescribes, hserves⟩ :=
    hdevs.opens he (hbus.lists _ : host.usb.bus L = _)
  have hrun := (hbus.openPath_total (makePath e.1 e.2.bInterfaceNumber)).run_spec host.usb
  obtain ⟨rfl, rfl⟩ := EStateM.Result.ok.inj (hok.symm.trans hrun)
  unfold Host.openPath
  dsimp only
  cases hres : ((hbus.openPath_total (makePath e.1 e.2.bInterfaceNumber)).run host.usb).1 with
  | none =>
    refine ⟨?_, ?_⟩
    · rintro h ⟨⟩
    · intro hall hactive
      have hsome := (hserves hall).mpr hactive
      rw [hres] at hsome
      exact absurd hsome Bool.false_ne_true
  | some dev =>
    obtain ⟨handle, hdevice, hd, -⟩ := hdescribes dev hres
    simp only [hd.deviceHandle]
    refine ⟨?_, fun _ _ => ⟨_, rfl⟩⟩
    rintro h ⟨⟩
    exact ⟨dev, handle, List.mem_cons_self, rfl, hdevice, hd⟩

theorem of_mem_enumerate (hbus : Bus L devs) {host : Host σ} {info : DeviceInfo}
    (hinfo : info ∈ (host.enumerate hbus locale).1) :
    ∃ e ∈ altsettings UsbDevice.config (Wanted 0 0) devs, Lists L info e :=
  of_mem_list (hbus.lists _ : host.usb.bus L = _)
    ((hbus.enumerate_total locale).run_spec host.usb) hinfo

/-- A device that is enumerated comes from an entry of the list, and is a known device. -/
theorem of_mem_enumerated (hbus : Bus L devs) {config : TrezorPlugin.Configuration}
    {faults : Nat → Option Exception} {w w' : World (δ × Host σ)}
    {result : List TrezorPlugin.DeviceDescriptor}
    (h : BitcoinTrezorPlugin.enumerate (overBus B hbus locale) config faults w = (.ok result, w'))
    {desc : TrezorPlugin.DeviceDescriptor} (hdesc : desc ∈ result) :
    ∃ info ∈ (w.dev.2.enumerate hbus locale).1, info.toHidDeviceInfo.skipped = false ∧
      describe B.utf8Encode info.toHidDeviceInfo = .ok desc ∧
      config.knownDevices.any (·.matches desc) = true := by
  unfold BitcoinTrezorPlugin.enumerate at h
  simp only [overBus] at h
  split at h
  · cases h
  · next r hloop =>
    cases h
    obtain ⟨-, -, rfl⟩ := enumerateLoop_eq_ok.mp hloop
    rw [List.nil_append] at hdesc
    obtain ⟨current, hcurrent, hcase⟩ := of_mem_selected hdesc
    obtain ⟨info, hinfo, rfl⟩ := List.mem_map.mp hcurrent
    exact ⟨info, hinfo, hcase⟩

theorem servingLibusb_bus (devs : List UsbDevice) (serial : List Char) :
    Bus (servingLibusb devs serial) devs := ⟨fun _ => rfl, servingLibusb_whole devs serial⟩

/-- ASCII serial numbers, on a bus with one device. -/
def servingEnv : Env Poll (Int × Host Unit) :=
  overBus (scriptEnv none fun text => .ok (String.ofList (text.map Char.ofNat)))
    (servingLibusb_bus [usbDevice [hidAltsetting]] ['7']) 0x0409

def servingConfiguration : TrezorPlugin.Configuration :=
  { TrezorPlugin.Configuration.empty with knownDevices := [⟨some 0x534c, some 1, some "7", none⟩] }

end TrezorPlugin.X11Bus
