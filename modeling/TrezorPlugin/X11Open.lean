import Mathlib.Data.List.Pairwise
import TrezorPlugin.X11Usb

/-!
# Opening a device by its path (X11/hid.c)

`hid_open_path` goes through all the altsettings on the bus and opens every one
whose path is the one asked for, with one `hid_device` for all of them.

    at most one altsetting has the path  →  what is held is what is returned    (open_path_owns)
    a listed path opens the listed interface                                    (listed_opens)
-/

namespace TrezorPlugin.X11Bus

variable {σ : Type}

/-! ## hid_open_path -/

/-- The fields of `struct hid_device_` that `hid_open_path` fills in. -/
structure OpenDevice where
  deviceHandle : Option DevHandle
  interface : UInt8
  manufacturerIndex : UInt8
  productIndex : UInt8
  serialIndex : UInt8
  inputEndpoint : UInt8
  outputEndpoint : UInt8
  inputEpMaxPacketSize : UInt16
  deriving DecidableEq

/-- `new_hid_device`. -/
def newHidDevice : OpenDevice := ⟨none, 0, 0, 0, 0, 0, 0, 0⟩

/-- `LIBUSB_TRANSFER_TYPE_MASK`, `LIBUSB_TRANSFER_TYPE_INTERRUPT`. -/
def EndpointDescriptor.isInterrupt (ep : EndpointDescriptor) : Bool := ep.bmAttributes &&& 3 = 3

/-- `LIBUSB_ENDPOINT_DIR_MASK`, `LIBUSB_ENDPOINT_OUT`. -/
def EndpointDescriptor.isOutput (ep : EndpointDescriptor) : Bool := ep.bEndpointAddress &&& 0x80 = 0

/-- `LIBUSB_ENDPOINT_IN`. -/
def EndpointDescriptor.isInput (ep : EndpointDescriptor) : Bool :=
  ep.bEndpointAddress &&& 0x80 = 0x80

/-- Uses an endpoint for input, if there is none yet. -/
def OpenDevice.useInput (dev : OpenDevice) (ep : EndpointDescriptor) : OpenDevice :=
  if dev.inputEndpoint = 0 ∧ ep.isInterrupt ∧ ep.isInput then
    { dev with inputEndpoint := ep.bEndpointAddress, inputEpMaxPacketSize := ep.wMaxPacketSize }
  else dev

/-- Uses an endpoint for output, if there is none yet. -/
def OpenDevice.useOutput (dev : OpenDevice) (ep : EndpointDescriptor) : OpenDevice :=
  if dev.outputEndpoint = 0 ∧ ep.isInterrupt ∧ ep.isOutput then
    { dev with outputEndpoint := ep.bEndpointAddress }
  else dev

def OpenDevice.useEndpoint (dev : OpenDevice) (ep : EndpointDescriptor) : OpenDevice :=
  (dev.useInput ep).useOutput ep

/-- The device as it is filled in once its interface is claimed. -/
def OpenDevice.ready (dev : OpenDevice) (handle : DevHandle) (intfDesc : InterfaceDescriptor) :
    OpenDevice :=
  let desc := handle.device.descriptor
  intfDesc.endpoint.foldl OpenDevice.useEndpoint { dev with
    deviceHandle := some handle
    manufacturerIndex := desc.iManufacturer
    productIndex := desc.iProduct
    serialIndex := desc.iSerialNumber
    interface := intfDesc.bInterfaceNumber }

/-- `dev` and `good_open`. -/
structure Opening where
  dev : OpenDevice
  goodOpen : Bool

variable (L : Libusb σ)

/-- The kernel driver is off the interface, unless it cannot be detached. -/
def detachKernelDriver (handle : DevHandle) (number : UInt8) : UsbM σ Bool := do
  if ← ask fun lib => L.kernelDriverActive lib handle number then
    ask fun lib => L.detachKernelDriver lib handle number
  else return true

def claimInterface (handle : DevHandle) (number : UInt8) : UsbM σ Bool := do
  if ← ask fun lib => L.claimInterface lib handle number then
    modifyHeld fun H => { H with claims := (handle, number) ::ₘ H.claims }
    return true
  else return false

/-- `pthread_create` and `pthread_barrier_wait`. -/
def startReadThread (handle : DevHandle) : UsbM σ Unit :=
  modifyHeld fun H => { H with readThreads := handle ::ₘ H.readThreads }

/-- An altsetting with the path; `false` where the loop over the altsettings is left. -/
def openMatched (usbDev : UsbDevice) (intfDesc : InterfaceDescriptor) (o : Opening) :
    UsbM σ (Bool × Opening) := do
  match ← openDevice L usbDev with
  | none => return (false, o)
  | some handle => do
    let dev := { o.dev with deviceHandle := some handle }
    if ← detachKernelDriver L handle intfDesc.bInterfaceNumber then
      if ← claimInterface L handle intfDesc.bInterfaceNumber then
        startReadThread handle
        return (true, ⟨o.dev.ready handle intfDesc, true⟩)
      else
        closeDevice L handle
        return (false, ⟨dev, false⟩)
    else
      closeDevice L handle
      return (false, ⟨dev, false⟩)

/-- The altsetting is that of a HID, and `path` is its path. -/
def Matches (path : String) (usbDev : UsbDevice) (intfDesc : InterfaceDescriptor) : Bool :=
  intfDesc.bInterfaceClass = classHid ∧ makePath usbDev intfDesc.bInterfaceNumber = path

variable (path : String)

def openAltsettings (usbDev : UsbDevice) :
    List InterfaceDescriptor → Opening → UsbM σ Opening
  | [], o => return o
  | intfDesc :: intf, o =>
    if Matches path usbDev intfDesc then do
      let r ← openMatched L usbDev intfDesc o
      if r.1 then openAltsettings usbDev intf r.2 else return r.2
    else openAltsettings usbDev intf o

def openUsbDevice (o : Opening) (usbDev : UsbDevice) : UsbM σ Opening := do
  match ← getConfigDescriptor usbDev.active with
  | none => return o
  | some conf => do
    let o ← conf.interface.foldlM (fun o intf => openAltsettings L path usbDev intf o) o
    freeConfigDescriptor
    return o

/-- Where `libusb_get_device_list` fails, `devs` is what was on the stack. -/
def hidOpenPath : UsbM σ (Option OpenDevice) := do
  if ← hidInit L then
    match ← getDeviceList L with
    | none => throw .undefined
    | some devs => do
      let o ← devs.foldlM (openUsbDevice L path) ⟨newHidDevice, false⟩
      freeDeviceList
      return if o.goodOpen then some o.dev else none
  else return none

/-! ## Endpoints -/

def EndpointDescriptor.forInput (ep : EndpointDescriptor) : Bool := ep.isInterrupt && ep.isInput

/-- The address 0 counts as none. -/
def EndpointDescriptor.forOutput (ep : EndpointDescriptor) : Bool :=
  ep.isInterrupt && ep.isOutput && ep.bEndpointAddress != 0

/-- The first interrupt endpoint to the host: its address and packet size. -/
def firstInput (eps : List EndpointDescriptor) : UInt8 × UInt16 :=
  ((eps.find? EndpointDescriptor.forInput).map
    fun ep => (ep.bEndpointAddress, ep.wMaxPacketSize)).getD (0, 0)

/-- The first interrupt endpoint from the host. -/
def firstOutput (eps : List EndpointDescriptor) : UInt8 :=
  ((eps.find? EndpointDescriptor.forOutput).map (·.bEndpointAddress)).getD 0

theorem EndpointDescriptor.isInput_ne {ep : EndpointDescriptor} (h : ep.isInput = true) :
    ep.bEndpointAddress ≠ 0 := by
  intro h0
  have hmask := of_decide_eq_true h
  rw [h0] at hmask
  exact absurd hmask (by decide)

variable {dev : OpenDevice}

theorem useEndpoint_input (ep : EndpointDescriptor) :
    ((dev.useEndpoint ep).inputEndpoint, (dev.useEndpoint ep).inputEpMaxPacketSize) =
      if dev.inputEndpoint = 0 ∧ ep.isInterrupt ∧ ep.isInput then
        (ep.bEndpointAddress, ep.wMaxPacketSize)
      else (dev.inputEndpoint, dev.inputEpMaxPacketSize) := by
  have hout : ∀ d : OpenDevice, ((d.useOutput ep).inputEndpoint,
      (d.useOutput ep).inputEpMaxPacketSize) = (d.inputEndpoint, d.inputEpMaxPacketSize) := by
    intro d
    unfold OpenDevice.useOutput
    split <;> rfl
  rw [OpenDevice.useEndpoint, hout]
  unfold OpenDevice.useInput
  split <;> rfl

theorem useEndpoint_output (ep : EndpointDescriptor) :
    (dev.useEndpoint ep).outputEndpoint =
      if dev.outputEndpoint = 0 ∧ ep.isInterrupt ∧ ep.isOutput then ep.bEndpointAddress
      else dev.outputEndpoint := by
  have hin : (dev.useInput ep).outputEndpoint = dev.outputEndpoint := by
    unfold OpenDevice.useInput
    split <;> rfl
  unfold OpenDevice.useEndpoint OpenDevice.useOutput
  rw [hin]
  split
  · rfl
  · exact hin

/-- What endpoints have no part in. -/
def OpenDevice.rest (dev : OpenDevice) : Option DevHandle × UInt8 × UInt8 × UInt8 × UInt8 :=
  (dev.deviceHandle, dev.interface, dev.manufacturerIndex, dev.productIndex, dev.serialIndex)

theorem foldl_rest (eps : List EndpointDescriptor) (dev : OpenDevice) :
    (eps.foldl OpenDevice.useEndpoint dev).rest = dev.rest := by
  induction eps generalizing dev with
  | nil => rfl
  | cons ep eps ih =>
    have hin : (dev.useInput ep).rest = dev.rest := by
      unfold OpenDevice.useInput
      split <;> rfl
    rw [List.foldl_cons, ih, ← hin]
    unfold OpenDevice.useEndpoint OpenDevice.useOutput
    split <;> rfl

theorem foldl_input_set (eps : List EndpointDescriptor) (dev : OpenDevice)
    (h : dev.inputEndpoint ≠ 0) :
    ((eps.foldl OpenDevice.useEndpoint dev).inputEndpoint,
      (eps.foldl OpenDevice.useEndpoint dev).inputEpMaxPacketSize) =
      (dev.inputEndpoint, dev.inputEpMaxPacketSize) := by
  induction eps generalizing dev with
  | nil => rfl
  | cons ep eps ih =>
    have hsame := @useEndpoint_input dev ep
    rw [if_neg fun hc => h hc.1] at hsame
    have haddress : (dev.useEndpoint ep).inputEndpoint = dev.inputEndpoint :=
      congrArg Prod.fst hsame
    rw [List.foldl_cons, ih _ (by rw [haddress]; exact h), hsame]

theorem foldl_input (eps : List EndpointDescriptor) (dev : OpenDevice)
    (h : (dev.inputEndpoint, dev.inputEpMaxPacketSize) = (0, 0)) :
    ((eps.foldl OpenDevice.useEndpoint dev).inputEndpoint,
      (eps.foldl OpenDevice.useEndpoint dev).inputEpMaxPacketSize) = firstInput eps := by
  induction eps generalizing dev with
  | nil => exact h
  | cons ep eps ih =>
    have hin := @useEndpoint_input dev ep
    have h0 : dev.inputEndpoint = 0 := congrArg Prod.fst h
    rw [List.foldl_cons]
    cases hfirst : ep.forInput with
    | true =>
      obtain ⟨hint, hdir⟩ := Bool.and_eq_true_iff.mp hfirst
      rw [if_pos ⟨h0, hint, hdir⟩] at hin
      have haddress : (dev.useEndpoint ep).inputEndpoint = ep.bEndpointAddress :=
        congrArg Prod.fst hin
      rw [foldl_input_set eps _ (by rw [haddress]; exact ep.isInput_ne hdir), hin, firstInput, List.find?_cons_of_pos hfirst]
      rfl
    | false =>
      have hno : ¬ (dev.inputEndpoint = 0 ∧ ep.isInterrupt = true ∧ ep.isInput = true) := by
        rintro ⟨-, hint, hdir⟩
        rw [EndpointDescriptor.forInput, hint, hdir] at hfirst
        cases hfirst
      rw [if_neg hno, h] at hin
      rw [ih _ hin, firstInput, firstInput, List.find?_cons_of_neg (by rw [hfirst]; decide)]

theorem foldl_output_set (eps : List EndpointDescriptor) (dev : OpenDevice)
    (h : dev.outputEndpoint ≠ 0) :
    (eps.foldl OpenDevice.useEndpoint dev).outputEndpoint = dev.outputEndpoint := by
  induction eps generalizing dev with
  | nil => rfl
  | cons ep eps ih =>
    have hsame := @useEndpoint_output dev ep
    rw [if_neg fun hc => h hc.1] at hsame
    rw [List.foldl_cons, ih _ (by rw [hsame]; exact h), hsame]

theorem foldl_output (eps : List EndpointDescriptor) (dev : OpenDevice)
    (h : dev.outputEndpoint = 0) :
    (eps.foldl OpenDevice.useEndpoint dev).outputEndpoint = firstOutput eps := by
  induction eps generalizing dev with
  | nil => exact h
  | cons ep eps ih =>
    have hout := @useEndpoint_output dev ep
    rw [List.foldl_cons]
    by_cases hused : ep.isInterrupt = true ∧ ep.isOutput = true
    · rw [if_pos ⟨h, hused⟩] at hout
      by_cases h0 : ep.bEndpointAddress = 0
      · have hskip : ¬ ep.forOutput = true := by
          simp [EndpointDescriptor.forOutput, h0]
        rw [ih _ (hout.trans h0), firstOutput, firstOutput, List.find?_cons_of_neg hskip]
      · have htake : ep.forOutput = true := by
          simp [EndpointDescriptor.forOutput, hused, h0]
        rw [foldl_output_set eps _ (by rw [hout]; exact h0), hout, firstOutput,
          List.find?_cons_of_pos htake]
        rfl
    · have hskip : ¬ ep.forOutput = true := by
        intro hc
        simp only [EndpointDescriptor.forOutput, Bool.and_eq_true] at hc
        exact hused hc.1
      rw [if_neg fun hc => hused hc.2] at hout
      rw [ih _ (hout.trans h), firstOutput, firstOutput, List.find?_cons_of_neg hskip]

/-- `dev` is the interface on the handle, with the endpoints of its altsetting. -/
structure Describes (dev : OpenDevice) (handle : DevHandle) (intfDesc : InterfaceDescriptor) :
    Prop where
  deviceHandle : dev.deviceHandle = some handle
  interface : dev.interface = intfDesc.bInterfaceNumber
  strings : (dev.manufacturerIndex, dev.productIndex, dev.serialIndex) =
    (handle.device.descriptor.iManufacturer, handle.device.descriptor.iProduct,
      handle.device.descriptor.iSerialNumber)
  input : (dev.inputEndpoint, dev.inputEpMaxPacketSize) = firstInput intfDesc.endpoint
  output : dev.outputEndpoint = firstOutput intfDesc.endpoint

theorem ready_describes {handle : DevHandle} {intfDesc : InterfaceDescriptor}
    (hin : (dev.inputEndpoint, dev.inputEpMaxPacketSize) = (0, 0)) (hout : dev.outputEndpoint = 0) :
    Describes (dev.ready handle intfDesc) handle intfDesc := by
  have hrest : (dev.ready handle intfDesc).rest = (some handle, intfDesc.bInterfaceNumber, _, _, _) :=
    foldl_rest intfDesc.endpoint _
  simp only [OpenDevice.rest, Prod.mk.injEq] at hrest
  obtain ⟨h1, h2, h3, h4, h5⟩ := hrest
  refine ⟨h1, h2, ?_, foldl_input _ _ hin, foldl_output _ _ hout⟩
  rw [h3, h4, h5]

/-! ## What is held -/

/-- An open handle, the interface claimed on it and the read thread. -/
def Held.own (H : Held) (p : DevHandle × InterfaceDescriptor) : Held :=
  { H with
    handles := p.1 ::ₘ H.handles
    claims := (p.1, p.2.bInterfaceNumber) ::ₘ H.claims
    readThreads := p.1 ::ₘ H.readThreads }

/-- The same for several, the last of them first. -/
def Held.owning (H : Held) (owned : List (DevHandle × InterfaceDescriptor)) : Held :=
  owned.foldr (fun p H => H.own p) H

/-- libusb and the devices never refuse. -/
structure Serves : Prop where
  inits : ∀ lib, (L.init lib).1 = true
  opens : ∀ lib dev, (L.openDevice lib dev).1 = true
  detaches : ∀ lib handle number, (L.detachKernelDriver lib handle number).1 = true
  claims : ∀ lib handle number, (L.claimInterface lib handle number).1 = true

variable {L path} {H : Held}

/-- One altsetting with the path: all of it is obtained, or nothing is kept. -/
theorem openMatched_returns (usbDev : UsbDevice) (intfDesc : InterfaceDescriptor) (o : Opening) :
    Exec.Returns (Holds H) (openMatched L usbDev intfDesc o) fun r s =>
      (∃ handle, handle.device = usbDev ∧ r = (true, ⟨o.dev.ready handle intfDesc, true⟩) ∧
        Holds (H.own (handle, intfDesc)) s) ∨
      (¬ Serves L ∧ Holds H s ∧ (r = (false, o) ∨
        ∃ handle, r = (false, ⟨{ o.dev with deviceHandle := some handle }, false⟩))) := by
  intro s r s' hs h
  obtain ⟨res, t, hopen, h⟩ := Exec.of_bind_ok h
  have hres := openDevice_holds L usbDev s res t hs hopen
  cases res with
  | none =>
    cases h
    refine .inr ⟨?_, hres, .inl rfl⟩
    intro hserves
    obtain ⟨b, u, hask, hopen⟩ := Exec.of_bind_ok hopen
    cases hask
    rw [if_pos (hserves.opens _ _)] at hopen
    cases hopen
  | some handle =>
    obtain ⟨hdevice, ht⟩ := hres
    obtain ⟨detached, u, hdetach, h⟩ := Exec.of_bind_ok h
    have hu : Holds { H with handles := handle ::ₘ H.handles } u ∧
        (Serves L → detached = true) := by
      obtain ⟨active, v, hask, hdetach⟩ := Exec.of_bind_ok hdetach
      cases hask
      split at hdetach
      · cases hdetach
        exact ⟨ht, fun hserves => hserves.detaches _ _ _⟩
      · cases hdetach
        exact ⟨ht, fun _ => rfl⟩
    cases detached with
    | false =>
      obtain ⟨_, v, hclose, h⟩ := Exec.of_bind_ok h
      have hv := closeDevice_holds L handle u () v hu.1 hclose
      cases h
      exact .inr ⟨fun hserves => Bool.false_ne_true (hu.2 hserves), hv, .inr ⟨handle, rfl⟩⟩
    | true =>
      obtain ⟨claimed, v, hclaim, h⟩ := Exec.of_bind_ok h
      obtain ⟨b, w, hask, hclaim⟩ := Exec.of_bind_ok hclaim
      cases hask
      split at hclaim
      · cases hclaim
        cases h
        refine .inl ⟨handle, hdevice, rfl, ?_⟩
        show Held.mk _ _ _ _ _ = _
        rw [hu.1]
        rfl
      · next hno =>
        cases hclaim
        obtain ⟨_, x, hclose, h⟩ := Exec.of_bind_ok h
        have hx : Holds H x := closeDevice_holds L handle _ _ x (by exact hu.1) hclose
        cases h
        exact .inr ⟨fun hserves => hno (hserves.claims _ _ _), hx, .inr ⟨handle, rfl⟩⟩

/-- The altsettings with the path. -/
def candidates (path : String) (devs : List UsbDevice) : List (UsbDevice × InterfaceDescriptor) :=
  altsettings UsbDevice.active (Matches path) devs

/-- The altsetting that was opened. -/
def entry (p : DevHandle × InterfaceDescriptor) : UsbDevice × InterfaceDescriptor :=
  (p.1.device, p.2)

/-- Between two altsettings: of those with the path `tried` are behind, the latest first, and `owned`
were opened.  A device is returned for the latest of these, unless a later one failed half-way. -/
structure Tried (L : Libusb σ) (tried : List (UsbDevice × InterfaceDescriptor))
    (owned : List (DevHandle × InterfaceDescriptor)) (o : Opening) : Prop where
  opened : (owned.map entry).Sublist tried
  served : Serves L → owned.map entry = tried
  none : owned = [] → o.goodOpen = false ∧ ∃ x, o.dev = { newHidDevice with deviceHandle := x }
  one : ∀ p, owned = [p] → o.goodOpen = true → Describes o.dev p.1 p.2
  last : o.goodOpen = true → ∃ p before, owned = p :: before ∧ o.dev.deviceHandle = some p.1 ∧
    o.dev.interface = p.2.bInterfaceNumber
  lost : o.goodOpen = false → owned = [] ∨ owned.length < tried.length

variable {all rest tried : List (UsbDevice × InterfaceDescriptor)}
  {owned : List (DevHandle × InterfaceDescriptor)} {o : Opening}

theorem Tried.start : Tried L [] [] ⟨newHidDevice, false⟩ where
  opened := .slnil
  served _ := rfl
  none _ := ⟨rfl, Option.none, rfl⟩
  one _ h := by cases h
  last h := by cases h
  lost _ := .inl rfl

/-- One more was opened. -/
theorem Tried.open (h : Tried L tried owned o) (handle : DevHandle)
    (intfDesc : InterfaceDescriptor) :
    Tried L ((handle.device, intfDesc) :: tried) ((handle, intfDesc) :: owned)
      ⟨o.dev.ready handle intfDesc, true⟩ where
  opened := h.opened.cons_cons _
  served hserves := congrArg _ (h.served hserves)
  none hno := by cases hno
  one p hp _ := by
    obtain ⟨rfl, hnone⟩ := List.cons.inj hp
    obtain ⟨-, x, hx⟩ := h.none hnone
    rw [hx]
    exact ready_describes rfl rfl
  last _ := by
    have hrest : (o.dev.ready handle intfDesc).rest =
        (some handle, intfDesc.bInterfaceNumber, _, _, _) := foldl_rest intfDesc.endpoint _
    simp only [OpenDevice.rest, Prod.mk.injEq] at hrest
    exact ⟨(handle, intfDesc), owned, rfl, hrest.1, hrest.2.1⟩
  lost hno := by cases hno

/-- The altsettings left out, after one that could not be opened, or claimed. -/
theorem Tried.skip (h : Tried L tried owned o) (hno : ¬ Serves L)
    (skipped : List (UsbDevice × InterfaceDescriptor)) :
    Tried L (skipped ++ tried) owned o where
  opened := h.opened.trans (List.sublist_append_right _ _)
  served hserves := absurd hserves hno
  none := h.none
  one := h.one
  last := h.last
  lost hbad := by
    rcases h.lost hbad with hnone | hlt
    · exact .inl hnone
    · right
      rw [List.length_append]
      omega

theorem Tried.fail (h : Tried L tried owned o) (hno : ¬ Serves L) (handle : DevHandle)
    (entry : UsbDevice × InterfaceDescriptor) :
    Tried L (entry :: tried) owned ⟨{ o.dev with deviceHandle := some handle }, false⟩ where
  opened := h.opened.cons entry
  served hserves := absurd hserves hno
  none hnone := by
    obtain ⟨-, x, hx⟩ := h.none hnone
    exact ⟨rfl, some handle, by rw [hx]⟩
  one _ _ hbad := by cases hbad
  last hbad := by cases hbad
  lost _ := by
    have hle := h.opened.length_le
    rw [List.length_map] at hle
    right
    rw [List.length_cons]
    omega

/-- Of the altsettings with the path, `rest` are still to come. -/
def Passed (L : Libusb σ) (H : Held) (all rest : List (UsbDevice × InterfaceDescriptor))
    (o : Opening) (s : Usb σ) : Prop :=
  ∃ tried owned, tried.reverse ++ rest = all ∧ Tried L tried owned o ∧ Holds (H.owning owned) s

theorem openAltsettings_returns (usbDev : UsbDevice) (intf : List InterfaceDescriptor)
    (o : Opening) :
    Exec.Returns (Passed L H all ((intf.filter (Matches path usbDev)).map
        (fun intfDesc => (usbDev, intfDesc)) ++ rest) o)
      (openAltsettings L path usbDev intf o) (Passed L H all rest) := by
  induction intf generalizing o with
  | nil => exact .pure fun s hs => hs
  | cons intfDesc intf ih =>
    unfold openAltsettings
    refine .ite ?_ ?_
    · intro hmatch s o' s' hs h
      rw [List.filter_cons_of_pos hmatch] at hs
      obtain ⟨tried, owned, hall, htried, hs⟩ := hs
      rw [List.map_cons, List.cons_append] at hall
      obtain ⟨r, t, hopen, h⟩ := Exec.of_bind_ok h
      rcases openMatched_returns usbDev intfDesc o s r t hs hopen with
        ⟨handle, rfl, rfl, ht⟩ | ⟨hno, ht, hr⟩
      · refine ih _ t o' s' ⟨_, _, ?_, htried.open handle intfDesc, ht⟩ h
        rw [List.reverse_cons, List.append_assoc]
        exact hall
      · -- the loop over the altsettings is left
        have hleft : ∀ o₁, Tried L ((usbDev, intfDesc) :: tried) owned o₁ → r = (false, o₁) →
            Passed L H all rest o' s' := by
          intro o₁ htried₁ hr
          rw [hr] at h
          cases h
          refine ⟨_, owned, ?_, htried₁.skip hno ((intf.filter (Matches path usbDev)).map
            fun intfDesc => (usbDev, intfDesc)).reverse, ht⟩
          rw [List.reverse_append, List.reverse_reverse, List.reverse_cons, List.append_assoc,
            List.append_assoc]
          exact hall
        rcases hr with hr | ⟨handle, hr⟩
        · exact hleft _ (htried.skip hno [_]) hr
        · exact hleft _ (htried.fail hno handle _) hr
    · intro hmiss
      rw [List.filter_cons_of_neg hmiss]
      exact ih o

theorem owning_counts (owned : List (DevHandle × InterfaceDescriptor)) (lists configs : Nat) :
    ({ H with deviceLists := lists, configDescriptors := configs } : Held).owning owned =
      { H.owning owned with deviceLists := lists, configDescriptors := configs } := by
  induction owned with
  | nil => rfl
  | cons p owned ih =>
    show Held.own _ p = _
    rw [show List.foldr _ _ owned = _ from ih]
    rfl

/-- Lists and descriptors that are obtained or freed leave the rest as it is. -/
theorem Passed.counts (f g : Nat → Nat) (o : Opening) :
    Exec.Returns (Passed L H all rest o)
      (modifyHeld fun H => { H with
        deviceLists := f H.deviceLists, configDescriptors := g H.configDescriptors })
      fun _ => Passed L { H with
        deviceLists := f H.deviceLists, configDescriptors := g H.configDescriptors } all rest o := by
  rintro s a s' ⟨tried, owned, hall, htried, hs⟩ hok
  cases hok
  refine ⟨tried, owned, hall, htried, ?_⟩
  have hsame : H.owning owned = { H.owning owned with
      deviceLists := H.deviceLists, configDescriptors := H.configDescriptors } :=
    owning_counts owned H.deviceLists H.configDescriptors
  have hlists : (H.owning owned).deviceLists = H.deviceLists := by rw [hsame]
  have hconfigs : (H.owning owned).configDescriptors = H.configDescriptors := by rw [hsame]
  rw [owning_counts, Holds]
  show Held.mk _ _ _ _ _ = _
  rw [show s.held = _ from hs, hlists, hconfigs]

theorem openUsbDevice_returns (usbDev : UsbDevice) (o : Opening) :
    Exec.Returns (Passed L H all (altsettings UsbDevice.active (Matches path) [usbDev] ++ rest) o)
      (openUsbDevice L path o usbDev) (Passed L H all rest) := by
  unfold openUsbDevice
  simp only [altsettings, List.flatMap_cons, List.flatMap_nil, List.append_nil]
  cases usbDev.active with
  | none => exact .pure fun s hs => hs
  | some conf =>
    simp only [Option.toList_some, List.flatMap_cons, List.flatMap_nil, List.append_nil]
    intro s o' s' hs hok
    obtain ⟨_, t, hget, hok⟩ := Exec.of_bind_ok hok
    cases hget
    have ht := Passed.counts (L := L) id (· + 1) o s () _ hs rfl
    obtain ⟨o₁, u, hloop, hok⟩ := Exec.of_bind_ok hok
    have hu := Exec.Returns.foldlM (I := fun l o => Passed L
      { H with configDescriptors := H.configDescriptors + 1 } all (l.flatMap (fun intf =>
        (intf.filter (Matches path usbDev)).map (fun intfDesc => (usbDev, intfDesc))) ++ rest) o) ?_
      conf.interface o _ o₁ u (by exact ht) hloop
    · obtain ⟨_, v, hfree, hok⟩ := Exec.of_bind_ok hok
      have hv := Passed.counts (L := L) id (· - 1) o₁ u () v hu hfree
      cases hok
      exact hv
    · intro intf l o
      rw [List.flatMap_cons, List.append_assoc]
      exact openAltsettings_returns usbDev intf o

theorem hidOpenPath_returns {devs : List UsbDevice} :
    Exec.Returns (fun s => Holds H s ∧ s.bus L = some devs) (hidOpenPath L path) fun res s =>
      (¬ Serves L ∧ res = none ∧ Holds H s) ∨
      ∃ o tried owned, tried.reverse = candidates path devs ∧ Tried L tried owned o ∧
        Holds (H.owning owned) s ∧ res = if o.goodOpen then some o.dev else none := by
  intro s res s' hs hok
  obtain ⟨ok, t, hinit, hok⟩ := Exec.of_bind_ok hok
  obtain ⟨ht, hdevs⟩ := hidInit_holds L s ok t hs hinit
  split at hok
  · obtain ⟨list, u, hlist, hok⟩ := Exec.of_bind_ok hok
    obtain ⟨b, v, hask, hlist⟩ := Exec.of_bind_ok hlist
    cases hask
    rw [hdevs] at hlist
    cases hlist
    obtain ⟨o, w, hloop, hok⟩ := Exec.of_bind_ok hok
    have hu : Passed L H (candidates path devs) (candidates path devs) ⟨newHidDevice, false⟩
        ⟨(L.getDeviceList t.lib).2, t.context, t.opened, t.held⟩ :=
      ⟨[], [], rfl, Tried.start, ht⟩
    have hstart := Passed.counts (· + 1) id _ _ () _ hu rfl
    have hw := Exec.Returns.foldlM (I := fun l o => Passed L
      { H with deviceLists := H.deviceLists + 1 } (candidates path devs)
      (altsettings UsbDevice.active (Matches path) l) o) ?_ devs _ _ o w (by exact hstart) hloop
    · obtain ⟨_, x, hfree, hok⟩ := Exec.of_bind_ok hok
      obtain ⟨tried, owned, hall, htried, hx⟩ :=
        Passed.counts (· - 1) id o w () x hw hfree
      cases hok
      rw [show altsettings UsbDevice.active (Matches path) [] = [] from rfl,
        List.append_nil] at hall
      exact .inr ⟨o, tried, owned, hall, htried, hx, rfl⟩
    · intro usbDev l o
      have hsplit : altsettings UsbDevice.active (Matches path) (usbDev :: l) =
          altsettings UsbDevice.active (Matches path) [usbDev] ++
            altsettings UsbDevice.active (Matches path) l := by
        simp only [altsettings, List.flatMap_cons, List.flatMap_nil, List.append_nil]
      rw [hsplit]
      exact openUsbDevice_returns usbDev o
  · next hno =>
    cases hok
    refine .inl ⟨?_, rfl, ht⟩
    intro hserves
    apply hno
    unfold hidInit at hinit
    split at hinit
    · cases hinit
      rfl
    · cases hinit
      exact hserves.inits _

/-! ## Which altsettings have a path -/

/-- The altsetting is that of a HID. -/
def InterfaceDescriptor.isHid (intfDesc : InterfaceDescriptor) : Bool :=
  intfDesc.bInterfaceClass = classHid

/-- A bus as it should be: no two devices have one address, and the HID interfaces of a device have
different numbers and one altsetting each. -/
structure WellFormed (devs : List UsbDevice) : Prop where
  addresses : devs.Pairwise fun d d' =>
    ¬ (d.busNumber = d'.busNumber ∧ d.deviceAddress = d'.deviceAddress)
  interfaces : ∀ d ∈ devs, ∀ conf, d.active = some conf →
    (conf.interface.flatMap (·.filter InterfaceDescriptor.isHid)).Pairwise
      fun i i' => i.bInterfaceNumber ≠ i'.bInterfaceNumber

variable {devs : List UsbDevice}

theorem candidates_eq_filter :
    candidates path devs = (altsettings UsbDevice.active (fun _ i => i.isHid) devs).filter
      fun e => makePath e.1 e.2.bInterfaceNumber = path := by
  have hboth : ∀ d, Matches path d =
      fun i => decide (makePath d i.bInterfaceNumber = path) && i.isHid := by
    intro d
    funext i
    rw [Bool.eq_iff_iff, Bool.and_eq_true, and_comm]
    simp [Matches, InterfaceDescriptor.isHid]
  simp only [candidates, altsettings, List.filter_flatMap, List.filter_map, List.filter_filter,
    Function.comp_def, hboth]

/-- On such a bus no two altsettings have the same path. -/
theorem WellFormed.candidates_le (h : WellFormed devs) (path : String) :
    (candidates path devs).length ≤ 1 := by
  have hdistinct : (altsettings UsbDevice.active (fun _ i => i.isHid) devs).Pairwise fun e e' =>
      makePath e.1 e.2.bInterfaceNumber ≠ makePath e'.1 e'.2.bInterfaceNumber := by
    rw [altsettings, List.pairwise_flatMap]
    refine ⟨?_, ?_⟩
    · intro d hd
      cases hconf : d.active with
      | none => exact .nil
      | some conf =>
        simp only [Option.toList_some, List.flatMap_cons, List.flatMap_nil, List.append_nil]
        rw [← List.map_flatMap, List.pairwise_map]
        refine (h.interfaces d hd conf hconf).imp ?_
        intro i i' hne hpath
        exact hne (makePath_inj.mp hpath).2.2
    · refine h.addresses.imp ?_
      intro d d' hne e he e' he' hpath
      simp only [List.mem_flatMap, List.mem_map] at he he'
      obtain ⟨_, _, _, _, i, _, rfl⟩ := he
      obtain ⟨_, _, _, _, i', _, rfl⟩ := he'
      obtain ⟨hbus, haddress, -⟩ := makePath_inj.mp hpath
      exact hne ⟨hbus, haddress⟩
  have hpair := hdistinct.filter fun e => makePath e.1 e.2.bInterfaceNumber = path
  have hall : ∀ e ∈ candidates path devs, makePath e.1 e.2.bInterfaceNumber = path := by
    intro e he
    rw [candidates_eq_filter] at he
    exact of_decide_eq_true (List.mem_filter.mp he).2
  rw [← candidates_eq_filter] at hpair
  rcases hc : candidates path devs with _ | ⟨e, _ | ⟨e', rest⟩⟩
  · exact Nat.zero_le 1
  · exact Nat.le_refl 1
  · rw [hc] at hpair hall
    have hne := (List.pairwise_cons.mp hpair).1 e' List.mem_cons_self
    have h1 := hall e List.mem_cons_self
    have h2 := hall e' (List.mem_cons_of_mem e List.mem_cons_self)
    exact absurd (h1.trans h2.symm) hne

theorem WellFormed.candidates_listed (h : WellFormed devs) {e : UsbDevice × InterfaceDescriptor}
    {vendorId productId : UInt16}
    (he : e ∈ altsettings UsbDevice.config (Wanted vendorId productId) devs) :
    candidates (makePath e.1 e.2.bInterfaceNumber) devs = if e.1.active.isSome then [e] else [] := by
  obtain ⟨dev, intfDesc⟩ := e
  obtain ⟨hdev, conf, hconf, intf, hintf, hmem, hwanted⟩ := mem_altsettings.mp he
  have hhid : intfDesc.bInterfaceClass = classHid := (of_decide_eq_true hwanted).1
  cases hactive : dev.active with
  | none =>
    rw [Option.isSome_none, if_neg Bool.false_ne_true, List.eq_nil_iff_forall_not_mem]
    rintro ⟨d, i⟩ hd
    obtain ⟨hd, conf', hconf', _, _, _, hmatch⟩ := mem_altsettings.mp hd
    obtain ⟨hbus, haddress, -⟩ := makePath_inj.mp (of_decide_eq_true hmatch).2
    have hsymm : Std.Symm fun d d' : UsbDevice =>
        ¬ (d.busNumber = d'.busNumber ∧ d.deviceAddress = d'.deviceAddress) :=
      ⟨fun _ _ hne heq => hne ⟨heq.1.symm, heq.2.symm⟩⟩
    have hsame : d = dev := by
      by_contra hne
      exact h.addresses.forall hd hdev hne ⟨hbus, haddress⟩
    rw [hsame, hactive] at hconf'
    cases hconf'
  | some conf' =>
    rw [Option.isSome_some, if_pos rfl]
    have hsame : conf' = conf := by
      rw [UsbDevice.config, hactive] at hconf
      exact Option.some.inj hconf
    have hin : (dev, intfDesc) ∈ candidates (makePath dev intfDesc.bInterfaceNumber) devs :=
      mem_altsettings.mpr ⟨hdev, conf', hactive, intf, hsame ▸ hintf, hmem,
        decide_eq_true ⟨hhid, rfl⟩⟩
    have hle := h.candidates_le (makePath dev intfDesc.bInterfaceNumber)
    obtain ⟨e, he⟩ := List.length_eq_one_iff.mp
      (Nat.le_antisymm hle (List.length_pos_of_mem hin))
    rw [he] at hin ⊢
    rw [List.mem_singleton.mp hin]

/-! ## Opening -/

theorem openMatched_total (usbDev : UsbDevice) (intfDesc : InterfaceDescriptor) (o : Opening) :
    Exec.Total (openMatched L usbDev intfDesc o) := by
  have hclaim : ∀ handle number, Exec.Total (claimInterface L handle number) := fun _ _ =>
    .bind (ask_total _) fun _ => .ite (.bind (modifyHeld_total _) fun _ => .pure _) (.pure _)
  refine .bind (openDevice_total usbDev) ?_
  rintro (_ | handle)
  · exact .pure _
  · refine .bind (.bind (ask_total _) fun _ => .ite (ask_total _) (.pure _)) fun _ => .ite ?_ ?_
    · refine .bind (hclaim _ _) fun _ => .ite ?_ ?_
      · exact .bind (modifyHeld_total _) fun _ => .pure _
      · exact .bind (closeDevice_total _) fun _ => .pure _
    · exact .bind (closeDevice_total _) fun _ => .pure _

theorem openAltsettings_total (usbDev : UsbDevice) (intf : List InterfaceDescriptor)
    (o : Opening) : Exec.Total (openAltsettings L path usbDev intf o) := by
  induction intf generalizing o with
  | nil => exact .pure o
  | cons intfDesc intf ih =>
    exact .ite (.bind (openMatched_total usbDev intfDesc o) fun r => .ite (ih r.2) (.pure _)) (ih o)

/-- `hid_open_path` returns, if there is a list of devices. -/
theorem hidOpenPath_total {s : Usb σ} (hbus : s.bus L = some devs) :
    ∃ res s', hidOpenPath L path s = .ok res s' := by
  have hloop : Exec.Total (devs.foldlM (openUsbDevice L path) ⟨newHidDevice, false⟩) := by
    refine .foldlM ?_ devs _
    intro o usbDev
    refine .bind (getConfigDescriptor_total _) ?_
    rintro (_ | conf)
    · exact .pure o
    · exact .bind (.foldlM (fun o intf => openAltsettings_total usbDev intf o) _ o) fun o =>
        .bind (modifyHeld_total _) fun _ => .pure o
  have hinit : ∃ ok t, hidInit L s = .ok ok t := by
    unfold hidInit
    split
    · exact ⟨_, _, rfl⟩
    · exact ⟨_, _, rfl⟩
  obtain ⟨ok, t, hinit⟩ := hinit
  obtain ⟨-, hdevs⟩ := hidInit_holds (H := s.held) L s ok t ⟨rfl, hbus⟩ hinit
  unfold hidOpenPath
  rw [Exec.bind_ok hinit]
  cases ok with
  | false => exact ⟨_, _, rfl⟩
  | true =>
    have hlist : getDeviceList L t = .ok (some devs) ⟨(L.getDeviceList t.lib).2, t.context, t.opened,
        { t.held with deviceLists := t.held.deviceLists + 1 }⟩ := by
      unfold getDeviceList
      rw [Exec.bind_ok (show ask L.getDeviceList t = .ok (L.getDeviceList t.lib).1 _ from rfl), hdevs]
      rfl
    rw [if_pos rfl, Exec.bind_ok hlist]
    exact Exec.Total.bind hloop (fun o => .bind (fun s => ⟨_, _, rfl⟩) fun _ => .pure _) _

/-- What the call has obtained is what it returns. -/
def Owns (H : Held) : Option OpenDevice → Held → Prop
  | none, H' => H' = H
  | some dev, H' => ∃ p, dev.deviceHandle = some p.1 ∧ dev.interface = p.2.bInterfaceNumber ∧
      H' = H.own p

theorem card_owning (owned : List (DevHandle × InterfaceDescriptor)) :
    (H.owning owned).handles.card = owned.length + H.handles.card := by
  induction owned with
  | nil => exact (Nat.zero_add _).symm
  | cons p owned ih =>
    show (p.1 ::ₘ (H.owning owned).handles).card = _
    rw [Multiset.card_cons, ih, List.length_cons]
    omega

/-- **Nothing is leaked unless two altsettings share the path.**  Whatever libusb refuses, and
wherever: with at most one such altsetting, `hid_open_path` returns a device with the one handle,
claim and read thread it has obtained, or none and has kept nothing.  If nothing is refused, that is
the only case where it does so. -/
theorem open_path_owns {s : Usb σ} (hbus : s.bus L = some devs) :
    ∃ res s', hidOpenPath L path s = .ok res s' ∧
      ((candidates path devs).length ≤ 1 → Owns s.held res s'.held) ∧
      (Serves L → (res.isSome ↔ candidates path devs ≠ []) ∧
        (Owns s.held res s'.held ↔ (candidates path devs).length ≤ 1)) := by
  obtain ⟨res, s', hok⟩ := @hidOpenPath_total _ _ path _ _ hbus
  refine ⟨res, s', hok, ?_⟩
  rcases hidOpenPath_returns (H := s.held) s res s' ⟨rfl, hbus⟩ hok with
    ⟨hno, rfl, hs⟩ | ⟨o, tried, owned, hall, htried, hs, rfl⟩
  · exact ⟨fun _ => hs, fun hserves => absurd hserves hno⟩
  · have hlen : (candidates path devs).length = tried.length := by
      rw [← hall, List.length_reverse]
    have hle := htried.opened.length_le
    rw [List.length_map] at hle
    have howns : (candidates path devs).length ≤ 1 →
        Owns s.held (if o.goodOpen then some o.dev else none) s'.held := by
      intro hone
      cases hgood : o.goodOpen with
      | true =>
        obtain ⟨p, before, rfl, hhandle, hinterface⟩ := htried.last hgood
        rw [List.length_cons] at hle
        have hnone : before = [] := List.length_eq_zero_iff.mp (by omega)
        rw [hnone] at hs
        exact ⟨p, hhandle, hinterface, hs⟩
      | false =>
        have hnone : owned = [] := by
          rcases htried.lost hgood with hnone | hlt
          · exact hnone
          · exact List.length_eq_zero_iff.mp (by omega)
        rw [hnone] at hs
        exact hs
    refine ⟨howns, ?_⟩
    intro hserves
    have hsame : owned.length = tried.length := by
      rw [← htried.served hserves, List.length_map]
    have hgood : o.goodOpen = true ↔ candidates path devs ≠ [] := by
      rw [← List.length_pos_iff, hlen, ← hsame]
      constructor
      · intro hgood
        obtain ⟨p, before, rfl, -⟩ := htried.last hgood
        exact Nat.succ_pos _
      · intro hpos
        by_contra hbad
        rcases htried.lost (Bool.eq_false_iff.mpr hbad) with rfl | hlt
        · exact absurd hpos (Nat.lt_irrefl 0)
        · omega
    refine ⟨?_, ?_, howns⟩
    · rw [← hgood]
      cases o.goodOpen <;> simp
    · intro h
      have hcard := card_owning (H := s.held) owned
      rw [← show s'.held = _ from hs] at hcard
      cases hcase : o.goodOpen with
      | true =>
        rw [hcase, if_pos rfl] at h
        obtain ⟨p, -, -, hheld⟩ := h
        rw [hheld, show (s.held.own p).handles = p.1 ::ₘ s.held.handles from rfl,
          Multiset.card_cons] at hcard
        omega
      | false =>
        have hnone : ¬ candidates path devs ≠ [] := by
          rw [← hgood, hcase]
          exact Bool.false_ne_true
        rw [not_not.mp hnone]
        exact Nat.zero_le 1

theorem servingLibusb_serves (devs : List UsbDevice) (serial : List Char) :
    Serves (servingLibusb devs serial) :=
  ⟨fun _ => rfl, fun _ _ => rfl, fun _ _ _ => rfl, fun _ _ _ => rfl⟩

theorem usbDevice_wellFormed : WellFormed [usbDevice [hidAltsetting]] := by
  refine ⟨List.pairwise_singleton _ _, ?_⟩
  intro d hd conf hconf
  rw [List.mem_singleton] at hd
  subst hd
  cases hconf
  exact List.pairwise_singleton _ _

/-- Two altsettings with one number: a handle is lost. -/
theorem open_path_owns_twice :
    ∃ res s', hidOpenPath (servingLibusb [usbDevice [hidAltsetting, hidAltsetting]] [])
        "0001:0005:00" idleUsb = .ok res s' ∧
      res.isSome ∧ ¬ Owns idleUsb.held res s'.held := by
  obtain ⟨res, s', hok, -, hserves⟩ := @open_path_owns _ _ "0001:0005:00" _ _
    (show idleUsb.bus (servingLibusb [usbDevice [hidAltsetting, hidAltsetting]] []) = some _ from rfl)
  obtain ⟨hsome, howns⟩ := hserves (servingLibusb_serves _ _)
  have htwo : (candidates "0001:0005:00" [usbDevice [hidAltsetting, hidAltsetting]]).length = 2 := by
    decide +kernel
  refine ⟨res, s', hok, hsome.mpr ?_, ?_⟩
  · intro hnone
    rw [hnone] at htwo
    cases htwo
  · rw [howns, htwo]
    decide

variable {locale vendorId productId : UInt16}

/-- The path of a listed altsetting opens that one or none. -/
theorem WellFormed.opens (hdevs : WellFormed devs) {e : UsbDevice × InterfaceDescriptor}
    (he : e ∈ altsettings UsbDevice.config (Wanted vendorId productId) devs) {s : Usb σ}
    (hbus : s.bus L = some devs) :
    ∃ res s', hidOpenPath L (makePath e.1 e.2.bInterfaceNumber) s = .ok res s' ∧
      (res = none → s'.held = s.held) ∧
      (∀ dev, res = some dev → ∃ handle, handle.device = e.1 ∧ Describes dev handle e.2 ∧
        s'.held = s.held.own (handle, e.2)) ∧
      (Serves L → (res.isSome ↔ e.1.active.isSome)) := by
  have hcand := hdevs.candidates_listed he
  obtain ⟨res, s', hok⟩ := @hidOpenPath_total _ _ (makePath e.1 e.2.bInterfaceNumber) _ _ hbus
  refine ⟨res, s', hok, ?_⟩
  rcases hidOpenPath_returns (H := s.held) s res s' ⟨rfl, hbus⟩ hok with
    ⟨hno, rfl, hs⟩ | ⟨o, tried, owned, hall, htried, hs, rfl⟩
  · exact ⟨fun _ => hs, nofun, fun hserves => absurd hserves hno⟩
  have htried' : tried = if e.1.active.isSome then [e] else [] := by
    rw [← List.reverse_reverse tried, hall, hcand]
    split <;> rfl
  have hle := htried.opened.length_le
  rw [List.length_map] at hle
  have hone : tried.length ≤ 1 := by
    rw [htried']
    split <;> simp
  cases hgood : o.goodOpen with
  | true =>
    obtain ⟨p, before, rfl, -⟩ := htried.last hgood
    rw [List.length_cons] at hle
    have hnone : before = [] := List.length_eq_zero_iff.mp (by omega)
    subst hnone
    have hentry : entry p ∈ tried := htried.opened.subset List.mem_cons_self
    have hactive : e.1.active.isSome = true := by
      by_contra hno
      rw [htried', if_neg hno] at hentry
      cases hentry
    rw [htried', if_pos hactive, List.mem_singleton] at hentry
    subst hentry
    refine ⟨?_, ?_, fun _ => by simp [hactive]⟩
    · rintro ⟨⟩
    · rintro dev ⟨⟩
      exact ⟨p.1, rfl, htried.one p rfl hgood, hs⟩
  | false =>
    have hnone : owned = [] := by
      rcases htried.lost hgood with hnone | hlt
      · exact hnone
      · exact List.length_eq_zero_iff.mp (by omega)
    subst hnone
    refine ⟨fun _ => hs, ?_, ?_⟩
    · rintro dev ⟨⟩
    · intro hserves
      have hempty := htried.served hserves
      rw [htried'] at hempty
      cases hactive : e.1.active.isSome with
      | true =>
        rw [hactive] at hempty
        cases hempty
      | false => simp

theorem of_mem_list {s₀ s₁ : Usb σ} {root : List DeviceInfo} (hbus₀ : s₀.bus L = some devs)
    (hlist : hidEnumerate L locale vendorId productId s₀ = .ok root s₁) {info : DeviceInfo}
    (hinfo : info ∈ root) :
    ∃ e ∈ altsettings UsbDevice.config (Wanted vendorId productId) devs, Lists L info e := by
  obtain ⟨-, hroot⟩ := hidEnumerate_returns (H := s₀.held) s₀ root s₁ ⟨rfl, rfl⟩ hlist
  obtain ⟨i, hi, rfl⟩ := List.getElem_of_mem hinfo
  have hlen := hroot.length_eq
  unfold Usb.found at hlen hroot
  rw [hbus₀, Option.getD_some] at hlen hroot
  split at hroot
  · next hinit =>
    rw [if_pos hinit] at hlen
    exact ⟨_, List.getElem_mem (by omega), hroot.get hi (by omega)⟩
  · cases hroot
    cases hi

/-- **A listed path opens the listed interface.**  On a bus that stays as it is, `hid_open_path` with
a path of `hid_enumerate` opens that interface of that device, with the endpoints of its altsetting,
or nothing; and with nothing refused it opens it if the device has an active configuration. -/
theorem listed_opens (hdevs : WellFormed devs) {s₀ s₁ s : Usb σ} {root : List DeviceInfo}
    (hbus₀ : s₀.bus L = some devs)
    (hlist : hidEnumerate L locale vendorId productId s₀ = .ok root s₁)
    (hbus : s.bus L = some devs) {info : DeviceInfo} (hinfo : info ∈ root) :
    ∃ e ∈ altsettings UsbDevice.config (Wanted vendorId productId) devs, Lists L info e ∧
      ∃ res s', hidOpenPath L info.path s = .ok res s' ∧
        (res = none → s'.held = s.held) ∧
        (∀ dev, res = some dev → ∃ handle, handle.device = e.1 ∧ Describes dev handle e.2 ∧
          s'.held = s.held.own (handle, e.2)) ∧
        (Serves L → (res.isSome ↔ e.1.active.isSome)) := by
  obtain ⟨e, he, hlists⟩ := of_mem_list hbus₀ hlist hinfo
  obtain ⟨res, s', hok, hopen⟩ := hdevs.opens he hbus
  rw [← hlists.path] at hok
  exact ⟨e, he, hlists, res, s', hok, hopen⟩

def listedPaths : EStateM.Result Stop (Usb Unit) (List DeviceInfo) → Option (List String)
  | .ok root _ => some (root.map (·.path))
  | .error _ _ => none

theorem listed_opens_serving :
    ∃ res s', hidOpenPath (servingLibusb [usbDevice [hidAltsetting]] ['7'])
        "0001:0005:00" idleUsb = .ok res s' ∧ res.isSome := by
  have hview : listedPaths (hidEnumerate (servingLibusb [usbDevice [hidAltsetting]] ['7']) 0x0409 0 0
      idleUsb) = some ["0001:0005:00"] := by decide +kernel
  cases hlist : hidEnumerate (servingLibusb [usbDevice [hidAltsetting]] ['7']) 0x0409 0 0
      idleUsb with
  | error e s₁ =>
    rw [hlist] at hview
    cases hview
  | ok root s₁ =>
    rw [hlist] at hview
    have hpaths : root.map (·.path) = ["0001:0005:00"] := Option.some.inj hview
    have hmem : "0001:0005:00" ∈ root.map (·.path) := by
      rw [hpaths]
      exact List.mem_cons_self
    obtain ⟨info, hinfo, hpath⟩ := List.mem_map.mp hmem
    obtain ⟨e, he, -, res, s', hok, -, -, hsome⟩ :=
      listed_opens usbDevice_wellFormed rfl hlist (show idleUsb.bus _ = _ from rfl) hinfo
    rw [hpath] at hok
    have hactive : e.1.active.isSome = true := by
      obtain ⟨hdev, -⟩ := mem_altsettings.mp he
      rw [List.mem_singleton.mp hdev]
      rfl
    exact ⟨res, s', hok, (hsome (servingLibusb_serves _ _)).mpr hactive⟩

end TrezorPlugin.X11Bus
