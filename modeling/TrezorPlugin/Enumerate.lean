import TrezorPlugin.Messages

/-!
# Enumerating devices (config.proto, plugin.cpp)

`BitcoinTrezorPlugin::enumerate` walks the list of `hid_enumerate` under
`hidapi_mutex` and keeps the entries that match a known device of the
configuration.

    enumerateLoop = ok result  ↔  Enumerable, and result = selected      (enumerateLoop_eq_ok)
-/

namespace TrezorPlugin

/-! ## The configuration (config.proto) -/

structure DeviceDescriptor where
  vendorId : Option UInt32
  productId : Option UInt32
  serialNumber : Option String
  path : Option String
  deriving DecidableEq

/-- The accessor of an unset string field. -/
def DeviceDescriptor.serial (desc : DeviceDescriptor) : String := desc.serialNumber.getD ""

structure Configuration where
  whitelistUrls : List String
  blacklistUrls : List String
  wireProtocol : FileDescriptorSet
  knownDevices : List DeviceDescriptor
  validUntil : Option UInt32
  deriving DecidableEq

/-- A `Configuration` as its constructor leaves it. -/
def Configuration.empty : Configuration := ⟨[], [], [], [], none⟩

/-! ## enumerate -/

/-- The entry is a foreign interface, or a "phantom" device. -/
def HidDeviceInfo.skipped (current : HidDeviceInfo) : Bool :=
  current.interfaceNumber > 0 || current.productString.isNone

/-- An entry as a device descriptor. -/
def describe (utf8Encode : WString → Except Exception String) (current : HidDeviceInfo) :
    Except Exception DeviceDescriptor := do
  let serialNumber ← current.serialNumber.mapM utf8Encode
  return {
    vendorId := some current.vendorId.toUInt32
    productId := some current.productId.toUInt32
    serialNumber := serialNumber
    path := some current.path }

/-- `dd` is a known device, and `desc` the one at hand. -/
def DeviceDescriptor.matches (dd desc : DeviceDescriptor) : Bool :=
  let matchesVendor := dd.vendorId.isNone || dd.vendorId.getD 0 = desc.vendorId.getD 0
  let matchesProduct := dd.productId.isNone || dd.productId.getD 0 = desc.productId.getD 0
  let matchesSerialNumber := dd.serialNumber.isNone || dd.serial = desc.serial
  matchesSerialNumber && matchesVendor && matchesProduct

/-- The loop over the list, with the devices found so far.  `faults i` is the failed allocation that
the `i`-th entry of the list meets, if it meets one. -/
def enumerateLoop (config : Configuration) (utf8Encode : WString → Except Exception String)
    (faults : Nat → Option Exception) :
    List HidDeviceInfo → List DeviceDescriptor → Except Exception (List DeviceDescriptor)
  | [], result => .ok result
  | current :: devices, result =>
    if current.skipped then
      enumerateLoop config utf8Encode (fun i => faults (i + 1)) devices result
    else
      match faults 0, describe utf8Encode current with
      | some e, _ => .error e
      | none, .error e => .error e
      | none, .ok desc =>
        -- the loop over the known devices stops at the first match
        if config.knownDevices.any (·.matches desc) then
          if result.any (·.serial = desc.serial) then
            .error (.runtimeError "Duplicit devices detected")
          else
            enumerateLoop config utf8Encode (fun i => faults (i + 1)) devices (result ++ [desc])
        else
          enumerateLoop config utf8Encode (fun i => faults (i + 1)) devices result

variable {τ δ : Type} (E : Env τ δ)

/-- `BitcoinTrezorPlugin::enumerate`.  An exception out of the loop leaves the mutex locked and the
list where it is. -/
def BitcoinTrezorPlugin.enumerate (config : Configuration) (faults : Nat → Option Exception)
    (w : World δ) :
    Except Exception (List DeviceDescriptor) × World δ :=
  let (devices, dev) := E.hidEnumerate w.dev
  let w : World δ := ⟨dev, w.trace ++ [.lock, .act .enumerate]⟩
  match enumerateLoop config E.utf8Encode faults devices [] with
  | .error e => (.error e, w)
  | .ok result => (.ok result, ⟨w.dev, w.trace ++ [.act .freeEnumeration, .unlock]⟩)

/-! ## When the loop returns -/

variable (config : Configuration) (enc : WString → Except Exception String)

/-- The descriptor of an entry that is not skipped and matches a known device. -/
def select (current : HidDeviceInfo) : Option DeviceDescriptor :=
  if current.skipped then none
  else
    match describe enc current with
    | .ok desc => if config.knownDevices.any (·.matches desc) then some desc else none
    | .error _ => none

def selected (devices : List HidDeviceInfo) : List DeviceDescriptor :=
  devices.filterMap (select config enc)

/-- Nothing in the loop throws: the entries that are not skipped can be described, with memory
enough, and no two selected ones have the same serial number. -/
structure Enumerable (faults : Nat → Option Exception) (devices : List HidDeviceInfo) : Prop where
  memory : ∀ i current, devices[i]? = some current → current.skipped = false → faults i = none
  converts : ∀ current ∈ devices, current.skipped = false → ∃ desc, describe enc current = .ok desc
  distinct : ((selected config enc devices).map (·.serial)).Nodup

variable {config enc}

theorem selected_none {current : HidDeviceInfo} {devices : List HidDeviceInfo}
    (h : select config enc current = none) :
    selected config enc (current :: devices) = selected config enc devices :=
  List.filterMap_cons_none h

theorem selected_some {current : HidDeviceInfo} {devices : List HidDeviceInfo}
    {desc : DeviceDescriptor} (h : select config enc current = some desc) :
    selected config enc (current :: devices) = desc :: selected config enc devices :=
  List.filterMap_cons_some h

/-- The first entry of the list, and the rest. -/
theorem enumerable_cons {faults : Nat → Option Exception} {current : HidDeviceInfo}
    {devices : List HidDeviceInfo} :
    Enumerable config enc faults (current :: devices) ↔
      (current.skipped = false → faults 0 = none ∧ ∃ desc, describe enc current = .ok desc) ∧
      (∀ desc, select config enc current = some desc →
        ∀ d ∈ selected config enc devices, desc.serial ≠ d.serial) ∧
      Enumerable config enc (fun i => faults (i + 1)) devices := by
  have hdistinct : ((selected config enc (current :: devices)).map (·.serial)).Nodup ↔
      (∀ desc, select config enc current = some desc →
        ∀ d ∈ selected config enc devices, desc.serial ≠ d.serial) ∧
      ((selected config enc devices).map (·.serial)).Nodup := by
    cases h : select config enc current with
    | none => simp [selected_none h]
    | some desc =>
      rw [selected_some h, List.map_cons, List.nodup_cons]
      apply and_congr_left
      intro _
      simp [List.mem_map, eq_comm]
  constructor
  · rintro ⟨hm, hc, hd⟩
    exact ⟨fun hs => ⟨hm 0 current rfl hs, hc current List.mem_cons_self hs⟩, (hdistinct.mp hd).1,
      fun i c hi => hm (i + 1) c hi, fun c hc' => hc c (List.mem_cons_of_mem _ hc'),
      (hdistinct.mp hd).2⟩
  · rintro ⟨h0, hsel, hm, hc, hd⟩
    refine ⟨?_, List.forall_mem_cons.mpr ⟨fun hs => (h0 hs).2, hc⟩,
      hdistinct.mpr ⟨hsel, hd⟩⟩
    intro i c hi hs
    cases i with
    | zero =>
      cases hi
      exact (h0 hs).1
    | succ i => exact hm i c hi hs

/-- **The loop returns** exactly when nothing in it throws, and then with the selected devices. -/
theorem enumerateLoop_eq_ok {faults : Nat → Option Exception} {devices : List HidDeviceInfo}
    {result r : List DeviceDescriptor} :
    enumerateLoop config enc faults devices result = .ok r ↔
      Enumerable config enc faults devices ∧
      (∀ x ∈ result, ∀ d ∈ selected config enc devices, x.serial ≠ d.serial) ∧
      r = result ++ selected config enc devices := by
  induction devices generalizing faults result with
  | nil =>
    have h : Enumerable config enc faults [] := ⟨nofun, nofun, List.nodup_nil⟩
    simp [enumerateLoop, selected, h, eq_comm]
  | cons current devices ih =>
    rw [enumerable_cons, enumerateLoop]
    cases hs : current.skipped with
    | true =>
      have hsel : select config enc current = none := by simp [select, hs]
      simp [hsel, selected_none hsel, ih]
    | false =>
      cases hf : faults 0 with
      | some e => simp
      | none =>
        cases hd : describe enc current with
        | error e => simp
        | ok desc =>
          cases hk : config.knownDevices.any (·.matches desc) with
          | false =>
            have hsel : select config enc current = none := by simp [select, hs, hd, hk]
            simp [hsel, selected_none hsel, ih, hk]
          | true =>
            have hsel : select config enc current = some desc := by simp [select, hs, hd, hk]
            rw [selected_some hsel, hsel]
            by_cases hdup : result.any (·.serial = desc.serial)
            · simp only [hk, hdup, if_true, Bool.false_eq_true, if_false]
              obtain ⟨x, hx, heq⟩ := List.any_eq_true.mp hdup
              constructor
              · nofun
              · rintro ⟨-, hnew, -⟩
                exact absurd (of_decide_eq_true heq) (hnew x hx desc List.mem_cons_self)
            · simp only [hk, hdup, if_true, Bool.false_eq_true, if_false, ih]
              have hnew : ∀ x ∈ result, x.serial ≠ desc.serial := by simpa using hdup
              constructor
              · rintro ⟨he, hres, rfl⟩
                rw [List.forall_mem_append] at hres
                refine ⟨⟨fun _ => ⟨trivial, desc, rfl⟩, ?_, he⟩, ?_, by simp⟩
                · rintro d ⟨⟩
                  exact hres.2 desc List.mem_cons_self
                · intro x hx
                  exact List.forall_mem_cons.mpr ⟨hnew x hx, hres.1 x hx⟩
              · rintro ⟨⟨-, hsel', he⟩, hres, rfl⟩
                refine ⟨he, List.forall_mem_append.mpr ⟨?_, ?_⟩, by simp⟩
                · intro x hx
                  exact (List.forall_mem_cons.mp (hres x hx)).2
                · simpa using hsel' desc rfl

variable {E}

/-- A loop that returns: the list is freed, then the mutex unlocked. -/
theorem enumerate_ok {faults : Nat → Option Exception} {w : World δ} {r : List DeviceDescriptor}
    (h : enumerateLoop config E.utf8Encode faults (E.hidEnumerate w.dev).1 [] = .ok r) :
    BitcoinTrezorPlugin.enumerate E config faults w = (.ok r,
      ⟨(E.hidEnumerate w.dev).2,
        w.trace ++ [.lock, .act .enumerate, .act .freeEnumeration, .unlock]⟩) := by
  simp [BitcoinTrezorPlugin.enumerate, h]

/-- A loop that throws: neither happens. -/
theorem enumerate_error {faults : Nat → Option Exception} {w : World δ} {e : Exception}
    (h : enumerateLoop config E.utf8Encode faults (E.hidEnumerate w.dev).1 [] = .error e) :
    BitcoinTrezorPlugin.enumerate E config faults w =
      (.error e, ⟨(E.hidEnumerate w.dev).2, w.trace ++ [.lock, .act .enumerate]⟩) := by
  simp [BitcoinTrezorPlugin.enumerate, h]

end TrezorPlugin
