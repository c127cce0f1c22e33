import TrezorPlugin.Locks

/-!
# The devices that are enumerated (config.proto, plugin.cpp)

`Allowed` says of one entry of `hid_enumerate` that the configuration lets it
through.  Whatever the list and the configuration,

    enumerate throws  ↔  two allowed entries share a serial number
    otherwise it returns the descriptors of the allowed entries, in order   (enumerate_selects)
-/

namespace TrezorPlugin

variable (config : Configuration) (enc : WString → Except Exception String)

/-- The serial number as text; a missing one is empty. -/
def HidDeviceInfo.serial (current : HidDeviceInfo) : String :=
  match current.serialNumber.map enc with
  | some (.ok s) => s
  | _ => ""

/-- The known device `dd` agrees with the entry on everything that it sets. -/
structure DeviceDescriptor.Agrees (dd : DeviceDescriptor) (current : HidDeviceInfo)
    (serial : String) : Prop where
  vendorId : ∀ v ∈ dd.vendorId, v = current.vendorId.toUInt32
  productId : ∀ v ∈ dd.productId, v = current.productId.toUInt32
  serialNumber : ∀ s ∈ dd.serialNumber, s = serial

/-- The configuration lets the entry through. -/
structure HidDeviceInfo.Allowed (current : HidDeviceInfo) : Prop where
  native : current.interfaceNumber ≤ 0
  present : current.productString ≠ none
  known : ∃ dd ∈ config.knownDevices, dd.Agrees current (current.serial enc)

/-- The entry as a device descriptor. -/
def HidDeviceInfo.descriptor (current : HidDeviceInfo) : DeviceDescriptor where
  vendorId := some current.vendorId.toUInt32
  productId := some current.productId.toUInt32
  serialNumber := current.serialNumber.map fun _ => current.serial enc
  path := some current.path

/-- Two allowed entries have the same serial number. -/
def SharedSerial (devices : List HidDeviceInfo) : Prop :=
  ∃ i j : Nat, ∃ a b : HidDeviceInfo, i < j ∧ devices[i]? = some a ∧ devices[j]? = some b ∧
    a.Allowed config enc ∧ b.Allowed config enc ∧ a.serial enc = b.serial enc

/-- The serial numbers in the list can be converted. -/
def Convertible (devices : List HidDeviceInfo) : Prop :=
  ∀ current ∈ devices, ∀ s ∈ current.serialNumber, ∃ r, enc s = .ok r

theorem DeviceDescriptor.agrees_iff (dd : DeviceDescriptor) (current : HidDeviceInfo)
    (serial : String) :
    (dd.vendorId.all (· == current.vendorId.toUInt32) &&
      dd.productId.all (· == current.productId.toUInt32) && dd.serialNumber.all (· == serial)) =
        true ↔ dd.Agrees current serial := by
  simp only [Bool.and_eq_true, Option.all_eq_true, beq_iff_eq]
  constructor
  · rintro ⟨⟨hv, hp⟩, hs⟩
    exact ⟨hv, hp, hs⟩
  · rintro ⟨hv, hp, hs⟩
    exact ⟨⟨hv, hp⟩, hs⟩

instance (dd : DeviceDescriptor) (current : HidDeviceInfo) (serial : String) :
    Decidable (dd.Agrees current serial) :=
  decidable_of_iff _ (dd.agrees_iff current serial)

instance (current : HidDeviceInfo) : Decidable (current.Allowed config enc) :=
  decidable_of_iff (current.interfaceNumber ≤ 0 ∧ current.productString ≠ none ∧
    ∃ dd ∈ config.knownDevices, dd.Agrees current (current.serial enc))
    ⟨fun h => ⟨h.1, h.2.1, h.2.2⟩, fun h => ⟨h.native, h.present, h.known⟩⟩

/-! ## One entry -/

variable {config enc}

theorem HidDeviceInfo.skipped_eq_false (current : HidDeviceInfo) :
    current.skipped = false ↔ current.interfaceNumber ≤ 0 ∧ current.productString ≠ none := by
  simp [HidDeviceInfo.skipped, Option.isSome_iff_ne_none]

theorem HidDeviceInfo.descriptor_serial (current : HidDeviceInfo) :
    (current.descriptor enc).serial = current.serial enc := by
  cases hs : current.serialNumber with
  | none => simp [HidDeviceInfo.descriptor, DeviceDescriptor.serial, HidDeviceInfo.serial, hs]
  | some s => simp [HidDeviceInfo.descriptor, DeviceDescriptor.serial, hs]

/-- A serial number that can be converted is the only thing `describe` could fail on. -/
theorem describe_eq_ok {current : HidDeviceInfo}
    (h : ∀ s ∈ current.serialNumber, ∃ r, enc s = .ok r) :
    describe enc current = .ok (current.descriptor enc) := by
  cases hs : current.serialNumber with
  | none =>
    simp only [describe, HidDeviceInfo.descriptor, hs]
    rfl
  | some s =>
    obtain ⟨r, hr⟩ := h s hs
    simp only [describe, HidDeviceInfo.descriptor, HidDeviceInfo.serial, hs, Option.map_some, hr,
      Option.mapM_some]
    rfl

/-- The three comparisons of the loop over the known devices. -/
theorem DeviceDescriptor.matches_descriptor (dd : DeviceDescriptor) (current : HidDeviceInfo) :
    dd.matches (current.descriptor enc) = true ↔ dd.Agrees current (current.serial enc) := by
  have hmatches : dd.matches (current.descriptor enc) = true ↔
      (∀ s ∈ dd.serialNumber, s = current.serial enc) ∧
      (∀ v ∈ dd.vendorId, v = current.vendorId.toUInt32) ∧
      ∀ v ∈ dd.productId, v = current.productId.toUInt32 := by
    simp only [DeviceDescriptor.matches, HidDeviceInfo.descriptor_serial, Bool.and_eq_true,
      Bool.or_eq_true, decide_eq_true_eq, and_assoc]
    refine and_congr ?_ (and_congr ?_ ?_)
    · cases hs : dd.serialNumber with
      | none => simp
      | some s => simp [DeviceDescriptor.serial, hs]
    · cases dd.vendorId with
      | none => simp
      | some v => simp [HidDeviceInfo.descriptor]
    · cases dd.productId with
      | none => simp
      | some v => simp [HidDeviceInfo.descriptor]
  rw [hmatches]
  constructor
  · rintro ⟨hs, hv, hp⟩
    exact ⟨hv, hp, hs⟩
  · rintro ⟨hv, hp, hs⟩
    exact ⟨hs, hv, hp⟩

/-- What the loop does with one entry of the list. -/
theorem select_eq {current : HidDeviceInfo}
    (h : ∀ s ∈ current.serialNumber, ∃ r, enc s = .ok r) :
    select config enc current =
      if current.Allowed config enc then some (current.descriptor enc) else none := by
  have hknown : config.knownDevices.any (·.matches (current.descriptor enc)) = true ↔
      ∃ dd ∈ config.knownDevices, dd.Agrees current (current.serial enc) := by
    simp only [List.any_eq_true, DeviceDescriptor.matches_descriptor]
  unfold select
  rw [describe_eq_ok h]
  cases hs : current.skipped with
  | true =>
    have hnot : ¬ current.Allowed config enc := by
      intro ha
      rw [current.skipped_eq_false.mpr ⟨ha.native, ha.present⟩] at hs
      cases hs
    rw [if_pos rfl, if_neg hnot]
  | false =>
    obtain ⟨hi, hp⟩ := current.skipped_eq_false.mp hs
    have hallowed : current.Allowed config enc ↔
        ∃ dd ∈ config.knownDevices, dd.Agrees current (current.serial enc) := by
      constructor
      · intro ha
        exact ha.known
      · intro hk
        exact ⟨hi, hp, hk⟩
    simp only [Bool.false_eq_true, if_false, hknown, hallowed]

/-! ## The whole list -/

theorem selected_eq {devices : List HidDeviceInfo} (h : Convertible enc devices) :
    selected config enc devices =
      (devices.filter (·.Allowed config enc)).map (·.descriptor enc) := by
  induction devices with
  | nil => rfl
  | cons current devices ih =>
    obtain ⟨hc, hrest⟩ := List.forall_mem_cons.mp h
    have hsel : select config enc current =
      if current.Allowed config enc then some (current.descriptor enc) else none := select_eq hc
    by_cases ha : current.Allowed config enc
    · rw [if_pos ha] at hsel
      rw [selected_some hsel, ih hrest, List.filter_cons_of_pos (by simpa using ha), List.map_cons]
    · rw [if_neg ha] at hsel
      rw [selected_none hsel, ih hrest, List.filter_cons_of_neg (by simpa using ha)]

/-- No two allowed entries share a serial number. -/
theorem nodup_allowed_iff (devices : List HidDeviceInfo) :
    (((devices.filter (·.Allowed config enc)).map (·.descriptor enc)).map (·.serial)).Nodup ↔
      ¬ SharedSerial config enc devices := by
  rw [List.map_map, List.Nodup, List.pairwise_map, List.pairwise_filter, List.pairwise_iff_getElem]
  simp only [Function.comp, HidDeviceInfo.descriptor_serial, decide_eq_true_eq]
  constructor
  · rintro h ⟨i, j, a, b, hij, ha, hb, hallowed, hallowed', heq⟩
    obtain ⟨hi, rfl⟩ := List.getElem?_eq_some_iff.mp ha
    obtain ⟨hj, rfl⟩ := List.getElem?_eq_some_iff.mp hb
    exact h i j hi hj hij hallowed hallowed' heq
  · intro h i j hi hj hij ha hb heq
    exact h ⟨i, j, devices[i], devices[j], hij, List.getElem?_eq_getElem hi,
      List.getElem?_eq_getElem hj, ha, hb, heq⟩

/-- With memory enough, only a shared serial number stops the loop. -/
theorem enumerable_iff {devices : List HidDeviceInfo} (h : Convertible enc devices) :
    Enumerable config enc (fun _ => none) devices ↔ ¬ SharedSerial config enc devices := by
  rw [← nodup_allowed_iff, ← selected_eq h]
  constructor
  · intro he
    exact he.distinct
  · intro hd
    refine ⟨fun _ _ _ _ => rfl, ?_, hd⟩
    intro current hc _
    exact ⟨_, describe_eq_ok (h current hc)⟩

variable {τ δ : Type}

/-- **Enumeration returns the allowed devices.**  With memory enough it throws exactly when two of
them share a serial number, and otherwise returns their descriptors, once each and in the order of
the list. -/
theorem enumerate_selects (E : Env τ δ) (config : Configuration) (w : World δ)
    (hconv : Convertible E.utf8Encode (E.hidEnumerate w.dev).1) :
    ((∃ e, (BitcoinTrezorPlugin.enumerate E config (fun _ => none) w).1 = .error e) ↔
      SharedSerial config E.utf8Encode (E.hidEnumerate w.dev).1) ∧
    ∀ result, (BitcoinTrezorPlugin.enumerate E config (fun _ => none) w).1 = .ok result →
      result = ((E.hidEnumerate w.dev).1.filter (·.Allowed config E.utf8Encode)).map
        (·.descriptor E.utf8Encode) ∧
      (result.map (·.serial)).Nodup := by
  have hloop : ∀ r, enumerateLoop config E.utf8Encode (fun _ => none) (E.hidEnumerate w.dev).1 [] =
      .ok r ↔ ¬ SharedSerial config E.utf8Encode (E.hidEnumerate w.dev).1 ∧
        r = ((E.hidEnumerate w.dev).1.filter (·.Allowed config E.utf8Encode)).map
          (·.descriptor E.utf8Encode) := by
    intro r
    rw [enumerateLoop_eq_ok, enumerable_iff hconv, selected_eq hconv]
    simp
  cases h : enumerateLoop config E.utf8Encode (fun _ => none) (E.hidEnumerate w.dev).1 [] with
  | ok r =>
    obtain ⟨hshared, hr⟩ := (hloop r).mp h
    rw [enumerate_ok h]
    refine ⟨by simpa using hshared, ?_⟩
    rintro result ⟨⟩
    refine ⟨hr, ?_⟩
    rw [hr]
    exact (nodup_allowed_iff _).mpr hshared
  | error e =>
    rw [enumerate_error h]
    refine ⟨?_, by simp⟩
    have hshared : SharedSerial config E.utf8Encode (E.hidEnumerate w.dev).1 := by
      by_contra hn
      rw [(hloop _).mpr ⟨hn, rfl⟩] at h
      cases h
    simpa using hshared

/-- Two devices of the vendor between a foreign interface and a phantom. -/
def shelf : List HidDeviceInfo :=
  [{ trezor "a" (some [49]) with interfaceNumber := 1 }, trezor "b" (some [49]),
    { trezor "c" (some [49]) with productString := none }, trezor "d" none]

/-- Known by their vendor, and the first one by its serial number as well. -/
def overlapping : Configuration :=
  ⟨[], [], [], [⟨none, none, some "1", none⟩, ⟨some 0x534c, none, none, none⟩], none⟩

theorem enumerate_selects_shelf :
    (BitcoinTrezorPlugin.enumerate (listing shelf).env overlapping (fun _ => none) ⟨0, []⟩).1 =
      .ok [⟨some 0x534c, some 1, some "1", some "b"⟩, ⟨some 0x534c, some 1, none, some "d"⟩] ∧
    [⟨some 0x534c, some 1, some "1", some "b"⟩, ⟨some 0x534c, some 1, none, some "d"⟩] =
      (shelf.filter (·.Allowed overlapping asciiEncode)).map (·.descriptor asciiEncode) := by
  have hconv : Convertible asciiEncode shelf := fun _ _ _ _ => ⟨_, rfl⟩
  have hok : (BitcoinTrezorPlugin.enumerate (listing shelf).env overlapping (fun _ => none)
      ⟨0, []⟩).1 =
        .ok [⟨some 0x534c, some 1, some "1", some "b"⟩, ⟨some 0x534c, some 1, none, some "d"⟩] := by
    decide +kernel
  exact ⟨hok, ((enumerate_selects (listing shelf).env overlapping ⟨0, []⟩ hconv).2 _ hok).1⟩

end TrezorPlugin
