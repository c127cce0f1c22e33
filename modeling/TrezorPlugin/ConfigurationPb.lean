import TrezorPlugin.DescriptorPb

/-!
# The generated class Configuration (config.pb.h, config.pb.cc)

Its objects, over the class of the `FileDescriptorSet` objects they point to,
which protobuf's own library brings along.

    contents (mergeFrom m source) = contents m + contents source
    Yields (serialize (byteSize x).2) (contents x)          (serialize_yields)
-/

namespace TrezorPlugin.Pb

open Wire

structure Configuration (F D : Type) where
  unknownFields : List F
  whitelistUrls_ : List (List UInt8)
  blacklistUrls_ : List (List UInt8)
  /-- `none` is `NULL`. -/
  wireProtocol_ : Option D
  knownDevices_ : List (DeviceDescriptor F)
  validUntil_ : UInt32
  cachedSize_ : Nat
  hasBits_ : BitVec 32
  deriving DecidableEq

variable {F D : Type}

namespace Configuration

/-- `SharedCtor`. -/
def new : Configuration F D := ⟨[], [], [], none, [], 0, 0, 0#32⟩

section Code

variable (P : MessageClass D F) (m : Configuration F D)

def hasWireProtocol : Bool := m.hasBits_ &&& 0x00000004#32 != 0#32
def setHasWireProtocol : Configuration F D := { m with hasBits_ := m.hasBits_ ||| 0x00000004#32 }

/-- The default instance points to that of `FileDescriptorSet`. -/
def wireProtocol : D := m.wireProtocol_.getD P.new

/-- `mutable_wire_protocol`, with what is then written to the message behind the pointer. -/
def mutableWireProtocol (f : D → D) : Configuration F D :=
  { m.setHasWireProtocol with wireProtocol_ := some (f (m.wireProtocol_.getD P.new)) }

def hasValidUntil : Bool := m.hasBits_ &&& 0x00000010#32 != 0#32
def setHasValidUntil : Configuration F D := { m with hasBits_ := m.hasBits_ ||| 0x00000010#32 }
def validUntil : UInt32 := m.validUntil_
def setValidUntil (value : UInt32) : Configuration F D :=
  { m.setHasValidUntil with validUntil_ := value }

def addWhitelistUrls (value : List UInt8) : Configuration F D :=
  { m with whitelistUrls_ := m.whitelistUrls_ ++ [value] }

def addBlacklistUrls (value : List UInt8) : Configuration F D :=
  { m with blacklistUrls_ := m.blacklistUrls_ ++ [value] }

/-- `set_whitelist_urls`, of an element that there is. -/
def setWhitelistUrls (index : Nat) (value : List UInt8) : Configuration F D :=
  { m with whitelistUrls_ := m.whitelistUrls_.set index value }

/-- `set_blacklist_urls`, of an element that there is. -/
def setBlacklistUrls (index : Nat) (value : List UInt8) : Configuration F D :=
  { m with blacklistUrls_ := m.blacklistUrls_.set index value }

/-- `add_known_devices`, with what the new element then becomes. -/
def addKnownDevices (value : DeviceDescriptor F) : Configuration F D :=
  { m with knownDevices_ := m.knownDevices_ ++ [value] }

/-- `mutable_known_devices`, of an element that there is, with what it then becomes. -/
def mutableKnownDevices (index : Nat) (value : DeviceDescriptor F) : Configuration F D :=
  { m with knownDevices_ := m.knownDevices_.set index value }

/-- `Clear`: the single fields only when one of them is present. -/
def clear : Configuration F D :=
  let present := m.hasBits_ &&& (0xff#32 <<< 2) != 0#32
  { m with
    wireProtocol_ := if present && m.hasWireProtocol then m.wireProtocol_.map P.clear
      else m.wireProtocol_
    validUntil_ := if present then 0 else m.validUntil_
    whitelistUrls_ := []
    blacklistUrls_ := []
    knownDevices_ := []
    hasBits_ := 0#32
    unknownFields := [] }

/-- The switch of `MergePartialFromCodedStream`.  An element is added first and then read. -/
def parser {σ : Type} (S : CodedInputStream σ F) : Parser σ (Configuration F D) F where
  fields
    -- repeated string whitelist_urls = 1;
    | 1 => some {
        wireType := typeLengthDelimited
        read := fun m s => put m.addWhitelistUrls m.addWhitelistUrls (S.readString [] s)
        expects := [(10, 1), (18, 2)]
        ends := false }
    -- repeated string blacklist_urls = 2;
    | 2 => some {
        wireType := typeLengthDelimited
        read := fun m s => put m.addBlacklistUrls m.addBlacklistUrls (S.readString [] s)
        expects := [(18, 2), (26, 3)]
        ends := false }
    -- required .google.protobuf.FileDescriptorSet wire_protocol = 3;
    | 3 => some {
        wireType := typeLengthDelimited
        read := fun m s =>
          (readMessage S (P.mergePartialFromCodedStream S) (m.wireProtocol P) s).map fun w =>
            m.mutableWireProtocol P fun _ => w
        expects := [(34, 4)]
        ends := false }
    -- repeated .DeviceDescriptor known_devices = 4;
    | 4 => some {
        wireType := typeLengthDelimited
        read := fun m s =>
          (readMessage S (DeviceDescriptor.mergePartialFromCodedStream S) .new s).map
            m.addKnownDevices
        expects := [(34, 4), (40, 5)]
        ends := false }
    -- optional uint32 valid_until = 5;
    | 5 => some {
        wireType := typeVarint
        read := fun m s => put (fun _ => m) (fun v => setHasValidUntil { m with validUntil_ := v })
          (S.readUInt32 s)
        expects := []
        ends := true }
    | _ => none
  addUnknown m f := { m with unknownFields := m.unknownFields ++ [f] }

def mergePartialFromCodedStream {σ : Type} (S : CodedInputStream σ F) (m : Configuration F D)
    (s : σ) : Outcome σ (Configuration F D) := (parser P S).parse S m s

/-- `MergeFrom` of a repeated field of messages: each is merged into a new element. -/
def mergedDevices (source : List (DeviceDescriptor F)) : List (DeviceDescriptor F) :=
  source.map fun d => DeviceDescriptor.new.mergeFrom d

def mergeFrom (source : Configuration F D) : Configuration F D :=
  let m := { m with
    whitelistUrls_ := m.whitelistUrls_ ++ source.whitelistUrls_
    blacklistUrls_ := m.blacklistUrls_ ++ source.blacklistUrls_
    knownDevices_ := m.knownDevices_ ++ mergedDevices source.knownDevices_ }
  let m := if source.hasBits_ &&& (0xff#32 <<< 2) != 0#32 then
      let m := if source.hasWireProtocol then
          m.mutableWireProtocol P fun w => P.mergeFrom w (source.wireProtocol P) else m
      let m := if source.hasValidUntil then m.setValidUntil source.validUntil else m
      m
    else m
  { m with unknownFields := m.unknownFields ++ source.unknownFields }

/-- `CopyFrom` of another object, and so `operator=`. -/
def copyFrom (source : Configuration F D) : Configuration F D := (m.clear P).mergeFrom P source

variable (W : WireFormat F)

/-- Both `SerializeWithCachedSizes` and `SerializeWithCachedSizesToArray`. -/
def serializeWithCachedSizes : List UInt8 :=
  m.whitelistUrls_.flatMap (writeString 1) ++
  m.blacklistUrls_.flatMap (writeString 2) ++
  (if m.hasWireProtocol then
    writeMessage 3 (P.getCachedSize (m.wireProtocol P))
      (P.serializeWithCachedSizes (m.wireProtocol P)) else []) ++
  m.knownDevices_.flatMap (fun d => writeMessage 4 d.cachedSize_ (d.serializeWithCachedSizes W)) ++
  (if m.hasValidUntil then writeUInt32 5 m.validUntil else []) ++
  (if m.unknownFields ≠ [] then W.writeUnknown m.unknownFields else [])

/-- `total_size += 1 * size()`, and then the size of every element. -/
def repeatedSize {α : Type} (size : α → Nat) (totalSize : Nat) (elements : List α) : Nat :=
  elements.foldl (fun totalSize x => int32 (totalSize + size x))
    (int32 (totalSize + elements.length))

/-- `ByteSize`, with the objects it caches the sizes in. -/
def byteSize : Nat × Configuration F D :=
  let totalSize := 0
  let totalSize := if m.hasBits_ &&& (0xff#32 <<< 2) != 0#32 then
      let totalSize := if m.hasWireProtocol then
          int32 (totalSize + (1 + messageSize (P.byteSize (m.wireProtocol P)).1)) else totalSize
      let totalSize := if m.hasValidUntil then
          int32 (totalSize + (1 + uInt32Size m.validUntil)) else totalSize
      totalSize
    else totalSize
  let totalSize := repeatedSize stringSize totalSize m.whitelistUrls_
  let totalSize := repeatedSize stringSize totalSize m.blacklistUrls_
  let totalSize := repeatedSize (fun d => messageSize (d.byteSize W).1) totalSize m.knownDevices_
  let totalSize := if m.unknownFields ≠ [] then
      int32 (totalSize + int32 (W.writeUnknown m.unknownFields).length) else totalSize
  (totalSize, { m with
    wireProtocol_ := if m.hasWireProtocol then
        m.wireProtocol_.map fun w => (P.byteSize w).2 else m.wireProtocol_
    knownDevices_ := m.knownDevices_.map fun d => (d.byteSize W).2
    cachedSize_ := totalSize })

def isInitialized : Bool :=
  m.hasBits_ &&& 0x00000004#32 == 0x00000004#32 &&
    (!m.hasWireProtocol || P.isInitialized (m.wireProtocol P))

def messageClass : MessageClass (Configuration F D) F where
  new := new
  clear := clear P
  mergePartialFromCodedStream := mergePartialFromCodedStream P
  mergeFrom := mergeFrom P
  byteSize m := m.byteSize P W
  getCachedSize := cachedSize_
  serializeWithCachedSizes m := m.serializeWithCachedSizes P W
  isInitialized := isInitialized P

end Code

end Configuration

/-! ## What a configuration holds -/

@[ext] structure ConfigurationContents (F V : Type) where
  whitelistUrls : List (List UInt8)
  blacklistUrls : List (List UInt8)
  wireProtocol : Option V
  knownDevices : List (DeviceContents F)
  validUntil : Option UInt32
  unknownFields : List F
  deriving DecidableEq

namespace ConfigurationContents

variable {V : Type}

instance : Zero (ConfigurationContents F V) := ⟨⟨[], [], none, [], none, []⟩⟩

@[simp] theorem zero_def : (0 : ConfigurationContents F V) = ⟨[], [], none, [], none, []⟩ := rfl

variable [AddMonoid V]

/-- Lists go on, a wire protocol is put on top of the other, and the last date wins. -/
instance : Add (ConfigurationContents F V) :=
  ⟨fun a b => ⟨a.whitelistUrls ++ b.whitelistUrls, a.blacklistUrls ++ b.blacklistUrls,
    a.wireProtocol.merge (· + ·) b.wireProtocol, a.knownDevices ++ b.knownDevices,
    b.validUntil.or a.validUntil, a.unknownFields ++ b.unknownFields⟩⟩

@[simp] theorem add_def (a b : ConfigurationContents F V) :
    a + b = ⟨a.whitelistUrls ++ b.whitelistUrls, a.blacklistUrls ++ b.blacklistUrls,
      a.wireProtocol.merge (· + ·) b.wireProtocol, a.knownDevices ++ b.knownDevices,
      b.validUntil.or a.validUntil, a.unknownFields ++ b.unknownFields⟩ := rfl

theorem merge_assoc (a b c : Option V) :
    (a.merge (· + ·) b).merge (· + ·) c = a.merge (· + ·) (b.merge (· + ·) c) := by
  cases a <;> cases b <;> cases c <;> simp [Option.merge, add_assoc]

instance : AddMonoid (ConfigurationContents F V) where
  add_assoc a b c := by
    simp only [add_def, Option.or_assoc, List.append_assoc, merge_assoc]
  zero_add a := by
    simp only [zero_def, add_def, Option.or_none, List.nil_append, Option.merge_none_left]
  add_zero a := by
    simp only [zero_def, add_def, Option.none_or, List.append_nil, Option.merge_none_right]
  nsmul := nsmulRec

end ConfigurationContents

namespace Configuration

variable {V : Type} (P : MessageClass D F) (view : D → V)

def contents (m : Configuration F D) : ConfigurationContents F V where
  whitelistUrls := m.whitelistUrls_
  blacklistUrls := m.blacklistUrls_
  wireProtocol := if m.hasWireProtocol then some (view (m.wireProtocol P)) else none
  knownDevices := m.knownDevices_.map (·.contents)
  validUntil := if m.hasValidUntil then some m.validUntil else none
  unknownFields := m.unknownFields

/-- An absent wire protocol holds nothing, a present one has an object; and what `Valid` of
`DeviceDescriptor` says. -/
structure Valid [Zero V] (PValid : D → Prop) (W : WireFormat F) (depth : Nat)
    (m : Configuration F D) : Prop where
  wireProtocol_valid : PValid (m.wireProtocol P)
  wireProtocol_some : m.hasWireProtocol = true → m.wireProtocol_.isSome = true
  wireProtocol : m.hasWireProtocol = false → view (m.wireProtocol P) = 0
  validUntil : m.hasValidUntil = false → m.validUntil = 0
  knownDevices : ∀ d ∈ m.knownDevices_, d.Valid W (depth + 1)
  unknownFields : ∀ f ∈ m.unknownFields, (parser P W.plain).Foreign W depth f

theorem hasWireProtocol_eq (m : Configuration F D) : m.hasWireProtocol = m.hasBits_.getLsbD 2 :=
  bit_bne m.hasBits_ (i := 2) (by omega)

theorem hasValidUntil_eq (m : Configuration F D) : m.hasValidUntil = m.hasBits_.getLsbD 4 :=
  bit_bne m.hasBits_ (i := 4) (by omega)

theorem absent {m : Configuration F D} (h : (m.hasBits_ &&& (0xff#32 <<< 2) != 0#32) = false) :
    m.hasWireProtocol = false ∧ m.hasValidUntil = false := by
  rw [hasWireProtocol_eq, hasValidUntil_eq]
  exact ⟨masked_out h rfl, masked_out h rfl⟩

section Setters

variable {P view} [AddMonoid V] {PValid : D → Prop} {W : WireFormat F} {depth : Nat}
  {m : Configuration F D}

theorem contents_addWhitelistUrls (v : List UInt8) :
    (m.addWhitelistUrls v).contents P view = m.contents P view + ⟨[v], [], none, [], none, []⟩ := by
  simp [contents, hasWireProtocol_eq, hasValidUntil_eq, addWhitelistUrls, wireProtocol, validUntil]

theorem contents_addBlacklistUrls (v : List UInt8) :
    (m.addBlacklistUrls v).contents P view = m.contents P view + ⟨[], [v], none, [], none, []⟩ := by
  simp [contents, hasWireProtocol_eq, hasValidUntil_eq, addBlacklistUrls, wireProtocol, validUntil]

theorem contents_addKnownDevices (d : DeviceDescriptor F) :
    (m.addKnownDevices d).contents P view =
      m.contents P view + ⟨[], [], none, [d.contents], none, []⟩ := by
  simp [contents, hasWireProtocol_eq, hasValidUntil_eq, addKnownDevices, wireProtocol, validUntil]

theorem contents_setValidUntil (v : UInt32) :
    (m.setValidUntil v).contents P view = m.contents P view + ⟨[], [], none, [], some v, []⟩ := by
  simp [contents, hasWireProtocol_eq, hasValidUntil_eq, setValidUntil, setHasValidUntil,
    wireProtocol, validUntil]

theorem contents_addUnknown (fields : List F) :
    ({ m with unknownFields := m.unknownFields ++ fields } : Configuration F D).contents P view =
      m.contents P view + ⟨[], [], none, [], none, fields⟩ := by
  simp [contents, hasWireProtocol_eq, hasValidUntil_eq, wireProtocol, validUntil]

/-- A message put on top of the wire protocol, or of the empty one behind the pointer. -/
theorem contents_mutableWireProtocol (hm : m.Valid P view PValid W depth) {f : D → D} {v : V}
    (hf : view (f (m.wireProtocol P)) = view (m.wireProtocol P) + v) :
    (m.mutableWireProtocol P f).contents P view =
      m.contents P view + ⟨[], [], some v, [], none, []⟩ := by
  have hw : view ((m.mutableWireProtocol P f).wireProtocol P) = view (m.wireProtocol P) + v := hf
  have hhas : (m.mutableWireProtocol P f).hasWireProtocol = true := by
    simp [hasWireProtocol_eq, mutableWireProtocol, setHasWireProtocol]
  have huntil : (m.mutableWireProtocol P f).hasValidUntil = m.hasValidUntil := by
    simp [hasValidUntil_eq, mutableWireProtocol, setHasWireProtocol]
  have hmerge : some (view (m.wireProtocol P) + v) =
      (if m.hasWireProtocol then some (view (m.wireProtocol P)) else none).merge (· + ·) (some v) := by
    cases hno : m.hasWireProtocol with
    | false =>
      rw [hm.wireProtocol hno, zero_add]
      rfl
    | true => rfl
  simp only [contents, hw, hhas, huntil, if_true, hmerge]
  simp [mutableWireProtocol, setHasWireProtocol, validUntil]

theorem Valid.addWhitelistUrls (h : m.Valid P view PValid W depth) (v : List UInt8) :
    (m.addWhitelistUrls v).Valid P view PValid W depth :=
  ⟨h.wireProtocol_valid, h.wireProtocol_some, h.wireProtocol, h.validUntil, h.knownDevices,
    h.unknownFields⟩

theorem Valid.addBlacklistUrls (h : m.Valid P view PValid W depth) (v : List UInt8) :
    (m.addBlacklistUrls v).Valid P view PValid W depth :=
  ⟨h.wireProtocol_valid, h.wireProtocol_some, h.wireProtocol, h.validUntil, h.knownDevices,
    h.unknownFields⟩

theorem Valid.addKnownDevices (h : m.Valid P view PValid W depth) {d : DeviceDescriptor F}
    (hd : d.Valid W (depth + 1)) : (m.addKnownDevices d).Valid P view PValid W depth := by
  refine ⟨h.wireProtocol_valid, h.wireProtocol_some, h.wireProtocol, h.validUntil, ?_,
    h.unknownFields⟩
  intro d' hd'
  rcases List.mem_append.mp hd' with hd' | hd'
  · exact h.knownDevices d' hd'
  · obtain rfl := List.mem_singleton.mp hd'
    exact hd

theorem Valid.setWhitelistUrls (h : m.Valid P view PValid W depth) (i : Nat) (v : List UInt8) :
    (m.setWhitelistUrls i v).Valid P view PValid W depth :=
  ⟨h.wireProtocol_valid, h.wireProtocol_some, h.wireProtocol, h.validUntil, h.knownDevices,
    h.unknownFields⟩

theorem Valid.setBlacklistUrls (h : m.Valid P view PValid W depth) (i : Nat) (v : List UInt8) :
    (m.setBlacklistUrls i v).Valid P view PValid W depth :=
  ⟨h.wireProtocol_valid, h.wireProtocol_some, h.wireProtocol, h.validUntil, h.knownDevices,
    h.unknownFields⟩

theorem Valid.mutableKnownDevices (h : m.Valid P view PValid W depth) (i : Nat)
    {d : DeviceDescriptor F} (hd : d.Valid W (depth + 1)) :
    (m.mutableKnownDevices i d).Valid P view PValid W depth := by
  refine ⟨h.wireProtocol_valid, h.wireProtocol_some, h.wireProtocol, h.validUntil, ?_,
    h.unknownFields⟩
  intro d' hd'
  rcases List.mem_or_eq_of_mem_set hd' with hd' | rfl
  · exact h.knownDevices d' hd'
  · exact hd

theorem Valid.setValidUntil (h : m.Valid P view PValid W depth) (v : UInt32) :
    (m.setValidUntil v).Valid P view PValid W depth := by
  refine ⟨h.wireProtocol_valid, ?_, ?_, ?_, h.knownDevices, h.unknownFields⟩
  · intro hhas
    refine h.wireProtocol_some ?_
    simpa [hasWireProtocol_eq, Configuration.setValidUntil, setHasValidUntil] using hhas
  · intro hno
    refine h.wireProtocol ?_
    simpa [hasWireProtocol_eq, Configuration.setValidUntil, setHasValidUntil] using hno
  · simp [hasValidUntil_eq, Configuration.setValidUntil, setHasValidUntil]

theorem Valid.mutableWireProtocol (h : m.Valid P view PValid W depth) {f : D → D}
    (hf : PValid (f (m.wireProtocol P))) : (m.mutableWireProtocol P f).Valid P view PValid W depth := by
  refine ⟨hf, fun _ => rfl, ?_, ?_, h.knownDevices, h.unknownFields⟩
  · simp [hasWireProtocol_eq, Configuration.mutableWireProtocol, setHasWireProtocol]
  · intro hno
    refine h.validUntil ?_
    simpa [hasValidUntil_eq, Configuration.mutableWireProtocol, setHasWireProtocol] using hno

theorem Valid.addUnknown (h : m.Valid P view PValid W depth) {fields : List F}
    (hf : ∀ f ∈ fields, (parser P W.plain).Foreign W depth f) :
    ({ m with unknownFields := m.unknownFields ++ fields } : Configuration F D).Valid P view PValid
      W depth := by
  refine ⟨h.wireProtocol_valid, h.wireProtocol_some, h.wireProtocol, h.validUntil, h.knownDevices, ?_⟩
  intro g hg
  rcases List.mem_append.mp hg with hg | hg
  · exact h.unknownFields g hg
  · exact hf g hg

end Setters

/-! ## The operations on contents -/

section Operations

variable {P view} [AddMonoid V] {PValid : D → Prop} {W : WireFormat F} {depth inner : Nat}
  (hP : P.Lawful W view PValid inner)

include hP

theorem valid_new : (new : Configuration F D).Valid P view PValid W depth :=
  ⟨hP.valid_new, by simp [hasWireProtocol_eq, new], fun _ => hP.view_new, fun _ => rfl,
    fun _ h => (List.not_mem_nil h).elim, fun _ h => (List.not_mem_nil h).elim⟩

omit hP [AddMonoid V] in
theorem contents_bare {m : Configuration F D} (h : m.hasBits_ = 0#32) (hw : m.whitelistUrls_ = [])
    (hb : m.blacklistUrls_ = []) (hd : m.knownDevices_ = []) (hu : m.unknownFields = []) :
    m.contents P view = 0 := by
  simp [contents, hasWireProtocol_eq, hasValidUntil_eq, h, hw, hb, hd, hu]

omit hP [AddMonoid V] in
theorem contents_new : (new : Configuration F D).contents P view = 0 :=
  contents_bare rfl rfl rfl rfl rfl

omit hP [AddMonoid V] in
theorem contents_clear (m : Configuration F D) : (m.clear P).contents P view = 0 :=
  contents_bare rfl rfl rfl rfl rfl

/-- `Clear` empties the object behind the pointer, or it is empty already. -/
theorem valid_clear {m : Configuration F D} (h : m.Valid P view PValid W depth) :
    (m.clear P).Valid P view PValid W depth := by
  have hwire : PValid ((m.clear P).wireProtocol P) ∧ view ((m.clear P).wireProtocol P) = 0 := by
    have hkept : m.hasWireProtocol = false → PValid (m.wireProtocol P) ∧
        view (m.wireProtocol P) = 0 := fun hno => ⟨h.wireProtocol_valid, h.wireProtocol hno⟩
    simp only [clear, wireProtocol]
    cases hbits : m.hasBits_ &&& (0xff#32 <<< 2) != 0#32 with
    | false => exact hkept (absent hbits).1
    | true =>
      cases hno : m.hasWireProtocol with
      | false => exact hkept hno
      | true =>
        obtain ⟨w, hw⟩ := Option.isSome_iff_exists.mp (h.wireProtocol_some hno)
        have hvalid : PValid w := by
          have := h.wireProtocol_valid
          rwa [wireProtocol, hw] at this
        rw [hw]
        exact ⟨hP.valid_clear hvalid, hP.view_clear hvalid⟩
  refine ⟨hwire.1, ?_, fun _ => hwire.2, ?_, fun _ h => (List.not_mem_nil h).elim,
    fun _ h => (List.not_mem_nil h).elim⟩
  · simp [hasWireProtocol_eq, clear]
  · intro _
    simp only [clear, validUntil]
    cases hbits : m.hasBits_ &&& (0xff#32 <<< 2) != 0#32 with
    | false => exact h.validUntil (absent hbits).2
    | true => rfl

omit hP in
/-- A message is its fields, one on top of the other. -/
theorem contents_eq (m : Configuration F D) :
    m.contents P view = ⟨m.whitelistUrls_, [], none, [], none, []⟩ +
      ⟨[], m.blacklistUrls_, none, [], none, []⟩ +
      (if m.hasWireProtocol then ⟨[], [], some (view (m.wireProtocol P)), [], none, []⟩ else 0) +
      ⟨[], [], none, m.knownDevices_.map (·.contents), none, []⟩ +
      (if m.hasValidUntil then ⟨[], [], none, [], some m.validUntil, []⟩ else 0) +
      ⟨[], [], none, [], none, m.unknownFields⟩ := by
  unfold contents
  cases m.hasWireProtocol <;> cases m.hasValidUntil <;> simp

omit hP in
theorem contents_mergedDevices (source : List (DeviceDescriptor F)) :
    (mergedDevices source).map (·.contents) = source.map (·.contents) := by
  rw [mergedDevices, List.map_map]
  apply List.map_congr_left
  intro d _
  show (DeviceDescriptor.new.mergeFrom d).contents = d.contents
  rw [DeviceDescriptor.contents_mergeFrom, DeviceDescriptor.contents_new, zero_add]

omit hP in
/-- The lists of the source behind those of the target. -/
theorem contents_addLists (m source : Configuration F D) :
    ({ m with
      whitelistUrls_ := m.whitelistUrls_ ++ source.whitelistUrls_
      blacklistUrls_ := m.blacklistUrls_ ++ source.blacklistUrls_
      knownDevices_ := m.knownDevices_ ++ mergedDevices source.knownDevices_ } :
        Configuration F D).contents P view =
      m.contents P view + ⟨source.whitelistUrls_, source.blacklistUrls_, none,
        source.knownDevices_.map (·.contents), none, []⟩ := by
  simp [contents, hasWireProtocol_eq, hasValidUntil_eq, wireProtocol, validUntil,
    contents_mergedDevices]

/-- The object is valid, and `v` was put on top of what `m` held. -/
def Adds (P : MessageClass D F) (view : D → V) (PValid : D → Prop) (W : WireFormat F)
    (depth : Nat) (m m' : Configuration F D) (v : ConfigurationContents F V) : Prop :=
  m'.Valid P view PValid W depth ∧ m'.contents P view = m.contents P view + v

omit hP in
theorem Adds.trans {m m' m'' : Configuration F D} {v w : ConfigurationContents F V}
    (h : Adds P view PValid W depth m m' v) (h' : Adds P view PValid W depth m' m'' w) :
    Adds P view PValid W depth m m'' (v + w) := by
  refine ⟨h'.1, ?_⟩
  rw [h'.2, h.2, add_assoc]

omit hP in
theorem Adds.ite {b : Bool} {m m' : Configuration F D} {v : ConfigurationContents F V}
    (hm : m.Valid P view PValid W depth) (h : b = true → Adds P view PValid W depth m m' v) :
    Adds P view PValid W depth m (if b then m' else m) (if b then v else 0) := by
  cases b with
  | false => exact ⟨hm, (add_zero _).symm⟩
  | true => exact h rfl

/-- What the source holds goes on top. -/
theorem mergeFrom_adds {m source : Configuration F D} (hm : m.Valid P view PValid W depth)
    (hs : source.Valid P view PValid W depth) :
    Adds P view PValid W depth m (m.mergeFrom P source) (source.contents P view) := by
  have hlists : Adds P view PValid W depth m { m with
      whitelistUrls_ := m.whitelistUrls_ ++ source.whitelistUrls_
      blacklistUrls_ := m.blacklistUrls_ ++ source.blacklistUrls_
      knownDevices_ := m.knownDevices_ ++ mergedDevices source.knownDevices_ }
      ⟨source.whitelistUrls_, source.blacklistUrls_, none, source.knownDevices_.map (·.contents),
        none, []⟩ := by
    refine ⟨⟨hm.wireProtocol_valid, hm.wireProtocol_some, hm.wireProtocol, hm.validUntil, ?_,
      hm.unknownFields⟩, contents_addLists m source⟩
    intro d hd
    rcases List.mem_append.mp hd with hd | hd
    · exact hm.knownDevices d hd
    · obtain ⟨d', hd', rfl⟩ := List.mem_map.mp hd
      exact DeviceDescriptor.valid_mergeFrom DeviceDescriptor.valid_new (hs.knownDevices d' hd')
  have hwire : ∀ {m : Configuration F D}, m.Valid P view PValid W depth →
      Adds P view PValid W depth m
        (m.mutableWireProtocol P fun w => P.mergeFrom w (source.wireProtocol P))
        ⟨[], [], some (view (source.wireProtocol P)), [], none, []⟩ := by
    intro m hm
    have hw := hm.wireProtocol_valid
    refine ⟨hm.mutableWireProtocol (hP.valid_mergeFrom hw hs.wireProtocol_valid), ?_⟩
    exact contents_mutableWireProtocol hm (hP.view_mergeFrom hw hs.wireProtocol_valid)
  have huntil : ∀ {m : Configuration F D}, m.Valid P view PValid W depth →
      Adds P view PValid W depth m (m.setValidUntil source.validUntil)
        ⟨[], [], none, [], some source.validUntil, []⟩ :=
    fun hm => ⟨hm.setValidUntil _, contents_setValidUntil _⟩
  have hunknown : ∀ {m : Configuration F D}, m.Valid P view PValid W depth →
      Adds P view PValid W depth m { m with unknownFields := m.unknownFields ++ source.unknownFields }
        ⟨[], [], none, [], none, source.unknownFields⟩ :=
    fun hm => ⟨hm.addUnknown hs.unknownFields, contents_addUnknown _⟩
  unfold mergeFrom
  cases hbits : source.hasBits_ &&& (0xff#32 <<< 2) != 0#32 with
  | false =>
    obtain ⟨hno, hno'⟩ := absent hbits
    have hall := hlists.trans (hunknown hlists.1)
    have heq : source.contents P view = ⟨source.whitelistUrls_, source.blacklistUrls_, none,
        source.knownDevices_.map (·.contents), none, []⟩ +
        ⟨[], [], none, [], none, source.unknownFields⟩ := by
      simp [contents, hno, hno']
    rw [heq]
    exact hall
  | true =>
    have h₁ := hlists.trans (Adds.ite (b := source.hasWireProtocol) hlists.1 fun _ => hwire hlists.1)
    have h₂ := h₁.trans (Adds.ite (b := source.hasValidUntil) h₁.1 fun _ => huntil h₁.1)
    have hall := h₂.trans (hunknown h₂.1)
    have heq : source.contents P view = ⟨source.whitelistUrls_, source.blacklistUrls_, none,
        source.knownDevices_.map (·.contents), none, []⟩ +
        (if source.hasWireProtocol then
          ⟨[], [], some (view (source.wireProtocol P)), [], none, []⟩ else 0) +
        (if source.hasValidUntil then ⟨[], [], none, [], some source.validUntil, []⟩ else 0) +
        ⟨[], [], none, [], none, source.unknownFields⟩ := by
      unfold contents
      cases source.hasWireProtocol <;> cases source.hasValidUntil <;> simp
    rw [heq]
    exact hall

/-! ## Parsing -/

theorem parser_agrees {σ : Type} {S : CodedInputStream σ F} {At : σ → Cursor → Prop}
    (hS : S.Lawful W At) (hW : W.Sound) :
    (parser P S).Agrees At (parser P W.plain) where
  missing n := by
    rcases n with _ | _ | _ | _ | _ | _ | n
    · exact iff_of_true rfl rfl
    · exact iff_of_false (by rintro ⟨⟩) (by rintro ⟨⟩)
    · exact iff_of_false (by rintro ⟨⟩) (by rintro ⟨⟩)
    · exact iff_of_false (by rintro ⟨⟩) (by rintro ⟨⟩)
    · exact iff_of_false (by rintro ⟨⟩) (by rintro ⟨⟩)
    · exact iff_of_false (by rintro ⟨⟩) (by rintro ⟨⟩)
    · exact iff_of_true rfl rfl
  fields n c d hc hd := by
    rcases n with _ | _ | _ | _ | _ | _ | n
    · cases hc
    · cases hc
      cases hd
      exact ⟨rfl, rfl, rfl, fun m s t hat => (hS.readString _ hat).put _ _⟩
    · cases hc
      cases hd
      exact ⟨rfl, rfl, rfl, fun m s t hat => (hS.readString _ hat).put _ _⟩
    · cases hc
      cases hd
      exact ⟨rfl, rfl, rfl, fun m s t hat =>
        (readMessage_rel hS (fun _ _ _ hat => hP.reads hS hat) _ hat).map _⟩
    · cases hc
      cases hd
      exact ⟨rfl, rfl, rfl, fun m s t hat =>
        (readMessage_rel hS (fun _ _ _ hat => (DeviceDescriptor.lawful hW 0).reads hS hat) _ hat).map _⟩
    · cases hc
      cases hd
      exact ⟨rfl, rfl, rfl, fun m s t hat => (hS.readUInt32 hat).put _ _⟩
    · cases hc
  addUnknown := rfl

omit hP [AddMonoid V] in
theorem parser_keeps {I : Configuration F D → Prop} (hw : ∀ m v, I m → I (m.addWhitelistUrls v))
    (hb : ∀ m v, I m → I (m.addBlacklistUrls v))
    (hwire : ∀ m c, depth ≤ c.outer.length → I m → Outcome.Keeps I c
      ((readMessage W.plain (P.mergePartialFromCodedStream W.plain) (m.wireProtocol P) c).map
        fun w => m.mutableWireProtocol P fun _ => w))
    (hd : ∀ m c, depth ≤ c.outer.length → I m → Outcome.Keeps I c
      ((readMessage W.plain (DeviceDescriptor.mergePartialFromCodedStream W.plain) .new c).map
        m.addKnownDevices))
    (hv : ∀ m v, I m → I (m.setValidUntil v))
    (hu : ∀ m f, I m → (parser P W.plain).Foreign W depth f →
      I { m with unknownFields := m.unknownFields ++ [f] }) :
    (parser P W.plain).Keeps W depth I where
  read n d hcase m c hc hm := by
    rcases n with _ | _ | _ | _ | _ | _ | n
    · cases hcase
    · cases hcase
      exact readString_keeps (fun v => hw m v hm) (fun v => hw m v hm) W.torn _ c
    · cases hcase
      exact readString_keeps (fun v => hb m v hm) (fun v => hb m v hm) W.torn _ c
    · cases hcase
      exact hwire m c hc hm
    · cases hcase
      exact hd m c hc hm
    · cases hcase
      exact readUInt32_keeps (fun _ => hm) (fun v => hv m v hm) c
    · cases hcase
  addUnknown m f hm hf := hu m f hm hf

theorem parser_regular (hW : W.Sound) : (parser P W.plain).Regular W where
  keeps := by
    refine parser_keeps (fun _ _ _ => trivial) (fun _ _ _ => trivial) ?_ ?_ (fun _ _ _ => trivial)
      (fun _ _ _ _ => trivial)
    · intro m c _ _
      exact (readMessage_keeps trivial c fun c' _ => hP.finishes _ c').map fun _ _ => trivial
    · intro m c _ _
      exact (readMessage_keeps trivial c fun c' _ =>
        (DeviceDescriptor.lawful hW 0).finishes _ c').map fun _ _ => trivial
  threaded n c hc tag n' hmem := by
    rcases n with _ | _ | _ | _ | _ | _ | n
    · cases hc
    · cases hc
      rcases List.mem_cons.mp hmem with heq | hmem
      · cases heq
        exact ⟨by decide, rfl⟩
      · cases List.mem_singleton.mp hmem
        exact ⟨by decide, rfl⟩
    · cases hc
      rcases List.mem_cons.mp hmem with heq | hmem
      · cases heq
        exact ⟨by decide, rfl⟩
      · cases List.mem_singleton.mp hmem
        exact ⟨by decide, rfl⟩
    · cases hc
      cases List.mem_singleton.mp hmem
      exact ⟨by decide, rfl⟩
    · cases hc
      rcases List.mem_cons.mp hmem with heq | hmem
      · cases heq
        exact ⟨by decide, rfl⟩
      · cases List.mem_singleton.mp hmem
        exact ⟨by decide, rfl⟩
    · cases hc
      exact (List.not_mem_nil hmem).elim
    · cases hc

/-- Whatever is read, or read in part, goes on top of what the object held. -/
theorem parser_grows (hW : W.Sound) (hinner : inner ≤ depth + 1) (m₀ : Configuration F D) :
    (parser P W.plain).Keeps W depth
      (Grows (contents P view) (Valid P view PValid W depth) m₀) := by
  refine parser_keeps (fun m v h => h.put (h.valid.addWhitelistUrls v) (contents_addWhitelistUrls v))
    (fun m v h => h.put (h.valid.addBlacklistUrls v) (contents_addBlacklistUrls v)) ?_ ?_
    (fun m v h => h.put (h.valid.setValidUntil v) (contents_setValidUntil v)) ?_
  · intro m c hc hm
    have hw := hm.valid.wireProtocol_valid
    refine (readMessage_keeps (Grows.refl hw) c fun c' hc' => hP.grows hw c' (by omega)).map ?_
    rintro w ⟨hvalid, v, hview⟩
    exact hm.put (hm.valid.mutableWireProtocol hvalid) (contents_mutableWireProtocol hm.valid hview)
  · intro m c hc hm
    have hnew : (DeviceDescriptor.new : DeviceDescriptor F).Valid W (depth + 1) :=
      DeviceDescriptor.valid_new
    refine (readMessage_keeps (Grows.refl hnew) c fun c' hc' =>
      (DeviceDescriptor.lawful hW (depth + 1)).grows hnew c' (by omega)).map ?_
    intro d hd
    exact hm.put (hm.valid.addKnownDevices hd.valid) (contents_addKnownDevices d)
  · intro m f hm hf
    refine hm.put (hm.valid.addUnknown ?_) (contents_addUnknown [f])
    intro g hg
    obtain rfl := List.mem_singleton.mp hg
    exact hf

end Operations

/-! ## Serializing -/

theorem length_le_flatMap {α : Type} (write : α → List UInt8) {x : α} {xs : List α} (h : x ∈ xs) :
    (write x).length ≤ (xs.flatMap write).length := by
  induction xs with
  | nil => exact (List.not_mem_nil h).elim
  | cons y xs ih =>
    rw [List.flatMap_cons, List.length_append]
    rcases List.mem_cons.mp h with rfl | h
    · omega
    · have := ih h
      omega

theorem length_flatMap_field {α : Type} {size : α → Nat} {write : α → List UInt8} {xs : List α}
    (hsize : ∀ x ∈ xs, (write x).length = 1 + size x) :
    (xs.flatMap write).length = xs.length + (xs.map size).sum := by
  induction xs with
  | nil => rfl
  | cons x xs ih =>
    rw [List.flatMap_cons, List.length_append, ih fun y hy => hsize y (List.mem_cons_of_mem x hy),
      hsize x List.mem_cons_self, List.length_cons, List.map_cons, List.sum_cons]
    omega

theorem foldl_int32 {α : Type} {size : α → Nat} {xs : List α} :
    ∀ {total : Nat}, total + (xs.map size).sum < 2 ^ 32 →
      xs.foldl (fun total x => int32 (total + size x)) total = total + (xs.map size).sum := by
  induction xs with
  | nil => exact fun _ => rfl
  | cons x xs ih =>
    intro total h
    rw [List.map_cons, List.sum_cons] at h ⊢
    have hint : int32 (total + size x) = total + size x := Nat.mod_eq_of_lt (by omega)
    rw [List.foldl_cons, hint, ih (by omega)]
    omega

theorem repeatedSize_eq {α : Type} {size : α → Nat} {write : α → List UInt8} {xs : List α}
    {total : Nat} (hsize : ∀ x ∈ xs, (write x).length = 1 + size x)
    (h : total + (xs.flatMap write).length < 2 ^ 32) :
    repeatedSize size total xs = total + (xs.flatMap write).length := by
  rw [length_flatMap_field hsize] at h ⊢
  have hint : int32 (total + xs.length) = total + xs.length := Nat.mod_eq_of_lt (by omega)
  rw [repeatedSize, hint, foldl_int32 (by omega)]
  omega

section Serialization

variable {P view} [AddMonoid V] {PValid : D → Prop} {W : WireFormat F} {depth : Nat}
  (hP : P.Lawful W view PValid (depth + 1)) {x : Configuration F D} (hx : x.Valid P view PValid W depth)

include hx

theorem byteSize_wireProtocol (hhas : x.hasWireProtocol = true) :
    (x.byteSize P W).2.wireProtocol P = (P.byteSize (x.wireProtocol P)).2 := by
  obtain ⟨w, hw⟩ := Option.isSome_iff_exists.mp (hx.wireProtocol_some hhas)
  simp [wireProtocol, byteSize, hhas, hw]

/-- The fields as they are written after `ByteSize`, each nested message behind the size cached for
it. -/
theorem serializeToArray_eq :
    (messageClass P W).serializeToArray x =
      x.whitelistUrls_.flatMap (writeString 1) ++ x.blacklistUrls_.flatMap (writeString 2) ++
      (if x.hasWireProtocol then
        writeMessage 3 (P.getCachedSize (P.byteSize (x.wireProtocol P)).2)
          (P.serializeToArray (x.wireProtocol P)) else []) ++
      x.knownDevices_.flatMap
        (fun d => writeMessage 4 (d.byteSize W).1 (d.serializeWithCachedSizes W)) ++
      (if x.hasValidUntil then writeUInt32 5 x.validUntil else []) ++
      W.writeUnknown x.unknownFields := by
  have hhas : (x.byteSize P W).2.hasWireProtocol = x.hasWireProtocol := rfl
  have huntil : (x.byteSize P W).2.hasValidUntil = x.hasValidUntil := rfl
  have hknown : (x.byteSize P W).2.knownDevices_.flatMap
      (fun d => writeMessage 4 d.cachedSize_ (d.serializeWithCachedSizes W)) =
      x.knownDevices_.flatMap
        (fun d => writeMessage 4 (d.byteSize W).1 (d.serializeWithCachedSizes W)) :=
    List.flatMap_map _ _ _
  show (x.byteSize P W).2.serializeWithCachedSizes P W = _
  unfold serializeWithCachedSizes
  rw [hknown, hhas, huntil, DeviceDescriptor.writeUnknown_if]
  cases hno : x.hasWireProtocol with
  | false => rfl
  | true =>
    rw [byteSize_wireProtocol hx hno]
    rfl

include hP

/-- The sizes cached by `ByteSize` are those of the nested messages. -/
theorem cached_wireProtocol (h : ((messageClass P W).serializeToArray x).length < 2 ^ 31)
    (hhas : x.hasWireProtocol = true) :
    (P.serializeToArray (x.wireProtocol P)).length < 2 ^ 31 ∧
    (P.byteSize (x.wireProtocol P)).1 = (P.serializeToArray (x.wireProtocol P)).length ∧
      P.getCachedSize (P.byteSize (x.wireProtocol P)).2 =
        (P.serializeToArray (x.wireProtocol P)).length := by
  rw [serializeToArray_eq hx] at h
  simp only [List.length_append, hhas, if_true, writeMessage] at h
  have hsize : (P.serializeToArray (x.wireProtocol P)).length < 2 ^ 31 := by omega
  exact ⟨hsize, hP.byteSize hx.wireProtocol_valid hsize⟩

omit hP in
theorem cached_knownDevices (h : ((messageClass P W).serializeToArray x).length < 2 ^ 31)
    {d : DeviceDescriptor F} (hd : d ∈ x.knownDevices_) :
    (d.serializeWithCachedSizes W).length < 2 ^ 31 ∧
      (d.byteSize W).1 = (d.serializeWithCachedSizes W).length := by
  rw [serializeToArray_eq hx] at h
  have hle := length_le_flatMap
    (fun d : DeviceDescriptor F => writeMessage 4 (d.byteSize W).1 (d.serializeWithCachedSizes W)) hd
  simp only [List.length_append] at h
  simp only [writeMessage, List.length_append] at hle h
  have hsize : (d.serializeWithCachedSizes W).length < 2 ^ 31 := by omega
  exact ⟨hsize, DeviceDescriptor.byteSize_eq hsize⟩

/-- The sizes of the fields add up to that of the message, if that is an `int`. -/
theorem byteSize_eq (h : ((messageClass P W).serializeToArray x).length < 2 ^ 31) :
    (x.byteSize P W).1 = ((messageClass P W).serializeToArray x).length := by
  have hwire := cached_wireProtocol hP hx h
  have hknown := fun d hd => cached_knownDevices (d := d) hx h hd
  rw [serializeToArray_eq hx] at h ⊢
  simp only [List.length_append] at h ⊢
  have hwl : ∀ s ∈ x.whitelistUrls_, (writeString 1 s).length = 1 + stringSize s := by
    intro s hs
    have hle := length_le_flatMap (writeString 1) hs
    exact length_writeString (by omega) (by omega)
  have hbl : ∀ s ∈ x.blacklistUrls_, (writeString 2 s).length = 1 + stringSize s := by
    intro s hs
    have hle := length_le_flatMap (writeString 2) hs
    exact length_writeString (by omega) (by omega)
  have hkd : ∀ d ∈ x.knownDevices_,
      (writeMessage 4 (d.byteSize W).1 (d.serializeWithCachedSizes W)).length =
        1 + messageSize (d.byteSize W).1 := by
    intro d hd
    have hle := length_le_flatMap
      (fun d : DeviceDescriptor F => writeMessage 4 (d.byteSize W).1 (d.serializeWithCachedSizes W))
      hd
    exact length_nested (by omega) (hknown d hd).2 (by omega)
  have hwp : x.hasWireProtocol = true →
      (writeMessage 3 (P.getCachedSize (P.byteSize (x.wireProtocol P)).2)
        (P.serializeToArray (x.wireProtocol P))).length =
        1 + messageSize (P.byteSize (x.wireProtocol P)).1 := by
    intro hhas
    obtain ⟨-, hsize, hcached⟩ := hwire hhas
    rw [if_pos hhas] at h
    rw [hsize, ← hcached]
    exact length_nested (by omega) hcached (by omega)
  have hvu := length_writeUInt32 (show 5 < 16 by omega) x.validUntil
  simp only [byteSize]
  have hfields : (if x.hasBits_ &&& (0xff#32 <<< 2) != 0#32 then
      if x.hasValidUntil then
        int32 ((if x.hasWireProtocol then
          int32 (0 + (1 + messageSize (P.byteSize (x.wireProtocol P)).1)) else 0) +
            (1 + uInt32Size x.validUntil))
      else if x.hasWireProtocol then
        int32 (0 + (1 + messageSize (P.byteSize (x.wireProtocol P)).1)) else 0
    else 0) = (if x.hasWireProtocol then
        writeMessage 3 (P.getCachedSize (P.byteSize (x.wireProtocol P)).2)
          (P.serializeToArray (x.wireProtocol P)) else []).length +
      (if x.hasValidUntil then writeUInt32 5 x.validUntil else []).length := by
    cases hbits : x.hasBits_ &&& (0xff#32 <<< 2) != 0#32 with
    | false =>
      obtain ⟨hno, hno'⟩ := absent hbits
      rw [hno, hno']
      rfl
    | true =>
      rw [if_pos rfl, int32_field hwp (by omega), int32_field (fun _ => hvu) (by omega), Nat.zero_add]
  rw [hfields, repeatedSize_eq hwl (by omega), repeatedSize_eq hbl (by omega),
    repeatedSize_eq hkd (by omega), DeviceDescriptor.unknownSize_if (by omega) (by omega), int32,
    Nat.mod_eq_of_lt (by omega)]
  omega

variable (hW : W.Sound) (hdepth : depth < W.depth)

include hW hdepth

theorem yields_wireProtocol (h : ((messageClass P W).serializeToArray x).length < 2 ^ 31)
    (hhas : x.hasWireProtocol = true) :
    Yields W (parser P W.plain) (contents P view) (Valid P view PValid W depth) depth
      (writeMessage 3 (P.getCachedSize (P.byteSize (x.wireProtocol P)).2)
        (P.serializeToArray (x.wireProtocol P)))
      ⟨[], [], some (view (x.wireProtocol P)), [], none, []⟩ := by
  obtain ⟨hsize, -, hcached⟩ := cached_wireProtocol hP hx h hhas
  rw [hcached]
  refine yields_message hW (parser_regular hP hW) (fun m => m.wireProtocol P)
    (fun m w => m.mutableWireProtocol P fun _ => w) (by omega) (by omega) rfl rfl
    (fun _ _ => rfl) (by omega) hdepth ?_
  intro m outer ho hm
  obtain ⟨w, hparse, hw, hview⟩ :=
    hP.yields hm.wireProtocol_valid hx.wireProtocol_valid hsize ho false
  exact ⟨w, hparse, hm.mutableWireProtocol hw, contents_mutableWireProtocol hm hview⟩

theorem yields_knownDevices (h : ((messageClass P W).serializeToArray x).length < 2 ^ 31) :
    Yields W (parser P W.plain) (contents P view) (Valid P view PValid W depth) depth
      (x.knownDevices_.flatMap
        fun d => writeMessage 4 (d.byteSize W).1 (d.serializeWithCachedSizes W))
      ⟨[], [], none, x.knownDevices_.map (·.contents), none, []⟩ := by
  rw [← sum_map_eq
    (v := fun d : DeviceDescriptor F =>
      (⟨[], [], none, [d.contents], none, []⟩ : ConfigurationContents F V))
    (f := fun ds => ⟨[], [], none, ds.map (·.contents), none, []⟩) rfl fun _ _ => rfl]
  refine yields_flatMap ?_
  intro d hd
  obtain ⟨hsize, hcached⟩ := cached_knownDevices hx h hd
  rw [hcached]
  refine yields_message hW (parser_regular hP hW) (fun _ => DeviceDescriptor.new)
    (fun m d => m.addKnownDevices d) (by omega) (by omega) rfl rfl (fun _ _ => rfl)
    (by omega) hdepth ?_
  intro m outer ho hm
  obtain ⟨d', hparse, hd', hview⟩ := (DeviceDescriptor.lawful hW (depth + 1)).yields
    DeviceDescriptor.valid_new (hx.knownDevices d hd) hsize ho false
  rw [DeviceDescriptor.contents_new, zero_add] at hview
  refine ⟨d', hparse, hm.addKnownDevices hd', ?_⟩
  rw [contents_addKnownDevices, hview]

/-- Reading what `SerializeToArray` wrote puts what was written on top. -/
theorem serialize_yields (h : ((messageClass P W).serializeToArray x).length < 2 ^ 31) :
    Yields W (parser P W.plain) (contents P view) (Valid P view PValid W depth) depth
      ((messageClass P W).serializeToArray x) (x.contents P view) := by
  have hwire := yields_wireProtocol hP hx hW hdepth h
  have hknown := yields_knownDevices hP hx hW hdepth h
  have hreg := parser_regular hP hW
  rw [serializeToArray_eq hx] at h ⊢
  simp only [List.length_append] at h
  rw [contents_eq]
  refine (((((?_ : Yields ..).append ?_).append (yields_if hwire)).append hknown).append
    (yields_if ?_)).append ?_
  · rw [← sum_map_eq
      (v := fun s => (⟨[s], [], none, [], none, []⟩ : ConfigurationContents F V))
      (f := fun urls => ⟨urls, [], none, [], none, []⟩) rfl fun _ _ => rfl]
    refine yields_flatMap ?_
    intro s hs
    have hle := length_le_flatMap (writeString 1) hs
    have hle' := le_length_writeString 1 s
    exact yields_string hW hreg (by omega) (by omega) rfl rfl (fun _ _ => rfl) (by omega)
      fun m hm => ⟨hm.addWhitelistUrls s, contents_addWhitelistUrls s⟩
  · rw [← sum_map_eq
      (v := fun s => (⟨[], [s], none, [], none, []⟩ : ConfigurationContents F V))
      (f := fun urls => ⟨[], urls, none, [], none, []⟩) rfl fun _ _ => rfl]
    refine yields_flatMap ?_
    intro s hs
    have hle := length_le_flatMap (writeString 2) hs
    have hle' := le_length_writeString 2 s
    exact yields_string hW hreg (by omega) (by omega) rfl rfl (fun _ _ => rfl) (by omega)
      fun m hm => ⟨hm.addBlacklistUrls s, contents_addBlacklistUrls s⟩
  · intro _
    exact yields_uint32 hW hreg (by omega) (by omega) rfl rfl (fun _ _ => rfl)
      fun m hm => ⟨hm.setValidUntil _, contents_setValidUntil _⟩
  · rw [← sum_map_eq
      (v := fun f => (⟨[], [], none, [], none, [f]⟩ : ConfigurationContents F V))
      (f := fun fields => ⟨[], [], none, [], none, fields⟩) rfl fun _ _ => rfl]
    refine yields_unknown hW hreg hx.unknownFields ?_
    intro m f hf hm
    refine ⟨hm.addUnknown ?_, contents_addUnknown [f]⟩
    intro g hg
    obtain rfl := List.mem_singleton.mp hg
    exact hx.unknownFields g hf

end Serialization

section Class

variable {P view} [AddMonoid V] {PValid : D → Prop} {W : WireFormat F} {depth inner : Nat}

theorem isInitialized_eq (hP : P.Lawful W view PValid inner) {m x : Configuration F D}
    (hm : m.Valid P view PValid W depth) (hx : x.Valid P view PValid W depth)
    (h : m.contents P view = x.contents P view) : m.isInitialized P = x.isInitialized P := by
  have hinit : ∀ c : Configuration F D, c.isInitialized P =
      (c.hasWireProtocol && P.isInitialized (c.wireProtocol P)) := by
    intro c
    have hbit : (c.hasBits_ &&& 0x00000004#32 == 0x00000004#32) = c.hasWireProtocol :=
      (bit_beq c.hasBits_ (i := 2) (by omega)).trans c.hasWireProtocol_eq.symm
    rw [isInitialized, hbit]
    cases c.hasWireProtocol <;> rfl
  have hwire : (if m.hasWireProtocol then some (view (m.wireProtocol P)) else none) =
      if x.hasWireProtocol then some (view (x.wireProtocol P)) else none :=
    congrArg ConfigurationContents.wireProtocol h
  rw [hinit, hinit]
  cases hno : m.hasWireProtocol with
  | false =>
    cases hno' : x.hasWireProtocol with
    | false => rfl
    | true =>
      rw [hno, hno'] at hwire
      cases hwire
  | true =>
    cases hno' : x.hasWireProtocol with
    | false =>
      rw [hno, hno'] at hwire
      cases hwire
    | true =>
      rw [hno, hno'] at hwire
      have hview := Option.some.inj hwire
      exact hP.isInitialized hm.wireProtocol_valid hx.wireProtocol_valid hview

/-- `ByteSize` writes to nothing but the cached sizes. -/
theorem byteSize_keeps (hP : P.Lawful W view PValid inner) {m : Configuration F D}
    (hm : m.Valid P view PValid W depth) :
    (m.byteSize P W).2.Valid P view PValid W depth ∧
      (m.byteSize P W).2.contents P view = m.contents P view := by
  have hhas : (m.byteSize P W).2.hasWireProtocol = m.hasWireProtocol := rfl
  have hwire : PValid ((m.byteSize P W).2.wireProtocol P) ∧
      view ((m.byteSize P W).2.wireProtocol P) = view (m.wireProtocol P) ∧
      ((m.byteSize P W).2.wireProtocol_.isSome = m.wireProtocol_.isSome) := by
    cases hno : m.hasWireProtocol with
    | false =>
      have hsame : (m.byteSize P W).2.wireProtocol_ = m.wireProtocol_ := by simp [byteSize, hno]
      simp only [wireProtocol, hsame]
      exact ⟨hm.wireProtocol_valid, trivial, trivial⟩
    | true =>
      obtain ⟨w, hw⟩ := Option.isSome_iff_exists.mp (hm.wireProtocol_some hno)
      have hvalid : PValid w := by
        have := hm.wireProtocol_valid
        rwa [wireProtocol, hw] at this
      have hsome : (m.byteSize P W).2.wireProtocol_ = some (P.byteSize w).2 := by
        simp [byteSize, hno, hw]
      simp only [wireProtocol, hsome, hw, Option.getD_some]
      exact ⟨hP.valid_byteSize hvalid, hP.view_byteSize hvalid, rfl⟩
  obtain ⟨hvalid, hview, hsome⟩ := hwire
  refine ⟨⟨hvalid, ?_, ?_, hm.validUntil, ?_, hm.unknownFields⟩, ?_⟩
  · rw [hhas, hsome]
    exact hm.wireProtocol_some
  · rw [hhas, hview]
    exact hm.wireProtocol
  · intro d hd
    obtain ⟨d', hd', rfl⟩ := List.mem_map.mp hd
    exact (hm.knownDevices d' hd').byteSize
  · have hknown : (m.byteSize P W).2.knownDevices_.map (·.contents) =
        m.knownDevices_.map (·.contents) := by
      show (m.knownDevices_.map fun d => (d.byteSize W).2).map (·.contents) = _
      rw [List.map_map]
      rfl
    unfold contents
    rw [hview, hhas, hknown]
    rfl

/-- **The generated class is that of configurations**, over any lawful class of file descriptor
sets. -/
theorem lawful (hP : P.Lawful W view PValid (depth + 1)) (hW : W.Sound) (hdepth : depth < W.depth) :
    (messageClass P W).Lawful W (contents P view) (Valid P view PValid W depth) depth where
  valid_new := valid_new hP
  view_new := contents_new
  valid_clear := valid_clear hP
  view_clear _ := contents_clear _
  valid_mergeFrom hm hx := (mergeFrom_adds hP hm hx).1
  view_mergeFrom hm hx := (mergeFrom_adds hP hm hx).2
  valid_byteSize h := (byteSize_keeps hP h).1
  view_byteSize h := (byteSize_keeps hP h).2
  byteSize hm h := ⟨byteSize_eq hP hm h, byteSize_eq hP hm h⟩
  reads hS _ _ _ hat :=
    parse_rel hS hW (parser_agrees hP hS hW) (parser_regular hP hW).threaded
      (parser_regular hP hW).shrinks hat
  finishes _ _ := parse_keeps hW (parser_regular hP hW).keeps trivial (Nat.zero_le _)
  grows h _ hc := parse_keeps hW (parser_grows hP hW (Nat.le_refl _) _) (Grows.refl h) hc
  yields hm hx h ho b := (serialize_yields hP hx hW hdepth h).parse ho b hm
  isInitialized := isInitialized_eq hP

end Class

end Configuration

end TrezorPlugin.Pb
