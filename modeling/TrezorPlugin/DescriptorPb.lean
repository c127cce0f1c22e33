import Mathlib.Algebra.GroupWithZero.Nat
import TrezorPlugin.Lib.MessageClass

/-!
# The generated class DeviceDescriptor (config.pb.h, config.pb.cc)

Its objects as the generated code keeps them: presence bits beside the storage of
the fields, strings behind pointers, the size that `ByteSize` has cached.
`contents` is what the accessors show.

    Valid m:                                the storage of an absent field holds its default
    contents (mergeFrom m source) = contents m + contents source
    Yields (serialize x) (contents x)       (serialize_yields)
-/

namespace TrezorPlugin.Pb

open Wire

variable {F : Type}

/-! ## Presence bits -/

theorem twoPow_ne_zero {i : Nat} (h : i < 32) : BitVec.twoPow 32 i ≠ 0#32 := by
  intro hzero
  have hbit := congrArg (fun b => b.getLsbD i) hzero
  simp only [BitVec.getLsbD_twoPow, h, decide_true, Bool.and_self, BitVec.getLsbD_zero] at hbit
  cases hbit

theorem bit_bne (bits : BitVec 32) {i : Nat} (h : i < 32) :
    (bits &&& BitVec.twoPow 32 i != 0#32) = bits.getLsbD i := by
  rw [BitVec.and_twoPow]
  cases bits.getLsbD i with
  | false => rfl
  | true =>
    rw [if_pos rfl, bne_iff_ne]
    exact twoPow_ne_zero h

theorem bit_beq (bits : BitVec 32) {i : Nat} (h : i < 32) :
    (bits &&& BitVec.twoPow 32 i == BitVec.twoPow 32 i) = bits.getLsbD i := by
  rw [BitVec.and_twoPow]
  cases bits.getLsbD i with
  | false =>
    rw [if_neg Bool.false_ne_true, beq_eq_false_iff_ne]
    exact (twoPow_ne_zero h).symm
  | true => exact beq_self_eq_true _

/-- No bit under a mask is set. -/
theorem masked_out {bits mask : BitVec 32} (h : (bits &&& mask != 0#32) = false) {i : Nat}
    (hi : mask.getLsbD i = true) : bits.getLsbD i = false := by
  have hzero : bits &&& mask = 0#32 := by simpa using h
  have hbit := congrArg (fun b => b.getLsbD i) hzero
  simpa only [BitVec.getLsbD_and, hi, Bool.and_true, BitVec.getLsbD_zero] using hbit

/-! ## DeviceDescriptor -/

structure DeviceDescriptor (F : Type) where
  unknownFields : List F
  vendorId_ : UInt32
  productId_ : UInt32
  /-- `none` points to `kEmptyString`. -/
  serialNumber_ : Option (List UInt8)
  path_ : Option (List UInt8)
  cachedSize_ : Nat
  hasBits_ : BitVec 32
  deriving DecidableEq

namespace DeviceDescriptor

/-- `SharedCtor`. -/
def new : DeviceDescriptor F := ⟨[], 0, 0, none, none, 0, 0#32⟩

variable (m : DeviceDescriptor F)

def hasVendorId : Bool := m.hasBits_ &&& 0x00000001#32 != 0#32
def setHasVendorId : DeviceDescriptor F := { m with hasBits_ := m.hasBits_ ||| 0x00000001#32 }
def vendorId : UInt32 := m.vendorId_
def setVendorId (value : UInt32) : DeviceDescriptor F := { m.setHasVendorId with vendorId_ := value }

def hasProductId : Bool := m.hasBits_ &&& 0x00000002#32 != 0#32
def setHasProductId : DeviceDescriptor F := { m with hasBits_ := m.hasBits_ ||| 0x00000002#32 }
def productId : UInt32 := m.productId_
def setProductId (value : UInt32) : DeviceDescriptor F :=
  { m.setHasProductId with productId_ := value }

def hasSerialNumber : Bool := m.hasBits_ &&& 0x00000004#32 != 0#32
def setHasSerialNumber : DeviceDescriptor F := { m with hasBits_ := m.hasBits_ ||| 0x00000004#32 }
def serialNumber : List UInt8 := m.serialNumber_.getD []
def setSerialNumber (value : List UInt8) : DeviceDescriptor F :=
  { m.setHasSerialNumber with serialNumber_ := some value }

def hasPath : Bool := m.hasBits_ &&& 0x00000008#32 != 0#32
def setHasPath : DeviceDescriptor F := { m with hasBits_ := m.hasBits_ ||| 0x00000008#32 }
def path : List UInt8 := m.path_.getD []
def setPath (value : List UInt8) : DeviceDescriptor F := { m.setHasPath with path_ := some value }

/-- `Clear`: the storage only when something is present. -/
def clear : DeviceDescriptor F :=
  let present := m.hasBits_ &&& 0xff#32 != 0#32
  { m with
    vendorId_ := if present then 0 else m.vendorId_
    productId_ := if present then 0 else m.productId_
    serialNumber_ := if present && m.hasSerialNumber then m.serialNumber_.map fun _ => []
      else m.serialNumber_
    path_ := if present && m.hasPath then m.path_.map fun _ => [] else m.path_
    hasBits_ := 0#32
    unknownFields := [] }

/-- The switch of `MergePartialFromCodedStream`. -/
def parser {σ : Type} (S : CodedInputStream σ F) : Parser σ (DeviceDescriptor F) F where
  fields
    -- optional uint32 vendor_id = 1;
    | 1 => some {
        wireType := typeVarint
        read := fun m s => put (fun _ => m) (fun v => setHasVendorId { m with vendorId_ := v })
          (S.readUInt32 s)
        expects := [(16, 2)]
        ends := false }
    -- optional uint32 product_id = 2;
    | 2 => some {
        wireType := typeVarint
        read := fun m s => put (fun _ => m) (fun v => setHasProductId { m with productId_ := v })
          (S.readUInt32 s)
        expects := [(26, 3)]
        ends := false }
    -- optional string serial_number = 3;
    | 3 => some {
        wireType := typeLengthDelimited
        read := fun m s => put m.setSerialNumber m.setSerialNumber (S.readString m.serialNumber s)
        expects := [(34, 4)]
        ends := false }
    -- optional string path = 4;
    | 4 => some {
        wireType := typeLengthDelimited
        read := fun m s => put m.setPath m.setPath (S.readString m.path s)
        expects := []
        ends := true }
    | _ => none
  addUnknown m f := { m with unknownFields := m.unknownFields ++ [f] }

def mergePartialFromCodedStream {σ : Type} (S : CodedInputStream σ F) (m : DeviceDescriptor F)
    (s : σ) : Outcome σ (DeviceDescriptor F) := (parser S).parse S m s

def mergeFrom (source : DeviceDescriptor F) : DeviceDescriptor F :=
  let m := if source.hasBits_ &&& 0xff#32 != 0#32 then
      let m := if source.hasVendorId then m.setVendorId source.vendorId else m
      let m := if source.hasProductId then m.setProductId source.productId else m
      let m := if source.hasSerialNumber then m.setSerialNumber source.serialNumber else m
      let m := if source.hasPath then m.setPath source.path else m
      m
    else m
  { m with unknownFields := m.unknownFields ++ source.unknownFields }

/-- `CopyFrom` of another object. -/
def copyFrom (source : DeviceDescriptor F) : DeviceDescriptor F := m.clear.mergeFrom source

variable (W : WireFormat F)

/-- Both `SerializeWithCachedSizes` and `SerializeWithCachedSizesToArray`. -/
def serializeWithCachedSizes : List UInt8 :=
  (if m.hasVendorId then writeUInt32 1 m.vendorId else []) ++
  (if m.hasProductId then writeUInt32 2 m.productId else []) ++
  (if m.hasSerialNumber then writeString 3 m.serialNumber else []) ++
  (if m.hasPath then writeString 4 m.path else []) ++
  (if m.unknownFields ≠ [] then W.writeUnknown m.unknownFields else [])

/-- `ByteSize`, with the object it caches the size in. -/
def byteSize : Nat × DeviceDescriptor F :=
  let totalSize := 0
  let totalSize := if m.hasBits_ &&& 0xff#32 != 0#32 then
      let totalSize := if m.hasVendorId then
          int32 (totalSize + (1 + uInt32Size m.vendorId)) else totalSize
      let totalSize := if m.hasProductId then
          int32 (totalSize + (1 + uInt32Size m.productId)) else totalSize
      let totalSize := if m.hasSerialNumber then
          int32 (totalSize + (1 + stringSize m.serialNumber)) else totalSize
      let totalSize := if m.hasPath then
          int32 (totalSize + (1 + stringSize m.path)) else totalSize
      totalSize
    else totalSize
  let totalSize := if m.unknownFields ≠ [] then
      int32 (totalSize + int32 (W.writeUnknown m.unknownFields).length) else totalSize
  (totalSize, { m with cachedSize_ := totalSize })

def messageClass : MessageClass (DeviceDescriptor F) F where
  new := new
  clear := clear
  mergePartialFromCodedStream := mergePartialFromCodedStream
  mergeFrom := mergeFrom
  byteSize m := m.byteSize W
  getCachedSize := cachedSize_
  serializeWithCachedSizes m := m.serializeWithCachedSizes W
  isInitialized _ := true

end DeviceDescriptor

/-! ## What a device descriptor holds -/

@[ext] structure DeviceContents (F : Type) where
  vendorId : Option UInt32
  productId : Option UInt32
  serialNumber : Option (List UInt8)
  path : Option (List UInt8)
  unknownFields : List F
  deriving DecidableEq

namespace DeviceContents

instance : Zero (DeviceContents F) := ⟨⟨none, none, none, none, []⟩⟩

/-- The fields of the message on top win. -/
instance : Add (DeviceContents F) :=
  ⟨fun a b => ⟨b.vendorId.or a.vendorId, b.productId.or a.productId,
    b.serialNumber.or a.serialNumber, b.path.or a.path, a.unknownFields ++ b.unknownFields⟩⟩

@[simp] theorem zero_def : (0 : DeviceContents F) = ⟨none, none, none, none, []⟩ := rfl

@[simp] theorem add_def (a b : DeviceContents F) :
    a + b = ⟨b.vendorId.or a.vendorId, b.productId.or a.productId,
      b.serialNumber.or a.serialNumber, b.path.or a.path, a.unknownFields ++ b.unknownFields⟩ := rfl

instance : AddMonoid (DeviceContents F) where
  add_assoc a b c := by
    simp only [add_def, Option.or_assoc, List.append_assoc]
  zero_add a := by
    simp only [zero_def, add_def, Option.or_none, List.nil_append]
  add_zero a := by
    simp only [zero_def, add_def, Option.none_or, List.append_nil]
  nsmul := nsmulRec

end DeviceContents

namespace DeviceDescriptor

def contents (m : DeviceDescriptor F) : DeviceContents F where
  vendorId := if m.hasVendorId then some m.vendorId else none
  productId := if m.hasProductId then some m.productId else none
  serialNumber := if m.hasSerialNumber then some m.serialNumber else none
  path := if m.hasPath then some m.path else none
  unknownFields := m.unknownFields

/-- The storage of an absent field holds its default, and no unknown field has the tag of a known one
or nests too deep for a message inside of `depth` others. -/
structure Valid (W : WireFormat F) (depth : Nat) (m : DeviceDescriptor F) : Prop where
  vendorId : m.hasVendorId = false → m.vendorId = 0
  productId : m.hasProductId = false → m.productId = 0
  serialNumber : m.hasSerialNumber = false → m.serialNumber = []
  path : m.hasPath = false → m.path = []
  unknownFields : ∀ f ∈ m.unknownFields, (parser W.plain).Foreign W depth f

theorem hasVendorId_eq (m : DeviceDescriptor F) : m.hasVendorId = m.hasBits_.getLsbD 0 :=
  bit_bne m.hasBits_ (i := 0) (by omega)

theorem hasProductId_eq (m : DeviceDescriptor F) : m.hasProductId = m.hasBits_.getLsbD 1 :=
  bit_bne m.hasBits_ (i := 1) (by omega)

theorem hasSerialNumber_eq (m : DeviceDescriptor F) : m.hasSerialNumber = m.hasBits_.getLsbD 2 :=
  bit_bne m.hasBits_ (i := 2) (by omega)

theorem hasPath_eq (m : DeviceDescriptor F) : m.hasPath = m.hasBits_.getLsbD 3 :=
  bit_bne m.hasBits_ (i := 3) (by omega)

section Setters

variable (m : DeviceDescriptor F)

theorem contents_setVendorId (v : UInt32) :
    (m.setVendorId v).contents = m.contents + ⟨some v, none, none, none, []⟩ := by
  simp [contents, hasVendorId_eq, hasProductId_eq, hasSerialNumber_eq, hasPath_eq, setVendorId,
    setHasVendorId, vendorId, productId, serialNumber, path]

theorem contents_setProductId (v : UInt32) :
    (m.setProductId v).contents = m.contents + ⟨none, some v, none, none, []⟩ := by
  simp [contents, hasVendorId_eq, hasProductId_eq, hasSerialNumber_eq, hasPath_eq, setProductId,
    setHasProductId, vendorId, productId, serialNumber, path]

theorem contents_setSerialNumber (v : List UInt8) :
    (m.setSerialNumber v).contents = m.contents + ⟨none, none, some v, none, []⟩ := by
  simp [contents, hasVendorId_eq, hasProductId_eq, hasSerialNumber_eq, hasPath_eq, setSerialNumber,
    setHasSerialNumber, vendorId, productId, serialNumber, path]

theorem contents_setPath (v : List UInt8) :
    (m.setPath v).contents = m.contents + ⟨none, none, none, some v, []⟩ := by
  simp [contents, hasVendorId_eq, hasProductId_eq, hasSerialNumber_eq, hasPath_eq, setPath,
    setHasPath, vendorId, productId, serialNumber, path]

variable {W : WireFormat F} {depth : Nat} {m}

theorem Valid.setVendorId (h : m.Valid W depth) (v : UInt32) : (m.setVendorId v).Valid W depth := by
  refine ⟨?_, ?_, ?_, ?_, h.unknownFields⟩
  · simp [hasVendorId_eq, DeviceDescriptor.setVendorId, setHasVendorId]
  · intro hno
    refine h.productId ?_
    simpa [hasProductId_eq, DeviceDescriptor.setVendorId, setHasVendorId] using hno
  · intro hno
    refine h.serialNumber ?_
    simpa [hasSerialNumber_eq, DeviceDescriptor.setVendorId, setHasVendorId] using hno
  · intro hno
    refine h.path ?_
    simpa [hasPath_eq, DeviceDescriptor.setVendorId, setHasVendorId] using hno

theorem Valid.setProductId (h : m.Valid W depth) (v : UInt32) : (m.setProductId v).Valid W depth := by
  refine ⟨?_, ?_, ?_, ?_, h.unknownFields⟩
  · intro hno
    refine h.vendorId ?_
    simpa [hasVendorId_eq, DeviceDescriptor.setProductId, setHasProductId] using hno
  · simp [hasProductId_eq, DeviceDescriptor.setProductId, setHasProductId]
  · intro hno
    refine h.serialNumber ?_
    simpa [hasSerialNumber_eq, DeviceDescriptor.setProductId, setHasProductId] using hno
  · intro hno
    refine h.path ?_
    simpa [hasPath_eq, DeviceDescriptor.setProductId, setHasProductId] using hno

theorem Valid.setSerialNumber (h : m.Valid W depth) (v : List UInt8) : (m.setSerialNumber v).Valid W depth := by
  refine ⟨?_, ?_, ?_, ?_, h.unknownFields⟩
  · intro hno
    refine h.vendorId ?_
    simpa [hasVendorId_eq, DeviceDescriptor.setSerialNumber, setHasSerialNumber] using hno
  · intro hno
    refine h.productId ?_
    simpa [hasProductId_eq, DeviceDescriptor.setSerialNumber, setHasSerialNumber] using hno
  · simp [hasSerialNumber_eq, DeviceDescriptor.setSerialNumber, setHasSerialNumber]
  · intro hno
    refine h.path ?_
    simpa [hasPath_eq, DeviceDescriptor.setSerialNumber, setHasSerialNumber] using hno

theorem Valid.setPath (h : m.Valid W depth) (v : List UInt8) : (m.setPath v).Valid W depth := by
  refine ⟨?_, ?_, ?_, ?_, h.unknownFields⟩
  · intro hno
    refine h.vendorId ?_
    simpa [hasVendorId_eq, DeviceDescriptor.setPath, setHasPath] using hno
  · intro hno
    refine h.productId ?_
    simpa [hasProductId_eq, DeviceDescriptor.setPath, setHasPath] using hno
  · intro hno
    refine h.serialNumber ?_
    simpa [hasSerialNumber_eq, DeviceDescriptor.setPath, setHasPath] using hno
  · simp [hasPath_eq, DeviceDescriptor.setPath, setHasPath]

theorem Valid.addUnknown (h : m.Valid W depth) {f : F} (hf : (parser W.plain).Foreign W depth f) :
    ({ m with unknownFields := m.unknownFields ++ [f] } : DeviceDescriptor F).Valid W depth := by
  refine ⟨h.vendorId, h.productId, h.serialNumber, h.path, ?_⟩
  intro g hg
  rcases List.mem_append.mp hg with hg | hg
  · exact h.unknownFields g hg
  · obtain rfl := List.mem_singleton.mp hg
    exact hf

theorem Valid.byteSize (h : m.Valid W depth) : (m.byteSize W).2.Valid W depth :=
  ⟨h.vendorId, h.productId, h.serialNumber, h.path, h.unknownFields⟩

end Setters

/-! ## The operations on contents -/

variable {W : WireFormat F} {depth : Nat}

/-- Nothing is present when no presence bit is set. -/
theorem absent {m : DeviceDescriptor F} (h : (m.hasBits_ &&& 0xff#32 != 0#32) = false) :
    m.hasVendorId = false ∧ m.hasProductId = false ∧ m.hasSerialNumber = false ∧
      m.hasPath = false := by
  rw [hasVendorId_eq, hasProductId_eq, hasSerialNumber_eq, hasPath_eq]
  exact ⟨masked_out h rfl, masked_out h rfl, masked_out h rfl, masked_out h rfl⟩

theorem valid_new : (new : DeviceDescriptor F).Valid W depth :=
  ⟨fun _ => rfl, fun _ => rfl, fun _ => rfl, fun _ => rfl, fun _ h => (List.not_mem_nil h).elim⟩

theorem contents_bare {m : DeviceDescriptor F} (h : m.hasBits_ = 0#32) (hu : m.unknownFields = []) :
    m.contents = 0 := by
  simp [contents, hasVendorId_eq, hasProductId_eq, hasSerialNumber_eq, hasPath_eq, h, hu]

theorem contents_new : (new : DeviceDescriptor F).contents = 0 := contents_bare rfl rfl

theorem contents_clear (m : DeviceDescriptor F) : m.clear.contents = 0 := contents_bare rfl rfl

theorem cleared_string (s : Option (List UInt8)) :
    (s.map fun _ => ([] : List UInt8)).getD [] = [] := by
  cases s <;> rfl

/-- `Clear` leaves every field at its default, the skipped ones as well. -/
theorem valid_clear {m : DeviceDescriptor F} (h : m.Valid W depth) : m.clear.Valid W depth := by
  have hdefault : m.clear.vendorId = 0 ∧ m.clear.productId = 0 ∧ m.clear.serialNumber = [] ∧
      m.clear.path = [] := by
    simp only [clear, vendorId, productId, serialNumber, path]
    cases hbits : m.hasBits_ &&& 0xff#32 != 0#32 with
    | false =>
      obtain ⟨hv, hp, hs, hpath⟩ := absent hbits
      exact ⟨h.vendorId hv, h.productId hp, h.serialNumber hs, h.path hpath⟩
    | true =>
      refine ⟨rfl, rfl, ?_, ?_⟩
      · cases hs : m.hasSerialNumber with
        | false => exact h.serialNumber hs
        | true => exact cleared_string m.serialNumber_
      · cases hpath : m.hasPath with
        | false => exact h.path hpath
        | true => exact cleared_string m.path_
  obtain ⟨hv, hp, hs, hpath⟩ := hdefault
  exact ⟨fun _ => hv, fun _ => hp, fun _ => hs, fun _ => hpath, fun _ h => (List.not_mem_nil h).elim⟩

theorem contents_addUnknown (m : DeviceDescriptor F) (fields : List F) :
    ({ m with unknownFields := m.unknownFields ++ fields } : DeviceDescriptor F).contents =
      m.contents + ⟨none, none, none, none, fields⟩ := by
  simp [contents, hasVendorId_eq, hasProductId_eq, hasSerialNumber_eq, hasPath_eq, vendorId,
    productId, serialNumber, path]

/-- A message is its fields, one on top of the other. -/
theorem contents_eq (m : DeviceDescriptor F) :
    m.contents = (if m.hasVendorId then ⟨some m.vendorId, none, none, none, []⟩ else 0) +
      (if m.hasProductId then ⟨none, some m.productId, none, none, []⟩ else 0) +
      (if m.hasSerialNumber then ⟨none, none, some m.serialNumber, none, []⟩ else 0) +
      (if m.hasPath then ⟨none, none, none, some m.path, []⟩ else 0) +
      ⟨none, none, none, none, m.unknownFields⟩ := by
  unfold contents
  cases m.hasVendorId <;> cases m.hasProductId <;> cases m.hasSerialNumber <;>
    cases m.hasPath <;> simp

theorem contents_ite {b : Bool} {m m' : DeviceDescriptor F} {v : DeviceContents F}
    (h : m'.contents = m.contents + v) :
    (if b then m' else m).contents = m.contents + if b then v else 0 := by
  cases b with
  | false => exact (add_zero _).symm
  | true => exact h

theorem contents_mergeFrom (m source : DeviceDescriptor F) :
    (m.mergeFrom source).contents = m.contents + source.contents := by
  unfold mergeFrom
  rw [contents_addUnknown, contents_eq source]
  cases hbits : source.hasBits_ &&& 0xff#32 != 0#32 with
  | false =>
    obtain ⟨hv, hp, hs, hpath⟩ := absent hbits
    simp [hv, hp, hs, hpath]
  | true =>
    simp only [if_true, contents_ite (contents_setPath _ _),
      contents_ite (contents_setSerialNumber _ _), contents_ite (contents_setProductId _ _),
      contents_ite (contents_setVendorId _ _), add_assoc]

theorem Valid.ite {b : Bool} {m m' : DeviceDescriptor F} (hm' : m'.Valid W depth) (hm : m.Valid W depth) :
    (if b then m' else m).Valid W depth := by
  cases b with
  | false => exact hm
  | true => exact hm'

theorem valid_mergeFrom {m source : DeviceDescriptor F} (hm : m.Valid W depth) (hs : source.Valid W depth) :
    (m.mergeFrom source).Valid W depth := by
  have hfields : ∀ {m' : DeviceDescriptor F}, m'.Valid W depth →
      ({ m' with unknownFields := m'.unknownFields ++ source.unknownFields }).Valid W depth := by
    intro m' hm'
    refine ⟨hm'.vendorId, hm'.productId, hm'.serialNumber, hm'.path, ?_⟩
    intro f hf
    rcases List.mem_append.mp hf with hf | hf
    · exact hm'.unknownFields f hf
    · exact hs.unknownFields f hf
  have h₁ := (hm.setVendorId source.vendorId).ite (b := source.hasVendorId) hm
  have h₂ := (h₁.setProductId source.productId).ite (b := source.hasProductId) h₁
  have h₃ := (h₂.setSerialNumber source.serialNumber).ite (b := source.hasSerialNumber) h₂
  have h₄ := (h₃.setPath source.path).ite (b := source.hasPath) h₃
  exact hfields (h₄.ite hm)

/-! ## Parsing -/

variable {σ : Type} {S : CodedInputStream σ F} {At : σ → Cursor → Prop}

theorem parser_agrees (hS : S.Lawful W At) :
    (parser S).Agrees At (parser (F := F) W.plain) where
  missing n := by
    rcases n with _ | _ | _ | _ | _ | n
    · exact iff_of_true rfl rfl
    · exact iff_of_false (by rintro ⟨⟩) (by rintro ⟨⟩)
    · exact iff_of_false (by rintro ⟨⟩) (by rintro ⟨⟩)
    · exact iff_of_false (by rintro ⟨⟩) (by rintro ⟨⟩)
    · exact iff_of_false (by rintro ⟨⟩) (by rintro ⟨⟩)
    · exact iff_of_true rfl rfl
  fields n c d hc hd := by
    rcases n with _ | _ | _ | _ | _ | n
    · cases hc
    · cases hc
      cases hd
      exact ⟨rfl, rfl, rfl, fun m s t hat => (hS.readUInt32 hat).put _ _⟩
    · cases hc
      cases hd
      exact ⟨rfl, rfl, rfl, fun m s t hat => (hS.readUInt32 hat).put _ _⟩
    · cases hc
      cases hd
      exact ⟨rfl, rfl, rfl, fun m s t hat => (hS.readString _ hat).put _ _⟩
    · cases hc
      cases hd
      exact ⟨rfl, rfl, rfl, fun m s t hat => (hS.readString _ hat).put _ _⟩
    · cases hc
  addUnknown := rfl

/-- What the setters and an unknown field keep, every field of the switch keeps. -/
theorem parser_keeps {I : DeviceDescriptor F → Prop} (hv : ∀ m v, I m → I (m.setVendorId v))
    (hp : ∀ m v, I m → I (m.setProductId v)) (hs : ∀ m v, I m → I (m.setSerialNumber v))
    (hpath : ∀ m v, I m → I (m.setPath v))
    (hu : ∀ m f, I m → (parser W.plain).Foreign W depth f →
      I { m with unknownFields := m.unknownFields ++ [f] }) :
    (parser (F := F) W.plain).Keeps W depth I where
  read n d hd m c _ hm := by
    rcases n with _ | _ | _ | _ | _ | n
    · cases hd
    · cases hd
      exact readUInt32_keeps (fun _ => hm) (fun v => hv m v hm) c
    · cases hd
      exact readUInt32_keeps (fun _ => hm) (fun v => hp m v hm) c
    · cases hd
      exact readString_keeps (fun v => hs m v hm) (fun v => hs m v hm) W.torn _ c
    · cases hd
      exact readString_keeps (fun v => hpath m v hm) (fun v => hpath m v hm) W.torn _ c
    · cases hd
  addUnknown m f hm hf := hu m f hm hf

theorem parser_regular : (parser (F := F) W.plain).Regular W where
  keeps := parser_keeps (fun _ _ _ => trivial) (fun _ _ _ => trivial) (fun _ _ _ => trivial)
    (fun _ _ _ => trivial) (fun _ _ _ _ => trivial)
  threaded n c hc tag n' hmem := by
    rcases n with _ | _ | _ | _ | _ | n
    · cases hc
    · cases hc
      cases List.mem_singleton.mp hmem
      exact ⟨by decide, rfl⟩
    · cases hc
      cases List.mem_singleton.mp hmem
      exact ⟨by decide, rfl⟩
    · cases hc
      cases List.mem_singleton.mp hmem
      exact ⟨by decide, rfl⟩
    · cases hc
      exact (List.not_mem_nil hmem).elim
    · cases hc

/-- Whatever is read, or read in part, goes on top of what the object held. -/
theorem parser_grows (m₀ : DeviceDescriptor F) :
    (parser (F := F) W.plain).Keeps W depth (Grows contents (Valid W depth) m₀) :=
  parser_keeps (fun m v h => h.put (h.valid.setVendorId v) (contents_setVendorId m v))
    (fun m v h => h.put (h.valid.setProductId v) (contents_setProductId m v))
    (fun m v h => h.put (h.valid.setSerialNumber v) (contents_setSerialNumber m v))
    (fun m v h => h.put (h.valid.setPath v) (contents_setPath m v))
    (fun m f h hf => h.put (h.valid.addUnknown hf) (contents_addUnknown m [f]))

/-! ## Serializing -/

theorem writeUnknown_if (W : WireFormat F) (fields : List F) :
    (if fields ≠ [] then W.writeUnknown fields else []) = W.writeUnknown fields := by
  cases fields with
  | nil => rfl
  | cons f fields => exact if_pos (List.cons_ne_nil f fields)

theorem unknownSize_if {fields : List F} {total : Nat}
    (h : (W.writeUnknown fields).length < 2 ^ 32) (ht : total < 2 ^ 32) :
    (if fields ≠ [] then int32 (total + int32 (W.writeUnknown fields).length) else total) =
      int32 (total + (W.writeUnknown fields).length) := by
  cases fields with
  | nil => exact (Nat.mod_eq_of_lt ht).symm
  | cons f fields =>
    have hint : int32 (W.writeUnknown (f :: fields)).length = (W.writeUnknown (f :: fields)).length :=
      Nat.mod_eq_of_lt h
    rw [if_pos (List.cons_ne_nil f fields), hint]

/-- The sizes of the fields add up to that of the message, if that is an `int`. -/
theorem byteSize_eq {m : DeviceDescriptor F} (h : (m.serializeWithCachedSizes W).length < 2 ^ 31) :
    (m.byteSize W).1 = (m.serializeWithCachedSizes W).length := by
  unfold serializeWithCachedSizes at h ⊢
  simp only [List.length_append, writeUnknown_if] at h ⊢
  simp only [byteSize]
  cases hbits : m.hasBits_ &&& 0xff#32 != 0#32 with
  | false =>
    obtain ⟨hv, hp, hs, hpath⟩ := absent hbits
    simp only [hv, hp, hs, hpath, Bool.false_eq_true, if_false, List.length_nil] at h ⊢
    rw [unknownSize_if (by omega) (by omega)]
    exact Nat.mod_eq_of_lt (by omega)
  | true =>
    have hv := length_writeUInt32 (show 1 < 16 by omega) m.vendorId
    have hp := length_writeUInt32 (show 2 < 16 by omega) m.productId
    have hs : m.hasSerialNumber = true →
        (writeString 3 m.serialNumber).length = 1 + stringSize m.serialNumber := by
      intro hhas
      rw [if_pos hhas] at h
      exact length_writeString (by omega) (by omega)
    have hpath : m.hasPath = true → (writeString 4 m.path).length = 1 + stringSize m.path := by
      intro hhas
      rw [if_pos hhas] at h
      exact length_writeString (by omega) (by omega)
    simp only [if_true]
    rw [int32_field (fun _ => hv) (by omega), int32_field (fun _ => hp) (by omega),
      int32_field hs (by omega), int32_field hpath (by omega),
      unknownSize_if (by omega) (by omega), Nat.zero_add]
    exact Nat.mod_eq_of_lt (by omega)

theorem serialize_yields (hW : W.Sound) {x : DeviceDescriptor F} (hx : x.Valid W depth)
    (h : (x.serializeWithCachedSizes W).length < 2 ^ 31) :
    Yields W (parser W.plain) contents (Valid W depth) depth (x.serializeWithCachedSizes W)
      x.contents := by
  unfold serializeWithCachedSizes at h ⊢
  simp only [List.length_append] at h
  rw [contents_eq, writeUnknown_if]
  refine ((((yields_if ?_).append (yields_if ?_)).append (yields_if ?_)).append (yields_if ?_)).append
    ?_
  · intro _
    exact yields_uint32 hW parser_regular (by omega) (by omega) rfl rfl (fun _ _ => rfl)
      fun m hm => ⟨hm.setVendorId _, contents_setVendorId m _⟩
  · intro _
    exact yields_uint32 hW parser_regular (by omega) (by omega) rfl rfl (fun _ _ => rfl)
      fun m hm => ⟨hm.setProductId _, contents_setProductId m _⟩
  · intro hs
    rw [if_pos hs] at h
    have hle := le_length_writeString 3 x.serialNumber
    exact yields_string hW parser_regular (by omega) (by omega) rfl rfl (fun _ _ => rfl) (by omega)
      fun m hm => ⟨hm.setSerialNumber _, contents_setSerialNumber m _⟩
  · intro hp
    rw [if_pos hp] at h
    have hle := le_length_writeString 4 x.path
    exact yields_string hW parser_regular (by omega) (by omega) rfl rfl (fun _ _ => rfl) (by omega)
      fun m hm => ⟨hm.setPath _, contents_setPath m _⟩
  · rw [← sum_map_eq (v := fun f => (⟨none, none, none, none, [f]⟩ : DeviceContents F))
      (f := fun fields => ⟨none, none, none, none, fields⟩) rfl fun _ _ => rfl]
    refine yields_unknown hW parser_regular hx.unknownFields ?_
    intro m f hf hm
    exact ⟨hm.addUnknown (hx.unknownFields f hf), contents_addUnknown m [f]⟩

/-- **The generated class is that of device descriptors**: the operations on its objects are those on
contents, and what it writes, it reads. -/
theorem lawful (hW : W.Sound) (depth : Nat) :
    (messageClass W).Lawful W contents (Valid W depth) depth where
  valid_new := valid_new
  view_new := contents_new
  valid_clear := valid_clear
  view_clear _ := contents_clear _
  valid_mergeFrom := valid_mergeFrom
  view_mergeFrom _ _ := contents_mergeFrom _ _
  valid_byteSize h := h.byteSize
  view_byteSize _ := rfl
  byteSize _ h := ⟨byteSize_eq h, byteSize_eq h⟩
  reads hS _ _ _ hat :=
    parse_rel hS hW (parser_agrees hS) parser_regular.threaded parser_regular.shrinks hat
  finishes _ _ := parse_keeps hW parser_regular.keeps trivial (Nat.zero_le _)
  grows h _ hc := parse_keeps hW (parser_grows _) (Grows.refl h) hc
  yields hm hx h ho b := (serialize_yields hW hx h).parse ho b hm
  isInitialized _ _ _ := rfl

end DeviceDescriptor

end TrezorPlugin.Pb
