import TrezorPlugin.Apis
import TrezorPlugin.ConfigurationPb

/-!
# Configurations in and out (config.pb.cc, plugin.cpp, apis.cpp)

What the classes of config.pb.cc promise their users, whatever the objects have
been used for before: serializing and parsing, copying, and the configuration
that `configure` stores for a body it was given in hex.

    parse (serialize x) shows what x shows                    (parse_serialized)
    parse (serialize x ++ rest) holds x below what rest adds  (parse_behind)
    copyFrom m source shows what source shows                 (copy_shows_source)
-/

namespace TrezorPlugin.Pb

open Wire

variable {F D V : Type}

/-! ## Objects in use -/

/-- The setters of `DeviceDescriptor`. -/
inductive DeviceDescriptor.Set : DeviceDescriptor F → DeviceDescriptor F → Prop
  | vendorId (m) (v : UInt32) : Set m (m.setVendorId v)
  | productId (m) (v : UInt32) : Set m (m.setProductId v)
  | serialNumber (m) (v : List UInt8) : Set m (m.setSerialNumber v)
  | path (m) (v : List UInt8) : Set m (m.setPath v)

/-- `d` has become `d'` by use, and could be read as a message inside of another. -/
structure DeviceDescriptor.Becomes (W : WireFormat F) (d d' : DeviceDescriptor F) : Prop where
  uses : (messageClass W).Uses W DeviceDescriptor.Set d d'
  fits : ∀ f ∈ d'.unknownFields, W.Fits 1 f

/-- The setters of `Configuration`, for elements that there are; a message behind a pointer is used as
its class allows. -/
inductive Configuration.Set (PValid : D → Prop) (P : MessageClass D F) (W : WireFormat F) :
    Configuration F D → Configuration F D → Prop
  | setWhitelistUrls (m) (i : Nat) (v : List UInt8) : i < m.whitelistUrls_.length →
      Set PValid P W m (m.setWhitelistUrls i v)
  | addWhitelistUrls (m) (v : List UInt8) : Set PValid P W m (m.addWhitelistUrls v)
  | setBlacklistUrls (m) (i : Nat) (v : List UInt8) : i < m.blacklistUrls_.length →
      Set PValid P W m (m.setBlacklistUrls i v)
  | addBlacklistUrls (m) (v : List UInt8) : Set PValid P W m (m.addBlacklistUrls v)
  | mutableWireProtocol (m) (f : D → D) : (∀ w, PValid w → PValid (f w)) →
      Set PValid P W m (m.mutableWireProtocol P f)
  | mutableKnownDevices (m) (i : Nat) (d d' : DeviceDescriptor F) : m.knownDevices_[i]? = some d →
      d.Becomes W d' → Set PValid P W m (m.mutableKnownDevices i d')
  | addKnownDevices (m) (d : DeviceDescriptor F) : DeviceDescriptor.new.Becomes W d →
      Set PValid P W m (m.addKnownDevices d)
  | setValidUntil (m) (v : UInt32) : Set PValid P W m (m.setValidUntil v)

/-- A `Configuration` after any use of its class. -/
def Configuration.Object (PValid : D → Prop) (P : MessageClass D F) (W : WireFormat F) :
    Configuration F D → Prop :=
  (messageClass P W).Built W (Configuration.Set PValid P W)

/-- What the accessors of a `DeviceDescriptor` show. -/
structure DeviceShown (F : Type) where
  hasVendorId : Bool
  vendorId : UInt32
  hasProductId : Bool
  productId : UInt32
  hasSerialNumber : Bool
  serialNumber : List UInt8
  hasPath : Bool
  path : List UInt8
  unknownFields : List F
  deriving DecidableEq

def DeviceDescriptor.shown (m : DeviceDescriptor F) : DeviceShown F where
  hasVendorId := m.hasVendorId
  vendorId := m.vendorId
  hasProductId := m.hasProductId
  productId := m.productId
  hasSerialNumber := m.hasSerialNumber
  serialNumber := m.serialNumber
  hasPath := m.hasPath
  path := m.path
  unknownFields := m.unknownFields

/-- What the accessors of a `Configuration` show. -/
structure ConfigurationShown (F V : Type) where
  whitelistUrls : List (List UInt8)
  blacklistUrls : List (List UInt8)
  hasWireProtocol : Bool
  wireProtocol : V
  knownDevices : List (DeviceShown F)
  hasValidUntil : Bool
  validUntil : UInt32
  unknownFields : List F
  deriving DecidableEq

def Configuration.shown (P : MessageClass D F) (view : D → V) (m : Configuration F D) :
    ConfigurationShown F V where
  whitelistUrls := m.whitelistUrls_
  blacklistUrls := m.blacklistUrls_
  hasWireProtocol := m.hasWireProtocol
  wireProtocol := view (m.wireProtocol P)
  knownDevices := m.knownDevices_.map (·.shown)
  hasValidUntil := m.hasValidUntil
  validUntil := m.validUntil
  unknownFields := m.unknownFields

theorem DeviceDescriptor.Valid.becomes {W : WireFormat F} (hW : W.Sound)
    {d d' : DeviceDescriptor F} (hd : d.Valid W 1) (h : d.Becomes W d') : d'.Valid W 1 := by
  have hd₀ : d.Valid W 0 := ⟨hd.vendorId, hd.productId, hd.serialNumber, hd.path, fun f hf =>
    ⟨(hd.unknownFields f hf).unmatched, (hd.unknownFields f hf).fits.mono hW (Nat.zero_le 1)⟩⟩
  have hd' : d'.Valid W 0 := by
    refine h.uses.valid (DeviceDescriptor.lawful hW 0) ?_ hd₀
    rintro m m' (_ | _ | _ | _) hm
    · exact hm.setVendorId _
    · exact hm.setProductId _
    · exact hm.setSerialNumber _
    · exact hm.setPath _
  exact ⟨hd'.vendorId, hd'.productId, hd'.serialNumber, hd'.path, fun f hf =>
    ⟨(hd'.unknownFields f hf).unmatched, h.fits f hf⟩⟩

/-- What the contents of a device descriptor show, absent fields by their defaults. -/
def DeviceContents.shown (c : DeviceContents F) : DeviceShown F where
  hasVendorId := c.vendorId.isSome
  vendorId := c.vendorId.getD 0
  hasProductId := c.productId.isSome
  productId := c.productId.getD 0
  hasSerialNumber := c.serialNumber.isSome
  serialNumber := c.serialNumber.getD []
  hasPath := c.path.isSome
  path := c.path.getD []
  unknownFields := c.unknownFields

theorem isSome_if {α : Type} (b : Bool) (a : α) : (if b then some a else none).isSome = b := by
  cases b <;> rfl

theorem getD_if {α : Type} {b : Bool} {a dflt : α} (h : b = false → a = dflt) :
    (if b then some a else none).getD dflt = a := by
  cases b with
  | false => exact (h rfl).symm
  | true => rfl

theorem DeviceDescriptor.shown_contents {W : WireFormat F} {depth : Nat} {m : DeviceDescriptor F}
    (h : m.Valid W depth) : m.contents.shown = m.shown := by
  simp only [DeviceContents.shown, contents, shown, isSome_if, getD_if h.vendorId,
    getD_if h.productId, getD_if h.serialNumber, getD_if h.path]

/-! ## A small configuration -/

/-- On the empty message all classes do the same: that of device descriptors, for the file
descriptor set of the configuration below. -/
def emptyClass : MessageClass (DeviceDescriptor UnknownField) UnknownField :=
  DeviceDescriptor.messageClass smallFormat

abbrev SmallConfiguration : Type := Configuration UnknownField (DeviceDescriptor UnknownField)

/-- One known device. -/
def knownDevice : DeviceDescriptor UnknownField :=
  (DeviceDescriptor.new.setVendorId 0x534c).setProductId 1

/-- One page, an empty wire protocol, one device and a date. -/
def pageConfiguration : SmallConfiguration :=
  let m : SmallConfiguration := Configuration.new.addWhitelistUrls [112, 97, 103, 101]
  ((m.mutableWireProtocol emptyClass fun w => w).addKnownDevices knownDevice).setValidUntil 300

def pageBytes : List UInt8 :=
  (Configuration.messageClass emptyClass smallFormat).serializeToArray pageConfiguration

abbrev SmallObject (m : SmallConfiguration) : Prop :=
  m.Object (DeviceDescriptor.Valid smallFormat 1) emptyClass smallFormat

theorem emptyClass_lawful :
    emptyClass.Lawful smallFormat DeviceDescriptor.contents (DeviceDescriptor.Valid smallFormat 1)
      1 :=
  DeviceDescriptor.lawful smallFormat_sound 1

theorem pageConfiguration_object : SmallObject pageConfiguration := by
  have hdevice : DeviceDescriptor.new.Becomes smallFormat knownDevice :=
    ⟨.set (.set (.refl _) (.vendorId _ _)) (.productId _ _),
      fun _ hf => (List.not_mem_nil hf).elim⟩
  have hwire : SmallObject _ := .set (.set (.refl _) (.addWhitelistUrls _ [112, 97, 103, 101]))
    (.mutableWireProtocol _ _ fun _ h => h)
  exact .set (.set hwire (.addKnownDevices _ _ hdevice)) (.setValidUntil _ _)

theorem pageBytes_fits : pageBytes.length < 2 ^ 31 := by decide +kernel

/-! ## Reading and writing -/

section Use

variable [AddMonoid V] {P : MessageClass D F} {view : D → V} {PValid : D → Prop} {W : WireFormat F}
  {depth : Nat}

/-- What the contents of a configuration show. -/
def ConfigurationContents.shown (c : ConfigurationContents F V) : ConfigurationShown F V where
  whitelistUrls := c.whitelistUrls
  blacklistUrls := c.blacklistUrls
  hasWireProtocol := c.wireProtocol.isSome
  wireProtocol := c.wireProtocol.getD 0
  knownDevices := c.knownDevices.map (·.shown)
  hasValidUntil := c.validUntil.isSome
  validUntil := c.validUntil.getD 0
  unknownFields := c.unknownFields

theorem Configuration.shown_contents {m : Configuration F D} (h : m.Valid P view PValid W depth) :
    (m.contents P view).shown = m.shown P view := by
  have hknown : (m.knownDevices_.map (·.contents)).map (·.shown) =
      m.knownDevices_.map (·.shown) := by
    rw [List.map_map]
    exact List.map_congr_left fun d hd => DeviceDescriptor.shown_contents (h.knownDevices d hd)
  simp only [ConfigurationContents.shown, contents, shown, isSome_if, getD_if h.wireProtocol,
    getD_if h.validUntil, hknown]

theorem Configuration.Object.valid (hP : P.Lawful W view PValid 1) (hW : W.Sound)
    (hdepth : 0 < W.depth) {m : Configuration F D} (h : m.Object PValid P W) :
    m.Valid P view PValid W 0 := by
  have hclass := Configuration.lawful hP hW hdepth
  refine MessageClass.Uses.valid hclass ?_ h hclass.valid_new
  rintro m m' (_ | _ | _ | _ | ⟨f, hf⟩ | ⟨i, d, d', hd, hbecomes⟩ | ⟨d, hbecomes⟩ | _) hm
  · exact hm.setWhitelistUrls _ _
  · exact hm.addWhitelistUrls _
  · exact hm.setBlacklistUrls _ _
  · exact hm.addBlacklistUrls _
  · exact hm.mutableWireProtocol (hf _ hm.wireProtocol_valid)
  · exact hm.mutableKnownDevices i
      ((hm.knownDevices d (List.mem_of_getElem? hd)).becomes hW hbecomes)
  · exact hm.addKnownDevices (DeviceDescriptor.valid_new.becomes hW hbecomes)
  · exact hm.setValidUntil _

variable {σ τ : Type} {S : CodedInputStream σ F} {S' : CodedInputStream τ F}
  {At : σ → Cursor → Prop} {At' : τ → Cursor → Prop}

/-- **The `goto`s are an optimisation.**  The parser of `Configuration`, over any stream, leaves the
same message and returns the same as the loop that reads every tag with `ReadTag`, over any other
stream of the same bytes; both come to an end, and are then at the same place, unless what stands there
is no tag and no end. -/
theorem goto_loop (hP : P.Lawful W view PValid depth) (hW : W.Sound) (hS : S.Lawful W At)
    (hS' : S'.Lawful W At') (m : Configuration F D) {s : σ} {s' : τ} {c : Cursor} (hat : At s c)
    (hat' : At' s' c) :
    Outcome.Rel (fun s s' => (∃ c, At s c ∧ At' s' c) ∨
        S.consumedEntireMessage s = false ∧ S'.consumedEntireMessage s' = false)
      (Configuration.mergePartialFromCodedStream P S m s)
      ((Configuration.parser P S').loop.parse S' m s') :=
  parse_loop_rel hS hS' hW (Configuration.parser_agrees hP hS hW)
    (Configuration.parser_agrees hP hS' hW) (Configuration.parser_regular hP hW).threaded
    (Configuration.parser_regular hP hW).shrinks hat hat'

theorem goto_loop_page :
    Outcome.Rel (fun s s' => (∃ c, s = c ∧ s' = c) ∨ s.ended = false ∧ s'.ended = false)
      (Configuration.mergePartialFromCodedStream emptyClass smallFormat.buffered
        (Configuration.new : SmallConfiguration) ⟨pageBytes, [], false⟩)
      ((Configuration.parser emptyClass smallFormat.plain).loop.parse smallFormat.plain
        Configuration.new ⟨pageBytes, [], false⟩) :=
  goto_loop emptyClass_lawful smallFormat_sound (buffered_lawful smallFormat)
    (plain_lawful smallFormat) Configuration.new rfl rfl

/-- **Configurations round trip.**  An object of any history is serialized, and the bytes are parsed
into another one of any history, from any stream: it shows the same, and `ParseFromArray` returns
whether the configuration is complete. -/
theorem parse_serialized (hP : P.Lawful W view PValid 1) (hW : W.Sound) (hdepth : 0 < W.depth)
    (hS : S.Lawful W At) {m x : Configuration F D} (hm : m.Object PValid P W)
    (hx : x.Object PValid P W)
    (hsize : ((Configuration.messageClass P W).serializeToArray x).length < 2 ^ 31) {input : σ}
    (hat : At input ⟨(Configuration.messageClass P W).serializeToArray x, [], false⟩) :
    ((Configuration.messageClass P W).parseFromArray S m input).1.shown P view = x.shown P view ∧
      ((Configuration.messageClass P W).parseFromArray S m input).2 = x.isInitialized P := by
  have hclass := Configuration.lawful hP hW hdepth
  have hxv := hx.valid hP hW hdepth
  obtain ⟨hvalid, hview, hinit⟩ :=
    parseFromArray_serializeToArray hclass hS (hm.valid hP hW hdepth) hxv hsize hat
  refine ⟨?_, hinit⟩
  rw [← Configuration.shown_contents hvalid, ← Configuration.shown_contents hxv, hview]

theorem parse_serialized_page :
    let C := Configuration.messageClass emptyClass smallFormat
    let r := C.parseFromArray smallFormat.buffered pageConfiguration ⟨pageBytes, [], false⟩
    r.1.shown emptyClass DeviceDescriptor.contents =
      pageConfiguration.shown emptyClass DeviceDescriptor.contents ∧ r.2 = true := by
  have hinit : pageConfiguration.isInitialized emptyClass = true := by decide +kernel
  have h := parse_serialized emptyClass_lawful smallFormat_sound (by decide)
    (buffered_lawful smallFormat) pageConfiguration_object pageConfiguration_object pageBytes_fits
    rfl
  rwa [hinit] at h

/-- **What stands behind a serialized configuration goes on top of it.**  Whether the bytes behind it
are well formed or not, the object holds all of the configuration below what they added; and behind
it another one is merged into it. -/
theorem parse_behind (hP : P.Lawful W view PValid 1) (hW : W.Sound) (hdepth : 0 < W.depth)
    (hS : S.Lawful W At) {m x : Configuration F D} (hm : m.Object PValid P W)
    (hx : x.Object PValid P W)
    (hsize : ((Configuration.messageClass P W).serializeToArray x).length < 2 ^ 31)
    {rest : List UInt8} {input : σ}
    (hat : At input ⟨(Configuration.messageClass P W).serializeToArray x ++ rest, [], false⟩) :
    (∃ v, ((Configuration.messageClass P W).parseFromArray S m input).1.contents P view =
      x.contents P view + v) ∧
    ∀ y : Configuration F D, y.Object PValid P W →
      rest = (Configuration.messageClass P W).serializeToArray y → rest.length < 2 ^ 31 →
      ((Configuration.messageClass P W).parseFromArray S m input).1.shown P view =
        (x.mergeFrom P y).shown P view ∧
      ((Configuration.messageClass P W).parseFromArray S m input).2 =
        (x.mergeFrom P y).isInitialized P := by
  have hclass := Configuration.lawful hP hW hdepth
  have hmv := hm.valid hP hW hdepth
  have hxv := hx.valid hP hW hdepth
  obtain ⟨m', b, hm', hview, hparse⟩ := Configuration.serialize_yields hP hxv hW hdepth hsize
    (m.clear P) rest [] false rfl (hclass.valid_clear hmv)
  have hclear : (m.clear P).contents P view = 0 := Configuration.contents_clear m
  rw [hclear, zero_add] at hview
  rw [parseFromArray_eq hclass hS hat]
  have hrun : (Configuration.messageClass P W).mergePartialFromCodedStream W.plain (m.clear P)
      ⟨(Configuration.messageClass P W).serializeToArray x ++ rest, [], false⟩ =
      (Configuration.parser P W.plain).parse W.plain m' ⟨rest, [], b⟩ := hparse
  unfold MessageClass.parseFromArray
  rw [show (Configuration.messageClass P W).clear m = m.clear P from rfl, hrun]
  constructor
  · have hgrow := hclass.grows hm' ⟨rest, [], b⟩ (Nat.zero_le _)
    have hsame : (Configuration.messageClass P W).mergePartialFromCodedStream W.plain m'
        ⟨rest, [], b⟩ = (Configuration.parser P W.plain).parse W.plain m' ⟨rest, [], b⟩ := rfl
    rw [hsame] at hgrow
    cases hend : (Configuration.parser P W.plain).parse W.plain m' ⟨rest, [], b⟩ with
    | ok r c =>
      rw [hend] at hgrow
      obtain ⟨v, hv⟩ := hgrow.1.adds
      exact ⟨v, by rw [hv, hview]⟩
    | failed r =>
      rw [hend] at hgrow
      obtain ⟨v, hv⟩ := hgrow.adds
      exact ⟨v, by rw [hv, hview]⟩
    | unfinished =>
      rw [hend] at hgrow
      exact hgrow.elim
  · intro y hy hrest hfits
    have hyv := hy.valid hP hW hdepth
    have hmerged := hclass.valid_mergeFrom hxv hyv
    rw [hrest] at hfits ⊢
    obtain ⟨r, hr, hrv, hrview⟩ := (Configuration.serialize_yields hP hyv hW hdepth hfits).parse
      (@List.length_nil (List UInt8)) b hm'
    have hcontents : r.contents P view = (x.mergeFrom P y).contents P view := by
      rw [hrview, hview]
      exact (hclass.view_mergeFrom hxv hyv).symm
    rw [hr]
    refine ⟨?_, ?_⟩
    · show r.shown P view = _
      rw [← Configuration.shown_contents hrv, hcontents]
      exact Configuration.shown_contents hmerged
    · show (r.isInitialized P && true) = _
      rw [Bool.and_true]
      exact hclass.isInitialized hrv hmerged hcontents

theorem parse_behind_page :
    let C := Configuration.messageClass emptyClass smallFormat
    let r := C.parseFromArray smallFormat.buffered Configuration.new
      ⟨pageBytes ++ pageBytes, [], false⟩
    r.1.shown emptyClass DeviceDescriptor.contents =
      (pageConfiguration.mergeFrom emptyClass pageConfiguration).shown emptyClass
        DeviceDescriptor.contents :=
  ((parse_behind emptyClass_lawful smallFormat_sound (by decide) (buffered_lawful smallFormat) (.refl _)
    pageConfiguration_object pageBytes_fits rfl).2 _ pageConfiguration_object rfl
    pageBytes_fits).1

/-- **`CopyFrom` makes a copy**, whatever the target held: it shows what the source shows, absent
fields included; and a cleared object shows what a new one does. -/
theorem copy_shows_source (hP : P.Lawful W view PValid 1) (hW : W.Sound) (hdepth : 0 < W.depth)
    {m source : Configuration F D} (hm : m.Object PValid P W) (hs : source.Object PValid P W) :
    (m.copyFrom P source).shown P view = source.shown P view ∧
      (m.clear P).shown P view = (Configuration.new : Configuration F D).shown P view := by
  have hclass := Configuration.lawful hP hW hdepth
  have hmv := hm.valid hP hW hdepth
  have hsv := hs.valid hP hW hdepth
  have hcleared : (m.clear P).Valid P view PValid W 0 := hclass.valid_clear hmv
  have hnew : (Configuration.new : Configuration F D).Valid P view PValid W 0 := hclass.valid_new
  constructor
  · have hcopy : (m.copyFrom P source).contents P view = source.contents P view :=
      view_copyFrom hclass hmv hsv
    have hvalid : (m.copyFrom P source).Valid P view PValid W 0 := hclass.valid_mergeFrom hcleared hsv
    rw [← Configuration.shown_contents hvalid, ← Configuration.shown_contents hsv, hcopy]
  · rw [← Configuration.shown_contents hcleared, ← Configuration.shown_contents hnew,
      Configuration.contents_clear, Configuration.contents_new]

/-- Another page, with a date of its own. -/
def otherConfiguration : SmallConfiguration :=
  (Configuration.new.addWhitelistUrls [111]).setValidUntil 7

theorem otherConfiguration_object : SmallObject otherConfiguration :=
  .set (.set (.refl _) (.addWhitelistUrls _ _)) (.setValidUntil _ _)

/-- All that was set is replaced. -/
theorem copy_shows_source_page :
    (otherConfiguration.copyFrom emptyClass pageConfiguration).shown emptyClass
        DeviceDescriptor.contents =
      pageConfiguration.shown emptyClass DeviceDescriptor.contents :=
  (copy_shows_source emptyClass_lawful smallFormat_sound (by decide) otherConfiguration_object
    pageConfiguration_object).1

/-- **`ByteSize` is the size.**  For an object of any history, if the size fits an `int`: it is the
number of bytes that are written, the sizes cached for the nested messages are those of their bytes,
and nothing that is shown changes. -/
theorem byteSize_exact (hP : P.Lawful W view PValid 1) (hW : W.Sound) (hdepth : 0 < W.depth)
    {x : Configuration F D} (hx : x.Object PValid P W)
    (hsize : ((Configuration.messageClass P W).serializeToArray x).length < 2 ^ 31) :
    (x.byteSize P W).1 = ((Configuration.messageClass P W).serializeToArray x).length ∧
    (x.byteSize P W).2.cachedSize_ = (x.byteSize P W).1 ∧
    (∀ d ∈ (x.byteSize P W).2.knownDevices_,
      d.cachedSize_ = (d.serializeWithCachedSizes W).length) ∧
    (x.hasWireProtocol = true → P.getCachedSize ((x.byteSize P W).2.wireProtocol P) =
      (P.serializeWithCachedSizes ((x.byteSize P W).2.wireProtocol P)).length) ∧
    (x.byteSize P W).2.shown P view = x.shown P view := by
  have hxv := hx.valid hP hW hdepth
  obtain ⟨hvalid, hcontents⟩ := Configuration.byteSize_keeps hP hxv
  refine ⟨Configuration.byteSize_eq hP hxv hsize, rfl, ?_, ?_, ?_⟩
  · intro d hd
    obtain ⟨d₀, hd₀, rfl⟩ := List.mem_map.mp hd
    exact (Configuration.cached_knownDevices hxv hsize hd₀).2
  · intro hhas
    rw [Configuration.byteSize_wireProtocol hxv hhas]
    exact (Configuration.cached_wireProtocol hP hxv hsize hhas).2.2
  · rw [← Configuration.shown_contents hvalid, ← Configuration.shown_contents hxv, hcontents]

theorem byteSize_exact_page : (pageConfiguration.byteSize emptyClass smallFormat).1 = 19 := by
  have hlength : pageBytes.length = 19 := by decide +kernel
  rw [← hlength]
  exact (byteSize_exact emptyClass_lawful smallFormat_sound (by decide) pageConfiguration_object
    pageBytes_fits).1

end Use

/-! ## What `configure` stores -/

/-- A configuration as the plugin reads it, with its strings as text and its wire protocol as a list
of files. -/
def ConfigurationContents.read [Zero V] (text : List UInt8 → String) (fdset : V → FileDescriptorSet)
    (c : ConfigurationContents F V) : TrezorPlugin.Configuration where
  whitelistUrls := c.whitelistUrls.map text
  blacklistUrls := c.blacklistUrls.map text
  wireProtocol := fdset (c.wireProtocol.getD 0)
  knownDevices := c.knownDevices.map fun d =>
    ⟨d.vendorId, d.productId, d.serialNumber.map text, d.path.map text⟩
  validUntil := c.validUntil

section Configure

variable [AddMonoid V] {P : MessageClass D F} {view : D → V} {PValid : D → Prop} {W : WireFormat F}
  {σ : Type} {S : CodedInputStream σ F} {At : σ → Cursor → Prop} (text : List UInt8 → String)
  (fdset : V → FileDescriptorSet)

/-- The `ParseFromArray` of these libraries is the generated one, on a new object and a stream that
`input` opens. -/
def Generated (L : Libraries) (P : MessageClass D F) (view : D → V) (W : WireFormat F)
    (S : CodedInputStream σ F) (input : List UInt8 → σ) : Prop :=
  ∀ data, L.parseFromArray data =
    let r := (Configuration.messageClass P W).parseFromArray S .new (input data)
    ((r.1.contents P view).read text fdset, r.2)

variable {τ δ κ Msg Map : Type}

/-- **What was serialized and signed is what is stored.**  `configure` on the hex of a signature and a
serialized configuration stores that configuration and loads its wire protocol, when the signature is
right, the plugin is there and the configuration is admitted on the page; and otherwise it throws and
changes nothing. -/
theorem configure_serialized (hP : P.Lawful W view PValid 1) (hW : W.Sound) (hdepth : 0 < W.depth)
    (hS : S.Lawful W At) {input : List UInt8 → σ} (hat : ∀ data, At (input data) ⟨data, [], false⟩)
    {L : Libraries} (hL : Generated text fdset L P view W S input) {x : Configuration F D}
    (hx : x.Object PValid P W)
    (hsize : ((Configuration.messageClass P W).serializeToArray x).length < 2 ^ 31)
    {sig : List UInt8} (hsig : sig.length = signatureLength) (PB : Protobuf Msg) (i : Nat)
    (ctx : Context) (s : Process κ Map δ) :
    let body := (Configuration.messageClass P W).serializeToArray x
    let config := (x.contents P view).read text fdset
    let accepted := signatureVerify L (sig ++ body) body = true ∧ ctx.alive = true ∧
      Admitted L.regexMatch ctx config
    (accepted → PluginAPI.configure L PB i ctx (hexEncode (sig ++ body)) s =
      .ok () (s.configured PB i config)) ∧
    (¬ accepted → ∃ e, PluginAPI.configure L PB i ctx (hexEncode (sig ++ body)) s =
      .error (.throws e) s) := by
  intro body config accepted
  have hdrop : (sig ++ body).drop signatureLength = body := by
    rw [← hsig, List.drop_left]
  have hparse : (L.parseFromArray body).1 = config := by
    obtain ⟨-, hview, -⟩ := parseFromArray_serializeToArray (Configuration.lawful hP hW hdepth) hS
      (Configuration.valid_new hP) (hx.valid hP hW hdepth) hsize (hat body)
    rw [hL]
    exact congrArg (fun c => c.read text fdset) hview
  have hsigned : ∀ c, Signed L (hexEncode (sig ++ body)) c ↔
      signatureVerify L (sig ++ body) body = true ∧ c = config := by
    intro c
    rw [signatureVerify_eq_true]
    constructor
    · rintro ⟨bytes, hbytes, -, hkey, hc⟩
      rw [hexDecode_hexEncode] at hbytes
      cases hbytes
      rw [hdrop] at hkey hc
      exact ⟨hkey, hc.trans hparse⟩
    · rintro ⟨hkey, rfl⟩
      refine ⟨sig ++ body, hexDecode_hexEncode _, ?_, ?_, ?_⟩
      · rw [List.length_append, hsig]
        omega
      · rw [hdrop]
        exact hkey
      · rw [hdrop, hparse]
  rcases configure_grants L PB i ctx (hexEncode (sig ++ body)) s with ⟨c, hgranted, heq⟩ | ⟨hno, e, heq⟩
  · obtain ⟨halive, hs, hadmitted⟩ := hgranted
    obtain ⟨hverified, rfl⟩ := (hsigned c).mp hs
    exact ⟨fun _ => heq, fun hnot => absurd ⟨hverified, halive, hadmitted⟩ hnot⟩
  · refine ⟨?_, fun _ => ⟨e, heq⟩⟩
    rintro ⟨hverified, halive, hadmitted⟩
    exact absurd ⟨halive, (hsigned config).mpr ⟨hverified, rfl⟩, hadmitted⟩ (hno config)

/-- ASCII. -/
def asciiText (bytes : List UInt8) : String :=
  String.ofList (bytes.map fun b => Char.ofNat b.toNat)

/-- The libraries on `pageBytes` and the zero signature. -/
def pageLibraries : Libraries where
  PKey := Unit
  Key := Unit
  pemReadBioPubkey := zeroLibraries.pemReadBioPubkey
  evpPkeyGet1EcKey := zeroLibraries.evpPkeyGet1EcKey
  sha256 _ := [0x68, 0x8a, 0xf2, 0x14, 0xc2, 0xce, 0xf7, 0x84, 0xde, 0x6e, 0x15, 0xb7, 0x93, 0xa4,
    0x7e, 0x6a, 0xf1, 0xd6, 0x06, 0x3c, 0xa5, 0x37, 0xd6, 0x37, 0xbc, 0xd0, 0x14, 0x28, 0x03, 0x3a,
    0x69, 0xa9]
  ecdsaDoVerify := zeroLibraries.ecdsaDoVerify
  regexMatch := zeroLibraries.regexMatch
  parseFromArray data :=
    let r := (Configuration.messageClass emptyClass smallFormat).parseFromArray smallFormat.buffered
      .new ⟨data, [], false⟩
    ((r.1.contents emptyClass DeviceDescriptor.contents).read asciiText fun _ => [], r.2)

theorem configure_serialized_page :
    ∃ e, PluginAPI.configure pageLibraries rawProtobuf 0 page
        (hexEncode (List.replicate 64 0 ++ pageBytes))
        (Process.new pingPool 0 : Process Nat (List UInt8) Nat) =
      .error (.throws e) (Process.new pingPool 0) := by
  refine (configure_serialized asciiText (fun _ => []) emptyClass_lawful smallFormat_sound (by decide)
    (buffered_lawful smallFormat) (fun _ => rfl) (fun _ => rfl) pageConfiguration_object
    pageBytes_fits rfl rawProtobuf 0 page _).2 ?_
  rintro ⟨hverified, -⟩
  revert hverified
  decide +kernel

end Configure

end TrezorPlugin.Pb
