import TrezorPlugin.Hdnode

/-!
# Sound derivation

`Given` says of the page's map, and `Describes` of the returned one, which numbers and
bytes its entries are.  A derivation is sound if it throws, or if the returned map
describes the child of the node that was given:

    Given map (depth, …, public_key)
    Describes map' (hdnode_public_ckd (hdnode_from_xpub depth … public_key) index)

The entries of the five fields are the numbers of the child and the hex of its bytes, and the
others say what the page's say.  The code is sound exactly when the strings are long
enough for what is read from them and the library does not refuse
(`derivation_sound_iff`).
-/

namespace TrezorPlugin

variable {K : HdnodeLibrary} {C : Conversions} {pool : DescriptorPool}

/-! ## What the page's map gives -/

section Given

variable (C) (md : Descriptor) (nodeMap : VariantMap)

/-- The text spells the bytes for the field: in hex, or for one of type `string` as they are. -/
def FieldDescriptor.Spells (fd : FieldDescriptor) (text : String) (s : List UInt8) : Prop :=
  if fd.type = .bytes then hexDecode text = .ok s else bytesOf text = s

/-- The number under the name, 0 if the map has none; the type has such a field. -/
def GivesNumber (name : String) (n : UInt32) : Prop :=
  ∃ fd, md.fields.find? (·.name = name) = some fd ∧ fd.isRepeated = false ∧
    (fd.type = .uint32 ∨ fd.type = .fixed32) ∧
    match nodeMap.lookup name with
    | some v => C.number v = .ok n.toNat
    | none => n = 0

/-- The bytes that the text under the name spells, none if the map has no such entry. -/
def GivesBytes (name : String) (s : List UInt8) : Prop :=
  ∃ fd, md.fields.find? (·.name = name) = some fd ∧ fd.isRepeated = false ∧
    (fd.type = .string ∨ fd.type = .bytes) ∧
    match nodeMap.lookup name with
    | some v => ∃ text, C.string v = .ok text ∧ fd.Spells text s
    | none => s = []

/-- The five fields that the page's map gives of a node. -/
structure Given (depth fingerprint childNum : UInt32) (chainCode publicKey : List UInt8) : Prop where
  depth : GivesNumber C md nodeMap "depth" depth
  fingerprint : GivesNumber C md nodeMap "fingerprint" fingerprint
  childNum : GivesNumber C md nodeMap "child_num" childNum
  chainCode : GivesBytes C md nodeMap "chain_code" chainCode
  publicKey : GivesBytes C md nodeMap "public_key" publicKey

end Given

theorem uint32_eq_ok {v : Variant} {n : UInt32} :
    C.uint32 v = .ok n ↔ C.number v = .ok n.toNat := by
  have hn := n.toNat_lt
  rw [Conversions.uint32, Exec.except_return_eq_ok]
  simp only [inRange_eq_ok]
  constructor
  · rintro ⟨m, ⟨hm, hlo, hhi⟩, rfl⟩
    rw [hm]
    simp only [UInt32.ofInt, UInt32.toNat_ofNat', Except.ok.injEq]
    omega
  · intro h
    refine ⟨n.toNat, ⟨h, by omega, by omega⟩, UInt32.toNat.inj ?_⟩
    simp only [UInt32.ofInt, UInt32.toNat_ofNat']
    omega

/-- What the map made of each field of a new message. -/
structure Parsed (C : Conversions) (pool : DescriptorPool) (md : Descriptor) (nodeMap : VariantMap)
    (message : DynamicMessage) : Prop where
  descriptor : message.descriptor = md
  wellTyped : message.WellTyped pool
  fields : ∀ q ∈ md.fields.zip message.fields, parseField C pool md nodeMap q.1 [] = .ok q.2

theorem parsed_of_messageFromMap {md : Descriptor} {nodeMap : VariantMap} {message : DynamicMessage}
    (h : messageFromMap C pool (.new md) nodeMap = .ok message) :
    Parsed C pool md nodeMap message := by
  obtain ⟨hd, hm⟩ := messageFromMap_wellTyped nodeMap _ _ (new_wellTyped md) h
  refine ⟨hd, hm, ?_⟩
  rw [messageFromMap_eq, Exec.except_return_eq_ok] at h
  obtain ⟨fields, hfields, rfl⟩ := h
  intro q hq
  obtain ⟨stored, hstored, hround⟩ := (eachField_eq_ok (List.length_map _) hfields).2 q hq
  obtain ⟨-, hnew⟩ := List.of_mem_zip hstored
  obtain ⟨-, -, rfl⟩ := List.mem_map.mp hnew
  exact hround

theorem Parsed.stored {md : Descriptor} {nodeMap : VariantMap} {message : DynamicMessage}
    (h : Parsed C pool md nodeMap message) {fd : FieldDescriptor} (hfd : fd ∈ md.fields) :
    parseField C pool md nodeMap fd [] = .ok (message.stored fd) := by
  obtain ⟨rfl, hm, hfields⟩ := h
  exact hfields _ (stored_mem hfd hm.length).2

/-- What is stored in a scalar field for the entry of the map. -/
theorem parseField_scalar {md : Descriptor} {nodeMap : VariantMap} {fd : FieldDescriptor}
    {stored : List Value} (hr : fd.isRepeated = false) (ht : fd.type ≠ .message) :
    parseField C pool md nodeMap fd [] = .ok stored ↔
      match nodeMap.lookup fd.name with
      | some v => ∃ x, scalarValue C pool fd v = .ok x ∧ stored = [x]
      | none => stored = [] := by
  unfold parseField
  cases nodeMap.lookup fd.name with
  | none =>
    simp only [Except.ok.injEq]
    exact eq_comm
  | some v =>
    simp only [parsing_eq_ok, hr, Bool.false_eq_true, if_false, parseSingleField_scalar ht,
      Exec.except_return_eq_ok]
    exact exists_congr fun x => and_congr_right fun _ => eq_comm

theorem getUInt32_parsed {md : Descriptor} {nodeMap : VariantMap} {message : DynamicMessage}
    (h : Parsed C pool md nodeMap message) {fd : FieldDescriptor} (hfd : fd ∈ md.fields)
    {n : UInt32} :
    getUInt32 message fd = .ok n ↔ fd.isRepeated = false ∧ (fd.type = .uint32 ∨ fd.type = .fixed32) ∧
      match nodeMap.lookup fd.name with
      | some v => C.number v = .ok n.toNat
      | none => n = 0 := by
  have hstored := h.stored hfd
  by_cases hfit : fd.isRepeated = false ∧ (fd.type = .uint32 ∨ fd.type = .fixed32)
  · obtain ⟨hr, ht⟩ := hfit
    have hne : fd.type ≠ .message := by rcases ht with ht | ht <;> rw [ht] <;> nofun
    rw [parseField_scalar hr hne] at hstored
    rw [and_iff_right hr, and_iff_right ht, getUInt32, hr]
    cases hv : nodeMap.lookup fd.name with
    | none =>
      rw [hv] at hstored
      rw [hstored]
      have hzero : (Except.ok 0 : Except Exception UInt32) = .ok n ↔ n = 0 := by
        rw [Except.ok.injEq, eq_comm]
      rcases ht with ht | ht <;> rw [ht] <;> exact hzero
    | some v =>
      rw [hv] at hstored
      obtain ⟨x, hx, hstored⟩ := hstored
      rw [hstored]
      rcases ht with ht | ht
      · rw [scalarValue, ht] at hx
        obtain ⟨m, hm, rfl⟩ := Exec.except_return_eq_ok.mp hx
        rw [ht]
        show (Except.ok m : Except Exception UInt32) = .ok n ↔ C.number v = .ok n.toNat
        rw [← uint32_eq_ok, hm]
      · rw [scalarValue, ht] at hx
        cases hx
  · exact iff_of_false (fun hget => hfit (getUInt32_eq_ok hget)) fun h => hfit ⟨h.1, h.2.1⟩

theorem getString_parsed {md : Descriptor} {nodeMap : VariantMap} {message : DynamicMessage}
    (h : Parsed C pool md nodeMap message) {fd : FieldDescriptor} (hfd : fd ∈ md.fields)
    {s : List UInt8} :
    getString message fd = .ok s ↔ fd.isRepeated = false ∧ (fd.type = .string ∨ fd.type = .bytes) ∧
      match nodeMap.lookup fd.name with
      | some v => ∃ text, C.string v = .ok text ∧ fd.Spells text s
      | none => s = [] := by
  have hstored := h.stored hfd
  by_cases hfit : fd.isRepeated = false ∧ (fd.type = .string ∨ fd.type = .bytes)
  · obtain ⟨hr, ht⟩ := hfit
    have hne : fd.type ≠ .message := by rcases ht with ht | ht <;> rw [ht] <;> nofun
    rw [parseField_scalar hr hne] at hstored
    rw [and_iff_right hr, and_iff_right ht, getString, hr]
    cases hv : nodeMap.lookup fd.name with
    | none =>
      rw [hv] at hstored
      rw [hstored]
      have hnone : (Except.ok [] : Except Exception (List UInt8)) = .ok s ↔ s = [] := by
        rw [Except.ok.injEq, eq_comm]
      rcases ht with ht | ht <;> rw [ht] <;> exact hnone
    | some v =>
      rw [hv] at hstored
      obtain ⟨x, hx, hstored⟩ := hstored
      rw [hstored]
      rcases ht with ht | ht
      · rw [scalarValue, ht] at hx
        obtain ⟨text, htext, rfl⟩ := Exec.except_return_eq_ok.mp hx
        simp [FieldDescriptor.Spells, ht, htext]
      · rw [scalarValue, ht] at hx
        obtain ⟨text, htext, hx⟩ := Exec.except_bind_eq_ok.mp hx
        obtain ⟨bytes, hbytes, rfl⟩ := Exec.except_return_eq_ok.mp hx
        simp [FieldDescriptor.Spells, ht, htext, hbytes]
  · exact iff_of_false (fun hget => hfit (getString_eq_ok hget)) fun h => hfit ⟨h.1, h.2.1⟩

theorem readsNumber_iff {md : Descriptor} {nodeMap : VariantMap} {message : DynamicMessage}
    (h : Parsed C pool md nodeMap message) {name : String} {n : UInt32} :
    (do getUInt32 message (← fieldOrThrow message.descriptor name)) = .ok n ↔
      GivesNumber C md nodeMap name n := by
  rw [Exec.except_bind_eq_ok, h.descriptor]
  apply exists_congr
  intro fd
  rw [fieldOrThrow_eq_ok]
  apply and_congr_right
  intro hfind
  obtain ⟨hfd, rfl⟩ := name_of_find hfind
  exact getUInt32_parsed h hfd

theorem readsBytes_iff {md : Descriptor} {nodeMap : VariantMap} {message : DynamicMessage}
    (h : Parsed C pool md nodeMap message) {name : String} {s : List UInt8} :
    (do getString message (← fieldOrThrow message.descriptor name)) = .ok s ↔
      GivesBytes C md nodeMap name s := by
  rw [Exec.except_bind_eq_ok, h.descriptor]
  apply exists_congr
  intro fd
  rw [fieldOrThrow_eq_ok]
  apply and_congr_right
  intro hfind
  obtain ⟨hfd, rfl⟩ := name_of_find hfind
  exact getString_parsed h hfd

/-- **The fields read are those the page's map gives.** -/
theorem reads_iff_given {md : Descriptor} {nodeMap : VariantMap} {message : DynamicMessage}
    (h : Parsed C pool md nodeMap message) {depth fingerprint childNum : UInt32}
    {chainCode publicKey : List UInt8} :
    Reads message depth fingerprint childNum chainCode publicKey ↔
      Given C md nodeMap depth fingerprint childNum chainCode publicKey := by
  constructor
  · rintro ⟨h1, h2, h3, h4, h5⟩
    exact ⟨(readsNumber_iff h).mp h1, (readsNumber_iff h).mp h2, (readsNumber_iff h).mp h3,
      (readsBytes_iff h).mp h4, (readsBytes_iff h).mp h5⟩
  · rintro ⟨h1, h2, h3, h4, h5⟩
    exact ⟨(readsNumber_iff h).mpr h1, (readsNumber_iff h).mpr h2, (readsNumber_iff h).mpr h3,
      (readsBytes_iff h).mpr h4, (readsBytes_iff h).mpr h5⟩

/-! ## What the returned map says -/

/-- The entry that is returned for a field says what the page's says: none if the page has none, an
empty list if the field is repeated, else its values as `message_to_map` writes them. -/
def Restates (C : Conversions) (pool : DescriptorPool) (fd : FieldDescriptor)
    (given returned : Option Variant) : Prop :=
  match fd.isRepeated, given with
  | false, none => returned = none
  | true, none => returned = some (.list [])
  | false, some v => ∃ x, SingleIs C pool fd v x ∧ returned = some (asVariant pool fd x)
  | true, some v => ∃ vs xs, v = .list vs ∧ parseRepeatedField C pool fd [] vs = .ok xs ∧
      returned = some (.list (xs.map (asVariant pool fd)))

/-- The map has the numbers of the child and the spelling of its bytes in the five entries, and says
what the page's says in the others. -/
structure Describes (C : Conversions) (pool : DescriptorPool) (md : Descriptor)
    (nodeMap : VariantMap) (child : HDNode) (map : VariantMap) : Prop where
  depth : map.lookup "depth" = some (.uint32 child.depth)
  fingerprint : map.lookup "fingerprint" = some (.uint32 child.fingerprint)
  childNum : map.lookup "child_num" = some (.uint32 child.childNum)
  chainCode : ∃ fd, md.fields.find? (·.name = "chain_code") = some fd ∧
    map.lookup "chain_code" = some (.string (fd.spell child.chainCode))
  publicKey : ∃ fd, md.fields.find? (·.name = "public_key") = some fd ∧
    map.lookup "public_key" = some (.string (fd.spell child.publicKey))
  others : ∀ fd ∈ md.fields, fd.name ∉ nodeFields →
    (∀ fd' ∈ md.fields, fd'.name = fd.name → fd' = fd) →
    Restates C pool fd (nodeMap.lookup fd.name) (map.lookup fd.name)
  undeclared : ∀ name, (∀ fd ∈ md.fields, fd.name ≠ name) → map.lookup name = none

theorem parseSingleField_singleton {fd : FieldDescriptor} {stored r : List Value} {v : Variant}
    (h : parseSingleField C pool fd stored v = .ok r) : ∃ x, r = [x] := by
  by_cases ht : fd.type = .message
  · rw [parseSingleField.eq_def, ht] at h
    cases hmd : fd.messageType pool with
    | none => simp [hmd] at h
    | some md =>
      cases v with
      | map entries =>
        simp only [hmd, Exec.except_return_eq_ok] at h
        obtain ⟨fm, -, rfl⟩ := h
        exact ⟨_, rfl⟩
      | _ => simp [hmd] at h
  · rw [parseSingleField_scalar ht, Exec.except_return_eq_ok] at h
    obtain ⟨x, -, rfl⟩ := h
    exact ⟨x, rfl⟩

theorem restates_of_parseField {md : Descriptor} {nodeMap : VariantMap} {fd : FieldDescriptor}
    {stored : List Value} (h : parseField C pool md nodeMap fd [] = .ok stored) :
    Restates C pool fd (nodeMap.lookup fd.name) (entryOf pool fd stored) := by
  unfold parseField at h
  unfold Restates entryOf
  cases hv : nodeMap.lookup fd.name with
  | none =>
    rw [hv] at h
    cases h
    cases fd.isRepeated <;> rfl
  | some v =>
    simp only [hv, parsing_eq_ok] at h
    cases hr : fd.isRepeated with
    | true =>
      rw [hr, if_pos rfl] at h
      split at h
      · next vs =>
        exact ⟨vs, stored, rfl, h, by rw [if_pos rfl, asVariants_eq]⟩
      · cases h
    | false =>
      rw [hr, if_neg nofun] at h
      obtain ⟨x, rfl⟩ := parseSingleField_singleton h
      have hsingular : fd.singular = fd := by
        cases fd
        cases hr
        rfl
      exact ⟨x, by rw [SingleIs, hsingular, h], rfl⟩

theorem HasEntry.lookup {message : DynamicMessage} {name : String}
    {entry : FieldDescriptor → Variant} (h : HasEntry pool message name entry)
    (hlen : message.fields.length = message.descriptor.fields.length) :
    ∃ fd, message.descriptor.fields.find? (·.name = name) = some fd ∧
      (asEntries pool message.descriptor.fields message.fields).lookup name = some (entry fd) := by
  obtain ⟨fd, hfd, hentry⟩ := h
  exact ⟨fd, hfd,
    lookup_asEntries_first hfd (stored_mem (name_of_find hfd).1 hlen).1 hentry⟩

/-- **The map of a message with the node written over it** describes the node. -/
theorem describes_of_nodeWritten {md : Descriptor} {nodeMap : VariantMap}
    {message message' : DynamicMessage} {node : HDNode} (h : Parsed C pool md nodeMap message)
    (hm' : message'.WellTyped pool) (hw : NodeWritten pool message message' node) :
    Describes C pool md nodeMap node
      (asEntries pool message'.descriptor.fields message'.fields) := by
  have hmd : message'.descriptor = md := hw.descriptor.trans h.descriptor
  have hlen := hm'.length
  constructor
  case depth =>
    obtain ⟨_, -, hlookup⟩ := hw.depth.lookup hlen
    exact hlookup
  case fingerprint =>
    obtain ⟨_, -, hlookup⟩ := hw.fingerprint.lookup hlen
    exact hlookup
  case childNum =>
    obtain ⟨_, -, hlookup⟩ := hw.childNum.lookup hlen
    exact hlookup
  case chainCode =>
    obtain ⟨fd, hfd, hlookup⟩ := hw.chainCode.lookup hlen
    exact ⟨fd, hmd ▸ hfd, hlookup⟩
  case publicKey =>
    obtain ⟨fd, hfd, hlookup⟩ := hw.publicKey.lookup hlen
    exact ⟨fd, hmd ▸ hfd, hlookup⟩
  case others =>
    intro fd hfd hother hunique
    have hsame : ∀ p ∈ message'.descriptor.fields.zip message'.fields, p.1.name = fd.name →
        entryOf pool p.1 p.2 = entryOf pool fd (message.stored fd) := by
      intro p hp hname
      have hp' := hw.others p hp (hname.symm ▸ hother)
      rw [h.descriptor] at hp'
      obtain heq := hunique p.1 (List.of_mem_zip (show (p.1, p.2) ∈ _ from hp')).1 hname
      have hround := h.fields p hp'
      rw [heq, h.stored hfd, Except.ok.injEq] at hround
      rw [heq, hround]
    rw [lookup_asEntries_of_forall ⟨fd, hmd.symm ▸ hfd, rfl⟩ hlen hsame]
    exact restates_of_parseField (h.stored hfd)
  case undeclared =>
    intro name hname
    apply lookup_asEntries_eq_none
    intro hmem
    obtain ⟨fd, hfd, heq⟩ := List.mem_map.mp hmem
    exact hname fd (hmd ▸ hfd) heq

/-! ## Sound derivation -/

/-- The map describes a child that was derived from the five fields the page gave, by a library that
did not refuse. -/
def DescribesChild (K : HdnodeLibrary) (C : Conversions) (pool : DescriptorPool)
    (nodeMap : VariantMap) (index : UInt32) (map : VariantMap) : Prop :=
  ∃ md depth fingerprint childNum chainCode publicKey,
    messageDescriptor pool "HDNodeType" = .ok md ∧
    Given C md nodeMap depth fingerprint childNum chainCode publicKey ∧
    32 ≤ chainCode.length ∧ 33 ≤ publicKey.length ∧
    let node := K.hdnodeFromXpub depth fingerprint childNum (chainCode.take 32) (publicKey.take 33)
    (K.hdnodePublicCkd node index).1 ≠ 0 ∧
    Describes C pool md nodeMap (K.hdnodePublicCkd node index).2 map

/-- It throws, or returns the map of a child; and it does nothing undefined. -/
def SoundDerivation (K : HdnodeLibrary) (C : Conversions) (pool : DescriptorPool)
    (nodeMap : VariantMap) (index : UInt32) : Prop :=
  match deriveChildNode K C pool nodeMap index with
  | .ok map => DescribesChild K C pool nodeMap index map
  | .error (.throws _) => True
  | .error _ => False

theorem soundDerivation_of_throws {nodeMap : VariantMap} {index : UInt32} {e : Exception}
    (h : deriveChildNode K C pool nodeMap index = .error (.throws e)) :
    SoundDerivation K C pool nodeMap index := by
  unfold SoundDerivation
  rw [h]
  trivial

/-- What happens to a map that gives the five fields. -/
theorem deriveChildNode_reads {nodeMap : VariantMap} {index : UInt32} {md : Descriptor}
    {message : DynamicMessage} {depth fingerprint childNum : UInt32}
    {chainCode publicKey : List UInt8} (hmd : messageDescriptor pool "HDNodeType" = .ok md)
    (hparse : messageFromMap C pool (.new md) nodeMap = .ok message)
    (hgiven : Reads message depth fingerprint childNum chainCode publicKey) :
    deriveChildNode K C pool nodeMap index = asScriptError (do
      let chainCode ← readBytes 32 chainCode
      let publicKey ← readBytes 33 publicKey
      let node := K.hdnodeFromXpub depth fingerprint childNum chainCode publicKey
      let message ← throwing (messageFromHdnode message (K.hdnodePublicCkd node index).2)
      throwing (messageToMap pool message)) := by
  unfold deriveChildNode
  simp only [hmd, hparse, messageToHdnode_reads hgiven, throwing_ok, Exec.except_ok_bind,
    bind_assoc, pure_bind]

theorem GivesNumber.unique {md : Descriptor} {nodeMap : VariantMap} {name : String} {m n : UInt32}
    (h : GivesNumber C md nodeMap name m) (h' : GivesNumber C md nodeMap name n) : m = n := by
  obtain ⟨_, -, -, -, hm⟩ := h
  obtain ⟨_, -, -, -, hn⟩ := h'
  cases hv : nodeMap.lookup name with
  | none =>
    rw [hv] at hm hn
    exact hm.trans hn.symm
  | some v =>
    rw [hv] at hm hn
    have heq := Except.ok.inj (hm.symm.trans hn)
    exact UInt32.toNat.inj (Int.ofNat.inj heq)

theorem GivesBytes.unique {md : Descriptor} {nodeMap : VariantMap} {name : String}
    {r s : List UInt8} (h : GivesBytes C md nodeMap name r) (h' : GivesBytes C md nodeMap name s) :
    r = s := by
  obtain ⟨fd, hfd, -, -, hr⟩ := h
  obtain ⟨fd', hfd', -, -, hs⟩ := h'
  obtain rfl : fd = fd' := Option.some.inj (hfd.symm.trans hfd')
  cases hv : nodeMap.lookup name with
  | none =>
    rw [hv] at hr hs
    exact hr.trans hs.symm
  | some v =>
    rw [hv] at hr hs
    obtain ⟨text, htext, hr⟩ := hr
    obtain ⟨text', htext', hs⟩ := hs
    obtain rfl : text = text' := Except.ok.inj (htext.symm.trans htext')
    unfold FieldDescriptor.Spells at hr hs
    split at hr
    · next hb =>
      rw [if_pos hb] at hs
      exact Except.ok.inj (hr.symm.trans hs)
    · next hb =>
      rw [if_neg hb] at hs
      exact hr.symm.trans hs

/-- Where the strings are long enough, the map of the child is returned, if it can be written. -/
theorem deriveChildNode_enough {nodeMap : VariantMap} (index : UInt32) {md : Descriptor}
    {message : DynamicMessage} {depth fingerprint childNum : UInt32}
    {chainCode publicKey : List UInt8} (hmd : messageDescriptor pool "HDNodeType" = .ok md)
    (hparse : messageFromMap C pool (.new md) nodeMap = .ok message)
    (hgiven : Given C md nodeMap depth fingerprint childNum chainCode publicKey)
    (hcc : 32 ≤ chainCode.length) (hpk : 33 ≤ publicKey.length) :
    (Writable message ∧ ∃ map, deriveChildNode K C pool nodeMap index = .ok map ∧
      Describes C pool md nodeMap (K.hdnodePublicCkd (K.hdnodeFromXpub depth fingerprint childNum
        (chainCode.take 32) (publicKey.take 33)) index).2 map) ∨
    (¬ Writable message ∧ ∃ e, deriveChildNode K C pool nodeMap index = .error (.throws e)) := by
  have hparsed := parsed_of_messageFromMap hparse
  have hreads := (reads_iff_given hparsed).mpr hgiven
  rw [deriveChildNode_reads hmd hparse hreads, readBytes_enough hcc, Exec.except_ok_bind,
    readBytes_enough hpk, Exec.except_ok_bind]
  obtain ⟨message', hset, hm', hreadable, hwritten⟩ :=
    messageFromHdnode_reads hparsed.wellTyped hreads
      (K.hdnodePublicCkd (K.hdnodeFromXpub depth fingerprint childNum
        (chainCode.take 32) (publicKey.take 33)) index).2
  simp only [hset, throwing_ok, Exec.except_ok_bind]
  cases hmap : messageToMap pool message' with
  | error e =>
    refine .inr ⟨fun hw => ?_, _, rfl⟩
    rw [(messageToMap_iff hm' _).mpr ⟨hreadable.mpr hw, rfl⟩] at hmap
    cases hmap
  | ok map =>
    obtain ⟨hw, rfl⟩ := (messageToMap_iff hm' map).mp hmap
    exact .inl ⟨hreadable.mp hw, _, rfl, describes_of_nodeWritten hparsed hm' hwritten⟩

theorem soundDerivation_given_iff {nodeMap : VariantMap} {index : UInt32} {md : Descriptor}
    {message : DynamicMessage} {depth fingerprint childNum : UInt32}
    {chainCode publicKey : List UInt8} (hmd : messageDescriptor pool "HDNodeType" = .ok md)
    (hparse : messageFromMap C pool (.new md) nodeMap = .ok message)
    (hgiven : Given C md nodeMap depth fingerprint childNum chainCode publicKey) :
    SoundDerivation K C pool nodeMap index ↔
      32 ≤ chainCode.length ∧ 33 ≤ publicKey.length ∧
      (Writable message → (K.hdnodePublicCkd (K.hdnodeFromXpub depth fingerprint childNum
        (chainCode.take 32) (publicKey.take 33)) index).1 ≠ 0) := by
  have hreads := (reads_iff_given (parsed_of_messageFromMap hparse)).mpr hgiven
  by_cases hcc : 32 ≤ chainCode.length
  · by_cases hpk : 33 ≤ publicKey.length
    · rw [and_iff_right hcc, and_iff_right hpk]
      rcases deriveChildNode_enough (K := K) index hmd hparse hgiven hcc hpk with
        ⟨hw, map, hok, hdescribes⟩ | ⟨hw, e, herr⟩
      · unfold SoundDerivation
        rw [hok]
        constructor
        · rintro ⟨_, _, _, _, _, _, hmd', hgiven', -, -, hckd, -⟩ -
          cases hmd.symm.trans hmd'
          obtain rfl := hgiven.depth.unique hgiven'.depth
          obtain rfl := hgiven.fingerprint.unique hgiven'.fingerprint
          obtain rfl := hgiven.childNum.unique hgiven'.childNum
          obtain rfl := hgiven.chainCode.unique hgiven'.chainCode
          obtain rfl := hgiven.publicKey.unique hgiven'.publicKey
          exact hckd
        · exact fun hckd => ⟨md, depth, fingerprint, childNum, chainCode, publicKey, hmd, hgiven,
            hcc, hpk, hckd hw, hdescribes⟩
      · exact iff_of_true (soundDerivation_of_throws herr) fun h => absurd h hw
    · unfold SoundDerivation
      rw [deriveChildNode_reads hmd hparse hreads, readBytes_enough hcc, Exec.except_ok_bind,
        readBytes_short hpk]
      exact iff_of_false id fun h => hpk h.2.1
  · unfold SoundDerivation
    rw [deriveChildNode_reads hmd hparse hreads, readBytes_short hcc]
    exact iff_of_false id fun h => hcc h.1

/-- **Sound derivation**: exactly when the strings given are long enough to be read from, and the
library does not refuse, unless the node could not be written back anyway. -/
theorem derivation_sound_iff (K : HdnodeLibrary) (C : Conversions) (pool : DescriptorPool)
    (nodeMap : VariantMap) (index : UInt32) :
    SoundDerivation K C pool nodeMap index ↔
      ∀ md message depth fingerprint childNum chainCode publicKey,
        messageDescriptor pool "HDNodeType" = .ok md →
        messageFromMap C pool (.new md) nodeMap = .ok message →
        Given C md nodeMap depth fingerprint childNum chainCode publicKey →
        32 ≤ chainCode.length ∧ 33 ≤ publicKey.length ∧
        (Writable message → (K.hdnodePublicCkd (K.hdnodeFromXpub depth fingerprint childNum
          (chainCode.take 32) (publicKey.take 33)) index).1 ≠ 0) := by
  constructor
  · intro h md message depth fingerprint childNum chainCode publicKey hmd hparse hgiven
    exact (soundDerivation_given_iff hmd hparse hgiven).mp h
  · intro h
    cases hmd : messageDescriptor pool "HDNodeType" with
    | error e =>
      apply soundDerivation_of_throws (e := .scriptError e.what)
      rw [deriveChildNode, hmd]
      rfl
    | ok md =>
      cases hparse : messageFromMap C pool (.new md) nodeMap with
      | error e =>
        apply soundDerivation_of_throws (e := .scriptError e.what)
        rw [deriveChildNode, hmd, throwing_ok, Exec.except_ok_bind, hparse]
        rfl
      | ok message =>
        rcases reads_or_throws (K := K) message with
          ⟨depth, fingerprint, childNum, chainCode, publicKey, hreads⟩ | ⟨e, he⟩
        · have hgiven := (reads_iff_given (parsed_of_messageFromMap hparse)).mp hreads
          exact (soundDerivation_given_iff hmd hparse hgiven).mpr
            (h _ _ _ _ _ _ _ hmd hparse hgiven)
        · apply soundDerivation_of_throws (e := .scriptError e.what)
          rw [deriveChildNode, hmd, throwing_ok, Exec.except_ok_bind, hparse, throwing_ok,
            Exec.except_ok_bind, he]
          rfl

def hdnodeType : Descriptor :=
  ⟨"HDNodeType", [⟨"depth", 1, .uint32, false, ""⟩, ⟨"fingerprint", 2, .uint32, false, ""⟩,
    ⟨"child_num", 3, .uint32, false, ""⟩, ⟨"chain_code", 4, .bytes, false, ""⟩,
    ⟨"private_key", 5, .bytes, false, ""⟩, ⟨"public_key", 6, .bytes, false, ""⟩]⟩

def hdnodePool : DescriptorPool := ⟨[⟨"types.proto", [], [hdnodeType], []⟩]⟩

/-- A library that refuses hardened indices, and otherwise only counts. -/
def countingHdnodes : HdnodeLibrary where
  hdnodeFromXpub depth fingerprint childNum chainCode publicKey :=
    ⟨depth, fingerprint, childNum, chainCode.takeD 32 0, publicKey.takeD 33 0,
      List.takeD_length 32 chainCode 0, List.takeD_length 33 publicKey 0⟩
  hdnodePublicCkd node index :=
    if index < 0x80000000 then (1, { node with depth := node.depth + 1, childNum := index })
    else (0, node)

/-- A node with a private key, in which all bytes are zeros. -/
def someMessage : DynamicMessage :=
  ⟨hdnodeType, [[.uint32 2], [.uint32 7], [], [.bytes (List.replicate 32 0)], [.bytes [0]],
    [.bytes (List.replicate 33 0)]]⟩

def someNode : VariantMap :=
  [("depth", .uint32 2), ("fingerprint", .uint32 7),
    ("chain_code", .string (hexEncode (List.replicate 32 0))),
    ("private_key", .string (hexEncode [0])),
    ("public_key", .string (hexEncode (List.replicate 33 0)))]

theorem parse_someNode :
    messageFromMap plainConversions hdnodePool (.new hdnodeType) someNode = .ok someMessage := by
  have hnumber : ∀ (fd : FieldDescriptor) (n : UInt32), fd.type = .uint32 →
      parseSingleField plainConversions hdnodePool fd [] (.uint32 n) = .ok [.uint32 n] := by
    intro fd n ht
    rw [parseSingleField_scalar (by simp [ht]), scalarValue, ht]
    simp only [uint32_givesBack plain_givesBack, Exec.except_ok_bind]
    rfl
  have hbytes : ∀ (fd : FieldDescriptor) (s : List UInt8), fd.type = .bytes →
      parseSingleField plainConversions hdnodePool fd [] (.string (hexEncode s)) =
        .ok [.bytes s] := by
    intro fd s ht
    rw [parseSingleField_scalar (by simp [ht]), scalarValue, ht]
    simp only [plainConversions, Exec.except_ok_bind, hexDecode_hexEncode]
    rfl
  rw [messageFromMap_eq, Exec.except_return_eq_ok]
  refine ⟨someMessage.fields, eachField_new rfl ?_, rfl⟩
  simp only [DynamicMessage.new, hdnodeType, someMessage, List.zip_cons_cons, List.zip_nil_right,
    List.forall_mem_cons]
  refine ⟨?_, ?_, rfl, ?_, ?_, ?_, List.forall_mem_nil _⟩
  · exact parsing_eq_ok.mpr (hnumber _ _ rfl)
  · exact parsing_eq_ok.mpr (hnumber _ _ rfl)
  · exact parsing_eq_ok.mpr (hbytes _ _ rfl)
  · exact parsing_eq_ok.mpr (hbytes _ _ rfl)
  · exact parsing_eq_ok.mpr (hbytes _ _ rfl)

theorem hdnodeType_found : messageDescriptor hdnodePool "HDNodeType" = .ok hdnodeType := by decide

theorem someMessage_reads :
    Reads someMessage 2 7 0 (List.replicate 32 0) (List.replicate 33 0) :=
  ⟨rfl, rfl, rfl, rfl, rfl⟩

theorem someNode_given : Given plainConversions hdnodeType someNode 2 7 0 (List.replicate 32 0)
    (List.replicate 33 0) :=
  (reads_iff_given (parsed_of_messageFromMap parse_someNode)).mp someMessage_reads

theorem someMessage_writable : Writable someMessage := by
  constructor
  · simp [DynamicMessage.Readable, someMessage, hdnodeType, FieldsEvery, AllEvery, Value.Every,
      FieldReadable, FieldType.isHandled]
  · simp [someMessage, hdnodeType, fieldOrThrow]

theorem countingHdnodes_ckd (node : HDNode) :
    countingHdnodes.hdnodePublicCkd node 1 =
      (1, { node with depth := node.depth + 1, childNum := 1 }) := rfl

/-- A child of the node: the numbers are its own, the private key is as it was. -/
theorem derivation_sound_iff_child :
    SoundDerivation countingHdnodes plainConversions hdnodePool someNode 1 ∧
    ∃ map, deriveChildNode countingHdnodes plainConversions hdnodePool someNode 1 = .ok map ∧
      map.lookup "depth" = some (.uint32 3) ∧ map.lookup "fingerprint" = some (.uint32 7) ∧
      map.lookup "child_num" = some (.uint32 1) ∧
      map.lookup "public_key" = some (.string (hexEncode (List.replicate 33 0))) ∧
      map.lookup "private_key" = some (.string (hexEncode [0])) := by
  constructor
  · rw [derivation_sound_iff]
    intro md message depth fingerprint childNum chainCode publicKey hmd _ hgiven
    cases hdnodeType_found.symm.trans hmd
    obtain rfl := hgiven.chainCode.unique someNode_given.chainCode
    obtain rfl := hgiven.publicKey.unique someNode_given.publicKey
    rw [countingHdnodes_ckd]
    exact ⟨by decide, by decide, fun _ => Int.one_ne_zero⟩
  · obtain ⟨-, map, hok, hdescribes⟩ :=
      (deriveChildNode_enough (K := countingHdnodes) 1 hdnodeType_found parse_someNode
        someNode_given (by decide) (by decide)).resolve_right
        fun h => h.1 someMessage_writable
    rw [countingHdnodes_ckd] at hdescribes
    refine ⟨map, hok, hdescribes.depth, hdescribes.fingerprint, hdescribes.childNum, ?_, ?_⟩
    · obtain ⟨fd, hfd, hlookup⟩ := hdescribes.publicKey
      have heq : some (⟨"public_key", 6, .bytes, false, ""⟩ : FieldDescriptor) = some fd := hfd
      rw [hlookup, ← Option.some.inj heq]
      rfl
    · obtain ⟨x, hx, hlookup⟩ := hdescribes.others ⟨"private_key", 5, .bytes, false, ""⟩
        (by decide) (by decide) (by decide)
      have hne : FieldType.bytes ≠ .message := by decide
      rw [singleIs_scalar hne] at hx
      rw [hlookup]
      have hbytes : scalarValue plainConversions hdnodePool ⟨"private_key", 5, .bytes, false, ""⟩
          (.string (hexEncode [0])) = .ok (.bytes [0]) := by
        simp only [scalarValue, plainConversions, Exec.except_ok_bind, hexDecode_hexEncode]
        rfl
      obtain rfl := Except.ok.inj (hbytes.symm.trans hx)
      rfl

theorem derivation_not_sound :
    deriveChildNode countingHdnodes plainConversions hdnodePool [] 0 = .error .undefined ∧
    ¬ SoundDerivation countingHdnodes plainConversions hdnodePool [] 0 ∧
    ¬ SoundDerivation countingHdnodes plainConversions hdnodePool someNode 0x80000000 := by
  have hempty : messageFromMap plainConversions hdnodePool (.new hdnodeType) [] =
      .ok (.new hdnodeType) := by
    rw [messageFromMap_eq]
    rfl
  have hnone : Reads (.new hdnodeType) 0 0 0 [] [] := ⟨rfl, rfl, rfl, rfl, rfl⟩
  have hgiven := (reads_iff_given (parsed_of_messageFromMap hempty)).mp hnone
  refine ⟨?_, ?_, ?_⟩
  · rw [deriveChildNode_reads hdnodeType_found hempty hnone]
    rfl
  · rw [soundDerivation_given_iff hdnodeType_found hempty hgiven]
    exact fun h => absurd h.1 (by decide)
  · rw [soundDerivation_given_iff hdnodeType_found parse_someNode someNode_given]
    exact fun h => h.2.2 someMessage_writable rfl

end TrezorPlugin
