import TrezorPlugin.Parse

/-!
# Messages through maps

Over a schema without repeated 64-bit integers, a message whose repeated strings
and bytes are empty comes back from its map as it was:

    messageFromMap (new m.descriptor) (messageToMap m) = m

field by field: each value from its variant (`singleIs_asVariant`), each list from
the list of the variants, each field from the entry under its name
(`lookup_asEntries`); and so for the messages in it, by induction on the message.
-/

namespace TrezorPlugin

/-! ## The schema -/

/-- A variant gives back a value of the type it was made from. -/
structure GivesBack (C : Conversions) : Prop where
  int32 : ∀ n, C.number (.int32 n) = .ok n.toInt
  uint32 : ∀ n, C.number (.uint32 n) = .ok n.toNat
  int64 : ∀ n, C.number (.int64 n) = .ok n.toInt
  uint64 : ∀ n, C.number (.uint64 n) = .ok n.toNat
  double : ∀ bits, C.double (.double bits) = .ok bits
  float : ∀ bits, C.float (.float bits) = .ok bits
  bool : ∀ b, C.bool (.bool b) = .ok b
  string : ∀ s, C.string (.string s) = .ok s

variable (pool : DescriptorPool)

/-- What protobuf makes sure of when it builds a file: names are not given twice. -/
structure Linked : Prop where
  fieldNames : ∀ md ∈ pool.messageTypes, (md.fields.map (·.name)).Nodup
  valueNames : ∀ ed ∈ pool.enumTypes, (ed.values.map (·.name)).Nodup

/-- The message types that messages of a type are built of. -/
inductive Reaches (d : Descriptor) : Descriptor → Prop
  | refl : Reaches d d
  | field {md md' : Descriptor} {fd : FieldDescriptor} : Reaches d md → fd ∈ md.fields →
      fd.type = .message → fd.messageType pool = some md' → Reaches d md'

/-- Every field, at every level, is of a type with a case in each switch. -/
def Supported (d : Descriptor) : Prop :=
  ∀ md, Reaches pool d md → ∀ fd ∈ md.fields, fd.type.isHandled ∧
    (fd.isRepeated = true → fd.type ≠ .int64 ∧ fd.type ≠ .uint64)

/-- A repeated field of strings or bytes has no element. -/
def NoTexts (fd : FieldDescriptor) (stored : List Value) : Prop :=
  fd.isRepeated = true → fd.type = .string ∨ fd.type = .bytes → stored = []

variable {pool} {C : Conversions}

theorem Reaches.trans {d md md' : Descriptor} (h : Reaches pool d md) (h' : Reaches pool md md') :
    Reaches pool d md' := by
  induction h' with
  | refl => exact h
  | field _ hfd ht hmd ih => exact ih.field hfd ht hmd

theorem Supported.of_field {d md : Descriptor} {fd : FieldDescriptor} (h : Supported pool d)
    (hfd : fd ∈ d.fields) (ht : fd.type = .message) (hmd : fd.messageType pool = some md) :
    Supported pool md := fun md' hr => h md' ((Reaches.refl.field hfd ht hmd).trans hr)

/-! ## One value -/

theorem int32_givesBack (hC : GivesBack C) (n : Int32) : C.int32 (.int32 n) = .ok n := by
  have hlo := n.le_toInt
  have hhi := n.toInt_lt
  exact Exec.except_return_eq_ok.mpr
    ⟨n.toInt, inRange_eq_ok.mpr ⟨hC.int32 n, by omega, by omega⟩, n.ofInt_toInt⟩

theorem int64_givesBack (hC : GivesBack C) (n : Int64) : C.int64 (.int64 n) = .ok n := by
  have hlo := n.le_toInt
  have hhi := n.toInt_lt
  exact Exec.except_return_eq_ok.mpr
    ⟨n.toInt, inRange_eq_ok.mpr ⟨hC.int64 n, by omega, by omega⟩, n.ofInt_toInt⟩

theorem uint32_givesBack (hC : GivesBack C) (n : UInt32) : C.uint32 (.uint32 n) = .ok n := by
  have hhi := n.toNat_lt
  refine Exec.except_return_eq_ok.mpr
    ⟨n.toNat, inRange_eq_ok.mpr ⟨hC.uint32 n, by omega, by omega⟩, UInt32.toNat.inj ?_⟩
  simp only [UInt32.ofInt, UInt32.toNat_ofNat']
  omega

theorem uint64_givesBack (hC : GivesBack C) (n : UInt64) : C.uint64 (.uint64 n) = .ok n := by
  have hhi := n.toNat_lt
  refine Exec.except_return_eq_ok.mpr
    ⟨n.toNat, inRange_eq_ok.mpr ⟨hC.uint64 n, by omega, by omega⟩, UInt64.toNat.inj ?_⟩
  simp only [UInt64.ofInt, UInt64.toNat_ofNat']
  omega

/-- The name of an enum value leads back to its number. -/
theorem findValueByName_enumName (hpool : Linked pool) {fd : FieldDescriptor} {number : Int}
    {name : String} (h : enumName pool fd number = .ok name) :
    ∃ evd, (fd.enumType pool).bind (·.findValueByName name) = some evd ∧ evd.number = number := by
  unfold enumName at h
  cases hed : fd.enumType pool with
  | none => simp [hed] at h
  | some ed =>
    rw [hed, Option.bind_some] at h
    split at h
    · next evd hevd =>
      cases h
      have hmem : ed ∈ pool.enumTypes := List.mem_of_find?_eq_some hed
      have hfind := (Keys.find_key_eq_some (Keys.unique_of_nodup (hpool.valueNames ed hmem))).mpr
        ⟨List.mem_of_find?_eq_some hevd, rfl⟩
      exact ⟨evd, hfind, by simpa using List.find?_some hevd⟩
    · cases h

/-- A value that is no message comes back from its variant. -/
theorem scalarValue_asVariant (hC : GivesBack C) (hpool : Linked pool) {fd : FieldDescriptor}
    {v : Value} (h : WellTyped pool fd v) (hv : v.type ≠ .message)
    (hhandled : fd.type.isHandled = true) :
    scalarValue C pool fd (asVariant pool fd v) = .ok v := by
  cases h with
  | message => exact absurd rfl hv
  | scalar htype _ henum =>
    rw [← htype] at hhandled
    rw [scalarValue, ← htype]
    cases v with
    | fixed32 => cases hhandled
    | double bits => simp only [Value.type, asVariant, hC.double, Exec.except_ok_bind]; rfl
    | float bits => simp only [Value.type, asVariant, hC.float, Exec.except_ok_bind]; rfl
    | int64 n => simp only [Value.type, asVariant, int64_givesBack hC, Exec.except_ok_bind]; rfl
    | uint64 n => simp only [Value.type, asVariant, uint64_givesBack hC, Exec.except_ok_bind]; rfl
    | int32 n => simp only [Value.type, asVariant, int32_givesBack hC, Exec.except_ok_bind]; rfl
    | uint32 n => simp only [Value.type, asVariant, uint32_givesBack hC, Exec.except_ok_bind]; rfl
    | bool b => simp only [Value.type, asVariant, hC.bool, Exec.except_ok_bind]; rfl
    | string s => simp only [Value.type, asVariant, hC.string, Exec.except_ok_bind]; rfl
    | bytes s =>
      simp only [Value.type, asVariant, hC.string, Exec.except_ok_bind, hexDecode_hexEncode]
      rfl
    | enum number =>
      obtain ⟨name, hname⟩ := henum number rfl
      obtain ⟨evd, hevd, rfl⟩ := findValueByName_enumName hpool hname
      simp only [Value.type, asVariant, hname, Except.toOption, Option.getD_some, hC.string,
        Exec.except_ok_bind, hevd]
      rfl
    | message => exact absurd rfl hv

/-! ## The entries of a message -/

theorem lookup_map_eq_none {name name' : String} (h : name ≠ name') (vs : List Variant) :
    (vs.map (name', ·)).lookup name = none := by
  rw [List.lookup_eq_none_iff]
  intro entry hentry
  obtain ⟨v, -, rfl⟩ := List.mem_map.mp hentry
  exact bne_iff_ne.mpr h

theorem lookup_asEntries_eq_none {fds : List FieldDescriptor} {fields : List (List Value)}
    {name : String} (h : name ∉ fds.map (·.name)) :
    (asEntries pool fds fields).lookup name = none := by
  induction fds generalizing fields with
  | nil => simp [asEntries]
  | cons fd fds ih =>
    obtain ⟨hne, hnot⟩ := not_or.mp (List.mem_cons.not.mp h)
    cases fields with
    | nil => simp [asEntries]
    | cons stored fields =>
      rw [asEntries_cons, List.lookup_append, ih hnot, Option.or_none]
      split
      · exact lookup_map_eq_none hne [_]
      · exact lookup_map_eq_none hne _

/-- What the map of a message has under the name of a field. -/
theorem lookup_asEntries {fds : List FieldDescriptor} {fields : List (List Value)}
    (hnodup : (fds.map (·.name)).Nodup) {fd : FieldDescriptor} {stored : List Value}
    (h : (fd, stored) ∈ fds.zip fields) :
    (asEntries pool fds fields).lookup fd.name =
      if fd.isRepeated then some (.list (asVariants pool fd stored))
      else (stored.map (asVariant pool fd)).head? := by
  induction fds generalizing fields with
  | nil => cases h
  | cons fd' fds ih =>
    obtain ⟨hnew, hnodup⟩ := List.nodup_cons.mp hnodup
    cases fields with
    | nil => cases h
    | cons stored' fields =>
      rw [asEntries_cons, List.lookup_append]
      rcases List.mem_cons.mp h with heq | h
      · cases heq
        rw [lookup_asEntries_eq_none hnew, Option.or_none, asVariants_eq]
        split
        · simp
        · cases stored <;> simp
      · have hne : fd.name ≠ fd'.name := fun heq =>
          hnew (List.mem_map.mpr ⟨fd, (List.of_mem_zip h).1, heq⟩)
        rw [← ih hnodup h]
        split
        · rw [show List.lookup fd.name [(fd'.name, _)] = none from lookup_map_eq_none hne [_]]
          rfl
        · rw [lookup_map_eq_none hne]
          rfl

/-! ## Round trip -/

/-- A message comes back from the map of its fields. -/
def ComesBack (C : Conversions) (pool : DescriptorPool) (md : Descriptor)
    (fields : List (List Value)) : Prop :=
  messageFromMap C pool (.new md) (asEntries pool md.fields fields) = .ok ⟨md, fields⟩

/-- Each value comes back from its variant, if the message does that it may be. -/
theorem singleIs_asVariant (hC : GivesBack C) (hpool : Linked pool) {fd : FieldDescriptor}
    {v : Value} (h : WellTyped pool fd v) (hhandled : fd.type.isHandled = true)
    (hsub : ∀ md fields, v = .message md fields → ComesBack C pool md fields) :
    SingleIs C pool fd (asVariant pool fd v) v := by
  by_cases ht : fd.type = .message
  · cases h with
    | scalar htype hne _ => exact absurd (htype.trans ht) hne
    | message _ hmd _ _ _ =>
      exact (singleIs_message ht).mpr ⟨_, _, _, hmd, by rw [asVariant], hsub _ _ rfl, rfl⟩
  · rw [singleIs_scalar ht]
    exact scalarValue_asVariant hC hpool h (h.type_eq ▸ ht) hhandled

theorem parseField_asEntries (hC : GivesBack C) (hpool : Linked pool) {md : Descriptor}
    {fields : List (List Value)} (hmd : md ∈ pool.messageTypes)
    (hsupported : Supported pool md) {fd : FieldDescriptor} {stored : List Value}
    (hmem : (fd, stored) ∈ md.fields.zip fields)
    (hsingular : fd.isRepeated = false → stored.length ≤ 1)
    (htyped : ∀ v ∈ stored, WellTyped pool fd v)
    (hsub : ∀ v ∈ stored, ∀ md fields, v = .message md fields → ComesBack C pool md fields) :
    parseField C pool md (asEntries pool md.fields fields) fd [] = .ok stored := by
  obtain ⟨hhandled, hwide⟩ := hsupported md .refl fd (List.of_mem_zip hmem).1
  have hvalue : ∀ v ∈ stored, SingleIs C pool fd (asVariant pool fd v) v := fun v hv =>
    singleIs_asVariant hC hpool (htyped v hv) hhandled (hsub v hv)
  rw [parseField, lookup_asEntries (hpool.fieldNames md hmd) hmem]
  cases hr : fd.isRepeated with
  | true =>
    obtain ⟨hint64, huint64⟩ := hwide hr
    have halike : ParsedAlike C pool fd [] (asVariants pool fd stored) :=
      parsedAlike_of_ne hhandled hint64 huint64 _ _
    have hall : List.Forall₂ (SingleIs C pool fd) (asVariants pool fd stored) stored := by
      rw [asVariants_eq, List.forall₂_map_left_iff]
      exact List.forall₂_same.mpr hvalue
    simp only [if_true, (halike stored).mpr ⟨stored, hall, rfl⟩, parsing]
  | false =>
    match stored with
    | [] => simp
    | [v] =>
      have hsingular : fd.singular = fd := by
        cases fd
        cases hr
        rfl
      have hv : parseSingleField C pool fd [] (asVariant pool fd v) = .ok [v] := by
        have := hvalue v List.mem_cons_self
        rwa [SingleIs, hsingular] at this
      simp [hv, parsing]
    | _ :: _ :: _ => exact absurd (hsingular hr) (by simp)

theorem comesBack_of_fields (hC : GivesBack C) (hpool : Linked pool) {md : Descriptor}
    {fields : List (List Value)} (hmd : md ∈ pool.messageTypes) (hsupported : Supported pool md)
    (hlen : fields.length = md.fields.length)
    (hsingular : ∀ p ∈ md.fields.zip fields, p.1.isRepeated = false → p.2.length ≤ 1)
    (htyped : ∀ p ∈ md.fields.zip fields, ∀ v ∈ p.2, WellTyped pool p.1 v)
    (hsub : ∀ p ∈ md.fields.zip fields, ∀ v ∈ p.2, ∀ md fields, v = .message md fields →
      ComesBack C pool md fields) :
    ComesBack C pool md fields := by
  have hfields : eachField (parseField C pool md (asEntries pool md.fields fields)) md.fields
      (md.fields.map fun _ => []) = .ok fields :=
    eachField_new hlen fun p hp => parseField_asEntries hC hpool hmd hsupported hp
      (hsingular p hp) (htyped p hp) (hsub p hp)
  rw [ComesBack, messageFromMap_eq, Exec.except_return_eq_ok]
  exact ⟨fields, hfields, rfl⟩

/-- Every message inside another, by induction on how it is built. -/
theorem WellTyped.comesBack (hC : GivesBack C) (hpool : Linked pool) {fd : FieldDescriptor}
    {v : Value} (h : WellTyped pool fd v) : ∀ md fields, v = .message md fields →
      Supported pool md → ComesBack C pool md fields := by
  induction h with
  | scalar _ hne _ =>
    rintro md fields rfl
    exact absurd rfl hne
  | message ht hmt hlen hsingular htyped ih =>
    rintro md fields ⟨⟩ hsupported
    refine comesBack_of_fields hC hpool (List.mem_of_find?_eq_some hmt) hsupported hlen hsingular
      htyped fun p hp v hv md' fields' hmessage => ?_
    have hmem := (List.of_mem_zip (show (p.1, p.2) ∈ _ from hp)).1
    have hw := htyped p hp v hv
    subst hmessage
    cases hw with
    | scalar htype hne _ => exact absurd rfl hne
    | message ht' hmt' _ _ _ =>
      exact ih p hp _ hv md' fields' rfl (hsupported.of_field hmem ht' hmt')

theorem fieldReadable_of_noTexts {md : Descriptor} (hsupported : Supported pool md)
    {fd : FieldDescriptor} (hfd : fd ∈ md.fields) {stored : List Value} (h : NoTexts fd stored) :
    FieldReadable fd stored := by
  obtain ⟨hhandled, hwide⟩ := hsupported md .refl fd hfd
  unfold FieldReadable
  split
  · next hr =>
    obtain ⟨hint64, huint64⟩ := hwide hr
    exact ⟨hhandled, hint64, huint64, h hr⟩
  · exact .inr hhandled

theorem fieldsReadable_of_noTexts {md : Descriptor} {fields : List (List Value)}
    (hsupported : Supported pool md) (h : FieldsEvery NoTexts md.fields fields)
    (hsub : ∀ p ∈ md.fields.zip fields, ∀ v ∈ p.2, v.Every NoTexts → v.Readable) :
    FieldsReadable md.fields fields := by
  rw [fieldsEvery_iff] at h
  apply fieldsEvery_iff.mpr
  intro p hp
  obtain ⟨hp1, hp2⟩ := h p hp
  exact ⟨fieldReadable_of_noTexts hsupported (List.of_mem_zip (show (p.1, p.2) ∈ _ from hp)).1 hp1,
    fun v hv => hsub p hp v hv (hp2 v hv)⟩

theorem WellTyped.readable {fd : FieldDescriptor} {v : Value} (h : WellTyped pool fd v) :
    (∀ md, fd.type = .message → fd.messageType pool = some md → Supported pool md) →
      v.Every NoTexts → v.Readable := by
  induction h with
  | scalar _ hne _ => exact fun _ _ => every_of_ne_message hne
  | message ht hmt _ _ _ ih =>
    intro hsupported htexts
    have hs := hsupported _ ht hmt
    refine fieldsReadable_of_noTexts hs htexts fun p hp v hv =>
      ih p hp v hv fun md' ht' hmt' => ?_
    exact hs.of_field (List.of_mem_zip (show (p.1, p.2) ∈ _ from hp)).1 ht' hmt'

/-- **Round trip.**  A message comes back from its map as it was: every field with its values, in
order, and set or not as before. -/
theorem map_round_trip (C : Conversions) (pool : DescriptorPool) (hC : GivesBack C)
    (hpool : Linked pool) (m : DynamicMessage) (hd : m.descriptor ∈ pool.messageTypes)
    (hm : m.WellTyped pool) (hsupported : Supported pool m.descriptor)
    (htexts : FieldsEvery NoTexts m.descriptor.fields m.fields) :
    ∃ map, messageToMap pool m = .ok map ∧
      messageFromMap C pool (.new m.descriptor) map = .ok m := by
  have hsub : ∀ p ∈ m.descriptor.fields.zip m.fields, ∀ md, p.1.type = .message →
      p.1.messageType pool = some md → Supported pool md := fun p hp md ht hmt =>
    hsupported.of_field (List.of_mem_zip (show (p.1, p.2) ∈ _ from hp)).1 ht hmt
  refine ⟨_, (messageToMap_iff hm _).mpr ⟨?_, rfl⟩, ?_⟩
  · exact fieldsReadable_of_noTexts hsupported htexts fun p hp v hv =>
      (hm.values p hp v hv).readable (hsub p hp)
  · apply comesBack_of_fields hC hpool hd hsupported hm.length hm.singular hm.values
    intro p hp v hv md fields hmessage
    have hw := hm.values p hp v hv
    apply hw.comesBack hC hpool md fields hmessage
    subst hmessage
    cases hw with
    | scalar htype hne _ => exact absurd rfl hne
    | message ht hmt _ _ _ => exact hsub p hp md ht hmt

theorem plain_givesBack : GivesBack plainConversions where
  int32 _ := rfl
  uint32 _ := rfl
  int64 _ := rfl
  uint64 _ := rfl
  double _ := rfl
  float _ := rfl
  bool _ := rfl
  string _ := rfl

/-- Trees with a count, bytes and any number of children. -/
def node : Descriptor :=
  ⟨"Node", [⟨"count", 1, .uint32, false, ""⟩, ⟨"data", 2, .bytes, false, ""⟩,
    ⟨"child", 3, .message, true, "Node"⟩]⟩

def nodePool : DescriptorPool := ⟨[⟨"node.proto", [], [node], []⟩]⟩

theorem node_reaches {md : Descriptor} (h : Reaches nodePool node md) : md = node := by
  induction h with
  | refl => rfl
  | @field _ md' fd _ _ _ hmd _ =>
    have hfind : nodePool.messageTypes.find? (·.fullName = fd.typeName) = some md' := hmd
    exact List.mem_singleton.mp (List.mem_of_find?_eq_some hfind)

/-- A node whose count is set to its default, with two children that have nothing set. -/
def twoLeaves : DynamicMessage :=
  ⟨node, [[.uint32 0], [], [.message node [[], [], []], .message node [[], [], []]]]⟩

theorem map_round_trip_two_leaves :
    ∃ map, messageToMap nodePool twoLeaves = .ok map ∧
      messageFromMap plainConversions nodePool (.new node) map = .ok twoLeaves := by
  have hleaf : WellTyped nodePool ⟨"child", 3, .message, true, "Node"⟩
      (.message node [[], [], []]) := by
    refine .message rfl rfl rfl ?_ ?_ <;> simp [node]
  refine map_round_trip plainConversions nodePool plain_givesBack ⟨?_, ?_⟩ twoLeaves
    List.mem_cons_self ⟨rfl, ?_, ?_⟩ ?_ ?_
  · decide
  · decide
  · simp [twoLeaves, node]
  · simp only [twoLeaves, node, List.zip_cons_cons, List.zip_nil_right, List.forall_mem_cons]
    exact ⟨⟨.scalar rfl nofun nofun, nofun⟩, nofun, ⟨hleaf, hleaf, nofun⟩, nofun⟩
  · intro md h
    rw [node_reaches h]
    decide
  · simp [twoLeaves, node, FieldsEvery, AllEvery, Value.Every, NoTexts]

end TrezorPlugin
