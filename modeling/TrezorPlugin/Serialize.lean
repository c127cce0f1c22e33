import TrezorPlugin.Reflection

/-!
# What message_to_map reads back

`asVariant` says what the variant of a stored value is, at any depth: numbers,
strings and booleans themselves, bytes in hex, enum values by name, a message as
the map of its fields.  `message_to_map` gives just that, or fails:

    serializeRepeatedField fd stored = ok (list of the conversions)
      ↔  FieldReadable fd stored, and so is every field of the messages in it

The switch for repeated fields has no case for `int64` and `uint64`, and takes
repeated strings and bytes with the getter of a singular field: these are the
lists that are not `FieldReadable`.
-/

namespace TrezorPlugin

/-! ## Messages of a schema -/

/-- The types of the cases of `serialize_single_field`, which are those of `parse_single_field` and
of `parse_repeated_field` as well. -/
def FieldType.isHandled : FieldType → Bool
  | .double | .float | .int64 | .uint64 | .int32 | .uint32 | .bool | .string | .bytes | .enum
  | .message => true
  | _ => false

variable (pool : DescriptorPool)

/-- The value is one that a field can hold: of the field's type, a number that its enum declares, a
message of its message type with at most one value for each singular field. -/
inductive WellTyped : FieldDescriptor → Value → Prop
  | scalar {fd : FieldDescriptor} {v : Value} : v.type = fd.type → v.type ≠ .message →
      (∀ number, v = .enum number → ∃ name, enumName pool fd number = .ok name) → WellTyped fd v
  | message {fd : FieldDescriptor} {md : Descriptor} {fields : List (List Value)} :
      fd.type = .message → fd.messageType pool = some md → fields.length = md.fields.length →
      (∀ p ∈ md.fields.zip fields, p.1.isRepeated = false → p.2.length ≤ 1) →
      (∀ p ∈ md.fields.zip fields, ∀ v ∈ p.2, WellTyped p.1 v) →
      WellTyped fd (.message md fields)

/-- A value that is no message and no enum is of any field of its type. -/
theorem WellTyped.leaf {pool : DescriptorPool} {fd : FieldDescriptor} {v : Value}
    (ht : v.type = fd.type) (hmessage : fd.type ≠ .message) (henum : fd.type ≠ .enum) :
    WellTyped pool fd v := by
  apply WellTyped.scalar ht (ht ▸ hmessage)
  rintro number rfl
  exact absurd ht.symm henum

/-- A message of its descriptor. -/
structure DynamicMessage.WellTyped (m : DynamicMessage) : Prop where
  length : m.fields.length = m.descriptor.fields.length
  singular : ∀ p ∈ m.descriptor.fields.zip m.fields, p.1.isRepeated = false → p.2.length ≤ 1
  values : ∀ p ∈ m.descriptor.fields.zip m.fields, ∀ v ∈ p.2, TrezorPlugin.WellTyped pool p.1 v

/-! ## The conversion of a value -/

mutual

/-- The conversion of one value of the field. -/
def asVariant (fd : FieldDescriptor) : Value → Variant
  | .double bits => .double bits
  | .float bits => .float bits
  | .int64 n => .int64 n
  | .uint64 n => .uint64 n
  | .int32 n => .int32 n
  | .uint32 n => .uint32 n
  | .fixed32 n => .uint32 n
  | .bool b => .bool b
  | .string s => .string s
  | .bytes s => .string (hexEncode s)
  | .enum number => .string ((enumName pool fd number).toOption.getD "")
  | .message md fields => .map (asEntries md.fields fields)

/-- The conversions of the values of the field, one by one. -/
def asVariants (fd : FieldDescriptor) : List Value → List Variant
  | [] => []
  | v :: stored => asVariant fd v :: asVariants fd stored

/-- A repeated field has the list of its elements, a singular one its value if it is set. -/
def asEntries : List FieldDescriptor → List (List Value) → VariantMap
  | fd :: fds, stored :: fields =>
    (if fd.isRepeated then [(fd.name, .list (asVariants fd stored))]
    else ((asVariants fd stored).take 1).map (fd.name, ·)) ++ asEntries fds fields
  | _, _ => []

end

theorem asVariants_eq (fd : FieldDescriptor) (stored : List Value) :
    asVariants pool fd stored = stored.map (asVariant pool fd) := by
  induction stored with
  | nil => rfl
  | cons v stored ih => rw [asVariants, ih, List.map_cons]

/-! ## What can be read back -/

section Every

variable (p : FieldDescriptor → List Value → Prop)

mutual

/-- Every field of the message, and of every message in it, satisfies `p` with its values. -/
def Value.Every : Value → Prop
  | .message md fields => FieldsEvery md.fields fields
  | _ => True

def AllEvery : List Value → Prop
  | [] => True
  | v :: stored => v.Every ∧ AllEvery stored

def FieldsEvery : List FieldDescriptor → List (List Value) → Prop
  | fd :: fds, stored :: fields => p fd stored ∧ AllEvery stored ∧ FieldsEvery fds fields
  | _, _ => True

end

end Every

theorem allEvery_iff {p : FieldDescriptor → List Value → Prop} {stored : List Value} :
    AllEvery p stored ↔ ∀ v ∈ stored, v.Every p := by
  induction stored with
  | nil => simp [AllEvery]
  | cons v stored ih => rw [AllEvery, ih, List.forall_mem_cons]

theorem fieldsEvery_iff {p : FieldDescriptor → List Value → Prop} {fds : List FieldDescriptor}
    {fields : List (List Value)} :
    FieldsEvery p fds fields ↔ ∀ q ∈ fds.zip fields, p q.1 q.2 ∧ ∀ v ∈ q.2, v.Every p := by
  induction fds generalizing fields with
  | nil => simp [FieldsEvery]
  | cons fd fds ih =>
    cases fields with
    | nil => simp [FieldsEvery]
    | cons stored fields =>
      rw [FieldsEvery, ih, allEvery_iff, List.zip_cons_cons, List.forall_mem_cons, and_assoc]

/-- A value that is no message has no fields. -/
theorem every_of_ne_message {p : FieldDescriptor → List Value → Prop} {v : Value}
    (h : v.type ≠ .message) : v.Every p := by
  cases v with
  | message => exact absurd rfl h
  | _ => trivial

/-- A repeated field is of a type with a case for it, with no element if that is `string` or
`bytes`; a singular field that is set is of a handled type. -/
def FieldReadable (fd : FieldDescriptor) (stored : List Value) : Prop :=
  if fd.isRepeated then
    fd.type.isHandled ∧ fd.type ≠ .int64 ∧ fd.type ≠ .uint64 ∧
    (fd.type = .string ∨ fd.type = .bytes → stored = [])
  else stored = [] ∨ fd.type.isHandled

/-- A message all of whose fields can be read back, and any value that is no message. -/
abbrev Value.Readable (v : Value) : Prop := v.Every FieldReadable

abbrev FieldsReadable (fds : List FieldDescriptor) (fields : List (List Value)) : Prop :=
  FieldsEvery FieldReadable fds fields

/-! ## One value -/

variable {pool}

theorem serializing_eq_ok {α : Type} {md : Descriptor} {fd : FieldDescriptor}
    {x : Except Exception α} {a : α} : serializing md fd x = .ok a ↔ x = .ok a := by
  cases x <;> simp [serializing]

/-- The getter of a value that is no message converts it. -/
theorem scalarVariant_eq {fd : FieldDescriptor} {v : Value} (h : WellTyped pool fd v)
    (hv : v.type ≠ .message) : scalarVariant pool fd v = .ok (asVariant pool fd v) := by
  cases h with
  | message _ _ _ _ _ => exact absurd rfl hv
  | scalar htype _ henum =>
    unfold scalarVariant
    rw [if_neg (not_not_intro htype)]
    cases v with
    | enum number =>
      obtain ⟨name, hname⟩ := henum number rfl
      simp only [hname, asVariant, Exec.except_ok_bind]
      rfl
    | message md fields => exact absurd rfl hv
    | _ => rfl

theorem WellTyped.type_eq {fd : FieldDescriptor} {v : Value} (h : WellTyped pool fd v) :
    v.type = fd.type := by
  cases h with
  | scalar htype _ _ => exact htype
  | message htype _ _ _ _ => exact htype.symm

/-- A message gives the map of its fields exactly when they can be read back. -/
def MapsIff (pool : DescriptorPool) (v : Value) : Prop :=
  ∀ md fields, v = .message md fields → ∀ r, serializeFields pool md md.fields fields = .ok r ↔
    FieldsReadable md.fields fields ∧ r = asEntries pool md.fields fields

/-- A value of a field of messages is a message. -/
theorem exists_message {v : Value} (h : v.type = .message) :
    ∃ md fields, v = .message md fields := by
  cases v with
  | message md fields => exact ⟨md, fields, rfl⟩
  | _ => cases h

theorem serializeSingleField_iff {fd : FieldDescriptor} {v : Value} (h : WellTyped pool fd v)
    (hmap : MapsIff pool v) (r : Variant) :
    serializeSingleField pool fd v = .ok r ↔
      (fd.type.isHandled ∧ v.Readable) ∧ r = asVariant pool fd v := by
  have htype := h.type_eq
  rw [serializeSingleField.eq_def]
  cases ht : fd.type with
  | message =>
    obtain ⟨md, fields, rfl⟩ := exists_message (htype.trans ht)
    simp only [Exec.except_return_eq_ok, hmap md fields rfl, asVariant]
    constructor
    · rintro ⟨entries, ⟨hr, rfl⟩, rfl⟩
      exact ⟨⟨rfl, hr⟩, rfl⟩
    · rintro ⟨⟨-, hr⟩, rfl⟩
      exact ⟨_, ⟨hr, rfl⟩, rfl⟩
  | double | float | int64 | uint64 | int32 | uint32 | bool | string | bytes | enum =>
    have hv : v.type ≠ .message := by simp [htype, ht]
    have hr : v.Readable := every_of_ne_message hv
    simp [scalarVariant_eq h hv, FieldType.isHandled, hr, eq_comm]
  | _ => simp [FieldType.isHandled]

/-! ## Repeated fields -/

theorem serializeMessages_iff (fd : FieldDescriptor) {stored : List Value}
    (htype : ∀ v ∈ stored, v.type = .message) (hmap : ∀ v ∈ stored, MapsIff pool v)
    (r : List Variant) :
    serializeMessages pool stored = .ok r ↔
      (∀ v ∈ stored, v.Readable) ∧ r = asVariants pool fd stored := by
  induction stored generalizing r with
  | nil => simp [serializeMessages, asVariants, eq_comm]
  | cons v stored ih =>
    rw [List.forall_mem_cons] at htype hmap ⊢
    obtain ⟨md, fields, rfl⟩ := exists_message htype.1
    rw [serializeMessages, asVariants, asVariant]
    simp only [Exec.except_bind_eq_ok, hmap.1 md fields rfl, ih htype.2 hmap.2]
    constructor
    · rintro ⟨entries, ⟨he, rfl⟩, result, ⟨hr, rfl⟩, heq⟩
      exact ⟨⟨he, hr⟩, (Except.ok.inj heq).symm⟩
    · rintro ⟨⟨he, hr⟩, rfl⟩
      exact ⟨_, ⟨he, rfl⟩, _, ⟨hr, rfl⟩, rfl⟩

/-- **A repeated field** is converted element by element exactly when its elements can be read
back. -/
theorem serializeRepeatedField_iff {fd : FieldDescriptor} {stored : List Value}
    (hfd : fd.isRepeated = true) (h : ∀ v ∈ stored, WellTyped pool fd v)
    (hmap : ∀ v ∈ stored, MapsIff pool v) (r : Variant) :
    serializeRepeatedField pool fd stored = .ok r ↔
      (FieldReadable fd stored ∧ ∀ v ∈ stored, v.Readable) ∧
      r = .list (asVariants pool fd stored) := by
  have htype : ∀ v ∈ stored, v.type = fd.type := fun v hv => (h v hv).type_eq
  rw [serializeRepeatedField.eq_def, FieldReadable, if_pos hfd]
  cases ht : fd.type with
  | message =>
    simp only [Exec.except_return_eq_ok,
      serializeMessages_iff fd (fun v hv => (htype v hv).trans ht) hmap]
    constructor
    · rintro ⟨result, ⟨hr, rfl⟩, rfl⟩
      exact ⟨⟨by simp [FieldType.isHandled], hr⟩, rfl⟩
    · rintro ⟨⟨-, hr⟩, rfl⟩
      exact ⟨_, ⟨hr, rfl⟩, rfl⟩
  | double | float | int32 | uint32 | bool | enum =>
    have hne : ∀ v ∈ stored, v.type ≠ .message := fun v hv => by simp [htype v hv, ht]
    have hm := Exec.mapM_of_forall fun v hv => scalarVariant_eq (h v hv) (hne v hv)
    have hr : ∀ v ∈ stored, v.Readable := fun v hv => every_of_ne_message (hne v hv)
    rw [hm, ← asVariants_eq, Exec.except_ok_bind]
    constructor
    · intro heq
      exact ⟨⟨by simp [FieldType.isHandled], hr⟩, (Except.ok.inj heq).symm⟩
    · rintro ⟨-, rfl⟩
      rfl
  | string | bytes =>
    -- the singular getter fails on the first element
    have hfail : stringVariant pool fd stored = .error usageError := by
      simp [stringVariant, getSingular, hfd]
    cases stored with
    | nil =>
      constructor
      · intro heq
        exact ⟨⟨by simp [FieldType.isHandled], by simp⟩, (Except.ok.inj heq).symm⟩
      · rintro ⟨-, rfl⟩
        rfl
    | cons v stored => simp [hfail, FieldType.isHandled]
  | _ => simp [FieldType.isHandled]

/-! ## Whole messages -/

theorem asEntries_cons (fd : FieldDescriptor) (fds : List FieldDescriptor) (stored : List Value)
    (fields : List (List Value)) :
    asEntries pool (fd :: fds) (stored :: fields) =
      (if fd.isRepeated then [(fd.name, .list (asVariants pool fd stored))]
        else ((asVariants pool fd stored).take 1).map (fd.name, ·)) ++
      asEntries pool fds fields := by
  rw [asEntries]

theorem serializeFields_repeated {md : Descriptor} {fd : FieldDescriptor}
    {fds : List FieldDescriptor} {stored : List Value} {fields : List (List Value)}
    (hr : fd.isRepeated = true) :
    serializeFields pool md (fd :: fds) (stored :: fields) = (do
      let v ← serializing md fd (serializeRepeatedField pool fd stored)
      let result ← serializeFields pool md fds fields
      return (fd.name, v) :: result) := by
  rw [serializeFields.eq_def]
  simp only [hr, if_true]

theorem serializeFields_singular {md : Descriptor} {fd : FieldDescriptor}
    {fds : List FieldDescriptor} {v : Value} {stored : List Value} {fields : List (List Value)}
    (hr : fd.isRepeated = false) :
    serializeFields pool md (fd :: fds) ((v :: stored) :: fields) = (do
      let v ← serializing md fd (serializeSingleField pool fd v)
      let result ← serializeFields pool md fds fields
      return (fd.name, v) :: result) := by
  rw [serializeFields.eq_def]
  simp only [hr, Bool.false_eq_true, if_false]

theorem serializeFields_unset {md : Descriptor} {fd : FieldDescriptor}
    {fds : List FieldDescriptor} {fields : List (List Value)} (hr : fd.isRepeated = false) :
    serializeFields pool md (fd :: fds) ([] :: fields) = serializeFields pool md fds fields := by
  rw [serializeFields.eq_def]
  simp only [hr, Bool.false_eq_true, if_false]

/-- The loop over the fields, when the sub-messages are converted as they should be. -/
theorem serializeFields_iff {md : Descriptor} {fds : List FieldDescriptor}
    {fields : List (List Value)} (hlen : fields.length = fds.length)
    (hsingular : ∀ p ∈ fds.zip fields, p.1.isRepeated = false → p.2.length ≤ 1)
    (htyped : ∀ p ∈ fds.zip fields, ∀ v ∈ p.2, WellTyped pool p.1 v)
    (hmap : ∀ p ∈ fds.zip fields, ∀ v ∈ p.2, MapsIff pool v) (r : VariantMap) :
    serializeFields pool md fds fields = .ok r ↔
      FieldsReadable fds fields ∧ r = asEntries pool fds fields := by
  induction fds generalizing fields r with
  | nil =>
    obtain rfl := List.length_eq_zero_iff.mp hlen
    simp [serializeFields, asEntries, FieldsEvery, eq_comm]
  | cons fd fds ih =>
    obtain ⟨stored, fields, rfl⟩ := List.exists_cons_of_length_eq_add_one hlen
    rw [List.zip_cons_cons, List.forall_mem_cons] at hsingular htyped hmap
    have hrest := ih (Nat.succ.inj hlen) hsingular.2 htyped.2 hmap.2
    rw [FieldsReadable, FieldsEvery, asEntries_cons, allEvery_iff]
    cases hr : fd.isRepeated with
    | true =>
      rw [serializeFields_repeated hr]
      simp only [if_true, Exec.except_bind_eq_ok, serializing_eq_ok, hrest,
        serializeRepeatedField_iff hr htyped.1 hmap.1]
      constructor
      · rintro ⟨v, ⟨⟨h1, h2⟩, rfl⟩, result, ⟨h3, rfl⟩, heq⟩
        exact ⟨⟨h1, h2, h3⟩, (Except.ok.inj heq).symm⟩
      · rintro ⟨⟨h1, h2, h3⟩, rfl⟩
        exact ⟨_, ⟨⟨h1, h2⟩, rfl⟩, _, ⟨h3, rfl⟩, rfl⟩
    | false =>
      simp only [Bool.false_eq_true, if_false]
      have hshort : stored.length ≤ 1 := hsingular.1 hr
      cases stored with
      | nil =>
        rw [serializeFields_unset hr, hrest]
        simp [asVariants, FieldReadable, hr]
      | cons v rest =>
        obtain rfl : rest = [] :=
          List.length_eq_zero_iff.mp (Nat.le_zero.mp (Nat.le_of_succ_le_succ hshort))
        have hfield := serializeSingleField_iff (htyped.1 v List.mem_cons_self)
          (hmap.1 v List.mem_cons_self)
        rw [serializeFields_singular hr, FieldReadable, if_neg (by simp [hr])]
        simp only [Exec.except_bind_eq_ok, serializing_eq_ok, hfield, hrest, asVariants,
          List.forall_mem_singleton]
        constructor
        · rintro ⟨w, ⟨⟨h1, h2⟩, rfl⟩, result, ⟨h3, rfl⟩, heq⟩
          exact ⟨⟨.inr h1, h2, h3⟩, (Except.ok.inj heq).symm⟩
        · rintro ⟨⟨h1, h2, h3⟩, rfl⟩
          have h1 := h1.resolve_left (List.cons_ne_nil v [])
          exact ⟨_, ⟨⟨h1, h2⟩, rfl⟩, _, ⟨h3, rfl⟩, rfl⟩

/-- Every value a field can hold, by induction on how it is built. -/
theorem WellTyped.mapsIff {fd : FieldDescriptor} {v : Value} (h : WellTyped pool fd v) :
    MapsIff pool v := by
  induction h with
  | scalar _ hne _ =>
    rintro md fields rfl
    exact absurd rfl hne
  | message _ _ hlen hsingular htyped ih =>
    rintro md fields ⟨⟩
    exact serializeFields_iff hlen hsingular htyped ih

/-- **message_to_map** gives the map of the message's fields exactly when they can be read back,
and nothing else. -/
theorem messageToMap_iff {m : DynamicMessage} (h : m.WellTyped pool) (r : VariantMap) :
    messageToMap pool m = .ok r ↔ FieldsReadable m.descriptor.fields m.fields ∧
      r = asEntries pool m.descriptor.fields m.fields :=
  serializeFields_iff h.length h.singular h.values (fun p hp v hv => (h.values p hp v hv).mapsIff) r

/-- **Repeated fields are read back element by element** exactly when they are of no 64-bit integer
type, have no elements if they hold strings or bytes, and hold sub-messages of which the same can
be said; and so is a whole message. -/
theorem repeated_reads_back_iff (pool : DescriptorPool) :
    (∀ (fd : FieldDescriptor) (stored : List Value), fd.isRepeated = true →
      fd.type.isHandled = true → (∀ v ∈ stored, WellTyped pool fd v) →
      (serializeRepeatedField pool fd stored = .ok (.list (stored.map (asVariant pool fd))) ↔
        fd.type ≠ .int64 ∧ fd.type ≠ .uint64 ∧
        (fd.type = .string ∨ fd.type = .bytes → stored = []) ∧ ∀ v ∈ stored, v.Readable)) ∧
    ∀ m : DynamicMessage, m.WellTyped pool →
      (messageToMap pool m = .ok (asEntries pool m.descriptor.fields m.fields) ↔
        FieldsReadable m.descriptor.fields m.fields) := by
  refine ⟨?_, fun m h => (messageToMap_iff h _).trans (and_iff_left rfl)⟩
  intro fd stored hrep hhandled h
  rw [← asVariants_eq, serializeRepeatedField_iff hrep h fun v hv => (h v hv).mapsIff,
    FieldReadable, if_pos hrep]
  constructor
  · rintro ⟨⟨⟨-, h1, h2, h3⟩, h4⟩, -⟩
    exact ⟨h1, h2, h3, h4⟩
  · rintro ⟨h1, h2, h3, h4⟩
    exact ⟨⟨⟨hhandled, h1, h2, h3⟩, h4⟩, rfl⟩

/-- A repeated field of this type in a schema without message types. -/
def repeatedField (type : FieldType) : FieldDescriptor := ⟨"items", 1, type, true, ""⟩

theorem repeated_reads_back_iff_enough :
    serializeRepeatedField ⟨[]⟩ (repeatedField .uint32) [.uint32 7, .uint32 9] =
      .ok (.list [.uint32 7, .uint32 9]) := by
  refine ((repeated_reads_back_iff ⟨[]⟩).1 (repeatedField .uint32) [.uint32 7, .uint32 9] rfl rfl
    ?_).mpr ⟨nofun, nofun, nofun, ?_⟩
  · rw [List.forall_mem_cons, List.forall_mem_singleton]
    exact ⟨.leaf rfl (by decide) (by decide), .leaf rfl (by decide) (by decide)⟩
  · rw [List.forall_mem_cons, List.forall_mem_singleton]
    exact ⟨trivial, trivial⟩

theorem repeated_does_not_read_back :
    parseRepeatedField plainConversions ⟨[]⟩ (repeatedField .bytes) [] [.string "07"] =
      .ok [.bytes [7]] ∧
    serializeRepeatedField ⟨[]⟩ (repeatedField .bytes) [.bytes [7]] ≠
      .ok (.list ([.bytes [7]].map (asVariant ⟨[]⟩ (repeatedField .bytes)))) ∧
    parseRepeatedField plainConversions ⟨[]⟩ (repeatedField .uint64) [] [] = .ok [] ∧
    serializeRepeatedField ⟨[]⟩ (repeatedField .uint64) [] ≠
      .ok (.list ([].map (asVariant ⟨[]⟩ (repeatedField .uint64)))) := by
  refine ⟨?_, ?_, ?_, ?_⟩
  · rw [parseRepeatedField.eq_def]
    rfl
  · rw [serializeRepeatedField.eq_def]
    nofun
  · rw [parseRepeatedField.eq_def]
    rfl
  · rw [serializeRepeatedField.eq_def]
    nofun

end TrezorPlugin
