import TrezorPlugin.Messages
import TrezorPlugin.Hex

/-!
# Messages as maps (messages.cpp)

A dynamic message holds, for each field its descriptor declares, the list of its
values: of a singular field none or one, of a repeated one any number.  A
`FB::variant` is a value with its type; the page's objects and arrays are the maps
and lists of their entries.

    messageToMap: DynamicMessage → VariantMap        messageFromMap: VariantMap → DynamicMessage

each a loop over the fields, with one switch over the types for singular and one
for repeated fields.  FireBreath's conversions are a parameter `Conversions`.
-/

namespace TrezorPlugin

/-! ## Dynamic messages -/

/-- One value of a field.  A `double` and a `float` are their bits, a sub-message is its descriptor
with the values of each of its fields.  The types that are never set have none. -/
inductive Value
  | double (bits : UInt64)
  | float (bits : UInt32)
  | int64 (n : Int64)
  | uint64 (n : UInt64)
  | int32 (n : Int32)
  | uint32 (n : UInt32)
  | fixed32 (n : UInt32)
  | bool (b : Bool)
  | string (s : String)
  | bytes (s : List UInt8)
  | enum (number : Int)
  | message (descriptor : Descriptor) (fields : List (List Value))

/-- The type of the fields that hold it. -/
def Value.type : Value → FieldType
  | .double _ => .double
  | .float _ => .float
  | .int64 _ => .int64
  | .uint64 _ => .uint64
  | .int32 _ => .int32
  | .uint32 _ => .uint32
  | .fixed32 _ => .fixed32
  | .bool _ => .bool
  | .string _ => .string
  | .bytes _ => .bytes
  | .enum _ => .enum
  | .message _ _ => .message

/-- A message with the values of each of its fields, in the order of the descriptor. -/
structure DynamicMessage where
  descriptor : Descriptor
  fields : List (List Value)

/-- `prototype->New()`: no field is set. -/
def DynamicMessage.new (descriptor : Descriptor) : DynamicMessage :=
  ⟨descriptor, descriptor.fields.map fun _ => []⟩

/-- `fd->full_name()`, for a field of `md`. -/
def FieldDescriptor.fullName (md : Descriptor) (fd : FieldDescriptor) : String :=
  md.fullName ++ "." ++ fd.name

/-! ## Variants -/

/-- `FB::variant`. -/
inductive Variant
  | empty
  | bool (b : Bool)
  | int32 (n : Int32)
  | uint32 (n : UInt32)
  | int64 (n : Int64)
  | uint64 (n : UInt64)
  | float (bits : UInt32)
  | double (bits : UInt64)
  | string (s : String)
  | list (vs : List Variant)
  | map (entries : List (String × Variant))

/-- `FB::VariantMap`, as its entries. -/
abbrev VariantMap := List (String × Variant)

/-- `FB::variant::convert_cast`; any conversion may throw. -/
structure Conversions where
  /-- The number the variant is or spells. -/
  number : Variant → Except Exception Int
  double : Variant → Except Exception UInt64
  float : Variant → Except Exception UInt32
  bool : Variant → Except Exception Bool
  string : Variant → Except Exception String

/-- `FB::bad_variant_cast`. -/
def badVariantCast : Exception := .library "bad variant cast"

variable (C : Conversions)

/-- The number, if it is in the range of the target type. -/
def Conversions.inRange (lo hi : Int) (v : Variant) : Except Exception Int := do
  let n ← C.number v
  if lo ≤ n ∧ n ≤ hi then return n else throw badVariantCast

/-- `convert_cast<int>`. -/
def Conversions.int32 (v : Variant) : Except Exception Int32 := do
  return Int32.ofInt (← C.inRange (-2 ^ 31) (2 ^ 31 - 1) v)

/-- `convert_cast<unsigned int>`. -/
def Conversions.uint32 (v : Variant) : Except Exception UInt32 := do
  return UInt32.ofInt (← C.inRange 0 (2 ^ 32 - 1) v)

/-- `convert_cast<int64_t>`. -/
def Conversions.int64 (v : Variant) : Except Exception Int64 := do
  return Int64.ofInt (← C.inRange (-2 ^ 63) (2 ^ 63 - 1) v)

/-- `convert_cast<uint64_t>`. -/
def Conversions.uint64 (v : Variant) : Except Exception UInt64 := do
  return UInt64.ofInt (← C.inRange 0 (2 ^ 64 - 1) v)

/-- A variant gives back a value of the type it was made from, and no other. -/
def plainConversions : Conversions where
  number
    | .int32 n => .ok n.toInt
    | .uint32 n => .ok n.toNat
    | .int64 n => .ok n.toInt
    | .uint64 n => .ok n.toNat
    | _ => .error badVariantCast
  double
    | .double bits => .ok bits
    | _ => .error badVariantCast
  float
    | .float bits => .ok bits
    | _ => .error badVariantCast
  bool
    | .bool b => .ok b
    | _ => .error badVariantCast
  string
    | .string s => .ok s
    | _ => .error badVariantCast

/-! ## Serializing -/

/-- protobuf's `FatalException` on an accessor that does not fit the field. -/
def usageError : Exception := .library "Protocol Buffer reflection usage error"

variable (pool : DescriptorPool)

/-- `fd.enum_type()`. -/
def FieldDescriptor.enumType (fd : FieldDescriptor) : Option EnumDescriptor :=
  pool.findEnumTypeByName fd.typeName

/-- `fd.message_type()`. -/
def FieldDescriptor.messageType (fd : FieldDescriptor) : Option Descriptor :=
  pool.findMessageTypeByName fd.typeName

/-- The name of the enum value stored, `GetEnum(…)->name()`. -/
def enumName (fd : FieldDescriptor) (number : Int) : Except Exception String :=
  match (fd.enumType pool).bind (·.findValueByNumber number) with
  | some evd => .ok evd.name
  | none => .error usageError

/-- One value that is no message, as its getter hands it over and with `hex_encode` for bytes. -/
def scalarVariant (fd : FieldDescriptor) (v : Value) : Except Exception Variant :=
  if v.type ≠ fd.type then .error usageError
  else
    match v with
    | .double bits => .ok (.double bits)
    | .float bits => .ok (.float bits)
    | .int64 n => .ok (.int64 n)
    | .uint64 n => .ok (.uint64 n)
    | .int32 n => .ok (.int32 n)
    | .uint32 n => .ok (.uint32 n)
    | .fixed32 n => .ok (.uint32 n)
    | .bool b => .ok (.bool b)
    | .string s => .ok (.string s)
    | .bytes s => .ok (.string (hexEncode s))
    | .enum number => do return .string (← enumName pool fd number)
    | .message _ _ => .error usageError

/-- A singular getter: the value of the field, if it is set.  It fails on a repeated field. -/
def getSingular (fd : FieldDescriptor) (stored : List Value) : Except Exception (Option Value) :=
  if fd.isRepeated then .error usageError else .ok stored.head?

/-- `GetString`, with `hex_encode` around it for bytes. -/
def stringVariant (fd : FieldDescriptor) (stored : List Value) : Except Exception Variant := do
  match ← getSingular fd stored with
  | some v => scalarVariant pool fd v
  | none => return .string ""

/-- The `catch` of `message_to_map`. -/
def serializing {α : Type} (md : Descriptor) (fd : FieldDescriptor) (x : Except Exception α) :
    Except Exception α :=
  match x with
  | .ok a => .ok a
  | .error e => .error (.invalidArgument
      ("Error while serializing '" ++ fd.fullName md ++ "', caused by: " ++ e.what))

mutual

/-- `serialize_single_field`, on the value of a field that is set. -/
def serializeSingleField (fd : FieldDescriptor) (v : Value) : Except Exception Variant :=
  match fd.type, v with
  | .double, v | .float, v | .int64, v | .uint64, v | .int32, v | .uint32, v | .bool, v
  | .string, v | .bytes, v | .enum, v => scalarVariant pool fd v
  | .message, .message md fields => do return .map (← serializeFields md md.fields fields)
  | .message, _ => .error usageError
  | _, _ => .error (.invalidArgument "Protobuf field of unknown type")
  termination_by sizeOf v
  decreasing_by
    show sizeOf fields < sizeOf (Value.message md fields)
    rw [Value.message.sizeOf_spec]
    omega

/-- `serialize_repeated_field`. -/
def serializeRepeatedField (fd : FieldDescriptor) (stored : List Value) :
    Except Exception Variant :=
  match fd.type with
  | .double | .float | .int32 | .uint32 | .bool | .enum => do
    return .list (← stored.mapM (scalarVariant pool fd))
  -- the getter called for each element is the singular one
  | .string | .bytes => do return .list (← stored.mapM fun _ => stringVariant pool fd stored)
  | .message => do return .list (← serializeMessages stored)
  | _ => .error (.invalidArgument "Protobuf field of unknown/invalid type")
  termination_by sizeOf stored + 1

/-- The loop over the elements of a repeated message field. -/
def serializeMessages (stored : List Value) : Except Exception (List Variant) :=
  match stored with
  | [] => .ok []
  | .message md fields :: stored => do
    let entries ← serializeFields md md.fields fields
    let result ← serializeMessages stored
    return .map entries :: result
  | _ :: _ => .error usageError
  termination_by sizeOf stored

/-- The loop of `message_to_map` over the fields of `md`.  Their names are distinct, so no entry is
assigned twice. -/
def serializeFields (md : Descriptor) (fds : List FieldDescriptor) (fields : List (List Value)) :
    Except Exception VariantMap :=
  match fds, fields with
  | fd :: fds, stored :: fields =>
    if fd.isRepeated then do
      let v ← serializing md fd (serializeRepeatedField fd stored)
      let result ← serializeFields md fds fields
      return (fd.name, v) :: result
    else
      match stored with
      | [] => serializeFields md fds fields
      | v :: _ => do
        let v ← serializing md fd (serializeSingleField fd v)
        let result ← serializeFields md fds fields
        return (fd.name, v) :: result
  | _, _ => .ok []
  termination_by sizeOf fields
  decreasing_by all_goals (simp only [List.cons.sizeOf_spec]; cases fields <;> simp +arith)

end

/-- `message_to_map`. -/
def messageToMap (message : DynamicMessage) : Except Exception VariantMap :=
  serializeFields pool message.descriptor message.descriptor.fields message.fields

/-! ## Parsing -/

/-- A value that is no message, from a variant. -/
def scalarValue (fd : FieldDescriptor) (val : Variant) : Except Exception Value :=
  match fd.type with
  | .double => do return .double (← C.double val)
  | .float => do return .float (← C.float val)
  | .int64 => do return .int64 (← C.int64 val)
  | .int32 => do return .int32 (← C.int32 val)
  | .uint64 => do return .uint64 (← C.uint64 val)
  | .uint32 => do return .uint32 (← C.uint32 val)
  | .bool => do return .bool (← C.bool val)
  | .string => do return .string (← C.string val)
  | .bytes => do return .bytes (← hexDecode (← C.string val))
  | .enum => do
    let name ← C.string val
    match (fd.enumType pool).bind (·.findValueByName name) with
    | some evd => return .enum evd.number
    | none => throw (.invalidArgument "Unknown enum value")
  | _ => throw (.invalidArgument "Protobuf field of unknown/invalid type")

/-- `MutableMessage`: the sub-message of type `md`, a new one if it is not set. -/
def mutableMessage (md : Descriptor) (stored : List Value) : DynamicMessage :=
  match stored with
  | .message md fields :: _ => ⟨md, fields⟩
  | _ => .new md

/-- The `catch` of `message_from_map`. -/
def parsing {α : Type} (md : Descriptor) (fd : FieldDescriptor) (x : Except Exception α) :
    Except Exception α :=
  match x with
  | .ok a => .ok a
  | .error e => .error (.invalidArgument
      ("Error while parsing " ++ fd.fullName md ++ ", caused by: " ++ e.what))

/-- A loop over the fields of a message, each with its values. -/
def eachField (f : FieldDescriptor → List Value → Except Exception (List Value)) :
    List FieldDescriptor → List (List Value) → Except Exception (List (List Value))
  | fd :: fds, stored :: fields => do
    let stored ← f fd stored
    let fields ← eachField f fds fields
    return stored :: fields
  | _, fields => .ok fields

theorem sizeOf_lookup {map : VariantMap} {name : String} {val : Variant}
    (h : map.lookup name = some val) : sizeOf val < sizeOf map := by
  induction map with
  | nil => cases h
  | cons entry map ih =>
    obtain ⟨k, v⟩ := entry
    rw [List.lookup_cons] at h
    simp only [List.cons.sizeOf_spec, Prod.mk.sizeOf_spec]
    split at h
    · cases h
      omega
    · have := ih h
      omega

mutual

/-- `parse_single_field`: the values of the field afterwards. -/
def parseSingleField (fd : FieldDescriptor) (stored : List Value) (val : Variant) :
    Except Exception (List Value) :=
  match fd.type, fd.messageType pool, val with
  | .message, some md, .map entries => do
    let fm ← messageFromMap (mutableMessage md stored) entries
    return [.message fm.descriptor fm.fields]
  | .message, some _, _ => .error badVariantCast
  | .message, none, _ => .error usageError
  | _, _, val => do return [← scalarValue C pool fd val]
  termination_by sizeOf val
  decreasing_by
    show sizeOf entries < sizeOf (Variant.map entries)
    rw [Variant.map.sizeOf_spec]
    omega

/-- `parse_repeated_field`: the values of the field afterwards. -/
def parseRepeatedField (fd : FieldDescriptor) (stored : List Value) (val : List Variant) :
    Except Exception (List Value) :=
  match fd.type with
  | .double | .float | .int32 | .uint32 | .bool | .string | .bytes | .enum => do
    return stored ++ (← val.mapM (scalarValue C pool fd))
  -- `convert_cast<int>` and `convert_cast<unsigned int>`
  | .int64 => do
    return stored ++ (← val.mapM fun v => do return .int64 (Int64.ofInt (← C.int32 v).toInt))
  | .uint64 => do
    return stored ++ (← val.mapM fun v => do return .uint64 (← C.uint32 v).toUInt64)
  | .message => do return stored ++ (← parseMessages fd val)
  | _ => .error (.invalidArgument "Protobuf field of unknown/invalid type")
  termination_by sizeOf val + 1

/-- The loop over the elements for a repeated field of messages. -/
def parseMessages (fd : FieldDescriptor) (val : List Variant) : Except Exception (List Value) :=
  match val with
  | [] => .ok []
  | v :: val =>
    match fd.messageType pool, v with
    | some md, .map entries => do
      let fm ← messageFromMap (.new md) entries
      let result ← parseMessages fd val
      return .message fm.descriptor fm.fields :: result
    | some _, _ => .error badVariantCast
    | none, _ => .error usageError
  termination_by sizeOf val

/-- `message_from_map`. -/
def messageFromMap (message : DynamicMessage) (map : VariantMap) :
    Except Exception DynamicMessage := do
  let md := message.descriptor
  let fields ← eachField (fun fd stored =>
      match h : map.lookup fd.name with
      | none => .ok stored
      | some val =>
        have := sizeOf_lookup h
        parsing md fd (if fd.isRepeated then
            match val with
            | .list vs => parseRepeatedField fd stored vs
            | _ => .error badVariantCast
          else parseSingleField fd stored val)) md.fields message.fields
  return ⟨md, fields⟩
  termination_by sizeOf map
  decreasing_by
    · rw [Variant.list.sizeOf_spec] at this
      omega
    · exact this

end

end TrezorPlugin
