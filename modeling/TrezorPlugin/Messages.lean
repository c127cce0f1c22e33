import TrezorPlugin.Hidapi
import TrezorPlugin.Lib.Keys

/-!
# Message types and the descriptor pool (messages.cpp)

The schema is data: a pool of loaded files, each with its message types and
enums.  What protobuf itself does (building a file into the pool, prototypes,
the wire format of a message) is a parameter `Protobuf Msg`.

* `messageName`, `messageType`: the two directions of the `MessageType` enum;
* `DescriptorPool.messageOf`: the message type the loaded schema has for a number;
* `messageName_messageType`: over a schema whose enum names known messages, the
  number of a message type leads back to it.
-/

namespace TrezorPlugin

/-! ## Descriptors -/

/-- `PB::FieldDescriptor::Type`. -/
inductive FieldType
  | double | float | int64 | uint64 | int32 | fixed64 | fixed32 | bool | string
  | group | message | bytes | uint32 | enum | sfixed32 | sfixed64 | sint32 | sint64
  deriving DecidableEq

structure FieldDescriptor where
  name : String
  number : Nat
  type : FieldType
  isRepeated : Bool
  /-- Full name of the message or enum type of the field. -/
  typeName : String
  deriving DecidableEq

structure Descriptor where
  fullName : String
  fields : List FieldDescriptor
  deriving DecidableEq

structure EnumValueDescriptor where
  name : String
  number : Int
  deriving DecidableEq

structure EnumDescriptor where
  fullName : String
  values : List EnumValueDescriptor
  deriving DecidableEq

structure FileDescriptorProto where
  name : String
  dependency : List String
  messageType : List Descriptor
  enumType : List EnumDescriptor
  deriving DecidableEq

/-- The `file` list of a `FileDescriptorSet`. -/
abbrev FileDescriptorSet := List FileDescriptorProto

/-- The files built into a pool. -/
structure DescriptorPool where
  files : List FileDescriptorProto
  deriving DecidableEq

def DescriptorPool.messageTypes (pool : DescriptorPool) : List Descriptor :=
  pool.files.flatMap (·.messageType)

def DescriptorPool.enumTypes (pool : DescriptorPool) : List EnumDescriptor :=
  pool.files.flatMap (·.enumType)

def DescriptorPool.findMessageTypeByName (pool : DescriptorPool) (name : String) :
    Option Descriptor :=
  pool.messageTypes.find? (·.fullName = name)

def DescriptorPool.findEnumTypeByName (pool : DescriptorPool) (name : String) :
    Option EnumDescriptor :=
  pool.enumTypes.find? (·.fullName = name)

def EnumDescriptor.findValueByName (ed : EnumDescriptor) (name : String) :
    Option EnumValueDescriptor :=
  ed.values.find? (·.name = name)

def EnumDescriptor.findValueByNumber (ed : EnumDescriptor) (number : Int) :
    Option EnumValueDescriptor :=
  ed.values.find? (·.number = number)

/-- protobuf itself. -/
structure Protobuf (Msg : Type) where
  /-- `DescriptorPool::BuildFile`; `none` is its `NULL`. -/
  buildFile : DescriptorPool → FileDescriptorProto → Option DescriptorPool
  /-- `factory->GetPrototype(descriptor)->New()`. -/
  newMessage : Descriptor → Msg
  getTypeName : Msg → String
  serialize : Msg → List UInt8
  /-- `ByteSize` is an `int`. -/
  byteSize_lt : ∀ m, (serialize m).length < 2 ^ 31
  /-- The message as far as it was filled, and what `ParseFromArray` returned. -/
  parseFromArray : Msg → List UInt8 → Msg × Bool

variable {Msg : Type} (P : Protobuf Msg)

/-! ## messages.cpp -/

/-- `MESSAGE_TYPE_ENUM_NAME`. -/
def messageTypeEnumName : String := "MessageType"

/-- `MESSAGE_TYPE_PREFIX`. -/
def messageTypePrefix : String := messageTypeEnumName ++ "_"

/-- The loop over the files; the result of `BuildFile` is not looked at. -/
def loadProtobuf (pool : DescriptorPool) (fdset : FileDescriptorSet) : DescriptorPool :=
  fdset.foldl (fun pool file => (P.buildFile pool file).getD pool) pool

def messageDescriptor (pool : DescriptorPool) (name : String) : Except Exception Descriptor :=
  match pool.findMessageTypeByName name with
  | some md => .ok md
  | none => .error (.messageNameUnknown name)

/-- `s.substr(pos)`. -/
def substr (s : String) (pos : Nat) : Except Exception String :=
  if pos ≤ s.length then .ok (String.ofList (s.toList.drop pos))
  else .error (.outOfRange "basic_string::substr")

/-- `message_name(uint16_t)`. -/
def messageName (pool : DescriptorPool) (type : UInt16) : Except Exception String :=
  match pool.findEnumTypeByName messageTypeEnumName with
  | none => .error (.messageTypeUnknown type)
  | some ed =>
    match ed.findValueByNumber type.toNat with
    | none => .error (.messageTypeUnknown type)
    | some evd => substr evd.name messageTypePrefix.length

/-- `message_type(const std::string &)`. -/
def messageType (pool : DescriptorPool) (name : String) : Except Exception UInt16 :=
  match pool.findEnumTypeByName messageTypeEnumName with
  | none => .error (.messageNameUnknown name)
  | some ed =>
    match ed.findValueByName (messageTypePrefix ++ name) with
    | none => .error (.messageNameUnknown name)
    | some evd => .ok (UInt16.ofInt evd.number)

/-- `message_type(const PB::Message &)`. -/
def messageTypeOf (pool : DescriptorPool) (message : Msg) : Except Exception UInt16 :=
  messageType pool (P.getTypeName message)

def createMessage (pool : DescriptorPool) (name : String) : Except Exception Msg := do
  let descriptor ← messageDescriptor pool name
  return P.newMessage descriptor

/-- What `DeviceChannel::read` makes of a type and its payload bytes. -/
def decode (pool : DescriptorPool) (type : UInt16) (payload : List UInt8) :
    Except Exception Msg := do
  let name ← messageName pool type
  let message ← createMessage P pool name
  return (P.parseFromArray message payload).1

/-! ## The message type of a number -/

/-- The message type the loaded schema has for a number. -/
def DescriptorPool.messageOf (pool : DescriptorPool) (type : UInt16) : Option Descriptor :=
  match messageName pool type with
  | .ok name => pool.findMessageTypeByName name
  | .error _ => none

theorem decode_of_messageOf {pool : DescriptorPool} {type : UInt16} {d : Descriptor}
    (h : pool.messageOf type = some d) (payload : List UInt8) :
    decode P pool type payload = .ok (P.parseFromArray (P.newMessage d) payload).1 := by
  unfold DescriptorPool.messageOf at h
  split at h
  · next name hn =>
    simp only [decode, createMessage, messageDescriptor, hn, Exec.except_ok_bind, h]
    rfl
  · cases h

theorem decode_of_no_message {pool : DescriptorPool} {type : UInt16}
    (h : pool.messageOf type = none) (payload : List UInt8) :
    ∃ e, decode P pool type payload = .error e := by
  unfold DescriptorPool.messageOf at h
  split at h
  · next name hn =>
    refine ⟨.messageNameUnknown name, ?_⟩
    simp only [decode, createMessage, messageDescriptor, hn, Exec.except_ok_bind, h,
      Exec.except_error_bind]
  · next e hn =>
    refine ⟨e, ?_⟩
    simp only [decode, hn, Exec.except_error_bind]

/-- The loaded `MessageType` enum: distinct 16-bit numbers, each value named after a known message. -/
structure WireSchema (pool : DescriptorPool) where
  enum : EnumDescriptor
  loaded : pool.findEnumTypeByName messageTypeEnumName = some enum
  distinct : (enum.values.map (·.number)).Nodup
  range : ∀ v ∈ enum.values, 0 ≤ v.number ∧ v.number < 65536
  known : ∀ v ∈ enum.values, ∃ d, pool.findMessageTypeByName d.fullName = some d ∧
    v.name = messageTypePrefix ++ d.fullName

theorem substr_append (p s : String) : substr (p ++ s) p.length = .ok s := by
  unfold substr
  rw [if_pos (by simp), String.toList_append, ← String.length_toList, List.drop_left,
    String.ofList_toList]

/-- **The enum leads back.**  The number written for a message type is read as that type. -/
theorem messageName_messageType {pool : DescriptorPool} (S : WireSchema pool) {name : String}
    {type : UInt16} (h : messageType pool name = .ok type) :
    messageName pool type = .ok name ∧
    ∃ d, pool.messageOf type = some d ∧ d.fullName = name := by
  have hn : messageName pool type = .ok name ∧ ∃ d, pool.findMessageTypeByName name = some d ∧
      d.fullName = name := by
    unfold messageType at h
    simp only [S.loaded] at h
    split at h
    · cases h
    · next evd hevd =>
      cases h
      have hname : evd.name = messageTypePrefix ++ name := by
        simpa [EnumDescriptor.findValueByName] using List.find?_some hevd
      have hmem : evd ∈ S.enum.values := List.mem_of_find?_eq_some hevd
      have hr := S.range evd hmem
      have hfind : S.enum.values.find? (·.number = evd.number) = some evd :=
        (Keys.find_key_eq_some (Keys.unique_of_nodup S.distinct)).mpr ⟨hmem, rfl⟩
      have hnum : ((UInt16.ofInt evd.number).toNat : Int) = evd.number := by
        simp only [UInt16.ofInt, UInt16.toNat_ofNat']
        omega
      obtain ⟨d, hd, hdn⟩ := S.known evd hmem
      have hdname : d.fullName = name := by
        have := substr_append messageTypePrefix d.fullName
        rw [← hdn, hname, substr_append] at this
        exact (Except.ok.inj this).symm
      refine ⟨?_, d, hdname ▸ hd, hdname⟩
      unfold messageName
      simp only [S.loaded, EnumDescriptor.findValueByNumber, hnum, hfind, hname, substr_append]
  obtain ⟨h1, d, h2, h3⟩ := hn
  exact ⟨h1, d, by simp only [DescriptorPool.messageOf, h1, h2], h3⟩

/-! ## A protobuf that keeps a message as its wire bytes

Fields a message type does not declare stay in a message as the bytes they came
in, so over message types without fields this is what protobuf does. -/

structure RawMessage where
  typeName : String
  body : List UInt8
  fits : body.length < 2 ^ 31

theorem nil_fits : ([] : List UInt8).length < 2 ^ 31 := by decide

def FileDescriptorProto.symbols (file : FileDescriptorProto) : List String :=
  file.messageType.map (·.fullName) ++ file.enumType.map (·.fullName)

def DescriptorPool.symbols (pool : DescriptorPool) : List String :=
  pool.files.flatMap FileDescriptorProto.symbols

/-- A file is built if it is already there, or if its name is free, its imports are loaded and its
symbols are new. -/
def rawBuildFile (pool : DescriptorPool) (file : FileDescriptorProto) : Option DescriptorPool :=
  if file ∈ pool.files then some pool
  else if file.name ∉ pool.files.map (·.name) ∧
      (∀ dep ∈ file.dependency, dep ∈ pool.files.map (·.name)) ∧
      file.symbols.Nodup ∧ (∀ name ∈ file.symbols, name ∉ pool.symbols) then
    some ⟨pool.files ++ [file]⟩
  else none

def rawProtobuf : Protobuf RawMessage where
  buildFile := rawBuildFile
  newMessage d := ⟨d.fullName, [], nil_fits⟩
  getTypeName m := m.typeName
  serialize m := m.body
  byteSize_lt m := m.fits
  parseFromArray m bytes :=
    if h : bytes.length < 2 ^ 31 then (⟨m.typeName, bytes, h⟩, true) else (m, false)

theorem findMessageTypeByName_fullName {pool : DescriptorPool} {name : String} {d : Descriptor}
    (h : pool.findMessageTypeByName name = some d) : d.fullName = name := by
  unfold DescriptorPool.findMessageTypeByName at h
  simpa using List.find?_some h

/-- A raw message is read back from its own bytes. -/
theorem raw_parse_serialize {pool : DescriptorPool} {m : RawMessage} {d : Descriptor}
    (h : pool.findMessageTypeByName (rawProtobuf.getTypeName m) = some d) :
    rawProtobuf.parseFromArray (rawProtobuf.newMessage d) (rawProtobuf.serialize m) = (m, true) := by
  have hname : d.fullName = m.typeName := findMessageTypeByName_fullName h
  simp only [rawProtobuf, dif_pos m.fits, hname]

/-- Message types `Ping` (number 0) and `Pong` (number 1), both without fields. -/
def pingPool : DescriptorPool :=
  ⟨[⟨"ping.proto", [], [⟨"Ping", []⟩, ⟨"Pong", []⟩],
    [⟨"MessageType", [⟨"MessageType_Ping", 0⟩, ⟨"MessageType_Pong", 1⟩]⟩]⟩]⟩

def pingMessage : RawMessage := ⟨"Ping", [], nil_fits⟩

end TrezorPlugin
