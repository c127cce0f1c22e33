import Mathlib.Data.List.TakeDrop
import TrezorPlugin.Typing
import TrezorPlugin.MapRoundTrip

/-!
# Public child derivation (apis.cpp, messages.cpp)

`derive_child_node` parses the page's map into an `HDNodeType` message, reads the
five fields of a public node from it, derives the child, writes its fields back
and returns the message as a map.

    map → message → HDNode → hdnode_public_ckd → HDNode → message → map

trezor-crypto is a parameter `HdnodeLibrary`.  It is handed pointers into the
strings of the message: 32 bytes of chain code and 33 of public key are read,
however many there are.  What it reports about the derivation is not looked at.

What the getters find in a message is `Reads`, and what the setters leave in it
`NodeWritten`, which `message_from_hdnode` is proved to establish.
-/

namespace TrezorPlugin

/-! ## trezor-crypto -/

/-- `HDNode`, without the private key. -/
structure HDNode where
  depth : UInt32
  fingerprint : UInt32
  childNum : UInt32
  chainCode : List UInt8
  publicKey : List UInt8
  chainCode_length : chainCode.length = 32
  publicKey_length : publicKey.length = 33

structure HdnodeLibrary where
  /-- `hdnode_from_xpub`, with the 32 and the 33 bytes it reads. -/
  hdnodeFromXpub : UInt32 → UInt32 → UInt32 → List UInt8 → List UInt8 → HDNode
  /-- `hdnode_public_ckd`: its result and what it leaves in the node. -/
  hdnodePublicCkd : HDNode → UInt32 → Int × HDNode

/-! ## Fields of a message -/

/-- The values of a field. -/
def DynamicMessage.stored (message : DynamicMessage) (fd : FieldDescriptor) : List Value :=
  ((message.descriptor.fields.zip message.fields).lookup fd).getD []

/-- The fields with `v` as the value of `fd`. -/
def setField (fd : FieldDescriptor) (v : Value) :
    List FieldDescriptor → List (List Value) → List (List Value)
  | fd' :: fds, stored :: fields =>
    if fd' = fd then [v] :: fields else stored :: setField fd v fds fields
  | _, fields => fields

def DynamicMessage.set (message : DynamicMessage) (fd : FieldDescriptor) (v : Value) :
    DynamicMessage :=
  ⟨message.descriptor, setField fd v message.descriptor.fields message.fields⟩

/-- The bytes of a `std::string`. -/
def bytesOf (s : String) : List UInt8 := s.toList.map fun c => UInt8.ofNat c.toNat

/-- The `std::string` of these bytes. -/
def stringOf (s : List UInt8) : String := String.ofList (s.map fun b => Char.ofNat b.toNat)

/-- `ref->GetUInt32`. -/
def getUInt32 (message : DynamicMessage) (fd : FieldDescriptor) : Except Exception UInt32 :=
  match fd.isRepeated, fd.type, message.stored fd with
  | false, .uint32, [] | false, .fixed32, [] => .ok 0
  | false, .uint32, .uint32 n :: _ => .ok n
  | false, .fixed32, .fixed32 n :: _ => .ok n
  | _, _, _ => .error usageError

/-- `ref->GetString`. -/
def getString (message : DynamicMessage) (fd : FieldDescriptor) : Except Exception (List UInt8) :=
  match fd.isRepeated, fd.type, message.stored fd with
  | false, .string, [] | false, .bytes, [] => .ok []
  | false, .string, .string s :: _ => .ok (bytesOf s)
  | false, .bytes, .bytes s :: _ => .ok s
  | _, _, _ => .error usageError

/-- `ref->SetUInt32`. -/
def setUInt32 (message : DynamicMessage) (fd : FieldDescriptor) (n : UInt32) :
    Except Exception DynamicMessage :=
  match fd.isRepeated, fd.type with
  | false, .uint32 => .ok (message.set fd (.uint32 n))
  | false, .fixed32 => .ok (message.set fd (.fixed32 n))
  | _, _ => .error usageError

/-- `ref->SetString`. -/
def setString (message : DynamicMessage) (fd : FieldDescriptor) (s : List UInt8) :
    Except Exception DynamicMessage :=
  match fd.isRepeated, fd.type with
  | false, .string => .ok (message.set fd (.string (stringOf s)))
  | false, .bytes => .ok (message.set fd (.bytes s))
  | _, _ => .error usageError

/-- `field_or_throw`. -/
def fieldOrThrow (md : Descriptor) (name : String) : Except Exception FieldDescriptor :=
  match md.fields.find? (·.name = name) with
  | some fd => .ok fd
  | none => .error (.invalidArgument ("Field '" ++ name ++ "' not found"))

/-! ## Nodes -/

/-- An exception of a function that only throws. -/
def throwing {α : Type} (x : Except Exception α) : Except Stop α := x.mapError .throws

/-- `n` bytes from `s.data()`. -/
def readBytes (n : Nat) (s : List UInt8) : Except Stop (List UInt8) :=
  if n ≤ s.length then .ok (s.take n) else .error .undefined

variable (K : HdnodeLibrary) (C : Conversions) (pool : DescriptorPool)

/-- `message_to_hdnode`. -/
def messageToHdnode (message : DynamicMessage) : Except Stop HDNode := do
  let md := message.descriptor
  let chainCode ← throwing (do getString message (← fieldOrThrow md "chain_code"))
  let publicKey ← throwing (do getString message (← fieldOrThrow md "public_key"))
  let depth ← throwing (do getUInt32 message (← fieldOrThrow md "depth"))
  let fingerprint ← throwing (do getUInt32 message (← fieldOrThrow md "fingerprint"))
  let childNum ← throwing (do getUInt32 message (← fieldOrThrow md "child_num"))
  let chainCode ← readBytes 32 chainCode
  let publicKey ← readBytes 33 publicKey
  return K.hdnodeFromXpub depth fingerprint childNum chainCode publicKey

/-- `message_from_hdnode`. -/
def messageFromHdnode (message : DynamicMessage) (node : HDNode) :
    Except Exception DynamicMessage := do
  let md := message.descriptor
  let message ← setUInt32 message (← fieldOrThrow md "depth") node.depth
  let message ← setUInt32 message (← fieldOrThrow md "fingerprint") node.fingerprint
  let message ← setUInt32 message (← fieldOrThrow md "child_num") node.childNum
  let message ← setString message (← fieldOrThrow md "chain_code") node.chainCode
  setString message (← fieldOrThrow md "public_key") node.publicKey

/-- The `catch` of `derive_child_node`. -/
def asScriptError {α : Type} (x : Except Stop α) : Except Stop α :=
  match x with
  | .error (.throws e) => .error (.throws (.scriptError e.what))
  | x => x

/-- `PluginAPI::derive_child_node`. -/
def deriveChildNode (nodeMap : VariantMap) (index : UInt32) : Except Stop VariantMap :=
  asScriptError (do
    -- `create_message`
    let md ← throwing (messageDescriptor pool "HDNodeType")
    let nodeMsg ← throwing (messageFromMap C pool (.new md) nodeMap)
    let node ← messageToHdnode K nodeMsg
    let node := (K.hdnodePublicCkd node index).2
    let nodeMsg ← throwing (messageFromHdnode nodeMsg node)
    throwing (messageToMap pool nodeMsg))

/-! ## Reading and writing fields -/

variable {K C pool}

theorem fieldOrThrow_eq_ok {md : Descriptor} {name : String} {fd : FieldDescriptor} :
    fieldOrThrow md name = .ok fd ↔ md.fields.find? (·.name = name) = some fd := by
  unfold fieldOrThrow
  split
  · next hfd => rw [hfd, Option.some.injEq, Except.ok.injEq]
  · next hfd =>
    rw [hfd]
    exact iff_of_false nofun nofun

theorem name_of_find {fds : List FieldDescriptor} {name : String} {fd : FieldDescriptor}
    (h : fds.find? (·.name = name) = some fd) : fd ∈ fds ∧ fd.name = name :=
  ⟨List.mem_of_find?_eq_some h, by simpa using List.find?_some h⟩

theorem getUInt32_eq_ok {message : DynamicMessage} {fd : FieldDescriptor} {n : UInt32}
    (h : getUInt32 message fd = .ok n) :
    fd.isRepeated = false ∧ (fd.type = .uint32 ∨ fd.type = .fixed32) := by
  unfold getUInt32 at h
  split at h <;> simp_all

theorem getString_eq_ok {message : DynamicMessage} {fd : FieldDescriptor} {s : List UInt8}
    (h : getString message fd = .ok s) :
    fd.isRepeated = false ∧ (fd.type = .string ∨ fd.type = .bytes) := by
  unfold getString at h
  split at h <;> simp_all

theorem length_setField {fd : FieldDescriptor} {v : Value} {fds : List FieldDescriptor}
    {fields : List (List Value)} : (setField fd v fds fields).length = fields.length := by
  fun_induction setField fd v fds fields <;> simp_all

theorem mem_zip_setField {fd : FieldDescriptor} {v : Value} {fds : List FieldDescriptor}
    {fields : List (List Value)} {p : FieldDescriptor × List Value}
    (h : p ∈ fds.zip (setField fd v fds fields)) : p = (fd, [v]) ∨ p ∈ fds.zip fields := by
  fun_induction setField fd v fds fields with
  | case1 fds stored fields =>
    rw [List.zip_cons_cons, List.mem_cons] at h ⊢
    exact h.imp_right .inr
  | case2 fd' fds stored fields hne ih =>
    rw [List.zip_cons_cons, List.mem_cons] at h ⊢
    rcases h with h | h
    · exact .inr (.inl h)
    · exact (ih h).imp_right .inr
  | case3 => exact .inr h

theorem lookup_cons_ne {α β : Type} [DecidableEq α] {k k' : α} (h : k ≠ k') (b : β)
    (l : List (α × β)) : ((k', b) :: l).lookup k = l.lookup k := by
  rw [List.lookup_cons, beq_eq_false_iff_ne.mpr h]

theorem lookup_zip_mem {fds : List FieldDescriptor} {fields : List (List Value)}
    {fd : FieldDescriptor} (hfd : fd ∈ fds) (hlen : fields.length = fds.length) :
    ∃ stored, (fds.zip fields).lookup fd = some stored ∧ (fd, stored) ∈ fds.zip fields := by
  induction fds generalizing fields with
  | nil => cases hfd
  | cons fd' fds ih =>
    obtain ⟨stored, fields, rfl⟩ := List.exists_cons_of_length_eq_add_one hlen
    rw [List.zip_cons_cons]
    by_cases heq : fd = fd'
    · subst heq
      exact ⟨stored, List.lookup_cons_self, List.mem_cons_self⟩
    · obtain ⟨r, hr, hmem⟩ := ih ((List.mem_cons.mp hfd).resolve_left heq) (Nat.succ.inj hlen)
      exact ⟨r, (lookup_cons_ne heq stored _).trans hr, List.mem_cons_of_mem _ hmem⟩

/-- The values of a field of the message. -/
theorem stored_mem {message : DynamicMessage} {fd : FieldDescriptor}
    (hfd : fd ∈ message.descriptor.fields)
    (hlen : message.fields.length = message.descriptor.fields.length) :
    (message.descriptor.fields.zip message.fields).lookup fd = some (message.stored fd) ∧
      (fd, message.stored fd) ∈ message.descriptor.fields.zip message.fields := by
  obtain ⟨stored, hlookup, hmem⟩ := lookup_zip_mem hfd hlen
  have hstored : message.stored fd = stored := by rw [DynamicMessage.stored, hlookup]; rfl
  exact hstored ▸ ⟨hlookup, hmem⟩

theorem lookup_setField {fd fd' : FieldDescriptor} {v : Value} {fds : List FieldDescriptor}
    {fields : List (List Value)} (hlen : fields.length = fds.length) :
    (fds.zip (setField fd v fds fields)).lookup fd' =
      if fd' = fd ∧ fd ∈ fds then some [v] else (fds.zip fields).lookup fd' := by
  induction fds generalizing fields with
  | nil => simp [setField]
  | cons fd0 fds ih =>
    obtain ⟨stored, fields, rfl⟩ := List.exists_cons_of_length_eq_add_one hlen
    rw [setField]
    by_cases h0 : fd0 = fd
    · subst h0
      rw [if_pos rfl, List.zip_cons_cons, List.zip_cons_cons]
      by_cases heq : fd' = fd0
      · subst heq
        rw [List.lookup_cons_self, if_pos ⟨rfl, List.mem_cons_self⟩]
      · rw [lookup_cons_ne heq, lookup_cons_ne heq, if_neg fun h => heq h.1]
    · rw [if_neg h0, List.zip_cons_cons, List.zip_cons_cons]
      by_cases heq : fd' = fd0
      · subst heq
        rw [List.lookup_cons_self, List.lookup_cons_self, if_neg fun h => h0 h.1]
      · have hmem : fd ∈ fd0 :: fds ↔ fd ∈ fds := by
          rw [List.mem_cons, or_iff_right fun h => h0 h.symm]
        rw [lookup_cons_ne heq, lookup_cons_ne heq, ih (Nat.succ.inj hlen)]
        simp only [hmem]

theorem stored_set {message : DynamicMessage} {fd : FieldDescriptor} (v : Value)
    (hfd : fd ∈ message.descriptor.fields)
    (hlen : message.fields.length = message.descriptor.fields.length) (fd' : FieldDescriptor) :
    (message.set fd v).stored fd' = if fd' = fd then [v] else message.stored fd' := by
  show ((message.descriptor.fields.zip (setField fd v message.descriptor.fields
    message.fields)).lookup fd').getD [] = _
  rw [lookup_setField hlen, DynamicMessage.stored]
  split
  · next h => rw [if_pos h.1, Option.getD_some]
  · next h => rw [if_neg fun heq => h ⟨heq, hfd⟩]

/-- The entry that `message_to_map` makes of a field, if it makes one. -/
def entryOf (pool : DescriptorPool) (fd : FieldDescriptor) (stored : List Value) : Option Variant :=
  if fd.isRepeated then some (.list (asVariants pool fd stored))
  else (stored.map (asVariant pool fd)).head?

theorem lookup_entry {fd : FieldDescriptor} {stored : List Value} :
    (if fd.isRepeated then [(fd.name, Variant.list (asVariants pool fd stored))]
      else ((asVariants pool fd stored).take 1).map (fd.name, ·)).lookup fd.name =
        entryOf pool fd stored := by
  unfold entryOf
  rw [asVariants_eq]
  split
  · simp
  · cases stored <;> simp

theorem lookup_entry_ne {fd : FieldDescriptor} {stored : List Value} {name : String}
    (h : name ≠ fd.name) :
    (if fd.isRepeated then [(fd.name, Variant.list (asVariants pool fd stored))]
      else ((asVariants pool fd stored).take 1).map (fd.name, ·)).lookup name = none := by
  split
  · exact lookup_map_eq_none h [_]
  · exact lookup_map_eq_none h _

/-- The first field of the name has the entry, if it has one. -/
theorem lookup_asEntries_first {fds : List FieldDescriptor} {fields : List (List Value)}
    {name : String} {fd : FieldDescriptor} {stored : List Value} {v : Variant}
    (hfd : fds.find? (·.name = name) = some fd)
    (hstored : (fds.zip fields).lookup fd = some stored) (hv : entryOf pool fd stored = some v) :
    (asEntries pool fds fields).lookup name = some v := by
  induction fds generalizing fields with
  | nil => cases hfd
  | cons fd' fds ih =>
    cases fields with
    | nil => cases hstored
    | cons stored' fields =>
      rw [asEntries_cons, List.lookup_append]
      rw [List.zip_cons_cons] at hstored
      by_cases hname : fd'.name = name
      · rw [List.find?_cons_of_pos (by simpa using hname)] at hfd
        cases hfd
        rw [List.lookup_cons_self, Option.some.injEq] at hstored
        rw [← hname, lookup_entry, hstored, hv]
        rfl
      · rw [List.find?_cons_of_neg (by simpa using hname)] at hfd
        have hne : fd ≠ fd' := by
          rintro rfl
          exact hname (name_of_find hfd).2
        rw [lookup_cons_ne hne] at hstored
        rw [lookup_entry_ne fun h => hname h.symm, Option.none_or]
        exact ih hfd hstored

/-- Where all fields of the name have the same entry, or all have none. -/
theorem lookup_asEntries_of_forall {fds : List FieldDescriptor} {fields : List (List Value)}
    {name : String} {entry : Option Variant}
    (hname : ∃ fd ∈ fds, fd.name = name) (hlen : fields.length = fds.length)
    (h : ∀ p ∈ fds.zip fields, p.1.name = name → entryOf pool p.1 p.2 = entry) :
    (asEntries pool fds fields).lookup name = entry := by
  induction fds generalizing fields with
  | nil => simp at hname
  | cons fd fds ih =>
    obtain ⟨stored, fields, rfl⟩ := List.exists_cons_of_length_eq_add_one hlen
    rw [List.zip_cons_cons, List.forall_mem_cons] at h
    rw [asEntries_cons, List.lookup_append]
    by_cases hrest : ∃ fd' ∈ fds, fd'.name = name
    · rw [ih hrest (Nat.succ.inj hlen) h.2]
      by_cases heq : fd.name = name
      · rw [← heq, lookup_entry, h.1 heq, Option.or_self]
      · rw [lookup_entry_ne fun h => heq h.symm, Option.none_or]
    · obtain ⟨fd0, hfd0, heq⟩ := hname
      obtain rfl : fd0 = fd :=
        (List.mem_cons.mp hfd0).resolve_right fun hm => hrest ⟨fd0, hm, heq⟩
      have hnone : name ∉ fds.map (·.name) := fun hm => hrest (List.mem_map.mp hm)
      rw [lookup_asEntries_eq_none hnone, Option.or_none, ← heq, lookup_entry, h.1 heq]

abbrev DynamicMessage.Readable (message : DynamicMessage) : Prop :=
  FieldsReadable message.descriptor.fields message.fields

/-- Only the field itself decides what setting it does to whether all can be read back. -/
theorem fieldsReadable_setField {fd : FieldDescriptor} {v : Value} {fds : List FieldDescriptor}
    {fields : List (List Value)} (hfd : fd ∈ fds) (hr : fd.isRepeated = false)
    (ht : fd.type ≠ .message) (hv : v.type = fd.type) (hlen : fields.length = fds.length)
    (htyped : ∀ p ∈ fds.zip fields, ∀ v ∈ p.2, WellTyped pool p.1 v) :
    FieldsReadable fds (setField fd v fds fields) ↔
      fd.type.isHandled ∧ FieldsReadable fds fields := by
  induction fds generalizing fields with
  | nil => cases hfd
  | cons fd' fds ih =>
    obtain ⟨stored, fields, rfl⟩ := List.exists_cons_of_length_eq_add_one hlen
    rw [List.zip_cons_cons, List.forall_mem_cons] at htyped
    rw [setField]
    split
    · next heq =>
      subst heq
      have hnew : v.Readable := every_of_ne_message (hv ▸ ht)
      have hold : ∀ x ∈ stored, x.Readable := fun x hx =>
        every_of_ne_message ((htyped.1 x hx).type_eq ▸ ht)
      simp only [FieldsReadable, FieldsEvery, allEvery_iff, List.forall_mem_singleton,
        FieldReadable, hr, Bool.false_eq_true, if_false, List.cons_ne_nil, false_or]
      constructor
      · rintro ⟨h1, -, h3⟩
        exact ⟨h1, .inr h1, hold, h3⟩
      · rintro ⟨h1, -, -, h3⟩
        exact ⟨h1, hnew, h3⟩
    · next hne =>
      have hmem : fd ∈ fds := (List.mem_cons.mp hfd).resolve_left fun h => hne h.symm
      have hrest := ih hmem (Nat.succ.inj hlen) htyped.2
      simp only [FieldsReadable, FieldsEvery] at hrest ⊢
      rw [hrest]
      constructor
      · rintro ⟨h1, h2, h3, h4⟩
        exact ⟨h3, h1, h2, h4⟩
      · rintro ⟨h3, h1, h2, h4⟩
        exact ⟨h1, h2, h3, h4⟩

/-- The message after a setter, when it can be read back, and what its map has: the entry `v` under
the field, and the other entries as before. -/
structure SetTo (pool : DescriptorPool) (fd : FieldDescriptor) (v : Variant)
    (message message' : DynamicMessage) : Prop where
  descriptor : message'.descriptor = message.descriptor
  wellTyped : message'.WellTyped pool
  readable : message'.Readable ↔ fd.type.isHandled ∧ message.Readable
  entry : entryOf pool fd (message'.stored fd) = some v
  stored : ∀ fd', fd' ≠ fd → message'.stored fd' = message.stored fd'
  others : ∀ p ∈ message'.descriptor.fields.zip message'.fields,
    p.1 = fd ∨ p ∈ message.descriptor.fields.zip message.fields

theorem set_setTo {message : DynamicMessage} (hm : message.WellTyped pool) {fd : FieldDescriptor}
    {v : Value} (hfd : fd ∈ message.descriptor.fields) (hr : fd.isRepeated = false)
    (ht : fd.type ≠ .message) (hv : WellTyped pool fd v) :
    SetTo pool fd (asVariant pool fd v) message (message.set fd v) := by
  refine ⟨rfl, ⟨length_setField.trans hm.length, ?_, ?_⟩,
    fieldsReadable_setField hfd hr ht hv.type_eq hm.length hm.values, ?_, ?_, ?_⟩
  · intro p hp hsingular
    rcases mem_zip_setField hp with rfl | hp
    · exact Nat.le_refl 1
    · exact hm.singular p hp hsingular
  · intro p hp x hx
    rcases mem_zip_setField hp with rfl | hp
    · exact List.mem_singleton.mp hx ▸ hv
    · exact hm.values p hp x hx
  · rw [stored_set v hfd hm.length, if_pos rfl, entryOf, hr]
    rfl
  · intro fd' hne
    rw [stored_set v hfd hm.length, if_neg hne]
  · intro p hp
    rcases mem_zip_setField hp with rfl | hp
    · exact .inl rfl
    · exact .inr hp

/-- What `GetUInt32` reads, `SetUInt32` can write. -/
theorem setUInt32_setTo {message : DynamicMessage} (hm : message.WellTyped pool)
    {fd : FieldDescriptor} (hfd : fd ∈ message.descriptor.fields)
    (h : fd.isRepeated = false ∧ (fd.type = .uint32 ∨ fd.type = .fixed32)) (n : UInt32) :
    ∃ message', setUInt32 message fd n = .ok message' ∧
      SetTo pool fd (.uint32 n) message message' := by
  obtain ⟨hr, ht | ht⟩ := h
  · refine ⟨message.set fd (.uint32 n), by rw [setUInt32, hr, ht], ?_⟩
    exact set_setTo (v := .uint32 n) hm hfd hr (by simp [ht])
      (.leaf ht.symm (by simp [ht]) (by simp [ht]))
  · refine ⟨message.set fd (.fixed32 n), by rw [setUInt32, hr, ht], ?_⟩
    exact set_setTo (v := .fixed32 n) hm hfd hr (by simp [ht])
      (.leaf ht.symm (by simp [ht]) (by simp [ht]))

/-- How the field spells bytes in a map: in hex, or in a field of type `string` as they are. -/
def FieldDescriptor.spell (fd : FieldDescriptor) (s : List UInt8) : String :=
  if fd.type = .bytes then hexEncode s else stringOf s

/-- What `GetString` reads, `SetString` can write. -/
theorem setString_setTo {message : DynamicMessage} (hm : message.WellTyped pool)
    {fd : FieldDescriptor} (hfd : fd ∈ message.descriptor.fields)
    (h : fd.isRepeated = false ∧ (fd.type = .string ∨ fd.type = .bytes)) (s : List UInt8) :
    ∃ message', setString message fd s = .ok message' ∧
      SetTo pool fd (.string (fd.spell s)) message message' := by
  obtain ⟨hr, ht | ht⟩ := h
  · refine ⟨message.set fd (.string (stringOf s)), by rw [setString, hr, ht], ?_⟩
    have hspell : fd.spell s = stringOf s := if_neg (by rw [ht]; nofun)
    rw [hspell]
    exact set_setTo (v := .string (stringOf s)) hm hfd hr (by simp [ht])
      (.leaf ht.symm (by simp [ht]) (by simp [ht]))
  · refine ⟨message.set fd (.bytes s), by rw [setString, hr, ht], ?_⟩
    have hspell : fd.spell s = hexEncode s := if_pos ht
    rw [hspell]
    exact set_setTo (v := .bytes s) hm hfd hr (by simp [ht])
      (.leaf ht.symm (by simp [ht]) (by simp [ht]))

/-! ## The fields of a node -/

/-- What the getters read of the five fields of a message. -/
structure Reads (message : DynamicMessage) (depth fingerprint childNum : UInt32)
    (chainCode publicKey : List UInt8) : Prop where
  depth : (do getUInt32 message (← fieldOrThrow message.descriptor "depth")) = .ok depth
  fingerprint :
    (do getUInt32 message (← fieldOrThrow message.descriptor "fingerprint")) = .ok fingerprint
  childNum : (do getUInt32 message (← fieldOrThrow message.descriptor "child_num")) = .ok childNum
  chainCode :
    (do getString message (← fieldOrThrow message.descriptor "chain_code")) = .ok chainCode
  publicKey :
    (do getString message (← fieldOrThrow message.descriptor "public_key")) = .ok publicKey

@[simp] theorem throwing_ok {α : Type} (a : α) : throwing (.ok a) = .ok a := rfl

theorem messageToHdnode_reads {message : DynamicMessage} {depth fingerprint childNum : UInt32}
    {chainCode publicKey : List UInt8}
    (h : Reads message depth fingerprint childNum chainCode publicKey) :
    messageToHdnode K message = (do
      let chainCode ← readBytes 32 chainCode
      let publicKey ← readBytes 33 publicKey
      return K.hdnodeFromXpub depth fingerprint childNum chainCode publicKey) := by
  unfold messageToHdnode
  simp only [h.chainCode, h.publicKey, h.depth, h.fingerprint, h.childNum, throwing_ok,
    Exec.except_ok_bind]

theorem reads_or_throws (message : DynamicMessage) :
    (∃ depth fingerprint childNum chainCode publicKey,
      Reads message depth fingerprint childNum chainCode publicKey) ∨
    ∃ e, messageToHdnode K message = .error (.throws e) := by
  unfold messageToHdnode
  simp only
  cases hcc : (do getString message (← fieldOrThrow message.descriptor "chain_code")) with
  | error e => exact .inr ⟨e, rfl⟩
  | ok chainCode =>
  cases hpk : (do getString message (← fieldOrThrow message.descriptor "public_key")) with
  | error e => exact .inr ⟨e, rfl⟩
  | ok publicKey =>
  cases hd : (do getUInt32 message (← fieldOrThrow message.descriptor "depth")) with
  | error e => exact .inr ⟨e, rfl⟩
  | ok depth =>
  cases hf : (do getUInt32 message (← fieldOrThrow message.descriptor "fingerprint")) with
  | error e => exact .inr ⟨e, rfl⟩
  | ok fingerprint =>
  cases hc : (do getUInt32 message (← fieldOrThrow message.descriptor "child_num")) with
  | error e => exact .inr ⟨e, rfl⟩
  | ok childNum =>
    exact .inl ⟨depth, fingerprint, childNum, chainCode, publicKey, hd, hf, hc, hcc, hpk⟩

theorem readBytes_short {n : Nat} {s : List UInt8} (h : ¬ n ≤ s.length) :
    readBytes n s = .error .undefined := if_neg h

theorem readBytes_enough {n : Nat} {s : List UInt8} (h : n ≤ s.length) :
    readBytes n s = .ok (s.take n) := if_pos h

/-- A message whose fields, those of the node set, `message_to_map` gives back. -/
def Writable (message : DynamicMessage) : Prop :=
  message.Readable ∧ ∀ name ∈ ["depth", "fingerprint", "child_num"], ∀ fd,
    fieldOrThrow message.descriptor name = .ok fd → fd.type = .uint32

/-- The names of the fields of a node. -/
def nodeFields : List String := ["depth", "fingerprint", "child_num", "chain_code", "public_key"]

/-- The map of the message has this entry under the first field of the name. -/
def HasEntry (pool : DescriptorPool) (message : DynamicMessage) (name : String)
    (entry : FieldDescriptor → Variant) : Prop :=
  ∃ fd, message.descriptor.fields.find? (·.name = name) = some fd ∧
    entryOf pool fd (message.stored fd) = some (entry fd)

theorem SetTo.hasEntry {fd : FieldDescriptor} {v : Variant} {message message' : DynamicMessage}
    (h : SetTo pool fd v message message') {name : String} {entry : FieldDescriptor → Variant}
    (hfd : message.descriptor.fields.find? (·.name = name) = some fd) (hv : v = entry fd) :
    HasEntry pool message' name entry :=
  ⟨fd, h.descriptor.symm ▸ hfd, hv ▸ h.entry⟩

/-- Setting a field of another name keeps an entry. -/
theorem HasEntry.set {fd : FieldDescriptor} {v : Variant} {message message' : DynamicMessage}
    {name : String} {entry : FieldDescriptor → Variant} (h : HasEntry pool message name entry)
    (hset : SetTo pool fd v message message') (hne : fd.name ≠ name) :
    HasEntry pool message' name entry := by
  obtain ⟨fd', hfd', hentry⟩ := h
  refine ⟨fd', hset.descriptor.symm ▸ hfd', ?_⟩
  rw [hset.stored fd' fun heq => hne (heq ▸ (name_of_find hfd').2)]
  exact hentry

/-- The fields of `node` are written over those of `message`. -/
structure NodeWritten (pool : DescriptorPool) (message message' : DynamicMessage) (node : HDNode) :
    Prop where
  descriptor : message'.descriptor = message.descriptor
  depth : HasEntry pool message' "depth" fun _ => .uint32 node.depth
  fingerprint : HasEntry pool message' "fingerprint" fun _ => .uint32 node.fingerprint
  childNum : HasEntry pool message' "child_num" fun _ => .uint32 node.childNum
  chainCode : HasEntry pool message' "chain_code" fun fd => .string (fd.spell node.chainCode)
  publicKey : HasEntry pool message' "public_key" fun fd => .string (fd.spell node.publicKey)
  others : ∀ p ∈ message'.descriptor.fields.zip message'.fields, p.1.name ∉ nodeFields →
    p ∈ message.descriptor.fields.zip message.fields

/-- A number that is not `uint32` can be set, but not be given back. -/
theorem isHandled_number {type : FieldType} (h : type = .uint32 ∨ type = .fixed32) :
    type.isHandled ↔ type = .uint32 := by
  rcases h with h | h <;> simp [h, FieldType.isHandled]

theorem isHandled_text {type : FieldType} (h : type = .string ∨ type = .bytes) :
    type.isHandled = true := by
  rcases h with h | h <;> simp [h, FieldType.isHandled]

theorem messageFromHdnode_reads {message : DynamicMessage} (hm : message.WellTyped pool)
    {depth fingerprint childNum : UInt32} {chainCode publicKey : List UInt8}
    (h : Reads message depth fingerprint childNum chainCode publicKey) (node : HDNode) :
    ∃ message', messageFromHdnode message node = .ok message' ∧ message'.WellTyped pool ∧
      (message'.Readable ↔ Writable message) ∧ NodeWritten pool message message' node := by
  obtain ⟨fd1, h1, hget1⟩ := Exec.except_bind_eq_ok.mp h.depth
  obtain ⟨fd2, h2, hget2⟩ := Exec.except_bind_eq_ok.mp h.fingerprint
  obtain ⟨fd3, h3, hget3⟩ := Exec.except_bind_eq_ok.mp h.childNum
  obtain ⟨fd4, h4, hget4⟩ := Exec.except_bind_eq_ok.mp h.chainCode
  obtain ⟨fd5, h5, hget5⟩ := Exec.except_bind_eq_ok.mp h.publicKey
  have hfind1 := fieldOrThrow_eq_ok.mp h1
  have hfind2 := fieldOrThrow_eq_ok.mp h2
  have hfind3 := fieldOrThrow_eq_ok.mp h3
  have hfind4 := fieldOrThrow_eq_ok.mp h4
  have hfind5 := fieldOrThrow_eq_ok.mp h5
  obtain ⟨hmem1, hname1⟩ := name_of_find hfind1
  obtain ⟨hmem2, hname2⟩ := name_of_find hfind2
  obtain ⟨hmem3, hname3⟩ := name_of_find hfind3
  obtain ⟨hmem4, hname4⟩ := name_of_find hfind4
  obtain ⟨hmem5, hname5⟩ := name_of_find hfind5
  -- the five setters in turn
  obtain ⟨m1, hset1, hto1⟩ := setUInt32_setTo hm hmem1 (getUInt32_eq_ok hget1) node.depth
  have hmd1 := hto1.descriptor
  obtain ⟨m2, hset2, hto2⟩ :=
    setUInt32_setTo hto1.wellTyped (hmd1 ▸ hmem2) (getUInt32_eq_ok hget2) node.fingerprint
  have hmd2 := hto2.descriptor.trans hmd1
  obtain ⟨m3, hset3, hto3⟩ :=
    setUInt32_setTo hto2.wellTyped (hmd2 ▸ hmem3) (getUInt32_eq_ok hget3) node.childNum
  have hmd3 := hto3.descriptor.trans hmd2
  obtain ⟨m4, hset4, hto4⟩ :=
    setString_setTo hto3.wellTyped (hmd3 ▸ hmem4) (getString_eq_ok hget4) node.chainCode
  have hmd4 := hto4.descriptor.trans hmd3
  obtain ⟨m5, hset5, hto5⟩ :=
    setString_setTo hto4.wellTyped (hmd4 ▸ hmem5) (getString_eq_ok hget5) node.publicKey
  refine ⟨m5, ?_, hto5.wellTyped, ?_, ?_⟩
  · unfold messageFromHdnode
    simp only [h1, h2, h3, h4, h5, hset1, hset2, hset3, hset4, hset5, Exec.except_ok_bind]
  · rw [hto5.readable, hto4.readable, hto3.readable, hto2.readable, hto1.readable,
      isHandled_text (getString_eq_ok hget5).2, isHandled_text (getString_eq_ok hget4).2,
      isHandled_number (getUInt32_eq_ok hget3).2, isHandled_number (getUInt32_eq_ok hget2).2,
      isHandled_number (getUInt32_eq_ok hget1).2]
    simp only [Writable, List.forall_mem_cons, h1, h2, h3, Except.ok.injEq, forall_eq']
    constructor
    · rintro ⟨-, -, t3, t2, t1, hr⟩
      exact ⟨hr, t1, t2, t3, List.forall_mem_nil _⟩
    · rintro ⟨hr, t1, t2, t3, -⟩
      exact ⟨trivial, trivial, t3, t2, t1, hr⟩
  · constructor
    case descriptor => exact hto5.descriptor.trans hmd4
    case depth =>
      exact ((((hto1.hasEntry hfind1 rfl).set hto2 (by rw [hname2]; decide)).set hto3
        (by rw [hname3]; decide)).set hto4 (by rw [hname4]; decide)).set hto5
        (by rw [hname5]; decide)
    case fingerprint =>
      exact (((hto2.hasEntry (hmd1 ▸ hfind2) rfl).set hto3 (by rw [hname3]; decide)).set hto4
        (by rw [hname4]; decide)).set hto5 (by rw [hname5]; decide)
    case childNum =>
      exact ((hto3.hasEntry (hmd2 ▸ hfind3) rfl).set hto4 (by rw [hname4]; decide)).set hto5
        (by rw [hname5]; decide)
    case chainCode =>
      exact (hto4.hasEntry (hmd3 ▸ hfind4) rfl).set hto5 (by rw [hname5]; decide)
    case publicKey => exact hto5.hasEntry (hmd4 ▸ hfind5) rfl
    case others =>
      intro p hp hother
      have hne : ∀ {fd : FieldDescriptor} {name : String}, fd.name = name → name ∈ nodeFields →
          p.1 ≠ fd := fun hname hin heq => hother (heq ▸ hname ▸ hin)
      have hp4 := (hto5.others p hp).resolve_left (hne hname5 (by decide))
      have hp3 := (hto4.others p hp4).resolve_left (hne hname4 (by decide))
      have hp2 := (hto3.others p hp3).resolve_left (hne hname3 (by decide))
      have hp1 := (hto2.others p hp2).resolve_left (hne hname2 (by decide))
      exact (hto1.others p hp1).resolve_left (hne hname1 (by decide))

end TrezorPlugin
