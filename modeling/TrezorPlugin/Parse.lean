import TrezorPlugin.Serialize

/-!
# What message_from_map stores

A repeated field is parsed element by element, each as a singular field of the
same type would be:

    parseRepeatedField fd stored vs = ok (stored ++ xs)  with  parseSingleField vᵢ = ok [xᵢ]

Its switch converts the elements of `int64` and `uint64` fields to `int` and
`unsigned int` first, so there the two agree only on lists whose numbers all fit,
and on lists that the wider conversion refuses as well.
-/

namespace TrezorPlugin

variable (C : Conversions) (pool : DescriptorPool)

/-! ## Numbers -/

/-- The variant is a number in this range. -/
def Conversions.Accepts (lo hi : Int) (v : Variant) : Prop :=
  ∃ n, C.number v = .ok n ∧ lo ≤ n ∧ n ≤ hi

variable {C pool}

theorem inRange_eq_ok {lo hi n : Int} {v : Variant} :
    C.inRange lo hi v = .ok n ↔ C.number v = .ok n ∧ lo ≤ n ∧ n ≤ hi := by
  unfold Conversions.inRange
  rw [Exec.except_bind_eq_ok]
  constructor
  · rintro ⟨m, hm, h⟩
    split at h
    · next hrange =>
      cases h
      exact ⟨hm, hrange⟩
    · cases h
  · rintro ⟨hn, hrange⟩
    exact ⟨n, hn, if_pos hrange⟩

theorem exists_inRange {lo hi : Int} {v : Variant} :
    (∃ n, C.inRange lo hi v = .ok n) ↔ C.Accepts lo hi v := by
  simp only [inRange_eq_ok, Conversions.Accepts]

/-- A number that fits an `int` is the same as an `int64_t`. -/
theorem int64_of_int32 {v : Variant} {m : Int32} (h : C.int32 v = .ok m) :
    C.int64 v = .ok (Int64.ofInt m.toInt) := by
  obtain ⟨n, hn, rfl⟩ := Exec.except_return_eq_ok.mp h
  obtain ⟨hn, hlo, hhi⟩ := inRange_eq_ok.mp hn
  refine Exec.except_return_eq_ok.mpr ⟨n, inRange_eq_ok.mpr ⟨hn, by omega, by omega⟩, ?_⟩
  rw [Int32.toInt_ofInt_of_le hlo (by omega)]

/-- A number that fits an `unsigned int` is the same as a `uint64_t`. -/
theorem uint64_of_uint32 {v : Variant} {m : UInt32} (h : C.uint32 v = .ok m) :
    C.uint64 v = .ok m.toUInt64 := by
  obtain ⟨n, hn, rfl⟩ := Exec.except_return_eq_ok.mp h
  obtain ⟨hn, hlo, hhi⟩ := inRange_eq_ok.mp hn
  refine Exec.except_return_eq_ok.mpr ⟨n, inRange_eq_ok.mpr ⟨hn, by omega, by omega⟩, ?_⟩
  apply UInt64.toNat.inj
  rw [UInt32.toNat_toUInt64]
  simp only [UInt64.ofInt, UInt32.ofInt, UInt64.toNat_ofNat', UInt32.toNat_ofNat']
  omega

/-! ## One value -/

/-- The singular field of the same type. -/
def FieldDescriptor.singular (fd : FieldDescriptor) : FieldDescriptor :=
  { fd with isRepeated := false }

theorem parseSingleField_scalar {fd : FieldDescriptor} (h : fd.type ≠ .message)
    (stored : List Value) (v : Variant) :
    parseSingleField C pool fd stored v = (do return [← scalarValue C pool fd v]) := by
  rw [parseSingleField.eq_def]
  split <;> first | contradiction | rfl

/-! ## Repeated fields -/

variable (C pool)

/-- What a singular field of the type stores for a variant. -/
def SingleIs (fd : FieldDescriptor) (v : Variant) (x : Value) : Prop :=
  parseSingleField C pool fd.singular [] v = .ok [x]

/-- The list is parsed when each of its variants is, and the values are appended in order. -/
def ParsedAlike (fd : FieldDescriptor) (stored : List Value) (vs : List Variant) : Prop :=
  ∀ r, parseRepeatedField C pool fd stored vs = .ok r ↔
    ∃ xs, List.Forall₂ (SingleIs C pool fd) vs xs ∧ r = stored ++ xs

variable {C pool}

theorem parsedAlike_iff {fd : FieldDescriptor} {stored : List Value} {vs : List Variant}
    {loop : Except Exception (List Value)}
    (h : parseRepeatedField C pool fd stored vs = (do return stored ++ (← loop))) :
    ParsedAlike C pool fd stored vs ↔
      ∀ xs, loop = .ok xs ↔ List.Forall₂ (SingleIs C pool fd) vs xs := by
  unfold ParsedAlike
  simp only [h, Exec.except_return_eq_ok]
  constructor
  · intro halike xs
    constructor
    · intro hxs
      obtain ⟨ys, hys, heq⟩ := (halike _).mp ⟨xs, hxs, rfl⟩
      exact List.append_cancel_left heq ▸ hys
    · intro hxs
      obtain ⟨ys, hys, heq⟩ := (halike _).mpr ⟨xs, hxs, rfl⟩
      exact List.append_cancel_left heq ▸ hys
  · intro hloop r
    simp only [hloop]
    exact exists_congr fun xs => and_congr_right fun _ => eq_comm

theorem singleIs_scalar {fd : FieldDescriptor} (h : fd.type ≠ .message) :
    SingleIs C pool fd = fun v x => scalarValue C pool fd v = .ok x := by
  funext v x
  have hs : fd.singular.type ≠ .message := h
  rw [SingleIs, parseSingleField_scalar hs, Exec.except_return_eq_ok]
  simp only [List.cons.injEq, and_true, exists_eq_right]
  rfl

theorem forall₂_singleIs_scalar {fd : FieldDescriptor} (h : fd.type ≠ .message)
    {vs : List Variant} {xs : List Value} :
    List.Forall₂ (SingleIs C pool fd) vs xs ↔ vs.mapM (scalarValue C pool fd) = .ok xs := by
  rw [singleIs_scalar h, Exec.mapM_eq_ok]

theorem singleIs_message {fd : FieldDescriptor} (h : fd.type = .message) {v : Variant} {x : Value} :
    SingleIs C pool fd v x ↔ ∃ md entries fm, fd.messageType pool = some md ∧ v = .map entries ∧
      messageFromMap C pool (.new md) entries = .ok fm ∧ .message fm.descriptor fm.fields = x := by
  have hs : fd.singular.type = .message := h
  have hmt : fd.singular.messageType pool = fd.messageType pool := rfl
  rw [SingleIs, parseSingleField.eq_def]
  simp only [hs, hmt]
  cases hmd : fd.messageType pool with
  | none => simp
  | some md =>
    cases v with
    | map entries =>
      simp only [Exec.except_return_eq_ok, Option.some.injEq, Variant.map.injEq, mutableMessage]
      constructor
      · rintro ⟨fm, hfm, heq⟩
        exact ⟨md, entries, fm, rfl, rfl, hfm, List.head_eq_of_cons_eq heq⟩
      · rintro ⟨_, _, fm, rfl, rfl, hfm, rfl⟩
        exact ⟨fm, hfm, rfl⟩
    | _ => simp

theorem parseMessages_cons {fd : FieldDescriptor} (h : fd.type = .message) {v : Variant}
    {vs : List Variant} {r : List Value} :
    parseMessages C pool fd (v :: vs) = .ok r ↔
      ∃ x xs, SingleIs C pool fd v x ∧ parseMessages C pool fd vs = .ok xs ∧ r = x :: xs := by
  rw [parseMessages.eq_def]
  simp only [singleIs_message h]
  cases hmd : fd.messageType pool with
  | none => simp
  | some md =>
    cases v with
    | map entries =>
      simp only [Exec.except_bind_eq_ok, Option.some.injEq, Variant.map.injEq]
      constructor
      · rintro ⟨fm, hfm, xs, hxs, heq⟩
        exact ⟨_, xs, ⟨md, entries, fm, rfl, rfl, hfm, rfl⟩, hxs, (Except.ok.inj heq).symm⟩
      · rintro ⟨_, xs, ⟨_, _, fm, rfl, rfl, hfm, rfl⟩, hxs, rfl⟩
        exact ⟨fm, hfm, xs, hxs, rfl⟩
    | _ => simp

theorem parseMessages_eq_ok {fd : FieldDescriptor} (h : fd.type = .message) {vs : List Variant}
    {xs : List Value} :
    parseMessages C pool fd vs = .ok xs ↔ List.Forall₂ (SingleIs C pool fd) vs xs := by
  induction vs generalizing xs with
  | nil =>
    rw [parseMessages, List.forall₂_nil_left_iff]
    constructor
    · intro h
      exact (Except.ok.inj h).symm
    · rintro rfl
      rfl
  | cons v vs ih =>
    rw [parseMessages_cons h, List.forall₂_cons_left_iff]
    simp only [ih]

/-! ## Whole messages -/

/-- One round of the loop of `message_from_map`. -/
def parseField (C : Conversions) (pool : DescriptorPool) (md : Descriptor) (map : VariantMap)
    (fd : FieldDescriptor) (stored : List Value) : Except Exception (List Value) :=
  match map.lookup fd.name with
  | none => .ok stored
  | some val => parsing md fd (if fd.isRepeated then
        match val with
        | .list vs => parseRepeatedField C pool fd stored vs
        | _ => .error badVariantCast
      else parseSingleField C pool fd stored val)

theorem messageFromMap_eq (message : DynamicMessage) (map : VariantMap) :
    messageFromMap C pool message map = (do
      return ⟨message.descriptor, ← eachField (parseField C pool message.descriptor map)
        message.descriptor.fields message.fields⟩) := by
  rw [messageFromMap.eq_def]
  refine congrArg (fun round =>
    eachField round message.descriptor.fields message.fields >>= fun fields =>
      (return ⟨message.descriptor, fields⟩ : Except Exception DynamicMessage))
    (funext fun fd => funext ?_)
  intro stored
  unfold parseField
  split
  · next h => rw [h]
  · next val h =>
    cases val <;> simp only [h]

/-- The loop over a new message goes through when each field comes out as given. -/
theorem eachField_new {f : FieldDescriptor → List Value → Except Exception (List Value)}
    {fds : List FieldDescriptor} {fields : List (List Value)} (hlen : fields.length = fds.length)
    (h : ∀ p ∈ fds.zip fields, f p.1 [] = .ok p.2) :
    eachField f fds (fds.map fun _ => []) = .ok fields := by
  induction fds generalizing fields with
  | nil =>
    obtain rfl := List.length_eq_zero_iff.mp hlen
    rfl
  | cons fd fds ih =>
    obtain ⟨stored, fields, rfl⟩ := List.exists_cons_of_length_eq_add_one hlen
    rw [List.zip_cons_cons, List.forall_mem_cons] at h
    rw [List.map_cons, eachField, h.1, Exec.except_ok_bind, ih (Nat.succ.inj hlen) h.2]
    rfl

/-! ## The two 64-bit types -/

/-- The loop converts to a narrower type first: it agrees on the lists whose numbers all fit it, and
on those that the wider conversion does not go through either. -/
theorem parsedAlike_narrow {fd : FieldDescriptor} {stored : List Value} {vs : List Variant}
    {narrow : Variant → Except Exception Value} {lo hi lo' hi' : Int} (hne : fd.type ≠ .message)
    (h : parseRepeatedField C pool fd stored vs = (do return stored ++ (← vs.mapM narrow)))
    (hle : ∀ v x, narrow v = .ok x → scalarValue C pool fd v = .ok x)
    (hnarrow : ∀ v, (∃ x, narrow v = .ok x) ↔ C.Accepts lo hi v)
    (hwide : ∀ v, (∃ x, scalarValue C pool fd v = .ok x) ↔ C.Accepts lo' hi' v) :
    ParsedAlike C pool fd stored vs ↔
      ((∀ v ∈ vs, C.Accepts lo' hi' v) → ∀ v ∈ vs, C.Accepts lo hi v) := by
  rw [parsedAlike_iff h]
  simp only [forall₂_singleIs_scalar hne, Exec.mapM_agree_iff hle, hnarrow, hwide]

theorem parsedAlike_int64 {fd : FieldDescriptor} (ht : fd.type = .int64) (stored : List Value)
    (vs : List Variant) :
    ParsedAlike C pool fd stored vs ↔
      ((∀ v ∈ vs, C.Accepts (-2 ^ 63) (2 ^ 63 - 1) v) →
        ∀ v ∈ vs, C.Accepts (-2 ^ 31) (2 ^ 31 - 1) v) := by
  have hrep : parseRepeatedField C pool fd stored vs = (do
      return stored ++ (← vs.mapM fun v => do
        return .int64 (Int64.ofInt (← C.int32 v).toInt))) := by
    rw [parseRepeatedField.eq_def, ht]
  have hscalar : ∀ v, scalarValue C pool fd v = (do return .int64 (← C.int64 v)) := fun v => by
    rw [scalarValue, ht]
  refine parsedAlike_narrow (by rw [ht]; nofun) hrep ?_ ?_ ?_
  · intro v x h
    obtain ⟨m, hm, rfl⟩ := Exec.except_return_eq_ok.mp h
    rw [hscalar, Exec.except_return_eq_ok]
    exact ⟨_, int64_of_int32 hm, rfl⟩
  · intro v
    rw [Exec.exists_except_return, Conversions.int32, Exec.exists_except_return, exists_inRange]
  · intro v
    rw [hscalar, Exec.exists_except_return, Conversions.int64, Exec.exists_except_return,
      exists_inRange]

theorem parsedAlike_uint64 {fd : FieldDescriptor} (ht : fd.type = .uint64) (stored : List Value)
    (vs : List Variant) :
    ParsedAlike C pool fd stored vs ↔
      ((∀ v ∈ vs, C.Accepts 0 (2 ^ 64 - 1) v) → ∀ v ∈ vs, C.Accepts 0 (2 ^ 32 - 1) v) := by
  have hrep : parseRepeatedField C pool fd stored vs = (do
      return stored ++ (← vs.mapM fun v => do return .uint64 (← C.uint32 v).toUInt64)) := by
    rw [parseRepeatedField.eq_def, ht]
  have hscalar : ∀ v, scalarValue C pool fd v = (do return .uint64 (← C.uint64 v)) := fun v => by
    rw [scalarValue, ht]
  refine parsedAlike_narrow (by rw [ht]; nofun) hrep (fun v x h => ?_) (fun v => ?_) fun v => ?_
  · obtain ⟨m, hm, rfl⟩ := Exec.except_return_eq_ok.mp h
    rw [hscalar, Exec.except_return_eq_ok]
    exact ⟨_, uint64_of_uint32 hm, rfl⟩
  · rw [Exec.exists_except_return, Conversions.uint32, Exec.exists_except_return, exists_inRange]
  · rw [hscalar, Exec.exists_except_return, Conversions.uint64, Exec.exists_except_return,
      exists_inRange]

theorem parsedAlike_of_ne {fd : FieldDescriptor} (hhandled : fd.type.isHandled = true)
    (hint64 : fd.type ≠ .int64) (huint64 : fd.type ≠ .uint64) (stored : List Value)
    (vs : List Variant) : ParsedAlike C pool fd stored vs := by
  cases ht : fd.type with
  | int64 => exact absurd ht hint64
  | uint64 => exact absurd ht huint64
  | message =>
    have hrep : parseRepeatedField C pool fd stored vs =
        (do return stored ++ (← parseMessages C pool fd vs)) := by
      rw [parseRepeatedField.eq_def, ht]
    exact (parsedAlike_iff hrep).mpr fun xs => parseMessages_eq_ok ht
  | double | float | int32 | uint32 | bool | string | bytes | enum =>
    have hrep : parseRepeatedField C pool fd stored vs =
        (do return stored ++ (← vs.mapM (scalarValue C pool fd))) := by
      rw [parseRepeatedField.eq_def, ht]
    exact (parsedAlike_iff hrep).mpr fun xs => (forall₂_singleIs_scalar (by rw [ht]; nofun)).symm
  | _ => rw [ht] at hhandled; cases hhandled

/-- **Repeated fields are parsed as singular ones** of the same type, but for the two 64-bit types:
there exactly the lists whose elements all fit 32 bits if they all fit 64. -/
theorem repeated_parsed_alike_iff (C : Conversions) (pool : DescriptorPool) (fd : FieldDescriptor)
    (hhandled : fd.type.isHandled = true) (stored : List Value) (vs : List Variant) :
    ParsedAlike C pool fd stored vs ↔
      (fd.type = .int64 → (∀ v ∈ vs, C.Accepts (-2 ^ 63) (2 ^ 63 - 1) v) →
        ∀ v ∈ vs, C.Accepts (-2 ^ 31) (2 ^ 31 - 1) v) ∧
      (fd.type = .uint64 → (∀ v ∈ vs, C.Accepts 0 (2 ^ 64 - 1) v) →
        ∀ v ∈ vs, C.Accepts 0 (2 ^ 32 - 1) v) := by
  by_cases hint64 : fd.type = .int64
  · rw [parsedAlike_int64 hint64, hint64]
    constructor
    · intro h
      exact ⟨fun _ => h, by simp⟩
    · intro h
      exact h.1 rfl
  · by_cases huint64 : fd.type = .uint64
    · rw [parsedAlike_uint64 huint64, huint64]
      constructor
      · intro h
        exact ⟨by simp, fun _ => h⟩
      · intro h
        exact h.2 rfl
    · exact iff_of_true (parsedAlike_of_ne hhandled hint64 huint64 stored vs)
        ⟨fun h => absurd h hint64, fun h => absurd h huint64⟩

theorem repeated_parsed_alike_iff_seven :
    ParsedAlike plainConversions ⟨[]⟩ (repeatedField .int64) [] [.int64 7] := by
  refine (repeated_parsed_alike_iff plainConversions ⟨[]⟩ (repeatedField .int64) rfl [] _).mpr
    ⟨?_, nofun⟩
  intro _ _
  rw [List.forall_mem_singleton]
  exact ⟨7, rfl, by decide, by decide⟩

theorem repeated_not_parsed_alike :
    parseSingleField plainConversions ⟨[]⟩ (repeatedField .int64).singular [] (.int64 (2 ^ 40)) =
      .ok [.int64 (2 ^ 40)] ∧
    parseRepeatedField plainConversions ⟨[]⟩ (repeatedField .int64) [] [.int64 (2 ^ 40)] =
      .error badVariantCast ∧
    ¬ ParsedAlike plainConversions ⟨[]⟩ (repeatedField .int64) [] [.int64 (2 ^ 40)] := by
  have hsingle : parseSingleField plainConversions ⟨[]⟩ (repeatedField .int64).singular []
      (.int64 (2 ^ 40)) = .ok [.int64 (2 ^ 40)] := by
    rw [parseSingleField.eq_def]
    rfl
  have hrepeated : parseRepeatedField plainConversions ⟨[]⟩ (repeatedField .int64) []
      [.int64 (2 ^ 40)] = .error badVariantCast := by
    rw [parseRepeatedField.eq_def]
    rfl
  refine ⟨hsingle, hrepeated, ?_⟩
  intro halike
  have h := (halike _).mpr ⟨[.int64 (2 ^ 40)], .cons hsingle .nil, rfl⟩
  rw [hrepeated] at h
  cases h

end TrezorPlugin
