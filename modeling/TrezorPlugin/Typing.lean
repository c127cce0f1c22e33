import TrezorPlugin.Parse

/-!
# Messages stay well typed

Whatever map the page hands over, `message_from_map` leaves a well typed message
well typed when it returns: each value is of its field's type, each enum number is
declared, each sub-message is of the field's message type, and a singular field
has at most one value.  Maps inside the map are smaller, which carries the
induction through the sub-messages.
-/

namespace TrezorPlugin

variable {C : Conversions} {pool : DescriptorPool}

/-! ## One value -/

/-- The descriptor's enum value has a name under its number. -/
theorem enumName_of_findValueByName {fd : FieldDescriptor} {name : String}
    {evd : EnumValueDescriptor}
    (h : (fd.enumType pool).bind (·.findValueByName name) = some evd) :
    ∃ name, enumName pool fd evd.number = .ok name := by
  obtain ⟨ed, hed, hevd⟩ := Option.bind_eq_some_iff.mp h
  have hsome : (ed.findValueByNumber evd.number).isSome := by
    rw [EnumDescriptor.findValueByNumber, List.find?_isSome]
    exact ⟨evd, List.mem_of_find?_eq_some hevd, by simp⟩
  obtain ⟨evd', hevd'⟩ := Option.isSome_iff_exists.mp hsome
  exact ⟨evd'.name, by simp [enumName, hed, hevd']⟩

theorem scalarValue_wellTyped {fd : FieldDescriptor} {v : Variant} {x : Value}
    (h : scalarValue C pool fd v = .ok x) : WellTyped pool fd x := by
  rw [scalarValue] at h
  cases ht : fd.type with
  | enum =>
    rw [ht] at h
    obtain ⟨name, -, h⟩ := Exec.except_bind_eq_ok.mp h
    split at h
    · next evd hevd =>
      cases h
      refine .scalar ht.symm (by simp [Value.type]) ?_
      rintro number ⟨⟩
      exact enumName_of_findValueByName hevd
    · cases h
  | bytes =>
    rw [ht] at h
    obtain ⟨s, -, h⟩ := Exec.except_bind_eq_ok.mp h
    obtain ⟨bytes, -, rfl⟩ := Exec.except_return_eq_ok.mp h
    exact .leaf ht.symm (by simp [ht]) (by simp [ht])
  | double | float | int64 | uint64 | int32 | uint32 | bool | string =>
    rw [ht] at h
    obtain ⟨a, -, rfl⟩ := Exec.except_return_eq_ok.mp h
    exact .leaf ht.symm (by simp [ht]) (by simp [ht])
  | _ => rw [ht] at h; cases h

theorem wellTyped_message {fd : FieldDescriptor} (ht : fd.type = .message) {m : DynamicMessage} :
    WellTyped pool fd (.message m.descriptor m.fields) ↔
      fd.messageType pool = some m.descriptor ∧ m.WellTyped pool := by
  constructor
  · intro h
    cases h with
    | scalar _ hne _ => exact absurd rfl hne
    | message _ hmd hlen hsingular htyped => exact ⟨hmd, hlen, hsingular, htyped⟩
  · exact fun ⟨hmd, h⟩ => .message ht hmd h.length h.singular h.values

theorem new_wellTyped (d : Descriptor) : (DynamicMessage.new d).WellTyped pool := by
  have hempty : ∀ p ∈ d.fields.zip (d.fields.map fun _ => ([] : List Value)), p.2 = [] := by
    intro p hp
    obtain ⟨-, h2⟩ := List.of_mem_zip (show (p.1, p.2) ∈ _ from hp)
    obtain ⟨-, -, h2⟩ := List.mem_map.mp h2
    exact h2.symm
  refine ⟨List.length_map _, ?_, ?_⟩
  · intro p hp _
    rw [hempty p hp]
    exact Nat.zero_le 1
  · intro p hp v hv
    rw [hempty p hp] at hv
    cases hv

/-! ## One field -/

/-- Parsing this map leaves messages well typed. -/
def KeepsTyped (C : Conversions) (pool : DescriptorPool) (map : VariantMap) : Prop :=
  ∀ m m' : DynamicMessage, m.WellTyped pool → messageFromMap C pool m map = .ok m' →
    m'.descriptor = m.descriptor ∧ m'.WellTyped pool

theorem singleIs_wellTyped {fd : FieldDescriptor} {v : Variant} {x : Value}
    (hsub : ∀ entries, v = .map entries → KeepsTyped C pool entries)
    (h : SingleIs C pool fd v x) : WellTyped pool fd x := by
  by_cases ht : fd.type = .message
  · obtain ⟨md, entries, fm, hmd, hv, hfm, rfl⟩ := (singleIs_message ht).mp h
    obtain ⟨hd, hfm⟩ := hsub entries hv _ _ (new_wellTyped md) hfm
    exact (wellTyped_message ht).mpr ⟨hd ▸ hmd, hfm⟩
  · rw [singleIs_scalar ht] at h
    exact scalarValue_wellTyped h

theorem mutableMessage_wellTyped {fd : FieldDescriptor} {md : Descriptor} {stored : List Value}
    (ht : fd.type = .message) (hmd : fd.messageType pool = some md)
    (hstored : ∀ x ∈ stored, WellTyped pool fd x) :
    (mutableMessage md stored).descriptor = md ∧ (mutableMessage md stored).WellTyped pool := by
  cases stored with
  | nil => exact ⟨rfl, new_wellTyped md⟩
  | cons x stored =>
    have hx := hstored x List.mem_cons_self
    obtain ⟨md', fields, rfl⟩ := exists_message (hx.type_eq.trans ht)
    obtain ⟨hmd', hm⟩ := (wellTyped_message (m := ⟨md', fields⟩) ht).mp hx
    exact ⟨Option.some.inj (hmd'.symm.trans hmd), hm⟩

theorem parseSingleField_wellTyped {fd : FieldDescriptor} {stored r : List Value} {v : Variant}
    (hstored : ∀ x ∈ stored, WellTyped pool fd x)
    (hsub : ∀ entries, v = .map entries → KeepsTyped C pool entries)
    (h : parseSingleField C pool fd stored v = .ok r) :
    r.length ≤ 1 ∧ ∀ x ∈ r, WellTyped pool fd x := by
  by_cases ht : fd.type = .message
  · rw [parseSingleField.eq_def, ht] at h
    cases hmd : fd.messageType pool with
    | none => simp [hmd] at h
    | some md =>
      cases v with
      | map entries =>
        simp only [hmd, Exec.except_return_eq_ok] at h
        obtain ⟨fm, hfm, rfl⟩ := h
        obtain ⟨hd, hm⟩ := mutableMessage_wellTyped ht hmd hstored
        obtain ⟨hd', hfm⟩ := hsub entries rfl _ fm hm hfm
        refine ⟨Nat.le_refl 1, fun x hx => List.mem_singleton.mp hx ▸ ?_⟩
        exact (wellTyped_message ht).mpr ⟨by rw [hd', hd, hmd], hfm⟩
      | _ => simp [hmd] at h
  · rw [parseSingleField_scalar ht, Exec.except_return_eq_ok] at h
    obtain ⟨x, hx, rfl⟩ := h
    exact ⟨Nat.le_refl 1, fun y hy => List.mem_singleton.mp hy ▸ scalarValue_wellTyped hx⟩

theorem parseRepeatedField_wellTyped {fd : FieldDescriptor} {stored r : List Value}
    {vs : List Variant} (hstored : ∀ x ∈ stored, WellTyped pool fd x)
    (hsub : ∀ v ∈ vs, ∀ entries, v = .map entries → KeepsTyped C pool entries)
    (h : parseRepeatedField C pool fd stored vs = .ok r) : ∀ x ∈ r, WellTyped pool fd x := by
  -- every loop appends well typed values
  have happend : ∀ loop : Except Exception (List Value),
      parseRepeatedField C pool fd stored vs = (do return stored ++ (← loop)) →
      (∀ xs, loop = .ok xs → ∀ x ∈ xs, WellTyped pool fd x) → ∀ x ∈ r, WellTyped pool fd x := by
    intro loop hloop hxs x hx
    rw [hloop, Exec.except_return_eq_ok] at h
    obtain ⟨xs, hok, rfl⟩ := h
    rcases List.mem_append.mp hx with hx | hx
    · exact hstored x hx
    · exact hxs xs hok x hx
  cases ht : fd.type with
  | double | float | int32 | uint32 | bool | string | bytes | enum =>
    apply happend (vs.mapM (scalarValue C pool fd)) (by rw [parseRepeatedField.eq_def, ht])
    intro xs hxs
    refine Exec.forall_mem_of_forall₂ (Exec.mapM_eq_ok.mp hxs) ?_
    intro v _ x hx
    exact scalarValue_wellTyped hx
  | int64 =>
    refine happend (vs.mapM fun v => do return .int64 (Int64.ofInt (← C.int32 v).toInt))
      (by rw [parseRepeatedField.eq_def, ht]) ?_
    intro xs hxs
    refine Exec.forall_mem_of_forall₂ (Exec.mapM_eq_ok.mp hxs) ?_
    intro v _ x hx
    obtain ⟨m, -, rfl⟩ := Exec.except_return_eq_ok.mp hx
    exact .leaf ht.symm (by simp [ht]) (by simp [ht])
  | uint64 =>
    refine happend (vs.mapM fun v => do return .uint64 (← C.uint32 v).toUInt64)
      (by rw [parseRepeatedField.eq_def, ht]) ?_
    intro xs hxs
    refine Exec.forall_mem_of_forall₂ (Exec.mapM_eq_ok.mp hxs) ?_
    intro v _ x hx
    obtain ⟨m, -, rfl⟩ := Exec.except_return_eq_ok.mp hx
    exact .leaf ht.symm (by simp [ht]) (by simp [ht])
  | message =>
    apply happend (parseMessages C pool fd vs) (by rw [parseRepeatedField.eq_def, ht])
    intro xs hxs
    refine Exec.forall_mem_of_forall₂ ((parseMessages_eq_ok ht).mp hxs) ?_
    intro v hv x hx
    exact singleIs_wellTyped (hsub v hv) hx
  | _ => rw [parseRepeatedField.eq_def, ht] at h; cases h

theorem parsing_eq_ok {α : Type} {md : Descriptor} {fd : FieldDescriptor}
    {x : Except Exception α} {a : α} : parsing md fd x = .ok a ↔ x = .ok a := by
  cases x <;> simp [parsing]

/-- One round of the loop leaves the field well typed, if maps inside this one do that. -/
theorem parseField_wellTyped {md : Descriptor} {map : VariantMap} {fd : FieldDescriptor}
    {stored r : List Value} (hsub : ∀ map', sizeOf map' < sizeOf map → KeepsTyped C pool map')
    (hsingular : fd.isRepeated = false → stored.length ≤ 1)
    (hstored : ∀ x ∈ stored, WellTyped pool fd x)
    (h : parseField C pool md map fd stored = .ok r) :
    (fd.isRepeated = false → r.length ≤ 1) ∧ ∀ x ∈ r, WellTyped pool fd x := by
  unfold parseField at h
  split at h
  · cases h
    exact ⟨hsingular, hstored⟩
  · next val hval =>
    have hsize := sizeOf_lookup hval
    rw [parsing_eq_ok] at h
    split at h
    · next hr =>
      refine ⟨fun hn => absurd (hr.symm.trans hn) nofun, ?_⟩
      split at h
      · next vs =>
        refine parseRepeatedField_wellTyped hstored (fun v hv entries hentries => hsub _ ?_) h
        have hmem := List.sizeOf_lt_of_mem hv
        subst hentries
        simp only [Variant.list.sizeOf_spec, Variant.map.sizeOf_spec] at hsize hmem
        omega
      · cases h
    · refine (parseSingleField_wellTyped hstored (fun entries hentries => hsub _ ?_) h).imp_left
        fun hle _ => hle
      subst hentries
      simp only [Variant.map.sizeOf_spec] at hsize
      omega

/-! ## Whole messages -/

theorem eachField_eq_ok {f : FieldDescriptor → List Value → Except Exception (List Value)}
    {fds : List FieldDescriptor} {fields r : List (List Value)}
    (hlen : fields.length = fds.length) (h : eachField f fds fields = .ok r) :
    r.length = fds.length ∧
      ∀ p ∈ fds.zip r, ∃ stored, (p.1, stored) ∈ fds.zip fields ∧ f p.1 stored = .ok p.2 := by
  induction fds generalizing fields r with
  | nil =>
    obtain rfl := List.length_eq_zero_iff.mp hlen
    cases h
    exact ⟨rfl, nofun⟩
  | cons fd fds ih =>
    obtain ⟨stored, fields, rfl⟩ := List.exists_cons_of_length_eq_add_one hlen
    rw [eachField] at h
    obtain ⟨stored', hstored', h⟩ := Exec.except_bind_eq_ok.mp h
    obtain ⟨r, hr, rfl⟩ := Exec.except_return_eq_ok.mp h
    obtain ⟨hrlen, hrest⟩ := ih (Nat.succ.inj hlen) hr
    refine ⟨congrArg Nat.succ hrlen, ?_⟩
    rw [List.zip_cons_cons, List.forall_mem_cons]
    refine ⟨⟨stored, List.mem_cons_self, hstored'⟩, ?_⟩
    intro p hp
    obtain ⟨s, hs, hf⟩ := hrest p hp
    exact ⟨s, List.mem_cons_of_mem _ hs, hf⟩

/-- **message_from_map** leaves messages well typed, by induction on the size of the map. -/
theorem messageFromMap_wellTyped (map : VariantMap) : KeepsTyped C pool map := by
  induction hn : sizeOf map using Nat.strongRecOn generalizing map with
  | ind n ih =>
    subst hn
    intro m m' hm h
    rw [messageFromMap_eq, Exec.except_return_eq_ok] at h
    obtain ⟨fields, hfields, rfl⟩ := h
    obtain ⟨hlen, hmem⟩ := eachField_eq_ok hm.length hfields
    have hround : ∀ p ∈ m.descriptor.fields.zip fields,
        (p.1.isRepeated = false → p.2.length ≤ 1) ∧ ∀ x ∈ p.2, WellTyped pool p.1 x := by
      intro p hp
      obtain ⟨stored, hstored, hf⟩ := hmem p hp
      exact parseField_wellTyped (fun map' hlt => ih _ hlt map' rfl)
        (hm.singular (p.1, stored) hstored) (hm.values (p.1, stored) hstored) hf
    exact ⟨rfl, hlen, fun p hp => (hround p hp).1, fun p hp => (hround p hp).2⟩

end TrezorPlugin
