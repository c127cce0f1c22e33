import Mathlib.Algebra.Group.Nat.Defs
import Mathlib.Data.List.Flatten
import TrezorPlugin.Lib.Bytes

/-!
# UTF-16, little-endian

The decoder goes through the code units one after the other; a surrogate must be
the first of a pair, followed by the second, and bytes must come in pairs.

    decode us = some cs    ↔  us = encode cs              (decode_eq_some)
    ofBytes bs = some cs   ↔  bs = toBytes cs             (ofBytes_eq_some)
-/

namespace Utf16

def encodeChar (c : Char) : List UInt16 :=
  if c.toNat < 0x10000 then [UInt16.ofNat c.toNat]
  else [UInt16.ofNat (0xD800 + (c.toNat - 0x10000) / 0x400),
    UInt16.ofNat (0xDC00 + (c.toNat - 0x10000) % 0x400)]

def encode (cs : List Char) : List UInt16 := cs.flatMap encodeChar

def decode : List UInt16 → Option (List Char)
  | [] => some []
  | u :: us =>
    if u.toNat < 0xD800 ∨ 0xE000 ≤ u.toNat then
      (decode us).map (Char.ofNat u.toNat :: ·)
    else
      match us with
      | [] => none
      | v :: us =>
        if u.toNat < 0xDC00 ∧ 0xDC00 ≤ v.toNat ∧ v.toNat < 0xE000 then
          (decode us).map
            (Char.ofNat (0x10000 + (u.toNat - 0xD800) * 0x400 + (v.toNat - 0xDC00)) :: ·)
        else none

theorem decode_unit {u : UInt16} (h : u.toNat < 0xD800 ∨ 0xE000 ≤ u.toNat) (us : List UInt16) :
    decode (u :: us) = (decode us).map (Char.ofNat u.toNat :: ·) := by
  cases us with
  | nil => simp only [decode, if_pos h]
  | cons v us => rw [decode, if_pos h]

theorem toNat_ofNat {n : Nat} (h : n.isValidChar) : (Char.ofNat n).toNat = n := by
  unfold Char.ofNat
  rw [dif_pos h]
  rfl

theorem toNat_valid (c : Char) : c.toNat < 0xD800 ∨ 0xDFFF < c.toNat ∧ c.toNat < 0x110000 := c.valid

theorem u16_ofNat_toNat {n : Nat} (h : n < 65536) : (UInt16.ofNat n).toNat = n := by
  rw [UInt16.toNat_ofNat']
  exact Nat.mod_eq_of_lt h

/-- One character in front. -/
theorem decode_encodeChar (c : Char) (us : List UInt16) :
    decode (encodeChar c ++ us) = (decode us).map (c :: ·) := by
  have hvalid := toNat_valid c
  unfold encodeChar
  by_cases hc : c.toNat < 0x10000
  · have hu : (UInt16.ofNat c.toNat).toNat = c.toNat := u16_ofNat_toNat hc
    rw [if_pos hc, List.singleton_append, decode_unit (by omega), hu, Char.ofNat_toNat]
  · have hu : (UInt16.ofNat (0xD800 + (c.toNat - 0x10000) / 0x400)).toNat =
        0xD800 + (c.toNat - 0x10000) / 0x400 := u16_ofNat_toNat (by omega)
    have hv : (UInt16.ofNat (0xDC00 + (c.toNat - 0x10000) % 0x400)).toNat =
        0xDC00 + (c.toNat - 0x10000) % 0x400 := u16_ofNat_toNat (by omega)
    have hpoint : 0x10000 + (0xD800 + (c.toNat - 0x10000) / 0x400 - 0xD800) * 0x400 +
        (0xDC00 + (c.toNat - 0x10000) % 0x400 - 0xDC00) = c.toNat := by omega
    rw [if_neg hc, List.cons_append, List.singleton_append, decode, if_neg (by omega),
      if_pos (by omega), hu, hv, hpoint, Char.ofNat_toNat]

theorem decode_encode (cs : List Char) : decode (encode cs) = some cs := by
  induction cs with
  | nil => rfl
  | cons c cs ih =>
    rw [encode, List.flatMap_cons, decode_encodeChar, ← encode, ih]
    rfl

/-- A unit outside the surrogates is a character. -/
theorem encodeChar_unit {u : UInt16} (h : u.toNat < 0xD800 ∨ 0xE000 ≤ u.toNat) :
    encodeChar (Char.ofNat u.toNat) = [u] := by
  have hu : u.toNat < 65536 := u.toNat_lt
  have hc : (Char.ofNat u.toNat).toNat = u.toNat := toNat_ofNat (by
    show u.toNat < 0xD800 ∨ 0xDFFF < u.toNat ∧ u.toNat < 0x110000
    omega)
  rw [encodeChar, hc, if_pos hu, UInt16.ofNat_toNat]

/-- A surrogate pair is a character. -/
theorem encodeChar_pair {u v : UInt16} (hu : 0xD800 ≤ u.toNat ∧ u.toNat < 0xDC00)
    (hv : 0xDC00 ≤ v.toNat ∧ v.toNat < 0xE000) :
    encodeChar (Char.ofNat (0x10000 + (u.toNat - 0xD800) * 0x400 + (v.toNat - 0xDC00))) =
      [u, v] := by
  have hc := toNat_ofNat (n := 0x10000 + (u.toNat - 0xD800) * 0x400 + (v.toNat - 0xDC00)) (by
    show _ < 0xD800 ∨ 0xDFFF < _ ∧ _ < 0x110000
    omega)
  have hfst : 0xD800 + (0x10000 + (u.toNat - 0xD800) * 0x400 + (v.toNat - 0xDC00) - 0x10000) /
      0x400 = u.toNat := by omega
  have hsnd : 0xDC00 + (0x10000 + (u.toNat - 0xD800) * 0x400 + (v.toNat - 0xDC00) - 0x10000) %
      0x400 = v.toNat := by omega
  rw [encodeChar, hc, if_neg (by omega), hfst, hsnd, UInt16.ofNat_toNat, UInt16.ofNat_toNat]

theorem encode_decode (us : List UInt16) : ∀ cs, decode us = some cs → us = encode cs := by
  induction us using decode.induct with
  | case1 =>
    intro cs h
    cases h
    rfl
  | case2 u us hunit ih =>
    intro cs h
    rw [decode_unit hunit, Option.map_eq_some_iff] at h
    obtain ⟨cs, hcs, rfl⟩ := h
    rw [encode, List.flatMap_cons, encodeChar_unit hunit, ← encode, ← ih cs hcs]
    rfl
  | case3 u hunit =>
    intro cs h
    rw [decode, if_neg hunit] at h
    cases h
  | case4 u hunit v us hpair ih =>
    intro cs h
    rw [decode, if_neg hunit] at h
    simp only [if_pos hpair, Option.map_eq_some_iff] at h
    obtain ⟨cs, hcs, rfl⟩ := h
    rw [encode, List.flatMap_cons, encodeChar_pair ⟨by omega, hpair.1⟩ hpair.2, ← encode,
      ← ih cs hcs]
    rfl
  | case5 u hunit v us hpair =>
    intro cs h
    rw [decode, if_neg hunit] at h
    simp only [if_neg hpair] at h
    cases h

/-- **The decoder takes exactly what the encoder gives.** -/
theorem decode_eq_some {us : List UInt16} {cs : List Char} :
    decode us = some cs ↔ us = encode cs := by
  constructor
  · exact encode_decode us cs
  · rintro rfl
    exact decode_encode cs

/-! ## Bytes -/

def toBytes (cs : List Char) : List UInt8 :=
  (encode cs).flatMap fun u => [UInt8.ofNat (u.toNat % 256), UInt8.ofNat (u.toNat / 256)]

def unitsOf : List UInt8 → Option (List UInt16)
  | [] => some []
  | [_] => none
  | a :: b :: rest => (unitsOf rest).map (UInt16.ofNat (a.toNat + 256 * b.toNat) :: ·)

def ofBytes (bytes : List UInt8) : Option (List Char) := (unitsOf bytes).bind decode

theorem unitsOf_eq_some (us : List UInt16) : ∀ bytes, unitsOf bytes = some us ↔
    bytes = us.flatMap fun u => [UInt8.ofNat (u.toNat % 256), UInt8.ofNat (u.toNat / 256)] := by
  intro bytes
  induction bytes using unitsOf.induct generalizing us with
  | case1 =>
    cases us with
    | nil => simp [unitsOf]
    | cons u us => simp [unitsOf]
  | case2 a =>
    cases us with
    | nil => simp [unitsOf]
    | cons u us => simp [unitsOf]
  | case3 a b rest ih =>
    have ha : a.toNat < 256 := a.toNat_lt
    have hb : b.toNat < 256 := b.toNat_lt
    cases us with
    | nil => simp [unitsOf]
    | cons u us =>
      have hu : u.toNat < 65536 := u.toNat_lt
      have hunit : UInt16.ofNat (a.toNat + 256 * b.toNat) = u ↔
          a = UInt8.ofNat (u.toNat % 256) ∧ b = UInt8.ofNat (u.toNat / 256) := by
        simp only [← UInt16.toNat_inj, ← UInt8.toNat_inj, UInt16.toNat_ofNat', UInt8.toNat_ofNat']
        omega
      simp only [unitsOf, Option.map_eq_some_iff, List.cons.injEq, exists_eq_right_right,
        List.flatMap_cons, List.cons_append, List.nil_append, ih, hunit]
      constructor
      · rintro ⟨hrest, hab⟩
        exact ⟨hab.1, hab.2, hrest⟩
      · rintro ⟨h1, h2, hrest⟩
        exact ⟨hrest, h1, h2⟩

theorem ofBytes_eq_some {bytes : List UInt8} {cs : List Char} :
    ofBytes bytes = some cs ↔ bytes = toBytes cs := by
  simp only [ofBytes, Option.bind_eq_some_iff, unitsOf_eq_some, decode_eq_some, exists_eq_right,
    toBytes]

theorem length_toBytes (cs : List Char) : (toBytes cs).length = 2 * (encode cs).length := by
  rw [toBytes, List.length_flatMap]
  induction encode cs with
  | nil => rfl
  | cons u us ih =>
    rw [List.map_cons, List.sum_cons, ih, List.length_cons]
    simp only [List.length_cons, List.length_nil]
    omega

theorem length_le_encode (cs : List Char) : cs.length ≤ (encode cs).length := by
  induction cs with
  | nil => exact Nat.le_refl 0
  | cons c cs ih =>
    have hc : 1 ≤ (encodeChar c).length := by
      unfold encodeChar
      split <;> simp
    rw [encode, List.flatMap_cons, List.length_append, ← encode, List.length_cons]
    omega

end Utf16
