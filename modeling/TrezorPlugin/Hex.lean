import TrezorPlugin.Hidapi

/-!
# Hex strings (utils.cpp)

`hex_encode` and `hex_decode` are boost's `hex` and `unhex`; `hexDecode_hexEncode`:
the second undoes the first.
-/

namespace TrezorPlugin

/-! ## Decoding -/

def hexDigit (c : Char) : Option Nat :=
  if '0' ≤ c ∧ c ≤ '9' then some (c.toNat - 48)
  else if 'a' ≤ c ∧ c ≤ 'f' then some (c.toNat - 87)
  else if 'A' ≤ c ∧ c ≤ 'F' then some (c.toNat - 55)
  else none

/-- `boost::algorithm::unhex`. -/
def unhex : List Char → Option (List UInt8)
  | [] => some []
  | [_] => none
  | a :: b :: rest => do
    let a ← hexDigit a
    let b ← hexDigit b
    let rest ← unhex rest
    return UInt8.ofNat (16 * a + b) :: rest

def hexDecode (hex : String) : Except Exception (List UInt8) :=
  match unhex hex.toList with
  | some bytes => .ok bytes
  | none => .error (.invalidArgument "Cannot decode from HEX")

/-! ## Encoding -/

/-- The digits of `boost::algorithm::hex`. -/
def hexChar (n : Nat) : Char := if n < 10 then Char.ofNat (48 + n) else Char.ofNat (55 + n)

/-- `boost::algorithm::hex`. -/
def hexChars : List UInt8 → List Char
  | [] => []
  | b :: bytes => hexChar (b.toNat / 16) :: hexChar (b.toNat % 16) :: hexChars bytes

def hexEncode (bytes : List UInt8) : String := String.ofList (hexChars bytes)

theorem hexDigit_hexChar_all : ∀ n, n < 16 → hexDigit (hexChar n) = some n := by
  decide

theorem unhex_hexChars (bytes : List UInt8) : unhex (hexChars bytes) = some bytes := by
  induction bytes with
  | nil => rfl
  | cons b bytes ih =>
    have hb := b.toNat_lt
    have hdiv : 16 * (b.toNat / 16) + b.toNat % 16 = b.toNat := by omega
    rw [hexChars, unhex, hexDigit_hexChar_all _ (by omega), hexDigit_hexChar_all _ (by omega), ih]
    simp only [Option.bind_eq_bind, Option.bind_some, hdiv, UInt8.ofNat_toNat]
    rfl

theorem hexDecode_hexEncode (bytes : List UInt8) : hexDecode (hexEncode bytes) = .ok bytes := by
  simp only [hexDecode, hexEncode, String.toList_ofList, unhex_hexChars]

end TrezorPlugin
