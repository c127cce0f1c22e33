import Mathlib.Algebra.Group.Int.Defs
import Mathlib.Algebra.Group.Nat.Defs
import Mathlib.Data.List.Basic
import Mathlib.Data.List.Flatten

/-!
# Bytes: network byte order and cutting a byte list into pieces

`beNat` reads big-endian bytes; `be16`, `be32` write them.  `hton16`, `hton32`
are the byte swaps of a little-endian host, over words put together with
`le16`, `le32`:

    hton16 (le16 a b) = le16 b a               (hton16_le16)
    hton32 (le32 a b c d) = le32 d c b a       (hton32_le32)

`chunks k l` are the pieces `l[0..k), l[k..2k), …` a loop `i += k` cuts.
-/

namespace Bytes

/-! ## Network byte order -/

/-- Big-endian value of a byte list. -/
def beNat (bs : List UInt8) : Nat := bs.foldl (fun n b => n * 256 + b.toNat) 0

def be16 (n : UInt16) : List UInt8 := [(n >>> 8).toUInt8, n.toUInt8]

def be32 (n : UInt32) : List UInt8 :=
  [(n >>> 24).toUInt8, (n >>> 16).toUInt8, (n >>> 8).toUInt8, n.toUInt8]

/-- A 16-bit word from its bytes, lowest first. -/
def le16 (a b : UInt8) : UInt16 := a.toUInt16 ||| (b.toUInt16 <<< 8)

/-- A 32-bit word from its bytes, lowest first. -/
def le32 (a b c d : UInt8) : UInt32 :=
  a.toUInt32 ||| (b.toUInt32 <<< 8) ||| (c.toUInt32 <<< 16) ||| (d.toUInt32 <<< 24)

/-- `htons` and `ntohs` of a little-endian host. -/
def hton16 (x : UInt16) : UInt16 := le16 (x >>> 8).toUInt8 x.toUInt8

/-- `htonl` and `ntohl` of a little-endian host. -/
def hton32 (x : UInt32) : UInt32 :=
  le32 (x >>> 24).toUInt8 (x >>> 16).toUInt8 (x >>> 8).toUInt8 x.toUInt8

@[simp] theorem length_be16 (n : UInt16) : (be16 n).length = 2 := rfl

@[simp] theorem length_be32 (n : UInt32) : (be32 n).length = 4 := rfl

theorem or_shiftLeft (a b i : Nat) (h : a < 2 ^ i) : a ||| (b <<< i) = b * 2 ^ i + a := by
  rw [Nat.or_comm, ← Nat.shiftLeft_add_eq_or_of_lt h, Nat.shiftLeft_eq]

theorem le16_toNat (a b : UInt8) : (le16 a b).toNat = b.toNat * 256 + a.toNat := by
  have ha := a.toNat_lt
  have hb := b.toNat_lt
  have hs : (b.toNat <<< 8) % 2 ^ 16 = b.toNat <<< 8 := by
    rw [Nat.shiftLeft_eq]; omega
  simp only [le16, UInt16.toNat_or, UInt16.toNat_shiftLeft, UInt8.toNat_toUInt16]
  show a.toNat ||| ((b.toNat <<< 8) % 2 ^ 16) = _
  rw [hs, or_shiftLeft _ _ 8 ha]
  omega

theorem le32_toNat (a b c d : UInt8) :
    (le32 a b c d).toNat =
      d.toNat * 16777216 + c.toNat * 65536 + b.toNat * 256 + a.toNat := by
  have ha := a.toNat_lt
  have hb := b.toNat_lt
  have hc := c.toNat_lt
  have hd := d.toNat_lt
  have hs8 : (b.toNat <<< 8) % 2 ^ 32 = b.toNat <<< 8 := by
    rw [Nat.shiftLeft_eq]; omega
  have hs16 : (c.toNat <<< 16) % 2 ^ 32 = c.toNat <<< 16 := by
    rw [Nat.shiftLeft_eq]; omega
  have hs24 : (d.toNat <<< 24) % 2 ^ 32 = d.toNat <<< 24 := by
    rw [Nat.shiftLeft_eq]; omega
  simp only [le32, UInt32.toNat_or, UInt32.toNat_shiftLeft, UInt8.toNat_toUInt32]
  show a.toNat ||| ((b.toNat <<< 8) % 2 ^ 32) ||| ((c.toNat <<< 16) % 2 ^ 32) |||
    ((d.toNat <<< 24) % 2 ^ 32) = _
  rw [hs8, hs16, hs24, or_shiftLeft _ _ 8 ha, or_shiftLeft _ _ 16 (by omega),
    or_shiftLeft _ _ 24 (by omega)]
  omega

theorem toUInt8_shift16_toNat (x : UInt16) : (x >>> 8).toUInt8.toNat = x.toNat / 256 := by
  have := x.toNat_lt
  simp only [UInt16.toNat_toUInt8, UInt16.toNat_shiftRight]
  show (x.toNat >>> 8) % 2 ^ 8 = _
  rw [Nat.shiftRight_eq_div_pow]
  omega

theorem toUInt8_shift32_toNat (x : UInt32) :
    (x >>> 8).toUInt8.toNat = x.toNat / 256 % 256 ∧
    (x >>> 16).toUInt8.toNat = x.toNat / 65536 % 256 ∧
    (x >>> 24).toUInt8.toNat = x.toNat / 16777216 := by
  have := x.toNat_lt
  simp only [UInt32.toNat_toUInt8, UInt32.toNat_shiftRight]
  refine ⟨?_, ?_, ?_⟩
  · show (x.toNat >>> 8) % 2 ^ 8 = _
    rw [Nat.shiftRight_eq_div_pow]
  · show (x.toNat >>> 16) % 2 ^ 8 = _
    rw [Nat.shiftRight_eq_div_pow]
  · show (x.toNat >>> 24) % 2 ^ 8 = _
    rw [Nat.shiftRight_eq_div_pow]
    omega

theorem hton16_le16 (a b : UInt8) : hton16 (le16 a b) = le16 b a := by
  have ha := a.toNat_lt
  have hb := b.toNat_lt
  have h := le16_toNat a b
  apply UInt16.toNat_inj.mp
  rw [hton16, le16_toNat, le16_toNat, toUInt8_shift16_toNat, UInt16.toNat_toUInt8, h]
  omega

theorem hton32_le32 (a b c d : UInt8) : hton32 (le32 a b c d) = le32 d c b a := by
  have ha := a.toNat_lt
  have hb := b.toNat_lt
  have hc := c.toNat_lt
  have hd := d.toNat_lt
  have h := le32_toNat a b c d
  obtain ⟨h8, h16, h24⟩ := toUInt8_shift32_toNat (le32 a b c d)
  apply UInt32.toNat_inj.mp
  rw [hton32, le32_toNat, le32_toNat, h8, h16, h24, UInt32.toNat_toUInt8, h]
  omega

theorem beNat_pair (a b : UInt8) : beNat [a, b] = (le16 b a).toNat := by
  rw [le16_toNat]
  simp [beNat]

theorem beNat_quad (a b c d : UInt8) : beNat [a, b, c, d] = (le32 d c b a).toNat := by
  rw [le32_toNat]
  simp only [beNat, List.foldl_cons, List.foldl_nil]
  omega

theorem beNat_be16 (n : UInt16) : beNat (be16 n) = n.toNat := by
  have := n.toNat_lt
  rw [be16, beNat_pair, le16_toNat, toUInt8_shift16_toNat, UInt16.toNat_toUInt8]
  omega

theorem beNat_be32 (n : UInt32) : beNat (be32 n) = n.toNat := by
  have := n.toNat_lt
  obtain ⟨h8, h16, h24⟩ := toUInt8_shift32_toNat n
  rw [be32, beNat_quad, le32_toNat, h8, h16, h24, UInt32.toNat_toUInt8]
  omega

/-! ## Cutting a list into pieces -/

/-- Piece `i` is what a loop over `i * k` sees from its index on: `k` elements, or the rest. -/
def chunks {α : Type} (k : Nat) (l : List α) : List (List α) :=
  (List.range ((l.length + k - 1) / k)).map fun i => (l.drop (i * k)).take k

theorem length_of_mem_chunks {α : Type} (k : Nat) (l c : List α) (h : c ∈ chunks k l) :
    c.length ≤ k := by
  obtain ⟨i, -, rfl⟩ := List.mem_map.mp h
  rw [List.length_take]
  omega

/-- The pieces filled up to `k` elements are the list filled up at its end: only the last piece is
short. -/
theorem flatMap_range_fill {α : Type} (k : Nat) (z : α) (l : List α) (n : Nat) :
    (List.range n).flatMap (fun i => (l.drop (i * k)).take k ++
      List.replicate (k - ((l.drop (i * k)).take k).length) z) =
      l.take (n * k) ++ List.replicate (n * k - l.length) z := by
  induction n with
  | zero => simp
  | succ n ih =>
    rw [List.range_succ, List.flatMap_append, ih, Nat.succ_mul, List.take_add]
    simp only [List.flatMap_cons, List.flatMap_nil, List.append_nil, List.length_take,
      List.length_drop]
    rcases Nat.le_total (n * k) l.length with h | h
    · have h1 : n * k - l.length = 0 := by omega
      have h2 : k - min k (l.length - n * k) = n * k + k - l.length := by omega
      rw [h1, h2]
      simp
    · have h1 : k - min k (l.length - n * k) = k := by omega
      have h2 : n * k + k - l.length = n * k - l.length + k := by omega
      rw [List.drop_of_length_le h, h1, h2]
      simp

theorem chunks_fill {α : Type} (k : Nat) (hk : 0 < k) (z : α) (l : List α) :
    ∃ n, (chunks k l).flatMap (fun c => c ++ List.replicate (k - c.length) z) =
      l ++ List.replicate n z := by
  refine ⟨(l.length + k - 1) / k * k - l.length, ?_⟩
  have := Nat.div_add_mod (l.length + k - 1) k
  have := Nat.mod_lt (l.length + k - 1) hk
  have hfull : l.length ≤ (l.length + k - 1) / k * k := by
    rw [Nat.mul_comm]
    omega
  rw [chunks, List.flatMap_map, flatMap_range_fill, List.take_of_length_le hfull]

end Bytes
