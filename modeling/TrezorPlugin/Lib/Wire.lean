import Mathlib.Algebra.Group.Nat.Defs
import Mathlib.Data.List.Basic
import Mathlib.Data.List.Flatten
import Mathlib.Data.List.TakeDrop
import Mathlib.Tactic.SplitIfs

/-!
# The wire format of tagged messages, and the streams that read it

A message is a sequence of fields, each a tag (a field number and a wire type)
and a value.  `Cursor` is a place in such bytes, inside the messages it is nested
in, and `WireFormat.plain` reads there, one value at a time.  A `CodedInputStream`
is any implementation of the same operations that `Lawful` ties to a cursor: it
may buffer, and `expectTag` and `expectAtEnd` may miss what is there.

    readVarint j (varint k n ++ r) = some (n, r)            (readVarint_varint)
    (varint 4 n).length = varintSize32 n                    (length_varint)
-/

namespace Wire

/-! ## Varints -/

/-- Base 128, the lowest group first, `k + 1` groups at most. -/
def varint : Nat → Nat → List UInt8
  | 0, n => [UInt8.ofNat n]
  | k + 1, n =>
    if n < 128 then [UInt8.ofNat n]
    else UInt8.ofNat (n % 128 + 128) :: varint k (n / 128)

/-- A varint of `k + 1` bytes at most. -/
def readVarint : Nat → List UInt8 → Option (Nat × List UInt8)
  | _, [] => none
  | 0, b :: bs => if b.toNat < 128 then some (b.toNat, bs) else none
  | k + 1, b :: bs =>
    if b.toNat < 128 then some (b.toNat, bs)
    else (readVarint k bs).map fun p => (b.toNat - 128 + 128 * p.1, p.2)

/-- The size of a 32-bit varint. -/
def varintSize32 (n : Nat) : Nat :=
  if n < 2 ^ 7 then 1 else if n < 2 ^ 14 then 2 else if n < 2 ^ 21 then 3
  else if n < 2 ^ 28 then 4 else 5

theorem toNat_ofNat_of_lt {n : Nat} (h : n < 256) : (UInt8.ofNat n).toNat = n := by
  rw [UInt8.toNat_ofNat']
  omega

theorem readVarint_small (j : Nat) {n : Nat} (h : n < 128) (r : List UInt8) :
    readVarint j (UInt8.ofNat n :: r) = some (n, r) := by
  have hn : (UInt8.ofNat n).toNat = n := toNat_ofNat_of_lt (by omega)
  cases j with
  | zero => rw [readVarint, hn, if_pos h]
  | succ j => rw [readVarint, hn, if_pos h]

/-- **Varints round trip**, with anything behind them and any larger bound on their size. -/
theorem readVarint_varint {k : Nat} :
    ∀ {j n : Nat}, n < 128 ^ (k + 1) → k ≤ j → ∀ r, readVarint j (varint k n ++ r) = some (n, r) := by
  induction k with
  | zero =>
    intro j n hn _ r
    exact readVarint_small j (by omega) r
  | succ k ih =>
    intro j n hn hj r
    rw [varint]
    by_cases hsmall : n < 128
    · rw [if_pos hsmall]
      exact readVarint_small j hsmall r
    · obtain ⟨j, rfl⟩ : ∃ i, j = i + 1 := ⟨j - 1, by omega⟩
      have hdiv : n / 128 < 128 ^ (k + 1) := by
        rw [Nat.div_lt_iff_lt_mul (by omega)]
        rwa [Nat.pow_succ] at hn
      have hlow : (UInt8.ofNat (n % 128 + 128)).toNat = n % 128 + 128 :=
        toNat_ofNat_of_lt (by omega)
      rw [if_neg hsmall, List.cons_append, readVarint, hlow, if_neg (by omega),
        ih hdiv (by omega) r, Option.map_some]
      have hsum : n % 128 + 128 - 128 + 128 * (n / 128) = n := by omega
      rw [hsum]

theorem readVarint_shorter {k : Nat} :
    ∀ {bs r : List UInt8} {n : Nat}, readVarint k bs = some (n, r) → r.length < bs.length := by
  induction k with
  | zero =>
    intro bs r n h
    cases bs with
    | nil => cases h
    | cons b bs =>
      rw [readVarint] at h
      split at h
      · cases h
        exact Nat.lt_succ_self _
      · cases h
  | succ k ih =>
    intro bs r n h
    cases bs with
    | nil => cases h
    | cons b bs =>
      rw [readVarint] at h
      split at h
      · cases h
        exact Nat.lt_succ_self _
      · cases hrest : readVarint k bs with
        | none =>
          rw [hrest] at h
          cases h
        | some p =>
          rw [hrest] at h
          cases h
          have := ih hrest
          rw [List.length_cons]
          omega

theorem length_varint_succ (k n : Nat) :
    (varint (k + 1) n).length = if n < 128 then 1 else (varint k (n / 128)).length + 1 := by
  rw [varint]
  split <;> rfl

theorem length_varint {n : Nat} (h : n < 2 ^ 32) : (varint 4 n).length = varintSize32 n := by
  have hlast : ∀ m, (varint 0 m).length = 1 := fun _ => rfl
  simp only [length_varint_succ, hlast, varintSize32, Nat.div_div_eq_div_mul]
  split_ifs <;> omega

/-! ## Wire types -/

def typeVarint : Nat := 0
def typeLengthDelimited : Nat := 2
def typeEndGroup : Nat := 4

/-- `MakeTag`. -/
def makeTag (number wireType : Nat) : Nat := number * 8 + wireType

/-! ## Fields on the wire -/

def writeUInt32 (number : Nat) (value : UInt32) : List UInt8 :=
  varint 4 (makeTag number typeVarint) ++ varint 4 value.toNat

def writeString (number : Nat) (value : List UInt8) : List UInt8 :=
  varint 4 (makeTag number typeLengthDelimited) ++ (varint 4 value.length ++ value)

/-- A nested message, by the size its object has cached and the bytes it writes. -/
def writeMessage (number cachedSize : Nat) (bytes : List UInt8) : List UInt8 :=
  varint 4 (makeTag number typeLengthDelimited) ++ (varint 4 cachedSize ++ bytes)

def uInt32Size (value : UInt32) : Nat := varintSize32 value.toNat

/-- A size computed in a 32-bit `int`. -/
def int32 (size : Nat) : Nat := size % 2 ^ 32

def stringSize (value : List UInt8) : Nat :=
  int32 (varintSize32 (int32 value.length) + value.length)

/-- The size of a nested message of `size` bytes, its length included. -/
def messageSize (size : Nat) : Nat := int32 (varintSize32 size + size)

theorem length_varint_tag {n : Nat} (h : n < 128) : (varint 4 n).length = 1 := by
  rw [varint, if_pos h]
  rfl

theorem length_writeUInt32 {number : Nat} (h : number < 16) (value : UInt32) :
    (writeUInt32 number value).length = 1 + uInt32Size value := by
  have hlt : value.toNat < 2 ^ 32 := value.toNat_lt
  have htag : makeTag number typeVarint < 128 := by
    unfold makeTag typeVarint
    omega
  rw [writeUInt32, List.length_append, length_varint_tag htag, length_varint hlt, uInt32Size]

theorem length_writeMessage {number size : Nat} (h : number < 16) (hsize : size < 2 ^ 32)
    (bytes : List UInt8) :
    (writeMessage number size bytes).length = 1 + (varintSize32 size + bytes.length) := by
  have htag : makeTag number typeLengthDelimited < 128 := by
    unfold makeTag typeLengthDelimited
    omega
  rw [writeMessage, List.length_append, List.length_append, length_varint_tag htag,
    length_varint hsize]

theorem le_length_writeString (number : Nat) (value : List UInt8) :
    value.length ≤ (writeString number value).length := by
  rw [writeString, List.length_append, List.length_append]
  omega

/-- The size computed for a string is the size it has, if that is an `int`. -/
theorem length_writeString {number : Nat} (h : number < 16) {value : List UInt8}
    (hsize : (writeString number value).length < 2 ^ 31) :
    (writeString number value).length = 1 + stringSize value := by
  have hle := le_length_writeString number value
  have hlen := length_writeMessage h (show value.length < 2 ^ 32 by omega) value
  have heq : writeString number value = writeMessage number value.length value := rfl
  rw [heq] at hsize ⊢
  rw [hlen] at hsize ⊢
  have hint : int32 value.length = value.length := Nat.mod_eq_of_lt (by omega)
  rw [stringSize, hint, int32, Nat.mod_eq_of_lt (by omega)]

/-- The size computed for a nested message is the size it has, if that is an `int`. -/
theorem length_nested {number size : Nat} (h : number < 16) {bytes : List UInt8}
    (hsize : size = bytes.length) (hfits : (writeMessage number size bytes).length < 2 ^ 31) :
    (writeMessage number size bytes).length = 1 + messageSize size := by
  have hle : bytes.length ≤ (writeMessage number size bytes).length := by
    rw [writeMessage, List.length_append, List.length_append]
    omega
  rw [length_writeMessage h (by omega)] at hfits ⊢
  rw [messageSize, int32, Nat.mod_eq_of_lt (by omega), hsize]

/-- One field added to a size: `total_size += 1 + ..` where the field is present. -/
theorem int32_field {b : Bool} {total size : Nat} {bytes : List UInt8}
    (hsize : b = true → bytes.length = 1 + size)
    (h : total + (if b then bytes else []).length < 2 ^ 32) :
    (if b then int32 (total + (1 + size)) else total) = total + (if b then bytes else []).length := by
  cases b with
  | false => rfl
  | true =>
    rw [if_pos rfl] at h ⊢
    rw [if_pos rfl, ← hsize rfl]
    exact Nat.mod_eq_of_lt h

/-! ## Cursors -/

/-- A place in the bytes of a message: what is left of it, what follows the messages it is nested
in, and whether the last tag read was the message's regular end. -/
structure Cursor where
  rest : List UInt8
  outer : List (List UInt8)
  ended : Bool
  deriving DecidableEq

/-- What the format leaves to its implementation: the fields a message does not know, what a string
holds when new bytes cannot be read into it, and how deep messages may nest. -/
structure WireFormat (F : Type) where
  tag : F → Nat
  body : F → List UInt8
  /-- Inside of as many messages: groups count as messages, and may nest too deep. -/
  skip : Nat → Nat → List UInt8 → Except (Option F) (F × List UInt8)
  torn : List UInt8 → List UInt8 → List UInt8
  depth : Nat

/-- The field can be read back inside of `k` messages. -/
def WireFormat.Fits {F : Type} (W : WireFormat F) (k : Nat) (f : F) : Prop :=
  ∀ r, W.skip k (W.tag f) (W.body f ++ r) = .ok (f, r)

/-- Unknown fields are written as they were read, under tags that the reader stops at, and can be
read in fewer messages as well. -/
structure WireFormat.Sound {F : Type} (W : WireFormat F) : Prop where
  skip_fits : ∀ k t bs f r, W.skip k t bs = .ok (f, r) → W.tag f = t ∧ W.Fits k f
  left_fits : ∀ k t bs f, W.skip k t bs = .error (some f) → W.tag f = t ∧ W.Fits k f
  skip_mono : ∀ j k t bs p, j ≤ k → W.skip k t bs = .ok p → W.skip j t bs = .ok p
  skip_shorter : ∀ k t bs f r, W.skip k t bs = .ok (f, r) → r.length ≤ bs.length
  tag_fits : ∀ f, W.tag f < 2 ^ 32
  tag_pos : ∀ f, W.tag f ≠ 0
  tag_type : ∀ f, W.tag f % 8 ≠ typeEndGroup

theorem WireFormat.Fits.mono {F : Type} {W : WireFormat F} (hW : W.Sound) {j k : Nat} {f : F}
    (h : W.Fits k f) (hj : j ≤ k) : W.Fits j f := fun r => hW.skip_mono j k _ _ _ hj (h r)

/-- `SerializeUnknownFields`. -/
def WireFormat.writeUnknown {F : Type} (W : WireFormat F) (fields : List F) : List UInt8 :=
  fields.flatMap fun f => varint 4 (W.tag f) ++ W.body f

/-! ## Streams -/

/-- The operations of a stream that a message parser uses. -/
structure CodedInputStream (σ F : Type) where
  bytesUntilLimit : σ → Nat
  readTag : σ → Nat × σ
  expectTag : Nat → σ → Bool × σ
  expectAtEnd : σ → Bool × σ
  consumedEntireMessage : σ → Bool
  readUInt32 : σ → Except Unit (UInt32 × σ)
  /-- Into a string that holds something; what it holds when that fails. -/
  readString : List UInt8 → σ → Except (List UInt8) (List UInt8 × σ)
  /-- The length of a nested message, and the limit behind it. -/
  pushMessage : σ → Except Unit (Unit × σ)
  popLimit : σ → σ
  /-- A failed skip may leave part of a field behind. -/
  skipField : Nat → σ → Except (Option F) (F × σ)

variable {σ F : Type}

/-- `k + 1 = 10` bytes hold 64 bits. -/
def readVarint32 (bs : List UInt8) : Option (Nat × List UInt8) :=
  (readVarint 9 bs).map fun p => (p.1 % 2 ^ 32, p.2)

def Cursor.readTag (c : Cursor) : Nat × Cursor :=
  match c.rest with
  | [] => (0, { c with ended := true })
  | _ :: _ =>
    match readVarint32 c.rest with
    | none => (0, { c with ended := false })
    | some (tag, rest) => (tag, { c with rest := rest, ended := false })

def Cursor.readUInt32 (c : Cursor) : Except Unit (UInt32 × Cursor) :=
  match readVarint32 c.rest with
  | none => .error ()
  | some (n, rest) => .ok (UInt32.ofNat n, { c with rest := rest })

/-- A string of `2 ^ 31` bytes or more has a negative length. -/
def Cursor.readString (torn : List UInt8 → List UInt8 → List UInt8) (old : List UInt8)
    (c : Cursor) : Except (List UInt8) (List UInt8 × Cursor) :=
  match readVarint32 c.rest with
  | none => .error (torn old c.rest)
  | some (n, rest) =>
    if n < 2 ^ 31 ∧ n ≤ rest.length then .ok (rest.take n, { c with rest := rest.drop n })
    else .error (torn old c.rest)

/-- The limit of the message outside stays in force. -/
def Cursor.pushMessage (depth : Nat) (c : Cursor) : Except Unit (Unit × Cursor) :=
  match readVarint32 c.rest with
  | none => .error ()
  | some (n, rest) =>
    if c.outer.length < depth then
      .ok ((), ⟨rest.take n, rest.drop n :: c.outer, false⟩)
    else .error ()

def Cursor.popLimit (c : Cursor) : Cursor :=
  match c.outer with
  | [] => c
  | rest :: outer => ⟨c.rest ++ rest, outer, false⟩

/-- Reading from the bytes themselves, always by `readTag`. -/
def WireFormat.plain (W : WireFormat F) : CodedInputStream Cursor F where
  bytesUntilLimit c := c.rest.length
  readTag := Cursor.readTag
  expectTag _ c := (false, c)
  expectAtEnd c := (false, c)
  consumedEntireMessage := Cursor.ended
  readUInt32 := Cursor.readUInt32
  readString := Cursor.readString W.torn
  pushMessage := Cursor.pushMessage W.depth
  popLimit := Cursor.popLimit
  skipField t c :=
    match W.skip c.outer.length t c.rest with
    | .error left => .error left
    | .ok (f, rest) => .ok (f, { c with rest := rest })

/-- The same answer, at matching places. -/
def Agree {α ε τ : Type} (At : σ → τ → Prop) :
    Except ε (α × σ) → Except ε (α × τ) → Prop
  | .ok (a, s), .ok (b, t) => a = b ∧ At s t
  | .error e, .error e' => e = e'
  | _, _ => False

/-- A stream at `s` stands at the cursor `c` when `At s c`, and every operation does what it does on
the bytes themselves.  `expectTag` and `expectAtEnd` may answer `false` at any time, and where a
`readTag` ends that has found no tag, nothing is said but that it is no end of a message. -/
structure CodedInputStream.Lawful (S : CodedInputStream σ F) (W : WireFormat F)
    (At : σ → Cursor → Prop) : Prop where
  bytesUntilLimit : ∀ {s c}, At s c → S.bytesUntilLimit s = c.rest.length
  readTag : ∀ {s c}, At s c → (S.readTag s).1 = c.readTag.1
  readTag_at : ∀ {s c}, At s c → c.readTag.1 ≠ 0 ∨ c.rest = [] → At (S.readTag s).2 c.readTag.2
  readTag_none : ∀ {s c}, At s c → c.readTag.1 = 0 → c.rest ≠ [] →
    S.consumedEntireMessage (S.readTag s).2 = false
  expectTag : ∀ {s c} t, At s c → (S.expectTag t s).1 = true →
    c.readTag.1 = t ∧ At (S.expectTag t s).2 c.readTag.2
  expectTag_not : ∀ {s c} t, At s c → (S.expectTag t s).1 = false → At (S.expectTag t s).2 c
  expectAtEnd : ∀ {s c}, At s c → (S.expectAtEnd s).1 = true →
    c.rest = [] ∧ At (S.expectAtEnd s).2 { c with ended := true }
  expectAtEnd_not : ∀ {s c}, At s c → (S.expectAtEnd s).1 = false → At (S.expectAtEnd s).2 c
  consumedEntireMessage : ∀ {s c}, At s c → S.consumedEntireMessage s = c.ended
  readUInt32 : ∀ {s c}, At s c → Agree At (S.readUInt32 s) c.readUInt32
  readString : ∀ {s c} old, At s c → Agree At (S.readString old s) (c.readString W.torn old)
  pushMessage : ∀ {s c}, At s c → Agree At (S.pushMessage s) (c.pushMessage W.depth)
  popLimit : ∀ {s c}, At s c → At (S.popLimit s) c.popLimit
  skipField : ∀ {s c} t, At s c → Agree At (S.skipField t s) (W.plain.skipField t c)

/-- Where a parser ends: at matching places, or behind what was no tag. -/
def CodedInputStream.Ends (S : CodedInputStream σ F) (At : σ → Cursor → Prop) (s : σ)
    (c : Cursor) : Prop :=
  At s c ∨ S.consumedEntireMessage s = false ∧ c.ended = false

theorem CodedInputStream.Lawful.consumed_eq {S : CodedInputStream σ F} {W : WireFormat F}
    {At : σ → Cursor → Prop} (hS : S.Lawful W At) {s : σ} {c : Cursor} (h : S.Ends At s c) :
    S.consumedEntireMessage s = c.ended := by
  rcases h with hat | ⟨hs, hc⟩
  · exact hS.consumedEntireMessage hat
  · rw [hs, hc]

theorem Cursor.ended_readTag {c : Cursor} (h : c.rest ≠ []) : c.readTag.2.ended = false := by
  unfold Cursor.readTag
  split
  · next hnil => exact absurd hnil h
  · split <;> rfl

theorem CodedInputStream.Lawful.readTag_ends {S : CodedInputStream σ F} {W : WireFormat F}
    {At : σ → Cursor → Prop} (hS : S.Lawful W At) {s : σ} {c : Cursor} (hat : At s c)
    (h : c.readTag.1 = 0) : S.Ends At (S.readTag s).2 c.readTag.2 := by
  by_cases hrest : c.rest = []
  · exact .inl (hS.readTag_at hat (.inr hrest))
  · exact .inr ⟨hS.readTag_none hat h hrest, Cursor.ended_readTag hrest⟩

theorem Agree.refl {α ε : Type} (x : Except ε (α × σ)) : Agree Eq x x := by
  cases x with
  | error e => exact Eq.refl e
  | ok p => exact ⟨Eq.refl p.1, Eq.refl p.2⟩

/-- The bytes themselves are a lawful stream. -/
theorem plain_lawful (W : WireFormat F) : W.plain.Lawful W Eq where
  bytesUntilLimit h := by rw [h]; rfl
  readTag h := by rw [h]; rfl
  readTag_at h _ := by rw [h]; rfl
  readTag_none h _ hrest := by rw [h]; exact Cursor.ended_readTag hrest
  expectTag _ _ h := by cases h
  expectTag_not _ h _ := h
  expectAtEnd _ h := by cases h
  expectAtEnd_not h _ := h
  consumedEntireMessage h := by rw [h]; rfl
  readUInt32 h := by rw [h]; exact Agree.refl _
  readString _ h := by rw [h]; exact Agree.refl _
  pushMessage h := by rw [h]; exact Agree.refl _
  popLimit h := by rw [h]; rfl
  skipField t h := by rw [h]; exact Agree.refl _

/-- Reading from an array that is in the buffer as a whole: what is expected is seen. -/
def WireFormat.buffered (W : WireFormat F) : CodedInputStream Cursor F where
  __ := W.plain
  expectTag t c := if c.readTag.1 = t then (true, c.readTag.2) else (false, c)
  expectAtEnd c := if c.rest = [] then (true, { c with ended := true }) else (false, c)

theorem buffered_lawful (W : WireFormat F) : W.buffered.Lawful W Eq where
  bytesUntilLimit h := by rw [h]; rfl
  readTag h := by rw [h]; rfl
  readTag_at h _ := by rw [h]; rfl
  readTag_none h _ hrest := by rw [h]; exact Cursor.ended_readTag hrest
  expectTag {s c} t h hsee := by
    subst h
    by_cases ht : s.readTag.1 = t
    · exact ⟨ht, by simp [WireFormat.buffered, ht]⟩
    · simp [WireFormat.buffered, ht] at hsee
  expectTag_not {s c} t h hmiss := by
    subst h
    by_cases ht : s.readTag.1 = t
    · simp [WireFormat.buffered, ht] at hmiss
    · simp [WireFormat.buffered, ht]
  expectAtEnd {s c} h hsee := by
    subst h
    by_cases hend : s.rest = []
    · exact ⟨hend, by simp [WireFormat.buffered, hend]⟩
    · simp [WireFormat.buffered, hend] at hsee
  expectAtEnd_not {s c} h hmiss := by
    subst h
    by_cases hend : s.rest = []
    · simp [WireFormat.buffered, hend] at hmiss
    · simp [WireFormat.buffered, hend]
  consumedEntireMessage h := by rw [h]; rfl
  readUInt32 h := by rw [h]; exact Agree.refl _
  readString _ h := by rw [h]; exact Agree.refl _
  pushMessage h := by rw [h]; exact Agree.refl _
  popLimit h := by rw [h]; rfl
  skipField t h := by rw [h]; exact Agree.refl _

end Wire
