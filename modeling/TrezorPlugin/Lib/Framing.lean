import TrezorPlugin.Lib.Bytes
import Mathlib.Data.List.TakeWhile

/-!
# Framing: magic-delimited frames in a byte stream

A frame is the magic byte twice, a big-endian 16-bit type, a big-endian 32-bit
length and that many payload bytes.  A stream is a list of items: frames, and
padding bytes other than the magic byte.

* `parse F S` is the reference parser of one frame: skip to the magic byte,
  then magic, type, length and payload.  `none`: `S` ends too early.
* `parse_rest_lt`: a parse takes something off the stream.
* `parse_pad_frame`: a well-formed frame after padding is parsed as itself.
* `left_cases`: what the parser makes of the rest of a stream, padding and then whole items.
-/

namespace Framing

open Bytes

/-- The magic byte and the largest length a reader takes. -/
structure Format where
  magic : UInt8
  maxLength : Nat

structure Frame where
  type : UInt16
  payload : List UInt8
  fits : payload.length < 2 ^ 32

/-- What a reader finds at the front of a stream. -/
inductive Parsed
  | badMagic
  | tooLong (type : UInt16) (length : Nat)
  | frame (type : UInt16) (payload : List UInt8)
  deriving DecidableEq

variable (F : Format)

/-- The stream after the first magic byte. -/
def afterMagic (S : List UInt8) : List UInt8 := (S.dropWhile (· ≠ F.magic)).tail

/-- Type and length of the six bytes after the magic. -/
def fields (h : List UInt8) : UInt16 × Nat :=
  (UInt16.ofNat (beNat (h.take 2)), beNat ((h.drop 2).take 4))

/-- Type, length and what follows the six bytes, after the two magic bytes. -/
def body (S : List UInt8) : Option (Parsed × List UInt8) :=
  if S.length < 6 then none
  else
    let (type, length) := fields S
    if F.maxLength < length then some (.tooLong type length, S.drop 6)
    else if (S.drop 6).length < length then none
    else some (.frame type ((S.drop 6).take length), (S.drop 6).drop length)

/-- The reference parser of one frame, with the rest of the stream. -/
def parse (S : List UInt8) : Option (Parsed × List UInt8) :=
  if F.magic ∈ S then
    match afterMagic F S with
    | [] => none
    | b :: S => if b ≠ F.magic then some (.badMagic, S) else body F S
  else none

/-- How far the reader of a frame has come with the bytes `S`: it waits for the first magic byte
(0), the second (1), the header (2) or the payload (3). -/
def stage (S : List UInt8) : Nat :=
  if F.magic ∈ S then
    match afterMagic F S with
    | [] => 1
    | _ :: S => if S.length < 6 then 2 else 3
  else 0

/-- The bytes of `S` it has not handed out by then. -/
def kept (S : List UInt8) : List UInt8 :=
  let S := (afterMagic F S).tail
  if S.length < 6 then S else S.drop 6

def Frame.encode (f : Frame) : List UInt8 :=
  [F.magic, F.magic] ++ be16 f.type ++ be32 (UInt32.ofNat f.payload.length) ++ f.payload

/-- What the reader makes of a whole frame. -/
def Frame.parsed (f : Frame) : Parsed :=
  if F.maxLength < f.payload.length then .tooLong f.type f.payload.length
  else .frame f.type f.payload

/-! ## The parser on more and on less input -/

/-- Skipping the bytes before a magic byte. -/
theorem afterMagic_pad {pad : List UInt8} (hpad : F.magic ∉ pad) (S : List UInt8) :
    afterMagic F (pad ++ F.magic :: S) = S := by
  induction pad with
  | nil => simp [afterMagic]
  | cons b pad ih =>
    have hb : b ≠ F.magic := fun e => hpad (by simp [e])
    have := ih fun h => hpad (List.mem_cons_of_mem _ h)
    simp only [afterMagic, List.cons_append, List.dropWhile_cons, hb, ne_eq, not_false_eq_true,
      decide_true, if_true] at this ⊢
    exact this

theorem fields_append {S : List UInt8} (T : List UInt8) (h : 6 ≤ S.length) :
    fields (S ++ T) = fields S := by
  unfold fields
  rw [List.take_append_of_le_length (by omega), List.drop_append_of_le_length (by omega),
    List.take_append_of_le_length (by simp; omega)]

/-- The parser takes something off the stream. -/
theorem parse_rest_lt {S rest : List UInt8} {p : Parsed} (h : parse F S = some (p, rest)) :
    rest.length < S.length := by
  unfold parse at h
  split at h
  · next hm =>
    have hS : (afterMagic F S).length < S.length := by
      have h1 := (List.dropWhile_suffix (· ≠ F.magic) (l := S)).length_le
      have h2 := List.length_pos_of_mem hm
      rw [afterMagic, List.length_tail]
      omega
    split at h
    · cases h
    · next b S' heq =>
      rw [heq, List.length_cons] at hS
      split at h
      · cases h
        omega
      · unfold body at h
        split at h
        · cases h
        · simp only [] at h
          split at h
          · cases h
            simp only [List.length_drop]
            omega
          · split at h
            · cases h
            · cases h
              simp only [List.length_drop]
              omega
  · cases h

/-! ## The parser, byte by byte -/

theorem parse_pad_none {pad : List UInt8} (hpad : F.magic ∉ pad) : parse F pad = none := by
  unfold parse
  rw [if_neg hpad]

theorem parse_pad_one {pad : List UInt8} (hpad : F.magic ∉ pad) :
    parse F (pad ++ [F.magic]) = none := by
  unfold parse
  rw [if_pos (by simp), afterMagic_pad F hpad]

theorem parse_pad_bad {pad : List UInt8} (hpad : F.magic ∉ pad) {b : UInt8} (hb : b ≠ F.magic)
    (S : List UInt8) : parse F (pad ++ F.magic :: b :: S) = some (.badMagic, S) := by
  unfold parse
  rw [if_pos (by simp), afterMagic_pad F hpad]
  simp only [if_pos hb]

theorem parse_pad_magic {pad : List UInt8} (hpad : F.magic ∉ pad) (S : List UInt8) :
    parse F (pad ++ F.magic :: F.magic :: S) = body F S := by
  unfold parse
  rw [if_pos (by simp), afterMagic_pad F hpad]
  simp only [ne_eq, not_true_eq_false, if_false]

/-! ## How far the reader has come -/

theorem afterMagic_of_not_mem {pad : List UInt8} (hpad : F.magic ∉ pad) :
    afterMagic F pad = [] := by
  have hd : pad.dropWhile (· ≠ F.magic) = [] := by
    apply List.dropWhile_eq_nil_iff.mpr
    intro b hb
    have hne : b ≠ F.magic := fun e => hpad (e ▸ hb)
    simpa using hne
  rw [afterMagic, hd, List.tail_nil]

theorem kept_pad {pad : List UInt8} (hpad : F.magic ∉ pad) : kept F pad = [] := by
  simp [kept, afterMagic_of_not_mem F hpad]

theorem kept_one {pad : List UInt8} (hpad : F.magic ∉ pad) : kept F (pad ++ [F.magic]) = [] := by
  simp [kept, afterMagic_pad F hpad]

theorem kept_magic {pad : List UInt8} (hpad : F.magic ∉ pad) (b : UInt8) (S : List UInt8) :
    kept F (pad ++ F.magic :: b :: S) = if S.length < 6 then S else S.drop 6 := by
  simp only [kept, afterMagic_pad F hpad, List.tail_cons]

theorem kept_suffix (S : List UInt8) : kept F S <:+ S := by
  have hS : (afterMagic F S).tail <:+ S :=
    ((List.tail_suffix _).trans (List.tail_suffix _)).trans (List.dropWhile_suffix _)
  unfold kept
  simp only []
  split
  · exact hS
  · exact (List.drop_suffix _ _).trans hS

theorem stage_pad {pad : List UInt8} (hpad : F.magic ∉ pad) : stage F pad = 0 := by
  unfold stage
  rw [if_neg hpad]

theorem stage_one {pad : List UInt8} (hpad : F.magic ∉ pad) : stage F (pad ++ [F.magic]) = 1 := by
  unfold stage
  rw [if_pos (by simp), afterMagic_pad F hpad]

theorem stage_magic {pad : List UInt8} (hpad : F.magic ∉ pad) (b : UInt8) (S : List UInt8) :
    stage F (pad ++ F.magic :: b :: S) = if S.length < 6 then 2 else 3 := by
  unfold stage
  rw [if_pos (by simp), afterMagic_pad F hpad]

/-! ## The body of a frame -/

theorem body_short {S : List UInt8} (h : S.length < 6) : body F S = none := by
  unfold body
  rw [if_pos h]

/-- The six header bytes decide how the rest is read. -/
theorem body_fields {h : List UInt8} (h6 : h.length = 6) (S : List UInt8) :
    body F (h ++ S) =
      if F.maxLength < (fields h).2 then some (.tooLong (fields h).1 (fields h).2, S)
      else if S.length < (fields h).2 then none
      else some (.frame (fields h).1 (S.take (fields h).2), S.drop (fields h).2) := by
  have hd : (h ++ S).drop 6 = S := by
    rw [List.drop_append_of_le_length (by omega), List.drop_of_length_le (by omega),
      List.nil_append]
  unfold body
  rw [if_neg (by simp; omega), fields_append S (by omega)]
  simp only [hd]

/-! ## Frames -/

theorem fields_encode (f : Frame) (T : List UInt8) :
    fields (be16 f.type ++ (be32 (UInt32.ofNat f.payload.length) ++ T)) =
      (f.type, f.payload.length) := by
  have hlen : (UInt32.ofNat f.payload.length).toNat = f.payload.length := by
    have := f.fits
    simp only [UInt32.toNat_ofNat']
    omega
  unfold fields
  rw [List.take_append_of_le_length (by simp), List.take_of_length_le (by simp), beNat_be16,
    List.drop_append_of_le_length (by simp), List.drop_of_length_le (by simp), List.nil_append,
    List.take_append_of_le_length (by simp), List.take_of_length_le (by simp), beNat_be32, hlen]
  simp

theorem body_encode (f : Frame) (T : List UInt8) :
    body F (be16 f.type ++ (be32 (UInt32.ofNat f.payload.length) ++ (f.payload ++ T))) =
      some (f.parsed F, if F.maxLength < f.payload.length then f.payload ++ T else T) := by
  have hd : (be16 f.type ++ (be32 (UInt32.ofNat f.payload.length) ++ (f.payload ++ T))).drop 6 =
      f.payload ++ T := by
    rw [← List.append_assoc, List.drop_append_of_le_length (by simp),
      List.drop_of_length_le (by simp), List.nil_append]
  unfold body Frame.parsed
  rw [if_neg (by simp; omega), fields_encode]
  simp only [hd]
  split
  · rfl
  · rw [if_neg (by simp), List.take_append_of_le_length (by omega), List.take_of_length_le (by omega),
      List.drop_append_of_le_length (by omega), List.drop_of_length_le (by omega), List.nil_append]

/-- **A frame is parsed as itself**, whatever padding precedes it. -/
theorem parse_pad_frame {pad : List UInt8} (hpad : F.magic ∉ pad) (f : Frame) (T : List UInt8) :
    parse F (pad ++ (f.encode F ++ T)) =
      some (f.parsed F, if F.maxLength < f.payload.length then f.payload ++ T else T) := by
  have hS : pad ++ (f.encode F ++ T) = pad ++ F.magic :: (F.magic ::
      (be16 f.type ++ (be32 (UInt32.ofNat f.payload.length) ++ (f.payload ++ T)))) := by
    simp [Frame.encode]
  rw [hS, parse_pad_magic F hpad, body_encode]


/-! ## Streams of frames and padding -/

inductive Item
  | pad (b : UInt8) (h : b ≠ F.magic)
  | frame (f : Frame)

def Item.bytes : Item F → List UInt8
  | .pad b _ => [b]
  | .frame f => f.encode F

/-- The byte stream of a list of items. -/
def bytes (items : List (Item F)) : List UInt8 := items.flatMap (Item.bytes F)

/-- The frames of a stream, in order. -/
def frames (items : List (Item F)) : List Frame :=
  items.filterMap fun
    | .pad _ _ => none
    | .frame f => some f

@[simp] theorem bytes_nil : bytes F [] = [] := rfl

@[simp] theorem bytes_cons (i : Item F) (items : List (Item F)) :
    bytes F (i :: items) = i.bytes F ++ bytes F items := rfl

@[simp] theorem bytes_append (is js : List (Item F)) :
    bytes F (is ++ js) = bytes F is ++ bytes F js := List.flatMap_append

@[simp] theorem frames_append (is js : List (Item F)) :
    frames F (is ++ js) = frames F is ++ frames F js := List.filterMap_append

/-- Padding bytes as items. -/
def pads (pad : List UInt8) (h : F.magic ∉ pad) : List (Item F) :=
  pad.pmap (fun b hb => .pad b hb) fun _ hb e => h (e ▸ hb)

@[simp] theorem bytes_pads (pad : List UInt8) (h : F.magic ∉ pad) :
    bytes F (pads F pad h) = pad := by
  induction pad with
  | nil => rfl
  | cons b pad ih =>
    have := ih fun hm => h (List.mem_cons_of_mem _ hm)
    simpa [pads, Item.bytes] using this

@[simp] theorem frames_pads (pad : List UInt8) (h : F.magic ∉ pad) :
    frames F (pads F pad h) = [] := by
  induction pad with
  | nil => rfl
  | cons b pad ih =>
    have := ih fun hm => h (List.mem_cons_of_mem _ hm)
    simpa [pads, frames] using this

/-- A stream is padding only, or padding and then a frame. -/
theorem items_cases (items : List (Item F)) :
    (F.magic ∉ bytes F items ∧ frames F items = []) ∨
    ∃ ps f rest, items = ps ++ .frame f :: rest ∧ F.magic ∉ bytes F ps ∧ frames F ps = [] := by
  induction items with
  | nil => exact .inl ⟨by simp, rfl⟩
  | cons i items ih =>
    cases i with
    | frame f => exact .inr ⟨[], f, items, rfl, by simp, rfl⟩
    | pad b h =>
      rcases ih with ⟨hm, hf⟩ | ⟨ps, f, rest, rfl, hm, hf⟩
      · refine .inl ⟨?_, by simpa [frames] using hf⟩
        simp only [bytes_cons, Item.bytes, List.singleton_append, List.mem_cons, not_or]
        exact ⟨h.symm, hm⟩
      · refine .inr ⟨.pad b h :: ps, f, rest, rfl, ?_, by simpa [frames] using hf⟩
        simp only [bytes_cons, Item.bytes, List.singleton_append, List.mem_cons, not_or]
        exact ⟨h.symm, hm⟩

/-! ## The rest of a stream -/

/-- What is left of a stream: bytes other than the magic byte, then the items `post`. -/
def Left (post : List (Item F)) (S : List UInt8) : Prop :=
  ∃ pad, F.magic ∉ pad ∧ S = pad ++ bytes F post

theorem left_bytes (items : List (Item F)) : Left F items (bytes F items) :=
  ⟨[], by simp, rfl⟩

theorem frames_eq_nil {items : List (Item F)} (h : F.magic ∉ bytes F items) :
    frames F items = [] := by
  rcases items_cases F items with ⟨-, hf⟩ | ⟨ps, f, rest, rfl, -, -⟩
  · exact hf
  · exact absurd (by simp [Item.bytes, Frame.encode]) h

/-- **What is left is parsed frame by frame.** -/
theorem left_cases {post : List (Item F)} {S : List UInt8} (h : Left F post S) :
    (F.magic ∉ S ∧ frames F post = []) ∨
    ∃ ps f rest, post = ps ++ .frame f :: rest ∧ frames F ps = [] ∧
      parse F S = some (f.parsed F,
        if F.maxLength < f.payload.length then f.payload ++ bytes F rest else bytes F rest) := by
  obtain ⟨pad, hpad, rfl⟩ := h
  rcases items_cases F post with ⟨hm, hf⟩ | ⟨ps, f, rest, rfl, hm, hf⟩
  · refine .inl ⟨?_, hf⟩
    intro h
    rcases List.mem_append.mp h with h | h
    · exact hpad h
    · exact hm h
  · refine .inr ⟨ps, f, rest, rfl, hf, ?_⟩
    have hpp : F.magic ∉ pad ++ bytes F ps := fun h => by
      rcases List.mem_append.mp h with h | h
      · exact hpad h
      · exact hm h
    rw [bytes_append, bytes_cons, ← List.append_assoc]
    exact parse_pad_frame F hpp f (bytes F rest)

theorem bytes_eq_append {pad S : List UInt8} (hpad : F.magic ∉ pad) {items : List (Item F)}
    (h : bytes F items = pad ++ S) :
    ∃ ps post, items = ps ++ post ∧ frames F ps = [] ∧ S = bytes F post := by
  induction pad generalizing items with
  | nil => exact ⟨[], items, rfl, rfl, h.symm⟩
  | cons b pad ih =>
    match items with
    | [] => simp at h
    | .frame f :: items =>
      have hb : b = F.magic := by
        simp only [bytes_cons, Item.bytes, Frame.encode, List.cons_append, List.cons.injEq] at h
        exact h.1.symm
      exact absurd (hb ▸ List.mem_cons_self) hpad
    | .pad c hc :: items =>
      simp only [bytes_cons, Item.bytes, List.cons_append, List.nil_append, List.cons.injEq] at h
      obtain ⟨ps, post, h1, h2, h3⟩ := ih (fun hm => hpad (List.mem_cons_of_mem _ hm)) h.2
      exact ⟨.pad c hc :: ps, post, by rw [h1]; rfl, by simpa [frames] using h2, h3⟩

/-- Bytes other than the magic byte take no frame off what is left. -/
theorem left_drop {post : List (Item F)} {rcv S : List UInt8} (hrcv : F.magic ∉ rcv)
    (h : Left F post (rcv ++ S)) :
    ∃ ps post', post = ps ++ post' ∧ frames F ps = [] ∧ Left F post' S := by
  obtain ⟨pad, hpad, he⟩ := h
  rcases List.append_eq_append_iff.mp he with ⟨a, rfl, h⟩ | ⟨a, rfl, h⟩
  · exact ⟨[], post, rfl, rfl, a, fun hm => hpad (List.mem_append_right _ hm), h⟩
  · obtain ⟨ps, post', h1, h2, h3⟩ :=
      bytes_eq_append F (fun hm => hrcv (List.mem_append_right _ hm)) h
    exact ⟨ps, post', h1, h2, [], by simp, h3⟩

/-- Later in the stream, no more frames are left. -/
theorem left_frames_suffix {items post post' : List (Item F)} {rcv S : List UInt8}
    (hp : post <:+ items) (hp' : post' <:+ items) (h : Left F post (rcv ++ S))
    (h' : Left F post' S) : frames F post' <:+ frames F post := by
  rcases List.suffix_or_suffix_of_suffix hp' hp with ⟨xs, rfl⟩ | ⟨xs, rfl⟩
  · exact ⟨frames F xs, (frames_append F xs post').symm⟩
  · obtain ⟨pad, hpad, h⟩ := h
    obtain ⟨pad', -, rfl⟩ := h'
    rw [bytes_append, ← List.append_assoc, ← List.append_assoc] at h
    have hx : F.magic ∉ bytes F xs := fun hm =>
      hpad (List.append_cancel_right h ▸ List.mem_append_right _ hm)
    exact ⟨[], by simp only [frames_append, frames_eq_nil F hx, List.nil_append]⟩

end Framing
