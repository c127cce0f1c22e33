import TrezorPlugin.Buffer
import TrezorPlugin.Messages

/-!
# DeviceChannel (devices.h, devices.cpp)

`DeviceChannel.read` aligns to the magic byte, reads a header and a payload and
makes a message of them; `DeviceChannel.write` sends one frame.

* `read_cases`: a read either does to the unread bytes what the reference parser
  `Framing.parse` does, or stops for want of bytes with everything received kept
  or consumed in order (`Halted`);
* `frameBytes_eq`: the bytes written are the frame of the message.
-/

namespace TrezorPlugin

open Bytes Framing

/-- The frames of the wire: magic `'#'`, lengths up to `BUFFER_SIZE`. -/
def wire : Format := ⟨35, bufferSize⟩

variable {τ δ Msg : Type} (E : Env τ δ) (P : Protobuf Msg) (pool : DescriptorPool)

/-- An exception, or a value, in the middle of an operation. -/
def liftExcept {σ α : Type} (x : Except Exception α) : EStateM Stop σ α := fun s =>
  match x with
  | .ok a => .ok a s
  | .error e => .error (.throws e) s

/-! ## devices.cpp -/

/-- The reads up to and including the first `'#'`: `while (header[0] != '#')`. -/
def DeviceChannel.align (dev : Handle) (timeout : Bool) : Nat → IoM τ δ Unit
  | 0 => throw .pending
  | fuel + 1 => do
    let header ← HIDBuffer.read E dev 1 timeout
    if header.getD 0 0 ≠ 35 then DeviceChannel.align dev timeout fuel else pure ()

def DeviceChannel.readHeader (dev : Handle) (timeout : Bool) : IoM τ δ (UInt16 × UInt32) := do
  -- each round of the alignment uses up a byte, so `size + 1` rounds are enough
  let s ← get
  DeviceChannel.align E dev timeout (s.size + 1)
  let header ← HIDBuffer.read E dev 1 timeout
  if header.getD 0 0 ≠ 35 then throw (.throws (.readError "Failed to read header"))
  else do
    let header ← HIDBuffer.read E dev 6 timeout
    return (hton16 (le16 (header.getD 0 0) (header.getD 1 0)),
      hton32 (le32 (header.getD 2 0) (header.getD 3 0) (header.getD 4 0) (header.getD 5 0)))

def DeviceChannel.read (dev : Handle) (timeout : Bool) : IoM τ δ Msg := do
  let (type, length) ← DeviceChannel.readHeader E dev timeout
  if length.toNat > bufferSize then throw (.throws (.readError "Invalid data"))
  else do
    let msgbuf ← HIDBuffer.read E dev length.toNat timeout
    let name ← liftExcept (messageName pool type)
    let message ← liftExcept (createMessage P pool name)
    -- the result of `ParseFromArray` is not looked at
    return (P.parseFromArray message msgbuf).1

/-- The bytes `buf` that `DeviceChannel::write` puts together. -/
def frameBytes (type : UInt16) (body : List UInt8) : List UInt8 :=
  let type_ := hton16 type
  let length_ := hton32 (UInt32.ofNat body.length)
  [35, 35,
    (type_ &&& 0xFF).toUInt8, (type_ >>> 8).toUInt8,
    (length_ &&& 0xFF).toUInt8, ((length_ >>> 8) &&& 0xFF).toUInt8,
    ((length_ >>> 16) &&& 0xFF).toUInt8, (length_ >>> 24).toUInt8] ++ body

def DeviceChannel.write (dev : Handle) (message : Msg) : IoM τ δ Unit := do
  let type ← liftExcept (messageTypeOf P pool message)
  HIDBuffer.write E dev (frameBytes type (P.serialize message))

/-- The alignment with rounds enough, as `readHeader` runs it. -/
def DeviceChannel.alignAll (dev : Handle) (timeout : Bool) : IoM τ δ Unit := fun s =>
  DeviceChannel.align E dev timeout (s.size + 1) s

theorem DeviceChannel.readHeader_eq (dev : Handle) (timeout : Bool) :
    DeviceChannel.readHeader E dev timeout = (do
      DeviceChannel.alignAll E dev timeout
      let header ← HIDBuffer.read E dev 1 timeout
      if header.getD 0 0 ≠ 35 then throw (.throws (.readError "Failed to read header"))
      else do
        let header ← HIDBuffer.read E dev 6 timeout
        return (hton16 (le16 (header.getD 0 0) (header.getD 1 0)),
          hton32 (le32 (header.getD 2 0) (header.getD 3 0) (header.getD 4 0)
            (header.getD 5 0)))) := rfl

theorem of_liftExcept_ok {σ α : Type} {x : Except Exception α} {a : α} {s s' : σ}
    (h : liftExcept x s = .ok a s') : x = .ok a ∧ s' = s := by
  cases x with
  | ok b =>
    cases h
    exact ⟨rfl, rfl⟩
  | error e => cases h

/-! ## The bytes written -/

theorem toUInt8_and16 (x : UInt16) : (x &&& 0xFF).toUInt8 = x.toUInt8 := by
  apply UInt8.toNat_inj.mp
  simp only [UInt16.toNat_toUInt8, UInt16.toNat_and]
  show (x.toNat &&& 2 ^ 8 - 1) % 2 ^ 8 = _
  rw [Nat.and_two_pow_sub_one_eq_mod, Nat.mod_mod]

theorem toUInt8_and32 (x : UInt32) : (x &&& 0xFF).toUInt8 = x.toUInt8 := by
  apply UInt8.toNat_inj.mp
  simp only [UInt32.toNat_toUInt8, UInt32.toNat_and]
  show (x.toNat &&& 2 ^ 8 - 1) % 2 ^ 8 = _
  rw [Nat.and_two_pow_sub_one_eq_mod, Nat.mod_mod]

theorem le16_bytes (a b : UInt8) :
    (le16 a b).toUInt8 = a ∧ (le16 a b >>> 8).toUInt8 = b := by
  have h := le16_toNat a b
  have ha := a.toNat_lt
  have hb := b.toNat_lt
  constructor <;> apply UInt8.toNat_inj.mp
  · rw [UInt16.toNat_toUInt8, h]
    omega
  · rw [toUInt8_shift16_toNat, h]
    omega

theorem le32_bytes (a b c d : UInt8) :
    (le32 a b c d).toUInt8 = a ∧ (le32 a b c d >>> 8).toUInt8 = b ∧
    (le32 a b c d >>> 16).toUInt8 = c ∧ (le32 a b c d >>> 24).toUInt8 = d := by
  have h := le32_toNat a b c d
  obtain ⟨h8, h16, h24⟩ := toUInt8_shift32_toNat (le32 a b c d)
  have ha := a.toNat_lt
  have hb := b.toNat_lt
  have hc := c.toNat_lt
  have hd := d.toNat_lt
  refine ⟨?_, ?_, ?_, ?_⟩ <;> apply UInt8.toNat_inj.mp
  · rw [UInt32.toNat_toUInt8, h]
    omega
  · rw [h8, h]
    omega
  · rw [h16, h]
    omega
  · rw [h24, h]
    omega

/-- **The hand-made byte swaps write network byte order.** -/
theorem frameBytes_eq (type : UInt16) (body : List UInt8) (h : body.length < 2 ^ 32) :
    frameBytes type body = Frame.encode wire ⟨type, body, h⟩ := by
  obtain ⟨t0, t1⟩ := le16_bytes (type >>> 8).toUInt8 type.toUInt8
  obtain ⟨l0, l1, l2, l3⟩ := le32_bytes (UInt32.ofNat body.length >>> 24).toUInt8
    (UInt32.ofNat body.length >>> 16).toUInt8 (UInt32.ofNat body.length >>> 8).toUInt8
    (UInt32.ofNat body.length).toUInt8
  simp only [frameBytes, hton16, hton32, toUInt8_and16, toUInt8_and32, t0, t1, l0, l1, l2, l3]
  rfl

/-! ## Every exit of a read or write -/

theorem liftExcept_keeps {σ α : Type} {R : σ → σ → Prop} (hrefl : ∀ s, R s s)
    (x : Except Exception α) : Exec.Keeps R (liftExcept x) := by
  intro s
  cases x <;> exact hrefl s

/-- The last lines of `DeviceChannel::read` are `decode`. -/
theorem decode_lift {σ : Type} (type : UInt16) (payload : List UInt8) (s : σ) :
    (do
      let name ← liftExcept (messageName pool type)
      let message ← liftExcept (createMessage P pool name)
      return (P.parseFromArray message payload).1 : EStateM Stop σ Msg) s =
    liftExcept (decode P pool type payload) s := by
  unfold decode
  cases hn : messageName pool type with
  | error e => rfl
  | ok name =>
    simp only [Exec.except_ok_bind]
    rw [Exec.bind_ok (show liftExcept (Except.ok name) s = .ok name s from rfl)]
    cases hc : createMessage P pool name with
    | error e => rfl
    | ok m => rfl

theorem DeviceChannel.align_proceeds (dev : Handle) (timeout : Bool) (fuel : Nat) :
    Exec.Keeps (IoState.Proceeds dev) (DeviceChannel.align E dev timeout fuel) := by
  induction fuel with
  | zero => exact Exec.Keeps.throw (IoState.Proceeds.refl dev) _
  | succ fuel ih =>
    apply Exec.Keeps.bind IoState.Proceeds.trans (HIDBuffer.read_proceeds E dev 1 timeout)
    intro header
    split
    · exact ih
    · exact Exec.Keeps.pure (IoState.Proceeds.refl dev) _

theorem DeviceChannel.readHeader_proceeds (dev : Handle) (timeout : Bool) :
    Exec.Keeps (IoState.Proceeds dev) (DeviceChannel.readHeader E dev timeout) := by
  apply Exec.Keeps.bind IoState.Proceeds.trans (x := get) (IoState.Proceeds.refl dev)
  intro s
  apply Exec.Keeps.bind IoState.Proceeds.trans (DeviceChannel.align_proceeds E dev timeout _)
  intro _
  apply Exec.Keeps.bind IoState.Proceeds.trans (HIDBuffer.read_proceeds E dev 1 timeout)
  intro header
  split
  · exact Exec.Keeps.throw (IoState.Proceeds.refl dev) _
  · apply Exec.Keeps.bind IoState.Proceeds.trans (HIDBuffer.read_proceeds E dev 6 timeout)
    intro header
    exact Exec.Keeps.pure (IoState.Proceeds.refl dev) _

theorem DeviceChannel.read_proceeds (dev : Handle) (timeout : Bool) :
    Exec.Keeps (IoState.Proceeds dev) (DeviceChannel.read E P pool dev timeout) := by
  apply Exec.Keeps.bind IoState.Proceeds.trans (DeviceChannel.readHeader_proceeds E dev timeout)
  rintro ⟨type, length⟩
  simp only []
  split
  · exact Exec.Keeps.throw (IoState.Proceeds.refl dev) _
  · apply Exec.Keeps.bind IoState.Proceeds.trans (HIDBuffer.read_proceeds E dev _ timeout)
    intro msgbuf s
    rw [decode_lift]
    exact liftExcept_keeps (IoState.Proceeds.refl dev) _ s

theorem DeviceChannel.write_proceeds (dev : Handle) (message : Msg) :
    Exec.Keeps (IoState.Proceeds dev) (DeviceChannel.write E P pool dev message) := by
  apply Exec.Keeps.bind IoState.Proceeds.trans
    (liftExcept_keeps (IoState.Proceeds.refl dev) _)
  intro type
  exact HIDBuffer.writePieces_proceeds E dev _

/-! ## What a read does to the unread bytes -/

variable {E} (F : Feed E)

/-- A read that stops for want of bytes: what arrived by then (`rcv`) is too little for the parser,
and what of it is not handed out stays in the buffer. -/
structure Halted (dev : Handle) (timeout : Bool) (s : IoState τ δ) (e : Stop)
    (s' : IoState τ δ) : Prop where
  received : e ≠ .undefined → ∃ rcv, F.unread s = rcv ++ F.coming s' ∧
    parse wire rcv = none ∧ s'.buf.bytes = kept wire rcv
  overflow : e = .undefined → ∃ pad h S, F.unread s = pad ++ 35 :: 35 :: (h ++ S) ∧
    35 ∉ pad ∧ h.length = 6 ∧ (fields h).2 ≤ bufferSize ∧ F.Overflows dev (fields h).2 S s.ticks
  ticks : e = .pending → s'.ticks = []
  /-- The buffer read that gives up began in `s0`, at the stage where it ends. -/
  why : e = .pending ∨ e = .undefined ∨ ∃ s0 rcv0 polls t, s.Polled E dev s0 ∧
    F.unread s = rcv0 ++ F.coming s0 ∧ s0.ticks = polls ++ t :: s'.ticks ∧
    GivesUp E dev timeout s.buf.readTimeout (E.time s0.world.dev)
      (E.after dev s0.world.dev polls) t e ∧
    ∀ rcv, F.unread s = rcv ++ F.coming s' → stage wire rcv0 = stage wire rcv

/-- A buffer read that stops after the bytes `gone` of this frame were handed out halts the read,
when fewer than the `length` bytes asked for leave the parser short, at one stage `k`. -/
theorem HIDBuffer.Stopped.halted {dev : Handle} {length : Nat} {timeout : Bool}
    {s s0 s' : IoState τ δ} {e : Stop} (k : Nat) (gone : List UInt8)
    (hs : HIDBuffer.Stopped F dev length timeout (E.time s0.world.dev) s0 e s')
    (hp : s.Polled E dev s0) (hu : F.unread s = gone ++ F.unread s0)
    (hpart : ∀ part : List UInt8, part.length < length → parse wire (gone ++ part) = none ∧
      stage wire (gone ++ part) = k ∧ kept wire (gone ++ part) = part)
    (hover : e = .undefined → ∃ pad h S, F.unread s = pad ++ 35 :: 35 :: (h ++ S) ∧ 35 ∉ pad ∧
      h.length = 6 ∧ (fields h).2 ≤ bufferSize ∧ F.Overflows dev (fields h).2 S s.ticks) :
    Halted F dev timeout s e s' := by
  have hrcv : e ≠ .undefined → F.unread s = (gone ++ s'.buf.bytes) ++ F.coming s' := fun he => by
    rw [hu, ← hs.unread he, List.append_assoc]
    rfl
  refine ⟨?_, hover, hs.ticks, ?_⟩
  · intro he
    obtain ⟨h1, -, h3⟩ := hpart _ (hs.short he)
    exact ⟨_, hrcv he, h1, h3.symm⟩
  · rcases hs.why with hw | hw | ⟨polls, t, h1, h2⟩
    · exact .inl hw
    · exact .inr (.inl hw)
    · have hne : e ≠ .undefined := by
        rintro rfl
        cases h2
      rw [hp.1] at h2
      refine .inr (.inr ⟨s0, gone ++ s0.buf.bytes, polls, t, hp, ?_, h1, h2, ?_⟩)
      · rw [hu, List.append_assoc]
        rfl
      · intro rcv hr
        rw [hrcv hne] at hr
        rw [← List.append_cancel_right hr, (hpart _ hs.began).2.1, (hpart _ (hs.short hne)).2.1]

/-- Alignment skips to the byte after the first `'#'`, or runs out of bytes before it. -/
theorem align_cases (dev : Handle) (timeout : Bool) (fuel : Nat) (s : IoState τ δ)
    (hfuel : s.size < fuel) :
    (∃ pad s', DeviceChannel.align E dev timeout fuel s = .ok () s' ∧
      F.unread s = pad ++ 35 :: F.unread s' ∧ 35 ∉ pad ∧ s.Polled E dev s') ∨
    (∃ e s0 s' pad, DeviceChannel.align E dev timeout fuel s = .error e s' ∧
      F.unread s = pad ++ F.unread s0 ∧ 35 ∉ pad ∧ s.Polled E dev s0 ∧
      HIDBuffer.Stopped F dev 1 timeout (E.time s0.world.dev) s0 e s') := by
  induction fuel generalizing s with
  | zero => omega
  | succ fuel ih =>
    unfold DeviceChannel.align
    rcases Exec.bind_cases (HIDBuffer.read E dev 1 timeout) _ s with
      ⟨bytes, s1, hr, heq⟩ | ⟨e, s1, hr, heq⟩
    · obtain ⟨hu, hlen, hts, hsz⟩ := HIDBuffer.read_ok F hr
      obtain ⟨b, rfl⟩ := List.length_eq_one_iff.mp hlen
      rw [heq]
      simp only [List.getD_cons_zero]
      by_cases hb : b = 35
      · rw [if_neg (by simpa using hb)]
        exact .inl ⟨[], s1, rfl, by rw [hu, hb]; rfl, by simp, hts⟩
      · rw [if_pos hb]
        have hcons : ∀ pad : List UInt8, 35 ∉ pad → 35 ∉ b :: pad := by
          intro pad hpad hm
          rcases List.mem_cons.mp hm with h | h
          · exact hb h.symm
          · exact hpad h
        rcases ih s1 (by omega) with ⟨pad, s2, h1, h2, h3, h4⟩ | ⟨e, s0, s2, pad, h1, h2, h3, h4, h5⟩
        · exact .inl ⟨b :: pad, s2, h1, by rw [hu, h2]; rfl, hcons pad h3, hts.trans h4⟩
        · exact .inr ⟨e, s0, s2, b :: pad, h1, by rw [hu, h2]; rfl, hcons pad h3, hts.trans h4, h5⟩
    · exact .inr ⟨e, s, s1, [], heq, rfl, by simp, .refl E dev s, HIDBuffer.read_stop F hr⟩

/-- What a header read leads to. -/
theorem readHeader_cases (dev : Handle) (timeout : Bool) (s : IoState τ δ) :
    (∃ pad h s', DeviceChannel.readHeader E dev timeout s =
        .ok (hton16 (le16 (h.getD 0 0) (h.getD 1 0)), hton32
          (le32 (h.getD 2 0) (h.getD 3 0) (h.getD 4 0) (h.getD 5 0))) s' ∧
      F.unread s = pad ++ 35 :: 35 :: (h ++ F.unread s') ∧ 35 ∉ pad ∧ h.length = 6 ∧
      s.Polled E dev s') ∨
    (∃ s', DeviceChannel.readHeader E dev timeout s =
        .error (.throws (.readError "Failed to read header")) s' ∧
      parse wire (F.unread s) = some (.badMagic, F.unread s') ∧ s.Polled E dev s') ∨
    (∃ e s', DeviceChannel.readHeader E dev timeout s = .error e s' ∧ e ≠ .undefined ∧
      Halted F dev timeout s e s') := by
  rw [DeviceChannel.readHeader_eq]
  -- a read of at most six bytes never overflows
  have hshort : ∀ {length s0 e s'}, length ≤ 6 →
      HIDBuffer.Stopped F dev length timeout (E.time s0.world.dev) s0 e s' → e ≠ .undefined := by
    intro length s0 e s' hlen hs he
    have := (hs.overflow he).long
    omega
  rcases align_cases F dev timeout (s.size + 1) s (Nat.lt_succ_self _) with
    ⟨pad, s1, ha, hu1, hpad, ht1⟩ | ⟨e, s0, s1, pad, ha, hu0, hpad, ht0, hs⟩
  · have hall : DeviceChannel.alignAll E dev timeout s = .ok () s1 := ha
    rw [Exec.bind_ok hall]
    rcases Exec.bind_cases (HIDBuffer.read E dev 1 timeout) _ s1 with
      ⟨bytes, s2, hr, heq⟩ | ⟨e, s2, hr, heq⟩
    · obtain ⟨hu2, hlen2, ht2, -⟩ := HIDBuffer.read_ok F hr
      obtain ⟨b, rfl⟩ := List.length_eq_one_iff.mp hlen2
      rw [heq]
      simp only [List.getD_cons_zero]
      by_cases hb : b = 35
      · rw [if_neg (by simpa using hb)]
        have hu : F.unread s = pad ++ 35 :: 35 :: F.unread s2 := by
          rw [hu1, hu2, hb]
          rfl
        rcases Exec.bind_cases (HIDBuffer.read E dev 6 timeout) _ s2 with
          ⟨h, s3, hr3, heq3⟩ | ⟨e, s3, hr3, heq3⟩
        · obtain ⟨hu3, hlen3, ht3, -⟩ := HIDBuffer.read_ok F hr3
          rw [heq3]
          exact .inl ⟨pad, h, s3, rfl, by rw [hu, hu3], hpad, hlen3, (ht1.trans ht2).trans ht3⟩
        · have hs := HIDBuffer.read_stop F hr3
          have hne := hshort (Nat.le_refl 6) hs
          refine .inr (.inr ⟨e, s3, heq3, hne, hs.halted F 2 (pad ++ [35, 35])
            (ht1.trans ht2) (by rw [hu]; simp) ?_ (fun he => absurd he hne)⟩)
          intro part hpart
          have hm := parse_pad_magic wire hpad part
          have hst := stage_magic wire hpad 35 part
          have hk := kept_magic wire hpad 35 part
          rw [body_short wire hpart] at hm
          rw [if_pos hpart] at hst hk
          rw [List.append_assoc]
          exact ⟨hm, hst, hk⟩
      · rw [if_pos hb]
        refine .inr (.inl ⟨s2, rfl, ?_, ht1.trans ht2⟩)
        rw [hu1, hu2]
        exact parse_pad_bad wire hpad hb (F.unread s2)
    · have hs := HIDBuffer.read_stop F hr
      have hne := hshort (by omega) hs
      refine .inr (.inr ⟨e, s2, heq, hne, hs.halted F 1 (pad ++ [35]) ht1
        (by rw [hu1]; simp) ?_ (fun he => absurd he hne)⟩)
      intro part hpart
      have hnil : part = [] := List.length_eq_zero_iff.mp (by omega)
      subst hnil
      rw [List.append_nil]
      exact ⟨parse_pad_one wire hpad, stage_one wire hpad, kept_one wire hpad⟩
  · have hne := hshort (by omega) hs
    have hall : DeviceChannel.alignAll E dev timeout s = .error e s1 := ha
    rw [Exec.bind_error hall]
    refine .inr (.inr ⟨e, s1, rfl, hne, hs.halted F 0 pad ht0 hu0 ?_
      (fun he => absurd he hne)⟩)
    intro part hpart
    have hnil : part = [] := List.length_eq_zero_iff.mp (by omega)
    subst hnil
    rw [List.append_nil]
    exact ⟨parse_pad_none wire hpad, stage_pad wire hpad, kept_pad wire hpad⟩

/-- What `DeviceChannel::read` makes of the reference parser's outcome. -/
def outcome : Parsed → Except Exception Msg
  | .badMagic => .error (.readError "Failed to read header")
  | .tooLong _ _ => .error (.readError "Invalid data")
  | .frame type payload => decode P pool type payload

/-- The header fields as `read_header` computes them are the big-endian ones. -/
theorem fields_header {h : List UInt8} (h6 : h.length = 6) :
    fields h = (hton16 (le16 (h.getD 0 0) (h.getD 1 0)),
      (hton32 (le32 (h.getD 2 0) (h.getD 3 0) (h.getD 4 0) (h.getD 5 0))).toNat) := by
  obtain ⟨a, b, c, d, e, f, rfl⟩ : ∃ a b c d e f, h = [a, b, c, d, e, f] := by
    match h, h6 with
    | [a, b, c, d, e, f], _ => exact ⟨a, b, c, d, e, f, rfl⟩
  have ht : fields [a, b, c, d, e, f] = (UInt16.ofNat (beNat [a, b]), beNat [c, d, e, f]) := rfl
  rw [ht, beNat_pair, beNat_quad, UInt16.ofNat_toNat]
  simp only [List.getD_cons_zero, List.getD_cons_succ, hton16_le16, hton32_le32]

/-- **A read follows the reference parser**, or stops for want of bytes. -/
theorem read_cases (dev : Handle) (timeout : Bool) (s : IoState τ δ) :
    (∃ p s', parse wire (F.unread s) = some (p, F.unread s') ∧ s.Polled E dev s' ∧
      DeviceChannel.read E P pool dev timeout s = liftExcept (outcome P pool p) s') ∨
    (∃ e s', DeviceChannel.read E P pool dev timeout s = .error e s' ∧
      Halted F dev timeout s e s') := by
  unfold DeviceChannel.read
  rcases readHeader_cases F dev timeout s with
    ⟨pad, h, s1, hh, hu1, hpad, h6, ht1⟩ | ⟨s1, hh, hp, ht1⟩ | ⟨e, s1, hh, hne, hstop⟩
  · rw [Exec.bind_ok hh]
    have hf := fields_header h6
    generalize hton16 (le16 (h.getD 0 0) (h.getD 1 0)) = type at hf ⊢
    generalize hton32 (le32 (h.getD 2 0) (h.getD 3 0) (h.getD 4 0) (h.getD 5 0)) = length at hf ⊢
    have hbody : parse wire (F.unread s) = body wire (h ++ F.unread s1) := by
      rw [hu1]
      exact parse_pad_magic wire hpad _
    rw [body_fields wire h6, hf] at hbody
    simp only [] at hbody ⊢
    by_cases hbig : length.toNat > bufferSize
    · rw [if_pos hbig]
      rw [if_pos (show wire.maxLength < length.toNat from hbig)] at hbody
      exact .inl ⟨_, s1, hbody, ht1, rfl⟩
    · rw [if_neg hbig]
      rw [if_neg (show ¬ wire.maxLength < length.toNat from hbig)] at hbody
      rcases Exec.bind_cases (HIDBuffer.read E dev length.toNat timeout) _ s1 with
        ⟨payload, s2, hr, heq⟩ | ⟨e, s2, hr, heq⟩
      · obtain ⟨hu2, hlen2, ht2, -⟩ := HIDBuffer.read_ok F hr
        rw [hu2, if_neg (by simp [hlen2]), ← hlen2, List.take_left, List.drop_left] at hbody
        rw [heq, decode_lift]
        exact .inl ⟨_, s2, hbody, ht1.trans ht2, rfl⟩
      · have hs := HIDBuffer.read_stop F hr
        refine .inr ⟨e, s2, heq, hs.halted F 3 (pad ++ 35 :: 35 :: h) ht1
          (by rw [hu1]; simp) ?_ ?_⟩
        · intro part hpart
          have hm := parse_pad_magic wire hpad (h ++ part)
          have hst := stage_magic wire hpad 35 (h ++ part)
          rw [body_fields wire h6, hf] at hm
          simp only [] at hm
          rw [if_neg (show ¬ wire.maxLength < length.toNat from hbig), if_pos hpart] at hm
          have hk := kept_magic wire hpad 35 (h ++ part)
          rw [if_neg (by simp [h6])] at hst hk
          rw [← h6, List.drop_left] at hk
          rw [List.append_assoc]
          exact ⟨hm, hst, hk⟩
        · intro he
          refine ⟨pad, h, F.unread s1, hu1, hpad, h6, ?_, ?_⟩
          · rw [hf]
            omega
          · rw [hf]
            exact (hs.overflow he).mono F ht1.suffix
  · rw [Exec.bind_error hh]
    exact .inl ⟨.badMagic, s1, hp, ht1, rfl⟩
  · rw [Exec.bind_error hh]
    exact .inr ⟨e, s1, rfl, hstop⟩

/-- A read that ends in anything but what its frame makes it throw has stopped for want of bytes. -/
theorem halted_of_error {dev : Handle} {timeout : Bool} {s s' : IoState τ δ} {e : Stop}
    (h : DeviceChannel.read E P pool dev timeout s = .error e s')
    (he : ∀ p ex, outcome P pool p = .error ex → e ≠ .throws ex) : Halted F dev timeout s e s' := by
  rcases read_cases P pool F dev timeout s with ⟨p, s1, -, -, hr⟩ | ⟨e1, s1, hr, hstop⟩
  · rw [hr] at h
    cases ho : outcome P pool p with
    | ok m =>
      rw [ho] at h
      cases h
    | error ex =>
      rw [ho] at h
      cases h
      exact absurd rfl (he p ex ho)
  · rw [hr] at h
    cases h
    exact hstop

end TrezorPlugin
