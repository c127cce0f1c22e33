import TrezorPlugin.Hidapi

/-!
# HIDBuffer (devices.h, devices.cpp)

`HIDBuffer.read` buffers reports until it has enough bytes, then hands out the
first of them and keeps the rest; `HIDBuffer.write` sends 64-byte chunks.

A `Feed` says which bytes a device will still deliver.  `unread` is what the
buffer holds and then what the feed still has:

* `read_ok`: a read that returns takes exactly its bytes off the front of `unread`;
* `read_stop`: a read that throws takes nothing, and had too few bytes; a store outside
  `_buffer` needs a report that overshoots it (`Feed.Overflows`), so a length above 1986.
-/

namespace TrezorPlugin

/-! ## The buffer -/

/-- `HIDBuffer::BUFFER_SIZE`. -/
def bufferSize : Nat := 2048

/-- The first `_buffer_length` bytes of `_buffer`. -/
structure HIDBuffer where
  bytes : List UInt8
  readTimeout : Int
  fits : bytes.length ≤ bufferSize

/-- `HIDBuffer(time_t read_timeout = 15)`. -/
def HIDBuffer.new : HIDBuffer := ⟨[], 15, Nat.zero_le _⟩

theorem length_append_le {bs : List UInt8} (h : bs.length < bufferSize) (b : UInt8) :
    (bs ++ [b]).length ≤ bufferSize := by
  rw [List.length_append]
  exact h

/-- `_buffer[_buffer_length] = b, _buffer_length++`; `none` outside `_buffer`. -/
def HIDBuffer.store (buf : HIDBuffer) (b : UInt8) : Option HIDBuffer :=
  if h : buf.bytes.length < bufferSize then
    some ⟨buf.bytes ++ [b], buf.readTimeout, length_append_le h b⟩
  else none

/-- The loop `for (size_t i = 1; i < chlen; i++, _buffer_length++)`. -/
def HIDBuffer.storeAll (buf : HIDBuffer) (bs : List UInt8) : Option HIDBuffer :=
  bs.foldlM HIDBuffer.store buf

/-- What is left after the first `length` bytes are handed out and the rest is shifted down. -/
def HIDBuffer.shift (buf : HIDBuffer) (length : Nat) : HIDBuffer :=
  ⟨buf.bytes.drop length, buf.readTimeout, by have := buf.fits; simp; omega⟩

/-- The state a read works on: the buffer, the world, the polls to come. -/
structure IoState (τ δ : Type) where
  buf : HIDBuffer
  world : World δ
  ticks : List τ

abbrev IoM (τ δ α : Type) := EStateM Stop (IoState τ δ) α

variable {τ δ : Type} (E : Env τ δ)

/-- The loop `while (_buffer_length < length)`, over the polls to come. -/
def HIDBuffer.fill (dev : Handle) (length : Nat) (timeout : Bool) (startTime : Int) :
    List τ → HIDBuffer → World δ → EStateM.Result Stop (IoState τ δ) Unit
  | [], buf, w =>
    if length ≤ buf.bytes.length then .ok () ⟨buf, w, []⟩ else .error .pending ⟨buf, w, []⟩
  | t :: ts, buf, w =>
    if length ≤ buf.bytes.length then .ok () ⟨buf, w, t :: ts⟩
    else
      let (r, dev') := E.hidReadTimeout w.dev dev t
      let w := w.locked [.readTimeout dev r.res] dev'
      match r with
      | .report rep =>
        match buf.storeAll rep.payload with
        | some buf => fill dev length timeout startTime ts buf w
        | none => .error .undefined ⟨buf, w, ts⟩
      | .empty =>
        if timeout then
          if E.time w.dev - startTime > buf.readTimeout then
            .error (.throws .readTimeout) ⟨buf, w, ts⟩
          else if E.interruptionRequested w.dev then
            .error .threadInterrupted ⟨buf, w, ts⟩
          else fill dev length timeout startTime ts buf w
        else fill dev length timeout startTime ts buf w
      | .error =>
        let text := E.errorText w.dev dev
        let w := w.locked [.error dev] w.dev
        match text with
        | .ok text => .error (.throws (.readError text)) ⟨buf, w, ts⟩
        | .error e => .error (.throws e) ⟨buf, w, ts⟩

def HIDBuffer.read (dev : Handle) (length : Nat) (timeout : Bool) : IoM τ δ (List UInt8) :=
  fun s =>
    let startTime := E.time s.world.dev
    match HIDBuffer.fill E dev length timeout startTime s.ticks s.buf s.world with
    | .ok () s => .ok (s.buf.bytes.take length) { s with buf := s.buf.shift length }
    | .error e s => .error e s

/-- `int` to `size_t`, as in the comparison `res < sizeof(chunk)`. -/
def sizeT (i : Int) : Nat := (i % 2 ^ 64).toNat

/-- The 64 bytes sent for a piece: the length byte 63, the piece, zeros. -/
def writeChunk (piece : List UInt8) : List UInt8 :=
  63 :: (piece ++ List.replicate (63 - piece.length) 0)

/-- The loop `for (size_t i = 0; i < length; i += 63)` over its pieces. -/
def HIDBuffer.writePieces (dev : Handle) : List (List UInt8) → IoM τ δ Unit
  | [], s => .ok () s
  | piece :: pieces, s =>
    let (res, dev') := E.hidWrite s.world.dev dev (writeChunk piece)
    let w := s.world.locked [.write dev (writeChunk piece) res] dev'
    if sizeT res < 64 then
      let text := E.errorText w.dev dev
      let w := w.locked [.error dev] w.dev
      match text with
      | .ok text => .error (.throws (.writeError text)) { s with world := w }
      | .error e => .error (.throws e) { s with world := w }
    else writePieces dev pieces { s with world := w }

def HIDBuffer.write (dev : Handle) (bytes : List UInt8) : IoM τ δ Unit :=
  HIDBuffer.writePieces E dev (Bytes.chunks 63 bytes)

/-! ## Storing a report -/

@[simp] theorem HIDBuffer.shift_bytes (buf : HIDBuffer) (n : Nat) :
    (buf.shift n).bytes = buf.bytes.drop n := rfl

theorem HIDBuffer.storeAll_some {buf buf' : HIDBuffer} {bs : List UInt8}
    (h : buf.storeAll bs = some buf') :
    buf'.bytes = buf.bytes ++ bs ∧ buf'.readTimeout = buf.readTimeout := by
  induction bs generalizing buf with
  | nil =>
    cases h
    simp
  | cons b bs ih =>
    simp only [HIDBuffer.storeAll, List.foldlM_cons, HIDBuffer.store] at h ih
    split at h
    · obtain ⟨h1, h2⟩ := ih h
      simp only at h1 h2
      exact ⟨by rw [h1]; simp, h2⟩
    · cases h

theorem HIDBuffer.storeAll_none {buf : HIDBuffer} {bs : List UInt8} :
    buf.storeAll bs = none ↔ bufferSize < buf.bytes.length + bs.length := by
  induction bs generalizing buf with
  | nil =>
    have := buf.fits
    simp only [HIDBuffer.storeAll, List.foldlM_nil, List.length_nil]
    constructor
    · intro h; cases h
    · omega
  | cons b bs ih =>
    simp only [HIDBuffer.storeAll, List.foldlM_cons, HIDBuffer.store] at ih ⊢
    split
    · simp only [Option.bind_eq_bind, Option.bind_some]
      rw [ih]
      simp only [List.length_append, List.length_cons, List.length_nil]
      omega
    · simp only [List.length_cons]
      constructor
      · omega
      · intro _; rfl

/-! ## One round of the buffering loop -/

/-- The poll `t`, with the devices at `d`, makes a read give up that began at `start` and waits
`limit` seconds. -/
inductive GivesUp (dev : Handle) (timeout : Bool) (limit start : Int) (d : δ) (t : τ) : Stop → Prop
  | timedOut : timeout = true → (E.hidReadTimeout d dev t).1 = .empty →
      limit < E.time (E.hidReadTimeout d dev t).2 - start →
      GivesUp dev timeout limit start d t (.throws .readTimeout)
  | interrupted : timeout = true → (E.hidReadTimeout d dev t).1 = .empty →
      E.interruptionRequested (E.hidReadTimeout d dev t).2 = true →
      GivesUp dev timeout limit start d t .threadInterrupted
  | device (e : Exception) : (E.hidReadTimeout d dev t).1 = .error →
      GivesUp dev timeout limit start d t (.throws e)

theorem GivesUp.not_report {dev : Handle} {timeout : Bool} {limit start : Int} {d : δ} {t : τ}
    {e : Stop} (h : GivesUp E dev timeout limit start d t e) (r : Report) :
    (E.hidReadTimeout d dev t).1 ≠ .report r := by
  cases h with
  | timedOut _ hr _ => rw [hr]; simp
  | interrupted _ hr _ => rw [hr]; simp
  | device _ hr => rw [hr]; simp

theorem GivesUp.payload {dev : Handle} {timeout : Bool} {limit start : Int} {d : δ} {t : τ}
    {e : Stop} (h : GivesUp E dev timeout limit start d t e) :
    (E.hidReadTimeout d dev t).1.payload = [] := by
  have hn := h.not_report
  cases hr : (E.hidReadTimeout d dev t).1 with
  | report r => exact absurd hr (hn r)
  | empty => rfl
  | error => rfl

/-- What one round of the loop can do. -/
theorem HIDBuffer.fill_round (dev : Handle) (length : Nat) (timeout : Bool) (start : Int) (t : τ)
    (ts : List τ) (buf : HIDBuffer) (w : World δ) (hlen : buf.bytes.length < length) :
    (∃ buf' w', HIDBuffer.fill E dev length timeout start (t :: ts) buf w =
        HIDBuffer.fill E dev length timeout start ts buf' w' ∧
        w'.dev = (E.hidReadTimeout w.dev dev t).2 ∧ w.Uses dev w' ∧
        buf'.bytes = buf.bytes ++ (E.hidReadTimeout w.dev dev t).1.payload ∧
        buf'.readTimeout = buf.readTimeout) ∨
    (∃ e w', HIDBuffer.fill E dev length timeout start (t :: ts) buf w = .error e ⟨buf, w', ts⟩ ∧
        w'.dev = (E.hidReadTimeout w.dev dev t).2 ∧ w.Uses dev w' ∧
        ((e = .undefined ∧ bufferSize <
            buf.bytes.length + (E.hidReadTimeout w.dev dev t).1.payload.length) ∨
          GivesUp E dev timeout buf.readTimeout start w.dev t e)) := by
  have hpoll : ∀ r : ReadResult, w.Uses dev
      (w.locked [.readTimeout dev r.res] (E.hidReadTimeout w.dev dev t).2) := fun r =>
    w.uses_locked dev _ (by simp [HidCall.On])
  rw [HIDBuffer.fill, if_neg (by omega)]
  cases hr : (E.hidReadTimeout w.dev dev t).1 with
  | report rep =>
    cases hs : buf.storeAll rep.payload with
    | some buf' =>
      obtain ⟨hb, ht⟩ := HIDBuffer.storeAll_some hs
      refine .inl ⟨buf', _, ?_, ?_, hpoll (.report rep), by rw [hb]; rfl, ht⟩
      · simp only [hr, hs]
      · rfl
    | none =>
      refine .inr ⟨.undefined, _, ?_, ?_, hpoll (.report rep), .inl ⟨rfl, ?_⟩⟩
      · simp only [hr, hs]
      · rfl
      · exact HIDBuffer.storeAll_none.mp hs
  | empty =>
    cases timeout with
    | false =>
      refine .inl ⟨buf, _, ?_, ?_, hpoll .empty, by simp [ReadResult.payload], rfl⟩
      · simp only [hr, Bool.false_eq_true, if_false]
      · rfl
    | true =>
      simp only [hr, if_true, World.locked_dev]
      split
      · next hlate => exact .inr ⟨_, _, rfl, rfl, hpoll .empty, .inr (.timedOut rfl hr hlate)⟩
      · split
        · next hi => exact .inr ⟨_, _, rfl, rfl, hpoll .empty, .inr (.interrupted rfl hr hi)⟩
        · exact .inl ⟨buf, _, rfl, rfl, hpoll .empty, by simp [ReadResult.payload], rfl⟩
  | error =>
    have huses : w.Uses dev
        ((w.locked [.readTimeout dev (-1)] (E.hidReadTimeout w.dev dev t).2).locked
          [.error dev] (E.hidReadTimeout w.dev dev t).2) :=
      (hpoll .error).trans (World.uses_locked dev _ _ (by simp [HidCall.On]))
    simp only [hr]
    split
    · exact .inr ⟨_, _, rfl, rfl, huses, .inr (.device _ hr)⟩
    · exact .inr ⟨_, _, rfl, rfl, huses, .inr (.device _ hr)⟩

/-! ## Every exit of a read or write -/

/-- What every exit of a read or write on the handle `dev` keeps: polls are used up from the front,
and hidapi is only called on `dev` and inside critical sections. -/
def IoState.Proceeds (dev : Handle) (s s' : IoState τ δ) : Prop :=
  s'.ticks <:+ s.ticks ∧ s.world.Uses dev s'.world

theorem IoState.Proceeds.refl (dev : Handle) (s : IoState τ δ) : s.Proceeds dev s :=
  ⟨List.suffix_refl _, World.Uses.refl dev _⟩

theorem IoState.Proceeds.trans {dev : Handle} (s s' s'' : IoState τ δ) (h : s.Proceeds dev s')
    (h' : s'.Proceeds dev s'') : s.Proceeds dev s'' :=
  ⟨h'.1.trans h.1, h.2.trans h'.2⟩

theorem HIDBuffer.fill_proceeds (dev : Handle) (length : Nat) (timeout : Bool) (start : Int)
    (ts : List τ) (buf : HIDBuffer) (w : World δ) :
    IoState.Proceeds dev ⟨buf, w, ts⟩
      (Exec.final (HIDBuffer.fill E dev length timeout start ts buf w)) := by
  induction ts generalizing buf w with
  | nil =>
    rw [HIDBuffer.fill]
    split <;> exact IoState.Proceeds.refl dev _
  | cons t ts ih =>
    rcases Nat.lt_or_ge buf.bytes.length length with hlen | hlen
    · rcases HIDBuffer.fill_round E dev length timeout start t ts buf w hlen with
        ⟨buf', w', heq, -, hu, -, -⟩ | ⟨e, w', heq, -, hu, -⟩
      · rw [heq]
        obtain ⟨h1, h2⟩ := ih buf' w'
        exact ⟨h1.trans (List.suffix_cons t ts), hu.trans h2⟩
      · rw [heq]
        exact ⟨List.suffix_cons t ts, hu⟩
    · rw [HIDBuffer.fill, if_pos hlen]
      exact IoState.Proceeds.refl dev _

theorem HIDBuffer.read_proceeds (dev : Handle) (length : Nat) (timeout : Bool) :
    Exec.Keeps (IoState.Proceeds dev) (HIDBuffer.read E dev length timeout) := by
  intro s
  have h := HIDBuffer.fill_proceeds E dev length timeout (E.time s.world.dev) s.ticks s.buf s.world
  unfold HIDBuffer.read
  simp only []
  split
  · next s' heq =>
    rw [heq] at h
    exact h
  · next e s' heq =>
    rw [heq] at h
    exact h

theorem HIDBuffer.writePieces_proceeds (dev : Handle) (pieces : List (List UInt8)) :
    Exec.Keeps (IoState.Proceeds dev) (HIDBuffer.writePieces E dev pieces) := by
  induction pieces with
  | nil => exact IoState.Proceeds.refl dev
  | cons piece pieces ih =>
    intro s
    have hwrite : s.world.Uses dev (s.world.locked [.write dev (writeChunk piece)
        (E.hidWrite s.world.dev dev (writeChunk piece)).1]
        (E.hidWrite s.world.dev dev (writeChunk piece)).2) :=
      s.world.uses_locked dev _ (by simp [HidCall.On])
    rw [HIDBuffer.writePieces]
    simp only []
    split
    · have herror : ∀ w : World δ, w.Uses dev (w.locked [.error dev] w.dev) := fun w =>
        w.uses_locked dev _ (by simp [HidCall.On])
      split
      · exact ⟨List.suffix_refl _, hwrite.trans (herror _)⟩
      · exact ⟨List.suffix_refl _, hwrite.trans (herror _)⟩
    · obtain ⟨h1, h2⟩ := ih ⟨s.buf, s.world.locked [.write dev (writeChunk piece)
        (E.hidWrite s.world.dev dev (writeChunk piece)).1]
        (E.hidWrite s.world.dev dev (writeChunk piece)).2, s.ticks⟩
      exact ⟨h1, hwrite.trans h2⟩

/-! ## Reads and the bytes to come -/

/-- `s'` comes after `s` by the polls that are used up in between. -/
def IoState.Polled (dev : Handle) (s s' : IoState τ δ) : Prop :=
  s'.buf.readTimeout = s.buf.readTimeout ∧
  ∃ polls, s.ticks = polls ++ s'.ticks ∧ s'.world.dev = E.after dev s.world.dev polls

theorem IoState.Polled.refl (dev : Handle) (s : IoState τ δ) : s.Polled E dev s :=
  ⟨rfl, [], rfl, rfl⟩

variable {E} in
theorem IoState.Polled.trans {dev : Handle} {s s' s'' : IoState τ δ} (h : s.Polled E dev s')
    (h' : s'.Polled E dev s'') : s.Polled E dev s'' := by
  obtain ⟨h1, polls, h2, h3⟩ := h
  obtain ⟨h4, polls', h5, h6⟩ := h'
  refine ⟨h4.trans h1, polls ++ polls', ?_, ?_⟩
  · rw [h2, h5, List.append_assoc]
  · rw [h6, h3, Env.after, Env.after, Env.after, List.foldl_append]

variable {E} in
theorem IoState.Polled.suffix {dev : Handle} {s s' : IoState τ δ} (h : s.Polled E dev s') :
    s'.ticks <:+ s.ticks := by
  obtain ⟨-, polls, h2, -⟩ := h
  exact ⟨polls, h2.symm⟩

/-- The bytes a device will still deliver: each poll hands over the first of them. -/
structure Feed where
  stream : δ → List τ → List UInt8
  poll : ∀ d h t ts, stream d (t :: ts) =
    (E.hidReadTimeout d h t).1.payload ++ stream (E.hidReadTimeout d h t).2 ts

variable {E} (F : Feed E)

/-- The bytes of the reports to come. -/
def Feed.coming (s : IoState τ δ) : List UInt8 := F.stream s.world.dev s.ticks

/-- The bytes received and not yet handed out, then those to come. -/
def Feed.unread (s : IoState τ δ) : List UInt8 := s.buf.bytes ++ F.coming s

theorem Feed.unread_eq (s : IoState τ δ) :
    F.unread s = s.buf.bytes ++ F.stream s.world.dev s.ticks := rfl

/-- Polls and buffered bytes, so that every byte handed out uses some of it up. -/
def IoState.size (s : IoState τ δ) : Nat := 64 * s.ticks.length + s.buf.bytes.length

variable (E) in
/-- A run of the loop that returns has enough bytes, and has used up polls for those it got. -/
theorem HIDBuffer.fill_polled (dev : Handle) (length : Nat) (timeout : Bool) (start : Int)
    (ts : List τ) (buf : HIDBuffer) (w : World δ) (s' : IoState τ δ)
    (h : HIDBuffer.fill E dev length timeout start ts buf w = .ok () s') :
    length ≤ s'.buf.bytes.length ∧ IoState.Polled E dev ⟨buf, w, ts⟩ s' ∧
    s'.size ≤ 64 * ts.length + buf.bytes.length := by
  induction ts generalizing buf w with
  | nil =>
    rw [HIDBuffer.fill] at h
    split at h
    · next hlen =>
      cases h
      exact ⟨hlen, .refl E dev _, Nat.le_refl _⟩
    · cases h
  | cons t ts ih =>
    rcases Nat.lt_or_ge buf.bytes.length length with hlen | hlen
    · rcases HIDBuffer.fill_round E dev length timeout start t ts buf w hlen with
        ⟨buf', w', heq, hd, -, hb, ht⟩ | ⟨e, w', heq, -⟩
      · rw [heq] at h
        obtain ⟨h1, h2, h3⟩ := ih buf' w' h
        have hp := (E.hidReadTimeout w.dev dev t).1.length_payload_le
        refine ⟨h1, .trans ⟨ht, [t], rfl, hd⟩ h2, ?_⟩
        rw [hb, List.length_append] at h3
        simp only [List.length_cons]
        omega
      · rw [heq] at h
        cases h
    · rw [HIDBuffer.fill, if_pos hlen] at h
      cases h
      exact ⟨hlen, .refl E dev _, Nat.le_refl _⟩

theorem HIDBuffer.fill_ok (dev : Handle) (length : Nat) (timeout : Bool) (start : Int)
    (ts : List τ) (buf : HIDBuffer) (w : World δ) (s' : IoState τ δ)
    (h : HIDBuffer.fill E dev length timeout start ts buf w = .ok () s') :
    F.unread s' = buf.bytes ++ F.stream w.dev ts := by
  induction ts generalizing buf w with
  | nil =>
    rw [HIDBuffer.fill] at h
    split at h
    · cases h
      rfl
    · cases h
  | cons t ts ih =>
    rcases Nat.lt_or_ge buf.bytes.length length with hlen | hlen
    · rcases HIDBuffer.fill_round E dev length timeout start t ts buf w hlen with
        ⟨buf', w', heq, hd, -, hb, -⟩ | ⟨e, w', heq, -⟩
      · rw [heq] at h
        rw [ih buf' w' h, hb, hd, F.poll w.dev dev t ts, List.append_assoc]
      · rw [heq] at h
        cases h
    · rw [HIDBuffer.fill, if_pos hlen] at h
      cases h
      rfl

/-- A report of the polls `ts` is asked for while fewer than `n` bytes of `S` have arrived, and with
it more than `_buffer` holds have. -/
def Feed.Overflows (dev : Handle) (n : Nat) (S : List UInt8) (ts : List τ) : Prop :=
  ∃ d t post, (t :: post) <:+ ts ∧ S.length < n + (F.stream d (t :: post)).length ∧
    bufferSize + (F.stream (E.hidReadTimeout d dev t).2 post).length < S.length

/-- A report has at most 63 bytes, so short reads never overflow. -/
theorem Feed.Overflows.long {dev : Handle} {n : Nat} {S : List UInt8} {ts : List τ}
    (h : F.Overflows dev n S ts) : 1986 < n := by
  obtain ⟨d, t, post, -, h1, h2⟩ := h
  have hp := (E.hidReadTimeout d dev t).1.length_payload_le
  have hbuf : bufferSize = 2048 := rfl
  rw [F.poll d dev t post, List.length_append] at h1
  omega

theorem Feed.Overflows.mono {dev : Handle} {n : Nat} {S : List UInt8} {ts us : List τ}
    (h : F.Overflows dev n S ts) (hs : ts <:+ us) : F.Overflows dev n S us := by
  obtain ⟨d, t, post, h1, h2, h3⟩ := h
  exact ⟨d, t, post, h1.trans hs, h2, h3⟩

/-- How a read of `length` bytes begun in `s` at the time `start` gives up. -/
structure HIDBuffer.Stopped (dev : Handle) (length : Nat) (timeout : Bool) (start : Int)
    (s : IoState τ δ) (e : Stop) (s' : IoState τ δ) : Prop where
  began : s.buf.bytes.length < length
  /-- Nothing is handed out and nothing discarded. -/
  unread : e ≠ .undefined → F.unread s' = F.unread s
  short : e ≠ .undefined → s'.buf.bytes.length < length
  overflow : e = .undefined → F.Overflows dev length (F.unread s) s.ticks
  ticks : e = .pending → s'.ticks = []
  why : e = .pending ∨ e = .undefined ∨ ∃ polls t, s.ticks = polls ++ t :: s'.ticks ∧
    GivesUp E dev timeout s.buf.readTimeout start (E.after dev s.world.dev polls) t e

theorem HIDBuffer.fill_stop (dev : Handle) (length : Nat) (timeout : Bool) (start : Int)
    (ts : List τ) (buf : HIDBuffer) (w : World δ) (e : Stop) (s' : IoState τ δ)
    (h : HIDBuffer.fill E dev length timeout start ts buf w = .error e s') :
    HIDBuffer.Stopped F dev length timeout start ⟨buf, w, ts⟩ e s' := by
  induction ts generalizing buf w with
  | nil =>
    rw [HIDBuffer.fill] at h
    split at h
    · cases h
    · next hlen =>
      cases h
      exact ⟨Nat.lt_of_not_le hlen, fun _ => rfl, fun _ => Nat.lt_of_not_le hlen, nofun,
        fun _ => rfl, .inl rfl⟩
  | cons t ts ih =>
    rcases Nat.lt_or_ge buf.bytes.length length with hlen | hlen
    · rcases HIDBuffer.fill_round E dev length timeout start t ts buf w hlen with
        ⟨buf', w', heq, hd, -, hb, hto⟩ | ⟨e', w', heq, hd, -, hwhy⟩
      · rw [heq] at h
        have hi := ih buf' w' h
        have hun : F.unread ⟨buf', w', ts⟩ = F.unread ⟨buf, w, t :: ts⟩ := by
          rw [Feed.unread_eq, Feed.unread_eq, hb, hd, F.poll w.dev dev t ts, List.append_assoc]
        refine ⟨hlen, fun he => (hi.unread he).trans hun, hi.short, ?_, hi.ticks, ?_⟩
        · intro he
          rw [← hun]
          exact (hi.overflow he).mono F (List.suffix_cons t ts)
        · rcases hi.why with hw | hw | ⟨polls, u, h1, h2⟩
          · exact .inl hw
          · exact .inr (.inl hw)
          · refine .inr (.inr ⟨t :: polls, u, congrArg (t :: ·) h1, ?_⟩)
            simp only [hto, hd] at h2
            exact h2
      · rw [heq] at h
        cases h
        rcases hwhy with ⟨rfl, hbig⟩ | hg
        · refine ⟨hlen, nofun, nofun, fun _ => ⟨w.dev, t, ts, List.suffix_refl _, ?_, ?_⟩, nofun,
            .inr (.inl rfl)⟩
          · simp only [Feed.unread_eq, List.length_append]
            omega
          · simp only [Feed.unread_eq, F.poll w.dev dev t ts, List.length_append]
            omega
        · refine ⟨hlen, ?_, fun _ => hlen, ?_, ?_, .inr (.inr ⟨[], t, rfl, hg⟩)⟩
          · intro _
            rw [Feed.unread_eq, Feed.unread_eq, F.poll w.dev dev t ts, hg.payload,
              List.nil_append, ← hd]
          · rintro rfl
            cases hg
          · rintro rfl
            cases hg
    · rw [HIDBuffer.fill, if_pos hlen] at h
      cases h

variable (E) in
/-- A read that returns has used up at least as many bytes as it hands out. -/
theorem HIDBuffer.read_polled {dev : Handle} {length : Nat} {timeout : Bool} {s s' : IoState τ δ}
    {bytes : List UInt8} (h : HIDBuffer.read E dev length timeout s = .ok bytes s') :
    bytes.length = length ∧ s.Polled E dev s' ∧ s'.size + length ≤ s.size := by
  unfold HIDBuffer.read at h
  simp only [] at h
  split at h
  · next s1 heq =>
    obtain ⟨h1, h2, h3⟩ := HIDBuffer.fill_polled E _ _ _ _ _ _ _ _ heq
    cases h
    refine ⟨by simp [h1], h2, ?_⟩
    simp only [IoState.size, HIDBuffer.shift_bytes, List.length_drop] at h3 ⊢
    omega
  · cases h

/-- **A read that returns** takes exactly its bytes off the front of the unread ones. -/
theorem HIDBuffer.read_ok {dev : Handle} {length : Nat} {timeout : Bool} {s s' : IoState τ δ}
    {bytes : List UInt8} (h : HIDBuffer.read E dev length timeout s = .ok bytes s') :
    F.unread s = bytes ++ F.unread s' ∧ bytes.length = length ∧
    s.Polled E dev s' ∧ s'.size + length ≤ s.size := by
  refine ⟨?_, HIDBuffer.read_polled E h⟩
  unfold HIDBuffer.read at h
  simp only [] at h
  split at h
  · next s1 heq =>
    have hunread := HIDBuffer.fill_ok F _ _ _ _ _ _ _ _ heq
    cases h
    rw [Feed.unread_eq, ← hunread, Feed.unread_eq, Feed.unread_eq, HIDBuffer.shift_bytes,
      ← List.append_assoc, List.take_append_drop]
  · cases h

/-- **A read that does not return** hands out nothing and keeps every byte. -/
theorem HIDBuffer.read_stop {dev : Handle} {length : Nat} {timeout : Bool} {s s' : IoState τ δ}
    {e : Stop} (h : HIDBuffer.read E dev length timeout s = .error e s') :
    HIDBuffer.Stopped F dev length timeout (E.time s.world.dev) s e s' := by
  unfold HIDBuffer.read at h
  simp only [] at h
  split at h
  · cases h
  · next e1 s1 heq =>
    cases h
    exact HIDBuffer.fill_stop F _ _ _ _ _ _ _ _ _ heq

end TrezorPlugin
