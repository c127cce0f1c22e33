import TrezorPlugin.FrameSync

/-!
# A whole conversation, written and read back

One side writes messages with `DeviceChannel.write`; hidapi carries every
64-byte chunk to the other side as one report; the other side reads.

    reports = frame, zeros, frame, zeros, …        (writeAll_ok, payloads_delivered)
    reads of `Left` frames return their messages   (reads_return)
    writes, then reads, give the messages back     (conversation_round_trip)
-/

namespace TrezorPlugin

open Framing

variable {τ δ Msg : Type} (E : Env τ δ) (P : Protobuf Msg) (pool : DescriptorPool)

/-! ## Writing -/

/-- Successive `DeviceChannel::write` calls. -/
def writeAll (dev : Handle) : List Msg → IoM τ δ Unit
  | [] => pure ()
  | m :: msgs => do
    DeviceChannel.write E P pool dev m
    writeAll dev msgs

/-- The chunks handed to `hid_write`. -/
def writtenChunks (trace : List Event) : List (List UInt8) :=
  trace.filterMap fun
    | .act (.write _ chunk _) => some chunk
    | _ => none

theorem writtenChunks_append (l m : List Event) :
    writtenChunks (l ++ m) = writtenChunks l ++ writtenChunks m := List.filterMap_append

/-- hidapi takes every chunk whole. -/
def Env.Accepts : Prop := ∀ d h chunk, (E.hidWrite d h chunk).1 = chunk.length

theorem length_writeChunk {piece : List UInt8} (h : piece.length ≤ 63) :
    (writeChunk piece).length = 64 := by
  simp only [writeChunk, List.length_cons, List.length_append, List.length_replicate]
  omega

variable {E}

theorem writePieces_ok (hacc : E.Accepts) (dev : Handle) (pieces : List (List UInt8))
    (hpieces : ∀ piece ∈ pieces, piece.length ≤ 63) (s : IoState τ δ) :
    ∃ s', HIDBuffer.writePieces E dev pieces s = .ok () s' ∧
      writtenChunks s'.world.trace = writtenChunks s.world.trace ++ pieces.map writeChunk := by
  induction pieces generalizing s with
  | nil => exact ⟨s, rfl, by simp⟩
  | cons piece pieces ih =>
    rw [List.forall_mem_cons] at hpieces
    have h64 : ¬ sizeT (E.hidWrite s.world.dev dev (writeChunk piece)).1 < 64 := by
      rw [hacc, length_writeChunk hpieces.1]
      decide
    rw [HIDBuffer.writePieces]
    simp only [if_neg h64]
    obtain ⟨s', h1, h2⟩ := ih hpieces.2 ⟨s.buf, s.world.locked [.write dev (writeChunk piece)
      (E.hidWrite s.world.dev dev (writeChunk piece)).1]
      (E.hidWrite s.world.dev dev (writeChunk piece)).2, s.ticks⟩
    refine ⟨s', h1, ?_⟩
    rw [h2, World.locked_trace, writtenChunks_append, List.append_assoc]
    rfl

/-- The bytes `write` frames a message as. -/
def messageFrame (type : UInt16) (m : Msg) : Frame :=
  ⟨type, P.serialize m, (P.byteSize_lt m).trans (by decide)⟩

variable {P pool}

theorem write_ok (hacc : E.Accepts) (dev : Handle) {m : Msg} {type : UInt16}
    (ht : messageTypeOf P pool m = .ok type) (s : IoState τ δ) :
    ∃ s', DeviceChannel.write E P pool dev m s = .ok () s' ∧
      writtenChunks s'.world.trace = writtenChunks s.world.trace ++
        (Bytes.chunks 63 ((messageFrame P type m).encode wire)).map writeChunk := by
  obtain ⟨s', h1, h2⟩ := writePieces_ok hacc dev (Bytes.chunks 63
    ((messageFrame P type m).encode wire)) (Bytes.length_of_mem_chunks 63 _) s
  refine ⟨s', ?_, h2⟩
  unfold DeviceChannel.write
  rw [ht, Exec.bind_ok (show liftExcept (Except.ok type) s = .ok type s from rfl),
    frameBytes_eq type (P.serialize m) ((P.byteSize_lt m).trans (by decide))]
  exact h1

/-- Each message has a number in the loaded schema. -/
def Numbered (P : Protobuf Msg) (pool : DescriptorPool) (msgs : List Msg) (types : List UInt16) :
    Prop :=
  List.Forall₂ (fun m type => messageTypeOf P pool m = .ok type) msgs types

/-- **What successive writes send**: the frame of each message, cut into chunks. -/
theorem writeAll_ok (hacc : E.Accepts) (dev : Handle) {msgs : List Msg} {types : List UInt16}
    (hn : Numbered P pool msgs types) (s : IoState τ δ) :
    ∃ s', writeAll E P pool dev msgs s = .ok () s' ∧
      writtenChunks s'.world.trace = writtenChunks s.world.trace ++
        (List.zipWith (fun m type => (Bytes.chunks 63 ((messageFrame P type m).encode wire)).map
          writeChunk) msgs types).flatten := by
  induction hn generalizing s with
  | nil => exact ⟨s, rfl, by simp⟩
  | @cons m type msgs types ht _ ih =>
    obtain ⟨s1, h1, h2⟩ := write_ok hacc dev ht s
    obtain ⟨s', h3, h4⟩ := ih s1
    refine ⟨s', ?_, ?_⟩
    · rw [writeAll, Exec.bind_ok h1]
      exact h3
    · rw [h4, h2, List.zipWith_cons_cons, List.flatten_cons, List.append_assoc]

/-! ## Delivering -/

/-- The reports of a list of polls. -/
def delivered (polls : List Poll) : List (List UInt8) :=
  polls.filterMap fun t =>
    match t.result with
    | .report r => some r.bytes
    | _ => none

/-- The bytes a report hands over. -/
def chunkPayload (chunk : List UInt8) : List UInt8 :=
  (chunk.take (min chunk.length ((chunk.getD 0 0).toNat + 1))).drop 1

theorem payloads_delivered (polls : List Poll) :
    payloads polls = (delivered polls).flatMap chunkPayload := by
  induction polls with
  | nil => rfl
  | cons t polls ih =>
    show t.result.payload ++ payloads polls = _
    obtain ⟨result, clock⟩ := t
    cases result with
    | report r =>
      rw [ih]
      rfl
    | empty => exact ih
    | error => exact ih

theorem chunkPayload_writeChunk {piece : List UInt8} (h : piece.length ≤ 63) :
    chunkPayload (writeChunk piece) = piece ++ List.replicate (63 - piece.length) 0 := by
  unfold chunkPayload
  rw [length_writeChunk h, List.take_of_length_le (by rw [length_writeChunk h]; simp [writeChunk])]
  rfl

/-- The chunks of a frame carry the frame, and zeros after it. -/
theorem chunks_payload (f : Frame) :
    ∃ n, ((Bytes.chunks 63 (f.encode wire)).map writeChunk).flatMap chunkPayload =
      f.encode wire ++ List.replicate n 0 := by
  obtain ⟨n, hn⟩ := Bytes.chunks_fill 63 (by decide) 0 (f.encode wire)
  refine ⟨n, ?_⟩
  rw [← hn, List.flatMap_map]
  apply List.flatMap_congr
  intro piece hp
  exact chunkPayload_writeChunk (Bytes.length_of_mem_chunks 63 _ _ hp)

/-- The reports of successive writes are a stream of the messages' frames, with padding. -/
theorem chunks_stream {msgs : List Msg} {types : List UInt16} (hn : Numbered P pool msgs types) :
    ∃ items, (List.zipWith (fun m type => (Bytes.chunks 63 ((messageFrame P type m).encode
        wire)).map writeChunk) msgs types).flatten.flatMap chunkPayload = bytes wire items ∧
      List.Forall₂ (fun m f => ∃ type, messageTypeOf P pool m = .ok type ∧
        f = messageFrame P type m) msgs (frames wire items) := by
  induction hn with
  | nil => exact ⟨[], rfl, .nil⟩
  | @cons m type msgs types ht _ ih =>
    obtain ⟨items, h1, h2⟩ := ih
    obtain ⟨n, hn⟩ := chunks_payload (messageFrame P type m)
    have hpad : wire.magic ∉ List.replicate n 0 := fun hm =>
      absurd (List.eq_of_mem_replicate hm) (by decide)
    refine ⟨.frame (messageFrame P type m) :: (pads wire _ hpad ++ items), ?_, ?_⟩
    · rw [List.zipWith_cons_cons, List.flatten_cons, List.flatMap_append, hn, h1, bytes_cons,
        bytes_append, bytes_pads, List.append_assoc]
      rfl
    · have hf : frames wire (.frame (messageFrame P type m) :: (pads wire _ hpad ++ items)) =
          messageFrame P type m :: frames wire items := by
        rw [show ∀ js, frames wire (.frame (messageFrame P type m) :: js) =
          messageFrame P type m :: frames wire js from fun _ => rfl, frames_append, frames_pads]
        rfl
      rw [hf]
      exact .cons ⟨type, ht, rfl⟩ h2

/-! ## Reading -/

variable (err : Option WString) (enc : WString → Except Exception String)

/-- **Reads return what is left.**  As many reads as there are frames left, none of which meets a late
poll, return the messages of these frames, and leave padding. -/
theorem reads_return (dev : Handle) {msgs : List Msg} {post : List (Item wire)}
    (hdec : Decodes P pool msgs (frames wire post))
    (hlen : ∀ f ∈ frames wire post, f.payload.length ≤ 1986) {calls : List Bool}
    (hcalls : calls.length = msgs.length) (s : Reading Msg)
    (hts : Working s.io) (hleft : Left wire post (s.io.buf.bytes ++ payloads s.io.ticks))
    (hontime : Run.Along (readStep P pool dev err enc) (fun s timeout => OnTime timeout s.io) s
      calls) :
    ∃ s', Run.run (readStep P pool dev err enc) s calls = some s' ∧
      s'.returned = s.returned ++ msgs ∧ 35 ∉ s'.io.buf.bytes ++ payloads s'.io.ticks := by
  induction calls generalizing s msgs post with
  | nil =>
    obtain rfl := List.length_eq_zero_iff.mp hcalls.symm
    refine ⟨s, rfl, by simp, ?_⟩
    rcases left_cases wire hleft with ⟨h, -⟩ | ⟨ps, f, rest, rfl, -, -⟩
    · exact h
    · rw [frames_append] at hdec
      have := hdec.length_eq
      simp [frames] at this
  | cons timeout calls ih =>
    cases msgs with
    | nil => cases hcalls
    | cons m msgs =>
      rcases left_cases wire hleft with ⟨-, h⟩ | ⟨ps, f, rest, rfl, hps, hp⟩
      · rw [h] at hdec
        cases hdec
      · have hf : frames wire (ps ++ .frame f :: rest) = f :: frames wire rest := by
          rw [frames_append, hps]
          rfl
        rw [hf] at hdec hlen
        obtain ⟨hm, hdec'⟩ := List.forall₂_cons.mp hdec
        have h1986 : f.payload.length ≤ 1986 := hlen f List.mem_cons_self
        have hnot : ¬ wire.maxLength < f.payload.length :=
          Nat.not_lt.mpr (h1986.trans (by decide))
        rw [if_neg hnot, Frame.parsed, if_neg hnot] at hp
        obtain ⟨io, hr, hu, htk⟩ := read_complete err enc P pool hts hontime.1 hp
          (by rintro type payload ⟨⟩; exact h1986)
        have hstep : readStep P pool dev err enc s timeout = some ⟨io, s.returned ++ [m]⟩ := by
          unfold readStep
          rw [hr]
          simp only [outcome, hm, liftExcept]
        obtain ⟨s', h1, h2, h3⟩ := ih hdec' (fun g hg => hlen g (List.mem_cons_of_mem _ hg))
          (by simpa using hcalls) ⟨io, s.returned ++ [m]⟩ (fun t ht => hts t (htk.subset ht))
          (hu ▸ left_bytes wire rest) (hontime.2 _ hstep)
        refine ⟨s', ?_, ?_, h3⟩
        · rw [Run.run_cons_of _ hstep]
          exact h1
        · rw [h2]
          simp

/-! ## There and back -/

/-- A message type of the schema has a number, and it leads back to the message. -/
theorem type_and_back (S : WireSchema pool) {m : Msg}
    (hm : ∃ v ∈ S.enum.values, v.name = messageTypePrefix ++ P.getTypeName m)
    (hinv : ∀ d, pool.findMessageTypeByName (P.getTypeName m) = some d →
      P.parseFromArray (P.newMessage d) (P.serialize m) = (m, true)) :
    ∃ type, messageTypeOf P pool m = .ok type ∧ decode P pool type (P.serialize m) = .ok m := by
  obtain ⟨v, hv, hname⟩ := hm
  have hfind : ∃ u, S.enum.findValueByName (messageTypePrefix ++ P.getTypeName m) = some u := by
    unfold EnumDescriptor.findValueByName
    rw [← Option.isSome_iff_exists, List.find?_isSome]
    exact ⟨v, hv, by simpa using hname⟩
  obtain ⟨u, hu⟩ := hfind
  have ht : messageTypeOf P pool m = .ok (UInt16.ofInt u.number) := by
    simp only [messageTypeOf, messageType, S.loaded, hu]
  obtain ⟨hback, d, hd, hdn⟩ := messageName_messageType S ht
  refine ⟨_, ht, ?_⟩
  rw [decode_of_messageOf P hd]
  have hfind : pool.findMessageTypeByName (P.getTypeName m) = some d := by
    simpa only [DescriptorPool.messageOf, hback] using hd
  rw [hinv d hfind]

theorem forall_of_forall₂ {α β : Type} {R : α → β → Prop} {Q : β → Prop}
    (hR : ∀ a b, R a b → Q b) {l : List α} {m : List β} (h : List.Forall₂ R l m) :
    ∀ b ∈ m, Q b := by
  induction h with
  | nil => simp
  | cons hab _ ih => exact List.forall_mem_cons.mpr ⟨hR _ _ hab, ih⟩

/-- **Round trip.**  Messages of the schema of at most 1986 bytes, written with successive writes
and delivered chunk by chunk to a reader with an empty buffer, with polls that find nothing in
between and come in time: as many reads do not time out, return exactly these messages, and leave
nothing but padding. -/
theorem conversation_round_trip (S : WireSchema pool) (hacc : E.Accepts) (dev dev' : Handle)
    (msgs : List Msg)
    (htypes : ∀ m ∈ msgs, ∃ v ∈ S.enum.values, v.name = messageTypePrefix ++ P.getTypeName m)
    (hsize : ∀ m ∈ msgs, (P.serialize m).length ≤ 1986)
    (hinv : ∀ m ∈ msgs, ∀ d, pool.findMessageTypeByName (P.getTypeName m) = some d →
      P.parseFromArray (P.newMessage d) (P.serialize m) = (m, true))
    (s : IoState τ δ) :
    ∃ s' chunks, writeAll E P pool dev msgs s = .ok () s' ∧
      writtenChunks s'.world.trace = writtenChunks s.world.trace ++ chunks ∧
      ∀ (w : World Int) (polls : List Poll) (calls : List Bool), delivered polls = chunks →
        (∀ t ∈ polls, t.result ≠ .error) → calls.length = msgs.length →
        Run.Along (readStep P pool dev' err enc) (fun s timeout => OnTime timeout s.io)
          ⟨⟨.new, w, polls⟩, []⟩ calls →
        ∃ r, Run.run (readStep P pool dev' err enc) ⟨⟨.new, w, polls⟩, []⟩ calls = some r ∧
          r.returned = msgs ∧ 35 ∉ r.io.buf.bytes ++ payloads r.io.ticks := by
  have hback : ∀ m ∈ msgs, ∃ type, messageTypeOf P pool m = .ok type ∧
      decode P pool type (P.serialize m) = .ok m := fun m hm =>
    type_and_back S (htypes m hm) (hinv m hm)
  obtain ⟨types, hn⟩ : ∃ types, Numbered P pool msgs types := by
    clear htypes hsize hinv
    induction msgs with
    | nil => exact ⟨[], .nil⟩
    | cons m msgs ih =>
      obtain ⟨types, hts⟩ := ih fun m hm => hback m (List.mem_cons_of_mem _ hm)
      obtain ⟨type, ht, -⟩ := hback m List.mem_cons_self
      exact ⟨type :: types, .cons ht hts⟩
  obtain ⟨s', hw, htr⟩ := writeAll_ok hacc dev hn s
  refine ⟨s', _, hw, htr, ?_⟩
  intro w polls calls hdel hts hcalls hontime
  obtain ⟨items, hbytes, hframes⟩ := chunks_stream hn
  have hpay : payloads polls = bytes wire items := by
    rw [payloads_delivered, hdel, hbytes]
  -- the frame of each message decodes to it and is short
  have hpair := List.forall₂_and_left msgs _ |>.mpr
    ⟨fun m hm => And.intro (hback m hm) (hsize m hm), hframes⟩
  have hdec : Decodes P pool msgs (frames wire items) := by
    apply hpair.imp
    rintro m f ⟨⟨⟨type, ht, hd⟩, -⟩, type', ht', rfl⟩
    rw [ht] at ht'
    cases ht'
    exact hd
  have hlen : ∀ f ∈ frames wire items, f.payload.length ≤ 1986 := by
    refine forall_of_forall₂ ?_ hpair
    rintro m f ⟨⟨-, hle⟩, type, -, rfl⟩
    exact hle
  obtain ⟨r, hr, hret, hpad⟩ :=
    reads_return err enc dev' hdec hlen hcalls ⟨⟨.new, w, polls⟩, []⟩ hts
    (by
      show Left wire items ([] ++ payloads polls)
      rw [List.nil_append, hpay]
      exact left_bytes wire items) hontime
  exact ⟨r, hr, by simpa using hret, hpad⟩

def pingSchema : WireSchema pingPool where
  enum := ⟨"MessageType", [⟨"MessageType_Ping", 0⟩, ⟨"MessageType_Pong", 1⟩]⟩
  loaded := by decide
  distinct := by decide
  range := by decide
  known v hv := by
    rcases List.mem_cons.mp hv with rfl | hv
    · exact ⟨⟨"Ping", []⟩, by decide, by decide⟩
    · rw [List.mem_singleton] at hv
      subst hv
      exact ⟨⟨"Pong", []⟩, by decide, by decide⟩

/-- A `Ping` whose two bytes look like the magic, and an empty `Pong`. -/
def talk : List RawMessage := [⟨"Ping", [35, 35], by decide⟩, ⟨"Pong", [], nil_fits⟩]

/-- Their reports, with an empty poll between them. -/
def talkPolls : List Poll :=
  [⟨.report ⟨writeChunk (frameBytes 0 [35, 35]), by decide, by decide⟩, 0⟩, ⟨.empty, 3⟩,
    ⟨.report ⟨writeChunk (frameBytes 1 []), by decide, by decide⟩, 3⟩]

theorem conversation_round_trip_talk :
    ∃ r, scriptReads talkPolls [true, true] = some r ∧ r.returned = talk ∧
      35 ∉ r.io.buf.bytes ++ payloads r.io.ticks := by
  obtain ⟨s', chunks, hw, hchunks, hback⟩ := conversation_round_trip none (fun _ => .ok "")
    (E := scriptEnv none fun _ => .ok "") (P := rawProtobuf) pingSchema (fun _ _ _ => rfl) 0 0 talk
    (by decide) (by decide) (fun _ _ _ => raw_parse_serialize)
    ⟨.new, ⟨0, []⟩, []⟩
  refine hback ⟨0, []⟩ talkPolls [true, true] ?_ (by decide) rfl
    ⟨by decide +kernel, fun t ht => ⟨?_, fun _ _ => trivial⟩⟩
  · have h : (match writeAll (scriptEnv none fun _ => .ok "") rawProtobuf pingPool 0 talk
        ⟨.new, ⟨0, []⟩, []⟩ with
      | .ok _ s => writtenChunks s.world.trace
      | .error _ _ => []) = delivered talkPolls := by decide +kernel
    rw [hw] at h
    rw [← h]
    exact hchunks
  · have h : (readStep rawProtobuf pingPool 0 none (fun _ => .ok "")
        ⟨⟨.new, ⟨0, []⟩, talkPolls⟩, []⟩ true).map (fun s => decide (OnTime true s.io)) =
          some true := by
      decide +kernel
    rw [ht] at h
    simpa using h

end TrezorPlugin
