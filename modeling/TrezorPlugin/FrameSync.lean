import TrezorPlugin.Reads
import Mathlib.Data.List.Forall2

/-!
# Frame synchronisation over successive reads

The reports carry a stream of frames and padding.  A read that throws leaves
what it has consumed consumed, so the next read starts wherever that is:

    before a read, what is unread is `Left`: bytes other than '#', then whole items

holds along a run, and with it the messages returned are frames of the stream in
order (`reads_keep_frame_order`), as long as no read gives up inside a frame that
has a `'#'` still to come, and no frame above 2048 bytes has one in its payload.
-/

namespace TrezorPlugin

open Framing

variable {err : Option WString} {enc : WString → Except Exception String}
variable {Msg : Type} (P : Protobuf Msg) (pool : DescriptorPool) (dev : Handle)

/-- The poll `t` fails, or comes back empty later than `limit` seconds after `start`. -/
def Poll.Late (timeout : Bool) (limit start : Int) (t : Poll) : Prop :=
  t.result = .error ∨ timeout = true ∧ t.result = .empty ∧ limit < t.clock - start

/-- Wherever the next read may give up with a frame begun and not complete, there is no `'#'` in
the part of that frame it has not handed out: what is unread is `Left`.  A poll counts as late from
the moment on at which the bytes of the same part of the frame (second magic byte, header, payload)
were first asked for. -/
def GivesUpBetweenFrames (items : List (Item wire)) (s : IoState Poll Int) (timeout : Bool) : Prop :=
  ∀ polls0 polls t post, s.ticks = polls0 ++ (polls ++ t :: post) →
    35 ∈ s.buf.bytes ++ payloads (polls0 ++ polls) →
    parse wire (s.buf.bytes ++ payloads (polls0 ++ polls)) = none →
    stage wire (s.buf.bytes ++ payloads polls0) =
      stage wire (s.buf.bytes ++ payloads (polls0 ++ polls)) →
    t.Late timeout s.buf.readTimeout (clockAfter s.world.dev polls0) →
    ∃ rest, rest <:+ items ∧
      Left wire rest (kept wire (s.buf.bytes ++ payloads (polls0 ++ polls)) ++ payloads post)

/-- The messages are those of the frames. -/
def Decodes (returned : List Msg) (fs : List Frame) : Prop :=
  List.Forall₂ (fun m f => decode P pool f.type f.payload = .ok m) returned fs

/-- What holds between the reads: padding and then the items `rest` are unread, and the messages
returned are those of some frames before them. -/
def InSync (items : List (Item wire)) (unread : List UInt8) (returned : List Msg) : Prop :=
  ∃ rest fs, rest <:+ items ∧ Left wire rest unread ∧
    (fs ++ frames wire rest).Sublist (frames wire items) ∧ Decodes P pool returned fs

variable {P pool}

/-- A read that follows the parser takes one frame, and returns it or drops it. -/
theorem InSync.parsed {items : List (Item wire)} {S S' : List UInt8} {returned : List Msg}
    {p : Parsed} (hlong : ∀ f ∈ frames wire items, bufferSize < f.payload.length → 35 ∉ f.payload)
    (hs : InSync P pool items S returned) (hp : parse wire S = some (p, S')) :
    InSync P pool items S' returned ∧
    ∀ m, outcome P pool p = .ok m → InSync P pool items S' (returned ++ [m]) := by
  obtain ⟨rest, fs, hrest, hl, hsub, hret⟩ := hs
  rcases left_cases wire hl with ⟨hno, -⟩ | ⟨ps, f, rest', rfl, hps, hp'⟩
  · rw [parse_pad_none wire hno] at hp
    cases hp
  · rw [hp'] at hp
    simp only [Option.some.injEq, Prod.mk.injEq] at hp
    obtain ⟨rfl, rfl⟩ := hp
    have hf : frames wire (ps ++ .frame f :: rest') = f :: frames wire rest' := by
      rw [frames_append, hps]
      rfl
    rw [hf] at hsub
    have htail : rest' <:+ items :=
      ((List.suffix_cons _ _).trans (List.suffix_append ps _)).trans hrest
    have hleft : Left wire rest' (if wire.maxLength < f.payload.length then
        f.payload ++ bytes wire rest' else bytes wire rest') := by
      split
      · next hbig => exact ⟨f.payload, hlong f (hsub.subset (by simp)) hbig, rfl⟩
      · exact left_bytes wire rest'
    refine ⟨⟨rest', fs, htail, hleft, ?_, hret⟩, fun m hm => ⟨rest', fs ++ [f], htail, hleft, ?_, ?_⟩⟩
    · exact ((List.sublist_cons_self f _).append_left fs).trans hsub
    · simpa using hsub
    · unfold Frame.parsed at hm
      split at hm
      · cases hm
      · exact List.rel_append hret (.cons hm .nil)

/-- A read that throws for want of bytes leaves the stream where a frame can start. -/
theorem InSync.halted {items : List (Item wire)} {returned : List Msg} {timeout : Bool}
    {s s' : IoState Poll Int} {x : Exception}
    (hs : InSync P pool items (s.buf.bytes ++ payloads s.ticks) returned)
    (hsync : GivesUpBetweenFrames items s timeout)
    (h : Halted (scriptFeed err enc) dev timeout s (.throws x) s') :
    InSync P pool items (s'.buf.bytes ++ payloads s'.ticks) returned := by
  obtain ⟨rest, fs, hrest, hl, hsub, hret⟩ := hs
  obtain ⟨rcv, hrcv, hnone, hbuf⟩ := h.received (by simp)
  rw [scriptFeed_unread, scriptFeed_coming] at hrcv
  by_cases hm : 35 ∈ rcv
  · rcases h.why with hw | hw | ⟨s0, rcv0, polls, t, ⟨-, polls0, hts, hd0⟩, hrcv0, hts0, hg, hst⟩
    · cases hw
    · cases hw
    have hpay : payloads (t :: s'.ticks) = payloads s'.ticks := by
      show t.result.payload ++ payloads s'.ticks = _
      rw [show t.result.payload = [] from hg.payload, List.nil_append]
    -- the bytes received are those of the polls so far
    have hr : s.buf.bytes ++ payloads (polls0 ++ polls) = rcv := by
      rw [hts, hts0, ← List.append_assoc, payloads_append, hpay, ← List.append_assoc] at hrcv
      exact List.append_cancel_right hrcv
    have hr0 : s.buf.bytes ++ payloads polls0 = rcv0 := by
      rw [scriptFeed_unread, scriptFeed_coming, hts, payloads_append, ← List.append_assoc] at hrcv0
      exact List.append_cancel_right hrcv0
    have hlate : t.Late timeout s.buf.readTimeout (clockAfter s.world.dev polls0) := by
      cases hg with
      | timedOut ht hres hlate =>
        rw [hd0] at hlate
        exact .inr ⟨ht, hres, hlate⟩
      | device _ hres => exact .inl hres
    obtain ⟨rest', hrest', hleft⟩ := hsync polls0 polls t s'.ticks (by rw [hts, hts0])
      (hr ▸ hm) (hr ▸ hnone) (by rw [hr, hr0]; exact hst rcv hrcv) hlate
    rw [hr] at hleft
    obtain ⟨gone, hgone⟩ := kept_suffix wire rcv
    rw [hrcv, ← hgone, List.append_assoc] at hl
    refine ⟨rest', fs, hrest', by rw [hbuf]; exact hleft, ?_, hret⟩
    exact ((left_frames_suffix wire hrest hrest' hl hleft).sublist.append_left fs).trans hsub
  · rw [hrcv] at hl
    obtain ⟨ps, post, rfl, hps, hleft⟩ := left_drop wire hm hl
    refine ⟨post, fs, (List.suffix_append ps post).trans hrest, ?_, ?_, hret⟩
    · rw [hbuf, kept_pad wire hm]
      exact hleft
    · rwa [frames_append, hps] at hsub

/-- One read keeps the synchronisation. -/
theorem readStep_inSync {items : List (Item wire)}
    (hlong : ∀ f ∈ frames wire items, bufferSize < f.payload.length → 35 ∉ f.payload)
    {s s' : Reading Msg} {timeout : Bool}
    (hs : InSync P pool items (s.io.buf.bytes ++ payloads s.io.ticks) s.returned)
    (hsync : GivesUpBetweenFrames items s.io timeout)
    (h : readStep P pool dev err enc s timeout = some s') :
    InSync P pool items (s'.io.buf.bytes ++ payloads s'.io.ticks) s'.returned := by
  unfold readStep at h
  rcases read_cases P pool (scriptFeed err enc) dev timeout s.io with
    ⟨p, io, hp, -, hr⟩ | ⟨e, io, hr, hstop⟩
  · obtain ⟨hdrop, htake⟩ := InSync.parsed hlong hs hp
    rw [hr] at h
    cases ho : outcome P pool p with
    | ok m =>
      simp only [ho, liftExcept, Option.some.injEq] at h
      subst h
      exact htake m ho
    | error e =>
      simp only [ho, liftExcept, Option.some.injEq] at h
      subst h
      exact hdrop
  · rw [hr] at h
    split at h
    · next heq => cases heq
    · next x io' heq =>
      cases heq
      cases h
      exact InSync.halted dev hs hsync hstop
    · cases h

/-- **Frames in order.**  The reports carry the stream of `items`; no frame above 2048 bytes holds a
`'#'`, and every read of the run gives up between frames or where no `'#'` is left of one.  Then the
messages returned are those of frames of the stream, in order, and what is unread is bytes other
than `'#'` and whole items: no read starts on a `'#'` inside a frame. -/
theorem reads_keep_frame_order (items : List (Item wire)) (io : IoState Poll Int)
    (hio : io.buf.bytes ++ payloads io.ticks = bytes wire items)
    (hlong : ∀ f ∈ frames wire items, bufferSize < f.payload.length → 35 ∉ f.payload)
    (calls : List Bool)
    (hsync : Run.Along (readStep P pool dev err enc)
      (fun s timeout => GivesUpBetweenFrames items s.io timeout) ⟨io, []⟩ calls)
    (s : Reading Msg) (hrun : Run.run (readStep P pool dev err enc) ⟨io, []⟩ calls = some s) :
    (∃ fs, fs.Sublist (frames wire items) ∧ Decodes P pool s.returned fs) ∧
    ∃ rest, rest <:+ items ∧ Left wire rest (s.io.buf.bytes ++ payloads s.io.ticks) := by
  have h0 : InSync P pool items (io.buf.bytes ++ payloads io.ticks) [] :=
    ⟨items, [], List.suffix_refl _, hio ▸ left_bytes wire items, List.Sublist.refl _, .nil⟩
  obtain ⟨rest, fs, hrest, hleft, hsub, hret⟩ := Run.run_inv (readStep P pool dev err enc)
    (fun s => InSync P pool items (s.io.buf.bytes ++ payloads s.io.ticks) s.returned) _
    (fun s timeout s' hs hc hstep => readStep_inSync dev hlong hs hc hstep) h0 hsync hrun
  exact ⟨⟨fs, (List.sublist_append_left fs _).trans hsub, hret⟩, rest, hrest, hleft⟩

/-- A report with `payload` and nothing else. -/
def reportOf (payload : List UInt8) (h : payload.length ≤ 63) : ReadResult :=
  .report (Piece.report ⟨payload, [], by simpa using h⟩)

abbrev scriptReads (polls : List Poll) : List Bool → Option (Reading RawMessage) :=
  Run.run (readStep rawProtobuf pingPool 0 none fun _ => .ok "") ⟨⟨.new, ⟨0, []⟩, polls⟩, []⟩

/-- A padding byte, an empty `Ping` and an empty `Pong`. -/
def pingPongItems : List (Item wire) :=
  [.pad 0 (by decide), .frame ⟨0, [], by decide⟩, .frame ⟨1, [], by decide⟩]

/-- The `Pong` comes when a read has already timed out. -/
def pingPongPolls : List Poll :=
  [⟨reportOf [0, 35, 35, 0, 0, 0, 0, 0, 0] (by decide), 0⟩, ⟨.empty, 20⟩,
    ⟨reportOf [35, 35, 0, 1, 0, 0, 0, 0] (by decide), 21⟩]

/-- Only polls without a report are late. -/
theorem Poll.not_late_report {timeout : Bool} {limit start clock : Int} {r : Report} :
    ¬ (Poll.mk (.report r) clock).Late timeout limit start := by
  rintro (h | ⟨-, h, -⟩)
  · cases h
  · cases h

/-- A timeout between two frames. -/
theorem reads_keep_frame_order_ping_pong :
    ∃ s, scriptReads pingPongPolls [true, true] = some s ∧
      (∃ fs, fs.Sublist (frames wire pingPongItems) ∧
        Decodes rawProtobuf pingPool s.returned fs) ∧
      ∃ rest, rest <:+ pingPongItems ∧
        Left wire rest (s.io.buf.bytes ++ payloads s.io.ticks) := by
  obtain ⟨s, hs⟩ := Option.isSome_iff_exists.mp
    (show (scriptReads pingPongPolls [true, true]).isSome from by decide +kernel)
  refine ⟨s, hs, reads_keep_frame_order 0 pingPongItems ⟨.new, ⟨0, []⟩, pingPongPolls⟩
    (by decide) (by decide) [true, true] ⟨?_, fun t ht => ⟨?_, fun _ _ => trivial⟩⟩ s hs⟩
  · intro polls0 polls t post hts hm hnone hst hlate
    rw [← List.append_assoc] at hts
    generalize polls0 ++ polls = polls at hts hm hnone
    match polls, hts with
    | [], hts =>
      cases hts
      exact absurd hlate Poll.not_late_report
    | [a], hts =>
      cases hts
      exact absurd hnone (by decide +kernel)
    | [a, b], hts =>
      cases hts
      exact absurd hlate Poll.not_late_report
    | a :: b :: c :: polls, hts => simp [pingPongPolls] at hts
  · have h : (readStep rawProtobuf pingPool 0 none (fun _ => .ok "")
        ⟨⟨.new, ⟨0, []⟩, pingPongPolls⟩, []⟩ true).map (fun s => (s.io.buf.bytes, s.io.ticks)) =
          some ([], pingPongPolls.drop 1) := by decide +kernel
    rw [ht, Option.map_some, Option.some.injEq, Prod.mk.injEq] at h
    intro polls0 polls u post hts hm hnone hst hlate
    rw [h.1] at hm
    rw [h.2, ← List.append_assoc] at hts
    generalize polls0 ++ polls = polls at hts hm
    match polls, hts with
    | [], hts => simp [payloads] at hm
    | [a], hts =>
      cases hts
      exact absurd hlate Poll.not_late_report
    | a :: b :: polls, hts => simp [pingPongPolls] at hts

/-- A `Ping` whose payload reads like an empty `Pong`; a timeout before the payload. -/
def nestedPolls : List Poll :=
  [⟨reportOf [35, 35, 0, 0, 0, 0, 0, 8] (by decide), 0⟩, ⟨.empty, 16⟩,
    ⟨reportOf [35, 35, 0, 1, 0, 0, 0, 0] (by decide), 17⟩]

/-- A timeout inside a frame: the second read returns a message that no frame of the stream
carries. -/
theorem reads_return_payload_bytes :
    payloads nestedPolls = bytes wire [.frame ⟨0, [35, 35, 0, 1, 0, 0, 0, 0], by decide⟩] ∧
    ∃ s, scriptReads nestedPolls [true, true] = some s ∧
      ¬ ∃ fs, fs.Sublist [(⟨0, [35, 35, 0, 1, 0, 0, 0, 0], by decide⟩ : Frame)] ∧
        Decodes rawProtobuf pingPool s.returned fs := by
  refine ⟨by decide, ?_⟩
  have hview : (scriptReads nestedPolls [true, true]).map
      (fun s => s.returned.map RawMessage.typeName) = some ["Pong"] := by decide +kernel
  obtain ⟨s, hs, hret⟩ := Option.map_eq_some_iff.mp hview
  refine ⟨s, hs, ?_⟩
  rintro ⟨fs, hsub, hdec⟩
  obtain ⟨m, hm, hname⟩ := List.map_eq_singleton_iff.mp hret
  rw [hm] at hdec
  cases hdec with
  | cons h1 h2 =>
    cases h2
    have hf := List.singleton_sublist.mp hsub
    rw [List.mem_singleton] at hf
    subst hf
    have hping : (decode rawProtobuf pingPool 0 [35, 35, 0, 1, 0, 0, 0, 0]).toOption.map
        RawMessage.typeName = some "Ping" := by decide +kernel
    rw [h1] at hping
    simp [Except.toOption, hname] at hping

end TrezorPlugin
