import TrezorPlugin.StreamParser
import TrezorPlugin.Lib.Run

/-!
# Successive reads on one channel, and the bounds of its buffer

`readStep` is one `DeviceChannel::read` in a run of them: a read that throws
leaves the channel and the buffer to the next one.

`HIDBuffer.read` stores whole reports and looks at `_buffer_length` only between
them, so the last report of a payload of nearly 2048 bytes can reach past
`_buffer`.  `Overshoots` says of the reports to come that one does; `Fits` that
none does in the payload of the next header.

* `reads_stay_in_buffer`: a run whose reads all start where the reports fit
  never stores outside `_buffer`;
* `read_overflows`: a read that starts elsewhere stores outside it, or gives up before.
-/

namespace TrezorPlugin

open Framing

variable {err : Option WString} {enc : WString → Except Exception String}
variable {Msg : Type} (P : Protobuf Msg) (pool : DescriptorPool) (dev : Handle)

/-! ## Runs of reads -/

/-- A channel with its buffer, and the messages its reads returned. -/
structure Reading (Msg : Type) where
  io : IoState Poll Int
  returned : List Msg

/-- One `DeviceChannel::read(timeout)`; there is no next one if it does not come back. -/
def readStep (err : Option WString) (enc : WString → Except Exception String)
    (s : Reading Msg) (timeout : Bool) : Option (Reading Msg) :=
  match DeviceChannel.read (scriptEnv err enc) P pool dev timeout s.io with
  | .ok m io => some ⟨io, s.returned ++ [m]⟩
  | .error (.throws _) io => some ⟨io, s.returned⟩
  | .error _ _ => none

/-! ## Reports that overshoot the buffer -/

/-- Of the bytes `S` after a header that declares `n`, the report `t` is asked for while fewer than
`n` have arrived, and with it more than 2048 have. -/
def Overshoots (n : Nat) (S : List UInt8) (ts : List Poll) : Prop :=
  ∃ t post, (t :: post) <:+ ts ∧ S.length < n + (payloads (t :: post)).length ∧
    bufferSize + (payloads post).length < S.length

/-- No report overshoots in the payload of the next header, if that is read at all. -/
def Fits (s : IoState Poll Int) : Prop :=
  ∀ pad h S, s.buf.bytes ++ payloads s.ticks = pad ++ 35 :: 35 :: (h ++ S) → 35 ∉ pad →
    h.length = 6 → (fields h).2 ≤ bufferSize → ¬ Overshoots (fields h).2 S s.ticks

/-- Declared lengths up to 1986 fit however the stream is cut. -/
theorem fits_of_short {s : IoState Poll Int}
    (hs : ∀ pad h S, s.buf.bytes ++ payloads s.ticks = pad ++ 35 :: 35 :: (h ++ S) → 35 ∉ pad →
      h.length = 6 → (fields h).2 ≤ bufferSize → (fields h).2 ≤ 1986) : Fits s := by
  intro pad h S hu hpad h6 hle hover
  have hlong : (scriptFeed none fun _ => .ok "").Overflows 0 (fields h).2 S
      s.ticks := by
    obtain ⟨t, post, h1, h2, h3⟩ := hover
    exact ⟨0, t, post, h1, h2, h3⟩
  have := hlong.long
  have := hs pad h S hu hpad h6 hle
  omega

/-- And so does whatever the buffer can hold altogether. -/
theorem fits_of_length {s : IoState Poll Int}
    (hs : (s.buf.bytes ++ payloads s.ticks).length ≤ bufferSize) : Fits s := by
  rintro pad h S hu - - - ⟨t, post, -, -, hover⟩
  rw [hu] at hs
  simp only [List.length_append, List.length_cons] at hs
  omega

theorem read_undefined {timeout : Bool} {s s' : IoState Poll Int}
    (h : DeviceChannel.read (scriptEnv err enc) P pool dev timeout s = .error .undefined s') :
    ¬ Fits s := by
  intro hfit
  have hstop := halted_of_error P pool (scriptFeed err enc) h nofun
  obtain ⟨pad, hd, S, hu, hpad, h6, hle, d, t, post, h1, h2, h3⟩ := hstop.overflow rfl
  exact hfit pad hd S hu hpad h6 hle ⟨t, post, h1, h2, h3⟩

/-- **No store outside the buffer.**  In a run of reads that all start where the reports fit, no
read stores at an index of 2048 or more. -/
theorem reads_stay_in_buffer (s : Reading Msg) (calls : List Bool)
    (hfit : Run.Along (readStep P pool dev err enc) (fun s _ => Fits s.io) s calls)
    (before : List Bool) (timeout : Bool) (after : List Bool)
    (hcalls : calls = before ++ timeout :: after) (s1 : Reading Msg)
    (hrun : Run.run (readStep P pool dev err enc) s before = some s1) (s' : IoState Poll Int) :
    DeviceChannel.read (scriptEnv err enc) P pool dev timeout s1.io ≠ .error .undefined s' := by
  intro hread
  subst hcalls
  exact read_undefined P pool dev hread (Run.along_at _ _ hfit hrun)

/-- A header that declares 2048 bytes and the first 55 of them. -/
def header2048 : Report where
  bytes := 63 :: 35 :: 35 :: 0 :: 1 :: 0 :: 0 :: 8 :: 0 :: List.replicate 55 0
  nonempty := by simp
  fits := by decide

/-- 63 zero bytes. -/
def zeros63 : Report where
  bytes := 63 :: List.replicate 63 0
  nonempty := by simp
  fits := by decide

theorem length_payloads_replicate (n : Nat) :
    (payloads (List.replicate n ⟨.report zeros63, 0⟩)).length = n * 63 := by
  induction n with
  | zero => rfl
  | succ n ih =>
    rw [List.replicate_succ, show ∀ (t : Poll) ts, payloads (t :: ts) =
      t.result.payload ++ payloads ts from fun _ _ => rfl, List.length_append, ih, Nat.succ_mul,
      Nat.add_comm]
    rfl

/-- The last 40 bytes of a payload. -/
def zeros40 : Report where
  bytes := 40 :: List.replicate 40 0
  nonempty := by simp
  fits := by decide

/-- A frame with two payload bytes. -/
def pongPoll : Poll where
  result := .report
    { bytes := 10 :: frameBytes 1 [8, 1], nonempty := by simp, fits := by decide }
  clock := 0

/-- The declared 2048 bytes as 55, 31 times 63 and 40. -/
def fullPolls : List Poll :=
  ⟨.report header2048, 0⟩ :: (List.replicate 31 ⟨.report zeros63, 0⟩ ++
    [⟨.report zeros40, 0⟩, pongPoll])

def fullReading : Reading RawMessage := ⟨⟨.new, ⟨0, []⟩, fullPolls⟩, []⟩

abbrev fullStep : Reading RawMessage → Bool → Option (Reading RawMessage) :=
  readStep rawProtobuf pingPool 0 none fun _ => .ok ""

/-- What the first read leaves is what is behind the 2048 bytes. -/
theorem fullStep_leaves : ∃ s1, fullStep fullReading true = some s1 ∧ s1.returned.length = 1 ∧
    (s1.io.buf.bytes ++ payloads s1.io.ticks).length ≤ bufferSize := by
  have hview : (fullStep fullReading true).map (fun s => (s.returned.length,
      (s.io.buf.bytes ++ payloads s.io.ticks).length)) = some (1, 10) := by
    decide +kernel
  obtain ⟨s1, hs1, hs⟩ := Option.map_eq_some_iff.mp hview
  obtain ⟨hreturned, hleft⟩ := Prod.mk.injEq .. ▸ hs
  exact ⟨s1, hs1, hreturned, hleft ▸ by decide⟩

theorem length_fullPolls_behind : (payloads (List.replicate 31 ⟨.report zeros63, 0⟩ ++
    [⟨.report zeros40, 0⟩, pongPoll])).length = 2003 := by
  rw [payloads_append, List.length_append, length_payloads_replicate]
  rfl

/-- Its last report ends where the buffer does, and the next one comes after the payload. -/
theorem fullReading_fits : Fits fullReading.io := by
  intro pad h S hu hpad h6 hle
  have hfront : fullReading.io.buf.bytes ++ payloads fullReading.io.ticks =
      35 :: 35 :: ([0, 1, 0, 0, 8, 0] ++ (List.replicate 55 0 ++
        payloads (List.replicate 31 ⟨.report zeros63, 0⟩ ++ [⟨.report zeros40, 0⟩, pongPoll]))) := rfl
  rw [hfront] at hu
  obtain rfl : pad = [] := by
    cases pad with
    | nil => rfl
    | cons b pad =>
      exact absurd (List.cons.inj hu).1.symm fun hb => hpad (hb ▸ List.mem_cons_self)
  obtain ⟨rfl, rfl⟩ := List.append_inj (List.cons.inj (List.cons.inj hu).2).2 h6.symm
  rintro ⟨t, post, hsuf, hbefore, hover⟩
  rw [List.length_append, length_fullPolls_behind, List.length_replicate] at hbefore hover
  have hpong : [pongPoll] <:+ fullReading.io.ticks :=
    ⟨⟨.report header2048, 0⟩ :: (List.replicate 31 ⟨.report zeros63, 0⟩ ++
      [⟨.report zeros40, 0⟩]), by simp [fullReading, fullPolls]⟩
  have hten : (payloads [pongPoll]).length = 10 := by decide
  rw [show (fields [0, 1, 0, 0, 8, 0]).2 = 2048 from by decide] at hbefore
  rw [show bufferSize = 2048 from rfl] at hover
  have hlong : ¬ t :: post <:+ [pongPoll] := by
    rintro ⟨pre, hpre⟩
    have hcount := congrArg (fun ts => (payloads ts).length) hpre
    simp only [payloads_append, List.length_append, hten] at hcount
    omega
  rcases List.suffix_or_suffix_of_suffix hsuf hpong with hlast | hbehind
  · exact hlong hlast
  · rcases List.suffix_cons_iff.mp hbehind with heq | ⟨pre, hpre⟩
    · exact hlong (heq ▸ List.suffix_refl _)
    · rw [← hpre, payloads_append, List.length_append, hten] at hover
      omega

/-- A read that fills the buffer to its last byte, and the read after it. -/
theorem reads_stay_in_buffer_full :
    ∃ s1, fullStep fullReading true = some s1 ∧ s1.returned.length = 1 ∧
      ∀ s', DeviceChannel.read (scriptEnv none fun _ => .ok "") rawProtobuf pingPool 0 true s1.io ≠
        .error .undefined s' := by
  obtain ⟨s1, hs1, hreturned, hleft⟩ := fullStep_leaves
  refine ⟨s1, hs1, hreturned, reads_stay_in_buffer rawProtobuf pingPool 0 fullReading [true, true]
    ⟨fullReading_fits, ?_⟩ [true] true [] rfl s1 ?_⟩
  · intro t ht
    obtain rfl : s1 = t := Option.some.inj (hs1.symm.trans ht)
    exact ⟨fits_of_length hleft, fun _ _ => trivial⟩
  · rw [Run.run_cons_of _ hs1]
    rfl

/-! ## Where the reports do not fit -/

/-- A poll of a script that finds nothing and makes a read give up is a timeout. -/
theorem GivesUp.script_empty {timeout : Bool} {limit start d : Int} {t : Poll} {e : Stop}
    (h : GivesUp (scriptEnv err enc) dev timeout limit start d t e) (ht : t.result = .empty) :
    e = .throws .readTimeout := by
  cases h with
  | timedOut => rfl
  | interrupted _ _ hi => cases hi
  | device e hr =>
    rw [show ((scriptEnv err enc).hidReadTimeout d dev t).1 = t.result from rfl, ht] at hr
    cases hr

variable (err enc) in
/-- The loop does not get past a report that overshoots: it stores outside `_buffer`, or a poll
without a report makes it give up before, by a timeout if it is no error. -/
theorem fill_overshoots (n : Nat) (timeout : Bool) (start : Int) (t : Poll) (post ts : List Poll)
    (buf : HIDBuffer) (w : World Int) (hsuf : (t :: post) <:+ ts)
    (h1 : buf.bytes.length + (payloads ts).length < n + (payloads (t :: post)).length)
    (h2 : bufferSize + (payloads post).length < buf.bytes.length + (payloads ts).length) :
    ∃ e s', HIDBuffer.fill (scriptEnv err enc) dev n timeout start ts buf w = .error e s' ∧
      (e = .undefined ∨ ∃ t ∈ ts, (∀ r, t.result ≠ .report r) ∧
        (t.result = .empty → e = .throws .readTimeout)) := by
  induction ts generalizing buf w with
  | nil => simp at hsuf
  | cons u ts ih =>
    have hpost : (payloads (t :: post)).length ≤ (payloads (u :: ts)).length := by
      obtain ⟨pre, hpre⟩ := hsuf
      rw [← hpre, payloads_append, List.length_append]
      omega
    rcases HIDBuffer.fill_round (scriptEnv err enc) dev n timeout start u ts buf w (by omega) with
      ⟨buf', w', heq, -, -, hb, -⟩ | ⟨e, w', heq, -, -, hwhy⟩
    · rw [heq]
      have hlen : buf'.bytes.length + (payloads ts).length =
          buf.bytes.length + (payloads (u :: ts)).length := by
        rw [hb, List.length_append, Nat.add_assoc, ← List.length_append]
        rfl
      rcases List.suffix_cons_iff.mp hsuf with hcons | hsuf'
      · cases hcons
        have := buf'.fits
        omega
      · obtain ⟨e, s', hr, hwhy⟩ := ih buf' w' hsuf' (by omega) (by omega)
        refine ⟨e, s', hr, hwhy.imp_right ?_⟩
        rintro ⟨v, hv, hn⟩
        exact ⟨v, List.mem_cons_of_mem _ hv, hn⟩
    · exact ⟨e, _, heq, hwhy.imp And.left fun hg =>
        ⟨u, List.mem_cons_self, hg.not_report, hg.script_empty⟩⟩

variable (err enc) in
/-- **A read that starts where a report overshoots** does not come to the end of the payload: it
stores outside the buffer, or a poll without a report makes it give up before. -/
theorem read_overshoots (timeout : Bool) {s : IoState Poll Int} (h : ¬ Fits s) :
    ∃ e s', DeviceChannel.read (scriptEnv err enc) P pool dev timeout s = .error e s' ∧
      (e = .undefined ∨ ∃ t ∈ s.ticks, (∀ r, t.result ≠ .report r) ∧
        (t.result = .empty → e = .throws .readTimeout)) := by
  simp only [Fits, not_forall, not_not] at h
  obtain ⟨pad, hd, S, hu, hpad, h6, hle, t, post, hsuf, h1, h2⟩ := h
  have hparse : parse wire (s.buf.bytes ++ payloads s.ticks) =
      some (.frame (fields hd).1 (S.take (fields hd).2), S.drop (fields hd).2) := by
    have hm := parse_pad_magic wire hpad (hd ++ S)
    rw [body_fields wire h6, if_neg (show ¬ wire.maxLength < (fields hd).2 from Nat.not_lt.mpr hle),
      if_neg (by omega)] at hm
    rw [hu]
    exact hm
  unfold DeviceChannel.read
  rcases readHeader_cases (scriptFeed err enc) dev timeout s with
    ⟨pad', hd', s1, hh, hu1, hpad', h6', hp⟩ | ⟨s1, hh, hbad, -⟩ | ⟨e, s1, hh, hne, hstop⟩
  · rw [Exec.bind_ok hh]
    rw [scriptFeed_unread, scriptFeed_unread, hu] at hu1
    obtain ⟨rfl, hS⟩ : hd = hd' ∧ S = s1.buf.bytes ++ payloads s1.ticks := by
      have ha := congrArg (afterMagic wire) hu1
      rw [show (35 : UInt8) = wire.magic from rfl, afterMagic_pad wire hpad,
        afterMagic_pad wire hpad', List.cons.injEq] at ha
      exact List.append_inj ha.2 (by omega)
    have hf := fields_header h6
    generalize Bytes.hton16 (Bytes.le16 (hd.getD 0 0) (hd.getD 1 0)) = type at hf ⊢
    generalize Bytes.hton32 (Bytes.le32 (hd.getD 2 0) (hd.getD 3 0) (hd.getD 4 0) (hd.getD 5 0)) =
      length at hf ⊢
    rw [hf] at hle h1
    simp only [] at hle h1 ⊢
    rw [if_neg (Nat.not_lt.mpr hle)]
    have hlenS : S.length = s1.buf.bytes.length + (payloads s1.ticks).length := by
      rw [hS, List.length_append]
    have hsuf1 : (t :: post) <:+ s1.ticks := by
      rcases List.suffix_or_suffix_of_suffix hsuf hp.suffix with h | h
      · exact h
      · rcases List.suffix_cons_iff.mp h with h | ⟨pre, hpre⟩
        · exact h ▸ List.suffix_refl _
        · have := s1.buf.fits
          rw [← hpre, payloads_append, List.length_append] at h2
          omega
    obtain ⟨e, s2, hr, hwhy⟩ := fill_overshoots err enc dev length.toNat timeout
      ((scriptEnv err enc).time s1.world.dev) t post s1.ticks s1.buf s1.world hsuf1
      (by omega) (by omega)
    refine ⟨e, s2, Exec.bind_error ?_, hwhy.imp_right ?_⟩
    · unfold HIDBuffer.read
      simp only [hr]
    · rintro ⟨u, hu, hn⟩
      exact ⟨u, hp.suffix.subset hu, hn⟩
  · rw [scriptFeed_unread, hparse] at hbad
    cases hbad
  · refine ⟨e, s1, Exec.bind_error hh, ?_⟩
    rcases hstop.why with rfl | h | ⟨s0, rcv0, polls, u, hp, -, hts, hg, -⟩
    rotate_left
    · exact .inl h
    · exact .inr ⟨u, hp.suffix.subset (by rw [hts]; simp), hg.not_report, hg.script_empty⟩
    exfalso
    obtain ⟨rcv, hrcv, hnone, -⟩ := hstop.received (by simp)
    rw [scriptFeed_unread, scriptFeed_coming, hstop.ticks rfl,
      show payloads [] = [] from rfl, List.append_nil] at hrcv
    rw [hrcv, hnone] at hparse
    cases hparse

variable (err enc) in
theorem read_overflows (timeout : Bool) {s : IoState Poll Int} (h : ¬ Fits s) :
    ∃ e s', DeviceChannel.read (scriptEnv err enc) P pool dev timeout s = .error e s' ∧
      (e = .undefined ∨ ∃ t ∈ s.ticks, ∀ r, t.result ≠ .report r) := by
  obtain ⟨e, s', hr, hwhy⟩ := read_overshoots err enc P pool dev timeout h
  exact ⟨e, s', hr, hwhy.imp_right fun ⟨t, ht, hn, _⟩ => ⟨t, ht, hn⟩⟩

/-- A full report too many: the declared 2048 bytes arrive as 55 and 32 times 63. -/
theorem reads_overflow_at_2048 :
    ∃ s', DeviceChannel.read (scriptEnv none fun _ => .ok "") rawProtobuf pingPool 0 true
      ⟨.new, ⟨0, []⟩, ⟨.report header2048, 0⟩ :: List.replicate 32 ⟨.report zeros63, 0⟩⟩ =
        .error .undefined s' := by
  have hS : payloads (⟨.report header2048, 0⟩ :: List.replicate 32 ⟨.report zeros63, 0⟩) =
      [] ++ 35 :: 35 :: ([0, 1, 0, 0, 8, 0] ++
        (List.replicate 55 0 ++ payloads (List.replicate 32 ⟨.report zeros63, 0⟩))) := rfl
  have hfit : ¬ Fits ⟨.new, ⟨0, []⟩,
      ⟨.report header2048, 0⟩ :: List.replicate 32 ⟨.report zeros63, 0⟩⟩ := by
    intro h
    refine h [] [0, 1, 0, 0, 8, 0] _ hS (by simp) rfl (by decide) ⟨⟨.report zeros63, 0⟩, [], ?_, ?_, ?_⟩
    · exact ⟨⟨.report header2048, 0⟩ :: List.replicate 31 ⟨.report zeros63, 0⟩, by
        rw [List.cons_append, ← List.replicate_succ']⟩
    · rw [List.length_append, length_payloads_replicate]
      decide
    · rw [List.length_append, length_payloads_replicate]
      decide
  obtain ⟨e, s', hr, rfl | ⟨t, ht, hn⟩⟩ := read_overflows none (fun _ => .ok "")
    rawProtobuf pingPool 0 true hfit
  · exact ⟨s', hr⟩
  · rcases List.mem_cons.mp ht with rfl | ht
    · exact absurd rfl (hn _)
    · rw [List.eq_of_mem_replicate ht] at hn
      exact absurd rfl (hn _)

end TrezorPlugin
