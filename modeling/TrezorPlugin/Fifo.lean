import TrezorPlugin.Reads

/-!
# HIDBuffer.read as a queue

Bytes go in with the reports and come out of the reads that return:

    delivered ++ buffered = received

after every call of any sequence of calls, and in the middle of one, where a read
whose polls are used up stops.  `fill_filled` says what one run of the buffering
loop does, on every exit; `Fifo` adds to the buffer what went in and came out.
-/

namespace TrezorPlugin

variable {τ δ : Type} (E : Env τ δ)

/-- The payloads of the reports among these polls. -/
def Env.payloads (h : Handle) : δ → List τ → List UInt8
  | _, [] => []
  | d, t :: ts =>
    (E.hidReadTimeout d h t).1.payload ++ Env.payloads h (E.hidReadTimeout d h t).2 ts

/-- How the buffering loop ends, on whatever exit. -/
structure Filled (dev : Handle) (length : Nat) (d : δ) (buf : HIDBuffer) (ts : List τ)
    (res : EStateM.Result Stop (IoState τ δ) Unit) : Prop where
  defined : ∀ s', res ≠ .error .undefined s'
  enough : ∀ s', res = .ok () s' → length ≤ s'.buf.bytes.length
  /-- What the polls brought was appended, and the last report was asked for while bytes were
  missing. -/
  received : ∃ used, ts = used ++ (Exec.final res).ticks ∧
    (Exec.final res).buf.bytes = buf.bytes ++ E.payloads dev d used ∧
    (used ≠ [] → (Exec.final res).buf.bytes.length < length + 63)

/-- No poll was asked for. -/
theorem Filled.idle {dev : Handle} {length : Nat} {d : δ} {buf : HIDBuffer} {ts : List τ}
    {res : EStateM.Result Stop (IoState τ δ) Unit} (hdefined : ∀ s', res ≠ .error .undefined s')
    (henough : ∀ s', res = .ok () s' → length ≤ s'.buf.bytes.length)
    (hts : ts = (Exec.final res).ticks) (hbuf : (Exec.final res).buf = buf) :
    Filled E dev length d buf ts res where
  defined := hdefined
  enough := henough
  received := by
    refine ⟨[], hts, ?_, fun h => absurd rfl h⟩
    rw [hbuf, Env.payloads, List.append_nil]

theorem HIDBuffer.fill_filled (dev : Handle) {length : Nat} (hlength : length + 62 ≤ bufferSize)
    (timeout : Bool) (start : Int) (ts : List τ) (buf : HIDBuffer) (w : World δ) :
    Filled E dev length w.dev buf ts (HIDBuffer.fill E dev length timeout start ts buf w) := by
  induction ts generalizing buf w with
  | nil =>
    rw [HIDBuffer.fill]
    split
    · next hlen =>
      refine Filled.idle E (by simp) ?_ rfl rfl
      rintro s' ⟨⟩
      exact hlen
    · exact Filled.idle E (by simp) (by simp) rfl rfl
  | cons t ts ih =>
    rcases Nat.lt_or_ge buf.bytes.length length with hlen | hlen
    · have hp := (E.hidReadTimeout w.dev dev t).1.length_payload_le
      rcases HIDBuffer.fill_round E dev length timeout start t ts buf w hlen with
        ⟨buf', w', heq, hd, -, hb, -⟩ | ⟨e, w', heq, -, -, hwhy⟩
      · rw [heq]
        obtain ⟨hdef, henough, used, hts, hbytes, hshort⟩ := ih buf' w'
        refine ⟨hdef, henough, t :: used, congrArg (t :: ·) hts, ?_, ?_⟩
        · rw [hbytes, hb, hd, Env.payloads, List.append_assoc]
        · intro _
          cases used with
          | nil =>
            rw [hbytes, hb, Env.payloads, List.append_nil, List.length_append]
            omega
          | cons u used => exact hshort (List.cons_ne_nil u used)
      · rw [heq]
        rcases hwhy with ⟨rfl, hbig⟩ | hg
        · omega
        · have hundef : e ≠ .undefined := by
            rintro rfl
            cases hg
          refine ⟨?_, by simp, [t], rfl, ?_, ?_⟩
          · intro s' h
            cases h
            exact hundef rfl
          · rw [Env.payloads, hg.payload]
            exact (List.append_nil _).symm
          · intro _
            show buf.bytes.length < length + 63
            omega
    · rw [HIDBuffer.fill, if_pos hlen]
      refine Filled.idle E (by simp) ?_ rfl rfl
      rintro s' ⟨⟩
      exact hlen

/-! ## Runs of calls -/

/-- One call of `read`: on which handle, for how many bytes, with which devices and polls. -/
structure ReadCall (τ δ : Type) where
  dev : Handle
  length : Nat
  timeout : Bool
  world : World δ
  ticks : List τ

/-- The call on this buffer. -/
def ReadCall.run (c : ReadCall τ δ) (buf : HIDBuffer) :
    EStateM.Result Stop (IoState τ δ) (List UInt8) :=
  HIDBuffer.read E c.dev c.length c.timeout ⟨buf, c.world, c.ticks⟩

/-- What was received in the call, when it ends in `s'`. -/
def ReadCall.received (c : ReadCall τ δ) (s' : IoState τ δ) : List UInt8 :=
  E.payloads c.dev c.world.dev (c.ticks.take (c.ticks.length - s'.ticks.length))

/-- The buffer, with the bytes that came out of it and went into it. -/
structure Fifo where
  buf : HIDBuffer
  delivered : List UInt8
  received : List UInt8

/-- One call; not possible if it stores outside `_buffer`. -/
def Fifo.read (s : Fifo) (c : ReadCall τ δ) : Option Fifo :=
  match c.run E s.buf with
  | .ok bytes io => some ⟨io.buf, s.delivered ++ bytes, s.received ++ c.received E io⟩
  | .error .undefined _ => none
  | .error _ io => some ⟨io.buf, s.delivered, s.received ++ c.received E io⟩

theorem take_used {ts used rest : List τ} (h : ts = used ++ rest) :
    ts.take (ts.length - rest.length) = used := by
  subst h
  simp

/-- What one call does to the bytes. -/
theorem ReadCall.run_cases (c : ReadCall τ δ) (hlength : c.length + 62 ≤ bufferSize)
    (buf : HIDBuffer) :
    (∃ bytes io, c.run E buf = .ok bytes io ∧ bytes.length = c.length ∧
      bytes ++ io.buf.bytes = buf.bytes ++ c.received E io ∧
      (io.ticks ≠ c.ticks → io.buf.bytes.length ≤ 62)) ∨
    ∃ e io, c.run E buf = .error e io ∧ e ≠ .undefined ∧
      io.buf.bytes = buf.bytes ++ c.received E io := by
  obtain ⟨hdef, henough, used, hts, hbytes, hshort⟩ := HIDBuffer.fill_filled E c.dev hlength
    c.timeout (E.time c.world.dev) c.ticks buf c.world
  unfold ReadCall.run HIDBuffer.read
  simp only []
  cases hfill : HIDBuffer.fill E c.dev c.length c.timeout (E.time c.world.dev) c.ticks buf
    c.world with
  | ok u io =>
    rw [hfill, Exec.final_ok] at hts hbytes hshort
    have hlen := henough io hfill
    refine .inl ⟨_, _, rfl, ?_, ?_, ?_⟩
    · rw [List.length_take, Nat.min_eq_left hlen]
    · rw [HIDBuffer.shift_bytes, List.take_append_drop, hbytes]
      exact congrArg (fun l => buf.bytes ++ E.payloads c.dev c.world.dev l) (take_used hts).symm
    · intro hticks
      have hused : used ≠ [] := by
        rintro rfl
        exact hticks hts.symm
      have := hshort hused
      simp only [HIDBuffer.shift_bytes, List.length_drop]
      omega
  | error e io =>
    rw [hfill, Exec.final_error] at hts hbytes
    refine .inr ⟨e, io, rfl, ?_, ?_⟩
    · rintro rfl
      exact hdef io hfill
    · rw [hbytes, ReadCall.received, take_used hts]

theorem Fifo.read_step {s : Fifo} {c : ReadCall τ δ} (hlength : c.length + 62 ≤ bufferSize)
    (h : s.delivered ++ s.buf.bytes = s.received) :
    ∃ s', s.read E c = some s' ∧ s'.delivered ++ s'.buf.bytes = s'.received := by
  unfold Fifo.read
  rcases c.run_cases E hlength s.buf with ⟨bytes, io, heq, -, hbytes, -⟩ | ⟨e, io, heq, hdef, hbytes⟩
  · rw [heq]
    refine ⟨_, rfl, ?_⟩
    rw [List.append_assoc, hbytes, ← List.append_assoc, h]
  · rw [heq]
    cases e with
    | undefined => exact absurd rfl hdef
    | throws | threadInterrupted | pending =>
      refine ⟨_, rfl, ?_⟩
      rw [hbytes, ← List.append_assoc, h]

theorem Fifo.run_lossless {calls : List (ReadCall τ δ)}
    (hlength : ∀ c ∈ calls, c.length + 62 ≤ bufferSize) {s : Fifo}
    (h : s.delivered ++ s.buf.bytes = s.received) :
    ∃ s', Run.run (Fifo.read E) s calls = some s' ∧
      s'.delivered ++ s'.buf.bytes = s'.received := by
  induction calls generalizing s with
  | nil => exact ⟨s, rfl, h⟩
  | cons c calls ih =>
    rw [List.forall_mem_cons] at hlength
    obtain ⟨t, hstep, ht⟩ := Fifo.read_step E hlength.1 h
    obtain ⟨s', hrun, hs'⟩ := ih hlength.2 ht
    exact ⟨s', (Run.run_cons_of _ hstep calls).trans hrun, hs'⟩

/-- **A lossless queue.**  A buffer that starts empty never stores outside `_buffer` in any sequence
of short enough reads, and what was delivered with what is buffered is what was received.  Each
further read then delivers as many bytes as it was asked for off the front and leaves at most 62
behind if it polled, or throws with nothing delivered and nothing discarded. -/
theorem reads_are_lossless (E : Env τ δ) (buf : HIDBuffer) (hempty : buf.bytes = [])
    (calls : List (ReadCall τ δ)) (hlength : ∀ c ∈ calls, c.length ≤ bufferSize - 62) :
    ∃ s, Run.run (Fifo.read E) ⟨buf, [], []⟩ calls = some s ∧
      s.delivered ++ s.buf.bytes = s.received ∧ s.buf.bytes.length ≤ bufferSize ∧
      ∀ c : ReadCall τ δ, c.length ≤ bufferSize - 62 →
        (∃ bytes io, c.run E s.buf = .ok bytes io ∧ bytes.length = c.length ∧
          bytes ++ io.buf.bytes = s.buf.bytes ++ c.received E io ∧
          (io.ticks ≠ c.ticks → io.buf.bytes.length ≤ 62)) ∨
        ∃ e io, c.run E s.buf = .error e io ∧ e ≠ .undefined ∧
          io.buf.bytes = s.buf.bytes ++ c.received E io := by
  have hshort : ∀ n, n ≤ bufferSize - 62 → n + 62 ≤ bufferSize := fun n hn => by
    have : bufferSize = 2048 := rfl
    omega
  obtain ⟨s, hrun, hs⟩ := Fifo.run_lossless E (s := ⟨buf, [], []⟩)
    (fun c hc => hshort c.length (hlength c hc)) hempty
  exact ⟨s, hrun, hs, s.buf.fits, fun c hc => c.run_cases E (hshort c.length hc) s.buf⟩

/-- Two reports, with 2 and 1 bytes of payload, an empty poll, and an error. -/
def fifoPolls : List Poll :=
  [⟨.report ⟨[2, 7, 8, 9], by decide, by decide⟩, 0⟩, ⟨.empty, 1⟩,
    ⟨.report ⟨[1, 5], by decide, by decide⟩, 2⟩, ⟨.error, 2⟩]

theorem reads_are_lossless_three :
    ∃ s, Run.run (Fifo.read (scriptEnv none fun _ => .ok "")) ⟨.new, [], []⟩
        [⟨0, 1, true, ⟨0, []⟩, fifoPolls⟩, ⟨0, 3, true, ⟨0, []⟩, fifoPolls.drop 1⟩] = some s ∧
      s.delivered ++ s.buf.bytes = s.received ∧ s.buf.bytes.length ≤ bufferSize := by
  obtain ⟨s, hrun, hs, hlen, -⟩ := reads_are_lossless (scriptEnv none fun _ => .ok "") .new rfl
    [⟨0, 1, true, ⟨0, []⟩, fifoPolls⟩, ⟨0, 3, true, ⟨0, []⟩, fifoPolls.drop 1⟩] (by decide)
  exact ⟨s, hrun, hs, hlen⟩

end TrezorPlugin
