import TrezorPlugin.RoundTrip
import TrezorPlugin.Executor

/-!
# Failed writes

`HIDBuffer.write` compares the `int` that `hid_write` returned with `sizeof(chunk)`,
a `size_t`.  Of the results hidapi.h documents, 0 to 64 and -1,

    0 … 63   short: WriteError          64   accepted: go on          -1   2^64 - 1: go on

so a failed write is reported at the first chunk that is not accepted exactly when
that chunk was written short (`writePieces_reported_iff`).
-/

namespace TrezorPlugin

variable {τ δ κ Msg Map : Type} (E : Env τ δ)

/-- The results of `hid_write` for chunks sent one after the other, and the devices after each. -/
def Env.writes (h : Handle) : δ → List (List UInt8) → List (Int × δ)
  | _, [] => []
  | d, chunk :: chunks => E.hidWrite d h chunk :: Env.writes h (E.hidWrite d h chunk).2 chunks

/-- What `hid_write` is documented to return for 64 bytes. -/
def Documented (results : List (Int × δ)) : Prop := ∀ r ∈ results, -1 ≤ r.1 ∧ r.1 ≤ 64

/-- `r` is the first result that is not 64. -/
def FirstFailure (results before : List (Int × δ)) (r : Int × δ) : Prop :=
  ∃ after, results = before ++ r :: after ∧ (∀ b ∈ before, b.1 = 64) ∧ r.1 ≠ 64

/-- The write returned with all chunks accepted; or it threw with hidapi's text for the first chunk
that was not, and sent no chunk after that. -/
def ReportedAs (dev : Handle) (chunks : List (List UInt8)) (s : IoState τ δ) :
    EStateM.Result Stop (IoState τ δ) Unit → Prop
  | .ok () s' => (∀ r ∈ E.writes dev s.world.dev chunks, r.1 = 64) ∧
      writtenChunks s'.world.trace = writtenChunks s.world.trace ++ chunks
  | .error (.throws (.writeError text)) s' =>
    ∃ before r, FirstFailure (E.writes dev s.world.dev chunks) before r ∧
      E.errorText r.2 dev = .ok text ∧
      writtenChunks s'.world.trace = writtenChunks s.world.trace ++ chunks.take (before.length + 1)
  | .error _ _ => False

/-- The first result that is not 64 is no error code, and hidapi's text for it can be encoded. -/
def ShortFirst (dev : Handle) (results : List (Int × δ)) : Prop :=
  ∀ before r, FirstFailure results before r → 0 ≤ r.1 ∧ ∃ text, E.errorText r.2 dev = .ok text

theorem sizeT_lt_iff {res : Int} (h : -1 ≤ res ∧ res ≤ 64) :
    sizeT res < 64 ↔ 0 ≤ res ∧ res ≠ 64 := by
  unfold sizeT
  omega

theorem firstFailure_cons_accepted {r r' : Int × δ} {results before : List (Int × δ)}
    (h : r.1 = 64) : FirstFailure (r :: results) before r' ↔
      ∃ before', before = r :: before' ∧ FirstFailure results before' r' := by
  constructor
  · rintro ⟨after, heq, hbefore, hr'⟩
    cases before with
    | nil =>
      cases heq
      exact absurd h hr'
    | cons b before =>
      cases heq
      exact ⟨before, rfl, after, rfl, (List.forall_mem_cons.mp hbefore).2, hr'⟩
  · rintro ⟨before', rfl, after, rfl, hbefore, hr'⟩
    exact ⟨after, rfl, List.forall_mem_cons.mpr ⟨h, hbefore⟩, hr'⟩

theorem firstFailure_cons_failed {r r' : Int × δ} {results before : List (Int × δ)}
    (h : r.1 ≠ 64) : FirstFailure (r :: results) before r' ↔ before = [] ∧ r' = r := by
  constructor
  · rintro ⟨after, heq, hbefore, -⟩
    cases before with
    | nil =>
      cases heq
      exact ⟨rfl, rfl⟩
    | cons b before =>
      cases heq
      exact absurd (hbefore r List.mem_cons_self) h
  · rintro ⟨rfl, rfl⟩
    exact ⟨results, rfl, nofun, h⟩

theorem shortFirst_cons_accepted {dev : Handle} {r : Int × δ} {results : List (Int × δ)}
    (h : r.1 = 64) : ShortFirst E dev (r :: results) ↔ ShortFirst E dev results := by
  simp only [ShortFirst, firstFailure_cons_accepted h]
  constructor
  · intro hs before r' hf
    exact hs _ r' ⟨before, rfl, hf⟩
  · rintro hs _ r' ⟨before, -, hf⟩
    exact hs before r' hf

theorem shortFirst_cons_failed {dev : Handle} {r : Int × δ} {results : List (Int × δ)}
    (h : r.1 ≠ 64) : ShortFirst E dev (r :: results) ↔
      0 ≤ r.1 ∧ ∃ text, E.errorText r.2 dev = .ok text := by
  simp only [ShortFirst, firstFailure_cons_failed h]
  constructor
  · intro hs
    exact hs [] r ⟨rfl, rfl⟩
  · rintro hs before r' ⟨-, rfl⟩
    exact hs

/-! ## The loop -/

/-- The state after one chunk. -/
def IoState.wrote (dev : Handle) (chunk : List UInt8) (s : IoState τ δ) : IoState τ δ :=
  ⟨s.buf, s.world.locked [.write dev chunk (E.hidWrite s.world.dev dev chunk).1]
    (E.hidWrite s.world.dev dev chunk).2, s.ticks⟩

@[simp] theorem IoState.wrote_dev (dev : Handle) (chunk : List UInt8) (s : IoState τ δ) :
    (s.wrote E dev chunk).world.dev = (E.hidWrite s.world.dev dev chunk).2 := rfl

theorem IoState.writtenChunks_wrote (dev : Handle) (chunk : List UInt8) (s : IoState τ δ) :
    writtenChunks (s.wrote E dev chunk).world.trace = writtenChunks s.world.trace ++ [chunk] :=
  writtenChunks_append _ _

theorem writePieces_accepted {dev : Handle} {piece : List UInt8} {pieces : List (List UInt8)}
    {s : IoState τ δ} (h : ¬ sizeT (E.hidWrite s.world.dev dev (writeChunk piece)).1 < 64) :
    HIDBuffer.writePieces E dev (piece :: pieces) s =
      HIDBuffer.writePieces E dev pieces (s.wrote E dev (writeChunk piece)) := by
  rw [HIDBuffer.writePieces]
  simp only [if_neg h]
  rfl

theorem writePieces_failed {dev : Handle} {piece : List UInt8} (pieces : List (List UInt8))
    {s : IoState τ δ} (h : sizeT (E.hidWrite s.world.dev dev (writeChunk piece)).1 < 64) :
    ∃ s', writtenChunks s'.world.trace = writtenChunks s.world.trace ++ [writeChunk piece] ∧
      s'.ticks = s.ticks ∧
      HIDBuffer.writePieces E dev (piece :: pieces) s =
        match E.errorText (E.hidWrite s.world.dev dev (writeChunk piece)).2 dev with
        | .ok text => .error (.throws (.writeError text)) s'
        | .error e => .error (.throws e) s' := by
  refine ⟨⟨s.buf, (s.wrote E dev (writeChunk piece)).world.locked [.error dev]
    (E.hidWrite s.world.dev dev (writeChunk piece)).2, s.ticks⟩, ?_, rfl, ?_⟩
  · rw [World.locked_trace, writtenChunks_append, IoState.writtenChunks_wrote]
    exact List.append_nil _
  · rw [HIDBuffer.writePieces]
    simp only [if_pos h]
    rfl

/-- A write that throws has sent a chunk. -/
theorem writePieces_error_sent {dev : Handle} {pieces : List (List UInt8)} {s s' : IoState τ δ}
    {e : Stop} (h : HIDBuffer.writePieces E dev pieces s = .error e s') :
    (writtenChunks s.world.trace).length < (writtenChunks s'.world.trace).length := by
  induction pieces generalizing s with
  | nil => cases h
  | cons piece pieces ih =>
    by_cases hlt : sizeT (E.hidWrite s.world.dev dev (writeChunk piece)).1 < 64
    · obtain ⟨s'', hsent, -, heq⟩ := writePieces_failed E pieces hlt
      rw [heq] at h
      have hs : s'' = s' := by split at h <;> cases h <;> rfl
      rw [← hs, hsent, List.length_append]
      simp
    · rw [writePieces_accepted E hlt] at h
      have := ih h
      rw [IoState.writtenChunks_wrote, List.length_append] at this
      omega

theorem reportedAs_cons_accepted {dev : Handle} {chunk : List UInt8} {chunks : List (List UInt8)}
    {s : IoState τ δ} (h : (E.hidWrite s.world.dev dev chunk).1 = 64)
    (res : EStateM.Result Stop (IoState τ δ) Unit) :
    ReportedAs E dev (chunk :: chunks) s res ↔ ReportedAs E dev chunks (s.wrote E dev chunk) res := by
  have hsent : ∀ l, writtenChunks s.world.trace ++ chunk :: l =
      writtenChunks (s.wrote E dev chunk).world.trace ++ l := fun l => by
    rw [IoState.writtenChunks_wrote, List.append_assoc]
    rfl
  cases res with
  | ok u s' => simp only [ReportedAs, Env.writes, List.forall_mem_cons, h, true_and, hsent,
      IoState.wrote_dev]
  | error e s' =>
    cases e with
    | throws e =>
      cases e with
      | writeError text =>
        simp only [ReportedAs, Env.writes, firstFailure_cons_accepted h, IoState.wrote_dev]
        constructor
        · rintro ⟨_, r, ⟨before, rfl, hf⟩, htext, hs⟩
          exact ⟨before, r, hf, htext, hs.trans (hsent _)⟩
        · rintro ⟨before, r, hf, htext, hs⟩
          exact ⟨_, r, ⟨before, rfl, hf⟩, htext, hs.trans (hsent _).symm⟩
      | _ => rfl
    | _ => rfl

theorem writePieces_reported_iff {dev : Handle} {pieces : List (List UInt8)} {s : IoState τ δ}
    (hdoc : Documented (E.writes dev s.world.dev (pieces.map writeChunk))) :
    ReportedAs E dev (pieces.map writeChunk) s (HIDBuffer.writePieces E dev pieces s) ↔
      ShortFirst E dev (E.writes dev s.world.dev (pieces.map writeChunk)) := by
  induction pieces generalizing s with
  | nil =>
    apply iff_of_true ⟨nofun, (List.append_nil _).symm⟩
    rintro before r ⟨after, heq, -⟩
    cases before <;> cases heq
  | cons piece pieces ih =>
    rw [List.map_cons, Env.writes] at hdoc ⊢
    obtain ⟨hr, hdoc⟩ := List.forall_mem_cons.mp hdoc
    have hsize := sizeT_lt_iff hr
    by_cases h64 : (E.hidWrite s.world.dev dev (writeChunk piece)).1 = 64
    · rw [writePieces_accepted E fun hlt => (hsize.mp hlt).2 h64, reportedAs_cons_accepted E h64,
        shortFirst_cons_accepted E h64]
      exact ih hdoc
    · rw [shortFirst_cons_failed E h64]
      by_cases hneg : 0 ≤ (E.hidWrite s.world.dev dev (writeChunk piece)).1
      · -- a short write: the chunk is the last one sent
        obtain ⟨s', hsent, -, heq⟩ := writePieces_failed E pieces (hsize.mpr ⟨hneg, h64⟩)
        rw [heq]
        cases htext : E.errorText (E.hidWrite s.world.dev dev (writeChunk piece)).2 dev with
        | ok text =>
          refine iff_of_true ⟨[], _, ?_, htext, hsent⟩ ⟨hneg, text, rfl⟩
          exact (firstFailure_cons_failed h64).mpr ⟨rfl, rfl⟩
        | error e =>
          refine iff_of_false ?_ fun h => nomatch h.2
          intro hrep
          cases e with
          | writeError text =>
            obtain ⟨before, r, hf, hok, -⟩ := hrep
            obtain ⟨rfl, rfl⟩ := (firstFailure_cons_failed h64).mp hf
            rw [htext] at hok
            cases hok
          | _ => exact hrep
      · -- the error code passes for a large size
        refine iff_of_false ?_ fun h => hneg h.1
        intro hrep
        rw [writePieces_accepted E fun hlt => hneg (hsize.mp hlt).1] at hrep
        cases hres : HIDBuffer.writePieces E dev pieces (s.wrote E dev (writeChunk piece)) with
        | ok u s' =>
          rw [hres] at hrep
          exact h64 (hrep.1 _ List.mem_cons_self)
        | error e s' =>
          have hmore := writePieces_error_sent E hres
          rw [hres] at hrep
          rw [IoState.writtenChunks_wrote, List.length_append] at hmore
          cases e with
          | throws e =>
            cases e with
            | writeError text =>
              obtain ⟨before, r, hf, -, hs⟩ := hrep
              obtain ⟨rfl, rfl⟩ := (firstFailure_cons_failed h64).mp hf
              rw [hs, List.length_append] at hmore
              simp at hmore
            | _ => exact hrep
          | _ => exact hrep

/-- A write polls nothing. -/
theorem writePieces_ticks (dev : Handle) (pieces : List (List UInt8)) (s : IoState τ δ) :
    (Exec.final (HIDBuffer.writePieces E dev pieces s)).ticks = s.ticks := by
  induction pieces generalizing s with
  | nil => rfl
  | cons piece pieces ih =>
    by_cases hlt : sizeT (E.hidWrite s.world.dev dev (writeChunk piece)).1 < 64
    · obtain ⟨s', -, hticks, heq⟩ := writePieces_failed E pieces hlt
      rw [heq, ← hticks]
      split <;> rfl
    · rw [writePieces_accepted E hlt]
      exact ih (s.wrote E dev (writeChunk piece))

/-! ## Calls -/

/-- The chunks sent for a byte string. -/
def writeChunks (bytes : List UInt8) : List (List UInt8) := (Bytes.chunks 63 bytes).map writeChunk

/-- A failed write of a frame that is reported at its first chunk not accepted. -/
theorem write_throws {dev : Handle} {bytes : List UInt8} {s : IoState τ δ}
    (hdoc : Documented (E.writes dev s.world.dev (writeChunks bytes)))
    (hshort : ShortFirst E dev (E.writes dev s.world.dev (writeChunks bytes)))
    (hfailed : ∃ r ∈ E.writes dev s.world.dev (writeChunks bytes), r.1 ≠ 64) :
    ∃ text s', HIDBuffer.write E dev bytes s = .error (.throws (.writeError text)) s' ∧
      s'.ticks = s.ticks := by
  have hrep := (writePieces_reported_iff E hdoc).mpr hshort
  have hticks := writePieces_ticks E dev (Bytes.chunks 63 bytes) s
  unfold HIDBuffer.write
  cases hres : HIDBuffer.writePieces E dev (Bytes.chunks 63 bytes) s with
  | ok u s' =>
    rw [hres] at hrep
    obtain ⟨r, hr, hne⟩ := hfailed
    exact absurd (hrep.1 r hr) hne
  | error e s' =>
    rw [hres] at hrep hticks
    cases e with
    | throws e =>
      cases e with
      | writeError text => exact ⟨text, s', rfl, hticks⟩
      | _ => exact absurd hrep id
    | _ => exact absurd hrep id

/-- **A failed write is reported**, at the first chunk that is not accepted, exactly when that was
written short and hidapi's text can be encoded.  A call whose frame is so written ends in its error
callback without a poll. -/
theorem failed_write_reported_iff (E : Env τ δ) :
    (∀ (dev : Handle) (bytes : List UInt8) (s : IoState τ δ),
      Documented (E.writes dev s.world.dev (writeChunks bytes)) →
      (ReportedAs E dev (writeChunks bytes) s (HIDBuffer.write E dev bytes s) ↔
        ShortFirst E dev (E.writes dev s.world.dev (writeChunks bytes)))) ∧
    ∀ (P : Protobuf Msg) (J : Scripting κ Msg Map) (pool : DescriptorPool) (path : String)
      (job : DeviceCallJob κ Map) (s₀ s : ExecState τ δ κ Map) (ch : DeviceChannel)
      (buf : HIDBuffer) (inmsg m : Msg) (type : UInt16),
      (do ensureBuffer; ensureChannel E path) s₀ = .ok () s →
      s.channel = some ch → s.heap ch.buffer = some buf →
      createMessage P pool job.typeName = .ok inmsg →
      J.messageFromMap inmsg job.messageMap = .ok m → messageTypeOf P pool m = .ok type →
      let results := E.writes ch.device s.world.dev (writeChunks (frameBytes type (P.serialize m)))
      Documented results → ShortFirst E ch.device results → (∃ r ∈ results, r.1 ≠ 64) →
      ∃ text s', s'.ticks = s.ticks ∧ s'.fired = s.fired ∧
        execute E P J pool path (.callJob job) s₀ =
          invokeAsync J job.callbacks (.error (Exception.writeError text).what) s' := by
  refine ⟨fun dev bytes s hdoc => writePieces_reported_iff E hdoc, ?_⟩
  intro P J pool path job s₀ s ch buf inmsg m type hensure hch hbuf hin hm htype results hdoc hshort
    hfailed
  obtain ⟨text, io, hwrite, hticks⟩ : ∃ text io,
      HIDBuffer.write E ch.device (frameBytes type (P.serialize m)) ⟨buf, s.world, s.ticks⟩ =
        .error (.throws (.writeError text)) io ∧ io.ticks = s.ticks :=
    write_throws E hdoc hshort hfailed
  have hchannel : DeviceChannel.write E P pool ch.device m ⟨buf, s.world, s.ticks⟩ =
      .error (.throws (.writeError text)) io := by
    unfold DeviceChannel.write
    rw [htype]
    exact hwrite
  obtain ⟨s', hon, hticks', hfired⟩ := onChannel_throws
    (fun dev => DeviceChannel.write E P pool dev m) hch hbuf hchannel
  have hcall : call E P J pool job s = .error (.throws (.writeError text)) s' := by
    unfold call
    rw [hin, Exec.bind_ok (show liftExcept (Except.ok inmsg) s = .ok inmsg s from rfl), hm,
      Exec.bind_ok (show liftExcept (Except.ok m) s = .ok m s from rfl)]
    exact Exec.bind_error hon
  refine ⟨text, s', hticks'.trans hticks, hfired, ?_⟩
  obtain ⟨_, s₁, hbuffer, hopen⟩ := Exec.of_bind_ok hensure
  unfold execute reporting
  simp only [Exec.bind_ok hbuffer, Exec.bind_ok hopen, hcall]

/-- A device whose `hid_write` returns these results in turn. -/
def resultsEnv : Env Unit (List Int) where
  hidEnumerate results := ([], results)
  hidOpenPath results _ := (some 0, results)
  hidSendFeatureReport results _ _ := results
  hidClose results _ := results
  hidWrite results _ _ := (results.headD 64, results.tail)
  hidReadTimeout results _ _ := (.empty, results)
  hidError _ _ := none
  time _ := 0
  interruptionRequested _ := false
  utf8Encode _ := .ok ""

/-- An executor with an open channel. -/
def openedState (results : List Int) : ExecState Unit (List Int) Nat (List UInt8) :=
  ⟨some 0, some ⟨0, 0⟩, fun _ => some .new, 1, ⟨results, []⟩, [], []⟩

theorem failed_write_reported_iff_short :
    ReportedAs resultsEnv 0 (writeChunks (List.replicate 64 7)) ⟨.new, ⟨[64, 5], []⟩, []⟩
      (HIDBuffer.write resultsEnv 0 (List.replicate 64 7) ⟨.new, ⟨[64, 5], []⟩, []⟩) ∧
    ∃ text s', s'.ticks = [] ∧ s'.fired = [] ∧
      execute resultsEnv rawProtobuf rawScripting pingPool "path" (.callJob ⟨true, "Ping", [], 3⟩)
        (openedState [5]) = invokeAsync rawScripting 3 (.error (Exception.writeError text).what) s' := by
  have htwo : resultsEnv.writes 0 [64, 5] (writeChunks (List.replicate 64 7)) =
      [(64, [5]), (5, [])] := rfl
  have hone : resultsEnv.writes 0 [5] (writeChunks (frameBytes 0 (rawProtobuf.serialize pingMessage))) =
      [(5, [])] := rfl
  have hshort : ShortFirst resultsEnv 0 [(5, ([] : List Int))] :=
    (shortFirst_cons_failed resultsEnv (by decide)).mpr ⟨by decide, _, rfl⟩
  constructor
  · refine ((@failed_write_reported_iff Unit (List Int) Nat RawMessage (List UInt8) resultsEnv).1 0
      (List.replicate 64 7) ⟨.new, ⟨[64, 5], []⟩, []⟩ ?_).mpr ?_
    · rw [htwo]
      simp [Documented]
    · rw [htwo]
      exact (shortFirst_cons_accepted resultsEnv rfl).mpr hshort
  · refine (@failed_write_reported_iff Unit (List Int) Nat RawMessage (List UInt8) resultsEnv).2
      rawProtobuf rawScripting pingPool "path" ⟨true, "Ping", [], 3⟩ (openedState [5])
      (openedState [5]) ⟨0, 0⟩ .new pingMessage pingMessage 0 rfl rfl rfl rfl rfl ?_ ?_ ?_ ?_
    · decide
    · rw [show (openedState [5]).world.dev = [5] from rfl, hone]
      simp [Documented]
    · rw [show (openedState [5]).world.dev = [5] from rfl, hone]
      exact hshort
    · rw [show (openedState [5]).world.dev = [5] from rfl, hone]
      exact ⟨_, List.mem_cons_self, by decide⟩

theorem failed_write_not_reported :
    (∃ s', HIDBuffer.write resultsEnv 0 [7] ⟨.new, ⟨[-1], []⟩, []⟩ = .ok () s') ∧
    Documented (resultsEnv.writes 0 [-1] (writeChunks [7])) ∧
    ¬ ReportedAs resultsEnv 0 (writeChunks [7]) ⟨.new, ⟨[-1], []⟩, []⟩
      (HIDBuffer.write resultsEnv 0 [7] ⟨.new, ⟨[-1], []⟩, []⟩) := by
  have hone : resultsEnv.writes 0 [-1] (writeChunks [7]) = [(-1, [])] := rfl
  refine ⟨⟨_, rfl⟩, ?_, ?_⟩
  · rw [hone]
    simp [Documented]
  · intro hrep
    have h := (hrep : (∀ r ∈ resultsEnv.writes 0 [-1] (writeChunks [7]), r.1 = 64) ∧ _).1
    rw [hone] at h
    exact absurd (h _ List.mem_cons_self) (by decide)

end TrezorPlugin
