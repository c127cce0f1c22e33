import TrezorPlugin.Resources
import TrezorPlugin.Communicator
import TrezorPlugin.RoundTrip

/-!
# Requests and responses over one executor

A device that answers: it takes chunks in, answers the complete request frames
among them one by one, in order, when it gets to it, and delivers the bytes of
its responses report by report.

    unread bytes = buffered ++ on their way ++ responses to what it has received   (deviceFeed)

A call that starts `Quiet`, with no `'#'` owed to it, and whose request is `ArrivesWhole`,
with no chunk lost unnoticed, reads its own response (`success_is_own_response`);
as long as no call fails all start quiet (`quiet_of_calls_succeed`).  A call that
fails between its request and its response keeps the channel, and the answer to
come.
-/

namespace TrezorPlugin

open Framing

/-! ## The device -/

/-- The frames of requests: any 32-bit length. -/
def requests : Format := ⟨35, 2 ^ 32⟩

/-- One well-formed response frame, with padding behind it. -/
structure Response where
  frame : Frame
  padding : List UInt8
  clean : 35 ∉ padding

def Response.bytes (r : Response) : List UInt8 := r.frame.encode wire ++ r.padding

/-- What a device decides, in its own state `σ`. -/
structure Device (σ : Type) where
  answer : σ → Frame → Response × σ
  openPath : σ → String → Option Handle × σ
  /-- What `hid_write` returns, and if that is not the 64 bytes of a chunk, -1 or too few, whether the
  chunk arrives all the same. -/
  write : σ → List UInt8 → Int × Bool × σ
  /-- How many of the request and of the response bytes under way a feature report drops. -/
  feature : σ → List UInt8 → Nat × Nat × σ
  close : σ → Nat × Nat × σ

structure DeviceState (σ : Type) where
  core : σ
  /-- Request bytes received and not yet answered. -/
  inbox : List UInt8
  /-- Response bytes not yet delivered. -/
  outbox : List UInt8
  /-- The requests answered so far, with their responses. -/
  answered : List (Frame × Response)
  clock : Int

/-- What a poll finds. -/
inductive Arrival
  | nothing
  /-- The next bytes of the outbox, up to `n`, and ignored bytes. -/
  | report (n : Nat) (trailing : List UInt8)
  | failure

/-- What happens on the device's side at a poll: whether it answers a request, what it delivers, and
the clock. -/
structure DeviceTick where
  works : Bool
  arrival : Arrival
  clock : Int

variable {σ : Type} (D : Device σ)

/-- The next complete request, if what comes next is one, and what is behind it. -/
def nextRequest (inbox : List UInt8) : Option (Option Frame × List UInt8) :=
  (parse requests inbox).map fun (p, rest) =>
    (match p with
      | .frame type payload => if h : payload.length < 2 ^ 32 then some ⟨type, payload, h⟩ else none
      | _ => none, rest)

theorem nextRequest_lt {inbox rest : List UInt8} {f : Option Frame}
    (h : nextRequest inbox = some (f, rest)) : rest.length < inbox.length := by
  obtain ⟨⟨p, rest'⟩, hp, heq⟩ := Option.map_eq_some_iff.mp h
  cases heq
  exact parse_rest_lt requests hp

/-- The device answers the next complete request, if there is one. -/
def Device.work (d : DeviceState σ) : DeviceState σ :=
  match nextRequest d.inbox with
  | some (some f, rest) =>
    let (r, core) := D.answer d.core f
    { d with
      core := core, inbox := rest, outbox := d.outbox ++ r.bytes,
      answered := d.answered ++ [(f, r)] }
  | some (none, rest) => { d with inbox := rest }
  | none => d

/-- At most 63 bytes of the outbox, in a report. -/
def nextPiece (outbox : List UInt8) (n : Nat) (trailing : List UInt8) : Piece where
  payload := outbox.take (min n 63)
  trailing := trailing.take (63 - (outbox.take (min n 63)).length)
  fits := by simp only [List.length_take]; omega

def deliver (d : DeviceState σ) (t : DeviceTick) : ReadResult × DeviceState σ :=
  match t.arrival with
  | .nothing => (.empty, { d with clock := t.clock })
  | .report n trailing => (.report (nextPiece d.outbox n trailing).report,
      { d with outbox := d.outbox.drop (min n 63), clock := t.clock })
  | .failure => (.error, { d with clock := t.clock })

def deviceEnv (err : Option WString) (utf8Encode : WString → Except Exception String) :
    Env DeviceTick (DeviceState σ) where
  hidEnumerate d := ([], d)
  hidOpenPath d path := ((D.openPath d.core path).1, { d with core := (D.openPath d.core path).2 })
  hidSendFeatureReport d _ data :=
    let (m, n, core) := D.feature d.core data
    { d with core := core, inbox := d.inbox.drop m, outbox := d.outbox.drop n }
  hidClose d _ :=
    let (m, n, core) := D.close d.core
    { d with core := core, inbox := d.inbox.drop m, outbox := d.outbox.drop n }
  hidWrite d _ chunk :=
    let (res, arrives, core) := D.write d.core chunk
    (res, { d with
      core := core,
      inbox := if res < 64 ∧ arrives = false then d.inbox else d.inbox ++ chunkPayload chunk })
  hidReadTimeout d _ t := deliver (if t.works then D.work d else d) t
  hidError _ _ := err
  time d := d.clock
  interruptionRequested _ := false
  utf8Encode := utf8Encode

/-! ## What the device owes -/

/-- The responses to the complete requests in the inbox. -/
def Device.owes (core : σ) (inbox : List UInt8) : List UInt8 :=
  match _h : nextRequest inbox with
  | some (some f, rest) => (D.answer core f).1.bytes ++ Device.owes (D.answer core f).2 rest
  | some (none, rest) => Device.owes core rest
  | none => []
  termination_by inbox.length
  decreasing_by all_goals exact nextRequest_lt _h

/-- All response bytes to come, if nothing more is written. -/
def Device.toCome (d : DeviceState σ) : List UInt8 := d.outbox ++ D.owes d.core d.inbox

theorem owes_request {core : σ} {inbox rest : List UInt8} {f : Frame}
    (h : nextRequest inbox = some (some f, rest)) :
    D.owes core inbox = (D.answer core f).1.bytes ++ D.owes (D.answer core f).2 rest := by
  rw [Device.owes.eq_def]
  split
  · next heq =>
    rw [h] at heq
    cases heq
    rfl
  · next heq =>
    rw [h] at heq
    cases heq
  · next heq =>
    rw [h] at heq
    cases heq

theorem owes_skip {core : σ} {inbox rest : List UInt8}
    (h : nextRequest inbox = some (none, rest)) : D.owes core inbox = D.owes core rest := by
  rw [Device.owes.eq_def]
  split
  · next heq =>
    rw [h] at heq
    cases heq
  · next heq =>
    rw [h] at heq
    cases heq
    rfl
  · next heq =>
    rw [h] at heq
    cases heq

theorem owes_none {core : σ} {inbox : List UInt8} (h : nextRequest inbox = none) :
    D.owes core inbox = [] := by
  rw [Device.owes.eq_def]
  split
  · next heq =>
    rw [h] at heq
    cases heq
  · next heq =>
    rw [h] at heq
    cases heq
  · rfl

/-- Answering moves a response from what is owed to what is on its way. -/
theorem work_toCome (d : DeviceState σ) : D.toCome (D.work d) = D.toCome d := by
  unfold Device.toCome Device.work
  split
  · next f rest h => simp [owes_request D h]
  · next rest h => simp [owes_skip D h]
  · rfl

/-- Delivering hands over the first bytes to come. -/
theorem deliver_toCome (d : DeviceState σ) (t : DeviceTick) :
    (deliver d t).1.payload ++ D.toCome (deliver d t).2 = D.toCome d := by
  unfold deliver Device.toCome
  cases t.arrival with
  | nothing => rfl
  | failure => rfl
  | report n trailing =>
    show (nextPiece d.outbox n trailing).report.payload ++ _ = _
    rw [Piece.payload_report]
    simp only [nextPiece, ← List.append_assoc, List.take_append_drop]

variable (err : Option WString) (enc : WString → Except Exception String)

/-- What is owed and on its way, independent of the polls. -/
def deviceFeed : Feed (deviceEnv D err enc) where
  stream d _ := D.toCome d
  poll d h t ts := by
    show D.toCome d = (deliver (if t.works then D.work d else d) t).1.payload ++
      D.toCome (deliver (if t.works then D.work d else d) t).2
    rw [deliver_toCome]
    split
    · exact (work_toCome D d).symm
    · rfl

variable {err enc}

theorem deviceFeed_unread (s : IoState DeviceTick (DeviceState σ)) :
    (deviceFeed D err enc).unread s = s.buf.bytes ++ D.toCome s.world.dev := rfl

/-! ## One request in the device -/

/-- The inbox holds the request `req`, and no `'#'` around it. -/
def Asked (req : Frame) (inbox : List UInt8) : Prop :=
  ∃ pad tail, 35 ∉ pad ∧ 35 ∉ tail ∧ inbox = pad ++ (req.encode wire ++ tail)

theorem nextRequest_none {inbox : List UInt8} (h : 35 ∉ inbox) : nextRequest inbox = none := by
  unfold nextRequest
  rw [parse_pad_none requests h]
  rfl

theorem nextRequest_asked {req : Frame} {inbox : List UInt8} (h : Asked req inbox) :
    ∃ tail, 35 ∉ tail ∧ nextRequest inbox = some (some req, tail) := by
  obtain ⟨pad, tail, hpad, htail, rfl⟩ := h
  have hp := parse_pad_frame requests hpad req tail
  have hfit : ¬ requests.maxLength < req.payload.length := Nat.not_lt.mpr (Nat.le_of_lt req.fits)
  rw [if_neg hfit, Frame.parsed, if_neg hfit] at hp
  refine ⟨tail, htail, ?_⟩
  unfold nextRequest
  rw [show req.encode wire = req.encode requests from rfl, hp, Option.map_some]
  simp only [dif_pos req.fits]

theorem owes_quiet {core : σ} {inbox : List UInt8} (h : 35 ∉ inbox) : D.owes core inbox = [] :=
  owes_none D (nextRequest_none h)

theorem owes_asked {core : σ} {req : Frame} {inbox : List UInt8} (h : Asked req inbox) :
    D.owes core inbox = (D.answer core req).1.bytes := by
  obtain ⟨tail, htail, hn⟩ := nextRequest_asked h
  rw [owes_request D hn, owes_quiet D htail, List.append_nil]

/-- From its request `req` on, the device has still to answer it with `r`, or has done so. -/
def Serving (req : Frame) (r : Response) (answered : List (Frame × Response))
    (d : DeviceState σ) : Prop :=
  (Asked req d.inbox ∧ (D.answer d.core req).1 = r ∧ d.answered = answered) ∨
  (35 ∉ d.inbox ∧ d.answered = answered ++ [(req, r)])

theorem Serving.work {req : Frame} {r : Response} {answered : List (Frame × Response)}
    {d : DeviceState σ} (h : Serving D req r answered d) : Serving D req r answered (D.work d) := by
  rcases h with ⟨hask, rfl, hlog⟩ | ⟨hno, hlog⟩
  · obtain ⟨tail, htail, hn⟩ := nextRequest_asked hask
    refine .inr ?_
    simp only [Device.work, hn]
    exact ⟨htail, by rw [hlog]⟩
  · simp only [Device.work, nextRequest_none hno]
    exact .inr ⟨hno, hlog⟩

theorem Serving.poll {req : Frame} {r : Response} {answered : List (Frame × Response)}
    {d : DeviceState σ} (h : Serving D req r answered d) (dev : Handle) (t : DeviceTick) :
    Serving D req r answered ((deviceEnv D err enc).hidReadTimeout d dev t).2 := by
  have hw : Serving D req r answered (if t.works then D.work d else d) := by
    split
    · exact h.work
    · exact h
  show Serving D req r answered (deliver _ t).2
  unfold deliver
  cases t.arrival <;> exact hw

theorem Serving.after {req : Frame} {r : Response} {answered : List (Frame × Response)}
    {d : DeviceState σ} (h : Serving D req r answered d) (dev : Handle) (ts : List DeviceTick) :
    Serving D req r answered ((deviceEnv D err enc).after dev d ts) := by
  induction ts generalizing d with
  | nil => exact h
  | cons t ts ih => exact ih (h.poll D dev t)

/-- Once nothing with a `'#'` is to come, the response is given. -/
theorem Serving.done {req : Frame} {r : Response} {answered : List (Frame × Response)}
    {d : DeviceState σ} (h : Serving D req r answered d) (hno : 35 ∉ D.toCome d) :
    35 ∉ d.inbox ∧ d.answered = answered ++ [(req, r)] := by
  rcases h with ⟨hask, -, -⟩ | h
  · refine absurd ?_ hno
    rw [Device.toCome, owes_asked D hask]
    simp [Response.bytes, Frame.encode, wire]
  · exact h

/-! ## One exchange -/

variable {Msg : Type} {P : Protobuf Msg} {pool : DescriptorPool}

/-- Of chunks written one after the other, none is lost that `HIDBuffer::write` passes over: each
that it does not stop at arrives. -/
def Device.Delivers (D : Device σ) : σ → List (List UInt8) → Prop
  | _, [] => True
  | core, chunk :: chunks =>
    let (res, arrives, core) := D.write core chunk
    sizeT res < 64 ∨ ((64 ≤ res ∨ arrives = true) ∧ D.Delivers core chunks)

/-- The chunks that `DeviceChannel::write` cuts the frame of a request into. -/
def requestChunks (req : Frame) : List (List UInt8) :=
  (Bytes.chunks 63 (req.encode wire)).map writeChunk

/-- Writes that return and lose no chunk have put their chunks into the inbox, and done nothing
else. -/
theorem writePieces_asks {dev : Handle} {pieces : List (List UInt8)}
    {s s' : IoState DeviceTick (DeviceState σ)}
    (hd : D.Delivers s.world.dev.core (pieces.map writeChunk))
    (h : HIDBuffer.writePieces (deviceEnv D err enc) dev pieces s = .ok () s') :
    s'.buf = s.buf ∧ s'.ticks = s.ticks ∧
      s'.world.dev.inbox = s.world.dev.inbox ++ (pieces.map writeChunk).flatMap chunkPayload ∧
      s'.world.dev.outbox = s.world.dev.outbox ∧
      s'.world.dev.answered = s.world.dev.answered := by
  induction pieces generalizing s with
  | nil =>
    cases h
    simp
  | cons piece pieces ih =>
    rw [HIDBuffer.writePieces] at h
    simp only [] at h
    split at h
    · split at h <;> cases h
    · next hres =>
      obtain ⟨harrives, hd⟩ := hd.resolve_left hres
      obtain ⟨h1, h2, h3, h4, h5⟩ := ih hd h
      have harrived : ¬ ((D.write s.world.dev.core (writeChunk piece)).1 < 64 ∧
          (D.write s.world.dev.core (writeChunk piece)).2.1 = false) := by
        rintro ⟨hlt, hlost⟩
        rcases harrives with hle | harrives
        · exact absurd hlt (Int.not_lt.mpr hle)
        · cases harrives.symm.trans hlost
      refine ⟨h1, h2, ?_, h4, h5⟩
      rw [h3]
      show (if _ then _ else _) ++ _ = _
      rw [if_neg harrived, List.map_cons, List.flatMap_cons, List.append_assoc]

/-- A write that returns and loses no chunk has put the frame of its message into the inbox, and
zeros. -/
theorem write_asks {dev : Handle} {m : Msg} {s s' : IoState DeviceTick (DeviceState σ)}
    (hd : ∀ type, messageTypeOf P pool m = .ok type →
      D.Delivers s.world.dev.core (requestChunks (messageFrame P type m)))
    (h : DeviceChannel.write (deviceEnv D err enc) P pool dev m s = .ok () s') :
    ∃ type n, messageTypeOf P pool m = .ok type ∧ s'.buf = s.buf ∧
      s'.world.dev.inbox = s.world.dev.inbox ++
        ((messageFrame P type m).encode wire ++ List.replicate n 0) ∧
      s'.world.dev.outbox = s.world.dev.outbox ∧
      s'.world.dev.answered = s.world.dev.answered := by
  unfold DeviceChannel.write at h
  obtain ⟨type, s1, hlift, hwrite⟩ := Exec.of_bind_ok h
  obtain ⟨ht, rfl⟩ := of_liftExcept_ok hlift
  rw [frameBytes_eq type (P.serialize m) ((P.byteSize_lt m).trans (by decide))] at hwrite
  obtain ⟨h1, -, h3, h4, h5⟩ := writePieces_asks D (hd type ht) hwrite
  obtain ⟨n, hn⟩ := chunks_payload (messageFrame P type m)
  exact ⟨type, n, ht, h1, by rw [h3, ← hn], h4, h5⟩

/-- **One exchange.**  Written and read with nothing owed before: the message read is the decoded
response to the message written, and nothing is owed after it. -/
theorem exchange {dev : Handle} {timeout : Bool} {m m' : Msg}
    {s s1 s' : IoState DeviceTick (DeviceState σ)}
    (hin : 35 ∉ s.world.dev.inbox) (hout : 35 ∉ s.buf.bytes ++ s.world.dev.outbox)
    (hd : ∀ type, messageTypeOf P pool m = .ok type →
      D.Delivers s.world.dev.core (requestChunks (messageFrame P type m)))
    (hw : DeviceChannel.write (deviceEnv D err enc) P pool dev m s = .ok () s1)
    (hr : DeviceChannel.read (deviceEnv D err enc) P pool dev timeout s1 = .ok m' s') :
    ∃ type r, messageTypeOf P pool m = .ok type ∧
      s'.world.dev.answered = s.world.dev.answered ++ [(messageFrame P type m, r)] ∧
      decode P pool r.frame.type r.frame.payload = .ok m' ∧
      35 ∉ s'.world.dev.inbox ∧ 35 ∉ s'.buf.bytes ++ s'.world.dev.outbox := by
  obtain ⟨type, n, ht, hbuf, hinbox, houtbox, hlog⟩ := write_asks D hd hw
  have hask : Asked (messageFrame P type m) s1.world.dev.inbox :=
    ⟨s.world.dev.inbox, List.replicate n 0, hin,
      fun hm => absurd (List.eq_of_mem_replicate hm) (by decide), hinbox⟩
  obtain ⟨r, hr0⟩ : ∃ r, r = (D.answer s1.world.dev.core (messageFrame P type m)).1 := ⟨_, rfl⟩
  refine ⟨type, r, ht, ?_⟩
  rcases read_cases P pool (deviceFeed D err enc) dev timeout s1 with
    ⟨p, s2, hp, ⟨-, polls, -, hpolls⟩, hread⟩ | ⟨e, s2, hread, -⟩
  · rw [hread] at hr
    obtain ⟨hout', rfl⟩ := of_liftExcept_ok hr
    -- what is unread before the read is the response, after bytes without a magic byte
    have hunread : (deviceFeed D err enc).unread s1 =
        (s.buf.bytes ++ s.world.dev.outbox) ++ (r.frame.encode wire ++ r.padding) := by
      rw [deviceFeed_unread, Device.toCome, owes_asked D hask, ← hr0, hbuf, houtbox,
        Response.bytes, List.append_assoc]
    rw [hunread, parse_pad_frame wire hout r.frame r.padding] at hp
    simp only [Option.some.injEq, Prod.mk.injEq] at hp
    obtain ⟨rfl, hrest⟩ := hp
    unfold Frame.parsed at hout'
    split at hout'
    · cases hout'
    · next hfits =>
      rw [if_neg hfits, deviceFeed_unread] at hrest
      have hclean : 35 ∉ s'.buf.bytes ++ D.toCome s'.world.dev := hrest ▸ r.clean
      have hserving : Serving D (messageFrame P type m) r s1.world.dev.answered s'.world.dev := by
        rw [hpolls]
        exact Serving.after D (.inl ⟨hask, hr0.symm, rfl⟩) dev polls
      obtain ⟨hin', hlog'⟩ := hserving.done D fun hm => hclean (List.mem_append_right _ hm)
      refine ⟨by rw [hlog', hlog], hout', hin', ?_⟩
      rwa [Device.toCome, owes_quiet D hin', List.append_nil] at hclean
  · rw [hread] at hr
    cases hr

/-! ## Runs of jobs -/

variable {κ Map : Type} {J : Scripting κ Msg Map} {path : String}

/-- `req` is the request of the job. -/
def IsRequest (P : Protobuf Msg) (J : Scripting κ Msg Map) (pool : DescriptorPool)
    (job : DeviceCallJob κ Map) (req : Frame) : Prop :=
  ∃ m0 m type, createMessage P pool job.typeName = .ok m0 ∧
    J.messageFromMap m0 job.messageMap = .ok m ∧ messageTypeOf P pool m = .ok type ∧
    req = messageFrame P type m

/-- A call finds nothing owed: no `'#'` in the requests the device has still to answer, in the
responses it has still to deliver, or in what the executor has buffered. -/
def Quiet (D : Device σ) (err : Option WString) (enc : WString → Except Exception String)
    (path : String) (s : ExecState DeviceTick (DeviceState σ) κ Map) : Prop :=
  35 ∉ (startDevice (deviceEnv D err enc) path s).inbox ∧
  35 ∉ s.bytes ++ (startDevice (deviceEnv D err enc) path s).outbox

/-- No chunk of the job's request is lost with a result that `HIDBuffer::write` passes over. -/
def ArrivesWhole (D : Device σ) (err : Option WString) (enc : WString → Except Exception String)
    (P : Protobuf Msg) (J : Scripting κ Msg Map) (pool : DescriptorPool) (path : String)
    (job : DeviceCallJob κ Map) (s : ExecState DeviceTick (DeviceState σ) κ Map) : Prop :=
  ∀ req, IsRequest P J pool job req →
    D.Delivers (startDevice (deviceEnv D err enc) path s).core (requestChunks req)

/-- Nothing is owed in the state as it is, even if the channel is still to be opened. -/
def Settled (s : ExecState DeviceTick (DeviceState σ) κ Map) : Prop :=
  35 ∉ s.world.dev.inbox ∧ 35 ∉ s.bytes ++ s.world.dev.outbox

theorem Settled.subset {s s' : ExecState DeviceTick (DeviceState σ) κ Map} (h : Settled s)
    (hbytes : s'.bytes ⊆ s.bytes) (hin : s'.world.dev.inbox ⊆ s.world.dev.inbox)
    (hout : s'.world.dev.outbox ⊆ s.world.dev.outbox) : Settled s' := by
  refine ⟨fun hm => h.1 (hin hm), fun hm => h.2 ?_⟩
  rcases List.mem_append.mp hm with hm | hm
  · exact List.mem_append_left _ (hbytes hm)
  · exact List.mem_append_right _ (hout hm)

/-- Opening a channel drops bytes at most. -/
theorem open_drops {w w' : World (DeviceState σ)} {res : Except Exception Handle}
    (h : DeviceChannel.open (deviceEnv D err enc) path w = (res, w')) :
    w'.dev.inbox ⊆ w.dev.inbox ∧ w'.dev.outbox ⊆ w.dev.outbox := by
  unfold DeviceChannel.open at h
  simp only [] at h
  split at h
  · cases h
    exact ⟨List.Subset.refl _, List.Subset.refl _⟩
  · cases h
    exact ⟨List.Subset.trans (List.drop_subset _ _) (List.drop_subset _ _),
      List.Subset.trans (List.drop_subset _ _) (List.drop_subset _ _)⟩

theorem Settled.quiet {s : ExecState DeviceTick (DeviceState σ) κ Map} (h : Settled s) :
    Quiet D err enc path s := by
  have hstart : (startDevice (deviceEnv D err enc) path s).inbox ⊆ s.world.dev.inbox ∧
      (startDevice (deviceEnv D err enc) path s).outbox ⊆ s.world.dev.outbox := by
    unfold startDevice
    split
    · exact ⟨List.Subset.refl _, List.Subset.refl _⟩
    · exact open_drops D rfl
  let s' := { s with world := ⟨startDevice (deviceEnv D err enc) path s, []⟩ }
  have hs' : Settled s' := h.subset (List.Subset.refl _) hstart.1 hstart.2
  exact hs'

theorem startDevice_answered (s : ExecState DeviceTick (DeviceState σ) κ Map) :
    (startDevice (deviceEnv D err enc) path s).answered = s.world.dev.answered := by
  unfold startDevice
  split
  · rfl
  · unfold DeviceChannel.open
    simp only []
    split <;> rfl

/-- What `execute` has in its `try` block for a call job. -/
def callBody (D : Device σ) (err : Option WString) (enc : WString → Except Exception String)
    (P : Protobuf Msg) (J : Scripting κ Msg Map) (pool : DescriptorPool) (path : String)
    (job : DeviceCallJob κ Map) : ExecM DeviceTick (DeviceState σ) κ Map Unit := do
  ensureBuffer
  ensureChannel (deviceEnv D err enc) path
  call (deviceEnv D err enc) P J pool job

theorem callBody_exchange {job : DeviceCallJob κ Map}
    {s s' : ExecState DeviceTick (DeviceState σ) κ Map} (h : Owns s) (hq : Quiet D err enc path s)
    (hi : ArrivesWhole D err enc P J pool path job s)
    (hbody : callBody D err enc P J pool path job s = .ok () s') :
    ∃ req r m map, IsRequest P J pool job req ∧
      s'.world.dev.answered = s.world.dev.answered ++ [(req, r)] ∧
      decode P pool r.frame.type r.frame.payload = .ok m ∧ J.messageToMap m = .ok map ∧
      s'.fired = s.fired ++ [(job.callbacks, .success (some (P.getTypeName m, map)))] ∧
      Settled s' := by
  obtain ⟨_, s1, h1, hrest⟩ := Exec.of_bind_ok hbody
  obtain ⟨_, s2, h2, hcall⟩ := Exec.of_bind_ok hrest
  obtain ⟨ch, buf, hch, hbuf, hheap, hbytes, hdev, hfired⟩ := ensured _ path h h1 h2
  obtain ⟨m0, m, io, m', io', map, hm0, hm, hw, hr, hmap, hch', hbuf', hheap', hworld, hfired'⟩ :=
    of_call_ok (deviceEnv D err enc) P J pool hch hheap hcall
  obtain ⟨hin, hout⟩ := hq
  rw [← hdev] at hin hout
  rw [← hbytes] at hout
  have hd : ∀ type, messageTypeOf P pool m = .ok type →
      D.Delivers s2.world.dev.core (requestChunks (messageFrame P type m)) := by
    intro type ht
    rw [hdev]
    exact hi _ ⟨m0, m, type, hm0, hm, ht, rfl⟩
  obtain ⟨type, r, ht, hlog, hdecode, hin', hout'⟩ := exchange D hin hout hd hw hr
  have hbytes' : s'.bytes = io'.buf.bytes := by
    simp only [ExecState.bytes, hbuf', hbuf, Option.bind_some, hheap']
  refine ⟨messageFrame P type m, r, m', map, ⟨m0, m, type, hm0, hm, ht, rfl⟩, ?_, hdecode, hmap,
    by rw [hfired', hfired], ?_, ?_⟩
  · rw [hworld, hlog, hdev, startDevice_answered]
  · rwa [hworld]
  · rwa [hbytes', hworld]

/-- One job of a run, with the schema loaded by then and the polls it finds. -/
structure Turn (κ Map : Type) where
  pool : DescriptorPool
  job : DeviceJob κ Map
  ticks : List DeviceTick

/-- A job that comes to its end, by returning or throwing. -/
def turnStep (D : Device σ) (err : Option WString) (enc : WString → Except Exception String)
    (P : Protobuf Msg) (J : Scripting κ Msg Map) (path : String)
    (s : ExecState DeviceTick (DeviceState σ) κ Map) (t : Turn κ Map) :
    Option (ExecState DeviceTick (DeviceState σ) κ Map) :=
  match execute (deviceEnv D err enc) P J t.pool path t.job { s with ticks := t.ticks } with
  | .ok () s' => some s'
  | .error (.throws _) s' => some s'
  | .error _ _ => none

theorem callBody_succeeds (job : DeviceCallJob κ Map) :
    Succeeds job.callbacks (callBody D err enc P J pool path job) := by
  refine .bind silent_ensureBuffer ?_
  intro _
  refine .bind (silent_ensureChannel _ path) ?_
  intro _
  exact call_succeeds _ P J pool job

theorem turnStep_final {s s' : ExecState DeviceTick (DeviceState σ) κ Map} {t : Turn κ Map}
    (ht : turnStep D err enc P J path s t = some s') :
    Exec.final (execute (deviceEnv D err enc) P J t.pool path t.job { s with ticks := t.ticks }) =
      s' := by
  unfold turnStep at ht
  split at ht
  · next heq =>
    cases ht
    rw [heq, Exec.final_ok]
  · next heq =>
    cases ht
    rw [heq, Exec.final_error]
  · cases ht

theorem turnStep_owns {s s' : ExecState DeviceTick (DeviceState σ) κ Map} {t : Turn κ Map}
    (h : Owns s) (ht : turnStep D err enc P J path s t = some s') : Owns s' := by
  rw [← turnStep_final D ht]
  exact execute_keeps (deviceEnv D err enc) P J t.pool path t.job { s with ticks := t.ticks }
    ⟨h.disciplined, h.handle, h.borrowed, h.alive⟩

/-- The job's success callback got the decoded response to the job's request, which the device gave
while the job ran. -/
def OwnResponse (P : Protobuf Msg) (J : Scripting κ Msg Map) (pool : DescriptorPool)
    (job : DeviceCallJob κ Map) (s s' : ExecState DeviceTick (DeviceState σ) κ Map)
    (args : Option (String × Map)) : Prop :=
  ∃ req r m map, IsRequest P J pool job req ∧
    s'.world.dev.answered = s.world.dev.answered ++ [(req, r)] ∧
    decode P pool r.frame.type r.frame.payload = .ok m ∧ J.messageToMap m = .ok map ∧
    args = some (P.getTypeName m, map)

/-- **One call**, begun with nothing owed, whose request gets through whole. -/
theorem turnStep_success {s s' : ExecState DeviceTick (DeviceState σ) κ Map} {t : Turn κ Map}
    {job : DeviceCallJob κ Map} {args : Option (String × Map)} (h : Owns s)
    (hjob : t.job = .callJob job) (hq : Quiet D err enc path s)
    (hi : ArrivesWhole D err enc P J t.pool path job s)
    (ht : turnStep D err enc P J path s t = some s')
    (hfired : s'.fired = s.fired ++ [(job.callbacks, .success args)]) :
    OwnResponse P J t.pool job s s' args ∧ Settled s' := by
  have hfinal := turnStep_final D ht
  rw [hjob] at hfinal
  have hbody : callBody D err enc P J t.pool path job { s with ticks := t.ticks } = .ok () s' := by
    rw [← hfinal]
    exact reporting_success J (callBody_succeeds D job) (by rw [← hfired, ← hfinal]; rfl)
  obtain ⟨req, r, m, map, hreq, hlog, hdecode, hmap, hfired', hsettled⟩ :=
    callBody_exchange D (s := { s with ticks := t.ticks })
      ⟨h.disciplined, h.handle, h.borrowed, h.alive⟩ hq hi hbody
  refine ⟨⟨req, r, m, map, hreq, hlog, hdecode, hmap, ?_⟩, hsettled⟩
  have heq := hfired.symm.trans hfired'
  simpa using heq

/-- **A call's success callback gets the call's own response.**  In every run of jobs in which each
call starts quiet and loses no chunk of its request unnoticed: whenever the success callback of a
call is invoked, its message is the decoded response that the device gave, during that call, to that
call's request. -/
theorem success_is_own_response (dev : DeviceState σ) (turns : List (Turn κ Map))
    (hquiet : Run.Along (turnStep D err enc P J path)
      (fun s t => ∀ job, t.job = .callJob job →
        Quiet D err enc path s ∧ ArrivesWhole D err enc P J t.pool path job s)
      (ExecState.new dev []) turns) :
    ∀ before t after job s s' args, turns = before ++ t :: after → t.job = .callJob job →
      Run.run (turnStep D err enc P J path) (ExecState.new dev []) before = some s →
      turnStep D err enc P J path s t = some s' →
      s'.fired = s.fired ++ [(job.callbacks, .success args)] →
      OwnResponse P J t.pool job s s' args := by
  rintro before t after job s s' args rfl hjob hrun ht hfired
  have howns : Owns s := Run.run_inv (turnStep D err enc P J path) Owns (fun _ _ => True)
    (fun _ _ _ h _ hstep => turnStep_owns D h hstep) (owns_new dev [])
    (Run.along_true _ _ before) hrun
  obtain ⟨hq, hi⟩ := Run.along_at (turnStep D err enc P J path) _ hquiet hrun job hjob
  exact (turnStep_success D howns hjob hq hi ht hfired).1

/-- A device that answers with a `Pong` of the same payload, and whose FIFOs can be purged. -/
def echoDevice : Device Unit where
  answer _ f := (⟨⟨1, f.payload, f.fits⟩, [], by simp⟩, ())
  openPath _ _ := (some 0, ())
  write _ chunk := (chunk.length, true, ())
  feature _ data := if data = txrx then (4096, 4096, ()) else (0, 0, ())
  close _ := (0, 0, ())

def ping (body : List UInt8) (callbacks : Nat) (ticks : List DeviceTick) : Turn Nat (List UInt8) :=
  ⟨pingPool, .callJob ⟨true, "Ping", body, callbacks⟩, ticks⟩

abbrev echoStep := turnStep echoDevice none (fun _ => .ok "") rawProtobuf rawScripting "dev"

def echoStart : ExecState DeviceTick (DeviceState Unit) Nat (List UInt8) :=
  ExecState.new ⟨(), [], [], [], 0⟩ []

instance {s : ExecState DeviceTick (DeviceState Unit) Nat (List UInt8)} :
    Decidable (Quiet echoDevice none (fun _ => .ok "") "dev" s) :=
  inferInstanceAs (Decidable (_ ∧ _))

def firstPing : Turn Nat (List UInt8) :=
  ping [1] 0 [⟨true, .report 5 [], 0⟩, ⟨true, .report 63 [], 1⟩]

def secondPing : Turn Nat (List UInt8) := ping [2] 1 [⟨true, .report 63 [], 2⟩]

theorem echo_delivers (core : Unit) (pieces : List (List UInt8))
    (h : ∀ piece ∈ pieces, piece.length ≤ 63) :
    echoDevice.Delivers core (pieces.map writeChunk) := by
  induction pieces with
  | nil => trivial
  | cons piece pieces ih =>
    rw [List.forall_mem_cons] at h
    refine .inr ⟨.inl ?_, ih h.2⟩
    show (64 : Int) ≤ (writeChunk piece).length
    rw [length_writeChunk h.1]
    decide

theorem echo_arrivesWhole {job : DeviceCallJob Nat (List UInt8)} {pool : DescriptorPool}
    {s : ExecState DeviceTick (DeviceState Unit) Nat (List UInt8)} :
    ArrivesWhole echoDevice none (fun _ => .ok "") rawProtobuf rawScripting pool "dev" job s :=
  fun _ _ => echo_delivers _ _ (Bytes.length_of_mem_chunks 63 _)

theorem success_is_own_response_pings :
    ∃ s s', echoStep echoStart firstPing = some s ∧ echoStep s secondPing = some s' ∧
      OwnResponse rawProtobuf rawScripting pingPool ⟨true, "Ping", [2], 1⟩ s s'
        (some ("Pong", [2])) := by
  obtain ⟨s, hs⟩ := Option.isSome_iff_exists.mp
    (show (echoStep echoStart firstPing).isSome from by decide +kernel)
  have hview : ((echoStep echoStart firstPing).bind fun s => (echoStep s secondPing).map fun s' =>
      (s'.fired = s.fired ++ [(1, .success (some ("Pong", [2])))] &&
        Quiet echoDevice none (fun _ => .ok "") "dev" s : Bool)) = some true := by decide +kernel
  rw [hs, Option.bind_some] at hview
  obtain ⟨s', hs', h⟩ := Option.map_eq_some_iff.mp hview
  simp only [Bool.and_eq_true, decide_eq_true_eq] at h
  refine ⟨s, s', hs, hs', ?_⟩
  have hquiet : Run.Along echoStep
      (fun s t => ∀ job, t.job = .callJob job → Quiet echoDevice none (fun _ => .ok "") "dev" s ∧
        ArrivesWhole echoDevice none (fun _ => .ok "") rawProtobuf rawScripting t.pool "dev" job s)
      echoStart [firstPing, secondPing] := by
    refine ⟨fun _ _ => ⟨by decide +kernel, echo_arrivesWhole⟩, ?_⟩
    intro t ht
    rw [show t = s from Option.some.inj (ht.symm.trans hs)]
    exact ⟨fun _ _ => ⟨h.2, echo_arrivesWhole⟩, fun _ _ => trivial⟩
  exact success_is_own_response echoDevice ⟨(), [], [], [], 0⟩ [firstPing, secondPing] hquiet
    [firstPing] secondPing [] _ s s' _ rfl rfl (Run.run_cons_of echoStep hs []) hs' h.1

/-- A first call that gives up on its answer, and a second one that finds it. -/
def latePing : Turn Nat (List UInt8) := ping [1] 0 [⟨false, .nothing, 16⟩]

def nextPing : Turn Nat (List UInt8) := ping [2] 1 [⟨true, .report 63 [], 20⟩]

theorem success_is_not_own_response :
    ∃ s s', echoStep echoStart latePing = some s ∧ echoStep s nextPing = some s' ∧
      s.fired = [(0, .error "Reading timed out")] ∧
      s'.fired = s.fired ++ [(1, .success (some ("Pong", [1])))] ∧
      ¬ OwnResponse rawProtobuf rawScripting pingPool ⟨true, "Ping", [2], 1⟩ s s'
        (some ("Pong", [1])) := by
  obtain ⟨s, hs⟩ := Option.isSome_iff_exists.mp
    (show (echoStep echoStart latePing).isSome from by decide +kernel)
  have hview : ((echoStep echoStart latePing).bind fun s => (echoStep s nextPing).map fun s' =>
      (s.fired = [(0, .error "Reading timed out")] &&
        s'.fired = s.fired ++ [(1, .success (some ("Pong", [1])))] &&
        s.world.dev.answered.length = 0 &&
        s'.world.dev.answered.map (·.1.payload) = [[1]] : Bool)) = some true := by decide +kernel
  rw [hs, Option.bind_some] at hview
  obtain ⟨s', hs', h⟩ := Option.map_eq_some_iff.mp hview
  simp only [Bool.and_eq_true, decide_eq_true_eq] at h
  obtain ⟨⟨⟨hfirst, hsecond⟩, hnone⟩, hanswered⟩ := h
  refine ⟨s, s', hs, hs', hfirst, hsecond, ?_⟩
  rintro ⟨req, r, m, map, ⟨m0, msg, type, h0, hmsg, -, rfl⟩, hlog, -⟩
  -- what the device answered meanwhile is the first request, and the job's own has other bytes
  rw [List.length_eq_zero_iff.mp hnone] at hlog
  rw [hlog] at hanswered
  have hbody : msg.body = [2] := by
    obtain ⟨rfl⟩ : RawMessage.mk m0.typeName [2] (by decide) = msg := Except.ok.inj hmsg
    rfl
  have hpayload : msg.body = [1] := List.singleton_injective hanswered
  rw [hbody] at hpayload
  exact absurd hpayload (by decide)

/-! ## Runs without a failing call -/

theorem settled_fired (s : ExecState DeviceTick (DeviceState σ) κ Map)
    (fired : List (κ × Answer Map)) (h : Settled s) : Settled { s with fired := fired } := h

theorem destroy_settled {s : ExecState DeviceTick (DeviceState σ) κ Map} (h : Settled s) :
    Settled (destroy (deviceEnv D err enc) s) := by
  have hreset : Settled (resetChannel (deviceEnv D err enc) s) := by
    unfold resetChannel
    split
    · exact h
    · exact h.subset (List.Subset.refl _) (List.drop_subset _ _) (List.drop_subset _ _)
  unfold destroy resetBuffer
  split
  · exact hreset
  · exact hreset.subset (List.nil_subset _) (List.Subset.refl _) (List.Subset.refl _)

theorem ensureBuffer_settled :
    Exec.Keeps (fun s s' => Settled s → Settled s')
      (ensureBuffer : ExecM DeviceTick (DeviceState σ) κ Map Unit) := by
  intro s h
  unfold ensureBuffer
  split
  · exact h
  · refine h.subset ?_ (List.Subset.refl _) (List.Subset.refl _)
    simp [ExecState.bytes, HIDBuffer.new]

theorem ensureChannel_settled :
    Exec.Keeps (fun s s' => Settled s → Settled s')
      (ensureChannel (deviceEnv D err enc) path : ExecM _ _ κ Map Unit) := by
  intro s h
  unfold ensureChannel
  split
  · exact h
  · split
    · exact h
    · split <;> next heq =>
        exact h.subset (List.Subset.refl _) (open_drops D heq).1 (open_drops D heq).2

/-- Open and close jobs, however they end. -/
theorem execute_settled {job : DeviceJob κ Map} (hjob : ∀ call, job ≠ .callJob call) :
    Exec.Keeps (fun s s' => Settled s → Settled s')
      (execute (deviceEnv D err enc) P J pool path job) := by
  cases job with
  | closeJob callbacks =>
    apply reporting_keeps J settled_fired
    intro s h
    exact invokeAsync_keeps J settled_fired callbacks _ (destroy _ s) (destroy_settled D h)
  | openJob callbacks =>
    apply reporting_keeps J settled_fired
    apply Exec.Keeps.bind_inv ensureBuffer_settled
    intro _
    apply Exec.Keeps.bind_inv (ensureChannel_settled D)
    intro _
    exact invokeAsync_keeps J settled_fired _ _
  | callJob call => exact absurd rfl (hjob call)

/-- The job, if it is a call, loses no chunk of its request unnoticed, and has its success callback
invoked. -/
def CallSucceeds (D : Device σ) (err : Option WString) (enc : WString → Except Exception String)
    (P : Protobuf Msg) (J : Scripting κ Msg Map) (path : String)
    (s : ExecState DeviceTick (DeviceState σ) κ Map) (t : Turn κ Map) : Prop :=
  ∀ job, t.job = .callJob job → ArrivesWhole D err enc P J t.pool path job s ∧
    ∀ s', turnStep D err enc P J path s t = some s' →
      ∃ args, s'.fired = s.fired ++ [(job.callbacks, .success args)]

theorem turnStep_settled {s s' : ExecState DeviceTick (DeviceState σ) κ Map} {t : Turn κ Map}
    (h : Owns s ∧ Settled s) (hsucceeds : CallSucceeds D err enc P J path s t)
    (ht : turnStep D err enc P J path s t = some s') : Owns s' ∧ Settled s' := by
  refine ⟨turnStep_owns D h.1 ht, ?_⟩
  by_cases hcall : ∃ job, t.job = .callJob job
  · obtain ⟨job, hjob⟩ := hcall
    obtain ⟨hi, hsuccess⟩ := hsucceeds job hjob
    obtain ⟨args, hfired⟩ := hsuccess s' ht
    exact (turnStep_success D h.1 hjob (h.2.quiet D) hi ht hfired).2
  · rw [← turnStep_final D ht]
    exact execute_settled D (fun call hc => hcall ⟨call, hc⟩) { s with ticks := t.ticks } h.2

/-- **Only a failing call, or a chunk lost unnoticed, can leave an answer behind.**  With a device that
owes nothing at first, as long as no call fails and none loses a chunk every call starts quiet. -/
theorem quiet_of_calls_succeed {dev : DeviceState σ} (hin : 35 ∉ dev.inbox)
    (hout : 35 ∉ dev.outbox) (turns : List (Turn κ Map))
    (h : Run.Along (turnStep D err enc P J path) (CallSucceeds D err enc P J path)
      (ExecState.new dev []) turns) :
    Run.Along (turnStep D err enc P J path)
      (fun s t => ∀ job, t.job = .callJob job → Quiet D err enc path s)
      (ExecState.new dev []) turns := by
  refine Run.along_of_inv _ (fun s => Owns s ∧ Settled s) _ _
    (fun s t s' hs hc ht => turnStep_settled D hs hc ht) (fun s t hs job _ => hs.2.quiet D)
    ⟨owns_new dev [], hin, ?_⟩ h
  simpa [ExecState.bytes, ExecState.new] using hout

end TrezorPlugin
