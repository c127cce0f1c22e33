import TrezorPlugin.Executor
import TrezorPlugin.Lib.Resume

/-!
# A job, one poll later

A job that is pending waits in `hid_read_timeout`.  Polls to come change nothing
in what it has done, and a poll that brings nothing either leaves it pending, or
makes it give up:

    execute job s = pending, the next poll idle  →  use_timeout = false: pending again
                                                    use_timeout = true:  Over     (execute_idle)

The parts of a job are taken in turn, from the buffering loop up.
-/

namespace TrezorPlugin

open Resume

variable {τ δ κ Msg Map : Type} (E : Env τ δ) (P : Protobuf Msg) (J : Scripting κ Msg Map)
variable (pool : DescriptorPool) (path : String)

/-! ## Idle polls -/

/-- The poll `t` on `dev` brings no data and finds, where it is looked for, the interruption
requested. -/
structure World.Idle (dev : Handle) (timeout : Bool) (w : World δ) (t : τ) : Prop where
  silent : (E.hidReadTimeout w.dev dev t).1 = .empty
  requested : timeout = true → E.interruptionRequested (E.hidReadTimeout w.dev dev t).2 = true

/-- Where an idle poll leads. -/
inductive IdleEnd : Bool → Stop → Prop
  | timedOut : IdleEnd true (.throws .readTimeout)
  | interrupted : IdleEnd true .threadInterrupted
  | waiting : IdleEnd false .pending

/-- The state with the polls `us` to come after the others. -/
def IoState.more (s : IoState τ δ) (us : List τ) : IoState τ δ := { s with ticks := s.ticks ++ us }

def ExecState.more (s : ExecState τ δ κ Map) (us : List τ) : ExecState τ δ κ Map :=
  { s with ticks := s.ticks ++ us }

/-- A read or write on the handle `dev`, as far as the polls go. -/
abbrev IoResumes {α : Type} (dev : Handle) (timeout : Bool) (x : IoM τ δ α) (s : IoState τ δ) :
    Prop :=
  Resumes IoState.more .pending (fun s t => s.world.Idle E dev timeout t) (IdleEnd timeout) x s

abbrev IoSteady {α : Type} (x : IoM τ δ α) : Prop := Steady IoState.more .pending x

/-- Part of a job, as far as the polls go. -/
abbrev ExecResumes {α : Type} (timeout : Bool) (x : ExecM τ δ κ Map α)
    (s : ExecState τ δ κ Map) : Prop :=
  Resumes ExecState.more .pending
    (fun s t => ∃ ch, s.channel = some ch ∧ s.world.Idle E ch.device timeout t)
    (IdleEnd timeout) x s

abbrev ExecSteady {α : Type} (x : ExecM τ δ κ Map α) : Prop := Steady ExecState.more .pending x

/-! ## The buffering loop -/

theorem HIDBuffer.fill_enough (dev : Handle) {length : Nat} (timeout : Bool) (start : Int)
    {buf : HIDBuffer} (w : World δ) (h : length ≤ buf.bytes.length) (ts : List τ) :
    HIDBuffer.fill E dev length timeout start ts buf w = .ok () ⟨buf, w, ts⟩ := by
  cases ts with
  | nil => rw [HIDBuffer.fill, if_pos h]
  | cons t ts => rw [HIDBuffer.fill, if_pos h]

/-- One round does the same whatever polls come after it. -/
theorem HIDBuffer.fill_cons (dev : Handle) {length : Nat} (timeout : Bool) (start : Int) (t : τ)
    {buf : HIDBuffer} (w : World δ) (hlen : buf.bytes.length < length) :
    (∃ buf' w', ∀ ts, HIDBuffer.fill E dev length timeout start (t :: ts) buf w =
      HIDBuffer.fill E dev length timeout start ts buf' w') ∨
    ∃ e buf' w', e ≠ .pending ∧ ∀ ts,
      HIDBuffer.fill E dev length timeout start (t :: ts) buf w = .error e ⟨buf', w', ts⟩ := by
  simp only [HIDBuffer.fill, if_neg (Nat.not_le.mpr hlen)]
  cases (E.hidReadTimeout w.dev dev t).1 with
  | report rep =>
    simp only []
    cases buf.storeAll rep.payload with
    | some buf' => exact .inl ⟨buf', _, fun ts => rfl⟩
    | none => exact .inr ⟨.undefined, _, _, by simp, fun ts => rfl⟩
  | empty =>
    simp only []
    cases timeout with
    | false => exact .inl ⟨buf, _, fun ts => rfl⟩
    | true =>
      simp only [if_true]
      split
      · exact .inr ⟨.throws .readTimeout, _, _, by simp, fun ts => rfl⟩
      · split
        · exact .inr ⟨.threadInterrupted, _, _, by simp, fun ts => rfl⟩
        · exact .inl ⟨buf, _, fun ts => rfl⟩
  | error =>
    simp only []
    split
    · exact .inr ⟨_, _, _, by simp, fun ts => rfl⟩
    · exact .inr ⟨_, _, _, by simp, fun ts => rfl⟩

/-- An idle poll makes a read with a timeout give up, and leaves one without it waiting. -/
theorem HIDBuffer.fill_idle (dev : Handle) {length : Nat} (timeout : Bool) (start : Int) {t : τ}
    {buf : HIDBuffer} {w : World δ} (hlen : buf.bytes.length < length)
    (ht : w.Idle E dev timeout t) :
    ∃ e s', HIDBuffer.fill E dev length timeout start [t] buf w = .error e s' ∧
      IdleEnd timeout e := by
  rw [HIDBuffer.fill, if_neg (Nat.not_le.mpr hlen)]
  simp only [ht.silent]
  cases timeout with
  | false =>
    simp only [Bool.false_eq_true, if_false]
    rw [HIDBuffer.fill, if_neg (Nat.not_le.mpr hlen)]
    exact ⟨_, _, rfl, .waiting⟩
  | true =>
    simp only [if_true, World.locked_dev, ht.requested rfl]
    split
    · exact ⟨_, _, rfl, .timedOut⟩
    · exact ⟨_, _, rfl, .interrupted⟩

/-- With bytes enough in the buffer no poll is made. -/
theorem HIDBuffer.fill_enough_resumes (dev : Handle) {length : Nat} (timeout : Bool) (start : Int)
    (ts : List τ) {buf : HIDBuffer} (w : World δ) (h : length ≤ buf.bytes.length) :
    IoResumes E dev timeout
      (fun s => HIDBuffer.fill E dev length timeout start s.ticks s.buf s.world) ⟨buf, w, ts⟩ := by
  unfold IoResumes Resumes
  simp only [HIDBuffer.fill_enough E dev timeout start w h, IoState.more]
  intro _
  trivial

theorem HIDBuffer.fill_resumes (dev : Handle) (length : Nat) (timeout : Bool) (start : Int)
    (ts : List τ) (buf : HIDBuffer) (w : World δ) :
    IoResumes E dev timeout
      (fun s => HIDBuffer.fill E dev length timeout start s.ticks s.buf s.world) ⟨buf, w, ts⟩ := by
  induction ts generalizing buf w with
  | nil =>
    rcases Nat.lt_or_ge buf.bytes.length length with hlen | hlen
    · unfold IoResumes Resumes
      simp only [HIDBuffer.fill, if_neg (Nat.not_le.mpr hlen)]
      refine ⟨fun h => absurd rfl h, ?_⟩
      intro _ t ht
      exact HIDBuffer.fill_idle E dev timeout start hlen ht
    · exact HIDBuffer.fill_enough_resumes E dev timeout start [] w hlen
  | cons t ts ih =>
    rcases Nat.lt_or_ge buf.bytes.length length with hlen | hlen
    · rcases HIDBuffer.fill_cons E dev timeout start t w hlen with
        ⟨buf', w', heq⟩ | ⟨e, buf', w', he, heq⟩
      · exact (ih buf' w').congr (heq ts) fun us => heq (ts ++ us)
      · unfold IoResumes Resumes
        simp only [heq]
        refine ⟨fun _ us => heq (ts ++ us), fun h => absurd h he⟩
    · exact HIDBuffer.fill_enough_resumes E dev timeout start (t :: ts) w hlen

theorem HIDBuffer.read_resumes (dev : Handle) (length : Nat) (timeout : Bool) (s : IoState τ δ) :
    IoResumes E dev timeout (HIDBuffer.read E dev length timeout) s := by
  have h := HIDBuffer.fill_resumes E dev length timeout (E.time s.world.dev) s.ticks s.buf s.world
  unfold IoResumes Resumes at h ⊢
  unfold HIDBuffer.read
  cases hfill : HIDBuffer.fill E dev length timeout (E.time s.world.dev) s.ticks s.buf s.world with
  | ok u s' =>
    simp only [hfill, IoState.more] at h ⊢
    intro us
    rw [h us]
  | error e s' =>
    simp only [hfill, IoState.more] at h ⊢
    constructor
    · intro he us
      rw [h.1 he us]
    · intro he t ht
      obtain ⟨e', s'', heq, hend⟩ := h.2 he t ht
      exact ⟨e', s'', by rw [heq], hend⟩

/-! ## Reading a message -/

/-- Rounds enough are as good as any other number of them. -/
theorem DeviceChannel.align_fuel (dev : Handle) (timeout : Bool) {fuel fuel' : Nat}
    {s : IoState τ δ} (h : s.size < fuel) (h' : s.size < fuel') :
    DeviceChannel.align E dev timeout fuel s = DeviceChannel.align E dev timeout fuel' s := by
  induction fuel generalizing s fuel' with
  | zero => omega
  | succ fuel ih =>
    cases fuel' with
    | zero => omega
    | succ fuel' =>
      rw [DeviceChannel.align, DeviceChannel.align]
      cases hr : HIDBuffer.read E dev 1 timeout s with
      | ok header s' =>
        obtain ⟨-, -, hsize⟩ := HIDBuffer.read_polled E hr
        rw [Exec.bind_ok hr, Exec.bind_ok hr]
        split
        · exact ih (by omega) (by omega)
        · rfl
      | error e s' => rw [Exec.bind_error hr, Exec.bind_error hr]

/-- The loop of the source: no rounds are counted. -/
theorem DeviceChannel.alignAll_eq (dev : Handle) (timeout : Bool) (s : IoState τ δ) :
    DeviceChannel.alignAll E dev timeout s = (do
      let header ← HIDBuffer.read E dev 1 timeout
      if header.getD 0 0 ≠ 35 then DeviceChannel.alignAll E dev timeout else pure ()) s := by
  rw [DeviceChannel.alignAll, DeviceChannel.align]
  cases hr : HIDBuffer.read E dev 1 timeout s with
  | ok header s' =>
    obtain ⟨-, -, hsize⟩ := HIDBuffer.read_polled E hr
    rw [Exec.bind_ok hr, Exec.bind_ok hr]
    split
    · exact DeviceChannel.align_fuel E dev timeout (by omega) (Nat.lt_succ_self _)
    · rfl
  | error e s' => rw [Exec.bind_error hr, Exec.bind_error hr]

theorem DeviceChannel.alignAll_resumes (dev : Handle) (timeout : Bool) (s : IoState τ δ) :
    IoResumes E dev timeout (DeviceChannel.alignAll E dev timeout) s := by
  -- by induction on the polls and bytes left: each round uses up a byte
  induction hn : s.size using Nat.strongRecOn generalizing s with
  | ind n ih =>
    refine Resumes.congr ?_ (DeviceChannel.alignAll_eq E dev timeout s) fun us =>
      DeviceChannel.alignAll_eq E dev timeout (s.more us)
    apply (HIDBuffer.read_resumes E dev 1 timeout s).bind
    intro header s' hr
    obtain ⟨-, -, hsize⟩ := HIDBuffer.read_polled E hr
    split
    · exact ih s'.size (by omega) s' rfl
    · exact (Steady.pure ()).resumes s'

theorem DeviceChannel.readHeader_resumes (dev : Handle) (timeout : Bool) (s : IoState τ δ) :
    IoResumes E dev timeout (DeviceChannel.readHeader E dev timeout) s := by
  rw [DeviceChannel.readHeader_eq]
  apply (DeviceChannel.alignAll_resumes E dev timeout s).bind
  intro _ s1 _
  apply (HIDBuffer.read_resumes E dev 1 timeout s1).bind
  intro header s2 _
  split
  · exact (Steady.throw (by simp)).resumes s2
  · apply (HIDBuffer.read_resumes E dev 6 timeout s2).bind
    intro header s3 _
    exact (Steady.pure _).resumes s3

theorem steady_liftExcept {σ α : Type} {more : σ → List τ → σ} (x : Except Exception α) :
    Steady more .pending (liftExcept x : EStateM Stop σ α) := by
  intro s
  cases x with
  | ok a => exact fun _ => rfl
  | error e => exact ⟨by simp, fun _ => rfl⟩

theorem DeviceChannel.read_resumes (dev : Handle) (timeout : Bool) (s : IoState τ δ) :
    IoResumes E dev timeout (DeviceChannel.read E P pool dev timeout) s := by
  apply (DeviceChannel.readHeader_resumes E dev timeout s).bind
  rintro ⟨type, length⟩ s1 -
  simp only []
  split
  · exact (Steady.throw (by simp)).resumes s1
  · apply (HIDBuffer.read_resumes E dev _ timeout s1).bind
    intro msgbuf s2 _
    rw [funext (decode_lift P pool type msgbuf)]
    exact (steady_liftExcept _).resumes s2

theorem HIDBuffer.writePieces_steady (dev : Handle) (pieces : List (List UInt8)) :
    IoSteady (HIDBuffer.writePieces E dev pieces) := by
  induction pieces with
  | nil => exact fun _ _ => rfl
  | cons piece pieces ih =>
    intro s
    by_cases hlt : sizeT (E.hidWrite s.world.dev dev (writeChunk piece)).1 < 64
    · simp only [HIDBuffer.writePieces, if_pos hlt, IoState.more]
      cases E.errorText _ dev with
      | ok text => exact ⟨by simp, fun _ => if_pos hlt⟩
      | error e => exact ⟨by simp, fun _ => if_pos hlt⟩
    · have h := ih ⟨s.buf, s.world.locked [.write dev (writeChunk piece)
        (E.hidWrite s.world.dev dev (writeChunk piece)).1]
        (E.hidWrite s.world.dev dev (writeChunk piece)).2, s.ticks⟩
      simp only [HIDBuffer.writePieces, if_neg hlt]
      split at h
      · next heq =>
        rw [heq]
        exact fun us => (if_neg hlt).trans (h us)
      · next heq =>
        rw [heq]
        exact ⟨h.1, fun us => (if_neg hlt).trans (h.2 us)⟩

theorem DeviceChannel.write_resumes (dev : Handle) (timeout : Bool) (message : Msg)
    (s : IoState τ δ) : IoResumes E dev timeout (DeviceChannel.write E P pool dev message) s := by
  apply ((steady_liftExcept _).resumes s).bind
  intro type s' _
  exact (HIDBuffer.writePieces_steady E dev _).resumes s'

/-! ## A job -/

theorem onChannel_resumes {α : Type} {timeout : Bool} {op : Handle → IoM τ δ α}
    (hop : ∀ dev io, IoResumes E dev timeout (op dev) io) (s : ExecState τ δ κ Map) :
    ExecResumes E timeout (onChannel op) s := by
  cases hch : s.channel with
  | none =>
    unfold ExecResumes Resumes
    simp only [onChannel, ExecState.more, hch]
    exact ⟨fun _ _ => trivial, by simp⟩
  | some ch =>
    cases hbuf : s.heap ch.buffer with
    | none =>
      unfold ExecResumes Resumes
      simp only [onChannel, ExecState.more, hch, hbuf]
      exact ⟨fun _ _ => trivial, by simp⟩
    | some buf =>
      have h := hop ch.device ⟨buf, s.world, s.ticks⟩
      unfold IoResumes Resumes at h
      unfold ExecResumes Resumes
      simp only [IoState.more] at h
      cases hr : op ch.device ⟨buf, s.world, s.ticks⟩ with
      | ok a io =>
        rw [hr] at h
        simp only [onChannel, ExecState.more, hch, hbuf, hr]
        intro us
        rw [h us]
      | error e io =>
        rw [hr] at h
        simp only [onChannel, ExecState.more, hch, hbuf, hr]
        constructor
        · intro he us
          rw [h.1 he us]
        · rintro he t ⟨_, ⟨⟩, ht⟩
          obtain ⟨e', io', hidle, hend⟩ := h.2 he t ht
          rw [hidle]
          exact ⟨e', _, rfl, hend⟩

theorem steady_ensureBuffer : ExecSteady (ensureBuffer : ExecM τ δ κ Map Unit) := by
  intro s
  unfold ensureBuffer
  cases hb : s.buffer with
  | some p =>
    simp only [ExecState.more, hb]
    exact fun _ => trivial
  | none =>
    simp only [ExecState.more, hb]
    exact fun _ => trivial

theorem steady_ensureChannel : ExecSteady (ensureChannel E path : ExecM τ δ κ Map Unit) := by
  intro s
  unfold ensureChannel
  cases hch : s.channel with
  | some ch =>
    simp only [ExecState.more, hch]
    exact fun _ => trivial
  | none =>
    cases hb : s.buffer with
    | none =>
      simp only [ExecState.more, hch, hb]
      exact ⟨by simp, fun _ => trivial⟩
    | some p =>
      simp only [ExecState.more, hch, hb]
      cases DeviceChannel.open E path s.world with
      | mk res w =>
        cases res with
        | ok h => exact fun _ => rfl
        | error e => exact ⟨by simp, fun _ => rfl⟩

theorem steady_invokeAsync (callbacks : κ) (answer : Answer Map) :
    ExecSteady (invokeAsync J callbacks answer : ExecM τ δ κ Map Unit) := by
  intro s
  unfold invokeAsync
  cases J.invokeAsync callbacks answer with
  | ok u => exact fun _ => rfl
  | error e => exact ⟨by simp, fun _ => rfl⟩

theorem resetChannel_more (s : ExecState τ δ κ Map) (us : List τ) :
    resetChannel E (s.more us) = (resetChannel E s).more us := by
  cases hch : s.channel with
  | none => simp only [resetChannel, ExecState.more, hch]
  | some ch => simp only [resetChannel, ExecState.more, hch]

theorem resetBuffer_more (s : ExecState τ δ κ Map) (us : List τ) :
    resetBuffer (s.more us) = (resetBuffer s).more us := by
  cases hb : s.buffer with
  | none => simp only [resetBuffer, ExecState.more, hb]
  | some p => simp only [resetBuffer, ExecState.more, hb]

theorem call_resumes (job : DeviceCallJob κ Map) (s : ExecState τ δ κ Map) :
    ExecResumes E job.useTimeout (call E P J pool job) s := by
  apply ((steady_liftExcept _).resumes s).bind
  intro inmsg s1 _
  apply ((steady_liftExcept _).resumes s1).bind
  intro inmsg s2 _
  apply Resumes.bind
  · exact onChannel_resumes E (fun dev io => DeviceChannel.write_resumes E P pool dev _ inmsg io) s2
  · intro _ s3 _
    apply Resumes.bind
    · exact onChannel_resumes E (fun dev io => DeviceChannel.read_resumes E P pool dev _ io) s3
    · intro outmsg s4 _
      apply ((steady_liftExcept _).resumes s4).bind
      intro map s5 _
      exact (steady_invokeAsync J _ _).resumes s5

/-- `use_timeout`; the other jobs read nothing. -/
def DeviceJob.useTimeout : DeviceJob κ Map → Bool
  | .closeJob _ => true
  | .openJob _ => true
  | .callJob job => job.useTimeout

/-- The operation has come to its end, by returning, by an exception or by the interruption. -/
def Over {σ α : Type} : EStateM.Result Stop σ α → Prop
  | .ok _ _ => True
  | .error (.throws _) _ => True
  | .error .threadInterrupted _ => True
  | .error .pending _ => False
  | .error .undefined _ => False

/-- A job waits in its body: its callbacks do not wait. -/
theorem reporting_pending {callbacks : κ} {body : ExecM τ δ κ Map Unit}
    {s f : ExecState τ δ κ Map} (h : reporting J callbacks body s = .error .pending f) :
    body s = .error .pending f := by
  unfold reporting at h
  cases hb : body s with
  | ok u s' =>
    rw [hb] at h
    cases h
  | error e s' =>
    rw [hb] at h
    cases e with
    | throws x =>
      simp only [invokeAsync] at h
      split at h <;> cases h
    | pending =>
      cases h
      rfl
    | threadInterrupted => cases h
    | undefined => cases h

theorem reporting_idle {timeout : Bool} {callbacks : κ} {body : ExecM τ δ κ Map Unit}
    {s f : ExecState τ δ κ Map} (hbody : ExecResumes E timeout body s)
    (h : reporting J callbacks body s = .error .pending f) {t : τ} {ch : DeviceChannel}
    (hch : f.channel = some ch) (ht : f.world.Idle E ch.device timeout t) :
    (timeout = false → ∃ f', reporting J callbacks body (s.more [t]) = .error .pending f') ∧
    (timeout = true → Over (reporting J callbacks body (s.more [t]))) := by
  unfold ExecResumes Resumes at hbody
  rw [reporting_pending J h] at hbody
  obtain ⟨e, s', hmore, hend⟩ := hbody.2 rfl t ⟨ch, hch, ht⟩
  unfold reporting
  rw [hmore]
  cases hend with
  | waiting => exact ⟨fun _ => ⟨s', rfl⟩, by simp⟩
  | interrupted => exact ⟨by simp, fun _ => trivial⟩
  | timedOut =>
    refine ⟨by simp, ?_⟩
    intro _
    simp only [invokeAsync]
    split <;> trivial

/-- **One poll more.**  The next poll of a pending job brings nothing: a call that minds its timeout
ends, any other waits on. -/
theorem execute_idle (job : DeviceJob κ Map) {s f : ExecState τ δ κ Map}
    (h : execute E P J pool path job s = .error .pending f) {t : τ} {ch : DeviceChannel}
    (hch : f.channel = some ch) (ht : f.world.Idle E ch.device job.useTimeout t) :
    (job.useTimeout = false →
      ∃ f', execute E P J pool path job (s.more [t]) = .error .pending f') ∧
    (job.useTimeout = true → Over (execute E P J pool path job (s.more [t]))) := by
  cases job with
  | closeJob callbacks =>
    apply reporting_idle E J ?_ h hch ht
    apply ((Steady.modify (resetChannel_more E)).resumes s).bind
    intro _ s1 _
    apply ((Steady.modify resetBuffer_more).resumes s1).bind
    intro _ s2 _
    exact (steady_invokeAsync J _ _).resumes s2
  | openJob callbacks =>
    apply reporting_idle E J ?_ h hch ht
    apply (steady_ensureBuffer.resumes s).bind
    intro _ s1 _
    apply ((steady_ensureChannel E path).resumes s1).bind
    intro _ s2 _
    exact (steady_invokeAsync J _ _).resumes s2
  | callJob job =>
    apply reporting_idle E J ?_ h hch ht
    apply (steady_ensureBuffer.resumes s).bind
    intro _ s1 _
    apply ((steady_ensureChannel E path).resumes s1).bind
    intro _ s2 _
    exact call_resumes E P J pool job s2

/-! ## Where a job waits -/

/-- The executor has a channel. -/
def ExecState.Opened (s : ExecState τ δ κ Map) : Prop := ∃ ch, s.channel = some ch

theorem reporting_waits {I : ExecState τ δ κ Map → Prop} {callbacks : κ}
    {body : ExecM τ δ κ Map Unit} (hbody : WaitsIn .pending I body) :
    WaitsIn .pending I (reporting J callbacks body) := fun s f h =>
  hbody s f (reporting_pending J h)

theorem onChannel_waits {α : Type} (op : Handle → IoM τ δ α) :
    WaitsIn .pending ExecState.Opened (onChannel op : ExecM τ δ κ Map α) := by
  intro s s' h
  cases hch : s.channel with
  | none =>
    simp only [onChannel, hch] at h
    cases h
  | some ch =>
    cases hbuf : s.heap ch.buffer with
    | none =>
      simp only [onChannel, hch, hbuf] at h
      cases h
    | some buf =>
      simp only [onChannel, hch, hbuf] at h
      split at h
      · cases h
      · cases h
        exact ⟨ch, rfl⟩

theorem call_waits (job : DeviceCallJob κ Map) :
    WaitsIn .pending ExecState.Opened
      (call E P J pool job : ExecM τ δ κ Map Unit) := by
  have hlift : ∀ {α : Type} (x : Except Exception α),
      WaitsIn .pending ExecState.Opened (liftExcept x : ExecM τ δ κ Map α) := by
    intro α x
    have hsteady : ExecSteady (liftExcept x : ExecM τ δ κ Map α) := steady_liftExcept x
    exact hsteady.waitsIn _
  refine WaitsIn.bind (hlift _) ?_
  intro inmsg
  refine WaitsIn.bind (hlift _) ?_
  intro inmsg
  refine WaitsIn.bind (onChannel_waits _) ?_
  intro _
  refine WaitsIn.bind (onChannel_waits _) ?_
  intro outmsg
  refine WaitsIn.bind (hlift _) ?_
  intro map
  exact (steady_invokeAsync J _ _).waitsIn _

/-- **A job that waits** has a channel, on whose handle it polls. -/
theorem execute_waits (job : DeviceJob κ Map) :
    WaitsIn .pending ExecState.Opened (execute E P J pool path job : ExecM τ δ κ Map Unit) := by
  cases job with
  | closeJob callbacks =>
    apply reporting_waits
    refine WaitsIn.bind ((Steady.modify (resetChannel_more E)).waitsIn _) ?_
    intro _
    refine WaitsIn.bind ((Steady.modify resetBuffer_more).waitsIn _) ?_
    intro _
    exact (steady_invokeAsync J _ _).waitsIn _
  | openJob callbacks =>
    apply reporting_waits
    refine WaitsIn.bind (steady_ensureBuffer.waitsIn _) ?_
    intro _
    refine WaitsIn.bind ((steady_ensureChannel E path).waitsIn _) ?_
    intro _
    exact (steady_invokeAsync J _ _).waitsIn _
  | callJob job =>
    apply reporting_waits
    refine WaitsIn.bind (steady_ensureBuffer.waitsIn _) ?_
    intro _
    refine WaitsIn.bind ((steady_ensureChannel E path).waitsIn _) ?_
    intro _
    exact call_waits E P J pool job

end TrezorPlugin
