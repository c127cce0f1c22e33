import TrezorPlugin.Executor
import TrezorPlugin.StreamParser
import TrezorPlugin.Lib.Run

/-!
# JobQueue and DeviceCommunicator (plugin.h, plugin.cpp)

The API thread puts jobs into the queue; the consumer thread takes them out and
lets the executor run them.  `put`, the test of the queue with its `wait`, and
`take` happen under the queue's mutex, so they are single steps; a job runs
outside it, and puts may come before it ends.

    jobs put = jobs answered ++ the job taken ++ the queue        (jobs_answered_in_order)

in every state of every interleaving, with one callback for each job answered.  As
long as no interruption is requested, nothing ends the consumer (`execute_calm`): a
job that fails sends it back to the queue.
-/

namespace TrezorPlugin

variable {τ δ κ Msg Map : Type} (E : Env τ δ) (P : Protobuf Msg) (J : Scripting κ Msg Map)
variable (path : String)

/-! ## The queue and its two threads -/

/-- Where the consumer thread is. -/
inductive Consumer (κ Map : Type)
  /-- About to lock the queue. -/
  | taking
  /-- In `_cond.wait(lock)`, and whether `notify_one` has reached it. -/
  | waiting (notified : Bool)
  /-- `boost::apply_visitor(exec, job)`. -/
  | running (job : DeviceJob κ Map)
  /-- Interrupted: the thread has left `consumer()`. -/
  | finished

structure Communicator (τ δ κ Map : Type) where
  queue : List (DeviceJob κ Map)
  consumer : Consumer κ Map
  exec : ExecState τ δ κ Map

inductive CommStep (τ κ Map : Type)
  /-- The API thread: `_queue.put(job)`. -/
  | put (job : DeviceJob κ Map)
  | wait
  /-- A notification, or a spurious wakeup. -/
  | wake
  | take
  /-- A `std::exception` out of `take`, before it pops. -/
  | takeThrows
  /-- The job runs to its end, with the schema loaded by then and these polls. -/
  | run (pool : DescriptorPool) (ticks : List τ)
  /-- `_thread.interrupt()`, noticed in `take`. -/
  | interrupt

/-- `notify_one`. -/
def Consumer.notify {κ Map : Type} : Consumer κ Map → Consumer κ Map
  | .waiting _ => .waiting true
  | c => c

def commStep (s : Communicator τ δ κ Map) : CommStep τ κ Map → Option (Communicator τ δ κ Map)
  | .put job => some { s with queue := s.queue ++ [job], consumer := s.consumer.notify }
  | .wait =>
    match s.consumer, s.queue with
    | .taking, [] => some { s with consumer := .waiting false }
    | _, _ => none
  | .wake =>
    match s.consumer with
    | .waiting _ => some { s with consumer := .taking }
    | _ => none
  | .take =>
    match s.consumer, s.queue with
    | .taking, job :: queue => some { s with queue := queue, consumer := .running job }
    | _, _ => none
  | .takeThrows =>
    match s.consumer with
    | .taking => some s
    | _ => none
  | .run pool ticks =>
    match s.consumer with
    | .running job =>
      match execute E P J pool path job { s.exec with ticks := ticks } with
      | .ok () exec => some { s with consumer := .taking, exec := exec }
      -- `consumer()` logs the exception and goes on
      | .error (.throws _) exec => some { s with consumer := .taking, exec := exec }
      | .error .threadInterrupted exec =>
        some { s with consumer := .finished, exec := destroy E exec }
      | .error _ _ => none
    | _ => none
  | .interrupt =>
    match s.consumer with
    | .taking => some { s with consumer := .finished, exec := destroy E s.exec }
    | .waiting _ => some { s with consumer := .finished, exec := destroy E s.exec }
    | _ => none

def Communicator.new (dev : δ) : Communicator τ δ κ Map := ⟨[], .taking, ExecState.new dev []⟩

/-- What a step needs, and what it leads to. -/
inductive CommStepped (s s' : Communicator τ δ κ Map) : CommStep τ κ Map → Prop
  | put {job : DeviceJob κ Map} :
      s' = { s with queue := s.queue ++ [job], consumer := s.consumer.notify } →
      CommStepped s s' (.put job)
  | wait : s.consumer = .taking → s.queue = [] → s' = { s with consumer := .waiting false } →
      CommStepped s s' .wait
  | wake {notified : Bool} : s.consumer = .waiting notified →
      s' = { s with consumer := .taking } → CommStepped s s' .wake
  | take {job : DeviceJob κ Map} {queue : List (DeviceJob κ Map)} :
      s.consumer = .taking → s.queue = job :: queue →
      s' = { s with queue := queue, consumer := .running job } → CommStepped s s' .take
  | takeThrows : s.consumer = .taking → s' = s → CommStepped s s' .takeThrows
  /-- The job returned, or `consumer()` caught what it threw. -/
  | ended {pool : DescriptorPool} {ticks : List τ} {job : DeviceJob κ Map}
      {exec : ExecState τ δ κ Map} : s.consumer = .running job →
      (execute E P J pool path job { s.exec with ticks := ticks } = .ok () exec ∨
        ∃ x, execute E P J pool path job { s.exec with ticks := ticks } = .error (.throws x) exec) →
      s' = { s with consumer := .taking, exec := exec } → CommStepped s s' (.run pool ticks)
  | stopped {pool : DescriptorPool} {ticks : List τ} {job : DeviceJob κ Map}
      {exec : ExecState τ δ κ Map} : s.consumer = .running job →
      execute E P J pool path job { s.exec with ticks := ticks } = .error .threadInterrupted exec →
      s' = { s with consumer := .finished, exec := destroy E exec } →
      CommStepped s s' (.run pool ticks)
  | interrupt : (s.consumer = .taking ∨ ∃ notified, s.consumer = .waiting notified) →
      s' = { s with consumer := .finished, exec := destroy E s.exec } → CommStepped s s' .interrupt

theorem commStep_cases {s s' : Communicator τ δ κ Map} {l : CommStep τ κ Map}
    (h : commStep E P J path s l = some s') : CommStepped E P J path s s' l := by
  cases l with
  | put job => exact .put (Option.some.inj h).symm
  | wait =>
    simp only [commStep] at h
    split at h
    · next hc hq => exact .wait hc hq (Option.some.inj h).symm
    · cases h
  | wake =>
    simp only [commStep] at h
    split at h
    · next hc => exact .wake hc (Option.some.inj h).symm
    · cases h
  | take =>
    simp only [commStep] at h
    split at h
    · next hc hq => exact .take hc hq (Option.some.inj h).symm
    · cases h
  | takeThrows =>
    simp only [commStep] at h
    split at h
    · next hc => exact .takeThrows hc (Option.some.inj h).symm
    · cases h
  | run pool ticks =>
    simp only [commStep] at h
    split at h
    · next job hc =>
      split at h
      · next exec heq => exact .ended hc (.inl heq) (Option.some.inj h).symm
      · next x exec heq => exact .ended hc (.inr ⟨x, heq⟩) (Option.some.inj h).symm
      · next exec heq => exact .stopped hc heq (Option.some.inj h).symm
      · cases h
    · cases h
  | interrupt =>
    simp only [commStep] at h
    split at h
    · next hc => exact .interrupt (.inl hc) (Option.some.inj h).symm
    · next hc => exact .interrupt (.inr ⟨_, hc⟩) (Option.some.inj h).symm
    · cases h

/-! ## One job, one callback -/

/-- The operation invokes no callback. -/
abbrev Silent {α : Type} (x : ExecM τ δ κ Map α) : Prop :=
  Exec.Keeps (fun s s' => s'.fired = s.fired) x

/-- The operation invokes the callbacks with success when it returns, and not at all otherwise. -/
def Succeeds (callbacks : κ) (x : ExecM τ δ κ Map Unit) : Prop :=
  ∀ s, match x s with
    | .ok () s' => ∃ args, s'.fired = s.fired ++ [(callbacks, .success args)]
    | .error _ s' => s'.fired = s.fired

theorem Succeeds.bind {callbacks : κ} {α : Type} {x : ExecM τ δ κ Map α}
    {f : α → ExecM τ δ κ Map Unit} (hx : Silent x) (hf : ∀ a, Succeeds callbacks (f a)) :
    Succeeds callbacks (x >>= f) := by
  intro s
  have h := hx s
  rcases Exec.bind_cases x f s with ⟨a, s', hs, heq⟩ | ⟨e, s', hs, heq⟩
  · rw [hs, Exec.final_ok] at h
    rw [heq]
    have h' := hf a s'
    rwa [h] at h'
  · rw [hs] at h
    rw [heq]
    exact h

theorem silent_liftExcept {α : Type} (x : Except Exception α) :
    Silent (liftExcept x : ExecM τ δ κ Map α) := by
  intro s
  cases x <;> rfl

theorem silent_modify {f : ExecState τ δ κ Map → ExecState τ δ κ Map}
    (hf : ∀ s, (f s).fired = s.fired) : Silent (modify f) := hf

theorem silent_onChannel {α : Type} (op : Handle → IoM τ δ α) :
    Silent (onChannel op : ExecM τ δ κ Map α) := by
  intro s
  unfold onChannel
  repeat' split
  all_goals rfl

theorem silent_ensureBuffer : Silent (ensureBuffer : ExecM τ δ κ Map Unit) := by
  intro s
  unfold ensureBuffer
  split <;> rfl

theorem silent_ensureChannel : Silent (ensureChannel E path : ExecM τ δ κ Map Unit) := by
  intro s
  unfold ensureChannel
  repeat' split
  all_goals rfl

theorem resetChannel_fired (s : ExecState τ δ κ Map) : (resetChannel E s).fired = s.fired := by
  unfold resetChannel
  split <;> rfl

theorem resetBuffer_fired (s : ExecState τ δ κ Map) : (resetBuffer s).fired = s.fired := by
  unfold resetBuffer
  split <;> rfl

theorem succeeds_invokeAsync (callbacks : κ) (args : Option (String × Map)) :
    Succeeds callbacks (invokeAsync J callbacks (.success args) : ExecM τ δ κ Map Unit) := by
  intro s
  unfold invokeAsync
  cases J.invokeAsync callbacks (.success args) with
  | ok u => exact ⟨args, rfl⟩
  | error e => rfl

theorem call_succeeds (pool : DescriptorPool) (job : DeviceCallJob κ Map) :
    Succeeds job.callbacks (call E P J pool job) := by
  refine .bind (silent_liftExcept _) ?_
  intro inmsg
  refine .bind (silent_liftExcept _) ?_
  intro inmsg
  refine .bind (silent_onChannel _) ?_
  intro _
  refine .bind (silent_onChannel _) ?_
  intro outmsg
  refine .bind (silent_liftExcept _) ?_
  intro map
  exact succeeds_invokeAsync J _ _

/-- What a job's end does to the callbacks, when `InvokeAsync` itself does not throw. -/
def AnsweredOnce (callbacks : κ) (x : ExecM τ δ κ Map Unit) : Prop :=
  ∀ s, match x s with
    | .ok () s' => ∃ answer, s'.fired = s.fired ++ [(callbacks, answer)]
    | .error e s' => s'.fired = s.fired ∧ ∀ x, e ≠ .throws x

theorem reporting_answers (hJ : ∀ callbacks answer, J.invokeAsync callbacks answer = .ok ())
    {callbacks : κ} {body : ExecM τ δ κ Map Unit} (hbody : Succeeds callbacks body) :
    AnsweredOnce callbacks (reporting J callbacks body) := by
  intro s
  have h := hbody s
  unfold reporting
  cases hb : body s with
  | ok u s' =>
    rw [hb] at h
    obtain ⟨args, h⟩ := h
    exact ⟨.success args, h⟩
  | error e s' =>
    rw [hb] at h
    cases e with
    | throws x =>
      simp only [invokeAsync, hJ]
      exact ⟨.error x.what, by rw [show s'.fired = s.fired from h]⟩
    | threadInterrupted => exact ⟨h, nofun⟩
    | pending => exact ⟨h, nofun⟩
    | undefined => exact ⟨h, nofun⟩

/-- The success callback is invoked only by a body that returns. -/
theorem reporting_success {callbacks : κ} {body : ExecM τ δ κ Map Unit}
    (hbody : Succeeds callbacks body) {s : ExecState τ δ κ Map} {args : Option (String × Map)}
    (hfired : (Exec.final (reporting J callbacks body s)).fired =
      s.fired ++ [(callbacks, .success args)]) :
    body s = .ok () (Exec.final (reporting J callbacks body s)) := by
  have h := hbody s
  unfold reporting at hfired ⊢
  cases hb : body s with
  | ok u s' => rfl
  | error e s' =>
    rw [hb] at h
    have hsilent : s'.fired = s.fired := h
    simp only [hb] at hfired
    cases e with
    | throws x =>
      simp only [invokeAsync] at hfired
      split at hfired <;> simp [hsilent] at hfired
    | threadInterrupted | pending | undefined => simp [hsilent] at hfired

/-- **One job, one callback.**  A job that comes to its end has invoked its callbacks once, with
success or with an error, and lets no exception out. -/
theorem execute_answers (hJ : ∀ callbacks answer, J.invokeAsync callbacks answer = .ok ())
    (pool : DescriptorPool) (job : DeviceJob κ Map) :
    AnsweredOnce job.callbacks (execute E P J pool path job) := by
  cases job with
  | closeJob callbacks =>
    apply reporting_answers J hJ
    refine .bind (silent_modify (resetChannel_fired E)) ?_
    intro _
    refine .bind (silent_modify resetBuffer_fired) ?_
    intro _
    exact succeeds_invokeAsync J _ _
  | openJob callbacks =>
    apply reporting_answers J hJ
    refine .bind silent_ensureBuffer ?_
    intro _
    refine .bind (silent_ensureChannel E path) ?_
    intro _
    exact succeeds_invokeAsync J _ _
  | callJob job =>
    apply reporting_answers J hJ
    refine .bind silent_ensureBuffer ?_
    intro _
    refine .bind (silent_ensureChannel E path) ?_
    intro _
    exact call_succeeds E P J pool job

/-! ## Without an interruption -/

/-- No interruption of the thread is requested when the poll `t` is back. -/
def Env.Calm (t : τ) : Prop :=
  ∀ d dev, E.interruptionRequested (E.hidReadTimeout d dev t).2 = false

/-- How an operation ends early while no interruption is requested: it still waits only if its polls
are used up. -/
def Uninterrupted (ticks : List τ) : Stop → Prop
  | .threadInterrupted => False
  | .pending => ticks = []
  | _ => True

/-- The operation does not end in an interruption, if none is requested during the polls to come. -/
abbrev IoCalm {α : Type} (x : IoM τ δ α) : Prop :=
  Exec.Exits (fun s => ∀ t ∈ s.ticks, E.Calm t) (fun e s => Uninterrupted s.ticks e) x

abbrev ExecCalm {α : Type} (x : ExecM τ δ κ Map α) : Prop :=
  Exec.Exits (fun s => ∀ t ∈ s.ticks, E.Calm t) (fun e s => Uninterrupted s.ticks e) x

theorem fill_calm (dev : Handle) (length : Nat) (timeout : Bool) (start : Int) (ts : List τ)
    (buf : HIDBuffer) (w : World δ) (hts : ∀ t ∈ ts, E.Calm t) (e : Stop) (s' : IoState τ δ)
    (h : HIDBuffer.fill E dev length timeout start ts buf w = .error e s') :
    Uninterrupted s'.ticks e := by
  induction ts generalizing buf w with
  | nil =>
    rw [HIDBuffer.fill] at h
    split at h
    · cases h
    · cases h
      rfl
  | cons t ts ih =>
    rw [List.forall_mem_cons] at hts
    rcases Nat.lt_or_ge buf.bytes.length length with hlen | hlen
    · rcases HIDBuffer.fill_round E dev length timeout start t ts buf w hlen with
        ⟨buf', w', heq, -⟩ | ⟨e', w', heq, -, -, hwhy⟩
      · rw [heq] at h
        exact ih buf' w' hts.2 h
      · rw [heq] at h
        cases h
        rcases hwhy with ⟨he, -⟩ | hg
        · subst he
          trivial
        · cases hg with
          | interrupted _ _ hi => exact absurd ((hts.1 w.dev dev).symm.trans hi) Bool.false_ne_true
          | timedOut | device => trivial
    · rw [HIDBuffer.fill, if_pos hlen] at h
      cases h

/-- Where the polls to come are those of before or fewer, what holds of them is kept. -/
theorem IoState.Proceeds.calm {dev : Handle} {α : Type} {x : IoM τ δ α}
    (h : Exec.Keeps (IoState.Proceeds dev) x) :
    Exec.Keeps (fun s s' => (∀ t ∈ s.ticks, E.Calm t) → ∀ t ∈ s'.ticks, E.Calm t) x :=
  fun s hs t ht => hs t ((h s).1.subset ht)

theorem HIDBuffer.read_calm (dev : Handle) (length : Nat) (timeout : Bool) :
    IoCalm E (HIDBuffer.read E dev length timeout) := by
  apply Exec.Exits.of_keeps (IoState.Proceeds.calm E (HIDBuffer.read_proceeds E dev length timeout))
  intro s e s' hs hr
  unfold HIDBuffer.read at hr
  simp only [] at hr
  split at hr
  · cases hr
  · next heq =>
    cases hr
    exact fill_calm E dev length timeout _ _ _ _ hs _ _ heq

/-- The rounds of the alignment are not what it waits for: each takes a byte of those there are. -/
theorem DeviceChannel.align_calm (dev : Handle) (timeout : Bool) (fuel : Nat) {s : IoState τ δ}
    (hs : ∀ t ∈ s.ticks, E.Calm t) (hfuel : s.size < fuel) :
    Exec.Exited (fun s => ∀ t ∈ s.ticks, E.Calm t) (fun e s => Uninterrupted s.ticks e)
      (DeviceChannel.align E dev timeout fuel s) := by
  induction fuel generalizing s with
  | zero => omega
  | succ fuel ih =>
    have hcalm := HIDBuffer.read_calm E dev 1 timeout s hs
    unfold DeviceChannel.align
    rcases Exec.bind_cases (HIDBuffer.read E dev 1 timeout) (fun header =>
      if header.getD 0 0 ≠ 35 then DeviceChannel.align E dev timeout fuel else pure ()) s with
      ⟨header, s', hread, heq⟩ | ⟨e, s', hread, heq⟩
    · rw [hread] at hcalm
      rw [heq]
      split
      · have := (HIDBuffer.read_polled E hread).2.2
        exact ih hcalm (by omega)
      · exact hcalm
    · rw [hread] at hcalm
      rw [heq]
      exact hcalm

theorem DeviceChannel.alignAll_calm (dev : Handle) (timeout : Bool) :
    IoCalm E (DeviceChannel.alignAll E dev timeout) :=
  fun s hs => DeviceChannel.align_calm E dev timeout (s.size + 1) hs (Nat.lt_succ_self _)

theorem exits_liftExcept {σ α : Type} {I : σ → Prop} {ticks : σ → List τ} (x : Except Exception α) :
    Exec.Exits I (fun e s => Uninterrupted (ticks s) e) (liftExcept x) := by
  intro s hs
  cases x with
  | ok a => exact hs
  | error e => exact ⟨trivial, hs⟩

theorem DeviceChannel.readHeader_calm (dev : Handle) (timeout : Bool) :
    IoCalm E (DeviceChannel.readHeader E dev timeout) := by
  rw [DeviceChannel.readHeader_eq]
  refine .bind (DeviceChannel.alignAll_calm E dev timeout) ?_
  intro _
  refine .bind (HIDBuffer.read_calm E dev 1 timeout) ?_
  intro header
  refine .ite (.throw fun _ => trivial) ?_
  exact .bind (HIDBuffer.read_calm E dev 6 timeout) fun header => .pure _

theorem DeviceChannel.read_calm (pool : DescriptorPool) (dev : Handle) (timeout : Bool) :
    IoCalm E (DeviceChannel.read E P pool dev timeout) := by
  refine .bind (DeviceChannel.readHeader_calm E dev timeout) ?_
  rintro ⟨type, length⟩
  refine .ite (.throw fun _ => trivial) ?_
  refine .bind (HIDBuffer.read_calm E dev _ timeout) ?_
  intro msgbuf
  refine .bind (exits_liftExcept _) ?_
  intro name
  refine .bind (exits_liftExcept _) ?_
  intro message
  exact .pure _

theorem HIDBuffer.writePieces_calm (dev : Handle) (pieces : List (List UInt8)) :
    IoCalm E (HIDBuffer.writePieces E dev pieces) := by
  induction pieces with
  | nil => exact fun _ hs => hs
  | cons piece pieces ih =>
    intro s hs
    rw [HIDBuffer.writePieces]
    simp only []
    split
    · split <;> exact ⟨trivial, hs⟩
    · exact ih _ hs

theorem DeviceChannel.write_calm (pool : DescriptorPool) (dev : Handle) (message : Msg) :
    IoCalm E (DeviceChannel.write E P pool dev message) :=
  .bind (exits_liftExcept _) fun _ => HIDBuffer.writePieces_calm E dev _

theorem onChannel_calm {α : Type} {op : Handle → IoM τ δ α} (hop : ∀ dev, IoCalm E (op dev)) :
    ExecCalm E (onChannel op : ExecM τ δ κ Map α) := by
  intro s hs
  unfold onChannel
  split
  · exact ⟨trivial, hs⟩
  · next ch hch =>
    split
    · exact ⟨trivial, hs⟩
    · next buf hbuf =>
      have h := hop ch.device ⟨buf, s.world, s.ticks⟩ hs
      split <;> next heq =>
        rw [heq] at h
        exact h

theorem ensureBuffer_calm : ExecCalm E (ensureBuffer : ExecM τ δ κ Map Unit) := by
  intro s hs
  unfold ensureBuffer
  split <;> exact hs

theorem ensureChannel_calm : ExecCalm E (ensureChannel E path : ExecM τ δ κ Map Unit) := by
  intro s hs
  unfold ensureChannel
  split
  · exact hs
  · split
    · exact ⟨trivial, hs⟩
    · split
      · exact ⟨trivial, hs⟩
      · exact hs

theorem invokeAsync_calm (callbacks : κ) (answer : Answer Map) :
    ExecCalm E (invokeAsync J callbacks answer : ExecM τ δ κ Map Unit) := by
  intro s hs
  unfold invokeAsync
  cases J.invokeAsync callbacks answer with
  | ok u => exact hs
  | error e => exact ⟨trivial, hs⟩

theorem reporting_calm {callbacks : κ} {body : ExecM τ δ κ Map Unit} (hbody : ExecCalm E body) :
    ExecCalm E (reporting J callbacks body) := by
  intro s hs
  have h := hbody s hs
  unfold reporting
  cases hb : body s with
  | ok u s' =>
    rw [hb] at h
    exact h
  | error e s' =>
    rw [hb] at h
    cases e with
    | throws x => exact invokeAsync_calm E J callbacks (.error x.what) s' h.2
    | threadInterrupted | pending | undefined => exact h

theorem call_calm (pool : DescriptorPool) (job : DeviceCallJob κ Map) :
    ExecCalm E (call E P J pool job) := by
  refine .bind (exits_liftExcept _) ?_
  intro inmsg
  refine .bind (exits_liftExcept _) ?_
  intro inmsg
  refine .bind (onChannel_calm E fun dev => DeviceChannel.write_calm E P pool dev inmsg) ?_
  intro _
  refine .bind (onChannel_calm E fun dev => DeviceChannel.read_calm E P pool dev _) ?_
  intro outmsg
  refine .bind (exits_liftExcept _) ?_
  intro map
  exact invokeAsync_calm E J _ _

theorem resetChannel_ticks (s : ExecState τ δ κ Map) : (resetChannel E s).ticks = s.ticks := by
  unfold resetChannel
  split <;> rfl

theorem resetBuffer_ticks (s : ExecState τ δ κ Map) : (resetBuffer s).ticks = s.ticks := by
  unfold resetBuffer
  split <;> rfl

/-- **Without a request no job is interrupted**, and it only waits for reports. -/
theorem execute_calm (pool : DescriptorPool) (job : DeviceJob κ Map) :
    ExecCalm E (execute E P J pool path job) := by
  cases job with
  | closeJob callbacks =>
    apply reporting_calm
    refine .bind (.modify fun s hs => (resetChannel_ticks E s).symm ▸ hs) ?_
    intro _
    refine .bind (.modify fun s hs => (resetBuffer_ticks s).symm ▸ hs) ?_
    intro _
    exact invokeAsync_calm E J _ _
  | openJob callbacks =>
    apply reporting_calm
    refine .bind (ensureBuffer_calm E) ?_
    intro _
    refine .bind (ensureChannel_calm E path) ?_
    intro _
    exact invokeAsync_calm E J _ _
  | callJob job =>
    apply reporting_calm
    refine .bind (ensureBuffer_calm E) ?_
    intro _
    refine .bind (ensureChannel_calm E path) ?_
    intro _
    exact call_calm E P J pool job

/-! ## Runs of the two threads -/

/-- The jobs enqueued, in order. -/
def puts (steps : List (CommStep τ κ Map)) : List (DeviceJob κ Map) :=
  steps.filterMap fun
    | .put job => some job
    | _ => none

/-- The job taken and not yet answered. -/
def Consumer.job {κ Map : Type} : Consumer κ Map → List (DeviceJob κ Map)
  | .running job => [job]
  | _ => []

/-- The jobs `answered` got one callback each; the others are with the consumer or in the queue, but
for the one an interruption takes away. -/
def InOrder (steps : List (CommStep τ κ Map)) (s : Communicator τ δ κ Map) : Prop :=
  ∃ answered lost, s.exec.fired.map (·.1) = answered.map DeviceJob.callbacks ∧
    puts steps = answered ++ lost ++ s.consumer.job ++ s.queue ∧
    (s.consumer ≠ .finished → lost = [])

/-- A waiting consumer has been notified if there is a job for it. -/
def NotLost (s : Communicator τ δ κ Map) : Prop :=
  ∀ notified, s.consumer = .waiting notified → s.queue ≠ [] → notified = true

@[simp] theorem puts_append (steps : List (CommStep τ κ Map)) (l : CommStep τ κ Map) :
    puts (steps ++ [l]) = puts steps ++ puts [l] := List.filterMap_append

@[simp] theorem notify_job (c : Consumer κ Map) : c.notify.job = c.job := by
  cases c <;> rfl

theorem notify_finished (c : Consumer κ Map) : c.notify = .finished ↔ c = .finished := by
  cases c <;> simp [Consumer.notify]

theorem destroy_fired (s : ExecState τ δ κ Map) : (destroy E s).fired = s.fired := by
  rw [destroy, resetBuffer_fired, resetChannel_fired]

/-- A step of the consumer that leaves the queue, the job and the callbacks alone. -/
theorem InOrder.idle {steps : List (CommStep τ κ Map)} {s s' : Communicator τ δ κ Map}
    {l : CommStep τ κ Map} (hs : InOrder steps s) (hl : puts [l] = [])
    (hfired : s'.exec.fired = s.exec.fired) (hjob : s'.consumer.job = s.consumer.job)
    (hqueue : s'.queue = s.queue) (hfin : s.consumer ≠ .finished) : InOrder (steps ++ [l]) s' := by
  obtain ⟨answered, lost, h1, h2, h3⟩ := hs
  refine ⟨answered, lost, by rw [hfired, h1], ?_, fun _ => h3 hfin⟩
  rw [puts_append, hl, List.append_nil, hjob, hqueue, h2]

/-- One step of either thread. -/
theorem commStep_inOrder (hJ : ∀ callbacks answer, J.invokeAsync callbacks answer = .ok ())
    {steps : List (CommStep τ κ Map)} {s s' : Communicator τ δ κ Map} {l : CommStep τ κ Map}
    (hs : InOrder steps s) (h : commStep E P J path s l = some s') :
    InOrder (steps ++ [l]) s' := by
  obtain ⟨answered, lost, h1, h2, h3⟩ := id hs
  cases commStep_cases E P J path h with
  | put hs' =>
    subst hs'
    refine ⟨answered, lost, h1, ?_, fun hf => h3 fun hc => hf ((notify_finished _).mpr hc)⟩
    rw [puts_append, h2, notify_job, List.append_assoc _ s.queue]
    rfl
  | wait hc hq hs' =>
    subst hs'
    exact hs.idle rfl rfl (by rw [hc]; rfl) rfl (by rw [hc]; nofun)
  | wake hc hs' =>
    subst hs'
    exact hs.idle rfl rfl (by rw [hc]; rfl) rfl (by rw [hc]; nofun)
  | take hc hq hs' =>
    subst hs'
    refine ⟨answered, lost, h1, ?_, fun _ => h3 (by rw [hc]; nofun)⟩
    rw [puts_append, h2, hc, hq]
    simp [puts, Consumer.job]
  | takeThrows hc hs' =>
    subst hs'
    exact hs.idle rfl rfl rfl rfl (by rw [hc]; nofun)
  | @ended pool ticks job exec hc hend hs' =>
    subst hs'
    have ha := execute_answers E P J path hJ pool job { s.exec with ticks := ticks }
    obtain rfl := h3 (by rw [hc]; nofun)
    rcases hend with heq | ⟨x, heq⟩
    · rw [heq] at ha
      obtain ⟨answer, ha⟩ := ha
      refine ⟨answered ++ [job], [], ?_, ?_, fun _ => rfl⟩
      · rw [ha, List.map_append, List.map_append, h1]
        rfl
      · rw [puts_append, h2, hc]
        simp [puts, Consumer.job]
    · rw [heq] at ha
      exact absurd rfl (ha.2 x)
  | @stopped pool ticks job exec hc heq hs' =>
    subst hs'
    have ha := execute_answers E P J path hJ pool job { s.exec with ticks := ticks }
    obtain rfl := h3 (by rw [hc]; nofun)
    rw [heq] at ha
    refine ⟨answered, [job], by rw [destroy_fired, ha.1]; exact h1, ?_, by simp⟩
    rw [puts_append, h2, hc]
    simp [puts, Consumer.job]
  | interrupt hc hs' =>
    subst hs'
    rcases hc with hc | ⟨notified, hc⟩
    · exact hs.idle rfl (destroy_fired E _) (by rw [hc]; rfl) rfl (by rw [hc]; nofun)
    · exact hs.idle rfl (destroy_fired E _) (by rw [hc]; rfl) rfl (by rw [hc]; nofun)

theorem commStep_notLost {s s' : Communicator τ δ κ Map} {l : CommStep τ κ Map} (hs : NotLost s)
    (h : commStep E P J path s l = some s') : NotLost s' := by
  cases commStep_cases E P J path h with
  | put hs' =>
    subst hs'
    intro notified hc _
    cases hn : s.consumer with
    | waiting b =>
      simp only [hn, Consumer.notify, Consumer.waiting.injEq] at hc
      exact hc.symm
    | taking | running | finished =>
      simp only [hn, Consumer.notify] at hc
      cases hc
  | wait hc hq hs' =>
    subst hs'
    intro notified _ hne
    exact absurd hq hne
  | takeThrows hc hs' =>
    subst hs'
    exact hs
  | wake _ hs' | take _ _ hs' | ended _ _ hs' | stopped _ _ hs' | interrupt _ hs' =>
    subst hs'
    exact nofun

/-- No `_thread.interrupt()` is noticed in `take`, and none is requested during the polls. -/
def CommStep.Calm : CommStep τ κ Map → Prop
  | .interrupt => False
  | .run _ ticks => ∀ t ∈ ticks, E.Calm t
  | _ => True

theorem commStep_going {s s' : Communicator τ δ κ Map} {l : CommStep τ κ Map} (hl : l.Calm E)
    (hs : s.consumer ≠ .finished) (h : commStep E P J path s l = some s') :
    s'.consumer ≠ .finished := by
  cases commStep_cases E P J path h with
  | put hs' =>
    subst hs'
    exact fun hc => hs ((notify_finished _).mp hc)
  | takeThrows hc hs' =>
    subst hs'
    exact hs
  | wait _ _ hs' | wake _ hs' | take _ _ hs' | ended _ _ hs' =>
    subst hs'
    nofun
  | @stopped pool ticks job exec hc heq hs' =>
    have hcalm := execute_calm E P J path pool job { s.exec with ticks := ticks } hl
    rw [heq] at hcalm
    exact hcalm.1.elim
  | interrupt => exact hl.elim

/-- The job in execution comes to its end, well or badly: it is answered once, and the consumer goes
back to the queue. -/
def Answers (s : Communicator τ δ κ Map) (job : DeviceJob κ Map) (pool : DescriptorPool)
    (ticks : List τ) : Prop :=
  ∃ s', commStep E P J path s (.run pool ticks) = some s' ∧ s'.consumer = .taking ∧
    s'.queue = s.queue ∧ ∃ answer, s'.exec.fired = s.exec.fired ++ [(job.callbacks, answer)]

/-- The job is still waiting for a report when the polls are used up, or has stored one outside the
buffer. -/
def Unended (s : Communicator τ δ κ Map) (job : DeviceJob κ Map) (pool : DescriptorPool)
    (ticks : List τ) : Prop :=
  ∃ exec, (execute E P J pool path job { s.exec with ticks := ticks } = .error .pending exec ∧
      exec.ticks = []) ∨
    execute E P J pool path job { s.exec with ticks := ticks } = .error .undefined exec

theorem run_answers (hJ : ∀ callbacks answer, J.invokeAsync callbacks answer = .ok ())
    {s : Communicator τ δ κ Map} {job : DeviceJob κ Map} (hjob : s.consumer = .running job)
    (pool : DescriptorPool) {ticks : List τ} (hticks : ∀ t ∈ ticks, E.Calm t) :
    Answers E P J path s job pool ticks ∨ Unended E P J path s job pool ticks := by
  have ha := execute_answers E P J path hJ pool job { s.exec with ticks := ticks }
  have hcalm := execute_calm E P J path pool job { s.exec with ticks := ticks } hticks
  cases hx : execute E P J pool path job { s.exec with ticks := ticks } with
  | ok u exec =>
    rw [hx] at ha
    exact .inl ⟨{ s with consumer := .taking, exec := exec }, by simp only [commStep, hjob, hx], rfl,
      rfl, ha⟩
  | error e exec =>
    rw [hx] at ha hcalm
    cases e with
    | throws x => exact absurd rfl (ha.2 x)
    | threadInterrupted => exact hcalm.1.elim
    | pending => exact .inr ⟨exec, .inl ⟨hx, hcalm.1⟩⟩
    | undefined => exact .inr ⟨exec, .inr hx⟩

/-- With a job in the queue, a consumer that is not busy can go on. -/
def CanGoOn (s : Communicator τ δ κ Map) : Prop :=
  match s.consumer with
  | .taking => (commStep E P J path s .take).isSome
  | .waiting notified => notified = true ∧ (commStep E P J path s .wake).isSome
  | _ => True

theorem canGoOn {s : Communicator τ δ κ Map} (hs : NotLost s) (hq : s.queue ≠ []) :
    CanGoOn E P J path s := by
  unfold CanGoOn
  split
  · next hc =>
    obtain ⟨job, queue, hq⟩ := List.exists_cons_of_ne_nil hq
    simp [commStep, hc, hq]
  · next notified hc => exact ⟨hs notified hc hq, by simp [commStep, hc]⟩
  · trivial

/-- Open, then two calls: a `Pong` answers the first, the second times out. -/
def threeJobs : List (CommStep Poll Nat (List UInt8)) :=
  [.wait, .put (.openJob 0), .wake, .take, .put (.callJob ⟨true, "Ping", [], 1⟩), .run pingPool [],
    .put (.callJob ⟨true, "Ping", [], 2⟩), .take,
    .run pingPool [⟨.report (Piece.report ⟨[35, 35, 0, 1, 0, 0, 0, 0], [], by decide⟩), 0⟩],
    .take, .run pingPool [⟨.empty, 16⟩]]

def threeAnswers : List (Nat × Answer (List UInt8)) :=
  [(0, .success none), (1, .success (some ("Pong", []))), (2, .error "Reading timed out")]

end TrezorPlugin
