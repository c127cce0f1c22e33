import TrezorPlugin.Communicator
import TrezorPlugin.Resumption

/-!
# Interrupting the consumer thread (plugin.h, plugin.cpp, devices.cpp)

`~DeviceCommunicator` requests the interruption of the consumer thread and joins it.
The thread finds the request in `_cond.wait(lock)`, and in `interruption_point()`
after an empty poll:

* `JobQueue::take` comes to `_cond.wait` only with an empty queue;
* `HIDBuffer::read` comes to `interruption_point` only with a timeout.

`Heeds` rules out the two steps that pass the request by.  Then

    every step heeds  →  no job is taken, no poll follows an empty one, the thread leaves
                                                               (interruption_heeded_iff)
-/

namespace TrezorPlugin

variable {τ δ κ Msg Map : Type} (E : Env τ δ) (P : Protobuf Msg) (J : Scripting κ Msg Map)
variable (path : String)

/-! ## The thread, one poll at a time -/

/-- hidapi and boost's flag.  With each poll it is noted whether the interruption was requested
then, and `interruption_requested` answers for the latest poll. -/
def Env.flagged (E : Env τ δ) : Env (τ × Bool) (δ × Bool) where
  hidEnumerate d := ((E.hidEnumerate d.1).1, (E.hidEnumerate d.1).2, d.2)
  hidOpenPath d path := ((E.hidOpenPath d.1 path).1, (E.hidOpenPath d.1 path).2, d.2)
  hidSendFeatureReport d h data := (E.hidSendFeatureReport d.1 h data, d.2)
  hidClose d h := (E.hidClose d.1 h, d.2)
  hidWrite d h chunk := ((E.hidWrite d.1 h chunk).1, (E.hidWrite d.1 h chunk).2, d.2)
  hidReadTimeout d h t := ((E.hidReadTimeout d.1 h t.1).1, (E.hidReadTimeout d.1 h t.1).2, t.2)
  hidError d := E.hidError d.1
  time d := E.time d.1
  interruptionRequested d := d.2
  utf8Encode := E.utf8Encode

/-- The queue and its consumer, the schema and the polls of the job in execution, and whether
`_thread.interrupt()` has been called. -/
structure Thread (τ δ κ Map : Type) where
  comm : Communicator (τ × Bool) (δ × Bool) κ Map
  pool : DescriptorPool
  polls : List (τ × Bool)
  requested : Bool

inductive ThreadStep (τ κ Map : Type)
  /-- The API thread: `_queue.put(job)`. -/
  | put (job : DeviceJob κ Map)
  /-- The API thread: `_thread.interrupt()`; from here on it waits in `_thread.join()`. -/
  | request
  /-- The queue is empty: `_cond.wait(lock)`. -/
  | wait
  /-- `_cond.wait` wakes up. -/
  | wake
  /-- The queue is not empty: `*item = _queue.front(); _queue.pop()`, with this schema loaded. -/
  | take (pool : DescriptorPool)
  /-- The copy of the job throws. -/
  | takeThrows
  /-- The job in execution goes through `hid_read_timeout`, and to the next one or its end. -/
  | poll (t : τ)
  /-- The job in execution has come to its end. -/
  | finish

/-- The job in execution, with the polls so far. -/
def Thread.execution (s : Thread τ δ κ Map) (job : DeviceJob κ Map) :
    EStateM.Result Stop (ExecState (τ × Bool) (δ × Bool) κ Map) Unit :=
  execute E.flagged P J s.pool path job { s.comm.exec with ticks := s.polls }

/-- A step of the queue and its consumer. -/
def Thread.moves (s : Thread τ δ κ Map) (l : CommStep (τ × Bool) κ Map) :
    Option (Thread τ δ κ Map) :=
  (commStep E.flagged P J path s.comm l).map fun comm => { s with comm := comm }

def threadStep (s : Thread τ δ κ Map) : ThreadStep τ κ Map → Option (Thread τ δ κ Map)
  | .put job => if s.requested then none else s.moves E P J path (.put job)
  | .request => if s.requested then none else some { s with requested := true }
  | .wait =>
    match s.comm.consumer, s.comm.queue with
    | .taking, [] => s.moves E P J path (if s.requested then .interrupt else .wait)
    | _, _ => none
  | .wake =>
    match s.comm.consumer with
    | .waiting _ => s.moves E P J path (if s.requested then .interrupt else .wake)
    | _ => none
  -- no interruption point
  | .take pool => (s.moves E P J path .take).map fun s => { s with pool := pool, polls := [] }
  | .takeThrows =>
    match s.comm.queue with
    | [] => none
    | _ :: _ => s.moves E P J path .takeThrows
  | .poll t =>
    match s.comm.consumer with
    | .running job =>
      match s.execution E P J path job with
      | .error .pending _ => some { s with polls := s.polls ++ [(t, s.requested)] }
      | _ => none
    | _ => none
  | .finish => s.moves E P J path (.run s.pool s.polls)

/-- The thread as the constructor starts it. -/
def Thread.new (dev : δ) : Thread τ δ κ Map := ⟨.new (dev, false), ⟨[]⟩, [], false⟩

/-- What the poll `t` of the job in execution brings. -/
def Thread.answer (s : Thread τ δ κ Map) (t : τ) : Option ReadResult :=
  match s.comm.consumer with
  | .running job =>
    match s.execution E P J path job with
    | .error .pending f => f.channel.map fun ch => (E.hidReadTimeout f.world.dev.1 ch.device t).1
    | _ => none
  | _ => none

/-- The thread makes a step of the queue and its consumer. -/
def Moved (s s' : Thread τ δ κ Map) (m : CommStep (τ × Bool) κ Map) : Prop :=
  commStep E.flagged P J path s.comm m = some s'.comm ∧ s'.requested = s.requested

/-- What a step needs, and what it leads to. -/
inductive ThreadStepped (s s' : Thread τ δ κ Map) : ThreadStep τ κ Map → Prop
  | put {job : DeviceJob κ Map} : s.requested = false → Moved E P J path s s' (.put job) →
      ThreadStepped s s' (.put job)
  | request : s.requested = false → s' = { s with requested := true } →
      ThreadStepped s s' .request
  | wait : s.comm.consumer = .taking → s.comm.queue = [] →
      Moved E P J path s s' (if s.requested then .interrupt else .wait) → ThreadStepped s s' .wait
  | wake {notified : Bool} : s.comm.consumer = .waiting notified →
      Moved E P J path s s' (if s.requested then .interrupt else .wake) → ThreadStepped s s' .wake
  | take {pool : DescriptorPool} : Moved E P J path s s' .take → ThreadStepped s s' (.take pool)
  | takeThrows : s.comm.queue ≠ [] → Moved E P J path s s' .takeThrows →
      ThreadStepped s s' .takeThrows
  | poll {t : τ} {job : DeviceJob κ Map} {f : ExecState (τ × Bool) (δ × Bool) κ Map} :
      s.comm.consumer = .running job → s.execution E P J path job = .error .pending f →
      s' = { s with polls := s.polls ++ [(t, s.requested)] } → ThreadStepped s s' (.poll t)
  | finish : Moved E P J path s s' (.run s.pool s.polls) → ThreadStepped s s' .finish

theorem moves_some {s s' : Thread τ δ κ Map} {m : CommStep (τ × Bool) κ Map}
    (h : s.moves E P J path m = some s') : Moved E P J path s s' m := by
  obtain ⟨comm, hc, rfl⟩ := Option.map_eq_some_iff.mp h
  exact ⟨hc, rfl⟩

theorem threadStep_cases {s s' : Thread τ δ κ Map} {l : ThreadStep τ κ Map}
    (h : threadStep E P J path s l = some s') : ThreadStepped E P J path s s' l := by
  cases l with
  | put job =>
    simp only [threadStep] at h
    split at h
    · cases h
    · next hr => exact .put (Bool.eq_false_iff.mpr hr) (moves_some E P J path h)
  | request =>
    simp only [threadStep] at h
    split at h
    · cases h
    · next hr => exact .request (Bool.eq_false_iff.mpr hr) (Option.some.inj h).symm
  | wait =>
    simp only [threadStep] at h
    split at h
    · next hc hq => exact .wait hc hq (moves_some E P J path h)
    · cases h
  | wake =>
    simp only [threadStep] at h
    split at h
    · next hc => exact .wake hc (moves_some E P J path h)
    · cases h
  | take pool =>
    obtain ⟨v, hv, rfl⟩ := Option.map_eq_some_iff.mp h
    have hm := moves_some E P J path hv
    exact .take ⟨hm.1, hm.2⟩
  | takeThrows =>
    simp only [threadStep] at h
    split at h
    · cases h
    · next hq => exact .takeThrows (by simp [hq]) (moves_some E P J path h)
  | poll t =>
    simp only [threadStep] at h
    split at h
    · next job hc =>
      split at h
      · next f hf => exact .poll hc hf (Option.some.inj h).symm
      · cases h
    · cases h
  | finish => exact .finish (moves_some E P J path h)

/-- The step is a step of the queue and its consumer, or changes nothing there. -/
theorem threadStep_refines {s s' : Thread τ δ κ Map} {l : ThreadStep τ κ Map}
    (h : threadStep E P J path s l = some s') :
    s'.comm = s.comm ∨ ∃ m, commStep E.flagged P J path s.comm m = some s'.comm := by
  cases threadStep_cases E P J path h with
  | put _ hm => exact .inr ⟨_, hm.1⟩
  | request _ heq => exact .inl (by rw [heq])
  | wait _ _ hm => exact .inr ⟨_, hm.1⟩
  | wake _ hm => exact .inr ⟨_, hm.1⟩
  | take hm => exact .inr ⟨_, hm.1⟩
  | takeThrows _ hm => exact .inr ⟨_, hm.1⟩
  | poll _ _ heq => exact .inl (by rw [heq])
  | finish hm => exact .inr ⟨_, hm.1⟩

/-- **The thread refines the communicator**: a run of it is a run of the queue and its consumer. -/
theorem thread_refines {s u : Thread τ δ κ Map} {labels : List (ThreadStep τ κ Map)}
    (h : Run.run (threadStep E P J path) s labels = some u) :
    ∃ steps, Run.run (commStep E.flagged P J path) s.comm steps = some u.comm := by
  induction labels generalizing s with
  | nil =>
    cases h
    exact ⟨[], rfl⟩
  | cons l labels ih =>
    obtain ⟨t, ht, h'⟩ := Run.run_cons _ h
    obtain ⟨steps, hsteps⟩ := ih h'
    rcases threadStep_refines E P J path ht with heq | ⟨m, hm⟩
    · exact ⟨steps, heq ▸ hsteps⟩
    · exact ⟨m :: steps, by rw [Run.run_cons_of _ hm, hsteps]⟩

/-! ## After the request -/

/-- What the thread can do once the interruption is requested. -/
inductive AfterRequest (s s' : Thread τ δ κ Map) : ThreadStep τ κ Map → Prop
  /-- `boost::thread_interrupted` out of `_cond.wait`. -/
  | leavesEmpty : s.comm.consumer = .taking → s.comm.queue = [] → s'.comm.consumer = .finished →
      s'.comm.queue = s.comm.queue → AfterRequest s s' .wait
  | leaves {notified : Bool} : s.comm.consumer = .waiting notified →
      s'.comm.consumer = .finished → s'.comm.queue = s.comm.queue → AfterRequest s s' .wake
  | takes {pool : DescriptorPool} : s.comm.consumer = .taking → s.comm.queue ≠ [] →
      AfterRequest s s' (.take pool)
  | throws : s.comm.consumer = .taking → s.comm.queue ≠ [] → AfterRequest s s' .takeThrows
  | polls {t : τ} {job : DeviceJob κ Map} {f : ExecState (τ × Bool) (δ × Bool) κ Map} :
      s.comm.consumer = .running job → s.execution E P J path job = .error .pending f →
      s' = { s with polls := s.polls ++ [(t, true)] } → AfterRequest s s' (.poll t)
  | ends {job : DeviceJob κ Map} : s.comm.consumer = .running job →
      Over (s.execution E P J path job) → (∀ job, s'.comm.consumer ≠ .running job) →
      s'.comm.queue = s.comm.queue → AfterRequest s s' .finish

theorem threadStep_requested {s s' : Thread τ δ κ Map} {l : ThreadStep τ κ Map}
    (hs : s.requested = true) (h : threadStep E P J path s l = some s') :
    s'.requested = true ∧ AfterRequest E P J path s s' l := by
  cases threadStep_cases E P J path h with
  | put hr _ =>
    rw [hs] at hr
    cases hr
  | request hr _ =>
    rw [hs] at hr
    cases hr
  | wait hc hq hm =>
    rw [if_pos hs] at hm
    refine ⟨hm.2.trans hs, ?_⟩
    cases commStep_cases _ _ _ _ hm.1 with
    | interrupt _ heq => exact .leavesEmpty hc hq (by rw [heq]) (by rw [heq])
  | wake hc hm =>
    rw [if_pos hs] at hm
    refine ⟨hm.2.trans hs, ?_⟩
    cases commStep_cases _ _ _ _ hm.1 with
    | interrupt _ heq => exact .leaves hc (by rw [heq]) (by rw [heq])
  | take hm =>
    refine ⟨hm.2.trans hs, ?_⟩
    cases commStep_cases _ _ _ _ hm.1 with
    | take hc hq _ => exact .takes hc (by simp [hq])
  | takeThrows hq hm =>
    refine ⟨hm.2.trans hs, ?_⟩
    cases commStep_cases _ _ _ _ hm.1 with
    | takeThrows hc _ => exact .throws hc hq
  | poll hc hf heq =>
    refine ⟨by rw [heq, hs], .polls hc hf (by rw [heq, hs])⟩
  | finish hm =>
    refine ⟨hm.2.trans hs, ?_⟩
    cases commStep_cases _ _ _ _ hm.1 with
    | ended hc hres heq =>
      refine .ends hc ?_ (by simp [heq]) (by rw [heq])
      unfold Thread.execution
      rcases hres with hok | ⟨x, hthrows⟩
      · rw [hok]
        trivial
      · rw [hthrows]
        trivial
    | stopped hc hres heq =>
      refine .ends hc ?_ (by simp [heq]) (by rw [heq])
      unfold Thread.execution
      rw [hres]
      trivial

variable {E P J path} in
/-- A job that has come to its end is finished, and the thread is away from it. -/
theorem AfterRequest.of_over {s s' : Thread τ δ κ Map} {l : ThreadStep τ κ Map}
    {job : DeviceJob κ Map} (h : AfterRequest E P J path s s' l)
    (hc : s.comm.consumer = .running job) (hover : Over (s.execution E P J path job)) :
    l = .finish ∧ ∀ job, s'.comm.consumer ≠ .running job := by
  cases h with
  | leavesEmpty hc' => simp [hc] at hc'
  | leaves hc' => simp [hc] at hc'
  | takes hc' => simp [hc] at hc'
  | throws hc' => simp [hc] at hc'
  | polls hc' hf _ =>
    rw [hc] at hc'
    cases hc'
    rw [hf] at hover
    exact hover.elim
  | ends _ _ haway _ => exact ⟨rfl, haway⟩

variable {E P J path} in
theorem AfterRequest.not_finished {s s' : Thread τ δ κ Map} {l : ThreadStep τ κ Map}
    (h : AfterRequest E P J path s s' l) : s.comm.consumer ≠ .finished := by
  cases h with
  | leavesEmpty hc => simp [hc]
  | leaves hc => simp [hc]
  | takes hc => simp [hc]
  | throws hc => simp [hc]
  | polls hc => simp [hc]
  | ends hc => simp [hc]

/-! ## Heeding the request -/

/-- The step does not pass the request by: the thread comes to the queue only when that is empty,
and a call without a timeout gets data from its polls. -/
def Heeds (s : Thread τ δ κ Map) (l : ThreadStep τ κ Map) : Prop :=
  s.requested = true →
    (s.comm.consumer = .taking → s.comm.queue = []) ∧
    ∀ t job, l = .poll t → s.comm.consumer = .running job →
      s.answer E P J path t = some .empty → job.useTimeout = true

/-- The thread has left, or can go on; it does not wait for anything. -/
def Thread.Moving (s : Thread τ δ κ Map) : Prop :=
  s.comm.consumer = .finished ∨ ∃ l s', threadStep E P J path s l = some s'

/-- The interruption stops the consumer in the run `labels` from `s₀` to `u`. -/
structure Stops (s₀ u : Thread τ δ κ Map) (labels : List (ThreadStep τ κ Map)) : Prop where
  /-- No job is taken after the request. -/
  takes : ∀ pre pool post s, labels = pre ++ .take pool :: post →
    Run.run (threadStep E P J path) s₀ pre = some s → s.requested = false
  /-- After the request, the first poll that brings no data is the last one, and the thread leaves:
  the job ends, and then, if it was not the job that was interrupted, the wait for another. -/
  polls : ∀ pre t post s, labels = pre ++ .poll t :: post →
    Run.run (threadStep E P J path) s₀ pre = some s → s.requested = true →
    s.answer E P J path t = some .empty →
    (∀ v, .poll v ∉ post) ∧ post.length ≤ 2 ∧ u.Moving E P J path
  /-- A thread that comes to the queue after the request leaves there. -/
  leaves : ∀ pre post s, labels = pre ++ post →
    Run.run (threadStep E P J path) s₀ pre = some s → s.requested = true →
    (∀ job, s.comm.consumer ≠ .running job) → post.length ≤ 1 ∧ u.Moving E P J path

variable {E P J path}

theorem moving_of_away {s : Thread τ δ κ Map} (hs : s.requested = true)
    (haway : ∀ job, s.comm.consumer ≠ .running job) : s.Moving E P J path := by
  cases hc : s.comm.consumer with
  | taking =>
    cases hq : s.comm.queue with
    | nil => exact .inr ⟨.wait, by simp [threadStep, Thread.moves, commStep, hc, hq, hs]⟩
    | cons job queue =>
      exact .inr ⟨.take s.pool, by simp [threadStep, Thread.moves, commStep, hc, hq]⟩
  | waiting notified => exact .inr ⟨.wake, by simp [threadStep, Thread.moves, commStep, hc, hs]⟩
  | running job => exact absurd hc (haway job)
  | finished => exact .inl hc

/-- A job that has come to its end can be finished. -/
theorem moving_of_over {s : Thread τ δ κ Map} {job : DeviceJob κ Map}
    (hc : s.comm.consumer = .running job) (hover : Over (s.execution E P J path job)) :
    s.Moving E P J path := by
  refine .inr ⟨.finish, ?_⟩
  unfold Thread.execution at hover
  simp only [threadStep, Thread.moves, commStep, hc]
  cases hres : execute E.flagged P J s.pool path job { s.comm.exec with ticks := s.polls } with
  | ok u exec => exact ⟨_, rfl⟩
  | error e exec =>
    rw [hres] at hover
    cases e with
    | throws x => exact ⟨_, rfl⟩
    | threadInterrupted => exact ⟨_, rfl⟩
    | pending => exact hover.elim
    | undefined => exact hover.elim

theorem finished_stays {s u : Thread τ δ κ Map} {labels : List (ThreadStep τ κ Map)}
    (hs : s.requested = true) (hc : s.comm.consumer = .finished)
    (h : Run.run (threadStep E P J path) s labels = some u) : labels = [] ∧ u = s := by
  cases labels with
  | nil =>
    cases h
    exact ⟨rfl, rfl⟩
  | cons l labels =>
    obtain ⟨v, hv, -⟩ := Run.run_cons _ h
    exact absurd hc (threadStep_requested E P J path hs hv).2.not_finished

/-- **At the queue** the thread has one step left. -/
theorem away_leaves {s u : Thread τ δ κ Map} {labels : List (ThreadStep τ κ Map)}
    (hs : s.requested = true) (haway : ∀ job, s.comm.consumer ≠ .running job)
    (hheeds : Run.Along (threadStep E P J path) (Heeds E P J path) s labels)
    (h : Run.run (threadStep E P J path) s labels = some u) :
    (∀ t, .poll t ∉ labels) ∧ labels.length ≤ 1 ∧ u.Moving E P J path := by
  cases labels with
  | nil =>
    cases h
    exact ⟨by simp, by simp, moving_of_away hs haway⟩
  | cons l labels =>
    obtain ⟨v, hv, hrest⟩ := Run.run_cons _ h
    obtain ⟨hreq, ha⟩ := threadStep_requested E P J path hs hv
    have hqueue := (hheeds.1 hs).1
    have hleft : v.comm.consumer = .finished → (∀ t, l ≠ .poll t) →
        (∀ t, .poll t ∉ l :: labels) ∧ (l :: labels).length ≤ 1 ∧ u.Moving E P J path := by
      intro hfin hl
      obtain ⟨rfl, rfl⟩ := finished_stays hreq hfin hrest
      refine ⟨?_, by simp, .inl hfin⟩
      intro t ht
      exact hl t (List.mem_singleton.mp ht).symm
    cases ha with
    | leavesEmpty _ _ hfin _ => exact hleft hfin (by simp)
    | leaves _ hfin _ => exact hleft hfin (by simp)
    | takes hc hq => exact absurd (hqueue hc) hq
    | throws hc hq => exact absurd (hqueue hc) hq
    | polls hc _ _ => exact absurd hc (haway _)
    | ends hc _ _ _ => exact absurd hc (haway _)

theorem answer_some {s : Thread τ δ κ Map} {t : τ} {r : ReadResult}
    (h : s.answer E P J path t = some r) :
    ∃ job f ch, s.comm.consumer = .running job ∧
      s.execution E P J path job = .error .pending f ∧ f.channel = some ch ∧
      (E.hidReadTimeout f.world.dev.1 ch.device t).1 = r := by
  unfold Thread.answer at h
  split at h
  · next job hc =>
    split at h
    · next f hf =>
      obtain ⟨ch, hch, hr⟩ := Option.map_eq_some_iff.mp h
      exact ⟨job, f, ch, hc, hf, hch, hr⟩
    · cases h
  · cases h

/-- Every poll that is made has an answer. -/
theorem answer_of_poll {s s' : Thread τ δ κ Map} {t : τ}
    (h : threadStep E P J path s (.poll t) = some s') :
    ∃ r, s.answer E P J path t = some r := by
  simp only [threadStep] at h
  unfold Thread.answer
  split at h
  · next job hc =>
    split at h
    · next f hf =>
      obtain ⟨ch, hch⟩ := execute_waits E.flagged P J s.pool path job _ f hf
      simp only [hch]
      exact ⟨_, rfl⟩
    · cases h
  · cases h

/-- The job in execution after an empty poll that came after the request. -/
theorem execution_idle {s : Thread τ δ κ Map} {t : τ} {job : DeviceJob κ Map}
    (hc : s.comm.consumer = .running job) (h : s.answer E P J path t = some .empty) :
    (job.useTimeout = false → ∃ f,
      Thread.execution E P J path { s with polls := s.polls ++ [(t, true)] } job =
        .error .pending f) ∧
    (job.useTimeout = true →
      Over (Thread.execution E P J path { s with polls := s.polls ++ [(t, true)] } job)) := by
  obtain ⟨job', f, ch, hc', hf, hch, hempty⟩ := answer_some h
  rw [hc] at hc'
  cases hc'
  exact execute_idle E.flagged P J s.pool path job hf hch ⟨hempty, fun _ => rfl⟩

/-- **After an empty poll** the thread has two steps left: the end of the job, and that of the
thread if the job ended by its timeout. -/
theorem idle_leaves {s u : Thread τ δ κ Map} {t : τ} {labels : List (ThreadStep τ κ Map)}
    (hs : s.requested = true) (hempty : s.answer E P J path t = some .empty)
    (hheeds : Run.Along (threadStep E P J path) (Heeds E P J path) s (.poll t :: labels))
    (h : Run.run (threadStep E P J path) s (.poll t :: labels) = some u) :
    (∀ v, .poll v ∉ labels) ∧ labels.length ≤ 2 ∧ u.Moving E P J path := by
  obtain ⟨s1, hs1, hrest⟩ := Run.run_cons _ h
  obtain ⟨hreq, ha⟩ := threadStep_requested E P J path hs hs1
  cases ha with
  | @polls _ job _ hc _ heq =>
    -- a call that minds its timeout is over after this poll
    have htimeout := (hheeds.1 hs).2 t _ rfl hc hempty
    have hover := (execution_idle hc hempty).2 htimeout
    rw [← heq] at hover
    have hc1 : s1.comm.consumer = .running job := by rw [heq, hc]
    cases labels with
    | nil =>
      cases hrest
      exact ⟨by simp, by simp, moving_of_over hc1 hover⟩
    | cons l labels =>
      obtain ⟨s2, hs2, hrest2⟩ := Run.run_cons _ hrest
      obtain ⟨hreq2, ha2⟩ := threadStep_requested E P J path hreq hs2
      -- so its next step is the last one of the job, and leads to the queue or out
      obtain ⟨rfl, haway⟩ := ha2.of_over hc1 hover
      obtain ⟨hno, hlen, hmoving⟩ := away_leaves hreq2 haway ((hheeds.2 s1 hs1).2 s2 hs2) hrest2
      refine ⟨?_, by simp only [List.length_cons]; omega, hmoving⟩
      intro v hv
      rcases List.mem_cons.mp hv with heq' | hv
      · cases heq'
      · exact hno v hv

theorem stops_of_heeds {s₀ u : Thread τ δ κ Map} {labels : List (ThreadStep τ κ Map)}
    (h : Run.run (threadStep E P J path) s₀ labels = some u)
    (hheeds : Run.Along (threadStep E P J path) (Heeds E P J path) s₀ labels) :
    Stops E P J path s₀ u labels := by
  refine ⟨?_, ?_, ?_⟩
  · rintro pre pool post s rfl hs
    rw [Run.run_append _ hs] at h
    have hhere := (Run.along_append _ _ hheeds hs).1
    obtain ⟨v, hv, -⟩ := Run.run_cons _ h
    rw [← Bool.not_eq_true]
    intro hreq
    cases (threadStep_requested E P J path hreq hv).2 with
    | takes hc hq => exact hq ((hhere hreq).1 hc)
  · rintro pre t post s rfl hs hreq hempty
    rw [Run.run_append _ hs] at h
    exact idle_leaves hreq hempty (Run.along_append _ _ hheeds hs) h
  · rintro pre post s rfl hs hreq haway
    rw [Run.run_append _ hs] at h
    exact (away_leaves hreq haway (Run.along_append _ _ hheeds hs) h).2

/-- Of a step that passes the request by, there is a run that the interruption does not stop. -/
theorem heeds_of_stops {s₀ : Thread τ δ κ Map}
    (hstops : ∀ labels u, Run.run (threadStep E P J path) s₀ labels = some u →
      Stops E P J path s₀ u labels)
    {pre : List (ThreadStep τ κ Map)} {l : ThreadStep τ κ Map} {s s' : Thread τ δ κ Map}
    (hs : Run.run (threadStep E P J path) s₀ pre = some s)
    (hl : threadStep E P J path s l = some s') : Heeds E P J path s l := by
  intro hreq
  constructor
  · intro hc
    cases hq : s.comm.queue with
    | nil => rfl
    | cons job queue =>
      have htake : ∃ v, threadStep E P J path s (.take s.pool) = some v := by
        simp [threadStep, Thread.moves, commStep, hc, hq]
      obtain ⟨v, hv⟩ := htake
      have hrun : Run.run (threadStep E P J path) s₀ (pre ++ [.take s.pool]) = some v := by
        rw [Run.run_append _ hs, Run.run_cons_of _ hv]
        rfl
      have hnot := (hstops _ v hrun).takes pre s.pool [] s rfl hs
      simp [hreq] at hnot
  · rintro t job rfl hc hempty
    by_contra hno
    rw [Bool.not_eq_true] at hno
    obtain ⟨f, hf⟩ := (execution_idle hc hempty).1 hno
    -- the job is pending again, so the same poll can follow
    cases (threadStep_requested E P J path hreq hl).2 with
    | polls _ _ heq =>
      rw [← heq] at hf
      have hc' : s'.comm.consumer = .running job := by rw [heq, hc]
      have hpoll : ∃ v, threadStep E P J path s' (.poll t) = some v := by
        simp [threadStep, hc', hf]
      obtain ⟨v, hv⟩ := hpoll
      have hrun : Run.run (threadStep E P J path) s₀ (pre ++ [.poll t, .poll t]) = some v := by
        rw [Run.run_append _ hs, Run.run_cons_of _ hl, Run.run_cons_of _ hv]
        rfl
      exact ((hstops _ v hrun).polls pre t [.poll t] s rfl hs hreq hempty).1 t
        (List.mem_singleton.mpr rfl)

/-- **A silent device** keeps a call without a timeout, and the join with it, for ever. -/
theorem silent_call_stays {t : τ} (hsilent : ∀ d h, (E.hidReadTimeout d h t).1 = .empty)
    {job : DeviceJob κ Map} (htimeout : job.useTimeout = false) (n : Nat) {s : Thread τ δ κ Map}
    (hs : s.requested = true) (hc : s.comm.consumer = .running job)
    (hf : ∃ f, s.execution E P J path job = .error .pending f) :
    ∃ u f, Run.run (threadStep E P J path) s (List.replicate n (.poll t)) = some u ∧
      u.comm.consumer = .running job ∧ u.execution E P J path job = .error .pending f := by
  induction n generalizing s with
  | zero =>
    obtain ⟨f, hf⟩ := hf
    exact ⟨s, f, rfl, hc, hf⟩
  | succ n ih =>
    obtain ⟨f, hf⟩ := hf
    have hstep : threadStep E P J path s (.poll t) =
        some { s with polls := s.polls ++ [(t, true)] } := by
      simp only [threadStep, hc, hf, hs]
    have hempty : s.answer E P J path t = some .empty := by
      obtain ⟨r, hr⟩ := answer_of_poll hstep
      obtain ⟨_, f', ch, -, -, -, hanswer⟩ := answer_some hr
      rw [hr, ← hanswer, hsilent]
    rw [List.replicate_succ, Run.run_cons_of _ hstep]
    exact ih hs hc ((execution_idle hc hempty).1 htimeout)

/-- A thread with nothing in its queue, and no call without a timeout, heeds the request. -/
theorem heeds_of_quiet {s : Thread τ δ κ Map} (hs : s.requested = true) (hq : s.comm.queue = [])
    (hjob : ∀ job, s.comm.consumer = .running job → job.useTimeout = true)
    (labels : List (ThreadStep τ κ Map)) :
    Run.Along (threadStep E P J path) (Heeds E P J path) s labels := by
  apply Run.along_of_inv _ (fun s : Thread τ δ κ Map => s.requested = true ∧ s.comm.queue = [] ∧
    ∀ job, s.comm.consumer = .running job → job.useTimeout = true) (fun _ _ => True) _ ?_ ?_
    ⟨hs, hq, hjob⟩ (Run.along_true _ _ _)
  · rintro s l v ⟨hs, hq, hjob⟩ - hv
    obtain ⟨hreq, ha⟩ := threadStep_requested E P J path hs hv
    cases ha with
    | leavesEmpty _ _ hfin hqueue => exact ⟨hreq, by rw [hqueue, hq], by simp [hfin]⟩
    | leaves _ hfin hqueue => exact ⟨hreq, by rw [hqueue, hq], by simp [hfin]⟩
    | takes _ hne => exact absurd hq hne
    | throws _ hne => exact absurd hq hne
    | polls _ _ heq =>
      rw [heq]
      exact ⟨hs, hq, hjob⟩
    | ends _ _ haway hqueue =>
      refine ⟨hreq, by rw [hqueue, hq], ?_⟩
      intro job hc
      exact absurd hc (haway job)
  · rintro s l ⟨-, hq, hjob⟩ -
    exact ⟨fun _ => hq, fun _ job _ hc _ => hjob job hc⟩

variable (E P J path) in
/-- **Interruption stops a thread that heeds it.**  In a run whose steps heed the request, no job
is taken after it, no poll follows one that brought no data, and the thread leaves at the next of
these.  And where all runs are stopped so, all their steps heed the request. -/
theorem interruption_heeded_iff (s₀ : Thread τ δ κ Map) :
    (∀ labels u, Run.run (threadStep E P J path) s₀ labels = some u →
      Run.Along (threadStep E P J path) (Heeds E P J path) s₀ labels →
      Stops E P J path s₀ u labels) ∧
    ((∀ labels u, Run.run (threadStep E P J path) s₀ labels = some u →
        Stops E P J path s₀ u labels) →
      ∀ labels u, Run.run (threadStep E P J path) s₀ labels = some u →
        Run.Along (threadStep E P J path) (Heeds E P J path) s₀ labels) := by
  constructor
  · intro labels u hrun hheeds
    exact stops_of_heeds hrun hheeds
  · intro hstops labels u hrun
    apply Run.along_of_at
    rintro pre l post s rfl hs
    rw [Run.run_append _ hs] at hrun
    obtain ⟨s', hl, -⟩ := Run.run_cons _ hrun
    exact heeds_of_stops hstops hs hl

/-- Threads over a device whose polls are given in advance. -/
abbrev plainThread : Thread Poll Int Nat (List UInt8) → ThreadStep Poll Nat (List UInt8) →
    Option (Thread Poll Int Nat (List UInt8)) :=
  threadStep (scriptEnv none fun _ => .ok "") rawProtobuf rawScripting "dev"

/-- A call with a timeout, when the interruption has been requested. -/
def interruptedCall : Thread Poll Int Nat (List UInt8) :=
  ⟨⟨[], .running (.callJob ⟨true, "Ping", [], 0⟩), ExecState.new (0, false) []⟩, pingPool, [], true⟩

theorem interruption_heeded_call :
    ∃ u, Run.run plainThread interruptedCall [.poll ⟨.empty, 1⟩, .finish] = some u ∧
      (match u.comm.consumer with | .finished => true | _ => false) = true ∧
      Stops (scriptEnv none fun _ => .ok "") rawProtobuf rawScripting "dev" interruptedCall u
        [.poll ⟨.empty, 1⟩, .finish] := by
  have hview : (Run.run plainThread interruptedCall [.poll ⟨.empty, 1⟩, .finish]).map
      (fun u => match u.comm.consumer with | .finished => true | _ => false) = some true := by
    decide +kernel
  obtain ⟨u, hu, hfin⟩ := Option.map_eq_some_iff.mp hview
  refine ⟨u, hu, hfin, (interruption_heeded_iff _ _ _ _ interruptedCall).1 _ u hu ?_⟩
  apply heeds_of_quiet rfl rfl
  rintro job ⟨⟩
  rfl

/-- A call without a timeout, the request, and a poll that brings nothing. -/
def silentCall : List (ThreadStep Poll Nat (List UInt8)) :=
  [.put (.callJob ⟨false, "Ping", [], 0⟩), .take pingPool, .request]

/-- Two jobs, of which the first ends after the request. -/
def twoQueued : List (ThreadStep Poll Nat (List UInt8)) :=
  [.put (.openJob 0), .put (.openJob 1), .take pingPool, .request, .finish]

/-- The call polls on after an empty poll, and the second job is taken. -/
theorem interruption_missed :
    (∃ u, Run.run plainThread (.new 0) (silentCall ++ [.poll ⟨.empty, 1⟩, .poll ⟨.empty, 2⟩]) =
        some u ∧
      ¬ Stops (scriptEnv none fun _ => .ok "") rawProtobuf rawScripting "dev" (.new 0) u
        (silentCall ++ [.poll ⟨.empty, 1⟩, .poll ⟨.empty, 2⟩])) ∧
    (∃ u, Run.run plainThread (.new 0) (twoQueued ++ [.take pingPool]) = some u ∧
      ¬ Stops (scriptEnv none fun _ => .ok "") rawProtobuf rawScripting "dev" (.new 0) u
        (twoQueued ++ [.take pingPool])) := by
  have hcall : (Run.run plainThread (.new 0)
      (silentCall ++ [.poll ⟨.empty, 1⟩, .poll ⟨.empty, 2⟩])).isSome = true := by decide +kernel
  have hcallRequest : (Run.run plainThread (.new 0) silentCall).map (fun s => (s.requested,
      s.answer (scriptEnv none fun _ => .ok "") rawProtobuf rawScripting "dev" ⟨.empty, 1⟩)) =
        some (true, some .empty) := by decide +kernel
  have hqueue : (Run.run plainThread (.new 0) (twoQueued ++ [.take pingPool])).isSome = true := by
    decide +kernel
  have hqueueRequest : (Run.run plainThread (.new 0) twoQueued).map (fun s => s.requested) =
      some true := by decide +kernel
  obtain ⟨u, hu⟩ := Option.isSome_iff_exists.mp hcall
  obtain ⟨s, hs, h⟩ := Option.map_eq_some_iff.mp hcallRequest
  obtain ⟨v, hv⟩ := Option.isSome_iff_exists.mp hqueue
  obtain ⟨s', hs', h'⟩ := Option.map_eq_some_iff.mp hqueueRequest
  simp only [Prod.mk.injEq] at h
  refine ⟨⟨u, hu, ?_⟩, v, hv, ?_⟩
  · intro hstops
    exact (hstops.polls silentCall ⟨.empty, 1⟩ [.poll ⟨.empty, 2⟩] s rfl hs h.1 h.2).1 ⟨.empty, 2⟩
      (List.mem_singleton.mpr rfl)
  · intro hstops
    have hnot := hstops.takes twoQueued pingPool [] s' rfl hs'
    rw [h'] at hnot
    cases hnot

end TrezorPlugin
