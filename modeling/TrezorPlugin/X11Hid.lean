import TrezorPlugin.Hidapi
import TrezorPlugin.Lib.DropQueue
import TrezorPlugin.Lib.Run

/-!
# hidapi over libusb (X11/hid.c)

Three parties work on one open `hid_device`: the thread that calls hidapi, `read_thread`, and
libusb, which calls `read_callback` in whatever thread handles its events.  A step takes one of
them to the next place where another one may have come in between: an access to `shutdown_thread`
or `cancelled`, a call to libusb, a critical section of `dev->mutex` that reads neither.

`Placed` says which places the parties can be in together; it holds in every state of every
interleaving (`placed_run`), and with it

    a reader sleeps  →  no report is queued, the last broadcast is still to come  (no_lost_wakeup)
-/

namespace TrezorPlugin.X11

/-! ## The parties -/

/-- `struct input_report`; `id` counts their allocations. -/
structure InputReport where
  id : Nat
  data : List UInt8
  deriving DecidableEq

/-- `transfer->status` in the callback. -/
inductive TransferStatus
  | completed (data : List UInt8)
  | cancelled
  | noDevice
  | timedOut
  | other
  deriving DecidableEq

/-- Where the transfer is: with libusb, or in `read_callback`. -/
inductive Transfer
  /-- Not submitted. -/
  | idle
  /-- With libusb; `cancelling` once `libusb_cancel_transfer` was called. -/
  | pending (cancelling : Bool)
  /-- The report is filled in, and `pthread_mutex_lock` comes next. -/
  | appending (rpt : InputReport)
  /-- At `libusb_submit_transfer`. -/
  | resubmitting
  /-- At `dev->shutdown_thread = 1`. -/
  | failing
  /-- At `dev->cancelled = 1`. -/
  | stopping
  deriving DecidableEq

/-- Where `read_thread` is. -/
inductive ReadThread
  | submitting
  | barrier
  /-- `while (!dev->shutdown_thread)` -/
  | testing
  /-- In `libusb_handle_events`. -/
  | handling
  /-- At `libusb_cancel_transfer`. -/
  | cancelling
  /-- `while (!dev->cancelled)` -/
  | draining
  /-- Before the critical section with `pthread_cond_broadcast`. -/
  | broadcasting
  | ended
  deriving DecidableEq

/-- How `hid_read_timeout` returns: `bytes_read`, and the bytes in `data`. -/
inductive Returned
  | data (bytes : List UInt8)
  | timedOut
  | failed
  deriving DecidableEq

def Returned.bytesRead : Returned → Int
  | .data bytes => bytes.length
  | .timedOut => 0
  | .failed => -1

/-- What `pthread_cond_timedwait` returns: 0, `ETIMEDOUT`, something else. -/
inductive WaitResult
  | woken
  | timedOut
  | error
  deriving DecidableEq

/-- Where `hid_read_timeout` is. -/
inductive Reading
  | locking
  /-- `if (dev->shutdown_thread)` -/
  | testing
  /-- `while (!dev->input_reports && !dev->shutdown_thread)` -/
  | looping
  /-- About to call `pthread_cond_wait` or `pthread_cond_timedwait`. -/
  | waiting
  /-- Inside of it, with the mutex released. -/
  | asleep
  /-- Inside of it still, until it has the mutex again. -/
  | waking (res : WaitResult)
  /-- At `ret`. -/
  | unlocking (r : Returned)
  deriving DecidableEq

/-- Where `hid_close` is. -/
inductive Closing
  /-- At `dev->shutdown_thread = 1`. -/
  | stopping
  | cancelling
  | joining
  /-- The transfer and its buffer are to be freed. -/
  | freeing
  /-- `while (dev->input_reports)` -/
  | draining
  /-- At `free_hid_device`. -/
  | ending
  deriving DecidableEq

/-- Where the thread that calls hidapi is. -/
inductive Caller
  /-- In `hid_open_path`, at the barrier. -/
  | opening
  | idle
  /-- In `hid_read_timeout(dev, data, length, milliseconds)`. -/
  | reading (length : Nat) (milliseconds : Int) (place : Reading)
  | closing (place : Closing)
  | closed
  deriving DecidableEq

/-- What is allocated on the heap for the device. -/
inductive Object
  | dev
  | transfer
  | buffer
  | report (id : Nat)
  deriving DecidableEq

/-- `hid_device`, where the parties are, and what has happened to the reports and the memory. -/
structure HidDevice where
  inputReports : List InputReport
  shutdownThread : Bool
  cancelled : Bool
  transfer : Transfer
  readThread : ReadThread
  caller : Caller
  /-- The reports attached to the list so far. -/
  received : List InputReport
  /-- The reports that have left the list; a read took them into so many bytes. -/
  left : List (InputReport × DropQueue.Exit Nat)
  returned : List Returned
  allocated : Nat
  freed : List Object

/-- The device in `hid_open_path`, once `read_thread` has been created. -/
def hidOpenPath : HidDevice where
  inputReports := []
  shutdownThread := false
  cancelled := false
  transfer := .idle
  readThread := .submitting
  caller := .opening
  received := []
  left := []
  returned := []
  allocated := 0
  freed := []

/-! ## What they do -/

/-- The thread that calls hidapi holds `dev->mutex`. -/
def Caller.holds : Caller → Bool
  | .reading _ _ .testing => true
  | .reading _ _ .looping => true
  | .reading _ _ .waiting => true
  | .reading _ _ (.unlocking _) => true
  | .reading _ _ _ => false
  | .opening => false
  | .idle => false
  | .closing _ => false
  | .closed => false

/-- `pthread_cond_signal` and `pthread_cond_broadcast`, with at most one thread waiting. -/
def Caller.wake : Caller → Caller
  | .reading length ms .asleep => .reading length ms (.waking .woken)
  | c => c

/-- `libusb_cancel_transfer`: it fails if the transfer is not pending. -/
def Transfer.cancel : Transfer → Transfer
  | .pending _ => .pending true
  | t => t

/-- `return_data`, with `rpt` at the front of the list and `rest` behind it. -/
def HidDevice.returnData (s : HidDevice) (rpt : InputReport) (rest : List InputReport)
    (e : DropQueue.Exit Nat) : HidDevice :=
  { s with
    inputReports := rest
    left := s.left ++ [(rpt, e)]
    freed := s.freed ++ [.report rpt.id] }

/-- The steps to the end of the list, from its first element. -/
def numQueued : List InputReport → Nat
  | [] => 0
  | [_] => 0
  | _ :: rpt :: rest => numQueued (rpt :: rest) + 1

/-- The critical section of `read_callback`. -/
def HidDevice.attach (s : HidDevice) (rpt : InputReport) : HidDevice :=
  let s' := { s with inputReports := s.inputReports ++ [rpt], received := s.received ++ [rpt] }
  match s.inputReports with
  | [] => { s' with caller := s.caller.wake }
  | first :: rest =>
    if numQueued (first :: rest) > 30 then s'.returnData first (rest ++ [rpt]) .evicted else s'

/-- libusb is done with the transfer and calls `read_callback`. -/
def complete (s : HidDevice) (status : TransferStatus) : Option HidDevice :=
  match s.transfer with
  | .pending cancelling =>
    match status with
    | .completed data =>
      some { s with transfer := .appending ⟨s.allocated, data⟩, allocated := s.allocated + 1 }
    | .cancelled => if cancelling then some { s with transfer := .failing } else none
    | .noDevice => some { s with transfer := .failing }
    | .timedOut => some { s with transfer := .resubmitting }
    | .other => some { s with transfer := .resubmitting }
  | _ => none

/-- `read_callback` goes on; `ok`: libusb takes the transfer. -/
def readCallback (s : HidDevice) (ok : Bool) : Option HidDevice :=
  match s.transfer with
  | .appending rpt =>
    if s.caller.holds then none else some { s.attach rpt with transfer := .resubmitting }
  | .resubmitting => some { s with transfer := if ok then .pending false else .failing }
  | .failing => some { s with transfer := .stopping, shutdownThread := true }
  | .stopping => some { s with transfer := .idle, cancelled := true }
  | _ => none

/-- `read_thread` goes on; `ok`: libusb takes the transfer, `libusb_handle_events` has no fatal
error.  Whether the first submission succeeds is not looked at. -/
def readThread (s : HidDevice) (ok : Bool) : Option HidDevice :=
  match s.readThread with
  | .submitting =>
    some { s with transfer := if ok then .pending false else .idle, readThread := .barrier }
  | .barrier =>
    match s.caller with
    | .opening => some { s with readThread := .testing, caller := .idle }
    | _ => none
  | .testing =>
    some { s with readThread := if s.shutdownThread then .cancelling else .handling }
  | .handling => some { s with readThread := if ok then .testing else .cancelling }
  | .cancelling => some { s with transfer := s.transfer.cancel, readThread := .draining }
  | .draining => some { s with readThread := if s.cancelled then .broadcasting else .draining }
  | .broadcasting =>
    if s.caller.holds then none
    else some { s with caller := s.caller.wake, readThread := .ended }
  | .ended => none

/-- `hid_read_timeout` comes to `place`. -/
def HidDevice.goTo (s : HidDevice) (length : Nat) (ms : Int) (place : Reading) : HidDevice :=
  { s with caller := .reading length ms place }

/-- `bytes_read = return_data(dev, data, length)`. -/
def HidDevice.handOut (s : HidDevice) (length : Nat) (ms : Int) (rpt : InputReport)
    (rest : List InputReport) : HidDevice :=
  (s.returnData rpt rest (.taken length)).goTo length ms
    (.unlocking (.data (rpt.data.take length)))

/-- What a read with a timeout does with `res` after its wait; a blocking one does not look at it. -/
def HidDevice.waited (s : HidDevice) (length : Nat) (ms : Int) (res : WaitResult) : HidDevice :=
  match res with
  | .woken =>
    match s.inputReports with
    | rpt :: rest => s.handOut length ms rpt rest
    | [] => s.goTo length ms .looping
  | .timedOut => s.goTo length ms (.unlocking .timedOut)
  | .error => s.goTo length ms (.unlocking .failed)

/-- `hid_read_timeout` goes on from `place`. -/
def HidDevice.readOn (s : HidDevice) (length : Nat) (ms : Int) : Reading → Option HidDevice
  | .locking =>
    match s.inputReports with
    | rpt :: rest => some (s.handOut length ms rpt rest)
    | [] => some (s.goTo length ms .testing)
  | .testing =>
    if s.shutdownThread then some (s.goTo length ms (.unlocking .failed))
    else if ms = -1 ∨ 0 < ms then some (s.goTo length ms .looping)
    else some (s.goTo length ms (.unlocking .timedOut))
  | .looping =>
    match s.inputReports with
    | rpt :: rest =>
      if ms = -1 then some (s.handOut length ms rpt rest)
      else some (s.goTo length ms (.unlocking .failed))
    | [] =>
      if s.shutdownThread then some (s.goTo length ms (.unlocking .failed))
      else some (s.goTo length ms .waiting)
  | .waiting => some (s.goTo length ms .asleep)
  | .asleep => none
  | .waking res =>
    if ms = -1 then some (s.goTo length ms .looping) else some (s.waited length ms res)
  | .unlocking r => some { s with caller := .idle, returned := s.returned ++ [r] }

def hidReadTimeout (s : HidDevice) : Option HidDevice :=
  match s.caller with
  | .reading length ms place => s.readOn length ms place
  | _ => none

/-- `hid_close` goes on. -/
def hidClose (s : HidDevice) : Option HidDevice :=
  match s.caller with
  | .closing .stopping =>
    some { s with shutdownThread := true, caller := .closing .cancelling }
  | .closing .cancelling =>
    some { s with transfer := s.transfer.cancel, caller := .closing .joining }
  | .closing .joining =>
    match s.readThread with
    | .ended => some { s with caller := .closing .freeing }
    | _ => none
  | .closing .freeing =>
    some { s with freed := s.freed ++ [.buffer, .transfer], caller := .closing .draining }
  | .closing .draining =>
    match s.inputReports with
    | rpt :: rest => some (s.returnData rpt rest .cleared)
    | [] => some { s with caller := .closing .ending }
  | .closing .ending => some { s with freed := s.freed ++ [.dev], caller := .closed }
  | _ => none

inductive Label
  | complete (status : TransferStatus)
  | readCallback (ok : Bool)
  | readThread (ok : Bool)
  /-- `hid_read_timeout` is called. -/
  | read (length : Nat) (milliseconds : Int)
  | hidReadTimeout
  /-- The wait comes to an end by itself. -/
  | wake (res : WaitResult)
  /-- `hid_close` is called. -/
  | close
  | hidClose
  deriving DecidableEq

def step (s : HidDevice) : Label → Option HidDevice
  | .complete status => complete s status
  | .readCallback ok => readCallback s ok
  | .readThread ok => readThread s ok
  | .read length ms =>
    match s.caller with
    | .idle => some (s.goTo length ms .locking)
    | _ => none
  | .hidReadTimeout => hidReadTimeout s
  | .wake res =>
    match s.caller with
    | .reading length ms .asleep => some (s.goTo length ms (.waking res))
    | _ => none
  | .close =>
    match s.caller with
    | .idle => some { s with caller := .closing .stopping }
    | _ => none
  | .hidClose => hidClose s

/-! ## Where they can be together -/

def ReadThread.starting : ReadThread → Bool
  | .submitting => true
  | .barrier => true
  | _ => false

/-- `pthread_join` is behind `hid_close`. -/
def Closing.joined : Closing → Bool
  | .freeing => true
  | .draining => true
  | .ending => true
  | _ => false

/-- What a reader relies on when it goes to sleep. -/
def HidDevice.Awaits (s : HidDevice) : Prop := s.inputReports = [] ∧ s.readThread ≠ .ended

/-- What `hid_read_timeout` relies on at each place.  `polite`: no wait fails. -/
def HidDevice.ReadingKnows (s : HidDevice) (polite : Prop) (ms : Int) : Reading → Prop
  | .locking => True
  | .testing => s.inputReports = []
  | .looping => ms = -1 ∨ s.inputReports = []
  | .waiting => s.Awaits
  | .asleep => s.Awaits
  | .waking res => polite → res ≠ .error
  | .unlocking r => polite → r = .failed → s.inputReports = [] ∧ s.shutdownThread = true

/-- What the thread that calls hidapi relies on at each place. -/
def HidDevice.Knows (s : HidDevice) (polite : Prop) : Caller → Prop
  | .opening => s.readThread.starting = true
  | .idle => s.readThread.starting = false
  | .reading _ ms place => s.readThread.starting = false ∧ s.ReadingKnows polite ms place
  | .closing place => s.readThread.starting = false ∧
      (place ≠ .stopping → s.shutdownThread = true) ∧ (place.joined = true → s.readThread = .ended)
  | .closed => s.readThread = .ended

/-- In `hid_close`, or behind it. -/
def Caller.closes : Caller → Bool
  | .closing _ => true
  | .closed => true
  | _ => false

structure Placed (polite : Prop) (s : HidDevice) : Prop where
  caller : s.Knows polite s.caller
  submitting : s.readThread = .submitting → s.transfer = .idle ∧ s.cancelled = false
  stopping : s.transfer = .stopping → s.shutdownThread = true
  given_back : s.cancelled = true → s.transfer = .idle ∧ s.shutdownThread = true
  drained : s.readThread = .broadcasting ∨ s.readThread = .ended → s.cancelled = true
  stopped : s.shutdownThread = true →
    s.caller.closes = true ∨ s.transfer = .stopping ∨ s.cancelled = true

variable {polite : Prop} {s t : HidDevice}

theorem placed_hidOpenPath : Placed polite hidOpenPath where
  caller := rfl
  submitting := fun _ => ⟨rfl, rfl⟩
  stopping := by simp [hidOpenPath]
  given_back := by simp [hidOpenPath]
  drained := by simp [hidOpenPath]
  stopped := by simp [hidOpenPath]

/-- What a thread knows is kept by the steps that need no mutex. -/
theorem HidDevice.Knows.mono {c : Caller} (hk : s.Knows polite c)
    (hreports : t.inputReports = s.inputReports)
    (hshutdown : s.shutdownThread = true → t.shutdownThread = true)
    (hstarting : t.readThread.starting = s.readThread.starting)
    (hended : t.readThread = .ended ↔ s.readThread = .ended) : t.Knows polite c := by
  cases c with
  | opening => exact hstarting.trans hk
  | idle => exact hstarting.trans hk
  | closed => exact hended.mpr hk
  | closing place =>
    exact ⟨hstarting.trans hk.1, fun h => hshutdown (hk.2.1 h), fun hj => hended.mpr (hk.2.2 hj)⟩
  | reading n ms place =>
    refine ⟨hstarting.trans hk.1, ?_⟩
    have hread := hk.2
    cases place with
    | locking => trivial
    | testing => exact hreports.trans hread
    | looping => exact hread.imp_right fun h => hreports.trans h
    | waiting => exact ⟨hreports.trans hread.1, fun h => hread.2 (hended.mp h)⟩
    | asleep => exact ⟨hreports.trans hread.1, fun h => hread.2 (hended.mp h)⟩
    | waking res => exact hread
    | unlocking r =>
      intro hpolite hr
      obtain ⟨hempty, hs⟩ := hread hpolite hr
      exact ⟨hreports.trans hempty, hshutdown hs⟩

/-- A critical section of another thread wakes the reader. -/
theorem HidDevice.Knows.wake {c : Caller} (hk : s.Knows polite c) (hfree : c.holds = false)
    (hshutdown : s.shutdownThread = true → t.shutdownThread = true)
    (hstarting : t.readThread.starting = s.readThread.starting)
    (hended : s.readThread = .ended → t.readThread = .ended) : t.Knows polite c.wake := by
  cases c with
  | opening => exact hstarting.trans hk
  | idle => exact hstarting.trans hk
  | closed => exact hended hk
  | closing place =>
    exact ⟨hstarting.trans hk.1, fun h => hshutdown (hk.2.1 h), fun hj => hended (hk.2.2 hj)⟩
  | reading n ms place =>
    have hstart := hstarting.trans hk.1
    cases place with
    | locking => exact ⟨hstart, trivial⟩
    | asleep => exact ⟨hstart, fun _ => WaitResult.noConfusion⟩
    | waking res => exact ⟨hstart, hk.2⟩
    | testing => cases hfree
    | looping => cases hfree
    | waiting => cases hfree
    | unlocking r => cases hfree

@[simp] theorem Caller.closes_wake (c : Caller) : c.wake.closes = c.closes := by
  unfold Caller.wake
  split <;> rfl

@[simp] theorem attach_shutdownThread (s : HidDevice) (rpt : InputReport) :
    (s.attach rpt).shutdownThread = s.shutdownThread := by
  unfold HidDevice.attach HidDevice.returnData
  split <;> try split
  all_goals rfl

@[simp] theorem attach_cancelled (s : HidDevice) (rpt : InputReport) :
    (s.attach rpt).cancelled = s.cancelled := by
  unfold HidDevice.attach HidDevice.returnData
  split <;> try split
  all_goals rfl

@[simp] theorem attach_readThread (s : HidDevice) (rpt : InputReport) :
    (s.attach rpt).readThread = s.readThread := by
  unfold HidDevice.attach HidDevice.returnData
  split <;> try split
  all_goals rfl

/-- Nobody sleeps next to a report, so a signal for the first report wakes whoever sleeps. -/
theorem attach_caller (hk : s.Knows polite s.caller) (rpt : InputReport) :
    (s.attach rpt).caller = s.caller.wake := by
  unfold HidDevice.attach HidDevice.returnData
  split
  · rfl
  · next first rest hreports =>
    have hwake : s.caller.wake = s.caller := by
      unfold Caller.wake
      split
      · next n ms hc =>
        rw [hc] at hk
        have hempty : s.inputReports = [] := hk.2.1
        rw [hreports] at hempty
        cases hempty
      · rfl
    rw [hwake]
    split <;> rfl

/-! ## One step of each party -/

theorem Placed.complete {status : TransferStatus} (hp : Placed polite s)
    (h : complete s status = some t) : Placed polite t := by
  have hpending : ∀ transfer, (∃ cancelling, s.transfer = .pending cancelling) →
      transfer ≠ .stopping → ∀ n, Placed polite
        { s with transfer := transfer, allocated := n } := by
    rintro transfer ⟨cancelling, htr⟩ hne n
    have hnot : ¬ s.cancelled = true := by
      intro hc
      rw [(hp.given_back hc).1] at htr
      cases htr
    refine ⟨hp.caller.mono rfl id rfl Iff.rfl, ?_, fun hs => absurd hs hne,
      fun hc => absurd hc hnot, hp.drained, ?_⟩
    · intro hr
      rw [(hp.submitting hr).1] at htr
      cases htr
    · intro hs
      rcases hp.stopped hs with hc | hst | hc
      · exact .inl hc
      · rw [htr] at hst
        cases hst
      · exact absurd hc hnot
  unfold X11.complete at h
  split at h
  · next cancelling htr =>
    split at h
    · cases h
      exact hpending _ ⟨cancelling, htr⟩ (by simp) _
    · split at h
      · cases h
        exact hpending _ ⟨cancelling, htr⟩ (by simp) s.allocated
      · cases h
    all_goals
      cases h
      exact hpending _ ⟨cancelling, htr⟩ (by simp) s.allocated
  · cases h

theorem Placed.readCallback {ok : Bool} (hp : Placed polite s)
    (h : readCallback s ok = some t) : Placed polite t := by
  have hnot : s.transfer ≠ .idle → ¬ s.cancelled = true := fun hne hc => hne (hp.given_back hc).1
  have hsub : s.transfer ≠ .idle → s.readThread ≠ .submitting := fun hne hr =>
    hne (hp.submitting hr).1
  unfold X11.readCallback at h
  split at h
  · next rpt htr =>
    have hidle : s.transfer ≠ .idle := by simp [htr]
    split at h
    · cases h
    · next hfree =>
      cases h
      refine ⟨?_, ?_, by simp, ?_, ?_, ?_⟩
      · show HidDevice.Knows _ polite (s.attach rpt).caller
        rw [attach_caller hp.caller]
        exact hp.caller.wake (Bool.eq_false_iff.mpr hfree) (by simp) (by simp) (by simp)
      · simpa using hsub hidle
      · simpa using hnot hidle
      · simpa using hp.drained
      · intro hs
        rw [attach_shutdownThread] at hs
        rcases hp.stopped hs with hc | hst | hc
        · left
          show (s.attach rpt).caller.closes = true
          rw [attach_caller hp.caller, Caller.closes_wake]
          exact hc
        · rw [htr] at hst
          cases hst
        · exact absurd hc (hnot hidle)
  · next htr =>
    have hidle : s.transfer ≠ .idle := by simp [htr]
    cases h
    refine ⟨hp.caller.mono rfl id rfl Iff.rfl, fun hr => absurd hr (hsub hidle), ?_,
      fun hc => absurd hc (hnot hidle), hp.drained, ?_⟩
    · cases ok <;> simp
    · intro hs
      rcases hp.stopped hs with hc | hst | hc
      · exact .inl hc
      · rw [htr] at hst
        cases hst
      · exact absurd hc (hnot hidle)
  · next htr =>
    have hidle : s.transfer ≠ .idle := by simp [htr]
    cases h
    exact ⟨hp.caller.mono rfl (fun _ => rfl) rfl Iff.rfl, fun hr => absurd hr (hsub hidle),
      fun _ => rfl, fun hc => absurd hc (hnot hidle), hp.drained, fun _ => .inr (.inl rfl)⟩
  · next htr =>
    have hidle : s.transfer ≠ .idle := by simp [htr]
    cases h
    exact ⟨hp.caller.mono rfl id rfl Iff.rfl, fun hr => absurd hr (hsub hidle), by simp,
      fun _ => ⟨rfl, hp.stopping htr⟩, fun _ => rfl, fun _ => .inr (.inr rfl)⟩
  · cases h

theorem Transfer.cancel_eq_idle {transfer : Transfer} (h : transfer = .idle) :
    transfer.cancel = .idle := by
  rw [h]
  rfl

theorem Transfer.cancel_eq_stopping {transfer : Transfer} :
    transfer.cancel = .stopping ↔ transfer = .stopping := by
  unfold Transfer.cancel
  split <;> simp

theorem Placed.readThread {ok : Bool} (hp : Placed polite s) (h : readThread s ok = some t) :
    Placed polite t := by
  unfold X11.readThread at h
  split at h
  · next hr =>
    obtain ⟨htr, hnot⟩ := hp.submitting hr
    cases h
    refine ⟨hp.caller.mono rfl id (by simp [hr, ReadThread.starting]) (by simp [hr]), by simp, ?_,
      by simp [hnot], by simp, ?_⟩
    · cases ok <;> simp
    · intro hs
      rcases hp.stopped hs with hc | hst | hc
      · exact .inl hc
      · rw [htr] at hst
        cases hst
      · rw [hnot] at hc
        cases hc
  · next hr =>
    split at h
    · next hc =>
      cases h
      refine ⟨rfl, by simp, hp.stopping, hp.given_back, by simp, ?_⟩
      intro hs
      rcases hp.stopped hs with hcl | hrest
      · rw [hc] at hcl
        cases hcl
      · exact .inr hrest
    · cases h
  · next hr =>
    cases h
    refine ⟨hp.caller.mono rfl id ?_ ?_, ?_, hp.stopping, hp.given_back, ?_, hp.stopped⟩
    all_goals cases s.shutdownThread <;> simp [hr, ReadThread.starting]
  · next hr =>
    cases h
    refine ⟨hp.caller.mono rfl id ?_ ?_, ?_, hp.stopping, hp.given_back, ?_, hp.stopped⟩
    all_goals cases ok <;> simp [hr, ReadThread.starting]
  · next hr =>
    cases h
    refine ⟨hp.caller.mono rfl id (by simp [hr, ReadThread.starting]) (by simp [hr]), by simp, ?_,
      ?_, by simp, ?_⟩
    · intro hs
      exact hp.stopping (Transfer.cancel_eq_stopping.mp hs)
    · intro hc
      obtain ⟨htr, hs⟩ := hp.given_back hc
      exact ⟨Transfer.cancel_eq_idle htr, hs⟩
    · intro hs
      exact (hp.stopped hs).imp_right fun h => h.imp_left Transfer.cancel_eq_stopping.mpr
  · next hr =>
    cases h
    refine ⟨hp.caller.mono rfl id ?_ ?_, ?_, hp.stopping, hp.given_back, ?_, hp.stopped⟩
    all_goals cases hc : s.cancelled <;> simp [hr, ReadThread.starting]
  · next hr =>
    split at h
    · cases h
    · next hfree =>
      cases h
      refine ⟨hp.caller.wake (Bool.eq_false_iff.mpr hfree) id (by simp [hr, ReadThread.starting])
        (fun _ => rfl), by simp, hp.stopping, hp.given_back, fun _ => hp.drained (.inl hr), ?_⟩
      show s.shutdownThread = true → s.caller.wake.closes = true ∨ _
      rw [Caller.closes_wake]
      exact hp.stopped
  · cases h

/-- The thread that calls hidapi moves to a place that knows no more than is the case. -/
theorem Placed.goTo (hp : Placed polite s) {n : Nat} {ms : Int} {place place' : Reading}
    (hc : s.caller = .reading n ms place) (hk : s.ReadingKnows polite ms place') :
    Placed polite (s.goTo n ms place') := by
  have hcaller := hp.caller
  rw [hc] at hcaller
  refine ⟨⟨hcaller.1, ?_⟩, hp.submitting, hp.stopping, hp.given_back, hp.drained, ?_⟩
  · cases place' <;> exact hk
  · intro hs
    rcases hp.stopped hs with hcl | hrest
    · rw [hc] at hcl
      cases hcl
    · exact .inr hrest

theorem Placed.handOut (hp : Placed polite s) {n : Nat} {ms : Int} {place : Reading}
    (hc : s.caller = .reading n ms place) (rpt : InputReport) (rest : List InputReport) :
    Placed polite (s.handOut n ms rpt rest) := by
  have hcaller := hp.caller
  rw [hc] at hcaller
  refine ⟨⟨hcaller.1, by simp [HidDevice.ReadingKnows]⟩, hp.submitting, hp.stopping, hp.given_back,
    hp.drained, ?_⟩
  intro hs
  rcases hp.stopped hs with hcl | hrest
  · rw [hc] at hcl
    cases hcl
  · exact .inr hrest

/-- The read thread is not through with its broadcast before `shutdown_thread` is set. -/
theorem Placed.not_ended (hp : Placed polite s) (hs : ¬ s.shutdownThread = true) :
    s.readThread ≠ .ended := fun hr => hs (hp.given_back (hp.drained (.inr hr))).2

theorem Placed.readOn (hp : Placed polite s) {n : Nat} {ms : Int} {place : Reading}
    (hc : s.caller = .reading n ms place) (h : s.readOn n ms place = some t) : Placed polite t := by
  have hcaller := hp.caller
  rw [hc] at hcaller
  have hknows := hcaller.2
  cases place with
  | locking =>
    rw [HidDevice.readOn] at h
    split at h
    · cases h
      exact hp.handOut hc _ _
    · next hempty =>
      cases h
      exact hp.goTo hc hempty
  | testing =>
    have hempty : s.inputReports = [] := hknows
    rw [HidDevice.readOn] at h
    split at h
    · next hs =>
      cases h
      exact hp.goTo hc fun _ _ => ⟨hempty, hs⟩
    · split at h
      · cases h
        exact hp.goTo hc (.inr hempty)
      · cases h
        exact hp.goTo hc (by simp [HidDevice.ReadingKnows])
  | looping =>
    rw [HidDevice.readOn] at h
    split at h
    · next rpt rest hreports =>
      split at h
      · cases h
        exact hp.handOut hc _ _
      · next hms =>
        rcases hknows with hms' | hempty
        · exact absurd hms' hms
        · rw [hreports] at hempty
          cases hempty
    · next hempty =>
      split at h
      · next hs =>
        cases h
        exact hp.goTo hc fun _ _ => ⟨hempty, hs⟩
      · next hs =>
        cases h
        exact hp.goTo hc ⟨hempty, hp.not_ended hs⟩
  | waiting =>
    cases h
    exact hp.goTo hc hknows
  | asleep => cases h
  | waking res =>
    rw [HidDevice.readOn] at h
    split at h
    · next hms =>
      cases h
      exact hp.goTo hc (.inl hms)
    · cases h
      unfold HidDevice.waited
      split
      · split
        · exact hp.handOut hc _ _
        · next hempty => exact hp.goTo hc (.inr hempty)
      · exact hp.goTo hc (by simp [HidDevice.ReadingKnows])
      · exact hp.goTo hc fun hpolite _ => absurd rfl (hknows hpolite)
  | unlocking r =>
    cases h
    refine ⟨hcaller.1, hp.submitting, hp.stopping, hp.given_back, hp.drained, ?_⟩
    intro hs
    rcases hp.stopped hs with hcl | hrest
    · rw [hc] at hcl
      cases hcl
    · exact .inr hrest

/-- What a step of `hid_read_timeout` can be: it takes a report, goes to another place, or returns. -/
theorem readOn_cases {n : Nat} {ms : Int} {place : Reading} (h : s.readOn n ms place = some t) :
    (∃ rpt rest, (∀ r, place ≠ .unlocking r) ∧ s.inputReports = rpt :: rest ∧
      t = s.handOut n ms rpt rest) ∨
    (∃ place', (∀ r, place ≠ .unlocking r) ∧ (∀ bytes, place' ≠ .unlocking (.data bytes)) ∧
      t = s.goTo n ms place') ∨
    ∃ r, place = .unlocking r ∧ t = { s with caller := .idle, returned := s.returned ++ [r] } := by
  cases place with
  | locking =>
    rw [HidDevice.readOn] at h
    split at h
    · next hreports =>
      cases h
      exact .inl ⟨_, _, by simp, hreports, rfl⟩
    · cases h
      exact .inr (.inl ⟨_, by simp, by simp, rfl⟩)
  | testing =>
    rw [HidDevice.readOn] at h
    split at h <;> try split at h
    all_goals
      cases h
      exact .inr (.inl ⟨_, by simp, by simp, rfl⟩)
  | looping =>
    rw [HidDevice.readOn] at h
    split at h
    · next hreports =>
      split at h
      · cases h
        exact .inl ⟨_, _, by simp, hreports, rfl⟩
      · cases h
        exact .inr (.inl ⟨_, by simp, by simp, rfl⟩)
    · split at h <;> cases h <;> exact .inr (.inl ⟨_, by simp, by simp, rfl⟩)
  | waiting =>
    cases h
    exact .inr (.inl ⟨_, by simp, by simp, rfl⟩)
  | asleep => cases h
  | waking res =>
    rw [HidDevice.readOn] at h
    split at h
    · cases h
      exact .inr (.inl ⟨_, by simp, by simp, rfl⟩)
    · cases h
      unfold HidDevice.waited
      split
      · split
        · next hreports => exact .inl ⟨_, _, by simp, hreports, rfl⟩
        · exact .inr (.inl ⟨_, by simp, by simp, rfl⟩)
      · exact .inr (.inl ⟨_, by simp, by simp, rfl⟩)
      · exact .inr (.inl ⟨_, by simp, by simp, rfl⟩)
  | unlocking r =>
    cases h
    exact .inr (.inr ⟨r, rfl, rfl⟩)

/-- What `hid_read_timeout` leaves alone. -/
theorem readOn_frame {n : Nat} {ms : Int} {place : Reading} (h : s.readOn n ms place = some t) :
    t.transfer = s.transfer ∧ t.cancelled = s.cancelled ∧ t.shutdownThread = s.shutdownThread ∧
      t.readThread = s.readThread ∧ t.received = s.received ∧ t.allocated = s.allocated := by
  rcases readOn_cases h with ⟨rpt, rest, -, -, rfl⟩ | ⟨place', -, -, rfl⟩ | ⟨r, -, rfl⟩
  all_goals exact ⟨rfl, rfl, rfl, rfl, rfl, rfl⟩

/-- `hid_read_timeout` does not get into `hid_close`. -/
theorem readOn_caller {n : Nat} {ms : Int} {place : Reading} (h : s.readOn n ms place = some t) :
    t.caller.closes = false := by
  rcases readOn_cases h with ⟨rpt, rest, -, -, rfl⟩ | ⟨place', -, -, rfl⟩ | ⟨r, -, rfl⟩
  all_goals rfl

theorem Placed.hidReadTimeout (hp : Placed polite s) (h : hidReadTimeout s = some t) :
    Placed polite t := by
  unfold X11.hidReadTimeout at h
  split at h
  · next n ms place hc => exact hp.readOn hc h
  · cases h

theorem Placed.hidClose (hp : Placed polite s) (h : hidClose s = some t) : Placed polite t := by
  have hcaller := hp.caller
  unfold X11.hidClose at h
  split at h
  · next hc =>
    rw [hc] at hcaller
    cases h
    exact ⟨⟨hcaller.1, fun _ => rfl, by simp [Closing.joined]⟩, hp.submitting, fun _ => rfl,
      fun hcc => ⟨(hp.given_back hcc).1, rfl⟩, hp.drained, fun _ => .inl rfl⟩
  · next hc =>
    rw [hc] at hcaller
    cases h
    refine ⟨⟨hcaller.1, fun _ => hcaller.2.1 (by simp), by simp [Closing.joined]⟩, ?_, ?_, ?_,
      hp.drained, fun _ => .inl rfl⟩
    · intro hr
      obtain ⟨htr, hnot⟩ := hp.submitting hr
      exact ⟨Transfer.cancel_eq_idle htr, hnot⟩
    · intro hs
      exact hp.stopping (Transfer.cancel_eq_stopping.mp hs)
    · intro hcc
      obtain ⟨htr, hs⟩ := hp.given_back hcc
      exact ⟨Transfer.cancel_eq_idle htr, hs⟩
  · next hc =>
    rw [hc] at hcaller
    split at h
    · next hr =>
      cases h
      exact ⟨⟨hcaller.1, fun _ => hcaller.2.1 (by simp), fun _ => hr⟩, hp.submitting, hp.stopping, hp.given_back, hp.drained,
        fun _ => .inl rfl⟩
    · cases h
  · next hc =>
    rw [hc] at hcaller
    cases h
    exact ⟨⟨hcaller.1, fun _ => hcaller.2.1 (by simp), fun _ => hcaller.2.2 rfl⟩, hp.submitting,
      hp.stopping, hp.given_back, hp.drained, fun _ => .inl rfl⟩
  · next hc =>
    rw [hc] at hcaller
    split at h
    · cases h
      refine ⟨?_, hp.submitting, hp.stopping, hp.given_back, hp.drained, hp.stopped⟩
      show HidDevice.Knows _ polite s.caller
      rw [hc]
      exact hcaller
    · cases h
      exact ⟨⟨hcaller.1, fun _ => hcaller.2.1 (by simp), fun _ => hcaller.2.2 rfl⟩, hp.submitting,
        hp.stopping, hp.given_back, hp.drained, fun _ => .inl rfl⟩
  · next hc =>
    rw [hc] at hcaller
    cases h
    exact ⟨hcaller.2.2 rfl, hp.submitting, hp.stopping, hp.given_back, hp.drained,
      fun _ => .inl rfl⟩
  · cases h

/-- `polite` rules out the wait that fails. -/
def Label.Polite (polite : Prop) (l : Label) : Prop := polite → l ≠ .wake .error

theorem Placed.step {l : Label} (hp : Placed polite s) (hl : l.Polite polite)
    (h : step s l = some t) : Placed polite t := by
  cases l with
  | complete status => exact hp.complete h
  | readCallback ok => exact hp.readCallback h
  | readThread ok => exact hp.readThread h
  | hidReadTimeout => exact hp.hidReadTimeout h
  | hidClose => exact hp.hidClose h
  | read n ms =>
    rw [X11.step] at h
    split at h
    · next hc =>
      cases h
      have hcaller := hp.caller
      rw [hc] at hcaller
      refine ⟨⟨hcaller, trivial⟩, hp.submitting, hp.stopping, hp.given_back, hp.drained, ?_⟩
      intro hs
      rcases hp.stopped hs with hcl | hrest
      · rw [hc] at hcl
        cases hcl
      · exact .inr hrest
    · cases h
  | wake res =>
    rw [X11.step] at h
    split at h
    · next n ms hc =>
      cases h
      apply hp.goTo hc
      rintro hpolite rfl
      exact hl hpolite rfl
    · cases h
  | close =>
    rw [X11.step] at h
    split at h
    · next hc =>
      cases h
      have hcaller := hp.caller
      rw [hc] at hcaller
      exact ⟨⟨hcaller, by simp, by simp [Closing.joined]⟩, hp.submitting, hp.stopping, hp.given_back,
        hp.drained, fun _ => .inl rfl⟩
    · cases h

/-- **In every state of every interleaving** the parties are where they can be together. -/
theorem placed_run {ls : List Label} (hls : ∀ l ∈ ls, l.Polite polite)
    (h : Run.run step hidOpenPath ls = some s) : Placed polite s :=
  Run.run_inv step (Placed polite) (fun _ l => l.Polite polite)
    (fun _ _ _ hp hl hstep => hp.step hl hstep) placed_hidOpenPath
    (Run.along_of_forall step (Label.Polite polite) hls hidOpenPath) h

/-- **No lost wakeup.**  Whatever the three parties do, and in whatever order, a reader only sleeps
while the list is empty and the broadcast of `read_thread` is still to come. -/
theorem no_lost_wakeup {ls : List Label} {s : HidDevice} (h : Run.run step hidOpenPath ls = some s)
    {n : Nat} {ms : Int} (hc : s.caller = .reading n ms .asleep) :
    s.inputReports = [] ∧ s.readThread ≠ .ended := by
  have hp : Placed False s := placed_run (fun _ _ => False.elim) h
  have hcaller := hp.caller
  rw [hc] at hcaller
  exact hcaller.2

/-- A device that is opened, and a blocking read that comes to sleep. -/
def sleepingRead : List Label :=
  [.readThread true, .readThread true, .read 64 (-1), .hidReadTimeout, .hidReadTimeout,
    .hidReadTimeout, .hidReadTimeout]

theorem no_lost_wakeup_sleeping :
    ∃ s, Run.run step hidOpenPath sleepingRead = some s ∧
      s.inputReports = [] ∧ s.readThread ≠ .ended := by
  obtain ⟨s, hs⟩ := Option.isSome_iff_exists.mp
    (show (Run.run step hidOpenPath sleepingRead).isSome from by decide)
  have hc : (Run.run step hidOpenPath sleepingRead).map (·.caller) =
      some (.reading 64 (-1) .asleep) := by decide
  rw [hs] at hc
  exact ⟨s, hs, no_lost_wakeup hs (Option.some.inj hc)⟩

end TrezorPlugin.X11
