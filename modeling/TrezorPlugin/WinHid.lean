import TrezorPlugin.Hidapi
import TrezorPlugin.Lib.OneSlot

/-!
# hidapi on Windows (Win/hid.c)

`hid_read_timeout` gives `dev->read_buf` to an overlapped `ReadFile`.  A read that is not through in
time stays under way when the call returns, and `dev->read_pending` tells the next call to wait for
it and to start no other.  The driver is a party of its own: it answers the read whenever it likes,
also in between two calls and in the middle of `hid_close`.

`Placed` says what holds at each place of a call; it is kept by every step, and seen through
`HidDevice.view` a step is one of the slot of `Lib/OneSlot`:

    collected ++ held = what the driver answered                          (reads_in_order)

A call that has a timeout is never stuck in `GetOverlappedResult`, and nothing but the driver
touches the buffer while a read is under way.
-/

namespace TrezorPlugin.Win

/-! ## The parties -/

/-- What becomes of a read. -/
inductive Outcome
  /-- So many bytes are in the buffer. -/
  | report (data : List UInt8)
  | failed
  deriving DecidableEq

/-- The read of `dev->ol`, as `ol.Internal` and `ol.InternalHigh` have it. -/
inductive Request
  | none
  /-- `STATUS_PENDING` -/
  | pending
  /-- The number of bytes, unless it has failed. -/
  | done (transferred : Option Nat)
  deriving DecidableEq

/-- Where `hid_read_timeout` is. -/
inductive Reading
  /-- `if (!dev->read_pending)` -/
  | testing
  /-- At `ReadFile`. -/
  | starting
  /-- `if (milliseconds >= 0)`, and at `WaitForSingleObject`. -/
  | waiting
  /-- At `GetOverlappedResult`. -/
  | getting
  /-- Inside of it, waiting for the event. -/
  | blocked
  deriving DecidableEq

/-- Where `hid_close` is. -/
inductive Closing
  | cancelling
  /-- In `free_hid_device`. -/
  | closingHandles
  | freeingBuf
  | freeingDev
  deriving DecidableEq

/-- Where the thread that calls hidapi is. -/
inductive Caller
  | idle
  /-- In `hid_read_timeout(dev, data, length, milliseconds)`. -/
  | reading (length : Nat) (milliseconds : Int) (place : Reading)
  | closing (place : Closing)
  | closed
  deriving DecidableEq

/-- How `hid_read_timeout` returns: `bytes_read` and what it has copied, 0 after the wait, or -1. -/
inductive Returned
  | got (bytesRead : Nat) (data : List UInt8)
  | timedOut
  | failed
  deriving DecidableEq

inductive Object
  | dev
  | readBuf
  deriving DecidableEq

/-- `hid_device`, where the thread is, and what has happened so far. -/
structure HidDevice where
  inputReportLength : Nat
  readPending : Bool
  readBuf : List UInt8
  request : Request
  /-- `ol.hEvent`, which resets itself once it has ended a wait. -/
  signaled : Bool
  caller : Caller
  /-- What became of the reads, in order. -/
  outcomes : List Outcome
  /-- What the calls have found, and for how many bytes each of them had asked. -/
  collected : List (Outcome × Nat)
  returned : List Returned
  freed : List Object
  deriving DecidableEq

/-- The device that `hid_open_path` returns; `malloc` has found `readBuf`. -/
def hidOpenPath (readBuf : List UInt8) : HidDevice where
  inputReportLength := readBuf.length
  readPending := false
  readBuf := readBuf
  request := .none
  signaled := false
  caller := .idle
  outcomes := []
  collected := []
  returned := []
  freed := []

/-! ## What they do -/

def Outcome.bytes : Outcome → List UInt8
  | .report data => data
  | .failed => []

def Outcome.transferred : Outcome → Option Nat
  | .report data => some data.length
  | .failed => none

/-- The driver is through with a read. -/
def HidDevice.answer (s : HidDevice) (o : Outcome) : HidDevice :=
  { s with
    readBuf := o.bytes ++ s.readBuf.drop o.bytes.length
    request := .done o.transferred
    signaled := true
    outcomes := s.outcomes ++ [o] }

/-- It writes no more than the buffer holds. -/
def complete (s : HidDevice) (o : Outcome) : Option HidDevice :=
  match s.request with
  | .pending => if o.bytes.length ≤ s.inputReportLength then some (s.answer o) else none
  | _ => none

/-- How `ReadFile` returns. -/
inductive Started
  /-- `ERROR_IO_PENDING` -/
  | pending
  /-- Without an error, there being a report already. -/
  | finished (data : List UInt8)
  | refused
  deriving DecidableEq

def HidDevice.goTo (s : HidDevice) (length : Nat) (ms : Int) (place : Reading) : HidDevice :=
  { s with caller := .reading length ms place }

/-- `return`, with the outcome that the call has found if it has found one. -/
def HidDevice.giveBack (s : HidDevice) (r : Returned) (found : List (Outcome × Nat)) : HidDevice :=
  { s with
    caller := .idle
    collected := s.collected ++ found
    returned := s.returned ++ [r] }

/-- `ReadFile`, and what follows if it fails. -/
def readFile (s : HidDevice) (started : Started) : Option HidDevice :=
  match s.caller with
  | .reading length ms .starting =>
    match started with
    | .pending => some { s.goTo length ms .waiting with request := .pending, signaled := false }
    | .finished data =>
      if data.length ≤ s.inputReportLength then
        some ((s.answer (.report data)).goTo length ms .waiting)
      else none
    | .refused =>
      some (({ s with readPending := false, outcomes := s.outcomes ++ [.failed] } : HidDevice).giveBack
        .failed [(.failed, length)])
  | _ => none

/-- `WaitForSingleObject(ev, milliseconds)`; `ok`: it returns `WAIT_OBJECT_0`. -/
def wait (s : HidDevice) (ok : Bool) : Option HidDevice :=
  match s.caller with
  | .reading length ms .waiting =>
    if 0 ≤ ms then
      if ok then
        if s.signaled then some { s.goTo length ms .getting with signaled := false } else none
      else some (s.giveBack .timedOut [])
    else none
  | _ => none

/-- `if (res && bytes_read > 0)`: a report number 0 is left out. -/
def copyOut (readBuf : List UInt8) (bytesRead length : Nat) : Returned :=
  if 0 < bytesRead then
    if readBuf.getD 0 0 = 0 then
      let bytesRead := bytesRead - 1
      let copyLen := if length > bytesRead then bytesRead else length
      .got bytesRead ((readBuf.drop 1).take copyLen)
    else
      let copyLen := if length > bytesRead then bytesRead else length
      .got bytesRead (readBuf.take copyLen)
  else .got bytesRead []

/-- The outcome as it can be read off the buffer. -/
def HidDevice.outcome (s : HidDevice) : Option Nat → Outcome
  | some transferred => .report (s.readBuf.take transferred)
  | none => .failed

/-- What `hid_read_timeout` returns for a read that is through. -/
def HidDevice.result (s : HidDevice) (length : Nat) : Option Nat → Returned
  | some bytesRead => copyOut s.readBuf bytesRead length
  | none => .failed

/-- `hid_read_timeout` from `dev->read_pending = FALSE` on. -/
def HidDevice.fetch (s : HidDevice) (length : Nat) (transferred : Option Nat) : HidDevice :=
  ({ s with readPending := false, request := .none } : HidDevice).giveBack
    (s.result length transferred) [(s.outcome transferred, length)]

/-- `hid_read_timeout` goes on by itself.  `GetOverlappedResult` only waits for the event if the read
is not through. -/
def hidReadTimeout (s : HidDevice) : Option HidDevice :=
  match s.caller with
  | .reading length ms .testing =>
    if s.readPending then some (s.goTo length ms .waiting)
    else
      some { s.goTo length ms .starting with
        readPending := true
        readBuf := List.replicate s.inputReportLength 0
        signaled := false }
  | .reading length ms .waiting => if 0 ≤ ms then none else some (s.goTo length ms .getting)
  | .reading length ms .getting =>
    match s.request with
    | .none => none
    | .pending => some (s.goTo length ms .blocked)
    | .done transferred => some (s.fetch length transferred)
  | .reading length _ .blocked =>
    match s.request with
    | .done transferred =>
      if s.signaled then some (({ s with signaled := false } : HidDevice).fetch length transferred) else none
    | _ => none
  | _ => none

/-- `hid_close` goes on.  `CancelIo` asks for the read to be given up, and waits for nothing. -/
def hidClose (s : HidDevice) : Option HidDevice :=
  match s.caller with
  | .closing .cancelling => some { s with caller := .closing .closingHandles }
  | .closing .closingHandles => some { s with caller := .closing .freeingBuf }
  | .closing .freeingBuf =>
    some { s with freed := s.freed ++ [.readBuf], caller := .closing .freeingDev }
  | .closing .freeingDev => some { s with freed := s.freed ++ [.dev], caller := .closed }
  | _ => none

inductive Label
  /-- The driver answers the read under way. -/
  | complete (o : Outcome)
  /-- `hid_read_timeout` is called. -/
  | read (length : Nat) (milliseconds : Int)
  | readFile (started : Started)
  | wait (ok : Bool)
  | hidReadTimeout
  /-- `hid_close` is called. -/
  | close
  | hidClose
  deriving DecidableEq

def step (s : HidDevice) : Label → Option HidDevice
  | .complete o => complete s o
  | .read length ms =>
    match s.caller with
    | .idle => some (s.goTo length ms .testing)
    | _ => none
  | .readFile started => readFile s started
  | .wait ok => wait s ok
  | .hidReadTimeout => hidReadTimeout s
  | .close =>
    match s.caller with
    | .idle => some { s with caller := .closing .cancelling }
    | _ => none
  | .hidClose => hidClose s

/-! ## What holds at each place -/

/-- The event is signaled once the read is through. -/
def HidDevice.UnderWay (s : HidDevice) : Prop :=
  s.request = .pending ∧ s.signaled = false ∨ (∃ r, s.request = .done r) ∧ s.signaled = true

/-- Between two calls. -/
def HidDevice.Resting (s : HidDevice) : Prop :=
  s.readPending = false ∧ s.request = .none ∨ s.readPending = true ∧ s.UnderWay

def HidDevice.Knows (s : HidDevice) : Caller → Prop
  | .reading _ _ .testing => s.Resting
  | .reading _ _ .starting => s.readPending = true ∧ s.request = .none ∧ s.signaled = false
  | .reading _ _ .waiting => s.readPending = true ∧ s.UnderWay
  | .reading _ ms .getting =>
    s.readPending = true ∧ if 0 ≤ ms then ∃ r, s.request = .done r else s.UnderWay
  | .reading _ ms .blocked => ms < 0 ∧ s.readPending = true ∧ s.UnderWay
  | .idle => s.Resting
  | .closing _ => s.Resting
  | .closed => s.Resting

structure Placed (s : HidDevice) : Prop where
  buffer : s.readBuf.length = s.inputReportLength
  transferred : ∀ n, s.request = .done (some n) → n ≤ s.readBuf.length
  caller : s.Knows s.caller

/-- The slot with the read in it. -/
def HidDevice.view (s : HidDevice) : OneSlot.State Outcome Nat where
  slot :=
    match s.request with
    | .none => .free
    | .pending => .requested
    | .done transferred => .answered (s.outcome transferred)
  answers := s.outcomes
  collected := s.collected

variable {s t : HidDevice}

theorem placed_hidOpenPath (readBuf : List UInt8) : Placed (hidOpenPath readBuf) where
  buffer := rfl
  transferred := by simp [hidOpenPath]
  caller := .inl ⟨rfl, rfl⟩

/-! ## One step of each party -/

theorem take_answer (s : HidDevice) (data : List UInt8) :
    (s.answer (.report data)).readBuf.take data.length = data := by
  simp [HidDevice.answer, Outcome.bytes]

theorem outcome_answer (s : HidDevice) (o : Outcome) :
    (s.answer o).outcome o.transferred = o := by
  cases o with
  | report data => exact congrArg Outcome.report (take_answer s data)
  | failed => rfl

theorem Placed.answer {c : Caller} (hp : Placed s) {o : Outcome}
    (ho : o.bytes.length ≤ s.inputReportLength) (hc : (s.answer o).Knows c) :
    Placed { s.answer o with caller := c } := by
  refine ⟨?_, ?_, ?_⟩
  · have := hp.buffer
    simp only [HidDevice.answer, List.length_append, List.length_drop]
    omega
  · intro n hn
    cases o with
    | report data =>
      cases hn
      show data.length ≤ (data ++ s.readBuf.drop data.length).length
      rw [List.length_append]
      exact Nat.le_add_right _ _
    | failed => cases hn
  · cases c with
    | reading n ms place => cases place <;> exact hc
    | _ => exact hc

theorem HidDevice.UnderWay.answer (s : HidDevice) (o : Outcome) : (s.answer o).UnderWay :=
  .inr ⟨⟨_, rfl⟩, rfl⟩

theorem HidDevice.Resting.answer (h : s.Resting) (hreq : s.request = .pending) (o : Outcome) :
    (s.answer o).Resting := by
  rcases h with ⟨-, hnone⟩ | ⟨hpending, -⟩
  · rw [hreq] at hnone
    cases hnone
  · exact .inr ⟨hpending, .answer s o⟩

/-- What a call relies on is kept by the driver. -/
theorem HidDevice.Knows.answer {c : Caller} (hk : s.Knows c) (hreq : s.request = .pending)
    (o : Outcome) : (s.answer o).Knows c := by
  cases c with
  | idle => exact HidDevice.Resting.answer hk hreq o
  | closed => exact HidDevice.Resting.answer hk hreq o
  | closing place => exact HidDevice.Resting.answer hk hreq o
  | reading n ms place =>
    cases place with
    | testing => exact HidDevice.Resting.answer hk hreq o
    | starting =>
      rw [hk.2.1] at hreq
      cases hreq
    | waiting => exact ⟨hk.1, .answer s o⟩
    | getting =>
      refine ⟨hk.1, ?_⟩
      split
      · exact ⟨_, rfl⟩
      · exact .answer s o
    | blocked => exact ⟨hk.1, hk.2.1, .answer s o⟩

/-- Seen as the slot, `t` comes after `s`. -/
def Follows (s t : HidDevice) : Prop :=
  ∃ acts, Run.run OneSlot.step s.view acts = some t.view

theorem Follows.same (h : t.view = s.view) : Follows s t := ⟨[], by rw [h]; rfl⟩

theorem view_answer (s : HidDevice) (o : Outcome) :
    (s.answer o).view = ⟨.answered o, s.outcomes ++ [o], s.collected⟩ := by
  have hslot : (s.answer o).view.slot = .answered o := congrArg OneSlot.Slot.answered (outcome_answer s o)
  rw [← hslot]
  rfl

theorem Placed.complete {o : Outcome} (hp : Placed s) (h : complete s o = some t) :
    Placed t ∧ Follows s t := by
  unfold Win.complete at h
  split at h
  · next hreq =>
    split at h
    · next hlen =>
      cases h
      refine ⟨hp.answer hlen (hp.caller.answer hreq o), [.answer o], ?_⟩
      rw [view_answer]
      simp [Run.run, OneSlot.step, HidDevice.view, hreq]
    · cases h
  · cases h

theorem Placed.readFile {started : Started} (hp : Placed s) (h : readFile s started = some t) :
    Placed t ∧ Follows s t := by
  have hcaller := hp.caller
  unfold Win.readFile at h
  split at h
  · next n ms hc =>
    rw [hc] at hcaller
    obtain ⟨hpending, hreq, -⟩ := hcaller
    cases started with
    | pending =>
      cases h
      refine ⟨⟨hp.buffer, by simp [HidDevice.goTo], hpending, .inl ⟨rfl, rfl⟩⟩, [.request], ?_⟩
      simp [Run.run, OneSlot.step, HidDevice.view, HidDevice.goTo, hreq]
    | finished data =>
      simp only [] at h
      split at h
      · next hlen =>
        cases h
        refine ⟨hp.answer (o := .report data) hlen ⟨hpending, .answer s _⟩,
          [.request, .answer (.report data)], ?_⟩
        show _ = some (s.answer (.report data)).view
        rw [view_answer]
        simp [Run.run, OneSlot.step, HidDevice.view, hreq]
      · cases h
    | refused =>
      cases h
      refine ⟨⟨hp.buffer, hp.transferred, .inl ⟨rfl, hreq⟩⟩,
        [.request, .answer .failed, .collect n], ?_⟩
      simp [Run.run, OneSlot.step, HidDevice.view, HidDevice.giveBack, hreq]
  · cases h

theorem Placed.wait {ok : Bool} (hp : Placed s) (h : wait s ok = some t) :
    Placed t ∧ Follows s t := by
  have hcaller := hp.caller
  unfold Win.wait at h
  split at h
  · next n ms hc =>
    rw [hc] at hcaller
    obtain ⟨hpending, hunder⟩ := hcaller
    split at h
    · next hms =>
      split at h
      · split at h
        · next hsignaled =>
          cases h
          refine ⟨⟨hp.buffer, hp.transferred, hpending, ?_⟩, .same rfl⟩
          rw [if_pos hms]
          rcases hunder with ⟨-, hnot⟩ | ⟨hdone, -⟩
          · rw [hsignaled] at hnot
            cases hnot
          · exact hdone
        · cases h
      · cases h
        refine ⟨⟨hp.buffer, hp.transferred, .inr ⟨hpending, hunder⟩⟩, .same ?_⟩
        simp [HidDevice.view, HidDevice.giveBack, HidDevice.outcome]
    · cases h
  · cases h

/-- A call that has found its read through frees the slot. -/
theorem Placed.fetch (hp : Placed s) {transferred : Option Nat}
    (hreq : s.request = .done transferred) (n : Nat) (signaled : Bool) :
    Placed (({ s with signaled := signaled } : HidDevice).fetch n transferred) ∧
      Follows s (({ s with signaled := signaled } : HidDevice).fetch n transferred) := by
  refine ⟨⟨hp.buffer, by simp [HidDevice.fetch, HidDevice.giveBack], .inl ⟨rfl, rfl⟩⟩, [.collect n], ?_⟩
  simp only [Run.run, OneSlot.step, HidDevice.view, hreq]
  rfl

theorem Placed.hidReadTimeout (hp : Placed s) (h : hidReadTimeout s = some t) :
    Placed t ∧ Follows s t := by
  have hcaller := hp.caller
  unfold Win.hidReadTimeout at h
  split at h
  · next n ms hc =>
    rw [hc] at hcaller
    split at h
    · next hpending =>
      cases h
      refine ⟨⟨hp.buffer, hp.transferred, hpending, ?_⟩, .same rfl⟩
      rcases hcaller with ⟨hnot, -⟩ | ⟨-, hunder⟩
      · rw [hpending] at hnot
        cases hnot
      · exact hunder
    · next hnot =>
      cases h
      have hreq : s.request = .none := by
        rcases hcaller with ⟨-, hreq⟩ | ⟨hpending, -⟩
        · exact hreq
        · exact absurd hpending hnot
      refine ⟨⟨by simp [HidDevice.goTo], ?_, rfl, hreq, rfl⟩, .same ?_⟩
      · simp [HidDevice.goTo, hreq]
      · simp [HidDevice.view, HidDevice.goTo, hreq]
  · next n ms hc =>
    rw [hc] at hcaller
    split at h
    · cases h
    · next hms =>
      cases h
      refine ⟨⟨hp.buffer, hp.transferred, hcaller.1, ?_⟩, .same rfl⟩
      rw [if_neg hms]
      exact hcaller.2
  · next n ms hc =>
    rw [hc] at hcaller
    split at h
    · cases h
    · next hreq =>
      cases h
      refine ⟨⟨hp.buffer, hp.transferred, ?_⟩, .same rfl⟩
      obtain ⟨hpending, hk⟩ := hcaller
      split at hk
      · obtain ⟨r, hr⟩ := hk
        rw [hreq] at hr
        cases hr
      · next hms => exact ⟨Int.not_le.mp hms, hpending, hk⟩
    · next hreq =>
      cases h
      exact hp.fetch hreq n s.signaled
  · next n ms hc =>
    split at h
    · next hreq =>
      split at h
      · cases h
        exact hp.fetch hreq n false
      · cases h
    · cases h
  · cases h

theorem Placed.hidClose (hp : Placed s) (h : hidClose s = some t) : Placed t ∧ Follows s t := by
  have hcaller := hp.caller
  unfold Win.hidClose at h
  split at h
  case h_5 => cases h
  all_goals
    next hc =>
    rw [hc] at hcaller
    cases h
    exact ⟨⟨hp.buffer, hp.transferred, hcaller⟩, .same rfl⟩

theorem Placed.step {l : Label} (hp : Placed s) (h : step s l = some t) :
    Placed t ∧ Follows s t := by
  have hcaller := hp.caller
  cases l with
  | complete o => exact hp.complete h
  | readFile started => exact hp.readFile h
  | wait ok => exact hp.wait h
  | hidReadTimeout => exact hp.hidReadTimeout h
  | hidClose => exact hp.hidClose h
  | read n ms =>
    rw [Win.step] at h
    split at h
    · next hc =>
      rw [hc] at hcaller
      cases h
      exact ⟨⟨hp.buffer, hp.transferred, hcaller⟩, .same rfl⟩
    · cases h
  | close =>
    rw [Win.step] at h
    split at h
    · next hc =>
      rw [hc] at hcaller
      cases h
      exact ⟨⟨hp.buffer, hp.transferred, hcaller⟩, .same rfl⟩
    · cases h

/-- **Refinement.**  In every interleaving of the calls and the driver, the parties are where they
can be together, and what they do is one request at a time. -/
theorem placed_run {readBuf : List UInt8} {ls : List Label}
    (h : Run.run step (hidOpenPath readBuf) ls = some s) :
    Placed s ∧ ∃ acts, Run.run OneSlot.step ⟨.free, [], []⟩ acts = some s.view :=
  Run.run_view step OneSlot.step HidDevice.view Placed (fun _ _ _ hp hstep => hp.step hstep)
    (placed_hidOpenPath readBuf) h

end TrezorPlugin.Win
