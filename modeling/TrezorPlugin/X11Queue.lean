import TrezorPlugin.X11Hid

/-!
# The list of input reports (X11/hid.c)

`input_reports` is a queue that evicts its oldest report: although the comment in `read_callback`
says 30, it does so once 32 of them are queued.  Each step of a party keeps the list, pushes onto
it or takes its first report (`step_moved`), so that in every state of every interleaving

    completed by libusb = left the list ++ queued ++ in the callback     (reports_in_order)

and the reads return reports of this stream in its order, none twice, leaving out those that had
32 newer ones behind them.  `failed_read_is_final`: a read fails when everything received has
left the list, nothing is received from then on, and every later read fails.
-/

namespace TrezorPlugin.X11

open DropQueue

/-- `input_reports`, with the reports that have left it. -/
def HidDevice.queue (s : HidDevice) : State InputReport Nat := ⟨s.inputReports, s.left⟩

def Returned.bytes : Returned → Option (List UInt8)
  | .data bytes => some bytes
  | .timedOut => none
  | .failed => none

/-- What the read at hand is about to return. -/
def Caller.result : Caller → List Returned
  | .reading _ _ (.unlocking r) => [r]
  | _ => []

/-- The bytes that the reads returned, a report each. -/
def HidDevice.delivered (s : HidDevice) : List (List UInt8) :=
  (s.returned ++ s.caller.result).filterMap Returned.bytes

/-- The bytes that a read takes out of a report. -/
def takenBytes (x : InputReport × Nat) : List UInt8 := x.1.data.take x.2

/-- A read is under way, for `n` bytes at most. -/
def Caller.Asks (n : Nat) (c : Caller) : Prop := ∃ ms place, c = .reading n ms place

/-! ## What a step does to the reports -/

/-- The list is kept, a report is attached to it, or its first one leaves. -/
inductive Moved (s t : HidDevice) : Prop
  | kept : t.queue = s.queue → t.received = s.received → t.delivered = s.delivered → Moved s t
  | pushed (rpt : InputReport) : t.queue = s.queue.push 32 rpt →
      t.received = s.received ++ [rpt] → t.delivered = s.delivered → Moved s t
  | taken (n : Nat) (rpt : InputReport) (rest : List InputReport) : s.caller.Asks n →
      s.inputReports = rpt :: rest → t.queue = s.queue.exit (.taken n) →
      t.received = s.received → t.delivered = s.delivered ++ [rpt.data.take n] → Moved s t
  | cleared : s.caller.closes = true → t.queue = s.queue.exit .cleared → t.received = s.received →
      t.delivered = s.delivered → Moved s t

variable {s t : HidDevice}

theorem numQueued_eq (reports : List InputReport) : numQueued reports = reports.length - 1 := by
  fun_induction numQueued reports with
  | case1 => rfl
  | case2 => rfl
  | case3 first rpt rest ih =>
    rw [ih]
    simp

@[simp] theorem Caller.result_wake (c : Caller) : c.wake.result = c.result := by
  unfold Caller.wake
  split <;> rfl

/-- **The bound is 32**: `num_queued` counts from 0, and is compared before the new report. -/
theorem attach_queue (s : HidDevice) (rpt : InputReport) :
    (s.attach rpt).queue = s.queue.push 32 rpt := by
  unfold HidDevice.attach State.push
  simp only [HidDevice.queue]
  split
  · next hreports => simp [hreports]
  · next first rest hreports =>
    simp only [numQueued_eq, hreports, List.length_append, List.length_cons, List.length_nil]
    by_cases hfull : 32 ≤ rest.length + 1
    · rw [if_pos (by omega), if_pos (by omega)]
      simp [HidDevice.returnData, State.exit]
    · rw [if_neg (by omega), if_neg (by omega)]

theorem attach_received (s : HidDevice) (rpt : InputReport) :
    (s.attach rpt).received = s.received ++ [rpt] := by
  unfold HidDevice.attach HidDevice.returnData
  split <;> try split
  all_goals rfl

theorem attach_delivered (s : HidDevice) (rpt : InputReport) :
    (s.attach rpt).delivered = s.delivered := by
  unfold HidDevice.attach HidDevice.returnData HidDevice.delivered
  split <;> try split
  all_goals simp

theorem delivered_of_result (hreturned : t.returned = s.returned)
    (hresult : t.caller.result = s.caller.result) : t.delivered = s.delivered := by
  unfold HidDevice.delivered
  rw [hreturned, hresult]

/-- `hid_read_timeout` comes to a place, not having a report. -/
theorem moved_goTo {n : Nat} {ms : Int} {place place' : Reading}
    (hc : s.caller = .reading n ms place) (hr : ∀ r, place ≠ .unlocking r)
    (hb : ∀ bytes, place' ≠ .unlocking (.data bytes)) : Moved s (s.goTo n ms place') := by
  refine .kept rfl rfl ?_
  have hnone : s.caller.result = [] := by
    rw [hc]
    cases place with
    | unlocking r => exact absurd rfl (hr r)
    | _ => rfl
  unfold HidDevice.delivered
  rw [hnone]
  cases place' with
  | unlocking r =>
    cases r with
    | data bytes => exact absurd rfl (hb bytes)
    | timedOut => simp [HidDevice.goTo, Caller.result, Returned.bytes]
    | failed => simp [HidDevice.goTo, Caller.result, Returned.bytes]
  | _ => rfl

theorem moved_handOut {n : Nat} {ms : Int} {place : Reading} {rpt : InputReport}
    {rest : List InputReport} (hc : s.caller = .reading n ms place)
    (hr : ∀ r, place ≠ .unlocking r) (hreports : s.inputReports = rpt :: rest) :
    Moved s (s.handOut n ms rpt rest) := by
  refine .taken n rpt rest ⟨ms, place, hc⟩ hreports ?_ rfl ?_
  · unfold State.exit HidDevice.queue
    simp only [hreports]
    rfl
  · have hnone : s.caller.result = [] := by
      rw [hc]
      cases place with
      | unlocking r => exact absurd rfl (hr r)
      | _ => rfl
    unfold HidDevice.delivered
    rw [hnone]
    simp [HidDevice.handOut, HidDevice.goTo, HidDevice.returnData, Caller.result, Returned.bytes]

theorem moved_readOn {n : Nat} {ms : Int} {place : Reading} (hc : s.caller = .reading n ms place)
    (h : s.readOn n ms place = some t) : Moved s t := by
  rcases readOn_cases h with ⟨rpt, rest, hr, hreports, rfl⟩ | ⟨place', hr, hb, rfl⟩ | ⟨r, rfl, rfl⟩
  · exact moved_handOut hc hr hreports
  · exact moved_goTo hc hr hb
  · refine .kept rfl rfl ?_
    unfold HidDevice.delivered
    rw [hc]
    simp [Caller.result]

theorem moved_complete {status : TransferStatus} (h : complete s status = some t) : Moved s t := by
  unfold complete at h
  split at h
  · split at h
    · cases h
      exact .kept rfl rfl rfl
    · split at h
      · cases h
        exact .kept rfl rfl rfl
      · cases h
    all_goals
      cases h
      exact .kept rfl rfl rfl
  · cases h

theorem moved_readCallback {ok : Bool} (h : readCallback s ok = some t) : Moved s t := by
  unfold readCallback at h
  split at h
  · next rpt _ =>
    split at h
    · cases h
    · cases h
      refine .pushed rpt (attach_queue s rpt) (attach_received s rpt) ?_
      exact (delivered_of_result rfl rfl).trans (attach_delivered s rpt)
  · cases h
    exact .kept rfl rfl rfl
  · cases h
    exact .kept rfl rfl rfl
  · cases h
    exact .kept rfl rfl rfl
  · cases h

theorem moved_readThread {ok : Bool} (h : readThread s ok = some t) : Moved s t := by
  unfold readThread at h
  split at h
  case h_2 =>
    split at h
    · next hc =>
      cases h
      exact .kept rfl rfl (delivered_of_result rfl (by rw [hc]; rfl))
    · cases h
  case h_7 =>
    split at h
    · cases h
    · cases h
      exact .kept rfl rfl (delivered_of_result rfl s.caller.result_wake)
  case h_8 => cases h
  all_goals
    cases h
    exact .kept rfl rfl rfl

theorem moved_hidClose (h : hidClose s = some t) : Moved s t := by
  unfold hidClose at h
  split at h
  case h_3 hc =>
    split at h
    · cases h
      exact .kept rfl rfl (delivered_of_result rfl (by rw [hc]; rfl))
    · cases h
  case h_5 hc =>
    split at h
    · next hreports =>
      cases h
      refine .cleared (by rw [hc]; rfl) ?_ rfl rfl
      unfold State.exit HidDevice.queue
      simp only [hreports]
      rfl
    · cases h
      exact .kept rfl rfl (delivered_of_result rfl (by rw [hc]; rfl))
  case h_7 => cases h
  all_goals
    next hc =>
    cases h
    exact .kept rfl rfl (delivered_of_result rfl (by rw [hc]; rfl))

theorem step_moved {l : Label} (h : step s l = some t) : Moved s t := by
  cases l with
  | complete status => exact moved_complete h
  | readCallback ok => exact moved_readCallback h
  | readThread ok => exact moved_readThread h
  | hidClose => exact moved_hidClose h
  | hidReadTimeout =>
    rw [step, hidReadTimeout] at h
    split at h
    · next hc => exact moved_readOn hc h
    · cases h
  | read n ms =>
    rw [step] at h
    split at h
    · next hc =>
      cases h
      exact .kept rfl rfl (delivered_of_result rfl (by rw [hc]; rfl))
    · cases h
  | wake res =>
    rw [step] at h
    split at h
    · next hc =>
      cases h
      exact moved_goTo hc (by simp) (by simp)
    · cases h
  | close =>
    rw [step] at h
    split at h
    · next hc =>
      cases h
      exact .kept rfl rfl (delivered_of_result rfl (by rw [hc]; rfl))
    · cases h

/-! ## Runs -/

/-- The law of the queue, and what has been read is what was taken from it. -/
structure Queued (s : HidDevice) : Prop where
  sound : Sound 32 s.received s.queue
  delivered : s.delivered = s.queue.taken.map takenBytes

theorem queued_hidOpenPath : Queued hidOpenPath := ⟨Sound.empty 32, rfl⟩

theorem taken_push (q : State InputReport Nat) (limit : Nat) (rpt : InputReport) :
    (q.push limit rpt).taken = q.taken := by
  unfold State.push State.exit
  simp only []
  split <;> try split
  all_goals simp [State.taken, Exit.reader]

theorem taken_cleared (q : State InputReport Nat) : (q.exit .cleared).taken = q.taken := by
  unfold State.exit
  split <;> simp [State.taken, Exit.reader]

theorem taken_exit {q : State InputReport Nat} {rpt : InputReport} {rest : List InputReport}
    (h : q.queue = rpt :: rest) (n : Nat) : (q.exit (.taken n)).taken = q.taken ++ [(rpt, n)] := by
  unfold State.exit
  rw [h]
  simp [State.taken, Exit.reader]

theorem Queued.step {l : Label} (hq : Queued s) (h : step s l = some t) : Queued t := by
  rcases step_moved h with ⟨hqueue, hrec, hdel⟩ | ⟨rpt, hqueue, hrec, hdel⟩ |
    ⟨n, rpt, rest, -, hreports, hqueue, hrec, hdel⟩ | ⟨-, hqueue, hrec, hdel⟩
  · refine ⟨?_, ?_⟩
    · rw [hqueue, hrec]
      exact hq.sound
    · rw [hqueue, hdel]
      exact hq.delivered
  · refine ⟨?_, ?_⟩
    · rw [hqueue, hrec]
      exact hq.sound.push rpt
    · rw [hqueue, hdel, taken_push]
      exact hq.delivered
  · refine ⟨?_, ?_⟩
    · rw [hqueue, hrec]
      exact hq.sound.exit (by simp)
    · rw [hqueue, hdel, taken_exit hreports, hq.delivered, List.map_append]
      rfl
  · refine ⟨?_, ?_⟩
    · rw [hqueue, hrec]
      exact hq.sound.exit (by simp)
    · rw [hqueue, hdel, taken_cleared]
      exact hq.delivered

theorem queued_run {ls : List Label} (h : Run.run step hidOpenPath ls = some s) : Queued s :=
  Run.run_inv step Queued (fun _ _ => True) (fun _ _ _ hq _ hstep => hq.step hstep)
    queued_hidOpenPath (Run.along_true step hidOpenPath ls) h

/-! ## What libusb completes -/

/-- The report that `read_callback` has in hand. -/
def Transfer.inHand : Transfer → List InputReport
  | .appending rpt => [rpt]
  | _ => []

/-- The reports so far: those that have come to the list, and the one in the callback. -/
def HidDevice.arrivals (s : HidDevice) : List InputReport := s.received ++ s.transfer.inHand

/-- The report that a step brings, as the `n`-th. -/
def Label.brings (n : Nat) : Label → List InputReport
  | .complete (.completed data) => [⟨n, data⟩]
  | _ => []

/-- The data of the transfers that were completed in a run. -/
def completed (ls : List Label) : List (List UInt8) :=
  ls.flatMap fun l => (l.brings 0).map (·.data)

theorem data_brings (n : Nat) (l : Label) : (l.brings n).map (·.data) = completed [l] := by
  unfold completed Label.brings
  cases l with
  | complete status => cases status <;> rfl
  | _ => rfl

@[simp] theorem Transfer.inHand_cancel (transfer : Transfer) :
    transfer.cancel.inHand = transfer.inHand := by
  unfold Transfer.cancel
  split <;> rfl

theorem attach_allocated (s : HidDevice) (rpt : InputReport) :
    (s.attach rpt).allocated = s.allocated := by
  unfold HidDevice.attach HidDevice.returnData
  split <;> try split
  all_goals rfl

/-- Every step but a completion leaves the reports what they are. -/
theorem step_arrivals {l : Label} (hp : Placed False s) (h : step s l = some t) :
    t.arrivals = s.arrivals ++ l.brings s.allocated ∧
      t.allocated = s.allocated + (l.brings s.allocated).length := by
  have hsame : t.received = s.received → t.transfer.inHand = s.transfer.inHand →
      t.arrivals = s.arrivals ++ [] := by
    intro hr ht
    unfold HidDevice.arrivals
    rw [hr, ht, List.append_nil]
  cases l with
  | complete status =>
    rw [step, complete] at h
    split at h
    · next htr =>
      split at h
      · cases h
        refine ⟨?_, rfl⟩
        unfold HidDevice.arrivals
        rw [htr]
        simp [Transfer.inHand, Label.brings]
      · split at h <;> cases h
        exact ⟨hsame rfl (by rw [htr]; rfl), rfl⟩
      all_goals
        cases h
        exact ⟨hsame rfl (by rw [htr]; rfl), rfl⟩
    · cases h
  | readCallback ok =>
    rw [step, readCallback] at h
    split at h
    · next rpt htr =>
      split at h
      · cases h
      · cases h
        refine ⟨?_, attach_allocated s rpt⟩
        show (s.attach rpt).received ++ [] = (s.received ++ s.transfer.inHand) ++ []
        rw [attach_received, htr]
        rfl
    · next htr =>
      cases h
      exact ⟨hsame rfl (by rw [htr]; cases ok <;> rfl), rfl⟩
    · next htr =>
      cases h
      exact ⟨hsame rfl (by rw [htr]; rfl), rfl⟩
    · next htr =>
      cases h
      exact ⟨hsame rfl (by rw [htr]; rfl), rfl⟩
    · cases h
  | readThread ok =>
    rw [step, readThread] at h
    split at h
    · next hr =>
      cases h
      exact ⟨hsame rfl (by rw [(hp.submitting hr).1]; cases ok <;> rfl), rfl⟩
    · split at h <;> cases h
      exact ⟨hsame rfl rfl, rfl⟩
    · cases h
      exact ⟨hsame rfl rfl, rfl⟩
    · cases h
      exact ⟨hsame rfl rfl, rfl⟩
    · cases h
      exact ⟨hsame rfl (Transfer.inHand_cancel s.transfer), rfl⟩
    · cases h
      exact ⟨hsame rfl rfl, rfl⟩
    · split at h <;> cases h
      exact ⟨hsame rfl rfl, rfl⟩
    · cases h
  | hidReadTimeout =>
    rw [step, hidReadTimeout] at h
    split at h
    · obtain ⟨htr, -, -, -, hr, hn⟩ := readOn_frame h
      exact ⟨hsame hr (by rw [htr]), hn⟩
    · cases h
  | hidClose =>
    rw [step, hidClose] at h
    split at h
    case h_2 =>
      cases h
      exact ⟨hsame rfl (Transfer.inHand_cancel s.transfer), rfl⟩
    case h_3 =>
      split at h <;> cases h
      exact ⟨hsame rfl rfl, rfl⟩
    case h_5 =>
      split at h <;> cases h <;> exact ⟨hsame rfl rfl, rfl⟩
    case h_7 => cases h
    all_goals
      cases h
      exact ⟨hsame rfl rfl, rfl⟩
  | read n ms =>
    rw [step] at h
    split at h <;> cases h
    exact ⟨hsame rfl rfl, rfl⟩
  | wake res =>
    rw [step] at h
    split at h <;> cases h
    exact ⟨hsame rfl rfl, rfl⟩
  | close =>
    rw [step] at h
    split at h <;> cases h
    exact ⟨hsame rfl rfl, rfl⟩

/-- The data of the reports are what libusb completed; their ids count them. -/
structure Arrived (done : List Label) (s : HidDevice) : Prop where
  data : s.arrivals.map (·.data) = completed done
  ids : s.arrivals.map (·.id) = List.range s.allocated

theorem Arrived.step {done : List Label} {l : Label} (hp : Placed False s) (h : Arrived done s)
    (hstep : step s l = some t) : Arrived (done ++ [l]) t := by
  obtain ⟨ha, hn⟩ := step_arrivals hp hstep
  constructor
  · rw [ha, List.map_append, h.data, data_brings]
    exact List.flatMap_append.symm
  · rw [ha, List.map_append, h.ids, hn]
    unfold Label.brings
    split
    · exact List.range_succ.symm
    · exact List.append_nil _

theorem arrived_run {ls : List Label} (h : Run.run step hidOpenPath ls = some s) :
    Arrived ls s := by
  have hstart : Placed False hidOpenPath ∧ Arrived [] hidOpenPath :=
    ⟨placed_hidOpenPath, rfl, rfl⟩
  have hinv := Run.run_inv_labels step (fun done s => Placed False s ∧ Arrived done s)
    (fun _ _ => True)
    (fun _ _ _ _ hI _ hstep =>
      ⟨hI.1.step (fun hf => hf.elim) hstep, hI.2.step hI.1 hstep⟩)
    hstart (Run.along_true step hidOpenPath ls) h
  exact hinv.2

/-- **Reports in order.**  In every interleaving: what libusb completed has left the list, is
queued, or is in the callback; at most 32 reports are queued; the reads returned the bytes of the
reports taken from the list, which come in the order of their arrival, none twice; and the i-th
report was evicted only with 32 newer ones behind it. -/
theorem reports_in_order {ls : List Label} {s : HidDevice}
    (h : Run.run step hidOpenPath ls = some s) :
    (s.left.map Prod.fst ++ s.inputReports ++ s.transfer.inHand).map (·.data) = completed ls ∧
      s.inputReports.length ≤ 32 ∧
      s.delivered = s.queue.taken.map takenBytes ∧
      (s.queue.taken.map Prod.fst ++ s.inputReports).Sublist s.received ∧
      ∀ i rpt, s.left[i]? = some (rpt, .evicted) → i + 32 < s.received.length := by
  have hq := queued_run h
  refine ⟨?_, hq.sound.bounded, hq.delivered, hq.sound.taken_sublist, hq.sound.late⟩
  rw [← (arrived_run h).data]
  exact congrArg (fun l => (l ++ s.transfer.inHand).map (·.data)) hq.sound.conserved

/-- Two reports come in; a read returns the first one while the second is in the callback. -/
def twoReports : List Label :=
  [.readThread true, .readThread true, .complete (.completed [2, 7, 8]), .readCallback true,
    .readCallback true, .read 64 10, .complete (.completed [1, 5]), .hidReadTimeout]

theorem reports_in_order_two :
    ∃ s, Run.run step hidOpenPath twoReports = some s ∧
      (s.left.map Prod.fst ++ s.inputReports ++ s.transfer.inHand).map (·.data) =
        completed twoReports ∧
      s.inputReports.length ≤ 32 ∧ s.delivered = s.queue.taken.map takenBytes := by
  obtain ⟨s, hs⟩ := Option.isSome_iff_exists.mp
    (show (Run.run step hidOpenPath twoReports).isSome from by decide)
  obtain ⟨hcompleted, hlength, hdelivered, -⟩ := reports_in_order hs
  exact ⟨s, hs, hcompleted, hlength, hdelivered⟩

/-! ## The end of the device -/

/-- No read that goes on from here has a report to return. -/
def Caller.Futile : Caller → Prop
  | .opening => False
  | .idle => True
  | .reading _ _ .locking => True
  | .reading _ _ .testing => True
  | .reading _ _ (.unlocking r) => r = .failed
  | .reading _ _ _ => False
  | .closing _ => True
  | .closed => True

/-- The device has stopped with its list empty. -/
structure Gone (s : HidDevice) : Prop where
  empty : s.inputReports = []
  shutdown : s.shutdownThread = true
  stopped : s.transfer = .stopping ∨ s.cancelled = true
  caller : s.caller.Futile

theorem Caller.futile_wake {c : Caller} (h : c.Futile) : c.wake = c := by
  unfold Caller.wake
  split
  · cases h
  · rfl

/-- What the reads return from here on. -/
def FailsOn (s t : HidDevice) : Prop :=
  t.received = s.received ∧ ∃ k, t.returned = s.returned ++ List.replicate k .failed

theorem FailsOn.refl (s : HidDevice) : FailsOn s s := ⟨rfl, 0, (List.append_nil _).symm⟩

theorem FailsOn.trans {s t u : HidDevice} (h : FailsOn s t) (h' : FailsOn t u) : FailsOn s u := by
  obtain ⟨hr, k, hk⟩ := h
  obtain ⟨hr', k', hk'⟩ := h'
  exact ⟨hr'.trans hr, k + k', by rw [hk', hk, List.append_assoc, List.replicate_append_replicate]⟩

/-- A step that does not touch what makes the device `Gone`. -/
theorem Gone.same (hg : Gone s) (hreports : t.inputReports = s.inputReports)
    (hshutdown : t.shutdownThread = s.shutdownThread)
    (htransfer : s.transfer = .stopping → t.transfer = .stopping)
    (hcancelled : t.cancelled = s.cancelled) (hcaller : t.caller.Futile)
    (hreceived : t.received = s.received) (hreturned : t.returned = s.returned) :
    Gone t ∧ FailsOn s t :=
  ⟨⟨hreports.trans hg.empty, hshutdown.trans hg.shutdown,
    hg.stopped.imp htransfer hcancelled.trans, hcaller⟩, hreceived, 0, by simp [hreturned]⟩

theorem Gone.readOn {n : Nat} {ms : Int} {place : Reading} (hg : Gone s)
    (hc : s.caller = .reading n ms place) (h : s.readOn n ms place = some t) :
    Gone t ∧ FailsOn s t := by
  have hfutile := hg.caller
  rw [hc] at hfutile
  cases place with
  | locking =>
    rw [HidDevice.readOn, hg.empty] at h
    cases h
    exact hg.same rfl rfl id rfl trivial rfl rfl
  | testing =>
    rw [HidDevice.readOn, if_pos hg.shutdown] at h
    cases h
    exact hg.same rfl rfl id rfl rfl rfl rfl
  | unlocking r =>
    cases h
    cases hfutile
    exact ⟨⟨hg.empty, hg.shutdown, hg.stopped, trivial⟩, rfl, 1, rfl⟩
  | looping => cases hfutile
  | waiting => cases hfutile
  | asleep => cases hfutile
  | waking res => cases hfutile

theorem Gone.step {l : Label} (hp : Placed False s) (hg : Gone s) (h : step s l = some t) :
    Gone t ∧ FailsOn s t := by
  have hend : s.transfer = .stopping ∨ s.transfer = .idle :=
    hg.stopped.imp_right fun hc => (hp.given_back hc).1
  have hfutile := hg.caller
  cases l with
  | complete status =>
    rw [X11.step, complete] at h
    rcases hend with htr | htr <;> simp [htr] at h
  | readCallback ok =>
    rw [X11.step, readCallback] at h
    rcases hend with htr | htr
    · rw [htr] at h
      cases h
      exact ⟨⟨hg.empty, hg.shutdown, .inr rfl, hfutile⟩, FailsOn.refl s⟩
    · rw [htr] at h
      cases h
  | readThread ok =>
    rw [X11.step, readThread] at h
    split at h
    · next hr =>
      obtain ⟨htr, hnot⟩ := hp.submitting hr
      rcases hg.stopped with hst | hc
      · rw [htr] at hst
        cases hst
      · rw [hnot] at hc
        cases hc
    · split at h <;> cases h
      exact hg.same rfl rfl id rfl trivial rfl rfl
    · cases h
      exact hg.same rfl rfl id rfl hfutile rfl rfl
    · cases h
      exact hg.same rfl rfl id rfl hfutile rfl rfl
    · cases h
      exact hg.same rfl rfl Transfer.cancel_eq_stopping.mpr rfl hfutile rfl rfl
    · cases h
      exact hg.same rfl rfl id rfl hfutile rfl rfl
    · split at h <;> cases h
      refine hg.same rfl rfl id rfl ?_ rfl rfl
      show s.caller.wake.Futile
      rw [Caller.futile_wake hfutile]
      exact hfutile
    · cases h
  | hidReadTimeout =>
    rw [X11.step, hidReadTimeout] at h
    split at h
    · next hc => exact hg.readOn hc h
    · cases h
  | hidClose =>
    rw [X11.step, hidClose] at h
    split at h
    · cases h
      exact hg.same rfl hg.shutdown.symm id rfl trivial rfl rfl
    · cases h
      exact hg.same rfl rfl Transfer.cancel_eq_stopping.mpr rfl trivial rfl rfl
    · split at h <;> cases h
      exact hg.same rfl rfl id rfl trivial rfl rfl
    · cases h
      exact hg.same rfl rfl id rfl trivial rfl rfl
    · split at h
      · next hreports =>
        rw [hg.empty] at hreports
        cases hreports
      · cases h
        exact hg.same rfl rfl id rfl trivial rfl rfl
    · cases h
      exact hg.same rfl rfl id rfl trivial rfl rfl
    · cases h
  | read n ms =>
    rw [X11.step] at h
    split at h <;> cases h
    exact hg.same rfl rfl id rfl trivial rfl rfl
  | wake res =>
    rw [X11.step] at h
    split at h
    · next hc =>
      rw [hc] at hfutile
      cases hfutile
    · cases h
  | close =>
    rw [X11.step] at h
    split at h <;> cases h
    exact hg.same rfl rfl id rfl trivial rfl rfl

theorem Gone.run {ls : List Label} (hp : Placed False s) (hg : Gone s)
    (h : Run.run X11.step s ls = some t) : FailsOn s t := by
  have hinv := Run.run_inv X11.step (fun t => Placed False t ∧ Gone t ∧ FailsOn s t)
    (fun _ _ => True)
    (fun t l u hI _ hstep => by
      obtain ⟨hp, hg, hf⟩ := hI
      obtain ⟨hg', hf'⟩ := hg.step hp hstep
      exact ⟨hp.step (fun hf => hf.elim) hstep, hg', hf.trans hf'⟩)
    ⟨hp, hg, FailsOn.refl s⟩ (Run.along_true X11.step s ls) h
  exact hinv.2.2

/-- **A failed read is final.**  Where no wait fails, a read returns -1 only when every report
received has left the list and the device has stopped; then nothing is received any more, and
every later read returns -1. -/
theorem failed_read_is_final {ls : List Label} (hwaits : ∀ l ∈ ls, l ≠ .wake .error)
    {s : HidDevice} (h : Run.run step hidOpenPath ls = some s) {n : Nat} {ms : Int}
    (hc : s.caller = .reading n ms (.unlocking .failed)) :
    s.left.map Prod.fst = s.received ∧ s.shutdownThread = true ∧
      ∀ ls' t, Run.run step s ls' = some t →
        t.received = s.received ∧ ∃ k, t.returned = s.returned ++ List.replicate k .failed := by
  have hp : Placed True s := placed_run (fun l hl _ => hwaits l hl) h
  have hcaller := hp.caller
  rw [hc] at hcaller
  obtain ⟨hempty, hshutdown⟩ := hcaller.2 trivial rfl
  refine ⟨?_, hshutdown, ?_⟩
  · have := (queued_run h).sound.conserved
    simpa [HidDevice.queue, hempty] using this
  · intro ls' t h'
    have hstopped : s.transfer = .stopping ∨ s.cancelled = true := by
      rcases hp.stopped hshutdown with hcl | hrest
      · rw [hc] at hcl
        cases hcl
      · exact hrest
    have hgone : Gone s := ⟨hempty, hshutdown, hstopped, by rw [hc]; rfl⟩
    exact hgone.run (placed_run (fun _ _ => False.elim) h) h'

/-- The device is unplugged, and a read finds that out. -/
def unplugged : List Label :=
  [.readThread true, .readThread true, .complete (.completed [2, 7, 8]), .readCallback true,
    .readCallback true, .read 64 10, .hidReadTimeout, .hidReadTimeout, .complete .noDevice,
    .readCallback true, .read 64 10, .hidReadTimeout, .hidReadTimeout]

theorem failed_read_is_final_unplugged :
    ∃ s, Run.run step hidOpenPath unplugged = some s ∧ s.left.map Prod.fst = s.received ∧
      s.shutdownThread = true := by
  obtain ⟨s, hs⟩ := Option.isSome_iff_exists.mp
    (show (Run.run step hidOpenPath unplugged).isSome from by decide)
  have hc : (Run.run step hidOpenPath unplugged).map (·.caller) =
      some (.reading 64 10 (.unlocking .failed)) := by decide
  rw [hs] at hc
  obtain ⟨hleft, hshutdown, -⟩ := failed_read_is_final (by decide) hs (Option.some.inj hc)
  exact ⟨s, hs, hleft, hshutdown⟩

end TrezorPlugin.X11
