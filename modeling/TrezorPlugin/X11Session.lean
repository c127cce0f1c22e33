import TrezorPlugin.Sessions
import TrezorPlugin.X11Queue

/-!
# HIDBuffer.read over libusb (devices.cpp, X11/hid.c)

`X11.hidapi` puts the device of X11/hid.c in the place of an assumed `hid_read_timeout`: a poll is
one call of it, with whatever libusb and `read_thread` do meanwhile.  A session is a sequence of
reads of the plugin, with steps of the other two in between.

    delivered ++ buffered = payloads of the reports taken from the list
    delivered ++ buffered ++ queued = payloads of what libusb completed, if nothing was evicted
                                                                              (reads_over_usb)
-/

namespace TrezorPlugin

/-- The payload of a report as `HIDBuffer::read` takes it: at most 64 bytes, the first of them the
length. -/
def reportPayload (data : List UInt8) : List UInt8 :=
  let chunk := data.take 64
  (chunk.take (min chunk.length ((chunk.getD 0 0).toNat + 1))).drop 1

end TrezorPlugin

namespace TrezorPlugin.X11

variable {τ δ : Type}

/-! ## A poll -/

/-- `res` and `chunk`, after `hid_read_timeout(dev, chunk, 64, 10)`. -/
def Returned.readResult : Returned → ReadResult
  | .data bytes =>
    if h : bytes.take 64 ≠ [] then .report ⟨bytes.take 64, h, List.length_take_le 64 bytes⟩ else .empty
  | .timedOut => .empty
  | .failed => .error

/-- A step that belongs to a call of `hid_read_timeout`, from its beginning on. -/
def Label.inCall : Label → Bool
  | .read _ _ => false
  | .close => false
  | .hidClose => false
  | _ => true

/-- The result of the last call, once it is back. -/
def HidDevice.back (s : HidDevice) : Option ReadResult :=
  match s.caller with
  | .idle => s.returned.getLast?.map Returned.readResult
  | _ => none

/-- A step of libusb or of `read_thread`. -/
def Label.onUsb : Label → Bool
  | .complete _ => true
  | .readCallback _ => true
  | .readThread _ => true
  | _ => false

/-- hidapi on libusb. -/
def hidapi : Hidapi HidDevice Label :=
  .ofSteps step (.read 64 10) Label.inCall Label.onUsb HidDevice.back

variable {s t : HidDevice}

theorem readResult_payload (r : Returned) :
    r.readResult.payload = r.bytes.toList.flatMap reportPayload := by
  cases r with
  | timedOut => rfl
  | failed => rfl
  | data bytes =>
    unfold Returned.readResult
    simp only []
    by_cases h : bytes.take 64 ≠ []
    · rw [dif_pos h]
      exact (List.append_nil _).symm
    · rw [dif_neg h, not_not] at *
      simp [Returned.bytes, reportPayload, h, ReadResult.payload]

theorem attach_returned (s : HidDevice) (rpt : InputReport) :
    (s.attach rpt).returned = s.returned := by
  unfold HidDevice.attach HidDevice.returnData
  split <;> try split
  all_goals rfl

/-- libusb and `read_thread` at most wake the reader up, or let `hid_open_path` return. -/
theorem onUsb_step {l : Label} (hp : Placed False s) (hl : l.onUsb = true)
    (h : X11.step s l = some t) : t.returned = s.returned ∧
      (t.caller = s.caller ∨ t.caller = s.caller.wake ∨ s.caller = .opening ∧ t.caller = .idle) := by
  cases l with
  | complete status =>
    rw [X11.step, complete] at h
    split at h <;> try split at h
    all_goals try split at h
    all_goals
      cases h
      try exact ⟨rfl, .inl rfl⟩
  | readCallback ok =>
    rw [X11.step, readCallback] at h
    split at h
    · next rpt _ =>
      split at h <;> cases h
      exact ⟨attach_returned s rpt, .inr (.inl (attach_caller hp.caller rpt))⟩
    all_goals
      cases h
      try exact ⟨rfl, .inl rfl⟩
  | readThread ok =>
    rw [X11.step, readThread] at h
    split at h
    case h_2 =>
      split at h
      · next hc =>
        cases h
        exact ⟨rfl, .inr (.inr ⟨hc, rfl⟩)⟩
      · cases h
    case h_7 =>
      split at h <;> cases h
      exact ⟨rfl, .inr (.inl rfl)⟩
    all_goals
      cases h
      try exact ⟨rfl, .inl rfl⟩
  | _ => cases hl

theorem hidClose_closes (h : hidClose s = some t) : t.caller.closes = true := by
  rw [hidClose] at h
  split at h
  case h_5 hc =>
    split at h
    · cases h
      show s.caller.closes = true
      rw [hc]
      rfl
    · cases h
      rfl
  all_goals try split at h
  all_goals
    cases h
    try rfl

/-- Where a call is: under way, or back with one more result. -/
def CallAt (s t : HidDevice) : Prop :=
  (∃ n ms place, t.caller = .reading n ms place) ∧ t.returned = s.returned ∨
    t.caller = .idle ∧ ∃ r, t.returned = s.returned ++ [r]

theorem CallAt.wake (h : CallAt s t) {u : HidDevice} (hc : u.caller = t.caller.wake)
    (hr : u.returned = t.returned) : CallAt s u := by
  rcases h with ⟨⟨n, ms, place, hc'⟩, hret⟩ | ⟨hc', r, hret⟩
  · left
    refine ⟨?_, hr.trans hret⟩
    rw [hc, hc']
    unfold Caller.wake
    split <;> exact ⟨_, _, _, rfl⟩
  · right
    rw [hc, hc']
    exact ⟨rfl, r, hr.trans hret⟩

theorem CallAt.same (h : CallAt s t) {u : HidDevice} (hc : u.caller = t.caller)
    (hr : u.returned = t.returned) : CallAt s u := by
  unfold CallAt
  rw [hc, hr]
  exact h

theorem CallAt.readOn {n : Nat} {ms : Int} {place : Reading} {u : HidDevice}
    (h : CallAt s t) (hc : t.caller = .reading n ms place) (hu : t.readOn n ms place = some u) :
    CallAt s u := by
  have hret : t.returned = s.returned := by
    rcases h with ⟨-, hret⟩ | ⟨hc', -⟩
    · exact hret
    · rw [hc] at hc'
      cases hc'
  rcases readOn_cases hu with ⟨rpt, rest, -, -, rfl⟩ | ⟨place', -, -, rfl⟩ | ⟨r, -, rfl⟩
  · exact .inl ⟨⟨_, _, _, rfl⟩, hret⟩
  · exact .inl ⟨⟨_, _, _, rfl⟩, hret⟩
  · exact .inr ⟨rfl, r, congrArg (· ++ [r]) hret⟩

theorem CallAt.step {l : Label} {u : HidDevice} (h : CallAt s t) (hp : Placed False t)
    (hl : l.inCall = true) (hu : step t l = some u) : CallAt s u := by
  by_cases hon : l.onUsb = true
  · obtain ⟨hret, hc | hc | ⟨hc, -⟩⟩ := onUsb_step hp hon hu
    · exact h.same hc hret
    · exact h.wake hc hret
    · rcases h with ⟨⟨n, ms, place, hc'⟩, -⟩ | ⟨hc', -⟩
      · rw [hc] at hc'
        cases hc'
      · rw [hc] at hc'
        cases hc'
  · cases l with
    | hidReadTimeout =>
      rw [X11.step, hidReadTimeout] at hu
      split at hu
      · next hc => exact h.readOn hc hu
      · cases hu
    | wake res =>
      rw [X11.step] at hu
      split at hu
      · next hc =>
        cases hu
        refine .inl ⟨⟨_, _, _, rfl⟩, ?_⟩
        rcases h with ⟨-, hret⟩ | ⟨hc', -⟩
        · exact hret
        · rw [hc] at hc'
          cases hc'
      · cases hu
    | read n ms => cases hl
    | close => cases hl
    | hidClose => cases hl
    | complete status => exact absurd rfl hon
    | readCallback ok => exact absurd rfl hon
    | readThread ok => exact absurd rfl hon

/-- The plugin reads 64 bytes at most; it does not close the device. -/
def Label.InSession : Label → Prop
  | .read n _ => n = 64
  | .close => False
  | .hidClose => False
  | _ => True

/-- The device has been opened by `opening` and is between two calls, and `bytes` are the payloads of
the reports it has handed out. -/
structure Backed (opening : List Label) (d : Served HidDevice Label) (bytes : List UInt8) :
    Prop where
  session : ∀ l ∈ opening ++ d.steps, l.InSession
  reached : Run.run step hidOpenPath (opening ++ d.steps) = some d.device
  idle : d.device.caller = .idle
  stream : bytes = d.device.delivered.flatMap reportPayload

theorem Backed.placed {opening : List Label} {d : Served HidDevice Label} {bytes : List UInt8}
    (h : Backed opening d bytes) : Placed False d.device :=
  placed_run (fun _ _ => False.elim) h.reached

theorem inSession_of_inCall {sched : List Label} (h : sched.all Label.inCall = true) :
    ∀ l ∈ sched, l.InSession := by
  intro l hl
  have hin := List.all_eq_true.mp h l hl
  cases l with
  | read n ms => cases hin
  | close => cases hin
  | hidClose => cases hin
  | _ => trivial

theorem inSession_of_onUsb {labels : List Label} (h : labels.all Label.onUsb = true) :
    ∀ l ∈ labels, l.InSession := by
  intro l hl
  have hon := List.all_eq_true.mp h l hl
  cases l with
  | read n ms => cases hon
  | close => cases hon
  | hidClose => cases hon
  | _ => trivial

/-- A call that is complete adds its report to what was handed out. -/
theorem delivered_call {sched : List Label} (hp : Placed False s) (hidle : s.caller = .idle)
    (hrun : Run.run step s (.read 64 10 :: sched) = some t) (hin : sched.all Label.inCall = true)
    {res : ReadResult} (hback : t.back = some res) :
    t.caller = .idle ∧ ∃ r, res = Returned.readResult r ∧
      t.delivered = s.delivered ++ r.bytes.toList := by
  unfold HidDevice.back at hback
  split at hback
  case h_2 => cases hback
  rename_i ht
  obtain ⟨r, hr, rfl⟩ := Option.map_eq_some_iff.mp hback
  refine ⟨ht, r, rfl, ?_⟩
  obtain ⟨u, hu, hrun⟩ := Run.run_cons step hrun
  have hpu := hp.step (fun hf => hf.elim) hu
  rw [step, hidle] at hu
  cases hu
  have hcall := Run.run_inv step (fun t => Placed False t ∧ CallAt s t)
    (fun _ l => l.inCall = true)
    (fun t l u hI hl hstep => ⟨hI.1.step (fun hf => hf.elim) hstep, hI.2.step hI.1 hl hstep⟩)
    ⟨hpu, .inl ⟨⟨64, 10, .locking, rfl⟩, rfl⟩⟩
    (Run.along_of_forall step (fun l => l.inCall = true) (List.all_eq_true.mp hin) _) hrun
  rcases hcall.2 with ⟨⟨n, ms, place, hc⟩, -⟩ | ⟨-, r', hret⟩
  · rw [ht] at hc
    cases hc
  · rw [hret, List.getLast?_append, List.getLast?_singleton, Option.some_or] at hr
    cases hr
    unfold HidDevice.delivered
    rw [ht, hidle, hret]
    simp only [Caller.result, List.append_nil, List.filterMap_append]
    cases r <;> rfl

variable {opening : List Label} {d : Served HidDevice Label} {bytes : List UInt8}

theorem Backed.readCall (h : Backed opening d bytes) {labels : List Label} {r : ReadResult}
    (hcall : hidapi.readCall d.device labels = some (r, t)) :
    Backed opening ⟨t, d.steps ++ labels⟩ (bytes ++ r.payload) := by
  obtain ⟨sched, rfl, hin, hrun, hback⟩ := Hidapi.readCall_ofSteps hcall
  obtain ⟨hidle, r, rfl, hdelivered⟩ := delivered_call h.placed h.idle hrun hin hback
  refine ⟨?_, ?_, hidle, ?_⟩
  · rw [← List.append_assoc]
    exact List.forall_mem_append.mpr
      ⟨h.session, List.forall_mem_cons.mpr ⟨rfl, inSession_of_inCall hin⟩⟩
  · rw [← List.append_assoc, Run.run_append step h.reached, hrun]
  · rw [hdelivered, List.flatMap_append, ← h.stream, readResult_payload]

/-! ## Sessions -/

theorem onUsb_idle {l : Label} {u : HidDevice} (hp : Placed False t) (hidle : t.caller = .idle)
    (hl : l.onUsb = true) (hu : X11.step t l = some u) :
    u.caller = .idle ∧ u.returned = t.returned := by
  obtain ⟨hret, hc | hc | ⟨-, hc⟩⟩ := onUsb_step hp hl hu
  · exact ⟨hc.trans hidle, hret⟩
  · rw [hidle] at hc
    exact ⟨hc, hret⟩
  · exact ⟨hc, hret⟩

theorem Backed.usb (h : Backed opening d bytes) {labels : List Label}
    (hbetween : hidapi.between d.device labels = some t) :
    Backed opening ⟨t, d.steps ++ labels⟩ bytes := by
  obtain ⟨hon, hrun⟩ := Hidapi.between_ofSteps hbetween
  have hquiet := Run.run_inv X11.step
    (fun t => Placed False t ∧ t.caller = .idle ∧ t.returned = d.device.returned)
    (fun _ l => l.onUsb = true)
    (fun t l u hI hl hstep => by
      obtain ⟨hp, hidle, hret⟩ := hI
      obtain ⟨hidle', hret'⟩ := onUsb_idle hp hidle hl hstep
      exact ⟨hp.step (fun hf => hf.elim) hstep, hidle', hret'.trans hret⟩)
    ⟨h.placed, h.idle, rfl⟩
    (Run.along_of_forall X11.step (fun l => l.onUsb = true) (List.all_eq_true.mp hon) d.device) hrun
  obtain ⟨-, hidle, hret⟩ := hquiet
  refine ⟨?_, ?_, hidle, ?_⟩
  · rw [← List.append_assoc]
    exact List.forall_mem_append.mpr ⟨h.session, inSession_of_onUsb hon⟩
  · rw [← List.append_assoc, Run.run_append X11.step h.reached, hrun]
  · rw [h.stream, delivered_of_result hret (by rw [hidle, h.idle])]

/-! ## What the reads ask for -/

/-- The device is open, every read was for 64 bytes, and nothing but that and eviction has taken a
report from the list. -/
structure InUse (s : HidDevice) : Prop where
  notClosed : s.caller.closes = false
  asked : ∀ n, s.caller.Asks n → n = 64
  left : ∀ x ∈ s.left, x.2 = .taken 64 ∨ x.2 = .evicted

/-- A read that goes on asks for as much as before. -/
theorem step_asks {l : Label} {n : Nat} (hp : Placed False s) (h : X11.step s l = some t)
    (hn : t.caller.Asks n) : s.caller.Asks n ∨ ∃ ms, l = .read n ms := by
  obtain ⟨ms, place, hc⟩ := hn
  by_cases hon : l.onUsb = true
  · left
    obtain ⟨-, hc' | hc' | ⟨-, hc'⟩⟩ := onUsb_step hp hon h
    · exact ⟨ms, place, by rw [← hc', hc]⟩
    · rw [hc] at hc'
      unfold Caller.wake at hc'
      split at hc'
      · next hs =>
        cases hc'
        exact ⟨_, _, hs⟩
      · exact ⟨ms, place, hc'.symm⟩
    · rw [hc] at hc'
      cases hc'
  · cases l with
    | hidReadTimeout =>
      rw [X11.step, hidReadTimeout] at h
      split at h
      · next hs =>
        rcases readOn_cases h with ⟨rpt, rest, -, -, rfl⟩ | ⟨place', -, -, rfl⟩ | ⟨r, -, rfl⟩
        · cases hc
          exact .inl ⟨_, _, hs⟩
        · cases hc
          exact .inl ⟨_, _, hs⟩
        · cases hc
      · cases h
    | hidClose =>
      have hcloses := hidClose_closes h
      rw [hc] at hcloses
      cases hcloses
    | read n' ms' =>
      rw [X11.step] at h
      split at h <;> cases h
      cases hc
      exact .inr ⟨_, rfl⟩
    | wake res =>
      rw [X11.step] at h
      split at h
      · next hs =>
        cases h
        cases hc
        exact .inl ⟨_, _, hs⟩
      · cases h
    | close =>
      rw [X11.step] at h
      split at h <;> cases h
      cases hc
    | complete status => exact absurd rfl hon
    | readCallback ok => exact absurd rfl hon
    | readThread ok => exact absurd rfl hon

theorem step_open {l : Label} (hp : Placed False s) (hs : s.caller.closes = false)
    (hl : l.InSession) (h : X11.step s l = some t) : t.caller.closes = false := by
  by_cases hon : l.onUsb = true
  · obtain ⟨-, hc | hc | ⟨-, hc⟩⟩ := onUsb_step hp hon h
    · rw [hc]
      exact hs
    · rw [hc, Caller.closes_wake]
      exact hs
    · rw [hc]
      rfl
  · cases l with
    | hidReadTimeout =>
      rw [X11.step, hidReadTimeout] at h
      split at h
      · exact readOn_caller h
      · cases h
    | read n ms =>
      rw [X11.step] at h
      split at h <;> cases h
      rfl
    | wake res =>
      rw [X11.step] at h
      split at h <;> cases h
      rfl
    | close => cases hl
    | hidClose => cases hl
    | complete status => exact absurd rfl hon
    | readCallback ok => exact absurd rfl hon
    | readThread ok => exact absurd rfl hon

theorem InUse.step {l : Label} (hp : Placed False s) (hu : InUse s) (hl : l.InSession)
    (h : X11.step s l = some t) : InUse t := by
  refine ⟨step_open hp hu.notClosed hl h, ?_, ?_⟩
  · intro n hn
    rcases step_asks hp h hn with hs | ⟨ms, rfl⟩
    · exact hu.asked n hs
    · exact hl
  · intro x hx
    rcases step_moved h with ⟨hqueue, -, -⟩ | ⟨rpt, hqueue, -, -⟩ |
      ⟨n, rpt, rest, hn, -, hqueue, -, -⟩ | ⟨hcloses, -, -, -⟩
    · rw [show t.left = s.left from congrArg DropQueue.State.left hqueue] at hx
      exact hu.left x hx
    · rw [show t.left = _ from congrArg DropQueue.State.left hqueue] at hx
      rcases DropQueue.mem_left_push hx with hx | hx
      · exact hu.left x hx
      · exact .inr hx
    · rw [show t.left = _ from congrArg DropQueue.State.left hqueue] at hx
      rcases DropQueue.mem_left_exit hx with hx | hx
      · exact hu.left x hx
      · rw [hu.asked n hn] at hx
        exact .inl hx
    · rw [hu.notClosed] at hcloses
      cases hcloses

theorem inUse_run {ls : List Label} (hls : ∀ l ∈ ls, l.InSession)
    (h : Run.run X11.step hidOpenPath ls = some s) : InUse s := by
  have hstart : InUse hidOpenPath := by
    refine ⟨rfl, ?_, by simp [hidOpenPath]⟩
    rintro n ⟨ms, place, hc⟩
    cases hc
  have hinv := Run.run_inv X11.step (fun s => Placed False s ∧ InUse s) (fun _ l => l.InSession)
    (fun s l t hI hl hstep => ⟨hI.1.step (fun hf => hf.elim) hstep, hI.2.step hI.1 hl hstep⟩)
    ⟨placed_hidOpenPath, hstart⟩ (Run.along_of_forall X11.step Label.InSession hls hidOpenPath) h
  exact hinv.2

/-! ## What the plugin reads -/

/-- The payloads of some reports. -/
def payloadsOf (reports : List InputReport) : List UInt8 :=
  reports.flatMap fun rpt => reportPayload rpt.data

theorem reportPayload_take (data : List UInt8) :
    reportPayload (data.take 64) = reportPayload data := by
  unfold reportPayload
  rw [List.take_take, Nat.min_self]

/-- What the reads returned are the payloads of the reports taken. -/
theorem InUse.delivered (hu : InUse s) (hq : Queued s) :
    s.delivered.flatMap reportPayload = payloadsOf (s.queue.taken.map Prod.fst) := by
  have htaken : ∀ x ∈ s.queue.taken, x.2 = 64 := by
    intro x hx
    obtain ⟨y, hy, hxy⟩ := List.mem_filterMap.mp hx
    rcases hu.left y hy with h | h
    · rw [h] at hxy
      cases hxy
      rfl
    · rw [h] at hxy
      cases hxy
  rw [hq.delivered, payloadsOf, List.flatMap_map, List.flatMap_map]
  apply List.flatMap_congr
  intro x hx
  rw [takenBytes, htaken x hx, reportPayload_take]

/-- Opening a device returns no report. -/
theorem opened_delivered {opening : List Label} (hon : opening.all Label.onUsb = true)
    (hopen : Run.run X11.step hidOpenPath opening = some s) : s.delivered = [] := by
  have hinv := Run.run_inv X11.step
    (fun s => Placed False s ∧ s.returned = [] ∧ (s.caller = .opening ∨ s.caller = .idle))
    (fun _ l => l.onUsb = true)
    (fun s l t hI hl hstep => by
      obtain ⟨hp, hret, hc⟩ := hI
      obtain ⟨hret', hc'⟩ := onUsb_step hp hl hstep
      refine ⟨hp.step (fun hf => hf.elim) hstep, hret'.trans hret, ?_⟩
      rcases hc' with hc' | hc' | ⟨-, hc'⟩
      · rw [hc']
        exact hc
      · rw [hc']
        rcases hc with hc | hc <;> rw [hc]
        · exact .inl rfl
        · exact .inr rfl
      · exact .inr hc')
    ⟨placed_hidOpenPath, rfl, .inl rfl⟩
    (Run.along_of_forall X11.step (fun l => l.onUsb = true) (List.all_eq_true.mp hon) _) hopen
  obtain ⟨-, hret, hc⟩ := hinv
  unfold HidDevice.delivered
  rcases hc with hc | hc <;> rw [hret, hc] <;> rfl

/-- **The plugin's reads over USB.**  A device that has been opened and a buffer that is empty; then
any sequence of short enough reads, with libusb and `read_thread` at work in between and meanwhile.
What the reads delivered with what is buffered is the payloads of the reports taken from the list;
if none was evicted, then with those still on the list and in the callback they are the payloads of
everything that libusb completed in the session.  And each further read goes as far. -/
theorem reads_over_usb (B : Env τ δ) (d : δ) (trace : List Event) (dev : HidDevice)
    (opening : List Label) (hon : opening.all Label.onUsb = true)
    (hopen : Run.run X11.step hidOpenPath opening = some dev) (hidle : dev.caller = .idle)
    (buf : HIDBuffer) (hempty : buf.bytes = []) (steps : List (ReadStep τ Label))
    (hshort : ∀ x ∈ steps, x.Short) (s : ReadSession δ HidDevice Label)
    (hrun : Run.run (ReadSession.step hidapi B) ⟨buf, ⟨(d, ⟨dev, []⟩), trace⟩, [], false⟩ steps =
      some s) :
    s.received = payloadsOf (s.device.queue.taken.map Prod.fst) ∧
      Run.run X11.step hidOpenPath (opening ++ s.steps) = some s.device ∧
      ((∀ x ∈ s.device.left, x.2 ≠ .evicted) →
        s.received ++ payloadsOf (s.device.inputReports ++ s.device.transfer.inHand) =
          (completed (opening ++ s.steps)).flatMap reportPayload) ∧
      ∀ h length timeout ticks, length ≤ bufferSize - 62 →
        (s.step hidapi B (.read h length timeout ticks)).isSome := by
  have hread : ∀ (d : Served HidDevice Label) labels r device bytes, Backed opening d bytes →
      hidapi.readCall d.device labels = some (r, device) →
      Backed opening ⟨device, d.steps ++ labels⟩ (bytes ++ r.payload) :=
    fun _ _ _ _ _ h hcall => h.readCall hcall
  have hstart : Backed opening ⟨dev, []⟩ ([] ++ buf.bytes) := by
    refine ⟨?_, ?_, hidle, ?_⟩
    · rw [List.append_nil]
      exact inSession_of_onUsb hon
    · rw [List.append_nil]
      exact hopen
    · rw [hempty, opened_delivered hon hopen]
      rfl
  have hinv : Backed opening s.served s.received :=
    ReadSession.inv_run hidapi B (Backed opening) hread
      (fun _ _ _ _ h hbetween => h.usb hbetween)
      (s := ⟨buf, ⟨(d, ⟨dev, []⟩), trace⟩, [], false⟩) hstart hshort hrun
  have hreached : Run.run X11.step hidOpenPath (opening ++ s.steps) = some s.device := hinv.reached
  have huse : InUse s.device := inUse_run hinv.session hreached
  have hqueued : Queued s.device := queued_run hreached
  have hdel : s.received = payloadsOf (s.device.queue.taken.map Prod.fst) :=
    hinv.stream.trans (huse.delivered hqueued)
  refine ⟨hdel, hreached, ?_, ?_⟩
  · intro hnone
    have hleft : ∀ x ∈ s.device.left, x.2.reader.isSome := by
      intro x hx
      rcases huse.left x hx with h | h
      · rw [h]
        rfl
      · exact absurd h (hnone x hx)
    have hall := hqueued.sound.lossless hleft
    have harrivals : s.device.arrivals.map (·.data) = completed (opening ++ s.steps) :=
      (arrived_run hreached).data
    rw [hdel, ← harrivals, HidDevice.arrivals, ← hall]
    simp [payloadsOf, List.flatMap_map, HidDevice.queue]
  · intro h length timeout ticks hlength
    obtain ⟨s', hs', -⟩ := ReadSession.read_inv hidapi B (Backed opening) hread hinv h hlength
      timeout ticks
    rw [hs']
    rfl

def openedDevice : HidDevice :=
  { hidOpenPath with transfer := .pending false, readThread := .testing, caller := .idle }

/-- A report comes in between the reads, another one while the second read waits for it. -/
def twoReads : List (ReadStep Poll Label) :=
  [.between [.complete (.completed [2, 7, 8]), .readCallback true, .readCallback true],
    .read 0 1 true [(⟨.empty, 0⟩, [.read 64 10, .hidReadTimeout, .hidReadTimeout])],
    .read 0 2 true [(⟨.empty, 0⟩, [.read 64 10, .hidReadTimeout, .hidReadTimeout, .hidReadTimeout,
      .hidReadTimeout, .complete (.completed [1, 5]), .readCallback true, .hidReadTimeout,
      .hidReadTimeout])]]

theorem reads_over_usb_two :
    ∃ s, Run.run (ReadSession.step hidapi (scriptEnv none fun _ => .ok ""))
        ⟨.new, ⟨(0, ⟨openedDevice, []⟩), []⟩, [], false⟩ twoReads = some s ∧
      s.received = payloadsOf (s.device.queue.taken.map Prod.fst) ∧ s.received = [7, 8, 5] := by
  obtain ⟨s, hs⟩ := Option.isSome_iff_exists.mp
    (show (Run.run (ReadSession.step hidapi (scriptEnv none fun _ => .ok ""))
      ⟨.new, ⟨(0, ⟨openedDevice, []⟩), []⟩, [], false⟩ twoReads).isSome from by decide +kernel)
  have hview : (Run.run (ReadSession.step hidapi (scriptEnv none fun _ => .ok ""))
      ⟨.new, ⟨(0, ⟨openedDevice, []⟩), []⟩, [], false⟩ twoReads).map (·.received) =
      some [7, 8, 5] := by decide +kernel
  rw [hs] at hview
  exact ⟨s, hs, (reads_over_usb (scriptEnv none fun _ => .ok "") 0 [] openedDevice
    [.readThread true, .readThread true] rfl rfl rfl .new rfl twoReads (by
      intro x hx
      simp only [twoReads, List.mem_cons, List.not_mem_nil, or_false] at hx
      rcases hx with rfl | rfl | rfl
      · trivial
      · exact (by decide : 1 ≤ bufferSize - 62)
      · exact (by decide : 2 ≤ bufferSize - 62)) s hs).1, Option.some.inj hview⟩

end TrezorPlugin.X11
