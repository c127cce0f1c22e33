import TrezorPlugin.Sessions
import TrezorPlugin.WinClose

/-!
# HIDBuffer.read over hidapi on Windows (devices.cpp, Win/hid.c)

The plugin polls every 10 milliseconds, so that most of its calls of `hid_read_timeout` are too
early, and a report may come in between two of them.

    delivered ++ buffered ++ held = payloads of the reports the driver has brought
    every read has got its bytes  →  hid_close is safe
                                                                     (reads_over_windows)
-/

namespace TrezorPlugin.Win

variable {τ δ : Type}

/-! ## A poll -/

/-- What `HIDBuffer::read` takes out of a report: as many bytes as the first one says. -/
def payloadOf (report : List UInt8) : List UInt8 :=
  (report.take ((report.getD 0 0).toNat + 1)).drop 1

def Outcome.payload : Outcome → List UInt8
  | .report data => payloadOf (stripped data)
  | .failed => []

/-- The report fits into the plugin's chunk. -/
def Outcome.Fits (o : Outcome) : Prop := ∀ data, o = .report data → (stripped data).length ≤ 64

/-- `res` and `chunk`, after `hid_read_timeout(dev, chunk, 64, 10)`, for a report that fits. -/
def Returned.readResult : Returned → ReadResult
  | .got _ data => if h : data ≠ [] ∧ data.length ≤ 64 then .report ⟨data, h.1, h.2⟩ else .empty
  | .timedOut => .empty
  | .failed => .error

/-- The result of the last call, once it is back. -/
def HidDevice.back (s : HidDevice) : Option ReadResult :=
  match s.caller with
  | .idle => s.returned.getLast?.map Returned.readResult
  | _ => none

def Label.ofDriver : Label → Bool
  | .complete _ => true
  | _ => false

/-- hidapi on Windows; between two calls only the driver is at work. -/
def hidapi : Hidapi HidDevice Label :=
  .ofSteps step (.read 64 10) Label.inCall Label.ofDriver HidDevice.back

variable {s t : HidDevice}

/-- What a poll brings is what the outcome carries. -/
theorem payload_result {o : Outcome} (ho : o.Fits) :
    (o.result 64).readResult.payload = o.payload := by
  cases o with
  | failed => rfl
  | report data =>
    have hlen := ho data rfl
    unfold Outcome.result Returned.readResult
    simp only [List.take_of_length_le hlen]
    split
    · show ((stripped data).take (min (stripped data).length _)).drop 1 = payloadOf (stripped data)
      rw [Nat.min_comm, ← List.take_eq_take_min]
      rfl
    · next hempty =>
      have hnil : stripped data = [] := by
        by_contra hne
        exact hempty ⟨hne, hlen⟩
      rw [Outcome.payload, hnil]
      rfl

/-! ## A call -/

/-- Where a call of the plugin is: under way, or back, too early or with an outcome. -/
def CallAt (s t : HidDevice) : Prop :=
  (∃ place, t.caller = .reading 64 10 place) ∧ t.collected = s.collected ∧
      t.returned = s.returned ∨
    t.caller = .idle ∧
      (t.collected = s.collected ∧ t.returned = s.returned ++ [.timedOut] ∨
        ∃ o, t.collected = s.collected ++ [(o, 64)] ∧ t.returned = s.returned ++ [o.result 64])

/-- A call that is still under way has found nothing yet. -/
theorem CallAt.reading {n : Nat} {ms : Int} {place : Reading} (h : CallAt s t)
    (hc : t.caller = .reading n ms place) :
    n = 64 ∧ ms = 10 ∧ t.collected = s.collected ∧ t.returned = s.returned := by
  rcases h with ⟨⟨place', hc'⟩, hcollected, hreturned⟩ | ⟨hidle, -⟩
  · rw [hc] at hc'
    cases hc'
    exact ⟨rfl, rfl, hcollected, hreturned⟩
  · rw [hc] at hidle
    cases hidle

theorem CallAt.step {l : Label} {u : HidDevice} (h : CallAt s t) (hp : Placed t)
    (hl : l.inCall = true) (hu : Win.step t l = some u) : CallAt s u := by
  rcases (step_found hp hu).1 with ⟨hsame, hcollected, hreturned⟩ |
    ⟨n, ms, place, hc, hidle, hcollected, hreturned⟩ |
    ⟨o, n, ms, place, hc, hidle, hcollected, hreturned⟩
  · rcases hsame hl with heq | ⟨n, ms, place, place', hc, hc'⟩
    · unfold CallAt
      rw [heq, hcollected, hreturned]
      exact h
    · obtain ⟨rfl, rfl, hcol, hret⟩ := h.reading hc
      exact .inl ⟨⟨place', hc'⟩, hcollected.trans hcol, hreturned.trans hret⟩
  · obtain ⟨-, -, hcol, hret⟩ := h.reading hc
    exact .inr ⟨hidle, .inl ⟨hcollected.trans hcol, by rw [hreturned, hret]⟩⟩
  · obtain ⟨rfl, -, hcol, hret⟩ := h.reading hc
    exact .inr ⟨hidle, .inr ⟨o, by rw [hcollected, hcol], by rw [hreturned, hret]⟩⟩

/-- A call that is complete has been too early, or has added its outcome to what was found. -/
theorem call_complete {sched : List Label} (hp : Placed s) (hidle : s.caller = .idle)
    (hrun : Run.run step s (.read 64 10 :: sched) = some t) (hin : sched.all Label.inCall = true)
    {res : ReadResult} (hback : t.back = some res) :
    t.caller = .idle ∧ ∃ r, res = Returned.readResult r ∧ t.returned.getLast? = some r ∧
      (r = .timedOut ∧ t.collected = s.collected ∨
        ∃ o, r = o.result 64 ∧ t.collected = s.collected ++ [(o, 64)]) := by
  unfold HidDevice.back at hback
  split at hback
  case h_2 => cases hback
  rename_i ht
  obtain ⟨r, hr, rfl⟩ := Option.map_eq_some_iff.mp hback
  refine ⟨ht, r, rfl, hr, ?_⟩
  obtain ⟨u, hu, hrun⟩ := Run.run_cons step hrun
  have hpu := (hp.step hu).1
  rw [step, hidle] at hu
  cases hu
  have hcall := Run.run_inv step (fun t => Placed t ∧ CallAt s t) (fun _ l => l.inCall = true)
    (fun t l u hI hl hstep => ⟨(hI.1.step hstep).1, hI.2.step hI.1 hl hstep⟩)
    ⟨hpu, .inl ⟨⟨.testing, rfl⟩, rfl, rfl⟩⟩
    (Run.along_of_forall step (fun l => l.inCall = true) (List.all_eq_true.mp hin) _) hrun
  rcases hcall.2 with ⟨⟨place, hc⟩, -⟩ | ⟨-, ⟨hcol, hret⟩ | ⟨o, hcol, hret⟩⟩
  · rw [ht] at hc
    cases hc
  · rw [hret, List.getLast?_append, List.getLast?_singleton, Option.some_or] at hr
    cases hr
    exact .inl ⟨rfl, hcol⟩
  · rw [hret, List.getLast?_append, List.getLast?_singleton, Option.some_or] at hr
    cases hr
    exact .inr ⟨o, rfl, hcol⟩

/-! ## Sessions -/

/-- A device that has been opened, between two calls. -/
structure Between (readBuf : List UInt8) (d : Served HidDevice Label) : Prop where
  reached : Run.run step (hidOpenPath readBuf) d.steps = some d.device
  idle : d.device.caller = .idle

/-- `bytes` is what the reports carry that the calls have found. -/
structure Backed (readBuf : List UInt8) (d : Served HidDevice Label) (bytes : List UInt8) : Prop
    extends Between readBuf d where
  stream : (∀ o ∈ d.device.outcomes, o.Fits) →
    bytes = d.device.collected.flatMap fun x => x.1.payload

variable {readBuf : List UInt8} {d : Served HidDevice Label} {labels : List Label}

theorem Between.placed (h : Between readBuf d) : Placed d.device := (placed_run h.reached).1

/-- What a call does. -/
theorem Between.call (h : Between readBuf d) {res : ReadResult}
    (hcall : hidapi.readCall d.device labels = some (res, t)) :
    Between readBuf ⟨t, d.steps ++ labels⟩ ∧ Run.run step d.device labels = some t ∧
      ∃ r, res = Returned.readResult r ∧ t.returned.getLast? = some r ∧
        (r = .timedOut ∧ t.collected = d.device.collected ∨
          ∃ o, r = o.result 64 ∧ t.collected = d.device.collected ++ [(o, 64)]) := by
  obtain ⟨sched, rfl, hin, hrun, hback⟩ := Hidapi.readCall_ofSteps hcall
  obtain ⟨hidle, hwhat⟩ := call_complete h.placed h.idle hrun hin hback
  exact ⟨⟨(Run.run_append step h.reached _).trans hrun, hidle⟩, hrun, hwhat⟩

/-- The outcomes so far are among those of later. -/
theorem fits_of_run {ls : List Label} (hp : Placed s) (h : Run.run step s ls = some t)
    (hfits : ∀ o ∈ t.outcomes, o.Fits) : ∀ o ∈ s.outcomes, o.Fits := by
  intro o ho
  apply hfits
  rw [outcomes_run hp h]
  exact List.mem_append_left _ ho

theorem Between.mem_outcomes (h : Between readBuf d) {x : Outcome × Nat}
    (hx : x ∈ d.device.collected) : x.1 ∈ d.device.outcomes := by
  rw [← collected_run h.reached]
  exact List.mem_append_left _ (List.mem_map_of_mem hx)

theorem Backed.readCall {bytes : List UInt8} (h : Backed readBuf d bytes) {res : ReadResult}
    (hcall : hidapi.readCall d.device labels = some (res, t)) :
    Backed readBuf ⟨t, d.steps ++ labels⟩ (bytes ++ res.payload) := by
  obtain ⟨ht, hrun, r, rfl, -, hwhat⟩ := h.toBetween.call hcall
  refine ⟨ht, ?_⟩
  intro hfits
  have hstream := h.stream (fits_of_run h.placed hrun hfits)
  rcases hwhat with ⟨rfl, hcol⟩ | ⟨o, rfl, hcol⟩
  · rw [show (⟨t, d.steps ++ labels⟩ : Served HidDevice Label).device = t from rfl, hcol, hstream]
    exact List.append_nil _
  · have ho : o.Fits := hfits o (ht.mem_outcomes (x := (o, 64)) (by rw [hcol]; simp))
    rw [show (⟨t, d.steps ++ labels⟩ : Served HidDevice Label).device = t from rfl,
      payload_result ho, hcol, hstream, List.flatMap_append, List.flatMap_singleton]

/-- The driver by itself ends no call. -/
theorem Between.driver (h : Between readBuf d)
    (hbetween : hidapi.between d.device labels = some t) :
    Between readBuf ⟨t, d.steps ++ labels⟩ ∧ Run.run step d.device labels = some t ∧
      t.collected = d.device.collected ∧
      (d.device.request ≠ .pending → t.request ≠ .pending) := by
  obtain ⟨hon, hrun⟩ := Hidapi.between_ofSteps hbetween
  have hquiet := Run.run_inv step
    (fun t => t.caller = .idle ∧ t.collected = d.device.collected ∧
      (d.device.request ≠ .pending → t.request ≠ .pending)) (fun _ l => l.ofDriver = true)
    (fun t l u hI hl hstep => by
      cases l with
      | complete o =>
        rw [step, complete] at hstep
        split at hstep
        · split at hstep <;> cases hstep
          exact ⟨hI.1, hI.2.1, fun _ => Request.noConfusion⟩
        · cases hstep
      | _ => cases hl)
    ⟨h.idle, rfl, id⟩
    (Run.along_of_forall step (fun l => l.ofDriver = true) (List.all_eq_true.mp hon) d.device) hrun
  exact ⟨⟨(Run.run_append step h.reached _).trans hrun, hquiet.1⟩, hrun, hquiet.2⟩

theorem Backed.driver {bytes : List UInt8} (h : Backed readBuf d bytes)
    (hbetween : hidapi.between d.device labels = some t) :
    Backed readBuf ⟨t, d.steps ++ labels⟩ bytes := by
  obtain ⟨hb, hrun, hcol, -⟩ := h.toBetween.driver hbetween
  refine ⟨hb, fun hfits => ?_⟩
  rw [h.stream (fits_of_run h.placed hrun hfits)]
  exact congrArg (List.flatMap _) hcol.symm

/-- A call that has brought something leaves no read under way. -/
theorem Between.answered (h : Between readBuf d) {res : ReadResult}
    (hcall : hidapi.readCall d.device labels = some (res, t)) (hpay : res.payload ≠ []) :
    t.request ≠ .pending := by
  obtain ⟨ht, -, r, rfl, hr, -⟩ := h.call hcall
  intro hreq
  obtain ⟨hp, hk⟩ := kept_run ht.reached
  have hcaller := hp.caller
  rw [ht.idle] at hcaller
  have hlast := hk.pending (by rw [ht.idle]; rfl)
  rcases hcaller with ⟨-, hnone⟩ | ⟨hpending, -⟩
  · cases hreq.symm.trans hnone
  · cases hr.symm.trans (hlast.mp hpending)
    exact hpay rfl

/-- **The plugin's reads on Windows.**  A device that has been opened and a buffer that is empty; then
any sequence of short enough reads, with the driver at work in between and meanwhile, and reports
that fit into 64 bytes.  What the reads delivered, with what is buffered and with the report that a
call which was too early has left behind, is the payloads of all that the driver has brought.  Each
further read goes as far; and if every read has got its bytes, the device can be closed safely. -/
theorem reads_over_windows (B : Env τ δ) (d : δ) (trace : List Event) (readBuf : List UInt8)
    (buf : HIDBuffer) (hempty : buf.bytes = []) (steps : List (ReadStep τ Label))
    (hshort : ∀ x ∈ steps, x.Short) (s : ReadSession δ HidDevice Label)
    (hrun : Run.run (ReadSession.step hidapi B)
      ⟨buf, ⟨(d, ⟨hidOpenPath readBuf, []⟩), trace⟩, [], false⟩ steps = some s)
    (hfits : ∀ o ∈ s.device.outcomes, o.Fits) :
    Run.run step (hidOpenPath readBuf) s.steps = some s.device ∧
      s.received ++ s.device.view.slot.held.flatMap Outcome.payload =
        (s.steps.flatMap Label.outcomes).flatMap Outcome.payload ∧
      (∀ h length timeout ticks, length ≤ bufferSize - 62 →
        (s.step hidapi B (.read h length timeout ticks)).isSome) ∧
      ∃ t, step s.device .close = some t ∧ (s.gaveUp = false → SafeFrom t) := by
  have hread : ∀ (d : Served HidDevice Label) labels r device bytes, Backed readBuf d bytes →
      hidapi.readCall d.device labels = some (r, device) →
      Backed readBuf ⟨device, d.steps ++ labels⟩ (bytes ++ r.payload) :=
    fun _ _ _ _ _ h hcall => h.readCall hcall
  have hstart : Between readBuf ⟨hidOpenPath readBuf, []⟩ := ⟨rfl, rfl⟩
  have hinv : Backed readBuf s.served s.received :=
    ReadSession.inv_run hidapi B (Backed readBuf) hread
      (fun _ _ _ _ h hbetween => h.driver hbetween)
      (s := ⟨buf, ⟨(d, ⟨hidOpenPath readBuf, []⟩), trace⟩, [], false⟩)
      (⟨hstart, fun _ => hempty⟩ : Backed readBuf ⟨hidOpenPath readBuf, []⟩ ([] ++ buf.bytes))
      hshort hrun
  have hreached : Run.run step (hidOpenPath readBuf) s.steps = some s.device := hinv.reached
  refine ⟨hreached, ?_, ?_, ?_⟩
  · have houtcomes : s.device.outcomes = s.steps.flatMap Label.outcomes :=
      outcomes_run (placed_hidOpenPath readBuf) hreached
    rw [← houtcomes, ← collected_run hreached, List.flatMap_append, List.flatMap_map,
      hinv.stream hfits]
    rfl
  · intro h length timeout ticks hlength
    obtain ⟨s', hs', -⟩ := ReadSession.read_inv hidapi B (Backed readBuf) hread hinv h hlength
      timeout ticks
    rw [hs']
    rfl
  · have hclose : step s.device .close =
        some { s.device with caller := .closing .cancelling } := by
      rw [step, show s.device.caller = .idle from hinv.idle]
    refine ⟨_, hclose, fun hg => ?_⟩
    have hanswered : s.device.request ≠ .pending :=
      ReadSession.settled_run hidapi B (Between readBuf) (fun d => d.request ≠ .pending)
        (fun _ _ _ _ h hcall => (h.call hcall).1)
        (fun _ _ _ _ h hcall hpay => h.answered hcall hpay)
        (fun _ _ _ h hbetween => by
          obtain ⟨hb, -, -, hq⟩ := h.driver hbetween
          exact ⟨hb, hq⟩)
        (s := ⟨buf, ⟨(d, ⟨hidOpenPath readBuf, []⟩), trace⟩, [], false⟩) hstart Request.noConfusion
        hshort hrun hg
    have hkept := (kept_run hreached).2.step (placed_run hreached).1 hclose
    exact Quiet.safeFrom ⟨rfl, hanswered, hkept.freed⟩

/-- The first poll is too early; the report comes in during the second one. -/
def latePoll : List (ReadStep Poll Label) :=
  [.read 0 1 true [(⟨.empty, 0⟩, [.read 64 10, .hidReadTimeout, .readFile .pending, .wait false]),
    (⟨.empty, 0⟩, [.read 64 10, .hidReadTimeout, .complete (.report [2, 7, 8]), .wait true,
      .hidReadTimeout])]]

theorem reads_over_windows_late :
    ∃ s, Run.run (ReadSession.step hidapi (scriptEnv none fun _ => .ok ""))
        ⟨.new, ⟨(0, ⟨hidOpenPath [9, 9, 9], []⟩), []⟩, [], false⟩ latePoll = some s ∧
      s.received = [7, 8] ∧ ∃ t, step s.device .close = some t ∧ SafeFrom t := by
  obtain ⟨s, hs⟩ := Option.isSome_iff_exists.mp
    (show (Run.run (ReadSession.step hidapi (scriptEnv none fun _ => .ok ""))
      ⟨.new, ⟨(0, ⟨hidOpenPath [9, 9, 9], []⟩), []⟩, [], false⟩ latePoll).isSome from by decide +kernel)
  have hview : (Run.run (ReadSession.step hidapi (scriptEnv none fun _ => .ok ""))
      ⟨.new, ⟨(0, ⟨hidOpenPath [9, 9, 9], []⟩), []⟩, [], false⟩ latePoll).map
        (fun s => (s.received, s.device.outcomes, s.gaveUp)) =
      some ([7, 8], [.report [2, 7, 8]], false) := by decide +kernel
  rw [hs] at hview
  simp only [Option.map_some, Option.some.injEq, Prod.mk.injEq] at hview
  obtain ⟨hreceived, houtcomes, hgaveUp⟩ := hview
  have hfits : ∀ o ∈ s.device.outcomes, o.Fits := by
    rw [houtcomes]
    intro o ho data hdata
    rw [List.mem_singleton.mp ho] at hdata
    cases hdata
    exact (by decide : (stripped [2, 7, 8]).length ≤ 64)
  have hshort : ∀ x ∈ latePoll, x.Short := by
    intro x hx
    rw [latePoll, List.mem_singleton] at hx
    rw [hx]
    exact (by decide : 1 ≤ bufferSize - 62)
  obtain ⟨-, -, -, t, ht, hsafe⟩ := reads_over_windows (scriptEnv none fun _ => .ok "") 0 []
    [9, 9, 9] .new rfl latePoll hshort s hs hfits
  exact ⟨s, hs, hreceived, t, ht, hsafe hgaveUp⟩

end TrezorPlugin.Win
