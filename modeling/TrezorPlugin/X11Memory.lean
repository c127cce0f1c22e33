import TrezorPlugin.X11Queue
import Mathlib.Data.List.Nodup

/-!
# The memory of a device (X11/hid.c)

`hid_close` frees the transfer, its buffer, the reports and the device while libusb and
`read_thread` may still be at work on them; a read frees the report it takes, `read_callback` the
one it evicts.  `Label.uses` says which objects a step touches.

    freed = reports that have left the list ++ what hid_close has released   (freed_perm)

and no party is anywhere near an object once it is released, so in every interleaving nothing is
used after it is freed, nothing is freed twice, and `hid_close` leaves nothing behind
(`memory_safe`).
-/

namespace TrezorPlugin.X11

def InputReport.object (rpt : InputReport) : Object := .report rpt.id

/-- What a step reads, writes or frees. -/
def Label.uses (s : HidDevice) : Label → List Object
  | .complete _ => [.transfer, .buffer]
  | .readCallback _ =>
    match s.transfer with
    -- the walk to the end of the list, and its first report if that is evicted
    | .appending rpt => .dev :: rpt.object :: s.inputReports.map InputReport.object
    | .resubmitting => [.transfer, .buffer]
    | .failing => [.dev]
    | .stopping => [.dev]
    | _ => []
  | .readThread _ =>
    match s.readThread with
    | .submitting => [.dev, .transfer, .buffer]
    | .handling => []
    | .cancelling => [.dev, .transfer]
    | .ended => []
    | _ => [.dev]
  | .read _ _ => [.dev]
  | .hidReadTimeout => .dev :: (s.inputReports.take 1).map InputReport.object
  | .wake _ => [.dev]
  | .close => [.dev]
  | .hidClose =>
    match s.caller with
    | .closing .cancelling => [.dev, .transfer]
    | .closing .freeing => [.dev, .transfer, .buffer]
    | .closing .draining => .dev :: (s.inputReports.take 1).map InputReport.object
    | _ => [.dev]

/-- The object has been allocated. -/
def HidDevice.Allocated (s : HidDevice) : Object → Prop
  | .report id => id < s.allocated
  | _ => True

/-- What `hid_close` has freed apart from the reports. -/
def Caller.released : Caller → List Object
  | .closing .draining => [.buffer, .transfer]
  | .closing .ending => [.buffer, .transfer]
  | .closed => [.buffer, .transfer, .dev]
  | _ => []

/-- The list has been cleared. -/
def Caller.cleared : Caller → Bool
  | .closing .ending => true
  | .closed => true
  | _ => false

structure Owned (s : HidDevice) : Prop where
  freed_perm : s.freed.Perm (s.left.map (·.1.object) ++ s.caller.released)
  cleared : s.caller.cleared = true → s.inputReports = []

theorem owned_hidOpenPath : Owned hidOpenPath where
  freed_perm := List.Perm.refl _
  cleared := by simp [hidOpenPath, Caller.cleared]

variable {s t : HidDevice}

@[simp] theorem Caller.released_wake (c : Caller) : c.wake.released = c.released := by
  unfold Caller.wake
  split <;> rfl

@[simp] theorem Caller.cleared_wake (c : Caller) : c.wake.cleared = c.cleared := by
  unfold Caller.wake
  split <;> rfl

/-! ## One step -/

/-- A step that frees nothing. -/
theorem Owned.same (ho : Owned s) (hreports : t.inputReports = s.inputReports)
    (hleft : t.left = s.left) (hfreed : t.freed = s.freed)
    (hreleased : t.caller.released = s.caller.released)
    (hcleared : t.caller.cleared = s.caller.cleared) : Owned t where
  freed_perm := by
    rw [hfreed, hleft, hreleased]
    exact ho.freed_perm
  cleared := by
    rw [hcleared, hreports]
    exact ho.cleared

/-- `return_data` frees the report that leaves. -/
theorem perm_returnData (ho : Owned s) (rpt : InputReport) (rest : List InputReport)
    (e : DropQueue.Exit Nat) :
    (s.returnData rpt rest e).freed.Perm
      ((s.returnData rpt rest e).left.map (·.1.object) ++ s.caller.released) := by
  simp only [HidDevice.returnData, List.map_append, List.map_cons, List.map_nil]
  have hmove : (s.freed ++ [rpt.object]).Perm
      (s.left.map (·.1.object) ++ s.caller.released ++ [rpt.object]) :=
    ho.freed_perm.append_right _
  refine hmove.trans ?_
  rw [List.append_assoc, List.append_assoc]
  exact List.perm_append_comm.append_left _

theorem Owned.attach (ho : Owned s) (hc : s.caller.cleared = false) (rpt : InputReport) :
    Owned (s.attach rpt) := by
  unfold HidDevice.attach
  simp only []
  split
  · refine ⟨?_, ?_⟩
    · show s.freed.Perm (_ ++ s.caller.wake.released)
      rw [Caller.released_wake]
      exact ho.freed_perm
    · show s.caller.wake.cleared = true → _
      rw [Caller.cleared_wake, hc]
      simp
  · next first rest hreports =>
    split
    · refine ⟨perm_returnData (s := { s with
        inputReports := s.inputReports ++ [rpt], received := s.received ++ [rpt] })
        ⟨ho.freed_perm, ?_⟩ first (rest ++ [rpt]) .evicted, ?_⟩
      all_goals
        show s.caller.cleared = true → _
        rw [hc]
        simp
    · refine ⟨ho.freed_perm, ?_⟩
      show s.caller.cleared = true → _
      rw [hc]
      simp

theorem Owned.goTo (ho : Owned s) {n : Nat} {ms : Int} {place place' : Reading}
    (hc : s.caller = .reading n ms place) : Owned (s.goTo n ms place') :=
  ho.same rfl rfl rfl (by rw [hc]; rfl) (by rw [hc]; rfl)

theorem Owned.handOut (ho : Owned s) {n : Nat} {ms : Int} {place : Reading}
    (hc : s.caller = .reading n ms place) (rpt : InputReport) (rest : List InputReport) :
    Owned (s.handOut n ms rpt rest) where
  freed_perm := by
    have := perm_returnData ho rpt rest (.taken n)
    rw [hc] at this
    exact this
  cleared := by simp [HidDevice.handOut, HidDevice.goTo, Caller.cleared]

theorem Owned.readOn (ho : Owned s) {n : Nat} {ms : Int} {place : Reading}
    (hc : s.caller = .reading n ms place) (h : s.readOn n ms place = some t) : Owned t := by
  rcases readOn_cases h with ⟨rpt, rest, -, -, rfl⟩ | ⟨place', -, -, rfl⟩ | ⟨r, -, rfl⟩
  · exact ho.handOut hc rpt rest
  · exact ho.goTo hc
  · exact ho.same rfl rfl rfl (by rw [hc]; rfl) (by rw [hc]; rfl)

/-- Once the list is being cleared, libusb has given the transfer back. -/
theorem Placed.idle_of_joined (hp : Placed False s) (hj : s.readThread = .ended) :
    s.transfer = .idle := (hp.given_back (hp.drained (.inr hj))).1

theorem Placed.ended_of_released (hp : Placed False s) (h : s.caller.released ≠ []) :
    s.readThread = .ended := by
  have hcaller := hp.caller
  cases hc : s.caller with
  | closed =>
    rw [hc] at hcaller
    exact hcaller
  | closing place =>
    rw [hc] at hcaller h
    apply hcaller.2.2
    cases place with
    | draining => rfl
    | ending => rfl
    | _ => exact absurd rfl h
  | _ =>
    rw [hc] at h
    exact absurd rfl h

theorem Caller.released_of_cleared {c : Caller} (h : c.cleared = true) : c.released ≠ [] := by
  unfold Caller.cleared at h
  split at h
  · simp [Caller.released]
  · simp [Caller.released]
  · cases h

theorem Owned.hidClose (ho : Owned s) (h : hidClose s = some t) : Owned t := by
  have hperm := ho.freed_perm
  rw [X11.hidClose] at h
  split at h
  · next hc =>
    cases h
    exact ho.same rfl rfl rfl (by rw [hc]; rfl) (by rw [hc]; rfl)
  · next hc =>
    cases h
    exact ho.same rfl rfl rfl (by rw [hc]; rfl) (by rw [hc]; rfl)
  · next hc =>
    split at h <;> cases h
    exact ho.same rfl rfl rfl (by rw [hc]; rfl) (by rw [hc]; rfl)
  · next hc =>
    cases h
    refine ⟨?_, by simp [Caller.cleared]⟩
    rw [hc, show Caller.released (.closing .freeing) = [] from rfl, List.append_nil] at hperm
    exact hperm.append_right _
  · next hc =>
    split at h <;> cases h
    · refine ⟨perm_returnData ho _ _ .cleared, ?_⟩
      show s.caller.cleared = true → _
      rw [hc]
      simp [Caller.cleared]
    · next hreports =>
      refine ⟨?_, fun _ => hreports⟩
      rw [hc] at hperm
      exact hperm
  · next hc =>
    cases h
    refine ⟨?_, fun _ => ho.cleared (by rw [hc]; rfl)⟩
    rw [hc] at hperm
    have := hperm.append_right [Object.dev]
    rwa [List.append_assoc] at this
  · cases h

theorem Owned.step {l : Label} (hp : Placed False s) (ho : Owned s) (h : step s l = some t) :
    Owned t := by
  cases l with
  | complete status =>
    rw [X11.step, complete] at h
    split at h
    · split at h
      case h_2 =>
        split at h <;> cases h
        exact ho.same rfl rfl rfl rfl rfl
      all_goals
        cases h
        exact ho.same rfl rfl rfl rfl rfl
    · cases h
  | readCallback ok =>
    rw [X11.step, readCallback] at h
    split at h
    · next rpt htr =>
      split at h <;> cases h
      have hc : s.caller.cleared = false := by
        rw [← Bool.not_eq_true]
        intro hcl
        have := hp.idle_of_joined (hp.ended_of_released (Caller.released_of_cleared hcl))
        rw [htr] at this
        cases this
      exact (ho.attach hc rpt).same rfl rfl rfl rfl rfl
    all_goals
      cases h
      try exact ho.same rfl rfl rfl rfl rfl
  | readThread ok =>
    rw [X11.step, readThread] at h
    split at h
    case h_2 =>
      split at h
      · next hc =>
        cases h
        exact ho.same rfl rfl rfl (by rw [hc]; rfl) (by rw [hc]; rfl)
      · cases h
    case h_7 =>
      split at h <;> cases h
      exact ho.same rfl rfl rfl s.caller.released_wake s.caller.cleared_wake
    all_goals
      cases h
      try exact ho.same rfl rfl rfl rfl rfl
  | hidReadTimeout =>
    rw [X11.step, hidReadTimeout] at h
    split at h
    · next hc => exact ho.readOn hc h
    · cases h
  | hidClose => exact ho.hidClose h
  | read n ms =>
    rw [X11.step] at h
    split at h
    · next hc =>
      cases h
      exact ho.same rfl rfl rfl (by rw [hc]; rfl) (by rw [hc]; rfl)
    · cases h
  | wake res =>
    rw [X11.step] at h
    split at h
    · next hc =>
      cases h
      exact ho.goTo hc
    · cases h
  | close =>
    rw [X11.step] at h
    split at h
    · next hc =>
      cases h
      exact ho.same rfl rfl rfl (by rw [hc]; rfl) (by rw [hc]; rfl)
    · cases h

theorem owned_run {ls : List Label} (h : Run.run step hidOpenPath ls = some s) : Owned s := by
  have hinv := Run.run_inv step (fun s => Placed False s ∧ Owned s) (fun _ _ => True)
    (fun s l t hI _ hstep => ⟨hI.1.step (fun hf => hf.elim) hstep, hI.2.step hI.1 hstep⟩)
    ⟨placed_hidOpenPath, owned_hidOpenPath⟩ (Run.along_true step hidOpenPath ls) h
  exact hinv.2

/-! ## What is freed -/

/-- The reports that have left the list, those on it and the one in the callback are distinct. -/
theorem nodup_reports {ls : List Label} (h : Run.run step hidOpenPath ls = some s) :
    (s.left.map (·.1.id) ++ s.inputReports.map (·.id) ++ s.transfer.inHand.map (·.id)) =
      List.range s.allocated := by
  rw [← (arrived_run h).ids, HidDevice.arrivals, ← (queued_run h).sound.conserved]
  simp [HidDevice.queue]

theorem mem_freed_report {ls : List Label} (h : Run.run step hidOpenPath ls = some s) {id : Nat} :
    Object.report id ∈ s.freed ↔ id ∈ s.left.map (·.1.id) := by
  rw [(owned_run h).freed_perm.mem_iff, List.mem_append]
  constructor
  · rintro (hleft | hrel)
    · simpa [InputReport.object] using hleft
    · exfalso
      unfold Caller.released at hrel
      split at hrel <;> simp at hrel
  · intro hleft
    left
    simpa [InputReport.object] using hleft

/-- A report that has not left the list is allocated and not freed. -/
theorem report_live {ls : List Label} (h : Run.run step hidOpenPath ls = some s)
    {rpt : InputReport} (hmem : rpt ∈ s.inputReports ++ s.transfer.inHand) :
    s.Allocated rpt.object ∧ rpt.object ∉ s.freed := by
  have hids := nodup_reports h
  have hnodup : (s.left.map (·.1.id) ++ s.inputReports.map (·.id) ++
      s.transfer.inHand.map (·.id)).Nodup := by
    rw [hids]
    exact List.nodup_range
  have hrest : rpt.id ∈ s.inputReports.map (·.id) ++ s.transfer.inHand.map (·.id) := by
    rw [← List.map_append]
    exact List.mem_map_of_mem hmem
  rw [List.append_assoc] at hids hnodup
  constructor
  · show rpt.id < s.allocated
    rw [← List.mem_range, ← hids]
    exact List.mem_append_right _ hrest
  · intro hfreed
    exact (List.nodup_append.mp hnodup).2.2 _ ((mem_freed_report h).mp hfreed) _ hrest rfl

/-- Before `hid_close` releases anything, only reports are freed. -/
theorem not_mem_freed {ls : List Label} (h : Run.run step hidOpenPath ls = some s) {o : Object}
    (ho : ∀ id, o ≠ .report id) (hrel : o ∉ s.caller.released) : o ∉ s.freed := by
  rw [(owned_run h).freed_perm.mem_iff, List.mem_append]
  rintro (hleft | hmem)
  · obtain ⟨x, -, hx⟩ := List.mem_map.mp hleft
    exact ho x.1.id hx.symm
  · exact hrel hmem

theorem nodup_freed {ls : List Label} (h : Run.run step hidOpenPath ls = some s) :
    s.freed.Nodup := by
  rw [(owned_run h).freed_perm.nodup_iff, List.nodup_append]
  refine ⟨?_, ?_, ?_⟩
  · have hnodup : (s.left.map (·.1.id) ++ (s.inputReports.map (·.id) ++
        s.transfer.inHand.map (·.id))).Nodup := by
      rw [← List.append_assoc, nodup_reports h]
      exact List.nodup_range
    have hleft := (List.nodup_append.mp hnodup).1
    have hmap : s.left.map (·.1.object) = (s.left.map (·.1.id)).map Object.report := by
      rw [List.map_map]
      rfl
    rw [hmap]
    exact List.Nodup.map (fun _ _ => Object.report.inj) hleft
  · unfold Caller.released
    split <;> simp
  · intro o ho o' ho' heq
    obtain ⟨x, -, hx⟩ := List.mem_map.mp ho
    rw [← heq, ← hx] at ho'
    unfold Caller.released InputReport.object at ho'
    split at ho' <;> simp at ho'

/-! ## What is used -/

theorem Placed.released_eq_nil (hp : Placed False s)
    (h : s.transfer ≠ .idle ∨ s.readThread ≠ .ended) : s.caller.released = [] := by
  by_contra hrel
  have hended := hp.ended_of_released hrel
  rcases h with h | h
  · exact h (hp.idle_of_joined hended)
  · exact h hended

/-- The device, the transfer and its buffer: allocated when the device is opened. -/
theorem live_of_not_released {ls : List Label} (h : Run.run step hidOpenPath ls = some s)
    {o : Object} (ho : o ∈ [Object.dev, .transfer, .buffer]) (hrel : o ∉ s.caller.released) :
    s.Allocated o ∧ o ∉ s.freed := by
  have hne : ∀ id, o ≠ .report id := by
    rintro id rfl
    simp at ho
  refine ⟨?_, not_mem_freed h hne hrel⟩
  cases o with
  | report id => exact absurd rfl (hne id)
  | _ => trivial

theorem head_live {ls : List Label} (h : Run.run step hidOpenPath ls = some s) {o : Object}
    (ho : o ∈ (s.inputReports.take 1).map InputReport.object) : s.Allocated o ∧ o ∉ s.freed := by
  obtain ⟨rpt, hrpt, rfl⟩ := List.mem_map.mp ho
  exact report_live h (List.mem_append_left _ (List.mem_of_mem_take hrpt))

theorem uses_live {ls : List Label} (h : Run.run step hidOpenPath ls = some s) {l : Label}
    (hstep : step s l = some t) {o : Object} (ho : o ∈ l.uses s) :
    s.Allocated o ∧ o ∉ s.freed := by
  have hp : Placed False s := placed_run (fun _ _ => False.elim) h
  -- all three are there while the transfer or `read_thread` is not at its end
  have hthree : s.transfer ≠ .idle ∨ s.readThread ≠ .ended →
      ∀ o ∈ [Object.dev, .transfer, .buffer], s.Allocated o ∧ o ∉ s.freed := by
    intro hnot o ho
    apply live_of_not_released h ho
    rw [hp.released_eq_nil hnot]
    simp
  -- the thread that calls hidapi has the device until it has freed it
  have hdev : s.caller ≠ .closed → s.Allocated .dev ∧ Object.dev ∉ s.freed := by
    intro hc
    apply live_of_not_released h (by simp)
    unfold Caller.released
    split
    · simp
    · simp
    · next heq => exact absurd heq hc
    · simp
  cases l with
  | complete status =>
    have hne : s.transfer ≠ .idle := by
      intro htr
      rw [step, complete, htr] at hstep
      cases hstep
    apply hthree (.inl hne)
    simp only [Label.uses, List.mem_cons, List.not_mem_nil, or_false] at ho
    rcases ho with rfl | rfl <;> simp
  | readCallback ok =>
    rw [Label.uses] at ho
    split at ho
    · next rpt htr =>
      have hlive := hthree (.inl (by simp [htr]))
      rcases List.mem_cons.mp ho with rfl | ho
      · exact hlive _ (by simp)
      · rcases List.mem_cons.mp ho with rfl | ho
        · exact report_live h (List.mem_append_right _ (by rw [htr]; exact List.mem_cons_self))
        · obtain ⟨rpt', hrpt', rfl⟩ := List.mem_map.mp ho
          exact report_live h (List.mem_append_left _ hrpt')
    · next htr =>
      apply hthree (.inl (by simp [htr]))
      simp only [List.mem_cons, List.not_mem_nil, or_false] at ho
      rcases ho with rfl | rfl <;> simp
    · next htr =>
      rw [List.mem_singleton.mp ho]
      exact hthree (.inl (by simp [htr])) _ (by simp)
    · next htr =>
      rw [List.mem_singleton.mp ho]
      exact hthree (.inl (by simp [htr])) _ (by simp)
    · cases ho
  | readThread ok =>
    have hne : s.readThread ≠ .ended := by
      intro hr
      rw [step, readThread, hr] at hstep
      cases hstep
    apply hthree (.inr hne)
    rw [Label.uses] at ho
    split at ho <;> simp at ho ⊢
    · exact ho
    · rcases ho with rfl | rfl <;> simp
    · exact .inl ho
  | hidReadTimeout =>
    have hc : s.caller ≠ .closed := by
      intro hc
      rw [step, hidReadTimeout, hc] at hstep
      cases hstep
    rcases List.mem_cons.mp ho with rfl | ho
    · exact hdev hc
    · exact head_live h ho
  | hidClose =>
    have hc : s.caller ≠ .closed := by
      intro hc
      rw [step, hidClose, hc] at hstep
      cases hstep
    rw [Label.uses] at ho
    split at ho
    · next hcl =>
      apply live_of_not_released h
      · simp only [List.mem_cons, List.not_mem_nil, or_false] at ho
        rcases ho with rfl | rfl <;> simp
      · rw [hcl]
        simp [Caller.released]
    · next hcl =>
      apply live_of_not_released h
      · exact ho
      · rw [hcl]
        simp [Caller.released]
    · rcases List.mem_cons.mp ho with rfl | ho
      · exact hdev hc
      · exact head_live h ho
    · rw [List.mem_singleton.mp ho]
      exact hdev hc
  | read n ms =>
    rw [step] at hstep
    split at hstep
    · next hc =>
      rw [List.mem_singleton.mp ho]
      exact hdev (by simp [hc])
    · cases hstep
  | wake res =>
    rw [step] at hstep
    split at hstep
    · next hc =>
      rw [List.mem_singleton.mp ho]
      exact hdev (by simp [hc])
    · cases hstep
  | close =>
    rw [step] at hstep
    split at hstep
    · next hc =>
      rw [List.mem_singleton.mp ho]
      exact hdev (by simp [hc])
    · cases hstep

/-- **Memory safety.**  Whatever libusb, `read_thread` and the thread that calls hidapi do, and in
whatever order: every step uses allocated objects only, and none that is freed; nothing is freed
twice; and when `hid_close` is through, everything allocated is freed and no step is left. -/
theorem memory_safe {ls : List Label} {s : HidDevice} (h : Run.run step hidOpenPath ls = some s) :
    (∀ l t, step s l = some t → ∀ o ∈ l.uses s, s.Allocated o ∧ o ∉ s.freed) ∧
      s.freed.Nodup ∧
      (s.caller = .closed → (∀ o, s.Allocated o → o ∈ s.freed) ∧ ∀ l, step s l = none) := by
  refine ⟨fun l t hstep o ho => uses_live h hstep ho, nodup_freed h, ?_⟩
  intro hc
  have hp : Placed False s := placed_run (fun _ _ => False.elim) h
  have hended : s.readThread = .ended := hp.ended_of_released (by rw [hc]; simp [Caller.released])
  have hidle := hp.idle_of_joined hended
  constructor
  · intro o ho
    have hthree : ∀ o ∈ [Object.dev, .transfer, .buffer], o ∈ s.freed := by
      intro o ho
      rw [(owned_run h).freed_perm.mem_iff, hc]
      apply List.mem_append_right
      simp only [List.mem_cons, List.not_mem_nil, or_false] at ho
      rcases ho with rfl | rfl | rfl <;> simp [Caller.released]
    cases o with
    | dev => exact hthree _ (by simp)
    | transfer => exact hthree _ (by simp)
    | buffer => exact hthree _ (by simp)
    | report id =>
      have hids := nodup_reports h
      rw [hidle, (owned_run h).cleared (by rw [hc]; rfl)] at hids
      rw [mem_freed_report h]
      have hmem : id ∈ List.range s.allocated := List.mem_range.mpr ho
      rw [← hids] at hmem
      simpa [Transfer.inHand] using hmem
  · intro l
    cases l with
    | complete status => rw [step, complete, hidle]
    | readCallback ok => rw [step, readCallback, hidle]
    | readThread ok => rw [step, readThread, hended]
    | read n ms => rw [step, hc]
    | hidReadTimeout => rw [step, hidReadTimeout, hc]
    | wake res => rw [step, hc]
    | close => rw [step, hc]
    | hidClose => rw [step, hidClose, hc]

/-- Two reports come in, one is read, and `hid_close` runs to its end while libusb cancels the
transfer. -/
def closedDevice : List Label :=
  [.readThread true, .readThread true, .complete (.completed [2, 7, 8]), .readCallback true,
    .readCallback true, .complete (.completed [1, 5]), .readCallback true, .readCallback true,
    .read 64 10, .hidReadTimeout, .hidReadTimeout, .close, .hidClose, .hidClose,
    .complete .cancelled, .readCallback true, .readThread true, .readThread true,
    .readCallback true, .readThread true, .readThread true, .hidClose, .hidClose, .hidClose,
    .hidClose, .hidClose]

theorem memory_safe_closed :
    ∃ s, Run.run step hidOpenPath closedDevice = some s ∧ s.freed.Nodup ∧
      (∀ o, s.Allocated o → o ∈ s.freed) ∧ ∀ l, step s l = none := by
  obtain ⟨s, hs⟩ := Option.isSome_iff_exists.mp
    (show (Run.run step hidOpenPath closedDevice).isSome from by decide)
  have hc : (Run.run step hidOpenPath closedDevice).map (·.caller) = some .closed := by decide
  rw [hs] at hc
  obtain ⟨-, hnodup, hclosed⟩ := memory_safe hs
  obtain ⟨hfreed, hend⟩ := hclosed (Option.some.inj hc)
  exact ⟨s, hs, hnodup, hfreed, hend⟩

end TrezorPlugin.X11
