import TrezorPlugin.X11Hid

/-!
# When hid_close returns (X11/hid.c)

`hid_close` and `read_thread` cancel the transfer once each, and then wait for `read_callback` to
set `cancelled`.  The callback does that only when the transfer comes back cancelled, and submits
it again otherwise; and the result of the first submission is not looked at.  So the two calls can
both be spent on a transfer that is with libusb again (`Stuck`).

    hid_close can return with the device in its place  ↔  ¬ Stuck           (close_returns_iff)

Left to right by an invariant of the steps that libusb takes without an error; right to left by
three measures, down to a transfer that comes back, to `cancelled`, and to the end.
-/

namespace TrezorPlugin.X11

/-- libusb takes what is submitted and has no fatal error, and the device stays. -/
def Label.Healthy : Label → Prop
  | .complete .noDevice => False
  | .readCallback ok => ok = true
  | .readThread ok => ok = true
  | _ => True

/-- The transfer is, or will be, with libusb, and no call has cancelled it. -/
def Transfer.uncancelled : Transfer → Bool
  | .pending cancelling => !cancelling
  | .appending _ => true
  | .resubmitting => true
  | _ => false

/-- The first submission failed, or both calls to `libusb_cancel_transfer` came too early. -/
def HidDevice.Stuck (s : HidDevice) : Prop :=
  s.cancelled = false ∧
    (s.transfer = .idle ∧ s.readThread ≠ .submitting ∨
      s.transfer.uncancelled = true ∧ s.readThread = .draining ∧ s.caller = .closing .joining)

variable {s t : HidDevice}

/-! ## A stuck device stays stuck -/

theorem Stuck.readThread (hs : s.Stuck) (h : readThread s true = some t) : t.Stuck := by
  obtain ⟨hnot, ⟨htr, hr⟩ | ⟨htr, hr, hc⟩⟩ := hs
  · have htransfer : t.cancelled = false ∧ t.transfer = .idle ∧ t.readThread ≠ .submitting := by
      rw [X11.readThread] at h
      split at h
      case h_1 hr' => exact absurd hr' hr
      case h_2 =>
        split at h <;> cases h
        exact ⟨hnot, htr, by simp⟩
      case h_3 =>
        cases h
        refine ⟨hnot, htr, ?_⟩
        cases s.shutdownThread <;> simp
      case h_5 =>
        cases h
        exact ⟨hnot, by rw [htr]; rfl, by simp⟩
      case h_6 =>
        cases h
        refine ⟨hnot, htr, ?_⟩
        rw [hnot]
        simp
      case h_7 =>
        split at h <;> cases h
        exact ⟨hnot, htr, by simp⟩
      case h_8 => cases h
      · cases h
        exact ⟨hnot, htr, by simp⟩
    exact ⟨htransfer.1, .inl htransfer.2⟩
  · rw [X11.readThread, hr] at h
    cases h
    refine ⟨hnot, .inr ⟨htr, ?_, hc⟩⟩
    rw [hnot]
    rfl

theorem Stuck.step {l : Label} (hp : Placed False s) (hs : s.Stuck) (hl : l.Healthy)
    (h : step s l = some t) : t.Stuck := by
  have hcaller := hp.caller
  cases l with
  | complete status =>
    obtain ⟨hnot, ⟨htr, hr⟩ | ⟨htr, hr, hc⟩⟩ := hs
    · rw [X11.step, complete, htr] at h
      cases h
    · rw [X11.step, complete] at h
      split at h
      · next cancelling htr' =>
        rw [htr'] at htr
        split at h
        · cases h
          exact ⟨hnot, .inr ⟨rfl, hr, hc⟩⟩
        · split at h
          · next hcancelling =>
            rw [hcancelling] at htr
            cases htr
          · cases h
        · cases hl
        · cases h
          exact ⟨hnot, .inr ⟨rfl, hr, hc⟩⟩
        · cases h
          exact ⟨hnot, .inr ⟨rfl, hr, hc⟩⟩
      · cases h
  | readCallback ok =>
    cases hl
    obtain ⟨hnot, ⟨htr, hr⟩ | ⟨htr, hr, hc⟩⟩ := hs
    · rw [X11.step, readCallback, htr] at h
      cases h
    · rw [X11.step, readCallback] at h
      split at h
      · next rpt _ =>
        split at h <;> cases h
        refine ⟨by simpa using hnot, .inr ⟨rfl, by simpa using hr, ?_⟩⟩
        show (s.attach rpt).caller = _
        rw [attach_caller hcaller, hc]
        rfl
      · cases h
        exact ⟨hnot, .inr ⟨rfl, hr, hc⟩⟩
      · next htr' =>
        rw [htr'] at htr
        cases htr
      · next htr' =>
        rw [htr'] at htr
        cases htr
      · cases h
  | readThread ok =>
    cases hl
    exact Stuck.readThread hs h
  | hidReadTimeout =>
    rw [X11.step, hidReadTimeout] at h
    split at h
    · next n ms place hc =>
      obtain ⟨hnot, ⟨htr, hr⟩ | ⟨-, -, hc'⟩⟩ := hs
      · obtain ⟨htr', hcancelled, -, hthread, -⟩ := readOn_frame h
        exact ⟨hcancelled.trans hnot, .inl ⟨htr'.trans htr, by rw [hthread]; exact hr⟩⟩
      · rw [hc] at hc'
        cases hc'
    · cases h
  | hidClose =>
    obtain ⟨hnot, ⟨htr, hr⟩ | ⟨htr, hr, hc⟩⟩ := hs
    · rw [X11.step, hidClose] at h
      split at h
      case h_2 =>
        cases h
        exact ⟨hnot, .inl ⟨by rw [htr]; rfl, hr⟩⟩
      case h_3 =>
        split at h <;> cases h
        exact ⟨hnot, .inl ⟨htr, hr⟩⟩
      case h_5 => split at h <;> cases h <;> exact ⟨hnot, .inl ⟨htr, hr⟩⟩
      case h_7 => cases h
      all_goals
        cases h
        exact ⟨hnot, .inl ⟨htr, hr⟩⟩
    · rw [X11.step, hidClose, hc, hr] at h
      cases h
  | read n ms =>
    rw [X11.step] at h
    split at h
    · next hc =>
      cases h
      obtain ⟨hnot, hrest | ⟨-, -, hc'⟩⟩ := hs
      · exact ⟨hnot, .inl hrest⟩
      · rw [hc] at hc'
        cases hc'
    · cases h
  | wake res =>
    rw [X11.step] at h
    split at h
    · next hc =>
      cases h
      obtain ⟨hnot, hrest | ⟨-, -, hc'⟩⟩ := hs
      · exact ⟨hnot, .inl hrest⟩
      · rw [hc] at hc'
        cases hc'
    · cases h
  | close =>
    rw [X11.step] at h
    split at h
    · next hc =>
      cases h
      obtain ⟨hnot, hrest | ⟨-, -, hc'⟩⟩ := hs
      · exact ⟨hnot, .inl hrest⟩
      · rw [hc] at hc'
        cases hc'
    · cases h

/-! ## The way out -/

/-- A reader in its loop has something to find. -/
def HidDevice.quick (s : HidDevice) : Bool := !s.inputReports.isEmpty || s.shutdownThread

/-- How far `hid_read_timeout` is from its end. -/
def HidDevice.readingRank (s : HidDevice) : Reading → Nat
  | .unlocking _ => 8
  | .looping => if s.quick then 9 else 13
  | .waking _ => if s.quick then 10 else 14
  | .asleep => 11
  | .waiting => 12
  | .testing => 15
  | .locking => 16

def Closing.rank : Closing → Nat
  | .stopping => 6
  | .cancelling => 5
  | .joining => 4
  | .freeing => 3
  | .draining => 2
  | .ending => 1

/-- How far the thread that calls hidapi is from the end of `hid_close`. -/
def HidDevice.callerRank (s : HidDevice) : Nat :=
  match s.caller with
  | .opening => 20
  | .idle => 7
  | .reading _ _ place => s.readingRank place
  | .closing place => place.rank
  | .closed => 0

def ReadThread.rank : ReadThread → Nat
  | .submitting => 7
  | .barrier => 6
  | .handling => 5
  | .testing => 4
  | .cancelling => 3
  | .draining => 2
  | .broadcasting => 1
  | .ended => 0

theorem rank_handOut (n : Nat) (ms : Int) (rpt : InputReport) (rest : List InputReport) :
    (s.handOut n ms rpt rest).callerRank = 8 := rfl

theorem rank_goTo (n : Nat) (ms : Int) (place : Reading) :
    (s.goTo n ms place).callerRank = s.readingRank place := rfl

theorem rank_waking {n : Nat} {ms : Int} {res : WaitResult}
    (hc : s.caller = .reading n ms (.waking res)) (hquick : s.quick = true) :
    s.callerRank = 10 := by
  unfold HidDevice.callerRank
  rw [hc]
  simp [HidDevice.readingRank, hquick]

/-- Each step of `hid_read_timeout` brings it closer to its end. -/
theorem readOn_progress {n : Nat} {ms : Int} {place : Reading} (hc : s.caller = .reading n ms place)
    (h : s.readOn n ms place = some t) :
    t.callerRank < s.callerRank ∧ t.inputReports.length ≤ s.inputReports.length := by
  have hrank : s.callerRank = s.readingRank place := by
    unfold HidDevice.callerRank
    rw [hc]
  rw [hrank]
  cases place with
  | locking =>
    rw [HidDevice.readOn] at h
    split at h
    · next hreports =>
      cases h
      refine ⟨by simp [rank_handOut, HidDevice.readingRank], ?_⟩
      rw [hreports]
      exact Nat.le_succ _
    · cases h
      exact ⟨by simp [rank_goTo, HidDevice.readingRank], Nat.le_refl _⟩
  | testing =>
    have hloop : s.readingRank .looping < s.readingRank .testing := by
      unfold HidDevice.readingRank
      by_cases hq : s.quick <;> simp [hq]
    rw [HidDevice.readOn] at h
    split at h
    · cases h
      exact ⟨by simp [rank_goTo, HidDevice.readingRank], Nat.le_refl _⟩
    · split at h
      · cases h
        exact ⟨hloop, Nat.le_refl _⟩
      · cases h
        exact ⟨by simp [rank_goTo, HidDevice.readingRank], Nat.le_refl _⟩
  | looping =>
    rw [HidDevice.readOn] at h
    split at h
    · next hreports =>
      have hquick : s.quick = true := by simp [HidDevice.quick, hreports]
      split at h
      · cases h
        refine ⟨by simp [rank_handOut, HidDevice.readingRank, hquick], ?_⟩
        rw [hreports]
        exact Nat.le_succ _
      · cases h
        exact ⟨by simp [rank_goTo, HidDevice.readingRank, hquick], Nat.le_refl _⟩
    · next hempty =>
      split at h
      · next hs =>
        have hquick : s.quick = true := by simp [HidDevice.quick, hs]
        cases h
        exact ⟨by simp [rank_goTo, HidDevice.readingRank, hquick], Nat.le_refl _⟩
      · next hs =>
        have hquick : s.quick = false := by simp [HidDevice.quick, hempty, hs]
        cases h
        exact ⟨by simp [rank_goTo, HidDevice.readingRank, hquick], Nat.le_refl _⟩
  | waiting =>
    cases h
    exact ⟨by simp [rank_goTo, HidDevice.readingRank], Nat.le_refl _⟩
  | asleep => cases h
  | waking res =>
    have hloop : s.readingRank .looping < s.readingRank (.waking res) := by
      unfold HidDevice.readingRank
      by_cases hq : s.quick <;> simp [hq]
    have hret : ∀ r, s.readingRank (.unlocking r) < s.readingRank (.waking res) := by
      intro r
      unfold HidDevice.readingRank
      by_cases hq : s.quick <;> simp [hq]
    rw [HidDevice.readOn] at h
    split at h <;> cases h
    · exact ⟨hloop, Nat.le_refl _⟩
    · unfold HidDevice.waited
      split
      · split
        · next hreports =>
          refine ⟨hret .failed, ?_⟩
          rw [hreports]
          exact Nat.le_succ _
        · exact ⟨hloop, Nat.le_refl _⟩
      · exact ⟨hret .timedOut, Nat.le_refl _⟩
      · exact ⟨hret .failed, Nat.le_refl _⟩
  | unlocking r =>
    cases h
    exact ⟨by simp [HidDevice.callerRank, HidDevice.readingRank], Nat.le_refl _⟩

/-- `hid_read_timeout` can go on unless it sleeps. -/
theorem readOn_enabled (s : HidDevice) (n : Nat) (ms : Int) {place : Reading}
    (hne : place ≠ .asleep) :
    ∃ t, s.readOn n ms place = some t := by
  cases place with
  | locking =>
    rw [HidDevice.readOn]
    split <;> exact ⟨_, rfl⟩
  | testing =>
    rw [HidDevice.readOn]
    split <;> try split
    all_goals exact ⟨_, rfl⟩
  | looping =>
    rw [HidDevice.readOn]
    split <;> split <;> exact ⟨_, rfl⟩
  | waiting => exact ⟨_, rfl⟩
  | asleep => exact absurd rfl hne
  | waking res =>
    rw [HidDevice.readOn]
    split <;> exact ⟨_, rfl⟩
  | unlocking r => exact ⟨_, rfl⟩

/-- The transfer is back for good, or on its way. -/
def HidDevice.Returning (s : HidDevice) : Prop :=
  s.cancelled = true ∨ s.transfer = .failing ∨ s.transfer = .stopping ∨ s.transfer = .pending true

/-- How far an uncancelled transfer is from being pending; to wake a reader up it takes another
round. -/
def HidDevice.transferRank (s : HidDevice) : Nat :=
  match s.transfer, s.caller with
  | .resubmitting, .reading _ _ .asleep => 4
  | .pending _, .reading _ _ .asleep => 3
  | .appending _, _ => 2
  | .resubmitting, _ => 1
  | _, _ => 0

theorem transferRank_le (s : HidDevice) : s.transferRank ≤ 4 := by
  unfold HidDevice.transferRank
  split <;> omega

def HidDevice.cancelRank (s : HidDevice) : Nat :=
  10 * s.callerRank + 5 * s.readThread.rank + s.transferRank

/-- A step of `read_thread` alone. -/
theorem cancelRank_readThread (hcaller : t.callerRank = s.callerRank)
    (hrank : t.readThread.rank < s.readThread.rank) : t.cancelRank < s.cancelRank := by
  have := transferRank_le t
  unfold HidDevice.cancelRank
  rw [hcaller]
  omega

/-- A step of the thread that calls hidapi. -/
theorem cancelRank_caller (hcaller : t.callerRank < s.callerRank)
    (hrank : t.readThread.rank ≤ s.readThread.rank) : t.cancelRank < s.cancelRank := by
  have := transferRank_le t
  unfold HidDevice.cancelRank
  omega

/-- What carries the way to a returning transfer. -/
def HidDevice.Hopeful (s : HidDevice) : Prop := Placed False s ∧ (s.Returning ∨ ¬ s.Stuck)

/-- A step on that way. -/
def Advances (s : HidDevice) : Prop :=
  ∃ l t, l.Healthy ∧ step s l = some t ∧ t.Hopeful ∧ t.cancelRank < s.cancelRank

/-- A step that neither makes the last of the two calls nor loses the transfer. -/
theorem advances_of {l : Label} (hp : Placed False s) (hs : ¬ s.Stuck) (hl : l.Healthy)
    (hnot : s.cancelled = false) (htr : s.transfer.uncancelled = true)
    (h : step s l = some t) (htr' : t.transfer.uncancelled = true)
    (hlast : t.readThread = .draining → t.caller = .closing .joining →
      s.readThread = .draining ∧ s.caller = .closing .joining)
    (hrank : t.cancelRank < s.cancelRank) : Advances s := by
  refine ⟨l, t, hl, h, ⟨hp.step (fun hf => hf.elim) h, .inr ?_⟩, hrank⟩
  rintro ⟨-, ⟨hidle, -⟩ | ⟨-, hr, hc⟩⟩
  · rw [hidle] at htr'
    cases htr'
  · obtain ⟨hr, hc⟩ := hlast hr hc
    exact hs ⟨hnot, .inr ⟨htr, hr, hc⟩⟩

/-- A step that makes the transfer come back. -/
theorem advances_returning {l : Label} (hp : Placed False s) (hl : l.Healthy)
    (h : step s l = some t) (htr : t.transfer = .pending true)
    (hrank : t.cancelRank < s.cancelRank) : Advances s :=
  ⟨l, t, hl, h, ⟨hp.step (fun hf => hf.elim) h, .inl (.inr (.inr (.inr htr)))⟩, hrank⟩

/-- While `hid_close` is at work, an uncancelled transfer is pending, or comes closer to it. -/
theorem advances_callback (hp : Placed False s) (hs : ¬ s.Stuck) (hnot : s.cancelled = false)
    (htr : s.transfer.uncancelled = true) {place : Closing} (hc : s.caller = .closing place) :
    s.transfer = .pending false ∨ Advances s := by
  cases ht : s.transfer with
  | pending cancelling =>
    rw [ht] at htr
    left
    cases cancelling with
    | false => rfl
    | true => cases htr
  | appending rpt =>
    right
    have hcaller : (s.attach rpt).caller = s.caller := by
      rw [attach_caller hp.caller, hc]
      rfl
    refine advances_of (l := .readCallback true) hp hs rfl hnot htr
      (t := { s.attach rpt with transfer := .resubmitting })
      (by rw [X11.step, readCallback, ht, hc]; rfl) rfl ?_ ?_
    · show (s.attach rpt).readThread = _ → (s.attach rpt).caller = _ → _
      rw [attach_readThread, hcaller]
      exact fun hr hj => ⟨hr, hj⟩
    · have hrank : HidDevice.callerRank { s.attach rpt with transfer := .resubmitting } =
          s.callerRank := by
        unfold HidDevice.callerRank
        simp only [hcaller, hc]
      unfold HidDevice.cancelRank
      rw [hrank]
      simp only [HidDevice.transferRank, attach_readThread, hcaller, hc, ht]
      omega
  | resubmitting =>
    right
    refine advances_of (l := .readCallback true) hp hs rfl hnot htr
      (t := { s with transfer := .pending false })
      (by rw [X11.step, readCallback, ht]; rfl) rfl (fun hr hj => ⟨hr, hj⟩) ?_
    simp only [HidDevice.cancelRank, HidDevice.callerRank, HidDevice.transferRank, hc, ht]
    omega
  | idle =>
    rw [ht] at htr
    cases htr
  | failing =>
    rw [ht] at htr
    cases htr
  | stopping =>
    rw [ht] at htr
    cases htr

/-- A sleeping reader gets a report. -/
theorem advances_asleep (hp : Placed False s) (hs : ¬ s.Stuck) (hnot : s.cancelled = false)
    (htr : s.transfer.uncancelled = true) {n : Nat} {ms : Int}
    (hc : s.caller = .reading n ms .asleep) : Advances s := by
  have hcaller := hp.caller
  rw [hc] at hcaller
  have hempty : s.inputReports = [] := hcaller.2.1
  have hlast : s.caller = .closing .joining →
      s.readThread = .draining ∧ s.caller = .closing .joining := by
    rw [hc]
    rintro ⟨⟩
  cases ht : s.transfer with
  | pending cancelling =>
    refine advances_of (l := .complete (.completed [])) hp hs trivial hnot htr
      (t := { s with transfer := .appending ⟨s.allocated, []⟩, allocated := s.allocated + 1 })
      (by rw [X11.step, complete, ht]) rfl (fun _ => hlast) ?_
    simp only [HidDevice.cancelRank, HidDevice.callerRank, HidDevice.transferRank, hc, ht]
    simp [HidDevice.readingRank]
  | appending rpt =>
    have hwake : (s.attach rpt).caller = .reading n ms (.waking .woken) := by
      rw [attach_caller hp.caller, hc]
      rfl
    refine advances_of (l := .readCallback true) hp hs rfl hnot htr
      (t := { s.attach rpt with transfer := .resubmitting })
      (by rw [X11.step, readCallback, ht, hc]; rfl) rfl ?_ ?_
    · show _ → (s.attach rpt).caller = _ → _
      rw [hwake]
      rintro - ⟨⟩
    · apply cancelRank_caller
      · have hquick : (s.attach rpt).quick = true := by
          unfold HidDevice.quick HidDevice.attach
          simp [hempty]
        have hrank : s.callerRank = 11 := by
          unfold HidDevice.callerRank
          rw [hc]
          rfl
        have hrank' : (s.attach rpt).callerRank = 10 := rank_waking hwake hquick
        show (s.attach rpt).callerRank < s.callerRank
        omega
      · show (s.attach rpt).readThread.rank ≤ _
        rw [attach_readThread]
  | resubmitting =>
    refine advances_of (l := .readCallback true) hp hs rfl hnot htr
      (t := { s with transfer := .pending false })
      (by rw [X11.step, readCallback, ht]; rfl) rfl (fun _ => hlast) ?_
    simp only [HidDevice.cancelRank, HidDevice.callerRank, HidDevice.transferRank, hc, ht]
    simp [HidDevice.readingRank]
  | idle =>
    rw [ht] at htr
    cases htr
  | failing =>
    rw [ht] at htr
    cases htr
  | stopping =>
    rw [ht] at htr
    cases htr

theorem advances_closing (hp : Placed False s) (hs : ¬ s.Stuck) (hnot : s.cancelled = false)
    (htr : s.transfer.uncancelled = true) {place : Closing} (hc : s.caller = .closing place) :
    Advances s := by
  have hcaller := hp.caller
  rw [hc] at hcaller
  obtain ⟨hstarting, hshutdown, hjoined⟩ := hcaller
  have hended : s.readThread ≠ .broadcasting ∧ s.readThread ≠ .ended := by
    constructor <;> intro hr <;> have := hp.drained (by simp [hr]) <;> simp [hnot] at this
  rcases advances_callback hp hs hnot htr hc with ht | hadv
  · cases place with
    | stopping =>
      refine advances_of (l := .hidClose) hp hs trivial hnot htr
        (t := { s with shutdownThread := true, caller := .closing .cancelling })
        (by rw [X11.step, hidClose, hc]) htr (by rintro - ⟨⟩) ?_
      exact cancelRank_caller (by simp [HidDevice.callerRank, hc, Closing.rank]) (Nat.le_refl _)
    | cancelling =>
      refine advances_returning (l := .hidClose) hp trivial
        (t := { s with transfer := s.transfer.cancel, caller := .closing .joining })
        (by rw [X11.step, hidClose, hc]) (by rw [ht]; rfl) ?_
      exact cancelRank_caller (by simp [HidDevice.callerRank, hc, Closing.rank]) (Nat.le_refl _)
    | joining =>
      cases hr : s.readThread with
      | testing =>
        refine advances_of (l := .readThread true) hp hs rfl hnot htr
          (t := { s with readThread := .cancelling })
          (by simp [X11.step, readThread, hr, hshutdown]) htr (by rintro ⟨⟩) ?_
        exact cancelRank_readThread rfl (by simp [hr, ReadThread.rank])
      | handling =>
        refine advances_of (l := .readThread true) hp hs rfl hnot htr
          (t := { s with readThread := .testing })
          (by simp [X11.step, readThread, hr]) htr (by rintro ⟨⟩) ?_
        exact cancelRank_readThread rfl (by simp [hr, ReadThread.rank])
      | cancelling =>
        refine advances_returning (l := .readThread true) hp rfl
          (t := { s with transfer := s.transfer.cancel, readThread := .draining })
          (by rw [X11.step, readThread, hr]) (by rw [ht]; rfl) ?_
        exact cancelRank_readThread rfl (by simp [hr, ReadThread.rank])
      | draining => exact absurd ⟨hnot, .inr ⟨htr, hr, hc⟩⟩ hs
      | broadcasting => exact absurd hr hended.1
      | ended => exact absurd hr hended.2
      | submitting =>
        rw [hr] at hstarting
        cases hstarting
      | barrier =>
        rw [hr] at hstarting
        cases hstarting
    | freeing => exact absurd (hjoined rfl) hended.2
    | draining => exact absurd (hjoined rfl) hended.2
    | ending => exact absurd (hjoined rfl) hended.2
  · exact hadv

/-- **Some step advances** as long as the transfer is neither back nor on its way. -/
theorem advances (hopeful : s.Hopeful) (hnr : ¬ s.Returning) : Advances s := by
  obtain ⟨hp, hrs⟩ := hopeful
  have hs : ¬ s.Stuck := hrs.resolve_left hnr
  have hnot : s.cancelled = false := by
    rw [← Bool.not_eq_true]
    exact fun h => hnr (.inl h)
  by_cases htr : s.transfer.uncancelled = true
  · have hcaller := hp.caller
    cases hc : s.caller with
    | opening =>
      rw [hc] at hcaller
      have hr : s.readThread = .barrier := by
        cases hr : s.readThread with
        | barrier => rfl
        | submitting =>
          rw [(hp.submitting hr).1] at htr
          cases htr
        | _ =>
          rw [HidDevice.Knows, hr] at hcaller
          cases hcaller
      refine advances_of (l := .readThread true) hp hs rfl hnot htr
        (t := { s with readThread := .testing, caller := .idle })
        (by simp [X11.step, readThread, hr, hc]) htr (by rintro ⟨⟩) ?_
      exact cancelRank_caller (by simp [HidDevice.callerRank, hc]) (by simp [hr, ReadThread.rank])
    | idle =>
      refine advances_of (l := .close) hp hs trivial hnot htr
        (t := { s with caller := .closing .stopping }) (by rw [X11.step, hc]) htr
        (by rintro - ⟨⟩) ?_
      exact cancelRank_caller (by simp [HidDevice.callerRank, hc, Closing.rank]) (Nat.le_refl _)
    | reading n ms place =>
      by_cases hplace : place = .asleep
      · rw [hplace] at hc
        exact advances_asleep hp hs hnot htr hc
      · obtain ⟨t, ht⟩ := readOn_enabled s n ms hplace
        obtain ⟨htransfer, -, -, hthread, -⟩ := readOn_frame ht
        refine advances_of (l := .hidReadTimeout) (t := t) hp hs trivial hnot htr
          (by rw [X11.step, hidReadTimeout, hc]; exact ht) (by rw [htransfer]; exact htr) ?_ ?_
        · intro _ hj
          have hcloses := readOn_caller ht
          rw [hj] at hcloses
          cases hcloses
        · exact cancelRank_caller (readOn_progress hc ht).1 (by rw [hthread])
    | closing place => exact advances_closing hp hs hnot htr hc
    | closed =>
      rw [hc] at hcaller
      rw [hp.drained (.inr hcaller)] at hnot
      cases hnot
  · have hidle : s.transfer = .idle := by
      cases ht : s.transfer with
      | idle => rfl
      | failing => exact absurd (.inr (.inl ht)) hnr
      | stopping => exact absurd (.inr (.inr (.inl ht))) hnr
      | pending cancelling =>
        cases cancelling with
        | true => exact absurd (.inr (.inr (.inr ht))) hnr
        | false => exact absurd (by rw [ht]; rfl) htr
      | appending rpt => exact absurd (by rw [ht]; rfl) htr
      | resubmitting => exact absurd (by rw [ht]; rfl) htr
    by_cases hr : s.readThread = .submitting
    · have hstep : step s (.readThread true) =
          some { s with transfer := .pending false, readThread := .barrier } := by
        rw [X11.step, readThread, hr]
        rfl
      refine ⟨.readThread true, _, rfl, hstep, ⟨hp.step (fun hf => hf.elim) hstep, .inr ?_⟩, ?_⟩
      · rintro ⟨-, ⟨hi, -⟩ | ⟨-, hd, -⟩⟩
        · cases hi
        · cases hd
      · exact cancelRank_readThread rfl (by simp [hr, ReadThread.rank])
    · exact absurd ⟨hnot, .inl ⟨hidle, hr⟩⟩ hs

/-! ## The end -/

/-- How far a returning transfer is from being back. -/
def Transfer.rank : Transfer → Nat
  | .pending _ => 3
  | .failing => 2
  | .stopping => 1
  | _ => 0

/-- A returning transfer comes back. -/
theorem comes_back (hp : Placed False s) (hr : s.Returning) (hnot : ¬ s.cancelled = true) :
    ∃ l t, l.Healthy ∧ step s l = some t ∧ (Placed False t ∧ t.Returning) ∧
      t.transfer.rank < s.transfer.rank := by
  rcases hr with hr | htr | htr | htr
  · exact absurd hr hnot
  · have hstep : step s (.readCallback true) =
        some { s with transfer := .stopping, shutdownThread := true } := by
      rw [X11.step, readCallback, htr]
    exact ⟨.readCallback true, _, rfl, hstep, ⟨hp.step (fun hf => hf.elim) hstep, .inr (.inr (.inl rfl))⟩,
      by rw [htr]; exact Nat.lt_succ_self 1⟩
  · have hstep : step s (.readCallback true) =
        some { s with transfer := .idle, cancelled := true } := by
      rw [X11.step, readCallback, htr]
    exact ⟨.readCallback true, _, rfl, hstep, ⟨hp.step (fun hf => hf.elim) hstep, .inl rfl⟩,
      by rw [htr]; exact Nat.lt_succ_self 0⟩
  · have hstep : step s (.complete .cancelled) = some { s with transfer := .failing } := by
      rw [X11.step, complete, htr]
      rfl
    exact ⟨.complete .cancelled, _, trivial, hstep, ⟨hp.step (fun hf => hf.elim) hstep, .inr (.inl rfl)⟩,
      by rw [htr]; exact Nat.lt_succ_self 2⟩

def HidDevice.endRank (s : HidDevice) : Nat :=
  s.callerRank + s.readThread.rank + s.inputReports.length

/-- With the transfer back, `read_thread` ends and `hid_close` returns. -/
theorem comes_to_end (hp : Placed False s) (hback : s.cancelled = true)
    (hopen : ¬ s.caller = .closed) :
    ∃ l t, l.Healthy ∧ step s l = some t ∧ (Placed False t ∧ t.cancelled = true) ∧
      t.endRank < s.endRank := by
  have hshutdown := (hp.given_back hback).2
  have hcaller := hp.caller
  suffices h : ∃ l t, l.Healthy ∧ step s l = some t ∧ t.cancelled = true ∧
      t.endRank < s.endRank by
    obtain ⟨l, t, hl, hstep, hc, hrank⟩ := h
    exact ⟨l, t, hl, hstep, ⟨hp.step (fun hf => hf.elim) hstep, hc⟩, hrank⟩
  cases hc : s.caller with
  | opening =>
    rw [hc] at hcaller
    have hr : s.readThread = .barrier := by
      cases hr : s.readThread with
      | barrier => rfl
      | submitting =>
        rw [(hp.submitting hr).2] at hback
        cases hback
      | _ =>
        rw [HidDevice.Knows, hr] at hcaller
        cases hcaller
    refine ⟨.readThread true, { s with readThread := .testing, caller := .idle }, rfl,
      by simp [X11.step, readThread, hr, hc], hback, ?_⟩
    simp only [HidDevice.endRank, HidDevice.callerRank, ReadThread.rank, hc, hr]
    omega
  | idle =>
    refine ⟨.close, { s with caller := .closing .stopping }, trivial, by rw [X11.step, hc],
      hback, ?_⟩
    simp only [HidDevice.endRank, HidDevice.callerRank, Closing.rank, hc]
    omega
  | reading n ms place =>
    by_cases hplace : place = .asleep
    · have hquick : s.quick = true := by simp [HidDevice.quick, hshutdown]
      rw [hplace] at hc
      refine ⟨.wake .woken, s.goTo n ms (.waking .woken), trivial, by rw [X11.step, hc], hback, ?_⟩
      have hrank : s.callerRank = 11 := by
        unfold HidDevice.callerRank
        rw [hc]
        rfl
      have hrank' : (s.goTo n ms (.waking .woken)).callerRank = 10 := rank_waking rfl hquick
      show _ + s.readThread.rank + s.inputReports.length < _ + s.readThread.rank + _
      omega
    · obtain ⟨t, ht⟩ := readOn_enabled s n ms hplace
      obtain ⟨-, hcancelled, -, hthread, -⟩ := readOn_frame ht
      obtain ⟨hrank, hlength⟩ := readOn_progress hc ht
      refine ⟨.hidReadTimeout, t, trivial, by rw [X11.step, hidReadTimeout, hc]; exact ht,
        hcancelled.trans hback, ?_⟩
      unfold HidDevice.endRank
      rw [hthread]
      omega
  | closing place =>
    have hlower : ∀ u : HidDevice, u.callerRank < s.callerRank → u.readThread = s.readThread →
        u.inputReports = s.inputReports → u.endRank < s.endRank := by
      intro u hrank hthread hreports
      unfold HidDevice.endRank
      rw [hthread, hreports]
      omega
    cases place with
    | stopping =>
      refine ⟨.hidClose, { s with shutdownThread := true, caller := .closing .cancelling }, trivial,
        by rw [X11.step, hidClose, hc], hback, hlower _ ?_ rfl rfl⟩
      simp [HidDevice.callerRank, hc, Closing.rank]
    | cancelling =>
      refine ⟨.hidClose, { s with transfer := s.transfer.cancel, caller := .closing .joining },
        trivial, by rw [X11.step, hidClose, hc], hback, hlower _ ?_ rfl rfl⟩
      simp [HidDevice.callerRank, hc, Closing.rank]
    | joining =>
      have hthread : ∀ u : HidDevice, u.callerRank = s.callerRank →
          u.readThread.rank < s.readThread.rank → u.inputReports = s.inputReports →
          u.endRank < s.endRank := by
        intro u hrank hr hreports
        unfold HidDevice.endRank
        rw [hrank, hreports]
        omega
      rw [hc] at hcaller
      cases hr : s.readThread with
      | testing =>
        exact ⟨.readThread true, { s with readThread := .cancelling }, rfl,
          by simp [X11.step, readThread, hr, hshutdown], hback,
          hthread _ rfl (by simp [hr, ReadThread.rank]) rfl⟩
      | handling =>
        exact ⟨.readThread true, { s with readThread := .testing }, rfl,
          by simp [X11.step, readThread, hr], hback,
          hthread _ rfl (by simp [hr, ReadThread.rank]) rfl⟩
      | cancelling =>
        exact ⟨.readThread true,
          { s with transfer := s.transfer.cancel, readThread := .draining }, rfl,
          by rw [X11.step, readThread, hr], hback,
          hthread _ rfl (by simp [hr, ReadThread.rank]) rfl⟩
      | draining =>
        exact ⟨.readThread true, { s with readThread := .broadcasting }, rfl,
          by simp [X11.step, readThread, hr, hback], hback,
          hthread _ rfl (by simp [hr, ReadThread.rank]) rfl⟩
      | broadcasting =>
        refine ⟨.readThread true, { s with caller := s.caller.wake, readThread := .ended }, rfl,
          by simp [X11.step, readThread, hr, hc, Caller.holds], hback,
          hthread _ ?_ (by simp [hr, ReadThread.rank]) rfl⟩
        simp only [HidDevice.callerRank, hc]
        rfl
      | ended =>
        refine ⟨.hidClose, { s with caller := .closing .freeing }, trivial,
          by rw [X11.step, hidClose, hc, hr], hback, hlower _ ?_ rfl rfl⟩
        simp [HidDevice.callerRank, hc, Closing.rank]
      | submitting =>
        have hstarting := hcaller.1
        rw [hr] at hstarting
        cases hstarting
      | barrier =>
        have hstarting := hcaller.1
        rw [hr] at hstarting
        cases hstarting
    | freeing =>
      refine ⟨.hidClose,
        { s with freed := s.freed ++ [.buffer, .transfer], caller := .closing .draining }, trivial,
        by rw [X11.step, hidClose, hc], hback, hlower _ ?_ rfl rfl⟩
      simp [HidDevice.callerRank, hc, Closing.rank]
    | draining =>
      cases hreports : s.inputReports with
      | nil =>
        refine ⟨.hidClose, { s with caller := .closing .ending }, trivial,
          by rw [X11.step, hidClose, hc, hreports], hback, hlower _ ?_ rfl rfl⟩
        simp [HidDevice.callerRank, hc, Closing.rank]
      | cons rpt rest =>
        refine ⟨.hidClose, s.returnData rpt rest .cleared, trivial,
          by rw [X11.step, hidClose, hc, hreports], hback, ?_⟩
        simp only [HidDevice.endRank, HidDevice.callerRank, HidDevice.returnData, hc, hreports,
          List.length_cons]
        omega
    | ending =>
      refine ⟨.hidClose, { s with freed := s.freed ++ [.dev], caller := .closed }, trivial,
        by rw [X11.step, hidClose, hc], hback, hlower _ ?_ rfl rfl⟩
      simp [HidDevice.callerRank, hc, Closing.rank]
  | closed => exact absurd hc hopen

/-- **When hid_close returns.**  Wherever the parties are: `hid_close` can still be called and
return, with libusb taking what is submitted and the device in its place, exactly if the device is
not stuck. -/
theorem close_returns_iff {ls : List Label} {s : HidDevice}
    (h : Run.run step hidOpenPath ls = some s) :
    (∃ ls' t, (∀ l ∈ ls', l.Healthy) ∧ Run.run step s ls' = some t ∧ t.caller = .closed) ↔
      ¬ s.Stuck := by
  have hp : Placed False s := placed_run (fun _ _ => False.elim) h
  constructor
  · rintro ⟨ls', t, hls, hrun, hclosed⟩ hstuck
    have hinv := Run.run_inv step (fun s => Placed False s ∧ s.Stuck) (fun _ l => l.Healthy)
      (fun s l t hI hl hstep => ⟨hI.1.step (fun hf => hf.elim) hstep, Stuck.step hI.1 hI.2 hl hstep⟩)
      ⟨hp, hstuck⟩ (Run.along_of_forall step Label.Healthy hls s) hrun
    obtain ⟨hp', hnot, -⟩ := hinv
    have hcaller := hp'.caller
    rw [hclosed] at hcaller
    rw [hp'.drained (.inr hcaller)] at hnot
    cases hnot
  · intro hstuck
    obtain ⟨ls1, s1, hls1, hrun1, ⟨hp1, -⟩, hr1⟩ := Run.exists_run step HidDevice.Hopeful
      HidDevice.Returning Label.Healthy HidDevice.cancelRank (fun s hs hnr => advances hs hnr)
      ⟨hp, .inr hstuck⟩
    obtain ⟨ls2, s2, hls2, hrun2, ⟨hp2, -⟩, hback⟩ := Run.exists_run step
      (fun s => Placed False s ∧ s.Returning) (fun s => s.cancelled = true) Label.Healthy
      (fun s => s.transfer.rank) (fun s hs hnot => comes_back hs.1 hs.2 hnot) ⟨hp1, hr1⟩
    obtain ⟨ls3, s3, hls3, hrun3, -, hclosed⟩ := Run.exists_run step
      (fun s => Placed False s ∧ s.cancelled = true) (fun s => s.caller = .closed) Label.Healthy
      HidDevice.endRank (fun s hs hopen => comes_to_end hs.1 hs.2 hopen) ⟨hp2, hback⟩
    refine ⟨ls1 ++ (ls2 ++ ls3), s3, ?_, ?_, hclosed⟩
    · exact List.forall_mem_append.mpr ⟨hls1, List.forall_mem_append.mpr ⟨hls2, hls3⟩⟩
    · rw [Run.run_append step hrun1, Run.run_append step hrun2, hrun3]

/-- `hid_close` is called; the transfer times out just then, and both calls to cancel it come while
`read_callback` has it. -/
def racingClose : List Label :=
  [.readThread true, .readThread true, .close, .hidClose, .complete .timedOut, .hidClose,
    .readThread true, .readThread true, .readCallback true]

theorem close_returns_iff_racing :
    ∃ s, Run.run step hidOpenPath racingClose = some s ∧
      ¬ ∃ ls' t, (∀ l ∈ ls', l.Healthy) ∧ Run.run step s ls' = some t ∧ t.caller = .closed := by
  obtain ⟨s, hs⟩ := Option.isSome_iff_exists.mp
    (show (Run.run step hidOpenPath racingClose).isSome from by decide)
  have hplaces : (Run.run step hidOpenPath racingClose).map
      (fun s => (s.cancelled, s.transfer, s.readThread, s.caller)) =
      some (false, .pending false, .draining, .closing .joining) := by decide
  rw [hs] at hplaces
  simp only [Option.map_some, Option.some.injEq, Prod.mk.injEq] at hplaces
  obtain ⟨hnot, htr, hr, hc⟩ := hplaces
  refine ⟨s, hs, ?_⟩
  rw [close_returns_iff hs, not_not]
  exact ⟨hnot, .inr ⟨by rw [htr]; rfl, hr, hc⟩⟩

end TrezorPlugin.X11
