import TrezorPlugin.WinReads

/-!
# Closing a device on Windows (Win/hid.c)

`hid_close` asks for the read under way to be cancelled, but waits for nothing before it frees the
buffer and the device that the driver is still to write to.

    hid_close is safe  ↔  the last call was not too early, or its read is through by now
                                                                    (close_safe_iff)
-/

namespace TrezorPlugin.Win

/-- What a step reads, writes or frees; `dev->ol` is part of the device. -/
def Label.uses (s : HidDevice) : Label → List Object
  | .complete _ => [.dev, .readBuf]
  | .readFile _ => [.dev, .readBuf]
  | .hidReadTimeout => [.dev, .readBuf]
  | .hidClose =>
    match s.caller with
    | .closing .freeingBuf => [.dev, .readBuf]
    | _ => [.dev]
  | _ => [.dev]

/-- What `hid_close` has freed. -/
def Caller.released : Caller → List Object
  | .closing .freeingDev => [.readBuf]
  | .closed => [.readBuf, .dev]
  | _ => []

/-- No call is under way that has looked at `read_pending`. -/
def Caller.resting : Caller → Bool
  | .idle => true
  | .reading _ _ .testing => true
  | .reading _ _ _ => false
  | .closing _ => true
  | .closed => true

structure Kept (s : HidDevice) : Prop where
  freed : s.freed = s.caller.released
  pending : s.caller.resting = true →
    (s.readPending = true ↔ s.returned.getLast? = some .timedOut)

variable {s t : HidDevice}

theorem kept_hidOpenPath (readBuf : List UInt8) : Kept (hidOpenPath readBuf) where
  freed := rfl
  pending := by simp [hidOpenPath]

theorem giveBack_pending (s : HidDevice) (r : Returned) (found : List (Outcome × Nat))
    (h : s.readPending = true ↔ r = .timedOut) :
    (s.giveBack r found).readPending = true ↔
      (s.giveBack r found).returned.getLast? = some .timedOut := by
  show s.readPending = true ↔ (s.returned ++ [r]).getLast? = some .timedOut
  rw [List.getLast?_append, List.getLast?_singleton, Option.some_or, Option.some.injEq]
  exact h

theorem Kept.fetch (hk : Kept s) (hp : Placed s) (hfreed : s.caller.released = [])
    {transferred : Option Nat} (hreq : s.request = .done transferred) (n : Nat) (signaled : Bool) :
    Kept (({ s with signaled := signaled } : HidDevice).fetch n transferred) := by
  refine ⟨hk.freed.trans hfreed, fun _ => giveBack_pending _ _ _ ?_⟩
  show false = true ↔ s.result n transferred = .timedOut
  rw [hp.result_eq hreq n]
  simp [Outcome.result_ne]

theorem Kept.step {l : Label} (hk : Kept s) (hp : Placed s) (h : Win.step s l = some t) :
    Kept t := by
  have hfreed := hk.freed
  have hpending := hk.pending
  cases l with
  | complete o =>
    rw [Win.step, complete] at h
    split at h
    · split at h <;> cases h
      exact ⟨hfreed, hpending⟩
    · cases h
  | read n ms =>
    rw [Win.step] at h
    split at h
    · next hc =>
      rw [hc] at hfreed hpending
      cases h
      exact ⟨hfreed, hpending⟩
    · cases h
  | readFile started =>
    rw [Win.step, readFile] at h
    split at h
    · next n ms hc =>
      rw [hc] at hfreed
      cases started with
      | pending =>
        cases h
        exact ⟨hfreed, Bool.noConfusion⟩
      | finished data =>
        simp only [] at h
        split at h <;> cases h
        exact ⟨hfreed, Bool.noConfusion⟩
      | refused =>
        cases h
        exact ⟨hfreed, fun _ => giveBack_pending _ _ _ (by simp)⟩
    · cases h
  | wait ok =>
    have hcaller := hp.caller
    rw [Win.step, wait] at h
    split at h
    · next n ms hc =>
      rw [hc] at hfreed hcaller
      split at h
      · split at h
        · split at h <;> cases h
          exact ⟨hfreed, Bool.noConfusion⟩
        · cases h
          exact ⟨hfreed, fun _ => giveBack_pending _ _ _ (by simp [hcaller.1])⟩
      · cases h
    · cases h
  | hidReadTimeout =>
    rw [Win.step, hidReadTimeout] at h
    split at h
    · next hc =>
      rw [hc] at hfreed
      split at h <;> cases h <;> exact ⟨hfreed, Bool.noConfusion⟩
    · next hc =>
      rw [hc] at hfreed
      split at h <;> cases h
      exact ⟨hfreed, Bool.noConfusion⟩
    · next n ms hc =>
      rw [hc] at hfreed
      split at h
      · cases h
      · cases h
        exact ⟨hfreed, Bool.noConfusion⟩
      · next hreq =>
        cases h
        exact hk.fetch hp (by rw [hc]; rfl) hreq n s.signaled
    · next n ms hc =>
      split at h
      · next hreq =>
        split at h <;> cases h
        exact hk.fetch hp (by rw [hc]; rfl) hreq n false
      · cases h
    · cases h
  | close =>
    rw [Win.step] at h
    split at h
    · next hc =>
      rw [hc] at hfreed hpending
      cases h
      exact ⟨hfreed, hpending⟩
    · cases h
  | hidClose =>
    rw [Win.step, hidClose] at h
    split at h
    case h_5 => cases h
    all_goals
      next hc =>
      rw [hc] at hfreed hpending
      cases h
      exact ⟨by simp [hfreed, Caller.released], hpending⟩

theorem kept_run {readBuf : List UInt8} {ls : List Label}
    (h : Run.run step (hidOpenPath readBuf) ls = some s) : Placed s ∧ Kept s :=
  Run.run_inv step (fun s => Placed s ∧ Kept s) (fun _ _ => True)
    (fun _ _ _ hI _ hstep => ⟨(hI.1.step hstep).1, hI.2.step hI.1 hstep⟩)
    ⟨placed_hidOpenPath readBuf, kept_hidOpenPath readBuf⟩ (Run.along_true step _ ls) h

/-! ## hid_close -/

/-- In `hid_close`, or behind it. -/
def Caller.closes : Caller → Bool
  | .closing _ => true
  | .closed => true
  | _ => false

/-- Nothing that anyone does from now on touches what has been freed. -/
def SafeFrom (s : HidDevice) : Prop :=
  ∀ ls t, Run.run step s ls = some t → ∀ l u, step t l = some u → ∀ o ∈ l.uses t, o ∉ t.freed

/-- With no read under way, `hid_close` is by itself. -/
structure Quiet (s : HidDevice) : Prop where
  closes : s.caller.closes = true
  answered : s.request ≠ .pending
  freed : s.freed = s.caller.released

theorem Quiet.step {l : Label} (hq : Quiet s) (h : Win.step s l = some t) :
    Quiet t ∧ l = .hidClose ∧ s.caller ≠ .closed := by
  have hcloses := hq.closes
  have hfreed := hq.freed
  cases l with
  | hidClose =>
    rw [Win.step, hidClose] at h
    split at h
    case h_5 => cases h
    all_goals
      next hc =>
      rw [hc] at hfreed
      cases h
      exact ⟨⟨rfl, hq.answered, by simp [hfreed, Caller.released]⟩, rfl, by simp [hc]⟩
  | complete o =>
    rw [Win.step, complete] at h
    split at h
    · next hreq => exact absurd hreq hq.answered
    · cases h
  | read n ms =>
    rw [Win.step] at h
    split at h
    · next hc =>
      rw [hc] at hcloses
      cases hcloses
    · cases h
  | close =>
    rw [Win.step] at h
    split at h
    · next hc =>
      rw [hc] at hcloses
      cases hcloses
    · cases h
  | readFile started =>
    rw [Win.step, readFile] at h
    split at h
    · next hc =>
      rw [hc] at hcloses
      cases hcloses
    · cases h
  | wait ok =>
    rw [Win.step, wait] at h
    split at h
    · next hc =>
      rw [hc] at hcloses
      cases hcloses
    · cases h
  | hidReadTimeout =>
    rw [Win.step, hidReadTimeout] at h
    split at h
    case h_5 => cases h
    all_goals
      next hc =>
      rw [hc] at hcloses
      cases hcloses

theorem Quiet.safeFrom (hq : Quiet s) : SafeFrom s := by
  intro ls t hrun l u hstep o ho
  have hqt : Quiet t := Run.run_inv Win.step Quiet (fun _ _ => True)
    (fun _ _ _ hq _ hstep => (hq.step hstep).1) hq (Run.along_true Win.step s ls) hrun
  obtain ⟨-, rfl, hne⟩ := hqt.step hstep
  rw [hqt.freed]
  rw [Win.step, hidClose] at hstep
  split at hstep
  case h_4 hc =>
    simp only [Label.uses, hc, List.mem_singleton] at ho
    rw [hc, ho]
    simp [Caller.released]
  case h_5 => cases hstep
  all_goals
    next hc =>
    rw [hc]
    exact List.not_mem_nil

/-- A read that is still under way is answered after all is freed. -/
theorem not_safeFrom (hreq : s.request = .pending) (hc : s.caller = .closing .cancelling)
    (hfreed : s.freed = []) : ¬ SafeFrom s := by
  intro hsafe
  have hrun : Run.run step s [.hidClose, .hidClose, .hidClose, .hidClose] =
      some { s with freed := [.readBuf, .dev], caller := .closed } := by
    simp [Run.run, step, hidClose, hc, hfreed]
  have hstep : step { s with freed := [.readBuf, .dev], caller := .closed } (.complete .failed) =
      some (HidDevice.answer { s with freed := [.readBuf, .dev], caller := .closed } .failed) := by
    simp [step, complete, hreq, Outcome.bytes]
  exact hsafe _ _ hrun _ _ hstep .dev (by simp [Label.uses]) (by simp)

/-- **Closing.**  However a device has been used, `hid_close` and the driver touch nothing that has
been freed, whatever they do and in whatever order, if and only if the last `hid_read_timeout` was
not too early or its read is through by now.  In any case both objects are freed, each once. -/
theorem close_safe_iff (readBuf : List UInt8) {ls : List Label} {s t : HidDevice}
    (h : Run.run step (hidOpenPath readBuf) ls = some s) (hclose : step s .close = some t) :
    (SafeFrom t ↔ (s.returned.getLast? = some .timedOut → s.view.slot.held ≠ [])) ∧
      ∀ ms u, Run.run step t ms = some u →
        u.freed.Nodup ∧ (u.caller = .closed → u.freed = [.readBuf, .dev]) := by
  obtain ⟨hp, hk⟩ := kept_run h
  have hkt : Kept t := hk.step hp hclose
  rw [step] at hclose
  split at hclose
  · next hc =>
    cases hclose
    have hcaller := hp.caller
    rw [hc] at hcaller
    have hlast := hk.pending (by rw [hc]; rfl)
    have hanswered : s.request ≠ .pending ↔
        (s.returned.getLast? = some .timedOut → s.view.slot.held ≠ []) := by
      rw [← hlast]
      rcases hcaller with ⟨hno, hreq⟩ | ⟨hyes, ⟨hreq, -⟩ | ⟨⟨r, hreq⟩, -⟩⟩
      · simp [hno, hreq]
      · simp [hyes, hreq, HidDevice.view, OneSlot.Slot.held]
      · simp [hyes, hreq, HidDevice.view, OneSlot.Slot.held]
    refine ⟨?_, ?_⟩
    · rw [← hanswered]
      constructor
      · intro hsafe hreq
        exact not_safeFrom (s := { s with caller := .closing .cancelling }) hreq rfl hkt.freed hsafe
      · intro hne
        exact Quiet.safeFrom ⟨rfl, hne, hkt.freed⟩
    · intro ms u hu
      have hreached : Run.run step (hidOpenPath readBuf) (ls ++ .close :: ms) = some u := by
        rw [Run.run_append step h, Run.run_cons_of step (by rw [step, hc])]
        exact hu
      rw [(kept_run hreached).2.freed]
      refine ⟨?_, fun hcu => by rw [hcu]; rfl⟩
      cases u.caller with
      | closing place => cases place <;> simp [Caller.released]
      | _ => simp [Caller.released]
  · cases hclose

/-- A read that came too early is under way when the device is closed. -/
theorem close_safe_iff_early :
    ∃ s t, Run.run step (hidOpenPath [9, 9]) [.read 64 10, .hidReadTimeout, .readFile .pending,
        .wait false] = some s ∧ step s .close = some t ∧ ¬ SafeFrom t := by
  obtain ⟨s, hs⟩ := Option.isSome_iff_exists.mp
    (show (Run.run step (hidOpenPath [9, 9]) [.read 64 10, .hidReadTimeout, .readFile .pending,
      .wait false]).isSome from by decide +kernel)
  have hview : (Run.run step (hidOpenPath [9, 9]) [.read 64 10, .hidReadTimeout,
      .readFile .pending, .wait false]).map (fun s => (s.caller, s.returned, s.request)) =
      some (.idle, [.timedOut], .pending) := by decide +kernel
  rw [hs] at hview
  simp only [Option.map_some, Option.some.injEq, Prod.mk.injEq] at hview
  obtain ⟨hc, hr, hreq⟩ := hview
  have hclose : step s .close = some { s with caller := .closing .cancelling } := by
    rw [step, hc]
  refine ⟨s, _, hs, hclose, ?_⟩
  rw [(close_safe_iff [9, 9] hs hclose).1, hr]
  simp [HidDevice.view, hreq, OneSlot.Slot.held]

end TrezorPlugin.Win
