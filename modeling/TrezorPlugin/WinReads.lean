import TrezorPlugin.WinHid

/-!
# The reads of a device on Windows (Win/hid.c)

A call that times out leaves its read to the next one, so a report is never lost and never read
twice, however the calls and the driver interleave:

    collected ++ held = what became of the reads
    delivered = collected, without a report number 0, cut to what each call asked for
                                                                    (reads_in_order)

What a call returns is the length of the report all the same, also when it has copied less.
-/

namespace TrezorPlugin.Win

/-! ## What a call makes of a report -/

/-- Windows puts a report number 0 in front of a report without one. -/
def stripped : List UInt8 → List UInt8
  | 0 :: data => data
  | data => data

def Outcome.result (n : Nat) : Outcome → Returned
  | .report data => .got (stripped data).length ((stripped data).take n)
  | .failed => .failed

theorem copyOut_take (readBuf : List UInt8) (m n : Nat) :
    copyOut readBuf m n = copyOut (readBuf.take m) m n := by
  unfold copyOut
  by_cases hm : 0 < m
  · rw [if_pos hm, if_pos hm]
    have hfront : (readBuf.take m).getD 0 0 = readBuf.getD 0 0 := by
      rw [List.getD_eq_getElem?_getD, List.getD_eq_getElem?_getD, List.getElem?_take_of_lt hm]
    rw [hfront]
    have hmin : ∀ k, (if n > k then k else n) ≤ k := by
      intro k
      split <;> omega
    split
    · have := hmin (m - 1)
      simp only [List.drop_take, List.take_take, Nat.min_eq_left this]
    · simp only [List.take_take, Nat.min_eq_left (hmin m)]
  · rw [if_neg hm, if_neg hm]

theorem copyOut_eq (data : List UInt8) (n : Nat) :
    copyOut data data.length n = .got (stripped data).length ((stripped data).take n) := by
  have hmin : ∀ (l : List UInt8), l.take (if n > l.length then l.length else n) = l.take n := by
    intro l
    split
    · next hn => rw [List.take_length, List.take_of_length_le (Nat.le_of_lt hn)]
    · rfl
  cases data with
  | nil => simp [copyOut, stripped]
  | cons b data =>
    unfold copyOut
    rw [if_pos (by simp)]
    by_cases hb : b = 0
    · subst hb
      simp only [List.getD_cons_zero, if_true, List.length_cons, Nat.add_sub_cancel, List.drop_one,
        List.tail_cons, hmin, stripped]
    · have hs : stripped (b :: data) = b :: data := by
        unfold stripped
        split
        · next heq =>
          cases heq
          exact absurd rfl hb
        · rfl
      rw [hs, List.getD_cons_zero, if_neg hb]
      simp only [hmin]

/-- What a call has copied and returns is the outcome that it read off the buffer. -/
theorem Placed.result_eq {s : HidDevice} (hp : Placed s) {transferred : Option Nat}
    (hreq : s.request = .done transferred) (n : Nat) :
    s.result n transferred = (s.outcome transferred).result n := by
  cases transferred with
  | none => rfl
  | some m =>
    have hm : m ≤ s.readBuf.length := hp.transferred m hreq
    have hlen : (s.readBuf.take m).length = m := List.length_take_of_le hm
    have := copyOut_eq (s.readBuf.take m) n
    rw [hlen] at this
    rw [HidDevice.result, copyOut_take, this]
    rfl

/-! ## What a step adds -/

theorem Outcome.result_ne (o : Outcome) (n : Nat) : o.result n ≠ .timedOut := by
  cases o <;> simp [Outcome.result]

/-- What the calls came back with that were not too early. -/
def HidDevice.delivered (s : HidDevice) : List Returned := s.returned.filter (· ≠ .timedOut)

/-- What becomes of a read by this step. -/
def Label.outcomes : Label → List Outcome
  | .complete o => [o]
  | .readFile (.finished data) => [.report data]
  | .readFile .refused => [.failed]
  | _ => []

variable {s t : HidDevice}

/-- A step that belongs to a call of `hid_read_timeout`, from its beginning on. -/
def Label.inCall : Label → Bool
  | .read _ _ => false
  | .close => false
  | .hidClose => false
  | _ => true

/-- No call comes or goes. -/
def Caller.Same (c c' : Caller) : Prop :=
  c' = c ∨ ∃ n ms place place', c = .reading n ms place ∧ c' = .reading n ms place'

/-- A step finds nothing, or it ends a call, too early or with an outcome. -/
inductive Found (s : HidDevice) (l : Label) (t : HidDevice) : Prop
  | nothing : (l.inCall = true → s.caller.Same t.caller) → t.collected = s.collected →
      t.returned = s.returned → Found s l t
  | tooEarly (n : Nat) (ms : Int) (place : Reading) : s.caller = .reading n ms place →
      t.caller = .idle → t.collected = s.collected → t.returned = s.returned ++ [.timedOut] →
      Found s l t
  | outcome (o : Outcome) (n : Nat) (ms : Int) (place : Reading) : s.caller = .reading n ms place →
      t.caller = .idle → t.collected = s.collected ++ [(o, n)] →
      t.returned = s.returned ++ [o.result n] → Found s l t

/-- The call goes on. -/
theorem Found.on {l : Label} {n : Nat} {ms : Int} {place place' : Reading}
    (hc : s.caller = .reading n ms place) (ht : t.caller = .reading n ms place')
    (hcollected : t.collected = s.collected) (hreturned : t.returned = s.returned) : Found s l t :=
  .nothing (fun _ => .inr ⟨n, ms, place, place', hc, ht⟩) hcollected hreturned

theorem found_fetch {l : Label} (hp : Placed s) {transferred : Option Nat}
    (hreq : s.request = .done transferred) {n : Nat} {ms : Int} {place : Reading}
    (hc : s.caller = .reading n ms place) (signaled : Bool) :
    Found s l (({ s with signaled := signaled } : HidDevice).fetch n transferred) := by
  refine .outcome (s.outcome transferred) n ms place hc rfl rfl ?_
  rw [← hp.result_eq hreq n]
  rfl

theorem step_found {l : Label} (hp : Placed s) (h : step s l = some t) :
    Found s l t ∧ t.outcomes = s.outcomes ++ l.outcomes := by
  cases l with
  | complete o =>
    rw [step, complete] at h
    split at h
    · split at h <;> cases h
      exact ⟨.nothing (fun _ => .inl rfl) rfl rfl, rfl⟩
    · cases h
  | readFile started =>
    rw [step, readFile] at h
    split at h
    · next n ms hc =>
      cases started with
      | pending =>
        cases h
        exact ⟨.on hc rfl rfl rfl, (List.append_nil _).symm⟩
      | finished data =>
        simp only [] at h
        split at h <;> cases h
        exact ⟨.on hc rfl rfl rfl, rfl⟩
      | refused =>
        cases h
        exact ⟨.outcome .failed n ms .starting hc rfl rfl rfl, rfl⟩
    · cases h
  | wait ok =>
    rw [step, wait] at h
    split at h
    · next n ms hc =>
      split at h
      · split at h
        · split at h <;> cases h
          exact ⟨.on hc rfl rfl rfl, (List.append_nil _).symm⟩
        · cases h
          exact ⟨.tooEarly n ms .waiting hc rfl (List.append_nil _) rfl, (List.append_nil _).symm⟩
      · cases h
    · cases h
  | hidReadTimeout =>
    rw [step, hidReadTimeout] at h
    split at h
    · next hc =>
      split at h <;> cases h <;> exact ⟨.on hc rfl rfl rfl, (List.append_nil _).symm⟩
    · next hc =>
      split at h <;> cases h
      exact ⟨.on hc rfl rfl rfl, (List.append_nil _).symm⟩
    · next hc =>
      split at h
      · cases h
      · cases h
        exact ⟨.on hc rfl rfl rfl, (List.append_nil _).symm⟩
      · next hreq =>
        cases h
        exact ⟨found_fetch hp hreq hc s.signaled, (List.append_nil _).symm⟩
    · next hc =>
      split at h
      · next hreq =>
        split at h <;> cases h
        exact ⟨found_fetch hp hreq hc false, (List.append_nil _).symm⟩
      · cases h
    · cases h
  | hidClose =>
    rw [step, hidClose] at h
    split at h <;> cases h <;> exact ⟨.nothing Bool.noConfusion rfl rfl, (List.append_nil _).symm⟩
  | read n ms =>
    rw [step] at h
    split at h <;> cases h
    exact ⟨.nothing Bool.noConfusion rfl rfl, (List.append_nil _).symm⟩
  | close =>
    rw [step] at h
    split at h <;> cases h
    exact ⟨.nothing Bool.noConfusion rfl rfl, (List.append_nil _).symm⟩

/-! ## Runs -/

/-- The results are those of the outcomes found. -/
def HidDevice.Reported (s : HidDevice) : Prop :=
  s.delivered = s.collected.map fun x => x.1.result x.2

theorem HidDevice.Reported.step {l : Label} (hr : s.Reported) (hp : Placed s)
    (h : Win.step s l = some t) : t.Reported := by
  unfold HidDevice.Reported HidDevice.delivered at hr ⊢
  rcases (step_found hp h).1 with ⟨-, hc, hret⟩ | ⟨n, ms, place, -, -, hc, hret⟩ |
    ⟨o, n, ms, place, -, -, hc, hret⟩
  · rw [hc, hret, hr]
  · rw [hc, hret, List.filter_append, hr]
    simp
  · rw [hc, hret, List.filter_append, hr]
    simp [Outcome.result_ne]

/-- What becomes of the reads, over the steps of a run. -/
def Recorded (s : HidDevice) (ls : List Label) (t : HidDevice) : Prop :=
  Placed t ∧ t.outcomes = s.outcomes ++ ls.flatMap Label.outcomes

theorem Recorded.step {u : HidDevice} {ls : List Label} {l : Label} (h : Recorded s ls t)
    (hu : Win.step t l = some u) : Recorded s (ls ++ [l]) u := by
  refine ⟨(h.1.step hu).1, ?_⟩
  rw [(step_found h.1 hu).2, h.2, List.flatMap_append, List.flatMap_singleton, List.append_assoc]

theorem outcomes_run {ls : List Label} (hp : Placed s) (h : Run.run step s ls = some t) :
    t.outcomes = s.outcomes ++ ls.flatMap Label.outcomes := by
  have hstart : Recorded s [] s := ⟨hp, (List.append_nil _).symm⟩
  have hinv : Recorded s ([] ++ ls) t := Run.run_inv_labels step (Recorded s) (fun _ _ => True)
    (fun _ _ _ _ hI _ hstep => hI.step hstep) hstart (Run.along_true step s ls) h
  exact hinv.2

theorem reported_run {readBuf : List UInt8} {ls : List Label}
    (h : Run.run step (hidOpenPath readBuf) ls = some s) : s.Reported := by
  have hinv := Run.run_inv step (fun s => Placed s ∧ s.Reported) (fun _ _ => True)
    (fun s l t hI _ hstep => ⟨(hI.1.step hstep).1, hI.2.step hI.1 hstep⟩)
    ⟨placed_hidOpenPath readBuf, rfl⟩ (Run.along_true step _ ls) h
  exact hinv.2

/-- What the calls have found and what is held is what became of the reads. -/
theorem collected_run {readBuf : List UInt8} {ls : List Label}
    (h : Run.run step (hidOpenPath readBuf) ls = some s) :
    s.collected.map Prod.fst ++ s.view.slot.held = s.outcomes := by
  obtain ⟨-, acts, hacts⟩ := placed_run h
  exact OneSlot.sound_run (s := ⟨.free, [], []⟩) rfl hacts

/-- The buffer is cleared, or handed to `ReadFile`. -/
def Label.fills (s : HidDevice) : Label → Bool
  | .readFile _ => true
  | .hidReadTimeout =>
    match s.caller with
    | .reading _ _ .testing => !s.readPending
    | _ => false
  | _ => false

/-- A step of the call itself. -/
def Label.Own : Label → Prop
  | .readFile _ => True
  | .wait _ => True
  | .hidReadTimeout => True
  | _ => False

theorem Placed.free_of_fills {l : Label} (hp : Placed s) (h : Win.step s l = some t)
    (hl : l.fills s = true) : s.request = .none := by
  have hcaller := hp.caller
  cases l with
  | readFile started =>
    rw [Win.step, Win.readFile] at h
    split at h
    · next hc =>
      rw [hc] at hcaller
      exact hcaller.2.1
    · cases h
  | hidReadTimeout =>
    simp only [Label.fills] at hl
    split at hl
    · next hc =>
      rw [hc] at hcaller
      rcases hcaller with ⟨-, hreq⟩ | ⟨hpending, -⟩
      · exact hreq
      · rw [hpending] at hl
        cases hl
    · cases hl
  | _ => cases hl

/-- A call is stuck exactly while it waits without a timeout for a read under way. -/
theorem Placed.stuck_iff (hp : Placed s) {n : Nat} {ms : Int} {place : Reading}
    (hc : s.caller = .reading n ms place) :
    (∀ l, l.Own → Win.step s l = none) ↔ place = .blocked ∧ s.request = .pending := by
  have hcaller := hp.caller
  rw [hc] at hcaller
  constructor
  · intro hstuck
    have hauto : Win.hidReadTimeout s = none := hstuck .hidReadTimeout trivial
    unfold Win.hidReadTimeout at hauto
    rw [hc] at hauto
    cases place with
    | testing =>
      simp only [] at hauto
      split at hauto <;> cases hauto
    | starting =>
      have hstart : Win.readFile s .pending = none := hstuck (.readFile .pending) trivial
      rw [Win.readFile, hc] at hstart
      cases hstart
    | waiting =>
      simp only [] at hauto
      split at hauto
      · next hms =>
        have hwait : Win.wait s false = none := hstuck (.wait false) trivial
        rw [Win.wait, hc] at hwait
        simp only [if_pos hms] at hwait
        cases hwait
      · cases hauto
    | getting =>
      simp only [] at hauto
      split at hauto
      · next hreq =>
        obtain ⟨-, hk⟩ := hcaller
        split at hk
        · obtain ⟨r, hr⟩ := hk
          rw [hreq] at hr
          cases hr
        · rcases hk with ⟨hr, -⟩ | ⟨⟨r, hr⟩, -⟩ <;> rw [hreq] at hr <;> cases hr
      · cases hauto
      · cases hauto
    | blocked =>
      refine ⟨rfl, ?_⟩
      rcases hcaller.2.2 with ⟨hreq, -⟩ | ⟨⟨r, hreq⟩, hsignaled⟩
      · exact hreq
      · simp only [hreq, hsignaled, if_true] at hauto
        cases hauto
  · rintro ⟨rfl, hreq⟩ l hl
    cases l with
    | readFile started => rw [Win.step, Win.readFile, hc]
    | wait ok => rw [Win.step, Win.wait, hc]
    | hidReadTimeout => rw [Win.step, Win.hidReadTimeout, hc, hreq]
    | _ => exact hl.elim

/-- **Reports in order, across time-outs.**  In every interleaving of the calls and the driver, what
became of the reads is what the calls have found, in order, and at most one outcome that no call has
come back for; the calls that were not too early returned just that.  The buffer is only cleared and
handed over with no read in it.  A call with a timeout never waits for anything else, and one
without is stuck exactly while its read is under way. -/
theorem reads_in_order (readBuf : List UInt8) {ls : List Label} {s : HidDevice}
    (h : Run.run step (hidOpenPath readBuf) ls = some s) :
    s.collected.map Prod.fst ++ s.view.slot.held = ls.flatMap Label.outcomes ∧
      s.delivered = s.collected.map (fun x => x.1.result x.2) ∧
      (∀ l t, step s l = some t → l.fills s = true → s.request = .none) ∧
      ∀ n ms place, s.caller = .reading n ms place →
        (place = .blocked → ms < 0) ∧
          ((∀ l, l.Own → step s l = none) ↔ place = .blocked ∧ s.request = .pending) := by
  have hp := (placed_run h).1
  refine ⟨(collected_run h).trans (outcomes_run (placed_hidOpenPath readBuf) h), reported_run h,
    fun l t hstep hl => hp.free_of_fills hstep hl, ?_⟩
  intro n ms place hc
  refine ⟨?_, hp.stuck_iff hc⟩
  rintro rfl
  have hcaller := hp.caller
  rw [hc] at hcaller
  exact hcaller.1

/-- The first call is too early; the report comes in between, and the second call finds it. -/
def lateReport : List Label :=
  [.read 64 10, .hidReadTimeout, .readFile .pending, .wait false, .complete (.report [0, 63, 5]),
    .read 64 10, .hidReadTimeout, .wait true, .hidReadTimeout]

theorem reads_in_order_late :
    ∃ s, Run.run step (hidOpenPath [9, 9, 9]) lateReport = some s ∧
      s.returned = [.timedOut, .got 2 [63, 5]] ∧
      s.collected.map Prod.fst ++ s.view.slot.held = [.report [0, 63, 5]] := by
  obtain ⟨s, hs⟩ := Option.isSome_iff_exists.mp
    (show (Run.run step (hidOpenPath [9, 9, 9]) lateReport).isSome from by decide +kernel)
  have hr : (Run.run step (hidOpenPath [9, 9, 9]) lateReport).map (·.returned) =
      some [.timedOut, .got 2 [63, 5]] := by decide +kernel
  rw [hs] at hr
  exact ⟨s, hs, Option.some.inj hr, (reads_in_order [9, 9, 9] hs).1⟩

end TrezorPlugin.Win
