import TrezorPlugin.Fifo

/-!
# Sessions of reads over a hidapi

`Hidapi D L` is hidapi on some system, for one open device: `D` is the state of the device and of
hidapi, `L` a step that one of them takes.  A session is a sequence of reads of the plugin, with the
system at work during them and in between; it keeps the steps that were taken.

    what every poll keeps, between the device and the bytes received, every session keeps
                                                                  (ReadSession.inv_run)

and if no read has ended without its bytes, the last call of hidapi has brought a report
(`ReadSession.settled_run`).
-/

namespace TrezorPlugin

variable {τ δ D L : Type}

/-! ## What every poll of a read keeps -/

/-- A relation of the devices to the bytes received from them, kept by every poll, is kept by a
read. -/
theorem HIDBuffer.fill_inv (E : Env τ δ) (dev : Handle) (I : δ → List UInt8 → Prop)
    (hpoll : ∀ d t bytes, I d bytes →
      I (E.hidReadTimeout d dev t).2 (bytes ++ (E.hidReadTimeout d dev t).1.payload))
    (pre : List UInt8) (length : Nat) (timeout : Bool) (start : Int) (ts : List τ)
    (buf : HIDBuffer) (w : World δ) (h : I w.dev (pre ++ buf.bytes))
    (hdef : ∀ s', HIDBuffer.fill E dev length timeout start ts buf w ≠ .error .undefined s') :
    I (Exec.final (HIDBuffer.fill E dev length timeout start ts buf w)).world.dev
      (pre ++ (Exec.final (HIDBuffer.fill E dev length timeout start ts buf w)).buf.bytes) := by
  induction ts generalizing buf w with
  | nil =>
    rw [HIDBuffer.fill]
    split <;> exact h
  | cons t ts ih =>
    rcases Nat.lt_or_ge buf.bytes.length length with hlen | hlen
    · have hnext := hpoll w.dev t _ h
      rw [List.append_assoc] at hnext
      rcases HIDBuffer.fill_round E dev length timeout start t ts buf w hlen with
        ⟨buf', w', heq, hd, -, hb, -⟩ | ⟨e, w', heq, hd, -, hwhy⟩
      · rw [heq] at hdef ⊢
        apply ih buf' w' _ hdef
        rw [hd, hb]
        exact hnext
      · rw [heq] at hdef ⊢
        rcases hwhy with ⟨rfl, -⟩ | hg
        · exact absurd rfl (hdef _)
        · rw [hg.payload, List.append_nil] at hnext
          show I w'.dev (pre ++ buf.bytes)
          rw [hd]
          exact hnext
    · rw [HIDBuffer.fill, if_pos hlen]
      exact h

/-- The last poll of a read that gets its bytes has brought some of them, if there was a poll.  `J`
is what every poll keeps. -/
theorem HIDBuffer.fill_settled (E : Env τ δ) (dev : Handle) (J Q : δ → Prop)
    (hkeep : ∀ d t, J d → J (E.hidReadTimeout d dev t).2)
    (hpoll : ∀ d t, J d → (E.hidReadTimeout d dev t).1.payload ≠ [] →
      Q (E.hidReadTimeout d dev t).2)
    (length : Nat) (timeout : Bool) (start : Int) (ts : List τ) (buf : HIDBuffer) (w : World δ)
    (hj : J w.dev) (h : buf.bytes.length < length ∨ Q w.dev) {io : IoState τ δ}
    (hok : HIDBuffer.fill E dev length timeout start ts buf w = .ok () io) : Q io.world.dev := by
  induction ts generalizing buf w with
  | nil =>
    rw [HIDBuffer.fill] at hok
    split at hok
    · next hlen =>
      cases hok
      rcases h with hshort | hq
      · exact absurd hshort (Nat.not_lt.mpr hlen)
      · exact hq
    · cases hok
  | cons t ts ih =>
    rcases Nat.lt_or_ge buf.bytes.length length with hlen | hlen
    · rcases HIDBuffer.fill_round E dev length timeout start t ts buf w hlen with
        ⟨buf', w', heq, hd, -, hb, -⟩ | ⟨e, w', heq, -, -, -⟩
      · rw [heq] at hok
        have hj' : J w'.dev := by
          rw [hd]
          exact hkeep w.dev t hj
        refine ih buf' w' hj' ?_ hok
        by_cases hpay : (E.hidReadTimeout w.dev dev t).1.payload = []
        · rw [hb, hpay, List.append_nil]
          exact .inl hlen
        · rw [hd]
          exact .inr (hpoll w.dev t hj hpay)
      · rw [heq] at hok
        cases hok
    · rw [HIDBuffer.fill, if_pos hlen] at hok
      cases hok
      rcases h with hshort | hq
      · exact absurd hshort (Nat.not_lt.mpr hlen)
      · exact hq

/-! ## hidapi on a system -/

structure Hidapi (D L : Type) where
  /-- `hid_read_timeout(dev, chunk, 64, 10)`, if the steps are those of one call. -/
  readCall : D → List L → Option (ReadResult × D)
  /-- What the system does between two calls. -/
  between : D → List L → Option D

/-- hidapi by its steps: a call begins with `call` and goes on with the steps `inCall`, until `back`
has what it returned; `outside` are those the system takes by itself. -/
def Hidapi.ofSteps [DecidableEq L] (step : D → L → Option D) (call : L) (inCall outside : L → Bool)
    (back : D → Option ReadResult) : Hidapi D L where
  readCall d labels :=
    if labels.head? = some call ∧ labels.tail.all inCall then
      (Run.run step d labels).bind fun d' => (back d').map fun r => (r, d')
    else none
  between d labels := if labels.all outside then Run.run step d labels else none

section

variable [DecidableEq L] {step : D → L → Option D} {call : L} {inCall outside : L → Bool}
  {back : D → Option ReadResult} {d d' : D} {labels : List L}

theorem Hidapi.readCall_ofSteps {r : ReadResult}
    (h : (Hidapi.ofSteps step call inCall outside back).readCall d labels = some (r, d')) :
    ∃ sched, labels = call :: sched ∧ sched.all inCall = true ∧
      Run.run step d labels = some d' ∧ back d' = some r := by
  unfold Hidapi.ofSteps at h
  simp only [] at h
  split at h
  · next hcall =>
    obtain ⟨t, hrun, ht⟩ := Option.bind_eq_some_iff.mp h
    obtain ⟨r', hback, heq⟩ := Option.map_eq_some_iff.mp ht
    cases heq
    exact ⟨labels.tail, List.eq_cons_of_mem_head? hcall.1, hcall.2, hrun, hback⟩
  · cases h

theorem Hidapi.between_ofSteps
    (h : (Hidapi.ofSteps step call inCall outside back).between d labels = some d') :
    labels.all outside = true ∧ Run.run step d labels = some d' := by
  unfold Hidapi.ofSteps at h
  simp only [] at h
  split at h
  · next hon => exact ⟨hon, h⟩
  · cases h

end

/-- A device, and the steps it has taken with the system. -/
structure Served (D L : Type) where
  device : D
  steps : List L

/-- Steps that are not those of a call poll nothing. -/
def Hidapi.poll (H : Hidapi D L) (d : Served D L) (labels : List L) : ReadResult × Served D L :=
  match H.readCall d.device labels with
  | some (r, device) => (r, ⟨device, d.steps ++ labels⟩)
  | none => (.empty, d)

/-- The plugin's hidapi, with this one for its reads.  Whatever else is outside is as in `B`;
`hid_error` returns a null pointer. -/
def Hidapi.env (H : Hidapi D L) (B : Env τ δ) : Env (τ × List L) (δ × Served D L) where
  hidEnumerate d := ((B.hidEnumerate d.1).1, (B.hidEnumerate d.1).2, d.2)
  hidOpenPath d path := ((B.hidOpenPath d.1 path).1, (B.hidOpenPath d.1 path).2, d.2)
  hidSendFeatureReport d h data := (B.hidSendFeatureReport d.1 h data, d.2)
  hidClose d h := (B.hidClose d.1 h, d.2)
  hidWrite d h chunk := ((B.hidWrite d.1 h chunk).1, (B.hidWrite d.1 h chunk).2, d.2)
  hidReadTimeout d h t :=
    let (r, served) := H.poll d.2 t.2
    (r, (B.hidReadTimeout d.1 h t.1).2, served)
  hidError _ _ := none
  time d := B.time d.1
  interruptionRequested d := B.interruptionRequested d.1
  utf8Encode := B.utf8Encode

inductive ReadStep (τ L : Type)
  | between (labels : List L)
  /-- `HIDBuffer::read(dev, length, timeout)`, with these polls. -/
  | read (dev : Handle) (length : Nat) (timeout : Bool) (ticks : List (τ × List L))

structure ReadSession (δ D L : Type) where
  buf : HIDBuffer
  world : World (δ × Served D L)
  delivered : List UInt8
  /-- A read has ended without its bytes. -/
  gaveUp : Bool

def ReadSession.step (H : Hidapi D L) (B : Env τ δ) (s : ReadSession δ D L) :
    ReadStep τ L → Option (ReadSession δ D L)
  | .between labels =>
    (H.between s.world.dev.2.device labels).map fun device =>
      { s with
        world := ⟨(s.world.dev.1, ⟨device, s.world.dev.2.steps ++ labels⟩), s.world.trace⟩ }
  | .read dev length timeout ticks =>
    match HIDBuffer.read (H.env B) dev length timeout ⟨s.buf, s.world, ticks⟩ with
    | .ok bytes io => some ⟨io.buf, io.world, s.delivered ++ bytes, s.gaveUp⟩
    | .error .undefined _ => none
    | .error _ io => some ⟨io.buf, io.world, s.delivered, true⟩

/-- The device behind the session, with its steps. -/
def ReadSession.served (s : ReadSession δ D L) : Served D L := s.world.dev.2

def ReadSession.device (s : ReadSession δ D L) : D := s.served.device

/-- The steps that were taken, in the reads and in between. -/
def ReadSession.steps (s : ReadSession δ D L) : List L := s.served.steps

/-- What the plugin has got from the device. -/
def ReadSession.received (s : ReadSession δ D L) : List UInt8 := s.delivered ++ s.buf.bytes

/-- A read that is short enough. -/
def ReadStep.Short : ReadStep τ L → Prop
  | .between _ => True
  | .read _ length _ _ => length ≤ bufferSize - 62

section

variable (H : Hidapi D L) (B : Env τ δ) (I : Served D L → List UInt8 → Prop)
variable (hread : ∀ d labels r device bytes, I d bytes →
  H.readCall d.device labels = some (r, device) →
  I ⟨device, d.steps ++ labels⟩ (bytes ++ r.payload))
variable (hbetween : ∀ d labels device bytes, I d bytes → H.between d.device labels = some device →
  I ⟨device, d.steps ++ labels⟩ bytes)

include hread

theorem Hidapi.poll_inv {d : Served D L} (bytes : List UInt8) (h : I d bytes) (labels : List L) :
    I (H.poll d labels).2 (bytes ++ (H.poll d labels).1.payload) := by
  unfold Hidapi.poll
  split
  · next r device hcall => exact hread d labels r device bytes h hcall
  · rw [show ReadResult.empty.payload = [] from rfl, List.append_nil]
    exact h

/-- A read that is short enough keeps what every call keeps, whatever its exit. -/
theorem ReadSession.read_inv {s : ReadSession δ D L} (h : I s.served s.received) (dev : Handle)
    {length : Nat} (hlength : length ≤ bufferSize - 62) (timeout : Bool)
    (ticks : List (τ × List L)) :
    ∃ s', s.step H B (.read dev length timeout ticks) = some s' ∧ I s'.served s'.received := by
  have hshort : length + 62 ≤ bufferSize := by
    have : bufferSize = 2048 := rfl
    omega
  have hdef := (HIDBuffer.fill_filled (H.env B) dev hshort timeout
    ((H.env B).time s.world.dev) ticks s.buf s.world).defined
  have hfill := HIDBuffer.fill_inv (H.env B) dev (fun d bytes => I d.2 bytes)
    (fun d t bytes hd => H.poll_inv I hread bytes hd t.2) s.delivered length timeout
    ((H.env B).time s.world.dev) ticks s.buf s.world h hdef
  unfold ReadSession.step HIDBuffer.read
  simp only []
  cases heq : HIDBuffer.fill (H.env B) dev length timeout ((H.env B).time s.world.dev) ticks
    s.buf s.world with
  | ok u io =>
    rw [heq] at hfill
    refine ⟨_, rfl, ?_⟩
    show I io.world.dev.2 (s.delivered ++ io.buf.bytes.take length ++ io.buf.bytes.drop length)
    rw [List.append_assoc, List.take_append_drop]
    exact hfill
  | error e io =>
    rw [heq] at hfill hdef
    cases e with
    | undefined => exact absurd rfl (hdef io)
    | throws e => exact ⟨_, rfl, hfill⟩
    | threadInterrupted => exact ⟨_, rfl, hfill⟩
    | pending => exact ⟨_, rfl, hfill⟩

include hbetween

/-- **Sessions.**  What every call of hidapi keeps, every session of short enough reads keeps. -/
theorem ReadSession.inv_run {s t : ReadSession δ D L} {steps : List (ReadStep τ L)}
    (hs : I s.served s.received) (hshort : ∀ x ∈ steps, x.Short)
    (hrun : Run.run (ReadSession.step H B) s steps = some t) : I t.served t.received :=
  Run.run_inv (ReadSession.step H B) (fun s => I s.served s.received) (fun _ x => x.Short)
    (fun s x t h hx hstep => by
      cases x with
      | between labels =>
        obtain ⟨device, hdevice, rfl⟩ := Option.map_eq_some_iff.mp hstep
        exact hbetween s.served labels device _ h hdevice
      | read dev length timeout ticks =>
        obtain ⟨t', ht', hinv⟩ := ReadSession.read_inv H B I hread h dev hx timeout ticks
        rw [hstep] at ht'
        cases ht'
        exact hinv)
    hs (Run.along_of_forall (ReadSession.step H B) ReadStep.Short hshort _) hrun

end

section

variable (H : Hidapi D L) (B : Env τ δ) (J : Served D L → Prop) (Q : D → Prop)
variable (hkeep : ∀ d labels r device, J d → H.readCall d.device labels = some (r, device) →
  J ⟨device, d.steps ++ labels⟩)
variable (hread : ∀ d labels r device, J d → H.readCall d.device labels = some (r, device) →
  r.payload ≠ [] → Q device)

include hkeep hread

/-- A read that has got its bytes, and began where `Q` holds unless one before was given up, leaves
`Q` behind. -/
theorem ReadSession.read_settled {s t : ReadSession δ D L} (hj : J s.served)
    (hq : s.gaveUp = false → Q s.device) (dev : Handle) (length : Nat) (timeout : Bool)
    (ticks : List (τ × List L)) (hstep : s.step H B (.read dev length timeout ticks) = some t)
    (ht : t.gaveUp = false) : Q t.device := by
  have hkept : ∀ d labels, J d → J (H.poll d labels).2 := fun d labels hd =>
    H.poll_inv (fun d _ => J d) (fun d labels r device _ => hkeep d labels r device) [] hd labels
  have hbrought : ∀ d labels, J d → (H.poll d labels).1.payload ≠ [] →
      Q (H.poll d labels).2.device := by
    intro d labels hd hpay
    unfold Hidapi.poll at hpay ⊢
    split at hpay
    · next r device hcall => exact hread d labels r device hd hcall hpay
    · exact absurd rfl hpay
  unfold ReadSession.step HIDBuffer.read at hstep
  simp only [] at hstep
  cases heq : HIDBuffer.fill (H.env B) dev length timeout ((H.env B).time s.world.dev) ticks
    s.buf s.world with
  | ok u io =>
    rw [heq] at hstep
    cases hstep
    exact HIDBuffer.fill_settled (H.env B) dev (fun d => J d.2) (fun d => Q d.2.device)
      (fun d t hd => hkept d.2 t.2 hd) (fun d t hd hpay => hbrought d.2 t.2 hd hpay) length
      timeout _ ticks s.buf s.world hj (.inr (hq ht)) heq
  | error e io =>
    rw [heq] at hstep
    cases e with
    | undefined => cases hstep
    | throws | threadInterrupted | pending =>
      cases hstep
      cases ht

/-- **No read given up.**  What holds of the device after every call that brought bytes, and stays
when the system goes on, holds after a session in which each read has got its bytes. -/
theorem ReadSession.settled_run
    (hbetween : ∀ d labels device, J d → H.between d.device labels = some device →
      J ⟨device, d.steps ++ labels⟩ ∧ (Q d.device → Q device))
    {s t : ReadSession δ D L} {steps : List (ReadStep τ L)} (hj : J s.served) (hs : Q s.device)
    (hshort : ∀ x ∈ steps, x.Short)
    (hrun : Run.run (ReadSession.step H B) s steps = some t) (ht : t.gaveUp = false) :
    Q t.device := by
  have hinv := Run.run_inv (ReadSession.step H B)
    (fun s => J s.served ∧ (s.gaveUp = false → Q s.device)) (fun _ x => x.Short)
    (fun s x t h hx hstep => by
      obtain ⟨hj, hq⟩ := h
      cases x with
      | between labels =>
        obtain ⟨device, hdevice, rfl⟩ := Option.map_eq_some_iff.mp hstep
        obtain ⟨hj', hq'⟩ := hbetween s.served labels device hj hdevice
        exact ⟨hj', fun hg => hq' (hq hg)⟩
      | read dev length timeout ticks =>
        obtain ⟨t', ht', hj'⟩ := ReadSession.read_inv H B (fun d _ => J d)
          (fun d labels r device _ => hkeep d labels r device) hj dev hx timeout ticks
        obtain rfl := Option.some.inj (hstep.symm.trans ht')
        exact ⟨hj', ReadSession.read_settled H B J Q hkeep hread hj hq dev length timeout ticks
          hstep⟩)
    ⟨hj, fun _ => hs⟩ (Run.along_of_forall (ReadSession.step H B) ReadStep.Short hshort s) hrun
  exact hinv.2 ht

end

end TrezorPlugin
