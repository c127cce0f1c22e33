import TrezorPlugin.Channel

/-!
# Reads over polls that are given in advance

The device here is a list of poll outcomes, each with the clock when it is back.
`DeviceChannel.read` is a sequence of reads from the buffer, each with a clock of
its own: it starts when the bytes handed out before have all arrived, and gives up
at a poll that finds nothing more than `_read_timeout` after that (`Traced`).  So

    no poll comes late by the clock  (OnTime)  →  no timeout        (read_on_time)
-/

namespace TrezorPlugin

open Framing

/-! ## A device whose polls are given in advance -/

/-- What `hid_read_timeout` returns, and the clock when it is back. -/
structure Poll where
  result : ReadResult
  clock : Int
  deriving DecidableEq

/-- hidapi over a fixed list of polls; every write is accepted. -/
def scriptEnv (err : Option WString) (utf8Encode : WString → Except Exception String) :
    Env Poll Int where
  hidEnumerate now := ([], now)
  hidOpenPath now _ := (some 0, now)
  hidSendFeatureReport now _ _ := now
  hidClose now _ := now
  hidWrite now _ chunk := (chunk.length, now)
  hidReadTimeout _ _ t := (t.result, t.clock)
  hidError _ _ := err
  time now := now
  interruptionRequested _ := false
  utf8Encode := utf8Encode

/-- The payload bytes of a list of polls. -/
def payloads (polls : List Poll) : List UInt8 := polls.flatMap (·.result.payload)

variable (err : Option WString) (enc : WString → Except Exception String)

def scriptFeed : Feed (scriptEnv err enc) where
  stream _ ts := payloads ts
  poll _ _ _ _ := rfl

theorem scriptFeed_unread (s : IoState Poll Int) :
    (scriptFeed err enc).unread s = s.buf.bytes ++ payloads s.ticks := rfl

theorem scriptFeed_coming (s : IoState Poll Int) :
    (scriptFeed err enc).coming s = payloads s.ticks := rfl

@[simp] theorem payloads_append (ts us : List Poll) :
    payloads (ts ++ us) = payloads ts ++ payloads us := List.flatMap_append

/-- The clock after some polls. -/
def clockAfter (now : Int) (polls : List Poll) : Int :=
  polls.foldl (fun _ t => t.clock) now

theorem clockAfter_append (now : Int) (ts us : List Poll) :
    clockAfter now (ts ++ us) = clockAfter (clockAfter now ts) us := List.foldl_append

variable {Msg : Type} (P : Protobuf Msg) (pool : DescriptorPool) (dev : Handle)
variable {err enc}

/-- A script without device errors only halts a read by its end, an overflow or a timeout. -/
theorem Halted.script {dev : Handle} {timeout : Bool} {s s' : IoState Poll Int} {e : Stop}
    (hts : ∀ t ∈ s.ticks, t.result ≠ .error)
    (h : Halted (scriptFeed err enc) dev timeout s e s') :
    e = .pending ∨ e = .undefined ∨ e = .throws .readTimeout := by
  rcases h.why with h | h | ⟨s0, rcv0, polls, t, hp, -, hts0, hg, -⟩
  · exact .inl h
  · exact .inr (.inl h)
  · cases hg with
    | timedOut => exact .inr (.inr rfl)
    | interrupted _ _ hi => cases hi
    | device e hr =>
      exact absurd hr (hts t (hp.suffix.subset (by rw [hts0]; simp)))

/-! ## One buffer read -/

/-- How the buffering loop with a timeout stops that began at `start` with the bytes of `buf` and the
polls `ts` to come. -/
inductive Waited (buf : HIDBuffer) (start : Int) (ts : List Poll) :
    Stop → IoState Poll Int → Prop
  | overflow (s' : IoState Poll Int) : Waited buf start ts .undefined s'
  /-- No poll that found nothing came late. -/
  | pending (s' : IoState Poll Int) : s'.ticks = [] →
      s'.buf.bytes = buf.bytes ++ payloads ts →
      (∀ t ∈ ts, t.result = .empty → t.clock - start ≤ buf.readTimeout) →
      Waited buf start ts .pending s'
  | timedOut (s' : IoState Poll Int) (polls : List Poll) (t : Poll) :
      ts = polls ++ t :: s'.ticks → s'.buf.bytes = buf.bytes ++ payloads polls →
      t.result = .empty → buf.readTimeout < t.clock - start →
      Waited buf start ts (.throws .readTimeout) s'

/-- `s'` comes after `s` with the bytes `gone` handed out, and each poll in between was made before
they had all arrived. -/
structure Handed (s s' : IoState Poll Int) (gone : List UInt8) : Prop where
  limit : s'.buf.readTimeout = s.buf.readTimeout
  polled : ∃ polls, s.ticks = polls ++ s'.ticks ∧ s'.world.dev = clockAfter s.world.dev polls ∧
    s.buf.bytes ++ payloads polls = gone ++ s'.buf.bytes ∧
    ∀ before t after, polls = before ++ t :: after →
      (s.buf.bytes ++ payloads before).length < gone.length

theorem Handed.refl (s : IoState Poll Int) : Handed s s [] :=
  ⟨rfl, [], rfl, rfl, List.append_nil _, fun before t after h => by simp at h⟩

theorem Handed.trans {s s' s'' : IoState Poll Int} {gone gone' : List UInt8}
    (h : Handed s s' gone) (h' : Handed s' s'' gone') : Handed s s'' (gone ++ gone') := by
  obtain ⟨hl, polls, hts, hdev, hbytes, hshort⟩ := h
  obtain ⟨hl', polls', hts', hdev', hbytes', hshort'⟩ := h'
  refine ⟨hl'.trans hl, polls ++ polls', ?_, ?_, ?_, ?_⟩
  · rw [hts, hts', List.append_assoc]
  · rw [hdev', hdev, clockAfter_append]
  · rw [payloads_append, ← List.append_assoc, hbytes, List.append_assoc, hbytes', List.append_assoc]
  · intro before t after hp
    rw [@List.length_append _ gone]
    rcases List.append_eq_append_iff.mp hp with ⟨mid, rfl, hmid⟩ | ⟨mid, rfl, hmid⟩
    · -- the poll is one of the second part
      have := hshort' mid t after hmid
      rw [payloads_append, ← List.append_assoc, hbytes]
      simp only [List.length_append] at this ⊢
      omega
    · cases mid with
      | nil =>
        have := hshort' [] t after hmid.symm
        rw [List.append_nil] at hbytes
        rw [hbytes, List.length_append]
        simp only [payloads, List.flatMap_nil, List.append_nil] at this
        omega
      | cons u mid =>
        cases hmid
        have := hshort before t mid rfl
        omega

/-- A loop that returns, after polls each made for want of bytes. -/
structure Buffered (length : Nat) (buf : HIDBuffer) (now : Int) (ts : List Poll)
    (s' : IoState Poll Int) : Prop where
  limit : s'.buf.readTimeout = buf.readTimeout
  enough : length ≤ s'.buf.bytes.length
  polled : ∃ polls, ts = polls ++ s'.ticks ∧ s'.world.dev = clockAfter now polls ∧
    s'.buf.bytes = buf.bytes ++ payloads polls ∧
    ∀ before t after, polls = before ++ t :: after →
      (buf.bytes ++ payloads before).length < length

theorem Buffered.cons {length : Nat} {buf buf' : HIDBuffer} {now : Int} {t : Poll} {ts : List Poll}
    {s' : IoState Poll Int} (hlen : buf.bytes.length < length)
    (hbytes : buf'.bytes = buf.bytes ++ t.result.payload)
    (hlimit : buf'.readTimeout = buf.readTimeout) (h : Buffered length buf' t.clock ts s') :
    Buffered length buf now (t :: ts) s' := by
  obtain ⟨hl, henough, polls, hts, hdev, hb, hshort⟩ := h
  refine ⟨hl.trans hlimit, henough, t :: polls, congrArg (t :: ·) hts, hdev, ?_, ?_⟩
  · rw [hb, hbytes, List.append_assoc]
    rfl
  · intro before u after hp
    cases before with
    | nil => simpa [payloads] using hlen
    | cons v before =>
      cases hp
      have := hshort before u after rfl
      rw [hbytes, List.append_assoc] at this
      exact this

theorem Waited.cons {buf buf' : HIDBuffer} {start : Int} {t : Poll} {ts : List Poll} {e : Stop}
    {s' : IoState Poll Int} (hbytes : buf'.bytes = buf.bytes ++ t.result.payload)
    (hlimit : buf'.readTimeout = buf.readTimeout)
    (ht : t.result = .empty → t.clock - start ≤ buf.readTimeout) (h : Waited buf' start ts e s') :
    Waited buf start (t :: ts) e s' := by
  cases h with
  | overflow => exact .overflow s'
  | pending _ hticks hb hquiet =>
    refine .pending s' hticks ?_ (List.forall_mem_cons.mpr ⟨ht, ?_⟩)
    · rw [hb, hbytes, List.append_assoc]
      rfl
    · rwa [hlimit] at hquiet
  | timedOut _ polls u hts hb hu hlate =>
    refine .timedOut s' (t :: polls) u (congrArg (t :: ·) hts) ?_ hu (hlimit ▸ hlate)
    rw [hb, hbytes, List.append_assoc]
    rfl

/-- The buffering loop, with no device errors to come. -/
theorem fill_handed (length : Nat) (start : Int) (ts : List Poll) (buf : HIDBuffer) (w : World Int)
    (hts : ∀ t ∈ ts, t.result ≠ .error) :
    (∃ s', HIDBuffer.fill (scriptEnv err enc) dev length true start ts buf w = .ok () s' ∧
      Buffered length buf w.dev ts s') ∨
    (∃ e s', HIDBuffer.fill (scriptEnv err enc) dev length true start ts buf w = .error e s' ∧
      Waited buf start ts e s') := by
  induction ts generalizing buf w with
  | nil =>
    rw [HIDBuffer.fill]
    split
    · next hlen =>
      exact .inl ⟨_, rfl, rfl, hlen, [], rfl, rfl, (List.append_nil _).symm,
        fun before t after h => by simp at h⟩
    · exact .inr ⟨_, _, rfl, .pending _ rfl (List.append_nil _).symm (by simp)⟩
  | cons t ts ih =>
    rw [List.forall_mem_cons] at hts
    rw [HIDBuffer.fill]
    split
    · next hlen =>
      exact .inl ⟨_, rfl, rfl, hlen, [], rfl, rfl, (List.append_nil _).symm,
        fun before t after h => by simp at h⟩
    · next hlen =>
      have hgo : ∀ buf' : HIDBuffer, ∀ w' : World Int, w'.dev = t.clock →
          buf'.bytes = buf.bytes ++ t.result.payload → buf'.readTimeout = buf.readTimeout →
          (t.result = .empty → t.clock - start ≤ buf.readTimeout) →
          (∃ s', HIDBuffer.fill (scriptEnv err enc) dev length true start ts buf' w' = .ok () s' ∧
            Buffered length buf w.dev (t :: ts) s') ∨
          (∃ e s', HIDBuffer.fill (scriptEnv err enc) dev length true start ts buf' w' =
            .error e s' ∧ Waited buf start (t :: ts) e s') := by
        intro buf' w' hdev hbytes hlimit ht
        rcases ih buf' w' hts.2 with ⟨s', heq, h⟩ | ⟨e, s', heq, h⟩
        · rw [hdev] at h
          exact .inl ⟨s', heq, h.cons (Nat.lt_of_not_le hlen) hbytes hlimit⟩
        · exact .inr ⟨e, s', heq, h.cons hbytes hlimit ht⟩
      have hpoll : ((scriptEnv err enc).hidReadTimeout w.dev dev t) = (t.result, t.clock) := rfl
      simp only [hpoll]
      cases hr : t.result with
      | report r =>
        simp only []
        cases hs : buf.storeAll r.payload with
        | some buf' =>
          obtain ⟨hb, hl⟩ := HIDBuffer.storeAll_some hs
          refine hgo buf' _ rfl ?_ hl (by simp [hr])
          rw [hb, hr]
          rfl
        | none => exact .inr ⟨_, _, rfl, .overflow _⟩
      | empty =>
        simp only [if_true]
        split
        · next hlate =>
          exact .inr ⟨_, _, rfl, .timedOut _ [] t rfl (List.append_nil _).symm hr hlate⟩
        · next hlate =>
          refine hgo buf _ rfl ?_ rfl fun _ => Int.not_lt.mp hlate
          rw [hr]
          exact (List.append_nil _).symm
      | error => exact absurd hr hts.1

/-! ## The buffer reads of a channel read -/

/-- The operation hands out bytes by buffer reads one after the other, and stops in one of them or
throws something else than a `ReadTimeout`. -/
def Traced {α : Type} (x : IoM Poll Int α) (s : IoState Poll Int) : Prop :=
  match x s with
  | .ok _ s' => ∃ gone, Handed s s' gone
  | .error e s' => (∃ ex, e = .throws ex ∧ ex ≠ .readTimeout) ∨
      ∃ s0 gone, Handed s s0 gone ∧ Waited s0.buf s0.world.dev s0.ticks e s'

/-- No device error is to come. -/
def Working (s : IoState Poll Int) : Prop := ∀ t ∈ s.ticks, t.result ≠ .error

theorem Handed.working {s s' : IoState Poll Int} {gone : List UInt8} (h : Handed s s' gone)
    (hs : Working s) : Working s' := by
  obtain ⟨polls, hts, -⟩ := h.polled
  exact fun t ht => hs t (hts ▸ List.mem_append_right polls ht)

theorem traced_pure {α : Type} (a : α) (s : IoState Poll Int) : Traced (pure a) s :=
  ⟨[], .refl s⟩

theorem traced_throw {α : Type} (ex : Exception) (hex : ex ≠ .readTimeout)
    (s : IoState Poll Int) : Traced (throw (.throws ex) : IoM Poll Int α) s :=
  .inl ⟨ex, rfl, hex⟩

theorem Traced.bind {α β : Type} {x : IoM Poll Int α} {f : α → IoM Poll Int β}
    {s : IoState Poll Int} (hs : Working s) (hx : Traced x s)
    (hf : ∀ a s', x s = .ok a s' → Working s' → Traced (f a) s') : Traced (x >>= f) s := by
  unfold Traced at hx ⊢
  rcases Exec.bind_cases x f s with ⟨a, s1, hs1, heq⟩ | ⟨e, s1, hs1, heq⟩
  · rw [hs1] at hx
    rw [heq]
    obtain ⟨gone, hgone⟩ := hx
    have h := hf a s1 hs1 (hgone.working hs)
    unfold Traced at h
    cases hres : f a s1 with
    | ok b s2 =>
      rw [hres] at h
      obtain ⟨gone', hgone'⟩ := h
      exact ⟨gone ++ gone', hgone.trans hgone'⟩
    | error e s2 =>
      rw [hres] at h
      apply h.imp_right
      rintro ⟨s0, gone', hgone', hwait⟩
      exact ⟨s0, gone ++ gone', hgone.trans hgone', hwait⟩
  · rw [hs1] at hx
    rw [heq]
    exact hx

theorem HIDBuffer.read_traced (length : Nat) {s : IoState Poll Int} (hs : Working s) :
    Traced (HIDBuffer.read (scriptEnv err enc) dev length true) s := by
  unfold Traced HIDBuffer.read
  simp only []
  rcases fill_handed dev length s.world.dev s.ticks s.buf s.world hs with
    ⟨s', heq, h⟩ | ⟨e, s', heq, h⟩
  · rw [show HIDBuffer.fill (scriptEnv err enc) dev length true
      ((scriptEnv err enc).time s.world.dev) s.ticks s.buf s.world = .ok () s' from heq]
    obtain ⟨hl, henough, polls, hts, hdev, hb, hshort⟩ := h
    refine ⟨s'.buf.bytes.take length, hl, polls, hts, hdev, ?_, ?_⟩
    · rw [HIDBuffer.shift_bytes, List.take_append_drop, hb]
    · intro before t after hp
      rw [List.length_take, Nat.min_eq_left henough]
      exact hshort before t after hp
  · rw [show HIDBuffer.fill (scriptEnv err enc) dev length true
      ((scriptEnv err enc).time s.world.dev) s.ticks s.buf s.world = .error e s' from heq]
    exact .inr ⟨s, [], .refl s, h⟩

theorem DeviceChannel.align_traced (fuel : Nat) {s : IoState Poll Int} (hs : Working s)
    (hfuel : s.size < fuel) :
    Traced (DeviceChannel.align (scriptEnv err enc) dev true fuel) s := by
  induction fuel generalizing s with
  | zero => omega
  | succ fuel ih =>
    refine .bind hs (HIDBuffer.read_traced dev 1 hs) ?_
    intro header s' hr hs'
    obtain ⟨-, -, hsz⟩ := HIDBuffer.read_polled _ hr
    split
    · exact ih hs' (by omega)
    · exact traced_pure () s'

theorem DeviceChannel.readHeader_traced {s : IoState Poll Int} (hs : Working s) :
    Traced (DeviceChannel.readHeader (scriptEnv err enc) dev true) s := by
  refine .bind (x := get) hs ⟨[], .refl s⟩ ?_
  rintro _ _ ⟨⟩ hs
  refine .bind hs (DeviceChannel.align_traced dev _ hs (Nat.lt_succ_self _)) ?_
  intro _ s1 _ hs1
  refine .bind hs1 (HIDBuffer.read_traced dev 1 hs1) ?_
  intro header s2 _ hs2
  split
  · exact traced_throw (.readError "Failed to read header") nofun s2
  · exact .bind hs2 (HIDBuffer.read_traced dev 6 hs2) fun header s3 _ _ => traced_pure _ s3

theorem decode_ne_readTimeout (type : UInt16) (payload : List UInt8) :
    decode P pool type payload ≠ .error .readTimeout := by
  intro h
  unfold decode at h
  cases hn : messageName pool type with
  | error e =>
    rw [hn] at h
    cases h
    unfold messageName substr at hn
    repeat' split at hn
    all_goals cases hn
  | ok name =>
    rw [hn, Exec.except_ok_bind] at h
    unfold createMessage messageDescriptor at h
    split at h
    · cases h
    · cases h

variable (err enc) in
theorem DeviceChannel.read_traced {s : IoState Poll Int} (hs : Working s) :
    Traced (DeviceChannel.read (scriptEnv err enc) P pool dev true) s := by
  refine .bind hs (DeviceChannel.readHeader_traced dev hs) ?_
  rintro ⟨type, length⟩ s1 - hs1
  simp only []
  split
  · exact traced_throw (.readError "Invalid data") nofun s1
  · refine .bind hs1 (HIDBuffer.read_traced dev _ hs1) ?_
    intro msgbuf s2 _ _
    unfold Traced
    rw [decode_lift]
    cases hd : decode P pool type msgbuf with
    | ok m => exact ⟨[], .refl s2⟩
    | error ex =>
      refine .inl ⟨ex, rfl, ?_⟩
      rintro rfl
      exact decode_ne_readTimeout P pool type msgbuf hd

/-! ## When a read waits too long -/

/-- How many bytes of `S` a read that waits for more has handed out. -/
def handed (S : List UInt8) : Nat := S.length - (kept wire S).length

/-- The bytes received by the first `n` polls to come, and before. -/
def IoState.received (s : IoState Poll Int) (n : Nat) : List UInt8 :=
  s.buf.bytes ++ payloads (s.ticks.take n)

/-- The buffer read that waits for more after `n` polls began after `k` of them: by these, and not
before, the bytes handed out until now had arrived. -/
def IoState.BeganAt (s : IoState Poll Int) (n k : Nat) : Prop :=
  k ≤ n ∧ handed (s.received n) ≤ (s.received k).length ∧
    ∀ j, j < k → (s.received j).length < handed (s.received n)

/-- No poll that finds nothing, with too few bytes for the parser received, comes more than the
timeout after the buffer read that makes it began. -/
def OnTime (timeout : Bool) (s : IoState Poll Int) : Prop :=
  timeout = true → ∀ n, (h : n < s.ticks.length) → s.ticks[n].result = .empty →
    parse wire (s.received n) = none → ∀ k, k ≤ n → s.BeganAt n k →
      s.ticks[n].clock - clockAfter s.world.dev (s.ticks.take k) ≤ s.buf.readTimeout

instance {s : IoState Poll Int} {n k : Nat} : Decidable (s.BeganAt n k) :=
  inferInstanceAs (Decidable (_ ∧ _ ∧ ∀ j, j < k → _))

instance {timeout : Bool} {s : IoState Poll Int} : Decidable (OnTime timeout s) :=
  inferInstanceAs (Decidable (_ → ∀ n, (h : n < s.ticks.length) → _ → _ → ∀ k, k ≤ n → _ → _))

theorem outcome_ne_readTimeout (p : Parsed) : outcome P pool p ≠ .error .readTimeout := by
  cases p with
  | badMagic | tooLong => nofun
  | frame type payload => exact decode_ne_readTimeout P pool type payload

/-- A read that halts has handed out all that it received, but for what the parser keeps. -/
theorem handed_of_halted {s s' : IoState Poll Int} {e : Stop} {rcv : List UInt8}
    (h : Halted (scriptFeed err enc) dev true s e s') (he : e ≠ .undefined)
    (hrcv : s.buf.bytes ++ payloads s.ticks = rcv ++ payloads s'.ticks) {gone : List UInt8}
    (hgone : gone ++ s'.buf.bytes = rcv) :
    parse wire rcv = none ∧ handed rcv = gone.length := by
  obtain ⟨rcv', hu, hnone, hkept⟩ := h.received he
  rw [scriptFeed_unread, scriptFeed_coming, hrcv] at hu
  obtain rfl := List.append_cancel_right hu
  refine ⟨hnone, ?_⟩
  have hlen := congrArg List.length hgone
  rw [List.length_append] at hlen
  rw [handed, ← hkept]
  omega

/-- The bytes handed out, and the place in the polls where they had arrived. -/
theorem Handed.place {s s0 : IoState Poll Int} {gone : List UInt8} (h : Handed s s0 gone) :
    ∃ k ≤ s.ticks.length, s.ticks = s.ticks.take k ++ s0.ticks ∧
      s0.world.dev = clockAfter s.world.dev (s.ticks.take k) ∧
      s.received k = gone ++ s0.buf.bytes ∧ ∀ j < k, (s.received j).length < gone.length := by
  obtain ⟨-, used, hts, hdev, hbytes, hshort⟩ := h
  have htake : s.ticks.take used.length = used := by rw [hts, List.take_left]
  refine ⟨used.length, ?_, by rw [htake, ← hts], by rw [htake, hdev], ?_, ?_⟩
  · rw [hts, List.length_append]
    omega
  · rw [IoState.received, htake, hbytes]
  · intro j hj
    obtain ⟨t, after, hdrop⟩ : ∃ t after, used.drop j = t :: after :=
      List.exists_cons_of_ne_nil (by simpa using hj)
    have hsplit : used = used.take j ++ t :: after := by rw [← hdrop, List.take_append_drop]
    have hj' : s.ticks.take j = used.take j := by
      rw [hts, List.take_append_of_le_length (Nat.le_of_lt hj)]
    rw [IoState.received, hj']
    exact hshort _ t after hsplit

variable (err enc) in
/-- A read that throws a `ReadTimeout` stopped for want of bytes. -/
theorem halted_of_readTimeout {timeout : Bool} {s s' : IoState Poll Int}
    (h : DeviceChannel.read (scriptEnv err enc) P pool dev timeout s =
      .error (.throws .readTimeout) s') :
    Halted (scriptFeed err enc) dev timeout s (.throws .readTimeout) s' := by
  refine halted_of_error P pool (scriptFeed err enc) h ?_
  rintro p ex ho ⟨⟩
  exact outcome_ne_readTimeout P pool p ho

variable (err enc) in
/-- **A read that times out was late**: at a poll that found nothing, too long after the buffer read
it belongs to began. -/
theorem late_of_readTimeout {s s' : IoState Poll Int} (hs : Working s)
    (h : DeviceChannel.read (scriptEnv err enc) P pool dev true s =
      .error (.throws .readTimeout) s') :
    ∃ n k, ∃ hn : n < s.ticks.length, s.ticks[n].result = .empty ∧
      parse wire (s.received n) = none ∧ s.BeganAt n k ∧
      s.buf.readTimeout < s.ticks[n].clock - clockAfter s.world.dev (s.ticks.take k) := by
  have htraced := DeviceChannel.read_traced err enc P pool dev hs
  unfold Traced at htraced
  rw [h] at htraced
  obtain ⟨ex, heq, hne⟩ | ⟨s0, gone, hgone, hwait⟩ := htraced
  · cases heq
    exact absurd rfl hne
  have hhalted := halted_of_readTimeout err enc P pool dev h
  obtain ⟨k, hk, hticks, hclock, hreceived, hfirst⟩ := hgone.place
  have hlimit : s0.buf.readTimeout = s.buf.readTimeout := hgone.limit
  cases hwait with
  | timedOut _ between t hbetween hbytes ht hlate =>
    -- the poll `t` comes after the first `k` polls and those in between
    rw [hbetween, ← List.append_assoc] at hticks
    obtain ⟨before, hbefore⟩ : ∃ before, before = s.ticks.take k ++ between := ⟨_, rfl⟩
    rw [← hbefore] at hticks
    have htake : s.ticks.take before.length = before := by
      conv_lhs => rw [hticks]
      exact List.take_left
    have hlt : before.length < s.ticks.length := by
      rw [hticks, List.length_append, List.length_cons]
      omega
    have hget : s.ticks[before.length] = t := by
      simp only [hticks, List.getElem_append_right (Nat.le_refl _), Nat.sub_self,
        List.getElem_cons_zero]
    have hkn : k ≤ before.length := by
      rw [hbefore, List.length_append, List.length_take, Nat.min_eq_left hk]
      omega
    have hrcv : gone ++ s'.buf.bytes = s.received before.length := by
      rw [hbytes, ← List.append_assoc, ← hreceived, IoState.received, IoState.received, htake,
        hbefore, payloads_append, List.append_assoc]
    have hall : s.buf.bytes ++ payloads s.ticks =
        s.received before.length ++ payloads s'.ticks := by
      have htick : payloads (t :: s'.ticks) = payloads s'.ticks := by
        show t.result.payload ++ payloads s'.ticks = _
        rw [ht]
        rfl
      rw [IoState.received, htake, List.append_assoc, ← htick, ← payloads_append, ← hticks]
    obtain ⟨hnone, hhanded⟩ := handed_of_halted dev hhalted nofun hall hrcv
    refine ⟨before.length, k, hlt, by rw [hget, ht], hnone, ⟨hkn, ?_, ?_⟩, ?_⟩
    · rw [hhanded, hreceived, List.length_append]
      omega
    · intro j hj
      rw [hhanded]
      exact hfirst j hj
    · rw [hget, ← hclock, ← hlimit]
      exact hlate

variable (err enc) in
/-- **No late poll, no timeout.** -/
theorem read_on_time {timeout : Bool} {s : IoState Poll Int} (hs : Working s)
    (hontime : OnTime timeout s) (s' : IoState Poll Int) :
    DeviceChannel.read (scriptEnv err enc) P pool dev timeout s ≠
      .error (.throws .readTimeout) s' := by
  intro h
  cases timeout with
  | true =>
    obtain ⟨n, k, hn, hempty, hnone, hbegan, hlate⟩ := late_of_readTimeout err enc P pool dev hs h
    exact absurd hlate (Int.not_lt.mpr (hontime rfl n hn hempty hnone k hbegan.1 hbegan))
  | false =>
    -- without the timeout the clock is not looked at
    rcases (halted_of_readTimeout err enc P pool dev h).why with
      hw | hw | ⟨s0, _, polls, t, hp, -, hts, hg, -⟩
    · cases hw
    · cases hw
    · cases hg with
      | timedOut ht _ _ => cases ht
      | device e hr => exact absurd hr (hs t (hp.suffix.subset (by rw [hts]; simp)))

end TrezorPlugin
