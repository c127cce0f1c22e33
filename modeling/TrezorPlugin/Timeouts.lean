import TrezorPlugin.FrameSync
import Mathlib.Data.Nat.Find

/-!
# Reads with a timeout

`HIDBuffer.read` looks at the clock only at a poll that finds nothing, and takes
the time anew for each of the reads that `DeviceChannel.read` is made of.  So on
endless polls a `DeviceChannel.read(true)` comes to its end exactly when

    a frame, or a header that cannot be one, is complete, inside the buffer, or
    a poll finds nothing more than `_read_timeout` after the last byte handed out had arrived

(`read_ends_iff`).  Reports without payload, or endless bytes other than `'#'`,
keep it polling for ever.
-/

namespace TrezorPlugin

open Framing

variable {err : Option WString} {enc : WString → Except Exception String}
variable {Msg : Type} (P : Protobuf Msg) (pool : DescriptorPool) (dev : Handle)

/-! ## Endless polls -/

variable (err enc) (buf : HIDBuffer) (w : World Int) (polls : Nat → Poll)

/-- The first `n` polls. -/
def firstPolls (n : Nat) : List Poll := (List.range n).map polls

/-- The bytes received by the first `n` polls, and before. -/
def receivedBy (n : Nat) : List UInt8 := buf.bytes ++ payloads (firstPolls polls n)

/-- The clock after the first `n` polls. -/
def clockAt : Nat → Int
  | 0 => w.dev
  | n + 1 => (polls n).clock

/-- After the first `n` polls the read has returned or thrown. -/
def Ended (n : Nat) : Prop :=
  match DeviceChannel.read (scriptEnv err enc) P pool dev true ⟨buf, w, firstPolls polls n⟩ with
  | .ok _ _ => True
  | .error (.throws _) _ => True
  | .error _ _ => False

/-- The bytes received by the first `n` polls begin with a frame, or with a header that cannot be one,
and no report overshoots the buffer in its payload. -/
def Complete (n : Nat) : Prop :=
  (parse wire (receivedBy buf polls n)).isSome ∧ Fits ⟨buf, w, firstPolls polls n⟩

/-- The poll `n` finds nothing, when more bytes are missing and the last byte handed out has arrived,
by the first `k` polls, too long ago. -/
structure Late (n : Nat) : Prop where
  empty : (polls n).result = .empty
  missing : parse wire (receivedBy buf polls n) = none
  late : ∃ k ≤ n, handed (receivedBy buf polls n) ≤ (receivedBy buf polls k).length ∧
    (∀ j < k, (receivedBy buf polls j).length < handed (receivedBy buf polls n)) ∧
    buf.readTimeout < (polls n).clock - clockAt w polls k

@[simp] theorem length_firstPolls (n : Nat) : (firstPolls polls n).length = n := by
  rw [firstPolls, List.length_map, List.length_range]

theorem firstPolls_succ (n : Nat) : firstPolls polls (n + 1) = firstPolls polls n ++ [polls n] := by
  rw [firstPolls, List.range_succ, List.map_append]
  rfl

theorem clockAfter_firstPolls (n : Nat) : clockAfter w.dev (firstPolls polls n) = clockAt w polls n := by
  cases n with
  | zero => rfl
  | succ n =>
    rw [firstPolls_succ, clockAfter_append]
    rfl

theorem take_firstPolls {n k : Nat} (h : k ≤ n) :
    (firstPolls polls n).take k = firstPolls polls k := by
  rw [firstPolls, ← List.map_take, List.take_range, Nat.min_eq_left h, firstPolls]

theorem working_firstPolls (hpolls : ∀ i, (polls i).result ≠ .error) (n : Nat) :
    Working ⟨buf, w, firstPolls polls n⟩ := by
  intro t ht
  obtain ⟨i, -, rfl⟩ := List.mem_map.mp ht
  exact hpolls i

theorem received_firstPolls {n k : Nat} (h : k ≤ n) :
    IoState.received ⟨buf, w, firstPolls polls n⟩ k = receivedBy buf polls k := by
  show buf.bytes ++ payloads ((firstPolls polls n).take k) = _
  rw [take_firstPolls polls h, receivedBy]

/-- The handed bytes of a read in its place: the polls before the buffer read that stops. -/
theorem Handed.at_place {n : Nat} {s0 : IoState Poll Int} {gone : List UInt8}
    (h : Handed ⟨buf, w, firstPolls polls n⟩ s0 gone) :
    ∃ k ≤ n, firstPolls polls n = firstPolls polls k ++ s0.ticks ∧
      s0.world.dev = clockAt w polls k ∧ receivedBy buf polls k = gone ++ s0.buf.bytes ∧
      ∀ j < k, (receivedBy buf polls j).length < gone.length := by
  obtain ⟨k, hk, hticks, hclock, hreceived, hfirst⟩ := h.place
  simp only [length_firstPolls] at hk hticks hclock
  rw [take_firstPolls polls hk] at hticks hclock
  rw [received_firstPolls buf w polls hk] at hreceived
  refine ⟨k, hk, hticks, by rw [hclock, clockAfter_firstPolls], hreceived, ?_⟩
  intro j hj
  rw [← received_firstPolls buf w polls ((Nat.le_of_lt hj).trans hk)]
  exact hfirst j hj

/-- A read that throws a `ReadTimeout` was late. -/
theorem late_of_timedOut (hpolls : ∀ i, (polls i).result ≠ .error) {n : Nat}
    {s' : IoState Poll Int} (h : DeviceChannel.read (scriptEnv err enc) P pool dev true
      ⟨buf, w, firstPolls polls n⟩ = .error (.throws .readTimeout) s') :
    ∃ m, Late buf w polls m := by
  obtain ⟨m, k, hm, hempty, hnone, ⟨hkm, harrived, hfirst⟩, hlate⟩ :=
    late_of_readTimeout err enc P pool dev (working_firstPolls buf w polls hpolls n) h
  simp only [length_firstPolls] at hm
  have hlt : m < (firstPolls polls n).length := (length_firstPolls polls n).symm ▸ hm
  have hpoll : (firstPolls polls n)[m] = polls m := by simp [firstPolls]
  have hmn := Nat.le_of_lt hm
  rw [received_firstPolls buf w polls hmn] at hnone harrived hfirst
  rw [received_firstPolls buf w polls (hkm.trans hmn)] at harrived
  simp only [hpoll, take_firstPolls polls (hkm.trans hmn), clockAfter_firstPolls] at hempty hlate
  refine ⟨m, hempty, hnone, k, hkm, harrived, ?_, hlate⟩
  intro j hj
  rw [← received_firstPolls buf w polls (Nat.le_of_lt (hj.trans_le (hkm.trans hmn)))]
  exact hfirst j hj

/-- A read that returns, or throws for another reason, has come to the end of its frame. -/
theorem complete_of_outcome (hpolls : ∀ i, (polls i).result ≠ .error) {n : Nat} {p : Parsed}
    {s' : IoState Poll Int} {rest : List UInt8}
    (hparse : parse wire (receivedBy buf polls n) = some (p, rest))
    (h : DeviceChannel.read (scriptEnv err enc) P pool dev true ⟨buf, w, firstPolls polls n⟩ =
      liftExcept (outcome P pool p) s') : Complete buf w polls n := by
  refine ⟨by rw [hparse]; rfl, ?_⟩
  by_contra hfit
  obtain ⟨e, s1, hr, hwhy⟩ := read_overshoots err enc P pool dev true hfit
  rw [h] at hr
  cases ho : outcome P pool p with
  | ok m =>
    rw [ho] at hr
    cases hr
  | error ex =>
    rw [ho] at hr
    cases hr
    rcases hwhy with hundef | ⟨t, ht, hn, hempty⟩
    · cases hundef
    · have hres : t.result = .empty := by
        cases hres : t.result with
        | empty => rfl
        | report r => exact absurd hres (hn r)
        | error => exact absurd hres (working_firstPolls buf w polls hpolls n t ht)
      have := hempty hres
      cases this
      exact outcome_ne_readTimeout P pool p ho

theorem ended_of_complete (hpolls : ∀ i, (polls i).result ≠ .error) {n : Nat}
    (h : Complete buf w polls n) : Ended err enc P pool dev buf w polls n := by
  unfold Ended
  obtain ⟨hsome, hfit⟩ := h
  rcases read_cases P pool (scriptFeed err enc) dev true ⟨buf, w, firstPolls polls n⟩ with
    ⟨p, s1, -, -, hr⟩ | ⟨e, s1, hr, hstop⟩
  · rw [hr]
    cases outcome P pool p with
    | ok m => trivial
    | error ex => trivial
  · have hend := hstop.script (working_firstPolls buf w polls hpolls n)
    rw [hr]
    rcases hend with rfl | rfl | rfl
    · obtain ⟨rcv, hu, hnone, -⟩ := hstop.received nofun
      rw [scriptFeed_unread, scriptFeed_coming, hstop.ticks rfl,
        show payloads [] = [] from rfl, List.append_nil] at hu
      rw [receivedBy, hu, hnone] at hsome
      cases hsome
    · exact absurd hfit (read_undefined P pool dev hr)
    · trivial

theorem receivedBy_succ {n : Nat} (h : (polls n).result = .empty) :
    receivedBy buf polls (n + 1) = receivedBy buf polls n := by
  have hpoll : payloads [polls n] = [] := by
    rw [payloads, List.flatMap_cons, h]
    rfl
  rw [receivedBy, firstPolls_succ, payloads_append, hpoll, List.append_nil, receivedBy]

/-- A report that overshoots the payload comes with the end of the payload. -/
theorem not_overflow {s s' : IoState Poll Int}
    (hstop : Halted (scriptFeed err enc) dev true s .undefined s') :
    (parse wire (s.buf.bytes ++ payloads s.ticks)).isSome := by
  obtain ⟨pad, h, S, hu, hpad, h6, hle, d, t, post, -, -, hover⟩ := hstop.overflow rfl
  have hm := parse_pad_magic wire hpad (h ++ S)
  rw [show pad ++ wire.magic :: wire.magic :: (h ++ S) = s.buf.bytes ++ payloads s.ticks from
    hu.symm, body_fields wire h6,
    if_neg (show ¬ wire.maxLength < (fields h).2 from Nat.not_lt.mpr hle),
    if_neg (by omega)] at hm
  rw [hm]
  rfl

/-- A poll that is late is not passed over. -/
theorem Late.not_pending (hpolls : ∀ i, (polls i).result ≠ .error) {n : Nat}
    (h : Late buf w polls n) (s1 : IoState Poll Int) :
    DeviceChannel.read (scriptEnv err enc) P pool dev true ⟨buf, w, firstPolls polls (n + 1)⟩ ≠
      .error .pending s1 := by
  intro hr
  obtain ⟨hempty, hmissing, k, hk, hle, hfirst, hlate⟩ := h
  have hwork := working_firstPolls buf w polls hpolls (n + 1)
  have hreceived : buf.bytes ++ payloads (firstPolls polls (n + 1)) = receivedBy buf polls n :=
    receivedBy_succ buf polls hempty
  have hstop := halted_of_error P pool (scriptFeed err enc) hr nofun
  have htraced := DeviceChannel.read_traced err enc P pool dev hwork
  unfold Traced at htraced
  rw [hr] at htraced
  obtain ⟨ex, heq, -⟩ | ⟨s0, gone, hgone, hwait⟩ := htraced
  · cases heq
  obtain ⟨k0, -, hticks, hclock, hreceived0, hfirst0⟩ := hgone.at_place buf w polls
  have hlimit : s0.buf.readTimeout = buf.readTimeout := hgone.limit
  cases hwait with
  | pending _ hnil hbytes hquiet =>
    have hrcv : gone ++ s1.buf.bytes = receivedBy buf polls n := by
      rw [hbytes, ← List.append_assoc, ← hreceived0, ← hreceived, hticks, payloads_append,
        receivedBy, List.append_assoc]
    have hall : buf.bytes ++ payloads (firstPolls polls (n + 1)) =
        receivedBy buf polls n ++ payloads s1.ticks := by
      rw [hreceived, hnil]
      exact (List.append_nil _).symm
    obtain ⟨-, hhanded⟩ := handed_of_halted dev hstop nofun hall hrcv
    rw [hhanded] at hle hfirst
    -- both count the polls until the last byte handed out has arrived
    have hkk : k = k0 := by
      have hle0 : gone.length ≤ (receivedBy buf polls k0).length := by
        rw [hreceived0, List.length_append]
        omega
      rcases Nat.lt_trichotomy k k0 with hlt | heq | hlt
      · exact absurd (hfirst0 k hlt) (Nat.not_lt.mpr hle)
      · exact heq
      · exact absurd (hfirst k0 hlt) (Nat.not_lt.mpr hle0)
    subst hkk
    have hmem : polls n ∈ s0.ticks := by
      have hdrop : s0.ticks = (firstPolls polls n).drop k ++ [polls n] := by
        rw [← List.drop_append_of_le_length (by simpa using hk), ← firstPolls_succ, hticks,
          List.drop_left' (length_firstPolls polls k)]
      rw [hdrop]
      exact List.mem_append_right _ (List.mem_singleton.mpr rfl)
    have := hquiet _ hmem hempty
    rw [hclock, hlimit] at this
    omega

/-- A read that is late has given up, or was at its end before. -/
theorem ended_of_late (hpolls : ∀ i, (polls i).result ≠ .error) {n : Nat}
    (h : Late buf w polls n) : Ended err enc P pool dev buf w polls (n + 1) := by
  have hreceived : buf.bytes ++ payloads (firstPolls polls (n + 1)) = receivedBy buf polls n :=
    receivedBy_succ buf polls h.empty
  unfold Ended
  rcases read_cases P pool (scriptFeed err enc) dev true ⟨buf, w, firstPolls polls (n + 1)⟩ with
    ⟨p, s1, -, -, hr⟩ | ⟨e, s1, hr, hstop⟩
  · rw [hr]
    cases outcome P pool p with
    | ok m => trivial
    | error ex => trivial
  · rcases hstop.script (working_firstPolls buf w polls hpolls (n + 1)) with rfl | rfl | rfl
    · exact absurd hr (h.not_pending err enc P pool dev buf w polls hpolls s1)
    · have := not_overflow err enc dev hstop
      rw [hreceived, h.missing] at this
      cases this
    · rw [hr]
      trivial

theorem complete_or_late (hpolls : ∀ i, (polls i).result ≠ .error) {n : Nat}
    (h : Ended err enc P pool dev buf w polls n) :
    Complete buf w polls n ∨ ∃ m, Late buf w polls m := by
  unfold Ended at h
  rcases read_cases P pool (scriptFeed err enc) dev true ⟨buf, w, firstPolls polls n⟩ with
    ⟨p, s1, hparse, -, hr⟩ | ⟨e, s1, hr, hstop⟩
  · exact .inl (complete_of_outcome err enc P pool dev buf w polls hpolls hparse hr)
  · rw [hr] at h
    rcases hstop.script (working_firstPolls buf w polls hpolls n) with rfl | rfl | rfl
    · exact h.elim
    · exact h.elim
    · exact .inr (late_of_timedOut err enc P pool dev buf w polls hpolls hr)

/-- A device that falls silent in the middle of a frame is late, once the clock has moved on. -/
theorem late_of_silence {N : Nat} (hsilent : ∀ n, N ≤ n → (polls n).result = .empty)
    (hclock : ∀ limit, ∃ n, N ≤ n ∧ limit < (polls n).clock)
    (hmissing : parse wire (receivedBy buf polls N) = none) : ∃ n, Late buf w polls n := by
  have hreceived : ∀ d, receivedBy buf polls (N + d) = receivedBy buf polls N := by
    intro d
    induction d with
    | zero => rfl
    | succ d ih => exact (receivedBy_succ buf polls (hsilent _ (Nat.le_add_right N d))).trans ih
  have harrived : ∃ k, handed (receivedBy buf polls N) ≤ (receivedBy buf polls k).length :=
    ⟨N, Nat.sub_le _ _⟩
  have hk : Nat.find harrived ≤ N := Nat.find_min' harrived (Nat.sub_le _ _)
  obtain ⟨n, hn, hlate⟩ := hclock (clockAt w polls (Nat.find harrived) + buf.readTimeout)
  obtain ⟨d, rfl⟩ := Nat.exists_eq_add_of_le hn
  refine ⟨N + d, hsilent _ hn, by rw [hreceived, hmissing], Nat.find harrived, by omega, ?_, ?_, ?_⟩
  · rw [hreceived]
    exact Nat.find_spec harrived
  · intro j hj
    rw [hreceived]
    exact Nat.lt_of_not_le (Nat.find_min harrived hj)
  · omega

/-- **When a read with a timeout ends.**  On endless polls without device errors, with any contents
and any clock, and whatever is buffered: `DeviceChannel.read(true)` returns or throws after finitely
many polls exactly when a frame or a broken header is complete by then and no report overshoots the
buffer, or a poll that finds nothing comes too long after the last byte handed out. -/
theorem read_ends_iff (hpolls : ∀ i, (polls i).result ≠ .error) :
    (∃ n, Ended err enc P pool dev buf w polls n) ↔
      (∃ n, Complete buf w polls n) ∨ ∃ n, Late buf w polls n := by
  constructor
  · rintro ⟨n, hend⟩
    exact (complete_or_late err enc P pool dev buf w polls hpolls hend).imp_left fun h => ⟨n, h⟩
  · rintro (⟨n, h⟩ | ⟨n, h⟩)
    · exact ⟨n, ended_of_complete err enc P pool dev buf w polls hpolls h⟩
    · exact ⟨n + 1, ended_of_late err enc P pool dev buf w polls hpolls h⟩

/-- A device that answers nothing, and a clock that goes on. -/
def silence (n : Nat) : Poll := ⟨.empty, n + 1⟩

theorem read_ends_iff_silence :
    ∃ n, Ended none (fun _ => .ok "") rawProtobuf pingPool 0 .new ⟨0, []⟩ silence n := by
  refine (read_ends_iff none (fun _ => .ok "") rawProtobuf pingPool 0 .new ⟨0, []⟩ silence
    fun _ => nofun).mpr (.inr (late_of_silence (N := 0) .new ⟨0, []⟩ silence (fun _ _ => rfl) ?_
      (by decide)))
  exact fun limit => ⟨limit.toNat, Nat.zero_le _, by simp only [silence]; omega⟩

/-- Reports whose length byte is 0. -/
def emptyReports (n : Nat) : Poll := ⟨.report ⟨[0], by decide, by decide⟩, n⟩

/-- The clock goes on without bound, but no poll looks at it. -/
theorem read_does_not_end :
    (∀ i, (emptyReports i).result ≠ .error) ∧
    (∀ i, (emptyReports i).clock ≤ (emptyReports (i + 1)).clock) ∧
    (∀ limit, ∃ i, limit < (emptyReports i).clock) ∧
    ¬ ∃ n, Ended none (fun _ => .ok "") rawProtobuf pingPool 0 .new ⟨0, []⟩ emptyReports n := by
  refine ⟨fun _ => nofun, ?_, fun limit => ⟨limit.toNat + 1, ?_⟩, ?_⟩
  · intro i
    simp only [emptyReports]
    omega
  · simp only [emptyReports]
    omega
  · rintro ⟨n, hend⟩
    have hreceived : ∀ n, receivedBy .new emptyReports n = [] := by
      intro n
      induction n with
      | zero => rfl
      | succ n ih =>
        have hpoll : payloads [emptyReports n] = [] := rfl
        rw [receivedBy, firstPolls_succ, payloads_append, hpoll, List.append_nil]
        exact ih
    rcases complete_or_late none (fun _ => .ok "") rawProtobuf pingPool 0 .new ⟨0, []⟩ emptyReports
      (fun _ => nofun) hend with ⟨hsome, -⟩ | ⟨m, hlate⟩
    · rw [hreceived] at hsome
      cases hsome
    · cases hlate.empty

end TrezorPlugin
