import TrezorPlugin.Executor

/-!
# What the executor owns

The invariant `Owns` ties the executor's two owning pointers, the borrowed one and
the open handle together.  Every step of a job keeps it on every exit, so it holds
after any run of jobs (`executor_resources`), with what it says of the trace
spelled out: opens and closes balance, and every call that takes a handle takes
the one that is open then.
-/

namespace TrezorPlugin

variable {τ δ κ Msg Map : Type} (E : Env τ δ) (P : Protobuf Msg) (J : Scripting κ Msg Map)
variable (pool : DescriptorPool) (path : String)

/-! ## Handles in a trace -/

/-- The handle a hidapi call is given. -/
def HidCall.handle? : HidCall → Option Handle
  | .openPath _ _ => none
  | .sendFeatureReport dev _ => some dev
  | .close dev => some dev
  | .write dev _ _ => some dev
  | .readTimeout dev _ => some dev
  | .error dev => some dev
  | .enumerate => none
  | .freeEnumeration => none

/-- The open handle after an event. -/
def handleStep (cur : Option Handle) : Event → Option Handle
  | .act (.openPath _ (some h)) => some h
  | .act (.close _) => none
  | _ => cur

/-- The open handle after a trace: the one opened last, unless it has been closed since. -/
def openHandle (cur : Option Handle) (trace : List Event) : Option Handle :=
  trace.foldl handleStep cur

/-- The event is given the open handle, if it is given one, and opens none on top of it. -/
def Allowed (cur : Option Handle) : Event → Prop
  | .act (.openPath _ (some _)) => cur = none
  | .act c => ∀ h, c.handle? = some h → cur = some h
  | _ => True

def Disciplined : Option Handle → List Event → Prop
  | _, [] => True
  | cur, e :: trace => Allowed cur e ∧ Disciplined (handleStep cur e) trace

/-- Successful `hid_open_path` calls. -/
def opens (trace : List Event) : Nat :=
  trace.countP fun
    | .act (.openPath _ (some _)) => true
    | _ => false

/-- `hid_close` calls. -/
def closes (trace : List Event) : Nat :=
  trace.countP fun
    | .act (.close _) => true
    | _ => false

theorem openHandle_append (cur : Option Handle) (l m : List Event) :
    openHandle cur (l ++ m) = openHandle (openHandle cur l) m := List.foldl_append

theorem disciplined_append {cur : Option Handle} {l m : List Event} :
    Disciplined cur (l ++ m) ↔ Disciplined cur l ∧ Disciplined (openHandle cur l) m := by
  induction l generalizing cur with
  | nil => simp [Disciplined, openHandle]
  | cons e l ih =>
    simp only [List.cons_append, Disciplined, ih, and_assoc]
    rfl

/-- A disciplined trace keeps count of the open handle. -/
theorem Disciplined.balance {trace : List Event} {cur : Option Handle}
    (h : Disciplined cur trace) :
    opens trace + cur.toList.length = closes trace + (openHandle cur trace).toList.length := by
  induction trace generalizing cur with
  | nil => rfl
  | cons e trace ih =>
    obtain ⟨he, h⟩ := h
    have hi := ih h
    simp only [opens, closes, List.countP_cons, openHandle, List.foldl_cons] at hi ⊢
    match e, he with
    | .act (.openPath _ (some h)), he =>
      cases he
      simp [handleStep] at hi ⊢
      omega
    | .act (.close h), he =>
      cases he h rfl
      simp [handleStep] at hi ⊢
      omega
    | .act (.openPath _ none), _ => simpa [handleStep] using hi
    | .act (.sendFeatureReport _ _), _ => simpa [handleStep] using hi
    | .act (.write _ _ _), _ => simpa [handleStep] using hi
    | .act (.readTimeout _ _), _ => simpa [handleStep] using hi
    | .act (.error _), _ => simpa [handleStep] using hi
    | .act .enumerate, _ => simpa [handleStep] using hi
    | .act .freeEnumeration, _ => simpa [handleStep] using hi
    | .lock, _ => simpa [handleStep] using hi
    | .unlock, _ => simpa [handleStep] using hi

/-- Every call of a disciplined trace that takes a handle takes the open one. -/
theorem Disciplined.current {before after : List Event} {c : HidCall} {h : Handle}
    (hd : Disciplined none (before ++ .act c :: after)) (hc : c.handle? = some h) :
    openHandle none before = some h := by
  obtain ⟨ha, -⟩ := (disciplined_append.mp hd).2
  cases c with
  | openPath path res => cases hc
  | _ => exact ha h hc

theorem handleStep_on {h : Handle} {c : HidCall} (hc : c.On h) :
    Allowed (some h) (.act c) ∧ handleStep (some h) (.act c) = some h := by
  cases c with
  | sendFeatureReport | write | readTimeout | error =>
    cases hc
    exact ⟨by rintro k ⟨⟩; rfl, rfl⟩
  | openPath | close | enumerate | freeEnumeration => cases hc

/-- Critical sections on the open handle. -/
theorem sections_disciplined {h : Handle} {es : List Event} (hs : Mutex.Sections (HidCall.On h) es) :
    Disciplined (some h) es ∧ openHandle (some h) es = some h := by
  have hcalls : ∀ calls : List HidCall, (∀ c ∈ calls, c.On h) →
      Disciplined (some h) (calls.map .act) ∧ openHandle (some h) (calls.map .act) = some h := by
    intro calls hc
    induction calls with
    | nil => exact ⟨trivial, rfl⟩
    | cons c calls ih =>
      rw [List.forall_mem_cons] at hc
      obtain ⟨h1, h2⟩ := handleStep_on hc.1
      obtain ⟨h3, h4⟩ := ih hc.2
      refine ⟨⟨h1, ?_⟩, ?_⟩
      · rw [h2]
        exact h3
      · rw [List.map_cons, openHandle, List.foldl_cons, h2]
        exact h4
  induction hs with
  | nil => exact ⟨trivial, rfl⟩
  | @cons calls rest hc _ ih =>
    obtain ⟨h1, h2⟩ := hcalls calls hc
    have hcrit : Disciplined (some h) (Mutex.critical calls) ∧
        openHandle (some h) (Mutex.critical calls) = some h := by
      refine ⟨⟨trivial, disciplined_append.mpr ⟨h1, ?_⟩⟩, ?_⟩
      · exact ⟨trivial, trivial⟩
      · rw [Mutex.critical, openHandle, List.foldl_cons, List.foldl_append]
        exact congrArg (fun cur => List.foldl handleStep cur [.unlock]) h2
    refine ⟨disciplined_append.mpr ⟨hcrit.1, ?_⟩, ?_⟩
    · rw [hcrit.2]
      exact ih.1
    · rw [openHandle_append, hcrit.2]
      exact ih.2

/-! ## The invariant -/

/-- Trace and channel agree on the open handle, the channel borrows the executor's buffer, and a
buffer without a channel is empty. -/
structure Owns (s : ExecState τ δ κ Map) : Prop where
  disciplined : Disciplined none s.world.trace
  handle : openHandle none s.world.trace = s.channel.map (·.device)
  borrowed : ∀ ch, s.channel = some ch → s.buffer = some ch.buffer
  alive : ∀ p, s.buffer = some p → ∃ buf, s.heap p = some buf ∧ (s.channel = none → buf.bytes = [])

/-- Every exit of the operation keeps the invariant. -/
abbrev KeepsOwns {α : Type} (x : ExecM τ δ κ Map α) : Prop :=
  Exec.Keeps (fun s s' => Owns s → Owns s') x

theorem owns_new (dev : δ) (ticks : List τ) : Owns (ExecState.new dev ticks : ExecState τ δ κ Map) :=
  ⟨trivial, rfl, nofun, nofun⟩

/-- Hidapi calls between critical sections on the channel's handle. -/
theorem Owns.uses {s s' : ExecState τ δ κ Map} {ch : DeviceChannel} {buf : HIDBuffer}
    (h : Owns s) (hch : s.channel = some ch) (hu : s.world.Uses ch.device s'.world)
    (hc : s'.channel = s.channel) (hb : s'.buffer = s.buffer)
    (hheap : s'.heap = Function.update s.heap ch.buffer (some buf)) : Owns s' := by
  obtain ⟨es, htrace, hsec⟩ := hu
  have hopen : openHandle none s.world.trace = some ch.device := by rw [h.handle, hch]; rfl
  obtain ⟨h1, h2⟩ := sections_disciplined hsec
  refine ⟨?_, ?_, by rw [hc, hb]; exact h.borrowed, ?_⟩
  · rw [htrace]
    exact disciplined_append.mpr ⟨h.disciplined, by rwa [hopen]⟩
  · rw [htrace, openHandle_append, hopen, h2, hc, hch]
    rfl
  · intro p hp
    rw [hb, h.borrowed ch hch] at hp
    cases hp
    exact ⟨buf, by rw [hheap, Function.update_self], by simp [hc, hch]⟩

/-- An operation on the channel only uses its handle and only changes its buffer. -/
theorem onChannel_uses {α : Type} {op : Handle → IoM τ δ α}
    (hop : ∀ dev, Exec.Keeps (IoState.Proceeds dev) (op dev)) (s : ExecState τ δ κ Map) :
    Exec.final (onChannel op s) = s ∨
    ∃ ch buf, s.channel = some ch ∧ s.world.Uses ch.device (Exec.final (onChannel op s)).world ∧
      (Exec.final (onChannel op s)).channel = s.channel ∧
      (Exec.final (onChannel op s)).buffer = s.buffer ∧
      (Exec.final (onChannel op s)).heap = Function.update s.heap ch.buffer (some buf) := by
  unfold onChannel
  split
  · exact .inl rfl
  · next ch hch =>
    split
    · exact .inl rfl
    · next buf hbuf =>
      have hp := hop ch.device ⟨buf, s.world, s.ticks⟩
      refine .inr ⟨ch, (Exec.final (op ch.device ⟨buf, s.world, s.ticks⟩)).buf, hch, ?_⟩
      split
      · next a io heq =>
        rw [heq] at hp ⊢
        exact ⟨hp.2, rfl, rfl, rfl⟩
      · next e io heq =>
        rw [heq] at hp ⊢
        exact ⟨hp.2, rfl, rfl, rfl⟩

theorem onChannel_keeps {α : Type} (op : Handle → IoM τ δ α)
    (hop : ∀ dev, Exec.Keeps (IoState.Proceeds dev) (op dev)) :
    KeepsOwns (onChannel op : ExecM τ δ κ Map α) := by
  intro s h
  rcases onChannel_uses hop s with heq | ⟨ch, buf, hch, hu, hc, hb, hheap⟩
  · rwa [heq]
  · exact h.uses hch hu hc hb hheap

theorem ensureBuffer_keeps : KeepsOwns (ensureBuffer : ExecM τ δ κ Map Unit) := by
  intro s h
  unfold ensureBuffer
  split
  · exact h
  · next hb =>
    have hc : s.channel = none := by
      cases hch : s.channel with
      | none => rfl
      | some ch =>
        have := h.borrowed ch hch
        rw [hb] at this
        cases this
    refine ⟨h.disciplined, h.handle, ?_, ?_⟩
    · intro ch hch
      simp only [Exec.final_ok, hc] at hch
      cases hch
    · rintro p ⟨⟩
      exact ⟨.new, Function.update_self .., fun _ => rfl⟩

/-- Opening without an open handle: a failure opens none, a success one. -/
theorem open_disciplined (w : World δ) (hw : Disciplined none w.trace)
    (hopen : openHandle none w.trace = none) :
    Disciplined none (DeviceChannel.open E path w).2.trace ∧
    openHandle none (DeviceChannel.open E path w).2.trace = (DeviceChannel.open E path w).1.toOption := by
  unfold DeviceChannel.open
  simp only []
  cases hres : (E.hidOpenPath w.dev path).1 with
  | none =>
    simp only [World.locked_trace, Mutex.critical]
    refine ⟨disciplined_append.mpr ⟨hw, ?_⟩, ?_⟩
    · refine ⟨trivial, ?_, trivial, trivial⟩
      rintro h ⟨⟩
    · rw [openHandle_append, hopen]
      rfl
  | some k =>
    simp only [World.locked_trace, Mutex.critical, List.append_assoc]
    refine ⟨disciplined_append.mpr ⟨hw, ?_⟩, ?_⟩
    · rw [hopen]
      refine ⟨trivial, rfl, trivial, trivial, ?_, ?_, trivial, trivial⟩
      · rintro h ⟨⟩
        rfl
      · rintro h ⟨⟩
        rfl
    · rw [openHandle_append, hopen]
      rfl

theorem ensureChannel_keeps : KeepsOwns (ensureChannel E path : ExecM τ δ κ Map Unit) := by
  intro s h
  unfold ensureChannel
  split
  · exact h
  · next hc =>
    split
    · exact h
    · next p hb =>
      obtain ⟨h1, h2⟩ := open_disciplined E path s.world h.disciplined (by rw [h.handle, hc]; rfl)
      split
      · next e w heq =>
        rw [heq] at h1 h2
        exact ⟨h1, h2.trans (by simp [hc, Except.toOption]), by simp [hc], h.alive⟩
      · next k w heq =>
        rw [heq] at h1 h2
        refine ⟨h1, h2, ?_, ?_⟩
        · rintro ch ⟨⟩
          exact hb
        · intro q hq
          obtain ⟨buf, hbuf, -⟩ := h.alive q hq
          exact ⟨buf, hbuf, nofun⟩

/-- Without its channel and buffer the executor owns nothing. -/
theorem destroy_owns {s : ExecState τ δ κ Map} (h : Owns s) :
    Owns (destroy E s) ∧ (destroy E s).channel = none ∧ (destroy E s).buffer = none := by
  have hbuffer : ∀ t : ExecState τ δ κ Map, Disciplined none t.world.trace →
      openHandle none t.world.trace = none → t.channel = none →
      Owns (resetBuffer t) ∧ (resetBuffer t).channel = none ∧ (resetBuffer t).buffer = none := by
    intro t h1 h2 h3
    unfold resetBuffer
    split
    · next hb => exact ⟨⟨h1, by rw [h2, h3]; rfl, by simp [h3], by simp [hb]⟩, h3, hb⟩
    · exact ⟨⟨h1, by rw [h2, h3]; rfl, by simp [h3], nofun⟩, h3, rfl⟩
  unfold destroy resetChannel
  split
  · next hc => exact hbuffer s h.disciplined (by rw [h.handle, hc]; rfl) hc
  · next ch hc =>
    have hopen : openHandle none s.world.trace = some ch.device := by rw [h.handle, hc]; rfl
    refine hbuffer _ ?_ ?_ rfl
    · refine disciplined_append.mpr ⟨h.disciplined, ?_⟩
      rw [hopen]
      refine ⟨trivial, ?_, trivial, trivial⟩
      rintro k ⟨⟩
      rfl
    · show openHandle none (s.world.trace ++ _) = none
      rw [openHandle_append, hopen]
      rfl

/-- Invoking a callback keeps what does not look at the callbacks invoked. -/
theorem invokeAsync_keeps {I : ExecState τ δ κ Map → Prop}
    (hI : ∀ s fired, I s → I { s with fired := fired }) (callbacks : κ) (answer : Answer Map) :
    Exec.Keeps (fun s s' => I s → I s') (invokeAsync J callbacks answer) := by
  intro s h
  unfold invokeAsync
  split
  · exact hI s _ h
  · exact h

theorem reporting_keeps {I : ExecState τ δ κ Map → Prop}
    (hI : ∀ s fired, I s → I { s with fired := fired }) {callbacks : κ}
    {body : ExecM τ δ κ Map Unit} (hbody : Exec.Keeps (fun s s' => I s → I s') body) :
    Exec.Keeps (fun s s' => I s → I s') (reporting J callbacks body) := by
  intro s h
  have hb := hbody s h
  unfold reporting
  split
  · next s' heq =>
    rw [heq] at hb
    exact hb
  · next e s' heq =>
    rw [heq] at hb
    exact invokeAsync_keeps J hI callbacks _ s' hb
  · next e s' _ heq =>
    rw [heq] at hb
    exact hb

theorem owns_fired (s : ExecState τ δ κ Map) (fired : List (κ × Answer Map)) (h : Owns s) :
    Owns { s with fired := fired } :=
  ⟨h.disciplined, h.handle, h.borrowed, h.alive⟩

/-- `I` is kept by everything that a job does to the executor. -/
structure Kept (I : ExecState τ δ κ Map → Prop) : Prop where
  fired : ∀ s fired, I s → I { s with fired := fired }
  ensureBuffer : Exec.Keeps (fun s s' => I s → I s') ensureBuffer
  ensureChannel : Exec.Keeps (fun s s' => I s → I s') (ensureChannel E path)
  onChannel : ∀ {α : Type} (op : Handle → IoM τ δ α),
    (∀ dev, Exec.Keeps (IoState.Proceeds dev) (op dev)) →
    Exec.Keeps (fun s s' => I s → I s') (onChannel op)
  destroy : ∀ s, I s → I (destroy E s)

theorem Kept.call {I : ExecState τ δ κ Map → Prop} (hI : Kept E path I)
    (job : DeviceCallJob κ Map) : Exec.Keeps (fun s s' => I s → I s') (call E P J pool job) := by
  have hlift : ∀ {α : Type} (x : Except Exception α),
      Exec.Keeps (fun s s' => I s → I s') (liftExcept x) := liftExcept_keeps fun _ h => h
  apply Exec.Keeps.bind_inv (hlift _)
  intro inmsg
  apply Exec.Keeps.bind_inv (hlift _)
  intro inmsg
  apply Exec.Keeps.bind_inv
    (hI.onChannel _ fun dev => DeviceChannel.write_proceeds E P pool dev inmsg)
  intro _
  apply Exec.Keeps.bind_inv
    (hI.onChannel _ fun dev => DeviceChannel.read_proceeds E P pool dev job.useTimeout)
  intro outmsg
  apply Exec.Keeps.bind_inv (hlift _)
  intro map
  exact invokeAsync_keeps J hI.fired _ _

/-- **One job**, however it ends, keeps what its parts keep. -/
theorem Kept.execute {I : ExecState τ δ κ Map → Prop} (hI : Kept E path I)
    (job : DeviceJob κ Map) : Exec.Keeps (fun s s' => I s → I s') (execute E P J pool path job) := by
  cases job with
  | closeJob callbacks =>
    apply reporting_keeps J hI.fired
    intro s h
    exact invokeAsync_keeps J hI.fired callbacks _ (TrezorPlugin.destroy E s) (hI.destroy s h)
  | openJob callbacks =>
    apply reporting_keeps J hI.fired
    apply Exec.Keeps.bind_inv hI.ensureBuffer
    intro _
    apply Exec.Keeps.bind_inv hI.ensureChannel
    intro _
    exact invokeAsync_keeps J hI.fired _ _
  | callJob job =>
    apply reporting_keeps J hI.fired
    apply Exec.Keeps.bind_inv hI.ensureBuffer
    intro _
    apply Exec.Keeps.bind_inv hI.ensureChannel
    intro _
    exact hI.call E P J pool path job

theorem kept_owns : Kept E path (Owns : ExecState τ δ κ Map → Prop) :=
  ⟨owns_fired, ensureBuffer_keeps, ensureChannel_keeps E path, onChannel_keeps,
    fun _ h => (destroy_owns E h).1⟩

theorem execute_keeps (job : DeviceJob κ Map) : KeepsOwns (execute E P J pool path job) :=
  (kept_owns E path).execute E P J pool path job

/-! ## Where a call starts -/

/-- The bytes the executor has buffered. -/
def ExecState.bytes (s : ExecState τ δ κ Map) : List UInt8 :=
  match s.buffer.bind s.heap with
  | some buf => buf.bytes
  | none => []

/-- The devices as a call finds them, after it has opened its channel if that is unset. -/
def startDevice (s : ExecState τ δ κ Map) : δ :=
  match s.channel with
  | some _ => s.world.dev
  | none => (DeviceChannel.open E path s.world).2.dev

/-- The two lines that open and call jobs begin with leave a channel on the bytes buffered before. -/
theorem ensured {s s1 s2 : ExecState τ δ κ Map} (h : Owns s) (h1 : ensureBuffer s = .ok () s1)
    (h2 : ensureChannel E path s1 = .ok () s2) :
    ∃ ch buf, s2.channel = some ch ∧ s2.buffer = some ch.buffer ∧ s2.heap ch.buffer = some buf ∧
      buf.bytes = s.bytes ∧ s2.world.dev = startDevice E path s ∧ s2.fired = s.fired := by
  have hs1 : Owns s1 := by
    have := ensureBuffer_keeps s h
    rwa [h1] at this
  have hsame : s1.channel = s.channel ∧ s1.world = s.world ∧ s1.fired = s.fired ∧
      s1.bytes = s.bytes := by
    unfold ensureBuffer at h1
    split at h1
    · cases h1
      exact ⟨rfl, rfl, rfl, rfl⟩
    · next hb =>
      cases h1
      exact ⟨rfl, rfl, rfl, by simp [ExecState.bytes, hb, HIDBuffer.new]⟩
  obtain ⟨hc, hw, hf, hbytes⟩ := hsame
  unfold ensureChannel at h2
  split at h2
  · next ch hch =>
    cases h2
    have hbuf := hs1.borrowed ch hch
    obtain ⟨buf, hheap, -⟩ := hs1.alive _ hbuf
    refine ⟨ch, buf, hch, hbuf, hheap, ?_, ?_, hf⟩
    · rw [← hbytes]
      simp [ExecState.bytes, hbuf, hheap]
    · rw [startDevice, ← hc, hch, hw]
  · next hch =>
    split at h2
    · cases h2
    · next p hbuf =>
      obtain ⟨buf, hheap, -⟩ := hs1.alive p hbuf
      split at h2
      · cases h2
      · next k w heq =>
        cases h2
        refine ⟨⟨p, k⟩, buf, rfl, hbuf, hheap, ?_, ?_, hf⟩
        · rw [← hbytes]
          simp [ExecState.bytes, hbuf, hheap]
        · rw [startDevice, ← hc, hch, ← hw, heq]

/-! ## Runs of jobs -/

/-- A run of jobs, each with the schema loaded when it runs.  Whatever way a job ends, by returning,
throwing or otherwise, the next one finds the state it leaves. -/
def executeAll (s : ExecState τ δ κ Map) (jobs : List (DescriptorPool × DeviceJob κ Map)) :
    ExecState τ δ κ Map :=
  jobs.foldl (fun s job => Exec.final (execute E P J job.1 path job.2 s)) s

theorem executeAll_owns {s : ExecState τ δ κ Map} (h : Owns s)
    (jobs : List (DescriptorPool × DeviceJob κ Map)) : Owns (executeAll E P J path s jobs) := by
  induction jobs generalizing s with
  | nil => exact h
  | cons job jobs ih => exact ih (execute_keeps E P J job.1 path job.2 s h)

/-- What `Owns` says of the state and its trace. -/
structure Resourced (s : ExecState τ δ κ Map) : Prop where
  /-- A channel borrows the executor's buffer, which is alive. -/
  borrowed : ∀ ch, s.channel = some ch →
    s.buffer = some ch.buffer ∧ ∃ buf, s.heap ch.buffer = some buf
  balance : opens s.world.trace = closes s.world.trace + if s.channel.isSome then 1 else 0
  /-- A call that is given a handle is given the one open at that moment. -/
  current : ∀ before c after h, s.world.trace = before ++ .act c :: after → c.handle? = some h →
    openHandle none before = some h
  /-- Without a channel the buffer is unset or empty. -/
  empty : s.channel = none → ∀ p, s.buffer = some p → ∃ buf, s.heap p = some buf ∧ buf.bytes = []

theorem Owns.resourced {s : ExecState τ δ κ Map} (h : Owns s) : Resourced s := by
  refine ⟨?_, ?_, ?_, ?_⟩
  · intro ch hch
    obtain ⟨buf, hbuf, -⟩ := h.alive _ (h.borrowed ch hch)
    exact ⟨h.borrowed ch hch, buf, hbuf⟩
  · have hb := h.disciplined.balance
    rw [h.handle] at hb
    cases hc : s.channel with
    | none => simpa [hc] using hb
    | some ch => simpa [hc] using hb
  · intro before c after k ht hk
    have hd := h.disciplined
    rw [ht] at hd
    exact hd.current hk
  · intro hc p hp
    obtain ⟨buf, hbuf, hempty⟩ := h.alive p hp
    exact ⟨buf, hbuf, hempty hc⟩

/-- **What the executor owns.**  After any run of jobs, on any device and with any outcome of the
hidapi calls, conversions and callbacks, and also after its destruction: the channel borrows the
executor's buffer; one handle is open if the channel is set and none otherwise, and hidapi is never
given another; and without a channel there is no buffered byte. -/
theorem executor_resources (dev : δ) (ticks : List τ)
    (jobs : List (DescriptorPool × DeviceJob κ Map)) :
    Resourced (executeAll E P J path (ExecState.new dev ticks) jobs) ∧
    Resourced (destroy E (executeAll E P J path (ExecState.new dev ticks) jobs)) ∧
    (destroy E (executeAll E P J path (ExecState.new dev ticks) jobs)).channel = none ∧
    (destroy E (executeAll E P J path (ExecState.new dev ticks) jobs)).buffer = none := by
  have h := executeAll_owns E P J path (owns_new dev ticks) jobs
  obtain ⟨h1, h2, h3⟩ := destroy_owns E h
  exact ⟨h.resourced, h1.resourced, h2, h3⟩

end TrezorPlugin
