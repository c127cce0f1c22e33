import TrezorPlugin.Executor
import TrezorPlugin.Enumerate
import TrezorPlugin.StreamParser

/-!
# hidapi_mutex

Five operations lock `hidapi_mutex`, each by hand: `enumerate`, `open`, `close`,
`read` and `write`.  An operation is modelled with everything outside that decides
its outcome, and its events are what it does to the mutex and to hidapi then.

    the mutex is released and the list freed  ↔  nothing in the loop of enumerate throws   (released_iff)

`mutex_released`: over every interleaving of such operations on any threads.
-/

namespace TrezorPlugin

variable {τ δ : Type}

/-! ## The operations -/

/-- What decides how an operation goes. -/
structure Outside (τ δ : Type) where
  env : Env τ δ
  dev : δ
  ticks : List τ

inductive HidOp (τ δ : Type)
  | enumerate (o : Outside τ δ) (config : Configuration) (faults : Nat → Option Exception)
  | openChannel (o : Outside τ δ) (path : String)
  | closeChannel (o : Outside τ δ) (dev : Handle)
  | read (o : Outside τ δ) (buf : HIDBuffer) (dev : Handle) (length : Nat) (timeout : Bool)
  | write (o : Outside τ δ) (buf : HIDBuffer) (dev : Handle) (bytes : List UInt8)

def Outside.world (o : Outside τ δ) : World δ := ⟨o.dev, []⟩

def Outside.state (o : Outside τ δ) (buf : HIDBuffer) : IoState τ δ := ⟨buf, o.world, o.ticks⟩

/-- What the operation does to the mutex and to hidapi, however it ends. -/
def HidOp.events : HidOp τ δ → List Event
  | .enumerate o config faults =>
    (BitcoinTrezorPlugin.enumerate o.env config faults o.world).2.trace
  | .openChannel o path => (DeviceChannel.open o.env path o.world).2.trace
  | .closeChannel o dev => (DeviceChannel.close o.env dev o.world).trace
  | .read o buf dev length timeout =>
    (Exec.final (HIDBuffer.read o.env dev length timeout (o.state buf))).world.trace
  | .write o buf dev bytes =>
    (Exec.final (HIDBuffer.write o.env dev bytes (o.state buf))).world.trace

/-- Nothing in the loop of `enumerate` throws. -/
def HidOp.Clean : HidOp τ δ → Prop
  | .enumerate o config faults =>
    Enumerable config o.env.utf8Encode faults (o.env.hidEnumerate o.dev).1
  | _ => True

/-- When the operation ends it does not hold the mutex, and it has freed each list once. -/
def HidOp.Released (op : HidOp τ δ) : Prop :=
  Mutex.Balanced false op.events ∧
    op.events.count (.act .freeEnumeration) = op.events.count (.act .enumerate)

/-! ## One operation -/

/-- The call neither makes nor frees a list. -/
def HidCall.Listless (c : HidCall) : Prop := c ≠ .enumerate ∧ c ≠ .freeEnumeration

theorem HidCall.On.listless {h : Handle} {c : HidCall} (hc : c.On h) : c.Listless := by
  cases c with
  | enumerate | freeEnumeration => cases hc
  | _ => exact ⟨nofun, nofun⟩

theorem released_of_sections {op : HidOp τ δ} (h : Mutex.Sections HidCall.Listless op.events) :
    op.Released := by
  refine ⟨h.balanced, ?_⟩
  rw [List.count_eq_zero.mpr fun hm => (h.acts hm).2 rfl,
    List.count_eq_zero.mpr fun hm => (h.acts hm).1 rfl]

theorem sections_of_uses {h : Handle} {w : World δ} {w' : World δ} (hw : w.trace = [])
    (hu : w.Uses h w') : Mutex.Sections HidCall.Listless w'.trace := by
  obtain ⟨es, htrace, hs⟩ := hu
  rw [htrace, hw, List.nil_append]
  exact hs.mono fun _ hc => hc.listless

theorem open_sections (E : Env τ δ) (path : String) {w : World δ} (hw : w.trace = []) :
    Mutex.Sections HidCall.Listless (DeviceChannel.open E path w).2.trace := by
  have hopen : ∀ res, Mutex.Sections HidCall.Listless (Mutex.critical [.openPath path res]) :=
    fun res => .one (by simp [HidCall.Listless])
  unfold DeviceChannel.open
  simp only []
  split
  · rw [World.locked_trace, hw]
    exact hopen _
  · rw [World.locked_trace, World.locked_trace, hw]
    exact (hopen _).append (.one (by simp [HidCall.Listless]))

/-- **One operation**: all but `enumerate` always release the mutex, and `enumerate` does so exactly
when nothing in its loop throws. -/
theorem released_iff (op : HidOp τ δ) : op.Released ↔ op.Clean := by
  cases op with
  | enumerate o config faults =>
    simp only [HidOp.Released, HidOp.Clean, HidOp.events]
    cases h : enumerateLoop config o.env.utf8Encode faults (o.env.hidEnumerate o.dev).1 [] with
    | error e =>
      -- the events end with the list made and the mutex held
      rw [enumerate_error (w := o.world) h]
      constructor
      · intro hreleased
        cases hreleased.1.2
      · intro he
        rw [enumerateLoop_eq_ok.mpr ⟨he, by simp, rfl⟩] at h
        cases h
    | ok result =>
      rw [enumerate_ok (w := o.world) h]
      exact ⟨fun _ => (enumerateLoop_eq_ok.mp h).1, fun _ => ⟨⟨rfl, rfl, rfl⟩, rfl⟩⟩
  | openChannel o path =>
    exact ⟨fun _ => trivial, fun _ => released_of_sections (open_sections o.env path rfl)⟩
  | closeChannel o dev =>
    refine ⟨fun _ => trivial, fun _ => released_of_sections ?_⟩
    exact .one (by simp [HidCall.Listless])
  | read o buf dev length timeout =>
    have := HIDBuffer.read_proceeds o.env dev length timeout (o.state buf)
    exact ⟨fun _ => trivial, fun _ => released_of_sections (sections_of_uses rfl this.2)⟩
  | write o buf dev bytes =>
    have := HIDBuffer.writePieces_proceeds o.env dev (Bytes.chunks 63 bytes) (o.state buf)
    exact ⟨fun _ => trivial, fun _ => released_of_sections (sections_of_uses rfl this.2)⟩

/-! ## Runs of any number of threads -/

variable {θ : Type} [DecidableEq θ]

/-- **The mutex is released.**  In every interleaving of operations of any threads in which nothing
throws in a loop of `enumerate`: whoever holds `hidapi_mutex` is in an operation that still unlocks
it, and every operation started frees the lists it makes, each once. -/
theorem mutex_released (labels : List (Mutex.Label θ (HidOp τ δ))) (s : Mutex.Threads θ HidCall)
    (hclean : ∀ t op, .start t op ∈ labels → op.Clean)
    (h : Run.run (Mutex.step HidOp.events) Mutex.Threads.idle labels = some s) :
    (∀ t, s.holder = some t → ∃ rest, s.todo t = some rest ∧ .unlock ∈ rest) ∧
    ∀ t op, .start t op ∈ labels →
      op.events.count (.act .freeEnumeration) = op.events.count (.act .enumerate) := by
  refine ⟨?_, fun t op hop => ((released_iff op).mpr (hclean t op hop)).2⟩
  intro t ht
  refine Mutex.released HidOp.events (Run.along_of_forall _ _ ?_ _) h t ht
  intro l hl u op heq
  subst heq
  exact ((released_iff op).mpr (hclean u op hl)).1

/-- ASCII strings. -/
def asciiEncode (s : WString) : Except Exception String := .ok (String.ofList (s.map Char.ofNat))

def listing (devices : List HidDeviceInfo) : Outside Poll Int where
  env := { scriptEnv none asciiEncode with hidEnumerate := fun now => (devices, now) }
  dev := 0
  ticks := []

def trezor (path : String) (serialNumber : Option WString) : HidDeviceInfo :=
  ⟨path, 0x534c, 1, serialNumber, some [84], 0⟩

/-- Lets every device of the vendor through. -/
def trezors : Configuration := ⟨[], [], [], [⟨some 0x534c, some 1, none, none⟩], none⟩

/-- Two devices, numbered 1 and 2. -/
def enumerateTwo : HidOp Poll Int :=
  .enumerate (listing [trezor "a" (some [49]), trezor "b" (some [50])]) trezors fun _ => none

/-- Two devices without a serial number. -/
def enumerateTwins : HidOp Poll Int :=
  .enumerate (listing [trezor "a" none, trezor "b" none]) trezors fun _ => none

def closeOp : HidOp Poll Int := .closeChannel (listing []) 0

abbrev twoThreads : Mutex.Threads Nat HidCall → Mutex.Label Nat (HidOp Poll Int) →
    Option (Mutex.Threads Nat HidCall) :=
  Mutex.step HidOp.events

theorem mutex_released_two :
    ∃ s, Run.run twoThreads Mutex.Threads.idle
        [.start 0 enumerateTwo, .next 0, .start 1 closeOp, .next 0, .next 0, .next 0, .next 1] =
          some s ∧
      s.holder = some 1 ∧ ∃ rest, s.todo 1 = some rest ∧ .unlock ∈ rest := by
  have hview : (Run.run twoThreads Mutex.Threads.idle
      [.start 0 enumerateTwo, .next 0, .start 1 closeOp, .next 0, .next 0, .next 0, .next 1]).map
      (·.holder) = some (some 1) := by decide +kernel
  obtain ⟨s, hs, hholder⟩ := Option.map_eq_some_iff.mp hview
  refine ⟨s, hs, hholder, (mutex_released _ s ?_ hs).1 1 hholder⟩
  intro t op hop
  have hop : op = enumerateTwo ∨ op = closeOp := by
    simp only [List.mem_cons, Mutex.Label.start.injEq, reduceCtorEq, false_or, or_false,
      List.not_mem_nil] at hop
    exact hop.imp And.right And.right
  rcases hop with rfl | rfl
  · have hloop : enumerateLoop trezors asciiEncode (fun _ => none)
        [trezor "a" (some [49]), trezor "b" (some [50])] [] =
          .ok [⟨some 0x534c, some 1, some "1", some "a"⟩,
            ⟨some 0x534c, some 1, some "2", some "b"⟩] := by decide +kernel
    exact (enumerateLoop_eq_ok.mp hloop).1
  · trivial

theorem mutex_stays_locked :
    ∃ s, Run.run twoThreads Mutex.Threads.idle
        [.start 0 enumerateTwins, .next 0, .next 0, .next 0, .start 1 closeOp] = some s ∧
      s.holder = some 0 ∧ s.todo 0 = none ∧ twoThreads s (.next 1) = none ∧
      enumerateTwins.events = [.lock, .act .enumerate] := by
  have hview : (Run.run twoThreads Mutex.Threads.idle
      [.start 0 enumerateTwins, .next 0, .next 0, .next 0, .start 1 closeOp]).map
      (fun s => (s.holder, s.todo 0, (twoThreads s (.next 1)).isNone)) =
        some (some 0, none, true) := by decide +kernel
  obtain ⟨s, hs, h⟩ := Option.map_eq_some_iff.mp hview
  simp only [Prod.mk.injEq, Option.isNone_iff_eq_none] at h
  exact ⟨s, hs, h.1, h.2.1, h.2.2, by decide +kernel⟩

end TrezorPlugin
