import TrezorPlugin.Channel
import TrezorPlugin.Lib.Run

/-!
# DeviceJobExecutor (plugin.h, plugin.cpp)

The executor owns a buffer and a channel; the channel borrows the buffer and owns
a hidapi handle.  Buffers live in a small heap, so that "the buffer the channel
borrowed" is a pointer that can be compared, and dangle.

`execute` runs one job.  `message_from_map`, `message_to_map` and `InvokeAsync`
are a parameter `Scripting`: any of them may throw.
-/

namespace TrezorPlugin

/-! ## Jobs and callbacks -/

structure DeviceCallJob (κ Map : Type) where
  useTimeout : Bool
  typeName : String
  messageMap : Map
  callbacks : κ

/-- `DeviceJob`: a variant of the three kinds of jobs. -/
inductive DeviceJob (κ Map : Type)
  | closeJob (callbacks : κ)
  | openJob (callbacks : κ)
  | callJob (job : DeviceCallJob κ Map)

def DeviceJob.callbacks {κ Map : Type} : DeviceJob κ Map → κ
  | .closeJob callbacks => callbacks
  | .openJob callbacks => callbacks
  | .callJob job => job.callbacks

/-- The callback `InvokeAsync` is given: `"success"` with its arguments, or `"error"`. -/
inductive Answer (Map : Type)
  | success (args : Option (String × Map))
  | error (what : String)
  deriving DecidableEq

/-- The browser's side: JavaScript maps and callbacks. -/
structure Scripting (κ Msg Map : Type) where
  messageFromMap : Msg → Map → Except Exception Msg
  messageToMap : Msg → Except Exception Map
  invokeAsync : κ → Answer Map → Except Exception Unit

/-! ## The executor -/

/-- The members of a `DeviceChannel`: the borrowed buffer and the owned handle. -/
structure DeviceChannel where
  buffer : Nat
  device : Handle
  deriving DecidableEq

/-- The members of the executor, the buffers alive, the world, the polls to come, and the callbacks
invoked so far. -/
structure ExecState (τ δ κ Map : Type) where
  buffer : Option Nat
  channel : Option DeviceChannel
  heap : Nat → Option HIDBuffer
  next : Nat
  world : World δ
  ticks : List τ
  fired : List (κ × Answer Map)

abbrev ExecM (τ δ κ Map α : Type) := EStateM Stop (ExecState τ δ κ Map) α

variable {τ δ κ Msg Map : Type} (E : Env τ δ) (P : Protobuf Msg) (J : Scripting κ Msg Map)
variable (pool : DescriptorPool) (path : String)

def uart : List UInt8 := [0x41, 0x01]

def txrx : List UInt8 := [0x43, 0x03]

def DeviceChannel.open (w : World δ) : Except Exception Handle × World δ :=
  let (res, dev) := E.hidOpenPath w.dev path
  let w := w.locked [.openPath path res] dev
  match res with
  | none => (.error .openError, w)
  | some h =>
    -- enable UART, then purge TX/RX FIFOs
    let dev := E.hidSendFeatureReport (E.hidSendFeatureReport w.dev h uart) h txrx
    (.ok h, w.locked [.sendFeatureReport h uart, .sendFeatureReport h txrx] dev)

def DeviceChannel.close (h : Handle) (w : World δ) : World δ :=
  w.locked [.close h] (E.hidClose w.dev h)

/-- `_buffer->…` and `_channel->…` on the channel's own pointers. -/
def onChannel {α : Type} (op : Handle → IoM τ δ α) : ExecM τ δ κ Map α := fun s =>
  match s.channel with
  | none => .error .undefined s
  | some ch =>
    match s.heap ch.buffer with
    | none => .error .undefined s
    | some buf =>
      match op ch.device ⟨buf, s.world, s.ticks⟩ with
      | .ok a io => .ok a { s with
          heap := Function.update s.heap ch.buffer (some io.buf), world := io.world,
          ticks := io.ticks }
      | .error e io => .error e { s with
          heap := Function.update s.heap ch.buffer (some io.buf), world := io.world,
          ticks := io.ticks }

/-- `if (!_buffer.get()) _buffer.reset(new HIDBuffer())`. -/
def ensureBuffer : ExecM τ δ κ Map Unit := fun s =>
  match s.buffer with
  | some _ => .ok () s
  | none => .ok () { s with
      buffer := some s.next, heap := Function.update s.heap s.next (some .new), next := s.next + 1 }

/-- `if (!_channel.get()) _channel.reset(new DeviceChannel(_device.path(), _buffer.get()))`. -/
def ensureChannel : ExecM τ δ κ Map Unit := fun s =>
  match s.channel with
  | some _ => .ok () s
  | none =>
    match s.buffer with
    | none => .error .undefined s
    | some p =>
      match DeviceChannel.open E path s.world with
      | (.error e, w) => .error (.throws e) { s with world := w }
      | (.ok h, w) => .ok () { s with channel := some ⟨p, h⟩, world := w }

/-- `_channel.reset()`; the destructor closes the handle. -/
def resetChannel (s : ExecState τ δ κ Map) : ExecState τ δ κ Map :=
  match s.channel with
  | none => s
  | some ch => { s with channel := none, world := DeviceChannel.close E ch.device s.world }

/-- `_buffer.reset()`. -/
def resetBuffer (s : ExecState τ δ κ Map) : ExecState τ δ κ Map :=
  match s.buffer with
  | none => s
  | some p => { s with buffer := none, heap := Function.update s.heap p none }

/-- `callbacks->InvokeAsync(…)`. -/
def invokeAsync (callbacks : κ) (answer : Answer Map) : ExecM τ δ κ Map Unit := fun s =>
  match J.invokeAsync callbacks answer with
  | .ok () => .ok () { s with fired := s.fired ++ [(callbacks, answer)] }
  | .error e => .error (.throws e) s

/-- `try { body } catch (const std::exception &e) { callbacks->InvokeAsync("error", e.what()) }`;
an interruption of the thread passes through. -/
def reporting (callbacks : κ) (body : ExecM τ δ κ Map Unit) : ExecM τ δ κ Map Unit := fun s =>
  match body s with
  | .ok () s => .ok () s
  | .error (.throws e) s => invokeAsync J callbacks (.error e.what) s
  | .error e s => .error e s

/-- `DeviceJobExecutor::call`. -/
def call (job : DeviceCallJob κ Map) : ExecM τ δ κ Map Unit := do
  let inmsg ← liftExcept (createMessage P pool job.typeName)
  let inmsg ← liftExcept (J.messageFromMap inmsg job.messageMap)
  onChannel fun dev => DeviceChannel.write E P pool dev inmsg
  let outmsg ← onChannel fun dev => DeviceChannel.read E P pool dev job.useTimeout
  let map ← liftExcept (J.messageToMap outmsg)
  invokeAsync J job.callbacks (.success (some (P.getTypeName outmsg, map)))

/-- `DeviceJobExecutor::operator()`. -/
def execute : DeviceJob κ Map → ExecM τ δ κ Map Unit
  | .closeJob callbacks => reporting J callbacks do
    modify (resetChannel E)
    modify resetBuffer
    invokeAsync J callbacks (.success none)
  | .openJob callbacks => reporting J callbacks do
    ensureBuffer
    ensureChannel E path
    invokeAsync J callbacks (.success none)
  | .callJob job => reporting J job.callbacks do
    ensureBuffer
    ensureChannel E path
    call E P J pool job

/-- The implicit destructor: members go in reverse order. -/
def destroy (s : ExecState τ δ κ Map) : ExecState τ δ κ Map := resetBuffer (resetChannel E s)

/-- An operation that returns on a channel whose buffer is alive. -/
theorem of_onChannel_ok {α : Type} {op : Handle → IoM τ δ α} {a : α} {s s' : ExecState τ δ κ Map}
    {ch : DeviceChannel} {buf : HIDBuffer} (hch : s.channel = some ch)
    (hbuf : s.heap ch.buffer = some buf) (h : onChannel op s = .ok a s') :
    ∃ io, op ch.device ⟨buf, s.world, s.ticks⟩ = .ok a io ∧
      s'.channel = some ch ∧ s'.buffer = s.buffer ∧ s'.heap ch.buffer = some io.buf ∧
      s'.world = io.world ∧ s'.ticks = io.ticks ∧ s'.fired = s.fired := by
  simp only [onChannel, hch, hbuf] at h
  split at h
  · next io heq =>
    cases h
    exact ⟨io, heq, rfl, rfl, Function.update_self .., rfl, rfl, rfl⟩
  · cases h

theorem onChannel_returns {α : Type} (op : Handle → IoM τ δ α) {s : ExecState τ δ κ Map}
    {ch : DeviceChannel} {buf : HIDBuffer} {a : α} {io : IoState τ δ}
    (hch : s.channel = some ch) (hbuf : s.heap ch.buffer = some buf)
    (h : op ch.device ⟨buf, s.world, s.ticks⟩ = .ok a io) :
    ∃ s', onChannel op s = .ok a s' ∧ s'.channel = some ch ∧ s'.heap ch.buffer = some io.buf ∧
      s'.world = io.world ∧ s'.ticks = io.ticks ∧ s'.fired = s.fired := by
  simp only [onChannel, hch, hbuf, h]
  exact ⟨_, rfl, rfl, Function.update_self .., rfl, rfl, rfl⟩

theorem onChannel_throws {α : Type} (op : Handle → IoM τ δ α) {s : ExecState τ δ κ Map}
    {ch : DeviceChannel} {buf : HIDBuffer} {e : Stop} {io : IoState τ δ}
    (hch : s.channel = some ch) (hbuf : s.heap ch.buffer = some buf)
    (h : op ch.device ⟨buf, s.world, s.ticks⟩ = .error e io) :
    ∃ s', onChannel op s = .error e s' ∧ s'.ticks = io.ticks ∧ s'.fired = s.fired := by
  simp only [onChannel, hch, hbuf, h]
  exact ⟨_, rfl, rfl, rfl⟩

theorem of_invokeAsync_ok {callbacks : κ} {answer : Answer Map} {s s' : ExecState τ δ κ Map}
    (h : invokeAsync J callbacks answer s = .ok () s') :
    s' = { s with fired := s.fired ++ [(callbacks, answer)] } := by
  unfold invokeAsync at h
  split at h
  · cases h
    rfl
  · cases h

/-- A body goes on from where its first part ended. -/
theorem reporting_bind {α : Type} {callbacks : κ} {x : ExecM τ δ κ Map α}
    {f : α → ExecM τ δ κ Map Unit} {a : α} {s s' : ExecState τ δ κ Map} (h : x s = .ok a s') :
    reporting J callbacks (x >>= f) s = reporting J callbacks (f a) s' := by
  unfold reporting
  rw [Exec.bind_ok h]

/-- A call that returns has made its message, written it, read a message and passed that on. -/
theorem of_call_ok {job : DeviceCallJob κ Map} {s s' : ExecState τ δ κ Map} {ch : DeviceChannel}
    {buf : HIDBuffer} (hch : s.channel = some ch) (hbuf : s.heap ch.buffer = some buf)
    (h : call E P J pool job s = .ok () s') :
    ∃ inmsg m io outmsg io' map, createMessage P pool job.typeName = .ok inmsg ∧
      J.messageFromMap inmsg job.messageMap = .ok m ∧
      DeviceChannel.write E P pool ch.device m ⟨buf, s.world, s.ticks⟩ = .ok () io ∧
      DeviceChannel.read E P pool ch.device job.useTimeout io = .ok outmsg io' ∧
      J.messageToMap outmsg = .ok map ∧
      s'.channel = some ch ∧ s'.buffer = s.buffer ∧ s'.heap ch.buffer = some io'.buf ∧
      s'.world = io'.world ∧
      s'.fired = s.fired ++ [(job.callbacks, .success (some (P.getTypeName outmsg, map)))] := by
  obtain ⟨inmsg, s1, h1, hcall1⟩ := Exec.of_bind_ok h
  obtain ⟨hin, rfl⟩ := of_liftExcept_ok h1
  obtain ⟨m, s2, h2, hcall2⟩ := Exec.of_bind_ok hcall1
  obtain ⟨hm, rfl⟩ := of_liftExcept_ok h2
  obtain ⟨_, s3, h3, hcall3⟩ := Exec.of_bind_ok hcall2
  obtain ⟨io, hw, hch3, hb3, hbuf3, hw3, ht3, hf3⟩ := of_onChannel_ok hch hbuf h3
  obtain ⟨outmsg, s4, h4, hcall4⟩ := Exec.of_bind_ok hcall3
  obtain ⟨io', hr, hch4, hb4, hbuf4, hw4, -, hf4⟩ := of_onChannel_ok hch3 hbuf3 h4
  obtain ⟨map, s5, h5, hinvoke⟩ := Exec.of_bind_ok hcall4
  obtain ⟨hmap, rfl⟩ := of_liftExcept_ok h5
  obtain rfl := of_invokeAsync_ok J hinvoke
  rw [hw3, ht3] at hr
  exact ⟨inmsg, m, io, outmsg, io', map, hin, hm, hw, hr, hmap, hch4, hb4.trans hb3, hbuf4, hw4,
    by rw [hf4, hf3]⟩

/-- A new executor. -/
def ExecState.new (dev : δ) (ticks : List τ) : ExecState τ δ κ Map :=
  ⟨none, none, fun _ => none, 0, ⟨dev, []⟩, ticks, []⟩

/-- Maps that are the wire bytes of a message, and callbacks that can always be invoked. -/
def rawScripting : Scripting Nat RawMessage (List UInt8) where
  messageFromMap m map :=
    if h : map.length < 2 ^ 31 then .ok ⟨m.typeName, map, h⟩
    else .error (.invalidArgument "Error while parsing")
  messageToMap m := .ok m.body
  invokeAsync _ _ := .ok ()

end TrezorPlugin
