import TrezorPlugin.Lib.Framing
import TrezorPlugin.Lib.Mutex
import TrezorPlugin.Lib.Exec

/-!
# hidapi, the clock and the exceptions of the plugin

What the plugin finds outside itself: the hidapi functions, `time(0)`, boost's
interruption flag and the UTF-8 encoder, as one structure `Env τ δ`.  `δ` is the
state of the devices behind hidapi and of the clock; `τ` is what the outside
decides at each `hid_read_timeout`, so a list of `τ` is a run of polls and an
arbitrary `Env` is an arbitrary device.

`World` keeps the device state and what the plugin has done to it: every
hidapi call and every lock and unlock of `hidapi_mutex`, in order.
-/

namespace TrezorPlugin

/-! ## Exceptions (exceptions.h, and the standard ones the code throws) -/

inductive Exception
  | readError (msg : String)
  | writeError (msg : String)
  | configurationError (msg : String)
  | messageTypeUnknown (type : UInt16)
  | messageNameUnknown (type : String)
  | openError
  | readTimeout
  | scriptError (msg : String)
  | runtimeError (msg : String)
  | invalidArgument (msg : String)
  | outOfRange (msg : String)
  /-- An exception of a library: regex, allocation, conversion. -/
  | library (msg : String)
  deriving DecidableEq, Repr

/-- `e.what()`. -/
def Exception.what : Exception → String
  | .readError msg => "Read error: " ++ msg
  | .writeError msg => "Write error: " ++ msg
  | .configurationError msg => "Configuration error: " ++ msg
  | .messageTypeUnknown type => "Message type unknown: " ++ toString type.toNat
  | .messageNameUnknown type => "Message type unknown: '" ++ type ++ "'"
  | .openError => "Opening device failed"
  | .readTimeout => "Reading timed out"
  | .scriptError msg => msg
  | .runtimeError msg => msg
  | .invalidArgument msg => msg
  | .outOfRange msg => msg
  | .library msg => msg

/-- The ways an operation ends other than by returning. -/
inductive Stop where
  | throws (e : Exception)
  /-- `boost::thread_interrupted`, which is no `std::exception`. -/
  | threadInterrupted
  /-- Still waiting when the run ends: polling, with its polls used up, or for the mutex. -/
  | pending
  /-- Undefined behaviour: a store outside `_buffer`, or a dead pointer. -/
  | undefined
  deriving DecidableEq, Repr

/-! ## hidapi -/

/-- A non-null `hid_device *`. -/
abbrev Handle := Nat

/-- A `wchar_t` string, as its code units. -/
abbrev WString := List Nat

/-- What `hid_read_timeout` stored, 1 to 64 bytes. -/
structure Report where
  bytes : List UInt8
  nonempty : bytes ≠ []
  fits : bytes.length ≤ 64
  deriving DecidableEq

/-- The outcome of `hid_read_timeout(dev, chunk, 64, 10)`. -/
inductive ReadResult
  | report (r : Report)
  | empty
  | error
  deriving DecidableEq

/-- The `int` it returns. -/
def ReadResult.res : ReadResult → Int
  | .report r => r.bytes.length
  | .empty => 0
  | .error => -1

/-- `min(res, int(chunk[0])+1)`. -/
def Report.chlen (r : Report) : Nat :=
  min r.bytes.length ((r.bytes.getD 0 0).toNat + 1)

/-- The bytes `chunk[1 .. chlen)`. -/
def Report.payload (r : Report) : List UInt8 := (r.bytes.take r.chlen).drop 1

def ReadResult.payload : ReadResult → List UInt8
  | .report r => r.payload
  | .empty => []
  | .error => []

theorem Report.length_payload_le (r : Report) : r.payload.length ≤ 63 := by
  have := r.fits
  simp only [Report.payload, List.length_drop, List.length_take]
  omega

theorem ReadResult.length_payload_le (r : ReadResult) : r.payload.length ≤ 63 := by
  cases r with
  | report r => exact r.length_payload_le
  | empty => simp [ReadResult.payload]
  | error => simp [ReadResult.payload]

inductive HidCall
  | openPath (path : String) (res : Option Handle)
  | sendFeatureReport (dev : Handle) (data : List UInt8)
  | close (dev : Handle)
  | write (dev : Handle) (chunk : List UInt8) (res : Int)
  | readTimeout (dev : Handle) (res : Int)
  | error (dev : Handle)
  | enumerate
  | freeEnumeration
  deriving DecidableEq

/-- What the plugin does to `hidapi_mutex` and to hidapi. -/
abbrev Event := Mutex.Act HidCall

/-- A call on the open handle `h`: everything but opening, closing and enumerating. -/
def HidCall.On (h : Handle) : HidCall → Prop
  | .sendFeatureReport dev _ => dev = h
  | .write dev _ _ => dev = h
  | .readTimeout dev _ => dev = h
  | .error dev => dev = h
  | .openPath _ _ => False
  | .close _ => False
  | .enumerate => False
  | .freeEnumeration => False

/-- `hid_device_info`; a null string is `none`. -/
structure HidDeviceInfo where
  path : String
  vendorId : UInt16
  productId : UInt16
  serialNumber : Option WString
  productString : Option WString
  interfaceNumber : Int

structure Env (τ δ : Type) where
  hidEnumerate : δ → List HidDeviceInfo × δ
  hidOpenPath : δ → String → Option Handle × δ
  hidSendFeatureReport : δ → Handle → List UInt8 → δ
  hidClose : δ → Handle → δ
  hidWrite : δ → Handle → List UInt8 → Int × δ
  hidReadTimeout : δ → Handle → τ → ReadResult × δ
  hidError : δ → Handle → Option WString
  /-- `time(0)`; the clock moves on with whatever else happens outside. -/
  time : δ → Int
  interruptionRequested : δ → Bool
  utf8Encode : WString → Except Exception String

structure World (δ : Type) where
  dev : δ
  trace : List Event

variable {τ δ : Type}

/-- One critical section of `hidapi_mutex`. -/
def World.locked (w : World δ) (calls : List HidCall) (dev : δ) : World δ :=
  ⟨dev, w.trace ++ Mutex.critical calls⟩

@[simp] theorem World.locked_dev (w : World δ) (calls : List HidCall) (dev : δ) :
    (w.locked calls dev).dev = dev := rfl

@[simp] theorem World.locked_trace (w : World δ) (calls : List HidCall) (dev : δ) :
    (w.locked calls dev).trace = w.trace ++ Mutex.critical calls := rfl

/-- `w'` comes after `w` by critical sections that only use the handle `h`. -/
def World.Uses (h : Handle) (w w' : World δ) : Prop :=
  ∃ es, w'.trace = w.trace ++ es ∧ Mutex.Sections (HidCall.On h) es

theorem World.Uses.refl (h : Handle) (w : World δ) : w.Uses h w :=
  ⟨[], by simp, .nil⟩

theorem World.Uses.trans {h : Handle} {w w' w'' : World δ} (h1 : w.Uses h w')
    (h2 : w'.Uses h w'') : w.Uses h w'' := by
  obtain ⟨es, e1, s1⟩ := h1
  obtain ⟨fs, e2, s2⟩ := h2
  exact ⟨es ++ fs, by rw [e2, e1, List.append_assoc], s1.append s2⟩

theorem World.uses_locked (h : Handle) (w : World δ) {calls : List HidCall} (dev : δ)
    (hc : ∀ c ∈ calls, c.On h) : w.Uses h (w.locked calls dev) :=
  ⟨_, rfl, .one hc⟩

/-- The devices after the polls `ts` on `h`. -/
def Env.after (E : Env τ δ) (h : Handle) (d : δ) (ts : List τ) : δ :=
  ts.foldl (fun d t => (E.hidReadTimeout d h t).2) d

/-- The text of a failed hidapi call: `err ? utf8_encode(err) : "Unknown read error"`. -/
def Env.errorText (E : Env τ δ) (dev : δ) (h : Handle) : Except Exception String :=
  match E.hidError dev h with
  | some err => E.utf8Encode err
  | none => .ok "Unknown read error"

end TrezorPlugin
