import TrezorPlugin.Apis
import TrezorPlugin.Communicator

/-!
# Malformed protobuf data

Outside data is parsed in two places: a response in `DeviceChannel::read`, a signed
configuration in `PluginAPI::configure`.  Neither looks at what `ParseFromArray`
returned, so both go on with the object as far as it was filled:

* a read returns it, and the job answers with success unless `message_to_map`
  throws on it (`call_received`);
* `configure` loads and stores it unless the plugin is gone or the checks refuse it.
-/

namespace TrezorPlugin

variable {τ δ κ Msg Map : Type} (E : Env τ δ) (P : Protobuf Msg) (J : Scripting κ Msg Map)
  (pool : DescriptorPool)

/-! ## Responses -/

/-- `DeviceChannel::read` up to the payload. -/
def DeviceChannel.receive (dev : Handle) (timeout : Bool) : IoM τ δ (UInt16 × List UInt8) := do
  let (type, length) ← DeviceChannel.readHeader E dev timeout
  if length.toNat > bufferSize then throw (.throws (.readError "Invalid data"))
  else do
    let msgbuf ← HIDBuffer.read E dev length.toNat timeout
    return (type, msgbuf)

/-- A payload of a known message type that `ParseFromArray` refuses, and what it leaves of it. -/
def Malformed (type : UInt16) (payload : List UInt8) (filled : Msg) : Prop :=
  ∃ d, pool.messageOf type = some d ∧ P.parseFromArray (P.newMessage d) payload = (filled, false)

theorem read_of_receive {dev : Handle} {timeout : Bool} {s s' : IoState τ δ} {type : UInt16}
    {payload : List UInt8} (h : DeviceChannel.receive E dev timeout s = .ok (type, payload) s') :
    DeviceChannel.read E P pool dev timeout s = liftExcept (decode P pool type payload) s' := by
  obtain ⟨⟨type', length⟩, s₁, hheader, h⟩ := Exec.of_bind_ok h
  unfold DeviceChannel.read
  rw [Exec.bind_ok hheader]
  dsimp only at h ⊢
  split at h
  · cases h
  · next hlen =>
    rw [if_neg hlen]
    obtain ⟨msgbuf, s₂, hread, hret⟩ := Exec.of_bind_ok h
    cases hret
    rw [Exec.bind_ok hread]
    exact decode_lift P pool type payload s'

/-- A malformed payload is read like any other. -/
theorem read_malformed {dev : Handle} {timeout : Bool} {s s' : IoState τ δ} {type : UInt16}
    {payload : List UInt8} {filled : Msg}
    (h : DeviceChannel.receive E dev timeout s = .ok (type, payload) s')
    (hbad : Malformed P pool type payload filled) :
    DeviceChannel.read E P pool dev timeout s = .ok filled s' := by
  obtain ⟨d, hd, hparse⟩ := hbad
  rw [read_of_receive E P pool h, decode_of_messageOf P hd, hparse]
  rfl

/-- A job whose request went out and whose response is malformed: `s` is the executor as the body of
the job finds it. -/
structure Received (path : String) (job : DeviceCallJob κ Map) (s₀ s : ExecState τ δ κ Map)
    (filled : Msg) : Prop where
  ensured : (do ensureBuffer; ensureChannel E path) s₀ = .ok () s
  received : ∃ ch buf inmsg m io io' type payload,
    s.channel = some ch ∧ s.heap ch.buffer = some buf ∧
    createMessage P pool job.typeName = .ok inmsg ∧
    J.messageFromMap inmsg job.messageMap = .ok m ∧
    DeviceChannel.write E P pool ch.device m ⟨buf, s.world, s.ticks⟩ = .ok () io ∧
    DeviceChannel.receive E ch.device job.useTimeout io = .ok (type, payload) io' ∧
    Malformed P pool type payload filled

/-- The callbacks of such a job are invoked for what `message_to_map` makes of the rest. -/
theorem call_received {path : String} {job : DeviceCallJob κ Map} {s₀ s : ExecState τ δ κ Map}
    {filled : Msg} (h : Received E P J pool path job s₀ s filled) :
    ∃ s', s'.fired = s₀.fired ∧ execute E P J pool path (.callJob job) s₀ =
      reporting J job.callbacks (do
        let map ← liftExcept (J.messageToMap filled)
        invokeAsync J job.callbacks (.success (some (P.getTypeName filled, map)))) s' := by
  obtain ⟨hensured, ch, buf, inmsg, m, io, io', type, payload, hch, hbuf, hin, hm, hwrite, hreceive,
    hbad⟩ := h
  obtain ⟨_, s₁, hbuffer, hopen⟩ := Exec.of_bind_ok hensured
  have hf₁ : s₁.fired = s₀.fired := silent_ensureBuffer.of_ok hbuffer
  have hf₂ : s.fired = s₁.fired := (silent_ensureChannel E path).of_ok hopen
  obtain ⟨s₂, hon₂, hch₂, hbuf₂, hworld₂, hticks₂, hf₃⟩ :=
    onChannel_returns (fun dev => DeviceChannel.write E P pool dev m) hch hbuf hwrite
  have hread : DeviceChannel.read E P pool ch.device job.useTimeout
      ⟨io.buf, s₂.world, s₂.ticks⟩ = .ok filled io' := by
    rw [hworld₂, hticks₂]
    exact read_malformed E P pool hreceive hbad
  obtain ⟨s₃, hon₃, -, -, -, -, hf₄⟩ :=
    onChannel_returns (fun dev => DeviceChannel.read E P pool dev job.useTimeout) hch₂ hbuf₂ hread
  refine ⟨s₃, by rw [hf₄, hf₃, hf₂, hf₁], ?_⟩
  show reporting J job.callbacks _ s₀ = _
  rw [reporting_bind J hbuffer, reporting_bind J hopen]
  unfold call
  rw [hin, reporting_bind J (show liftExcept (Except.ok inmsg) s = .ok inmsg s from rfl), hm,
    reporting_bind J (show liftExcept (Except.ok m) s = .ok m s from rfl),
    reporting_bind J hon₂, reporting_bind J hon₃]

/-- The job ends with its error callback, and with no other. -/
def EndsInError (callbacks : κ) (x : ExecM τ δ κ Map Unit) (s : ExecState τ δ κ Map) : Prop :=
  ∃ what s', x s = .ok () s' ∧ s'.fired = s.fired ++ [(callbacks, .error what)]

theorem call_endsInError_iff (hJ : ∀ callbacks answer, J.invokeAsync callbacks answer = .ok ())
    {path : String} {job : DeviceCallJob κ Map} {s₀ s : ExecState τ δ κ Map} {filled : Msg}
    (h : Received E P J pool path job s₀ s filled) :
    EndsInError job.callbacks (execute E P J pool path (.callJob job)) s₀ ↔
      ∃ e, J.messageToMap filled = .error e := by
  have hinvoke : ∀ answer (t : ExecState τ δ κ Map), invokeAsync J job.callbacks answer t =
      .ok () { t with fired := t.fired ++ [(job.callbacks, answer)] } := fun answer t => by
    rw [invokeAsync, hJ]
  obtain ⟨s', hfired, hexec⟩ := call_received E P J pool h
  unfold EndsInError
  rw [hexec, ← hfired]
  cases hmap : J.messageToMap filled with
  | error e => exact iff_of_true ⟨e.what, _, hinvoke (.error e.what) s', rfl⟩ ⟨e, rfl⟩
  | ok map =>
    refine iff_of_false ?_ (by rintro ⟨e, ⟨⟩⟩)
    rw [reporting_bind J (show liftExcept (Except.ok map) s' = .ok map s' from rfl), reporting,
      hinvoke]
    rintro ⟨what, s'', heq, hanswer⟩
    cases heq
    simp at hanswer

/-! ## Configurations -/

/-- `hex` is a signed body, behind its signature, that `ParseFromArray` refuses, and what it leaves
of it. -/
structure SignedMalformed (L : Libraries) (hex : String) (filled : Configuration) : Prop where
  signed : Signed L hex filled
  refused : ∀ bytes, hexDecode hex = .ok bytes →
    (L.parseFromArray (bytes.drop signatureLength)).2 = false

/-- It throws and has changed neither the stored configuration nor the pool. -/
def Refused (i : Nat) (s : Process κ Map δ) :
    EStateM.Result Stop (Process κ Map δ) Unit → Prop
  | .error (.throws _) s' =>
    (s'.plugin i).configuration = (s.plugin i).configuration ∧ s'.pool = s.pool
  | _ => False

theorem configure_refused_iff (L : Libraries) {i : Nat} {ctx : Context} {hex : String}
    {filled : Configuration} (h : Signed L hex filled) (s : Process κ Map δ) :
    Refused i s (PluginAPI.configure L P i ctx hex s) ↔
      ¬ (ctx.alive = true ∧ Admitted L.regexMatch ctx filled) := by
  rcases configure_grants L P i ctx hex s with ⟨config, hgranted, heq⟩ | ⟨hno, e, heq⟩
  · have hsame : config = filled := by
      obtain ⟨bytes, hb, -, -, hconfig⟩ := h
      obtain ⟨bytes', hb', -, -, hconfig'⟩ := hgranted.2.1
      rw [hb] at hb'
      cases hb'
      rw [hconfig, hconfig']
    rw [heq]
    exact iff_of_false id fun hn => hn ⟨hgranted.1, hsame ▸ hgranted.2.2⟩
  · rw [heq]
    exact iff_of_true ⟨rfl, rfl⟩ fun ⟨halive, hadm⟩ => hno filled ⟨halive, h, hadm⟩

/-- **Malformed data is used.**  A read of it never throws; the job ends with its error callback
exactly when `message_to_map` throws on the rest; and `configure` throws exactly when the plugin is
gone or the rest is not admitted. -/
theorem malformed_discarded_iff (E : Env τ δ) (P : Protobuf Msg) (J : Scripting κ Msg Map)
    (L : Libraries) (pool : DescriptorPool)
    (hJ : ∀ callbacks answer, J.invokeAsync callbacks answer = .ok ()) :
    (∀ dev timeout (s s' : IoState τ δ) type payload filled,
      DeviceChannel.receive E dev timeout s = .ok (type, payload) s' →
      Malformed P pool type payload filled →
      ¬ ∃ e s'', DeviceChannel.read E P pool dev timeout s = .error e s'') ∧
    (∀ path (job : DeviceCallJob κ Map) (s₀ s : ExecState τ δ κ Map) filled,
      Received E P J pool path job s₀ s filled →
      (EndsInError job.callbacks (execute E P J pool path (.callJob job)) s₀ ↔
        ∃ e, J.messageToMap filled = .error e)) ∧
    ∀ i ctx hex filled (s : Process κ Map δ), SignedMalformed L hex filled →
      (Refused i s (PluginAPI.configure L P i ctx hex s) ↔
        ¬ (ctx.alive = true ∧ Admitted L.regexMatch ctx filled)) := by
  refine ⟨?_, fun path job s₀ s filled h => call_endsInError_iff E P J pool hJ h,
    fun i ctx hex filled s h => configure_refused_iff P L h.signed s⟩
  rintro dev timeout s s' type payload filled hreceive hbad ⟨e, s'', herr⟩
  rw [read_malformed E P pool hreceive hbad] at herr
  cases herr

theorem dropLast_fits {bytes : List UInt8} (h : bytes.length < 2 ^ 31) :
    bytes.dropLast.length < 2 ^ 31 := by
  rw [List.length_dropLast]
  omega

/-- Bodies of fields with a tag and a varint of one byte each: a tag at the end without its value is
refused, with the fields before it kept. -/
def pairProtobuf : Protobuf RawMessage :=
  { rawProtobuf with
    parseFromArray := fun m bytes =>
      if h : bytes.length < 2 ^ 31 then
        if bytes.length % 2 = 0 then (⟨m.typeName, bytes, h⟩, true)
        else (⟨m.typeName, bytes.dropLast, dropLast_fits h⟩, false)
      else (m, false) }

theorem truncated_fits : (frameBytes 0 [8]).length ≤ bufferSize := by decide

/-- A buffer that holds a response whose only field has no value. -/
def truncatedBuffer : HIDBuffer := ⟨frameBytes 0 [8], 15, truncated_fits⟩

/-- A clock that stands still, devices that take every chunk. -/
def stillEnv : Env Poll Int := scriptEnv none fun _ => .ok ""

def truncatedState : IoState Poll Int := ⟨truncatedBuffer, ⟨0, []⟩, []⟩

/-- An executor with an open channel on that buffer. -/
def truncatedExec : ExecState Poll Int Nat (List UInt8) :=
  ⟨some 0, some ⟨0, 0⟩, fun _ => some truncatedBuffer, 1, ⟨0, []⟩, [], []⟩

theorem truncated_malformed : Malformed pairProtobuf pingPool 0 [8] pingMessage :=
  ⟨⟨"Ping", []⟩, by decide, rfl⟩

theorem truncated_receive :
    ∃ s', DeviceChannel.receive stillEnv 0 true truncatedState = .ok (0, [8]) s' := ⟨_, rfl⟩

theorem truncated_received :
    Received stillEnv pairProtobuf rawScripting pingPool "path" ⟨true, "Ping", [], 3⟩ truncatedExec
      truncatedExec pingMessage :=
  ⟨rfl, ⟨0, 0⟩, truncatedBuffer, pingMessage, pingMessage, _, _, 0, [8], rfl, rfl, rfl, rfl, rfl, rfl,
    truncated_malformed⟩

/-- A page that is allowed, and the tag of a date without its value. -/
def truncatedBody : List UInt8 := [10, 4, 112, 97, 103, 101, 40]

/-- What is left of it. -/
def truncatedConfiguration : Configuration := { Configuration.empty with whitelistUrls := ["page"] }

/-- Stands for the signature of `truncatedBody` that only the holder of a key can make. -/
def holderSignature : List UInt8 := List.replicate 64 1

/-- The libraries on `truncatedBody`, when the holder of a key has signed it. -/
def signedLibraries : Libraries where
  PKey := Unit
  Key := Unit
  pemReadBioPubkey _ := some ()
  evpPkeyGet1EcKey _ := some ()
  sha256 _ := [0xd6, 0x37, 0xd8, 0x6c, 0x00, 0x74, 0x3e, 0x07, 0xda, 0x6f, 0xab, 0xfd, 0xbf, 0xe4,
    0x96, 0x4d, 0x1c, 0xbb, 0x22, 0x82, 0x90, 0x0f, 0x01, 0xac, 0x9d, 0x98, 0x28, 0x6f, 0xf6, 0x5d,
    0xe9, 0x37]
  ecdsaDoVerify _ sig _ := if sig = readSignature holderSignature then 1 else 0
  regexMatch location url := .ok (decide (location = url))
  parseFromArray _ := (truncatedConfiguration, false)

theorem truncated_decoded :
    hexDecode (hexEncode (holderSignature ++ truncatedBody)) =
      .ok (holderSignature ++ truncatedBody) :=
  hexDecode_hexEncode _

theorem truncated_signed : SignedMalformed signedLibraries
    (hexEncode (holderSignature ++ truncatedBody)) truncatedConfiguration where
  signed := ⟨_, truncated_decoded, by decide, ⟨_, List.mem_cons_self, (), rfl, by decide⟩, rfl⟩
  refused _ _ := rfl

theorem truncated_admitted : Admitted signedLibraries.regexMatch page truncatedConfiguration := by
  exact ⟨nofun, "page", rfl, nofun, [], "page", [], rfl, nofun, rfl⟩

theorem malformed_discarded_iff_truncated :
    (¬ ∃ e s'', DeviceChannel.read stillEnv pairProtobuf pingPool 0 true truncatedState =
      .error e s'') ∧
    (EndsInError 3 (execute stillEnv pairProtobuf rawScripting pingPool "path"
        (.callJob ⟨true, "Ping", [], 3⟩)) truncatedExec ↔
      ∃ e, rawScripting.messageToMap pingMessage = .error e) ∧
    ¬ Refused 0 (Process.new pingPool 0 : Process Nat (List UInt8) Int)
      (PluginAPI.configure signedLibraries pairProtobuf 0 page
        (hexEncode (holderSignature ++ truncatedBody)) (Process.new pingPool 0)) := by
  obtain ⟨hread, hcall, hconfigure⟩ := malformed_discarded_iff stillEnv pairProtobuf rawScripting
    signedLibraries pingPool fun _ _ => rfl
  obtain ⟨s', hs'⟩ := truncated_receive
  refine ⟨hread 0 true truncatedState s' 0 [8] pingMessage hs' truncated_malformed,
    hcall "path" ⟨true, "Ping", [], 3⟩ truncatedExec truncatedExec pingMessage truncated_received,
    ?_⟩
  rw [hconfigure 0 page _ truncatedConfiguration _ truncated_signed, not_not]
  exact ⟨rfl, truncated_admitted⟩

theorem malformed_not_discarded :
    (∃ s', DeviceChannel.read stillEnv pairProtobuf pingPool 0 true truncatedState =
      .ok pingMessage s') ∧
    ¬ EndsInError 3 (execute stillEnv pairProtobuf rawScripting pingPool "path"
      (.callJob ⟨true, "Ping", [], 3⟩)) truncatedExec := by
  obtain ⟨s', hs'⟩ := truncated_receive
  refine ⟨⟨s', read_malformed stillEnv pairProtobuf pingPool hs' truncated_malformed⟩, ?_⟩
  rw [call_endsInError_iff stillEnv pairProtobuf rawScripting pingPool (fun _ _ => rfl) truncated_received]
  exact nofun

end TrezorPlugin
