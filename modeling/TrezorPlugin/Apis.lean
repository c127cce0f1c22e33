import TrezorPlugin.Plugin
import TrezorPlugin.Hex
import TrezorPlugin.StreamParser
import TrezorPlugin.Lib.Run

/-!
# PluginAPI (apis.cpp, utils.cpp)

What a page can do: `configure`, `devices`, `call` and `close`, each on one of the
plugin objects of the process, with any page location and clock.

    configure: hex → bytes → signature over all but the first 64 → Configuration → allowed → stored

`configuration_gate` says what of this holds in every run: what is stored and
loaded went through all of it, a call that throws changed nothing, and `devices`
enumerates only for an allowed page.
-/

namespace TrezorPlugin

/-! ## Signatures (utils.cpp, utils_keys.h) -/

/-- `SIGNATURE_LENGTH`. -/
def signatureLength : Nat := 64

/-- The production keys. -/
def signatureKeys : List String :=
  ["-----BEGIN PUBLIC KEY-----\n" ++
    "MFYwEAYHKoZIzj0CAQYFK4EEAAoDQgAE1XG38UjF5CMsOBT3d9j66vGoQhbHjVab\n" ++
    "cQQf/HaKWy2BD8O7E03QJrV+ZQBSda7e9D4VX0j8EaMux5CpMxK9WA==\n" ++
    "-----END PUBLIC KEY-----\n",
   "-----BEGIN PUBLIC KEY-----\n" ++
    "MFYwEAYHKoZIzj0CAQYFK4EEAAoDQgAEYyecDAhm5QwFx5nTK9a6sBiLbeBlNtEQ\n" ++
    "nS7ZznbLM1xJDlWu4QzJASFRMuhTCX1UMu2ga3kgc713QMlM5FFssQ==\n" ++
    "-----END PUBLIC KEY-----\n",
   "-----BEGIN PUBLIC KEY-----\n" ++
    "MFYwEAYHKoZIzj0CAQYFK4EEAAoDQgAEQ67btvfnHFY/jtLvZOyZgUglGefvT0qp\n" ++
    "iyeFToxJEm1JVtMAq0X9w0zSa8hxDeCjHb323nQ1/QtJK+cKx1/eWA==\n" ++
    "-----END PUBLIC KEY-----\n",
   "-----BEGIN PUBLIC KEY-----\n" ++
    "MFYwEAYHKoZIzj0CAQYFK4EEAAoDQgAEh3w5/XxiI34DgjXpwHXasmFjD3juuO25\n" ++
    "JIcVn//t/fYEbG+LiB+kB8Skzmwo3gsZwfTinx/LxaWP/RQyo+CTig==\n" ++
    "-----END PUBLIC KEY-----\n",
   "-----BEGIN PUBLIC KEY-----\n" ++
    "MFYwEAYHKoZIzj0CAQYFK4EEAAoDQgAEc4TFGuga3QpSOtuxhskbkG/7ZMLHZYAr\n" ++
    "8m29E73xLDGegMIhOhNsjuA9eHT9IrcNaOfe5Gnez7u1EO6aRgzaRQ==\n" ++
    "-----END PUBLIC KEY-----\n"]

/-- OpenSSL, boost's regex and the generated parser of `Configuration`. -/
structure Libraries where
  PKey : Type
  Key : Type
  /-- `PEM_read_bio_PUBKEY` on a memory buffer. -/
  pemReadBioPubkey : String → Option PKey
  evpPkeyGet1EcKey : PKey → Option Key
  sha256 : List UInt8 → List UInt8
  ecdsaDoVerify : List UInt8 → Nat × Nat → Key → Int
  regexMatch : RegexMatch
  /-- The object as `ParseFromArray` leaves it, and what that returned. -/
  parseFromArray : List UInt8 → Configuration × Bool

/-- `BN_bin2bn`: big-endian. -/
def bnBin2bn (bytes : List UInt8) : Nat := bytes.foldl (fun n b => 256 * n + b.toNat) 0

variable (L : Libraries)

def readEckey (pem : String) : Option L.Key := do
  let evpkey ← L.pemReadBioPubkey pem
  L.evpPkeyGet1EcKey evpkey

/-- The signature at the start of `sig`: the two numbers of an ECDSA signature. -/
def readSignature (sig : List UInt8) : Nat × Nat :=
  (bnBin2bn (sig.take (signatureLength / 2)),
    bnBin2bn ((sig.drop (signatureLength / 2)).take (signatureLength / 2)))

/-- `signature_verify`: a key that cannot be read is passed over. -/
def signatureVerify (sig data : List UInt8) : Bool :=
  signatureKeys.any fun pem =>
    match readEckey L pem with
    | none => false
    | some eckey => decide (0 < L.ecdsaDoVerify (L.sha256 data) (readSignature sig) eckey)

/-! ## The four methods -/

variable {τ δ κ Msg Map : Type} (E : Env τ δ) (P : Protobuf Msg) (J : Scripting κ Msg Map)

def acquirePlugin (ctx : Context) : ProcessM κ Map δ Unit :=
  if ctx.alive then pure () else throw (.throws (.scriptError "The plugin is invalid"))

/-- `try { body } catch (const std::exception &e) { throw FB::script_error(e.what()) }`. -/
def rethrowing {α : Type} (body : ProcessM κ Map δ α) : ProcessM κ Map δ α := fun s =>
  match body s with
  | .error (.throws e) s => .error (.throws (.scriptError e.what)) s
  | res => res

/-- `try { body } catch (const std::exception &e) { callbacks->InvokeAsync("error", e.what()) }`. -/
def calling (callbacks : κ) (body : ProcessM κ Map δ Unit) : ProcessM κ Map δ Unit := fun s =>
  match body s with
  | .error (.throws e) s =>
    match J.invokeAsync callbacks (.error e.what) with
    | .ok () => .ok () { s with fired := s.fired ++ [(callbacks, .error e.what)] }
    | .error e => .error (.throws e) s
  | res => res

def PluginAPI.configure (i : Nat) (ctx : Context) (configStrHex : String) :
    ProcessM κ Map δ Unit := rethrowing do
  let configStr ← liftExcept (hexDecode configStrHex)
  let verified := if signatureLength ≤ configStr.length then
      signatureVerify L configStr (configStr.drop signatureLength)
    else false
  if !verified then
    throw (.throws (.configurationError "Signature verification failed"))
  let config := (L.parseFromArray (configStr.drop signatureLength)).1
  acquirePlugin ctx
  BitcoinTrezorPlugin.configure P L.regexMatch i ctx config

/-- The devices, each wrapped into a `DeviceAPI` for the page. -/
def PluginAPI.devices (i : Nat) (ctx : Context) : ProcessM κ Map δ (List DeviceDescriptor) := do
  acquirePlugin ctx
  let s ← get
  if !(← liftExcept (BitcoinTrezorPlugin.authenticate L.regexMatch ctx.location
      (s.plugin i).configuration)) then
    throw (.throws (.configurationError "URL not allowed"))
  rethrowing do
    acquirePlugin ctx
    enumerateDevices E i ctx

/-- Both `call` and `close`: a job into the queue of the device's communicator. -/
def enqueue (i : Nat) (ctx : Context) (device : DeviceDescriptor) (job : DeviceJob κ Map) :
    ProcessM κ Map δ Unit := calling J job.callbacks do
  acquirePlugin ctx
  modify fun s => { s with
    plugin := Function.update s.plugin i { s.plugin i with
      communicators := putJob device job (s.plugin i).communicators } }

def PluginAPI.call (i : Nat) (ctx : Context) (device : DeviceDescriptor) (job : DeviceCallJob κ Map) :
    ProcessM κ Map δ Unit :=
  enqueue J i ctx device (.callJob job)

def PluginAPI.close (i : Nat) (ctx : Context) (device : DeviceDescriptor) (callbacks : κ) :
    ProcessM κ Map δ Unit :=
  enqueue J i ctx device (.closeJob callbacks)

/-! ## What `configure` lets through -/

/-- `hex` is a signature under a built-in key, and behind it the bytes it signs, parsed to
`config`. -/
def Signed (hex : String) (config : Configuration) : Prop :=
  ∃ bytes, hexDecode hex = .ok bytes ∧ signatureLength ≤ bytes.length ∧
    (∃ pem ∈ signatureKeys, ∃ key, readEckey L pem = some key ∧
      0 < L.ecdsaDoVerify (L.sha256 (bytes.drop signatureLength)) (readSignature bytes) key) ∧
    config = (L.parseFromArray (bytes.drop signatureLength)).1

/-- The call `configure(hex)`, with the page and the clock of `ctx`, may store `config`. -/
def Granted (ctx : Context) (hex : String) (config : Configuration) : Prop :=
  ctx.alive = true ∧ Signed L hex config ∧ Admitted L.regexMatch ctx config

theorem signatureVerify_eq_true {sig data : List UInt8} :
    signatureVerify L sig data = true ↔ ∃ pem ∈ signatureKeys, ∃ key, readEckey L pem = some key ∧
      0 < L.ecdsaDoVerify (L.sha256 data) (readSignature sig) key := by
  unfold signatureVerify
  rw [List.any_eq_true]
  refine exists_congr fun pem => and_congr_right ?_
  intro _
  cases readEckey L pem with
  | none => simp
  | some key => simp

theorem rethrowing_ok {α : Type} {body : ProcessM κ Map δ α} {a : α} {s s' : Process κ Map δ}
    (h : body s = .ok a s') : rethrowing body s = .ok a s' := by
  simp only [rethrowing, h]

theorem rethrowing_throws {α : Type} {body : ProcessM κ Map δ α} {e : Exception}
    {s s' : Process κ Map δ} (h : body s = .error (.throws e) s') :
    rethrowing body s = .error (.throws (.scriptError e.what)) s' := by
  simp only [rethrowing, h]

/-- **One configure call**: it stores a granted configuration, or it throws and has changed
nothing. -/
theorem configure_grants (i : Nat) (ctx : Context) (hex : String) (s : Process κ Map δ) :
    (∃ config, Granted L ctx hex config ∧
      PluginAPI.configure L P i ctx hex s = .ok () (s.configured P i config)) ∨
    ((∀ config, ¬ Granted L ctx hex config) ∧
      ∃ e, PluginAPI.configure L P i ctx hex s = .error (.throws e) s) := by
  unfold PluginAPI.configure
  cases hbytes : hexDecode hex with
  | error e =>
    refine .inr ⟨?_, _, rethrowing_throws rfl⟩
    rintro config ⟨-, ⟨bytes, h, -⟩, -⟩
    rw [hbytes] at h
    cases h
  | ok bytes =>
    have hsigned : ∀ config, Signed L hex config ↔
        (if signatureLength ≤ bytes.length then
          signatureVerify L bytes (bytes.drop signatureLength) else false) = true ∧
        config = (L.parseFromArray (bytes.drop signatureLength)).1 := by
      intro config
      unfold Signed
      simp only [hbytes, Except.ok.injEq, exists_eq_left', ← signatureVerify_eq_true]
      split <;> simp [*]
    unfold Granted
    simp only [hsigned]
    cases hv : (if signatureLength ≤ bytes.length then
      signatureVerify L bytes (bytes.drop signatureLength) else false) with
    | false =>
      refine .inr ⟨by simp, _, rethrowing_throws
        (e := .configurationError "Signature verification failed") ?_⟩
      rw [Exec.bind_ok (show liftExcept (.ok bytes) s = .ok bytes s from rfl), hv]
      rfl
    | true =>
      cases halive : ctx.alive with
      | false =>
        refine .inr ⟨by simp, _, rethrowing_throws
          (e := .scriptError "The plugin is invalid") ?_⟩
        rw [Exec.bind_ok (show liftExcept (.ok bytes) s = .ok bytes s from rfl), hv]
        simp only [acquirePlugin, halive]
        rfl
      | true =>
        rcases configure_cases P L.regexMatch i ctx
          (L.parseFromArray (bytes.drop signatureLength)).1 s with ⟨hadm, heq⟩ | ⟨hadm, e, heq⟩
        · refine .inl ⟨_, ⟨rfl, ⟨rfl, rfl⟩, hadm⟩, rethrowing_ok ?_⟩
          rw [Exec.bind_ok (show liftExcept (.ok bytes) s = .ok bytes s from rfl), hv]
          simp only [acquirePlugin, halive]
          exact heq
        · refine .inr ⟨by simp [hadm], _, rethrowing_throws (e := e) ?_⟩
          rw [Exec.bind_ok (show liftExcept (.ok bytes) s = .ok bytes s from rfl), hv]
          simp only [acquirePlugin, halive]
          exact heq

/-! ## Runs of calls -/

inductive ApiOp (κ Map : Type)
  | configure (hex : String)
  | devices
  | call (device : DeviceDescriptor) (job : DeviceCallJob κ Map)
  | close (device : DeviceDescriptor) (callbacks : κ)

/-- One call of the page, on an instance. -/
structure ApiCall (κ Map : Type) where
  plugin : Nat
  ctx : Context
  op : ApiOp κ Map

/-- The call up to its end; what it returns is not looked at. -/
def ApiCall.run (c : ApiCall κ Map) : ProcessM κ Map δ Unit :=
  match c.op with
  | .configure hex => PluginAPI.configure L P c.plugin c.ctx hex
  | .devices => do
    let _ ← PluginAPI.devices L E c.plugin c.ctx
    return
  | .call device job => PluginAPI.call J c.plugin c.ctx device job
  | .close device callbacks => PluginAPI.close J c.plugin c.ctx device callbacks

/-- A call that comes to its end, by returning or throwing. -/
def apiStep (s : Process κ Map δ) (c : ApiCall κ Map) : Option (Process κ Map δ) :=
  match c.run L E P J s with
  | .ok () s' => some s'
  | .error (.throws _) s' => some s'
  | .error _ _ => none

/-- `c` is a `configure` call that may store `config` on instance `i`. -/
def Grants (c : ApiCall κ Map) (i : Nat) (config : Configuration) : Prop :=
  c.plugin = i ∧ ∃ hex, c.op = .configure hex ∧ Granted L c.ctx hex config

/-- What is stored and loaded after the calls. -/
structure Gated (pool : DescriptorPool) (calls : List (ApiCall κ Map)) (s : Process κ Map δ) :
    Prop where
  stored : ∀ i, (s.plugin i).configuration = .empty ∨
    ∃ c ∈ calls, Grants L c i (s.plugin i).configuration
  loads : ∀ load ∈ s.loads, ∃ c ∈ calls, Grants L c load.1 load.2
  pool : s.pool = s.loads.foldl (fun pool load => loadProtobuf P pool load.2.wireProtocol) pool

/-- The configurations and the pool stay as they are. -/
def Unconfigured (s s' : Process κ Map δ) : Prop :=
  (∀ i, (s'.plugin i).configuration = (s.plugin i).configuration) ∧ s'.pool = s.pool ∧
    s'.loads = s.loads

theorem Unconfigured.refl (s : Process κ Map δ) : Unconfigured s s := ⟨fun _ => rfl, rfl, rfl⟩

theorem Unconfigured.trans (s t u : Process κ Map δ) (h1 : Unconfigured s t)
    (h2 : Unconfigured t u) : Unconfigured s u :=
  ⟨fun i => (h2.1 i).trans (h1.1 i), h2.2.1.trans h1.2.1, h2.2.2.trans h1.2.2⟩

theorem acquirePlugin_keeps (ctx : Context) :
    Exec.Keeps Unconfigured (acquirePlugin ctx : ProcessM κ Map δ Unit) := by
  intro s
  unfold acquirePlugin
  split <;> exact .refl s

theorem enumerateDevices_keeps (i : Nat) (ctx : Context) :
    Exec.Keeps Unconfigured
      (enumerateDevices E i ctx : ProcessM κ Map δ (List DeviceDescriptor)) := by
  intro s
  unfold enumerateDevices
  repeat' split
  all_goals exact ⟨fun _ => rfl, rfl, rfl⟩

theorem rethrowing_keeps {α : Type} {body : ProcessM κ Map δ α}
    (h : Exec.Keeps Unconfigured body) : Exec.Keeps Unconfigured (rethrowing body) := by
  intro s
  have hs := h s
  unfold rethrowing
  split
  · next heq =>
    rw [heq] at hs
    exact hs
  · exact hs

theorem calling_keeps (callbacks : κ) {body : ProcessM κ Map δ Unit}
    (h : Exec.Keeps Unconfigured body) : Exec.Keeps Unconfigured (calling J callbacks body) := by
  intro s
  have hs := h s
  unfold calling
  split
  · next heq =>
    rw [heq] at hs
    split <;> exact hs
  · exact hs

theorem enqueue_keeps (i : Nat) (ctx : Context) (device : DeviceDescriptor)
    (job : DeviceJob κ Map) :
    Exec.Keeps Unconfigured (enqueue J i ctx device job : ProcessM κ Map δ Unit) := by
  refine calling_keeps J _ (.bind Unconfigured.trans (acquirePlugin_keeps ctx) ?_)
  intro _ s
  refine ⟨?_, rfl, rfl⟩
  intro j
  show (Function.update s.plugin i _ j).configuration = _
  rw [Function.update_apply]
  split
  · next hj => rw [hj]
  · rfl

/-- `devices` goes past `authenticate` only for an allowed page. -/
theorem devices_cases (i : Nat) (ctx : Context) (s : Process κ Map δ) :
    (∃ page, ctx.location = .ok page ∧ Allows L.regexMatch page (s.plugin i).configuration ∧
      PluginAPI.devices L E i ctx s =
        rethrowing (acquirePlugin ctx >>= fun _ => enumerateDevices E i ctx) s) ∨
    ∃ e, PluginAPI.devices L E i ctx s = .error (.throws e) s := by
  unfold PluginAPI.devices
  cases halive : ctx.alive with
  | false =>
    refine .inr ⟨.scriptError "The plugin is invalid", ?_⟩
    simp only [acquirePlugin, halive]
    rfl
  | true =>
    have hacquire : acquirePlugin ctx s = .ok () s := by simp only [acquirePlugin, halive]; rfl
    rw [Exec.bind_ok hacquire, Exec.bind_ok (show (get : ProcessM κ Map δ _) s = .ok s s from rfl)]
    rcases ha : BitcoinTrezorPlugin.authenticate L.regexMatch ctx.location
      (s.plugin i).configuration with e | (_ | _)
    · exact .inr ⟨e, rfl⟩
    · exact .inr ⟨.configurationError "URL not allowed", rfl⟩
    · obtain ⟨page, hpage, hallows⟩ := (authenticate_eq_true L.regexMatch).mp ha
      exact .inl ⟨page, hpage, hallows, rfl⟩

theorem devices_keeps (i : Nat) (ctx : Context) :
    Exec.Keeps Unconfigured
      (PluginAPI.devices L E i ctx : ProcessM κ Map δ (List DeviceDescriptor)) := by
  intro s
  rcases devices_cases L E i ctx s with ⟨-, -, -, heq⟩ | ⟨e, heq⟩
  · rw [heq]
    exact rethrowing_keeps (.bind Unconfigured.trans (acquirePlugin_keeps ctx)
      fun _ => enumerateDevices_keeps E i ctx) s
  · rw [heq]
    exact .refl s

/-- What a call does to the configurations and the pool: a granted `configure` sets them, and nothing
else touches them. -/
theorem run_cases (c : ApiCall κ Map) (s : Process κ Map δ) :
    (∃ config, Grants L c c.plugin config ∧
      c.run L E P J s = .ok () (s.configured P c.plugin config)) ∨
    Unconfigured s (Exec.final (c.run L E P J s)) := by
  unfold ApiCall.run
  cases hop : c.op with
  | configure hex =>
    rcases configure_grants L P c.plugin c.ctx hex s with ⟨config, hg, heq⟩ | ⟨-, e, heq⟩
    · exact .inl ⟨config, ⟨rfl, hex, hop, hg⟩, heq⟩
    · simp only [heq]
      exact .inr (.refl s)
  | devices =>
    exact .inr (Exec.Keeps.bind Unconfigured.trans (devices_keeps L E c.plugin c.ctx)
      (fun _ => Exec.Keeps.pure Unconfigured.refl ()) s)
  | call device job => exact .inr (enqueue_keeps J _ _ device _ s)
  | close device callbacks => exact .inr (enqueue_keeps J _ _ device _ s)

theorem apiStep_cases {s s' : Process κ Map δ} {c : ApiCall κ Map}
    (h : apiStep L E P J s c = some s') :
    (∃ config, Grants L c c.plugin config ∧ s' = s.configured P c.plugin config) ∨
    Unconfigured s s' := by
  have hfinal : Exec.final (c.run L E P J s) = s' := by
    unfold apiStep at h
    split at h <;> cases h <;> next heq => rw [heq]; rfl
  rcases run_cases L E P J c s with ⟨config, hg, heq⟩ | hsame
  · rw [heq] at hfinal
    exact .inl ⟨config, hg, hfinal.symm⟩
  · rw [hfinal] at hsame
    exact .inr hsame

theorem apiStep_gated {pool : DescriptorPool} {calls : List (ApiCall κ Map)}
    {s s' : Process κ Map δ} {c : ApiCall κ Map} (hs : Gated L P pool calls s)
    (h : apiStep L E P J s c = some s') : Gated L P pool (calls ++ [c]) s' := by
  have hbefore : ∀ {i config}, (∃ c ∈ calls, Grants L c i config) →
      ∃ d ∈ calls ++ [c], Grants L d i config :=
    fun ⟨d, hd, hg⟩ => ⟨d, List.mem_append_left _ hd, hg⟩
  rcases apiStep_cases L E P J h with ⟨config, hg, rfl⟩ | ⟨hconf, hpool, hloads⟩
  · have hnow : ∃ d ∈ calls ++ [c], Grants L d c.plugin config := ⟨c, by simp, hg⟩
    refine ⟨?_, ?_, ?_⟩
    · intro i
      by_cases hi : i = c.plugin
      · subst hi
        simp only [Process.configured, Function.update_self]
        exact .inr hnow
      · simp only [Process.configured, Function.update_of_ne hi]
        exact (hs.stored i).imp_right hbefore
    · intro load hload
      rcases List.mem_append.mp hload with hload | hload
      · exact hbefore (hs.loads load hload)
      · rw [List.mem_singleton.mp hload]
        exact hnow
    · simp only [Process.configured, List.foldl_append, ← hs.pool]
      rfl
  · refine ⟨?_, ?_, ?_⟩
    · intro i
      rw [hconf i]
      exact (hs.stored i).imp_right hbefore
    · intro load hload
      rw [hloads] at hload
      exact hbefore (hs.loads load hload)
    · rw [hpool, hloads, hs.pool]

/-- **The configuration gate.**  After any calls of the page, on any instances, with any page
location and clock in each: what an instance stores is the empty configuration or was granted to
one of its `configure` calls, `load_protobuf` was applied to such configurations only, a `configure`
that throws changes nothing, and `devices` throws without any call of hidapi unless the stored
configuration allows the page. -/
theorem configuration_gate (pool : DescriptorPool) (dev : δ) (calls : List (ApiCall κ Map))
    (s : Process κ Map δ)
    (h : Run.run (apiStep L E P J) (Process.new pool dev) calls = some s) :
    Gated L P pool calls s ∧
    (∀ i ctx hex e s', PluginAPI.configure L P i ctx hex s = .error e s' → s' = s) ∧
    (∀ i ctx, (¬ ∃ page, ctx.location = .ok page ∧
        Allows L.regexMatch page (s.plugin i).configuration) →
      ∃ e, PluginAPI.devices L E i ctx s = .error (.throws e) s) := by
  refine ⟨?_, ?_, ?_⟩
  · have h0 : Gated L P pool [] (Process.new pool dev : Process κ Map δ) :=
      ⟨fun _ => .inl rfl, nofun, rfl⟩
    have := Run.run_inv_labels (apiStep L E P J) (Gated L P pool) (fun _ _ => True)
      (fun _ _ _ _ hs _ hstep => apiStep_gated L E P J hs hstep) h0 (Run.along_true _ _ calls) h
    rwa [List.nil_append] at this
  · intro i ctx hex e s' herr
    rcases configure_grants L P i ctx hex s with ⟨config, -, heq⟩ | ⟨-, e', heq⟩
    · rw [heq] at herr
      cases herr
    · rw [heq] at herr
      cases herr
      rfl
  · intro i ctx hno
    rcases devices_cases L E i ctx s with ⟨page, hpage, hallows, -⟩ | hthrows
    · exact absurd ⟨page, hpage, hallows⟩ hno
    · exact hthrows

/-- Libraries as they are on the empty message and the zero signature, which no key verifies, and
patterns without special characters. -/
def zeroLibraries : Libraries where
  PKey := Unit
  Key := Unit
  pemReadBioPubkey _ := some ()
  evpPkeyGet1EcKey _ := some ()
  sha256 _ := [0xe3, 0xb0, 0xc4, 0x42, 0x98, 0xfc, 0x1c, 0x14, 0x9a, 0xfb, 0xf4, 0xc8, 0x99, 0x6f,
    0xb9, 0x24, 0x27, 0xae, 0x41, 0xe4, 0x64, 0x9b, 0x93, 0x4c, 0xa4, 0x95, 0x99, 0x1b, 0x78, 0x52,
    0xb8, 0x55]
  ecdsaDoVerify _ sig _ := if sig.1 = 0 ∨ sig.2 = 0 then 0 else -1
  regexMatch location url := .ok (decide (location = url))
  parseFromArray _ := (.empty, false)

def page : Context := ⟨true, .ok "page", 0, fun _ => none⟩

/-- Bad hex, too short, a bad signature, and then the methods that need no configuration. -/
def pageCalls : List (ApiCall Nat (List UInt8)) :=
  [⟨0, page, .configure "0g"⟩, ⟨0, page, .configure "00"⟩,
    ⟨1, page, .configure (String.ofList (List.replicate 128 '0'))⟩, ⟨0, page, .devices⟩,
    ⟨0, page, .call ⟨none, none, none, some "dev"⟩ ⟨true, "Ping", [], 0⟩⟩,
    ⟨0, { page with alive := false }, .close ⟨none, none, none, some "dev"⟩ 1⟩]

theorem configuration_gate_rejects :
    ∃ s, Run.run (apiStep zeroLibraries (scriptEnv none fun _ => .ok "") rawProtobuf rawScripting)
        (Process.new pingPool 0) pageCalls = some s ∧
      s.fired = [(1, .error "The plugin is invalid")] ∧
      Gated zeroLibraries rawProtobuf pingPool pageCalls s ∧
      ∃ e, PluginAPI.devices zeroLibraries (scriptEnv none fun _ => .ok "") 0 page s =
        .error (.throws e) s := by
  have hview : (Run.run (apiStep zeroLibraries (scriptEnv none fun _ => .ok "") rawProtobuf
      rawScripting) (Process.new pingPool 0) pageCalls).map (fun s => (s.fired,
        decide ((s.plugin 0).configuration = .empty))) =
      some ([(1, .error "The plugin is invalid")], true) := by decide +kernel
  obtain ⟨s, hs, h⟩ := Option.map_eq_some_iff.mp hview
  simp only [Prod.mk.injEq, decide_eq_true_eq] at h
  obtain ⟨hgated, -, hdevices⟩ := configuration_gate zeroLibraries
    (scriptEnv none fun _ => .ok "") rawProtobuf rawScripting pingPool 0 pageCalls s hs
  refine ⟨s, hs, h.1, hgated, hdevices 0 page ?_⟩
  rintro ⟨location, -, -, before, url, after, hwhite, -⟩
  rw [h.2] at hwhite
  cases before <;> cases hwhite

end TrezorPlugin
