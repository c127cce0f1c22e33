import TrezorPlugin.Executor
import TrezorPlugin.Enumerate

/-!
# BitcoinTrezorPlugin (plugin.h, plugin.cpp)

Several plugin objects live in one process and share the descriptor pool, so the
state of a run is a `Process`: the pool, hidapi, and a plugin for each instance.

* `authenticate_eq_true`: when a configuration allows the page;
* `configure_cases`: `configure` loads and stores an admitted configuration, and
  changes nothing for any other.
-/

namespace TrezorPlugin

variable {τ δ κ Msg Map : Type} (E : Env τ δ) (P : Protobuf Msg)

/-! ## The plugin objects of a process -/

/-- A `DeviceCommunicator` as the API sees it: its device, and the jobs put into its queue. -/
structure CommunicatorQueue (κ Map : Type) where
  device : DeviceDescriptor
  jobs : List (DeviceJob κ Map)

/-- The members of the plugin object. -/
structure BitcoinTrezorPlugin (κ Map : Type) where
  communicators : List (CommunicatorQueue κ Map)
  configuration : Configuration

structure Process (κ Map δ : Type) where
  /-- `descriptor_pool` (messages.cpp). -/
  pool : DescriptorPool
  plugin : Nat → BitcoinTrezorPlugin κ Map
  world : World δ
  /-- The configurations `load_protobuf` was applied for, and on which instance. -/
  loads : List (Nat × Configuration)
  /-- The callbacks the API itself invoked. -/
  fired : List (κ × Answer Map)

/-- A process before its first call. -/
def Process.new (pool : DescriptorPool) (dev : δ) : Process κ Map δ :=
  ⟨pool, fun _ => ⟨[], .empty⟩, ⟨dev, []⟩, [], []⟩

abbrev ProcessM (κ Map δ α : Type) := EStateM Stop (Process κ Map δ) α

/-- What the page and the clock are during one call, and what may fail in it. -/
structure Context where
  /-- The plugin object is still there for `acquire_plugin`. -/
  alive : Bool
  /-- `getDOMWindow()->getLocation()`. -/
  location : Except Exception String
  /-- `time(0)`. -/
  now : Int
  faults : Nat → Option Exception

/-- `boost::regex_match(location, boost::regex(url))`; either of the two may throw. -/
abbrev RegexMatch := String → String → Except Exception Bool

/-- A loop of `authenticate` over its URLs: whether one matches, before any throws. -/
def anyMatches (regexMatch : RegexMatch) (location : String) : List String → Except Exception Bool
  | [] => .ok false
  | url :: urls =>
    match regexMatch location url with
    | .error e => .error e
    | .ok true => .ok true
    | .ok false => anyMatches regexMatch location urls

/-- `BitcoinTrezorPlugin::authenticate`. -/
def BitcoinTrezorPlugin.authenticate (regexMatch : RegexMatch) (location : Except Exception String)
    (config : Configuration) : Except Exception Bool := do
  let location ← location
  if ← anyMatches regexMatch location config.blacklistUrls then
    return false
  if ← anyMatches regexMatch location config.whitelistUrls then
    return true
  return false

/-- `config.has_valid_until() && config.valid_until() < time(0)`. -/
def Configuration.expired (config : Configuration) (now : Int) : Bool :=
  match config.validUntil with
  | some t => decide ((t.toNat : Int) < now)
  | none => false

variable (regexMatch : RegexMatch)

/-- `load_protobuf` on the process's pool. -/
def loadConfiguration (i : Nat) (config : Configuration) : ProcessM κ Map δ Unit :=
  modify fun s => { s with
    pool := loadProtobuf P s.pool config.wireProtocol
    loads := s.loads ++ [(i, config)] }

/-- `_configuration = config` on instance `i`. -/
def storeConfiguration (i : Nat) (config : Configuration) : ProcessM κ Map δ Unit :=
  modify fun s => { s with
    plugin := Function.update s.plugin i { s.plugin i with configuration := config } }

/-- `BitcoinTrezorPlugin::configure` on instance `i`. -/
def BitcoinTrezorPlugin.configure (i : Nat) (ctx : Context) (config : Configuration) :
    ProcessM κ Map δ Unit := do
  if config.expired ctx.now then
    throw (.throws (.configurationError "Configuration has expired"))
  if !(← liftExcept (authenticate regexMatch ctx.location config)) then
    throw (.throws (.configurationError "URL is not allowed"))
  loadConfiguration P i config
  storeConfiguration i config

/-- `BitcoinTrezorPlugin::enumerate()` on instance `i`; it waits while `hidapi_mutex` is locked. -/
def enumerateDevices (i : Nat) (ctx : Context) : ProcessM κ Map δ (List DeviceDescriptor) := fun s =>
  if Mutex.held s.world.trace then .error .pending s
  else
    match BitcoinTrezorPlugin.enumerate E (s.plugin i).configuration ctx.faults s.world with
    | (.ok result, w) => .ok result { s with world := w }
    | (.error e, w) => .error (.throws e) { s with world := w }

/-- `communicator(desc)->…`, which puts a job into the queue of the first communicator with the
device's path, or of a new one. -/
def putJob (desc : DeviceDescriptor) (job : DeviceJob κ Map) :
    List (CommunicatorQueue κ Map) → List (CommunicatorQueue κ Map)
  | [] => [⟨desc, [job]⟩]
  | c :: communicators =>
    if c.device.path.getD "" = desc.path.getD "" then
      { c with jobs := c.jobs ++ [job] } :: communicators
    else c :: putJob desc job communicators

/-! ## What `authenticate` allows -/

theorem anyMatches_eq_false {location : String} {urls : List String} :
    anyMatches regexMatch location urls = .ok false ↔
      ∀ url ∈ urls, regexMatch location url = .ok false := by
  induction urls with
  | nil => simp [anyMatches]
  | cons url urls ih =>
    rw [anyMatches, List.forall_mem_cons, ← ih]
    rcases hm : regexMatch location url with e | (_ | _)
    · simp
    · simp
    · simp

theorem anyMatches_eq_true {location : String} {urls : List String} :
    anyMatches regexMatch location urls = .ok true ↔
      ∃ before url after, urls = before ++ url :: after ∧
        (∀ u ∈ before, regexMatch location u = .ok false) ∧ regexMatch location url = .ok true := by
  induction urls with
  | nil => simp [anyMatches]
  | cons url urls ih =>
    rw [anyMatches]
    constructor
    · intro h
      split at h
      · cases h
      · next hm => exact ⟨[], url, urls, rfl, nofun, hm⟩
      · next hm =>
        obtain ⟨before, u, after, rfl, hb, hu⟩ := ih.mp h
        exact ⟨url :: before, u, after, rfl, List.forall_mem_cons.mpr ⟨hm, hb⟩, hu⟩
    · rintro ⟨before, u, after, heq, hb, hu⟩
      cases before with
      | nil =>
        cases heq
        rw [hu]
      | cons b before =>
        cases heq
        rw [List.forall_mem_cons] at hb
        rw [hb.1]
        exact ih.mpr ⟨before, u, after, rfl, hb.2, hu⟩

/-- The configuration allows the page: no blacklist entry matches it, and a whitelist entry does,
the first that does not fail to. -/
structure Allows (location : String) (config : Configuration) : Prop where
  blacklist : ∀ url ∈ config.blacklistUrls, regexMatch location url = .ok false
  whitelist : ∃ before url after, config.whitelistUrls = before ++ url :: after ∧
    (∀ u ∈ before, regexMatch location u = .ok false) ∧ regexMatch location url = .ok true

theorem authenticate_eq_true {location : Except Exception String} {config : Configuration} :
    BitcoinTrezorPlugin.authenticate regexMatch location config = .ok true ↔
      ∃ page, location = .ok page ∧ Allows regexMatch page config := by
  cases location with
  | error e => simp [BitcoinTrezorPlugin.authenticate]
  | ok page =>
    simp only [BitcoinTrezorPlugin.authenticate, Exec.except_ok_bind]
    constructor
    · intro h
      rcases hb : anyMatches regexMatch page config.blacklistUrls with e | (_ | _)
      · rw [hb] at h
        cases h
      · rcases hw : anyMatches regexMatch page config.whitelistUrls with e | (_ | _)
        · rw [hb, hw] at h
          cases h
        · rw [hb, hw] at h
          cases h
        · exact ⟨page, rfl, (anyMatches_eq_false regexMatch).mp hb,
            (anyMatches_eq_true regexMatch).mp hw⟩
      · rw [hb] at h
        cases h
    · rintro ⟨page', ⟨⟩, hb, hw⟩
      rw [(anyMatches_eq_false regexMatch).mpr hb, (anyMatches_eq_true regexMatch).mpr hw]
      rfl

/-! ## What `configure` does -/

/-- A process whose instance `i` has loaded the schema of `config` and stored `config`. -/
def Process.configured (s : Process κ Map δ) (i : Nat) (config : Configuration) :
    Process κ Map δ :=
  { s with
    pool := loadProtobuf P s.pool config.wireProtocol
    loads := s.loads ++ [(i, config)]
    plugin := Function.update s.plugin i { s.plugin i with configuration := config } }

/-- The configuration may be loaded now, on this page. -/
def Admitted (ctx : Context) (config : Configuration) : Prop :=
  (∀ t, config.validUntil = some t → ctx.now ≤ t.toNat) ∧
    ∃ page, ctx.location = .ok page ∧ Allows regexMatch page config

theorem expired_eq_false {config : Configuration} {now : Int} :
    config.expired now = false ↔ ∀ t, config.validUntil = some t → now ≤ t.toNat := by
  unfold Configuration.expired
  cases config.validUntil with
  | none => simp
  | some t => simp

/-- `configure` loads and stores a configuration that may be loaded, and throws before it has changed
anything for any other. -/
theorem configure_cases (i : Nat) (ctx : Context) (config : Configuration) (s : Process κ Map δ) :
    (Admitted regexMatch ctx config ∧
      BitcoinTrezorPlugin.configure P regexMatch i ctx config s =
        .ok () (s.configured P i config)) ∨
    (¬ Admitted regexMatch ctx config ∧
      ∃ e, BitcoinTrezorPlugin.configure P regexMatch i ctx config s = .error (.throws e) s) := by
  unfold Admitted
  rw [← authenticate_eq_true, ← expired_eq_false]
  unfold BitcoinTrezorPlugin.configure
  cases hx : config.expired ctx.now with
  | true => exact .inr ⟨nofun, _, rfl⟩
  | false =>
    rcases ha : BitcoinTrezorPlugin.authenticate regexMatch ctx.location config with e | (_ | _)
    · exact .inr ⟨nofun, _, rfl⟩
    · exact .inr ⟨nofun, _, rfl⟩
    · exact .inl ⟨⟨rfl, rfl⟩, rfl⟩

end TrezorPlugin
