import TrezorPlugin.Communicator
import TrezorPlugin.Plugin

/-!
# The registry of communicators (plugin.cpp, apis.cpp)

`_communicators` is a vector of raw pointers.  `call` and `close` look a device's
path up in it and create what they do not find; `shutdown` deletes what it points
to and leaves the pointers.  The API thread does one of these at a time, while
every consumer thread goes on by itself.

    a run uses no destroyed communicator ↔ nothing is called after a shutdown that deleted one
    the registry holds none              ↔ no shutdown finds a communicator
-/

namespace TrezorPlugin

variable {τ δ κ Msg Map : Type} (E : Env τ δ) (P : Protobuf Msg) (J : Scripting κ Msg Map)

/-! ## The plugin object and its communicators -/

/-- A `DeviceCommunicator`: its device, and its queue, thread and executor. -/
structure CommunicatorObject (τ δ κ Map : Type) where
  device : DeviceDescriptor
  comm : Communicator τ δ κ Map

/-- `device().path()`. -/
def CommunicatorObject.path (c : CommunicatorObject τ δ κ Map) : String := c.device.path.getD ""

/-- What is done to a communicator that has been destroyed. -/
inductive Misuse
  | used (p : Nat)
  | deletedAgain (p : Nat)
  deriving DecidableEq

structure Registry (τ δ κ Map : Type) where
  /-- `_communicators`. -/
  communicators : List Nat
  /-- The communicators alive. -/
  heap : Nat → Option (CommunicatorObject τ δ κ Map)
  next : Nat
  /-- What the loop of a `shutdown` has still to delete; nothing outside of one. -/
  deleting : List Nat
  /-- The communicators whose destructor ran, in order. -/
  destroyed : List Nat
  /-- The jobs the consumers took, in order, and whose consumer it was. -/
  started : List (Nat × DeviceJob κ Map)
  /-- Undefined behaviour, which ends the run. -/
  misuse : Option Misuse

def Registry.new : Registry τ δ κ Map := ⟨[], fun _ => none, 0, [], [], [], none⟩

abbrev RegistryM (τ δ κ Map α : Type) := EStateM Misuse (Registry τ δ κ Map) α

/-- `p->…`. -/
def deref (p : Nat) : RegistryM τ δ κ Map (CommunicatorObject τ δ κ Map) := fun s =>
  match s.heap p with
  | none => .error (.used p) s
  | some c => .ok c s

/-- The loop of `communicator`: the first pointer whose device has the path. -/
def findCommunicator (path : String) : List Nat → RegistryM τ δ κ Map (Option Nat)
  | [] => return none
  | p :: ps => do
    let c ← deref p
    if c.path = path then return some p else findCommunicator path ps

/-- `new DeviceCommunicator(desc)` and `push_back`; `dev` is the device as the new executor will find
it. -/
def newCommunicator (desc : DeviceDescriptor) (dev : δ) : RegistryM τ δ κ Map Nat := fun s =>
  .ok s.next { s with
    heap := Function.update s.heap s.next (some ⟨desc, .new dev⟩)
    communicators := s.communicators ++ [s.next]
    next := s.next + 1 }

/-- `BitcoinTrezorPlugin::communicator`. -/
def BitcoinTrezorPlugin.communicator (desc : DeviceDescriptor) (dev : δ) :
    RegistryM τ δ κ Map Nat := do
  match ← findCommunicator (desc.path.getD "") (← get).communicators with
  | some p => return p
  | none => newCommunicator desc dev

def Communicator.put (c : Communicator τ δ κ Map) (job : DeviceJob κ Map) :
    Communicator τ δ κ Map :=
  { c with queue := c.queue ++ [job], consumer := c.consumer.notify }

/-- `p->call(…)` and `p->close(…)`. -/
def putTo (p : Nat) (job : DeviceJob κ Map) : RegistryM τ δ κ Map Unit := do
  let c ← deref p
  modify fun s => { s with heap := Function.update s.heap p (some { c with comm := c.comm.put job }) }

/-- `acquire_plugin()->communicator(device)->…`, in `PluginAPI::call` and `PluginAPI::close`. -/
def request (desc : DeviceDescriptor) (job : DeviceJob κ Map) (dev : δ) :
    RegistryM τ δ κ Map Unit := do
  let p ← BitcoinTrezorPlugin.communicator desc dev
  putTo p job

/-- The call's end; a use of a destroyed communicator ends the run. -/
def settled {α : Type} : EStateM.Result Misuse (Registry τ δ κ Map) α → Registry τ δ κ Map
  | .ok _ s => s
  | .error m s => { s with misuse := some m }

@[simp] theorem settled_ok {α : Type} (a : α) (s : Registry τ δ κ Map) :
    settled (.ok a s) = s := rfl

/-- `delete *it`: the destructor interrupts the consumer thread and waits for its end. -/
def deleteCommunicator (p : Nat) (rest : List Nat) (s : Registry τ δ κ Map) :
    Option (Registry τ δ κ Map) :=
  match s.heap p with
  | none => some { s with
      deleting := [], destroyed := s.destroyed ++ [p], misuse := some (.deletedAgain p) }
  | some c =>
    match c.comm.consumer with
    | .finished => some { s with
        heap := Function.update s.heap p none, deleting := rest, destroyed := s.destroyed ++ [p] }
    | _ => none

/-! ## Steps -/

inductive RegistryStep (τ δ κ Map : Type)
  /-- A `call` or `close` of the page. -/
  | request (desc : DeviceDescriptor) (job : DeviceJob κ Map) (dev : δ)
  /-- `shutdown()` up to its loop. -/
  | shutdown
  /-- One round of the loop. -/
  | delete
  /-- A step of the consumer thread of a communicator. -/
  | consumer (p : Nat) (l : CommStep τ κ Map)

/-- The steps of a consumer: `put` is the API thread's, and only the destructor interrupts. -/
def Registry.lets (s : Registry τ δ κ Map) (p : Nat) : CommStep τ κ Map → Bool
  | .put _ => false
  | .interrupt => s.deleting.head? == some p
  | _ => true

/-- The job that a step takes out of the queue. -/
def taken (queue : List (DeviceJob κ Map)) : CommStep τ κ Map → List (DeviceJob κ Map)
  | .take => queue.take 1
  | _ => []

def consumerStep (p : Nat) (l : CommStep τ κ Map) (s : Registry τ δ κ Map) :
    Option (Registry τ δ κ Map) :=
  match s.heap p with
  | none => none
  | some c =>
    if s.lets p l then
      match commStep E P J c.path c.comm l with
      | none => none
      | some comm => some { s with
          heap := Function.update s.heap p (some { c with comm := comm })
          started := s.started ++ (taken c.comm.queue l).map (p, ·) }
    else none

def registryStep (s : Registry τ δ κ Map) (l : RegistryStep τ δ κ Map) :
    Option (Registry τ δ κ Map) :=
  match s.misuse, l, s.deleting with
  | some _, _, _ => none
  | none, .request desc job dev, [] => some (settled (request desc job dev s))
  | none, .shutdown, [] => some { s with deleting := s.communicators }
  | none, .delete, p :: rest => deleteCommunicator p rest s
  | none, .consumer p l, _ => consumerStep E P J p l s
  | none, _, _ => none

/-! ## What a step can do -/

/-- A consumer's step, seen from outside: it is one of its communicator, and takes at most a job. -/
structure ConsumerStepped (p : Nat) (l : CommStep τ κ Map) (s t : Registry τ δ κ Map) : Prop where
  notPut : ∀ job, l ≠ .put job
  stepped : ∃ c comm, s.heap p = some c ∧ commStep E P J c.path c.comm l = some comm ∧
    t = { s with
      heap := Function.update s.heap p (some { c with comm := comm })
      started := s.started ++ (taken c.comm.queue l).map (p, ·) }

theorem of_consumerStep {p : Nat} {l : CommStep τ κ Map} {s t : Registry τ δ κ Map}
    (h : consumerStep E P J p l s = some t) : ConsumerStepped E P J p l s t := by
  unfold consumerStep at h
  split at h
  · cases h
  · next c hc =>
    split at h
    · next hlets =>
      split at h
      · cases h
      · next comm hcomm =>
        cases h
        refine ⟨?_, c, comm, hc, hcomm, rfl⟩
        rintro job rfl
        cases hlets
    · cases h

/-- The loop of `shutdown` at a pointer: nothing is there, and the run ends, or its consumer is. -/
theorem of_deleteCommunicator {p : Nat} {rest : List Nat} {s t : Registry τ δ κ Map}
    (h : deleteCommunicator p rest s = some t) :
    (s.heap p = none ∧ t = { s with
      deleting := [], destroyed := s.destroyed ++ [p], misuse := some (.deletedAgain p) }) ∨
    (∃ c, s.heap p = some c ∧ c.comm.consumer = .finished ∧ t = { s with
      heap := Function.update s.heap p none, deleting := rest, destroyed := s.destroyed ++ [p] }) := by
  unfold deleteCommunicator at h
  split at h
  · next hp => exact .inl ⟨hp, (Option.some.inj h).symm⟩
  · next c hp =>
    split at h
    · next hfin => exact .inr ⟨c, hp, hfin, (Option.some.inj h).symm⟩
    · cases h

/-- What a step needs, and what it leads to. -/
inductive Stepped (s t : Registry τ δ κ Map) : RegistryStep τ δ κ Map → Prop
  | request {desc : DeviceDescriptor} {job : DeviceJob κ Map} {dev : δ} :
      s.deleting = [] → t = settled (request desc job dev s) → Stepped s t (.request desc job dev)
  | shutdown : s.deleting = [] → t = { s with deleting := s.communicators } → Stepped s t .shutdown
  | delete {p : Nat} {rest : List Nat} :
      s.deleting = p :: rest → deleteCommunicator p rest s = some t → Stepped s t .delete
  | consumer {p : Nat} {l : CommStep τ κ Map} :
      ConsumerStepped E P J p l s t → Stepped s t (.consumer p l)

theorem registryStep_cases {s t : Registry τ δ κ Map} {l : RegistryStep τ δ κ Map}
    (h : registryStep E P J s l = some t) : s.misuse = none ∧ Stepped E P J s t l := by
  unfold registryStep at h
  split at h
  · cases h
  · next hm hd => exact ⟨hm, .request hd (Option.some.inj h).symm⟩
  · next hm hd => exact ⟨hm, .shutdown hd (Option.some.inj h).symm⟩
  · next hm hd => exact ⟨hm, .delete hd h⟩
  · next hm => exact ⟨hm, .consumer (of_consumerStep E P J h)⟩
  · cases h

/-! ## Looking a path up -/

/-- No communicator of the list has the path. -/
def Registry.Lacks (s : Registry τ δ κ Map) (path : String) (ps : List Nat) : Prop :=
  ∀ p ∈ ps, ∀ c, s.heap p = some c → c.path ≠ path

theorem findCommunicator_cons {path : String} {p : Nat} {ps : List Nat} {s : Registry τ δ κ Map}
    {c : CommunicatorObject τ δ κ Map} (h : s.heap p = some c) :
    findCommunicator path (p :: ps) s =
      if c.path = path then .ok (some p) s else findCommunicator path ps s := by
  have hd : deref p s = .ok c s := by simp only [deref, h]
  rw [findCommunicator, Exec.bind_ok hd]
  split <;> rfl

/-- On pointers that are all alive the loop finds the first with the path, or none. -/
theorem findCommunicator_cases (path : String) {ps : List Nat} {s : Registry τ δ κ Map}
    (halive : ∀ p ∈ ps, ∃ c, s.heap p = some c) :
    (∃ before p after c, ps = before ++ p :: after ∧ s.Lacks path before ∧ s.heap p = some c ∧
      c.path = path ∧ findCommunicator path ps s = .ok (some p) s) ∨
    (s.Lacks path ps ∧ findCommunicator path ps s = .ok none s) := by
  induction ps with
  | nil => exact .inr ⟨nofun, rfl⟩
  | cons p ps ih =>
    rw [List.forall_mem_cons] at halive
    obtain ⟨⟨c, hc⟩, halive⟩ := halive
    rw [findCommunicator_cons hc]
    by_cases hpath : c.path = path
    · rw [if_pos hpath]
      exact .inl ⟨[], p, ps, c, rfl, nofun, hc, hpath, rfl⟩
    · rw [if_neg hpath]
      have hlacks : ∀ {qs}, s.Lacks path qs → s.Lacks path (p :: qs) := by
        intro qs h
        refine List.forall_mem_cons.mpr ⟨?_, h⟩
        intro d hd
        rw [hc] at hd
        cases hd
        exact hpath
      rcases ih halive with ⟨before, q, after, d, rfl, hb, hd, hq, heq⟩ | ⟨hl, heq⟩
      · exact .inl ⟨p :: before, q, after, d, rfl, hlacks hb, hd, hq, heq⟩
      · exact .inr ⟨hlacks hl, heq⟩

theorem putTo_ok {p : Nat} {job : DeviceJob κ Map} {s : Registry τ δ κ Map}
    {c : CommunicatorObject τ δ κ Map} (h : s.heap p = some c) :
    putTo p job s = .ok () { s with
      heap := Function.update s.heap p (some { c with comm := c.comm.put job }) } := by
  have hd : deref p s = .ok c s := by simp only [deref, h]
  rw [putTo, Exec.bind_ok hd]
  rfl

/-- **One request** on a registry of communicators that are alive: the first one with the path gets
the job, or a new one that is registered last. -/
theorem request_cases (desc : DeviceDescriptor) (job : DeviceJob κ Map) (dev : δ)
    {s : Registry τ δ κ Map} (halive : ∀ p ∈ s.communicators, ∃ c, s.heap p = some c) :
    (∃ before p after c, s.communicators = before ++ p :: after ∧
      s.Lacks (desc.path.getD "") before ∧ s.heap p = some c ∧ c.path = desc.path.getD "" ∧
      request desc job dev s = .ok () { s with
        heap := Function.update s.heap p (some { c with comm := c.comm.put job }) }) ∨
    (s.Lacks (desc.path.getD "") s.communicators ∧
      request desc job dev s = .ok () { s with
        heap := Function.update s.heap s.next (some ⟨desc, (Communicator.new dev).put job⟩)
        communicators := s.communicators ++ [s.next]
        next := s.next + 1 }) := by
  have hget : (get : RegistryM τ δ κ Map _) s = .ok s s := rfl
  rcases findCommunicator_cases (desc.path.getD "") halive with
    ⟨before, p, after, c, hps, hb, hc, hpath, heq⟩ | ⟨hl, heq⟩
  · refine .inl ⟨before, p, after, c, hps, hb, hc, hpath, ?_⟩
    have hfound : BitcoinTrezorPlugin.communicator desc dev s = .ok p s := by
      rw [BitcoinTrezorPlugin.communicator, Exec.bind_ok hget, Exec.bind_ok heq]
      rfl
    rw [request, Exec.bind_ok hfound, putTo_ok hc]
  · refine .inr ⟨hl, ?_⟩
    have hnew : BitcoinTrezorPlugin.communicator desc dev s = newCommunicator desc dev s := by
      rw [BitcoinTrezorPlugin.communicator, Exec.bind_ok hget, Exec.bind_ok heq]
    rw [request, Exec.bind_ok (hnew.trans rfl), putTo_ok (Function.update_self ..)]
    simp only [Function.update_idem]

/-- The loop of `communicator` looks at the first pointer before anything else. -/
theorem request_dead (desc : DeviceDescriptor) (job : DeviceJob κ Map) (dev : δ) {p : Nat}
    {ps : List Nat} {s : Registry τ δ κ Map} (hps : s.communicators = p :: ps)
    (hp : s.heap p = none) : request desc job dev s = .error (.used p) s := by
  have hget : (get : RegistryM τ δ κ Map _) s = .ok s s := rfl
  have hd : deref p s = .error (.used p) s := by simp only [deref, hp]
  have hfind : findCommunicator (desc.path.getD "") s.communicators s = .error (.used p) s := by
    rw [hps, findCommunicator, Exec.bind_error hd]
  have hcomm : BitcoinTrezorPlugin.communicator desc dev s = .error (.used p) s := by
    rw [BitcoinTrezorPlugin.communicator, Exec.bind_ok hget, Exec.bind_error hfind]
  rw [request, Exec.bind_error hcomm]

/-! ## Before the first shutdown that finds a communicator -/

/-- Every communicator created is alive and registered once. -/
structure Intact (s : Registry τ δ κ Map) : Prop where
  misuse : s.misuse = none
  deleting : s.deleting = []
  destroyed : s.destroyed = []
  alive : ∀ p ∈ s.communicators, ∃ c, s.heap p = some c
  registered : ∀ p c, s.heap p = some c → p ∈ s.communicators
  nodup : s.communicators.Nodup
  fresh : ∀ p ∈ s.communicators, p < s.next

theorem intact_new : Intact (Registry.new : Registry τ δ κ Map) where
  misuse := rfl
  deleting := rfl
  destroyed := rfl
  alive := by simp [Registry.new]
  registered := by simp [Registry.new]
  nodup := List.nodup_nil
  fresh := by simp [Registry.new]

/-- An object that changes in its place leaves the same pointers alive. -/
theorem heap_updated {s : Registry τ δ κ Map} {p q : Nat} {c d : CommunicatorObject τ δ κ Map}
    (hp : s.heap p = some c) :
    (∃ e, Function.update s.heap p (some d) q = some e) ↔ ∃ e, s.heap q = some e := by
  rw [Function.update_apply]
  split
  · next hq => simp [hq, hp]
  · rfl

theorem heap_updated_none {s : Registry τ δ κ Map} {p q : Nat}
    {c d : CommunicatorObject τ δ κ Map} (hp : s.heap p = some c) :
    Function.update s.heap p (some d) q = none ↔ s.heap q = none := by
  have h := heap_updated (q := q) (d := d) hp
  rw [← Option.ne_none_iff_exists', ← Option.ne_none_iff_exists'] at h
  exact not_iff_not.mp h

theorem Intact.updated {s : Registry τ δ κ Map} (hs : Intact s) {p : Nat}
    {c d : CommunicatorObject τ δ κ Map} (hp : s.heap p = some c)
    (started : List (Nat × DeviceJob κ Map)) :
    Intact { s with heap := Function.update s.heap p (some d), started := started } := by
  refine ⟨hs.misuse, hs.deleting, hs.destroyed, fun q hq => (heap_updated hp).mpr (hs.alive q hq),
    ?_, hs.nodup, hs.fresh⟩
  intro q e hq
  obtain ⟨c', hc'⟩ := (heap_updated hp).mp ⟨e, hq⟩
  exact hs.registered q c' hc'

theorem Intact.created {s : Registry τ δ κ Map} (hs : Intact s)
    (d : CommunicatorObject τ δ κ Map) :
    Intact { s with
      heap := Function.update s.heap s.next (some d)
      communicators := s.communicators ++ [s.next]
      next := s.next + 1 } := by
  have hnext : s.next ∉ s.communicators := fun h => absurd (hs.fresh _ h) (Nat.lt_irrefl _)
  have hmem : ∀ q, q ∈ s.communicators ++ [s.next] ↔ q ∈ s.communicators ∨ q = s.next := by simp
  refine ⟨hs.misuse, hs.deleting, hs.destroyed, ?_, ?_, ?_, ?_⟩
  · intro q hq
    rcases (hmem q).mp hq with hq | rfl
    · obtain ⟨c, hc⟩ := hs.alive q hq
      refine ⟨c, ?_⟩
      have hne : q ≠ s.next := by
        rintro rfl
        exact hnext hq
      exact (Function.update_of_ne hne ..).trans hc
    · exact ⟨d, Function.update_self ..⟩
  · intro q c hq
    apply (hmem q).mpr
    simp only [Function.update_apply] at hq
    split at hq
    · next hq' => exact .inr hq'
    · exact .inl (hs.registered q c hq)
  · exact List.nodup_append.mpr ⟨hs.nodup, List.nodup_singleton _, by
      rintro q hq r hr rfl
      exact hnext (List.mem_singleton.mp hr ▸ hq)⟩
  · intro q hq
    rcases (hmem q).mp hq with hq | rfl
    · exact Nat.lt_succ_of_lt (hs.fresh q hq)
    · exact Nat.lt_succ_self _

/-- If the step is a `shutdown`, it finds no communicator. -/
def FindsNone (s : Registry τ δ κ Map) (l : RegistryStep τ δ κ Map) : Prop :=
  l = .shutdown → s.communicators = []

/-- **One step** before a shutdown that finds a communicator. -/
theorem registryStep_intact {s t : Registry τ δ κ Map} {l : RegistryStep τ δ κ Map}
    (hs : Intact s) (hl : FindsNone s l) (h : registryStep E P J s l = some t) : Intact t := by
  obtain ⟨-, hstep⟩ := registryStep_cases E P J h
  cases hstep with
  | @request desc job dev _ ht =>
    rcases request_cases desc job dev hs.alive with ⟨_, p, _, c, -, -, hc, -, heq⟩ | ⟨-, heq⟩
    · rw [ht, heq]
      exact hs.updated hc s.started
    · rw [ht, heq]
      exact hs.created _
  | shutdown _ ht =>
    rw [ht]
    exact ⟨hs.misuse, hl rfl, hs.destroyed, hs.alive, hs.registered, hs.nodup, hs.fresh⟩
  | delete hd =>
    rw [hs.deleting] at hd
    cases hd
  | consumer hc =>
    obtain ⟨c, comm, hp, -, rfl⟩ := hc.stepped
    exact hs.updated hp _

/-! ## After it -/

/-- A shutdown has found communicators and has destroyed those it came by; the vector is as it
was. -/
structure Torn (s : Registry τ δ κ Map) : Prop where
  misuse : s.misuse = none
  found : s.communicators ≠ []
  nodup : s.communicators.Nodup
  split : s.communicators = s.destroyed ++ s.deleting
  dead : ∀ p ∈ s.destroyed, s.heap p = none
  alive : ∀ p ∈ s.deleting, ∃ c, s.heap p = some c

/-- Undefined behaviour has come, or a second shutdown is about to delete what the first has
deleted. -/
def Doomed (s : Registry τ δ κ Map) : Prop :=
  s.misuse ≠ none ∨ s.deleting ≠ [] ∧ ∀ p ∈ s.deleting, s.heap p = none

/-- Nothing is called once a communicator has been destroyed. -/
def NotAfter (s : Registry τ δ κ Map) : RegistryStep τ δ κ Map → Prop
  | .request _ _ _ => s.destroyed = []
  | .shutdown => s.destroyed = []
  | _ => True

theorem Intact.torn {s : Registry τ δ κ Map} (hs : Intact s) (hne : s.communicators ≠ []) :
    Torn { s with deleting := s.communicators } :=
  ⟨hs.misuse, hne, hs.nodup, by simp [hs.destroyed], by simp [hs.destroyed], hs.alive⟩

theorem registryStep_doomed {s t : Registry τ δ κ Map} {l : RegistryStep τ δ κ Map}
    (hs : Doomed s) (h : registryStep E P J s l = some t) : Doomed t := by
  obtain ⟨hm, hstep⟩ := registryStep_cases E P J h
  obtain ⟨hne, hdead⟩ := hs.resolve_left fun h => h hm
  cases hstep with
  | request hd => exact absurd hd hne
  | shutdown hd => exact absurd hd hne
  | @delete p rest hd ht =>
    have hp : s.heap p = none := hdead p (hd ▸ List.mem_cons_self ..)
    rcases of_deleteCommunicator ht with ⟨-, rfl⟩ | ⟨c, hc, -⟩
    · exact .inl nofun
    · rw [hp] at hc
      cases hc
  | consumer hc =>
    obtain ⟨c, comm, hp, -, rfl⟩ := hc.stepped
    exact .inr ⟨hne, fun q hq => (heap_updated_none hp).mpr (hdead q hq)⟩

/-- After such a shutdown a step goes on with it, or calls what uses a destroyed communicator. -/
theorem registryStep_torn {s t : Registry τ δ κ Map} {l : RegistryStep τ δ κ Map} (hs : Torn s)
    (h : registryStep E P J s l = some t) : Torn t ∧ NotAfter s l ∨ ¬ NotAfter s l ∧ Doomed t := by
  have hcalled : s.deleting = [] → s.communicators = s.destroyed ∧ s.destroyed ≠ [] := by
    intro hd
    have hsplit := hs.split
    rw [hd, List.append_nil] at hsplit
    exact ⟨hsplit, hsplit ▸ hs.found⟩
  obtain ⟨hm, hstep⟩ := registryStep_cases E P J h
  cases hstep with
  | @request desc job dev hd ht =>
    obtain ⟨heq, hne⟩ := hcalled hd
    obtain ⟨p, ps, hps⟩ := List.exists_cons_of_ne_nil hne
    have hp : s.heap p = none := hs.dead p (hps ▸ List.mem_cons_self ..)
    rw [request_dead desc job dev (heq.trans hps) hp] at ht
    exact .inr ⟨hne, .inl (by rw [ht]; exact nofun)⟩
  | shutdown hd ht =>
    obtain ⟨heq, hne⟩ := hcalled hd
    refine .inr ⟨hne, .inr ?_⟩
    rw [ht]
    exact ⟨hs.found, fun p hp => hs.dead p (heq ▸ hp)⟩
  | @delete p rest hd ht =>
    refine .inl ⟨?_, trivial⟩
    have halive := hs.alive
    have hnodup := hs.nodup
    rw [hs.split, hd] at hnodup
    rw [hd, List.forall_mem_cons] at halive
    rcases of_deleteCommunicator ht with ⟨hp, -⟩ | ⟨c, hc, -, rfl⟩
    · obtain ⟨⟨c, hc⟩, -⟩ := halive
      rw [hp] at hc
      cases hc
    · have hrest : p ∉ rest :=
        (List.nodup_cons.mp (List.nodup_append.mp hnodup).2.1).1
      refine ⟨hs.misuse, hs.found, hs.nodup, ?_, ?_, ?_⟩
      · rw [hs.split, hd, List.append_assoc]
        rfl
      · intro q hq
        show Function.update s.heap p none q = none
        rw [Function.update_apply]
        split
        · rfl
        · next hne =>
          rcases List.mem_append.mp hq with hq | hq
          · exact hs.dead q hq
          · exact absurd (List.mem_singleton.mp hq) hne
      · intro q hq
        have hne : q ≠ p := by
          rintro rfl
          exact hrest hq
        obtain ⟨d, hd⟩ := halive.2 q hq
        exact ⟨d, (Function.update_of_ne hne ..).trans hd⟩
  | consumer hc =>
    obtain ⟨c, comm, hp, -, rfl⟩ := hc.stepped
    refine .inl ⟨⟨hs.misuse, hs.found, hs.nodup, hs.split,
      fun q hq => (heap_updated_none hp).mpr (hs.dead q hq),
      fun q hq => (heap_updated hp).mpr (hs.alive q hq)⟩, trivial⟩

/-! ## Whole runs -/

/-- No communicator is destroyed twice, and nothing is done with one that has been destroyed. -/
def Registry.Safe (s : Registry τ δ κ Map) : Prop := s.misuse = none ∧ s.destroyed.Nodup

/-- And outside of a shutdown the registry holds none that has been destroyed. -/
def Registry.Sound (s : Registry τ δ κ Map) : Prop :=
  s.Safe ∧ (s.deleting = [] → ∀ p ∈ s.communicators, ∃ c, s.heap p = some c)

theorem Intact.sound {s : Registry τ δ κ Map} (hs : Intact s) : s.Sound :=
  ⟨⟨hs.misuse, by simp [hs.destroyed]⟩, fun _ => hs.alive⟩

theorem Torn.safe {s : Registry τ δ κ Map} (hs : Torn s) : s.Safe := by
  have hnodup := hs.nodup
  rw [hs.split] at hnodup
  exact ⟨hs.misuse, (List.nodup_append.mp hnodup).1⟩

theorem Torn.not_sound {s : Registry τ δ κ Map} (hs : Torn s) (hidle : s.deleting = []) :
    ¬ s.Sound := by
  rintro ⟨-, halive⟩
  obtain ⟨p, ps, hps⟩ := List.exists_cons_of_ne_nil hs.found
  have hsplit := hs.split
  rw [hidle, List.append_nil] at hsplit
  have hp : p ∈ s.communicators := hps ▸ List.mem_cons_self ..
  obtain ⟨c, hc⟩ := halive hidle p hp
  rw [hs.dead p (hsplit ▸ hp)] at hc
  cases hc

theorem Doomed.not_safe {s : Registry τ δ κ Map} (hs : Doomed s) (hidle : s.deleting = []) :
    ¬ s.Safe := by
  rintro ⟨hm, -⟩
  rcases hs with h | ⟨h, -⟩
  · exact h hm
  · exact h hidle

/-- From an intact registry, a step that fails either condition is a shutdown on communicators. -/
theorem registryStep_of_intact {s t : Registry τ δ κ Map} {l : RegistryStep τ δ κ Map}
    (hs : Intact s) (h : registryStep E P J s l = some t) :
    NotAfter s l ∧ (Intact t ∧ FindsNone s l ∨ Torn t) := by
  have hnot : NotAfter s l := by
    cases l with
    | request | shutdown => exact hs.destroyed
    | delete | consumer => trivial
  refine ⟨hnot, ?_⟩
  by_cases hl : FindsNone s l
  · exact .inl ⟨registryStep_intact E P J hs hl h, hl⟩
  · unfold FindsNone at hl
    push Not at hl
    obtain ⟨rfl, hne⟩ := hl
    cases (registryStep_cases E P J h).2 with
    | shutdown _ ht => exact .inr (ht ▸ hs.torn hne)

/-- As long as no shutdown finds a communicator, the registry is intact. -/
theorem sound_of_findsNone {steps : List (RegistryStep τ δ κ Map)} {s : Registry τ δ κ Map}
    (hrun : Run.run (registryStep E P J) .new steps = some s)
    (h : Run.Along (registryStep E P J) FindsNone .new steps) :
    s.Sound ∧ Run.Along (registryStep E P J) (fun t _ => t.Sound) .new steps := by
  have hstep : ∀ s l t, Intact s → FindsNone s l → registryStep E P J s l = some t → Intact t := by
    intro s l t hs hl ht
    exact registryStep_intact E P J hs hl ht
  constructor
  · exact (Run.run_inv _ Intact FindsNone hstep intact_new h hrun).sound
  · exact Run.along_of_inv _ Intact FindsNone _ hstep (fun s l hs => hs.sound) intact_new h

/-- As long as nothing is called after a destruction, only a first shutdown has destroyed. -/
theorem safe_of_notAfter {steps : List (RegistryStep τ δ κ Map)} {s : Registry τ δ κ Map}
    (hrun : Run.run (registryStep E P J) .new steps = some s)
    (h : Run.Along (registryStep E P J) NotAfter .new steps) :
    s.Safe ∧ Run.Along (registryStep E P J) (fun t _ => t.Safe) .new steps := by
  have hsafe : ∀ s : Registry τ δ κ Map, Intact s ∨ Torn s → s.Safe := by
    rintro s (hs | hs)
    · exact hs.sound.1
    · exact hs.safe
  have hstep : ∀ s l t, Intact s ∨ Torn s → NotAfter s l → registryStep E P J s l = some t →
      Intact t ∨ Torn t := by
    rintro s l t (hs | hs) hl ht
    · exact (registryStep_of_intact E P J hs ht).2.imp_left And.left
    · rcases registryStep_torn E P J hs ht with ⟨ht', -⟩ | ⟨hn, -⟩
      · exact .inr ht'
      · exact absurd hl hn
  constructor
  · exact hsafe s (Run.run_inv _ _ NotAfter hstep (.inl intact_new) h hrun)
  · exact Run.along_of_inv _ _ NotAfter _ hstep (fun s l hs => hsafe s hs) (.inl intact_new) h

/-- **Who may still use the registry.**  In every run in which nothing is called once a communicator
has been destroyed, none is destroyed twice or used after its end; and in every run in which no
shutdown finds a communicator, the registry, too, never holds a destroyed one.  In a run that ends
outside of a shutdown both conditions are needed. -/
theorem registry_sound_iff (steps : List (RegistryStep τ δ κ Map)) (s : Registry τ δ κ Map)
    (hrun : Run.run (registryStep E P J) .new steps = some s) :
    (Run.Along (registryStep E P J) FindsNone .new steps →
      s.Sound ∧ Run.Along (registryStep E P J) (fun t _ => t.Sound) .new steps) ∧
    (Run.Along (registryStep E P J) NotAfter .new steps →
      s.Safe ∧ Run.Along (registryStep E P J) (fun t _ => t.Safe) .new steps) ∧
    (s.deleting = [] →
      (s.Sound ∧ Run.Along (registryStep E P J) (fun t _ => t.Sound) .new steps ↔
        Run.Along (registryStep E P J) FindsNone .new steps) ∧
      (s.Safe ∧ Run.Along (registryStep E P J) (fun t _ => t.Safe) .new steps ↔
        Run.Along (registryStep E P J) NotAfter .new steps)) := by
  have hsound := sound_of_findsNone E P J hrun
  have hsafe := safe_of_notAfter E P J hrun
  refine ⟨hsound, hsafe, fun hidle => ⟨⟨?_, hsound⟩, ?_, hsafe⟩⟩
  · intro h
    apply Run.along_of_end (registryStep E P J) Intact (fun s => Torn s ∨ Doomed s) FindsNone
      ?_ ?_ intact_new hrun
    · rintro (hs | hs)
      · exact hs.not_sound hidle h.1
      · exact hs.not_safe hidle h.1.1
    · intro s l t hs ht
      exact (registryStep_of_intact E P J hs ht).2.imp_right .inl
    · rintro s l t (hs | hs) ht
      · exact (registryStep_torn E P J hs ht).imp And.left And.right
      · exact .inr (registryStep_doomed E P J hs ht)
  · intro h
    apply Run.along_of_end (registryStep E P J) (fun s => Intact s ∨ Torn s) Doomed NotAfter
      ?_ ?_ (.inl intact_new) hrun
    · intro hs
      exact hs.not_safe hidle h.1
    · rintro s l t (hs | hs) ht
      · obtain ⟨hl, ht'⟩ := registryStep_of_intact E P J hs ht
        exact .inl ⟨ht'.imp_left And.left, hl⟩
      · rcases registryStep_torn E P J hs ht with ⟨ht', hl⟩ | ⟨-, ht'⟩
        · exact .inl ⟨.inr ht', hl⟩
        · exact .inr ht'
    · intro s l t hs ht
      exact registryStep_doomed E P J hs ht

def hid1 : DeviceDescriptor := ⟨none, none, some "1", some "hid1"⟩

def hid2 : DeviceDescriptor := ⟨none, none, some "2", some "hid2"⟩

abbrev plainStep : Registry Poll Int Nat (List UInt8) → RegistryStep Poll Int Nat (List UInt8) →
    Option (Registry Poll Int Nat (List UInt8)) :=
  registryStep (scriptEnv none fun _ => .ok "") rawProtobuf rawScripting

/-- A shutdown of the new plugin, then two devices. -/
def twoDevices : List (RegistryStep Poll Int Nat (List UInt8)) :=
  [.shutdown, .request hid1 (.openJob 0) 0, .request hid2 (.openJob 1) 0, .consumer 0 .take,
    .request hid1 (.closeJob 2) 0]

theorem registry_sound_iff_twoDevices :
    ∃ s, Run.run plainStep .new twoDevices = some s ∧ s.communicators = [0, 1] ∧ s.Sound := by
  have hview : (Run.run plainStep .new twoDevices).map (fun s => s.communicators) =
      some [0, 1] := by decide +kernel
  obtain ⟨s, hs, h⟩ := Option.map_eq_some_iff.mp hview
  refine ⟨s, hs, h, ((registry_sound_iff _ _ _ twoDevices s hs).1 ?_).1⟩
  simp [Run.Along, FindsNone, twoDevices, Registry.new]

/-- A call and the end of the plugin. -/
def closed : List (RegistryStep Poll Int Nat (List UInt8)) :=
  [.request hid1 (.openJob 0) 0, .shutdown, .consumer 0 .interrupt, .delete]

/-- After a call and a shutdown, a call uses the communicator that is gone, and a second shutdown
destroys it again. -/
theorem registry_not_sound :
    (∃ s, Run.run plainStep .new (closed ++ [.request hid1 (.closeJob 1) 0]) = some s ∧
      s.deleting = [] ∧ s.misuse = some (.used 0) ∧ ¬ s.Sound) ∧
    (∃ s, Run.run plainStep .new (closed ++ [.shutdown, .delete]) = some s ∧
      s.deleting = [] ∧ s.destroyed = [0, 0] ∧ ¬ s.Sound) := by
  have hcall : (Run.run plainStep .new (closed ++ [.request hid1 (.closeJob 1) 0])).map
      (fun s => (s.deleting, s.misuse)) = some ([], some (.used 0)) := by decide +kernel
  have hshutdown : (Run.run plainStep .new (closed ++ [.shutdown, .delete])).map
      (fun s => (s.deleting, s.destroyed)) = some ([], [0, 0]) := by decide +kernel
  obtain ⟨s, hs, h⟩ := Option.map_eq_some_iff.mp hcall
  obtain ⟨t, ht, h'⟩ := Option.map_eq_some_iff.mp hshutdown
  simp only [Prod.mk.injEq] at h h'
  refine ⟨⟨s, hs, h.1, h.2, ?_⟩, t, ht, h'.1, h'.2, ?_⟩
  · intro hsound
    have := hsound.1.1
    rw [h.2] at this
    cases this
  · intro hsound
    have := hsound.1.2
    rw [h'.2] at this
    simp at this

end TrezorPlugin
