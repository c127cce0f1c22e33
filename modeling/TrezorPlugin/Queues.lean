import TrezorPlugin.Registry
import TrezorPlugin.Resources
import TrezorPlugin.Apis
import TrezorPlugin.Lib.Keys
import Mathlib.Data.List.Induction
import Mathlib.Data.List.Pairwise

/-!
# One queue and one handle for each device path

What the registry is for: a list of devices with pairwise distinct paths, each
with the jobs put into its queue (`putJob`).  `view` reads that list off the
pointers; a request is one `putJob` on it and a consumer leaves it alone, so
after any run before shutdown

    view = the requests so far, put one after the other        (registry_refines)

and with what a consumer does to its handle, `one_queue_each` follows.
-/

namespace TrezorPlugin

variable {τ δ κ Msg Map : Type} (E : Env τ δ) (P : Protobuf Msg) (J : Scripting κ Msg Map)

/-! ## Queues by path -/

def CommunicatorQueue.path (q : CommunicatorQueue κ Map) : String := q.device.path.getD ""

/-- The jobs of the first queue with the path. -/
def jobsOf (path : String) : List (CommunicatorQueue κ Map) → List (DeviceJob κ Map)
  | [] => []
  | q :: queues => if q.path = path then q.jobs else jobsOf path queues

theorem putJob_cons {desc : DeviceDescriptor} (job : DeviceJob κ Map) {q : CommunicatorQueue κ Map}
    (queues : List (CommunicatorQueue κ Map)) (h : q.path ≠ desc.path.getD "") :
    putJob desc job (q :: queues) = q :: putJob desc job queues := if_neg h

theorem putJob_found {desc : DeviceDescriptor} {job : DeviceJob κ Map}
    {before after : List (CommunicatorQueue κ Map)} {q : CommunicatorQueue κ Map}
    (hbefore : ∀ r ∈ before, r.path ≠ desc.path.getD "") (hq : q.path = desc.path.getD "") :
    putJob desc job (before ++ q :: after) =
      before ++ { q with jobs := q.jobs ++ [job] } :: after := by
  induction before with
  | nil => exact if_pos hq
  | cons r before ih =>
    rw [List.forall_mem_cons] at hbefore
    rw [List.cons_append, putJob_cons job _ hbefore.1, ih hbefore.2, List.cons_append]

theorem putJob_new {desc : DeviceDescriptor} {job : DeviceJob κ Map}
    {queues : List (CommunicatorQueue κ Map)} (h : ∀ q ∈ queues, q.path ≠ desc.path.getD "") :
    putJob desc job queues = queues ++ [⟨desc, [job]⟩] := by
  induction queues with
  | nil => rfl
  | cons q queues ih =>
    rw [List.forall_mem_cons] at h
    rw [putJob_cons job _ h.1, ih h.2, List.cons_append]

/-- A job is put where its path is, or a queue for the path is added. -/
theorem putJob_paths (desc : DeviceDescriptor) (job : DeviceJob κ Map)
    (queues : List (CommunicatorQueue κ Map)) :
    (putJob desc job queues).map CommunicatorQueue.path = queues.map CommunicatorQueue.path ∨
    desc.path.getD "" ∉ queues.map CommunicatorQueue.path ∧
      (putJob desc job queues).map CommunicatorQueue.path =
        queues.map CommunicatorQueue.path ++ [desc.path.getD ""] := by
  induction queues with
  | nil => exact .inr ⟨nofun, rfl⟩
  | cons q queues ih =>
    rw [putJob]
    split
    · exact .inl rfl
    · next hq =>
      simp only [List.map_cons, List.mem_cons, not_or, List.cons_append, List.cons.injEq, true_and]
      exact ih.imp_right fun ⟨h1, h2⟩ => ⟨⟨fun h => hq h.symm, h1⟩, h2⟩

theorem putJob_nodup {desc : DeviceDescriptor} {job : DeviceJob κ Map}
    {queues : List (CommunicatorQueue κ Map)} (h : (queues.map CommunicatorQueue.path).Nodup) :
    ((putJob desc job queues).map CommunicatorQueue.path).Nodup := by
  rcases putJob_paths desc job queues with heq | ⟨hnew, heq⟩
  · rwa [heq]
  · rw [heq]
    exact List.nodup_append.mpr ⟨h, List.nodup_singleton _, by
      rintro a ha b hb rfl
      exact hnew (List.mem_singleton.mp hb ▸ ha)⟩

theorem jobsOf_putJob (path : String) (desc : DeviceDescriptor) (job : DeviceJob κ Map)
    (queues : List (CommunicatorQueue κ Map)) :
    jobsOf path (putJob desc job queues) =
      jobsOf path queues ++ if desc.path.getD "" = path then [job] else [] := by
  induction queues with
  | nil =>
    show (if desc.path.getD "" = path then [job] else []) = _
    rfl
  | cons q queues ih =>
    rw [putJob]
    split
    · next hq =>
      simp only [jobsOf, CommunicatorQueue.path, hq]
      split
      · rfl
      · simp
    · next hq =>
      rw [jobsOf, jobsOf, ih]
      split
      · next hpath =>
        have hne : desc.path.getD "" ≠ path := fun h => hq (hpath.trans h.symm)
        rw [if_neg hne, List.append_nil]
      · rfl

theorem jobsOf_of_mem {queues : List (CommunicatorQueue κ Map)} {q : CommunicatorQueue κ Map}
    (h : (queues.map CommunicatorQueue.path).Nodup) (hq : q ∈ queues) :
    jobsOf q.path queues = q.jobs := by
  induction queues with
  | nil => cases hq
  | cons r queues ih =>
    rw [List.map_cons, List.nodup_cons] at h
    rw [jobsOf]
    rcases List.mem_cons.mp hq with rfl | hq
    · exact if_pos rfl
    · have hne : r.path ≠ q.path := fun heq => h.1 (heq ▸ List.mem_map_of_mem hq)
      rw [if_neg hne, ih h.2 hq]

theorem exists_of_jobsOf {path : String} {queues : List (CommunicatorQueue κ Map)}
    (h : jobsOf path queues ≠ []) : ∃ q ∈ queues, q.path = path := by
  induction queues with
  | nil => exact absurd rfl h
  | cons q queues ih =>
    rw [jobsOf] at h
    split at h
    · next hq => exact ⟨q, List.mem_cons_self .., hq⟩
    · obtain ⟨r, hr, hpath⟩ := ih h
      exact ⟨r, List.mem_cons_of_mem _ hr, hpath⟩

/-! ## The requests of a run -/

def requested (steps : List (RegistryStep τ δ κ Map)) :
    List (DeviceDescriptor × DeviceJob κ Map) :=
  steps.filterMap fun
    | .request desc job _ => some (desc, job)
    | _ => none

/-- The jobs requested for a path, in order. -/
def requestedFor (path : String) (steps : List (RegistryStep τ δ κ Map)) :
    List (DeviceJob κ Map) :=
  (requested steps).filterMap fun r => if r.1.path.getD "" = path then some r.2 else none

/-- The requests put into queues, one after the other. -/
def putAll (rs : List (DeviceDescriptor × DeviceJob κ Map)) : List (CommunicatorQueue κ Map) :=
  rs.foldl (fun queues r => putJob r.1 r.2 queues) []

@[simp] theorem requested_append (steps : List (RegistryStep τ δ κ Map))
    (l : RegistryStep τ δ κ Map) : requested (steps ++ [l]) = requested steps ++ requested [l] :=
  List.filterMap_append

theorem putAll_append (rs : List (DeviceDescriptor × DeviceJob κ Map)) (desc : DeviceDescriptor)
    (job : DeviceJob κ Map) : putAll (rs ++ [(desc, job)]) = putJob desc job (putAll rs) :=
  List.foldl_append

theorem putAll_nodup (rs : List (DeviceDescriptor × DeviceJob κ Map)) :
    ((putAll rs).map CommunicatorQueue.path).Nodup := by
  induction rs using List.reverseRecOn with
  | nil => exact List.nodup_nil
  | append_singleton rs r ih =>
    rw [putAll_append]
    exact putJob_nodup ih

theorem jobsOf_putAll (path : String) (rs : List (DeviceDescriptor × DeviceJob κ Map)) :
    jobsOf path (putAll rs) =
      rs.filterMap fun r => if r.1.path.getD "" = path then some r.2 else none := by
  induction rs using List.reverseRecOn with
  | nil => rfl
  | append_singleton rs r ih =>
    rw [putAll_append, jobsOf_putJob, ih, List.filterMap_append]
    by_cases hr : r.1.path.getD "" = path
    · simp [hr]
    · simp [hr]

/-! ## The registry as a list of queues -/

/-- The jobs that the consumer of the communicator `p` took, in order. -/
def startedBy (p : Nat) (started : List (Nat × DeviceJob κ Map)) : List (DeviceJob κ Map) :=
  started.filterMap fun r => if r.1 = p then some r.2 else none

/-- A communicator with all the jobs ever put into its queue. -/
def Registry.queueOf (s : Registry τ δ κ Map) (p : Nat) : Option (CommunicatorQueue κ Map) :=
  (s.heap p).map fun c => ⟨c.device, startedBy p s.started ++ c.comm.queue⟩

def Registry.view (s : Registry τ δ κ Map) : List (CommunicatorQueue κ Map) :=
  s.communicators.filterMap s.queueOf

/-- The registry is intact, jobs were taken by communicators that exist, and it is the queues of the
requests. -/
structure Refines (steps : List (RegistryStep τ δ κ Map)) (s : Registry τ δ κ Map) : Prop where
  intact : Intact s
  started : ∀ r ∈ s.started, r.1 < s.next
  view : s.view = putAll (requested steps)

theorem startedBy_append (p q : Nat) (started : List (Nat × DeviceJob κ Map))
    (jobs : List (DeviceJob κ Map)) :
    startedBy q (started ++ jobs.map (p, ·)) = startedBy q started ++ if p = q then jobs else [] := by
  rw [startedBy, List.filterMap_append, List.filterMap_map, ← startedBy]
  by_cases hp : p = q
  · simp [hp]
  · simp [hp]

theorem startedBy_eq_nil {p : Nat} {started : List (Nat × DeviceJob κ Map)}
    (h : ∀ r ∈ started, r.1 < p) : startedBy p started = [] := by
  apply List.filterMap_eq_nil_iff.mpr
  intro r hr
  exact if_neg (Nat.ne_of_lt (h r hr))

theorem Registry.queueOf_of_heap {s : Registry τ δ κ Map} {p : Nat}
    {c : CommunicatorObject τ δ κ Map} (h : s.heap p = some c) :
    s.queueOf p = some ⟨c.device, startedBy p s.started ++ c.comm.queue⟩ := by
  rw [queueOf, h]
  rfl

theorem Registry.queueOf_congr {s t : Registry τ δ κ Map} {p : Nat} (hheap : t.heap p = s.heap p)
    (hstarted : startedBy p t.started = startedBy p s.started) : t.queueOf p = s.queueOf p := by
  rw [queueOf, queueOf, hheap, hstarted]

/-- A consumer's step takes jobs from the front of its queue, and runs what it took. -/
theorem commStep_taken {path : String} {s s' : Communicator τ δ κ Map} {l : CommStep τ κ Map}
    (hl : ∀ job, l ≠ .put job) (h : commStep E P J path s l = some s') :
    s.queue = taken s.queue l ++ s'.queue ∧
      ∀ job, s'.consumer = .running job → taken s.queue l = [job] := by
  cases commStep_cases E P J path h with
  | @put job _ => exact absurd rfl (hl job)
  | @take job queue hc hq hs' =>
    subst hs'
    rw [hq]
    refine ⟨rfl, ?_⟩
    intro job' hjob
    cases hjob
    rfl
  | takeThrows hc hs' =>
    subst hs'
    exact ⟨rfl, by rw [hc]; nofun⟩
  | wait _ _ hs' | wake _ hs' | ended _ _ hs' | stopped _ _ hs' | interrupt _ hs' =>
    subst hs'
    exact ⟨rfl, nofun⟩

/-- **A consumer's step** leaves the queues as they are. -/
theorem consumer_view {s t : Registry τ δ κ Map} {p : Nat} {l : CommStep τ κ Map}
    (h : ConsumerStepped E P J p l s t) : t.view = s.view := by
  obtain ⟨c, comm, hp, hcomm, ht⟩ := h.stepped
  have hcomms : t.communicators = s.communicators := by rw [ht]
  have hstarted : ∀ q, startedBy q t.started =
      startedBy q s.started ++ if p = q then taken c.comm.queue l else [] := by
    intro q
    rw [ht]
    exact startedBy_append p q _ _
  rw [Registry.view, Registry.view, hcomms]
  apply List.filterMap_congr
  intro q _
  by_cases hq : p = q
  · subst hq
    have hp' : t.heap p = some { c with comm := comm } := by
      rw [ht]
      exact Function.update_self ..
    obtain ⟨hqueue, -⟩ := commStep_taken E P J h.notPut hcomm
    rw [Registry.queueOf_of_heap hp, Registry.queueOf_of_heap hp', hstarted, if_pos rfl,
      List.append_assoc]
    exact congrArg (fun jobs => some (⟨c.device, startedBy p s.started ++ jobs⟩ :
      CommunicatorQueue κ Map)) hqueue.symm
  · refine Registry.queueOf_congr ?_ (by rw [hstarted, if_neg hq, List.append_nil])
    rw [ht]
    exact Function.update_of_ne (Ne.symm hq) ..

/-- **A request** is put into the queues. -/
theorem request_view {s t : Registry τ δ κ Map} (hs : Intact s)
    (hstarted : ∀ r ∈ s.started, r.1 < s.next) {desc : DeviceDescriptor} {job : DeviceJob κ Map}
    {dev : δ} (ht : t = settled (request desc job dev s)) : t.view = putJob desc job s.view := by
  have hlacks : ∀ ps, s.Lacks (desc.path.getD "") ps →
      ∀ q ∈ ps.filterMap s.queueOf, q.path ≠ desc.path.getD "" := by
    intro ps h q hq
    obtain ⟨p, hp, hq⟩ := List.mem_filterMap.mp hq
    obtain ⟨c, hc, rfl⟩ := Option.map_eq_some_iff.mp hq
    exact h p hp c hc
  rcases request_cases desc job dev hs.alive with
    ⟨before, p, after, c, hps, hb, hc, hpath, heq⟩ | ⟨hl, heq⟩
  · rw [heq, settled_ok] at ht
    have hcomms : t.communicators = before ++ p :: after := by rw [ht, hps]
    have hp : t.queueOf p =
        some ⟨c.device, startedBy p s.started ++ (c.comm.queue ++ [job])⟩ := by
      rw [ht]
      exact Registry.queueOf_of_heap (c := { c with comm := c.comm.put job })
        (Function.update_self ..)
    have hother : ∀ ps : List Nat, p ∉ ps → ps.filterMap t.queueOf = ps.filterMap s.queueOf := by
      intro ps hp
      apply List.filterMap_congr
      intro q hq
      have hne : q ≠ p := fun h => hp (h ▸ hq)
      rw [ht]
      exact Registry.queueOf_congr (Function.update_of_ne hne ..) rfl
    have hnodup := hs.nodup
    rw [hps, List.nodup_middle, List.nodup_cons, List.mem_append, not_or] at hnodup
    rw [Registry.view, Registry.view, hcomms, hps, List.filterMap_append, List.filterMap_append,
      List.filterMap_cons_some hp, List.filterMap_cons_some (Registry.queueOf_of_heap hc),
      hother _ hnodup.1.1, hother _ hnodup.1.2, ← List.append_assoc]
    exact (putJob_found (q := ⟨c.device, startedBy p s.started ++ c.comm.queue⟩)
      (hlacks before hb) hpath).symm
  · rw [heq, settled_ok] at ht
    have hcomms : t.communicators = s.communicators ++ [s.next] := by rw [ht]
    have hnext : t.queueOf s.next = some ⟨desc, [job]⟩ := by
      have hnil : startedBy s.next t.started = [] := by
        rw [ht]
        exact startedBy_eq_nil hstarted
      have hheap : t.heap s.next = some ⟨desc, (Communicator.new dev).put job⟩ := by
        rw [ht]
        exact Function.update_self ..
      rw [Registry.queueOf_of_heap hheap, hnil]
      rfl
    have hother : s.communicators.filterMap t.queueOf = s.communicators.filterMap s.queueOf := by
      apply List.filterMap_congr
      intro q hq
      have hne : q ≠ s.next := Nat.ne_of_lt (hs.fresh q hq)
      rw [ht]
      exact Registry.queueOf_congr (Function.update_of_ne hne ..) rfl
    rw [Registry.view, Registry.view, hcomms, List.filterMap_append, hother,
      List.filterMap_cons_some hnext]
    exact (putJob_new (hlacks _ hl)).symm

/-- One step before shutdown. -/
theorem registryStep_refines {steps : List (RegistryStep τ δ κ Map)} {s t : Registry τ δ κ Map}
    {l : RegistryStep τ δ κ Map} (hs : Refines steps s) (hl : l ≠ .shutdown)
    (h : registryStep E P J s l = some t) : Refines (steps ++ [l]) t := by
  have hintact : Intact t := registryStep_intact E P J hs.intact (fun heq => absurd heq hl) h
  cases (registryStep_cases E P J h).2 with
  | @request desc job dev _ ht =>
    refine ⟨hintact, ?_, ?_⟩
    · intro r hr
      rcases request_cases desc job dev hs.intact.alive with ⟨_, _, _, _, -, -, -, -, heq⟩ | ⟨-, heq⟩
      · rw [ht, heq] at hr ⊢
        exact hs.started r hr
      · rw [ht, heq] at hr ⊢
        exact Nat.lt_succ_of_lt (hs.started r hr)
    · rw [request_view hs.intact hs.started ht, hs.view, requested_append]
      exact (putAll_append _ desc job).symm
  | shutdown => exact absurd rfl hl
  | delete hd =>
    rw [hs.intact.deleting] at hd
    cases hd
  | @consumer p l hc =>
    refine ⟨hintact, ?_, ?_⟩
    · intro r hr
      obtain ⟨c, comm, hp, -, rfl⟩ := hc.stepped
      rcases List.mem_append.mp hr with hr | hr
      · exact hs.started r hr
      · obtain ⟨job, -, rfl⟩ := List.mem_map.mp hr
        exact hs.intact.fresh p (hs.intact.registered p c hp)
    · rw [consumer_view E P J hc, hs.view, requested_append]
      exact congrArg putAll (List.append_nil _).symm

theorem refines_new : Refines [] (Registry.new : Registry τ δ κ Map) where
  intact := intact_new
  started := by simp [Registry.new]
  view := rfl

/-- **The registry is the queues of the requests**, in every run before shutdown. -/
theorem registry_refines {steps : List (RegistryStep τ δ κ Map)} {s : Registry τ δ κ Map}
    (hsteps : ∀ l ∈ steps, l ≠ .shutdown)
    (hrun : Run.run (registryStep E P J) .new steps = some s) : Refines steps s := by
  exact Run.run_inv_labels (registryStep E P J) Refines (fun _ l => l ≠ .shutdown)
    (fun steps s l t hs hl h => registryStep_refines E P J hs hl h) refines_new
    (Run.along_of_forall _ (fun l : RegistryStep τ δ κ Map => l ≠ .shutdown) hsteps _) hrun

/-- A `call` or `close` of the page, on the plugin of `PluginAPI` and on the registry. -/
theorem enqueue_refines {i : Nat} {ctx : Context} {process : Process κ Map δ}
    {s t : Registry τ δ κ Map} {desc : DeviceDescriptor} {job : DeviceJob κ Map} {dev : δ}
    (hs : Intact s) (hstarted : ∀ r ∈ s.started, r.1 < s.next)
    (hview : (process.plugin i).communicators = s.view) (halive : ctx.alive = true)
    (h : registryStep E P J s (.request desc job dev) = some t) :
    ∃ process', enqueue J i ctx desc job process = .ok () process' ∧
      (process'.plugin i).communicators = t.view := by
  cases (registryStep_cases E P J h).2 with
  | request _ ht =>
    refine ⟨{ process with plugin := Function.update process.plugin i { process.plugin i with
      communicators := putJob desc job (process.plugin i).communicators } }, ?_, ?_⟩
    · simp only [enqueue, calling, acquirePlugin, halive]
      rfl
    · rw [request_view hs hstarted ht, ← hview]
      exact congrArg _ (Function.update_self ..)

/-! ## What the queues say of the registry -/

theorem Refines.distinct {steps : List (RegistryStep τ δ κ Map)} {s : Registry τ δ κ Map}
    (hs : Refines steps s) : s.communicators.Pairwise fun p q =>
      ∀ c d, s.heap p = some c → s.heap q = some d → c.path ≠ d.path := by
  have h := putAll_nodup (requested steps)
  rw [← hs.view, Registry.view, List.Nodup, List.pairwise_map, List.pairwise_filterMap] at h
  refine h.imp fun hpq c d hc hd => ?_
  exact hpq _ (Registry.queueOf_of_heap hc) _ (Registry.queueOf_of_heap hd)

/-- Communicators with the same path are one. -/
theorem Refines.unique {steps : List (RegistryStep τ δ κ Map)} {s : Registry τ δ κ Map}
    (hs : Refines steps s) {p q : Nat} {c d : CommunicatorObject τ δ κ Map}
    (hc : s.heap p = some c) (hd : s.heap q = some d) (hpath : c.path = d.path) : p = q := by
  by_contra hne
  have hsymm : Std.Symm fun p q =>
      ∀ c d, s.heap p = some c → s.heap q = some d → c.path ≠ d.path :=
    ⟨fun p q h c d hc hd => (h d c hd hc).symm⟩
  exact hs.distinct.forall (hs.intact.registered p c hc) (hs.intact.registered q d hd) hne
    c d hc hd hpath

theorem Refines.inOrder {steps : List (RegistryStep τ δ κ Map)} {s : Registry τ δ κ Map}
    (hs : Refines steps s) {p : Nat} {c : CommunicatorObject τ δ κ Map} (hc : s.heap p = some c) :
    requestedFor c.path steps = startedBy p s.started ++ c.comm.queue := by
  have hmem : ⟨c.device, startedBy p s.started ++ c.comm.queue⟩ ∈ putAll (requested steps) := by
    rw [← hs.view]
    exact List.mem_filterMap.mpr ⟨p, hs.intact.registered p c hc, Registry.queueOf_of_heap hc⟩
  rw [requestedFor, ← jobsOf_putAll]
  exact jobsOf_of_mem (putAll_nodup _) hmem

/-- What only communicators with one path contribute to, at most one each, is at most one. -/
theorem Refines.length_flatMap_le_one {β : Type} {steps : List (RegistryStep τ δ κ Map)}
    {s : Registry τ δ κ Map} (hs : Refines steps s) (path : String) {f : Nat → List β}
    (hf : ∀ p c, s.heap p = some c → (f p).length ≤ 1 ∧ (f p ≠ [] → c.path = path)) :
    (s.communicators.flatMap f).length ≤ 1 := by
  refine Keys.length_flatMap_le_one hs.intact.nodup ?_ ?_
  · intro p hp
    obtain ⟨c, hc⟩ := hs.intact.alive p hp
    exact (hf p c hc).1
  · intro p hp q hq hfp hfq
    obtain ⟨c, hc⟩ := hs.intact.alive p hp
    obtain ⟨d, hd⟩ := hs.intact.alive q hq
    exact hs.unique hc hd (((hf p c hc).2 hfp).trans ((hf q d hd).2 hfq).symm)

/-- A path that something was requested for has a communicator. -/
theorem Refines.exists_of_requested {steps : List (RegistryStep τ δ κ Map)}
    {s : Registry τ δ κ Map} (hs : Refines steps s) {path : String}
    (h : requestedFor path steps ≠ []) :
    ∃ p ∈ s.communicators, ∃ c, s.heap p = some c ∧ c.path = path := by
  rw [requestedFor, ← jobsOf_putAll, ← hs.view] at h
  obtain ⟨q, hq, hpath⟩ := exists_of_jobsOf h
  obtain ⟨p, hp, hq⟩ := List.mem_filterMap.mp hq
  obtain ⟨c, hc, rfl⟩ := Option.map_eq_some_iff.mp hq
  exact ⟨p, hp, c, hc, hpath⟩

/-! ## The handles of a consumer -/

variable (path : String)

/-- Every path opened is this one. -/
def OpensOnly (trace : List Event) : Prop :=
  ∀ q res, .act (.openPath q res) ∈ trace → q = path

/-- The handles opened for `path` and not closed since. -/
def handleStepFor (handles : List Handle) : Event → List Handle
  | .act (.openPath q (some h)) => if q = path then h :: handles else handles
  | .act (.close h) => handles.erase h
  | _ => handles

def handlesFor (trace : List Event) : List Handle := trace.foldl (handleStepFor path) []

theorem opensOnly_append {l m : List Event} :
    OpensOnly path (l ++ m) ↔ OpensOnly path l ∧ OpensOnly path m := by
  simp only [OpensOnly, List.mem_append, or_imp, forall_and]

theorem opensOnly_critical {calls : List HidCall}
    (h : ∀ c ∈ calls, ∀ q res, c = .openPath q res → q = path) :
    OpensOnly path (Mutex.critical calls) := by
  intro q res hmem
  simp only [Mutex.critical, List.mem_cons, reduceCtorEq, List.mem_append, List.mem_map,
    Mutex.Act.act.injEq, exists_eq_right, List.not_mem_nil, or_false, false_or] at hmem
  exact h _ hmem q res rfl

theorem opensOnly_uses {h : Handle} {w w' : World δ} (hw : OpensOnly path w.trace)
    (hu : w.Uses h w') : OpensOnly path w'.trace := by
  obtain ⟨es, htrace, hsec⟩ := hu
  rw [htrace]
  exact (opensOnly_append path).mpr ⟨hw, fun q res hmem => absurd (hsec.acts hmem) id⟩

theorem open_opensOnly {w : World δ} (hw : OpensOnly path w.trace) :
    OpensOnly path (DeviceChannel.open E path w).2.trace := by
  unfold DeviceChannel.open
  simp only []
  split
  · refine (opensOnly_append path).mpr ⟨hw, opensOnly_critical path ?_⟩
    simp
  · simp only [World.locked_trace]
    refine (opensOnly_append path).mpr ⟨(opensOnly_append path).mpr ⟨hw, ?_⟩, ?_⟩
    · exact opensOnly_critical path (by simp)
    · exact opensOnly_critical path (by simp)

theorem destroy_opensOnly {s : ExecState τ δ κ Map} (h : OpensOnly path s.world.trace) :
    OpensOnly path (destroy E s).world.trace := by
  have hbuffer : ∀ t : ExecState τ δ κ Map, (resetBuffer t).world = t.world := by
    intro t
    unfold resetBuffer
    split <;> rfl
  rw [destroy, hbuffer]
  unfold resetChannel
  split
  · exact h
  · exact (opensOnly_append path).mpr ⟨h, opensOnly_critical path (by simp)⟩

theorem kept_opensOnly :
    Kept E path fun s : ExecState τ δ κ Map => OpensOnly path s.world.trace := by
  refine ⟨fun _ _ h => h, ?_, ?_, ?_, fun _ h => destroy_opensOnly E path h⟩
  · intro s h
    unfold ensureBuffer
    split <;> exact h
  · intro s h
    have hopen := open_opensOnly E path h
    unfold ensureChannel
    split
    · exact h
    · split
      · exact h
      · split <;> next heq => rwa [heq] at hopen
  · intro α op hop s h
    rcases onChannel_uses hop s with heq | ⟨ch, buf, -, hu, -⟩
    · rwa [heq]
    · exact opensOnly_uses path h hu

/-- The executor owns its handle, and has opened no path but its own. -/
structure OwnsPath (s : ExecState τ δ κ Map) : Prop where
  owns : Owns s
  only : OpensOnly path s.world.trace

theorem ownsPath_new (dev : δ) : OwnsPath path (ExecState.new dev [] : ExecState τ δ κ Map) :=
  ⟨owns_new dev [], nofun⟩

theorem OwnsPath.destroy {s : ExecState τ δ κ Map} (h : OwnsPath path s) :
    OwnsPath path (destroy E s) :=
  ⟨(destroy_owns E h.owns).1, destroy_opensOnly E path h.only⟩

theorem OwnsPath.execute {s : ExecState τ δ κ Map} (h : OwnsPath path s) (pool : DescriptorPool)
    (job : DeviceJob κ Map) (ticks : List τ) :
    OwnsPath path (Exec.final (execute E P J pool path job { s with ticks := ticks })) := by
  have howns : Owns { s with ticks := ticks } :=
    ⟨h.owns.disciplined, h.owns.handle, h.owns.borrowed, h.owns.alive⟩
  exact ⟨execute_keeps E P J pool path job _ howns,
    (kept_opensOnly E path).execute E P J pool path job _ h.only⟩

theorem commStep_ownsPath {s s' : Communicator τ δ κ Map} {l : CommStep τ κ Map}
    (hs : OwnsPath path s.exec) (h : commStep E P J path s l = some s') :
    OwnsPath path s'.exec := by
  cases commStep_cases E P J path h with
  | @ended pool ticks job exec _ hend hs' =>
    have hexec := hs.execute E P J path pool job ticks
    subst hs'
    rcases hend with heq | ⟨x, heq⟩
    · rwa [heq] at hexec
    · rwa [heq] at hexec
  | @stopped pool ticks job exec _ heq hs' =>
    have hexec := hs.execute E P J path pool job ticks
    subst hs'
    rw [heq] at hexec
    exact hexec.destroy E path
  | interrupt _ hs' =>
    subst hs'
    exact hs.destroy E path
  | put hs' | wait _ _ hs' | wake _ hs' | take _ _ hs' | takeThrows _ hs' =>
    subst hs'
    exact hs

/-- One event of a disciplined trace. -/
theorem handleStepFor_eq {cur : Option Handle} {e : Event} (he : Allowed cur e)
    (hpath : OpensOnly path [e]) (q : String) :
    handleStepFor q (if path = q then cur.toList else []) e =
      if path = q then (handleStep cur e).toList else [] := by
  match e, he with
  | .act (.openPath r (some h)), he =>
    obtain rfl : r = path := hpath r (some h) (List.mem_singleton.mpr rfl)
    cases he
    simp only [handleStepFor, handleStep]
    split
    · rfl
    · rfl
  | .act (.close h), he =>
    cases he h rfl
    simp only [handleStepFor, handleStep]
    split
    · simp
    · rfl
  | .act (.openPath _ none), _ => rfl
  | .act (.sendFeatureReport _ _), _ => rfl
  | .act (.write _ _ _), _ => rfl
  | .act (.readTimeout _ _), _ => rfl
  | .act (.error _), _ => rfl
  | .act .enumerate, _ => rfl
  | .act .freeEnumeration, _ => rfl
  | .lock, _ => rfl
  | .unlock, _ => rfl

theorem handlesFor_eq {trace : List Event} {cur : Option Handle} (hd : Disciplined cur trace)
    (hpath : OpensOnly path trace) (q : String) :
    trace.foldl (handleStepFor q) (if path = q then cur.toList else []) =
      if path = q then (openHandle cur trace).toList else [] := by
  induction trace generalizing cur with
  | nil => rfl
  | cons e trace ih =>
    obtain ⟨he, hd⟩ := hd
    obtain ⟨hpe, hpt⟩ := (opensOnly_append path (l := [e])).mp hpath
    rw [List.foldl_cons, handleStepFor_eq path he hpe, ih hd hpt]
    rfl

/-- At any moment of such a trace the handles for the path are the open one, and there is none for
another. -/
theorem OwnsPath.handlesFor {s : ExecState τ δ κ Map} (h : OwnsPath path s) {past : List Event}
    (hpast : past <+: s.world.trace) (q : String) :
    handlesFor q past = if path = q then (openHandle none past).toList else [] := by
  obtain ⟨rest, hrest⟩ := hpast
  have hd := h.owns.disciplined
  have hpath := h.only
  rw [← hrest] at hd hpath
  have heq := handlesFor_eq path (disciplined_append.mp hd).1 ((opensOnly_append path).mp hpath).1 q
  rwa [Option.toList_none, ite_self] at heq

/-! ## Every moment of a run -/

/-- The hidapi calls of a communicator's consumer up to some moment: before, or within the job that it
is running. -/
def CommunicatorObject.Past (c : CommunicatorObject τ δ κ Map) (past : List Event) : Prop :=
  past <+: c.comm.exec.world.trace ∨
  ∃ job pool ticks, c.comm.consumer = .running job ∧
    past <+: (Exec.final
      (execute E P J pool c.path job { c.comm.exec with ticks := ticks })).world.trace

/-- A moment between two steps: how far each consumer has come with its hidapi calls. -/
def Registry.Moment (s : Registry τ δ κ Map) (past : Nat → List Event) : Prop :=
  ∀ p c, s.heap p = some c → c.Past E P J (past p)

/-- The jobs in execution for a path. -/
def Registry.executing (s : Registry τ δ κ Map) (path : String) : List (DeviceJob κ Map) :=
  s.communicators.flatMap fun p =>
    (s.heap p).elim [] fun c => if c.path = path then c.comm.consumer.job else []

/-- What a communicator's consumer has done, and what it is doing. -/
structure Serves (s : Registry τ δ κ Map) (p : Nat) (c : CommunicatorObject τ δ κ Map) : Prop where
  owns : OwnsPath c.path c.comm.exec
  last : ∀ job, c.comm.consumer = .running job → ∃ done, startedBy p s.started = done ++ [job]

def AllServe (s : Registry τ δ κ Map) : Prop := ∀ p c, s.heap p = some c → Serves s p c

theorem allServe_new : AllServe (Registry.new : Registry τ δ κ Map) := by
  intro p c hc
  simp [Registry.new] at hc

theorem notify_running {c : Consumer κ Map} {job : DeviceJob κ Map} :
    c.notify = .running job ↔ c = .running job := by
  cases c <;> simp [Consumer.notify]

theorem registryStep_allServe {steps : List (RegistryStep τ δ κ Map)} {s t : Registry τ δ κ Map}
    {l : RegistryStep τ δ κ Map} (hs : Refines steps s) (hserve : AllServe s) (hl : l ≠ .shutdown)
    (h : registryStep E P J s l = some t) : AllServe t := by
  cases (registryStep_cases E P J h).2 with
  | @request desc job dev _ ht =>
    intro q d hd
    rcases request_cases desc job dev hs.intact.alive with
      ⟨_, p, _, c, -, -, hc, -, heq⟩ | ⟨-, heq⟩
    · rw [heq, settled_ok] at ht
      subst ht
      simp only [Function.update_apply] at hd
      split at hd
      · next hq =>
        subst hq
        cases hd
        obtain ⟨howns, hlast⟩ := hserve q c hc
        exact ⟨howns, fun job' hjob => hlast job' (notify_running.mp hjob)⟩
      · obtain ⟨howns, hlast⟩ := hserve q d hd
        exact ⟨howns, hlast⟩
    · rw [heq, settled_ok] at ht
      subst ht
      simp only [Function.update_apply] at hd
      split at hd
      · cases hd
        exact ⟨ownsPath_new _ dev, nofun⟩
      · obtain ⟨howns, hlast⟩ := hserve q d hd
        exact ⟨howns, hlast⟩
  | shutdown => exact absurd rfl hl
  | delete hd =>
    rw [hs.intact.deleting] at hd
    cases hd
  | @consumer p l hc =>
    obtain ⟨c, comm, hp, hcomm, rfl⟩ := hc.stepped
    intro q d hd
    have hstarted := startedBy_append p q s.started (taken c.comm.queue l)
    simp only [Function.update_apply] at hd
    split at hd
    · next hq =>
      subst hq
      cases hd
      refine ⟨commStep_ownsPath E P J _ (hserve q c hp).owns hcomm, ?_⟩
      intro job hjob
      refine ⟨startedBy q s.started, ?_⟩
      rw [hstarted, if_pos rfl, (commStep_taken E P J hc.notPut hcomm).2 job hjob]
    · next hq =>
      obtain ⟨howns, hlast⟩ := hserve q d hd
      refine ⟨howns, ?_⟩
      intro job hjob
      rw [hstarted, if_neg (Ne.symm hq), List.append_nil]
      exact hlast job hjob

/-- What holds of the registry after the steps. -/
structure OneQueueEach (steps : List (RegistryStep τ δ κ Map)) (s : Registry τ δ κ Map) : Prop where
  /-- The communicators created are those registered. -/
  registered : ∀ p, (∃ c, s.heap p = some c) ↔ p ∈ s.communicators
  distinct : s.communicators.Pairwise fun p q =>
    ∀ c d, s.heap p = some c → s.heap q = some d → c.path ≠ d.path
  /-- The jobs requested for a path are those its consumer started, in order, and those in its
  queue. -/
  inOrder : ∀ p c, s.heap p = some c →
    requestedFor c.path steps = startedBy p s.started ++ c.comm.queue
  served : ∀ path, requestedFor path steps ≠ [] →
    ∃ p ∈ s.communicators, ∃ c, s.heap p = some c ∧ c.path = path
  /-- The job in execution is the one started last. -/
  last : ∀ p c job, s.heap p = some c → c.comm.consumer = .running job →
    ∃ done, startedBy p s.started = done ++ [job]
  executing : ∀ path, (s.executing path).length ≤ 1
  handles : ∀ past, s.Moment E P J past →
    ∀ path, (s.communicators.flatMap fun p => handlesFor path (past p)).length ≤ 1

theorem length_job (c : Consumer κ Map) : c.job.length ≤ 1 := by
  cases c with
  | running job => exact Nat.le_refl 1
  | taking | waiting | finished => exact Nat.zero_le 1

theorem length_toList_le (h : Option Handle) : h.toList.length ≤ 1 := by
  cases h with
  | none => exact Nat.zero_le 1
  | some h => exact Nat.le_refl 1

/-- The handles of one communicator at a moment. -/
theorem Serves.handles {s : Registry τ δ κ Map} {p : Nat} {c : CommunicatorObject τ δ κ Map}
    (hserves : Serves s p c) {past : List Event} (hpast : c.Past E P J past) (q : String) :
    (handlesFor q past).length ≤ 1 ∧ (handlesFor q past ≠ [] → c.path = q) := by
  have heq : handlesFor q past = if c.path = q then (openHandle none past).toList else [] := by
    rcases hpast with hpast | ⟨job, pool, ticks, -, hpast⟩
    · exact hserves.owns.handlesFor _ hpast q
    · exact (hserves.owns.execute E P J _ pool job ticks).handlesFor _ hpast q
  rw [heq]
  split
  · next hq => exact ⟨length_toList_le _, fun _ => hq⟩
  · exact ⟨Nat.zero_le 1, fun h => absurd rfl h⟩

/-- **One queue and one handle for each path.**  In every run of calls and closes on any devices and
of the steps of all consumers, before shutdown: the communicators have pairwise distinct paths; the
jobs requested for a path are executed by one consumer in the order requested, one at a time; and at
every moment at most one handle for the path is open. -/
theorem one_queue_each (steps : List (RegistryStep τ δ κ Map)) (s : Registry τ δ κ Map)
    (hsteps : ∀ l ∈ steps, l ≠ .shutdown)
    (hrun : Run.run (registryStep E P J) .new steps = some s) : OneQueueEach E P J steps s := by
  obtain ⟨hs, hserve⟩ := Run.run_inv_labels (registryStep E P J)
    (fun steps s => Refines steps s ∧ AllServe s) (fun _ l => l ≠ .shutdown)
    (fun steps s l t hs hl h => ⟨registryStep_refines E P J hs.1 hl h,
      registryStep_allServe E P J hs.1 hs.2 hl h⟩) ⟨refines_new, allServe_new⟩
    (Run.along_of_forall _ (fun l : RegistryStep τ δ κ Map => l ≠ .shutdown) hsteps _) hrun
  refine ⟨fun p => ⟨fun ⟨c, hc⟩ => hs.intact.registered p c hc, hs.intact.alive p⟩, hs.distinct,
    fun p c hc => hs.inOrder hc, fun path h => hs.exists_of_requested h,
    fun p c job hc hjob => (hserve p c hc).last job hjob, ?_, ?_⟩
  · intro path
    apply hs.length_flatMap_le_one path
    intro p c hc
    rw [hc, Option.elim_some]
    split
    · next hpath => exact ⟨length_job _, fun _ => hpath⟩
    · exact ⟨Nat.zero_le 1, fun h => absurd rfl h⟩
  · intro past hpast path
    exact hs.length_flatMap_le_one path fun p c hc => (hserve p c hc).handles E P J (hpast p c hc) path

/-- The device `hid1` under another serial number and with a product id. -/
def hid1Twin : DeviceDescriptor := ⟨none, some 1, some "3", some "hid1"⟩

/-- Jobs for two paths, one of them under two descriptors, while the consumers go on. -/
def twins : List (RegistryStep Poll Int Nat (List UInt8)) :=
  [.request hid1 (.openJob 0) 0, .consumer 0 .take, .request hid2 (.openJob 1) 0,
    .request hid1Twin (.closeJob 2) 0, .consumer 1 .take, .consumer 0 (.run pingPool []),
    .consumer 0 .take]

theorem one_queue_each_twins :
    ∃ s, Run.run plainStep .new twins = some s ∧ s.communicators = [0, 1] ∧
      OneQueueEach (scriptEnv none fun _ => .ok "") rawProtobuf rawScripting twins s := by
  have hview : (Run.run plainStep .new twins).map (fun s => s.communicators) = some [0, 1] := by
    decide +kernel
  obtain ⟨s, hs, h⟩ := Option.map_eq_some_iff.mp hview
  exact ⟨s, hs, h, one_queue_each _ _ _ twins s (by simp [twins]) hs⟩

end TrezorPlugin
