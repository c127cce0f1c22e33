import TrezorPlugin.Plugin
import TrezorPlugin.Lib.Run
import TrezorPlugin.Lib.Keys

/-!
# The schema and the stored configuration

`load_protobuf` appends to one pool for the whole process and does not look at what
`BuildFile` returns; each plugin object stores its own configuration.  The two
agree, for an instance with configuration `config`, when

    lookups in the pool = lookups in (generated files ++ files of config)       (Resolves)

`schema_agrees`: they do after every run of `configure` calls in which each file
that is loaded can be built, and the instances configured agree on their files.
-/

namespace TrezorPlugin

/-! ## Lookups -/

/-- A full name has one message type and one enum in the pool. -/
structure Unambiguous (pool : DescriptorPool) : Prop where
  messages : ∀ d ∈ pool.messageTypes, ∀ d' ∈ pool.messageTypes, d.fullName = d'.fullName → d = d'
  enums : ∀ d ∈ pool.enumTypes, ∀ d' ∈ pool.enumTypes, d.fullName = d'.fullName → d = d'

/-- Two pools with the same files resolve the same names. -/
structure SameLookups (pool pool' : DescriptorPool) : Prop where
  descriptor : ∀ name, messageDescriptor pool name = messageDescriptor pool' name
  name : ∀ type, messageName pool type = messageName pool' type
  type : ∀ name, messageType pool name = messageType pool' name

theorem sameLookups_of_files {pool pool' : DescriptorPool} (h : Unambiguous pool)
    (hfiles : ∀ file, file ∈ pool.files ↔ file ∈ pool'.files) : SameLookups pool pool' := by
  have hmessages : ∀ name, pool.findMessageTypeByName name = pool'.findMessageTypeByName name :=
    Keys.find_key_congr h.messages fun d => by
      simp only [DescriptorPool.messageTypes, List.mem_flatMap, hfiles]
  have henums : ∀ name, pool.findEnumTypeByName name = pool'.findEnumTypeByName name :=
    Keys.find_key_congr h.enums fun d => by
      simp only [DescriptorPool.enumTypes, List.mem_flatMap, hfiles]
  refine ⟨?_, ?_, ?_⟩
  · intro name
    simp only [messageDescriptor, hmessages]
  · intro type
    simp only [messageName, henums]
  · intro name
    simp only [messageType, henums]

/-! ## Loading files -/

variable {δ κ Msg Map : Type} (P : Protobuf Msg) (regexMatch : RegexMatch)

/-- What `BuildFile` returns: `NULL`, or a pool with the file in it, and with nothing else new or
ambiguous. -/
def BuildsFiles : Prop :=
  ∀ pool file pool', P.buildFile pool file = some pool' →
    (∀ f, f ∈ pool'.files ↔ f ∈ pool.files ∨ f = file) ∧ (Unambiguous pool → Unambiguous pool')

/-- Each file can be built when its turn comes. -/
def Buildable (pool : DescriptorPool) : FileDescriptorSet → Prop
  | [] => True
  | file :: fdset => ∃ pool', P.buildFile pool file = some pool' ∧ Buildable pool' fdset

theorem loadProtobuf_files (hP : BuildsFiles P) {pool : DescriptorPool} {fdset : FileDescriptorSet}
    (h : Buildable P pool fdset) :
    (∀ f, f ∈ (loadProtobuf P pool fdset).files ↔ f ∈ pool.files ∨ f ∈ fdset) ∧
    (Unambiguous pool → Unambiguous (loadProtobuf P pool fdset)) := by
  induction fdset generalizing pool with
  | nil => simp [loadProtobuf]
  | cons file fdset ih =>
    obtain ⟨pool', hbuild, hrest⟩ := h
    obtain ⟨hfiles, hnames⟩ := hP pool file pool' hbuild
    obtain ⟨ihfiles, ihnames⟩ := ih hrest
    have hload : loadProtobuf P pool (file :: fdset) = loadProtobuf P pool' fdset := by
      simp only [loadProtobuf, List.foldl_cons, hbuild, Option.getD_some]
    rw [hload]
    refine ⟨?_, fun hu => ihnames (hnames hu)⟩
    intro f
    rw [ihfiles, hfiles, List.mem_cons, or_assoc]

/-! ## Runs of `configure` calls -/

/-- A `configure` call with a configuration whose signature was checked. -/
structure Configuring where
  plugin : Nat
  ctx : Context
  config : Configuration

/-- The call comes to its end, by returning or throwing. -/
def configureStep (s : Process κ Map δ) (c : Configuring) : Option (Process κ Map δ) :=
  match BitcoinTrezorPlugin.configure P regexMatch c.plugin c.ctx c.config s with
  | .ok () s' => some s'
  | .error (.throws _) s' => some s'
  | .error _ _ => none

/-- `configure` has returned normally on the instance. -/
def Process.isConfigured (s : Process κ Map δ) (i : Nat) : Prop := ∃ config, (i, config) ∈ s.loads

/-- The generated files and those of the configuration. -/
def declared (generated : DescriptorPool) (config : Configuration) : DescriptorPool :=
  ⟨generated.files ++ config.wireProtocol⟩

/-- All files of the configuration are loaded, and names resolve as it declares them. -/
def Resolves (generated pool : DescriptorPool) (config : Configuration) : Prop :=
  (∀ file ∈ config.wireProtocol, file ∈ pool.files) ∧ SameLookups pool (declared generated config)

/-- The configuration, if it may be loaded at all, can be loaded as a whole into this process, and
brings the files that are there already, for every instance configured. -/
structure Consistent (generated : DescriptorPool) (s : Process κ Map δ) (c : Configuring) :
    Prop where
  builds : Buildable P s.pool c.config.wireProtocol
  loaded : ∀ file ∈ s.pool.files, file ∈ generated.files ∨ file ∈ c.config.wireProtocol
  others : ∀ i, s.isConfigured i → i ≠ c.plugin → ∀ file ∈ c.config.wireProtocol,
    file ∈ generated.files ∨ file ∈ (s.plugin i).configuration.wireProtocol

/-- The files of the pool are the generated ones and those of each configured instance. -/
structure InStep (generated : DescriptorPool) (s : Process κ Map δ) : Prop where
  unambiguous : Unambiguous s.pool
  kept : ∀ file ∈ generated.files, file ∈ s.pool.files
  loaded : ∀ i, s.isConfigured i → ∀ file,
    file ∈ s.pool.files ↔ file ∈ generated.files ∨ file ∈ (s.plugin i).configuration.wireProtocol

theorem InStep.resolves {generated : DescriptorPool} {s : Process κ Map δ}
    (h : InStep generated s) {i : Nat} (hi : s.isConfigured i) :
    Resolves generated s.pool (s.plugin i).configuration :=
  ⟨fun file hfile => (h.loaded i hi file).mpr (.inr hfile),
    sameLookups_of_files h.unambiguous fun file => by
      rw [h.loaded i hi, declared, List.mem_append]⟩

theorem configureStep_cases {s s' : Process κ Map δ} {c : Configuring}
    (h : configureStep P regexMatch s c = some s') :
    (Admitted regexMatch c.ctx c.config ∧ s' = s.configured P c.plugin c.config) ∨ s' = s := by
  unfold configureStep at h
  rcases configure_cases P regexMatch c.plugin c.ctx c.config s with ⟨hadm, heq⟩ | ⟨-, e, heq⟩
  · rw [heq] at h
    exact .inl ⟨hadm, (Option.some.inj h).symm⟩
  · rw [heq] at h
    exact .inr (Option.some.inj h).symm

/-- One `configure` call. -/
theorem configureStep_inStep (hP : BuildsFiles P) {generated : DescriptorPool}
    {s s' : Process κ Map δ} {c : Configuring} (hs : InStep generated s)
    (hc : Admitted regexMatch c.ctx c.config → Consistent P generated s c)
    (h : configureStep P regexMatch s c = some s') : InStep generated s' := by
  rcases configureStep_cases P regexMatch h with ⟨hadm, rfl⟩ | rfl
  · obtain ⟨hbuilds, hloaded, hothers⟩ := hc hadm
    obtain ⟨hfiles, hnames⟩ := loadProtobuf_files P hP hbuilds
    have hall : ∀ file, file ∈ (loadProtobuf P s.pool c.config.wireProtocol).files ↔
        file ∈ generated.files ∨ file ∈ c.config.wireProtocol := by
      intro file
      rw [hfiles]
      constructor
      · rintro (hf | hf)
        · exact hloaded file hf
        · exact .inr hf
      · exact Or.imp_left (hs.kept file)
    refine ⟨hnames hs.unambiguous, fun file hf => (hall file).mpr (.inl hf), ?_⟩
    intro i hi file
    apply (hall file).trans
    by_cases hip : i = c.plugin
    · subst hip
      simp only [Process.configured, Function.update_self]
    · -- an instance configured before has the same files
      obtain ⟨config, hi⟩ := hi
      have hi : s.isConfigured i := by
        refine ⟨config, (List.mem_append.mp hi).resolve_right fun hnew => hip ?_⟩
        exact congrArg Prod.fst (List.mem_singleton.mp hnew)
      simp only [Process.configured, Function.update_of_ne hip]
      constructor
      · rintro (hf | hf)
        · exact .inl hf
        · exact hothers i hi hip file hf
      · rintro (hf | hf)
        · exact .inl hf
        · exact hloaded file ((hs.loaded i hi file).mpr (.inr hf))
  · exact hs

/-- **The schema agrees with the configuration.**  In a run of `configure` calls on any instances in
which every configuration admitted is consistent with the process it comes to: every lookup resolves
as the stored configuration of each configured instance declares it. -/
theorem schema_agrees (hP : BuildsFiles P) (generated : DescriptorPool)
    (hgenerated : Unambiguous generated) (dev : δ) (calls : List Configuring)
    (s : Process κ Map δ)
    (hconsistent : Run.Along (configureStep P regexMatch)
      (fun s c => Admitted regexMatch c.ctx c.config → Consistent P generated s c)
      (Process.new generated dev : Process κ Map δ) calls)
    (h : Run.run (configureStep P regexMatch) (Process.new generated dev) calls = some s) :
    ∀ i, s.isConfigured i → Resolves generated s.pool (s.plugin i).configuration := by
  have h0 : InStep generated (Process.new generated dev : Process κ Map δ) :=
    ⟨hgenerated, fun _ hf => hf, fun i ⟨config, hi⟩ => nomatch hi⟩
  have hinv := Run.run_inv (configureStep P regexMatch) (InStep generated) _
    (fun _ _ _ hs hc hstep => configureStep_inStep P regexMatch hP hs hc hstep) h0 hconsistent h
  exact fun i hi => hinv.resolves hi

/-! ## A pool that keeps whole files -/

theorem mem_symbols_of_message {pool : DescriptorPool} {d : Descriptor}
    (h : d ∈ pool.messageTypes) : d.fullName ∈ pool.symbols := by
  obtain ⟨file, hfile, hd⟩ := List.mem_flatMap.mp h
  exact List.mem_flatMap.mpr ⟨file, hfile, List.mem_append_left _ (List.mem_map_of_mem hd)⟩

theorem mem_symbols_of_enum {pool : DescriptorPool} {d : EnumDescriptor}
    (h : d ∈ pool.enumTypes) : d.fullName ∈ pool.symbols := by
  obtain ⟨file, hfile, hd⟩ := List.mem_flatMap.mp h
  exact List.mem_flatMap.mpr ⟨file, hfile, List.mem_append_right _ (List.mem_map_of_mem hd)⟩

theorem raw_buildsFiles : BuildsFiles rawProtobuf := by
  intro pool file pool' h
  simp only [rawProtobuf, rawBuildFile] at h
  split at h
  · next hmem =>
    cases h
    exact ⟨fun f => ⟨.inl, fun hf => hf.elim id fun hf => hf ▸ hmem⟩, id⟩
  · split at h
    · next hnew =>
      cases h
      obtain ⟨-, -, hnodup, hfresh⟩ := hnew
      obtain ⟨hmessages, henums, -⟩ := List.nodup_append.mp hnodup
      refine ⟨fun f => by simp, fun hu => ⟨?_, ?_⟩⟩
      · simp only [DescriptorPool.messageTypes, List.flatMap_append, List.flatMap_singleton]
        apply Keys.unique_append hu.messages (Keys.unique_of_nodup hmessages)
        intro d hd d' hd' heq
        apply hfresh d'.fullName (List.mem_append_left _ (List.mem_map_of_mem hd'))
        rw [← heq]
        exact mem_symbols_of_message hd
      · simp only [DescriptorPool.enumTypes, List.flatMap_append, List.flatMap_singleton]
        apply Keys.unique_append hu.enums (Keys.unique_of_nodup henums)
        intro d hd d' hd' heq
        apply hfresh d'.fullName (List.mem_append_right _ (List.mem_map_of_mem hd'))
        rw [← heq]
        exact mem_symbols_of_enum hd
    · cases h

/-- Patterns without special characters. -/
def literalMatch : RegexMatch := fun location url => .ok (decide (location = url))

/-- A configuration for the page `"page"`, with these files. -/
def pageConfig (fdset : FileDescriptorSet) : Configuration := ⟨["page"], [], fdset, [], none⟩

def onPage (i : Nat) (fdset : FileDescriptorSet) : Configuring :=
  ⟨i, ⟨true, .ok "page", 0, fun _ => none⟩, pageConfig fdset⟩

theorem onPage_admitted (i : Nat) (fdset : FileDescriptorSet) :
    Admitted literalMatch (onPage i fdset).ctx (onPage i fdset).config :=
  ⟨nofun, "page", rfl, nofun, [], "page", [], rfl, nofun, rfl⟩

theorem configureStep_onPage (i : Nat) (fdset : FileDescriptorSet) (s : Process κ Map δ) :
    configureStep P literalMatch s (onPage i fdset) =
      some (s.configured P i (pageConfig fdset)) := by
  rcases configure_cases P literalMatch i (onPage i fdset).ctx (pageConfig fdset) s with
    ⟨-, heq⟩ | ⟨hno, -⟩
  · simp only [configureStep, onPage]
    exact congrArg (fun res => match res with
      | EStateM.Result.ok () s' => some s'
      | .error (.throws _) s' => some s'
      | .error _ _ => none) heq
  · exact absurd (onPage_admitted i fdset) hno

def newProcess : Process Nat Nat Nat := Process.new ⟨[]⟩ 0

/-- The process after `pingPool`'s file was configured on instance 0. -/
def pingProcess : Process Nat Nat Nat :=
  newProcess.configured rawProtobuf 0 (pageConfig pingPool.files)

theorem schema_agrees_two :
    ∃ s, Run.run (configureStep rawProtobuf literalMatch) newProcess
        [onPage 0 pingPool.files, onPage 1 pingPool.files] = some s ∧
      Resolves ⟨[]⟩ s.pool (s.plugin 0).configuration ∧
      Resolves ⟨[]⟩ s.pool (s.plugin 1).configuration := by
  have h1 := configureStep_onPage rawProtobuf 0 pingPool.files newProcess
  have h2 := configureStep_onPage rawProtobuf 1 pingPool.files pingProcess
  have hrun := (Run.run_cons_of _ h1 [onPage 1 pingPool.files]).trans (Run.run_cons_of _ h2 [])
  have hresolves := schema_agrees rawProtobuf literalMatch raw_buildsFiles ⟨[]⟩ ⟨nofun, nofun⟩ 0
    [onPage 0 pingPool.files, onPage 1 pingPool.files] _ ⟨fun _ => ?_, fun t ht => ⟨fun _ => ?_, ?_⟩⟩
    hrun
  · exact ⟨_, hrun, hresolves 0 ⟨pageConfig pingPool.files, by decide⟩,
      hresolves 1 ⟨pageConfig pingPool.files, by decide⟩⟩
  · exact ⟨⟨pingPool, by decide, trivial⟩, nofun, fun i ⟨config, hi⟩ => nomatch hi⟩
  · obtain rfl : pingProcess = t := Option.some.inj (h1.symm.trans ht)
    refine ⟨⟨pingPool, by decide, trivial⟩, by decide, fun i ⟨config, hi⟩ _ => ?_⟩
    obtain rfl : i = 0 := congrArg Prod.fst (List.mem_singleton.mp hi)
    decide
  · exact fun _ _ => trivial

/-- `ping.proto` with a third message type. -/
def nextFile : FileDescriptorProto :=
  ⟨"ping.proto", [], [⟨"Ping", []⟩, ⟨"Pong", []⟩, ⟨"Next", []⟩],
    [⟨"MessageType", [⟨"MessageType_Ping", 0⟩, ⟨"MessageType_Pong", 1⟩, ⟨"MessageType_Next", 2⟩]⟩]⟩

theorem schema_does_not_agree :
    ∃ s, Run.run (configureStep rawProtobuf literalMatch) newProcess
        [onPage 0 pingPool.files, onPage 0 [nextFile]] = some s ∧
      s.isConfigured 0 ∧ (s.plugin 0).configuration = pageConfig [nextFile] ∧
      messageName s.pool 2 = .error (.messageTypeUnknown 2) ∧
      messageName (declared ⟨[]⟩ (pageConfig [nextFile])) 2 = .ok "Next" ∧
      ¬ Resolves ⟨[]⟩ s.pool (s.plugin 0).configuration := by
  have h1 := configureStep_onPage rawProtobuf 0 pingPool.files newProcess
  have h2 := configureStep_onPage rawProtobuf 0 [nextFile] pingProcess
  refine ⟨_, (Run.run_cons_of _ h1 _).trans (Run.run_cons_of _ h2 []),
    ⟨pageConfig [nextFile], by decide⟩, rfl, by decide, by decide, ?_⟩
  rintro ⟨hloaded, -⟩
  exact absurd (hloaded nextFile List.mem_cons_self) (by decide)

end TrezorPlugin
