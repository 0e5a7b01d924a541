import PluginHost.Proofs.Orchestration.PluginRun
/-!
The course that a plugin takes in a run.

A course ends with the first call of the plugin's code that fails, or when its savedata is not handed
out. The record of the plugin says the same as the calls that were made of it. Main statement: a run that
is not aborted gives one record for every plugin in the order of discovery, and each belongs to such a
course.
-/

namespace PluginHost

/-- The stages of a plugin, in order. A plugin without savedata is not configured. -/
def Stage.order (usesSavedata : Bool) : List Stage :=
  [.construction, .initialization] ++ (if usesSavedata then [.configurationLoad] else []) ++ [.prePatch]

/-- Stages are called in order, up to and including the first that fails. -/
inductive Executed : List Stage → List (Stage × CallEnd) → Prop
  | done : Executed [] []
  | returned {stage : Stage} {rest : List Stage} {patches : List Patch}
      {calls : List (Stage × CallEnd)} :
    Executed rest calls → Executed (stage :: rest) ((stage, .returned patches) :: calls)
  | failed {stage : Stage} {rest : List Stage} {failure : StageFailure} :
    Executed (stage :: rest) [(stage, .failed failure)]

/-- A plugin with its record and with what a run did to it. -/
structure Course where
  plugin : DiscoveredPlugin Activator
  record : RuntimeRecord
  events : List Event

namespace Course

/-- The calls of the plugin's code, in order. -/
def calls (c : Course) : List (Stage × CallEnd) := c.events.filterMap Event.call?

def refusals (c : Course) : List HostFault := c.events.filterMap Event.refusal?

def usesSavedata (c : Course) : Bool := c.record.info.any (·.usesSavedata)

/-- A course as it should be: the record has come to an end, each of its fields fits the others, and it
    tells of the plugin what the calls tell. -/
structure Regular (access : Option Tier) (c : Course) : Prop where
  identity : c.record.identity = c.plugin.identity
  typeName : c.record.typeName = c.plugin.typeName
  concerns : ∀ e ∈ c.events, e.Concerns c.plugin access
  state : (c.record.state = .patched ∧ c.record.failure = none) ∨
    ∃ failure, c.record.state = .failed failure.stage ∧ c.record.failure = some failure
  info : c.record.info = none ↔ c.record.state = .failed .construction
  descriptors : c.record.state ≠ .patched → c.record.descriptors = []
  /-- The patches that were declared have one outcome each, in the order of declaration. -/
  declared : c.record.state = .patched → ∃ patches, (.prePatch, .returned patches) ∈ c.calls ∧
    c.record.descriptors.map (·.descriptor) = patches
  executed : c.refusals = [] → Executed (Stage.order c.usesSavedata) c.calls
  failure : c.refusals = [] → ∀ f, c.record.failure = some f ↔ (f.stage, .failed f) ∈ c.calls
  /-- Without its savedata a plugin goes no further than its initialization. -/
  refused : ∀ fault ∈ c.refusals, c.usesSavedata = true ∧
    c.record.failure = some (unloaded fault) ∧
    c.calls = [(.construction, .returned []), (.initialization, .returned [])]

end Course

/-- What a configuration that succeeds adds to a course: nothing fails, and the stages before and after
    it join. -/
theorem Configured.of_ok {identity typeName : String} {info : PluginInfo} {events : List Event}
    (hconfigured : Configured identity typeName info events (.ok ())) :
    events.filterMap Event.refusal? = [] ∧
      (∀ stage failure, (stage, .failed failure) ∉ events.filterMap Event.call?) ∧
      ∀ rest calls, Executed rest calls →
        Executed ((if info.usesSavedata then [.configurationLoad] else []) ++ rest)
          (events.filterMap Event.call? ++ calls) := by
  cases hconfigured with
  | skipped huses =>
    refine ⟨rfl, by simp, fun rest calls hrest => ?_⟩
    rw [huses]
    exact hrest
  | returned huses =>
    refine ⟨rfl, by simp [List.filterMap_cons, Event.call?], fun rest calls hrest => ?_⟩
    rw [huses]
    exact .returned hrest

namespace Course

variable {access : Option Tier} {plugin : DiscoveredPlugin Activator} {info : Option PluginInfo}
  {failure : StageFailure} {events : List Event}

/-- A course that ends with a failure is as it should be if the calls and refusals tell of that failure
    and of no other. -/
theorem Regular.of_failed {c : Course}
    (hcourse : c = ⟨plugin, Host.failedRecord plugin.identity plugin.typeName info failure, events⟩)
    (hconcerns : ∀ e ∈ events, e.Concerns plugin access)
    (hinfo : info = none ↔ failure.stage = .construction)
    (hexecuted : c.refusals = [] → Executed (Stage.order c.usesSavedata) c.calls ∧
      ∀ f, failure = f ↔ (f.stage, .failed f) ∈ c.calls)
    (hrefused : ∀ fault ∈ c.refusals, c.usesSavedata = true ∧ failure = unloaded fault ∧
      c.calls = [(.construction, .returned []), (.initialization, .returned [])]) :
    c.Regular access where
  identity := by rw [hcourse]; rfl
  typeName := by rw [hcourse]; rfl
  concerns := by rw [hcourse]; exact hconcerns
  state := by rw [hcourse]; exact Or.inr ⟨failure, rfl, rfl⟩
  info := by rw [hcourse]; simpa [Host.failedRecord] using hinfo
  descriptors := by rw [hcourse]; exact fun _ => rfl
  declared := by rw [hcourse]; nofun
  executed hnone := (hexecuted hnone).1
  failure := by
    intro hnone f
    rw [← (hexecuted hnone).2, hcourse]
    simp [Host.failedRecord]
  refused := by
    intro fault hfault
    obtain ⟨huses, hfailure, hcalls⟩ := hrefused fault hfault
    refine ⟨huses, ?_, hcalls⟩
    rw [← hfailure, hcourse]
    rfl

/-- The same for a failure of the plugin's own code, which is the last that is called. -/
theorem Regular.of_failed_call (before : List (Stage × CallEnd))
    (hconcerns : ∀ e ∈ events, e.Concerns plugin access)
    (hinfo : info = none ↔ failure.stage = .construction)
    (hrefusals : events.filterMap Event.refusal? = [])
    (hcalls : events.filterMap Event.call? = before ++ [(failure.stage, .failed failure)])
    (hbefore : ∀ stage f, (stage, .failed f) ∉ before)
    (hexecuted : Executed (Stage.order (info.any (·.usesSavedata)))
      (before ++ [(failure.stage, .failed failure)])) :
    Regular access
      ⟨plugin, Host.failedRecord plugin.identity plugin.typeName info failure, events⟩ := by
  refine .of_failed rfl hconcerns hinfo (fun _ => ⟨?_, fun f => ?_⟩) ?_
  · rw [calls, hcalls]
    exact hexecuted
  · rw [calls, hcalls, List.mem_append, List.mem_singleton]
    constructor
    · rintro rfl
      exact Or.inr rfl
    · rintro (hmem | heq)
      · exact absurd hmem (hbefore _ _)
      · exact (CallEnd.failed.inj (Prod.mk.inj heq).2).symm
  · rw [refusals, hrefusals]
    exact List.forall_mem_nil _

end Course

/-- A plugin that comes to its patches has failed nowhere. -/
theorem Configured.regular {access : Option Tier} {plugin : DiscoveredPlugin Activator}
    {info : PluginInfo} {events : List Event} (outcomes : List PatchOutcome)
    (hconfigured : Configured plugin.identity plugin.typeName info events (.ok ())) {c : Course}
    (hcourse : c =
      ⟨plugin, ⟨plugin.identity, plugin.typeName, .patched, some info, outcomes, none⟩,
        .called plugin.identity plugin.typeName .construction (.returned []) ::
          .called plugin.identity plugin.typeName .initialization (.returned []) ::
            (events ++ [.called plugin.identity plugin.typeName .prePatch
              (.returned (outcomes.map (·.descriptor)))])⟩)
    (hconcerns : ∀ e ∈ c.events, e.Concerns plugin access) : c.Regular access := by
  obtain ⟨hrefusals, hnone, hjoin⟩ := hconfigured.of_ok
  have hcalls : c.calls = (.construction, .returned []) :: (.initialization, .returned []) ::
      (events.filterMap Event.call? ++ [(.prePatch, .returned (outcomes.map (·.descriptor)))]) := by
    rw [hcourse, Course.calls]
    simp [Event.call?]
  have hrefused : c.refusals = [] := by
    rw [hcourse, Course.refusals]
    simp [List.filterMap_cons, Event.refusal?, hrefusals]
  have hexecuted : Executed (Stage.order c.usesSavedata) c.calls := by
    rw [hcalls, hcourse]
    exact .returned (.returned (hjoin _ _ (.returned .done)))
  have hfailure : ∀ f, (f.stage, CallEnd.failed f) ∉ c.calls := by
    intro f hmem
    rw [hcalls] at hmem
    simp [hnone] at hmem
  have hpatches : (.prePatch, .returned (outcomes.map (·.descriptor))) ∈ c.calls := by
    rw [hcalls]
    simp
  have hunrefused : ∀ fault, fault ∉ c.refusals := by
    rw [hrefused]
    exact fun _ => List.not_mem_nil
  subst hcourse
  exact ⟨rfl, rfl, hconcerns, Or.inl ⟨rfl, rfl⟩, by simp, fun h => absurd rfl h,
    fun _ => ⟨_, hpatches, rfl⟩, fun _ => hexecuted, fun _ f => by simp [hfailure f],
    fun fault hfault => absurd hfault (hunrefused fault)⟩

theorem Ran.regular {access : Option Tier} {plugin : DiscoveredPlugin Activator}
    {events : List Event} {record : RuntimeRecord}
    (hran : Ran plugin.identity plugin.typeName events record)
    (hconcerns : ∀ e ∈ events, e.Concerns plugin access) :
    Course.Regular access ⟨plugin, record, events⟩ := by
  cases hran with
  | construction hstage =>
    refine .of_failed_call [] hconcerns (by simp [hstage]) rfl (by rw [hstage]; rfl) (by simp) ?_
    rw [hstage]
    exact .failed
  | initialization info hstage =>
    refine .of_failed_call [(.construction, .returned [])] hconcerns (by simp [hstage]) rfl
      (by rw [hstage]; rfl) (by simp) ?_
    rw [hstage]
    exact .returned .failed
  | @configuration info _ _ hconfigured =>
    cases hconfigured with
    | refused huses fault =>
      -- No call has failed here: the failure in the record is the store's.
      refine .of_failed rfl hconcerns (by simp [unloaded]) nofun ?_
      intro other hother
      rw [show other = fault from List.mem_singleton.mp hother]
      exact ⟨huses, rfl, rfl⟩
    | failed huses hstage =>
      refine .of_failed_call [(.construction, .returned []), (.initialization, .returned [])]
        hconcerns (by simp [hstage]) rfl (by rw [hstage]; rfl) (by simp) ?_
      rw [hstage, Option.any_some, huses]
      exact .returned (.returned .failed)
  | @prePatch info events failure hconfigured hstage =>
    obtain ⟨hrefusals, hnone, hjoin⟩ := hconfigured.of_ok
    refine .of_failed_call
      ((.construction, .returned []) :: (.initialization, .returned []) :: events.filterMap Event.call?)
      hconcerns (by simp [hstage]) ?_ ?_ (by simpa using hnone) ?_
    · simp [List.filterMap_cons, Event.refusal?, hrefusals]
    · simp [Event.call?, hstage]
    · rw [hstage]
      exact .returned (.returned (hjoin _ _ .failed))
  | patched outcomes hconfigured => exact hconfigured.regular outcomes rfl hconcerns

namespace Host

variable {σ : Type} (host : Host σ)

theorem runPlugins_regular (r : Registry Activator) (w : World σ)
    (plugins : List (DiscoveredPlugin Activator)) :
    ∃ courses : List Course, courses.map (·.plugin) = plugins ∧
      courses.map (·.record) = (host.runPlugins r w plugins).2 ∧
      (host.runPlugins r w plugins).1.events = w.events ++ courses.flatMap (·.events) ∧
      ∀ c ∈ courses, c.Regular host.access := by
  induction plugins generalizing w with
  | nil => exact ⟨[], rfl, rfl, (List.append_nil _).symm, List.forall_mem_nil _⟩
  | cons plugin rest ih =>
    obtain ⟨events, hevents, hconcerns, hran⟩ := host.runPlugin_ran r w plugin
    obtain ⟨courses, hplugins, hrecords, hrest, hregular⟩ := ih (host.runPlugin r w plugin).1
    refine ⟨⟨plugin, (host.runPlugin r w plugin).2, events⟩ :: courses, ?_, ?_, ?_, ?_⟩
    · rw [List.map_cons, hplugins]
    · rw [List.map_cons, hrecords, runPlugins]
    · rw [runPlugins, hrest, hevents, List.flatMap_cons, List.append_assoc]
    · intro c hc
      rcases List.mem_cons.mp hc with rfl | hc
      · exact hran.regular hconcerns
      · exact hregular c hc

/-- A run succeeds exactly if everything it needs can be loaded. Then there is one record for each plugin,
    in the order of discovery, and each is that of a course as it should be, whatever the plugins do. -/
theorem run_success_iff (w : World σ) (packages : List Package) :
    (host.run w packages).2.result = .success ↔
      ∃ r, host.prepare w.hooks packages = .ok r ∧
        ∃ courses : List Course, courses.map (·.plugin) = r.discover ∧
          courses.map (·.record) = (host.run w packages).2.records ∧
          (host.run w packages).1.events = w.events ++ courses.flatMap (·.events) ∧
          ∀ c ∈ courses, c.Regular host.access := by
  rw [run]
  cases hprepare : host.prepare w.hooks packages with
  | error fault =>
    constructor
    · cases fault <;> nofun
    · rintro ⟨r, hr, _⟩
      cases hr
  | ok r =>
    constructor
    · intro _
      exact ⟨r, rfl, host.runPlugins_regular r w r.discover⟩
    · intro _
      rfl

/-- A plugin whose savedata cannot be loaded is not configured, though nothing that it did has failed. -/
theorem refusal_ends_course :
    let type : TypeDef :=
      ⟨"", "P", some (.named "Patchwork" "Plugin"), false, false, [], [], []⟩
    let artifact := (Artifact.ofImage ⟨"a", [⟨"a", [type]⟩]⟩ none).toOption.getD default
    let plugin : InitializedPlugin :=
      ⟨fun data => ⟨data, [], .returned ⟨.returned []⟩⟩, ⟨.returned []⟩⟩
    let host : Host Unit :=
      ⟨fun _ => .ok fun _ => .returned (.finish (.returned plugin)),
        ⟨fun store identity => (store, .error (.savedata identity)), fun store _ _ => (store, .ok ())⟩,
        [], none⟩
    let done := host.run ⟨.ofFunctions [⟨"", "G", "f"⟩], [], (), [], [], []⟩ [⟨"p", artifact⟩]
    done.2.result = .success ∧
      done.2.records.map (fun r => (r.state, r.info.map (·.usesSavedata))) =
        [(.failed .configurationLoad, some true)] ∧
      done.1.events.filterMap Event.call? =
        [(.construction, .returned []), (.initialization, .returned [])] ∧
      ¬ Executed (Stage.order true) (done.1.events.filterMap Event.call?) := by
  intro type artifact plugin host done
  have hrun : done.2.result = .success ∧
      done.2.records.map (fun r => (r.state, r.info.map (·.usesSavedata))) =
        [(.failed .configurationLoad, some true)] ∧
      done.1.events.filterMap Event.call? =
        [(.construction, .returned []), (.initialization, .returned [])] := by
    decide +kernel
  obtain ⟨hresult, hrecords, hcalls⟩ := hrun
  refine ⟨hresult, hrecords, hcalls, ?_⟩
  rw [hcalls]
  intro hexecuted
  cases hexecuted with
  | returned hexecuted =>
    cases hexecuted with
    | returned hexecuted => cases hexecuted

end Host

end PluginHost
