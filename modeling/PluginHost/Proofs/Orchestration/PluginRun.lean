import PluginHost.Orchestration.Run
/-!
What a run does to one plugin.

A plugin is taken from stage to stage until its code fails or its savedata is not handed out. Main
statement: what happens to it is one of five things, each with its own events and its own record, and the
events tell truly how the plugin's code ended.
-/

namespace PluginHost

namespace DiscoveredPlugin

/-- The code that a plugin may hand over when it is initialized, by what it finds in the host. -/
def Initializes (p : DiscoveredPlugin Activator) (access : Option Tier) (next : InitializedPlugin) :
    Prop :=
  ∃ first members, p.code p.typeName = .returned first ∧
    (first.run access (.named p.typeName) members []).result = .returned next

/-- How the code of a plugin ends in a stage, for something that it may find there. The code of each stage
    is what the stage before has handed over. -/
inductive Ends (p : DiscoveredPlugin Activator) (access : Option Tier) : Stage → CallEnd → Prop
  | construction :
    Ends p access .construction (.of (fun _ => []) ((p.code p.typeName).outcome .construction))
  | initialization {first : Initialization} (hfirst : p.code p.typeName = .returned first)
      (members : Members) :
    Ends p access .initialization (.of (fun _ => [])
      ((first.run access (.named p.typeName) members []).result.outcome .initialization))
  | configuration {next : InitializedPlugin} (hnext : p.Initializes access next) (data : Toml.Table) :
    Ends p access .configurationLoad
      (.of (fun _ => []) ((next.configure data).next.outcome .configurationLoad))
  | prePatch {next : InitializedPlugin} {stage : PatchStage} (hnext : p.Initializes access next)
      (hstage : stage = next.patchStage ∨ ∃ data, (next.configure data).next = .returned stage) :
    Ends p access .prePatch (.of id (stage.patches.outcome .prePatch))

end DiscoveredPlugin

namespace Event

/-- An event that happened to a plugin or to its savedata. What is said of its code is true. -/
def Concerns (p : DiscoveredPlugin Activator) (access : Option Tier) : Event → Prop
  | called identity typeName stage ended =>
    identity = p.identity ∧ typeName = p.typeName ∧ p.Ends access stage ended
  | loaded identity _ | saved identity => identity = p.identity

def call? : Event → Option (Stage × CallEnd)
  | called _ _ stage ended => some (stage, ended)
  | _ => none

/-- Why savedata was not handed out. -/
def refusal? : Event → Option HostFault
  | loaded _ fault => fault
  | _ => none

end Event

@[simp]
theorem World.note_members {σ : Type} (w : World σ) (event : Event) :
    (w.note event).members = w.members := rfl

@[simp]
theorem CallEnd.of_ok {α : Type} (patches : α → List Patch) (a : α) :
    of patches (.ok a) = returned (patches a) := rfl

@[simp]
theorem CallEnd.of_error {α : Type} (patches : α → List Patch) (failure : StageFailure) :
    of patches (.error failure) = failed failure := rfl

theorem Completion.stage_of_outcome {α : Type} {c : Completion α} {stage : Stage}
    {failure : StageFailure} (houtcome : c.outcome stage = .error failure) :
    failure.stage = stage := by
  cases c <;> cases houtcome <;> rfl

theorem Completion.returned_of_outcome {α : Type} {c : Completion α} {stage : Stage} {a : α}
    (houtcome : c.outcome stage = .ok a) : c = .returned a := by
  cases c <;> cases houtcome
  rfl

/-- The failure of a plugin whose savedata was not handed out. -/
def unloaded (fault : HostFault) : StageFailure := ⟨.configurationLoad, fault.message, false⟩

/-- What the configuration of a plugin comes to: nothing without savedata, a refusal by the store, or a
    call of the plugin's code. -/
inductive Configured (identity typeName : String) (info : PluginInfo) :
    List Event → Except StageFailure Unit → Prop
  | skipped (huses : info.usesSavedata = false) : Configured identity typeName info [] (.ok ())
  | refused (huses : info.usesSavedata = true) (fault : HostFault) :
    Configured identity typeName info [.loaded identity (some fault)] (.error (unloaded fault))
  | failed (huses : info.usesSavedata = true) {failure : StageFailure}
      (hstage : failure.stage = .configurationLoad) :
    Configured identity typeName info
      [.loaded identity none, .called identity typeName .configurationLoad (.failed failure)]
      (.error failure)
  | returned (huses : info.usesSavedata = true) :
    Configured identity typeName info
      [.loaded identity none, .called identity typeName .configurationLoad (.returned []),
        .saved identity] (.ok ())

/-- What a run comes to for one plugin: it ends in one of its stages or with its patches. -/
inductive Ran (identity typeName : String) : List Event → RuntimeRecord → Prop
  | construction {failure : StageFailure} (hstage : failure.stage = .construction) :
    Ran identity typeName [.called identity typeName .construction (.failed failure)]
      (Host.failedRecord identity typeName none failure)
  | initialization (info : PluginInfo) {failure : StageFailure}
      (hstage : failure.stage = .initialization) :
    Ran identity typeName
      [.called identity typeName .construction (.returned []),
        .called identity typeName .initialization (.failed failure)]
      (Host.failedRecord identity typeName (some info) failure)
  | configuration {info : PluginInfo} {events : List Event} {failure : StageFailure}
      (hconfigured : Configured identity typeName info events (.error failure)) :
    Ran identity typeName
      (.called identity typeName .construction (.returned []) ::
        .called identity typeName .initialization (.returned []) :: events)
      (Host.failedRecord identity typeName (some info) failure)
  | prePatch {info : PluginInfo} {events : List Event} {failure : StageFailure}
      (hconfigured : Configured identity typeName info events (.ok ()))
      (hstage : failure.stage = .prePatch) :
    Ran identity typeName
      (.called identity typeName .construction (.returned []) ::
        .called identity typeName .initialization (.returned []) ::
          (events ++ [.called identity typeName .prePatch (.failed failure)]))
      (Host.failedRecord identity typeName (some info) failure)
  | patched {info : PluginInfo} {events : List Event} (outcomes : List PatchOutcome)
      (hconfigured : Configured identity typeName info events (.ok ())) :
    Ran identity typeName
      (.called identity typeName .construction (.returned []) ::
        .called identity typeName .initialization (.returned []) ::
          (events ++ [.called identity typeName .prePatch (.returned (outcomes.map (·.descriptor)))]))
      ⟨identity, typeName, .patched, some info, outcomes, none⟩

theorem Ran.identity {identity typeName : String} {events : List Event} {record : RuntimeRecord}
    (h : Ran identity typeName events record) : record.identity = identity := by
  cases h <;> rfl

theorem Ran.typeName {identity typeName : String} {events : List Event} {record : RuntimeRecord}
    (h : Ran identity typeName events record) : record.typeName = typeName := by
  cases h <;> rfl

/-- The patches that the plugin has declared. -/
def RuntimeRecord.declared (record : RuntimeRecord) : List Patch := record.descriptors.map (·.descriptor)

namespace Host

variable {σ : Type} (host : Host σ) (r : Registry Activator)

theorem applyPatch_descriptor (identity : String) (hooks : HookTable) (p : Patch) :
    (applyPatch r identity hooks p).2.descriptor = p := by
  unfold applyPatch
  repeat' split
  all_goals rfl

/-- Every patch has one outcome, in order. -/
theorem applyPatches_descriptors (identity : String) (hooks : HookTable) (patches : List Patch) :
    (applyPatches r identity hooks patches).2.map (·.descriptor) = patches := by
  induction patches generalizing hooks with
  | nil => rfl
  | cons p rest ih =>
    rw [applyPatches, List.map_cons, applyPatch_descriptor, ih]

/-- The stage in which a plugin works on its savedata: what happened, and where the code of the next
    stage comes from. -/
theorem configure_configured {p : DiscoveredPlugin Activator} (info : PluginInfo)
    {plugin : InitializedPlugin} (hplugin : p.Initializes host.access plugin) (w : World σ) :
    let done := host.configure p.identity p.typeName info plugin w
    ∃ events, done.1.events = w.events ++ events ∧ (∀ e ∈ events, e.Concerns p host.access) ∧
      Configured p.identity p.typeName info events (done.2.map fun _ => ()) ∧
      ∀ stage, done.2 = .ok stage →
        stage = plugin.patchStage ∨ ∃ data, (plugin.configure data).next = .returned stage := by
  intro done
  cases huses : info.usesSavedata with
  | false =>
    have hdone : done = (w, .ok plugin.patchStage) := by simp [done, configure, huses]
    rw [hdone]
    refine ⟨[], by simp, by simp, .skipped huses, ?_⟩
    rintro stage ⟨⟩
    exact Or.inl rfl
  | true =>
    rcases hload : host.store.load w.store p.identity with ⟨store, fault | document⟩
    · have hresult : done.2 = .error (unloaded fault) := by
        simp [done, configure, huses, hload, unloaded]
      rw [hresult]
      refine ⟨[.loaded p.identity (some fault)], ?_, ?_, .refused huses fault, nofun⟩
      · simp [done, configure, huses, hload, World.note]
      · simp [Event.Concerns]
    · -- The savedata was handed out, so the outcome is up to the plugin's code.
      have hends := DiscoveredPlugin.Ends.configuration hplugin document.data
      cases hended : (plugin.configure document.data).next.outcome .configurationLoad with
      | error failure =>
        rw [hended] at hends
        have hstage := Completion.stage_of_outcome hended
        have hresult : done.2 = .error failure := by simp [done, configure, huses, hload, hended]
        rw [hresult]
        refine ⟨[.loaded p.identity none,
          .called p.identity p.typeName .configurationLoad (.failed failure)], ?_, ?_,
          .failed huses hstage, nofun⟩
        · simp [done, configure, huses, hload, hended, World.note]
        · simpa [Event.Concerns] using hends
      | ok next =>
        rw [hended] at hends
        have hreturned := Completion.returned_of_outcome hended
        have hresult : done.2 = .ok next := by simp [done, configure, huses, hload, hended]
        rw [hresult]
        refine ⟨[.loaded p.identity none,
          .called p.identity p.typeName .configurationLoad (.returned []), .saved p.identity],
          ?_, ?_, .returned huses, ?_⟩
        · simp [done, configure, huses, hload, hended, World.note]
        · simpa [Event.Concerns] using hends
        · rintro stage ⟨⟩
          exact Or.inr ⟨_, hreturned⟩

/-- The stages of a plugin that was initialized. -/
theorem finishPlugin_ran {p : DiscoveredPlugin Activator} (info : PluginInfo)
    {plugin : InitializedPlugin} (hplugin : p.Initializes host.access plugin) (w : World σ) :
    let done := host.finishPlugin r p.identity p.typeName info plugin w
    ∃ events, done.1.events = w.events ++ events ∧ (∀ e ∈ events, e.Concerns p host.access) ∧
      Ran p.identity p.typeName
        (.called p.identity p.typeName .construction (.returned []) ::
          .called p.identity p.typeName .initialization (.returned []) :: events) done.2 := by
  intro done
  obtain ⟨events, hevents, hconcerns, hconfigured, hnext⟩ :=
    host.configure_configured info hplugin w
  rcases hconfigure : host.configure p.identity p.typeName info plugin w with ⟨after, failure | stage⟩
  · have hdone : done = (after, failedRecord p.identity p.typeName (some info) failure) := by
      simp [done, finishPlugin, hconfigure]
    rw [hconfigure] at hevents hconfigured
    rw [hdone]
    exact ⟨events, hevents, hconcerns, .configuration hconfigured⟩
  · rw [hconfigure] at hevents hconfigured hnext
    dsimp only at hevents
    have hends := DiscoveredPlugin.Ends.prePatch hplugin (hnext stage rfl)
    cases hdeclared : stage.patches.outcome .prePatch with
    | error failure =>
      rw [hdeclared] at hends
      have hstage := Completion.stage_of_outcome hdeclared
      have hrecord : done.2 = failedRecord p.identity p.typeName (some info) failure := by
        simp [done, finishPlugin, hconfigure, hdeclared]
      rw [hrecord]
      refine ⟨_, ?_, ?_, .prePatch hconfigured hstage⟩
      · simp [done, finishPlugin, hconfigure, hdeclared, World.note, hevents]
      · exact List.forall_mem_append.mpr ⟨hconcerns, by simpa [Event.Concerns] using hends⟩
    | ok patches =>
      rw [hdeclared] at hends
      have houtcomes := applyPatches_descriptors r p.identity after.hooks patches
      have hrecord : done.2 = ⟨p.identity, p.typeName, .patched, some info,
          (applyPatches r p.identity after.hooks patches).2, none⟩ := by
        simp [done, finishPlugin, hconfigure, hdeclared, World.note]
      rw [hrecord]
      refine ⟨_, ?_, ?_, .patched _ hconfigured⟩
      · simp [done, finishPlugin, hconfigure, hdeclared, World.note, hevents, houtcomes]
      · rw [houtcomes]
        exact List.forall_mem_append.mpr ⟨hconcerns, by simpa [Event.Concerns] using hends⟩

section

variable {identity typeName : String} {info : PluginInfo} {plugin : InitializedPlugin} {w after : World σ}
  {stage : PatchStage}

theorem finishPlugin_of_configuration {failure : StageFailure}
    (hconfigure : host.configure identity typeName info plugin w = (after, .error failure)) :
    host.finishPlugin r identity typeName info plugin w =
      (after, failedRecord identity typeName (some info) failure) := by
  simp only [finishPlugin, hconfigure]

theorem finishPlugin_of_prePatch {failure : StageFailure}
    (hconfigure : host.configure identity typeName info plugin w = (after, .ok stage))
    (hdeclared : stage.patches.outcome .prePatch = .error failure) :
    host.finishPlugin r identity typeName info plugin w =
      (after.note (.called identity typeName .prePatch (.failed failure)),
        failedRecord identity typeName (some info) failure) := by
  simp only [finishPlugin, hconfigure, hdeclared, CallEnd.of_error]

theorem finishPlugin_of_patches {patches : List Patch}
    (hconfigure : host.configure identity typeName info plugin w = (after, .ok stage))
    (hdeclared : stage.patches.outcome .prePatch = .ok patches) :
    host.finishPlugin r identity typeName info plugin w =
      ({ after.note (.called identity typeName .prePatch (.returned patches)) with
          hooks := (applyPatches r identity after.hooks patches).1 },
        ⟨identity, typeName, .patched, some info, (applyPatches r identity after.hooks patches).2, none⟩) := by
  simp only [finishPlugin, hconfigure, hdeclared, CallEnd.of_ok, id_eq, World.note]

end

/-- The world in which the first stage of a plugin has been run. -/
def initialized (w : World σ) (p : DiscoveredPlugin Activator) (done : Initialized) : World σ :=
  { (w.note (.called p.identity p.typeName .construction (.returned []))).note
      (.called p.identity p.typeName .initialization
        (.of (fun _ => []) (done.result.outcome .initialization))) with
    members := done.members
    log := w.log ++ done.log }

theorem runPlugin_of_construction {w : World σ} {p : DiscoveredPlugin Activator}
    {failure : StageFailure} (hmade : (p.code p.typeName).outcome .construction = .error failure) :
    host.runPlugin r w p =
      (w.note (.called p.identity p.typeName .construction (.failed failure)),
        failedRecord p.identity p.typeName none failure) := by
  simp only [runPlugin, hmade, CallEnd.of_error]

theorem runPlugin_of_initialization {w : World σ} {p : DiscoveredPlugin Activator}
    {first : Initialization} {done : Initialized} {failure : StageFailure}
    (hmade : (p.code p.typeName).outcome .construction = .ok first)
    (hdone : first.run host.access (.named p.typeName) w.members [] = done)
    (hended : done.result.outcome .initialization = .error failure) :
    host.runPlugin r w p =
      (initialized w p done, failedRecord p.identity p.typeName (some done.info) failure) := by
  subst hdone
  simp only [runPlugin, hmade, World.note, hended, initialized, CallEnd.of_ok]

theorem runPlugin_of_returned {w : World σ} {p : DiscoveredPlugin Activator}
    {first : Initialization} {done : Initialized} {next : InitializedPlugin}
    (hmade : (p.code p.typeName).outcome .construction = .ok first)
    (hdone : first.run host.access (.named p.typeName) w.members [] = done)
    (hended : done.result.outcome .initialization = .ok next) :
    host.runPlugin r w p =
      host.finishPlugin r p.identity p.typeName done.info next (initialized w p done) := by
  subst hdone
  simp only [runPlugin, hmade, World.note, hended, initialized, CallEnd.of_ok]

/-- What a run does to one plugin. It forgets nothing of what it did before, and tells the truth of the
    plugin's code. -/
theorem runPlugin_ran (w : World σ) (p : DiscoveredPlugin Activator) :
    ∃ events, (host.runPlugin r w p).1.events = w.events ++ events ∧
      (∀ e ∈ events, e.Concerns p host.access) ∧
      Ran p.identity p.typeName events (host.runPlugin r w p).2 := by
  have hconstruction : p.Ends host.access .construction _ := .construction
  rw [runPlugin]
  cases hmade : (p.code p.typeName).outcome .construction with
  | error failure =>
    rw [hmade] at hconstruction
    refine ⟨_, rfl, ?_, .construction (Completion.stage_of_outcome hmade)⟩
    simpa [Event.Concerns] using hconstruction
  | ok first =>
    rw [hmade] at hconstruction
    have hfirst := Completion.returned_of_outcome hmade
    have hinitialization : p.Ends host.access .initialization _ := .initialization hfirst w.members
    simp only [World.note_members]
    cases hended : (first.run host.access (.named p.typeName) w.members []).result.outcome
        .initialization with
    | error failure =>
      rw [hended] at hinitialization
      have hstage := Completion.stage_of_outcome hended
      refine ⟨_, List.append_assoc _ _ _, ?_, .initialization _ hstage⟩
      simpa [Event.Concerns] using ⟨hconstruction, hinitialization⟩
    | ok next =>
      rw [hended] at hinitialization
      have hnext : p.Initializes host.access next :=
        ⟨first, w.members, hfirst, Completion.returned_of_outcome hended⟩
      obtain ⟨events, hevents, hconcerns, hran⟩ := host.finishPlugin_ran r _ hnext _
      refine ⟨_, ?_, ?_, hran⟩
      · rw [hevents]
        simp [World.note]
      · simpa [Event.Concerns] using ⟨hconstruction, hinitialization, hconcerns⟩

theorem configure_hooks (identity typeName : String) (info : PluginInfo) (plugin : InitializedPlugin)
    (w : World σ) : (host.configure identity typeName info plugin w).1.hooks = w.hooks := by
  rw [configure]
  split
  · rfl
  · dsimp only
    split
    · rfl
    · split <;> rfl

/-- Only the patches of its record come near the table while a plugin goes through its stages. -/
theorem runPlugin_applies (w : World σ) (p : DiscoveredPlugin Activator) :
    let done := host.runPlugin r w p
    applyPatches r done.2.identity w.hooks done.2.declared = (done.1.hooks, done.2.descriptors) := by
  intro done
  cases hmade : (p.code p.typeName).outcome .construction with
  | error failure =>
    have hdone : done = _ := host.runPlugin_of_construction r hmade
    rw [hdone]
    rfl
  | ok first =>
    generalize hended : first.run host.access (.named p.typeName) w.members [] = ended
    cases hresult : ended.result.outcome .initialization with
    | error failure =>
      have hdone : done = _ := host.runPlugin_of_initialization r hmade hended hresult
      rw [hdone]
      rfl
    | ok next =>
      have hdone : done = _ := host.runPlugin_of_returned r hmade hended hresult
      rw [hdone]
      have hconfigured :=
        host.configure_hooks p.identity p.typeName ended.info next (initialized w p ended)
      rcases hconfigure : host.configure p.identity p.typeName ended.info next (initialized w p ended) with
        ⟨after, failure | stage⟩
      · rw [hconfigure] at hconfigured
        rw [host.finishPlugin_of_configuration r hconfigure]
        exact congrArg (·, []) hconfigured.symm
      · rw [hconfigure] at hconfigured
        cases hdeclared : stage.patches.outcome .prePatch with
        | error failure =>
          rw [host.finishPlugin_of_prePatch r hconfigure hdeclared]
          exact congrArg (·, []) hconfigured.symm
        | ok patches =>
          rw [host.finishPlugin_of_patches r hconfigure hdeclared]
          have hhooks : after.hooks = w.hooks := hconfigured
          simp only [RuntimeRecord.declared, applyPatches_descriptors, hhooks]

end Host

end PluginHost
