import PluginHost.Proofs.Orchestration.Loading
/-!
What is done before the first plugin runs: the dependencies are loaded, the engine is made, and the batch is
loaded.

Whether one of these steps can be taken does not depend on what was loaded before it. Main statement: a run comes
to its plugins exactly if all steps can be taken. Otherwise the first one that cannot aborts it, and the world
stays as it was.
-/

namespace PluginHost

/-- An artifact can be loaded, by whatever registry. -/
structure Artifact.Loadable {γ : Type} (loader : Loader γ) (artifact : Artifact) : Prop where
  length : artifact.module.length ≤ maxModuleBytes
  image : ∃ image, artifact.image = .ok image
  code : ∃ code, loader artifact = .ok code

/-- The reason for which an artifact is refused. The image is not read if the stream is too long, and code is not
    asked for if the image cannot be read. -/
inductive Artifact.Refused {γ : Type} (loader : Loader γ) (identity : String) (artifact : Artifact) : String → Prop
  | tooLong : maxModuleBytes < artifact.module.length →
    Refused loader identity artifact ("Module load failed for '" ++ identity ++ "': module too large: " ++
      Fault.number artifact.module.length ++ " bytes (limit 67108864)")
  | unreadable {fault : Fault} : artifact.module.length ≤ maxModuleBytes → artifact.image = .error fault →
    Refused loader identity artifact ("Module load failed for '" ++ identity ++ "': " ++ fault.message)
  | withoutCode {image : Image} {fault : HostFault} : artifact.module.length ≤ maxModuleBytes →
    artifact.image = .ok image → loader artifact = .error fault → Refused loader identity artifact fault.message

theorem Artifact.loadable_or_refused {γ : Type} (loader : Loader γ) (identity : String) (artifact : Artifact) :
    artifact.Loadable loader ∨ ∃ reason, artifact.Refused loader identity reason := by
  by_cases hlength : artifact.module.length ≤ maxModuleBytes
  · cases himage : artifact.image with
    | error fault => exact .inr ⟨_, .unreadable hlength himage⟩
    | ok image =>
      cases hcode : loader artifact with
      | error fault => exact .inr ⟨_, .withoutCode hlength himage hcode⟩
      | ok code => exact .inl ⟨hlength, ⟨image, himage⟩, ⟨code, hcode⟩⟩
  · exact .inr ⟨_, .tooLong (Nat.lt_of_not_le hlength)⟩

namespace Registry

variable {γ : Type} {loader : Loader γ} {identity : String} {isDependency : Bool} {artifact : Artifact}

theorem exists_load_iff {r : Registry γ} :
    (∃ s, r.load loader identity isDependency artifact = .ok s) ↔ artifact.Loadable loader := by
  simp only [load_eq_ok_iff, LoadedModule.ofArtifact?_eq_some_iff]
  constructor
  · rintro ⟨_, _, ⟨hlength, image, code, himage, hcode, -⟩, -⟩
    exact ⟨hlength, ⟨image, himage⟩, ⟨code, hcode⟩⟩
  · rintro ⟨hlength, ⟨image, himage⟩, ⟨code, hcode⟩⟩
    exact ⟨_, _, ⟨hlength, image, code, himage, hcode, rfl⟩, rfl⟩

/-- The fault of a registry says why an artifact is refused, whatever was loaded before. -/
theorem load_of_refused {reason : String} (h : artifact.Refused loader identity reason) (r : Registry γ) :
    ∃ fault, r.load loader identity isDependency artifact = .error fault ∧ fault.message = reason := by
  cases h with
  | tooLong hlong =>
    refine ⟨.moduleLoad identity ("module too large: " ++ Fault.number artifact.module.length ++ " bytes (limit " ++
      Fault.number maxModuleBytes ++ ")"), ?_, ?_⟩
    · rw [load, if_pos hlong]
      rfl
    · have hmessage : ∀ detail, (HostFault.moduleLoad identity detail).message =
          "Module load failed for '" ++ identity ++ "': " ++ detail := fun _ => rfl
      have hcolon : "': module too large: " = "': " ++ "module too large: " := by decide +kernel
      have hlimit : " bytes (limit 67108864)" =
          " bytes (limit " ++ Fault.number maxModuleBytes ++ ")" := by decide +kernel
      simp only [hmessage, hcolon, hlimit, String.append_assoc]
  | unreadable hlength himage =>
    refine ⟨.moduleLoad identity _, ?_, rfl⟩
    rw [load, if_neg (Nat.not_lt.mpr hlength)]
    simp only [himage]
    rfl
  | withoutCode hlength himage hcode =>
    refine ⟨_, ?_, rfl⟩
    rw [load, if_neg (Nat.not_lt.mpr hlength)]
    simp only [himage, hcode]
    rfl

end Registry

/-- What has to be done before the first plugin runs. -/
inductive PreparationStep where
  | dependency (artifact : Artifact)
  | engine
  | package (package : Package)

namespace PreparationStep

variable {σ : Type}

def Passes (host : Host σ) (hooks : HookTable) : PreparationStep → Prop
  | dependency artifact => artifact.Loadable host.loader
  | engine => hooks.functions ≠ []
  | package p => p.artifact.Loadable host.loader

/-- Why a step cannot be taken. -/
inductive Fails (host : Host σ) (hooks : HookTable) : PreparationStep → String → Prop
  | dependency {artifact : Artifact} {reason : String} :
    artifact.Refused host.loader artifact.name reason → Fails host hooks (dependency artifact) reason
  | engine : hooks.functions = [] →
    Fails host hooks engine "Interception engine unavailable: no patchable host functions registered"
  | package {p : Package} {reason : String} :
    p.artifact.Refused host.loader p.identity reason → Fails host hooks (package p) reason

/-- The code of a run that a step aborts: it says what kind of step that was. -/
def resultCode : PreparationStep → ResultCode
  | dependency _ => .dependencyLoadFailed
  | engine => .engineConstructionFailed
  | package _ => .moduleLoadFailed

/-- The detail of a run that a step aborts: it names the dependency or the package, and says why. -/
def detail (reason : String) : PreparationStep → String
  | dependency artifact => "Shared dependency '" ++ artifact.name ++ "' failed to load: " ++ reason
  | engine => "Interception engine could not be constructed: " ++ reason
  | package p => "Plugin module '" ++ p.identity ++ "' failed to load: " ++ reason

/-- The fault of a run that is aborted by a step. -/
def fault (reason : String) : PreparationStep → RunFault
  | dependency artifact => .dependencyLoad artifact.name reason
  | engine => .engineConstruction reason
  | package p => .moduleLoad p.identity reason

theorem resultCode_fault (reason : String) (step : PreparationStep) :
    (step.fault reason).resultCode = step.resultCode := by
  cases step <;> rfl

theorem message_fault (reason : String) (step : PreparationStep) :
    (step.fault reason).message = step.detail reason := by
  cases step <;> rfl

def take (host : Host σ) (hooks : HookTable) (r : Registry Activator) :
    PreparationStep → Except RunFault (Registry Activator)
  | dependency artifact => host.loadDependency r artifact
  | engine => ((Host.createEngine hooks).mapError fun fault => .engineConstruction fault.message).map fun _ => r
  | package p => host.loadPackage r p

variable {host : Host σ} {hooks : HookTable}

theorem passes_or_fails (host : Host σ) (hooks : HookTable) (step : PreparationStep) :
    step.Passes host hooks ∨ ∃ reason, step.Fails host hooks reason := by
  cases step with
  | dependency artifact =>
    exact (artifact.loadable_or_refused host.loader artifact.name).imp_right fun ⟨_, h⟩ => ⟨_, .dependency h⟩
  | engine => exact (Decidable.em (hooks.functions = [])).symm.imp_right fun h => ⟨_, .engine h⟩
  | package p =>
    exact (p.artifact.loadable_or_refused host.loader p.identity).imp_right fun ⟨_, h⟩ => ⟨_, .package h⟩

/-- A step that can be taken is taken whatever was loaded before. -/
theorem take_of_passes {step : PreparationStep} (h : step.Passes host hooks) (r : Registry Activator) :
    ∃ s, step.take host hooks r = .ok s := by
  cases step with
  | dependency artifact =>
    obtain ⟨s, hs⟩ := Registry.exists_load_iff.mpr h
    exact ⟨s, mapError_eq_ok_iff.mpr hs⟩
  | engine =>
    have hpatchable : hooks.isPatchable = true := by simpa [HookTable.isPatchable, Passes] using h
    refine ⟨r, ?_⟩
    rw [take, Host.createEngine, if_pos hpatchable]
    rfl
  | package p =>
    obtain ⟨s, hs⟩ := Registry.exists_load_iff.mpr h
    exact ⟨s, mapError_eq_ok_iff.mpr hs⟩

/-- A step that cannot be taken comes to the same fault whatever was loaded before. -/
theorem take_of_fails {step : PreparationStep} {reason : String} (h : step.Fails host hooks reason)
    (r : Registry Activator) : step.take host hooks r = .error (step.fault reason) := by
  cases h with
  | dependency hrefused =>
    obtain ⟨fault, hload, rfl⟩ := Registry.load_of_refused hrefused r
    rw [take, Host.loadDependency, Registry.loadDependency, hload]
    rfl
  | engine hnone =>
    rw [take, Host.createEngine, HookTable.isPatchable, hnone]
    rfl
  | package hrefused =>
    obtain ⟨fault, hload, rfl⟩ := Registry.load_of_refused hrefused r
    rw [take, Host.loadPackage, Registry.loadModule, hload]
    rfl

theorem not_passes_of_fails {step : PreparationStep} {reason : String} (h : step.Fails host hooks reason) :
    ¬ step.Passes host hooks := by
  intro hpasses
  obtain ⟨s, hs⟩ := take_of_passes hpasses .empty
  rw [take_of_fails h] at hs
  cases hs

/-- Of some steps, one is the first that cannot be taken. -/
def FirstFails (host : Host σ) (hooks : HookTable) (steps : List PreparationStep) (step : PreparationStep)
    (reason : String) : Prop :=
  ∃ before after, steps = before ++ step :: after ∧ (∀ earlier ∈ before, earlier.Passes host hooks) ∧
    step.Fails host hooks reason

theorem FirstFails.not_all_pass {steps : List PreparationStep} {step : PreparationStep} {reason : String}
    (h : FirstFails host hooks steps step reason) : ¬ ∀ s ∈ steps, s.Passes host hooks := by
  obtain ⟨before, after, rfl, -, hfails⟩ := h
  exact fun hall => not_passes_of_fails hfails (hall step (List.mem_append_right _ List.mem_cons_self))

/-- Steps in a row are all taken, or the first that cannot be taken ends them. -/
theorem foldlM_take_cases (host : Host σ) (hooks : HookTable) (steps : List PreparationStep)
    (r : Registry Activator) :
    ((∀ step ∈ steps, step.Passes host hooks) ∧ ∃ s, steps.foldlM (take host hooks) r = .ok s) ∨
      ∃ step reason, FirstFails host hooks steps step reason ∧
        steps.foldlM (take host hooks) r = .error (step.fault reason) := by
  -- The registry is generalized: no step looks at what the steps before it loaded.
  induction steps generalizing r with
  | nil => exact .inl ⟨List.forall_mem_nil _, r, rfl⟩
  | cons step rest ih =>
    rcases passes_or_fails host hooks step with hpasses | ⟨reason, hfails⟩
    · obtain ⟨s, hs⟩ := take_of_passes hpasses r
      rw [List.foldlM_cons, hs]
      rcases ih s with ⟨hall, hdone⟩ | ⟨failing, reason, ⟨before, after, rfl, hbefore, hfails⟩, hended⟩
      · exact .inl ⟨List.forall_mem_cons.mpr ⟨hpasses, hall⟩, hdone⟩
      · exact .inr ⟨failing, reason,
          ⟨step :: before, after, rfl, List.forall_mem_cons.mpr ⟨hpasses, hbefore⟩, hfails⟩, hended⟩
    · refine .inr ⟨step, reason, ⟨[], rest, rfl, List.forall_mem_nil _, hfails⟩, ?_⟩
      rw [List.foldlM_cons, take_of_fails hfails]
      rfl

end PreparationStep

namespace Host

variable {σ : Type} (host : Host σ)

/-- The steps before the first plugin of a batch, in order. -/
def preparation (packages : List Package) : List PreparationStep :=
  host.dependencies.map .dependency ++ .engine :: packages.map .package

theorem prepare_eq_foldlM (hooks : HookTable) (packages : List Package) :
    host.prepare hooks packages = (host.preparation packages).foldlM (PreparationStep.take host hooks) .empty := by
  have hpackages : ∀ r, loadAll host.loadPackage r packages =
      (packages.map .package).foldlM (PreparationStep.take host hooks) r := fun r => by
    rw [List.foldlM_map]
    rfl
  rw [prepare, preparation, List.foldlM_append, List.foldlM_map]
  refine bind_congr fun r => ?_
  rw [List.foldlM_cons, PreparationStep.take]
  cases createEngine hooks with
  | error fault => rfl
  | ok => exact hpackages r

/-- A run comes to its plugins exactly if all its dependencies can be loaded, there is an engine and all its
    packages can be loaded. Otherwise the first of these steps that fails is the result: the code says of which kind
    it is, and the detail names the dependency or the package and says why. The world stays as it was: no plugin
    was made or called, no savedata was asked for or handed over, no stub was attached. -/
theorem run_prepared_or_aborted (w : World σ) (packages : List Package) :
    ((host.run w packages).2.result = .success ↔
        ∀ step ∈ host.preparation packages, step.Passes host w.hooks) ∧
      ((host.run w packages).2.result ≠ .success →
        ∃ step reason, PreparationStep.FirstFails host w.hooks (host.preparation packages) step reason ∧
          host.run w packages = (w, ⟨step.resultCode, some (step.detail reason), []⟩)) := by
  have hcases := PreparationStep.foldlM_take_cases host w.hooks (host.preparation packages) .empty
  rw [← prepare_eq_foldlM] at hcases
  rcases hcases with ⟨hpasses, r, hprepared⟩ | ⟨step, reason, hfirst, hprepared⟩
  · have hsuccess : (host.run w packages).2.result = .success := by rw [run, hprepared]
    exact ⟨iff_of_true hsuccess hpasses, fun hresult => absurd hsuccess hresult⟩
  · have hrun : host.run w packages = (w, ⟨step.resultCode, some (step.detail reason), []⟩) := by
      rw [run, hprepared, ← PreparationStep.resultCode_fault reason, ← PreparationStep.message_fault]
    have hresult : (host.run w packages).2.result ≠ .success := by
      rw [hrun]
      cases step <;> exact nofun
    exact ⟨iff_of_false hresult hfirst.not_all_pass, fun _ => ⟨step, reason, hfirst, hrun⟩⟩

end Host

end PluginHost
