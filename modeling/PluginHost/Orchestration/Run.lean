import PluginHost.Lifecycle.Outcome
import PluginHost.Lifecycle.Plugin
import PluginHost.Patching.HookTable
import PluginHost.Registry
import PluginHost.Savedata.Store
/-!
Runs: a batch of modules is loaded, its plugins go through their stages, and their patches are
applied.

What fails before the first plugin runs aborts the whole run. After that, a failure ends the plugin
it happens in and no other.
-/

namespace PluginHost

/-- A plugin module and the identity it is loaded under. -/
structure Package where
  identity : String
  artifact : Artifact
deriving Inhabited

/-- A host whose savedata store holds a `σ`. -/
structure Host (σ : Type) where
  loader : Loader Activator
  store : SavedataStore σ
  /-- Modules that are loaded ahead of every batch. -/
  dependencies : List Artifact
  /-- The tier under which plugins reach members of the host, if they do. -/
  access : Option Tier

/-- How a call of a plugin's code ended. Only the last stage declares patches. -/
inductive CallEnd where
  | returned (patches : List Patch)
  | failed (failure : StageFailure)
deriving DecidableEq

def CallEnd.of {α : Type} (patches : α → List Patch) : Except StageFailure α → CallEnd
  | .ok value => returned (patches value)
  | .error failure => failed failure

/-- Something that a run did to a plugin or to its savedata. -/
inductive Event where
  | called (identity typeName : String) (stage : Stage) (ended : CallEnd)
  /-- Savedata was asked for. It was not handed out if there is a fault. -/
  | loaded (identity : String) (fault : Option HostFault)
  | saved (identity : String)
deriving DecidableEq

/-- What a run works on and leaves behind. Saves are carried out after the run, in this order. -/
structure World (σ : Type) where
  hooks : HookTable
  members : Members
  store : σ
  saves : List (String × Toml.Table)
  log : List Json.Value
  events : List Event

namespace World

variable {σ : Type}

def note (w : World σ) (event : Event) : World σ := { w with events := w.events ++ [event] }

end World

namespace Host

variable {σ : Type}

/-- Loads modules one after another; the first that fails ends it. -/
def loadAll {α φ : Type} (load : Registry Activator → α → Except φ (Registry Activator)) :
    Registry Activator → List α → Except φ (Registry Activator) :=
  List.foldlM load

def loadDependency (host : Host σ) (r : Registry Activator) (artifact : Artifact) :
    Except RunFault (Registry Activator) :=
  (r.loadDependency host.loader artifact).mapError fun fault =>
    .dependencyLoad artifact.name fault.message

def loadPackage (host : Host σ) (r : Registry Activator) (package : Package) :
    Except RunFault (Registry Activator) :=
  (r.loadModule host.loader package.identity package.artifact).mapError fun fault =>
    .moduleLoad package.identity fault.message

/-- The engine for one run; without patchable functions there is none. -/
def createEngine (hooks : HookTable) : Except HostFault Unit :=
  if hooks.isPatchable then .ok ()
  else .error (.engineUnavailable "no patchable host functions registered")

/-- Loads dependencies and packages, with the engine made in between. -/
def prepare (host : Host σ) (hooks : HookTable) (packages : List Package) :
    Except RunFault (Registry Activator) := do
  let r ← loadAll host.loadDependency .empty host.dependencies
  (createEngine hooks).mapError fun fault => RunFault.engineConstruction fault.message
  loadAll host.loadPackage r packages

/-- Applies one patch: both sides are given, the target is not protected, the stub is a function of
    a loaded module, and the hook table takes it. -/
def applyPatch (r : Registry Activator) (identity : String) (hooks : HookTable) (p : Patch) :
    HookTable × PatchOutcome :=
  match p.target, p.stub with
  | some target, some stub =>
    match protecting? target.declaringType with
    | some ns => (hooks, ⟨p, .protectedNamespace ns⟩)
    | none =>
      if !r.resolvesFunction stub then
        (hooks, ⟨p, .interceptionFailed ("stub " ++ stub.display ++
          " not found in loaded modules")⟩)
      else
        match hooks.intercept ⟨target, p.location⟩ ⟨stub, p.effectivePriority, identity⟩ with
        | .ok hooks => (hooks, ⟨p, .applied⟩)
        | .error fault => (hooks, ⟨p, .interceptionFailed fault.message⟩)
  | _, _ => (hooks, ⟨p, .nullDescriptor⟩)

/-- Applies patches in order, each to the table that the one before left. -/
def applyPatches (r : Registry Activator) (identity : String) :
    HookTable → List Patch → HookTable × List PatchOutcome
  | hooks, [] => (hooks, [])
  | hooks, p :: rest =>
    let (hooks, outcome) := applyPatch r identity hooks p
    let (hooks, outcomes) := applyPatches r identity hooks rest
    (hooks, outcome :: outcomes)

/-- The stage in which a plugin works on its savedata, which is loaded before and saved after it. A
    plugin without savedata has no such stage. -/
def configure (host : Host σ) (identity typeName : String) (info : PluginInfo)
    (plugin : InitializedPlugin) (w : World σ) : World σ × Except StageFailure PatchStage :=
  if !info.usesSavedata then (w, .ok plugin.patchStage)
  else
    let (store, loaded) := host.store.load w.store identity
    let w := { w with store }
    match loaded with
    | .error fault =>
      (w.note (.loaded identity (some fault)), .error ⟨.configurationLoad, fault.message, false⟩)
    | .ok document =>
      let done := plugin.configure document.data
      let ended := done.next.outcome .configurationLoad
      let w := (w.note (.loaded identity none)).note
        (.called identity typeName .configurationLoad (.of (fun _ => []) ended))
      let w := { w with log := w.log ++ done.log }
      match ended with
      | .error failure => (w, .error failure)
      | .ok next =>
        ({ w.note (.saved identity) with saves := w.saves ++ [(identity, done.data)] }, .ok next)

/-- The record of a plugin that failed. -/
def failedRecord (identity typeName : String) (info : Option PluginInfo) (failure : StageFailure) :
    RuntimeRecord :=
  ⟨identity, typeName, .failed failure.stage, info, [], some failure⟩

/-- The stages of a plugin after the first. -/
def finishPlugin (host : Host σ) (r : Registry Activator) (identity typeName : String)
    (info : PluginInfo) (plugin : InitializedPlugin) (w : World σ) : World σ × RuntimeRecord :=
  match host.configure identity typeName info plugin w with
  | (w, .error failure) => (w, failedRecord identity typeName (some info) failure)
  | (w, .ok stage) =>
    let declared := stage.patches.outcome .prePatch
    let w := w.note (.called identity typeName .prePatch (.of id declared))
    match declared with
    | .error failure => (w, failedRecord identity typeName (some info) failure)
    | .ok patches =>
      let (hooks, outcomes) := applyPatches r identity w.hooks patches
      ({ w with hooks }, ⟨identity, typeName, .patched, some info, outcomes, none⟩)

/-- Takes one plugin through its stages, as far as it comes. -/
def runPlugin (host : Host σ) (r : Registry Activator) (w : World σ)
    (plugin : DiscoveredPlugin Activator) : World σ × RuntimeRecord :=
  let identity := plugin.identity
  let typeName := plugin.typeName
  let made := (plugin.code typeName).outcome .construction
  let w := w.note (.called identity typeName .construction (.of (fun _ => []) made))
  match made with
  | .error failure => (w, failedRecord identity typeName none failure)
  | .ok first =>
    let done := first.run host.access (.named typeName) w.members []
    let ended := done.result.outcome .initialization
    let w := w.note (.called identity typeName .initialization (.of (fun _ => []) ended))
    let w := { w with members := done.members, log := w.log ++ done.log }
    match ended with
    | .error failure => (w, failedRecord identity typeName (some done.info) failure)
    | .ok next => host.finishPlugin r identity typeName done.info next w

/-- Takes plugins through their stages one after another. -/
def runPlugins (host : Host σ) (r : Registry Activator) :
    World σ → List (DiscoveredPlugin Activator) → World σ × List RuntimeRecord
  | w, [] => (w, [])
  | w, plugin :: rest =>
    let (w, record) := host.runPlugin r w plugin
    let (w, records) := runPlugins host r w rest
    (w, record :: records)

/-- One run over a batch. -/
def run (host : Host σ) (w : World σ) (packages : List Package) : World σ × Outcome :=
  match host.prepare w.hooks packages with
  | .error fault => (w, ⟨fault.resultCode, some fault.message, []⟩)
  | .ok r =>
    let (w, records) := host.runPlugins r w r.discover
    (w, ⟨.success, none, records⟩)

/-- Carries out the saves of a run in order. A save that fails is dropped. -/
def carryOutSaves (host : Host σ) (w : World σ) : World σ :=
  { w with
    store := w.saves.foldl (fun store s => (host.store.save store s.1 s.2).1) w.store
    saves := [] }

end Host

end PluginHost
