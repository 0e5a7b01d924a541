import PluginHost.Proofs.Orchestration.Loading
import PluginHost.Proofs.Registry.BaseChain
/-!
Registries and what was loaded into them, and which types are found to be plugins.

Main statement on registries: after any loads, some of which may have failed, a registry holds the modules of those
that succeeded, a name comes to its first definition in the first of them that has one, and no later load changes
that. The registry of a run is such a one, with the dependencies loaded ahead of the batch.

The search for plugins takes concrete types as it finds them in the modules, but asks the registry by their names
whether they derive from the plugin base type. Main statement on it: what is found is right exactly if each such
type is told by the first definition of its name, in its own module or in an earlier one.
-/

namespace PluginHost

/-- What is asked of a registry: to load a dependency, or a plugin module under an identity. -/
inductive LoadRequest (γ : Type) where
  | dependency (loader : Loader γ) (artifact : Artifact)
  | plugins (loader : Loader γ) (identity : String) (artifact : Artifact)

namespace LoadRequest

variable {γ : Type}

def attempt (q : LoadRequest γ) (r : Registry γ) : Except HostFault (Registry γ) :=
  match q with
  | dependency loader artifact => r.loadDependency loader artifact
  | plugins loader identity artifact => r.loadModule loader identity artifact

/-- The module that a request comes to, if it comes to one. -/
def module? : LoadRequest γ → Option (LoadedModule γ)
  | dependency loader artifact => LoadedModule.ofArtifact? loader artifact.name true artifact
  | plugins loader identity artifact => LoadedModule.ofArtifact? loader identity false artifact

theorem attempt_eq_ok_iff {q : LoadRequest γ} {r s : Registry γ} :
    q.attempt r = .ok s ↔ ∃ m, q.module? = some m ∧ s = r.add m := by
  cases q <;> exact Registry.load_eq_ok_iff

theorem module?_eq_none_of_error {q : LoadRequest γ} {r : Registry γ} {fault : HostFault}
    (h : q.attempt r = .error fault) : q.module? = none := by
  refine Option.eq_none_iff_forall_ne_some.mpr fun m hm => ?_
  rw [attempt_eq_ok_iff.mpr ⟨m, hm, rfl⟩] at h
  cases h

end LoadRequest

namespace Registry

variable {γ : Type}

/-- The registry after some requests in order. One that fails leaves it as it was. -/
def afterLoads (r : Registry γ) (requests : List (LoadRequest γ)) : Registry γ :=
  requests.foldl (fun r q => (q.attempt r).toOption.getD r) r

theorem afterLoads_cons (r : Registry γ) (q : LoadRequest γ) (rest : List (LoadRequest γ)) :
    r.afterLoads (q :: rest) = ((q.attempt r).toOption.getD r).afterLoads rest := rfl

theorem afterLoads_append (r : Registry γ) (requests more : List (LoadRequest γ)) :
    r.afterLoads (requests ++ more) = (r.afterLoads requests).afterLoads more :=
  List.foldl_append

/-- A request adds the module that it comes to, and nothing if it comes to none. -/
theorem attempt_getD (r : Registry γ) (q : LoadRequest γ) :
    (q.attempt r).toOption.getD r = r.addAll q.module?.toList := by
  cases hattempt : q.attempt r with
  | ok s =>
    obtain ⟨m, hm, rfl⟩ := LoadRequest.attempt_eq_ok_iff.mp hattempt
    rw [hm]
    rfl
  | error fault =>
    rw [LoadRequest.module?_eq_none_of_error hattempt]
    rfl

theorem afterLoads_eq (r : Registry γ) (requests : List (LoadRequest γ)) :
    r.afterLoads requests = r.addAll (requests.filterMap LoadRequest.module?) := by
  induction requests generalizing r with
  | nil => rfl
  | cons q rest ih =>
    rw [afterLoads_cons, attempt_getD, ih]
    cases hm : q.module? with
    | none => rw [List.filterMap_cons_none hm, Option.toList_none]; rfl
    | some m => rw [List.filterMap_cons_some hm, Option.toList_some]; rfl

end Registry

namespace Host

variable {σ : Type} (host : Host σ)

/-- Loads that have all succeeded are requests like others. -/
theorem afterLoads_of_loadAll {α φ : Type} {load : Registry Activator → α → Except φ (Registry Activator)}
    {request : α → LoadRequest Activator}
    (hload : ∀ {r a s}, load r a = .ok s → (request a).attempt r = .ok s) {r s : Registry Activator}
    {items : List α} (hloaded : loadAll load r items = .ok s) :
    s = r.afterLoads (items.map request) := by
  induction items generalizing r with
  | nil =>
    cases hloaded
    rfl
  | cons a rest ih =>
    rw [loadAll, List.foldlM_cons] at hloaded
    cases hfirst : load r a with
    | error fault =>
      rw [hfirst] at hloaded
      cases hloaded
    | ok next =>
      rw [hfirst] at hloaded
      rw [List.map_cons, Registry.afterLoads_cons, hload hfirst]
      exact ih hloaded

/-- What a run asks of its registry ahead of the batch. -/
def dependencyRequests : List (LoadRequest Activator) := host.dependencies.map (.dependency host.loader)

def packageRequests (packages : List Package) : List (LoadRequest Activator) :=
  packages.map fun package => .plugins host.loader package.identity package.artifact

theorem prepare_eq_afterLoads {hooks : HookTable} {packages : List Package} {s : Registry Activator}
    (hprepare : host.prepare hooks packages = .ok s) :
    s = Registry.empty.afterLoads (host.dependencyRequests ++ host.packageRequests packages) := by
  cases hdependencies : loadAll host.loadDependency .empty host.dependencies with
  | error fault =>
    rw [prepare, hdependencies] at hprepare
    cases hprepare
  | ok base =>
    cases hengine : (createEngine hooks).mapError fun fault => RunFault.engineConstruction fault.message with
    | error fault =>
      rw [prepare, hdependencies, hengine] at hprepare
      cases hprepare
    | ok engine =>
      simp only [prepare, hdependencies, hengine] at hprepare
      have hbase : base = Registry.empty.afterLoads host.dependencyRequests :=
        afterLoads_of_loadAll (fun h => mapError_eq_ok_iff.mp h) hdependencies
      rw [Registry.afterLoads_append, ← hbase]
      exact afterLoads_of_loadAll (fun h => mapError_eq_ok_iff.mp h) hprepare

end Host

namespace Registry

variable {γ : Type}

/-- After any requests the registry holds the modules of those that have succeeded, in order. A name comes
    to something exactly if one of these modules defines it, and then to its first definition in the first
    module with one. A further request succeeds exactly if there is a module for it, which is put after the
    others; one that fails leaves the registry as it is. No request changes what a name has come to, so in
    the registry of a run a type of a dependency is the one that it was before the batch. -/
theorem resolve?_afterLoads (requests : List (LoadRequest γ)) :
    let r := Registry.empty.afterLoads requests
    let modules := requests.filterMap LoadRequest.module?
    r.modules = modules ∧
    (∀ name, (r.resolve? name).isSome ↔ ∃ m ∈ modules, ∃ t ∈ m.image.types, t.fullName = name) ∧
    (∀ name t, r.resolve? name = some t ↔ FirstDefinition modules name t) ∧
    (∀ q : LoadRequest γ,
      (∃ s m, q.attempt r = .ok s ∧ q.module? = some m ∧ s = r.afterLoads [q] ∧ s.modules = modules ++ [m]) ∨
      (∃ fault, q.attempt r = .error fault ∧ q.module? = none ∧ (r.afterLoads [q]).modules = modules ∧
        ∀ name, (r.afterLoads [q]).resolve? name = r.resolve? name)) ∧
    (∀ more name t, r.resolve? name = some t → (r.afterLoads more).resolve? name = some t) ∧
    ∀ {σ : Type} (host : Host σ) (hooks : HookTable) (packages : List Package) (s : Registry Activator),
      host.prepare hooks packages = .ok s →
        let base := Registry.empty.afterLoads host.dependencyRequests
        s = base.afterLoads (host.packageRequests packages) ∧
          ∀ name t, base.resolve? name = some t → s.resolve? name = some t := by
  intro r modules
  have hmodules : r.modules = modules := by
    rw [show r = _ from afterLoads_eq _ _, modules_addAll]
    rfl
  have hstays : ∀ {δ : Type} (r : Registry δ) more name t, r.resolve? name = some t →
      (r.afterLoads more).resolve? name = some t := by
    intro δ r more name t h
    rw [afterLoads_eq]
    exact resolve?_addAll h _
  refine ⟨hmodules, fun name => ?_, fun name t => ?_, fun q => ?_, hstays r, ?_⟩
  · rw [← hmodules]
    exact resolve?_isSome_iff
  · rw [← hmodules]
    exact resolve?_eq_some_iff
  · cases hattempt : q.attempt r with
    | ok s =>
      obtain ⟨m, hm, rfl⟩ := LoadRequest.attempt_eq_ok_iff.mp hattempt
      have hafter : r.afterLoads [q] = r.add m := by
        rw [afterLoads_cons, hattempt]
        rfl
      exact .inl ⟨_, m, rfl, hm, hafter.symm, congrArg (· ++ [m]) hmodules⟩
    | error fault =>
      have hafter : r.afterLoads [q] = r := by
        rw [afterLoads_cons, hattempt]
        rfl
      exact .inr ⟨fault, rfl, LoadRequest.module?_eq_none_of_error hattempt, by rw [hafter, hmodules],
        fun name => by rw [hafter]⟩
  · intro σ host hooks packages s hprepare base
    have hs : s = base.afterLoads (host.packageRequests packages) :=
      (host.prepare_eq_afterLoads hprepare).trans (afterLoads_append _ _ _)
    exact ⟨hs, fun name t h => hs ▸ hstays base _ name t h⟩

/-! Types that are found to be plugins. -/

/-- The concrete types of a module from which some are plugins. -/
def candidates (m : LoadedModule γ) : List TypeDef :=
  if m.isDependency then [] else m.image.types.filter (·.isConcrete)

/-- The plugins in some modules, if types are plugins or not as it is said. -/
def pluginsBy (isPlugin : TypeDef → Bool) (modules : List (LoadedModule γ)) :
    List (DiscoveredPlugin γ) :=
  modules.flatMap fun m => ((candidates m).filter isPlugin).map fun t => ⟨m.identity, t.fullName, m.code⟩

/-- A name derives from the plugin base type if its first definition does. -/
theorem discover_eq (r : Registry γ) :
    r.discover = pluginsBy (fun t => r.derivesFrom t.fullName pluginBaseType) r.modules := by
  rw [discover, pluginsBy]
  induction r.modules with
  | nil => rfl
  | cons m rest ih =>
    rw [List.flatMap_cons, ← ih]
    cases hm : m.isDependency <;>
      simp [hm, candidates, pluginsOf, List.filter_filter, Bool.and_comm]

theorem typeNames_pluginsBy (isPlugin : TypeDef → Bool) (modules : List (LoadedModule γ)) :
    (pluginsBy isPlugin modules).map (·.typeName) =
      ((modules.flatMap candidates).filter isPlugin).map (·.fullName) := by
  simp [pluginsBy, List.map_flatMap, List.filter_flatMap, Function.comp_def]

/-- Two opinions on what is a plugin, of which one goes by names alone, find the same plugins only if they
    agree on every candidate: each name is found as often by both, and the one that goes by names finds all
    candidates of a name or none. -/
theorem agree_of_pluginsBy_eq {byName : String → Bool} {isPlugin : TypeDef → Bool}
    {modules : List (LoadedModule γ)}
    (h : pluginsBy (fun t => byName t.fullName) modules = pluginsBy isPlugin modules) :
    ∀ t ∈ modules.flatMap candidates, byName t.fullName = isPlugin t := by
  intro t ht
  let namesakes := (modules.flatMap candidates).filter (·.fullName == t.fullName)
  have hself : t ∈ namesakes := List.mem_filter.mpr ⟨ht, beq_self_eq_true _⟩
  have hcount : namesakes.countP (fun u => byName u.fullName) = namesakes.countP isPlugin := by
    have hnames := congrArg (List.map (·.typeName)) h
    rw [typeNames_pluginsBy, typeNames_pluginsBy] at hnames
    simpa only [namesakes, List.count_eq_countP, List.countP_map, List.countP_filter, Function.comp_def,
      Bool.and_comm] using congrArg (List.count t.fullName) hnames
  have hbyName : ∀ u ∈ namesakes, byName u.fullName = byName t.fullName := by
    intro u hu
    rw [eq_of_beq (List.mem_filter.mp hu).2]
  cases hverdict : byName t.fullName with
  | true =>
    have hall : namesakes.countP (fun u => byName u.fullName) = namesakes.length :=
      List.countP_eq_length.mpr fun u hu => (hbyName u hu).trans hverdict
    exact (List.countP_eq_length.mp (hcount ▸ hall) t hself).symm
  | false =>
    have hnone : namesakes.countP (fun u => byName u.fullName) = 0 :=
      List.countP_eq_zero.mpr fun u hu => by simp [hbyName u hu, hverdict]
    exact (Bool.eq_false_iff.mpr (List.countP_eq_zero.mp (hcount ▸ hnone) t hself)).symm

theorem pluginsBy_congr {p q : TypeDef → Bool} {modules : List (LoadedModule γ)}
    (h : ∀ t ∈ modules.flatMap candidates, p t = q t) : pluginsBy p modules = pluginsBy q modules := by
  refine List.flatMap_congr fun m hm => congrArg _ (List.filter_congr fun t ht => ?_)
  exact h t (List.mem_flatMap.mpr ⟨m, hm, ht⟩)

theorem mem_candidates {modules : List (LoadedModule γ)} {t : TypeDef} :
    t ∈ modules.flatMap candidates ↔
      ∃ m ∈ modules, m.isDependency = false ∧ t ∈ m.image.types ∧ t.isConcrete = true := by
  refine List.mem_flatMap.trans (exists_congr fun m => and_congr_right fun _ => ?_)
  cases hm : m.isDependency <;> simp [candidates, hm]

theorem derivesFrom_eq (r : Registry γ) (name base : String) :
    r.derivesFrom name base = (r.resolve? name).any fun first => r.Descends base first :=
  Bool.eq_iff_iff.mpr (by simp only [derivesFrom_iff, Option.any_eq_true, decide_eq_true_eq])

/-- What is found in the modules that some requests have come to: the candidates, in load order and in the
    order of the images, of whose names the first definition derives from the plugin base type. These are
    the candidates that derive from it themselves exactly if each candidate does so if and only if the
    first definition of its name does. -/
theorem discover_afterLoads (requests : List (LoadRequest γ)) :
    let r := Registry.empty.afterLoads requests
    let modules := requests.filterMap LoadRequest.module?
    r.discover = pluginsBy (fun t => (r.resolve? t.fullName).any fun first =>
      r.Descends pluginBaseType first) modules ∧
    (r.discover = pluginsBy (fun t => r.Descends pluginBaseType t) modules ↔
      ∀ m ∈ modules, m.isDependency = false → ∀ t ∈ m.image.types, t.isConcrete = true →
        ∀ first, r.resolve? t.fullName = some first →
          (r.Descends pluginBaseType t ↔ r.Descends pluginBaseType first)) := by
  intro r modules
  have hmodules : r.modules = modules := by
    rw [show r = _ from afterLoads_eq _ _, modules_addAll]
    rfl
  have hdiscover := hmodules ▸ r.discover_eq
  refine ⟨by simpa only [derivesFrom_eq] using hdiscover, ?_⟩
  rw [hdiscover]
  constructor
  · intro hequal m hm hplugins t ht hconcrete first hfirst
    have hagree : r.derivesFrom t.fullName pluginBaseType = decide (r.Descends pluginBaseType t) :=
      agree_of_pluginsBy_eq hequal t (mem_candidates.mpr ⟨m, hm, hplugins, ht, hconcrete⟩)
    rw [derivesFrom_eq, hfirst, Option.any_some, decide_eq_decide] at hagree
    exact hagree.symm
  · intro hagree
    refine pluginsBy_congr fun t ht => ?_
    obtain ⟨m, hm, hplugins, ht, hconcrete⟩ := mem_candidates.mp ht
    obtain ⟨first, hfirst⟩ := Option.isSome_iff_exists.mp
      (resolve?_isSome_iff.mpr ⟨m, hmodules ▸ hm, t, ht, rfl⟩)
    rw [derivesFrom_eq, hfirst, Option.any_some, decide_eq_decide]
    exact (hagree m hm hplugins t ht hconcrete first hfirst).symm

end Registry

/-! Two modules that define the same names, each of them one plugin and one type that is none. -/

namespace Namesakes

open Registry

def type (name : String) (isPlugin : Bool) : TypeDef :=
  ⟨"Mods", name, if isPlugin then some (.named "Patchwork" "Plugin") else none, false, false, [], [], []⟩

def request (name : String) (types : List TypeDef) : LoadRequest Unit :=
  .plugins (fun _ => .ok ()) (name ++ ".cs")
    ((Artifact.ofImage ⟨name, [⟨name, types⟩]⟩ none).toOption.getD default)

def requests : List (LoadRequest Unit) :=
  [request "first" [type "Jump" true, type "Zoom" false],
    request "second" [type "Jump" false, type "Zoom" true]]

/-- The second module is asked for the plugin of the first one, and its own plugin is not found. -/
theorem namesakes_confused :
    let r := Registry.empty.afterLoads requests
    let modules := requests.filterMap LoadRequest.module?
    (r.discover.map fun p => (p.identity, p.typeName)) =
        [("first.cs", "Mods.Jump"), ("second.cs", "Mods.Jump")] ∧
      ((pluginsBy (fun t => r.Descends pluginBaseType t) modules).map fun p => (p.identity, p.typeName)) =
        [("first.cs", "Mods.Jump"), ("second.cs", "Mods.Zoom")] := by
  decide +kernel

end Namesakes

end PluginHost
